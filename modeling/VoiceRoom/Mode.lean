import VoiceRoom.Json.Record

/-!
# Realtime mode

In real mode the provider is asked for meetings and tokens; in mock mode both are made up. The mode
can be changed while the service runs: a switch sets it, and selectors follow the switch they were
taken from. A selector outlives its switch and then keeps the last mode.
-/

namespace VoiceRoom

inductive Mode where
  | mock
  | real
deriving DecidableEq, Repr, Inhabited

namespace Mode

def name : Mode → String
  | .mock => "mock"
  | .real => "real"

def ofName? : String → Option Mode
  | "mock" => some .mock
  | "real" => some .real
  | _ => none

theorem ofName?_name (m : Mode) : ofName? m.name = some m := by
  cases m <;> rfl

def toJson (m : Mode) : Json := Json.ofText m.name

def ofJson? (repeats : Json.Repeats) (v : Json) : Option Mode :=
  v.variant? repeats >>= ofName?

end Mode

/-- A change of mode, which is worth a note only if the mode differs. -/
structure ModeChange where
  old : Mode
  new : Mode
deriving DecidableEq, Repr

/-- Switches and selectors. Each is known by its place in its list and refers to a channel, which
holds the mode. -/
structure ModeBoard where
  channels : Array Mode := #[]
  switches : List Nat := []
  selectors : List Nat := []

namespace ModeBoard

/-- Adds a switch and a selector that follows it. -/
def channel (b : ModeBoard) (m : Mode) : ModeBoard where
  channels := b.channels.push m
  switches := b.switches ++ [b.channels.size]
  selectors := b.selectors ++ [b.channels.size]

/-- Adds a selector whose mode never changes. -/
def fixed (b : ModeBoard) (m : Mode) : ModeBoard where
  channels := b.channels.push m
  switches := b.switches
  selectors := b.selectors ++ [b.channels.size]

/-- Adds a selector that follows what selector `i` follows. -/
def clone (b : ModeBoard) (i : Nat) : ModeBoard :=
  { b with selectors := b.selectors ++ b.selectors[i]?.toList }

/-- Adds a selector that follows switch `i`. -/
def subscribe (b : ModeBoard) (i : Nat) : ModeBoard :=
  { b with selectors := b.selectors ++ b.switches[i]?.toList }

/-- Sets the mode of switch `i`, and says whether that changed anything. -/
def set (b : ModeBoard) (i : Nat) (m : Mode) : ModeBoard × Option ModeChange :=
  match b.switches[i]? with
  | none => (b, none)
  | some c =>
    let old := b.channels[c]?.getD m
    ({ b with channels := b.channels.setIfInBounds c m }, if old = m then none else some ⟨old, m⟩)

/-- Drops selector `i`. -/
def dropSelector (b : ModeBoard) (i : Nat) : ModeBoard :=
  { b with selectors := b.selectors.eraseIdx i }

/-- Drops switch `i`. Selectors that followed it keep their mode. -/
def dropSwitch (b : ModeBoard) (i : Nat) : ModeBoard :=
  { b with switches := b.switches.eraseIdx i }

/-- The mode of every selector. -/
def current (b : ModeBoard) : List Mode :=
  b.selectors.filterMap fun c => b.channels[c]?

end ModeBoard

end VoiceRoom
