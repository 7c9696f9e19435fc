import VoiceRoom.Simulation.World

/-!
# Running programs in a world

A program runs call by call. Right before a call of the store or of the provider other things may
happen to the world: interruptions say what, and before which call.
-/

namespace VoiceRoom.Simulation

/-- The calls that can be interrupted. -/
inductive Point where
  | store
  | provider
deriving DecidableEq, Repr

/-- The kind of a call, if it can be interrupted. -/
def Point.ofCall? : Call → Option Point
  | .get _ | .putIf .. | .ping => some .store
  | .createMeeting _ | .createParticipant .. => some .provider
  | _ => none

/-- Which calls of a program are interrupted. Calls of each kind are counted from one. -/
inductive Trigger where
  | nth (n : Nat)
  | every
deriving DecidableEq, Repr

/-- Whether a trigger goes off at a call. -/
def Trigger.hits : Trigger → Nat → Bool
  | nth n, i => n == i
  | every, _ => true

/-- Something that happens before calls, and what is seen of it. -/
structure Interruption (α : Type) where
  point : Point
  trigger : Trigger
  happen : World → World × List α

/-- A call that was answered. -/
structure Entry where
  call : Call
  answer : call.Answer

/-- How far a run has come: the calls that were made, latest first, and what was seen of
interruptions. -/
structure Progress (α : Type) where
  world : World
  entries : List Entry := []
  seen : List α := []
  storeCalls : Nat := 0
  providerCalls : Nat := 0

namespace Progress

variable {α : Type}

/-- Counts a call, and says which one of its kind it is. -/
def countCall (p : Progress α) : Point → Nat × Progress α
  | .store => (p.storeCalls + 1, { p with storeCalls := p.storeCalls + 1 })
  | .provider => (p.providerCalls + 1, { p with providerCalls := p.providerCalls + 1 })

def interrupt (p : Progress α) (i : Interruption α) : Progress α :=
  let (world, seen) := i.happen p.world
  { p with world, seen := p.seen ++ seen }

/-- Arrives at a call: interruptions that it sets off happen, in order. -/
def arrive (p : Progress α) (is : List (Interruption α)) (c : Call) : Progress α :=
  match Point.ofCall? c with
  | none => p
  | some point =>
    let (n, p) := p.countCall point
    (is.filter fun i => i.point == point && i.trigger.hits n).foldl interrupt p

def keep (p : Progress α) (e : Entry) : Progress α :=
  if (Point.ofCall? e.call).isSome then { p with entries := e :: p.entries } else p

end Progress

/-- Runs a program. There is no result if a call stays without an answer. -/
def run {α β : Type} (is : List (Interruption α)) :
    Program β → Progress α → Option β × Progress α
  | .done b, p => (some b, p)
  | .ask c next, p =>
    let p := p.arrive is c
    match p.world.answer c with
    | (none, world) => (none, { p with world })
    | (some r, world) => run is (next r) ({ p with world }.keep ⟨c, r⟩)

end VoiceRoom.Simulation
