import VoiceRoom.Json.Token

/-!
# JSON values

A value as it is written: numbers keep their spelling, objects keep their members in order, and a
member may be named twice. A reader of the value decides what it makes of that.
-/

namespace VoiceRoom

inductive Json where
  | null
  | bool (b : Bool)
  | number (n : Json.Number)
  | string (s : Json.Text)
  | array (items : List Json)
  | object (members : List (Json.Text × Json))

namespace Json

instance : Inhabited Json := ⟨null⟩

/-- A value without parts. -/
def Atom.toJson : Atom → Json
  | .null => .null
  | .bool b => .bool b
  | .number n => .number n

def ofText (s : String) : Json :=
  .string (some s)

def ofInt (i : Int) : Json :=
  .number (Number.ofInt i)

def ofNat (n : Nat) : Json :=
  ofInt n

/-- An object whose members are named by texts. -/
def record (members : List (String × Json)) : Json :=
  .object (members.map fun (name, value) => (some name, value))

end Json

end VoiceRoom
