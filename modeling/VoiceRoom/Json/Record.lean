import VoiceRoom.Json.Basic
import VoiceRoom.Number.Word

/-!
# Reading records

A record is written as an object, or as the array of its fields in the order they are declared.
In an object, members with other names are passed over. Fields at the end of an array may be left
out like any other; there are never more items than fields.
-/

namespace VoiceRoom.Json

/-- What a reader makes of a name that is given twice. -/
inductive Repeats where
  | refused
  | lastWins
deriving DecidableEq, Repr

/-- The fields of a record, by name or by place. -/
inductive Record where
  | members (repeats : Repeats) (ms : List (String × Json))
  | items (vs : List Json)

/-- A member whose name denotes a text. -/
def named? : Text × Json → Option (String × Json)
  | (some name, v) => some (name, v)
  | (none, _) => none

/-- Takes a value as a record with at most `arity` fields. -/
def record? (repeats : Repeats) (arity : Nat) : Json → Option Record
  | .object ms => (ms.mapM named?).map (Record.members repeats)
  | .array vs => if vs.length ≤ arity then some (.items vs) else none
  | _ => none

/-- A place in a record: its number and its name. -/
structure Field where
  place : Nat
  name : String

namespace Record

/-- The value at a place of a record. The outer `none` means that it is given twice where that is
refused, the inner one that it is left out. -/
def find? (r : Record) (f : Field) : Option (Option Json) :=
  match r with
  | .items vs => some vs[f.place]?
  | .members repeats ms =>
    match repeats, (ms.filter (·.1 == f.name)).map Prod.snd with
    | .refused, _ :: _ :: _ => none
    | _, vs => some vs.getLast?

/-- Reads a field that must be there. -/
def required {α : Type} (r : Record) (f : Field) (read : Json → Option α) : Option α :=
  match r.find? f with
  | some (some v) => read v
  | _ => none

/-- Reads a field that stands for `default` where it is left out. -/
def optional {α : Type} (r : Record) (f : Field) (default : α) (read : Json → Option α) :
    Option α :=
  match r.find? f with
  | some (some v) => read v
  | some none => some default
  | none => none

end Record

/-! ### Values of fields -/

def text? : Json → Option String
  | .string s => s
  | _ => none

/-- A text, or none, written as null. -/
def textOrNull? : Json → Option (Option String)
  | .null => some none
  | v => v.text?.map some

def bool? : Json → Option Bool
  | .bool b => some b
  | _ => none

def int64? : Json → Option Int
  | .number n => do
    let i ← n.int?
    if fitsInt64 i then some i else none
  | _ => none

/-- A list, each item of which can be read. -/
def list? {α : Type} (read : Json → Option α) : Json → Option (List α)
  | .array vs => vs.mapM read
  | _ => none

/-- The name of a variant without parts: a string, or an object whose only member is that name
with null. -/
def variant? (repeats : Repeats) : Json → Option String
  | .string s => s
  | .object ms =>
    match repeats, ms with
    | .refused, [(name, .null)] => name
    | .lastWins, ms =>
      match ms.getLast? with
      | some (name, .null) => if ms.all (·.1 == name) then name else none
      | _ => none
    | _, _ => none
  | _ => none

end VoiceRoom.Json
