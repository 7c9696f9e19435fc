import VoiceRoom.Number.Word
import VoiceRoom.Store.Entries
import VoiceRoom.Store.ScriptNumber

/-!
# The shared store's data

A flat space of keys with values, each a string of bytes, and the two scripts that write a record:
one writes in any case, the other only over an expected version. The version of a record is a
counter under a key of its own, beside the record's key. A script that fails midway stops, and what
it has written by then stays.
-/

namespace VoiceRoom

/-- The data of the shared store. -/
structure Keyspace where
  entries : Entries (List Symbol) := []
deriving DecidableEq, Repr

/-- The key of the counter that goes with a record's key. -/
def versionKey (key : String) : String :=
  key ++ ":version"

namespace Keyspace

def lookup (ks : Keyspace) (key : String) : Option (List Symbol) :=
  ks.entries.lookup key

def set (ks : Keyspace) (key : String) (data : List Symbol) : Keyspace :=
  ⟨ks.entries.assign key data⟩

def erase (ks : Keyspace) (key : String) : Keyspace :=
  ⟨ks.entries.erase key⟩

/-- What is set is there, and nothing else changes. -/
theorem lookup_set (ks : Keyspace) (key k : String) (data : List Symbol) :
    (ks.set key data).lookup k = if k = key then some data else ks.lookup k :=
  Entries.lookup_assign key k data ks.entries

/-- What is erased is gone, and nothing else changes. -/
theorem lookup_erase (ks : Keyspace) (key k : String) :
    (ks.erase key).lookup k = if k = key then none else ks.lookup k :=
  Entries.lookup_erase key k ks.entries

/-! ### Counters -/

/-- The integer of 64 bits that a counter holds. It is written in exactly one way. -/
def readCounter? (data : List Symbol) : Option Int := do
  let cs ← data.mapM Symbol.char?
  let (negative, digits) :=
    match cs with
    | '-' :: digits => (true, digits)
    | digits => (false, digits)
  let canonical :=
    match digits with
    | [] => false
    | '0' :: rest => rest == [] && !negative
    | digits => digits.all Char.isDigit
  let n : Int := Nat.ofDigitChars 10 digits 0
  let i := if negative then -n else n
  if canonical && fitsInt64 i then some i else none

/-- The value of a counter. -/
def counterData (i : Int) : List Symbol :=
  ((if i < 0 then ['-'] else []) ++ Nat.toDigits 10 i.natAbs).map .char

/-- Raises a counter by one; an absent one starts from zero. It fails on anything but a counter
that can still be raised. -/
def increment (ks : Keyspace) (key : String) : Option Int × Keyspace :=
  let old? :=
    match ks.lookup key with
    | none => some 0
    | some data => readCounter? data
  match old? with
  | none => (none, ks)
  | some old =>
    if old = int64Max then (none, ks)
    else (some (old + 1), ks.set key (counterData (old + 1)))

/-! ### Scripts -/

/-- Writes a record and raises its version, which is handed back as scripts hand back integers. -/
def versionedPut (ks : Keyspace) (key : String) (data : List Symbol) : Option Int × Keyspace :=
  let (version?, ks) := (ks.set key data).increment (versionKey key)
  (version?.map fun v => (ScriptNumber.ofInt v).toInt64, ks)

/-- The version of a record as scripts see it. -/
def scriptVersion? (ks : Keyspace) (key : String) : Option ScriptNumber :=
  match ks.lookup (versionKey key) with
  | none => some (ScriptNumber.ofInt 0)
  | some data => ScriptNumber.read? data

/-- Writes a record if it has the expected version, `none` meaning that it must be absent. Hands
back the new version, zero if the record has another version, or a negative number if its version
is none. -/
def conditionalPut (ks : Keyspace) (key : String) (data : List Symbol) (expected : Option Nat) :
    Option Int × Keyspace :=
  match expected with
  | none => if (ks.lookup key).isSome then (some 0, ks) else ks.versionedPut key data
  | some version =>
    match ks.scriptVersion? key with
    | none => (some (-1), ks)
    | some current =>
      if (ks.lookup key).isNone || !current.same (ScriptNumber.ofInt version) then (some 0, ks)
      else ks.versionedPut key data

end Keyspace

end VoiceRoom
