/-!
# Unsigned numerals

A numeral is an optional plus sign and decimal digits, of which there is at least one. It is read
from the left, and the first fault that is met is the one reported.
-/

namespace VoiceRoom

namespace Numeral

/-- Why a text is no numeral. -/
inductive Fault where
  | empty
  | invalidDigit
  | tooLarge
deriving DecidableEq, Repr

def Fault.message : Fault → String
  | .empty => "cannot parse integer from empty string"
  | .invalidDigit => "invalid digit found in string"
  | .tooLarge => "number too large to fit in target type"

def digitValue (c : Char) : Nat :=
  c.toNat - '0'.toNat

/-- Reads digits on top of the value `n`, which never passes `limit`. -/
def digits (limit : Nat) : Nat → List Char → Except Fault Nat
  | n, [] => .ok n
  | n, c :: rest =>
    if c.isDigit then
      let n := 10 * n + digitValue c
      if n ≤ limit then digits limit n rest else .error .tooLarge
    else .error .invalidDigit

/-- Reads a numeral of at most `limit`. -/
def read (limit : Nat) : List Char → Except Fault Nat
  | [] => .error .empty
  | ['+'] => .error .invalidDigit
  | '+' :: rest => digits limit 0 rest
  | cs => digits limit 0 cs

end Numeral

end VoiceRoom
