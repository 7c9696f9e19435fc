import VoiceRoom.Number.Binary64
import VoiceRoom.Number.Word
import VoiceRoom.Text.Numeral

/-!
# Numbers as they are written in JSON

A number is kept as it is written. What it denotes is asked for when it is needed: an integer
(`Number.int?`) or just whether its magnitude is one that a reader of doubles takes
(`Number.inRange`).
-/

namespace VoiceRoom.Json

/-- The power of ten behind a number. -/
structure Exponent where
  negative : Bool
  digits : List Char
deriving DecidableEq, Repr

/-- A number as it is written. A number without a fraction has no fraction digits. -/
structure Number where
  negative : Bool
  whole : List Char
  fraction : List Char
  exponent : Option Exponent
deriving DecidableEq, Repr

namespace Number

/-! ### Grammar -/

/-- The digits in front of a text, and the rest. -/
def splitDigits (cs : List Char) : List Char × List Char :=
  (cs.takeWhile Char.isDigit, cs.dropWhile Char.isDigit)

/-- Digits of a whole part: a zero in front stands alone. -/
def isWhole (digits : List Char) : Bool :=
  match digits with
  | [] => false
  | ['0'] => true
  | '0' :: _ => false
  | _ => true

/-- Reads a sign, and says whether it is a minus sign. -/
def readSign : List Char → Bool × List Char
  | '-' :: cs => (true, cs)
  | '+' :: cs => (false, cs)
  | cs => (false, cs)

/-- Reads the exponent that ends a number, if there is one. -/
def readExponent : List Char → Option (Option Exponent)
  | [] => some none
  | c :: cs =>
    if c = 'e' ∨ c = 'E' then
      let (negative, cs) := readSign cs
      let (digits, rest) := splitDigits cs
      if digits ≠ [] ∧ rest = [] then some (some ⟨negative, digits⟩) else none
    else none

/-- Reads what follows the whole part of a number. -/
def readTail (negative : Bool) (whole : List Char) : List Char → Option Number
  | '.' :: cs =>
    let (fraction, rest) := splitDigits cs
    if fraction = [] then none
    else (readExponent rest).map fun e => ⟨negative, whole, fraction, e⟩
  | cs => (readExponent cs).map fun e => ⟨negative, whole, [], e⟩

/-- Reads the number that a text is. -/
def ofChars? (cs : List Char) : Option Number :=
  let (negative, cs) :=
    match cs with
    | '-' :: rest => (true, rest)
    | cs => (false, cs)
  let (whole, rest) := splitDigits cs
  if isWhole whole then readTail negative whole rest else none

def toChars (n : Number) : List Char :=
  (if n.negative then ['-'] else []) ++ n.whole
    ++ (if n.fraction = [] then [] else '.' :: n.fraction)
    ++ match n.exponent with
       | none => []
       | some e => 'e' :: (if e.negative then ['-'] else []) ++ e.digits

/-! ### Integers -/

/-- The number that an integer is written as. -/
def ofInt (i : Int) : Number :=
  ⟨i < 0, Nat.toDigits 10 i.natAbs, [], none⟩

/-- The integer that a number denotes. It has no fraction and no exponent, and zero has no sign. -/
def int? (n : Number) : Option Int :=
  if n.fraction = [] ∧ n.exponent = none then
    let magnitude := Nat.ofDigitChars 10 n.whole 0
    if n.negative then (if magnitude = 0 then none else some (-magnitude)) else some magnitude
  else none

/-! ### Magnitude -/

/-- Takes digits on top of `m` as long as the value fits a word; says how many were left over. -/
def takeDigits (m : Nat) : List Char → Nat × Nat
  | [] => (m, 0)
  | c :: cs =>
    let next := 10 * m + Numeral.digitValue c
    if next ≤ wordMax then takeDigits next cs else (m, cs.length + 1)

/-- The power of ten behind a number. -/
def power (n : Number) : Int :=
  match n.exponent with
  | none => 0
  | some e =>
    let magnitude : Int := Nat.ofDigitChars 10 e.digits 0
    if e.negative then -magnitude else magnitude

/-- The digits of a number that are kept, as an integer, and the power of ten that goes with them.
Digits that no longer fit are dropped, and in the whole part each of them counts in the power. -/
def significand (n : Number) : Nat × Int :=
  let (m, dropped) := takeDigits 0 n.whole
  let (m, cut) := takeDigits m n.fraction
  (m, n.power + dropped - (n.fraction.length - cut))

/-- Whether a number is within the range of doubles. Its digits and its power of ten are each
rounded to a double, and their product must stay below the point from which it would be rounded
to infinity. -/
def inRange (n : Number) : Bool :=
  let (m, e) := n.significand
  if m = 0 ∨ e < 0 then true
  else if 308 < e then false
  else
    match Binary64.round m 1, Binary64.round (Nat.pow 10 e.toNat) 1 with
    | some x, some y => x.floor * y.floor < Binary64.overflow
    | _, _ => false

end Number

end VoiceRoom.Json
