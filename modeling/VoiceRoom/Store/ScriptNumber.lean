import VoiceRoom.Number.Binary64
import VoiceRoom.Number.Word
import VoiceRoom.Text.Symbol

/-!
# Numbers of server scripts

Scripts that run in the shared store know one kind of number, doubles. A text is taken as a number
if it is one as a whole, white space around it aside: decimal or hexadecimal, with a fraction and
an exponent, or one of the names of infinity and of what is no number.
-/

namespace VoiceRoom

inductive ScriptNumber where
  | nan
  | infinite (negative : Bool)
  | finite (negative : Bool) (magnitude : Binary64)
deriving DecidableEq, Repr

namespace ScriptNumber

/-- Whether two numbers are equal. What is no number equals nothing, and zeros have no sign. -/
def same : ScriptNumber → ScriptNumber → Bool
  | infinite s, infinite t => s == t
  | finite s x, finite t y => x == y && (s == t || x.mantissa == 0)
  | _, _ => false

/-- A number with a sign; `none` is one beyond the doubles. -/
def signed (negative : Bool) : Option Binary64 → ScriptNumber
  | none => infinite negative
  | some x => finite negative x

/-- The number nearest to an integer. -/
def ofInt (i : Int) : ScriptNumber :=
  signed (i < 0) (Binary64.round i.natAbs 1)

/-- The integer of 64 bits that a number is handed back as: without its fraction. What is no number,
or lies beyond these integers, comes back as the least of them, as processors of the x86-64 family
convert it. -/
def toInt64 : ScriptNumber → Int
  | nan => int64Min
  | infinite _ => int64Min
  | finite negative x =>
    let i : Int := if negative then -(x.floor : Int) else x.floor
    if fitsInt64 i then i else int64Min

/-! ### Reading -/

/-- The white space around numbers. -/
def isSpace (c : Char) : Bool :=
  c == ' ' || (0x09 ≤ c.toNat && c.toNat ≤ 0x0D)

/-- A text without the white space around it. -/
def strip (cs : List Char) : List Char :=
  ((cs.dropWhile isSpace).reverse.dropWhile isSpace).reverse

/-- Takes a sign off. -/
def splitSign : List Char → Bool × List Char
  | '-' :: cs => (true, cs)
  | '+' :: cs => (false, cs)
  | cs => (false, cs)

def isHexDigit (c : Char) : Bool :=
  c.isDigit || ('a' ≤ c && c ≤ 'f')

def digitValue (c : Char) : Nat :=
  if c.isDigit then c.toNat - '0'.toNat else c.toNat - 'a'.toNat + 10

def value (base : Nat) (digits : List Char) : Nat :=
  digits.foldl (fun n c => base * n + digitValue c) 0

/-- Reads the exponent that ends a number, marked by a letter, if there is one. -/
def readExponent (mark : Char) : List Char → Option Int
  | [] => some 0
  | c :: cs =>
    let (negative, digits) := splitSign cs
    if c = mark ∧ digits ≠ [] ∧ digits.all Char.isDigit then
      some (if negative then -(value 10 digits) else value 10 digits)
    else none

/-- Reads digits with a point among them: their value, how many stand behind the point, and what
follows. There has to be a digit. -/
def readDigits (base : Nat) (isDigit : Char → Bool) (cs : List Char) :
    Option (Nat × Nat × List Char) :=
  let whole := cs.takeWhile isDigit
  let (fraction, rest) :=
    match cs.dropWhile isDigit with
    | '.' :: rest => (rest.takeWhile isDigit, rest.dropWhile isDigit)
    | rest => ([], rest)
  if whole = [] ∧ fraction = [] then none
  else some (value base (whole ++ fraction), fraction.length, rest)

/-- The double nearest to `num * 2 ^ power`, if it is finite. -/
def ofBinary (num : Nat) (power : Int) : Option Binary64 :=
  if num = 0 then some ⟨0, Binary64.leastExponent⟩
  else if 1100 < power then none
  else if power < -1200 - (num.log2 : Int) then some ⟨0, Binary64.leastExponent⟩
  else if 0 ≤ power then Binary64.round (num <<< power.toNat) 1
  else Binary64.round num (1 <<< (-power).toNat)

/-- Whether a text is a name of what is no number, perhaps with letters in parentheses. -/
def isNan (cs : List Char) : Bool :=
  match cs with
  | 'n' :: 'a' :: 'n' :: [] => true
  | 'n' :: 'a' :: 'n' :: '(' :: rest =>
    rest.getLast? == some ')' && rest.dropLast.all fun c => c.isAlphanum || c == '_'
  | _ => false

/-- Reads the magnitude of a number, in lower case. -/
def readMagnitude (negative : Bool) (cs : List Char) : Option ScriptNumber :=
  if cs = "inf".toList ∨ cs = "infinity".toList then some (infinite negative)
  else if isNan cs then some nan
  else
    match cs with
    | '0' :: 'x' :: cs => do
      let (m, places, rest) ← readDigits 16 isHexDigit cs
      let power ← readExponent 'p' rest
      some (signed negative (ofBinary m (power - 4 * places)))
    | cs => do
      let (m, places, rest) ← readDigits 10 Char.isDigit cs
      let power ← readExponent 'e' rest
      some (signed negative (Binary64.ofDecimal m (power - places)))

/-- Reads the number that a stored value is. A zero byte ends the text; what is behind it does not
count. -/
def read? (data : List Symbol) : Option ScriptNumber := do
  let cs ← (data.takeWhile (· != .char '\x00')).mapM Symbol.char?
  let (negative, cs) := splitSign (strip (cs.map Char.toLower))
  readMagnitude negative cs

end ScriptNumber

end VoiceRoom
