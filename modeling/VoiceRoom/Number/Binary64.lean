/-!
# Values of double precision, exactly

A finite double is `mantissa * 2 ^ exponent`. `Binary64.round` takes a quotient of naturals to the
nearest double, a tie going to the even mantissa; `none` stands for a quotient too large for any
finite double. Mantissa and exponent are normal (53 bits, or the least exponent), so two finite
doubles are equal as numbers exactly when they are equal as data.
-/

namespace VoiceRoom

/-- A finite double that is not negative. -/
structure Binary64 where
  mantissa : Nat
  exponent : Int
deriving DecidableEq, Repr

namespace Binary64

/-- The least exponent of a double. -/
def leastExponent : Int := -1074

/-- The exponents of the doubles just below `2 ^ 1024`. -/
def greatestExponent : Int := 971

/-- The leading bit of a mantissa. -/
def leadingBit : Nat := 1 <<< 52

/-- From here on a number is nearer to infinity than to a double: half a unit above the largest. -/
def overflow : Nat := ((1 <<< 54) - 1) <<< 970

/-- `num / den` as a quotient of naturals after division by `2 ^ e`. -/
def scale (num den : Nat) (e : Int) : Nat × Nat :=
  if 0 ≤ e then (num, den <<< e.toNat) else (num <<< (-e).toNat, den)

/-- The nearest natural to a quotient, a tie going to the even one. -/
def nearest (num den : Nat) : Nat :=
  let q := num / den
  let r := num % den
  if 2 * r < den then q
  else if den < 2 * r then q + 1
  else if q % 2 = 0 then q else q + 1

/-- The exponent at which `num / den` has a mantissa of 53 bits, if doubles reach that far down. -/
def exponentOf (num den : Nat) : Int :=
  let guess : Int := (num.log2 : Int) - den.log2 - 52
  let (n, d) := scale num den guess
  max leastExponent (if n / d < leadingBit then guess - 1 else guess)

/-- The double nearest to `num / den`, if it is finite. -/
def round (num den : Nat) : Option Binary64 :=
  if num = 0 then some ⟨0, leastExponent⟩
  else
    let e := exponentOf num den
    let (n, d) := scale num den e
    let m := nearest n d
    let (m, e) := if m = 2 * leadingBit then (leadingBit, e + 1) else (m, e)
    if e ≤ greatestExponent then some ⟨m, e⟩ else none

/-- A double without its fraction. -/
def floor (x : Binary64) : Nat :=
  if 0 ≤ x.exponent then x.mantissa <<< x.exponent.toNat
  else x.mantissa >>> (-x.exponent).toNat

/-- The double nearest to `num * 10 ^ power`, if it is finite. Far outside the range of doubles the
answer is known without the power: `num` lies between 1 and `10 ^ (log2 num + 1)`. -/
def ofDecimal (num : Nat) (power : Int) : Option Binary64 :=
  if num = 0 then some ⟨0, leastExponent⟩
  else if 400 < power then none
  else if power < -400 - (num.log2 : Int) then some ⟨0, leastExponent⟩
  else if 0 ≤ power then round (num * Nat.pow 10 power.toNat) 1
  else round num (Nat.pow 10 (-power).toNat)

end Binary64

end VoiceRoom
