import Mathlib.Tactic.IntervalCases
import VoiceRoom.Json.Number

/-!
# Integers in JSON

An integer is written as its decimal digits behind an optional sign (`toChars_ofInt`). The number
that is written denotes the integer (`int?_ofInt`), and an integer of 64 bits is far inside the
range of doubles (`inRange_ofInt`).
-/

namespace VoiceRoom.Json.Number

/-! ### Digits -/

/-- Digits of a natural have no zero in front, unless they are the zero alone. -/
theorem isWhole_toDigits (n : Nat) : isWhole (Nat.toDigits 10 n) = true := by
  -- A further digit comes behind the digits of `n / 10`, so the first one stays what it is.
  have hhead : ∀ n, 0 < n → ∃ c cs, Nat.toDigits 10 n = c :: cs ∧ c ≠ '0' := by
    intro n
    induction n using Nat.strongRecOn with
    | ind n ih =>
      intro hn
      by_cases hlt : n < 10
      · refine ⟨n.digitChar, [], Nat.toDigits_of_lt_base hlt, ?_⟩
        interval_cases n <;> decide
      · obtain ⟨c, cs, hcs, hc⟩ := ih (n / 10) (by omega) (by omega)
        refine ⟨c, cs ++ [(n % 10).digitChar], ?_, hc⟩
        rw [Nat.toDigits_of_base_le (by decide) (by omega), hcs]
        rfl
  cases n with
  | zero => rfl
  | succ n =>
    obtain ⟨c, cs, hcs, hc⟩ := hhead (n + 1) (by omega)
    rw [hcs]
    unfold isWhole
    split <;> simp_all

/-- A digit is no letter that a number may hold beside digits. -/
theorem isDigit_of_mem_toDigits {c : Char} {n : Nat} (h : c ∈ Nat.toDigits 10 n) :
    c.isDigit = true :=
  Nat.isDigit_of_mem_toDigits (by decide) (by decide) h

/-! ### Integers -/

/-- Integers are written with a sign and their digits. -/
theorem toChars_ofInt (i : Int) :
    (ofInt i).toChars = (if i < 0 then ['-'] else []) ++ Nat.toDigits 10 i.natAbs := by
  simp [toChars, ofInt]

/-- Integers are read back. -/
theorem int?_ofInt (i : Int) : (ofInt i).int? = some i := by
  have hvalue : Nat.ofDigitChars 10 (ofInt i).whole 0 = i.natAbs :=
    Nat.ofDigitChars_ten_toDigits
  rw [int?, if_pos ⟨rfl, rfl⟩]
  simp only [hvalue]
  by_cases hi : i < 0
  · have hne : i.natAbs ≠ 0 := by omega
    have hneg : -(i.natAbs : Int) = i := by omega
    rw [if_pos (by simpa [ofInt] using hi), if_neg hne, hneg]
  · have hpos : (i.natAbs : Int) = i := by omega
    rw [if_neg (by simpa [ofInt] using hi), hpos]

end VoiceRoom.Json.Number

/-! ### Rounding -/

namespace VoiceRoom.Binary64

/-- The nearest integer is one more than the quotient at most. -/
theorem nearest_le (n d : Nat) : nearest n d ≤ n / d + 1 := by
  unfold nearest
  dsimp only
  split
  · omega
  · split
    · omega
    · split <;> omega

/-- A number of at most 64 bits is scaled to at most 54 bits. -/
theorem scale_exponentOf_lt {num : Nat} (hlog : num.log2 ≤ 63) :
    (scale num 1 (exponentOf num 1)).1 / (scale num 1 (exponentOf num 1)).2 < 1 <<< 54 := by
  rw [show 1 <<< 54 = 2 ^ 54 from rfl]
  -- The exponent takes away all bits but 54 at most.
  have hlow : (num.log2 : Int) - 53 ≤ exponentOf num 1 := by
    simp only [exponentOf, leastExponent, show Nat.log2 1 = 0 from rfl]
    split <;> omega
  have hnum : num < 2 ^ (num.log2 + 1) := Nat.lt_log2_self
  unfold scale
  split
  · rename_i he
    rw [Nat.div_lt_iff_lt_mul (by simp [Nat.shiftLeft_eq])]
    calc num < 2 ^ (num.log2 + 1) := hnum
      _ ≤ 2 ^ (54 + (exponentOf num 1).toNat) := Nat.pow_le_pow_right (by decide) (by omega)
      _ = 2 ^ 54 * 1 <<< (exponentOf num 1).toNat := by rw [Nat.pow_add, Nat.shiftLeft_eq, Nat.one_mul]
  · rename_i he
    rw [Nat.div_one, Nat.shiftLeft_eq]
    calc num * 2 ^ (-exponentOf num 1).toNat
        < 2 ^ (num.log2 + 1) * 2 ^ (-exponentOf num 1).toNat :=
          Nat.mul_lt_mul_of_pos_right hnum (Nat.two_pow_pos _)
      _ = 2 ^ (num.log2 + 1 + (-exponentOf num 1).toNat) := (Nat.pow_add ..).symm
      _ ≤ 2 ^ 54 := Nat.pow_le_pow_right (by decide) (by omega)

/-- The floor is no more than the mantissa shifted by the exponent. -/
theorem floor_le (x : Binary64) : x.floor ≤ x.mantissa <<< x.exponent.toNat := by
  unfold floor
  split
  · exact Nat.le_refl _
  · rw [Nat.shiftLeft_eq]
    calc x.mantissa >>> (-x.exponent).toNat ≤ x.mantissa := Nat.shiftRight_le ..
      _ ≤ x.mantissa * 2 ^ x.exponent.toNat := Nat.le_mul_of_pos_right _ (Nat.two_pow_pos _)

/-- A word is rounded to a double of about the same size. -/
theorem floor_round_le {num : Nat} (h : num ≤ wordMax) :
    ∃ x, round num 1 = some x ∧ x.floor ≤ 1 <<< 66 := by
  by_cases hpos : num = 0
  · exact ⟨⟨0, leastExponent⟩, by simp [round, hpos], by decide⟩
  have hlog : num.log2 ≤ 63 := by
    have : num < 2 ^ 64 := Nat.lt_of_le_of_lt h (by decide)
    have := (Nat.log2_lt hpos).2 this
    omega
  have hhigh : exponentOf num 1 ≤ 11 := by
    simp only [exponentOf, leastExponent, show Nat.log2 1 = 0 from rfl]
    split <;> omega
  have hm := nearest_le (scale num 1 (exponentOf num 1)).1 (scale num 1 (exponentOf num 1)).2
  have hs := scale_exponentOf_lt hlog
  -- Whether or not rounding carries into another bit, both parts stay small.
  have hsmall : ∀ m e, m ≤ 2 ^ 54 → e ≤ 12 → (⟨m, e⟩ : Binary64).floor ≤ 1 <<< 66 := by
    intro m e hm he
    calc (⟨m, e⟩ : Binary64).floor ≤ m <<< e.toNat := floor_le _
      _ = m * 2 ^ e.toNat := Nat.shiftLeft_eq ..
      _ ≤ 2 ^ 54 * 2 ^ 12 := Nat.mul_le_mul hm (Nat.pow_le_pow_right (by decide) (by omega))
      _ = 1 <<< 66 := by decide
  have hfits : ∀ e, e ≤ 12 → e ≤ greatestExponent := by
    intro e he
    unfold greatestExponent
    omega
  unfold round
  rw [if_neg hpos]
  dsimp only
  split
  · exact ⟨_, if_pos (hfits _ (by omega)), hsmall _ _ (show leadingBit ≤ 2 ^ 54 by decide) (by omega)⟩
  · exact ⟨_, if_pos (hfits _ (by omega)), hsmall _ _ (by omega) (by omega)⟩

end VoiceRoom.Binary64

/-! ### Magnitude -/

namespace VoiceRoom.Json.Number

/-- More digits do not make a number smaller. -/
theorem le_ofDigitChars (cs : List Char) (m : Nat) : m ≤ Nat.ofDigitChars 10 cs m := by
  induction cs generalizing m with
  | nil => simp
  | cons c cs ih =>
    rw [Nat.ofDigitChars_cons]
    have := ih (10 * m + (c.toNat - '0'.toNat))
    omega

/-- Digits of a word are all taken. -/
theorem takeDigits_of_le {cs : List Char} {m : Nat} (h : Nat.ofDigitChars 10 cs m ≤ wordMax) :
    takeDigits m cs = (Nat.ofDigitChars 10 cs m, 0) := by
  induction cs generalizing m with
  | nil => simp [takeDigits]
  | cons c cs ih =>
    rw [Nat.ofDigitChars_cons] at h
    have hfits : 10 * m + Numeral.digitValue c ≤ wordMax :=
      Nat.le_trans (le_ofDigitChars cs _) h
    rw [takeDigits, if_pos hfits, Nat.ofDigitChars_cons]
    exact ih h

/-- All digits of a word are kept. -/
theorem significand_ofInt {i : Int} (h : i.natAbs ≤ wordMax) :
    (ofInt i).significand = (i.natAbs, 0) := by
  have hvalue : Nat.ofDigitChars 10 (Nat.toDigits 10 i.natAbs) 0 = i.natAbs :=
    Nat.ofDigitChars_ten_toDigits
  have htake : takeDigits 0 (ofInt i).whole = (i.natAbs, 0) := by
    show takeDigits 0 (Nat.toDigits 10 i.natAbs) = _
    rw [takeDigits_of_le (by rwa [hvalue]), hvalue]
  simp only [significand, htake]
  rfl

/-- Whoever reads doubles takes every integer of a word. -/
theorem inRange_ofInt {i : Int} (h : i.natAbs ≤ wordMax) : (ofInt i).inRange = true := by
  unfold inRange
  rw [significand_ofInt h]
  dsimp only
  split
  · rfl
  · obtain ⟨x, hx, hxf⟩ := Binary64.floor_round_le h
    have hone : 1 ≤ wordMax := by decide
    obtain ⟨y, hy, hyf⟩ := Binary64.floor_round_le hone
    rw [if_neg (by decide), hx, show Binary64.round (Nat.pow 10 (0 : Int).toNat) 1 = some y from hy]
    have hlt : x.floor * y.floor < Binary64.overflow :=
      calc x.floor * y.floor ≤ 1 <<< 66 * 1 <<< 66 := Nat.mul_le_mul hxf hyf
        _ < Binary64.overflow := by decide
    simpa using hlt

end VoiceRoom.Json.Number
