import VoiceRoom.Proofs.Json.Integer
import VoiceRoom.Proofs.Number.Exact

/-!
# Integers that doubles confuse

From `2 ^ 53` on there are fewer doubles than integers. A double out there is a whole number, an
even one (`Binary64.Large.two_dvd_floor`), and rounding leaves it as it is
(`Binary64.Large.round_floor`). So of an integer and the next one, one at least is rounded to
another number, and this shows: the first is taken for the number that it is rounded to, or the
second is handed back as the number that *it* is rounded to (`ScriptNumber.exists_confused`).

What is handed back still has its sign (`ScriptNumber.sign_toInt64_ofInt`), but for the last 512
integers of a word. Their double is `2 ^ 63`, which is no word any more, and comes back as the least
of all words (`ScriptNumber.toInt64_ofInt_of_le`).
-/

namespace VoiceRoom

namespace Binary64

/-- A double of `2 ^ 53` or more: its mantissa has all of its bits and is followed by zeros. -/
structure Large (x : Binary64) : Prop where
  leading : leadingBit ≤ x.mantissa
  bits : x.mantissa < 2 * leadingBit
  whole : 1 ≤ x.exponent
  finite : x.exponent ≤ greatestExponent

/-! ### Rounding to large doubles -/

/-- A natural has at most 53 bits in front of those that it loses. -/
theorem div_shiftLeft_lt (n : Nat) : n / 1 <<< (n.log2 - 52) < 2 * leadingBit := by
  have hlt : n < 2 ^ (n.log2 + 1) := Nat.lt_log2_self
  have hbits : 2 * leadingBit = 2 ^ 53 := rfl
  rw [Nat.shiftLeft_eq, Nat.one_mul, Nat.div_lt_iff_lt_mul (Nat.two_pow_pos _), hbits, ← Nat.pow_add]
  exact Nat.lt_of_lt_of_le hlt (Nat.pow_le_pow_right (by decide) (by omega))

/-- A natural from the limit on is rounded to a large double. -/
theorem large_of_round {n : Nat} {x : Binary64} (h : exactLimit ≤ n) (hx : round n 1 = some x) :
    x.Large := by
  obtain ⟨hleading, hwhole⟩ := bounds_of_round h hx
  have hnearest := nearest_le n (1 <<< (n.log2 - 52))
  have hdiv := div_shiftLeft_lt n
  rw [round_of_le h] at hx
  split at hx
  · obtain ⟨hfinite, hcarry⟩ := Option.ite_none_right_eq_some.1 hx
    cases hcarry
    exact ⟨hleading, show leadingBit < 2 * leadingBit by decide, hwhole, hfinite⟩
  · rename_i hcarry
    obtain ⟨hfinite, hplain⟩ := Option.ite_none_right_eq_some.1 hx
    cases hplain
    exact ⟨hleading, show nearest n (1 <<< (n.log2 - 52)) < 2 * leadingBit by omega, hwhole,
      hfinite⟩

/-- It is a multiple of the unit that the natural was rounded in, whether its mantissa carried or
not. -/
theorem floor_of_round {n : Nat} {x : Binary64} (h : exactLimit ≤ n) (hx : round n 1 = some x) :
    x.floor = nearest n (1 <<< (n.log2 - 52)) * 2 ^ (n.log2 - 52) := by
  have hwhole := (bounds_of_round h hx).2
  rw [round_of_le h] at hx
  split at hx
  · rename_i hcarry
    obtain ⟨-, hx⟩ := Option.ite_none_right_eq_some.1 hx
    cases hx
    rw [hcarry, floor, if_pos (by omega), Nat.shiftLeft_eq,
      show ((n.log2 - 52 : Nat) + 1 : Int).toNat = n.log2 - 52 + 1 by omega, Nat.pow_succ']
    exact (Nat.mul_left_comm ..).trans (Nat.mul_assoc ..).symm
  · obtain ⟨-, hx⟩ := Option.ite_none_right_eq_some.1 hx
    cases hx
    rw [floor, if_pos (by omega), Int.toNat_natCast, Nat.shiftLeft_eq]

/-- It is the next power of two at most. -/
theorem floor_le_of_round {n : Nat} {x : Binary64} (h : exactLimit ≤ n)
    (hx : round n 1 = some x) : x.floor ≤ 2 ^ (n.log2 + 1) := by
  obtain ⟨-, hpos, -⟩ := exponentOf_of_le h
  have hnearest := nearest_le n (1 <<< (n.log2 - 52))
  have hdiv := div_shiftLeft_lt n
  have hbits : nearest n (1 <<< (n.log2 - 52)) ≤ 2 ^ 53 := by
    have : 2 * leadingBit = 2 ^ 53 := rfl
    omega
  rw [floor_of_round h hx]
  calc nearest n (1 <<< (n.log2 - 52)) * 2 ^ (n.log2 - 52)
      ≤ 2 ^ 53 * 2 ^ (n.log2 - 52) := Nat.mul_le_mul_right _ hbits
    _ = 2 ^ (n.log2 + 1) := by rw [← Nat.pow_add, show 53 + (n.log2 - 52) = n.log2 + 1 by omega]

/-- From `2 ^ 63 - 512` on, a natural is rounded to a double beyond the words with a sign. -/
theorem floor_lt_iff_of_round {n : Nat} {x : Binary64} (hx : round n 1 = some x) :
    x.floor < 2 ^ 63 ↔ n < 2 ^ 63 - 512 := by
  rcases Nat.lt_or_ge n exactLimit with hlt | hle
  · obtain ⟨y, hy, hfloor, -⟩ := exists_round hlt
    obtain rfl : y = x := Option.some.inj (hy.symm.trans hx)
    have hlimit : exactLimit = 2 ^ 53 := rfl
    omega
  have hhigh : n < 2 ^ (n.log2 + 1) := Nat.lt_log2_self
  -- The unit is 1024 just below `2 ^ 63`. Smaller ones come to less, and larger ones to more.
  rcases Nat.lt_trichotomy n.log2 62 with hless | hlast | hmore
  · have hpower : 2 ^ (n.log2 + 1) ≤ 2 ^ 62 := Nat.pow_le_pow_right (by decide) hless
    have hfloor := floor_le_of_round hle hx
    omega
  · rw [floor_of_round hle hx, hlast]
    rw [hlast] at hhigh
    show nearest n 1024 * 1024 < _ ↔ _
    unfold nearest
    dsimp only
    split
    · omega
    · split
      · omega
      · split <;> omega
  · obtain ⟨-, -, hbit⟩ := exponentOf_of_le hle
    have hunit : 2 ^ 11 ≤ 2 ^ (n.log2 - 52) := Nat.pow_le_pow_right (by decide) (by omega)
    have hfloor : 2 ^ 63 ≤ x.floor :=
      calc 2 ^ 63 = leadingBit * 2 ^ 11 := rfl
        _ ≤ nearest n (1 <<< (n.log2 - 52)) * 2 ^ (n.log2 - 52) :=
          Nat.mul_le_mul (hbit.trans (div_le_nearest n _)) hunit
        _ = x.floor := (floor_of_round hle hx).symm
    have hpower : 2 ^ 63 ≤ 2 ^ n.log2 := Nat.pow_le_pow_right (by decide) hmore
    have hlow : 2 ^ n.log2 ≤ n := Nat.log2_self_le (by rintro rfl; exact absurd hle (by decide))
    omega

/-! ### Large doubles as integers -/

namespace Large

variable {x : Binary64}

/-- A large number is its mantissa with as many zeros as its exponent says. -/
theorem floor_eq (h : x.Large) : x.floor = x.mantissa * 2 ^ x.exponent.toNat := by
  have := h.whole
  rw [floor, if_pos (by omega), Nat.shiftLeft_eq]

/-- Large numbers are even. -/
theorem two_dvd_floor (h : x.Large) : 2 ∣ x.floor := by
  have := h.whole
  rw [h.floor_eq, show x.exponent.toNat = x.exponent.toNat - 1 + 1 by omega, Nat.pow_succ,
    ← Nat.mul_assoc]
  exact Nat.dvd_mul_left 2 _

/-- A large number has all the bits of its mantissa and those of its exponent. -/
theorem log2_floor (h : x.Large) : x.floor.log2 = 52 + x.exponent.toNat := by
  have hlow : 2 ^ 52 ≤ x.mantissa := h.leading
  have hhigh : x.mantissa < 2 ^ 53 := h.bits
  have hpos : 0 < 2 ^ x.exponent.toNat := Nat.two_pow_pos _
  rw [h.floor_eq, Nat.log2_eq_iff (by positivity), Nat.pow_add,
    show 52 + x.exponent.toNat + 1 = 53 + x.exponent.toNat by omega, Nat.pow_add]
  exact ⟨Nat.mul_le_mul_right _ hlow, Nat.mul_lt_mul_of_pos_right hhigh hpos⟩

/-- Large numbers are not below the limit. -/
theorem exactLimit_le_floor (h : x.Large) : exactLimit ≤ x.floor := by
  have hlow : 2 ^ 52 ≤ x.mantissa := h.leading
  have hwhole := h.whole
  calc exactLimit = 2 ^ 52 * 2 ^ 1 := rfl
    _ ≤ x.mantissa * 2 ^ x.exponent.toNat :=
      Nat.mul_le_mul hlow (Nat.pow_le_pow_right (by decide) (by omega))
    _ = x.floor := h.floor_eq.symm

/-- A large double is rounded to itself. -/
theorem round_floor (h : x.Large) : round x.floor 1 = some x := by
  have hnearest : nearest x.floor (1 <<< x.exponent.toNat) = x.mantissa := by
    rw [Nat.shiftLeft_eq, Nat.one_mul, h.floor_eq, nearest]
    rw [Nat.mul_mod_left, Nat.mul_div_cancel _ (Nat.two_pow_pos _), if_pos (Nat.two_pow_pos _)]
  have hself : (x.exponent.toNat : Int) = x.exponent := by
    have := h.whole
    omega
  rw [round_of_le h.exactLimit_le_floor, h.log2_floor, Nat.add_sub_cancel_left, hnearest,
    if_neg (Nat.ne_of_lt h.bits), hself, if_pos h.finite]

end Large

end Binary64

namespace ScriptNumber

open Binary64 (exactLimit)

/-- Naturals that are rounded to one double are taken for each other. -/
theorem same_ofInt_of_round {n m : Nat} {x : Binary64} (hn : Binary64.round n 1 = some x)
    (hm : Binary64.round m 1 = some x) : (ofInt n).same (ofInt m) = true := by
  rw [ofInt_natCast, ofInt_natCast, hn, hm]
  simp [signed, same]

/-- A version is taken for itself. -/
theorem same_ofInt_self {n : Nat} (h : n ≤ wordMax) : (ofInt n).same (ofInt n) = true := by
  obtain ⟨x, hx, -⟩ := Binary64.floor_round_le h
  exact same_ofInt_of_round hx hx

/-! ### What is handed back -/

/-- The first integer that is handed back as if it were beyond the words with a sign. -/
def returnLimit : Int := 0x7FFFFFFFFFFFFE00

/-- A number that does not fit a word is handed back as the least one. -/
theorem toInt64_finite (negative : Bool) (x : Binary64) : (finite negative x).toInt64 =
    if fitsInt64 (if negative then -(x.floor : Int) else x.floor) then
      if negative then -(x.floor : Int) else x.floor
    else int64Min :=
  rfl

/-- Up to the limit, an integer that is handed back keeps its sign, whatever else is lost of it. -/
theorem sign_toInt64_ofInt {i : Int} (h : i < returnLimit) : (ofInt i).toInt64.sign = i.sign := by
  have hlimit : returnLimit = 2 ^ 63 - 512 := rfl
  have hmin : int64Min = -2 ^ 63 := rfl
  have hmax : int64Max = 2 ^ 63 - 1 := rfl
  rcases Int.lt_trichotomy i 0 with hneg | rfl | hpos
  -- The least integer, which stands for those beyond the words, is negative too.
  · rw [Int.sign_eq_neg_one_iff_neg.2 hneg, Int.sign_eq_neg_one_iff_neg, ofInt,
      decide_eq_true hneg]
    cases hround : Binary64.round i.natAbs 1 with
    | none => decide
    | some x =>
      have hfloor := Binary64.floor_pos_of_round (by omega) hround
      rw [signed, toInt64_finite, if_pos rfl]
      split <;> omega
  · rfl
  · have hword : i.natAbs ≤ wordMax := by
      unfold wordMax
      omega
    obtain ⟨x, hx, -⟩ := Binary64.floor_round_le hword
    have hfloor := Binary64.floor_pos_of_round (by omega) hx
    have hfits := (Binary64.floor_lt_iff_of_round hx).2 (by omega)
    rw [Int.sign_eq_one_iff_pos.2 hpos, Int.sign_eq_one_iff_pos, ofInt,
      decide_eq_false (by omega), hx, signed, toInt64_finite, if_neg Bool.false_ne_true,
      if_pos (fitsInt64_iff.2 (by omega))]
    omega

/-- From the limit on, an integer is handed back as the least one. -/
theorem toInt64_ofInt_of_le {i : Int} (h : returnLimit ≤ i) : (ofInt i).toInt64 = int64Min := by
  have hlimit : returnLimit = 2 ^ 63 - 512 := rfl
  have hmax : int64Max = 2 ^ 63 - 1 := rfl
  rw [ofInt, decide_eq_false (by omega)]
  cases hround : Binary64.round i.natAbs 1 with
  | none => rfl
  | some x =>
    have hbeyond := mt (Binary64.floor_lt_iff_of_round hround).1 (by omega)
    rw [signed, toInt64_finite, if_neg Bool.false_ne_true,
      if_neg (mt fitsInt64_iff.1 (by omega))]

example : (ofInt (returnLimit - 1)).toInt64 = 2 ^ 63 - 1024 ∧
    (ofInt returnLimit).toInt64 = int64Min := by
  decide

/-- From the limit on, an integer is taken for another one, or the next one is not handed back as
it is. -/
theorem exists_confused {n : Nat} (h : exactLimit ≤ n) (hmax : (n : Int) < int64Max) :
    (∃ m ≤ wordMax, m ≠ n ∧ (ofInt n).same (ofInt m) = true) ∨
      (ofInt (n + 1 : Nat)).toInt64 ≠ (n + 1 : Nat) := by
  have hmax' : n < 2 ^ 63 - 1 := by
    have : int64Max = 2 ^ 63 - 1 := rfl
    omega
  have hlimit : exactLimit = 2 ^ 53 := rfl
  have hword : wordMax = 2 ^ 64 - 1 := rfl
  have hfits : n ≤ wordMax := by omega
  have hfits' : n + 1 ≤ wordMax := by omega
  obtain ⟨x, hx, -⟩ := Binary64.floor_round_le hfits
  have hlarge := Binary64.large_of_round h hx
  -- Of a number and the next one, at most the even one is a double itself: either the number is
  -- rounded to another one that compares as the same, or its successor is not handed back.
  by_cases hself : x.floor = n
  · right
    have heven : 2 ∣ n := hself ▸ hlarge.two_dvd_floor
    obtain ⟨y, hy, -⟩ := Binary64.floor_round_le hfits'
    have hodd : 2 ∣ y.floor := (Binary64.large_of_round (by omega) hy).two_dvd_floor
    rw [ofInt_natCast, hy, signed, toInt64_finite, if_neg Bool.false_ne_true]
    split
    · omega
    · unfold int64Min
      omega
  · left
    refine ⟨x.floor, ?_, hself, same_ofInt_of_round hx hlarge.round_floor⟩
    have hlog : n.log2 < 63 := (Nat.log2_lt (by omega)).2 (by omega)
    calc x.floor ≤ 2 ^ (n.log2 + 1) := Binary64.floor_le_of_round h hx
      _ ≤ 2 ^ 63 := Nat.pow_le_pow_right (by decide) (by omega)
      _ ≤ wordMax := by decide

end ScriptNumber

end VoiceRoom
