import VoiceRoom.Number.Binary64
import VoiceRoom.Store.ScriptNumber

/-!
# Integers that doubles hold exactly

Below `2 ^ 53` a natural is a double as it is (`Binary64.round_of_lt`), so it is handed back as it
was (`ScriptNumber.toInt64_ofInt`) and is told apart from every other natural, however large
(`ScriptNumber.same_ofInt_iff`).
-/

namespace VoiceRoom

namespace Binary64

/-- Up to here every natural is a double. -/
def exactLimit : Nat := 1 <<< 53

/-- Below the limit there are 53 bits. -/
theorem log2_lt_of_lt {n : Nat} (hn : n ≠ 0) (h : n < exactLimit) : n.log2 < 53 :=
  (Nat.log2_lt hn).2 h

/-- A quotient by one is the natural itself. -/
theorem nearest_one (n : Nat) : nearest n 1 = n := by
  unfold nearest
  rw [Nat.div_one, Nat.mod_one]
  rfl

/-- A natural with its leading bit moved to the front of the mantissa. -/
theorem shiftLeft_log2 {n : Nat} (hn : n ≠ 0) (hlog : n.log2 ≤ 52) :
    leadingBit ≤ n <<< (52 - n.log2) ∧ n <<< (52 - n.log2) < 2 * leadingBit := by
  have hle : 2 ^ n.log2 ≤ n := Nat.log2_self_le hn
  have hlt : n < 2 ^ (n.log2 + 1) := Nat.lt_log2_self
  rw [Nat.shiftLeft_eq, leadingBit]
  constructor
  · calc 1 <<< 52 = 2 ^ n.log2 * 2 ^ (52 - n.log2) := by
          rw [← Nat.pow_add, Nat.add_sub_cancel' hlog]
          rfl
      _ ≤ n * 2 ^ (52 - n.log2) := Nat.mul_le_mul_right _ hle
  · calc n * 2 ^ (52 - n.log2) < 2 ^ (n.log2 + 1) * 2 ^ (52 - n.log2) :=
          Nat.mul_lt_mul_of_pos_right hlt (Nat.two_pow_pos _)
      _ = 2 * 1 <<< 52 := by
          rw [← Nat.pow_add, show n.log2 + 1 + (52 - n.log2) = 53 by omega]
          rfl

/-- An integer is scaled by shifting it. -/
theorem scale_one_of_nonpos {n : Nat} {k : Nat} : scale n 1 (-(k : Int)) = (n <<< k, 1) := by
  unfold scale
  by_cases hk : k = 0
  · subst hk
    rfl
  · rw [if_neg (by omega), Int.neg_neg, Int.toNat_natCast]

/-- Below the limit the exponent fills the mantissa up. -/
theorem exponentOf_of_lt {n : Nat} (hn : n ≠ 0) (h : n < exactLimit) :
    exponentOf n 1 = -((52 - n.log2 : Nat) : Int) := by
  have hlog : n.log2 ≤ 52 := Nat.lt_succ_iff.1 (log2_lt_of_lt hn h)
  have hguess : (n.log2 : Int) - (Nat.log2 1 : Nat) - 52 = -((52 - n.log2 : Nat) : Int) := by
    rw [show Nat.log2 1 = 0 from rfl]
    omega
  unfold exponentOf
  dsimp only
  rw [hguess, scale_one_of_nonpos]
  dsimp only
  rw [Nat.div_one, if_neg (Nat.not_lt.2 (shiftLeft_log2 hn hlog).1)]
  unfold leastExponent
  omega

/-- A natural below the limit is rounded to itself. -/
theorem round_of_lt {n : Nat} (hn : n ≠ 0) (h : n < exactLimit) :
    round n 1 = some ⟨n <<< (52 - n.log2), -((52 - n.log2 : Nat) : Int)⟩ := by
  have hlog : n.log2 ≤ 52 := Nat.lt_succ_iff.1 (log2_lt_of_lt hn h)
  have hm := (shiftLeft_log2 hn hlog).2
  unfold round
  rw [if_neg hn]
  dsimp only
  rw [exponentOf_of_lt hn h, scale_one_of_nonpos]
  dsimp only
  rw [nearest_one, if_neg (Nat.ne_of_lt hm)]
  dsimp only
  rw [if_pos]
  unfold greatestExponent
  omega

/-- Below the limit an integer is a double. -/
theorem exists_round {n : Nat} (h : n < exactLimit) :
    ∃ x, round n 1 = some x ∧ x.floor = n ∧ x.exponent ≤ 0 := by
  by_cases hn : n = 0
  · subst hn
    exact ⟨⟨0, leastExponent⟩, rfl, rfl, by decide⟩
  · refine ⟨_, round_of_lt hn h, ?_, by dsimp only; omega⟩
    unfold floor
    dsimp only
    split
    · rw [show 52 - n.log2 = 0 by omega]
      rfl
    · rw [Int.neg_neg, Int.toNat_natCast, Nat.shiftLeft_shiftRight]

/-- From the limit on, a natural loses the bits below its first 53. -/
theorem exponentOf_of_le {n : Nat} (h : exactLimit ≤ n) :
    exponentOf n 1 = ((n.log2 - 52 : Nat) : Int) ∧ 1 ≤ n.log2 - 52 ∧
      leadingBit ≤ n / 1 <<< (n.log2 - 52) := by
  have hn : n ≠ 0 := by
    rintro rfl
    exact absurd h (by decide)
  have hlog : 53 ≤ n.log2 := (Nat.le_log2 hn).2 h
  have hle : 2 ^ n.log2 ≤ n := Nat.log2_self_le hn
  have hguess : (n.log2 : Int) - (Nat.log2 1 : Nat) - 52 = ((n.log2 - 52 : Nat) : Int) := by
    rw [show Nat.log2 1 = 0 from rfl]
    omega
  -- The leading bit of the mantissa is there already, so that the guess is not corrected.
  have hbit : leadingBit ≤ n / 1 <<< (n.log2 - 52) := by
    rw [Nat.shiftLeft_eq, Nat.one_mul, Nat.le_div_iff_mul_le (Nat.two_pow_pos _)]
    calc leadingBit * 2 ^ (n.log2 - 52) = 2 ^ n.log2 := by
          rw [show leadingBit = 2 ^ 52 from rfl, ← Nat.pow_add,
            show 52 + (n.log2 - 52) = n.log2 by omega]
      _ ≤ n := hle
  refine ⟨?_, by omega, hbit⟩
  unfold exponentOf
  dsimp only
  rw [hguess]
  unfold scale
  rw [if_pos (Int.natCast_nonneg _), Int.toNat_natCast]
  dsimp only
  rw [if_neg (Nat.not_lt.2 hbit)]
  exact Int.max_eq_right (by unfold leastExponent; omega)

/-- The nearest integer is no less than the quotient. -/
theorem div_le_nearest (num den : Nat) : num / den ≤ nearest num den := by
  unfold nearest
  dsimp only
  split
  · exact Nat.le_refl _
  · split
    · exact Nat.le_succ _
    · split
      · exact Nat.le_refl _
      · exact Nat.le_succ _

/-- What a natural from the limit on is rounded to. Its mantissa may carry into one more bit, which
only raises the exponent. -/
theorem round_of_le {n : Nat} (h : exactLimit ≤ n) :
    round n 1 =
      if nearest n (1 <<< (n.log2 - 52)) = 2 * leadingBit then
        if ((n.log2 - 52 : Nat) : Int) + 1 ≤ greatestExponent then
          some ⟨leadingBit, ((n.log2 - 52 : Nat) : Int) + 1⟩
        else none
      else if ((n.log2 - 52 : Nat) : Int) ≤ greatestExponent then
        some ⟨nearest n (1 <<< (n.log2 - 52)), ((n.log2 - 52 : Nat) : Int)⟩
      else none := by
  have hn : n ≠ 0 := by
    rintro rfl
    exact absurd h (by decide)
  unfold round
  rw [if_neg hn]
  dsimp only
  rw [(exponentOf_of_le h).1, scale, if_pos (Int.natCast_nonneg _), Int.toNat_natCast]
  dsimp only
  split <;> rfl

/-- From the limit on, doubles have a whole mantissa and no bit to spare for units. -/
theorem bounds_of_round {n : Nat} {x : Binary64} (h : exactLimit ≤ n) (hx : round n 1 = some x) :
    leadingBit ≤ x.mantissa ∧ 1 ≤ x.exponent := by
  obtain ⟨-, hpos, hbit⟩ := exponentOf_of_le h
  rw [round_of_le h] at hx
  split at hx
  · obtain ⟨-, hcarry⟩ := Option.ite_none_right_eq_some.1 hx
    cases hcarry
    exact ⟨Nat.le_refl _, by dsimp only; omega⟩
  · obtain ⟨-, hplain⟩ := Option.ite_none_right_eq_some.1 hx
    cases hplain
    exact ⟨Nat.le_trans hbit (div_le_nearest _ _), by dsimp only; omega⟩

/-- A positive natural is not rounded to zero. -/
theorem floor_pos_of_round {n : Nat} {x : Binary64} (hn : 0 < n) (hx : round n 1 = some x) :
    0 < x.floor := by
  rcases Nat.lt_or_ge n exactLimit with hlt | hle
  · obtain ⟨y, hy, hfloor, -⟩ := exists_round hlt
    obtain rfl : y = x := Option.some.inj (hy.symm.trans hx)
    rwa [hfloor]
  · obtain ⟨hmantissa, hexponent⟩ := bounds_of_round hle hx
    have hbit : 0 < leadingBit := by decide
    rw [floor, if_pos (by omega), Nat.shiftLeft_eq]
    exact Nat.mul_pos (by omega) (Nat.two_pow_pos _)

end Binary64

namespace ScriptNumber

open Binary64 (exactLimit)

/-- Natural numbers are rounded as they are. -/
theorem ofInt_natCast (n : Nat) : ofInt n = signed false (Binary64.round n 1) := by
  unfold ofInt
  rw [decide_eq_false (by omega), Int.natAbs_natCast]

/-- Below the limit a natural number is a double, and its floor is the number. -/
theorem exists_ofInt {n : Nat} (h : n < exactLimit) :
    ∃ x, ofInt n = finite false x ∧ Binary64.round n 1 = some x ∧ x.floor = n ∧ x.exponent ≤ 0 := by
  obtain ⟨x, hx, hfloor, hexponent⟩ := Binary64.exists_round h
  exact ⟨x, by rw [ofInt_natCast, hx]; rfl, hx, hfloor, hexponent⟩

/-- A natural below the limit is handed back as it was. -/
theorem toInt64_ofInt {n : Nat} (h : n < exactLimit) : (ofInt n).toInt64 = n := by
  obtain ⟨x, hx, -, hfloor, -⟩ := exists_ofInt h
  have hfits : fitsInt64 (n : Int) = true := by
    have hlimit : exactLimit = 2 ^ 53 := rfl
    rw [fitsInt64_iff]
    unfold int64Min int64Max
    omega
  rw [hx]
  show (if fitsInt64 (x.floor : Int) then (x.floor : Int) else int64Min) = n
  rw [hfloor, if_pos hfits]

/-- A natural below the limit equals no other one, as far as scripts can tell. -/
theorem same_ofInt_iff {n m : Nat} (h : n < exactLimit) :
    (ofInt n).same (ofInt m) = true ↔ n = m := by
  obtain ⟨x, hx, hround, hfloor, hexponent⟩ := exists_ofInt h
  rw [hx]
  rcases Nat.lt_or_ge m exactLimit with hm | hm
  · obtain ⟨y, hy, hround', hfloor', -⟩ := exists_ofInt hm
    rw [hy]
    simp only [same, beq_self_eq_true, Bool.true_or, Bool.and_true, beq_iff_eq]
    constructor
    · rintro rfl
      exact hfloor.symm.trans hfloor'
    · rintro rfl
      exact Option.some.inj (hround.symm.trans hround')
  -- From the limit on, a number is infinite or has another exponent.
  · have hne : n ≠ m := by omega
    rw [ofInt_natCast]
    cases hround' : Binary64.round m 1 with
    | none => exact iff_of_false Bool.false_ne_true hne
    | some y =>
      have hle := (Binary64.bounds_of_round hm hround').2
      refine iff_of_false (fun hsame => ?_) hne
      simp only [signed, same, Bool.and_eq_true, beq_iff_eq] at hsame
      rw [← hsame.1] at hle
      omega

end ScriptNumber

end VoiceRoom
