import Mathlib.Data.List.TakeWhile
import VoiceRoom.Proofs.Number.Exact
import VoiceRoom.Proofs.Number.Numeral
import VoiceRoom.Store.Shared

/-!
# Counters are read back

A counter is written as the digits of its value. Whoever reads it finds the value: the command that
raises it (`Keyspace.readCounter?_counterData`), the scripts that compare it
(`ScriptNumber.read?_counterData`) and the service (`Shared.readVersion?_counterData`).
-/

namespace VoiceRoom

open Json.Number (isDigit_of_mem_toDigits)

/-! ### Keys -/

/-- Different records have different counters. -/
theorem versionKey_inj {k k' : String} : versionKey k = versionKey k' ↔ k = k' := by
  unfold versionKey
  rw [String.append_left_inj]

/-- No record is its own counter. -/
theorem versionKey_ne_self (k : String) : versionKey k ≠ k := by
  intro h
  have hlength := congrArg String.length h
  rw [versionKey, String.length_append] at hlength
  have hmark : ":version".length = 8 := by decide
  omega

/-! ### Text -/

/-- Characters are read back. -/
theorem Symbol.mapM_char?_map (cs : List Char) : (cs.map Symbol.char).mapM Symbol.char? = some cs := by
  induction cs with
  | nil => rfl
  | cons c cs ih =>
    rw [List.map_cons, List.mapM_cons, ih]
    rfl

/-- Texts are read back. -/
theorem Symbol.text?_ofText (s : String) : Symbol.text? (Symbol.ofText s) = some s := by
  rw [Symbol.text?, Symbol.ofText, Symbol.mapM_char?_map]
  exact congrArg some (String.ofList_toList)

/-- Different texts have different symbols. -/
theorem Symbol.ofText_inj {s s' : String} : Symbol.ofText s = Symbol.ofText s' ↔ s = s' := by
  refine ⟨fun h => ?_, congrArg Symbol.ofText⟩
  have htext := congrArg Symbol.text? h
  rw [Symbol.text?_ofText, Symbol.text?_ofText] at htext
  exact Option.some.inj htext

/-! ### Digits -/

/-- Digits of a natural start with a digit. -/
theorem exists_toDigits_eq_cons (n : Nat) :
    ∃ c cs, Nat.toDigits 10 n = c :: cs ∧ c.isDigit = true := by
  cases hdigits : Nat.toDigits 10 n with
  | nil =>
    have hwhole := Json.Number.isWhole_toDigits n
    rw [hdigits] at hwhole
    exact nomatch hwhole
  | cons c cs => exact ⟨c, cs, rfl, isDigit_of_mem_toDigits (hdigits ▸ List.mem_cons_self)⟩

/-- A counter is stored as its digits. -/
theorem counterData_natCast (n : Nat) :
    Keyspace.counterData n = (Nat.toDigits 10 n).map Symbol.char := by
  rw [Keyspace.counterData, if_neg (by omega), Int.natAbs_natCast, List.nil_append]

namespace Keyspace

/-- Counters are read back by the store. -/
theorem readCounter?_counterData {n : Nat} (h : (n : Int) ≤ int64Max) :
    readCounter? (counterData n) = some (n : Int) := by
  have hvalue : Nat.ofDigitChars 10 (Nat.toDigits 10 n) 0 = n := Nat.ofDigitChars_ten_toDigits
  have hall : (Nat.toDigits 10 n).all Char.isDigit = true :=
    List.all_eq_true.2 fun _ => isDigit_of_mem_toDigits
  have hwhole := Json.Number.isWhole_toDigits n
  have hfits : fitsInt64 n = true := fitsInt64_iff.2 ⟨by unfold int64Min; omega, h⟩
  obtain ⟨c, cs, hcs, hc⟩ := exists_toDigits_eq_cons n
  have hsign : c ≠ '-' := by
    rintro rfl
    exact absurd hc (by decide)
  rw [counterData_natCast]
  unfold readCounter?
  rw [Symbol.mapM_char?_map]
  rw [hcs] at hvalue hall hwhole ⊢
  simp only [bind, Option.bind, List.cons.injEq, hsign, false_and, imp_self, implies_true,
    hvalue, hfits, Bool.and_true, Bool.not_false, Bool.false_eq_true, if_false]
  refine if_pos ?_
  split
  · rename_i heq
    exact nomatch heq
  -- A zero stands alone.
  · rename_i rest heq
    rw [heq] at hwhole
    cases rest with
    | nil => rfl
    | cons d ds => exact nomatch hwhole
  · exact hall

end Keyspace

namespace ScriptNumber

/-- Digits are worth what they denote. -/
theorem value_eq {cs : List Char} (hcs : ∀ c ∈ cs, c.isDigit = true) (n : Nat) :
    cs.foldl (fun n c => 10 * n + digitValue c) n = Nat.ofDigitChars 10 cs n := by
  induction cs generalizing n with
  | nil => rfl
  | cons c cs ih =>
    rw [List.foldl_cons, Nat.ofDigitChars_cons, digitValue, if_pos (hcs c List.mem_cons_self)]
    exact ih (fun c' hc' => hcs c' (List.mem_cons_of_mem c hc')) _

/-- Digits are the ones of ASCII. -/
theorem toNat_of_isDigit {c : Char} (h : c.isDigit = true) : 48 ≤ c.toNat ∧ c.toNat ≤ 57 := by
  rw [Char.isDigit, Bool.and_eq_true, decide_eq_true_eq, decide_eq_true_eq] at h
  exact h

/-- Digits are not spaces. -/
theorem isSpace_of_isDigit {c : Char} (h : c.isDigit = true) : isSpace c = false := by
  obtain ⟨hlow, -⟩ := toNat_of_isDigit h
  rw [isSpace, Bool.or_eq_false_iff]
  constructor
  · rw [beq_eq_false_iff_ne]
    rintro rfl
    exact absurd hlow (by decide)
  · rw [Bool.and_eq_false_iff]
    right
    exact decide_eq_false (by omega)

/-- Digits have no case. -/
theorem toLower_of_isDigit {c : Char} (h : c.isDigit = true) : c.toLower = c := by
  obtain ⟨-, hhigh⟩ := toNat_of_isDigit h
  refine dif_neg fun hupper => ?_
  have hlow : 65 ≤ c.toNat := hupper.1
  omega

/-- Without spaces there is nothing to strip. -/
theorem strip_of_forall {cs : List Char} (h : ∀ c ∈ cs, isSpace c = false) : strip cs = cs := by
  have hdrop : ∀ l : List Char, (∀ c ∈ l, isSpace c = false) → l.dropWhile isSpace = l := by
    intro l hl
    cases l with
    | nil => rfl
    | cons c l => rw [List.dropWhile_cons, hl c List.mem_cons_self, if_neg Bool.false_ne_true]
  rw [strip, hdrop cs h, hdrop _ fun c hc => h c (List.mem_reverse.1 hc), List.reverse_reverse]

/-- Digits are read back. -/
theorem readDigits_toDigits (n : Nat) :
    readDigits 10 Char.isDigit (Nat.toDigits 10 n) = some (n, 0, []) := by
  have hall : ∀ c ∈ Nat.toDigits 10 n, c.isDigit = true := fun _ => isDigit_of_mem_toDigits
  have htake : (Nat.toDigits 10 n).takeWhile Char.isDigit = Nat.toDigits 10 n :=
    List.takeWhile_eq_self_iff.2 hall
  have hdrop : (Nat.toDigits 10 n).dropWhile Char.isDigit = [] :=
    List.dropWhile_eq_nil_iff.2 hall
  have hvalue : value 10 (Nat.toDigits 10 n) = n := by
    rw [value, value_eq hall]
    exact Nat.ofDigitChars_ten_toDigits
  unfold readDigits
  dsimp only
  rw [htake, hdrop]
  dsimp only
  rw [List.append_nil, hvalue, if_neg]
  · rfl
  · obtain ⟨c, cs, hcs, -⟩ := exists_toDigits_eq_cons n
    rw [hcs]
    exact fun h => nomatch h.1

/-- A number without a fraction is rounded as an integer. -/
theorem signed_ofDecimal (n : Nat) : signed false (Binary64.ofDecimal n 0) = ofInt n := by
  rw [ofInt_natCast]
  unfold Binary64.ofDecimal
  by_cases hn : n = 0
  · subst hn
    rfl
  · rw [if_neg hn, if_neg (by decide), if_neg (by omega), if_pos (by decide)]
    exact congrArg (fun k => signed false (Binary64.round k 1)) (Nat.mul_one n)

/-- Digits of a natural are no name and no hexadecimal number. -/
theorem readMagnitude_toDigits (n : Nat) :
    readMagnitude false (Nat.toDigits 10 n) = some (ofInt n) := by
  have hall : ∀ c ∈ Nat.toDigits 10 n, c.isDigit = true := fun _ => isDigit_of_mem_toDigits
  have hread := readDigits_toDigits n
  obtain ⟨c, cs, hcs, hc⟩ := exists_toDigits_eq_cons n
  rw [hcs] at hall hread ⊢
  have hinf : ¬ (c :: cs = "inf".toList ∨ c :: cs = "infinity".toList) := by
    rintro (h | h) <;> cases h <;> exact absurd hc (by decide)
  have hnan : isNan (c :: cs) = false := by
    unfold isNan
    split
    · rename_i heq; cases heq; exact absurd hc (by decide)
    · rename_i heq; cases heq; exact absurd hc (by decide)
    · rfl
  unfold readMagnitude
  rw [if_neg hinf, hnan, if_neg Bool.false_ne_true]
  split
  · rename_i heq
    cases heq
    exact absurd (hall 'x' (by simp)) (by decide)
  · rw [hread]
    exact congrArg some (signed_ofDecimal n)

theorem read?_counterData (n : Nat) : read? (Keyspace.counterData n) = some (ofInt n) := by
  have hall : ∀ c ∈ Nat.toDigits 10 n, c.isDigit = true := fun _ => isDigit_of_mem_toDigits
  have hplain : ((Nat.toDigits 10 n).map Symbol.char).takeWhile (· != .char '\x00') =
      (Nat.toDigits 10 n).map Symbol.char := by
    refine List.takeWhile_eq_self_iff.2 fun a ha => ?_
    obtain ⟨c, hc, rfl⟩ := List.mem_map.1 ha
    rw [bne_iff_ne]
    rintro h
    cases h
    exact absurd (hall _ hc) (by decide)
  have hlower : (Nat.toDigits 10 n).map Char.toLower = Nat.toDigits 10 n :=
    (List.map_congr_left fun c hc => toLower_of_isDigit (hall c hc)).trans (List.map_id _)
  -- A counter has no sign, no spaces and no capitals, so that it is read as a magnitude.
  have hsign : splitSign (Nat.toDigits 10 n) = (false, Nat.toDigits 10 n) := by
    obtain ⟨c, cs, hcs, hc⟩ := exists_toDigits_eq_cons n
    rw [hcs]
    unfold splitSign
    split
    · rename_i heq; cases heq; exact absurd hc (by decide)
    · rename_i heq; cases heq; exact absurd hc (by decide)
    · rfl
  rw [counterData_natCast]
  unfold read?
  rw [hplain, Symbol.mapM_char?_map]
  show readMagnitude (splitSign (strip ((Nat.toDigits 10 n).map Char.toLower))).1
    (splitSign (strip ((Nat.toDigits 10 n).map Char.toLower))).2 = _
  rw [hlower, strip_of_forall fun c hc => isSpace_of_isDigit (hall c hc), hsign]
  exact readMagnitude_toDigits n

end ScriptNumber

/-- The digits of a natural are a numeral of it. -/
theorem Numeral.denotes_toDigits (n : Nat) : Denotes (Nat.toDigits 10 n) n := by
  obtain ⟨c, cs, hcs, hc⟩ := exists_toDigits_eq_cons n
  have hunsigned : unsigned (Nat.toDigits 10 n) = Nat.toDigits 10 n := by
    rw [hcs]
    unfold unsigned
    split
    · rename_i heq
      cases heq
      exact absurd hc (by decide)
    · rfl
  refine ⟨⟨?_, ?_⟩, ?_⟩ <;> rw [hunsigned]
  · exact fun _ => isDigit_of_mem_toDigits
  · exact Nat.ofDigitChars_ten_toDigits
  · rw [hcs]
    exact List.cons_ne_nil c cs

namespace Shared

/-- Counters are read back as versions. -/
theorem readVersion?_counterData {n : Nat} (h : n ≤ wordMax) :
    readVersion? (some (Keyspace.counterData n)) = some n := by
  have hread : Numeral.read wordMax (Nat.toDigits 10 n) = .ok n :=
    Numeral.read_eq_ok_iff.2 ⟨Numeral.denotes_toDigits n, h⟩
  rw [counterData_natCast]
  show ((Nat.toDigits 10 n).map Symbol.char).mapM Symbol.char? >>= _ = _
  rw [Symbol.mapM_char?_map]
  show (Numeral.read wordMax (Nat.toDigits 10 n)).toOption = _
  rw [hread]
  rfl

end Shared

end VoiceRoom
