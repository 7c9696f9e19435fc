import VoiceRoom.Proofs.Json.Integer
import VoiceRoom.Text.Numeral

/-!
# What numerals denote

A text is read as a natural if it is a numeral of one that is not too large, and of no other
(`read_eq_ok_iff`). Zeros in front do not count, however many there are. If nothing is read, the
fault is the first one from the left: a character that is no digit, or digits that have become too
many (`refuses_of_read`).
-/

namespace VoiceRoom.Numeral

/-- A text without the plus sign that it may start with. -/
def unsigned : List Char → List Char
  | '+' :: cs => cs
  | cs => cs

/-- Decimal digits, and their value. -/
structure Digits (cs : List Char) (n : Nat) : Prop where
  digits : ∀ c ∈ cs, c.isDigit = true
  value : Nat.ofDigitChars 10 cs 0 = n

/-- A text is a numeral of a natural: digits of it, behind a plus sign or not. -/
structure Denotes (cs : List Char) (n : Nat) : Prop extends Digits (unsigned cs) n where
  some : unsigned cs ≠ []

/-- Why a text is no numeral of a natural up to a limit. -/
inductive Refuses (limit : Nat) (cs : List Char) : Fault → Prop where
  | empty (h : cs = []) : Refuses limit cs .empty
  | sign (h : cs = ['+']) : Refuses limit cs .invalidDigit
  | stray {ds rest : List Char} {c : Char} {n : Nat} (h : unsigned cs = ds ++ c :: rest)
      (hds : Digits ds n) (hfits : n ≤ limit) (hc : c.isDigit = false) :
      Refuses limit cs .invalidDigit
  | large {ds rest : List Char} {n : Nat} (h : unsigned cs = ds ++ rest) (hds : Digits ds n)
      (hlarge : limit < n) : Refuses limit cs .tooLarge

variable {limit n m : Nat} {cs : List Char} {fault : Fault}

/-! ### Digits -/

/-- Digits are read on top of a value if what they come to does not pass the limit. -/
theorem digits_eq_ok_iff (hn : n ≤ limit) : digits limit n cs = .ok m ↔
    (∀ c ∈ cs, c.isDigit = true) ∧ Nat.ofDigitChars 10 cs n = m ∧ m ≤ limit := by
  induction cs generalizing n with
  | nil =>
    simp only [digits, Except.ok.injEq, List.not_mem_nil, false_implies, implies_true, true_and,
      Nat.ofDigitChars_nil]
    constructor
    · rintro rfl
      exact ⟨rfl, hn⟩
    · exact fun h => h.1
  | cons c cs ih =>
    rw [digits, Nat.ofDigitChars_cons, List.forall_mem_cons]
    -- The first character is a digit, or nothing is read.
    by_cases hc : c.isDigit = true
    · rw [if_pos hc]
      dsimp only
      by_cases hfits : 10 * n + digitValue c ≤ limit
      · rw [if_pos hfits, ih hfits]
        simp only [hc, true_and]
        rfl
      · -- The digits that follow do not make the value smaller.
        rw [if_neg hfits]
        refine iff_of_false (fun h => nomatch h) ?_
        rintro ⟨-, rfl, hle⟩
        exact hfits (Nat.le_trans (Json.Number.le_ofDigitChars cs _) hle)
    · rw [if_neg hc]
      exact iff_of_false (fun h => nomatch h) fun h => hc h.1.1

/-- What is refused has digits up to one that makes it too large, or up to something else. -/
theorem exists_of_digits_eq_error (h : digits limit n cs = .error fault) (hn : n ≤ limit) :
    ∃ ds rest, cs = ds ++ rest ∧ (∀ c ∈ ds, c.isDigit = true) ∧
      ((fault = .invalidDigit ∧ Nat.ofDigitChars 10 ds n ≤ limit ∧
          ∃ c rest', rest = c :: rest' ∧ c.isDigit = false) ∨
        (fault = .tooLarge ∧ limit < Nat.ofDigitChars 10 ds n)) := by
  -- The digits up to the fault are collected; what they denote is still within the limit before it.
  induction cs generalizing n with
  | nil => exact nomatch h
  | cons c cs ih =>
    rw [digits] at h
    by_cases hc : c.isDigit = true
    · rw [if_pos hc] at h
      dsimp only at h
      by_cases hfits : 10 * n + digitValue c ≤ limit
      · rw [if_pos hfits] at h
        obtain ⟨ds, rest, rfl, hds, hcause⟩ := ih h hfits
        exact ⟨c :: ds, rest, rfl, List.forall_mem_cons.2 ⟨hc, hds⟩, hcause⟩
      · rw [if_neg hfits] at h
        obtain rfl := Except.error.inj h
        refine ⟨[c], cs, rfl, List.forall_mem_singleton.2 hc, .inr ⟨rfl, ?_⟩⟩
        exact Nat.not_le.1 hfits
    · rw [if_neg hc] at h
      obtain rfl := Except.error.inj h
      refine ⟨[], c :: cs, rfl, fun _ h => (nomatch h), .inl ⟨rfl, hn, c, cs, rfl, ?_⟩⟩
      exact Bool.eq_false_iff.2 hc

/-! ### Numerals -/

/-- Once there is something behind the sign, it is read as digits. -/
theorem read_of_unsigned (h : unsigned cs ≠ []) : read limit cs = digits limit 0 (unsigned cs) := by
  unfold read
  split
  · exact absurd rfl h
  · exact absurd rfl h
  · rfl
  · rename_i hsign
    rw [unsigned]
    exact fun rest => hsign rest

/-- A number is read exactly if the text denotes it and it is within the limit. -/
theorem read_eq_ok_iff : read limit cs = .ok n ↔ Denotes cs n ∧ n ≤ limit := by
  by_cases hsome : unsigned cs = []
  · refine iff_of_false ?_ fun h => h.1.some hsome
    unfold unsigned at hsome
    split at hsome
    · subst hsome
      exact nofun
    · subst hsome
      exact nofun
  · rw [read_of_unsigned hsome, digits_eq_ok_iff (Nat.zero_le limit)]
    constructor
    · rintro ⟨hdigits, hvalue, hle⟩
      exact ⟨⟨⟨hdigits, hvalue⟩, hsome⟩, hle⟩
    · exact fun h => ⟨h.1.digits, h.1.value, h.2⟩

/-- What is refused is refused for the right reason. -/
theorem refuses_of_read (h : read limit cs = .error fault) : Refuses limit cs fault := by
  by_cases hsome : unsigned cs = []
  · unfold unsigned at hsome
    split at hsome
    · subst hsome
      obtain rfl := Except.error.inj h
      exact .sign rfl
    · subst hsome
      obtain rfl := Except.error.inj h
      exact .empty rfl
  · rw [read_of_unsigned hsome] at h
    obtain ⟨ds, rest, hcs, hds, hcause⟩ := exists_of_digits_eq_error h (Nat.zero_le limit)
    rcases hcause with ⟨rfl, hfits, c, rest', rfl, hc⟩ | ⟨rfl, hlarge⟩
    · exact .stray hcs ⟨hds, rfl⟩ hfits hc
    · exact .large hcs ⟨hds, rfl⟩ hlarge

end VoiceRoom.Numeral
