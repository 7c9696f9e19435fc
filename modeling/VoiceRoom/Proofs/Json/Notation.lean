import VoiceRoom.Proofs.Json.Spelling

/-!
# Numbers in any notation are read

A number is read as the number that it spells, with or without a fraction and an exponent
(`ofChars?_of_spells`). The reader takes digits as long as there are any, so each part is read up to
the first character of the next one.
-/

namespace VoiceRoom.Json.Number

variable {whole fraction digits cs : List Char} {exponent : Option Exponent} {n : Number}

/-! ### Digits -/

/-- Something that does not go on with a digit. -/
def EndsDigits (cs : List Char) : Prop :=
  ∀ c, cs.head? = some c → c.isDigit = false

theorem endsDigits_nil : EndsDigits [] :=
  fun _ h => nomatch h

/-- Anything but a digit ends the digits. -/
theorem endsDigits_cons {c : Char} (h : c.isDigit = false) : EndsDigits (c :: cs) := by
  intro d hd
  obtain rfl : c = d := Option.some.inj hd
  exact h

/-- Digits are split off where they end. -/
theorem splitDigits_append (hdigits : Digits digits) (hcs : EndsDigits cs) :
    splitDigits (digits ++ cs) = (digits, cs) := by
  rw [splitDigits, List.takeWhile_append_of_pos hdigits, List.dropWhile_append_of_pos hdigits]
  cases cs with
  | nil => rw [List.takeWhile_nil, List.dropWhile_nil, List.append_nil]
  | cons c cs =>
    have hc : c.isDigit = false := hcs c rfl
    rw [List.takeWhile_cons, List.dropWhile_cons, hc, if_neg Bool.false_ne_true,
      if_neg Bool.false_ne_true, List.append_nil]

/-- Nothing but digits is split off as a whole. -/
theorem splitDigits_of_digits (hdigits : Digits digits) : splitDigits digits = (digits, []) := by
  have hsplit := splitDigits_append hdigits endsDigits_nil
  rwa [List.append_nil] at hsplit

/-- Whole numbers are digits. -/
theorem digits_of_whole (h : SpellsWhole whole) : Digits whole := by
  cases h with
  | zero =>
    intro c hc
    rw [List.mem_singleton.1 hc]
    decide
  | digits hc _ hcs => exact List.forall_mem_cons.2 ⟨hc, hcs⟩

/-- Whole numbers are accepted as such. -/
theorem isWhole_of_spells (h : SpellsWhole whole) : isWhole whole = true := by
  cases h with
  | zero => rfl
  | digits hc hzero hcs =>
    unfold isWhole
    split <;> simp_all

/-- A whole part starts with a digit, and so with no sign. -/
theorem head_ne_minus (h : SpellsWhole whole) (rest : List Char) : whole ++ cs ≠ '-' :: rest := by
  intro heq
  have hdigits := digits_of_whole h
  cases h with
  | zero => exact absurd (List.cons.inj heq).1 (by decide)
  | digits hc =>
    obtain ⟨rfl, -⟩ := List.cons.inj heq
    exact absurd hc (by decide)

/-! ### Exponents -/

/-- A sign before digits is read. -/
theorem readSign_of_spells {negative : Bool} {sign : List Char} (h : SpellsSign negative sign)
    (hne : digits ≠ []) (hdigits : Digits digits) :
    readSign (sign ++ digits) = (negative, digits) := by
  cases h with
  | none =>
    obtain ⟨c, cs, rfl⟩ := List.exists_cons_of_ne_nil hne
    have hc : c.isDigit = true := hdigits c List.mem_cons_self
    rw [List.nil_append]
    unfold readSign
    split
    · rename_i heq
      cases heq
      exact absurd hc (by decide)
    · rename_i heq
      cases heq
      exact absurd hc (by decide)
    · rfl
  | plus => rfl
  | minus => rfl

/-- An exponent is read. -/
theorem readExponent_of_spells (h : SpellsExponent exponent cs) :
    readExponent cs = some exponent := by
  cases h with
  | none => rfl
  | some hmark hsign hne hdigits =>
    rw [readExponent, if_pos hmark, readSign_of_spells hsign hne hdigits]
    dsimp only
    rw [splitDigits_of_digits hdigits]
    dsimp only
    rw [if_pos ⟨hne, rfl⟩]

/-- An exponent ends the digits before it. -/
theorem endsDigits_of_exponent (h : SpellsExponent exponent cs) : EndsDigits cs := by
  cases h with
  | none => exact endsDigits_nil
  | some hmark =>
    refine endsDigits_cons ?_
    rcases hmark with rfl | rfl <;> decide

/-! ### Numbers -/

/-- A fraction and an exponent are read, each of which may be missing. -/
theorem readTail_of_spells {negative : Bool} {fractionChars exponentChars : List Char}
    (hfraction : SpellsFraction fraction fractionChars)
    (hexponent : SpellsExponent exponent exponentChars) :
    readTail negative whole (fractionChars ++ exponentChars) =
      some ⟨negative, whole, fraction, exponent⟩ := by
  have hread := readExponent_of_spells hexponent
  cases hfraction with
  | none =>
    rw [List.nil_append]
    unfold readTail
    split
    · -- An exponent starts with no point.
      cases hexponent with
      | some hmark => exact absurd hmark (by decide)
    · rw [hread]
      rfl
  | digits hne hdigits =>
    rw [List.cons_append, readTail, splitDigits_append hdigits (endsDigits_of_exponent hexponent)]
    dsimp only
    rw [if_neg hne, hread]
    rfl

/-- A fraction or an exponent ends the digits before it. -/
theorem endsDigits_tail {fractionChars exponentChars : List Char}
    (hfraction : SpellsFraction fraction fractionChars)
    (hexponent : SpellsExponent exponent exponentChars) :
    EndsDigits (fractionChars ++ exponentChars) := by
  cases hfraction with
  | none => exact endsDigits_of_exponent hexponent
  | digits => exact endsDigits_cons (by decide)

/-- A minus sign makes a number negative. -/
theorem ofChars?_minus (cs : List Char) :
    ofChars? ('-' :: cs) =
      if isWhole (splitDigits cs).1 then readTail true (splitDigits cs).1 (splitDigits cs).2
      else none :=
  rfl

/-- Without a minus sign a number is not negative. -/
theorem ofChars?_of_ne_minus (h : ∀ rest, cs ≠ '-' :: rest) :
    ofChars? cs =
      if isWhole (splitDigits cs).1 then readTail false (splitDigits cs).1 (splitDigits cs).2
      else none := by
  unfold ofChars?
  split
  rename_i negative rest hsign
  split at hsign
  · exact absurd rfl (h _)
  · cases hsign
    rfl

/-- A number is read from any text that spells it. -/
theorem ofChars?_of_spells (h : SpellsNumber n cs) : ofChars? cs = some n := by
  obtain ⟨hwhole, hfraction, hexponent⟩ := h
  rename_i fractionChars exponentChars
  have hsplit := splitDigits_append (digits_of_whole hwhole) (endsDigits_tail hfraction hexponent)
  have htail : readTail n.negative n.whole _ = some n := readTail_of_spells hfraction hexponent
  cases hnegative : n.negative with
  | true =>
    rw [hnegative] at htail
    rw [if_pos rfl, List.cons_append, List.nil_append, ofChars?_minus, hsplit]
    dsimp only
    rw [if_pos (isWhole_of_spells hwhole), htail]
  | false =>
    rw [hnegative] at htail
    rw [if_neg Bool.false_ne_true, List.nil_append,
      ofChars?_of_ne_minus (head_ne_minus hwhole), hsplit]
    dsimp only
    rw [if_pos (isWhole_of_spells hwhole), htail]

/-! ### Words -/

/-- Digits belong to words. -/
theorem isWordChar_of_isDigit {c : Char} (h : c.isDigit = true) : isWordChar c = true := by
  simp [isWordChar, Char.isAlphanum, h]

/-- A fraction belongs to a word. -/
theorem isWordChar_of_mem_fraction (h : SpellsFraction fraction cs) :
    ∀ c ∈ cs, isWordChar c = true := by
  cases h with
  | none => exact fun _ hc => nomatch hc
  | digits _ hdigits =>
    exact List.forall_mem_cons.2 ⟨by decide, fun c hc => isWordChar_of_isDigit (hdigits c hc)⟩

/-- An exponent belongs to a word. -/
theorem isWordChar_of_mem_exponent (h : SpellsExponent exponent cs) :
    ∀ c ∈ cs, isWordChar c = true := by
  cases h with
  | none => exact fun _ hc => nomatch hc
  | @some mark e sign hmark hsign _ hdigits =>
    obtain ⟨negative, digits⟩ := e
    refine List.forall_mem_cons.2 ⟨?_, List.forall_mem_append.2 ⟨?_, ?_⟩⟩
    · rcases hmark with rfl | rfl <;> decide
    · cases hsign <;> exact List.all_eq_true.1 rfl
    · exact fun c hc => isWordChar_of_isDigit (hdigits c hc)

/-- A number is one word. -/
theorem isWordChar_of_mem_number (h : SpellsNumber n cs) : ∀ c ∈ cs, isWordChar c = true := by
  obtain ⟨hwhole, hfraction, hexponent⟩ := h
  refine List.forall_mem_append.2 ⟨?_, List.forall_mem_append.2
    ⟨fun c hc => isWordChar_of_isDigit (digits_of_whole hwhole c hc), List.forall_mem_append.2
      ⟨isWordChar_of_mem_fraction hfraction, isWordChar_of_mem_exponent hexponent⟩⟩⟩
  cases n.negative <;> exact List.all_eq_true.1 rfl

end VoiceRoom.Json.Number
