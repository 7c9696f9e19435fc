import VoiceRoom.Json.Record
import VoiceRoom.Proofs.Json.Reading

/-!
# Texts that open nothing

A text whose first character behind white space opens neither an array nor an object (`Bare`) is
read as no array and no object, whatever follows: `flat_of_read?`. It may be read as a value without
parts or as a string, or not at all.

Such a value is complete with its first token, and the scanner is inside of that token from its
first character on.
-/

namespace VoiceRoom.Json

open Scanner (between)

variable {q : Scrutiny} {v : Json} {s s' : Scanner} {t : Token} {tokens : List Token}

/-- The first character behind white space, if there is one, opens no array and no object. -/
def Bare (cs : List Char) : Prop :=
  (cs.dropWhile isBlank).head? ≠ some '[' ∧ (cs.dropWhile isBlank).head? ≠ some '{'

instance (cs : List Char) : Decidable (Bare cs) :=
  inferInstanceAs (Decidable (_ ∧ _))

/-- A value that is no array and no object. -/
inductive Flat : Json → Prop where
  | atom (a : Atom) : Flat a.toJson
  | string (s : Text) : Flat (.string s)

/-- A token that is a value by itself. -/
inductive Token.Flat : Token → Prop where
  | atom (a : Atom) : Flat (.atom a)
  | string (s : Text) : Flat (.string s)

/-- A flat value is no record. -/
theorem record?_of_flat (h : Flat v) (repeats : Repeats) (arity : Nat) :
    v.record? repeats arity = none := by
  cases h with
  | atom a => cases a <;> rfl
  | string s => rfl

/-! ### The first token -/

/-- A flat token at the outermost level is the value. -/
theorem open?_of_flat {stack : List Frame} {b : Builder} (ht : t.Flat)
    (h : Builder.open? q stack t = some b) : ∃ v, b = ⟨stack, .separator v⟩ ∧ Flat v := by
  cases ht with
  | atom a =>
    obtain ⟨-, hb⟩ := Option.ite_none_right_eq_some.1 h
    exact ⟨_, (Option.some.inj hb).symm, .atom a⟩
  | string s =>
    obtain ⟨-, hb⟩ := Option.ite_none_right_eq_some.1 h
    exact ⟨_, (Option.some.inj hb).symm, .string s⟩

/-- A first token that is a value completes it, and no other token may come at once. -/
theorem flat_of_feed {b : Builder} (ht : t.Flat)
    (h : (t :: tokens).foldlM (Builder.feed? q) .empty = some b) :
    ∃ v, b = ⟨[], .separator v⟩ ∧ Flat v := by
  rw [List.foldlM_cons] at h
  obtain ⟨b', hfirst, hmore⟩ := Option.bind_eq_some_iff.1 h
  obtain ⟨v, rfl, hflat⟩ := open?_of_flat ht hfirst
  cases tokens with
  | nil => exact ⟨v, (Option.some.inj hmore).symm, hflat⟩
  | cons u tokens => exact nomatch hmore

/-- Inside a word or a string, the next token is a value. -/
theorem step_inside {c : Symbol} (hs : s ≠ between) (h : s.step c = some (s', tokens)) :
    (tokens = [] ∧ s' ≠ between) ∨ ∃ t more, tokens = t :: more ∧ t.Flat := by
  -- Within a word, a string or an escape every step goes on with it or completes one flat token.
  cases s with
  | between => exact absurd rfl hs
  | word w =>
    cases c with
    | char c =>
      rw [Scanner.step] at h
      split at h
      · cases h
        exact .inl ⟨rfl, by simp⟩
      · obtain ⟨a, -, hmore⟩ := Option.bind_eq_some_iff.1 h
        obtain ⟨next, -, hnext⟩ := Option.bind_eq_some_iff.1 hmore
        cases hnext
        exact .inr ⟨_, _, rfl, .atom a⟩
    | stray => simp [Scanner.step] at h
  | quoted ps =>
    cases c with
    | char c =>
      rw [Scanner.step] at h
      split at h
      · cases h
        exact .inr ⟨_, _, rfl, .string _⟩
      · split at h
        · cases h
          exact .inl ⟨rfl, by simp⟩
        · split at h
          · cases h
          · cases h
            exact .inl ⟨rfl, by simp⟩
    | stray =>
      cases h
      exact .inl ⟨rfl, by simp⟩
  | escape ps =>
    cases c with
    | char c =>
      rw [Scanner.step] at h
      split at h
      · cases h
        exact .inl ⟨rfl, by simp⟩
      · obtain ⟨d, -, hd⟩ := Option.map_eq_some_iff.1 h
        cases hd
        exact .inl ⟨rfl, by simp⟩
    | stray => simp [Scanner.step] at h
  | unit ps value more =>
    cases c with
    | char c =>
      rw [Scanner.step] at h
      obtain ⟨digit, -, hdigit⟩ := Option.bind_eq_some_iff.1 h
      cases more with
      | zero =>
        cases hdigit
        exact .inl ⟨rfl, by simp⟩
      | succ more =>
        cases hdigit
        exact .inl ⟨rfl, by simp⟩
    | stray => simp [Scanner.step] at h

/-- A text that ends within a token ends with a flat one. -/
theorem finish_inside (hs : s ≠ between) (h : s.finish = some tokens) :
    ∃ t, tokens = [t] ∧ t.Flat := by
  cases s with
  | between => exact absurd rfl hs
  | word w =>
    obtain ⟨a, -, rfl⟩ := Option.map_eq_some_iff.1 h
    exact ⟨_, rfl, .atom a⟩
  | _ => exact nomatch h

/-! ### Whole texts -/

/-- Reading that starts within a token ends with a flat value. -/
theorem flat_of_inside {text left : List Symbol} (hs : s ≠ between)
    (h : readAux q s .empty text = some (v, left)) : Flat v := by
  induction text generalizing s with
  | nil =>
    obtain ⟨tokens, hfinish, hfeed⟩ := Option.bind_eq_some_iff.1 h
    obtain ⟨t, rfl, ht⟩ := finish_inside hs hfinish
    obtain ⟨b, hb, hvalue⟩ := Option.bind_eq_some_iff.1 hfeed
    obtain ⟨v', rfl, hflat⟩ := flat_of_feed ht hb
    cases hvalue
    exact hflat
  | cons c text ih =>
    obtain ⟨⟨s', tokens⟩, hstep, hfeed⟩ := Option.bind_eq_some_iff.1 h
    obtain ⟨b, hb, hgo⟩ := Option.bind_eq_some_iff.1 hfeed
    -- The token goes on, or it is complete and so is the value.
    rcases step_inside hs hstep with ⟨rfl, hs'⟩ | ⟨t, more, rfl, ht⟩
    · obtain rfl := Option.some.inj hb
      exact ih hs' hgo
    · obtain ⟨v', rfl, hflat⟩ := flat_of_feed ht hb
      cases s' with
      | between =>
        cases hgo
        exact hflat
      | _ => exact nomatch hgo

/-- A character that opens no array and no object either leads into a token or opens nothing. -/
theorem start_of_not_open {c : Char} (hblank : isBlank c = false) (harray : c ≠ '[')
    (hobject : c ≠ '{') (h : Scanner.start c = some (s, tokens)) :
    (tokens = [] ∧ s ≠ between) ∨
      ∃ t, tokens = [t] ∧ ∀ stack, Builder.open? q stack t = none := by
  unfold Scanner.start at h
  split at h
  · exact absurd rfl harray
  · cases h
    exact .inr ⟨_, rfl, fun _ => rfl⟩
  · exact absurd rfl hobject
  · cases h
    exact .inr ⟨_, rfl, fun _ => rfl⟩
  · cases h
    exact .inr ⟨_, rfl, fun _ => rfl⟩
  · cases h
    exact .inr ⟨_, rfl, fun _ => rfl⟩
  · cases h
    exact .inl ⟨rfl, nofun⟩
  · rw [hblank, if_neg Bool.false_ne_true] at h
    split at h
    · cases h
      exact .inl ⟨rfl, nofun⟩
    · exact nomatch h

/-- A bare text begins with a flat value, if with any. -/
theorem flat_of_readFirst? {cs : List Char} {left : List Symbol} (hbare : Bare cs)
    (h : readFirst? q (symbols cs) = some (v, left)) : Flat v := by
  induction cs with
  | nil => exact nomatch h
  | cons c cs ih =>
    obtain ⟨⟨s, tokens⟩, hstep, hfeed⟩ := Option.bind_eq_some_iff.1 h
    obtain ⟨b, hb, hgo⟩ := Option.bind_eq_some_iff.1 hfeed
    replace hstep : Scanner.start c = some (s, tokens) := hstep
    -- Blanks are skipped, and the first other character begins neither an array nor an object.
    cases hblank : isBlank c with
    | true =>
      rw [start_of_isBlank hblank] at hstep
      cases hstep
      obtain rfl := Option.some.inj hb
      refine ih ?_ hgo
      simpa [Bare, hblank] using hbare
    | false =>
      obtain ⟨harray, hobject⟩ : c ≠ '[' ∧ c ≠ '{' := by simpa [Bare, hblank] using hbare
      rcases start_of_not_open (q := q) hblank harray hobject hstep with
        ⟨rfl, hs⟩ | ⟨t, rfl, hopen⟩
      · obtain rfl := Option.some.inj hb
        exact flat_of_inside hs hgo
      · obtain ⟨b', hfirst, -⟩ := Option.bind_eq_some_iff.1 hb
        exact nomatch (hopen []).symm.trans hfirst

/-- A bare text is no array and no object. -/
theorem flat_of_read? {cs : List Char} (hbare : Bare cs) (h : read? q (symbols cs) = some v) :
    Flat v := by
  obtain ⟨⟨v', left⟩, hfirst, hleft⟩ := Option.bind_eq_some_iff.1 h
  obtain ⟨-, hsame⟩ := Option.ite_none_right_eq_some.1 hleft
  obtain rfl := Option.some.inj hsame
  exact flat_of_readFirst? hbare hfirst

end VoiceRoom.Json
