import Mathlib.Tactic.IntervalCases
import VoiceRoom.Json.Reader
import VoiceRoom.Proofs.Json.Notation

/-!
# Spelled values are read

Whatever spells an object is read as that object: `read?_of_spells`. One thing may stand against it,
where a reader looks closely: a number beyond the range of doubles (`Json.admitted`). A reader works
symbol by symbol, so the argument follows the spelling from left to right.

* `readAux_silent`, `readAux_text`, `readAux_word`: one symbol, one quoted string, one word.
* `Reads`: inside an array or object, reading a spelling leaves its value in front of whatever
  follows. Values without parts have this property by the lemmas above, arrays and objects by
  induction on how they are spelled (`readAux_items`, `readAux_entries`).
-/

namespace VoiceRoom.Json

open Scanner (between)

variable {q : Scrutiny} {b b' : Builder} {stack : List Frame} {rest : List Symbol}

/-! ### Single symbols -/

/-- The symbols of characters. -/
def symbols (cs : List Char) : List Symbol :=
  cs.map .char

@[simp] theorem symbols_nil : symbols [] = [] := rfl

@[simp] theorem symbols_cons (c : Char) (cs : List Char) :
    symbols (c :: cs) = .char c :: symbols cs := rfl

@[simp] theorem symbols_append (cs ds : List Char) :
    symbols (cs ++ ds) = symbols cs ++ symbols ds :=
  List.map_append

/-- Reads on between tokens, unless the value is complete. -/
def resume (q : Scrutiny) (b : Builder) (rest : List Symbol) : Option (Json × List Symbol) :=
  match b.value? with
  | some v => some (v, rest)
  | none => readAux q between b rest

theorem resume_of_incomplete (h : b.value? = none) : resume q b rest = readAux q between b rest := by
  rw [resume, h]

/-- Only a value can complete a builder. -/
theorem value?_of_unseparated {need : Need} (h : ∀ v, need ≠ .separator v) :
    Builder.value? ⟨stack, need⟩ = none := by
  unfold Builder.value?
  split
  · rename_i v hb
    exact absurd (Builder.mk.inj hb).2 (h v)
  · rfl

theorem value?_item : Builder.value? ⟨stack, .item⟩ = none :=
  value?_of_unseparated nofun

theorem value?_key : Builder.value? ⟨stack, .key⟩ = none :=
  value?_of_unseparated nofun

theorem value?_nextKey {done : List (Text × Json)} :
    Builder.value? ⟨stack, .nextKey done⟩ = none :=
  value?_of_unseparated nofun

/-- Inside an array or object a value completes nothing. -/
theorem value?_of_ne_nil {need : Need} (h : stack ≠ []) :
    Builder.value? ⟨stack, need⟩ = none := by
  unfold Builder.value?
  split <;> simp_all

/-- A symbol that completes no token moves the scanner alone. -/
theorem readAux_silent {s : Scanner} {c : Symbol} (s' : Scanner)
    (hstep : s.step c = some (s', [])) (hvalue : b.value? = none) :
    readAux q s b (c :: rest) = readAux q s' b rest := by
  rw [readAux]
  simp only [hstep, List.foldlM_nil, Option.pure_def, Option.bind_eq_bind, Option.bind_some, hvalue]

/-- A symbol that completes a token and belongs to no other. -/
theorem readAux_mark {s : Scanner} {c : Symbol} {t : Token}
    (hstep : s.step c = some (between, [t])) (hfeed : Builder.feed? q b t = some b') :
    readAux q s b (c :: rest) = resume q b' rest := by
  rw [readAux]
  simp only [hstep, List.foldlM_cons, List.foldlM_nil, hfeed, Option.bind_eq_bind,
    Option.bind_some, Option.pure_def, resume]
  cases b'.value? <;> rfl

/-- Blanks between tokens are skipped. -/
theorem start_of_isBlank {c : Char} (h : isBlank c = true) :
    Scanner.start c = some (between, []) := by
  simp only [isBlank, Bool.or_eq_true, beq_iff_eq] at h
  rcases h with ((rfl | rfl) | rfl) | rfl <;> rfl

/-- Any number of blanks is skipped. -/
theorem readAux_blanks (hvalue : b.value? = none) {cs : List Char} (hcs : Blanks cs) :
    readAux q between b (symbols cs ++ rest) = readAux q between b rest := by
  induction cs with
  | nil => rfl
  | cons c cs ih =>
    have hstep : Scanner.step between (.char c) = some (between, []) :=
      start_of_isBlank (hcs c List.mem_cons_self)
    rw [symbols_cons, List.cons_append, readAux_silent between hstep hvalue]
    exact ih fun d hd => hcs d (List.mem_cons_of_mem c hd)

/-! ### Quoted strings -/

/-- Pieces that denote a character, whatever comes before and after them. -/
def Denotes (ps : List Piece) (c : Char) : Prop :=
  ∀ out more, denoteAux out (ps ++ more) = denoteAux (c :: out) more

theorem denotes_char (c : Char) : Denotes [.char c] c :=
  fun _ _ => rfl

/-- The codes between `0xD800` and `0xDFFF` are no characters. -/
theorem toNat_lt_or_lt (c : Char) : c.toNat < 0xD800 ∨ 0xDFFF < c.toNat :=
  c.valid.imp id And.left

/-- No character is the first half of a pair. -/
theorem isHigh_toNat (c : Char) : isHigh c.toNat = false := by
  have hgap := toNat_lt_or_lt c
  simp only [isHigh, Bool.and_eq_false_iff, decide_eq_false_iff_not]
  omega

/-- No character is the second half of a pair. -/
theorem isLow_toNat (c : Char) : isLow c.toNat = false := by
  have hgap := toNat_lt_or_lt c
  simp only [isLow, Bool.and_eq_false_iff, decide_eq_false_iff_not]
  omega

/-- The code of a character stands for it. -/
theorem denotes_code (c : Char) : Denotes [.code c.toNat] c := by
  intro out more
  rw [List.cons_append, List.nil_append]
  conv_lhs => unfold denoteAux
  rw [isHigh_toNat, isLow_toNat, Char.ofNat_toNat]
  rfl

/-- The halves of a character make the character. -/
theorem denotes_pair {c : Char} (hc : 0x10000 ≤ c.toNat) :
    Denotes [.code (0xD800 + (c.toNat - 0x10000) / 0x400),
      .code (0xDC00 + (c.toNat - 0x10000) % 0x400)] c := by
  have hmax : c.toNat < 0x110000 := by
    rcases c.valid with hlow | ⟨-, hhigh⟩
    · have hlow : c.toNat < 0xD800 := hlow
      omega
    · exact hhigh
  have hhigh : isHigh (0xD800 + (c.toNat - 0x10000) / 0x400) = true := by
    simp only [isHigh, Bool.and_eq_true, decide_eq_true_eq]
    omega
  have hlow : isLow (0xDC00 + (c.toNat - 0x10000) % 0x400) = true := by
    simp only [isLow, Bool.and_eq_true, decide_eq_true_eq]
    omega
  -- The offset of the character is split into ten bits for each half and put together again.
  have hpair : pair (0xD800 + (c.toNat - 0x10000) / 0x400)
      (0xDC00 + (c.toNat - 0x10000) % 0x400) = c := by
    rw [pair, show 0x10000 + 0x400 * (0xD800 + (c.toNat - 0x10000) / 0x400 - 0xD800) +
      (0xDC00 + (c.toNat - 0x10000) % 0x400 - 0xDC00) = c.toNat by omega, Char.ofNat_toNat]
  intro out more
  simp only [List.cons_append, List.nil_append]
  rw [denoteAux, if_pos hhigh, if_pos hlow, hpair]

/-- Hexadecimal digits are read. -/
theorem hexValue?_of_spellsHex {n : Nat} {c : Char} (h : SpellsHex n c) : hexValue? c = some n := by
  obtain ⟨hn, rfl | rfl⟩ := h <;> interval_cases n <;> rfl

/-- Four hexadecimal digits are read as one code. -/
theorem readAux_unit (hvalue : b.value? = none) {n : Nat} {cs : List Char} (h : SpellsUnit n cs)
    (ps : List Piece) :
    readAux q (.quoted ps) b (symbols cs ++ rest) = readAux q (.quoted (.code n :: ps)) b rest := by
  obtain ⟨h₃, h₂, h₁, h₀⟩ := h
  rename_i n₃ n₂ n₁ n₀ c₃ c₂ c₁ c₀
  replace h₃ := hexValue?_of_spellsHex h₃
  replace h₂ := hexValue?_of_spellsHex h₂
  replace h₁ := hexValue?_of_spellsHex h₁
  replace h₀ := hexValue?_of_spellsHex h₀
  have hvalue₃ : 16 * (16 * (16 * n₃ + n₂) + n₁) + n₀ =
      0x1000 * n₃ + 0x100 * n₂ + 0x10 * n₁ + n₀ := by omega
  simp only [symbols_cons, symbols_nil, List.cons_append, List.nil_append]
  rw [readAux_silent (.escape ps) rfl hvalue, readAux_silent (.unit ps 0 3) rfl hvalue,
    readAux_silent (.unit ps n₃ 2) (by simp [Scanner.step, h₃]) hvalue,
    readAux_silent (.unit ps (16 * n₃ + n₂) 1) (by simp [Scanner.step, h₂]) hvalue,
    readAux_silent (.unit ps (16 * (16 * n₃ + n₂) + n₁) 0) (by simp [Scanner.step, h₁]) hvalue,
    readAux_silent (.quoted (.code _ :: ps)) (by simp [Scanner.step, h₀]; exact hvalue₃) hvalue]

/-- Each of the letters stands for its character. -/
theorem unescape_of_mem {letter c : Char} (h : (letter, c) ∈ letters) :
    unescape letter = some c ∧ letter ≠ 'u' := by
  simp only [letters, List.mem_cons, Prod.mk.injEq, List.not_mem_nil, or_false] at h
  rcases h with ⟨rfl, rfl⟩ | ⟨rfl, rfl⟩ | ⟨rfl, rfl⟩ | ⟨rfl, rfl⟩ | ⟨rfl, rfl⟩ | ⟨rfl, rfl⟩ |
    ⟨rfl, rfl⟩ | ⟨rfl, rfl⟩ <;> exact ⟨rfl, by decide⟩

/-- A character of a quoted string is read as pieces that denote it. -/
theorem readAux_char (hvalue : b.value? = none) {c : Char} {cs : List Char} (h : SpellsChar c cs)
    (ps : List Piece) :
    ∃ pieces, Denotes pieces c ∧ ∀ rest,
      readAux q (.quoted ps) b (symbols cs ++ rest) =
        readAux q (.quoted (pieces.reverse ++ ps)) b rest := by
  -- One case for each spelling: as it is, by a letter, by one code or by a pair of them.
  cases h with
  | plain hquote hslash hcontrol =>
    have hstep : Scanner.step (.quoted ps) (.char c) = some (.quoted (.char c :: ps), []) := by
      simp [Scanner.step, hquote, hslash, Nat.not_lt.2 hcontrol]
    exact ⟨[.char c], denotes_char c, fun rest => readAux_silent _ hstep hvalue⟩
  | letter hletter =>
    obtain ⟨hunescape, hu⟩ := unescape_of_mem hletter
    refine ⟨[.char c], denotes_char c, fun rest => ?_⟩
    rw [symbols_cons, symbols_cons, symbols_nil, List.cons_append, List.cons_append, List.nil_append,
      readAux_silent (.escape ps) rfl hvalue,
      readAux_silent (.quoted (.char c :: ps)) (by simp [Scanner.step, hu, hunescape]) hvalue]
    rfl
  | unit hunit => exact ⟨[.code c.toNat], denotes_code c, fun rest => readAux_unit hvalue hunit ps⟩
  | pair hc hhigh hlow =>
    refine ⟨_, denotes_pair hc, fun rest => ?_⟩
    rw [symbols_append, List.append_assoc, readAux_unit hvalue hhigh, readAux_unit hvalue hlow]
    rfl

/-- What spells a text is read as pieces that denote it. Pairs of codes make one character, so that
pieces and characters do not correspond one to one. -/
theorem readAux_chars (hvalue : b.value? = none) {s cs : List Char} (h : SpellsChars s cs)
    (ps : List Piece) :
    ∃ pieces, (∀ out, denoteAux out pieces = some (out.reverse ++ s)) ∧ ∀ rest,
      readAux q (.quoted ps) b (symbols cs ++ rest) =
        readAux q (.quoted (pieces.reverse ++ ps)) b rest := by
  induction h generalizing ps with
  | nil => exact ⟨[], fun out => by simp [denoteAux], fun rest => rfl⟩
  | @cons c s cs ds hc hs ih =>
    obtain ⟨first, hfirst, hread⟩ := readAux_char (q := q) hvalue hc ps
    obtain ⟨pieces, hpieces, hreads⟩ := ih (first.reverse ++ ps)
    refine ⟨first ++ pieces, fun out => ?_, fun rest => ?_⟩
    · rw [hfirst, hpieces]
      simp
    · rw [symbols_append, List.append_assoc, hread, hreads]
      simp

/-- A quoted string is read as the text that it spells. -/
theorem readAux_text {s : String} {cs : List Char} (h : SpellsText s cs) (hvalue : b.value? = none)
    (hfeed : Builder.feed? q b (.string (some s)) = some b') :
    readAux q between b (symbols cs ++ rest) = resume q b' rest := by
  obtain ⟨hs⟩ := h
  rename_i cs
  obtain ⟨pieces, hpieces, hread⟩ := readAux_chars (q := q) hvalue hs []
  have hdenote : denote pieces = some s := by
    rw [denote, hpieces]
    simp
  have hsplit : symbols ('"' :: (cs ++ ['"'])) ++ rest =
      .char '"' :: (symbols cs ++ .char '"' :: rest) := by
    simp
  rw [hsplit, readAux_silent (.quoted []) rfl hvalue, hread]
  refine readAux_mark (t := .string (denote pieces)) ?_ (by rwa [hdenote])
  simp [Scanner.step]

/-! ### Words -/

/-- A word begins with any of its characters. -/
theorem start_of_isWordChar {c : Char} (h : isWordChar c = true) :
    Scanner.start c = some (.word [c], []) := by
  unfold Scanner.start
  split
  case h_8 =>
    have hblank : isBlank c = false := by
      by_contra hb
      simp only [isBlank, Bool.not_eq_false, Bool.or_eq_true, beq_iff_eq] at hb
      rcases hb with ((rfl | rfl) | rfl) | rfl <;> exact absurd h (by decide)
    rw [hblank, h]
    rfl
  all_goals exact absurd h (by decide)

/-- A word goes on as long as its characters do. -/
theorem readAux_letters (hvalue : b.value? = none) {cs : List Char}
    (hcs : ∀ c ∈ cs, isWordChar c = true) (w : List Char) :
    readAux q (.word w) b (symbols cs ++ rest) = readAux q (.word (cs.reverse ++ w)) b rest := by
  induction cs generalizing w with
  | nil => rfl
  | cons c cs ih =>
    have hc : isWordChar c = true := hcs c List.mem_cons_self
    rw [symbols_cons, List.cons_append,
      readAux_silent (.word (c :: w)) (by simp [Scanner.step, hc]) hvalue,
      ih fun d hd => hcs d (List.mem_cons_of_mem c hd)]
    simp

/-- A word is read as what it denotes once something follows that cannot belong to it. -/
theorem readAux_word {w : List Char} {a : Atom} {d : Char} (hvalue : b.value? = none)
    (hne : w ≠ []) (hw : ∀ c ∈ w, isWordChar c = true) (ha : Atom.ofWord? w = some a)
    (hd : isWordChar d = false) :
    readAux q between b (symbols w ++ .char d :: rest) =
      (Builder.feed? q b (.atom a)).bind fun b' => readAux q between b' (.char d :: rest) := by
  obtain ⟨c, cs, rfl⟩ := List.exists_cons_of_ne_nil hne
  have hstart : Scanner.step between (.char c) = some (.word [c], []) :=
    start_of_isWordChar (hw c List.mem_cons_self)
  rw [symbols_cons, List.cons_append, readAux_silent _ hstart hvalue,
    readAux_letters hvalue fun x hx => hw x (List.mem_cons_of_mem c hx)]
  -- What follows completes the word, besides whatever it is itself.
  have hword : Scanner.step (.word (cs.reverse ++ [c])) (.char d) =
      (Scanner.start d).map fun next => (next.1, .atom a :: next.2) := by
    cases hstart : Scanner.start d <;> simp [Scanner.step, hd, ha, hstart]
  have hmark : Scanner.step between (.char d) = Scanner.start d := rfl
  simp only [readAux, hword, hmark]
  cases Scanner.start d with
  | none => cases Builder.feed? q b (.atom a) <;> rfl
  | some next => cases hfeed : Builder.feed? q b (.atom a) <;> simp [hfeed]

/-- What spells a value without parts is a word for it. -/
theorem SpellsAtom.word {a : Atom} {cs : List Char} (h : SpellsAtom a cs) :
    cs ≠ [] ∧ (∀ c ∈ cs, isWordChar c = true) ∧ Atom.ofWord? cs = some a := by
  cases h with
  | null => exact ⟨by decide, List.all_eq_true.1 rfl, rfl⟩
  | bool b => cases b <;> exact ⟨by decide, List.all_eq_true.1 rfl, rfl⟩
  | number hnumber =>
    have hread := Number.ofChars?_of_spells hnumber
    -- A number is none of the three words.
    have hother : ∀ w, Number.ofChars? w = none → cs ≠ w := by
      rintro w hw rfl
      rw [hread] at hw
      exact nomatch hw
    refine ⟨hother _ (by decide), Number.isWordChar_of_mem_number hnumber, ?_⟩
    rw [Atom.ofWord?, if_neg (hother _ (by decide)), if_neg (hother _ (by decide)),
      if_neg (hother _ (by decide)), hread]
    rfl

/-! ### What a reader admits -/

mutual

/-- The numbers in a value, from left to right. -/
def numbers : Json → List Number
  | .number n => [n]
  | .array items => itemNumbers items
  | .object members => memberNumbers members
  | .null => []
  | .bool _ => []
  | .string _ => []

def itemNumbers : List Json → List Number
  | [] => []
  | v :: rest => v.numbers ++ itemNumbers rest

def memberNumbers : List (Text × Json) → List Number
  | [] => []
  | (_, v) :: rest => v.numbers ++ memberNumbers rest

end

/-- Whether a reader takes a value for what it is. One that looks at everything takes no number
beyond the range of doubles. -/
def admitted (q : Scrutiny) (v : Json) : Bool :=
  q == .form || v.numbers.all Number.inRange

theorem admitted_everything (v : Json) :
    v.admitted .everything = v.numbers.all Number.inRange := rfl

/-- An atom is admitted by itself. -/
theorem admitted_atom (a : Atom) : a.toJson.admitted q = Builder.admitsAtom q a := by
  cases a <;> simp [Atom.toJson, admitted, numbers, Builder.admitsAtom]

/-- Texts are always admitted. -/
theorem admitted_text (s : String) : (ofText s).admitted q = true := by
  simp [ofText, admitted, numbers]

/-- An array is admitted if its items are. -/
theorem admitted_array (items : List Json) :
    (Json.array items).admitted q = items.all (admitted q) := by
  induction items with
  | nil => simp [admitted, numbers, itemNumbers]
  | cons v items ih =>
    rw [List.all_cons, ← ih]
    cases q with
    | form => rfl
    | everything => simp [admitted_everything, numbers, itemNumbers]

/-- A record is admitted if its values are. -/
theorem admitted_record (members : List (String × Json)) :
    (record members).admitted q = members.all fun m => m.2.admitted q := by
  induction members with
  | nil => simp [record, admitted, numbers, memberNumbers]
  | cons m members ih =>
    rw [List.all_cons, ← ih]
    cases q with
    | form => rfl
    | everything => simp [record, admitted_everything, numbers, memberNumbers]

/-! ### Values -/

/-- A builder that takes the first token of a value as one inside `stack`. Behind an opening
bracket this leaves out the closing one. -/
structure Expects (q : Scrutiny) (b : Builder) (stack : List Frame) : Prop where
  incomplete : b.value? = none
  opens : ∀ t, t ≠ .closeArray → Builder.feed? q b t = Builder.open? q stack t

theorem expects_value : Expects q ⟨stack, .value⟩ stack :=
  ⟨value?_of_unseparated nofun, fun _ _ => rfl⟩

theorem expects_item : Expects q ⟨stack, .item⟩ (.array [] :: stack) := by
  refine ⟨value?_item, fun t ht => ?_⟩
  cases t <;> first | rfl | exact absurd rfl ht

/-- Inside an array or object, reading a spelling leaves its value in front of what follows, or
fails if the value is not admitted. -/
def Reads (q : Scrutiny) (room : Nat) (v : Json) (cs : List Char) : Prop :=
  ∀ (stack : List Frame) (b : Builder) (d : Char) (rest : List Symbol),
    stack ≠ [] → stack.length + room ≤ nestingLimit → Expects q b stack → isWordChar d = false →
    readAux q between b (symbols cs ++ .char d :: rest) =
      if v.admitted q then readAux q between ⟨stack, .separator v⟩ (.char d :: rest) else none

/-- Atoms are read. -/
theorem reads_atom {room : Nat} {a : Atom} {cs : List Char} (h : SpellsAtom a cs) :
    Reads q room a.toJson cs := by
  intro stack b d rest hstack hroom hb hd
  obtain ⟨hne, hw, ha⟩ := h.word
  rw [readAux_word hb.incomplete hne hw ha hd, hb.opens _ (by simp), Builder.open?, admitted_atom]
  split <;> rfl

/-- Texts are read. -/
theorem reads_text {room : Nat} {s : String} {cs : List Char} (h : SpellsText s cs) :
    Reads q room (ofText s) cs := by
  intro stack b d rest hstack hroom hb hd
  have hfeed : Builder.feed? q b (.string (some s)) = some ⟨stack, .separator (ofText s)⟩ := by
    rw [hb.opens _ (by simp), Builder.open?, if_pos (by simp [Builder.admitsText])]
    rfl
  rw [readAux_text h hb.incomplete hfeed, resume_of_incomplete (value?_of_ne_nil hstack),
    admitted_text, if_pos rfl]

/-- A blank ends a word. -/
theorem isWordChar_of_isBlank {c : Char} (h : isBlank c = true) : isWordChar c = false := by
  simp only [isBlank, Bool.or_eq_true, beq_iff_eq] at h
  rcases h with ((rfl | rfl) | rfl) | rfl <;> decide

/-- Blanks around a value make no difference. -/
theorem reads_blanks {room : Nat} {v : Json} {left cs right : List Char} (hleft : Blanks left)
    (h : Reads q room v cs) (hright : Blanks right) : Reads q room v (left ++ (cs ++ right)) := by
  intro stack b d rest hstack hroom hb hd
  rw [symbols_append, symbols_append, List.append_assoc, List.append_assoc,
    readAux_blanks hb.incomplete hleft]
  cases right with
  | nil => exact h stack b d rest hstack hroom hb hd
  | cons c right =>
    -- The first blank ends the spelling, and the others are passed over as well.
    have hc : isWordChar c = false := isWordChar_of_isBlank (hright c List.mem_cons_self)
    have hskip : readAux q between ⟨stack, .separator v⟩ (symbols (c :: right) ++ .char d :: rest) =
        readAux q between ⟨stack, .separator v⟩ (.char d :: rest) :=
      readAux_blanks (value?_of_ne_nil hstack) hright
    rw [symbols_cons, List.cons_append] at hskip ⊢
    rw [h stack b c _ hstack hroom hb hc, hskip]

/-! ### Arrays -/

theorem readAux_comma {v : Json} {items : List Json} :
    readAux q between ⟨.array items :: stack, .separator v⟩ (.char ',' :: rest) =
      readAux q between ⟨.array (v :: items) :: stack, .value⟩ rest := by
  rw [readAux_mark (t := .comma) rfl rfl, resume_of_incomplete rfl]

theorem readAux_closeArray {v : Json} {items : List Json} :
    readAux q between ⟨.array items :: stack, .separator v⟩ (.char ']' :: rest) =
      resume q ⟨stack, .separator (.array (v :: items).reverse)⟩ rest :=
  readAux_mark (t := .closeArray) rfl rfl

/-- A list of items is read up to the closing bracket. -/
theorem readAux_items {room : Nat} {items : List Item}
    (hitems : ∀ i ∈ items, Reads q room i.value i.chars) (hne : items ≠ [])
    (hroom : stack.length + 1 + room ≤ nestingLimit) (done : List Json)
    (hb : Expects q b (.array done :: stack)) :
    readAux q between b (symbols (listed (items.map Item.chars)) ++ .char ']' :: rest) =
      if (items.map Item.value).all (admitted q) then
        resume q ⟨stack, .separator (.array (done.reverse ++ items.map Item.value))⟩ rest
      else none := by
  -- `done` is what was read of the array before, latest first.
  induction items generalizing done b with
  | nil => exact absurd rfl hne
  | cons i items ih =>
    have hi := hitems i List.mem_cons_self
    have hdeep : (Frame.array done :: stack).length + room ≤ nestingLimit := by
      simpa [Nat.add_right_comm] using hroom
    cases items with
    | nil =>
      rw [List.map_cons, List.map_nil, listed, hi _ b _ rest (by simp) hdeep hb (by decide),
        readAux_closeArray]
      simp
    | cons j items =>
      have hrest := ih (fun k hk => hitems k (List.mem_cons_of_mem i hk)) (by simp)
        (i.value :: done) expects_value
      rw [List.map_cons, List.map_cons, listed, symbols_append, symbols_cons, List.append_assoc,
        List.cons_append, hi _ b _ _ (by simp) hdeep hb (by decide), readAux_comma,
        ← List.map_cons, hrest]
      cases hvalue : i.value.admitted q <;> simp [hvalue]

/-- An opening bracket begins an array. -/
theorem readAux_openArray (hroom : stack.length < nestingLimit)
    (hfeed : Builder.feed? q b .openArray = Builder.open? q stack .openArray) :
    readAux q between b (.char '[' :: rest) = readAux q between ⟨stack, .item⟩ rest := by
  have hopen : Builder.feed? q b .openArray = some ⟨stack, .item⟩ := by
    rw [hfeed, Builder.open?, if_pos]
    simp [Builder.admitsNesting, hroom]
  rw [readAux_mark (t := .openArray) rfl hopen,
    resume_of_incomplete value?_item]

/-- An array may be empty. -/
theorem reads_noItems {room : Nat} {blanks : List Char} (h : Blanks blanks) :
    Reads q (room + 1) (.array []) ('[' :: (blanks ++ [']'])) := by
  intro stack b d rest hstack hroom hb hd
  rw [symbols_cons, symbols_append, List.cons_append, List.append_assoc, symbols_cons, symbols_nil,
    List.cons_append, List.nil_append,
    readAux_openArray (by omega) (hb.opens _ (by simp)),
    readAux_blanks value?_item h,
    readAux_mark (t := .closeArray) rfl rfl, resume_of_incomplete (value?_of_ne_nil hstack),
    admitted_array, List.all_nil, if_pos rfl]

/-- Arrays are read. -/
theorem reads_array {room : Nat} {items : List Item} (hne : items ≠ [])
    (hitems : ∀ i ∈ items, Reads q room i.value i.chars) :
    Reads q (room + 1) (.array (items.map Item.value))
      ('[' :: (listed (items.map Item.chars) ++ [']'])) := by
  intro stack b d rest hstack hroom hb hd
  rw [symbols_cons, symbols_append, List.cons_append, List.append_assoc, symbols_cons, symbols_nil,
    List.cons_append, List.nil_append,
    readAux_openArray (by omega) (hb.opens _ (by simp)),
    readAux_items hitems hne (by omega) [] expects_item,
    resume_of_incomplete (value?_of_ne_nil hstack), admitted_array]
  rfl

/-! ### Objects -/

/-- A builder that takes a key of an object, of which `done` is complete. -/
structure ExpectsKey (q : Scrutiny) (b : Builder) (stack : List Frame) (done : List (Text × Json)) :
    Prop where
  incomplete : b.value? = none
  takes : ∀ k, Builder.feed? q b (.string (some k)) = some ⟨stack, .colon done (some k)⟩

theorem expectsKey_key : ExpectsKey q ⟨stack, .key⟩ stack [] :=
  ⟨value?_key, fun k => by simp [Builder.feed?, Builder.admitsText]⟩

theorem expectsKey_nextKey {done : List (Text × Json)} :
    ExpectsKey q ⟨stack, .nextKey done⟩ stack done :=
  ⟨value?_nextKey, fun k => by simp [Builder.feed?, Builder.admitsText]⟩

/-- A name and its colon. -/
theorem readAux_name {done : List (Text × Json)} (hb : ExpectsKey q b stack done) {name : String}
    {cs : List Char} (h : SpellsName name cs) :
    readAux q between b (symbols cs ++ .char ':' :: rest) =
      readAux q between ⟨.object done (some name) :: stack, .value⟩ rest := by
  obtain ⟨hleft, htext, hright⟩ := h
  have hcolon : Builder.value? ⟨stack, .colon done (some name)⟩ = none :=
    value?_of_unseparated nofun
  rw [symbols_append, symbols_append, List.append_assoc, List.append_assoc,
    readAux_blanks hb.incomplete hleft, readAux_text htext hb.incomplete (hb.takes name),
    resume_of_incomplete hcolon, readAux_blanks hcolon hright, readAux_mark (t := .colon) rfl rfl,
    resume_of_incomplete rfl]

theorem readAux_nextComma {v : Json} {done : List (Text × Json)} {key : Text} :
    readAux q between ⟨.object done key :: stack, .separator v⟩ (.char ',' :: rest) =
      readAux q between ⟨stack, .nextKey ((key, v) :: done)⟩ rest := by
  rw [readAux_mark (t := .comma) rfl rfl,
    resume_of_incomplete value?_nextKey]

theorem readAux_closeObject {v : Json} {done : List (Text × Json)} {key : Text} :
    readAux q between ⟨.object done key :: stack, .separator v⟩ (.char '}' :: rest) =
      resume q ⟨stack, .separator (.object ((key, v) :: done).reverse)⟩ rest :=
  readAux_mark (t := .closeObject) rfl rfl

theorem readAux_entries {room : Nat} {entries : List Entry}
    (hnames : ∀ e ∈ entries, SpellsName e.name e.nameChars)
    (hvalues : ∀ e ∈ entries, Reads q room e.value e.valueChars) (hne : entries ≠ [])
    (hroom : stack.length + 1 + room ≤ nestingLimit) (done : List (Text × Json))
    (hb : ExpectsKey q b stack done) :
    readAux q between b (symbols (listed (entries.map Entry.chars)) ++ .char '}' :: rest) =
      if entries.all fun e => e.value.admitted q then
        resume q ⟨stack, .separator (.object (done.reverse ++
          entries.map fun e => (some e.name, e.value)))⟩ rest
      else none := by
  -- The entries read so far are kept in reverse, and the last one is followed by the brace.
  induction entries generalizing done b with
  | nil => exact absurd rfl hne
  | cons e entries ih =>
    have hname := hnames e List.mem_cons_self
    have hvalue := hvalues e List.mem_cons_self
    have hdeep : (Frame.object done (some e.name) :: stack).length + room ≤ nestingLimit := by
      simpa [Nat.add_right_comm] using hroom
    cases entries with
    | nil =>
      rw [List.map_cons, List.map_nil, listed, Entry.chars, symbols_append, symbols_cons,
        List.append_assoc, List.cons_append, readAux_name hb hname,
        hvalue _ _ _ rest (by simp) hdeep expects_value (by decide), readAux_closeObject]
      simp
    | cons f entries =>
      have hrest := ih (fun g hg => hnames g (List.mem_cons_of_mem e hg))
        (fun g hg => hvalues g (List.mem_cons_of_mem e hg)) (by simp) ((some e.name, e.value) :: done)
        expectsKey_nextKey
      rw [List.map_cons, List.map_cons, listed, ← List.map_cons, Entry.chars, symbols_append,
        symbols_append, symbols_cons, symbols_cons, List.append_assoc, List.append_assoc,
        List.cons_append, List.cons_append, readAux_name hb hname,
        hvalue _ _ _ _ (by simp) hdeep expects_value (by decide), readAux_nextComma, hrest]
      cases hadmitted : e.value.admitted q <;> simp [hadmitted]

/-- An opening brace begins an object. -/
theorem readAux_openObject (hroom : stack.length < nestingLimit)
    (hfeed : Builder.feed? q b .openObject = Builder.open? q stack .openObject) :
    readAux q between b (.char '{' :: rest) = readAux q between ⟨stack, .key⟩ rest := by
  have hopen : Builder.feed? q b .openObject = some ⟨stack, .key⟩ := by
    rw [hfeed, Builder.open?, if_pos]
    simp [Builder.admitsNesting, hroom]
  rw [readAux_mark (t := .openObject) rfl hopen,
    resume_of_incomplete value?_key]

/-- An object without members, wherever it stands. -/
theorem readAux_noMembers {blanks : List Char} (h : Blanks blanks)
    (hroom : stack.length < nestingLimit)
    (hfeed : Builder.feed? q b .openObject = Builder.open? q stack .openObject) :
    readAux q between b (symbols ('{' :: (blanks ++ ['}'])) ++ rest) =
      resume q ⟨stack, .separator (record [])⟩ rest := by
  rw [symbols_cons, symbols_append, List.cons_append, List.append_assoc, symbols_cons, symbols_nil,
    List.cons_append, List.nil_append, readAux_openObject hroom hfeed,
    readAux_blanks value?_key h]
  exact readAux_mark (t := .closeObject) rfl rfl

/-- An object with members, wherever it stands. -/
theorem readAux_object {room : Nat} {entries : List Entry} (hne : entries ≠ [])
    (hnames : ∀ e ∈ entries, SpellsName e.name e.nameChars)
    (hvalues : ∀ e ∈ entries, Reads q room e.value e.valueChars)
    (hroom : stack.length + 1 + room ≤ nestingLimit)
    (hfeed : Builder.feed? q b .openObject = Builder.open? q stack .openObject) :
    readAux q between b (symbols ('{' :: (listed (entries.map Entry.chars) ++ ['}'])) ++ rest) =
      if (record (entries.map Entry.member)).admitted q then
        resume q ⟨stack, .separator (record (entries.map Entry.member))⟩ rest
      else none := by
  rw [symbols_cons, symbols_append, List.cons_append, List.append_assoc, symbols_cons, symbols_nil,
    List.cons_append, List.nil_append, readAux_openObject (by omega) hfeed,
    readAux_entries hnames hvalues hne hroom [] expectsKey_key, admitted_record, List.all_map,
    record, List.map_map]
  rfl

/-! ### Spelled values are read -/

/-- A value is read from any text that spells it, by induction on the spelling: the reader is one
pass over the text with a stack, and each rule says what a value leaves on it. -/
theorem reads_of_spells {room : Nat} {v : Json} {cs : List Char} (h : Spells room v cs) :
    Reads q room v cs := by
  induction h with
  | atom h => exact reads_atom h
  | text h => exact reads_text h
  | noItems h => exact reads_noItems h
  | array hne _ ih => exact reads_array hne ih
  | noMembers h =>
    intro stack b d rest hstack hroom hb hd
    rw [readAux_noMembers h (by omega) (hb.opens _ (by simp)),
      resume_of_incomplete (value?_of_ne_nil hstack), admitted_record, List.all_nil, if_pos rfl]
  | object hne hnames _ ih =>
    intro stack b d rest hstack hroom hb hd
    rw [readAux_object hne hnames ih (by omega) (hb.opens _ (by simp)),
      resume_of_incomplete (value?_of_ne_nil hstack)]
  | blanks hleft _ hright ih => exact reads_blanks hleft ih hright

/-- Outside of everything, reading the spelling of an object ends with the object. Only blanks of
the spelling are left. -/
theorem readAux_of_spells {room : Nat} {v : Json} {cs : List Char} (h : Spells room v cs)
    {members : List (String × Json)} (hv : v = record members) (hroom : room ≤ nestingLimit) :
    ∃ blanks, Blanks blanks ∧ ∀ rest, readAux q between .empty (symbols cs ++ rest) =
      if v.admitted q then some (v, symbols blanks ++ rest) else none := by
  induction h with
  | @atom _ a _ h => cases a <;> exact nomatch hv
  | text h => exact nomatch hv
  | noItems h => exact nomatch hv
  | array hne hvalues => exact nomatch hv
  | noMembers h =>
    have hopen : ([] : List Frame).length < nestingLimit := Nat.zero_lt_of_lt hroom
    refine ⟨[], .nil, fun rest => ?_⟩
    rw [readAux_noMembers h hopen rfl, admitted_record]
    rfl
  | @object deeper _ hne hnames hvalues =>
    have hdeep : ([] : List Frame).length + 1 + deeper ≤ nestingLimit := by
      rwa [List.length_nil, Nat.zero_add, Nat.add_comm]
    refine ⟨[], .nil, fun rest => ?_⟩
    rw [readAux_object hne hnames (fun e he => reads_of_spells (hvalues e he)) hdeep rfl]
    rfl
  -- blanks after the value are left to be read
  | @blanks _ _ left cs right hleft h hright ih =>
    obtain ⟨blanks, hblanks, hread⟩ := ih hv hroom
    refine ⟨blanks ++ right, hblanks.append hright, fun rest => ?_⟩
    rw [symbols_append, symbols_append, List.append_assoc, List.append_assoc,
      readAux_blanks rfl hleft, hread, symbols_append, List.append_assoc]

/-- The text of an object is read as the object, if it is admitted. -/
theorem read?_of_spells {room : Nat} {members : List (String × Json)} {cs : List Char}
    (h : Spells room (record members) cs) (hroom : room ≤ nestingLimit) :
    read? q (symbols cs) = if (record members).admitted q then some (record members) else none := by
  obtain ⟨blanks, hblanks, hread⟩ := readAux_of_spells (q := q) h rfl hroom
  have hfirst : readFirst? q (symbols cs) =
      if (record members).admitted q then some (record members, symbols blanks) else none := by
    simpa [readFirst?] using hread []
  have hleft : (symbols blanks).all isBlankSymbol = true := by
    rw [symbols, List.all_map, List.all_eq_true]
    exact hblanks
  rw [read?, hfirst]
  split
  · exact if_pos hleft
  · rfl

end VoiceRoom.Json
