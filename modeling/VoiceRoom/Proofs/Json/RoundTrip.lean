import VoiceRoom.Json.Writer
import VoiceRoom.Proofs.Json.Integer
import VoiceRoom.Proofs.Json.Reading

/-!
# What is written is read back

The values that the service writes (`Plain`) are read back as they were: `read?_render`. Their
written form is one of their spellings (`spells_chars`), and they hold no number that a reader would
refuse (`admitted_of_plain`).
-/

namespace VoiceRoom.Json

/-- The values that the service writes: texts, integers of words, and records and lists of them,
nested at most `room` deep. -/
inductive Plain : Nat → Json → Prop where
  | null {room : Nat} : Plain room .null
  | bool {room : Nat} (b : Bool) : Plain room (.bool b)
  | int {room : Nat} {i : Int} (h : i.natAbs ≤ wordMax) : Plain room (ofInt i)
  | text {room : Nat} (s : String) : Plain room (ofText s)
  | array {room : Nat} {items : List Json} (h : ∀ v ∈ items, Plain room v) :
      Plain (room + 1) (.array items)
  | object {room : Nat} {members : List (Text × Json)} (hkeys : ∀ m ∈ members, m.1.isSome)
      (hvalues : ∀ m ∈ members, Plain room m.2) : Plain (room + 1) (.object members)

/-- Members that are all named by texts make a record. -/
theorem exists_record {members : List (Text × Json)} (hkeys : ∀ m ∈ members, m.1.isSome) :
    ∃ ms : List (String × Json), members = ms.map fun (name, value) => (some name, value) := by
  refine ⟨members.map fun m => (m.1.getD "", m.2), ?_⟩
  rw [List.map_map]
  refine (List.map_id' members).symm.trans (List.map_congr_left fun m hm => ?_)
  obtain ⟨name, hname⟩ := Option.isSome_iff_exists.1 (hkeys m hm)
  exact Prod.ext (by simp [hname]) rfl

/-! ### Strings -/

/-- Each value below sixteen is spelt by its digit. -/
theorem spellsHex_digitChar {n : Nat} (h : n < 16) : SpellsHex n n.digitChar :=
  ⟨h, .inl rfl⟩

/-- Every character is spelt by its escape. -/
theorem spellsChar_escape (c : Char) : SpellsChar c (escape c) := by
  unfold escape
  split
  · exact .letter (by decide)
  · exact .letter (by decide)
  · exact .letter (by decide)
  · exact .letter (by decide)
  · exact .letter (by decide)
  · exact .letter (by decide)
  · exact .letter (by decide)
  · rename_i hquote hslash _ _ _ _ _
    split
    · -- A control character: the first two of its four hexadecimal digits are zeros.
      rename_i hcontrol
      have hcode : 0x1000 * 0 + 0x100 * 0 + 0x10 * (c.toNat / 16) + c.toNat % 16 = c.toNat := by
        omega
      have hzero : SpellsHex 0 '0' := spellsHex_digitChar (by decide)
      have hhigh : SpellsHex (c.toNat / 16) _ := spellsHex_digitChar (by omega)
      have hlow : SpellsHex (c.toNat % 16) _ := spellsHex_digitChar (by omega)
      have hunit := SpellsUnit.intro hzero hzero hhigh hlow
      rw [hcode] at hunit
      exact .unit hunit
    · rename_i hcontrol
      exact .plain (fun h => hquote h) (fun h => hslash h) (Nat.not_lt.1 hcontrol)

/-- A quoted text spells the text. -/
theorem spellsText_quote (s : String) : SpellsText s (quote s) := by
  have hchars : ∀ cs : List Char, SpellsChars cs (cs.flatMap escape) := by
    intro cs
    induction cs with
    | nil => exact .nil
    | cons c cs ih => exact .cons (spellsChar_escape c) ih
  exact .intro (hchars s.toList)

/-- A quoted name spells the name. -/
theorem spellsName_quote (name : String) : SpellsName name (quote name) := by
  simpa using SpellsName.intro .nil (spellsText_quote name) .nil

/-! ### Numbers -/

/-- The digits of a number spell it. -/
theorem spellsWhole_toDigits (n : Nat) : SpellsWhole (Nat.toDigits 10 n) := by
  have hwhole := Number.isWhole_toDigits n
  have hdigits : Digits (Nat.toDigits 10 n) := fun _ => Number.isDigit_of_mem_toDigits
  generalize Nat.toDigits 10 n = cs at hwhole hdigits
  unfold Number.isWhole at hwhole
  split at hwhole
  · exact nomatch hwhole
  · exact .zero
  · exact nomatch hwhole
  · rename_i hempty hzero hmore
    obtain ⟨c, cs, rfl⟩ := List.exists_cons_of_ne_nil hempty
    obtain ⟨hc, hcs⟩ := List.forall_mem_cons.1 hdigits
    exact .digits hc (fun heq => hmore cs (heq ▸ rfl)) hcs

/-- An integer is spelt as it is written. -/
theorem spellsNumber_ofInt (i : Int) : SpellsNumber (.ofInt i) (Number.ofInt i).toChars := by
  have h := SpellsNumber.intro (n := .ofInt i) (spellsWhole_toDigits i.natAbs) .none .none
  rw [Number.toChars_ofInt]
  simpa [Number.ofInt] using h

/-! ### Values -/

/-- Items are written as a list. -/
theorem itemChars_eq_listed (items : List Json) : itemChars items = listed (items.map chars) := by
  induction items with
  | nil => rfl
  | cons v items ih =>
    cases items with
    | nil => rfl
    | cons w items =>
      rw [itemChars, ih]
      rfl

/-- A member as it is written. -/
def Entry.ofMember (m : String × Json) : Entry :=
  ⟨m.1, m.2, quote m.1, m.2.chars⟩

/-- Records are written as a list of their members. -/
theorem chars_record (members : List (String × Json)) :
    (record members).chars =
      '{' :: (listed (members.map fun m => (Entry.ofMember m).chars) ++ ['}']) := by
  rw [record, chars, List.cons_append]
  congr 2
  induction members with
  | nil => rfl
  | cons m members ih =>
    cases members with
    | nil => rfl
    | cons n members =>
      rw [List.map_cons, List.map_cons, memberChars]
      exact congrArg (quote m.1 ++ ':' :: m.2.chars ++ ',' :: ·) ih

/-- An array is spelt if its items are. -/
theorem spells_array {room : Nat} {items : List Json} (h : ∀ v ∈ items, Spells room v v.chars) :
    Spells (room + 1) (.array items) (Json.array items).chars := by
  rw [chars, itemChars_eq_listed, List.cons_append]
  by_cases hne : items = []
  · subst hne
    exact .noItems .nil
  · have hvalues : ∀ i ∈ items.map fun v => Item.mk v v.chars, Spells room i.value i.chars :=
      List.forall_mem_map.2 h
    have harray := Spells.array (by simpa using hne) hvalues
    rw [List.map_map, List.map_map] at harray
    simpa [Function.comp_def] using harray

/-- A record is spelt if its values are. -/
theorem spells_record {room : Nat} {members : List (String × Json)}
    (h : ∀ m ∈ members, Spells room m.2 m.2.chars) :
    Spells (room + 1) (record members) (record members).chars := by
  rw [chars_record]
  by_cases hne : members = []
  · subst hne
    exact .noMembers .nil
  · have hnames : ∀ e ∈ members.map Entry.ofMember, SpellsName e.name e.nameChars :=
      List.forall_mem_map.2 fun m _ => spellsName_quote m.1
    have hobject := Spells.object (by simpa using hne) hnames (List.forall_mem_map.2 h)
    rw [List.map_map, List.map_map] at hobject
    simpa [Function.comp_def, Entry.ofMember, Entry.member] using hobject

/-- The written form of a value spells it. -/
theorem spells_chars {room : Nat} {v : Json} (h : Plain room v) : Spells room v v.chars := by
  induction h with
  | null =>
    rw [chars]
    exact .atom .null
  | @bool room b =>
    have hbool : Spells room (.bool b) _ := .atom (.bool b)
    cases b <;> simpa [chars] using hbool
  | @int _ i _ =>
    rw [ofInt, chars]
    exact .atom (.number (spellsNumber_ofInt i))
  | text s =>
    rw [ofText, chars]
    exact .text (spellsText_quote s)
  | array _ ih => exact spells_array ih
  | object hkeys _ ih =>
    obtain ⟨members, rfl⟩ := exists_record hkeys
    exact spells_record (List.forall_mem_map.1 ih)

/-- Plain values are admitted by every reader. -/
theorem admitted_of_plain {q : Scrutiny} {room : Nat} {v : Json} (h : Plain room v) :
    v.admitted q = true := by
  induction h with
  | null => exact admitted_atom .null
  | bool b => exact admitted_atom (.bool b)
  | @int _ i hi =>
    rw [ofInt, ← Atom.toJson, admitted_atom]
    simp [Builder.admitsAtom, Number.inRange_ofInt hi]
  | text s => exact admitted_text s
  | array _ ih =>
    rw [admitted_array]
    exact List.all_eq_true.2 ih
  | object hkeys _ ih =>
    obtain ⟨members, rfl⟩ := exists_record hkeys
    rw [← record, admitted_record]
    exact List.all_eq_true.2 (List.forall_mem_map.1 ih)

/-- The text of a record is read as the record. -/
theorem read?_render {q : Scrutiny} {room : Nat} {members : List (Text × Json)}
    (h : Plain (room + 1) (.object members)) (hroom : room < nestingLimit) :
    read? q (Symbol.ofText (render (.object members))) = some (.object members) := by
  have hsymbols : Symbol.ofText (render (.object members)) = symbols (chars (.object members)) := by
    simp [Symbol.ofText, render, symbols]
  have hspells := spells_chars h
  have hadmitted := admitted_of_plain (q := q) h
  cases h with
  | object hkeys hvalues =>
    obtain ⟨ms, rfl⟩ := exists_record hkeys
    rw [hsymbols]
    exact (read?_of_spells hspells hroom).trans (if_pos hadmitted)

end VoiceRoom.Json
