import VoiceRoom.Json.Record

/-!
# Members of objects

Where no name is given twice, it does not matter in which order the members of an object stand, nor
what others there are: a field is read from the member of its name (`Record.required_of_mem`,
`Record.optional_of_mem`), and where there is none it stands for its default
(`Record.optional_of_omits`).
-/

namespace VoiceRoom.Json

variable {α : Type} {ms : List (String × Json)} {f : Field} {v : Json} {read : Json → Option α}
  {a default : α}

/-- No member of an object has the name. -/
def Omits (ms : List (String × Json)) (name : String) : Prop :=
  ∀ m ∈ ms, m.1 ≠ name

theorem filter_of_omits {name : String} (h : Omits ms name) : ms.filter (·.1 == name) = [] :=
  List.filter_eq_nil_iff.2 fun m hm => by simpa using h m hm

/-- Names are given once, so a member is all there is of its name. -/
theorem filter_of_mem {name : String} (hnames : (ms.map Prod.fst).Nodup) (h : (name, v) ∈ ms) :
    ms.filter (·.1 == name) = [(name, v)] := by
  induction ms with
  | nil => exact nomatch h
  | cons m ms ih =>
    obtain ⟨hfirst, hrest⟩ := List.nodup_cons.1 hnames
    rcases List.mem_cons.1 h with rfl | h
    · have homits : Omits ms name := fun n hn heq => hfirst (List.mem_map.2 ⟨n, hn, heq⟩)
      rw [List.filter_cons_of_pos (by simp), filter_of_omits homits]
    · have hne : m.1 ≠ name := fun heq => hfirst (List.mem_map.2 ⟨_, h, heq.symm⟩)
      rw [List.filter_cons_of_neg (by simpa using hne), ih hrest h]

/-- A record is read as its members. -/
theorem record?_record (repeats : Repeats) (arity : Nat) (ms : List (String × Json)) :
    (record ms).record? repeats arity = some (.members repeats ms) := by
  have hnamed : (ms.map fun m => (some m.1, m.2)).mapM named? = some ms := by
    induction ms with
    | nil => rfl
    | cons m ms ih => simp [named?, ih]
  rw [record, record?, hnamed, Option.map_some]

namespace Record

variable {repeats : Repeats}

/-- A member with a name of its own is found. -/
theorem find?_of_mem (hnames : (ms.map Prod.fst).Nodup) (h : (f.name, v) ∈ ms) :
    Record.find? (.members repeats ms) f = some (some v) := by
  cases repeats <;> simp [find?, filter_of_mem hnames h]

theorem find?_of_omits (h : Omits ms f.name) :
    Record.find? (.members repeats ms) f = some none := by
  cases repeats <;> simp [find?, filter_of_omits h]

/-- A required member is read if it is there. -/
theorem required_of_mem (hnames : (ms.map Prod.fst).Nodup) (h : (f.name, v) ∈ ms)
    (hread : read v = some a) : Record.required (.members repeats ms) f read = some a := by
  rw [required, find?_of_mem hnames h]
  exact hread

/-- An optional member is read if it is there. -/
theorem optional_of_mem (hnames : (ms.map Prod.fst).Nodup) (h : (f.name, v) ∈ ms)
    (hread : read v = some a) :
    Record.optional (.members repeats ms) f default read = some a := by
  rw [optional, find?_of_mem hnames h]
  exact hread

/-- An optional member has its default if it is omitted. -/
theorem optional_of_omits (h : Omits ms f.name) :
    Record.optional (.members repeats ms) f default read = some default := by
  rw [optional, find?_of_omits h]

end Record

end VoiceRoom.Json
