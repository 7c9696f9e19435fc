/-!
# Entries

What a store holds: keys with their values, in the order in which the keys came. `lookup_assign` and
`lookup_erase` say all there is to know of the two ways to change them.
-/

namespace VoiceRoom

/-- Keys with their values. -/
abbrev Entries (α : Type) := List (String × α)

namespace Entries

variable {α : Type}

/-- The entries with the value at a key replaced, or added at the end. -/
def assign (key : String) (a : α) : Entries α → Entries α
  | [] => [(key, a)]
  | (k, b) :: rest => if k = key then (key, a) :: rest else (k, b) :: assign key a rest

def erase (key : String) (entries : Entries α) : Entries α :=
  entries.filter fun e => e.1 != key

theorem lookup_cons_ite (key k : String) (a : α) (entries : Entries α) :
    List.lookup k ((key, a) :: entries) = if k = key then some a else List.lookup k entries := by
  by_cases h : k = key
  · simp [h]
  · simp [List.lookup_cons, beq_false_of_ne h, h]

/-- What is assigned is found, and nothing else changes. -/
theorem lookup_assign (key k : String) (a : α) (entries : Entries α) :
    List.lookup k (assign key a entries) = if k = key then some a else List.lookup k entries := by
  induction entries with
  | nil => rw [assign, lookup_cons_ite]
  | cons e rest ih =>
    obtain ⟨j, b⟩ := e
    by_cases hj : j = key
    · subst hj
      rw [assign, if_pos rfl, lookup_cons_ite, lookup_cons_ite]
      split <;> rfl
    · rw [assign, if_neg hj, lookup_cons_ite, lookup_cons_ite, ih]
      by_cases hk : k = j
      · subst hk
        simp [hj]
      · simp [hk]

/-- What is erased is not found, and nothing else changes. -/
theorem lookup_erase (key k : String) (entries : Entries α) :
    List.lookup k (erase key entries) = if k = key then none else List.lookup k entries := by
  induction entries with
  | nil => simp [erase]
  | cons e rest ih =>
    obtain ⟨j, b⟩ := e
    by_cases hj : j = key
    · subst hj
      rw [show erase j ((j, b) :: rest) = erase j rest by simp [erase], ih, lookup_cons_ite]
      split <;> simp_all
    · rw [show erase key ((j, b) :: rest) = (j, b) :: erase key rest by simp [erase, hj],
        lookup_cons_ite, lookup_cons_ite, ih]
      by_cases hk : k = j
      · subst hk
        simp [hj]
      · simp [hk]

end Entries

end VoiceRoom
