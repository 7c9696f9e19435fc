import VoiceRoom.Mapping
import VoiceRoom.Program

/-!
# Resolving a session id

The mapping of a session id is looked up but never written here. In real mode a mapping to a mock
meeting is stale: whoever joins has to obtain a real one and replace the version seen here.
-/

namespace VoiceRoom

inductive Resolution where
  | found (mapping : Mapping) (version : Nat)
  | stale (mapping : Mapping) (version : Nat)
  | absent
deriving DecidableEq, Repr

namespace Resolution

/-- The version that a new mapping has to replace. -/
def version? : Resolution → Option Nat
  | found _ version => some version
  | stale _ version => some version
  | absent => none

/-- What a mapping means in a mode. -/
def ofStored (mode : Mode) (stored : Versioned) : Resolution :=
  let mapping := Mapping.decode stored.value
  if mode = .real ∧ mapping.kind = .mock then stale mapping stored.version
  else found mapping stored.version

section ofStored

variable {mode : Mode} {stored : Versioned} {mapping : Mapping} {version : Nat}

/-- A mock mapping is stale in real mode. -/
theorem ofStored_of_stale (h : mode = .real ∧ (Mapping.decode stored.value).kind = .mock) :
    ofStored mode stored = stale (Mapping.decode stored.value) stored.version :=
  if_pos h

/-- Every mapping counts in mock mode, and one to a real meeting counts in both. -/
theorem ofStored_of_counts (h : mode = .mock ∨ (Mapping.decode stored.value).kind = .real) :
    ofStored mode stored = found (Mapping.decode stored.value) stored.version := by
  refine if_neg fun hstale => ?_
  rcases h with hmock | hreal
  · exact nomatch hstale.1.symm.trans hmock
  · exact nomatch hstale.2.symm.trans hreal

/-- A mapping counts or is stale, and is what was stored either way. -/
theorem ofStored_cases (mode : Mode) (stored : Versioned) :
    (mode = .mock ∨ (Mapping.decode stored.value).kind = .real) ∧
      ofStored mode stored = found (Mapping.decode stored.value) stored.version ∨
    (mode = .real ∧ (Mapping.decode stored.value).kind = .mock) ∧
      ofStored mode stored = stale (Mapping.decode stored.value) stored.version := by
  by_cases hstale : mode = .real ∧ (Mapping.decode stored.value).kind = .mock
  · exact .inr ⟨hstale, ofStored_of_stale hstale⟩
  · have hcounts : mode = .mock ∨ (Mapping.decode stored.value).kind = .real := by
      cases mode with
      | mock => exact .inl rfl
      | real =>
        cases hkind : (Mapping.decode stored.value).kind with
        | mock => exact absurd ⟨rfl, hkind⟩ hstale
        | real => exact .inr rfl
    exact .inl ⟨hcounts, ofStored_of_counts hcounts⟩

/-- A mapping is found as it denotes, and kept in mock mode or if it is a real one. -/
theorem ofStored_eq_found_iff : ofStored mode stored = found mapping version ↔
    Mapping.decode stored.value = mapping ∧ stored.version = version ∧
      (mode = .mock ∨ mapping.kind = .real) := by
  constructor
  · intro h
    rcases ofStored_cases mode stored with ⟨hcounts, heq⟩ | ⟨-, heq⟩
    · obtain ⟨rfl, rfl⟩ := found.inj (heq.symm.trans h)
      exact ⟨rfl, rfl, hcounts⟩
    · exact nomatch heq.symm.trans h
  · rintro ⟨rfl, rfl, hcounts⟩
    exact ofStored_of_counts hcounts

end ofStored

def lookup (sessionId : String) (mode : Mode) : Program (Except StoreError Resolution) := do
  match ← Program.call (.get (mappingKey sessionId)) with
  | .error e => return .error e
  | .ok none => return .ok .absent
  | .ok (some stored) =>
    let resolution := ofStored mode stored
    if let .stale mapping _ := resolution then
      Program.call (.note (.mockMappingStale sessionId mapping.meetingId))
    return .ok resolution

end Resolution

end VoiceRoom
