import VoiceRoom.Proofs.Records
import VoiceRoom.Proofs.Store
import VoiceRoom.Proofs.Twins.Runs

/-!
# Upgrading records is not seen

Records of older forms can be written anew, in the form in which they are written today, without
changing their versions. To read a record that was written anew is to read what it said before
(`Upgrades.mapping`, `Upgrades.session`), so nobody can tell whether it was: whatever requests come,
and however they run side by side, they make the same calls, their writes come to the same, and they
are answered the same (`upgrade_unobserved`).
-/

namespace VoiceRoom.Twins

open Concurrency

/-- A value at a key is as it was, or it is a record that was read and written anew. -/
inductive Upgrades : String → String → String → Prop where
  | same (key v : String) : Upgrades key v v
  | mapping (s v : String) : Upgrades (mappingKey s) v (Mapping.decode v).encode
  | session (k : String) {v : String} {x : Session} (h : Session.decode v = .ok x) :
      Upgrades (sessionKey k) v x.encode

/-- An upgraded mapping denotes the same. -/
theorem Upgrades.decode_mapping {s v v' : String} (h : Upgrades (mappingKey s) v v') :
    Mapping.decode v = Mapping.decode v' := by
  generalize hkey : mappingKey s = key at h
  cases h with
  | same => rfl
  | mapping s' v => rw [Mapping.decode_encode]
  | session k h => exact absurd hkey (mappingKey_ne_sessionKey s k)

/-- An upgraded session denotes the same. -/
theorem Upgrades.decode_session {k v v' : String} (h : Upgrades (sessionKey k) v v') :
    Session.decode v = Session.decode v' := by
  generalize hkey : sessionKey k = key at h
  cases h with
  | same => rfl
  | mapping s v => exact absurd hkey.symm (mappingKey_ne_sessionKey s k)
  | session k' h =>
    -- What was read as a time fits into a word, and so it is written as it was.
    rw [h, Session.decode_encode (Session.timed_of_decode h)]

/-- Values may have been upgraded, and failures are the same. -/
def upgrading : Likeness where
  value := Upgrades
  storeError := Eq
  providerError := Eq
  mapping := Upgrades.decode_mapping
  session := Upgrades.decode_session

/-- Upgrading changes no answer but those of records. -/
theorem exact_upgrading : upgrading.Exact :=
  ⟨Upgrades.same, Iff.rfl, Iff.rfl⟩

/-- Two systems show the same: the same jobs with the same outcomes, waiting for the same calls, and
the same past but for values that were read before or after an upgrade. Their stores differ in such
values only. -/
structure Indistinct (σ τ : System) : Prop where
  seen : σ.tasks.map seen = τ.tasks.map seen
  past : List.Forall₂ upgrading.Acts σ.past τ.past
  store : upgrading.Stores σ.store τ.store

/-- It is not seen which of two stores requests run on: on either they can be told what they can be
told on the other, and then they show the same. -/
structure Unobserved (appId : String) (m m' : Memory) : Prop where
  forth : ∀ σ, Run appId ⟨⟨m, []⟩, []⟩ σ →
    ∃ τ, Run appId ⟨⟨m', []⟩, []⟩ τ ∧ inputs σ.past = inputs τ.past
  back : ∀ τ, Run appId ⟨⟨m', []⟩, []⟩ τ →
    ∃ σ, Run appId ⟨⟨m, []⟩, []⟩ σ ∧ inputs σ.past = inputs τ.past
  same : ∀ σ τ, Run appId ⟨⟨m, []⟩, []⟩ σ → Run appId ⟨⟨m', []⟩, []⟩ τ →
    inputs σ.past = inputs τ.past → Indistinct σ τ

/-- To upgrade values of a store changes nothing that anybody sees. -/
theorem upgrade_unobserved (appId : String) {m m' : Memory} (h : upgrading.Stores m m') :
    Unobserved appId m m' where
  forth σ hσ := by
    obtain ⟨τ, hτ, hpair⟩ := h.pair.run_follows exact_upgrading hσ
    exact ⟨τ, hτ, hpair.inputs⟩
  back τ hτ := by
    obtain ⟨σ, hσ, hpair⟩ := h.flip.pair.run_follows exact_upgrading.flip hτ
    exact ⟨σ, hσ, hpair.inputs.symm⟩
  same σ τ hσ hτ hinputs := by
    have hpair := Likeness.pair_of_runs exact_upgrading h hσ hτ hinputs
    exact ⟨hpair.seen exact_upgrading, hpair.past, hpair.store⟩

/-- A session without a kind, a roster or a flag. -/
def outdatedSession : String :=
  "\x7b\"sessionId\":\"s\",\"meetingId\":\"room-1\",\"createdAt\":7\x7d"

/-- The same session as it is written today. -/
def renewedSession : Session :=
  ⟨"s", "room-1", .real, false, [], 7⟩

/-- A store with a mapping that is a bare meeting id. -/
def outdated : Memory :=
  (({} : Memory).insert (mappingKey "s") ⟨"room-1", 1⟩).insert (sessionKey "room-1")
    ⟨outdatedSession, 0⟩

/-- The same store with its records written anew. -/
def renewed : Memory :=
  (({} : Memory).insert (mappingKey "s") ⟨Mapping.encode ⟨"room-1", .real⟩, 1⟩).insert
    (sessionKey "room-1") ⟨renewedSession.encode, 0⟩

/-- The renewed store is the outdated one, upgraded. -/
theorem stores_renewed : upgrading.Stores outdated renewed := by
  have hempty : upgrading.Stores {} {} := exact_upgrading.stores {}
  have hmapping : upgrading.Versions (mappingKey "s") ⟨"room-1", 1⟩
      ⟨Mapping.encode ⟨"room-1", .real⟩, 1⟩ := ⟨rfl, .mapping "s" "room-1"⟩
  have hdecode : Session.decode outdatedSession = .ok renewedSession := rfl
  have hsession : upgrading.Versions (sessionKey "room-1") ⟨outdatedSession, 0⟩
      ⟨renewedSession.encode, 0⟩ := ⟨rfl, .session "room-1" hdecode⟩
  exact (hempty.insert hmapping).insert hsession

/-- The outdated store holds a bare mapping and a session without a kind. -/
theorem upgrade_unobserved_renewed :
    outdated ≠ renewed ∧ upgrading.Stores outdated renewed ∧ Unobserved "app" outdated renewed :=
  ⟨by decide +kernel, stores_renewed, upgrade_unobserved "app" stores_renewed⟩

end VoiceRoom.Twins
