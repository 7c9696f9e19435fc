import Mathlib.Data.List.Nodup
import VoiceRoom.Proofs.Concurrency.Logic
import VoiceRoom.Proofs.Roster
import VoiceRoom.Proofs.Store
import VoiceRoom.Workflow.Allocate

/-!
# What the store says at any time

The mapping of a session id and the session it leads to have keys of their own and are never
written together. What ties them is whom a meeting was given to (`Given`): a mapping leads to a
meeting that was given for its session id, and the session in a meeting is that of the one id the
meeting was given for. This is what holds at any time (`Sound`). As time goes by, mappings move on
and rosters grow (`Grows`).

What is said of sessions rests on the provider never giving a meeting twice (`FreshGrants`); what is
said of mappings does not.
-/

namespace VoiceRoom.Concurrency

/-! ### Whom a meeting was given to -/

/-- A meeting was given for a session id: it is made up from the id, or the provider gave it when
it was asked for one. -/
def Given (past : List Act) (sessionId : String) (mapping : Mapping) : Prop :=
  match mapping.kind with
  | .mock => mapping.meetingId = mockMeetingId sessionId
  | .real => (sessionId, mapping.meetingId) ∈ grants past

/-- The mock meeting of an id is made up from it. -/
theorem given_mock_iff {past : List Act} {s meetingId : String} :
    Given past s ⟨meetingId, .mock⟩ ↔ meetingId = mockMeetingId s :=
  Iff.rfl

theorem Given.of_suffix {past past' : List Act} {s : String} {mapping : Mapping}
    (h : Given past s mapping) (hsuffix : past <:+ past') : Given past' s mapping := by
  obtain ⟨meetingId, kind⟩ := mapping
  cases kind with
  | mock => exact h
  | real => exact (grants_suffix hsuffix).subset h

/-- A meeting is given for one session id only, and is of one kind only. -/
theorem Given.unique {past : List Act} (hfresh : FreshGrants past) {s s' meetingId : String}
    {kind kind' : MeetingKind} (h : Given past s ⟨meetingId, kind⟩)
    (h' : Given past s' ⟨meetingId, kind'⟩) : s = s' ∧ kind = kind' := by
  -- What the provider gives is not made up from an id.
  have hunlike : ∀ t t', (t, meetingId) ∈ grants past → meetingId ≠ mockMeetingId t' := by
    rintro t t' hgrant rfl
    exact hfresh.unlike _ hgrant (mark_prefix_mockMeetingId t')
  cases kind with
  | mock =>
    cases kind' with
    | mock => exact ⟨mockMeetingId_inj.1 (h.symm.trans h'), rfl⟩
    | real => exact absurd h (hunlike s' s h')
  | real =>
    cases kind' with
    | mock => exact absurd h' (hunlike s s' h)
    | real =>
      have hpair := List.inj_on_of_nodup_map hfresh.nodup h h' rfl
      exact ⟨congrArg Prod.fst hpair, rfl⟩

/-! ### How mappings move -/

/-- The mapping of a session id is made, or a real meeting takes the place of a mock one. -/
inductive Moves (s : String) : Option Mapping → Option Mapping → Prop where
  | mock : Moves s none (some ⟨mockMeetingId s, .mock⟩)
  | real (meetingId : String) : Moves s none (some ⟨meetingId, .real⟩)
  | promote (meetingId : String) :
      Moves s (some ⟨mockMeetingId s, .mock⟩) (some ⟨meetingId, .real⟩)

/-- The mapping of a session id stays or moves. -/
def Moved (s : String) (before after : Option Mapping) : Prop :=
  after = before ∨ Moves s before after

theorem Moved.trans {s : String} {a b c : Option Mapping} (h : Moved s a b) (h' : Moved s b c) :
    Moved s a c := by
  rcases h with rfl | hab
  · exact h'
  · rcases h' with rfl | hbc
    · exact .inr hab
    -- Two moves in a row are possible by way of a mock meeting only.
    · cases hab with
      | mock => cases hbc with | promote meetingId => exact .inr (.real meetingId)
      | real _ => nomatch hbc
      | promote _ => nomatch hbc

/-- A mapping to a real meeting never moves. -/
theorem Moved.eq_of_real {s meetingId : String} {b : Option Mapping}
    (h : Moved s (some ⟨meetingId, .real⟩) b) : b = some ⟨meetingId, .real⟩ := by
  rcases h with rfl | hmoves
  · rfl
  · nomatch hmoves

/-- A session id leads to a meeting, or did until a real meeting took the place of a mock one. -/
def Leads (m : Memory) (s : String) (mapping : Mapping) : Prop :=
  m.mappingAt s = some mapping ∨
    mapping.kind = .mock ∧ ∃ meetingId, m.mappingAt s = some ⟨meetingId, .real⟩

/-- An id goes on leading to a meeting, or to a real one in place of a mock one. -/
theorem Leads.moved {m m' : Memory} {s : String} {mapping : Mapping} (h : Leads m s mapping)
    (hmoved : Moved s (m.mappingAt s) (m'.mappingAt s)) : Leads m' s mapping := by
  rcases h with hat | ⟨hmock, meetingId, hreal⟩
  · rw [hat] at hmoved
    rcases hmoved with hstay | hmoves
    · exact .inl hstay
    · generalize hafter : m'.mappingAt s = after at hmoves
      cases hmoves with
      | promote meetingId => exact .inr ⟨rfl, meetingId, hafter⟩
  · rw [hreal] at hmoved
    exact .inr ⟨hmock, meetingId, hmoved.eq_of_real⟩

/-- A real meeting to which a session id ever led is where it leads. -/
theorem Leads.real {m : Memory} {s meetingId : String} (h : Leads m s ⟨meetingId, .real⟩) :
    m.mappingAt s = some ⟨meetingId, .real⟩ := by
  rcases h with hat | ⟨hmock, _⟩
  · exact hat
  · exact nomatch hmock

/-! ### What holds at any time -/

/-- A session is in the meeting where it belongs, and its session id leads there. -/
structure Housed (w : World) (meetingId : String) (x : Session) : Prop where
  meeting : x.meetingId = meetingId
  given : Given w.past x.sessionId x.mapping
  proper : x.Proper
  leads : Leads w.store x.sessionId x.mapping

/-- What the store says of session ids and of meetings. -/
structure Sound (w : World) : Prop where
  mapped : ∀ s mapping, w.store.mappingAt s = some mapping → Given w.past s mapping
  housed : FreshGrants w.past → ∀ meetingId v, w.store.lookup (sessionKey meetingId) = some v →
    ∃ x, Session.decode v.value = .ok x ∧ Housed w meetingId x

/-- A session that is read is where it belongs. -/
theorem Sound.housed_of_decode {w : World} {meetingId : String} {v : Versioned} {x : Session}
    (h : Sound w) (hfresh : FreshGrants w.past)
    (hlookup : w.store.lookup (sessionKey meetingId) = some v)
    (hdecode : Session.decode v.value = .ok x) : Housed w meetingId x := by
  obtain ⟨y, hy, hhoused⟩ := h.housed hfresh meetingId v hlookup
  obtain rfl : x = y := Except.ok.inj (hdecode.symm.trans hy)
  exact hhoused

/-- A world later on. -/
structure Grows (w w' : World) : Prop where
  past : w.past <:+ w'.past
  store : w.store.Advances w'.store
  mapping : ∀ s, Moved s (w.store.mappingAt s) (w'.store.mappingAt s)
  sessions : FreshGrants w'.past → ∀ meetingId x, w.store.sessionAt meetingId = some x →
    ∃ x', w'.store.sessionAt meetingId = some x' ∧ x.Continues x'

/-- An empty store is sound. -/
theorem sound_empty : Sound {} where
  mapped _ _ h := nomatch h
  housed _ _ _ h := nomatch h

/-- Every world has grown from itself. -/
theorem grows_refl (w : World) : Grows w w where
  past := List.suffix_refl _
  store := Memory.advances_refl _
  mapping _ := .inl rfl
  sessions _ _ x hx := ⟨x, hx, Session.continues_refl x⟩

theorem Grows.trans {u v w : World} (h : Grows u v) (h' : Grows v w) : Grows u w where
  past := h.past.trans h'.past
  store := h.store.trans h'.store
  mapping s := (h.mapping s).trans (h'.mapping s)
  sessions hfresh meetingId x hx := by
    obtain ⟨y, hy, hxy⟩ := h.sessions (hfresh.of_suffix h'.past) meetingId x hx
    obtain ⟨z, hz, hyz⟩ := h'.sessions hfresh meetingId y hy
    exact ⟨z, hz, hxy.trans hyz⟩

theorem Housed.grows {w w' : World} {meetingId : String} {x : Session} (h : Housed w meetingId x)
    (hpast : w.past <:+ w'.past)
    (hmoved : ∀ s, Moved s (w.store.mappingAt s) (w'.store.mappingAt s)) :
    Housed w' meetingId x where
  meeting := h.meeting
  given := h.given.of_suffix hpast
  proper := h.proper
  leads := h.leads.moved (hmoved x.sessionId)

/-- What a sound world still says is sound, so only what is new has to be looked at. -/
theorem sound_of_new {w w' : World} (hw : Sound w) (hpast : w.past <:+ w'.past)
    (hstore : w.store.Advances w'.store)
    (hmoved : ∀ s, Moved s (w.store.mappingAt s) (w'.store.mappingAt s))
    (hmapped : ∀ s mapping, w'.store.mappingAt s = some mapping →
      w.store.mappingAt s = some mapping ∨ Given w.past s mapping)
    (hhoused : FreshGrants w.past → ∀ k v, w'.store.lookup (sessionKey k) = some v →
      w.store.lookup (sessionKey k) = some v ∨
        ∃ x, Session.decode v.value = .ok x ∧ Housed w k x)
    (hkept : FreshGrants w.past → ∀ k x, w.store.sessionAt k = some x →
      ∃ x', w'.store.sessionAt k = some x' ∧ x.Continues x') : Sound w' ∧ Grows w w' := by
  refine ⟨⟨fun s mapping hat => ?_, fun hfresh k v hv => ?_⟩, hpast, hstore, hmoved,
    fun hfresh => hkept (hfresh.of_suffix hpast)⟩
  -- Every mapping is an old one, or was given.
  · rcases hmapped s mapping hat with hold | hnew
    · exact (hw.mapped s mapping hold).of_suffix hpast
    · exact hnew.of_suffix hpast
  · have hbefore := hfresh.of_suffix hpast
    have hin : ∃ x, Session.decode v.value = .ok x ∧ Housed w k x := by
      rcases hhoused hbefore k v hv with hold | hnew
      · exact hw.housed hbefore k v hold
      · exact hnew
    -- Every record is an old one, or belongs where it was put.
    obtain ⟨x, hx, hhouse⟩ := hin
    exact ⟨x, hx, hhouse.grows hpast hmoved⟩

/-- As long as nothing is written, all stays as it is. -/
theorem sound_of_lookup_eq {w w' : World} (hw : Sound w) (hpast : w.past <:+ w'.past)
    (hlookup : ∀ key, w'.store.lookup key = w.store.lookup key) : Sound w' ∧ Grows w w' := by
  have hmapping : ∀ s, w'.store.mappingAt s = w.store.mappingAt s := fun s => by
    unfold Memory.mappingAt
    rw [hlookup]
  have hsession : ∀ k, w'.store.sessionAt k = w.store.sessionAt k := fun k => by
    unfold Memory.sessionAt
    rw [hlookup]
  refine sound_of_new hw hpast (Memory.advances_of_lookup_eq hlookup)
    (fun s => .inl (hmapping s)) (fun s mapping hat => ?_) (fun _ k v hv => ?_) fun _ k x hx => ?_
  · exact .inl ((hmapping s).symm.trans hat)
  · exact .inl ((hlookup _).symm.trans hv)
  · exact ⟨x, (hsession k).trans hx, Session.continues_refl x⟩

/-- What the store says at any time. -/
def ledger : Discipline where
  assumes _ := True
  inv := Sound
  le := Grows
  refl := grows_refl
  trans := Grows.trans
  assumes_tail := id
  quiet hact hallows _ hw :=
    sound_of_lookup_eq hw (List.suffix_cons _ _) (lookup_next_of_not_writes hact hallows)

/-! ### Writes -/

/-- A write is added to the past. -/
theorem past_suffix_written (w : World) (i : Nat) (key value : String) (expected : Option Nat) :
    w.past <:+ (w.written i key value expected).past :=
  List.suffix_cons _ _

/-- A mapping may be written that moves the session id to a meeting that was given for it. -/
theorem sound_written_mapping {w : World} (hw : Sound w) {s : String} {mapping : Mapping}
    (hgiven : Given w.past s mapping) (hmoves : Moves s (w.store.mappingAt s) (some mapping))
    (i : Nat) (expected : Option Nat) :
    Sound (w.written i (mappingKey s) mapping.encode expected) ∧
      Grows w (w.written i (mappingKey s) mapping.encode expected) := by
  have hpast := past_suffix_written w i (mappingKey s) mapping.encode expected
  generalize hw' : w.written i (mappingKey s) mapping.encode expected = w' at hpast ⊢
  have hmapping : ∀ s', w'.store.mappingAt s' =
      if s' = s then some mapping else w.store.mappingAt s' := fun s' => by
    subst hw'
    exact Memory.mappingAt_insert_encode ..
  have hmoved : ∀ s', Moved s' (w.store.mappingAt s') (w'.store.mappingAt s') := fun s' => by
    rw [hmapping]
    split
    · rename_i h
      subst h
      exact .inr hmoves
    · exact .inl rfl
  have hlookup : ∀ k, w'.store.lookup (sessionKey k) = w.store.lookup (sessionKey k) := fun k => by
    subst hw'
    exact Memory.lookup_insert_mapping ..
  refine sound_of_new hw hpast ?_ hmoved (fun s' mapping' hat => ?_) (fun _ k v hv => ?_)
    fun _ k x hx => ?_
  · subst hw'
    exact Memory.advances_insert w.store _ _
  · rw [hmapping] at hat
    split at hat
    · rename_i hs
      subst hs
      obtain rfl := Option.some.inj hat
      exact .inr hgiven
    · exact .inl hat
  -- Sessions have other keys, so none is written.
  · exact .inl ((hlookup k).symm.trans hv)
  · refine ⟨x, ?_, Session.continues_refl x⟩
    rw [Memory.sessionAt, hlookup]
    exact hx

/-- A session may be written where it belongs, if it continues the one that is there. -/
theorem sound_written_session {w : World} (hw : Sound w) {x : Session}
    (hhoused : FreshGrants w.past → Housed w x.meetingId x)
    (hcontinues : FreshGrants w.past → ∀ y, w.store.sessionAt x.meetingId = some y →
      y.Continues x)
    (i : Nat) (expected : Option Nat) :
    Sound (w.written i (sessionKey x.meetingId) x.encode expected) ∧
      Grows w (w.written i (sessionKey x.meetingId) x.encode expected) := by
  have hpast := past_suffix_written w i (sessionKey x.meetingId) x.encode expected
  generalize hw' : w.written i (sessionKey x.meetingId) x.encode expected = w' at hpast ⊢
  -- No mapping changes, as sessions have keys of their own.
  have hmapping : ∀ s, w'.store.mappingAt s = w.store.mappingAt s := fun s => by
    subst hw'
    exact Memory.mappingAt_insert_session ..
  refine sound_of_new hw hpast ?_ (fun s => .inl (hmapping s)) (fun s mapping hat => ?_)
    (fun hfresh k v hv => ?_) fun hfresh k y hy => ?_
  · subst hw'
    exact Memory.advances_insert w.store _ _
  · exact .inl ((hmapping s).symm.trans hat)
  · subst hw'
    replace hv : (w.store.insert _ _).lookup _ = _ := hv
    rw [Memory.lookup_insert_session] at hv
    split at hv
    · rename_i hk
      subst hk
      obtain rfl := Option.some.inj hv
      have hx := hhoused hfresh
      exact .inr ⟨x, Session.decode_encode hx.proper.timed, hx⟩
    · exact .inl hv
  -- In its meeting the new session continues the one before, and elsewhere everything is as it was.
  · have hat : w'.store.sessionAt k =
        if k = x.meetingId then some x else w.store.sessionAt k := by
      subst hw'
      exact Memory.sessionAt_insert_encode _ _ _ (hhoused hfresh).proper.timed _
    rw [hat]
    split
    · rename_i hk
      subst hk
      exact ⟨x, rfl, hcontinues hfresh y hy⟩
    · exact ⟨y, hy, Session.continues_refl y⟩

end VoiceRoom.Concurrency
