import VoiceRoom.Proofs.Concurrency.Upkeep
import VoiceRoom.Proofs.Concurrency.Visits

/-!
# What holds in every run

Requests of any kind and number run side by side, in any order, while the store may fail at any
call and any request may be abandoned. Whatever happens:

* `dataModel_of_run`: the records fit together, in every state.
* `members_kept`: no member of a session is ever lost.
* `meetings_agree`: a session id that came to a real meeting keeps it, and every answer says so.

The first two rest on a provider that never gives a meeting twice, the last one does not.
-/

namespace VoiceRoom.Concurrency

open Discipline

variable {appId : String} {σ σ₁ σ₂ : System}

/-! ### Runs keep the ledger -/

theorem governs_empty {post : Nat → Job → Outcome → World → Prop} :
    ledger.Governs post {} :=
  ⟨sound_empty, fun _ _ h => (nomatch h), fun _ _ => rfl⟩

/-- Every task of a run keeps the ledger. -/
theorem ledger_of_run (hrun : Run appId {} σ) :
    ledger.Governs (fun _ job => Outcome.Backed {} job) σ :=
  (governs_empty.run hrun trivial fun _ job _ _ _ _ hle _ =>
    Holds.mono (holds_job_ledger appId job) fun _ _ _ _ h => h.start hle).2

/-- As a run goes on, whoever starts in the meantime starts from what was there before. -/
theorem ledger_of_run_run (h₁ : Run appId {} σ₁) (h₂ : Run appId σ₁ σ₂) :
    Grows σ₁.world σ₂.world ∧ ledger.Governs (fun i job outcome w =>
      σ₁.tasks.length ≤ i → Outcome.Backed σ₁.world job outcome w) σ₂ := by
  have hgov := ledger_of_run h₁
  refine Governs.run ⟨hgov.inv, fun i t ht => ?_, hgov.new⟩ h₂ trivial
    fun i job w _ _ _ hle _ => Holds.mono (holds_job_ledger appId job)
      fun outcome v _ _ h _ => h.start hle
  -- No task that was there before starts in the meantime.
  refine Holds.mono (hgov.task i t ht) fun outcome v _ _ _ hi => ?_
  have hlt : i < σ₁.tasks.length := (List.getElem?_eq_some_iff.1 ht).1
  omega

/-- The world only grows in a run. -/
theorem grows_of_run (h₁ : Run appId {} σ₁) (h₂ : Run appId σ₁ σ₂) :
    Grows σ₁.world σ₂.world :=
  (ledger_of_run_run h₁ h₂).1

/-- What a task answers is backed by the world. -/
theorem backed_of_finished (hrun : Run appId {} σ) {i : Nat} {job : Job} {outcome : Outcome}
    (h : σ.Finished i job outcome) : outcome.Backed {} job σ.world :=
  (ledger_of_run hrun).finished trivial h

/-! ### The records fit together -/

/-- A meeting was allocated for a session id. -/
def Allocated (past : List Act) (sessionId meetingId : String) : Prop :=
  meetingId = mockMeetingId sessionId ∨ (sessionId, meetingId) ∈ grants past

/-- A meeting was allocated for a session id if it was given for it, with either kind. -/
theorem allocated_iff {past : List Act} {s meetingId : String} :
    Allocated past s meetingId ↔ ∃ kind, Given past s ⟨meetingId, kind⟩ := by
  constructor
  · rintro (hmock | hreal)
    · exact ⟨.mock, hmock⟩
    · exact ⟨.real, hreal⟩
  · rintro ⟨kind, hgiven⟩
    cases kind with
    | mock => exact .inl hgiven
    | real => exact .inr hgiven

/-- The record of a session in a meeting is as it should be. -/
structure RecordFits (m : Memory) (past : List Act) (meetingId : String) (x : Session) : Prop where
  meeting : x.meetingId = meetingId
  /-- The meeting was allocated for the session's id, and for no other. -/
  owner : ∀ s, Allocated past s meetingId ↔ s = x.sessionId
  kind : x.kind = .mock ↔ meetingId = mockMeetingId x.sessionId
  room : x.users.length ≤ capacity
  distinct : (x.users.map Member.userId).Nodup
  accepted : ∀ u ∈ x.users, JoinRequest.validate ⟨some u.userId, u.iconUrl⟩ = .ok u.userId
  genuine : x.kind = .real → x.degraded = false
  /-- The session's id is mapped to the meeting, or to a real one in place of a mock one. -/
  mapped : ∃ v, m.lookup (mappingKey x.sessionId) = some v ∧
    (Mapping.decode v.value = ⟨meetingId, x.kind⟩ ∨
      x.kind = .mock ∧ (Mapping.decode v.value).kind = .real)

/-- The records of mappings and of sessions fit together. -/
structure DataModel (m : Memory) (past : List Act) : Prop where
  mapping : ∀ s v, m.lookup (mappingKey s) = some v →
    Mapping.decode v.value = ⟨mockMeetingId s, .mock⟩ ∨
      ∃ meetingId, Mapping.decode v.value = ⟨meetingId, .real⟩ ∧ (s, meetingId) ∈ grants past
  session : ∀ meetingId v, m.lookup (sessionKey meetingId) = some v →
    ∃ x, Session.decode v.value = .ok x ∧ RecordFits m past meetingId x

/-- A session that is housed fits the data model. -/
theorem Housed.recordFits {w : World} {meetingId : String} {x : Session}
    (h : Housed w meetingId x) (hfresh : FreshGrants w.past) :
    RecordFits w.store w.past meetingId x := by
  obtain rfl := h.meeting
  refine ⟨rfl, fun s => ?_, ?_, h.proper.room, h.proper.distinct, h.proper.admitted,
    h.proper.genuine, ?_⟩
  · rw [allocated_iff]
    constructor
    · rintro ⟨kind, hgiven⟩
      exact (Given.unique hfresh hgiven h.given).1
    · rintro rfl
      exact ⟨x.kind, h.given⟩
  -- A mock meeting is made up from the id, and no real one looks like it.
  · constructor
    · intro hmock
      have hgiven := h.given
      unfold Session.mapping at hgiven
      rw [hmock] at hgiven
      exact hgiven
    · intro hid
      exact (Given.unique hfresh h.given (given_mock_iff.2 hid)).2
  · rcases h.leads with hat | ⟨hmock, realId, hreal⟩
    · obtain ⟨v, hv, hdecode⟩ := Memory.lookup_of_mappingAt hat
      exact ⟨v, hv, .inl hdecode⟩
    · obtain ⟨v, hv, hdecode⟩ := Memory.lookup_of_mappingAt hreal
      exact ⟨v, hv, .inr ⟨hmock, by rw [hdecode]⟩⟩

/-- In every state of every run, the records fit together. -/
theorem dataModel_of_run (hrun : Run appId {} σ) (hfresh : FreshGrants σ.past) :
    DataModel σ.store σ.past := by
  have hsound : Sound σ.world := (ledger_of_run hrun).inv
  constructor
  · intro s v hv
    have hgiven := hsound.mapped s _ (Memory.mappingAt_of_lookup hv)
    generalize Mapping.decode v.value = mapping at hgiven ⊢
    obtain ⟨meetingId, kind⟩ := mapping
    -- a mock mapping names the meeting of its session id, a real one leads to what was granted
    cases kind with
    | mock =>
      obtain rfl : meetingId = mockMeetingId s := hgiven
      exact .inl rfl
    | real => exact .inr ⟨meetingId, rfl, hgiven⟩
  · intro meetingId v hv
    obtain ⟨x, hx, hhoused⟩ := hsound.housed hfresh meetingId v hv
    exact ⟨x, hx, hhoused.recordFits hfresh⟩

/-- Four joins in two races leave records of the data model. -/
theorem dataModel_afterRaces :
    FreshGrants afterRaces.past ∧ DataModel afterRaces.store afterRaces.past :=
  ⟨freshGrants_afterRaces, dataModel_of_run run_both_races freshGrants_afterRaces⟩

/-! ### No member is lost -/

/-- Between two states, sessions go on: rosters grow at their ends, and nothing else changes. -/
structure MembersKept (σ₁ σ₂ : System) : Prop where
  sessions : ∀ meetingId v, σ₁.store.lookup (sessionKey meetingId) = some v →
    ∃ v' x x', σ₂.store.lookup (sessionKey meetingId) = some v' ∧
      Session.decode v.value = .ok x ∧ Session.decode v'.value = .ok x' ∧ x.Continues x'
  /-- Who was told to have joined is in the session of the meeting that was named. -/
  members : ∀ i mode s r reply, σ₁.Finished i (.join mode s r) (.joined (.ok reply)) →
    ∃ userId v' x', r.validate = .ok userId ∧
      σ₂.store.lookup (sessionKey reply.session.meetingId) = some v' ∧
      Session.decode v'.value = .ok x' ∧ x'.hasMember userId = true

/-- In every run, no member of a session is ever lost. -/
theorem members_kept (h₁ : Run appId {} σ₁) (h₂ : Run appId σ₁ σ₂)
    (hfresh : FreshGrants σ₂.past) : MembersKept σ₁ σ₂ := by
  have hgrows := grows_of_run h₁ h₂
  have hbefore : FreshGrants σ₁.past := hfresh.of_suffix hgrows.past
  constructor
  · intro meetingId v hv
    obtain ⟨x, hx, -⟩ := Sound.housed (ledger_of_run h₁).inv hbefore meetingId v hv
    obtain ⟨x', hx', hcontinues⟩ :=
      hgrows.sessions hfresh meetingId x (Memory.sessionAt_of_lookup hv hx)
    obtain ⟨v', hv', hdecode⟩ := Memory.lookup_of_sessionAt hx'
    exact ⟨v', x, x', hv', hx, hdecode, hcontinues⟩
  · intro i mode s r reply hfinished
    obtain ⟨userId, hvalid, hseated⟩ := backed_of_finished h₁ hfinished
    have hlater := Seated.grows hseated hgrows
    -- The session that was answered continues as the one that is stored.
    obtain ⟨x', hx', hcontinues⟩ := hlater.stored hfresh
    obtain ⟨v', hv', hdecode⟩ := Memory.lookup_of_sessionAt hx'
    exact ⟨userId, v', x', hvalid, hv', hdecode, hcontinues.hasMember (hlater.ours hfresh).2⟩

/-- Nor are those who came in while others were overtaken. -/
theorem members_kept_afterRaces :
    FreshGrants afterRaces.past ∧ MembersKept afterRace afterRaces :=
  ⟨freshGrants_afterRaces, members_kept run_afterRace run_afterRaces freshGrants_afterRaces⟩

/-! ### Answers agree on the meeting -/

/-- A task has answered that a session id has a session. -/
inductive Answered (σ : System) (i : Nat) (s : String) (x : Session) : Prop where
  | joined (mode : Mode) (r : JoinRequest) (realtime : Option Credentials)
      (h : σ.Finished i (.join mode s r) (.joined (.ok ⟨x, realtime⟩)))
  | created (mode : Mode) (h : σ.Finished i (.create mode) (.created (.ok x)))
      (hid : x.sessionId = s)

/-- Between two states, mappings only move on, and answers agree on where to. -/
structure MeetingsAgree (σ₁ σ₂ : System) : Prop where
  moved : ∀ s, σ₂.store.mappingAt s = σ₁.store.mappingAt s ∨
    Moves s (σ₁.store.mappingAt s) (σ₂.store.mappingAt s)
  fixed : ∀ s meetingId, σ₁.store.mappingAt s = some ⟨meetingId, .real⟩ →
    σ₂.store.mappingAt s = some ⟨meetingId, .real⟩
  /-- Answers that name a real meeting name the same. -/
  agree : ∀ i j s x y, Answered σ₂ i s x → Answered σ₂ j s y → x.kind = .real →
    y.kind = .real → x.meetingId = y.meetingId
  /-- After an answer that names a real meeting, who starts is never told another one. -/
  later : ∀ i j s x y, Answered σ₁ i s x → x.kind = .real → σ₁.tasks.length ≤ j →
    Answered σ₂ j s y → y.meetingId = x.meetingId

/-- The session of an answer has the mapping of its session id. -/
theorem chosen_of_answered {w₀ : World} {i : Nat} {s : String} {x : Session}
    (h : Answered σ i s x)
    (hbacked : ∀ job outcome, σ.Finished i job outcome → outcome.Backed w₀ job σ.world) :
    Chosen w₀ σ.world s x.mapping := by
  cases h with
  | joined mode r realtime h =>
    obtain ⟨userId, -, hseated⟩ := hbacked _ _ h
    exact hseated.chosen
  | created mode h hid =>
    subst hid
    exact hbacked _ _ h

/-- An answer that names a real meeting names the one that is in force. -/
theorem mappingAt_of_answered (hrun : Run appId {} σ) {i : Nat} {s : String} {x : Session}
    (h : Answered σ i s x) (hreal : x.kind = .real) :
    σ.store.mappingAt s = some ⟨x.meetingId, .real⟩ := by
  have hchosen := chosen_of_answered h fun job outcome => backed_of_finished hrun
  have hleads := hchosen.leads
  unfold Session.mapping at hleads
  rw [hreal] at hleads
  exact hleads.real

/-- In every run, mappings only move on, and answers agree on where to. -/
theorem meetings_agree (h₁ : Run appId {} σ₁) (h₂ : Run appId σ₁ σ₂) : MeetingsAgree σ₁ σ₂ := by
  have hrun : Run appId {} σ₂ := h₁.trans h₂
  obtain ⟨hgrows, hgov⟩ := ledger_of_run_run h₁ h₂
  -- A real mapping is never moved, so that whatever was answered is still mapped.
  refine ⟨hgrows.mapping, fun s meetingId hat => ?_, fun i j s x y hx hy hxreal hyreal => ?_,
    fun i j s x y hx hxreal hj hy => ?_⟩
  · have hmoved := hgrows.mapping s
    rw [hat] at hmoved
    exact hmoved.eq_of_real
  · have hxat := mappingAt_of_answered hrun hx hxreal
    have hyat := mappingAt_of_answered hrun hy hyreal
    exact congrArg Mapping.meetingId (Option.some.inj (hxat.symm.trans hyat))
  · have hxat := mappingAt_of_answered h₁ hx hxreal
    have hchosen := chosen_of_answered hy fun job outcome hfinished =>
      hgov.finished trivial hfinished hj
    exact congrArg Mapping.meetingId (hchosen.eq_of_real hxat)

/-- So the user whose own meeting was orphaned and the last one to come in are told the same. -/
theorem meetings_agree_afterRaces :
    Answered afterRace 1 "s" sessionOfTwo ∧ Answered afterRaces 3 "s" sessionOfFour ∧
      MeetingsAgree afterRace afterRaces :=
  ⟨.joined .real ⟨some "v", none⟩ _ finished_afterRace.2,
    .joined .real ⟨some "x", none⟩ _ finished_afterRaces.2,
    meetings_agree run_afterRace run_afterRaces⟩

end VoiceRoom.Concurrency
