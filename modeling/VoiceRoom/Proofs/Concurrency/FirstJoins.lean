import Mathlib.Data.List.Perm.Subperm
import VoiceRoom.Proofs.Concurrency.Headway
import VoiceRoom.Proofs.Concurrency.Newcomers
import VoiceRoom.Proofs.Concurrency.Visits
import VoiceRoom.Proofs.Conduct.Overtaking

/-!
# First joins gather

A session id is joined for the first time, by no more users at once than a session has places. Then
all of them are taken in, but for one who may be told that the session is busy if all places are
claimed; and where the session id leads in the end, the members are those who were taken in there
(`first_joins_gather`). Who is told so was overtaken in every attempt. Not more is true: somebody
can be overtaken in every attempt although there is room, and a provider that fails for a while
splits the users between two meetings (`first_joins_apart`).

Who gives up was overtaken by the first mapping once at most, and otherwise by sessions that others
wrote (`headway_le_entrants`). As nobody writes two sessions, all others wrote one, and came in.
-/

namespace VoiceRoom.Concurrency

open Conduct (Obtained Known)
open Discipline
open Simulation (Entry)

variable {appId : String} {σ σ₁ σ₂ : System} {mode : Mode} {s : String} {user : Nat → String}
variable {J : List Nat} {i : Nat}

/-! ### The situation -/

/-- Tasks join a session id side by side that no other request is about: users who are told apart,
with valid requests, all in one mode, and no more than a session has places. All the while the store
answers. -/
structure FirstJoins (σ₁ σ₂ : System) (mode : Mode) (s : String) (user : Nat → String)
    (J : List Nat) : Prop where
  started : ∀ i ∈ J, σ₁.tasks.length ≤ i
  joins : ∀ i ∈ J, ∃ r rest, σ₂.tasks[i]? = some ⟨.join mode s r, rest⟩ ∧ r.validate = .ok (user i)
  distinct : (J.map user).Nodup
  few : J.length ≤ capacity
  only : ∀ i, Concerns σ₂ s i → i ∈ J
  available : σ₁.store.available = true
  steady : ¬ Since σ₁.past σ₂.past (.switch false)

/-- Tasks have come to their ends. -/
def Done (σ : System) (J : List Nat) : Prop :=
  ∀ i ∈ J, ∃ job outcome, σ.Finished i job outcome

/-- A join was answered that the session is busy. -/
def Busy (σ : System) (i : Nat) : Prop :=
  ∃ mode s r, σ.Finished i (.join mode s r)
    (.joined (.error (.conflict "Session is busy, please retry")))

/-- A join was answered with the session in the meeting where the session id leads. -/
def TookInto (σ : System) (s : String) (i : Nat) : Prop :=
  ∃ mode r reply, σ.Finished i (.join mode s r) (.joined (.ok reply)) ∧
    σ.store.mappingAt s = some reply.session.mapping

/-- The members where a session id leads. -/
def memberIds (m : Memory) (s : String) : List String :=
  ((roomAt m s).elim [] Session.users).map Member.userId

/-- All are taken in, and where the session id leads, the members are just they. -/
structure EveryoneIn (σ : System) (s : String) (user : Nat → String) (J : List Nat) : Prop where
  answered : ∀ i ∈ J, TookIn σ i
  record : (memberIds σ.store s).Perm (J.map user)

/-- In real mode, the provider refused a meeting to one of some joins, and gave one to another. -/
structure Divided (σ : System) (mode : Mode) (s : String) (J : List Nat) : Prop where
  mode : mode = .real
  refused : ∃ i ∈ J, ∃ e, ⟨.createMeeting s, .error e⟩ ∈ own i σ.past
  given : ∃ i ∈ J, ∃ meetingId, ⟨.createMeeting s, .ok meetingId⟩ ∈ own i σ.past

/-- What first joins come to. -/
structure Gathered (σ : System) (mode : Mode) (s : String) (user : Nat → String) (J : List Nat) :
    Prop where
  answered : ∀ i ∈ J, TookIn σ i ∨ Busy σ i
  /-- One may find the session busy if there are as many as places, and then all others are in. -/
  busy : ∀ i ∈ J, Busy σ i → J.length = capacity ∧ ∀ i' ∈ J, i' ≠ i → TookIn σ i'
  /-- Who finds the session busy was overtaken in each of its attempts. -/
  overtaken : ∀ i ∈ J, Busy σ i → ∃ r, r.validate = .ok (user i) ∧
    Conflicted i (.join mode s r) s (σ.past.map .service)
  /-- Where the session id leads, the members are those who were taken in there. -/
  record : ∃ order : List Nat, memberIds σ.store s = order.map user ∧ order.Nodup ∧
    ∀ i, i ∈ order ↔ i ∈ J ∧ TookInto σ s i
  together : ∀ i ∈ J, TookIn σ i → TookInto σ s i ∨ Divided σ mode s J
  everyone : (∀ i ∈ J, ¬ Busy σ i) → ¬ Divided σ mode s J → EveryoneIn σ s user J

/-- First joins can come to their ends from wherever they are, whatever is answered, and when they
have, they have gathered. -/
structure Gathers (σ₁ σ₂ : System) (mode : Mode) (s : String) (user : Nat → String)
    (J : List Nat) : Prop where
  ends : ∀ o : Oracle, ∃ schedule, FirstJoins σ₁ (o.play σ₂ schedule) mode s user J ∧
    Done (o.play σ₂ schedule) J
  gathered : Done σ₂ J → Gathered σ₂ mode s user J

namespace FirstJoins

/-! ### How each of them ends -/

/-- The tasks of the first joins are joins of the session. -/
theorem job_eq (h : FirstJoins σ₁ σ₂ mode s user J) (hi : i ∈ J) {job : Job} {outcome : Outcome}
    (hfinished : σ₂.Finished i job outcome) :
    ∃ r, job = .join mode s r ∧ r.validate = .ok (user i) := by
  obtain ⟨r, rest, htask, hvalid⟩ := h.joins i hi
  cases Option.some.inj (htask.symm.trans hfinished)
  exact ⟨r, rfl, hvalid⟩

/-- A first join that has ended has concluded. -/
theorem concludes (h : FirstJoins σ₁ σ₂ mode s user J) (h₁ : Run appId {} σ₁)
    (h₂ : Run appId σ₁ σ₂) (hfresh : FreshGrants σ₂.past) (hi : i ∈ J) {job : Job}
    {outcome : Outcome} (hfinished : σ₂.Finished i job outcome) :
    Concludes i s σ₂.world outcome := by
  have hP : ¬ (Act.switch false ≠ .switch false) := fun h => h rfl
  have hassumes : (answering σ₁.past (· ≠ .switch false) hP).Assumes σ₂.past :=
    ⟨kept_of_run (h₁.trans h₂), hfresh, fun act hact hswitch => h.steady (hswitch ▸ hact)⟩
  have hstart : (answering σ₁.past (· ≠ .switch false) hP).discipline.Governs
      (Concluded σ₁.tasks.length s) σ₁ := by
    refine ⟨⟨storeOf_of_run h₁, List.suffix_refl _, h.available⟩, fun i t ht => ?_,
      (ledger_of_run h₁).new⟩
    -- No task that was there before is one of them.
    have hlt := (List.getElem?_eq_some_iff.1 ht).1
    exact (holds_answering t.rest).mono fun _ _ _ _ _ hi => absurd hlt (Nat.not_lt.2 hi)
  obtain ⟨-, hgov⟩ := hstart.run_of_start h₂ hassumes fun τ job _ _ _ _ hown =>
    holds_job_headway appId σ₁.tasks.length s job hown
  obtain ⟨r, hjob, hvalid⟩ := h.job_eq hi hfinished
  exact hgov.finished hassumes hfinished (h.started i hi) mode r (user i) hjob hvalid

/-- Who is answered with an error wrote no session. -/
theorem unseated (hrun : Run appId {} σ) (hfresh : FreshGrants σ.past) {job : Job}
    {e : ServiceError} (hfinished : σ.Finished i job (.joined (.error e))) :
    tally seats i σ.past = 0 := by
  cases job <;>
    exact (attendance_of_run hrun hfresh).finished ⟨kept_of_run hrun, hfresh, trivial⟩ hfinished

/-- Nobody is seated twice. -/
theorem once (hrun : Run appId {} σ) (hfresh : FreshGrants σ.past) (i : Nat) :
    tally seats i σ.past ≤ 1 :=
  ((attendance_of_run hrun hfresh).inv.own.once i).2

/-- Who made the roster of a meeting of the session id longer is one of them. -/
theorem mem_of_appender (h : FirstJoins σ₁ σ₂ mode s user J) (hrun : Run appId {} σ₂)
    (hfresh : FreshGrants σ₂.past) {k : String} {kind : MeetingKind}
    (hgiven : Given σ₂.past s ⟨k, kind⟩) (hi : i ∈ appenders k σ₂.past) : i ∈ J :=
  h.only i (known_of_mem_session hrun hfresh hgiven
    (mem_writers_of_appenders (kept_of_run hrun) hi)).1

/-- Whoever maps the session is one of the first joins. -/
theorem mem_of_mapped (h : FirstJoins σ₁ σ₂ mode s user J) (hrun : Run appId {} σ₂)
    {mapping : Mapping} (hmapped : Mapped σ₂.past s i mapping) : i ∈ J :=
  h.only i (concerns_of_mem_mapping hrun hmapped.mem_writers)

/-! ### Counting -/

/-- No session is full for who has not come in. -/
theorem not_crowded (h : FirstJoins σ₁ σ₂ mode s user J) (hrun : Run appId {} σ₂)
    (hfresh : FreshGrants σ₂.past) (hi : i ∈ J) (hunseated : tally seats i σ₂.past = 0)
    {e : ServiceError} (hcrowded : Crowded s e σ₂.world) : False := by
  obtain ⟨-, k, kind, hgiven, hfull⟩ := hcrowded
  have hclaimed : capacity ≤ (appenders k σ₂.past).length := by
    rw [← List.length_reverse, ((attendance_of_run hrun hfresh).inv.own.roll k).length_eq]
    exact hfull
  have hnodup : (appenders k σ₂.past).Nodup := List.nodup_iff_count_le_one.2 fun i' =>
    (count_appenders_le_tally k i' _).trans (once hrun hfresh i')
  -- All who came in and the one who has not are among those who join.
  have hmore : (i :: appenders k σ₂.past).Nodup :=
    List.nodup_cons.2 ⟨not_mem_appenders hunseated, hnodup⟩
  have hsubset : i :: appenders k σ₂.past ⊆ J :=
    List.cons_subset.2 ⟨hi, fun i' hi' => h.mem_of_appender hrun hfresh hgiven hi'⟩
  have hle : (appenders k σ₂.past).length + 1 ≤ J.length :=
    (List.Nodup.subperm hmore hsubset).length_le
  exact Nat.not_succ_le_self _ ((hle.trans h.few).trans hclaimed)

/-- Where a task led the session id, there is a session. -/
theorem present_of_mapped (h : FirstJoins σ₁ σ₂ mode s user J) (h₁ : Run appId {} σ₁)
    (h₂ : Run appId σ₁ σ₂) (hfresh : FreshGrants σ₂.past) (hdone : Done σ₂ J) {mapping : Mapping}
    (hmapped : Mapped σ₂.past s i mapping) :
    σ₂.store.lookup (sessionKey mapping.meetingId) ≠ none := by
  have hrun : Run appId {} σ₂ := h₁.trans h₂
  have hi := h.mem_of_mapped hrun hmapped
  obtain ⟨job, outcome, hfinished⟩ := hdone i hi
  cases h.concludes h₁ h₂ hfresh hi hfinished with
  | ok howes => exact (howes mapping hmapped).resolve_left fun h => nomatch h
  | busy howes => exact (howes mapping hmapped).resolve_left fun h => nomatch h
  | full hfull => exact (h.not_crowded hrun hfresh hi (unseated hrun hfresh hfinished) hfull).elim

/-- If one finds the session busy, all places are claimed and all others wrote a session. -/
theorem entrants_of_busy (h : FirstJoins σ₁ σ₂ mode s user J) (h₁ : Run appId {} σ₁)
    (h₂ : Run appId σ₁ σ₂) (hfresh : FreshGrants σ₂.past) (hdone : Done σ₂ J) (hi : i ∈ J)
    (hunseated : tally seats i σ₂.past = 0) {kind : MeetingKind}
    (hheadway : maxAttempts ≤ headway kind s σ₂.world) :
    J.length = capacity ∧ ∀ i' ∈ J, i' ≠ i → i' ∈ entrants s σ₂.world := by
  have hrun : Run appId {} σ₂ := h₁.trans h₂
  have hsound : Sound σ₂.world := (ledger_of_run hrun).inv
  -- Each of the lost attempts was lost to another entrant, and there are no more of them than first
  -- joins.
  have hlost := headway_le_entrants hrun (s := s)
    (fun _ hmapped => h.present_of_mapped h₁ h₂ hfresh hdone hmapped) kind
  have hnodup : (i :: entrants s σ₂.world).Nodup := by
    refine List.nodup_cons.2 ⟨fun hin => ?_, nodup_entrants hsound hfresh (once hrun hfresh)⟩
    obtain ⟨k, _, -, hwriter⟩ := exists_given_of_mem_entrants hsound hin
    exact Nat.lt_irrefl 0 (hunseated ▸ tally_pos_of_mem hwriter)
  have hsubset : i :: entrants s σ₂.world ⊆ J := by
    refine List.cons_subset.2 ⟨hi, fun i' hi' => ?_⟩
    obtain ⟨k, kind, hgiven, hwriter⟩ := exists_given_of_mem_entrants hsound hi'
    exact h.only i' (known_of_mem_session hrun hfresh hgiven hwriter).1
  have hsubperm := List.Nodup.subperm hnodup hsubset
  have hle := hsubperm.length_le
  have hfew := h.few
  have hattempts : capacity = maxAttempts := rfl
  rw [List.length_cons] at hle
  have hperm := hsubperm.perm_of_length_le (by rw [List.length_cons]; omega)
  refine ⟨by omega, fun i' hi' hne => ?_⟩
  exact (List.mem_cons.1 (hperm.mem_iff.2 hi')).resolve_left hne

/-- Who wrote a session was taken in. -/
theorem tookIn_of_writer (h : FirstJoins σ₁ σ₂ mode s user J) (h₁ : Run appId {} σ₁)
    (h₂ : Run appId σ₁ σ₂) (hfresh : FreshGrants σ₂.past) (hdone : Done σ₂ J) (hi : i ∈ J)
    {k : String} (hwriter : i ∈ writers (sessionKey k) σ₂.past) : TookIn σ₂ i := by
  obtain ⟨job, outcome, hfinished⟩ := hdone i hi
  obtain ⟨r, rfl, -⟩ := h.job_eq hi hfinished
  have hseated : ∀ e, outcome ≠ .joined (.error e) := by
    rintro e rfl
    have hunseated := unseated (h₁.trans h₂) hfresh hfinished
    exact Nat.lt_irrefl 0 (hunseated ▸ tally_pos_of_mem hwriter)
  cases h.concludes h₁ h₂ hfresh hi hfinished with
  | ok => exact ⟨mode, s, r, _, hfinished⟩
  | busy => exact absurd rfl (hseated _)
  | full => exact absurd rfl (hseated _)

/-- A first join was let in, or told that the session is busy. -/
theorem answered (h : FirstJoins σ₁ σ₂ mode s user J) (h₁ : Run appId {} σ₁)
    (h₂ : Run appId σ₁ σ₂) (hfresh : FreshGrants σ₂.past) (hdone : Done σ₂ J) (hi : i ∈ J) :
    TookIn σ₂ i ∨ Busy σ₂ i := by
  obtain ⟨job, outcome, hfinished⟩ := hdone i hi
  obtain ⟨r, rfl, -⟩ := h.job_eq hi hfinished
  cases h.concludes h₁ h₂ hfresh hi hfinished with
  | ok => exact .inl ⟨mode, s, r, _, hfinished⟩
  | busy => exact .inr ⟨mode, s, r, hfinished⟩
  | full hfull =>
    have hrun : Run appId {} σ₂ := h₁.trans h₂
    exact (h.not_crowded hrun hfresh hi (unseated hrun hfresh hfinished) hfull).elim

/-- It takes five joins to tell one of them that the session is busy, and then the other four are
in: each of its attempts is lost to one of them or to the mapping. -/
theorem busy (h : FirstJoins σ₁ σ₂ mode s user J) (h₁ : Run appId {} σ₁)
    (h₂ : Run appId σ₁ σ₂) (hfresh : FreshGrants σ₂.past) (hdone : Done σ₂ J) (hi : i ∈ J)
    (hbusy : Busy σ₂ i) :
    J.length = capacity ∧ ∀ i' ∈ J, i' ≠ i → TookIn σ₂ i' := by
  have hrun : Run appId {} σ₂ := h₁.trans h₂
  have hsound : Sound σ₂.world := (ledger_of_run hrun).inv
  obtain ⟨mode', s', r, hfinished⟩ := hbusy
  have hunseated := unseated hrun hfresh hfinished
  cases h.concludes h₁ h₂ hfresh hi hfinished with
  | full hfull => exact (h.not_crowded hrun hfresh hi hunseated hfull).elim
  | busy _ hheadway =>
    obtain ⟨hall, hothers⟩ := h.entrants_of_busy h₁ h₂ hfresh hdone hi hunseated hheadway
    refine ⟨hall, fun i' hi' hne => ?_⟩
    obtain ⟨k, _, -, hwriter⟩ := exists_given_of_mem_entrants hsound (hothers i' hi' hne)
    exact h.tookIn_of_writer h₁ h₂ hfresh hdone hi' hwriter

/-- Nobody but the requests writes the store, so who was faster was one of them. -/
theorem overtaken (h : FirstJoins σ₁ σ₂ mode s user J) (hrun : Run appId {} σ₂) (hi : i ∈ J)
    (hbusy : Busy σ₂ i) : ∃ r, r.validate = .ok (user i) ∧
      Conflicted i (.join mode s r) s (σ₂.past.map .service) := by
  obtain ⟨mode', s', r, hfinished⟩ := hbusy
  obtain ⟨r', hjob, hvalid⟩ := h.job_eq hi hfinished
  obtain ⟨rfl, rfl, rfl⟩ := Job.join.inj hjob
  exact ⟨r, hvalid, conflicted_of_finished (openRun_of_run hrun) hfinished⟩

/-! ### The record -/

/-- A first join was started as one. -/
theorem job_of_mem (h : FirstJoins σ₁ σ₂ mode s user J) (hrun : Run appId {} σ₂) (hi : i ∈ J) :
    ∃ r, (jobs σ₂.past)[i]? = some (.join mode s r) ∧ r.validate = .ok (user i) := by
  obtain ⟨r, rest, htask, hvalid⟩ := h.joins i hi
  refine ⟨r, ?_, hvalid⟩
  rw [jobs_of_run hrun, List.getElem?_map, htask, Option.map_some]

/-- The members in a meeting of the session id are the users of those who made the roster longer. -/
theorem names_eq (h : FirstJoins σ₁ σ₂ mode s user J) (hrun : Run appId {} σ₂)
    (hfresh : FreshGrants σ₂.past) {k : String} {kind : MeetingKind}
    (hgiven : Given σ₂.past s ⟨k, kind⟩) :
    (rosterAt σ₂.store k).map Member.userId = (appenders k σ₂.past).reverse.map user := by
  refine names_of_brought ((attendance_of_run hrun hfresh).inv.own.roll k) fun i hi => ?_
  have hmem := h.mem_of_appender hrun hfresh hgiven (List.mem_reverse.1 hi)
  obtain ⟨r, hjob, hvalid⟩ := h.job_of_mem hrun hmem
  exact ⟨mode, s, r, hjob, hvalid⟩

/-- Who was taken in made the roster longer there. -/
theorem appender_of_finished (h : FirstJoins σ₁ σ₂ mode s user J) (hrun : Run appId {} σ₂)
    (hfresh : FreshGrants σ₂.past) (hi : i ∈ J) {r : JoinRequest} {reply : JoinReply}
    (hfinished : σ₂.Finished i (.join mode s r) (.joined (.ok reply))) :
    Given σ₂.past s reply.session.mapping ∧ i ∈ appenders reply.session.meetingId σ₂.past := by
  obtain ⟨r', hjob, hvalid⟩ := h.job_eq hi hfinished
  obtain rfl : r = r' := (Job.join.inj hjob).2.2
  obtain ⟨userId, hvalid', hseated⟩ := backed_of_finished hrun hfinished
  obtain rfl : userId = user i := Except.ok.inj (hvalid'.symm.trans hvalid)
  have hgiven : Given σ₂.past s reply.session.mapping := hseated.chosen.given
  refine ⟨hgiven, ?_⟩
  obtain ⟨x, hx, hcontinues⟩ := hseated.stored hfresh
  -- The user is in the session that is stored, and no other task brings that user.
  have hmember := Session.hasMember_iff.1 (hcontinues.hasMember (hseated.ours hfresh).2)
  rw [← rosterAt_of_sessionAt hx, h.names_eq hrun hfresh hgiven] at hmember
  obtain ⟨i', hi', huser⟩ := List.mem_map.1 hmember
  have happender := List.mem_reverse.1 hi'
  have hmem := h.mem_of_appender hrun hfresh hgiven happender
  obtain rfl : i' = i := List.inj_on_of_nodup_map h.distinct hmem hi huser
  exact happender

/-- Where the session id leads, those made the roster longer who were taken in there. -/
theorem appender_iff (h : FirstJoins σ₁ σ₂ mode s user J) (h₁ : Run appId {} σ₁)
    (h₂ : Run appId σ₁ σ₂) (hfresh : FreshGrants σ₂.past) (hdone : Done σ₂ J) {mapping : Mapping}
    (hat : σ₂.store.mappingAt s = some mapping) :
    i ∈ appenders mapping.meetingId σ₂.past ↔ i ∈ J ∧ TookInto σ₂ s i := by
  have hrun : Run appId {} σ₂ := h₁.trans h₂
  have hgiven : Given σ₂.past s mapping := (ledger_of_run hrun).inv.mapped s mapping hat
  constructor
  · intro happender
    have hi := h.mem_of_appender hrun hfresh hgiven happender
    have hwriter := mem_writers_of_appenders (kept_of_run hrun) happender
    obtain ⟨mode', s', r, reply, hfinished⟩ := h.tookIn_of_writer h₁ h₂ hfresh hdone hi hwriter
    obtain ⟨r', hjob, -⟩ := h.job_eq hi hfinished
    cases hjob
    refine ⟨hi, mode, r, reply, hfinished, ?_⟩
    obtain ⟨hgiven', happender'⟩ := h.appender_of_finished hrun hfresh hi hfinished
    have hwriter' := mem_writers_of_appenders (kept_of_run hrun) happender'
    -- Nobody writes sessions in two meetings.
    have hsame : mapping.meetingId = reply.session.meetingId := by
      by_contra hne
      exact List.disjoint_of_nodup_append (nodup_writers_append hne (once hrun hfresh)) hwriter
        hwriter'
    obtain ⟨k, kind⟩ := mapping
    obtain rfl : k = reply.session.meetingId := hsame
    rw [hat, Session.mapping, (Given.unique hfresh hgiven hgiven').2]
  · rintro ⟨hi, mode', r, reply, hfinished, hat'⟩
    obtain ⟨r', hjob, -⟩ := h.job_eq hi hfinished
    cases hjob
    obtain rfl := Option.some.inj (hat.symm.trans hat')
    exact (h.appender_of_finished hrun hfresh hi hfinished).2

/-- The record lists those who were let in, each of them once, in some order. Nobody else is in it,
since only first joins enter the session. -/
theorem record (h : FirstJoins σ₁ σ₂ mode s user J) (h₁ : Run appId {} σ₁)
    (h₂ : Run appId σ₁ σ₂) (hfresh : FreshGrants σ₂.past) (hdone : Done σ₂ J) :
    ∃ order : List Nat, memberIds σ₂.store s = order.map user ∧ order.Nodup ∧
      ∀ i, i ∈ order ↔ i ∈ J ∧ TookInto σ₂ s i := by
  have hrun : Run appId {} σ₂ := h₁.trans h₂
  cases hat : σ₂.store.mappingAt s with
  | none =>
    refine ⟨[], ?_, List.nodup_nil, fun i => iff_of_false List.not_mem_nil ?_⟩
    · rw [memberIds, roomAt, hat]
      rfl
    · rintro ⟨-, mode', r, reply, -, hat'⟩
      rw [hat] at hat'
      cases hat'
  | some mapping =>
    have hgiven : Given σ₂.past s mapping := (ledger_of_run hrun).inv.mapped s mapping hat
    -- The order is that of those who made the roster longer, and nobody does so twice.
    have hnodup : (appenders mapping.meetingId σ₂.past).Nodup :=
      List.nodup_iff_count_le_one.2 fun i =>
        (count_appenders_le_tally mapping.meetingId i _).trans (once hrun hfresh i)
    refine ⟨(appenders mapping.meetingId σ₂.past).reverse, ?_, List.nodup_reverse.2 hnodup,
      fun i => List.mem_reverse.trans (h.appender_iff h₁ h₂ hfresh hdone hat)⟩
    rw [← h.names_eq hrun hfresh hgiven, memberIds, roomAt_of_mappingAt hat, rosterAt]

/-- Who was taken in elsewhere was taken into a mock meeting, before a real one took its place. -/
theorem together (h : FirstJoins σ₁ σ₂ mode s user J) (hrun : Run appId {} σ₂)
    (hfresh : FreshGrants σ₂.past) (hi : i ∈ J) (htook : TookIn σ₂ i) :
    TookInto σ₂ s i ∨ Divided σ₂ mode s J := by
  obtain ⟨mode', s', r, reply, hfinished⟩ := htook
  obtain ⟨r', hjob, -⟩ := h.job_eq hi hfinished
  cases hjob
  obtain ⟨userId, -, hseated⟩ := backed_of_finished hrun hfinished
  rcases hseated.chosen.leads with hat | ⟨hmock, meetingId, hat⟩
  · exact .inl ⟨mode, r, reply, hfinished, hat⟩
  right
  have hmode : ∀ {i' t}, i' ∈ J → σ₂.tasks[i']? = some t → t.job.mode = mode := by
    intro i' t hi' ht
    obtain ⟨r', rest, htask, -⟩ := h.joins i' hi'
    cases Option.some.inj (ht.symm.trans htask)
    rfl
  -- The real meeting was given to who mapped the session id to it.
  obtain ⟨b, hb⟩ := exists_mapped hrun hat
  have hbJ := h.mem_of_mapped hrun hb
  obtain ⟨rb, restb, htaskb, -⟩ := h.joins b hbJ
  obtain ⟨hreal, hgranted⟩ : mode = .real ∧ ⟨.createMeeting s, .ok meetingId⟩ ∈ own b σ₂.past := by
    cases hb.obtained hrun htaskb with
    | given hmode hgranted => exact ⟨hmode, hgranted⟩
  -- The mock meeting was obtained by who was refused a real one.
  have hgiven : Given σ₂.past s ⟨reply.session.meetingId, .mock⟩ := by
    have hgiven := hseated.chosen.given
    rw [show reply.session.mapping = ⟨reply.session.meetingId, .mock⟩ from
      congrArg (Mapping.mk _) hmock] at hgiven
    exact hgiven
  obtain ⟨y, hy, -⟩ := hseated.stored hfresh
  obtain ⟨stored, hlookup, -⟩ := Memory.lookup_of_sessionAt hy
  obtain ⟨a, t, kind, hconcerns, ht, hobtained⟩ := exists_obtained hrun hfresh hgiven
    fun hnone => nomatch hlookup.symm.trans hnone
  have haJ := h.only a hconcerns
  rw [hmode haJ ht, hreal] at hobtained
  have hgiven' := (Known.obtained hobtained).given (kept_of_run hrun)
  obtain rfl := (Given.unique hfresh hgiven hgiven').2
  refine ⟨hreal, ⟨a, haJ, ?_⟩, b, hbJ, meetingId, hgranted⟩
  generalize hk : reply.session.meetingId = k at hobtained
  cases hobtained with
  | skipped hmode => exact nomatch hmode
  | refused e _ hrefused => exact ⟨e, hrefused⟩

/-- If nobody is told to retry and the joins agree on a session, everyone is in it. -/
theorem everyone (h : FirstJoins σ₁ σ₂ mode s user J) (h₁ : Run appId {} σ₁)
    (h₂ : Run appId σ₁ σ₂) (hfresh : FreshGrants σ₂.past) (hdone : Done σ₂ J)
    (hfree : ∀ i ∈ J, ¬ Busy σ₂ i) (hwhole : ¬ Divided σ₂ mode s J) :
    EveryoneIn σ₂ s user J := by
  have htook : ∀ i ∈ J, TookIn σ₂ i := fun i hi =>
    (h.answered h₁ h₂ hfresh hdone hi).resolve_right (hfree i hi)
  refine ⟨htook, ?_⟩
  obtain ⟨order, hnames, hnodup, horder⟩ := h.record h₁ h₂ hfresh hdone
  rw [hnames]
  refine ((List.perm_ext_iff_of_nodup hnodup (h.distinct.of_map _)).2 fun i => ?_).map user
  rw [horder]
  exact ⟨And.left, fun hi => ⟨hi,
    (h.together (h₁.trans h₂) hfresh hi (htook i hi)).resolve_right hwhole⟩⟩

/-! ### Going on -/

/-- First joins stay first joins when a join is answered. -/
theorem turn (h : FirstJoins σ₁ σ₂ mode s user J) (hrun : Run appId {} σ₂) (o : Oracle)
    {mode' : Mode} {s' : String} {r : JoinRequest}
    (hjob : (jobs σ₂.past)[i]? = some (.join mode' s' r)) :
    FirstJoins σ₁ (o.turn σ₂ i) mode s user J := by
  have hrun' : Run appId {} (o.turn σ₂ i) := hrun.trans (o.run_turn σ₂ i)
  have hjobs : (jobs (o.turn σ₂ i).past)[i]? = some (.join mode' s' r) :=
    getElem?_jobs_of_suffix (grows_of_run hrun (o.run_turn σ₂ i)).past hjob
  rw [jobs_of_run hrun', List.getElem?_map, Option.map_eq_some_iff] at hjobs
  obtain ⟨⟨job, rest'⟩, ht', rfl⟩ := hjobs
  rw [jobs_of_run hrun, List.getElem?_map, Option.map_eq_some_iff] at hjob
  obtain ⟨⟨job, rest⟩, ht, rfl⟩ := hjob
  cases rest with
  | done outcome =>
    rw [Oracle.turn_of_finished ht]
    exact h
  | ask c rest =>
    have hi : i < σ₂.tasks.length := (List.getElem?_eq_some_iff.1 ht).1
    have hself := ht'
    rw [Oracle.turn_of_ask ht] at hself ⊢
    refine ⟨h.started, fun i' hi' => ?_, h.distinct, h.few, fun i' hconcerns => ?_, h.available,
      fun hswitch => ?_⟩
    · obtain ⟨r', rest', htask, hvalid⟩ := h.joins i' hi'
      by_cases hsame : i = i'
      · subst hsame
        cases Option.some.inj (ht.symm.trans htask)
        exact ⟨_, _, List.getElem?_set_self hi, hvalid⟩
      · exact ⟨r', rest', (List.getElem?_set_ne hsame).trans htask, hvalid⟩
    -- The task that was answered is about the session id that it joins, and no other.
    · refine h.only i' ?_
      rcases hconcerns with ⟨mode'', r'', rest'', htask⟩ | hdrawn
      · by_cases hsame : i = i'
        · subst hsame
          rw [List.getElem?_set_self hi] at htask
          cases htask
          exact .inl ⟨_, _, _, ht⟩
        · exact .inl ⟨mode'', r'', rest'', (List.getElem?_set_ne hsame).symm.trans htask⟩
      · by_cases hsame : i = i'
        · subst hsame
          rw [← Oracle.turn_of_ask ht] at hdrawn
          exact absurd hdrawn (not_drawn_of_join hrun' ht')
        · rw [System.past, World.past_next, own_answer_of_ne hsame] at hdrawn
          exact .inr hdrawn
    · rcases eq_or_since_of_cons hswitch with hlast | hbefore
      · cases hlast
      · exact h.steady hbefore

/-- First joins stay first joins while joins take turns. -/
theorem play (h : FirstJoins σ₁ σ₂ mode s user J) (hrun : Run appId {} σ₂) (o : Oracle)
    {schedule : List Nat}
    (hjobs : ∀ i ∈ schedule, ∃ mode' s' r, (jobs σ₂.past)[i]? = some (.join mode' s' r)) :
    FirstJoins σ₁ (o.play σ₂ schedule) mode s user J := by
  induction schedule generalizing σ₂ with
  | nil => exact h
  | cons i schedule ih =>
    obtain ⟨mode', s', r, hjob⟩ := hjobs i List.mem_cons_self
    refine ih (h.turn hrun o hjob) (hrun.trans (o.run_turn σ₂ i)) fun i' hi' => ?_
    obtain ⟨mode'', s'', r', hjob'⟩ := hjobs i' (List.mem_cons_of_mem i hi')
    exact ⟨mode'', s'', r',
      getElem?_jobs_of_suffix (grows_of_run hrun (o.run_turn σ₂ i)).past hjob'⟩

/-- First joins can always be brought to an end. -/
theorem ends (h : FirstJoins σ₁ σ₂ mode s user J) (hrun : Run appId {} σ₂) (o : Oracle) :
    ∃ schedule, FirstJoins σ₁ (o.play σ₂ schedule) mode s user J ∧ Done (o.play σ₂ schedule) J := by
  obtain ⟨schedule, hsubset, hdone⟩ := Oracle.exists_play_all (o := o) (σ := σ₂) (J := J)
    fun i hi => by
      obtain ⟨r, rest, htask, -⟩ := h.joins i hi
      exact (List.getElem?_eq_some_iff.1 htask).1
  refine ⟨schedule, h.play hrun o fun i hi => ?_, hdone⟩
  obtain ⟨r, hjob, -⟩ := h.job_of_mem hrun (hsubset hi)
  exact ⟨mode, s, r, hjob⟩

end FirstJoins

/-! ### First joins gather -/

/-- In every run, users who join a session id for the first time come to their ends, and all of them
are taken in, but for one if they claim all places. -/
theorem first_joins_gather (h₁ : Run appId {} σ₁) (h₂ : Run appId σ₁ σ₂)
    (hfresh : FreshGrants σ₂.past) (h : FirstJoins σ₁ σ₂ mode s user J) :
    Gathers σ₁ σ₂ mode s user J where
  ends := h.ends (h₁.trans h₂)
  gathered hdone :=
    { answered := fun _ hi => h.answered h₁ h₂ hfresh hdone hi
      busy := fun _ hi => h.busy h₁ h₂ hfresh hdone hi
      overtaken := fun _ hi => h.overtaken (h₁.trans h₂) hi
      record := h.record h₁ h₂ hfresh hdone
      together := fun _ hi => h.together (h₁.trans h₂) hfresh hi
      everyone := h.everyone h₁ h₂ hfresh hdone }

/-! ### Users who take turns -/

/-- Joins that started, and nothing else happened. -/
theorem firstJoins_startAll {jobs : List Job}
    (hjoins : ∀ i ∈ J, ∃ r, jobs[i]? = some (.join mode s r) ∧ r.validate = .ok (user i))
    (honly : ∀ i mode' r, jobs[i]? = some (.join mode' s r) → i ∈ J)
    (hdistinct : (J.map user).Nodup) (hfew : J.length ≤ capacity) :
    FirstJoins {} (startAll appId {} jobs) mode s user J := by
  have hstarts : ∀ act ∈ (startAll appId {} jobs).past, ∃ job, act = .start job := by
    intro act hact
    rw [past_startAll, List.append_nil, List.mem_reverse] at hact
    obtain ⟨job, -, rfl⟩ := List.mem_map.1 hact
    exact ⟨job, rfl⟩
  have htasks : ∀ i : Nat, (startAll appId {} jobs).tasks[i]? =
      jobs[i]?.map fun job => Task.mk job (job.program appId) := by
    intro i
    rw [tasks_startAll, List.nil_append, List.getElem?_map]
  -- Nothing but starts has happened, so that no task has spoken or been refused.
  refine ⟨fun _ _ => Nat.zero_le _, fun i hi => ?_, hdistinct, hfew, fun i h => ?_, rfl, ?_⟩
  · obtain ⟨r, hjob, hvalid⟩ := hjoins i hi
    exact ⟨r, _, (htasks i).trans (congrArg _ hjob), hvalid⟩
  · rcases h with ⟨mode', r, rest, htask⟩ | hdrawn
    · obtain ⟨job, hjob, hsame⟩ := Option.map_eq_some_iff.1 ((htasks i).symm.trans htask)
      cases hsame
      exact honly i mode' r hjob
    · obtain ⟨job, hjob⟩ := hstarts _ (mem_own_iff.1 hdrawn)
      exact nomatch hjob
  · rintro ⟨new, hnew, hact⟩
    obtain ⟨job, hjob⟩ := hstarts _ (hnew ▸ List.mem_append_left _ hact)
    exact nomatch hjob

section Visited

variable (meeting : List Act → Except ProviderError String) {visits : List Visit}
variable {turns : List (Nat × Nat)}

/-- So are those of a script of visits, whatever other sessions are visited. The runs below are such
scripts. -/
theorem firstJoins_visited (hjoins : ∀ i ∈ J, visits[i]? = some ⟨mode, s, user i⟩ ∧
      JoinRequest.validate ⟨some (user i), none⟩ = .ok (user i))
    (honly : ∀ i < visits.length, visits[i]?.map Visit.sessionId = some s → i ∈ J)
    (hdistinct : (J.map user).Nodup) (hfew : J.length ≤ capacity)
    (hturns : ∀ turn ∈ turns, turn.1 < visits.length) :
    FirstJoins {} (visited meeting {} visits turns) mode s user J := by
  have hstart : FirstJoins {} (startAll "app" {} (visits.map Visit.job)) mode s user J := by
    refine firstJoins_startAll (fun i hi => ?_) (fun i mode' r hjob => ?_) hdistinct hfew
    · obtain ⟨hvisit, hvalid⟩ := hjoins i hi
      exact ⟨_, List.getElem?_map.trans (congrArg _ hvisit), hvalid⟩
    · obtain ⟨v, hvisit, hsame⟩ := Option.map_eq_some_iff.1 (List.getElem?_map.symm.trans hjob)
      cases hsame
      exact honly i (List.getElem?_eq_some_iff.1 hvisit).1 (congrArg _ hvisit)
  -- All visits are started before any of them is served, and the turns are those of joins.
  refine hstart.play (run_startAll _) _ fun i hi => ?_
  obtain ⟨turn, hturn, hi⟩ := List.mem_flatMap.1 hi
  obtain rfl := List.eq_of_mem_replicate hi
  have hvisit := List.getElem?_eq_getElem (hturns turn hturn)
  have hjobs : jobs (startAll "app" {} (visits.map Visit.job)).past = visits.map Visit.job := by
    rw [jobs_of_run (run_startAll _), tasks_startAll, List.nil_append, List.map_map]
    exact List.map_id'' (fun _ => rfl) _
  rw [hjobs]
  exact ⟨_, _, _, List.getElem?_map.trans (congrArg _ hvisit)⟩

end Visited

/-- The users of the race. -/
def racer (i : Nat) : String :=
  ["u", "v"].getD i ""

/-- Both joins of the race are first joins. -/
theorem firstJoins_afterRace : FirstJoins {} afterRace .real "s" racer [0, 1] :=
  firstJoins_visited _ (by decide) (by decide) (by decide) (by decide) (by decide)

/-- Two users who race each other gather. -/
theorem first_joins_gather_afterRace :
    FreshGrants afterRace.past ∧ FirstJoins {} afterRace .real "s" racer [0, 1] ∧
      Done afterRace [0, 1] ∧ Gathers {} afterRace .real "s" racer [0, 1] := by
  refine ⟨freshGrants_afterRace, firstJoins_afterRace, fun i hi => ?_,
    first_joins_gather .refl run_afterRace freshGrants_afterRace firstJoins_afterRace⟩
  rcases List.mem_pair.1 hi with rfl | rfl
  · exact ⟨_, _, finished_afterRace.1⟩
  · exact ⟨_, _, finished_afterRace.2⟩

/-- Whether a join that has come to its end is answered with a session. -/
def System.verdict (σ : System) (i : Nat) : Option Bool :=
  match σ.tasks[i]? with
  | some ⟨.join .., .done (.joined r)⟩ => some r.isOk
  | _ => none

/-- The verdict tells who was let in. -/
theorem tookIn_iff : TookIn σ i ↔ σ.verdict i = some true := by
  constructor
  · rintro ⟨mode, s, r, reply, hfinished⟩
    rw [System.verdict, show σ.tasks[i]? = _ from hfinished]
    rfl
  · intro h
    unfold System.verdict at h
    split at h
    · rename_i mode s r answer htask
      cases answer with
      | ok reply => exact ⟨mode, s, r, reply, htask⟩
      | error e => exact nomatch h
    · exact nomatch h

/-- Tasks with verdicts are done. -/
theorem done_of_verdicts (h : none ∉ J.map σ.verdict) : Done σ J := by
  intro i hi
  have hsome : σ.verdict i ≠ none := fun hnone => h (List.mem_map.2 ⟨i, hi, hnone⟩)
  unfold System.verdict at hsome
  split at hsome
  · rename_i htask
    exact ⟨_, _, htask⟩
  · exact absurd rfl hsome

/-- Those who were let in have it as their verdict. -/
theorem tookIn_of_verdicts (h : ∀ i ∈ J, TookIn σ i) : ∀ v ∈ J.map σ.verdict, v = some true := by
  intro v hv
  obtain ⟨i, hi, rfl⟩ := List.mem_map.1 hv
  exact tookIn_iff.1 (h i hi)

/-! ### Not all come together -/

/-- First joins have come to their ends in a run, and not everyone is in. -/
structure Parted (σ : System) (mode : Mode) (s : String) (user : Nat → String) (J : List Nat) :
    Prop where
  run : Run "app" {} σ
  first : FirstJoins {} σ mode s user J
  done : Done σ J
  parted : ¬ EveryoneIn σ s user J

/-- First joins are parted if one of them is turned away. -/
theorem parted_of_verdict (hrun : Run "app" {} σ) (hfirst : FirstJoins {} σ mode s user J)
    (hdone : none ∉ J.map σ.verdict) (haway : some false ∈ J.map σ.verdict) :
    Parted σ mode s user J where
  run := hrun
  first := hfirst
  done := done_of_verdicts hdone
  parted heveryone := nomatch tookIn_of_verdicts heveryone.answered _ haway

/-- They are parted as well if all are let in, but not into one session. -/
theorem parted_of_record (hrun : Run "app" {} σ) (hfirst : FirstJoins {} σ mode s user J)
    (hdone : none ∉ J.map σ.verdict) (hrecord : ¬ (memberIds σ.store s).Perm (J.map user)) :
    Parted σ mode s user J where
  run := hrun
  first := hfirst
  done := done_of_verdicts hdone
  parted heveryone := hrecord heveryone.record

/-- Five users. -/
def letter (i : Nat) : String :=
  ["a", "b", "c", "d", "e"].getD i ""

/-- Whenever the last of five users is about to write, another one has just written: first the
mapping, then the session, with one more member each time. -/
def overtakenOften : System :=
  visited (fun _ => .error .timeout) {} ((List.range 5).map fun i => ⟨.mock, "s", letter i⟩)
    [(4, 2), (0, 3), (4, 8), (0, 6), (4, 6), (1, 6), (4, 6), (2, 6), (4, 6), (3, 6), (4, 5)]

/-- Four of five mock joins are let in, and the fifth loses every attempt to one of them. -/
theorem verdicts_overtakenOften :
    ([0, 1, 2, 3, 4].map overtakenOften.verdict, grants overtakenOften.past) =
      ([some true, some true, some true, some true, some false], []) := by
  decide +kernel

theorem parted_overtakenOften : Parted overtakenOften .mock "s" letter [0, 1, 2, 3, 4] := by
  obtain ⟨hverdicts, -⟩ := Prod.mk.inj verdicts_overtakenOften
  refine parted_of_verdict (run_visited ..) ?_ ?_ ?_
  · exact firstJoins_visited _ (by decide) (by decide) (by decide) (by decide) (by decide)
  · rw [hverdicts]
    decide
  · rw [hverdicts]
    decide

/-- The provider fails when the first user asks for a meeting, and gives one to the second. -/
def refusedOnce : System :=
  visited (fun past => if past.length < 10 then .error .timeout else .ok "m")
    {} [⟨.real, "s", "a"⟩, ⟨.real, "s", "b"⟩] [(0, 16), (1, 16)]

/-- Both joins are let in, and the session id leads to a record of the second only. -/
theorem verdicts_refusedOnce :
    ([0, 1].map refusedOnce.verdict, memberIds refusedOnce.store "s", grants refusedOnce.past) =
      ([some true, some true], ["b"], [("s", "m")]) := by
  decide +kernel

theorem parted_refusedOnce : Parted refusedOnce .real "s" letter [0, 1] := by
  obtain ⟨hverdicts, hmembers, -⟩ := Prod.mk.inj verdicts_refusedOnce |>.imp_right Prod.mk.inj
  refine parted_of_record (run_visited ..) ?_ ?_ ?_
  · exact firstJoins_visited _ (by decide) (by decide) (by decide) (by decide) (by decide)
  · rw [hverdicts]
    decide
  · rw [hmembers]
    decide

/-- The provider gives the same meeting for two session ids. -/
def givenTwice : System :=
  visited (fun _ => .ok "m") {} [⟨.real, "s", "a"⟩, ⟨.real, "t", "b"⟩] [(0, 16), (1, 16)]

/-- The join is let in, and then its record is replaced by that of another session. -/
theorem verdicts_givenTwice :
    ([0].map givenTwice.verdict, memberIds givenTwice.store "s") = ([some true], ["b"]) := by
  decide +kernel

theorem parted_givenTwice : Parted givenTwice .real "s" letter [0] := by
  obtain ⟨hverdicts, hmembers⟩ := Prod.mk.inj verdicts_givenTwice
  refine parted_of_record (run_visited ..) ?_ ?_ ?_
  · exact firstJoins_visited _ (by decide) (by decide) (by decide) (by decide) (by decide)
  · rw [hverdicts]
    decide
  · rw [hmembers]
    decide

/-- The provider gives a meeting that is the mock meeting of another session id. -/
def givenMock : System :=
  visited (fun _ => .ok "mock-meeting-t") {} [⟨.real, "s", "a"⟩, ⟨.mock, "t", "b"⟩] [(0, 16), (1, 16)]

/-- The join is let in, and then the record is made one of another session, whose mock meeting it
is. -/
theorem verdicts_givenMock :
    ([0].map givenMock.verdict, memberIds givenMock.store "s") = ([some true], ["b"]) := by
  decide +kernel

theorem parted_givenMock : Parted givenMock .real "s" letter [0] := by
  obtain ⟨hverdicts, hmembers⟩ := Prod.mk.inj verdicts_givenMock
  refine parted_of_record (run_visited ..) ?_ ?_ ?_
  · exact firstJoins_visited _ (by decide) (by decide) (by decide) (by decide) (by decide)
  · rw [hverdicts]
    decide
  · rw [hmembers]
    decide

/-- One of five users can be overtaken in every attempt, and a provider that fails for a while parts
users. So does one that gives a meeting again, or a mock meeting. -/
theorem first_joins_apart :
    (Parted overtakenOften .mock "s" letter [0, 1, 2, 3, 4] ∧ FreshGrants overtakenOften.past) ∧
    (Parted refusedOnce .real "s" letter [0, 1] ∧ FreshGrants refusedOnce.past) ∧
    Parted givenTwice .real "s" letter [0] ∧ Parted givenMock .real "s" letter [0] := by
  obtain ⟨-, hnone⟩ := Prod.mk.inj verdicts_overtakenOften
  obtain ⟨-, -, hone⟩ := Prod.mk.inj verdicts_refusedOnce |>.imp_right Prod.mk.inj
  -- the provider gave no meeting in the first run, and one in the second
  refine ⟨⟨parted_overtakenOften, ?_, ?_⟩, ⟨parted_refusedOnce, ?_, ?_⟩, parted_givenTwice,
    parted_givenMock⟩
  · rw [hnone]
    exact List.nodup_nil
  · rw [hnone]
    exact fun _ h => nomatch h
  · rw [hone]
    decide
  · rw [hone]
    decide

end VoiceRoom.Concurrency
