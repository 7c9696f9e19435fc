import VoiceRoom.Proofs.Concurrency.Attendance

/-!
# Newcomers who queue for a session

A session is there, and newcomers join it side by side while nobody else writes its records. Then
its record is written only to add a member, so that its version goes up exactly as the roster gets
longer (`Queued.lockstep`). An attempt that is raced has therefore been overtaken by somebody who
got in: five attempts are as many as the room has places, and a newcomer who is turned away leaves
a session behind that is full.
-/

namespace VoiceRoom.Concurrency

open Discipline
open Simulation (Entry)

/-! ### What happened since -/

/-- Something happened since. -/
def Since (base past : List Act) (act : Act) : Prop :=
  ∃ new, past = new ++ base ∧ act ∈ new

theorem Since.of_suffix {base past past' : List Act} {act : Act} (h : Since base past act)
    (hsuffix : past <:+ past') : Since base past' act := by
  obtain ⟨new, rfl, hact⟩ := h
  obtain ⟨later, rfl⟩ := hsuffix
  exact ⟨later ++ new, (List.append_assoc ..).symm, List.mem_append_right later hact⟩

/-- What happens now happened since any earlier point. -/
theorem since_cons {base past : List Act} (h : base <:+ past) (act : Act) :
    Since base (act :: past) act := by
  obtain ⟨new, rfl⟩ := h
  exact ⟨act :: new, rfl, List.mem_cons_self⟩

/-- What happened since a point is the newest act, or was known before it. -/
theorem eq_or_since_of_cons {base past : List Act} {act act' : Act}
    (h : Since base (act' :: past) act) : act = act' ∨ Since base past act := by
  obtain ⟨new, hnew, hact⟩ := h
  cases new with
  | nil => exact nomatch hact
  | cons last new =>
    obtain ⟨rfl, hpast⟩ := List.cons.inj hnew
    exact (List.mem_cons.1 hact).imp_right fun hbefore => ⟨new, hpast, hbefore⟩

/-! ### The venue -/

/-- A session that newcomers queue for. -/
structure Venue where
  /-- All that happened before they came. -/
  base : List Act
  sessionId : String
  mapping : Mapping
  /-- By how much the version of the record is ahead of the roster. -/
  gap : Int
  /-- Who queues. -/
  waits : Nat → Prop

namespace Venue

variable {q : Venue} {i : Nat} {u v w : World}

/-- How many are in the session. -/
def count (q : Venue) (w : World) : Nat :=
  (rosterAt w.store q.mapping.meetingId).length

/-- A job is a valid join for which the mapping counts. -/
def Suits (q : Venue) : Job → Prop
  | .join mode s r => s = q.sessionId ∧ (∃ userId, r.validate = .ok userId) ∧
      (mode = .mock ∨ q.mapping.kind = .real)
  | .create _ => False

/-- The store goes on to answer, and nobody but who queues writes the records. -/
def Calm (q : Venue) (act : Act) : Prop :=
  act ≠ .switch false ∧ ∀ i key value expected n,
    act = .answer i ⟨.putIf key value expected, .ok (.written n)⟩ → ¬ q.waits i →
      key ≠ mappingKey q.sessionId ∧ key ≠ sessionKey q.mapping.meetingId

/-- Nobody disturbs who queues. -/
structure Undisturbed (q : Venue) (past : List Act) : Prop where
  calm : ∀ act, Since q.base past act → q.Calm act
  suits : ∀ i job, q.waits i → (jobs past)[i]? = some job → q.Suits job

theorem Undisturbed.of_suffix {past past' : List Act} (h : q.Undisturbed past')
    (hsuffix : past <:+ past') : q.Undisturbed past where
  calm act hact := h.calm act (hact.of_suffix hsuffix)
  suits i job hi hjob := h.suits i job hi (getElem?_jobs_of_suffix hsuffix hjob)

/-- What holds while newcomers queue. -/
structure Queued (q : Venue) (w : World) : Prop where
  since : q.base <:+ w.past
  available : w.store.available = true
  mapped : w.store.mappingAt q.sessionId = some q.mapping
  lockstep : ∃ stored, w.store.lookup (sessionKey q.mapping.meetingId) = some stored ∧
    (stored.version : Int) = q.count w + q.gap

/-- What writes neither of the records leaves all as it is. -/
theorem Queued.next (h : q.Queued w) {act : Act} (hallows : w.Allows act) (hup : act ≠ .switch false)
    (hspared : ∀ i key value expected n,
      act = .answer i ⟨.putIf key value expected, .ok (.written n)⟩ →
        key ≠ mappingKey q.sessionId ∧ key ≠ sessionKey q.mapping.meetingId) :
    q.Queued (w.next act) := by
  have hmapping := lookup_next_of_spared (mappingKey q.sessionId) hallows
    fun i value expected n hact => (hspared i _ value expected n hact).1 rfl
  have hsession := lookup_next_of_spared (sessionKey q.mapping.meetingId) hallows
    fun i value expected n hact => (hspared i _ value expected n hact).2 rfl
  refine ⟨h.since.trans (List.suffix_cons _ _), available_next h.available hup, ?_, ?_⟩
  · rw [Memory.mappingAt, hmapping]
    exact h.mapped
  · rw [hsession, count, rosterAt_of_lookup_eq hsession]
    exact h.lockstep

/-- The ledger, and that newcomers queue. -/
def bylaw (q : Venue) : Bylaw where
  assumes := q.Undisturbed
  inv := q.Queued
  assumes_tail h := h.of_suffix (List.suffix_cons _ _)
  quiet {w act} hact hallows hassumes h := by
    refine h.next hallows (hassumes.calm act (since_cons h.since act)).1 ?_
    rintro i key value expected n rfl
    exact absurd trivial hact

/-- Who does not queue is no concern of who does. -/
theorem holds_bystander (hi : ¬ q.waits i) {α : Type} (p : Program α) :
    q.bylaw.discipline.Holds i p (fun _ _ => True) u := by
  induction p generalizing u with
  | done a => exact fun _ _ => trivial
  | ask c rest ih =>
    intro v hv r hr hassumes
    have hcalm := hassumes.own.calm _ (since_cons hv.inv.own.since (.answer i ⟨c, r⟩))
    refine ⟨hv.inv.next (hv.inv.own.next hr hcalm.1 fun i' key value expected n hact => ?_),
      hv.inv.grows_next hassumes, ih r⟩
    refine hcalm.2 i' key value expected n hact ?_
    cases hact
    exact hi

/-! ### Counting -/

/-- The roster does not shrink while a task rests. -/
theorem count_le_of_rests (h : q.bylaw.discipline.Rests i v w) : q.count v ≤ q.count w :=
  (rosterAt_prefix_of_grows h.le h.assumes.fresh q.mapping.meetingId).length_le

/-- How a newcomer is turned away: from a session that is full. -/
def Full (q : Venue) (e : ServiceError) (w : World) : Prop :=
  (e = .sessionFull ∨ ∃ reason, e = .conflict reason) ∧ capacity ≤ q.count w

/-- Nothing fails while newcomers queue. -/
theorem not_fails (h : q.bylaw.discipline.Fails i u w) : False := by
  obtain ⟨v, hv, hdown, -⟩ := h
  exact nomatch hdown.symm.trans hv.inv.own.available

/-! ### An attempt -/

/-- A draft of a newcomer: the session as it was read. -/
structure Seen (q : Venue) (w : World) (d : Draft) : Prop where
  clean : d.dirty = false
  meeting : d.session.meetingId = q.mapping.meetingId
  timed : d.session.Timed
  base : ∃ stored, d.version = some stored.version ∧
    w.store.Saw (sessionKey q.mapping.meetingId) stored ∧
    (stored.version : Int) = d.session.users.length + q.gap
  count : d.session.users.length ≤ q.count w

theorem Seen.rests {d : Draft} (h : q.Seen v d) (hle : q.bylaw.discipline.Rests i v w) :
    q.Seen w d where
  clean := h.clean
  meeting := h.meeting
  timed := h.timed
  base := by
    obtain ⟨stored, hversion, hsaw, hlockstep⟩ := h.base
    exact ⟨stored, hversion, hsaw.advance (Grows.store hle.le), hlockstep⟩
  count := h.count.trans (count_le_of_rests hle)

/-- The record is there, and needs no correction. -/
theorem Queued.session {stored : Versioned} (h : q.Queued v) (hsound : Sound v)
    (hfresh : FreshGrants v.past)
    (hlookup : v.store.lookup (sessionKey q.mapping.meetingId) = some stored) :
    ∃ x, Session.decode stored.value = .ok x ∧ x.Proper ∧ x.mapping = q.mapping ∧
      (stored.version : Int) = x.users.length + q.gap ∧ x.users.length = q.count v := by
  obtain ⟨x, hx, hhoused⟩ := hsound.housed hfresh _ stored hlookup
  obtain ⟨-, hmapping, -⟩ := hhoused.fit_eq hfresh (hsound.mapped _ _ h.mapped) rfl
  obtain ⟨stored', hlookup', hlockstep⟩ := h.lockstep
  obtain rfl : stored' = stored := Option.some.inj (hlookup'.symm.trans hlookup)
  have hcount : x.users.length = q.count v := by
    rw [count, rosterAt_of_sessionAt (Memory.sessionAt_of_lookup hlookup hx)]
  exact ⟨x, hx, hhoused.proper, hmapping, hcount ▸ hlockstep, hcount⟩

theorem ensures_openMapped_queue {j : Joiner} {n : Nat} (hn : n ≤ q.count u) :
    q.bylaw.discipline.Ensures i (j.openMapped q.mapping)
      (fun d v => q.Seen v d ∧ n ≤ d.session.users.length) q.Full u := by
  refine ensures_openMapped (fun v w t hv hlookup _ _ => ?_)
    (fun v w stored x hv hlookup hdecode hreads => ?_)
    (fun v w stored fault hv hlookup hdecode _ => ?_) fun w hfails => (not_fails hfails).elim
  · obtain ⟨stored, hstored, -⟩ := hv.inv.own.lockstep
    -- the session is there from the beginning, so it is not made anew
    cases hlookup.symm.trans hstored
  · obtain ⟨y, hy, hproper, hmapping, hlockstep, hcount⟩ :=
      hv.inv.own.session (hv.inv.sound hv.assumes) hv.assumes.fresh hlookup
    -- what is stored is the session of the mapping, and needs no repair
    obtain rfl : x = y := Except.ok.inj (hdecode.symm.trans hy)
    have hagrees : x.agrees q.mapping = true := by
      rw [← hmapping]
      simp [Session.agrees, Session.mapping]
    have hmeeting : x.meetingId = q.mapping.meetingId := congrArg Mapping.meetingId hmapping
    rw [Session.fit_of_agrees hagrees, hagrees]
    refine ⟨Seen.rests ⟨rfl, hmeeting, hproper.timed, ?_, hcount.le⟩ hreads.rests, ?_⟩
    · exact ⟨stored, rfl, Memory.saw_of_lookup hlookup, hlockstep⟩
    · show n ≤ x.users.length
      rw [hcount]
      exact hn.trans (count_le_of_rests hv.rests)
  · obtain ⟨x, hx, -⟩ := hv.inv.own.session (hv.inv.sound hv.assumes) hv.assumes.fresh hlookup
    cases hx.symm.trans hdecode

/-- The record that was seen is written with one member more. -/
theorem Seen.written {d : Draft} {m : Member} (h : q.Seen v d) (hv : q.bylaw.Inv v)
    (hnew : d.session.hasMember m.userId = false) (hm : m.Timed) :
    let x := d.session.add m
    (v.store.lookup (sessionKey x.meetingId)).map Versioned.version = d.version →
    let v' := v.written i (sessionKey x.meetingId) x.encode d.version
    q.bylaw.Assumes v'.past → q.bylaw.Inv v' ∧ Grows v v' := by
  intro x hversion v' hassumes
  have hmeeting : x.meetingId = q.mapping.meetingId :=
    (Session.continues_add d.session m).meetingId.trans h.meeting
  have hlength : x.users.length = d.session.users.length + 1 := by
    rw [Session.users_add_of_not_hasMember (by rw [hnew]; exact Bool.false_ne_true),
      List.length_append, List.length_singleton]
  obtain ⟨stored, hstored, -, hlockstep⟩ := h.base
  -- The draft has seen the newest record, so the version moves on together with the roster.
  have hnext : v.store.nextVersion (sessionKey x.meetingId) = stored.version + 1 := by
    rw [hstored] at hversion
    obtain ⟨current, hcurrent, hsame⟩ := Option.map_eq_some_iff.1 hversion
    rw [Memory.nextVersion, hcurrent, Option.elim_some, hsame]
  refine Bylaw.inv_written hv hassumes ⟨hv.own.since.trans (past_suffix_written ..),
    hv.own.available, ?_, ⟨x.encode, v.store.nextVersion (sessionKey x.meetingId)⟩, ?_, ?_⟩
  · exact (Memory.mappingAt_insert_session ..).trans hv.own.mapped
  · show (v.store.insert _ _).lookup _ = _
    rw [hmeeting, Memory.lookup_insert_session, if_pos rfl]
  · rw [hnext, Venue.count, rosterAt_written (h.timed.add hm), if_pos hmeeting.symm, hlength]
    push_cast
    omega

/-- An attempt that is raced was overtaken by somebody who got in. -/
theorem ensures_enter_queue {j : Joiner} {d : Draft} (hseen : q.Seen u d) :
    q.bylaw.discipline.Ensures i (j.enter d)
      (fun a v => a = .raced → d.session.users.length < q.count v) q.Full u := by
  refine ensures_enter (fun hfull w hw => ⟨.inl rfl, ?_⟩) (fun _ _ _ _ _ h => nomatch h)
    (fun _ hneed v t hv ht hversion hassumes => ?_)
    (fun _ v v' w t hv hversion hturn hw _ => ?_) fun v w _ hfails => (not_fails hfails).elim
  · unfold Session.isFull at hfull
    exact (of_decide_eq_true hfull).trans (hseen.rests hw.rests).count
  · have hnew := hneed.resolve_left (by rw [hseen.clean]; exact Bool.false_ne_true)
    obtain ⟨hinv, hgrows⟩ := (hseen.rests hv.rests).written (m := ⟨j.userId, t, j.iconUrl⟩) hv.inv
      hnew ht hversion hassumes
    exact ⟨hinv, hgrows, fun _ _ h => nomatch h⟩
  -- The record has another version than the one that was read, hence more members.
  · obtain ⟨stored, hstored, ⟨current, hcurrent, hnewer⟩, hlockstep⟩ := (hseen.rests hv.rests).base
    obtain ⟨current', hcurrent', hlockstep'⟩ := hv.inv.own.lockstep
    obtain rfl : current = current' := Option.some.inj (hcurrent.symm.trans hcurrent')
    have hmeeting : (d.session.add ⟨j.userId, t, j.iconUrl⟩).meetingId = q.mapping.meetingId :=
      (Session.continues_add _ _).meetingId.trans hseen.meeting
    rw [hmeeting, hcurrent, hstored, Option.map_some] at hversion
    have hlt : stored.version < current.version :=
      hnewer.resolve_left (by rintro rfl; exact hversion rfl)
    have hle : q.count v ≤ q.count w := count_le_of_rests ((hturn.rests id).trans hw.rests)
    omega

/-- One attempt of a queued join loses its race only to somebody who made the roster longer. This is
what bounds the races that can be lost. -/
theorem ensures_attempt_queue {j : Joiner} {held : Option Meeting} {n : Nat}
    (hj : j.sessionId = q.sessionId) (hmode : j.mode = .mock ∨ q.mapping.kind = .real)
    (hn : n ≤ q.count u) :
    q.bylaw.discipline.Ensures i (j.attempt held) (fun r v => r.1 = .raced → n < q.count v)
      q.Full u := by
  unfold Joiner.attempt
  refine ensures_lookup (fun v w hv hreads => ?_) fun w hfails => (not_fails hfails).elim
  -- The mapping counts, so the session is looked for where it is.
  obtain ⟨stored, hlookup, hdecode⟩ := Memory.lookup_of_mappingAt hv.inv.own.mapped
  have hfound : Resolution.read j.mode (some stored) = .found q.mapping stored.version :=
    Resolution.ofStored_eq_found_iff.2 ⟨hdecode, rfl, hmode⟩
  rw [hj, hlookup, hfound]
  refine (ensures_openMapped_queue (hn.trans (count_le_of_rests (hv.rests.trans hreads.rests)))).bind
    fun d v' hv' h => ?_
  obtain ⟨hseen, hle⟩ := h v' hv'
  refine (ensures_enter_queue hseen).bind fun a w' _ ha => ensures_pure fun w'' hw'' hraced => ?_
  exact Nat.lt_of_le_of_lt hle (ha w'' hw'' hraced)

/-- Who has as many attempts left as the session has places comes in, or finds it full. -/
theorem ensures_retry_queue (appId : String) {j : Joiner} (left : Nat) {held : Option Meeting}
    {n : Nat} (hj : j.sessionId = q.sessionId) (hmode : j.mode = .mock ∨ q.mapping.kind = .real)
    (hn : n ≤ q.count u) (hleft : capacity ≤ n + left) :
    q.bylaw.discipline.Ensures i (j.retry appId left held) (fun _ _ => True) q.Full u := by
  -- Every attempt that was raced has somebody else come in.
  refine ensures_retry (I := fun left _ v => ∃ n, n ≤ q.count v ∧ capacity ≤ n + left)
    (fun left held v h => ?_) (fun held v w h hw => ?_) left ⟨n, hn, hleft⟩
  · obtain ⟨n, hn, hleft⟩ := h
    refine (ensures_attempt_queue hj hmode hn).mono (fun result w _ _ hlt => ?_)
      fun e w _ _ ⟨he, hfull⟩ w' hw' => ⟨he, hfull.trans (count_le_of_rests hw'.rests)⟩
    match result, hlt with
    | (.joined x added, held'), _ => exact fun _ _ _ _ _ => trivial
    | (.raced, held'), hlt =>
      refine fun w' hw' => ⟨n + 1, ?_, by omega⟩
      exact (hlt rfl).trans_le (count_le_of_rests hw'.rests)
  · obtain ⟨n, hn, hleft⟩ := h
    exact ⟨.inr ⟨_, rfl⟩, hleft.trans (hn.trans (count_le_of_rests hw.rests))⟩

/-- What is known of the outcome for somebody who queues: only a full session turns them away. -/
def Admits (q : Venue) (i : Nat) (_ : Job) (outcome : Outcome) (w : World) : Prop :=
  q.waits i → ∃ r, outcome = .joined r ∧ ∀ e, r = .error e → q.Full e w

/-- Every job suits the queue, be it one of the newcomers, who are admitted, or a bystander, of whom
nothing is asked. -/
theorem holds_job_queue (appId : String) {job : Job} (hjob : q.waits i → q.Suits job) :
    q.bylaw.discipline.Holds i (job.program appId) (q.Admits i job) u := by
  by_cases hi : q.waits i
  · cases job with
    | create mode => exact (hjob hi).elim
    | join mode s r =>
      obtain ⟨hs, ⟨userId, hvalid⟩, hmode⟩ := hjob hi
      have hjoin : q.bylaw.discipline.Ensures i (join appId mode s r) (fun _ _ => True) q.Full u := by
        rw [join_of_ok hvalid]
        exact ensures_retry_queue appId maxAttempts hs hmode (Nat.zero_le _) (Nat.le_refl _)
      refine holds_map (Holds.mono hjoin fun result v _ _ h _ => ⟨result, rfl, fun e he => ?_⟩)
      subst he
      exact h
  · exact Holds.mono (holds_bystander hi _) fun _ _ _ _ _ h => absurd h hi

end Venue

end VoiceRoom.Concurrency
