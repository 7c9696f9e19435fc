import VoiceRoom.Proofs.Concurrency.Answering
import VoiceRoom.Proofs.Conduct.Attempts
import VoiceRoom.Proofs.Conduct.Provider

/-!
# Degradation is told as it is

A join is told whether its session is in a mock meeting although a real one was wanted, and whether
its token stands in for a real one. Where the first is decided is told here (`Rated`): with the
meeting that was obtained, or by the mapping that counts and the record that it leads to. In every
run both are as they are told to be (`candid_of_run`).

The records of a run say of no session in a real meeting that it is degraded (`Session.Proper`), so
neither does a join that found one.
-/

namespace VoiceRoom

open Simulation (Entry)

namespace Conduct

/-- A code that permits everything. Of what abides by it, it is known only what it comes to. -/
def licence : Code where
  permits _ _ := True
  harmless _ := trivial

/-- In real mode a session in a mock meeting is degraded, and one in a real meeting is degraded only
if a record said so of a session in a real meeting. -/
structure Rated (mode : Mode) (told : List Entry) (x : Session) : Prop where
  mock : mode = .real → x.kind = .mock → x.degraded = true
  real : mode = .real → x.kind = .real → x.degraded = true →
    ∃ v y, Shown told (sessionKey x.meetingId) v ∧ Session.decode v.value = .ok y ∧
      y.kind = .real ∧ y.degraded = true

/-- In real mode, a meeting that was obtained is degraded exactly if it is a mock one. -/
def Fair (mode : Mode) (meeting : Meeting) : Prop :=
  mode = .real → (meeting.degraded = true ↔ meeting.kind = .mock)

section Rated

variable {mode : Mode} {told told' : List Entry} {x : Session}

theorem Rated.suffix (h : Rated mode told x) (hsuffix : told <:+ told') : Rated mode told' x where
  mock := h.mock
  real hmode hkind hdegraded := by
    obtain ⟨v, y, hshown, hy⟩ := h.real hmode hkind hdegraded
    exact ⟨v, y, hshown.suffix hsuffix, hy⟩

/-- A session in a fair meeting is rated rightly. -/
theorem rated_of_fair {meeting : Meeting} (h : Fair mode meeting) (hkind : x.kind = meeting.kind)
    (hdegraded : x.degraded = meeting.degraded) : Rated mode told x where
  mock hmode hmock := by
    rw [hdegraded, h hmode, ← hkind]
    exact hmock
  real hmode hreal hset := by
    rw [hdegraded, h hmode, ← hkind, hreal] at hset
    exact nomatch hset

/-- Members do not count. -/
theorem Rated.add (h : Rated mode told x) (m : Member) : Rated mode told (x.add m) := by
  rw [Session.add_eq]
  exact ⟨h.mock, h.real⟩

/-- A session that is taken to the meeting of a mapping that counts is degraded only if its record
said so, and then it was in a real meeting before. -/
theorem rated_fit {mapping : Mapping} {v : Versioned}
    (hcounts : mode = .real → mapping.kind = .real)
    (hshown : Shown told (sessionKey mapping.meetingId) v)
    (hdecode : Session.decode v.value = .ok x) : Rated mode told (x.fit mapping) where
  mock hmode hmock := nomatch hmock.symm.trans (hcounts hmode)
  real hmode _ hset := by
    have hreal := hcounts hmode
    have hboth : x.degraded = true ∧ x.kind = .real := by
      simpa [Session.fit, hreal] using hset
    exact ⟨v, x, hshown, hdecode, hboth.2, hboth.1⟩

end Rated

/-- A session that a join comes to is degraded as it should be, and so is the meeting that the join
holds on to. -/
structure Weighed (mode : Mode) (told : List Entry) (result : Attempt × Option Meeting) : Prop where
  held : ∀ meeting, result.2 = some meeting → Fair mode meeting
  joined : ∀ x added, result.1 = .joined x added → Rated mode told x

/-- A join is answered with a session that is degraded as it should be. -/
def Told (mode : Mode) (userId : String) (told : List Entry) (reply : JoinReply) : Prop :=
  ∃ x, Rated mode told x ∧ Replied mode x userId told reply

/-! ### Meetings -/

theorem fair_mock (s : String) : Fair .mock (mockMeeting s false) :=
  fun hmode => nomatch hmode

theorem fair_real (meetingId : String) : Fair .real ⟨meetingId, .real, false⟩ := by
  intro _
  simp

theorem fair_degraded (s : String) : Fair .real (mockMeeting s true) := by
  intro _
  simp [mockMeeting]

namespace Code

variable {told : List Entry} {C : List Entry → Prop} {j : Joiner}

/-- What is allocated is fair. -/
theorem abides_allocate_fair (mode : Mode) (s : String) :
    licence.Abides (allocate mode s) (fun meeting _ => Fair mode meeting) told := by
  refine abides_allocate (fun _ => trivial) (fun hmode _ _ => ?_) (fun hmode meetingId => ?_)
    fun hmode _ _ _ => ?_
  all_goals subst hmode
  · exact fair_mock s
  · exact fair_real meetingId
  · exact fair_degraded s

/-! ### Drafts -/

/-- A mapped session is rated rightly if its mapping counts. -/
theorem complies_openMapped_rated {mapping : Mapping}
    (hcounts : j.mode = .real → mapping.kind = .real) :
    licence.Complies (j.openMapped mapping) (fun d told' => Rated j.mode told' d.session) C
      told := by
  refine complies_openMapped (fun t told' _ _ => ?_) fun stored x told' hread hdecode => ?_
  · exact ⟨fun hmode hmock => (nomatch hmock.symm.trans (hcounts hmode)),
      fun _ _ hset => nomatch hset⟩
  · exact rated_fit hcounts (.read ((Hushed.suffix hread).subset List.mem_cons_self)) hdecode

/-- However a draft was made, it ends up degraded as its meeting is. -/
theorem rated_graded {mode : Mode} {d : Draft} {meeting : Meeting} (h : Fair mode meeting)
    (hkind : d.session.kind = meeting.kind) :
    Rated mode told (d.graded meeting.degraded).session := by
  unfold Draft.graded
  split
  · rename_i hsame
    exact rated_of_fair h hkind hsame
  · exact rated_of_fair h hkind rfl

/-- A session in a fair meeting is rated rightly. -/
theorem complies_openAllocated_rated {meeting : Meeting} (h : Fair j.mode meeting) :
    licence.Complies (j.openAllocated meeting) (fun d told' => Rated j.mode told' d.session) C
      told := by
  exact complies_openAllocated (fun _ _ _ _ => rated_of_fair h rfl rfl)
    (fun _ _ _ _ _ => rated_graded h rfl) fun _ _ _ _ _ _ _ _ => rated_of_fair h rfl rfl

/-- Entering a session does not change its rating. -/
theorem complies_enter_rated {d : Draft} (hd : Rated j.mode told d.session) :
    licence.Complies (j.enter d)
      (fun a told' => ∀ x added, a = .joined x added → Rated j.mode told' x) C told := by
  refine complies_enter (fun _ _ t _ => ?_)
    fun t _ => ⟨trivial, fun _ _ h => (nomatch h), fun n => ?_⟩
  · rintro x added ⟨⟩
    exact hd.suffix (List.suffix_cons _ told)
  · rintro x added ⟨⟩
    exact (hd.add ⟨j.userId, t, j.iconUrl⟩).suffix (List.suffix_append [_, _] told)

/-! ### Attempts -/

/-- Opening and entering a session leaves it rated rightly. -/
theorem complies_land_rated {x : Request Draft} {held : Option Meeting}
    (hheld : ∀ meeting, held = some meeting → Fair j.mode meeting)
    (h : licence.Complies x (fun d told' => Rated j.mode told' d.session) C told) :
    licence.Complies (do
        let draft ← x
        return (← j.enter draft, held))
      (fun result told' => Weighed j.mode told' result) C told :=
  Complies.bind (h.mono fun _ _ _ hd => Complies.bind ((complies_enter_rated hd).mono
    fun _ _ _ ha => complies_pure ⟨hheld, ha⟩))

/-- A fair meeting settles in a session that is rated rightly. -/
theorem complies_settle_rated {seen : Resolution} {meeting : Meeting} (h : Fair j.mode meeting) :
    licence.Complies (j.settle seen meeting) (fun result told' => Weighed j.mode told' result) C
      told := by
  have hheld : ∀ meeting', some meeting = some meeting' → Fair j.mode meeting' := by
    rintro _ ⟨⟩
    exact h
  have hland : ∀ t, licence.Complies (do
      let draft ← j.openAllocated meeting
      return (← j.enter draft, some meeting))
      (fun result told' => Weighed j.mode told' result) C t :=
    fun t => complies_land_rated hheld (complies_openAllocated_rated h)
  refine Complies.bind (complies_writeMapping (fun _ => trivial) (hland _) (fun n => hland _) ?_)
  exact complies_pure ⟨hheld, fun x added h => nomatch h⟩

/-- An attempt ends in a session that is rated rightly. -/
theorem complies_attempt_rated {held : Option Meeting}
    (hheld : ∀ meeting, held = some meeting → Fair j.mode meeting) :
    licence.Complies (j.attempt held) (fun result told' => Weighed j.mode told' result) C told := by
  refine abides_attempt (P := fun seen _ => ∃ stored, Resolution.read j.mode stored = seen)
    (fun f hf => complies_lookup fun stored told' _ => hf _ told' ⟨stored, rfl⟩) ?found ?held ?obtain
  case found =>
    rintro mapping version told' ⟨stored, hfound⟩
    obtain ⟨v, rfl, rfl, hcounts⟩ := Resolution.counts_of_found hfound
    refine complies_land_rated hheld (complies_openMapped_rated fun hmode => ?_)
    refine hcounts.resolve_left fun hmock => ?_
    rw [hmode] at hmock
    cases hmock
  case held =>
    rintro seen meeting told' rfl - -
    exact complies_settle_rated (hheld meeting rfl)
  case obtain =>
    rintro seen told' - - -
    exact (abides_allocate_fair j.mode j.sessionId).mono fun _ _ _ h => complies_settle_rated h

/-! ### Joins -/

/-- The loop ends with a reply that says what the task was told. -/
theorem complies_retry_told (appId : String) (left : Nat) {held : Option Meeting}
    (hheld : ∀ meeting, held = some meeting → Fair j.mode meeting) :
    licence.Complies (j.retry appId left held) (fun reply told' => Told j.mode j.userId told' reply)
      (fun _ => True) told := by
  refine abides_retry (I := fun _ held _ => ∀ meeting, held = some meeting → Fair j.mode meeting)
    (fun _ held told hheld => ?_) (fun _ _ _ => trivial) left hheld
  have hattempt : licence.Complies (j.attempt held)
      (fun result told' => Weighed j.mode told' result) (fun _ => True) told :=
    complies_attempt_rated hheld
  refine Abides.mono hattempt fun result told' _ hr => ?_
  match result, hr with
  | .error e, _ => cases e <;> trivial
  | .ok (.raced, held'), hr => exact fun _ => hr.held
  | .ok (.joined x added, held'), hr =>
    refine Abides.mono (abides_finish fun _ _ _ _ => trivial) fun reply told'' hsuffix hreplied => ?_
    exact ⟨x, (hr.joined x added rfl).suffix hsuffix, hreplied⟩

/-- A join replies what it was told, about the user it was asked to let in, in every run and over
any store. -/
theorem complies_join_told (appId : String) (mode : Mode) (s : String) (r : JoinRequest) :
    licence.Complies (join appId mode s r)
      (fun reply told => ∃ userId, r.validate = .ok userId ∧ Told mode userId told reply)
      (fun _ => True) [] := by
  unfold join
  cases hvalid : r.validate with
  | error fault => exact complies_count fun _ _ => complies_throw fun _ _ => trivial
  | ok userId =>
    have hnone : ∀ meeting, (none : Option Meeting) = some meeting → Fair mode meeting :=
      fun _ h => nomatch h
    exact Complies.mono
      (complies_retry_told (j := ⟨mode, s, userId, r.iconUrl⟩) appId maxAttempts hnone)
      fun reply told _ htold => ⟨userId, rfl, htold⟩

end Code

end Conduct

namespace Concurrency

open Conduct

variable {appId : String} {σ : System} {i : Nat} {mode : Mode} {s : String} {r : JoinRequest}

/-! ### What was said of tokens -/

/-- The answers of the provider to whoever asked for a token: for a user, in a meeting. -/
def tokenAnswers (told : List Entry) : List (String × String × Except ProviderError String) :=
  told.filterMap fun
    | ⟨.createParticipant meetingId userId, answer⟩ => some (meetingId, userId, answer)
    | _ => none

/-- There is one answer for every token that was asked for. -/
theorem length_tokenAnswers (told : List Entry) :
    (tokenAnswers told).length = told.countP asksToken := by
  induction told with
  | nil => rfl
  | cons e told ih =>
    obtain ⟨c, answer⟩ := e
    cases c with
    | createParticipant meetingId userId =>
      rw [List.countP_cons_of_pos rfl, ← ih]
      rfl
    | _ =>
      rw [List.countP_cons_of_neg (by exact Bool.false_ne_true), ← ih]
      rfl

/-- Who asked once was answered once. -/
theorem tokenAnswers_eq {told : List Entry} (honce : told.countP asksToken ≤ 1)
    {meetingId userId : String} {answer : Except ProviderError String}
    (h : ⟨.createParticipant meetingId userId, answer⟩ ∈ told) :
    tokenAnswers told = [(meetingId, userId, answer)] := by
  have hmem : (meetingId, userId, answer) ∈ tokenAnswers told := List.mem_filterMap.2 ⟨_, h, rfl⟩
  rw [← length_tokenAnswers] at honce
  obtain ⟨a, ha⟩ := List.length_eq_one_iff.1 (Nat.le_antisymm honce (List.length_pos_of_mem hmem))
  rw [ha, List.mem_singleton] at hmem
  rw [ha, hmem]

/-! ### What a join is told -/

/-- What a join is told is so: of its session, that it is in a mock meeting although a real one was
wanted, and of its token, that it stands in for a real one. -/
structure Candid (mode : Mode) (userId : String) (told : List Entry) (x : Session)
    (c : Credentials) : Prop where
  meeting : c.meetingId = x.meetingId
  mock : mode = .mock → c.token = mockToken ∧ c.degraded = false
  session : mode = .real → (x.degraded = true ↔ x.kind = .mock)
  unavailable : mode = .real → x.kind = .mock → c.token = mockToken ∧ c.degraded = true
  /-- In a real meeting the provider was asked once, and what it said decides. -/
  asked : mode = .real → x.kind = .real → ∃ answer,
    tokenAnswers told = [(x.meetingId, userId, answer)] ∧
    (∀ token, answer = .ok token → c.token = token ∧ c.degraded = false) ∧
    (∀ e, answer = .error e → c.token = mockToken ∧ c.degraded = true)

/-- A session in a real meeting that was shown to a task is not degraded. -/
theorem genuine_of_shown {past : List Act} (hkept : Kept past) (hfresh : FreshGrants past)
    {k : String} {v : Versioned} {y : Session} (hshown : Shown (own i past) (sessionKey k) v)
    (hdecode : Session.decode v.value = .ok y) (hkind : y.kind = .real) : y.degraded = false := by
  obtain ⟨p, hp, hlookup⟩ := hshown.exists_lookup hkept
  have hhoused := (hkept.sound p hp).housed_of_decode (hfresh.of_suffix hp) hlookup hdecode
  exact hhoused.proper.genuine hkind

/-- With fresh grants a session is degraded in case its meeting is a mock one. -/
theorem degraded_iff_of_rated {past : List Act} (hkept : Kept past) (hfresh : FreshGrants past)
    {x : Session} (h : Rated mode (own i past) x) (hmode : mode = .real) :
    x.degraded = true ↔ x.kind = .mock := by
  refine ⟨fun hset => ?_, h.mock hmode⟩
  cases hkind : x.kind with
  | mock => rfl
  | real =>
    obtain ⟨v, y, hshown, hdecode, hreal, hdegraded⟩ := h.real hmode hkind hset
    rw [genuine_of_shown hkept hfresh hshown hdecode hreal] at hdegraded
    exact nomatch hdegraded

/-- Credentials with a warrant are candid. -/
theorem candid_of_warranted {userId : String} {told : List Entry} {x : Session} {c : Credentials}
    (honce : told.countP asksToken ≤ 1) (hmeeting : c.meetingId = x.meetingId)
    (hsession : mode = .real → (x.degraded = true ↔ x.kind = .mock))
    (h : Warranted mode x userId told c.token c.degraded) : Candid mode userId told x c := by
  obtain ⟨meetingId, token, appId, degraded⟩ := c
  dsimp only at h
  -- One warrant for each way to come to a token or to none; the other clauses speak of the others.
  cases h with
  | skipped hmock =>
    exact ⟨hmeeting, fun _ => ⟨rfl, rfl⟩, hsession,
      fun hmode => (nomatch hmode.symm.trans hmock), fun hmode => nomatch hmode.symm.trans hmock⟩
  | unavailable hreal hmock =>
    exact ⟨hmeeting, fun hmode => (nomatch hmode.symm.trans hreal), hsession, fun _ _ => ⟨rfl, rfl⟩,
      fun _ hkind => nomatch hkind.symm.trans hmock⟩
  | given hreal hkind hasked =>
    exact ⟨hmeeting, fun hmode => (nomatch hmode.symm.trans hreal), hsession,
      fun _ hmock => (nomatch hmock.symm.trans hkind), fun _ _ => ⟨_, tokenAnswers_eq honce hasked,
        fun _ h => ⟨Except.ok.inj h, rfl⟩, fun _ h => nomatch h⟩⟩
  | refused hreal hkind hasked =>
    exact ⟨hmeeting, fun hmode => (nomatch hmode.symm.trans hreal), hsession,
      fun _ hmock => (nomatch hmock.symm.trans hkind), fun _ _ => ⟨_, tokenAnswers_eq honce hasked,
        fun _ h => (nomatch h), fun _ _ => ⟨rfl, rfl⟩⟩⟩

/-- What a join was answered with, its own calls account for. -/
theorem told_of_run (hrun : Run appId {} σ) {reply : JoinReply}
    (hfinished : σ.Finished i (.join mode s r) (.joined (.ok reply))) :
    ∃ userId, r.validate = .ok userId ∧ Told mode userId (own i σ.past) reply := by
  have hcame := (underway_of_run hrun).task i _ hfinished
  have hjoin : licence.Abides ((Job.join mode s r).program appId)
      (fun outcome told => ∀ reply, outcome = .joined (.ok reply) →
        ∃ userId, r.validate = .ok userId ∧ Told mode userId told reply) [] := by
    refine Code.Abides.map (Code.Abides.mono (Code.complies_join_told appId mode s r)
      fun result told _ hr reply h => ?_)
    obtain rfl := Outcome.joined.inj h
    exact hr
  exact (hjoin.came hcame).2 reply rfl

/-- In every run, whoever joins is told what is so. -/
theorem candid_of_run (hrun : Run appId {} σ) (hfresh : FreshGrants σ.past) {reply : JoinReply}
    (hfinished : σ.Finished i (.join mode s r) (.joined (.ok reply))) :
    ∃ userId c, r.validate = .ok userId ∧ reply.realtime = some c ∧
      Candid mode userId (own i σ.past) reply.session c := by
  obtain ⟨userId, hvalid, x, hrated, hreplied⟩ := told_of_run hrun hfinished
  obtain ⟨c, hc, hmeeting, hwarranted⟩ := hreplied.credentials
  obtain rfl := hreplied.session
  refine ⟨userId, c, hvalid, hc, ?_⟩
  have honce := countP_asksToken (obeyed_of_run hrun hfinished)
  exact candid_of_warranted honce hmeeting
    (degraded_iff_of_rated (kept_of_run hrun) hfresh hrated) hwarranted

/-- So is the user who came in with the third attempt. -/
theorem candid_afterRace :
    FreshGrants afterRace.past ∧
      afterRace.Finished 1 (.join .real "s" ⟨some "v", none⟩)
        (.joined (.ok (replyWith sessionOfTwo))) ∧
      ∃ userId c, JoinRequest.validate ⟨some "v", none⟩ = .ok userId ∧
        (replyWith sessionOfTwo).realtime = some c ∧
        Candid .real userId (own 1 afterRace.past) sessionOfTwo c :=
  ⟨freshGrants_afterRace, finished_afterRace.2,
    candid_of_run run_afterRace freshGrants_afterRace finished_afterRace.2⟩

end Concurrency

end VoiceRoom
