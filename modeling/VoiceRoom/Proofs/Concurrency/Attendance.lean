import VoiceRoom.Proofs.Concurrency.Roll

/-!
# Every member is accounted for

Whatever happens, requests keep the roll (`exactlyOnce_of_run`).

Two things carry this. A join that goes on has written no session, and if it wrote the mapping then
the mapping leads to the meeting that it holds, so that it has nothing to write there again
(`Pursuing`). And a draft has the members of the record whose version it carries (`Faithful`), so
that writing it appends one member at most.
-/

namespace VoiceRoom.Concurrency

open Discipline

variable {i : Nat} {u v w : World} {s : String}

/-! ### Drafts -/

/-- A draft has the members of the record whose version it carries, none if it carries no
version. -/
structure Faithful (w : World) (d : Draft) : Prop where
  timed : d.session.Timed
  fresh : d.version = none → d.session.users = []
  base : ∀ version, d.version = some version →
    ∃ stored x, w.store.Saw (sessionKey d.session.meetingId) stored ∧ stored.version = version ∧
      Session.decode stored.value = .ok x ∧ x.users = d.session.users

namespace Faithful

variable {d : Draft}

theorem grows (h : Faithful v d) (hle : Grows v w) : Faithful w d :=
  { h with
    base := fun version hversion => by
      obtain ⟨stored, x, hsaw, hx⟩ := h.base version hversion
      exact ⟨stored, x, hsaw.advance hle.store, hx⟩ }

/-- If the record has the version of the draft, it has the draft's members. -/
theorem rosterAt_eq (h : Faithful w d)
    (hversion : (w.store.lookup (sessionKey d.session.meetingId)).map Versioned.version =
      d.version) : rosterAt w.store d.session.meetingId = d.session.users := by
  cases hd : d.version with
  | none =>
    rw [hd, Option.map_eq_none_iff] at hversion
    rw [rosterAt_of_lookup_eq_none hversion, h.fresh hd]
  | some version =>
    obtain ⟨stored, x, hsaw, rfl, hx, husers⟩ := h.base version hd
    rw [hd] at hversion
    rw [rosterAt_of_sessionAt (Memory.sessionAt_of_lookup (hsaw.lookup_eq hversion) hx), husers]

theorem graded (h : Faithful w d) (degraded : Bool) : Faithful w (d.graded degraded) := by
  unfold Draft.graded
  split
  · exact h
  · exact ⟨⟨h.timed.created, h.timed.joined⟩, h.fresh, h.base⟩

end Faithful

/-- A new session is faithful to a meeting without a record. -/
theorem faithful_new (w : World) (s : String) (m : Meeting) {t : Int} (ht : fitsInt64 t) :
    Faithful w ⟨Session.new s m t, none, true⟩ where
  timed := ⟨ht, fun _ h => nomatch h⟩
  fresh _ := rfl
  base _ h := nomatch h

/-- A session that was read is drafted with the members that it has. -/
theorem faithful_fit {mapping : Mapping} {stored : Versioned} {x : Session} {dirty : Bool}
    (hv : Sound v) (hfresh : FreshGrants v.past)
    (hlookup : v.store.lookup (sessionKey mapping.meetingId) = some stored)
    (hdecode : Session.decode stored.value = .ok x) :
    Faithful v ⟨x.fit mapping, some stored.version, dirty⟩ := by
  have hhoused := hv.housed_of_decode hfresh hlookup hdecode
  refine ⟨⟨hhoused.proper.timed.created, hhoused.proper.timed.joined⟩, fun h => (nomatch h),
    fun version hversion => ?_⟩
  obtain rfl := Option.some.inj hversion
  exact ⟨stored, x, Memory.saw_of_lookup hlookup, rfl, hdecode, rfl⟩

/-- What is known of a request that ends in an error: it has written no session. -/
def unseated (i : Nat) (_ : ServiceError) (w : World) : Prop :=
  tally seats i w.past = 0

/-- Who is at rest seats nobody. -/
theorem unseated_of_rests {D : Discipline} (h : tally seats i u.past = 0) (hle : D.Rests i u v) :
    tally seats i v.past = 0 :=
  (tally_of_rests effective_seats hle).trans h

/-- Opening a session seats nobody, and the draft is faithful to the record. -/
theorem ensures_openMapped_attendance {j : Joiner} {mapping : Mapping}
    (hunseated : tally seats i u.past = 0) :
    attendance.discipline.Ensures i (j.openMapped mapping)
      (fun d v => attendance.discipline.Rests i u v ∧ Faithful v d) (unseated i) u := by
  refine ensures_openMapped (fun v w t hv _ hreads ht => ?_)
    (fun v w stored x hv hlookup hdecode hreads => ?_) (fun v w stored fault hv _ _ hreads => ?_)
    fun w hfails => unseated_of_rests hunseated hfails.rests
  · exact ⟨hv.rests.trans hreads.rests, faithful_new w _ _ ht⟩
  · refine ⟨hv.rests.trans hreads.rests, Faithful.grows ?_ hreads.le⟩
    exact faithful_fit (hv.inv.sound hv.assumes) hv.assumes.fresh hlookup hdecode
  · exact unseated_of_rests hunseated (hv.rests.trans hreads.rests)

/-- The same in a meeting that was obtained: a session of another id would not be housed there. -/
theorem ensures_openAllocated_attendance {j : Joiner} {m : Meeting}
    (hgiven : Given u.past j.sessionId (.ofMeeting m)) (hunseated : tally seats i u.past = 0) :
    attendance.discipline.Ensures i (j.openAllocated m)
      (fun d v => attendance.discipline.Rests i u v ∧ Faithful v d) (unseated i) u := by
  refine ensures_openAllocated (fun v w t hv _ hreads ht => ?_)
    (fun v w stored x hv hlookup hdecode _ hreads => ?_)
    (fun v w stored x t hv hlookup hdecode hforeign hreads ht => ?_)
    (fun v w stored fault hv _ _ hreads => ?_)
    fun w hfails => unseated_of_rests hunseated hfails.rests
  · exact ⟨hv.rests.trans hreads.rests, faithful_new w _ _ ht⟩
  · refine ⟨hv.rests.trans hreads.rests, Faithful.grows (Faithful.graded ?_ m.degraded) hreads.le⟩
    exact faithful_fit (hv.inv.sound hv.assumes) hv.assumes.fresh hlookup hdecode
  -- In a meeting that was given for the session id there is no other session.
  · have hhoused := (hv.inv.sound hv.assumes).housed_of_decode hv.assumes.fresh hlookup hdecode
    have hgiven' := hgiven.of_suffix (Grows.past hv.le)
    exact absurd (hhoused.fit_eq hv.assumes.fresh hgiven' rfl).1 hforeign
  · exact unseated_of_rests hunseated (hv.rests.trans hreads.rests)

/-! ### A join that goes on -/

/-- A join brings the user that it joins as. -/
def Brings (past : List Act) (i : Nat) (j : Joiner) : Prop :=
  ∀ joinedAt, Brought past i ⟨j.userId, joinedAt, j.iconUrl⟩

theorem Brings.of_suffix {past past' : List Act} {j : Joiner} (h : Brings past i j)
    (hsuffix : past <:+ past') : Brings past' i j :=
  fun t => (h t).of_suffix hsuffix

/-- A join that has written no session. If it wrote the mapping, the mapping leads to the meeting
that it holds, or did until a real one took its place. -/
structure Pursuing (i : Nat) (j : Joiner) (held : Option Meeting) (w : World) : Prop where
  brings : Brings w.past i j
  unseated : tally seats i w.past = 0
  mapped : tally maps i w.past = 0 ∨
    ∃ m, held = some m ∧ Leads w.store j.sessionId (.ofMeeting m)
  given : ∀ m, held = some m → Given w.past j.sessionId (.ofMeeting m)

variable {j : Joiner} {held : Option Meeting}

theorem Pursuing.rests (h : Pursuing i j held u) (hle : attendance.discipline.Rests i u v) :
    Pursuing i j held v where
  brings := h.brings.of_suffix (Grows.past hle.le)
  unseated := unseated_of_rests h.unseated hle
  mapped := by
    rw [tally_of_rests effective_maps hle]
    refine h.mapped.imp_right fun ⟨m, hm, hleads⟩ => ⟨m, hm, ?_⟩
    exact hleads.moved (Grows.mapping hle.le j.sessionId)
  given m hm := (h.given m hm).of_suffix (Grows.past hle.le)

/-- Where a session id leads or did lead, a mapping is found, or that one is and is stale. -/
theorem read_of_leads {mapping : Mapping} (mode : Mode) (h : Leads v.store s mapping) :
    (∃ found version,
      Resolution.read mode (v.store.lookup (mappingKey s)) = .found found version) ∨
    ∃ version, Resolution.read mode (v.store.lookup (mappingKey s)) = .stale mapping version := by
  rcases h with hat | ⟨-, meetingId, hreal⟩
  · obtain ⟨stored, hlookup, rfl⟩ := Memory.lookup_of_mappingAt hat
    rw [hlookup]
    rcases Resolution.ofStored_cases mode stored with ⟨-, heq⟩ | ⟨-, heq⟩
    · exact .inl ⟨_, _, heq⟩
    · exact .inr ⟨_, heq⟩
  · obtain ⟨stored, hlookup, hdecode⟩ := Memory.lookup_of_mappingAt hreal
    rw [hlookup]
    exact .inl ⟨_, _, Resolution.ofStored_eq_found_iff.2 ⟨hdecode, rfl, .inr rfl⟩⟩

theorem ensures_writeMapping_attendance {seen : Resolution} {m : Meeting}
    (hpursuing : Pursuing i j (some m) u)
    (hseen : tally maps i u.past = 0 ∨ ∃ version, seen = .stale (.ofMeeting m) version) :
    attendance.discipline.Ensures i (j.writeMapping seen m)
      (fun _ v => Pursuing i j (some m) v) (unseated i) u := by
  refine ensures_writeMapping (fun w _ _ hw => hpursuing.rests hw.rests)
    (fun hother v hv _ => ?_)
    (fun v v' w hv _ hturn hw =>
      hpursuing.rests ((hv.rests.trans (hturn.rests id)).trans hw.rests))
    fun w hfails => unseated_of_rests hpursuing.unseated hfails.rests
  intro v' hassumes
  -- The task wrote no mapping before: the only one that it could have written says the same, and is
  -- not written again.
  have hnew : tally maps i v.past = 0 :=
    (tally_of_rests effective_maps hv.rests).trans
      (hseen.resolve_right fun ⟨version, hstale⟩ => hother version hstale)
  obtain ⟨hinv, hgrows⟩ := attended_written_mapping hv.inv hassumes hnew
  -- From now on the id leads to the meeting that is held.
  have hafter : Pursuing i j (some m) v' := by
    have hbefore := hpursuing.rests hv.rests
    refine ⟨hbefore.brings.of_suffix hgrows.past, unseated_written_mapping _ _ _ hbefore.unseated,
      .inr ⟨m, rfl, .inl ?_⟩, fun m' hm' => (hbefore.given m' hm').of_suffix hgrows.past⟩
    exact (Memory.mappingAt_insert_encode ..).trans (if_pos rfl)
  exact ⟨hinv, hgrows, fun w hw => hafter.rests hw.rests⟩

/-! ### Entering -/

/-- What a join that entered a session did: it appended its user if it says so, by writing the
session. -/
structure Entered (i : Nat) (x : Session) (added : Bool) (w : World) : Prop where
  appended : added = true ↔ i ∈ appenders x.meetingId w.past
  wrote : added = true → ∃ expected version,
    ⟨.putIf (sessionKey x.meetingId) x.encode expected, .ok (.written version)⟩ ∈ own i w.past

theorem Entered.rests {x : Session} {added : Bool} (h : Entered i x added u)
    (hle : attendance.discipline.Rests i u v) : Entered i x added v where
  appended := h.appended.trans (mem_appenders_of_rests hle (Grows.past hle.le)).symm
  wrote hadded := by
    obtain ⟨expected, version, hmem⟩ := h.wrote hadded
    exact ⟨expected, version, mem_own_of_rests hle hmem⟩

/-- A draft may be written with the user who joins. -/
theorem Faithful.entered {d : Draft} {t : Int} (h : Faithful v d) (hpursuing : Pursuing i j held v)
    (ht : fitsInt64 t) (hv : attendance.Inv v) :
    let x := d.session.add ⟨j.userId, t, j.iconUrl⟩
    (v.store.lookup (sessionKey x.meetingId)).map Versioned.version = d.version →
    let v' := v.written i (sessionKey x.meetingId) x.encode d.version
    attendance.Assumes v'.past →
      attendance.Inv v' ∧ Grows v v' ∧ Entered i x (!d.session.hasMember j.userId) v' := by
  intro x hversion v' hassumes
  have hmeeting : x.meetingId = d.session.meetingId := (Session.continues_add _ _).meetingId
  -- The record is still at the version of the draft, so the roster is that of the draft.
  have hbefore : rosterAt v.store x.meetingId = d.session.users := by
    rw [hmeeting] at hversion ⊢
    exact h.rosterAt_eq hversion
  have htimed : x.Timed := h.timed.add ht
  have husers : x.users = if d.session.hasMember j.userId then d.session.users
      else d.session.users ++ [⟨j.userId, t, j.iconUrl⟩] :=
    congrArg Session.users (Session.add_eq d.session ⟨j.userId, t, j.iconUrl⟩)
  -- It stays as it is, or gets longer by the user whom this task brings.
  have hroster : x.users = rosterAt v.store x.meetingId ∨
      ∃ m, Brought v.past i m ∧ x.users = rosterAt v.store x.meetingId ++ [m] := by
    rw [hbefore, husers]
    split
    · exact .inl rfl
    · exact .inr ⟨_, hpursuing.brings t, rfl⟩
  obtain ⟨hinv, hgrows⟩ := attended_written_session hv hassumes hpursuing.unseated htimed hroster
  refine ⟨hinv, hgrows, ?_, fun _ => ⟨d.version, v.store.nextVersion (sessionKey x.meetingId), ?_⟩⟩
  · rw [appenders_written hv hassumes htimed, hbefore, husers]
    cases d.session.hasMember j.userId with
    | true => simpa using not_mem_appenders hpursuing.unseated
    | false => simp
  · exact (own_answer_self i _ v.past).symm ▸ List.mem_cons_self

/-- What came of an attempt: the join goes on, or it entered a session. -/
structure Tried (i : Nat) (j : Joiner) (r : Attempt × Option Meeting) (w : World) : Prop where
  raced : r.1 = .raced → Pursuing i j r.2 w
  joined : ∀ x added, r.1 = .joined x added → Entered i x added w

/-- An attempt that was raced leaves the task pursuing. -/
theorem Pursuing.tried (h : Pursuing i j held w) : Tried i j (.raced, held) w :=
  ⟨fun _ => h, fun _ _ hjoined => nomatch hjoined⟩

/-- An attempt that came in has entered. -/
theorem Entered.tried {x : Session} {added : Bool} (h : Entered i x added w) :
    Tried i j (.joined x added, held) w :=
  ⟨fun hraced => (nomatch hraced), fun _ _ hjoined => by cases hjoined; exact h⟩

/-- Who seats nobody has entered a session in which its user was already. -/
theorem entered_of_unseated (h : tally seats i w.past = 0) (x : Session) : Entered i x false w where
  appended := iff_of_false Bool.false_ne_true (not_mem_appenders h)
  wrote hadded := nomatch hadded

/-- Entering with a draft ends an attempt. -/
theorem ensures_enter_attendance {d : Draft} (hpursuing : Pursuing i j held u)
    (hd : Faithful u d) :
    attendance.discipline.Ensures i (do return (← j.enter d, held)) (Tried i j) (unseated i) u := by
  refine ensures_bind (ensures_enter (fun _ w hw => unseated_of_rests hpursuing.unseated hw.rests)
    (fun _ _ _ w hw => ensures_pure fun w' hw' => ?_)
    (fun _ _ v t hv ht hversion hassumes => ?_)
    (fun _ v v' w t hv hversion hturn hw => ensures_pure fun w' hw' => ?_)
    fun v w hv hfails => unseated_of_rests hpursuing.unseated (hv.rests.trans hfails.rests))
  -- Nothing was to be written, and nobody was added.
  · have hunseated := unseated_of_rests hpursuing.unseated (hw.rests.trans hw'.rests)
    exact (entered_of_unseated hunseated d.session).tried
  · obtain ⟨hinv, hgrows, hentered⟩ :=
      (hd.grows hv.le).entered (hpursuing.rests hv.rests) ht hv.inv hversion hassumes
    refine ⟨hinv, hgrows, fun w hw => ensures_pure fun w' hw' => ?_⟩
    exact (hentered.rests (hw.rests.trans hw'.rests)).tried
  · have hrests := (hv.rests.trans (hturn.rests id)).trans (hw.rests.trans hw'.rests)
    exact (hpursuing.rests hrests).tried

/-! ### A join as a whole -/

/-- Obtaining a meeting writes nothing. -/
theorem holds_allocate_attendance (mode : Mode) (s : String) :
    attendance.discipline.Holds i (allocate mode s)
      (fun m v => attendance.discipline.Rests i u v ∧ Held v s m) u := by
  have hrests : attendance.discipline.Holds i (allocate mode s)
      (fun _ v => attendance.discipline.Rests i u v) u :=
    holds_allocate (fun _ _ hv => hv.rests)
      (fun _ _ _ _ _ hv hturn hw => (hv.rests.trans (hturn.rests id)).trans hw.rests)
      fun _ _ _ _ _ hv hturn hw => (hv.rests.trans (hturn.rests id)).trans hw.rests
  exact (Bylaw.holds_and (holds_allocate_ledger mode s) hrests).mono
    fun m v _ _ h => ⟨h.2, h.1.2⟩

/-- A join that holds no meeting has written no mapping, and holds on to the first one it gets. -/
theorem Pursuing.allocated {m : Meeting} (h : Pursuing i j none w) (hm : Held w j.sessionId m) :
    tally maps i w.past = 0 ∧ Pursuing i j (some m) w := by
  have hnew : tally maps i w.past = 0 := h.mapped.resolve_right fun ⟨_, hheld, _⟩ => nomatch hheld
  refine ⟨hnew, h.brings, h.unseated, .inl hnew, fun m' hm' => ?_⟩
  obtain rfl := Option.some.inj hm'
  exact hm.given

/-- An attempt goes on with a meeting where no mapping that counts was found. -/
theorem ensures_settle_attendance {seen : Resolution} {m : Meeting}
    (hpursuing : Pursuing i j (some m) u)
    (hseen : tally maps i u.past = 0 ∨ ∃ version, seen = .stale (.ofMeeting m) version) :
    attendance.discipline.Ensures i (j.settle seen m) (Tried i j) (unseated i) u := by
  refine (ensures_writeMapping_attendance hpursuing hseen).bind fun written v hv h => ?_
  have hpursuing' := h v hv
  cases written with
  | false => exact ensures_pure fun w hw => (hpursuing'.rests hw.rests).tried
  | true =>
    have hopen := ensures_openAllocated_attendance (hpursuing'.given m rfl) hpursuing'.unseated
    refine hopen.bind fun d w hw h' => ?_
    obtain ⟨hrests, hd⟩ := h' w hw
    exact ensures_enter_attendance (hpursuing'.rests hrests) hd

/-- A join that wrote the mapping finds it there still, or finds one that counts. -/
theorem Pursuing.seen {seen : Resolution} (h : Pursuing i j held v) (mode : Mode)
    (hseen : Resolution.read mode (v.store.lookup (mappingKey j.sessionId)) = seen)
    (hfound : ∀ mapping version, seen ≠ .found mapping version) :
    tally maps i v.past = 0 ∨
      ∃ m, held = some m ∧ ∃ version, seen = .stale (.ofMeeting m) version := by
  refine h.mapped.imp_right fun ⟨m, hm, hleads⟩ => ⟨m, hm, ?_⟩
  rcases read_of_leads mode hleads with ⟨mapping, version, hread⟩ | ⟨version, hread⟩
  · exact absurd (hseen.symm.trans hread) (hfound mapping version)
  · exact ⟨version, hseen.symm.trans hread⟩

theorem ensures_attempt_attendance (hpursuing : Pursuing i j held u) :
    attendance.discipline.Ensures i (j.attempt held) (Tried i j) (unseated i) u := by
  refine ensures_attempt (fun v w mapping version hv hreads _ => ?_)
    (fun v w seen m hv hreads hread hfound hm => ?_) (fun v w seen hv hreads _ _ hnone => ?_)
    fun w hfails => unseated_of_rests hpursuing.unseated hfails.rests
  -- The mapping counts.
  · have hw := hpursuing.rests (hv.rests.trans hreads.rests)
    refine (ensures_openMapped_attendance hw.unseated).bind fun d v' hv' h => ?_
    obtain ⟨hrests, hd⟩ := h v' hv'
    exact ensures_enter_attendance (hw.rests hrests) hd
  -- A meeting is held from an earlier attempt, and its mapping may have been written then.
  · subst hm
    have hseen := (hpursuing.rests hv.rests).seen j.mode hread hfound
    rw [← tally_of_rests effective_maps hreads.rests] at hseen
    refine ensures_settle_attendance (hpursuing.rests (hv.rests.trans hreads.rests)) ?_
    refine hseen.imp_right fun ⟨m', hm', hstale⟩ => ?_
    obtain rfl := Option.some.inj hm'
    exact hstale
  -- A meeting is obtained, and no mapping was written yet.
  · subst hnone
    have hw := hpursuing.rests (hv.rests.trans hreads.rests)
    refine (holds_allocate_attendance j.mode j.sessionId).lift fun m w' hw' h => ?_
    obtain ⟨hrests, hm⟩ := h w' hw'
    obtain ⟨hnew, hheld⟩ := (hw.rests hrests).allocated hm
    exact ensures_settle_attendance hheld (.inl hnew)

/-- What a join that was answered did: it says whether it appended its user, and did what it
says. -/
structure Reported (i : Nat) (s userId : String) (reply : JoinReply) (w : World) : Prop where
  report : ∃ added,
    ⟨.note (.joined s userId reply.session.users.length added), ()⟩ ∈ own i w.past ∧
      Entered i reply.session added w

/-- Whoever comes in after any number of attempts has reported so, and has written a session once at
most. -/
theorem ensures_retry_attendance (appId : String) (left : Nat) (hpursuing : Pursuing i j held u) :
    attendance.discipline.Ensures i (j.retry appId left held)
      (Reported i j.sessionId j.userId) (unseated i) u := by
  -- A raced attempt leaves the join as it was before: it goes on.
  refine ensures_retry (I := fun _ held v => Pursuing i j held v) (fun left held v h => ?_)
    (fun held v w h hw => unseated_of_rests h.unseated hw.rests) left hpursuing
  refine (ensures_attempt_attendance h).mono (fun result w _ _ htried => ?_)
    fun e w _ _ hunseated w' hw' => unseated_of_rests hunseated hw'.rests
  match result, htried with
  | (.joined x added, held'), htried =>
    rintro reply w' rfl hw' hnote
    exact ⟨added, hnote, (htried.joined _ added rfl).rests hw'.rests⟩
  | (.raced, held'), htried => exact fun w' hw' => (htried.raced rfl).rests hw'.rests

/-- The same of a join from its start. -/
theorem ensures_join_attendance (appId : String) {mode : Mode} {r : JoinRequest}
    (hjob : (jobs u.past)[i]? = some (.join mode s r)) (hown : own i u.past = []) :
    attendance.discipline.Ensures i (join appId mode s r)
      (fun reply v => ∃ userId, r.validate = .ok userId ∧ Reported i s userId reply v)
      (unseated i) u := by
  have hunseated : tally seats i u.past = 0 := tally_of_own_eq_nil hown
  unfold join
  cases hvalid : r.validate with
  | error fault =>
    refine ensures_count fun v hv => ensures_throw fun w hw => ?_
    exact unseated_of_rests hunseated (hv.rests.trans hw.rests)
  | ok userId =>
    have hpursuing : Pursuing i ⟨mode, s, userId, r.iconUrl⟩ none u :=
      ⟨fun _ => ⟨mode, s, r, hjob, hvalid, rfl⟩, hunseated, .inl (tally_of_own_eq_nil hown),
        fun _ h => nomatch h⟩
    exact Ensures.mono (ensures_retry_attendance appId maxAttempts hpursuing)
      (fun _ _ _ _ h => ⟨userId, rfl, h⟩) fun _ _ _ _ h => h

/-! ### A creation -/

/-- A record is written for the first time, or the request gives up and has written nothing. -/
theorem ensures_putNew_attendance {α : Type} {key value : String} {f : PutOutcome → Request α}
    {event : Event} {e : ServiceError} {Q : α → World → Prop}
    (hconflict : f .conflict = do Request.note event; throw e) (hunseated : tally seats i u.past = 0)
    (hwritten : ∀ v, attendance.discipline.Later i u v → v.store.lookup key = none →
      attendance.Assumes (v.written i key value none).past →
      (attendance.Inv (v.written i key value none) ∧ Grows v (v.written i key value none)) ∧
        attendance.discipline.Ensures i (f (.written (v.store.nextVersion key))) Q (unseated i)
          (v.written i key value none)) :
    attendance.discipline.Ensures i (Request.putIf key value none >>= f) Q (unseated i) u := by
  refine ensures_putIf (fun v hv hversion hassumes => ?_) (fun v v' hv _ hturn => ?_)
    fun v w hv _ hw => unseated_of_rests hunseated (hv.rests.trans hw)
  · obtain ⟨⟨hinv, hgrows⟩, hrest⟩ := hwritten v hv (Option.map_eq_none_iff.1 hversion) hassumes
    exact ⟨hinv, hgrows, hrest⟩
  · rw [hconflict]
    have hrests : attendance.discipline.Rests i u v' := hv.rests.trans (hturn.rests id)
    exact ensures_note fun w hw => ensures_throw fun w' hw' =>
      unseated_of_rests hunseated (hrests.trans (hw.rests.trans hw'.rests))

/-- A create seats nobody. -/
theorem ensures_create_attendance (mode : Mode) (hown : own i u.past = []) :
    attendance.discipline.Ensures i (create mode) (fun _ _ => True) (unseated i) u := by
  have hunseated : tally seats i u.past = 0 := tally_of_own_eq_nil hown
  unfold create
  refine ensures_lift (holds_ask_idle trivial fun v hv s => holds_done fun v' hv' => ?_)
  refine (holds_allocate_attendance mode s).lift fun m w hw h => ?_
  obtain ⟨hrests, -⟩ := h w hw
  refine ensures_now fun w₁ t hw₁ ht => ?_
  have hrests₁ := ((hv.rests.trans hv'.rests).trans hrests).trans hw₁.rests
  refine ensures_putNew_attendance rfl (unseated_of_rests hunseated hrests₁)
    fun w₂ hw₂ _ hassumes => ?_
  -- The first write makes the mapping.
  have hrests₂ := hrests₁.trans hw₂.rests
  have hnew : tally maps i w₂.past = 0 :=
    (tally_of_rests effective_maps hrests₂).trans (tally_of_own_eq_nil hown)
  refine ⟨attended_written_mapping hw₂.inv hassumes hnew, ?_⟩
  have hunseated₃ := unseated_written_mapping s (Mapping.ofMeeting m).encode none
    (unseated_of_rests hunseated hrests₂)
  refine ensures_putNew_attendance rfl hunseated₃ fun w₃ hw₃ hfree hassumes' => ⟨?_, ?_⟩
  -- The second write makes the session, with nobody in it.
  · have hroster : rosterAt w₃.store m.id = [] := rosterAt_of_lookup_eq_none hfree
    exact attended_written_session (x := Session.new s m t) hw₃.inv hassumes'
      (unseated_of_rests hunseated₃ hw₃.rests) ⟨ht, fun _ h => nomatch h⟩ (.inl hroster.symm)
  · exact ensures_count fun _ _ => ensures_note fun _ _ => ensures_pure fun _ _ => trivial

/-! ### Every job -/

/-- What is known of an outcome: with an error, no session was written, and a join that succeeded
did what it says. -/
def Outcome.Accounted (i : Nat) : Job → Outcome → World → Prop
  | _, .created (.error _), w => tally seats i w.past = 0
  | _, .joined (.error _), w => tally seats i w.past = 0
  | .join _ s r, .joined (.ok reply), w =>
    ∃ userId, r.validate = .ok userId ∧ Reported i s userId reply w
  | _, _, _ => True

/-- What is told of a job accounts for what it wrote. -/
theorem holds_job_attendance (appId : String) {job : Job} (hjob : (jobs u.past)[i]? = some job)
    (hown : own i u.past = []) :
    attendance.discipline.Holds i (job.program appId) (Outcome.Accounted i job) u := by
  cases job with
  | create mode =>
    refine holds_map (Holds.mono (ensures_create_attendance mode hown) fun r v _ _ h => ?_)
    cases r with
    | ok x => trivial
    | error e => exact h
  | join mode s r =>
    refine holds_map (Holds.mono (ensures_join_attendance appId hjob hown) fun result v _ _ h => ?_)
    cases result with
    | ok reply => exact h
    | error e => exact h

/-- Every task of a run is accounted for. -/
theorem attendance_of_run {appId : String} {σ : System} (hrun : Run appId {} σ)
    (hfresh : FreshGrants σ.past) : attendance.discipline.Governs Outcome.Accounted σ :=
  Bylaw.governs_of_run hrun ⟨kept_of_run hrun, hfresh, trivial⟩ attended_empty
    fun _ _ _ hjob hown _ => holds_job_attendance appId hjob hown

/-! ### Requests take effect once -/

/-- What requests did to the records, in a state of a run. -/
structure ExactlyOnce (σ : System) : Prop where
  /-- No request wrote a mapping twice or a session twice. -/
  once : ∀ i, (own i σ.past).countP maps ≤ 1 ∧ (own i σ.past).countP seats ≤ 1
  /-- A request that was answered with an error has written no session, and added nobody. -/
  failed : ∀ i job e,
    σ.Finished i job (.joined (.error e)) ∨ σ.Finished i job (.created (.error e)) →
      (∀ entry ∈ own i σ.past, seats entry = false) ∧ ∀ k, i ∉ appenders k σ.past
  /-- A join that was answered with a session has said whether it added its user, and if it says
  so, it is one of those who made the roster longer, by writing the session it was answered. -/
  joined : ∀ i mode s r reply, σ.Finished i (.join mode s r) (.joined (.ok reply)) →
    ∃ userId added, r.validate = .ok userId ∧
      ⟨.note (.joined s userId reply.session.users.length added), ()⟩ ∈ own i σ.past ∧
      (added = true ↔ i ∈ appenders reply.session.meetingId σ.past) ∧
      (added = true → ∃ expected version, ⟨.putIf (sessionKey reply.session.meetingId)
        reply.session.encode expected, .ok (.written version)⟩ ∈ own i σ.past)
  /-- There are as many members in a meeting as there are joins that added one. -/
  counted : ∀ k, (appenders k σ.past).Nodup ∧
    (rosterAt σ.store k).length = (appenders k σ.past).length
  /-- Each member in a meeting was added by a join of their own. -/
  roll : ∀ k, List.Forall₂ (fun i m => ∃ mode s r rest,
      σ.tasks[i]? = some ⟨.join mode s r, rest⟩ ∧ r.validate = .ok m.userId ∧
      r.iconUrl = m.iconUrl)
    (appenders k σ.past).reverse (rosterAt σ.store k)

/-- Who seats nobody has no call that seats, and made no roster longer. -/
theorem not_mem_of_unseated {σ : System} (h : tally seats i σ.past = 0) :
    (∀ entry ∈ own i σ.past, seats entry = false) ∧ ∀ k, i ∉ appenders k σ.past :=
  ⟨fun entry hentry => Bool.not_eq_true _ ▸ List.countP_eq_zero.1 h entry hentry,
    fun _ => not_mem_appenders h⟩

/-- In every run, requests take effect once. -/
theorem exactlyOnce_of_run {appId : String} {σ : System} (hrun : Run appId {} σ)
    (hfresh : FreshGrants σ.past) : ExactlyOnce σ := by
  have hassumes : attendance.Assumes σ.past := ⟨kept_of_run hrun, hfresh, trivial⟩
  have hgov := attendance_of_run hrun hfresh
  have hattended : Attended σ.world := hgov.inv.own
  refine ⟨hattended.once, fun i job e hfinished => ?_, fun i mode s r reply hfinished => ?_,
    fun k => ⟨?_, ?_⟩, fun k => ?_⟩
  · refine not_mem_of_unseated ?_
    rcases hfinished with hjoined | hcreated
    · cases job <;> exact hgov.finished hassumes hjoined
    · cases job <;> exact hgov.finished hassumes hcreated
  · obtain ⟨userId, hvalid, added, hnote, hentered⟩ := hgov.finished hassumes hfinished
    exact ⟨userId, added, hvalid, hnote, hentered.appended, hentered.wrote⟩
  -- A request that made a roster longer twice would have written a session twice.
  · exact List.nodup_iff_count_le_one.2 fun i =>
      (count_appenders_le_tally k i σ.past).trans (hattended.once i).2
  · rw [← (hattended.roll k).length_eq, List.length_reverse]
  · refine (hattended.roll k).imp fun i m ⟨mode, s, r, hjob, hvalid, hicon⟩ => ?_
    rw [jobs_of_run hrun, List.getElem?_map, Option.map_eq_some_iff] at hjob
    obtain ⟨⟨job, rest⟩, htask, rfl⟩ := hjob
    exact ⟨mode, s, r, rest, htask, hvalid, hicon⟩

/-- Those who had to write again took effect once, too. -/
theorem exactlyOnce_afterRaces : FreshGrants afterRaces.past ∧ ExactlyOnce afterRaces :=
  ⟨freshGrants_afterRaces, exactlyOnce_of_run run_both_races freshGrants_afterRaces⟩

end VoiceRoom.Concurrency
