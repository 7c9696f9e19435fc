import VoiceRoom.Proofs.Concurrency.Crowd

/-!
# How a join in a crowd is settled

A join that has not written looks at the session, perhaps several times. What it saw last is what
counts (`Looked`): if the session was full, the join is turned down; if it had room but the join
gives up, or finds its user in it, the join might as well have come at that point; and if its write
succeeds, that is where it came (`Settled`).
-/

namespace VoiceRoom.Concurrency

open Discipline
open Simulation (Entry)

variable {mode : Mode} {s : String} {i : Nat} {u v w : World} {room : Option Session}
variable {r : JoinRequest}

/-! ### What a join has done -/

/-- A task has written no session. -/
def Unseated (i : Nat) (past : List Act) : Prop :=
  ∀ e ∈ own i past, seats e = false

/-- What a task saw when it touched a session last, which changed nothing. -/
structure Looked (s : String) (i : Nat) (w : World) (room : Option Session) : Prop where
  last : ∃ e before, LastTouch i w.past e before ∧ roomAt (storeOf before) s = room ∧
    roomAt (storeOf (.answer i e :: before)) s = room

/-- What a join is answered is what it would be answered by itself where it touched a session
last. -/
structure Settled (mode : Mode) (s : String) (i : Nat) (w : World) (r : JoinRequest)
    (answer : Except ServiceError JoinReply) : Prop where
  last : ∃ e before, LastTouch i w.past e before ∧ Unseated i before ∧
    Serves mode s r (roomAt (storeOf before) s) answer
      (roomAt (storeOf (.answer i e :: before)) s)

/-- Who looked last and seats nobody is settled by what the look showed. -/
theorem Looked.settled {answer : Except ServiceError JoinReply} (h : Looked s i w room)
    (hunseated : Unseated i w.past) (hserves : Serves mode s r room answer room) :
    Settled mode s i w r answer := by
  obtain ⟨e, before, hlast, hbefore, hafter⟩ := h.last
  refine ⟨e, before, hlast, fun e' he' => ?_, ?_⟩
  · obtain ⟨after, hsplit⟩ := hlast.suffix
    refine hunseated e' ?_
    rw [← hsplit, own_append, own_answer_self]
    exact List.mem_append_right _ (List.mem_cons_of_mem _ he')
  · rw [hbefore, hafter]
    exact hserves

/-- A task that stands aside touches no session. -/
theorem touchers_of_aside (h : (crowd mode s).Aside i u v) :
    ∃ new, v.past = new ++ u.past ∧ i ∉ touchers new := by
  obtain ⟨new, hnew⟩ := Onward.past h.le
  obtain ⟨entries, hown, hidle⟩ := h.own
  refine ⟨new, hnew.symm, fun hmem => ?_⟩
  obtain ⟨e, he, htouches⟩ := mem_touchers_iff.1 hmem
  rw [← hnew, own_append] at hown
  rw [List.append_cancel_right hown] at he
  rw [touches_of_idle (hidle e he)] at htouches
  exact nomatch htouches

/-- Who does idle calls stays unseated. -/
theorem Unseated.aside (h : Unseated i u.past) (hle : (crowd mode s).Aside i u v) :
    Unseated i v.past := by
  obtain ⟨entries, hown, hidle⟩ := hle.own
  intro e he
  rw [hown] at he
  rcases List.mem_append.1 he with hnew | hold
  · exact seats_of_not_touches (touches_of_idle (hidle e hnew))
  · exact h e hold

/-- A look stays the last one while the task does idle calls. -/
theorem Looked.aside (h : Looked s i u room) (hle : (crowd mode s).Aside i u v) :
    Looked s i v room := by
  obtain ⟨e, before, hlast, hrooms⟩ := h.last
  obtain ⟨new, hnew, htouchers⟩ := touchers_of_aside hle
  exact ⟨e, before, hnew ▸ hlast.append htouchers, hrooms⟩

/-- Who is settled stays so while idle calls are done. -/
theorem Settled.aside {answer : Except ServiceError JoinReply} (h : Settled mode s i u r answer)
    (hle : (crowd mode s).Aside i u v) : Settled mode s i v r answer := by
  obtain ⟨e, before, hlast, hserves⟩ := h.last
  obtain ⟨new, hnew, htouchers⟩ := touchers_of_aside hle
  exact ⟨e, before, hnew ▸ hlast.append htouchers, hserves⟩

/-- An answer that touches no session leaves a task where it was. -/
theorem Looked.turn {e : Entry} (h : Looked s i u room) (hle : (crowd mode s).Turn i e u v)
    (he : touches e = false) : Looked s i v room := by
  obtain ⟨e', before, hlast, hrooms⟩ := h.last
  refine ⟨e', before, ?_, hrooms⟩
  rw [hle.eq]
  have hnew : i ∉ touchers [.answer i e] := by
    intro hmem
    obtain ⟨e'', hmem, htouches⟩ := mem_touchers_iff.1 hmem
    rw [own_answer_self, own_nil] at hmem
    obtain rfl := List.mem_singleton.1 hmem
    rw [he] at htouches
    exact nomatch htouches
  exact hlast.append hnew

/-- A call that seats nobody leaves a task unseated. -/
theorem Unseated.turn {e : Entry} (h : Unseated i u.past) (hle : (crowd mode s).Turn i e u v)
    (he : seats e = false) : Unseated i v.past := by
  intro e' he'
  rw [hle.eq, World.past_next, own_answer_self] at he'
  rcases List.mem_cons.1 he' with rfl | hold
  · exact he
  · exact h e' hold

/-- A read seats nobody. -/
theorem Unseated.reads {key : String} (h : Unseated i v.past)
    (hreads : (crowd mode s).Reads i key v w) : Unseated i w.past := by
  obtain ⟨v', hturn, haside⟩ := hreads.after
  exact (h.turn hturn rfl).aside haside

/-- Who reads the record of the session looks at it. -/
theorem looked_of_reads {mapping : Mapping} (hv : Orderly mode s v)
    (hat : v.store.mappingAt s = some mapping)
    (hreads : (crowd mode s).Reads i (sessionKey mapping.meetingId) v w) :
    Looked s i w (v.store.sessionAt mapping.meetingId) := by
  obtain ⟨v', hturn, haside⟩ := hreads.after
  have hlooked : Looked s i v' (v.store.sessionAt mapping.meetingId) := by
    refine ⟨⟨.get (sessionKey mapping.meetingId),
      .ok (v.store.lookup (sessionKey mapping.meetingId))⟩, v.past, ?_, ?_, ?_⟩
    · rw [hturn.eq]
      exact LastTouch.now (isSessionKey_sessionKey mapping.meetingId)
    · rw [← hv.replay, roomAt_of_mappingAt hat]
    · rw [storeOf_cons hv.replay, ← roomAt_of_mappingAt hat]
      rfl
  exact hlooked.aside haside

/-! ### Resolving and opening -/

/-- A mapping that is there counts. -/
theorem read_eq_found (hv : Orderly mode s v) {stored : Versioned}
    (hlookup : v.store.lookup (mappingKey s) = some stored) :
    Resolution.read mode (v.store.lookup (mappingKey s)) =
      .found (Mapping.decode stored.value) stored.version := by
  obtain ⟨m, hm, hmapping⟩ := hv.meant _ (Memory.mappingAt_of_lookup hlookup)
  rw [hlookup]
  refine Resolution.ofStored_of_counts ?_
  rw [hmapping]
  cases mode with
  | mock => exact .inl rfl
  | real => exact .inr hm.1

/-- A draft of a join in a crowd: the session that was read, or a new one where there was none. -/
inductive Opened (mode : Mode) (s : String) (i : Nat) (w : World) : Draft → Prop where
  | made {m : Meeting} {t : Int} (hm : Meant mode s m) (ht : fitsInt64 t)
      (hmapped : w.store.mappingAt s = some (.ofMeeting m)) (hlooked : Looked s i w none) :
      Opened mode s i w ⟨Session.new s m t, none, true⟩
  | found {x : Session} {stored : Versioned} (hx : Session.decode stored.value = .ok x)
      (hlodged : Lodged w.store s x) (hsaw : w.store.Saw (sessionKey x.meetingId) stored)
      (hlooked : Looked s i w (some x)) :
      Opened mode s i w ⟨x, some stored.version, false⟩

/-- A draft stays what it is while idle calls are done. -/
theorem Opened.aside {d : Draft} (h : Opened mode s i v d) (hle : (crowd mode s).Aside i v w) :
    Opened mode s i w d := by
  have honward : Onward s v w := hle.le
  cases h with
  | made hm ht hmapped hlooked =>
    exact .made hm ht (honward.mapping _ hmapped) (hlooked.aside hle)
  | found hx hlodged hsaw hlooked =>
    exact .found hx (hlodged.onward honward) (hsaw.advance honward.store) (hlooked.aside hle)

/-- A draft that may be entered. -/
structure Ready (mode : Mode) (s : String) (i : Nat) (d : Draft) (w : World) : Prop where
  opened : Opened mode s i w d
  unseated : Unseated i w.past

/-- Nothing but this can go wrong with a join in a crowd. -/
def turnedDown (mode : Mode) (s : String) (i : Nat) (r : JoinRequest) (e : ServiceError)
    (w : World) : Prop :=
  Settled mode s i w r (.error e)

/-- In a crowd the store always answers. -/
theorem not_fails (h : (crowd mode s).Fails i u w) : False := by
  obtain ⟨v, hv, hdown, -⟩ := h
  exact nomatch hdown.symm.trans (Orderly.available hv.inv)

/-- A draft of a new session, where there is none: the room is free, and the mapping that is meant
leads there. -/
theorem opened_made {mapping : Mapping} {m : Meeting} {t : Int} (hv : Orderly mode s v)
    (hat : v.store.mappingAt s = some mapping) (hm : Meant mode s m) (hmapping : mapping = .ofMeeting m)
    (hnone : v.store.lookup (sessionKey mapping.meetingId) = none) (hunseated : Unseated i v.past)
    (hreads : (crowd mode s).Reads i (sessionKey mapping.meetingId) v w) (ht : fitsInt64 t) :
    Ready mode s i ⟨Session.new s m t, none, true⟩ w := by
  have hlooked := looked_of_reads hv hat hreads
  rw [Memory.sessionAt_of_lookup_eq_none hnone] at hlooked
  refine ⟨.made hm ht ?_ hlooked, hunseated.reads hreads⟩
  rw [← hmapping]
  exact Onward.mapping hreads.le _ hat

/-- A draft of the session that is stored. It is of the id that is joined, as it is, and its grade
is genuine. -/
theorem opened_found {mapping : Mapping} {x : Session} {stored : Versioned}
    (hv : Orderly mode s v) (hat : v.store.mappingAt s = some mapping)
    (hlookup : v.store.lookup (sessionKey mapping.meetingId) = some stored)
    (hx : Session.decode stored.value = .ok x) (hunseated : Unseated i v.past)
    (hreads : (crowd mode s).Reads i (sessionKey mapping.meetingId) v w) :
    Ready mode s i ⟨x.fit mapping, some stored.version, !x.agrees mapping⟩ w ∧
      x.fit mapping = x ∧ x.agrees mapping = true ∧ x.sessionId = s ∧ x.degraded = false := by
  -- The record is the one session there is, in the meeting of the mapping.
  obtain ⟨y, hy, hid, hlodged⟩ := hv.stored _ _ hlookup
  obtain rfl : x = y := Except.ok.inj (hx.symm.trans hy)
  have hmapping : x.mapping = mapping := Option.some.inj (hlodged.mapped.symm.trans hat)
  have hagrees : x.agrees mapping = true := by
    rw [← hmapping]
    simp [Session.agrees, Session.mapping]
  have hfit : x.fit mapping = x := Session.fit_of_agrees hagrees
  have hlooked := looked_of_reads hv hat hreads
  rw [Memory.sessionAt_of_lookup hlookup hx] at hlooked
  refine ⟨?_, hfit, hagrees, hlodged.sessionId, hlodged.genuine⟩
  have honward : Onward s v w := hreads.le
  rw [hfit, hagrees]
  refine ⟨.found hx (hlodged.onward honward) ?_ hlooked, hunseated.reads hreads⟩
  rw [hid]
  exact (Memory.saw_of_lookup hlookup).advance honward.store

theorem ensures_openMapped_crowd {j : Joiner} {mapping : Mapping} (hj : j.sessionId = s)
    (hat : u.store.mappingAt s = some mapping) (hunseated : Unseated i u.past) :
    (crowd mode s).Ensures i (j.openMapped mapping) (Ready mode s i) (turnedDown mode s i r) u := by
  subst hj
  refine ensures_openMapped (fun v w t hv hlookup hreads ht => ?_)
    (fun v w stored x hv hlookup hdecode hreads => ?_)
    (fun v w stored fault hv hlookup hdecode _ => ?_) fun w hfails => (not_fails hfails).elim
  -- Without a record: the mapping says which meeting is meant.
  · have hat' := Onward.mapping hv.le _ hat
    obtain ⟨m, hm, hmapping⟩ := Orderly.meant hv.inv _ hat'
    have hready := opened_made hv.inv hat' hm hmapping hlookup (hunseated.aside hv.aside) hreads ht
    subst hmapping
    obtain ⟨meetingId, kind, degraded⟩ := m
    obtain rfl : degraded = false := hm.degraded
    exact hready
  · exact (opened_found hv.inv (Onward.mapping hv.le _ hat) hlookup hdecode
      (hunseated.aside hv.aside) hreads).1
  -- Records that cannot be read are never written.
  · obtain ⟨x, hx, -⟩ := Orderly.stored hv.inv _ _ hlookup
    exact nomatch hx.symm.trans hdecode

theorem ensures_openAllocated_crowd {j : Joiner} {m : Meeting} (hj : j.sessionId = s)
    (hm : Meant mode s m) (hat : u.store.mappingAt s = some (.ofMeeting m))
    (hunseated : Unseated i u.past) :
    (crowd mode s).Ensures i (j.openAllocated m) (Ready mode s i) (turnedDown mode s i r) u := by
  subst hj
  refine ensures_openAllocated (fun v w t hv hlookup hreads ht => ?_)
    (fun v w stored x hv hlookup hdecode _ hreads => ?_)
    (fun v w stored x t hv hlookup hdecode hforeign hreads ht => ?_)
    (fun v w stored fault hv hlookup hdecode _ => ?_) fun w hfails => (not_fails hfails).elim
  · exact opened_made hv.inv (Onward.mapping hv.le _ hat) hm rfl hlookup
      (hunseated.aside hv.aside) hreads ht
  · obtain ⟨hready, hfit, -, -, hgenuine⟩ := opened_found hv.inv (Onward.mapping hv.le _ hat)
      hlookup hdecode (hunseated.aside hv.aside) hreads
    -- Grading changes nothing, as neither the meeting nor the session is degraded.
    rw [Draft.graded_of_eq]
    · exact hready
    · rw [hm.degraded, hfit]
      exact hgenuine
  -- In the meeting that is meant for an id there is no session of another id.
  · obtain ⟨-, -, -, hours, -⟩ := opened_found hv.inv (Onward.mapping hv.le _ hat)
      hlookup hdecode (hunseated.aside hv.aside) hreads
    exact absurd hours hforeign
  · obtain ⟨x, hx, -⟩ := Orderly.stored hv.inv _ _ hlookup
    exact nomatch hx.symm.trans hdecode

/-! ### Entering -/

/-- The session on record that a draft was made from. -/
def onRecord (d : Draft) : Option Session :=
  d.version.map fun _ => d.session

namespace Opened

variable {d : Draft}

/-- Who has a draft has looked at the room. -/
theorem looked (h : Opened mode s i w d) : Looked s i w (onRecord d) := by
  cases h with
  | made _ _ _ hlooked => exact hlooked
  | found _ _ _ hlooked => exact hlooked

/-- As many are in the room as in the draft, for a new session nobody. -/
theorem occupancy_onRecord (h : Opened mode s i w d) :
    occupancy (onRecord d) = d.session.users.length := by
  cases h with
  | made => rfl
  | found => rfl

/-- A full draft is of a full room. -/
theorem occupancy_of_full (h : Opened mode s i w d) (hfull : d.session.isFull = true) :
    occupancy (onRecord d) = capacity := by
  unfold Session.isFull at hfull
  rw [decide_eq_true_eq] at hfull
  cases h with
  | made => exact absurd hfull (Nat.not_succ_le_zero _)
  | found _ hlodged => exact Nat.le_antisymm hlodged.room hfull

/-- With a member added, a draft is what a join by itself makes of the session on record. -/
theorem serves (h : Opened mode s i w d) (hroom : d.session.isFull = false) {userId : String}
    (hvalid : r.validate = .ok userId) (joinedAt : Int) (realtime : Option Credentials) :
    Serves mode s r (onRecord d) (.ok ⟨d.session.add ⟨userId, joinedAt, r.iconUrl⟩, realtime⟩)
      (some (d.session.add ⟨userId, joinedAt, r.iconUrl⟩)) := by
  cases h with
  | made hm => exact .opened hm hvalid rfl
  | found => exact .joined (Session.isFull_eq_false_iff.1 hroom) hvalid rfl

/-- The id that is joined leads where the draft is. -/
theorem mapped (h : Opened mode s i w d) : w.store.mappingAt s = some d.session.mapping := by
  cases h with
  | made _ _ hmapped => exact hmapped
  | found _ hlodged => exact hlodged.mapped

/-- If the record has the version of the draft, it is what the draft was made from. -/
theorem roomAt_eq (h : Opened mode s i w d)
    (hversion : (w.store.lookup (sessionKey d.session.meetingId)).map Versioned.version =
      d.version) : roomAt w.store s = onRecord d := by
  rw [roomAt_of_mappingAt h.mapped]
  cases h with
  | made => exact Memory.sessionAt_of_lookup_eq_none (Option.map_eq_none_iff.1 hversion)
  | found hx _ hsaw => exact Memory.sessionAt_of_lookup (hsaw.lookup_eq hversion) hx

/-- With one more member the draft is what the room is to be. -/
theorem lodged_add (h : Opened mode s i w d) (hroom : d.session.isFull = false) {m : Member}
    (hm : m.Timed) : Lodged w.store s (d.session.add m) := by
  have hadd := Session.continues_add d.session m
  have hsession : d.session.sessionId = s ∧ d.session.degraded = false ∧ d.session.Timed := by
    cases h with
    | made hm ht => exact ⟨rfl, hm.degraded, ht, fun _ h => nomatch h⟩
    | found _ hlodged => exact ⟨hlodged.sessionId, hlodged.genuine, hlodged.timed⟩
  obtain ⟨hid, hgenuine, htimed⟩ := hsession
  refine ⟨hadd.sessionId.trans hid, ?_, ?_, ?_, ?_⟩
  · rw [hadd.mapping_eq]
    exact h.mapped
  · rw [Session.add_eq]
    exact hgenuine
  · exact Session.length_users_add_le hroom m
  · exact htimed.add hm

end Opened

/-- What an attempt in a crowd comes to: the join is settled, or it was raced with the session
written by none of its writes and the mapping in place. -/
structure Ended (mode : Mode) (s : String) (i : Nat) (r : JoinRequest) (a : Attempt) (w : World) :
    Prop where
  joined : ∀ x added, a = .joined x added → ∀ realtime, Settled mode s i w r (.ok ⟨x, realtime⟩)
  raced : a = .raced → Unseated i w.past ∧ ∃ mapping, w.store.mappingAt s = some mapping

/-- A task saw a session that had room when it touched it last. -/
def SawRoom (s : String) (i : Nat) (w : World) : Prop :=
  ∃ room, occupancy room < capacity ∧ Looked s i w room

/-- A join is settled by writing its draft with the user in it. -/
theorem settled_written {d : Draft} {userId : String} {t : Int} {x : Session}
    (h : Opened mode s i v d) (hv : Orderly mode s v) (hunseated : Unseated i v.past)
    (hroom : d.session.isFull = false) (hvalid : r.validate = .ok userId) (ht : fitsInt64 t)
    (hx : d.session.add ⟨userId, t, r.iconUrl⟩ = x)
    (hversion : (v.store.lookup (sessionKey x.meetingId)).map Versioned.version = d.version) :
    let v' := v.written i (sessionKey x.meetingId) x.encode d.version
    Orderly mode s v' ∧ Onward s v v' ∧
      ∀ realtime, Settled mode s i v' r (.ok ⟨x, realtime⟩) := by
  have hlodged : Lodged v.store s x := hx ▸ h.lodged_add hroom ht
  obtain ⟨horderly, honward, hafter⟩ := orderly_written_session hv hlodged hversion i
  refine ⟨horderly, honward, fun realtime => ?_⟩
  have hserves := h.serves hroom hvalid t realtime
  rw [hx] at hserves
  -- No one wrote the session since it was drafted, so the write takes the user in there and then.
  have hmeeting : x.meetingId = d.session.meetingId :=
    (hx ▸ Session.continues_add d.session _ : d.session.Continues x).meetingId
  rw [hmeeting] at hversion
  rw [horderly.replay] at hafter
  refine ⟨_, v.past, .now (touches_of_seats (isSessionKey_sessionKey x.meetingId)), hunseated, ?_⟩
  rw [← hv.replay, h.roomAt_eq hversion]
  exact (congrArg (Serves mode s r (onRecord d) _) hafter).mpr hserves

/-- Who enters is settled by its last touch, or was overtaken and has seen a room. -/
theorem ensures_enter_crowd {j : Joiner} {d : Draft} (hready : Ready mode s i d u)
    (hvalid : r.validate = .ok j.userId) (hicon : j.iconUrl = r.iconUrl) :
    (crowd mode s).Ensures i (j.enter d)
      (fun a v => Ended mode s i r a v ∧ (a = .raced → SawRoom s i v)) (turnedDown mode s i r)
      u := by
  have hopened : ∀ v, (crowd mode s).Aside i u v → Opened mode s i v d := fun v hv =>
    hready.opened.aside hv
  have hunseated : ∀ v, (crowd mode s).Aside i u v → Unseated i v.past := fun v hv =>
    hready.unseated.aside hv
  refine ensures_enter (fun hfull w hw => ?_) (fun hroom hdirty hmember w hw => ?_)
    (fun hroom _ v t hv ht hversion _ => ?_) (fun hroom v v' w t hv _ hturn hw => ?_)
    fun v w _ hfails => (not_fails hfails).elim
  -- The session is full.
  · exact (hopened w hw).looked.settled (hunseated w hw)
      (.full ((hopened w hw).occupancy_of_full hfull))
  -- The user is in it already, so nothing is written.
  · refine ⟨⟨fun x added h realtime => ?_, fun h => nomatch h⟩, fun h => nomatch h⟩
    cases h
    have hlooked := (hopened w hw).looked
    have hserves := (hopened w hw).serves hroom hvalid 0 realtime
    rw [Session.add_of_hasMember hmember] at hserves
    refine hlooked.settled (hunseated w hw) ?_
    cases hopened w hw with
    | made => exact nomatch hdirty
    | found => exact hserves
  -- The draft is written.
  · rw [hicon] at hversion ⊢
    obtain ⟨horderly, honward, hsettled⟩ :=
      settled_written (hopened v hv) hv.inv (hunseated v hv) hroom hvalid ht rfl hversion
    refine ⟨horderly, honward, fun w hw => ⟨⟨fun x added h realtime => ?_, fun h => nomatch h⟩,
      fun h => nomatch h⟩⟩
    cases h
    exact (hsettled realtime).aside hw.aside
  -- Someone else wrote the session first.
  · have hlooked := ((hopened v hv).looked.turn hturn rfl).aside hw.aside
    have hwaiting := ((hunseated v hv).turn hturn rfl).aside hw.aside
    have hmapped := Onward.mapping hw.le _ (Onward.mapping hturn.le _ (hopened v hv).mapped)
    refine ⟨⟨fun x added h => (nomatch h), fun _ => ⟨hwaiting, _, hmapped⟩⟩,
      fun _ => ⟨_, ?_, hlooked⟩⟩
    rw [(hopened v hv).occupancy_onRecord]
    exact Session.isFull_eq_false_iff.1 hroom

/-! ### A join as a whole -/

/-- The meeting that is obtained is the one that is meant, since the provider does not refuse. -/
theorem holds_allocate_crowd (mode : Mode) (s : String) :
    (crowd mode s).Holds i (allocate mode s)
      (fun m v => (crowd mode s).Aside i u v ∧ Meant mode s m) u := by
  refine holds_allocate (fun hmode v hv => ⟨hv, ?_⟩) (fun hmode v v' w meetingId hv hturn hw => ?_)
    fun hmode v v' w e hv hturn hw => ?_
  · subst hmode
    exact rfl
  · subst hmode
    exact ⟨hv.aside.trans ((hturn.aside (c := .createMeeting s) trivial).trans hw.aside), rfl, rfl⟩
  · -- In a crowd the provider does not fail.
    have hcrowd : Crowd mode s v'.past := hturn.assumes
    refine absurd ?_ (hcrowd.provider i s e)
    rw [hturn.eq]
    exact List.mem_cons_self

/-- A join that did not find a mapping writes one, or finds that it came too late. -/
theorem ensures_writeMapping_crowd {j : Joiner} {m : Meeting} (hj : j.sessionId = s)
    (hm : Meant mode s m) (hunseated : Unseated i u.past) :
    (crowd mode s).Ensures i (j.writeMapping .absent m)
      (fun written v => Unseated i v.past ∧ (∃ mapping, v.store.mappingAt s = some mapping) ∧
        (written = true → v.store.mappingAt s = some (.ofMeeting m)))
      (turnedDown mode s i r) u := by
  subst hj
  refine ensures_writeMapping (fun w version h => nomatch h) (fun _ v hv hversion _ => ?_)
    (fun v v' w hv hversion hturn hw => ?_) fun w hfails => (not_fails hfails).elim
  · have hnone := Option.map_eq_none_iff.1 hversion
    obtain ⟨horderly, honward, hat⟩ := orderly_written_mapping hv.inv hm hnone i
    refine ⟨horderly, honward, fun w hw => ?_⟩
    have hat' := Onward.mapping hw.le _ hat
    refine ⟨Unseated.aside (fun e he => ?_) hw.aside, ⟨_, hat'⟩, fun _ => hat'⟩
    rcases List.mem_cons.1 (own_answer_self i _ v.past ▸ he) with rfl | hold
    · exact isSessionKey_mappingKey j.sessionId
    · exact hunseated.aside hv.aside e hold
  · have hwaiting := ((hunseated.aside hv.aside).turn hturn rfl).aside hw.aside
    -- Another join was faster, and its mapping is in place.
    cases hlookup : v.store.lookup (mappingKey j.sessionId) with
    | none =>
      rw [hlookup] at hversion
      exact absurd rfl hversion
    | some stored =>
      have hat := Onward.mapping hturn.le _ (Memory.mappingAt_of_lookup hlookup)
      exact ⟨hwaiting, ⟨_, Onward.mapping hw.le _ hat⟩, fun h => nomatch h⟩

/-- What an attempt comes to, with the meeting that is held on to. An attempt that found the
mapping in place has seen the session. -/
structure AttemptEnded (mode : Mode) (s : String) (i : Nat) (r : JoinRequest) (mapped : Prop)
    (result : Attempt × Option Meeting) (w : World) : Prop where
  ended : Ended mode s i r result.1 w
  held : ∀ m, result.2 = some m → Meant mode s m
  saw : mapped → result.1 = .raced → SawRoom s i w

/-- Entering is how an attempt ends. -/
theorem ensures_attemptEnter_crowd {j : Joiner} {d : Draft} {held : Option Meeting} {mapped : Prop}
    (hready : Ready mode s i d u) (hvalid : r.validate = .ok j.userId)
    (hicon : j.iconUrl = r.iconUrl) (hheld : ∀ m, held = some m → Meant mode s m) :
    (crowd mode s).Ensures i (do return (← j.enter d, held))
      (AttemptEnded mode s i r mapped) (turnedDown mode s i r) u := by
  refine (ensures_enter_crowd hready hvalid hicon).bind fun a v _ ha => ensures_pure fun w hw => ?_
  obtain ⟨hended, hsaw⟩ := ha w hw
  exact ⟨hended, hheld, fun _ => hsaw⟩

/-- An attempt goes on with a meeting where no mapping was found. -/
theorem ensures_settle_crowd {j : Joiner} {m : Meeting} {mapped : Prop} (hj : j.sessionId = s)
    (hm : Meant mode s m) (hunseated : Unseated i u.past) (hvalid : r.validate = .ok j.userId)
    (hicon : j.iconUrl = r.iconUrl) (hmapped : ¬ mapped) :
    (crowd mode s).Ensures i (j.settle .absent m) (AttemptEnded mode s i r mapped)
      (turnedDown mode s i r) u := by
  have hkeep : ∀ m', some m = some m' → Meant mode s m' := fun m' h => Option.some.inj h ▸ hm
  refine (ensures_writeMapping_crowd hj hm hunseated).bind fun written v hv h => ?_
  cases written with
  | false =>
    refine ensures_pure fun w hw => ?_
    obtain ⟨hwaiting, hat, -⟩ := h w hw
    exact ⟨⟨fun _ _ h => (nomatch h), fun _ => ⟨hwaiting, hat⟩⟩, hkeep, fun h => absurd h hmapped⟩
  | true =>
    obtain ⟨hwaiting, -, hat⟩ := h v hv
    refine (ensures_openAllocated_crowd hj hm (hat rfl) hwaiting).bind fun d v' hv' h' => ?_
    exact ensures_attemptEnter_crowd (h' v' hv') hvalid hicon hkeep

theorem ensures_attempt_crowd {j : Joiner} {held : Option Meeting} (hmode : j.mode = mode)
    (hj : j.sessionId = s) (hvalid : r.validate = .ok j.userId) (hicon : j.iconUrl = r.iconUrl)
    (hheld : ∀ m, held = some m → Meant mode s m) (hunseated : Unseated i u.past) :
    (crowd mode s).Ensures i (j.attempt held)
      (AttemptEnded mode s i r (∃ mapping, u.store.mappingAt s = some mapping))
      (turnedDown mode s i r) u := by
  unfold Joiner.attempt
  refine ensures_lookup (fun v w hv hreads => ?_) fun w hfails => (not_fails hfails).elim
  have hwaiting : Unseated i w.past := (hunseated.aside hv.aside).reads hreads
  rw [hmode, hj]
  -- With a mapping there is no meeting to be obtained, and without one there was none before.
  cases hlookup : v.store.lookup (mappingKey s) with
  | some stored =>
    have hat := Memory.mappingAt_of_lookup hlookup
    rw [← hlookup, read_eq_found hv.inv hlookup]
    refine (ensures_openMapped_crowd hj (Onward.mapping hreads.le _ hat) hwaiting).bind
      fun d v' hv' h => ?_
    exact ensures_attemptEnter_crowd (h v' hv') hvalid hicon hheld
  | none =>
    have hmapped : ¬ ∃ mapping, u.store.mappingAt s = some mapping := by
      rintro ⟨mapping, hat⟩
      have hat' := Onward.mapping hv.le _ hat
      exact nomatch (Memory.mappingAt_eq_none_iff.2 hlookup).symm.trans hat'
    -- A meeting that was obtained by an earlier attempt is used again.
    cases held with
    | some m =>
      refine ensures_bind (ensures_pure fun w' hw' => ?_)
      exact ensures_settle_crowd hj (hheld m rfl) (hwaiting.aside hw'.aside) hvalid hicon hmapped
    | none =>
      refine (holds_allocate_crowd mode s).lift fun m w' hw' h => ?_
      obtain ⟨haside, hm⟩ := h w' hw'
      exact ensures_settle_crowd hj hm (hwaiting.aside haside) hvalid hicon hmapped

/-- A join that is not settled yet: it has written nothing, has found the mapping in place if it
was raced before, and has seen the session with room if no attempt is left. -/
structure Trying (s : String) (i : Nat) (left : Nat) (w : World) : Prop where
  unseated : Unseated i w.past
  mapped : left < maxAttempts → ∃ mapping, w.store.mappingAt s = some mapping
  saw : left = 0 → SawRoom s i w

/-- Who tries goes on trying while others act. -/
theorem Trying.aside {left : Nat} (h : Trying s i left u) (hle : (crowd mode s).Aside i u v) :
    Trying s i left v where
  unseated := h.unseated.aside hle
  mapped hleft := by
    obtain ⟨mapping, hat⟩ := h.mapped hleft
    exact ⟨mapping, Onward.mapping hle.le _ hat⟩
  saw hleft := by
    obtain ⟨room, hroom, hlooked⟩ := h.saw hleft
    exact ⟨room, hroom, hlooked.aside hle⟩

/-- A join is settled in the end. Whoever runs out of attempts was overtaken so often that the room
is full. -/
theorem ensures_retry_crowd {appId : String} {j : Joiner} (hmode : j.mode = mode)
    (hj : j.sessionId = s) (hvalid : r.validate = .ok j.userId) (hicon : j.iconUrl = r.iconUrl)
    (left : Nat) {held : Option Meeting} (hheld : ∀ m, held = some m → Meant mode s m)
    (htrying : Trying s i left u) :
    (crowd mode s).Ensures i (j.retry appId left held)
      (fun reply w => Settled mode s i w r (.ok reply)) (turnedDown mode s i r) u := by
  refine ensures_retry
    (I := fun left held v => (∀ m, held = some m → Meant mode s m) ∧ Trying s i left v)
    (fun left held v h => ?_) (fun held v w h hw => ?_) left ⟨hheld, htrying⟩
  · obtain ⟨hheld, htrying⟩ := h
    refine (ensures_attempt_crowd hmode hj hvalid hicon hheld htrying.unseated).mono
      (fun result w _ _ hended => ?_) fun e w _ _ hsettled w' hw' => Settled.aside hsettled hw'
    match result, hended with
    | (.joined x added, held'), hended =>
      rintro ⟨session, realtime⟩ w' hreply hw' -
      obtain rfl : session = x := hreply
      exact (hended.ended.joined session added rfl realtime).aside hw'
    | (.raced, held'), hended =>
      obtain ⟨hwaiting, hat⟩ := hended.ended.raced rfl
      have hnext : Trying s i left w := by
        refine ⟨hwaiting, fun _ => hat, fun hzero => ?_⟩
        -- The last attempt was not the first one, so it found the mapping in place.
        have hlt : left + 1 < maxAttempts := by
          rw [hzero]
          decide
        exact hended.saw (htrying.mapped hlt) rfl
      exact fun w' hw' => ⟨hended.held, hnext.aside hw'⟩
  · have htrying := h.2.aside hw
    obtain ⟨room, hroom, hlooked⟩ := htrying.saw rfl
    exact hlooked.settled htrying.unseated (.conflict hroom)

/-- A valid join in a crowd is settled by the time that it is answered. -/
theorem ensures_join_crowd (appId : String) {userId : String} (hvalid : r.validate = .ok userId)
    (hnew : own i u.past = []) :
    (crowd mode s).Ensures i (join appId mode s r)
      (fun reply w => Settled mode s i w r (.ok reply)) (turnedDown mode s i r) u := by
  have htrying : Trying s i maxAttempts u := by
    refine ⟨fun e he => ?_, fun h => absurd h (Nat.lt_irrefl _), fun h => nomatch h⟩
    rw [hnew] at he
    exact nomatch he
  rw [join_of_ok hvalid]
  exact ensures_retry_crowd (j := ⟨mode, s, userId, r.iconUrl⟩) rfl rfl hvalid rfl maxAttempts
    (fun _ h => nomatch h) htrying

end VoiceRoom.Concurrency
