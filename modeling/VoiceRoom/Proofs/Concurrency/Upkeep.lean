import VoiceRoom.Proofs.Concurrency.Ledger
import VoiceRoom.Proofs.Concurrency.Rules

/-!
# Every job keeps the ledger

A join knows of its mapping that it was in force at some time since the join started (`Chosen`),
and of its draft that it continues the record whose version it carries (`Drafted`). This is enough
to write either (`ensures_enter_ledger`), and what it comes to is a session that the user is in
(`Seated`). A join or a creation that fails is known nothing of but that it kept the ledger.
-/

namespace VoiceRoom.Concurrency

open Discipline

variable {i : Nat} {w₀ u v w : World} {s : String} {mapping : Mapping}

/-- Nothing is to be known of an error. -/
def anyError : ServiceError → World → Prop :=
  fun _ _ => True

/-! ### The mapping of a join -/

/-- A mapping was in force at some time since. -/
structure Chosen (w₀ w : World) (s : String) (mapping : Mapping) : Prop where
  once : ∃ u, Sound u ∧ Grows w₀ u ∧ u.store.mappingAt s = some mapping ∧ Grows u w

namespace Chosen

theorem grows (h : Chosen w₀ v s mapping) (hle : Grows v w) : Chosen w₀ w s mapping := by
  obtain ⟨u, hu, hstart, hat, hend⟩ := h.once
  exact ⟨u, hu, hstart, hat, hend.trans hle⟩

theorem start (h : Chosen v w s mapping) (hle : Grows w₀ v) : Chosen w₀ w s mapping := by
  obtain ⟨u, hu, hstart, hat, hend⟩ := h.once
  exact ⟨u, hu, hle.trans hstart, hat, hend⟩

/-- The meeting that was chosen was given. -/
theorem given (h : Chosen w₀ w s mapping) : Given w.past s mapping := by
  obtain ⟨u, hu, -, hat, hend⟩ := h.once
  exact (hu.mapped s mapping hat).of_suffix hend.past

/-- The id leads to the meeting that was chosen. -/
theorem leads (h : Chosen w₀ w s mapping) : Leads w.store s mapping := by
  obtain ⟨u, -, -, hat, hend⟩ := h.once
  exact Leads.moved (.inl hat) (hend.mapping s)

/-- If a real meeting was in force at the start, it is the one chosen. -/
theorem eq_of_real (h : Chosen w₀ w s mapping) {meetingId : String}
    (hreal : w₀.store.mappingAt s = some ⟨meetingId, .real⟩) : mapping = ⟨meetingId, .real⟩ := by
  obtain ⟨u, -, hstart, hat, -⟩ := h.once
  have hmoved := hstart.mapping s
  rw [hreal, hat] at hmoved
  exact Option.some.inj hmoved.eq_of_real

end Chosen

/-- A mapping that is found is a choice. -/
theorem chosen_of_lookup {stored : Versioned} (hu : Sound u) (hstart : Grows w₀ u)
    (hlookup : u.store.lookup (mappingKey s) = some stored) (hend : Grows u w) :
    Chosen w₀ w s (Mapping.decode stored.value) :=
  ⟨u, hu, hstart, Memory.mappingAt_of_lookup hlookup, hend⟩

/-- What is known of a mapping that was looked up. -/
structure Resolved (w₀ w : World) (s : String) (r : Resolution) : Prop where
  found : ∀ mapping version, r = .found mapping version → Chosen w₀ w s mapping
  stale : ∀ mapping version, r = .stale mapping version → mapping.kind = .mock ∧
    Chosen w₀ w s mapping ∧ ∃ stored, w.store.Saw (mappingKey s) stored ∧
      stored.version = version ∧ Mapping.decode stored.value = mapping

theorem Resolved.grows {r : Resolution} (h : Resolved w₀ v s r) (hle : Grows v w) :
    Resolved w₀ w s r where
  found mapping version hr := (h.found mapping version hr).grows hle
  stale mapping version hr := by
    obtain ⟨hmock, hchosen, stored, hsaw, hstored⟩ := h.stale mapping version hr
    exact ⟨hmock, hchosen.grows hle, stored, hsaw.advance hle.store, hstored⟩

/-- What a lookup comes to was so when the mapping was read. -/
theorem resolved_read {mode : Mode} (hv : Sound v) (hstart : Grows w₀ v) (hend : Grows v w) :
    Resolved w₀ w s (.read mode (v.store.lookup (mappingKey s))) := by
  cases hlookup : v.store.lookup (mappingKey s) with
  | none => exact ⟨fun _ _ h => (nomatch h), fun _ _ h => (nomatch h)⟩
  | some stored =>
    have hchosen := chosen_of_lookup hv hstart hlookup hend
    have hsaw := (Memory.saw_of_lookup hlookup).advance hend.store
    dsimp only [Resolution.read]
    rcases Resolution.ofStored_cases mode stored with ⟨-, heq⟩ | ⟨⟨-, hmock⟩, heq⟩
    · rw [heq]
      refine ⟨fun mapping version h => ?_, fun _ _ h => (nomatch h)⟩
      cases h
      exact hchosen
    · rw [heq]
      refine ⟨fun _ _ h => (nomatch h), fun mapping version h => ?_⟩
      cases h
      exact ⟨hmock, hchosen, stored, hsaw, rfl, rfl⟩

/-- A meeting that a join holds was given for it. -/
structure Held (w : World) (s : String) (m : Meeting) : Prop where
  given : Given w.past s (.ofMeeting m)
  genuine : m.kind = .real → m.degraded = false

theorem Held.grows {m : Meeting} (h : Held v s m) (hle : Grows v w) : Held w s m :=
  ⟨h.given.of_suffix hle.past, h.genuine⟩

/-- Everybody holds the mock meeting. -/
theorem held_mockMeeting (w : World) (s : String) (degraded : Bool) :
    Held w s (mockMeeting s degraded) :=
  ⟨rfl, fun h => nomatch h⟩

/-- The meeting that is obtained is held from then on. -/
theorem holds_allocate_ledger (mode : Mode) (s : String) :
    ledger.Holds i (allocate mode s) (fun m v => Grows u v ∧ Held v s m) u := by
  refine holds_allocate (fun _ v hv => ⟨hv.le, held_mockMeeting v s false⟩)
    (fun _ v v' w meetingId hv hturn hw => ⟨?_, ?_⟩)
    fun _ v v' w e hv hturn hw => ⟨?_, held_mockMeeting w s true⟩
  · exact (Grows.trans hv.le hturn.le).trans hw.le
  · have hgrant : (s, meetingId) ∈ grants v'.past := by
      rw [hturn.eq]
      exact List.mem_cons_self
    exact Held.grows ⟨hgrant, fun _ => rfl⟩ hw.le
  · exact (Grows.trans hv.le hturn.le).trans hw.le

/-- The mapping that a join writes takes the place of none, or of a mock one by a real one. -/
theorem moves_of_version {seen : Resolution} {m : Meeting} (hseen : Resolved w₀ u s seen)
    (hheld : Held v s m) (hle : Grows u v) (hsound : Sound v)
    (hfound : ∀ mapping version, seen ≠ .found mapping version)
    (hother : ∀ version, seen ≠ .stale (.ofMeeting m) version)
    (hversion : (v.store.lookup (mappingKey s)).map Versioned.version = seen.version?) :
    Moves s (v.store.mappingAt s) (some (.ofMeeting m)) := by
  obtain ⟨meetingId, kind, degraded⟩ := m
  have hgiven : Given v.past s ⟨meetingId, kind⟩ := hheld.given
  cases seen with
  | found mapping version => exact absurd rfl (hfound mapping version)
  | absent =>
    -- Without a version there is no mapping, and any may be made.
    rw [Memory.mappingAt_eq_none_iff.2 (Option.map_eq_none_iff.1 hversion)]
    cases kind with
    | mock =>
      obtain rfl : meetingId = mockMeetingId s := hgiven
      exact .mock
    | real => exact .real meetingId
  | stale mapping version =>
    -- The version is the one that was seen, so the mapping is the mock one that was seen.
    obtain ⟨hmock, -, stored, hsaw, rfl, hdecode⟩ := hseen.stale _ _ rfl
    have hlookup := (hsaw.advance hle.store).lookup_eq hversion
    have hat := Memory.mappingAt_of_lookup hlookup
    rw [hdecode] at hat
    have hcurrent := hsound.mapped s _ hat
    obtain ⟨oldId, oldKind⟩ := mapping
    obtain rfl : oldKind = .mock := hmock
    obtain rfl : oldId = mockMeetingId s := hcurrent
    rw [hat]
    cases kind with
    | mock =>
      obtain rfl : meetingId = mockMeetingId s := hgiven
      exact absurd rfl (hother stored.version)
    | real => exact .promote meetingId

/-- A mapping that was written is in force. -/
theorem chosen_written {m : Meeting} (hw : Sound w) (hheld : Held w s m)
    (hmoves : Moves s (w.store.mappingAt s) (some (.ofMeeting m))) (i : Nat)
    (expected : Option Nat) :
    let w' := w.written i (mappingKey s) (Mapping.ofMeeting m).encode expected
    Sound w' ∧ Grows w w' ∧ Chosen w w' s (.ofMeeting m) := by
  intro w'
  obtain ⟨hsound, hgrows⟩ := sound_written_mapping hw hheld.given hmoves i expected
  have hat : w'.store.mappingAt s = some (.ofMeeting m) :=
    (Memory.mappingAt_insert_encode ..).trans (if_pos rfl)
  exact ⟨hsound, hgrows, w', hsound, hgrows, hat, grows_refl w'⟩

/-- A mapping that is written is a choice of the meeting that is held. -/
theorem ensures_writeMapping_ledger {j : Joiner} {seen : Resolution} {m : Meeting}
    (hseen : Resolved w₀ u j.sessionId seen) (hheld : Held u j.sessionId m) (hstart : Grows w₀ u)
    (hfound : ∀ mapping version, seen ≠ .found mapping version) :
    ledger.Ensures i (j.writeMapping seen m)
      (fun written v => Grows u v ∧ (written = true → Chosen w₀ v j.sessionId (.ofMeeting m)))
      anyError u := by
  refine ensures_writeMapping (fun w version hstale hw => ?_) (fun hother v hv hversion _ => ?_)
    (fun v v' w hv _ hturn hw => ⟨?_, fun h => nomatch h⟩) fun _ _ => trivial
  -- The mapping is in place, so nothing is written.
  · exact ⟨hw.le, fun _ => (hseen.stale _ _ hstale).2.1.grows hw.le⟩
  · have hheld' : Held v j.sessionId m := hheld.grows hv.le
    have hmoves := moves_of_version hseen hheld' hv.le hv.inv hfound hother hversion
    obtain ⟨hsound, hgrows, hchosen⟩ := chosen_written hv.inv hheld' hmoves i seen.version?
    refine ⟨hsound, hgrows, fun w hw => ⟨(Grows.trans hv.le hgrows).trans hw.le, fun _ => ?_⟩⟩
    exact (hchosen.start (hstart.trans hv.le)).grows hw.le
  · exact (Grows.trans hv.le hturn.le).trans hw.le

/-! ### The session of a join -/

/-- A draft that may be written: it continues the record whose version it carries, and it is that
record if it is not to be written anyway. -/
structure Drafted (w₀ w : World) (s : String) (d : Draft) : Prop where
  chosen : Chosen w₀ w s d.session.mapping
  ours : FreshGrants w.past → d.session.sessionId = s ∧ d.session.Proper
  base : FreshGrants w.past → ∀ version, d.version = some version →
    ∃ stored x, w.store.Saw (sessionKey d.session.meetingId) stored ∧ stored.version = version ∧
      Session.decode stored.value = .ok x ∧ x.Continues d.session
  clean : FreshGrants w.past → d.dirty = false →
    ∃ x, w.store.sessionAt d.session.meetingId = some x ∧ d.session.Continues x

theorem Drafted.grows {d : Draft} (h : Drafted w₀ v s d) (hle : Grows v w) :
    Drafted w₀ w s d where
  chosen := h.chosen.grows hle
  ours hfresh := h.ours (hfresh.of_suffix hle.past)
  base hfresh version hversion := by
    obtain ⟨stored, x, hsaw, hx⟩ := h.base (hfresh.of_suffix hle.past) version hversion
    exact ⟨stored, x, hsaw.advance hle.store, hx⟩
  clean hfresh hdirty := by
    obtain ⟨x, hx, hcontinues⟩ := h.clean (hfresh.of_suffix hle.past) hdirty
    obtain ⟨y, hy, hxy⟩ := hle.sessions hfresh _ x hx
    exact ⟨y, hy, hcontinues.trans hxy⟩

/-- A session that was not there is made for the meeting. -/
theorem drafted_new {m : Meeting} {t : Int} (hchosen : Chosen w₀ w s (.ofMeeting m))
    (hgenuine : m.kind = .real → m.degraded = false) (ht : fitsInt64 t) :
    Drafted w₀ w s ⟨Session.new s m t, none, true⟩ where
  chosen := hchosen
  ours _ := ⟨rfl, Session.proper_new s hgenuine ht⟩
  base _ _ h := nomatch h
  clean _ h := nomatch h

/-- In a meeting that was given for a session id, there is no session but its own, as it should
be. -/
theorem Housed.fit_eq {meetingId : String} {x : Session} (h : Housed v meetingId x)
    (hfresh : FreshGrants v.past) (hgiven : Given v.past s mapping)
    (hid : mapping.meetingId = meetingId) : x.sessionId = s ∧ x.mapping = mapping ∧
      x.fit mapping = x := by
  obtain ⟨meetingId, kind⟩ := mapping
  obtain rfl : x.meetingId = meetingId := h.meeting.trans hid.symm
  obtain ⟨hs, hkind⟩ := Given.unique hfresh h.given hgiven
  have hmapping : x.mapping = ⟨x.meetingId, kind⟩ := by
    rw [Session.mapping, hkind]
  refine ⟨hs, hmapping, Session.fit_of_agrees ?_⟩
  simp [Session.agrees, hkind]

/-- A session that was read is drafted as it is, or as the mapping corrects it. -/
theorem drafted_fit {stored : Versioned} {x : Session} {dirty : Bool} (hv : Sound v)
    (hchosen : Chosen w₀ v s mapping)
    (hlookup : v.store.lookup (sessionKey mapping.meetingId) = some stored)
    (hdecode : Session.decode stored.value = .ok x) :
    Drafted w₀ v s ⟨x.fit mapping, some stored.version, dirty⟩ := by
  -- The record is the one of the session itself, so there is nothing to correct in it.
  have hsame : FreshGrants v.past →
      Housed v mapping.meetingId x ∧ x.sessionId = s ∧ x.fit mapping = x := fun hfresh => by
    have hhoused := hv.housed_of_decode hfresh hlookup hdecode
    obtain ⟨hs, -, hfit⟩ := hhoused.fit_eq hfresh hchosen.given rfl
    exact ⟨hhoused, hs, hfit⟩
  refine ⟨hchosen, fun hfresh => ?_, fun hfresh version hversion => ?_, fun hfresh _ => ?_⟩
  · obtain ⟨hhoused, hs, hfit⟩ := hsame hfresh
    dsimp only
    rw [hfit]
    exact ⟨hs, hhoused.proper⟩
  · obtain ⟨-, -, hfit⟩ := hsame hfresh
    obtain rfl := Option.some.inj hversion
    refine ⟨stored, x, Memory.saw_of_lookup hlookup, rfl, hdecode, ?_⟩
    dsimp only
    rw [hfit]
    exact Session.continues_refl x
  · obtain ⟨-, -, hfit⟩ := hsame hfresh
    refine ⟨x, Memory.sessionAt_of_lookup hlookup hdecode, ?_⟩
    dsimp only
    rw [hfit]
    exact Session.continues_refl x

/-- A draft is for the meeting that the mapping chose. -/
theorem ensures_openMapped_ledger {j : Joiner} (hchosen : Chosen w₀ u j.sessionId mapping) :
    ledger.Ensures i (j.openMapped mapping)
      (fun d v => Grows u v ∧ Drafted w₀ v j.sessionId d) anyError u := by
  refine ensures_openMapped (fun v w t hv _ hreads ht => ?_)
    (fun v w stored x hv hlookup hdecode hreads => ?_) (fun _ _ _ _ _ _ _ _ => trivial)
    fun _ _ => trivial
  · have hle : Grows u w := Grows.trans hv.le hreads.le
    exact ⟨hle, drafted_new (m := ⟨mapping.meetingId, mapping.kind, false⟩) (hchosen.grows hle)
      (fun _ => rfl) ht⟩
  · refine ⟨Grows.trans hv.le hreads.le, Drafted.grows ?_ hreads.le⟩
    exact drafted_fit hv.inv (hchosen.grows hv.le) hlookup hdecode

theorem Drafted.graded {d : Draft} {m : Meeting} (h : Drafted w₀ w s d)
    (hkind : d.session.kind = m.kind) (hgenuine : m.kind = .real → m.degraded = false) :
    Drafted w₀ w s (d.graded m.degraded) := by
  unfold Draft.graded
  split
  · exact h
  · refine ⟨h.chosen, fun hfresh => ?_, fun hfresh version hversion => ?_, fun _ h => nomatch h⟩
    · obtain ⟨hs, hproper⟩ := h.ours hfresh
      exact ⟨hs, { hproper with
        genuine := fun hreal => hgenuine (hkind.symm.trans hreal)
        timed := ⟨hproper.timed.created, hproper.timed.joined⟩ }⟩
    · obtain ⟨stored, x, hsaw, hstored, hdecode, hcontinues⟩ := h.base hfresh version hversion
      exact ⟨stored, x, hsaw, hstored, hdecode, { hcontinues with }⟩

/-- A draft is for the meeting that was obtained, with a session of the id that is joined. -/
theorem ensures_openAllocated_ledger {j : Joiner} {m : Meeting}
    (hchosen : Chosen w₀ u j.sessionId (.ofMeeting m)) (hheld : Held u j.sessionId m) :
    ledger.Ensures i (j.openAllocated m)
      (fun d v => Grows u v ∧ Drafted w₀ v j.sessionId d) anyError u := by
  refine ensures_openAllocated (fun v w t hv _ hreads ht => ?_)
    (fun v w stored x hv hlookup hdecode _ hreads => ?_)
    (fun v w stored x t hv hlookup hdecode hforeign hreads ht => ?_)
    (fun _ _ _ _ _ _ _ _ => trivial) fun _ _ => trivial
  · have hle : Grows u w := Grows.trans hv.le hreads.le
    exact ⟨hle, drafted_new (hchosen.grows hle) hheld.genuine ht⟩
  · refine ⟨Grows.trans hv.le hreads.le, Drafted.graded ?_ rfl hheld.genuine⟩
    exact (drafted_fit hv.inv (hchosen.grows hv.le) hlookup hdecode).grows hreads.le
  · have hle : Grows u w := Grows.trans hv.le hreads.le
    have hnew := drafted_new (hchosen.grows hle) hheld.genuine ht
    -- The record of another session would be replaced, but there cannot be one.
    refine ⟨hle, hnew.chosen, hnew.ours, fun hfresh => ?_, fun _ h => nomatch h⟩
    have hbefore := hfresh.of_suffix hreads.le.past
    have hhoused := Sound.housed_of_decode hv.inv hbefore hlookup hdecode
    exact absurd (hhoused.fit_eq hbefore (hchosen.grows hv.le).given rfl).1 hforeign

/-- What a join comes to: the user is in the session that the session id leads to. -/
structure Seated (w₀ w : World) (s userId : String) (x : Session) : Prop where
  chosen : Chosen w₀ w s x.mapping
  ours : FreshGrants w.past → x.sessionId = s ∧ x.hasMember userId = true
  stored : FreshGrants w.past →
    ∃ y, w.store.sessionAt x.meetingId = some y ∧ x.Continues y

theorem Seated.grows {userId : String} {x : Session} (h : Seated w₀ v s userId x)
    (hle : Grows v w) : Seated w₀ w s userId x where
  chosen := h.chosen.grows hle
  ours hfresh := h.ours (hfresh.of_suffix hle.past)
  stored hfresh := by
    obtain ⟨y, hy, hcontinues⟩ := h.stored (hfresh.of_suffix hle.past)
    obtain ⟨z, hz, hyz⟩ := hle.sessions hfresh _ y hy
    exact ⟨z, hz, hcontinues.trans hyz⟩

theorem Seated.start {userId : String} {x : Session} (h : Seated v w s userId x)
    (hle : Grows w₀ v) : Seated w₀ w s userId x :=
  ⟨h.chosen.start hle, h.ours, h.stored⟩

/-- Who is in a draft that need not be written is seated. -/
theorem Drafted.seated {d : Draft} {userId : String} (h : Drafted w₀ w s d)
    (hdirty : d.dirty = false) (hmember : d.session.hasMember userId = true) :
    Seated w₀ w s userId d.session where
  chosen := h.chosen
  ours hfresh := ⟨(h.ours hfresh).1, hmember⟩
  stored hfresh := h.clean hfresh hdirty

/-- With one more member a draft belongs where it was. -/
theorem Drafted.housed_add {d : Draft} {m : Member} (h : Drafted w₀ w s d)
    (hfresh : FreshGrants w.past) (hroom : d.session.isFull = false) (hm : m.Admitted)
    (ht : m.Timed) : Housed w (d.session.add m).meetingId (d.session.add m) := by
  have hadd : d.session.Continues (d.session.add m) := Session.continues_add d.session m
  obtain ⟨hs, hproper⟩ := h.ours hfresh
  refine ⟨rfl, ?_, hproper.add hroom hm ht, ?_⟩
  · rw [hadd.sessionId, hs, hadd.mapping_eq]
    exact h.chosen.given
  · rw [hadd.sessionId, hs, hadd.mapping_eq]
    exact h.chosen.leads

/-- The record that has the version of a draft is the one that the draft continues. -/
theorem Drafted.continues_stored {d : Draft} {y : Session} (h : Drafted w₀ w s d)
    (hfresh : FreshGrants w.past)
    (hversion : (w.store.lookup (sessionKey d.session.meetingId)).map Versioned.version = d.version)
    (hy : w.store.sessionAt d.session.meetingId = some y) : y.Continues d.session := by
  obtain ⟨stored, hlookup, hdecode⟩ := Memory.lookup_of_sessionAt hy
  rw [hlookup] at hversion
  obtain ⟨old, x, hsaw, hold, hx, hcontinues⟩ := h.base hfresh stored.version hversion.symm
  have hcurrent : (w.store.lookup (sessionKey d.session.meetingId)).map Versioned.version =
      some old.version := by
    rw [hlookup, hold]
    rfl
  obtain rfl : stored = old := Option.some.inj (hlookup.symm.trans (hsaw.lookup_eq hcurrent))
  obtain rfl : x = y := Except.ok.inj (hx.symm.trans hdecode)
  exact hcontinues

/-- A draft is written with a member added, over the record that it continues. -/
theorem Drafted.written {d : Draft} {m : Member} (h : Drafted w₀ w s d) (hw : Sound w)
    (hroom : d.session.isFull = false) (hm : m.Admitted) (ht : m.Timed)
    (hversion : (w.store.lookup (sessionKey (d.session.add m).meetingId)).map Versioned.version =
      d.version) (i : Nat) :
    let w' := w.written i (sessionKey (d.session.add m).meetingId) (d.session.add m).encode d.version
    Sound w' ∧ Grows w w' ∧ Seated w₀ w' s m.userId (d.session.add m) := by
  intro w'
  -- The session that is written continues the draft, and so the one that is stored.
  have hadd : d.session.Continues (d.session.add m) := Session.continues_add d.session m
  have hhoused := fun hfresh : FreshGrants w.past => h.housed_add hfresh hroom hm ht
  have hcontinues : FreshGrants w.past →
      ∀ y, w.store.sessionAt (d.session.add m).meetingId = some y →
        y.Continues (d.session.add m) := fun hfresh y hy => by
    rw [hadd.meetingId] at hversion hy
    exact (h.continues_stored hfresh hversion hy).trans hadd
  obtain ⟨hsound, hgrows⟩ := sound_written_session hw hhoused hcontinues i d.version
  refine ⟨hsound, hgrows, ?_, fun hfresh => ?_, fun hfresh => ?_⟩
  · rw [hadd.mapping_eq]
    exact h.chosen.grows hgrows
  -- What the draft says of the id holds of the session that is written.
  · have hours := h.ours (hfresh.of_suffix hgrows.past)
    exact ⟨hadd.sessionId.trans hours.1, Session.hasMember_add d.session m⟩
  · refine ⟨d.session.add m, ?_, Session.continues_refl _⟩
    have hproper := (hhoused (hfresh.of_suffix hgrows.past)).proper
    exact (Memory.sessionAt_insert_encode _ _ _ hproper.timed _).trans (if_pos rfl)

/-- The request of a joiner was accepted. -/
def Accepted (j : Joiner) : Prop :=
  JoinRequest.validate ⟨some j.userId, j.iconUrl⟩ = .ok j.userId

/-- Who enters a draft is seated. -/
theorem ensures_enter_ledger {j : Joiner} {d : Draft} (hdraft : Drafted w₀ u j.sessionId d)
    (hj : Accepted j) :
    ledger.Ensures i (j.enter d)
      (fun a v => Grows u v ∧ ∀ x added, a = .joined x added → Seated w₀ v j.sessionId j.userId x)
      anyError u := by
  refine ensures_enter (fun _ _ _ => trivial) (fun _ hdirty hmember w hw => ⟨hw.le, ?_⟩)
    (fun hroom _ v t hv ht hversion _ => ?_)
    (fun _ v v' w t hv _ hturn hw => ⟨?_, fun _ _ h => nomatch h⟩) fun _ _ _ _ => trivial
  · intro x added h
    cases h
    exact (hdraft.grows hw.le).seated hdirty hmember
  · obtain ⟨hsound, hgrows, hseated⟩ :=
      (hdraft.grows hv.le).written (m := ⟨j.userId, t, j.iconUrl⟩) hv.inv hroom hj ht hversion i
    refine ⟨hsound, hgrows, fun w hw => ⟨(Grows.trans hv.le hgrows).trans hw.le, ?_⟩⟩
    intro x added h
    cases h
    exact hseated.grows hw.le
  · exact (Grows.trans hv.le hturn.le).trans hw.le

/-! ### A join as a whole -/

/-- What an attempt leaves behind: a session that the user is in, unless it was raced, and a
meeting to hold on to. -/
structure Attempted (w₀ w : World) (j : Joiner) (r : Attempt × Option Meeting) : Prop where
  start : Grows w₀ w
  seated : ∀ x added, r.1 = .joined x added → Seated w₀ w j.sessionId j.userId x
  held : ∀ m, r.2 = some m → Held w j.sessionId m

/-- Entering with a draft ends an attempt. -/
theorem ensures_enter_attempted {j : Joiner} {d : Draft} {held : Option Meeting}
    (hdraft : Drafted w₀ u j.sessionId d) (hstart : Grows w₀ u) (hj : Accepted j)
    (hheld : ∀ m, held = some m → Held u j.sessionId m) :
    ledger.Ensures i (do return (← j.enter d, held)) (fun r v => Attempted w₀ v j r) anyError u := by
  refine (ensures_enter_ledger hdraft hj).bind fun a v _ ha => ensures_pure fun w hw => ?_
  obtain ⟨hle, hseated⟩ := ha w hw
  exact ⟨hstart.trans hle, hseated, fun m hm => (hheld m hm).grows hle⟩

/-- An attempt goes on with a meeting where no mapping that counts was found. -/
theorem ensures_settle_ledger {j : Joiner} {seen : Resolution} {m : Meeting}
    (hseen : Resolved w₀ u j.sessionId seen) (hheld : Held u j.sessionId m) (hstart : Grows w₀ u)
    (hfound : ∀ mapping version, seen ≠ .found mapping version) (hj : Accepted j) :
    ledger.Ensures i (j.settle seen m) (fun r v => Attempted w₀ v j r) anyError u := by
  have hkeep : ∀ v, Grows u v → ∀ m', some m = some m' → Held v j.sessionId m' :=
    fun v hle m' h => by
      cases h
      exact hheld.grows hle
  refine (ensures_writeMapping_ledger hseen hheld hstart hfound).bind fun written v hv h => ?_
  obtain ⟨hle, hchosen⟩ := h v hv
  -- Somebody was faster, or the mapping is a choice of this meeting.
  cases written with
  | false =>
    refine ensures_pure fun w hw => ?_
    have hw' : Grows u w := hle.trans hw.le
    exact ⟨hstart.trans hw', fun _ _ h => (nomatch h), hkeep w hw'⟩
  | true =>
    refine (ensures_openAllocated_ledger (hchosen rfl) (hheld.grows hle)).bind
      fun d v' hv' h' => ?_
    obtain ⟨hle', hdraft⟩ := h' v' hv'
    have hv' : Grows u v' := hle.trans hle'
    exact ensures_enter_attempted hdraft (hstart.trans hv') hj (hkeep v' hv')

/-- An attempt ends with a seat, or goes on with the meeting that it holds. -/
theorem ensures_attempt_ledger {j : Joiner} {held : Option Meeting} (hstart : Grows w₀ u)
    (hj : Accepted j) (hheld : ∀ m, held = some m → Held u j.sessionId m) :
    ledger.Ensures i (j.attempt held) (fun r v => Attempted w₀ v j r) anyError u := by
  -- What is known once the mapping was looked up, whatever it says.
  have hlooked : ∀ {v w seen}, ledger.Later i u v → ledger.Reads i (mappingKey j.sessionId) v w →
      Resolution.read j.mode (v.store.lookup (mappingKey j.sessionId)) = seen →
      Grows w₀ w ∧ Grows u w ∧ Resolved w₀ w j.sessionId seen := by
    rintro v w _ hv hreads rfl
    have hv' : Grows w₀ v := hstart.trans hv.le
    exact ⟨hv'.trans hreads.le, Grows.trans hv.le hreads.le, resolved_read hv.inv hv' hreads.le⟩
  refine ensures_attempt (fun v w mapping version hv hreads hread => ?_)
    (fun v w seen m hv hreads hread hfound hm => ?_)
    (fun v w seen hv hreads hread hfound _ => ?_) fun _ _ => trivial
  · obtain ⟨hw, hle, hresolved⟩ := hlooked hv hreads hread
    refine (ensures_openMapped_ledger (hresolved.found mapping version rfl)).bind
      fun d v' hv' h => ?_
    obtain ⟨hle', hdraft⟩ := h v' hv'
    exact ensures_enter_attempted hdraft (hw.trans hle') hj
      fun m hm => (hheld m hm).grows (hle.trans hle')
  · obtain ⟨hw, hle, hresolved⟩ := hlooked hv hreads hread
    exact ensures_settle_ledger hresolved ((hheld m hm).grows hle) hw hfound hj
  · obtain ⟨hw, -, hresolved⟩ := hlooked hv hreads hread
    refine (holds_allocate_ledger j.mode j.sessionId).lift fun m w' hw' h => ?_
    obtain ⟨hle, hnew⟩ := h w' hw'
    exact ensures_settle_ledger (hresolved.grows hle) hnew (hw.trans hle) hfound hj

/-- So do any number of attempts. -/
theorem ensures_retry_ledger {appId : String} {j : Joiner} (hj : Accepted j) (left : Nat)
    {held : Option Meeting} (hstart : Grows w₀ u)
    (hheld : ∀ m, held = some m → Held u j.sessionId m) :
    ledger.Ensures i (j.retry appId left held)
      (fun reply v => Seated w₀ v j.sessionId j.userId reply.session) anyError u := by
  -- A raced attempt leaves what the next one needs to know: the time that passed and what is held.
  refine ensures_retry
    (I := fun _ held v => Grows w₀ v ∧ ∀ m, held = some m → Held v j.sessionId m)
    (fun left held v h => ?_) (fun _ _ _ _ _ => trivial) left ⟨hstart, hheld⟩
  refine (ensures_attempt_ledger h.1 hj h.2).mono (fun result w _ _ hresult => ?_)
    fun _ _ _ _ _ _ _ => trivial
  match result, hresult with
  | (.joined x added, held'), hresult =>
    rintro reply w' rfl hw' -
    exact (hresult.seated _ added rfl).grows hw'.le
  | (.raced, held'), hresult =>
    exact fun w' hw' => ⟨hresult.start.trans hw'.le, fun m hm => (hresult.held m hm).grows hw'.le⟩

/-- A join that comes in has a valid request, and its user is seated. -/
theorem ensures_join_ledger (appId : String) (mode : Mode) (s : String) (r : JoinRequest) :
    ledger.Ensures i (join appId mode s r)
      (fun reply v => ∃ userId, r.validate = .ok userId ∧ Seated u v s userId reply.session)
      anyError u := by
  unfold join
  cases hvalid : r.validate with
  | error fault => exact ensures_count fun _ _ => ensures_throw fun _ _ => trivial
  | ok userId =>
    have hj : Accepted ⟨mode, s, userId, r.iconUrl⟩ := Member.admitted_of_validate hvalid 0
    exact Ensures.mono (ensures_retry_ledger hj maxAttempts (grows_refl u) fun _ h => nomatch h)
      (fun reply v _ _ hseated => ⟨userId, rfl, hseated⟩) fun _ _ _ _ h => h

/-! ### A creation -/

/-- A session without members is written where its mapping leads, if no record is there. -/
theorem sound_written_new {m : Meeting} {t : Int} (hw : Sound w) (hheld : Held w s m)
    (hchosen : Chosen w₀ w s (.ofMeeting m)) (ht : fitsInt64 t)
    (hversion : (w.store.lookup (sessionKey m.id)).map Versioned.version = none) (i : Nat) :
    let w' := w.written i (sessionKey m.id) (Session.new s m t).encode none
    Sound w' ∧ Grows w w' := by
  refine sound_written_session (x := Session.new s m t) hw (fun _ => ⟨rfl, hchosen.given,
    Session.proper_new s hheld.genuine ht, hchosen.leads⟩) (fun _ y hy => ?_) i none
  obtain ⟨stored, hlookup, -⟩ := Memory.lookup_of_sessionAt hy
  exact nomatch hlookup.symm.trans (Option.map_eq_none_iff.1 hversion)

/-- A create that comes through has chosen the meeting of its session. -/
theorem ensures_create_ledger (mode : Mode) :
    ledger.Ensures i (create mode) (fun x v => Chosen u v x.sessionId x.mapping) anyError u := by
  unfold create
  refine ensures_lift (holds_ask_idle trivial fun v hv s => holds_done fun v' hv' => ?_)
  refine (holds_allocate_ledger mode s).lift fun m w hw h => ?_
  obtain ⟨hw, hheld⟩ := h w hw
  refine ensures_now fun w₁ t hw₁ ht => ?_
  have hheld₁ : Held w₁ s m := hheld.grows hw₁.le
  refine ensures_putIf (fun w₂ hw₂ hversion _ => ?_)
    (fun _ _ _ _ _ => ensures_note fun _ _ => ensures_throw fun _ _ => trivial)
    fun _ _ _ _ _ => trivial
  -- The first write makes the mapping.
  have hheld₂ : Held w₂ s m := hheld₁.grows hw₂.le
  have habsent : Resolved w₂ w₂ s .absent := ⟨fun _ _ h => (nomatch h), fun _ _ h => (nomatch h)⟩
  have hmoves : Moves s (w₂.store.mappingAt s) (some (.ofMeeting m)) :=
    moves_of_version habsent hheld₂ (grows_refl w₂) hw₂.inv (fun _ _ h => nomatch h)
      (fun _ h => nomatch h) hversion
  obtain ⟨hsound, hgrows, hchosen⟩ := chosen_written hw₂.inv hheld₂ hmoves i none
  have hstart : Grows u w₂ := ((hv.le.trans hv'.le).trans hw).trans (Grows.trans hw₁.le hw₂.le)
  refine ⟨hsound, hgrows, ensures_putIf (fun w₃ hw₃ hversion' _ => ?_)
    (fun _ _ _ _ _ => ensures_note fun _ _ => ensures_throw fun _ _ => trivial)
    fun _ _ _ _ _ => trivial⟩
  -- The second write makes the session, while the mapping may have moved on already.
  have hheld₃ : Held w₃ s m := hheld₂.grows (hgrows.trans hw₃.le)
  obtain ⟨hsound', hgrows'⟩ :=
    sound_written_new hw₃.inv hheld₃ (hchosen.grows hw₃.le) ht hversion' i
  refine ⟨hsound', hgrows', ensures_count fun w₄ hw₄ => ensures_note fun w₅ hw₅ =>
    ensures_pure fun w₆ hw₆ => ?_⟩
  have hend : Grows w₃ w₆ := (hgrows'.trans hw₄.le).trans (Grows.trans hw₅.le hw₆.le)
  exact (hchosen.start hstart).grows (Grows.trans hw₃.le hend)

/-! ### Every job -/

/-- What is known of an outcome: a session that was created is where its id leads, and a join that
succeeded seats its user. -/
def Outcome.Backed (w₀ : World) : Job → Outcome → World → Prop
  | .create _, .created (.ok x), w => Chosen w₀ w x.sessionId x.mapping
  | .join _ s r, .joined (.ok reply), w =>
    ∃ userId, r.validate = .ok userId ∧ Seated w₀ w s userId reply.session
  | _, _, _ => True

theorem Outcome.Backed.start {job : Job} {outcome : Outcome} (h : outcome.Backed v job w)
    (hle : Grows w₀ v) : outcome.Backed w₀ job w := by
  cases job with
  | create mode =>
    cases outcome with
    | created r =>
      cases r with
      | ok x => exact Chosen.start h hle
      | error e => trivial
    | joined r => trivial
  | join mode s r =>
    cases outcome with
    | created r => trivial
    | joined r =>
      cases r with
      | ok reply =>
        obtain ⟨userId, hvalid, hseated⟩ := h
        exact ⟨userId, hvalid, hseated.start hle⟩
      | error e => trivial

/-- Whatever a job is told in the end is backed. -/
theorem holds_job_ledger (appId : String) (job : Job) :
    ledger.Holds i (job.program appId) (Outcome.Backed u job) u := by
  cases job with
  | create mode =>
    refine holds_map (Holds.mono (ensures_create_ledger mode) fun r v _ _ h => ?_)
    cases r with
    | ok x => exact h
    | error e => trivial
  | join mode s r =>
    refine holds_map (Holds.mono (ensures_join_ledger appId mode s r) fun result v _ _ h => ?_)
    cases result with
    | ok reply => exact h
    | error e => trivial

end VoiceRoom.Concurrency
