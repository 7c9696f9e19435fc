import VoiceRoom.Proofs.Concurrency.Solitude
import VoiceRoom.Proofs.Concurrency.Visits
import VoiceRoom.Proofs.Conduct.Requests

/-!
# Whose session a join comes to

A store may hold anything: mappings of other ids to the same meeting, mappings of old that are bare
meeting ids, records of any session in any meeting. What a join that nothing disturbs does to the
sessions of others is told here for all of them.

A join that has to obtain a meeting looks whose session it finds there, and never enters that of
another id. One whose mapping counts does not look: the mapping decides, and where it leads to the
session of another id (`Astray`), the join enters that one. There is no other case
(`join_enters_own`).
-/

namespace VoiceRoom.Concurrency

open Discipline
open Simulation (Entry)

variable {i : Nat} {u v w : World} {m m' : Memory} {mode : Mode} {s k : String}

/-! ### A task that is left alone on any store -/

/-- Nothing happens but that one task is answered, and without a write no record changes. -/
def seclusion (i : Nat) : Discipline where
  assumes past := ∀ act ∈ past, ∃ e, act = .answer i e
  inv _ := True
  le u w := ∃ new, w.past = new ++ u.past ∧
    ((∀ act ∈ new, ¬ act.Writes) → ∀ key, w.store.lookup key = u.store.lookup key)
  refl w := ⟨[], rfl, fun _ _ => rfl⟩
  trans := by
    rintro u v w ⟨new, hnew, hsame⟩ ⟨newer, hnewer, hsame'⟩
    refine ⟨newer ++ new, by rw [hnewer, hnew, List.append_assoc], fun hquiet key => ?_⟩
    rw [hsame' (fun act h => hquiet act (List.mem_append_left _ h)),
      hsame fun act h => hquiet act (List.mem_append_right _ h)]
  assumes_tail h act hact := h act (List.mem_cons_of_mem _ hact)
  quiet hact hallows _ _ :=
    ⟨trivial, [_], rfl, fun _ => lookup_next_of_not_writes hact hallows⟩

/-- Any write is allowed, since there is nobody to be disturbed. -/
theorem seclusion_le_written (v : World) (key value : String) (expected : Option Nat) :
    (seclusion i).le v (v.written i key value expected) :=
  ⟨[_], rfl, fun h => absurd trivial (h _ List.mem_cons_self)⟩

/-- What was not written is as it was. -/
theorem seclusion_lookup_of_rests (h : (seclusion i).Rests i u w) (key : String) :
    w.store.lookup key = u.store.lookup key := by
  obtain ⟨new, hnew, hsame⟩ := h.le
  obtain ⟨told, rfl⟩ : ∃ told : List Entry, new = told.map (.answer i) :=
    exists_eq_map_answer fun act hact => h.assumes act (hnew ▸ List.mem_append_left _ hact)
  obtain ⟨entries, hown, hquiet⟩ := h.own
  rw [hnew, own_append, own_map_answer] at hown
  obtain rfl := List.append_cancel_right hown
  refine hsame (fun act hact => ?_) key
  obtain ⟨e, he, rfl⟩ := List.mem_map.1 hact
  exact hquiet e he

/-! ### What is left as it was -/

/-- Of the records of a store, at most the mapping of one session id is another than before. -/
structure Spares (m m' : Memory) (s : String) : Prop where
  sessions : ∀ k, m'.lookup (sessionKey k) = m.lookup (sessionKey k)
  mappings : ∀ t, t ≠ s → m'.lookup (mappingKey t) = m.lookup (mappingKey t)

theorem Spares.congr {m₁ m₂ : Memory} (h : Spares m m₁ s)
    (hsame : ∀ key, m₂.lookup key = m₁.lookup key) : Spares m m₂ s where
  sessions k := (hsame _).trans (h.sessions k)
  mappings t ht := (hsame _).trans (h.mappings t ht)

theorem Spares.rests (h : Spares m v.store s) (hle : (seclusion i).Rests i v w) :
    Spares m w.store s :=
  h.congr (seclusion_lookup_of_rests hle)

/-- The mapping of the session id itself need not be spared. -/
theorem Spares.insert_mapping (h : Spares m m' s) (v : Versioned) :
    Spares m (m'.insert (mappingKey s) v) s where
  sessions k := (Memory.lookup_insert_mapping m' s k v).trans (h.sessions k)
  mappings t ht := by
    rw [Memory.lookup_insert, if_neg (mt mappingKey_inj.1 ht)]
    exact h.mappings t ht

/-! ### Where sessions come from -/

/-- A mapping that counts in a mode: nobody obtains a meeting in its place. -/
def Counts (m : Memory) (mode : Mode) (s : String) (mapping : Mapping) : Prop :=
  m.mappingAt s = some mapping ∧ (mode = .mock ∨ mapping.kind = .real)

/-- A mapping that counts is found. -/
theorem Counts.found {mapping : Mapping} (h : Counts m mode s mapping) : ∃ version,
    Resolution.read mode (m.lookup (mappingKey s)) = .found mapping version := by
  obtain ⟨stored, hlookup, rfl⟩ := Memory.lookup_of_mappingAt h.1
  refine ⟨stored.version, ?_⟩
  rw [hlookup]
  exact Resolution.ofStored_of_counts h.2

/-- A mapping that counts leads to the session of another id. -/
structure Astray (m : Memory) (mode : Mode) (s : String) (y : Session) : Prop where
  led : ∃ mapping, Counts m mode s mapping ∧ m.sessionAt mapping.meetingId = some y
  foreign : y.sessionId ≠ s

/-- What a join starts from in a meeting: the session that is stored there, which is of the id that
is joined unless that id was led astray, or a new one. A new session is made where there is no
record, and in the place of another id's if the meeting was obtained. -/
inductive Origin (m : Memory) (mode : Mode) (s k : String) (x : Session) : Prop where
  | kept {y : Session} (hstored : m.sessionAt k = some y)
      (howner : y.sessionId = s ∨ Astray m mode s y) (hid : x.sessionId = y.sessionId)
      (husers : x.users = y.users)
  | made (hvacant : m.lookup (sessionKey k) = none) (hid : x.sessionId = s) (husers : x.users = [])
  | replaced {y : Session} (hstored : m.sessionAt k = some y) (hforeign : y.sessionId ≠ s)
      (hobtained : ∀ mapping, ¬ Counts m mode s mapping) (hid : x.sessionId = s)
      (husers : x.users = [])

/-- Who is not led astray starts from a session of the id that is joined. -/
theorem Origin.own {x : Session} (h : Origin m mode s k x) (hours : ∀ y, ¬ Astray m mode s y) :
    x.sessionId = s := by
  cases h with
  | kept hstored howner hid husers => exact hid.trans (howner.resolve_right (hours _))
  | made hvacant hid husers => exact hid
  | replaced hstored hforeign hobtained hid husers => exact hid

/-- A mapping that counts decides which meeting is joined. -/
def Led (m : Memory) (mode : Mode) (s k : String) : Prop :=
  ∀ mapping, Counts m mode s mapping → k = mapping.meetingId

/-- A mapping that counts leads to its meeting. -/
theorem led_of_counts {mapping : Mapping} (h : Counts m mode s mapping) :
    Led m mode s mapping.meetingId := by
  intro mapping' h'
  rw [Option.some.inj (h.1.symm.trans h'.1)]

/-- Who is led astray starts from the session there. -/
theorem Origin.astray {x y : Session} (h : Origin m mode s k x) (hled : Led m mode s k)
    (hy : Astray m mode s y) : x.sessionId = y.sessionId := by
  obtain ⟨mapping, hcounts, hat⟩ := hy.led
  obtain rfl := hled mapping hcounts
  cases h with
  | kept hstored howner hid husers => rw [hid, Option.some.inj (hstored.symm.trans hat)]
  | made hvacant hid husers =>
    exact nomatch (Memory.sessionAt_of_lookup_eq_none hvacant).symm.trans hat
  | replaced hstored hforeign hobtained hid husers => exact absurd hcounts (hobtained mapping)

/-! ### Drafts -/

/-- A draft is for a meeting: it is what the record there says, if nothing has to be written. -/
structure Drafts (m : Memory) (mode : Mode) (s k : String) (d : Draft) : Prop where
  meeting : d.session.meetingId = k
  timed : d.session.Timed
  version : d.version = (m.lookup (sessionKey k)).map Versioned.version
  clean : d.dirty = false → m.sessionAt k = some d.session
  origin : Origin m mode s k d.session

/-- A new session, where there is no record or another id's. -/
theorem drafts_new (meeting : Meeting) {version : Option Nat} {t : Int} (ht : fitsInt64 t)
    (hversion : version = (m.lookup (sessionKey meeting.id)).map Versioned.version)
    (horigin : Origin m mode s meeting.id (Session.new s meeting t)) :
    Drafts m mode s meeting.id ⟨Session.new s meeting t, version, true⟩ :=
  ⟨rfl, ⟨ht, fun _ h => nomatch h⟩, hversion, fun hdirty => (nomatch hdirty), horigin⟩

/-- The session that is stored, if it may be kept. -/
theorem drafts_fit {mapping : Mapping} {stored : Versioned} {x : Session}
    (hlookup : m.lookup (sessionKey mapping.meetingId) = some stored)
    (hdecode : Session.decode stored.value = .ok x)
    (howner : x.sessionId = s ∨ Astray m mode s x) :
    Drafts m mode s mapping.meetingId
      ⟨x.fit mapping, some stored.version, !x.agrees mapping⟩ where
  meeting := rfl
  timed := ⟨(Session.timed_of_decode hdecode).created, (Session.timed_of_decode hdecode).joined⟩
  version := by rw [hlookup, Option.map_some]
  clean hdirty := by
    have hagrees : x.agrees mapping = true := by simpa using hdirty
    show m.sessionAt mapping.meetingId = some (x.fit mapping)
    rw [Session.fit_of_agrees hagrees]
    exact Memory.sessionAt_of_lookup hlookup hdecode
  origin := .kept (Memory.sessionAt_of_lookup hlookup hdecode) howner rfl rfl

theorem Drafts.graded {d : Draft} (h : Drafts m mode s k d) (degraded : Bool) :
    Drafts m mode s k (d.graded degraded) := by
  unfold Draft.graded
  split
  · exact h
  · have horigin : Origin m mode s k { d.session with degraded } := by
      cases h.origin with
      | kept hstored howner hid husers => exact .kept hstored howner hid husers
      | made hvacant hid husers => exact .made hvacant hid husers
      | replaced hstored hforeign hobtained hid husers =>
        exact .replaced hstored hforeign hobtained hid husers
    exact ⟨h.meeting, ⟨h.timed.created, h.timed.joined⟩, h.version, fun hdirty => (nomatch hdirty),
      horigin⟩

/-! ### Each part of an attempt -/

variable {j : Joiner}

/-- A mapping that counts leads to a session of the id that is joined, to another id's, or to
none. -/
theorem ensures_openMapped_secluded {mapping : Mapping} (hu : Spares m u.store j.sessionId)
    (hcounts : Counts m mode j.sessionId mapping) :
    (seclusion i).Ensures i (j.openMapped mapping)
      (fun d w => Spares m w.store j.sessionId ∧ Drafts m mode j.sessionId mapping.meetingId d)
      (fun _ w => Spares m w.store j.sessionId) u := by
  refine ensures_openMapped (fun v w t hv hlookup hreads ht => ?_)
    (fun v w stored x hv hlookup hdecode hreads => ?_)
    (fun v w stored fault hv hlookup hdecode hreads => hu.rests (hv.rests.trans hreads.rests))
    fun w hfails => hu.rests hfails.rests
  all_goals
    rw [seclusion_lookup_of_rests hv.rests, hu.sessions] at hlookup
    refine ⟨hu.rests (hv.rests.trans hreads.rests), ?_⟩
  · exact drafts_new ⟨mapping.meetingId, mapping.kind, false⟩ ht
      (congrArg (Option.map Versioned.version) hlookup).symm (.made hlookup rfl rfl)
  · refine drafts_fit hlookup hdecode ?_
    rw [or_iff_not_imp_left]
    exact fun hforeign => ⟨⟨mapping, hcounts, Memory.sessionAt_of_lookup hlookup hdecode⟩, hforeign⟩

/-- In a meeting that was obtained, a session is kept if it is of the id that is joined, and
replaced if it is not. -/
theorem ensures_openAllocated_secluded {meeting : Meeting} (hu : Spares m u.store j.sessionId)
    (hobtained : ∀ mapping, ¬ Counts m mode j.sessionId mapping) :
    (seclusion i).Ensures i (j.openAllocated meeting)
      (fun d w => Spares m w.store j.sessionId ∧ Drafts m mode j.sessionId meeting.id d)
      (fun _ w => Spares m w.store j.sessionId) u := by
  refine ensures_openAllocated (fun v w t hv hlookup hreads ht => ?_)
    (fun v w stored x hv hlookup hdecode hours hreads => ?_)
    (fun v w stored x t hv hlookup hdecode hforeign hreads ht => ?_)
    (fun v w stored fault hv hlookup hdecode hreads => hu.rests (hv.rests.trans hreads.rests))
    fun w hfails => hu.rests hfails.rests
  all_goals
    rw [seclusion_lookup_of_rests hv.rests, hu.sessions] at hlookup
    refine ⟨hu.rests (hv.rests.trans hreads.rests), ?_⟩
  · exact drafts_new meeting ht (by rw [hlookup, Option.map_none]) (.made hlookup rfl rfl)
  · have hdrafts : Drafts m mode j.sessionId (Mapping.ofMeeting meeting).meetingId _ :=
      drafts_fit hlookup hdecode (.inl hours)
    exact hdrafts.graded meeting.degraded
  · exact drafts_new meeting ht (by rw [hlookup, Option.map_some])
      (.replaced (Memory.sessionAt_of_lookup hlookup hdecode) hforeign hobtained rfl rfl)

/-- A session was entered, and its record tells so. -/
structure Enters (m : Memory) (j : Joiner) (d : Draft) (m' : Memory) (x : Session) : Prop where
  added : ∃ t, x = d.session.add ⟨j.userId, t, j.iconUrl⟩
  stored : m'.sessionAt x.meetingId = some x
  elsewhere : ∀ k, k ≠ x.meetingId → m'.lookup (sessionKey k) = m.lookup (sessionKey k)
  mappings : ∀ t, t ≠ j.sessionId → m'.lookup (mappingKey t) = m.lookup (mappingKey t)

theorem Enters.congr {m₁ m₂ : Memory} {d : Draft} {x : Session} (h : Enters m j d m₁ x)
    (hsame : ∀ key, m₂.lookup key = m₁.lookup key) : Enters m j d m₂ x where
  added := h.added
  stored := by
    rw [Memory.sessionAt, hsame]
    exact h.stored
  elsewhere k hk := (hsame _).trans (h.elsewhere k hk)
  mappings t ht := (hsame _).trans (h.mappings t ht)

/-- Nobody is faster to write the session. -/
theorem ensures_enter_secluded {d : Draft} (hu : Spares m u.store j.sessionId)
    (hd : Drafts m mode j.sessionId k d) :
    (seclusion i).Ensures i (j.enter d)
      (fun a w => ∃ x added, a = .joined x added ∧ Enters m j d w.store x)
      (fun _ w => Spares m w.store j.sessionId) u := by
  refine ensures_enter (fun _ w hw => hu.rests hw.rests)
    (fun _ hdirty hmember w hw => ⟨_, _, rfl, ?_⟩)
    (fun _ _ v t hv ht hversion _ => ⟨trivial, seclusion_le_written v _ _ _, fun w hw =>
      ⟨_, _, rfl, ?_⟩⟩)
    (fun _ v _ _ t hv hversion _ _ => absurd ?_ hversion)
    fun v w hv hfails => hu.rests (hv.rests.trans hfails.rests)
  -- The user is in the session already, which is stored as it is.
  · have hw' := hu.rests hw.rests
    have hstored := hd.clean hdirty
    rw [← hd.meeting] at hstored
    refine ⟨⟨0, (Session.add_of_hasMember hmember).symm⟩, ?_, fun k _ => hw'.sessions k,
      hw'.mappings⟩
    rw [Memory.sessionAt, hw'.sessions]
    exact hstored
  -- The session is written.
  · have hv' := hu.rests hv.rests
    generalize hx : d.session.add ⟨j.userId, t, j.iconUrl⟩ = x at hw
    have htimed : x.Timed := hx ▸ hd.timed.add ht
    have henters : Enters m j d (v.store.insert (sessionKey x.meetingId)
        ⟨x.encode, v.store.nextVersion (sessionKey x.meetingId)⟩) x := by
      refine ⟨⟨t, hx.symm⟩, ?_, fun k hk => ?_, fun t ht => ?_⟩
      · rw [Memory.sessionAt_insert_encode _ _ _ htimed, if_pos rfl]
      · rw [Memory.lookup_insert_session, if_neg hk]
        exact hv'.sessions k
      · rw [Memory.lookup_insert, if_neg (mappingKey_ne_sessionKey t _)]
        exact hv'.mappings t ht
    exact henters.congr (seclusion_lookup_of_rests hw.rests)
  -- It cannot be written by somebody else, as its record is still at the version of the draft.
  · have hmeeting : (d.session.add ⟨j.userId, t, j.iconUrl⟩).meetingId = k :=
      (Session.continues_add _ _).meetingId.trans hd.meeting
    rw [hmeeting, seclusion_lookup_of_rests hv.rests, hu.sessions, hd.version]

/-! ### An attempt as a whole -/

/-- What a join does that comes in: the user is put into the session that it started from, and
nothing else is written but the mapping of its id. -/
structure Enrolled (m : Memory) (j : Joiner) (m' : Memory) (x : Session) : Prop where
  led : Led m j.mode j.sessionId x.meetingId
  added : ∃ d t, Origin m j.mode j.sessionId x.meetingId d ∧ x = d.add ⟨j.userId, t, j.iconUrl⟩
  stored : m'.sessionAt x.meetingId = some x
  elsewhere : ∀ k, k ≠ x.meetingId → m'.lookup (sessionKey k) = m.lookup (sessionKey k)
  mappings : ∀ t, t ≠ j.sessionId → m'.lookup (mappingKey t) = m.lookup (mappingKey t)

/-- Who enters a draft of the right session is enrolled. -/
theorem Enters.enrolled {d : Draft} {x : Session} (h : Enters m j d m' x)
    (hd : Drafts m j.mode j.sessionId k d) (hled : Led m j.mode j.sessionId k) :
    Enrolled m j m' x := by
  obtain ⟨t, ht⟩ := h.added
  have hmeeting : x.meetingId = k := by
    rw [ht, (Session.continues_add _ _).meetingId, hd.meeting]
  exact ⟨hmeeting ▸ hled, ⟨d.session, t, hmeeting ▸ hd.origin, ht⟩, h.stored, h.elsewhere,
    h.mappings⟩

/-- What comes of opening a session and entering it. -/
theorem ensures_land_secluded {x : Request Draft} {held : Option Meeting}
    (hled : Led m j.mode j.sessionId k)
    (h : (seclusion i).Ensures i x
      (fun d w => Spares m w.store j.sessionId ∧ Drafts m j.mode j.sessionId k d)
      (fun _ w => Spares m w.store j.sessionId) u) :
    (seclusion i).Ensures i (do
        let draft ← x
        return (← j.enter draft, held))
      (fun r w => ∃ x added, r.1 = .joined x added ∧ Enrolled m j w.store x)
      (fun _ w => Spares m w.store j.sessionId) u := by
  refine h.bind fun d v hv hd => ?_
  obtain ⟨hspares, hdrafts⟩ := hd v hv
  refine Ensures.bind (ensures_enter_secluded hspares hdrafts) fun a w hw ha =>
    ensures_pure fun w' hw' => ?_
  obtain ⟨x, added, rfl, henters⟩ := ha w' hw'
  exact ⟨x, added, rfl, henters.enrolled hdrafts hled⟩

/-- With a meeting in hand a join enrols its user there or spares the records. What was stored in
that meeting is kept only if it is a session of the same id. -/
theorem ensures_settle_secluded (meeting : Meeting) (hu : Spares m u.store j.sessionId)
    {seen : Resolution} (hseen : seen = .read j.mode (m.lookup (mappingKey j.sessionId)))
    (hcurrent : u.store.lookup (mappingKey j.sessionId) = m.lookup (mappingKey j.sessionId))
    (hfound : ∀ mapping version, seen ≠ .found mapping version) :
    (seclusion i).Ensures i (j.settle seen meeting)
      (fun r w => ∃ x added, r.1 = .joined x added ∧ Enrolled m j w.store x)
      (fun _ w => Spares m w.store j.sessionId) u := by
  have hwrite : (seclusion i).Ensures i (j.writeMapping seen meeting)
      (fun written w => written = true ∧ Spares m w.store j.sessionId)
      (fun _ w => Spares m w.store j.sessionId) u := by
    refine ensures_writeMapping (fun w _ _ hw => ⟨rfl, hu.rests hw.rests⟩)
      (fun _ v hv _ _ => ⟨trivial, seclusion_le_written v _ _ _, fun w hw => ⟨rfl, ?_⟩⟩)
      (fun v _ _ hv hversion _ _ => absurd ?_ hversion) fun w hfails => hu.rests hfails.rests
    · have hwritten := (hu.rests hv.rests).insert_mapping
        ⟨(Mapping.ofMeeting meeting).encode, v.store.nextVersion (mappingKey j.sessionId)⟩
      exact hwritten.congr (seclusion_lookup_of_rests hw.rests)
    -- The mapping is still at the version that was seen.
    · rw [seclusion_lookup_of_rests hv.rests, hcurrent, hseen, Resolution.version?_read]
  have hobtained : ∀ mapping, ¬ Counts m j.mode j.sessionId mapping := by
    intro mapping hcounts
    obtain ⟨version, hread⟩ := hcounts.found
    exact hfound mapping version (hseen.trans hread)
  refine hwrite.bind fun written v hv h => ?_
  obtain ⟨rfl, hspares⟩ := h v hv
  exact ensures_land_secluded (fun mapping h => absurd h (hobtained mapping))
    (ensures_openAllocated_secluded hspares hobtained)

/-- An attempt enrols its user or spares the records. -/
theorem ensures_attempt_secluded (hu : ∀ key, u.store.lookup key = m.lookup key) :
    (seclusion i).Ensures i (j.attempt none)
      (fun r w => ∃ x added, r.1 = .joined x added ∧ Enrolled m j w.store x)
      (fun _ w => Spares m w.store j.sessionId) u := by
  have hspares : ∀ w, (seclusion i).Rests i u w → Spares m w.store j.sessionId := fun w hw =>
    Spares.rests ⟨fun _ => hu _, fun _ _ => hu _⟩ hw
  refine ensures_attempt (fun v w mapping version hv hreads hseen => ?_)
    (fun _ _ _ _ _ _ _ _ hheld => nomatch hheld) (fun v w seen hv hreads hseen hfound _ => ?_)
    fun w hfails => hspares w hfails.rests
  · rw [seclusion_lookup_of_rests hv.rests, hu] at hseen
    obtain ⟨stored, hlookup, rfl, hkind⟩ := Resolution.counts_of_found hseen
    have hcounts : Counts m j.mode j.sessionId _ := ⟨Memory.mappingAt_of_lookup hlookup, hkind⟩
    exact ensures_land_secluded (led_of_counts hcounts)
      (ensures_openMapped_secluded (hspares w (hv.rests.trans hreads.rests)) hcounts)
  -- Without a mapping that counts, a meeting is obtained.
  · rw [seclusion_lookup_of_rests hv.rests, hu] at hseen
    have hidle : (seclusion i).Holds i (allocate j.mode j.sessionId)
        (fun _ w' => (seclusion i).Rests i w w') w :=
      holds_allocate (fun _ w' hw' => hw'.rests)
        (fun _ _ _ _ _ hv' hturn hw' => (hv'.rests.trans (hturn.rests id)).trans hw'.rests)
        fun _ _ _ _ _ hv' hturn hw' => (hv'.rests.trans (hturn.rests id)).trans hw'.rests
    refine hidle.lift fun meeting w' hw' h => ?_
    have hrests := (hv.rests.trans hreads.rests).trans (h w' hw')
    exact ensures_settle_secluded meeting (hspares w' hrests) hseen.symm
      ((seclusion_lookup_of_rests hrests _).trans (hu _)) hfound

/-! ### A join that runs alone -/

/-- What becomes of another id's session `y`, if it does not stay as it is: who is led astray to it
is put into it, and who obtains the meeting where it is puts a new session there, with nobody else
in it. -/
inductive Disturbed (m : Memory) (j : Joiner) (y x : Session) : Prop where
  | entered (hastray : Astray m j.mode j.sessionId y) (hid : x.sessionId = y.sessionId)
      (husers : ∃ t, x.users = (y.add ⟨j.userId, t, j.iconUrl⟩).users)
  | replaced (hobtained : ∀ mapping, ¬ Counts m j.mode j.sessionId mapping)
      (hid : x.sessionId = j.sessionId) (husers : ∃ t, x.users = [⟨j.userId, t, j.iconUrl⟩])

namespace Enrolled

variable {x : Session}

/-- The session that is entered is of the id that is joined, unless that id was led astray. -/
theorem sessionId_eq_iff (h : Enrolled m j m' x) :
    x.sessionId = j.sessionId ↔ ∀ y, ¬ Astray m j.mode j.sessionId y := by
  obtain ⟨d, t, horigin, rfl⟩ := h.added
  have hid : (d.add ⟨j.userId, t, j.iconUrl⟩).sessionId = d.sessionId :=
    (Session.continues_add _ _).sessionId
  constructor
  · intro hown y hy
    exact hy.foreign ((horigin.astray h.led hy).symm.trans (hid.symm.trans hown))
  · exact fun hours => hid.trans (horigin.own hours)

/-- Of the sessions of other ids, only the one in the meeting that is joined is disturbed. -/
theorem disturbed (h : Enrolled m j m' x) {y : Session} (hy : m.sessionAt k = some y)
    (hforeign : y.sessionId ≠ j.sessionId) :
    m'.lookup (sessionKey k) = m.lookup (sessionKey k) ∨
      k = x.meetingId ∧ Disturbed m j y x := by
  by_cases hk : k = x.meetingId
  · subst hk
    refine .inr ⟨rfl, ?_⟩
    obtain ⟨d, t, horigin, hx⟩ := h.added
    have hid : x.sessionId = d.sessionId := hx ▸ (Session.continues_add _ _).sessionId
    -- What the user was added to decides what became of the session that was there.
    cases horigin with
    | kept hstored howner hid' husers =>
      obtain rfl := Option.some.inj (hstored.symm.trans hy)
      refine .entered (howner.resolve_left hforeign) (hid.trans hid') ⟨t, ?_⟩
      rw [hx, Session.add, Session.add, Session.hasMember, Session.hasMember, husers]
      split <;> simp [husers]
    | made hvacant hid' husers =>
      cases (Memory.sessionAt_of_lookup_eq_none hvacant).symm.trans hy
    | replaced hstored hforeign' hobtained hid' husers =>
      refine .replaced hobtained (hid.trans hid') ⟨t, ?_⟩
      simp [hx, Session.add, Session.hasMember, husers]
  · exact .inl (h.elsewhere k hk)

end Enrolled

/-- What a join does to the records of a store, by a request with a name for its user. -/
structure EntersOwn (m : Memory) (mode : Mode) (s : String) (r : JoinRequest) (m' : Memory)
    (result : Except ServiceError JoinReply) : Prop where
  /-- A join that fails leaves every session as it is. -/
  failed : ∀ e, result = .error e → ∀ k, m'.lookup (sessionKey k) = m.lookup (sessionKey k)
  /-- A join that comes in answers with the session that is stored, with its user in it. It is a
  session of the id that is joined, unless that id was led astray. -/
  entered : ∀ reply, result = .ok reply → ∃ userId, r.validate = .ok userId ∧
    Enrolled m ⟨mode, s, userId, r.iconUrl⟩ m' reply.session ∧
    (reply.session.sessionId = s ↔ ∀ y, ¬ Astray m mode s y)
  /-- The sessions of other ids that were stored stay as they are, but for one at most. -/
  others : ∀ k y, m.sessionAt k = some y → y.sessionId ≠ s →
    m'.lookup (sessionKey k) = m.lookup (sessionKey k) ∨
      ∃ reply userId, result = .ok reply ∧ r.validate = .ok userId ∧
        k = reply.session.meetingId ∧ Disturbed m ⟨mode, s, userId, r.iconUrl⟩ y reply.session
  mappings : ∀ t, t ≠ s → m'.lookup (mappingKey t) = m.lookup (mappingKey t)

/-- A join that spares the records may fail. -/
theorem entersOwn_of_spares {r : JoinRequest} {e : ServiceError} (h : Spares m m' s) :
    EntersOwn m mode s r m' (.error e) where
  failed _ _ := h.sessions
  entered _ h := nomatch h
  others k _ _ _ := .inl (h.sessions k)
  mappings := h.mappings

/-- A join that enrolled its user may answer with the session. -/
theorem entersOwn_of_enrolled {r : JoinRequest} {userId : String} {reply : JoinReply}
    (hvalid : r.validate = .ok userId)
    (h : Enrolled m ⟨mode, s, userId, r.iconUrl⟩ m' reply.session) :
    EntersOwn m mode s r m' (.ok reply) where
  failed _ h := nomatch h
  entered _ hreply := by
    obtain rfl := Except.ok.inj hreply
    exact ⟨userId, hvalid, h, h.sessionId_eq_iff⟩
  others k y hy hforeign := by
    rcases h.disturbed hy hforeign with hsame | ⟨hk, hdisturbed⟩
    · exact .inl hsame
    · exact .inr ⟨reply, userId, rfl, hvalid, hk, hdisturbed⟩
  mappings := h.mappings

/-- Whatever a store holds, a join that runs alone enters a session of its own id, unless the mapping
leads it astray, and then it enters the session to which it is led. Of the sessions of other ids it
disturbs that one, or the one in the place of which it makes a session of its own. -/
theorem join_enters_own {appId : String} {mode : Mode} {s : String} {r : JoinRequest}
    {entries : List Entry} {outcome : Outcome}
    (h : Alone m ((Job.join mode s r).program appId) entries m' outcome) :
    ∃ result, outcome = .joined result ∧ EntersOwn m mode s r m' result := by
  obtain ⟨result, rfl, hjoin⟩ := Alone.exists_map h
  refine ⟨result, rfl, ?_⟩
  cases hvalid : r.validate with
  | error fault =>
    have hidles : Idles (fun result => ∃ e, result = .error e)
        (join appId mode s r).run := by
      rw [run_join_of_error hvalid]
      exact ⟨trivial, fun _ => ⟨_, rfl⟩⟩
    obtain ⟨⟨e, rfl⟩, rfl, -⟩ := hjoin.of_idles hidles
    -- a request that is not valid touches nothing
    exact entersOwn_of_spares ⟨fun _ => rfl, fun _ _ => rfl⟩
  | ok userId =>
    obtain ⟨early, m₁, a, late, rfl, hfirst, hfollows⟩ := hjoin.exists_attempt hvalid
    have hattempt := ensures_attempt_secluded (i := 0) (m := m) (u := ⟨m, []⟩)
      (j := ⟨mode, s, userId, r.iconUrl⟩) fun _ => rfl
    have hassumes : (seclusion 0).assumes ((early.map (Act.answer 0)).reverse ++ []) := by
      intro act hact
      rw [List.append_nil, List.mem_reverse] at hact
      obtain ⟨e, -, rfl⟩ := List.mem_map.1 hact
      exact ⟨e, rfl⟩
    have hpost := hattempt.alone hfirst trivial hassumes
    -- nobody else writes, so the first attempt is the only one
    cases hfollows with
    | failed e hidle => exact entersOwn_of_spares hpost
    | joined added held reply hidle =>
      obtain ⟨x, added', hsame, henrolled⟩ := hpost
      obtain ⟨rfl, rfl⟩ := Attempt.joined.inj hsame
      exact entersOwn_of_enrolled hvalid henrolled
    | raced held late m' result =>
      obtain ⟨x, added, hsame, -⟩ := hpost
      exact nomatch hsame

/-! ### Sessions that get mixed up -/

/-- A user joins alone on a store, and the provider has tokens to give, but no meetings. -/
def visit (m : Memory) (v : Visit) : Oracle.Course Outcome :=
  (Oracle.providing fun _ => .error .timeout).course 0 (v.job.program "app") m []

/-- A visit with a reply is a join that ran alone to its end. -/
theorem alone_visit {m : Memory} {v : Visit} {reply : JoinReply}
    (h : (visit m v).result.reply? = some reply) :
    Alone m (v.job.program "app") (visit m v).entries (visit m v).store (.joined (.ok reply)) := by
  rw [← Outcome.eq_of_reply? h]
  exact Oracle.alone_course ..

/-- A session of another id, in a meeting that is real. -/
def strangers : Session where
  sessionId := "t"
  meetingId := "m"
  kind := .real
  degraded := false
  users := [⟨"a", 0, none⟩]
  createdAt := 0

/-- A session of that id in what is the mock meeting of a third one. -/
def leftover : Session :=
  { strangers with meetingId := mockMeetingId "w", kind := .mock }

/-- A store in which two session ids lead to the same meeting, by mappings of old. -/
def entangled : Memory :=
  [(mappingKey "s", "m"), (mappingKey "t", "m"), (sessionKey "m", strangers.encode),
    (sessionKey (mockMeetingId "w"), leftover.encode)].foldl
      (fun m entry => m.insert entry.1 ⟨entry.2, 1⟩) {}

/-- Whose session was entered, and who is in it. -/
def Oracle.Course.entered (c : Oracle.Course Outcome) : Option (String × List String) :=
  c.result.reply?.map fun reply =>
    (reply.session.sessionId, reply.session.users.map Member.userId)

/-- One visitor gets a new session in the place of what was left over, the other one enters the
session of another id that shares the meeting. -/
theorem entered_entangled : (visit entangled ⟨.mock, "w", "b"⟩).entered = some ("w", ["b"]) ∧
    (visit entangled ⟨.real, "s", "b"⟩).entered = some ("t", ["a", "b"]) := by
  decide +kernel

/-- What a visitor entered is what the reply shows, so that the evaluation of a course tells of a
run alone. -/
theorem exists_reply_of_entered {m : Memory} {v : Visit} {id : String} {members : List String}
    (h : (visit m v).entered = some (id, members)) : ∃ entries m' reply,
      Alone m (v.job.program "app") entries m' (.joined (.ok reply)) ∧
        reply.session.sessionId = id ∧ reply.session.users.map Member.userId = members := by
  obtain ⟨reply, hreply, hseen⟩ := Option.map_eq_some_iff.1 h
  obtain ⟨hid, hmembers⟩ := Prod.mk.inj hseen
  exact ⟨_, _, reply, alone_visit hreply, hid, hmembers⟩

/-- Who obtains a meeting puts a session of its own where another id's was, and who is led astray is
put into the roster of the other id. -/
theorem join_enters_own_entangled :
    (∃ entries m' reply,
      Alone entangled ((Job.join .mock "w" ⟨some "b", none⟩).program "app") entries m'
        (.joined (.ok reply)) ∧
      reply.session.sessionId = "w" ∧ reply.session.users.map Member.userId = ["b"] ∧
      EntersOwn entangled .mock "w" ⟨some "b", none⟩ m' (.ok reply)) ∧
    ∃ entries m' reply,
      Alone entangled ((Job.join .real "s" ⟨some "b", none⟩).program "app") entries m'
        (.joined (.ok reply)) ∧
      reply.session.sessionId = "t" ∧ reply.session.users.map Member.userId = ["a", "b"] ∧
      EntersOwn entangled .real "s" ⟨some "b", none⟩ m' (.ok reply) := by
  constructor
  · obtain ⟨entries, m', reply, halone, hid, hmembers⟩ :=
      exists_reply_of_entered entered_entangled.1
    obtain ⟨result, hresult, hown⟩ := join_enters_own halone
    obtain rfl := Outcome.joined.inj hresult
    exact ⟨entries, m', reply, halone, hid, hmembers, hown⟩
  · obtain ⟨entries, m', reply, halone, hid, hmembers⟩ :=
      exists_reply_of_entered entered_entangled.2
    obtain ⟨result, hresult, hown⟩ := join_enters_own halone
    obtain rfl := Outcome.joined.inj hresult
    exact ⟨entries, m', reply, halone, hid, hmembers, hown⟩

/-- The session of another id, with a user in it who was led astray. -/
def intruded : Session :=
  strangers.add ⟨"b", 2, none⟩

/-- A store that maps a session id to the meeting with another id's session in it. -/
def misled : Memory :=
  storeWith "s" "m" ⟨strangers.encode, 1⟩

/-- A user who asked for one session id is added to the session of another. -/
theorem visit_misled : (visit misled ⟨.real, "s", "b"⟩).result.reply? = some (replyWith intruded) ∧
    (visit misled ⟨.real, "s", "b"⟩).store.sessionAt "m" = some intruded := by
  decide +kernel

/-- Who is led astray is put into the roster of another session id, and told so. -/
theorem join_enters_strangers :
    ∃ entries m', Alone misled ((Job.join .real "s" ⟨some "b", none⟩).program "app") entries m'
        (.joined (.ok (replyWith intruded))) ∧
      Astray misled .real "s" strangers ∧
      intruded.sessionId = "t" ∧ intruded.users.map Member.userId = ["a", "b"] ∧
      m'.sessionAt "m" = some intruded := by
  obtain ⟨hreply, hstored⟩ := visit_misled
  have htimed : strangers.Timed := ⟨rfl, List.forall_mem_singleton.2 rfl⟩
  refine ⟨_, _, alone_visit hreply, ⟨⟨⟨"m", .real⟩, ⟨?_, .inr rfl⟩, ?_⟩, by decide⟩, rfl,
    by decide, hstored⟩
  · rw [misled, Memory.mappingAt_of_lookup (lookup_storeWith_mapping ..), Mapping.decode_encode]
  · exact Memory.sessionAt_of_lookup (lookup_storeWith_session ..) (Session.decode_encode htimed)

end VoiceRoom.Concurrency
