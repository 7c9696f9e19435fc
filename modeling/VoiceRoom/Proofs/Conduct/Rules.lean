import VoiceRoom.Proofs.Concurrency.Rules
import VoiceRoom.Proofs.Conduct.Logic
import VoiceRoom.Proofs.Roster

/-!
# What the workflow does, whoever answers

Each function of the workflow is told something and has learnt it from then on: a draft is of a
record that was read last (`Opened`), and an attempt that was raced has lost a write that was to
replace what it had read (`Lost`), while one that succeeded was shown a record with its user in it
(`Vouched`).
-/

namespace VoiceRoom

open Concurrency (Idle)
open Simulation (Entry)

theorem Call.Quiet.idle {c : Call} (h : c.Quiet) : Idle c := by
  cases c with
  | get key => exact h.elim
  | putIf key value expected => exact h.elim
  | _ => trivial

/-- A new session is dated by the time at which it is made. -/
theorem Session.timed_new (s : String) (meeting : Meeting) {t : Int} (ht : fitsInt64 t) :
    (Session.new s meeting t).Timed :=
  ⟨ht, fun _ h => nomatch h⟩

/-- Fitting a session to a mapping changes no time. -/
theorem Session.Timed.fit {x : Session} (h : x.Timed) (mapping : Mapping) :
    (x.fit mapping).Timed :=
  ⟨h.created, h.joined⟩

namespace Conduct

/-! ### What a request was told -/

/-- A key was read, and only quiet calls were made since. -/
def Learnt (key : String) (stored : Option Versioned) (told told' : List Entry) : Prop :=
  Hushed (⟨.get key, .ok stored⟩ :: told) told'

theorem Learnt.suffix {key : String} {stored : Option Versioned} {told told' : List Entry}
    (h : Learnt key stored told told') : told <:+ told' :=
  (List.suffix_cons _ told).trans (Hushed.suffix h)

/-- A record was read or written. -/
inductive Shown (told : List Entry) (key : String) (v : Versioned) : Prop where
  | read (h : ⟨.get key, .ok (some v)⟩ ∈ told)
  | written (expected : Option Nat)
      (h : ⟨.putIf key v.value expected, .ok (.written v.version)⟩ ∈ told)

theorem Shown.suffix {told told' : List Entry} {key : String} {v : Versioned}
    (h : Shown told key v) (hsuffix : told <:+ told') : Shown told' key v := by
  cases h with
  | read h => exact .read (hsuffix.subset h)
  | written expected h => exact .written expected (hsuffix.subset h)

/-- A record of a session with the user in it was read or written. -/
def Vouched (told : List Entry) (meetingId userId : String) : Prop :=
  ∃ v x, Shown told (sessionKey meetingId) v ∧ Session.decode v.value = .ok x ∧ x.hasMember userId

/-- A key was read and then could not be written, since it was not as it had been read. In between
no record was read or written. -/
structure Overtaken (key : String) (told told' : List Entry) : Prop where
  split : ∃ stored before between value, told <:+ before ∧
    (∀ e ∈ between, Idle e.call) ∧
    told' = ⟨.putIf key value (stored.map Versioned.version), .ok .conflict⟩ ::
      (between ++ ⟨.get key, .ok stored⟩ :: before)

/-- A request about a session id lost the write of a mapping or of a session. -/
inductive Lost (s : String) (told told' : List Entry) : Prop where
  | mapping (h : Overtaken (mappingKey s) told told')
  | session (meetingId : String) (h : Overtaken (sessionKey meetingId) told told')

/-- A write is lost that was to replace what was learnt. -/
theorem Learnt.overtaken {key value : String} {stored : Option Versioned} {expected : Option Nat}
    {told told' told'' : List Entry} (h : Learnt key stored told told')
    (hexpected : expected = stored.map Versioned.version)
    (hlast : ∃ new, told'' = new ++ told' ∧ ∀ e ∈ new, Idle e.call) :
    Overtaken key told (⟨.putIf key value expected, .ok .conflict⟩ :: told'') := by
  obtain ⟨new, rfl, hnew⟩ := h
  obtain ⟨newer, rfl, hnewer⟩ := hlast
  refine ⟨stored, told, newer ++ new, value, List.suffix_refl told, fun e he => ?_, ?_⟩
  · rcases List.mem_append.1 he with hlate | hearly
    · exact hnewer e hlate
    · exact (hnew e hearly).idle
  · rw [hexpected, List.append_assoc]

theorem Hushed.idle {told told' : List Entry} (h : Hushed told told') :
    ∃ new, told' = new ++ told ∧ ∀ e ∈ new, Idle e.call := by
  obtain ⟨new, hnew, hquiet⟩ := h
  exact ⟨new, hnew, fun e he => (hquiet e he).idle⟩

/-! ### Resolving and allocating -/

namespace Code

variable {K : Code} {α β : Type} {told : List Entry}
variable {R : β → List Entry → Prop} {C : List Entry → Prop}

/-- A lookup reads the mapping, and its resolution is what that reading says. A stale mapping is
noted besides. -/
theorem complies_lookup {s : String} {mode : Mode} {f : Resolution → Request β}
    (h : ∀ stored told', Learnt (mappingKey s) stored told told' →
      K.Complies (f (.read mode stored)) R C told') :
    K.Complies (Request.ofStore (Resolution.lookup s mode) >>= f) R C told := by
  refine complies_ofStore ⟨K.harmless trivial, fun r _ => ?_⟩
  match r with
  | .error e => exact fun _ ha => nomatch ha
  | .ok none =>
    rintro _ ⟨⟩
    exact h none _ (.refl _)
  | .ok (some stored) =>
    -- Whatever the resolution, nothing but a note follows the read.
    have hdone : ∀ told', Hushed (⟨.get (mappingKey s), .ok (some stored)⟩ :: told) told' →
        ∀ a, Except.ok (.ofStored mode stored) = Except.ok (ε := StoreError) a →
          K.Complies (f a) R C told' := by
      rintro told' htold _ ⟨⟩
      exact h (some stored) told' htold
    dsimp only [Program.call, bind, Program.bind, pure]
    cases hresolution : Resolution.ofStored mode stored with
    | stale mapping version =>
      rw [hresolution] at hdone
      exact abides_ask_quiet trivial fun _ _ told' => hdone told'
    | found mapping version =>
      rw [hresolution] at hdone
      exact hdone _ (.refl _)
    | absent =>
      rw [hresolution] at hdone
      exact hdone _ (.refl _)

/-- A meeting is named in mock mode, and in real mode it is given by the provider or named because
the provider refused. -/
theorem abides_allocate {mode : Mode} {s : String} {Q : Meeting → List Entry → Prop}
    (hpermits : mode = .real → K.permits told (.createMeeting s))
    (hmock : mode = .mock → ∀ told', Hushed told told' → Q (mockMeeting s false) told')
    (hreal : mode = .real → ∀ meetingId,
      Q ⟨meetingId, .real, false⟩ (⟨.createMeeting s, .ok meetingId⟩ :: told))
    (hdegraded : mode = .real → ∀ e told', Hushed (⟨.createMeeting s, .error e⟩ :: told) told' →
      Q (mockMeeting s true) told') :
    K.Abides (allocate mode s) Q told := by
  cases mode with
  | mock => exact abides_ask_quiet trivial fun _ _ told' => hmock rfl told'
  | real =>
    refine ⟨hpermits rfl, fun r _ => ?_⟩
    cases r with
    | ok meetingId => exact hreal rfl meetingId
    | error e =>
      -- The failure is noted and counted before a mock meeting stands in.
      refine abides_ask_quiet trivial fun _ _ told' htold => ?_
      exact abides_ask_quiet trivial fun _ _ told'' htold' =>
        hdegraded rfl e told'' (htold.trans htold')

/-! ### Opening a session -/

/-- Loading reads the session and fits it to the mapping, if there is one. -/
theorem complies_load {mapping : Mapping} {f : Option Loaded → Request β}
    (hnone : ∀ told', Learnt (sessionKey mapping.meetingId) none told told' →
      K.Complies (f none) R C told')
    (hsome : ∀ stored x told', Learnt (sessionKey mapping.meetingId) (some stored) told told' →
      Session.decode stored.value = .ok x →
      K.Complies (f (some ⟨x.fit mapping, stored.version, !x.agrees mapping⟩)) R C told') :
    K.Complies (load mapping >>= f) R C told := by
  refine Complies.bind ?_
  unfold load
  refine complies_get fun stored => ?_
  cases stored with
  | none => exact complies_pure (hnone _ (.refl _))
  | some stored =>
    dsimp only
    cases hdecode : Session.decode stored.value with
    | error fault => exact complies_note fun _ _ => complies_throw fun _ h => nomatch h
    | ok x =>
      dsimp only
      split
      · exact complies_note fun told' htold => complies_pure (hsome stored x told' htold hdecode)
      · exact complies_pure (hsome stored x _ (.refl _) hdecode)

/-- A fresh draft reads the clock only. -/
theorem complies_fresh {j : Joiner} {meeting : Meeting} {version : Option Nat}
    {Q : Draft → List Entry → Prop}
    (h : ∀ t, fitsInt64 t →
      Q ⟨Session.new j.sessionId meeting t, version, true⟩ (⟨.now, t⟩ :: told)) :
    K.Complies (j.fresh meeting version) Q C told :=
  complies_now fun t ht => complies_pure (h t ht)

/-- A mapped session is loaded, or made if there is none. -/
theorem complies_openMapped {j : Joiner} {mapping : Mapping} {Q : Draft → List Entry → Prop}
    (hnone : ∀ t told', fitsInt64 t →
      Learnt (sessionKey mapping.meetingId) none told (⟨.now, t⟩ :: told') →
      Q ⟨Session.new j.sessionId ⟨mapping.meetingId, mapping.kind, false⟩ t, none, true⟩
        (⟨.now, t⟩ :: told'))
    (hsome : ∀ stored x told', Learnt (sessionKey mapping.meetingId) (some stored) told told' →
      Session.decode stored.value = .ok x →
      Q ⟨x.fit mapping, some stored.version, !x.agrees mapping⟩ told') :
    K.Complies (j.openMapped mapping) Q C told := by
  unfold Joiner.openMapped
  refine complies_load (fun told' hread => ?_) fun stored x told' hread hdecode => ?_
  · refine complies_note fun told'' hnote => complies_fresh fun t ht => hnone t told'' ht ?_
    exact (Hushed.trans hread hnote).trans (.cons (c := .now) trivial t)
  · exact complies_pure (hsome stored x told' hread hdecode)

theorem complies_openAllocated {j : Joiner} {meeting : Meeting} {Q : Draft → List Entry → Prop}
    (hnone : ∀ t told', fitsInt64 t →
      Learnt (sessionKey meeting.id) none told (⟨.now, t⟩ :: told') →
      Q ⟨Session.new j.sessionId meeting t, none, true⟩ (⟨.now, t⟩ :: told'))
    (hours : ∀ stored x told', Learnt (sessionKey meeting.id) (some stored) told told' →
      Session.decode stored.value = .ok x →
      Q (Draft.graded ⟨x.fit (.ofMeeting meeting), some stored.version,
        !x.agrees (.ofMeeting meeting)⟩ meeting.degraded) told')
    (hforeign : ∀ stored x t told', fitsInt64 t →
      Learnt (sessionKey meeting.id) (some stored) told (⟨.now, t⟩ :: told') →
      Session.decode stored.value = .ok x → x.sessionId ≠ j.sessionId →
      Q ⟨Session.new j.sessionId meeting t, some stored.version, true⟩ (⟨.now, t⟩ :: told')) :
    K.Complies (j.openAllocated meeting) Q C told := by
  unfold Joiner.openAllocated
  simp only [Draft.pure_graded]
  refine complies_load (fun told' hread => ?_) fun stored x told' hread hdecode => ?_
  · refine Complies.bind (complies_fresh fun t ht => complies_pure ?_)
    rw [Draft.graded_new]
    exact hnone t told' ht (Hushed.trans hread (.cons (c := .now) trivial t))
  · dsimp only
    -- A record of the session is kept and graded, one of another session gives way to a new one.
    split
    · exact Complies.bind (complies_pure (complies_pure (hours stored x told' hread hdecode)))
    · rename_i hother
      refine Complies.bind (complies_fresh fun t ht => complies_pure ?_)
      rw [Draft.graded_new]
      exact hforeign stored x t told' ht (Hushed.trans hread (.cons (c := .now) trivial t)) hdecode
        hother

/-! ### Entering a session -/

/-- Entering a draft reads the clock, and writes the session unless the draft is clean and the user
in it. A full draft is not entered at all. -/
theorem complies_enter {j : Joiner} {d : Draft} {Q : Attempt → List Entry → Prop}
    (hclean : d.dirty = false → d.session.hasMember j.userId = true → ∀ t, fitsInt64 t →
      Q (.joined d.session false) (⟨.now, t⟩ :: told))
    (hwrites : ∀ t, fitsInt64 t →
      let x := d.session.add { userId := j.userId, joinedAt := t, iconUrl := j.iconUrl }
      let write := Call.putIf (sessionKey x.meetingId) x.encode d.version
      K.permits (⟨.now, t⟩ :: told) write ∧
        Q .raced (⟨write, .ok .conflict⟩ :: ⟨.now, t⟩ :: told) ∧
        ∀ n, Q (.joined x !(d.session.hasMember j.userId))
          (⟨write, .ok (.written n)⟩ :: ⟨.now, t⟩ :: told)) :
    K.Complies (j.enter d) Q C told := by
  unfold Joiner.enter
  split
  · exact complies_note fun _ _ => complies_throw fun _ h => nomatch h
  · refine complies_now fun t ht => ?_
    dsimp only
    split
    -- Nothing is to be written: the draft is clean and the user is in it.
    · rename_i hclear
      rw [Bool.and_eq_true, Bool.not_eq_true', Bool.not_not] at hclear
      obtain ⟨hdirty, hmember⟩ := hclear
      rw [Session.add_of_hasMember hmember, hmember]
      exact complies_pure (hclean hdirty hmember t ht)
    · obtain ⟨hpermits, hconflict, hwritten⟩ := hwrites t ht
      refine complies_putIf hpermits fun outcome => ?_
      cases outcome with
      | conflict => exact complies_pure hconflict
      | written n => exact complies_pure (hwritten n)

end Code

/-- A draft is of the record in the meeting of a mapping, which was read last. If nothing has to be
written, it is what the record says. -/
structure Opened (mapping : Mapping) (told told' : List Entry) (d : Draft) : Prop where
  meeting : d.session.mapping = mapping
  timed : d.session.Timed
  read : ∃ stored, Learnt (sessionKey mapping.meetingId) stored told told' ∧
    d.version = stored.map Versioned.version ∧
    (d.dirty = false → ∃ v x, stored = some v ∧ Session.decode v.value = .ok x ∧
      x.users = d.session.users)

namespace Opened

variable {mapping : Mapping} {told told' : List Entry}

/-- A session that is made new is opened. -/
theorem new {s : String} (meeting : Meeting) (stored : Option Versioned) {t : Int}
    (h : Learnt (sessionKey meeting.id) stored told told') (ht : fitsInt64 t) :
    Opened (.ofMeeting meeting) told told'
      ⟨Session.new s meeting t, stored.map Versioned.version, true⟩ :=
  ⟨rfl, Session.timed_new s meeting ht, stored, h, rfl, fun hdirty => nomatch hdirty⟩

/-- A session that was loaded is opened. -/
theorem loaded {stored : Versioned} {x : Session}
    (h : Learnt (sessionKey mapping.meetingId) (some stored) told told')
    (hdecode : Session.decode stored.value = .ok x) :
    Opened mapping told told' ⟨x.fit mapping, some stored.version, !x.agrees mapping⟩ :=
  ⟨rfl, (Session.timed_of_decode hdecode).fit mapping, some stored, h, rfl,
    fun _ => ⟨stored, x, rfl, hdecode, rfl⟩⟩

theorem graded {d : Draft} (h : Opened mapping told told' d) (degraded : Bool) :
    Opened mapping told told' (d.graded degraded) := by
  unfold Draft.graded
  split
  · exact h
  · obtain ⟨stored, hread, hversion, -⟩ := h.read
    exact ⟨h.meeting, ⟨h.timed.created, h.timed.joined⟩, stored, hread, hversion,
      fun hdirty => nomatch hdirty⟩

end Opened

namespace Code

variable {K : Code} {told : List Entry} {C : List Entry → Prop} {j : Joiner}

theorem complies_openMapped_opened (mapping : Mapping) :
    K.Complies (j.openMapped mapping) (fun d told' => Opened mapping told told' d) C told :=
  complies_openMapped
    (fun _ _ ht hread => .new ⟨mapping.meetingId, mapping.kind, false⟩ none hread ht)
    fun _ _ _ hread hdecode => .loaded hread hdecode

theorem complies_openAllocated_opened (meeting : Meeting) :
    K.Complies (j.openAllocated meeting) (fun d told' => Opened (.ofMeeting meeting) told told' d)
      C told :=
  complies_openAllocated (fun _ _ ht hread => .new meeting none hread ht)
    (fun _ _ _ hread hdecode => (Opened.loaded hread hdecode).graded meeting.degraded)
    fun stored _ _ _ ht hread _ _ => .new meeting (some stored) hread ht

/-! ### Writing -/

/-- The mapping is written unless it is in place already. -/
theorem complies_writeMapping {seen : Resolution} {meeting : Meeting}
    {Q : Bool → List Entry → Prop}
    (hpermits : (∀ version, seen ≠ .stale (.ofMeeting meeting) version) → K.permits told
      (.putIf (mappingKey j.sessionId) (Mapping.ofMeeting meeting).encode seen.version?))
    (hsame : Q true told)
    (hwritten : ∀ n, Q true (⟨.putIf (mappingKey j.sessionId) (Mapping.ofMeeting meeting).encode
      seen.version?, .ok (.written n)⟩ :: told))
    (hconflict : Q false (⟨.putIf (mappingKey j.sessionId) (Mapping.ofMeeting meeting).encode
      seen.version?, .ok .conflict⟩ :: told)) :
    K.Complies (j.writeMapping seen meeting) Q C told := by
  unfold Joiner.writeMapping
  dsimp only
  by_cases hin : ∃ version, seen = .stale (.ofMeeting meeting) version
  · obtain ⟨version, rfl⟩ := hin
    rw [if_pos rfl]
    exact complies_pure hsame
  · rw [if_neg]
    · refine complies_putIf (hpermits fun version h => hin ⟨version, h⟩) fun outcome => ?_
      cases outcome with
      | conflict => exact complies_pure hconflict
      | written n => exact complies_pure (hwritten n)
    -- A mapping that is seen and does not count is in place if it is the one to write.
    · intro hcurrent
      cases seen with
      | stale mapping version => exact hin ⟨version, by rw [Option.some.inj hcurrent]⟩
      | found mapping version => cases hcurrent
      | absent => cases hcurrent

end Code

/-- What is known of an attempt to enter the session of a mapping. -/
def Tried (j : Joiner) (mapping : Mapping) (told told' : List Entry) : Attempt → Prop
  | .raced => Overtaken (sessionKey mapping.meetingId) told told'
  | .joined x _ => x.mapping = mapping ∧ Vouched told' mapping.meetingId j.userId

namespace Code

variable {K : Code} {told told' : List Entry} {C : List Entry → Prop} {j : Joiner}

theorem complies_enter_opened {mapping : Mapping} {d : Draft}
    (hopened : Opened mapping told told' d)
    (hpermits : ∀ value told'', told' <:+ told'' →
      K.permits told'' (.putIf (sessionKey mapping.meetingId) value d.version)) :
    K.Complies (j.enter d) (fun a told'' => Tried j mapping told told'' a) C told' := by
  obtain ⟨stored, hread, hversion, hclean⟩ := hopened.read
  -- nothing is written only where the user is found in a record that is clean
  refine complies_enter (fun hdirty hmember t _ => ?_) fun t ht => ?_
  · obtain ⟨v, y, rfl, hdecode, husers⟩ := hclean hdirty
    have hnow : Hushed told' (⟨.now, t⟩ :: told') := .cons (c := .now) trivial t
    refine ⟨hopened.meeting, v, y, .read ?_, hdecode, ?_⟩
    · exact (Hushed.trans hread hnow).suffix.subset List.mem_cons_self
    · unfold Session.hasMember
      rw [husers]
      exact hmember
  · generalize hx : d.session.add ⟨j.userId, t, j.iconUrl⟩ = x
    have hmapping : x.mapping = mapping := by
      rw [← hx, (Session.continues_add _ _).mapping_eq, hopened.meeting]
    have htimed : x.Timed := hx ▸ hopened.timed.add ht
    have hmember : x.hasMember j.userId := hx ▸ Session.hasMember_add _ _
    have hnow : Hushed told' (⟨.now, t⟩ :: told') := .cons (c := .now) trivial t
    dsimp only
    rw [show x.meetingId = mapping.meetingId from congrArg Mapping.meetingId hmapping]
    refine ⟨hpermits _ _ hnow.suffix, hread.overtaken hversion hnow.idle, fun n => ?_⟩
    exact ⟨hmapping, ⟨x.encode, n⟩, x, .written d.version List.mem_cons_self,
      Session.decode_encode htimed, hmember⟩

end Code

/-! ### Finishing -/

/-- Why a user was given a token, and whether it stands in for a real one. -/
inductive Warranted (mode : Mode) (x : Session) (userId : String) (told : List Entry) :
    String → Bool → Prop where
  | skipped (hmode : mode = .mock) : Warranted mode x userId told mockToken false
  | unavailable (hmode : mode = .real) (hkind : x.kind = .mock) :
      Warranted mode x userId told mockToken true
  | given {token : String} (hmode : mode = .real) (hkind : x.kind = .real)
      (h : ⟨.createParticipant x.meetingId userId, .ok token⟩ ∈ told) :
      Warranted mode x userId told token false
  | refused {e : ProviderError} (hmode : mode = .real) (hkind : x.kind = .real)
      (h : ⟨.createParticipant x.meetingId userId, .error e⟩ ∈ told) :
      Warranted mode x userId told mockToken true

/-- A join is answered with a session and with credentials for its meeting. -/
structure Replied (mode : Mode) (x : Session) (userId : String) (told : List Entry)
    (reply : JoinReply) : Prop where
  session : reply.session = x
  credentials : ∃ c, reply.realtime = some c ∧ c.meetingId = x.meetingId ∧
    Warranted mode x userId told c.token c.degraded

namespace Code

variable {K : Code} {told : List Entry} {j : Joiner}

/-- A token is asked for only in real mode and for a real meeting, and what is issued has its
warrant. -/
theorem abides_issueToken {mode : Mode} {x : Session} {userId : String}
    (hpermits : mode = .real → x.kind = .real →
      K.permits told (.createParticipant x.meetingId userId)) :
    K.Abides (issueToken mode x userId)
      (fun issued told' => Warranted mode x userId told' issued.1 issued.2) told := by
  unfold issueToken
  cases mode with
  | mock => exact .skipped rfl
  | real =>
    cases hkind : x.kind with
    | mock =>
      exact abides_ask_quiet trivial fun _ _ _ _ =>
        abides_ask_quiet trivial fun _ _ _ _ => .unavailable rfl hkind
    | real =>
      refine ⟨hpermits rfl hkind, fun r _ => ?_⟩
      cases r with
      | ok token => exact .given rfl hkind List.mem_cons_self
      | error e =>
        -- The refusal is noted and counted before the mock token stands in.
        refine abides_ask_quiet trivial fun _ _ told' hnote => ?_
        refine abides_ask_quiet trivial fun _ _ told'' hcount => ?_
        exact .refused rfl hkind ((hnote.trans hcount).suffix.subset List.mem_cons_self)

/-- What follows a successful attempt asks the provider at most for a token, and answers with the
session. -/
theorem abides_finish {appId : String} {held : Option Meeting} {x : Session} {added : Bool}
    (hpermits : j.mode = .real → x.kind = .real → ∀ told', Hushed told told' →
      K.permits told' (.createParticipant x.meetingId j.userId)) :
    K.Abides (j.finish appId held x added)
      (fun reply told' => Replied j.mode x j.userId told' reply) told := by
  have hissue : ∀ told', Hushed told told' →
      K.Abides (issue appId j.mode x j.userId >>= fun credentials =>
        .done ({ session := x, realtime := some credentials } : JoinReply))
        (fun reply told'' => Replied j.mode x j.userId told'' reply) told' := by
    intro told' htold
    refine Abides.bind ?_
    unfold issue
    refine Abides.bind (Abides.mono (abides_issueToken fun hmode hkind =>
      hpermits hmode hkind told' htold) fun issued told'' _ hwarranted => ?_)
    exact ⟨rfl, _, rfl, rfl, hwarranted⟩
  -- What comes before the token is quiet, so that the token is asked for as if nothing had been
  -- told.
  have hreport : ∀ told', Hushed told told' → K.Abides (j.report appId x added)
      (fun reply told'' => Replied j.mode x j.userId told'' reply) told' := by
    intro told' htold
    refine abides_ask_quiet trivial fun _ _ told'' hcount => ?_
    exact abides_ask_quiet trivial fun _ _ told''' hnote =>
      hissue told''' (htold.trans (hcount.trans hnote))
  cases horphan : Joiner.orphan? held x with
  | none =>
    rw [Joiner.finish_of_none horphan]
    exact hreport told (.refl told)
  | some meeting =>
    rw [Joiner.finish_of_some horphan]
    exact abides_ask_quiet trivial fun _ _ told' => hreport told'

end Code

end Conduct

end VoiceRoom
