import Mathlib.Data.Set.Defs
import VoiceRoom.Proofs.Joining
import VoiceRoom.Proofs.Records
import VoiceRoom.Proofs.Roster
import VoiceRoom.Proofs.Store
import VoiceRoom.Workflow.Create

/-!
# What requests about a session id touch

A room is a session id with the meetings that it may lead to. A request about the session id reads
and writes the records of its room and no others, and each mapping that it writes leads to a meeting
of the room (`Room.keeps_join`, `Room.exists_keeps_create`). This takes for granted that the mapping
that it reads does so too, and that the provider gives the room what was asked for it.
-/

namespace VoiceRoom

/-- A session id with the meetings that it may lead to. -/
structure Room where
  sessionId : String
  meetings : Set String
  mock_mem : mockMeetingId sessionId ∈ meetings

namespace Room

variable {R : Room} {α β : Type}

/-- The keys of the room's mapping and sessions. -/
def records (R : Room) : Set String :=
  fun key => key = mappingKey R.sessionId ∨ ∃ m ∈ R.meetings, key = sessionKey m

theorem mappingKey_mem : mappingKey R.sessionId ∈ R.records :=
  .inl rfl

theorem sessionKey_mem {m : String} (hm : m ∈ R.meetings) : sessionKey m ∈ R.records :=
  .inr ⟨m, hm, rfl⟩

/-- Whether a stored mapping leads to a meeting of the room. -/
def Leads (R : Room) (value : String) : Prop :=
  (Mapping.decode value).meetingId ∈ R.meetings

/-- The calls that a request about the room may make, once it has a session id. -/
def Allows (R : Room) : Call → Prop
  | .get key => key ∈ R.records
  | .putIf key value _ => key ∈ R.records ∧ (key = mappingKey R.sessionId → R.Leads value)
  | .createMeeting title => title = R.sessionId
  | .freshId => False
  | _ => True

/-- The answers that a request about the room may take for granted. -/
def Trusts (R : Room) : (c : Call) → c.Answer → Prop
  | .get key, .ok (some v) => key = mappingKey R.sessionId → R.Leads v.value
  | .createMeeting _, .ok meetingId => meetingId ∈ R.meetings
  | _, _ => True

/-- A program makes the calls that it may make and comes to what `Q` says, whatever the answers are
within what it may take for granted. -/
def Keeps (R : Room) (Q : α → Prop) : Program α → Prop
  | .done a => Q a
  | .ask c next => R.Allows c ∧ ∀ r, R.Trusts c r → R.Keeps Q (next r)

/-- A request keeps to the room and comes to what `Q` says, unless it ends in an error. -/
def Ensures (R : Room) (x : Request α) (Q : α → Prop) : Prop :=
  R.Keeps (fun r => ∀ a, r = .ok a → Q a) x.run

/-! ### Rules -/

section Rules

variable {Q : α → Prop} {S : β → Prop}

theorem Keeps.mono {Q' : α → Prop} {p : Program α} (h : R.Keeps Q p) (hQ : ∀ a, Q a → Q' a) :
    R.Keeps Q' p := by
  induction p with
  | done a => exact hQ a h
  | ask c next ih => exact ⟨h.1, fun r hr => ih r (h.2 r hr)⟩

theorem Keeps.bind {p : Program α} {f : α → Program β} (h : R.Keeps Q p)
    (hf : ∀ a, Q a → R.Keeps S (f a)) : R.Keeps S (p >>= f) := by
  induction p with
  | done a => exact hf a h
  | ask c next ih => exact ⟨h.1, fun r hr => ih r (h.2 r hr)⟩

theorem Keeps.map {p : Program α} {f : α → β} (h : R.Keeps (fun a => S (f a)) p) :
    R.Keeps S (f <$> p) := by
  rw [map_eq_pure_bind]
  exact h.bind fun _ ha => ha

theorem Ensures.bind {x : Request α} {f : α → Request β} (h : R.Ensures x Q)
    (hf : ∀ a, Q a → R.Ensures (f a) S) : R.Ensures (x >>= f) S := by
  refine Keeps.bind h fun r hr => ?_
  cases r with
  | ok a => exact hf a (hr a rfl)
  | error e => exact fun b hb => nomatch hb

theorem Ensures.ite {c : Prop} [Decidable c] {x y : Request α} (hx : R.Ensures x Q)
    (hy : R.Ensures y Q) : R.Ensures (if c then x else y) Q := by
  split
  · exact hx
  · exact hy

theorem ensures_pure {a : α} (h : Q a) : R.Ensures (pure a : Request α) Q := by
  rintro _ ⟨⟩
  exact h

theorem ensures_throw (e : ServiceError) : R.Ensures (throw e : Request α) Q :=
  fun _ ha => nomatch ha

theorem ensures_lift {p : Program α} (h : R.Keeps Q p) : R.Ensures (ExceptT.lift p) Q := by
  refine Keeps.map (h.mono fun a ha => ?_)
  rintro _ ⟨⟩
  exact ha

theorem ensures_note {e : Event} {f : Unit → Request β} (h : R.Ensures (f ()) S) :
    R.Ensures (Request.note e >>= f) S :=
  ⟨trivial, fun _ _ => h⟩

theorem ensures_count {m : Measurement} {f : Unit → Request β} (h : R.Ensures (f ()) S) :
    R.Ensures (Request.count m >>= f) S :=
  ⟨trivial, fun _ _ => h⟩

theorem ensures_now {f : Int → Request β} (h : ∀ t, R.Ensures (f t) S) :
    R.Ensures (Request.now >>= f) S :=
  ⟨trivial, fun t _ => h t⟩

/-- What the store answers comes from the room. -/
theorem ensures_ofStore {p : Program (Except StoreError α)}
    (h : R.Keeps (fun r => ∀ a, r = .ok a → Q a) p) : R.Ensures (Request.ofStore p) Q := by
  refine Keeps.bind h fun r hr => ?_
  cases r with
  | ok a =>
    rintro _ ⟨⟩
    exact hr a rfl
  | error e => exact fun _ ha => nomatch ha

/-- A mapping that is read leads to a meeting of the room, which is what keeps the request inside
from then on. -/
theorem ensures_get {key : String} (hkey : key ∈ R.records) :
    R.Ensures (Request.get key)
      (fun stored => ∀ v, stored = some v → key = mappingKey R.sessionId → R.Leads v.value) := by
  refine ensures_ofStore ⟨hkey, fun r hr => ?_⟩
  rintro _ rfl v rfl
  exact hr

/-- A record of the room may be written, if a mapping leads to a meeting of the room. -/
theorem ensures_putIf {key value : String} {expected : Option Nat} (hkey : key ∈ R.records)
    (hvalue : key = mappingKey R.sessionId → R.Leads value) :
    R.Ensures (Request.putIf key value expected) fun _ => True :=
  ensures_ofStore ⟨⟨hkey, hvalue⟩, fun _ _ _ _ => trivial⟩

end Rules

/-! ### Resolving and allocating -/

/-- The mapping that is found leads to a meeting of the room. -/
theorem keeps_lookup (mode : Mode) :
    R.Keeps (fun r => ∀ seen, r = .ok seen → ∀ mapping version, seen = .found mapping version →
      mapping.meetingId ∈ R.meetings) (Resolution.lookup R.sessionId mode) := by
  refine ⟨mappingKey_mem, fun r hr => ?_⟩
  match r with
  | .error e => exact fun _ h => nomatch h
  | .ok none =>
    rintro _ ⟨⟩ _ _ h
    exact nomatch h
  | .ok (some stored) =>
    -- What is read from the mapping of the room leads into it.
    have hleads : R.Leads stored.value := hr rfl
    dsimp only [Program.call, bind, Program.bind, pure]
    cases hresolution : Resolution.ofStored mode stored with
    | stale mapping version =>
      refine ⟨trivial, fun _ _ => ?_⟩
      rintro _ ⟨⟩ _ _ h
      exact nomatch h
    | absent =>
      rintro _ ⟨⟩ _ _ h
      exact nomatch h
    | found mapping version =>
      rintro _ ⟨⟩ _ _ ⟨⟩
      obtain ⟨rfl, -⟩ := Resolution.ofStored_eq_found_iff.1 hresolution
      exact hleads

/-- A meeting that is allocated belongs to the room. -/
theorem keeps_allocate (mode : Mode) :
    R.Keeps (fun meeting => meeting.id ∈ R.meetings) (allocate mode R.sessionId) := by
  cases mode with
  | mock => exact ⟨trivial, fun _ _ => R.mock_mem⟩
  | real =>
    refine ⟨rfl, fun r hr => ?_⟩
    cases r with
    | ok meetingId => exact hr
    | error e => exact ⟨trivial, fun _ _ => ⟨trivial, fun _ _ => R.mock_mem⟩⟩

/-- Issuing a token leaves every room alone. -/
theorem keeps_issue (appId : String) (mode : Mode) (s : Session) (userId : String) :
    R.Keeps (fun _ => True) (issue appId mode s userId) := by
  unfold issue issueToken
  cases mode with
  | mock => trivial
  | real =>
    cases s.kind with
    | mock => exact ⟨trivial, fun _ _ => ⟨trivial, fun _ _ => trivial⟩⟩
    | real =>
      refine ⟨trivial, fun r _ => ?_⟩
      cases r with
      | ok token => trivial
      | error e => exact ⟨trivial, fun _ _ => ⟨trivial, fun _ _ => trivial⟩⟩

/-! ### Joining -/

theorem ensures_load {mapping : Mapping} (h : mapping.meetingId ∈ R.meetings) :
    R.Ensures (load mapping)
      (fun loaded => ∀ x, loaded = some x → x.session.meetingId = mapping.meetingId) := by
  unfold load
  refine (ensures_get (sessionKey_mem h)).bind fun stored _ => ?_
  cases stored with
  | none => exact ensures_pure fun x hx => nomatch hx
  | some stored =>
    dsimp only
    split
    · exact ensures_note (ensures_throw _)
    · rename_i session _
      have hfit : R.Ensures
          (pure (some ⟨session.fit mapping, stored.version, !session.agrees mapping⟩) :
            Request (Option Loaded))
          fun loaded => ∀ x, loaded = some x → x.session.meetingId = mapping.meetingId := by
        refine ensures_pure ?_
        rintro _ ⟨⟩
        rfl
      split
      · exact ensures_note hfit
      · exact hfit

variable {j : Joiner}

theorem ensures_fresh {meeting : Meeting} {version : Option Nat} (h : meeting.id ∈ R.meetings) :
    R.Ensures (j.fresh meeting version) fun d => d.session.meetingId ∈ R.meetings :=
  ensures_now fun _ => ensures_pure h

theorem ensures_openMapped {mapping : Mapping} (h : mapping.meetingId ∈ R.meetings) :
    R.Ensures (j.openMapped mapping) fun d => d.session.meetingId ∈ R.meetings := by
  unfold Joiner.openMapped
  refine (ensures_load h).bind fun loaded hloaded => ?_
  cases loaded with
  | none => exact ensures_note (ensures_fresh h)
  | some x =>
    refine ensures_pure ?_
    rw [hloaded x rfl]
    exact h

theorem ensures_writeMapping (hj : j.sessionId = R.sessionId) {seen : Resolution}
    {meeting : Meeting} (h : meeting.id ∈ R.meetings) :
    R.Ensures (j.writeMapping seen meeting) fun _ => True := by
  have hleads : R.Leads (Mapping.ofMeeting meeting).encode := by
    rw [Leads, Mapping.decode_encode]
    exact h
  have hkey : mappingKey j.sessionId ∈ R.records := by
    rw [hj]
    exact mappingKey_mem
  unfold Joiner.writeMapping
  refine Ensures.ite (fun _ _ => trivial) ?_
  refine (ensures_putIf hkey fun _ => hleads).bind fun outcome _ => ?_
  cases outcome <;> exact fun _ _ => trivial

theorem ensures_openAllocated {meeting : Meeting} (h : meeting.id ∈ R.meetings) :
    R.Ensures (j.openAllocated meeting) fun d => d.session.meetingId ∈ R.meetings := by
  have hgrade : ∀ d : Draft, d.session.meetingId ∈ R.meetings →
      R.Ensures (if d.session.degraded = meeting.degraded then pure d
        else pure { d with session.degraded := meeting.degraded, dirty := true } : Request Draft)
        fun d => d.session.meetingId ∈ R.meetings :=
    fun d hd => Ensures.ite (ensures_pure hd) (ensures_pure hd)
  unfold Joiner.openAllocated
  have hmapping : (Mapping.ofMeeting meeting).meetingId ∈ R.meetings := h
  refine (ensures_load hmapping).bind fun loaded hloaded => ?_
  cases loaded with
  | none => exact (ensures_fresh h).bind hgrade
  | some x =>
    dsimp only
    have hx : x.session.meetingId ∈ R.meetings := by
      rw [hloaded x rfl]
      exact h
    exact Ensures.ite (hgrade _ hx) ((ensures_fresh h).bind hgrade)

theorem ensures_enter {d : Draft} (h : d.session.meetingId ∈ R.meetings) :
    R.Ensures (j.enter d) fun _ => True := by
  unfold Joiner.enter
  split
  · exact ensures_note (ensures_throw _)
  · refine ensures_now fun t => ?_
    dsimp only
    split
    · exact fun _ _ => trivial
    · have hmeeting : (d.session.add ⟨j.userId, t, j.iconUrl⟩).meetingId = d.session.meetingId :=
        (Session.continues_add d.session _).meetingId
      rw [← hmeeting] at h
      refine (ensures_putIf (sessionKey_mem h) fun hkey => ?_).bind fun outcome _ => ?_
      · exact absurd hkey.symm (mappingKey_ne_sessionKey _ _)
      · cases outcome <;> exact fun _ _ => trivial

/-- A meeting that a join holds is one of the room. -/
def Houses (R : Room) (held : Option Meeting) : Prop :=
  ∀ meeting, held = some meeting → meeting.id ∈ R.meetings

/-- An attempt that goes on with a meeting hands the meeting on. -/
theorem ensures_allocated (hj : j.sessionId = R.sessionId) {seen : Resolution} {meeting : Meeting}
    (h : meeting.id ∈ R.meetings) :
    R.Ensures (do
      if ← j.writeMapping seen meeting then
        let draft ← j.openAllocated meeting
        return (← j.enter draft, some meeting)
      else return (.raced, some meeting)) fun result => R.Houses result.2 := by
  have hkept : ∀ attempt : Attempt, R.Ensures (pure (attempt, some meeting) : Request _)
      fun result => R.Houses result.2 := by
    refine fun attempt => ensures_pure ?_
    rintro _ ⟨⟩
    exact h
  refine (ensures_writeMapping hj h).bind fun inPlace _ => ?_
  split
  · exact (ensures_openAllocated h).bind fun d hd =>
      (ensures_enter hd).bind fun attempt _ => hkept attempt
  · exact hkept .raced

/-- What one attempt hands on to the next is a meeting of the room. -/
theorem ensures_attempt (hj : j.sessionId = R.sessionId) {held : Option Meeting}
    (hheld : R.Houses held) : R.Ensures (j.attempt held) fun result => R.Houses result.2 := by
  unfold Joiner.attempt
  rw [hj]
  refine (ensures_ofStore (keeps_lookup j.mode)).bind fun seen hseen => ?_
  rw [← hj]
  cases seen with
  | found mapping version =>
    exact (ensures_openMapped (hseen mapping version rfl)).bind fun d hd =>
      (ensures_enter hd).bind fun attempt _ => ensures_pure hheld
  -- Stale or absent: the session needs a meeting, one that is held already or a new one.
  | _ =>
    cases held with
    | some meeting => exact ensures_allocated hj (hheld meeting rfl)
    | none =>
      rw [hj]
      exact (ensures_lift (keeps_allocate j.mode)).bind fun meeting hmeeting =>
        ensures_allocated hj hmeeting

theorem keeps_finish (appId : String) (held : Option Meeting) (session : Session) (added : Bool) :
    R.Keeps (fun _ => True) (j.finish appId held session added) := by
  have hreport : R.Keeps (fun _ => True) (j.report appId session added) :=
    ⟨trivial, fun _ _ => ⟨trivial, fun _ _ => (keeps_issue appId j.mode session j.userId).bind
      fun _ _ => trivial⟩⟩
  cases horphan : Joiner.orphan? held session with
  | some meeting =>
    rw [Joiner.finish_of_some horphan]
    exact ⟨trivial, fun _ _ => hreport⟩
  | none =>
    rw [Joiner.finish_of_none horphan]
    exact hreport

/-- The loop keeps to its room. -/
theorem ensures_retry (appId : String) (hj : j.sessionId = R.sessionId) (left : Nat)
    {held : Option Meeting} (hheld : R.Houses held) :
    R.Ensures (j.retry appId left held) fun _ => True := by
  induction left generalizing held with
  | zero => exact ensures_count (ensures_note (ensures_throw _))
  | succ left ih =>
    unfold Joiner.retry
    refine (ensures_lift (ensures_attempt hj hheld)).bind fun r hr => ?_
    rcases r with e | ⟨⟨session, added⟩ | -, held'⟩
    · exact ensures_count (ensures_throw e)
    · exact ensures_lift (keeps_finish appId held' session added)
    · exact ensures_count (ensures_note (ih (hr _ rfl)))

/-- A join keeps to the room of its session id. -/
theorem keeps_join (R : Room) (appId : String) (mode : Mode) (r : JoinRequest) :
    R.Keeps (fun _ => True) (join appId mode R.sessionId r).run := by
  unfold join
  split
  · exact ⟨trivial, fun _ _ => trivial⟩
  · rename_i userId _
    have hretry : R.Ensures (Joiner.retry appId ⟨mode, R.sessionId, userId, r.iconUrl⟩ maxAttempts
        none) fun _ => True := ensures_retry appId rfl maxAttempts fun _ h => nomatch h
    exact Keeps.mono hretry fun _ _ => trivial

/-! ### Creating -/

/-- A create keeps to the room of the session id that it draws. -/
theorem exists_keeps_create (mode : Mode) :
    ∃ rest : String → Program (Except ServiceError Session),
      (create mode).run = .ask .freshId rest ∧
      ∀ R : Room, R.Keeps (fun _ => True) (rest R.sessionId) := by
  refine ⟨_, rfl, fun R => ?_⟩
  refine Keeps.mono (Q := fun r => ∀ session, r = .ok session → True) ?_ fun _ _ => trivial
  refine Ensures.bind (S := fun _ => True) (ensures_lift (keeps_allocate mode))
    fun meeting hmeeting => ensures_now fun t => ?_
  dsimp only
  refine (ensures_putIf mappingKey_mem fun _ => ?_).bind fun outcome _ => ?_
  · rw [Leads, Mapping.decode_encode]
    exact hmeeting
  · cases outcome with
    | conflict => exact ensures_note (ensures_throw _)
    | written version =>
      refine (ensures_putIf (sessionKey_mem hmeeting) fun hkey => ?_).bind fun outcome _ => ?_
      -- a session is not a mapping, so that nothing is asked of what is written
      · exact absurd hkey.symm (mappingKey_ne_sessionKey _ _)
      · cases outcome with
        | conflict => exact ensures_note (ensures_throw _)
        | written version => exact ensures_count (ensures_note fun _ _ => trivial)

end Room

end VoiceRoom
