import VoiceRoom.Proofs.Concurrency.System
import VoiceRoom.Proofs.Joining
import VoiceRoom.Proofs.Roster
import VoiceRoom.Proofs.Store

/-!
# Requests that run alone

A request that is started and then answered call by call, with nothing in between, makes a run
(`run_of_alone`). So there are runs: a first join makes a session (`alone_attempt_first`), and what a
later one does that finds the session is put together from its parts.
-/

namespace VoiceRoom.Concurrency

open Simulation (Entry)

variable {α β : Type}

/-- A program runs alone on a store: the calls that it makes with their answers, the store
afterwards, and what it comes to. -/
inductive Alone : Memory → Program α → List Entry → Memory → α → Prop where
  | done (m : Memory) (a : α) : Alone m (.done a) [] m a
  | ask {m m' : Memory} {c : Call} {rest : c.Answer → Program α} {entries : List Entry} {a : α}
      (r : c.Answer) (hr : World.Answers ⟨m, []⟩ c r)
      (h : Alone (storeAfter m c) (rest r) entries m' a) :
      Alone m (.ask c rest) (⟨c, r⟩ :: entries) m' a

namespace Alone

variable {m m' m'' : Memory} {p : Program α} {entries entries' : List Entry} {a : α}

/-- A call whose effect on the store is known goes first. -/
theorem step {c : Call} {rest : c.Answer → Program α} {m₁ : Memory} (r : c.Answer)
    (hr : World.Answers ⟨m, []⟩ c r) (hm : storeAfter m c = m₁)
    (h : Alone m₁ (rest r) entries m' a) : Alone m (.ask c rest) (⟨c, r⟩ :: entries) m' a :=
  .ask r hr (hm ▸ h)

theorem bind {f : α → Program β} {b : β} (h : Alone m p entries m' a)
    (h' : Alone m' (f a) entries' m'' b) : Alone m (p >>= f) (entries ++ entries') m'' b := by
  induction h with
  | done m a => exact h'
  | ask r hr _ ih => exact .ask r hr (ih h')

theorem map {f : α → β} (h : Alone m p entries m' a) : Alone m (f <$> p) entries m' (f a) := by
  rw [map_eq_pure_bind, ← List.append_nil entries]
  exact h.bind (.done m' (f a))

/-- A request runs alone after one that succeeded. -/
theorem bindRequest {x : Request α} {f : α → Request β} {b : Except ServiceError β}
    (h : Alone m x.run entries m' (.ok a)) (h' : Alone m' (f a).run entries' m'' b) :
    Alone m (x >>= f).run (entries ++ entries') m'' b :=
  h.bind h'

/-- A request without calls may follow one that succeeded. -/
theorem lastRequest {x : Request α} {f : α → Request β} {b : Except ServiceError β}
    (h : Alone m x.run entries m' (.ok a)) (hf : (f a).run = .done b) :
    Alone m (x >>= f).run entries m' b := by
  rw [← List.append_nil entries]
  exact h.bindRequest (hf ▸ .done m' b)

/-- Nothing follows a request that failed. -/
theorem failRequest {x : Request α} {f : α → Request β} {e : ServiceError}
    (h : Alone m x.run entries m' (.error e)) : Alone m (x >>= f).run entries m' (.error e) := by
  rw [← List.append_nil entries]
  exact h.bind (.done m' _)

theorem get {key : String} {v : Option Versioned} (hup : m.available = true)
    (hlookup : m.lookup key = v) :
    Alone m (Request.get key).run [⟨.get key, .ok v⟩] m (.ok v) :=
  .step (c := .get key) _ (Memory.get_of_lookup hup hlookup).symm rfl (.done _ _)

/-- The clock is read and tells any time that is one. -/
theorem now (m : Memory) (t : Int) (ht : fitsInt64 t) :
    Alone m Request.now.run [⟨.now, t⟩] m (.ok t) :=
  .step (c := .now) _ ht rfl (.done _ _)

/-- A put whose version is the current one writes the record. -/
theorem putIf {key value : String} {expected : Option Nat} (hup : m.available = true)
    (hversion : (m.lookup key).map Versioned.version = expected) :
    Alone m (Request.putIf key value expected).run
      [⟨.putIf key value expected, .ok (.written (m.nextVersion key))⟩]
      (m.insert key ⟨value, m.nextVersion key⟩) (.ok (.written (m.nextVersion key))) := by
  have hput := Memory.putIf_of_version value hup hversion
  exact .step (c := .putIf key value expected) _ (congrArg Prod.fst hput).symm
    (congrArg Prod.snd hput) (.done _ _)

end Alone

/-- What happened once a task was started and answered. -/
def aloneAfter (i : Nat) (job : Job) (entries : List Entry) (past : List Act) : List Act :=
  (entries.map (Act.answer i)).reverse ++ .start job :: past

/-- A task that is answered call by call, while all others wait, makes a run. -/
theorem run_task_of_alone {appId : String} {m m' : Memory} {p : Program Outcome}
    {entries : List Entry} {outcome : Outcome} (h : Alone m p entries m' outcome) {job : Job}
    {i : Nat} {tasks : List Task} (htask : tasks[i]? = some ⟨job, p⟩) (past : List Act) :
    Run appId (System.mk ⟨m, past⟩ tasks)
      (System.mk ⟨m', (entries.map (Act.answer i)).reverse ++ past⟩
        (tasks.set i ⟨job, .done outcome⟩)) := by
  -- The task is served once for every call of its program, and nobody else is served.
  induction h generalizing past tasks with
  | done m a =>
    obtain ⟨hi, hlast⟩ := List.getElem?_eq_some_iff.1 htask
    rw [← hlast, List.set_getElem_self]
    exact .refl
  | @ask m m' c rest entries a r hr _ ih =>
    have hanswers : World.Answers ⟨m, past⟩ c r := by
      cases c <;> exact hr
    have hstep : Step appId (System.mk ⟨m, past⟩ tasks) _ := .answer r htask hanswers
    have hi : i < tasks.length := (List.getElem?_eq_some_iff.1 htask).1
    have htail := ih (List.getElem?_set_self hi) (.answer i ⟨c, r⟩ :: past)
    rw [List.set_set] at htail
    rw [List.map_cons, List.reverse_cons, List.append_assoc, List.singleton_append]
    exact .head hstep htail

/-- A job that runs alone makes a run. -/
theorem run_of_alone {appId : String} {σ : System} {job : Job} {entries : List Entry}
    {m' : Memory} {outcome : Outcome}
    (h : Alone σ.store (job.program appId) entries m' outcome) :
    Run appId σ ⟨⟨m', aloneAfter σ.tasks.length job entries σ.past⟩,
      σ.tasks ++ [⟨job, .done outcome⟩]⟩ := by
  have htask : (σ.tasks ++ [⟨job, job.program appId⟩])[σ.tasks.length]? =
      some ⟨job, job.program appId⟩ := by
    simp
  have htail : Run appId _ _ := run_task_of_alone h htask (.start job :: σ.past)
  have hset : (σ.tasks ++ [Task.mk job (job.program appId)]).set σ.tasks.length
      ⟨job, .done outcome⟩ = σ.tasks ++ [⟨job, .done outcome⟩] := by
    simp
  rw [hset] at htail
  exact .head (.start σ job) htail

/-! ### Joins that succeed at once -/

/-- What follows an attempt that succeeded, when the provider gives a token. -/
def finishEntries (j : Joiner) (x : Session) (token : String) : List Entry :=
  [⟨.count (.join JoinOutcome.joined.name), ()⟩,
   ⟨.note (.joined j.sessionId j.userId x.users.length true), ()⟩,
   ⟨.createParticipant x.meetingId j.userId, .ok token⟩]

/-- A join that was let in with a real meeting and no orphan ends with a token. -/
theorem alone_finish (m : Memory) (appId : String) {j : Joiner} {x : Session} (token : String)
    {held : Option Meeting} (hmode : j.mode = .real) (hkind : x.kind = .real)
    (hheld : Joiner.orphan? held x = none) :
    Alone m (j.finish appId held x true) (finishEntries j x token) m
      ⟨x, some ⟨x.meetingId, token, appId, false⟩⟩ := by
  rw [Joiner.finish_of_none hheld]
  unfold Joiner.report issue issueToken
  rw [hmode, hkind]
  refine .ask (c := .count _) _ trivial ?_
  refine .ask (c := .note _) _ trivial ?_
  exact .ask (c := .createParticipant ..) _ trivial (.done _ _)

/-- A join whose first attempt succeeds is done. -/
theorem alone_join {m m' : Memory} {appId s userId : String} {r : JoinRequest} {x : Session}
    {held : Option Meeting} {entries : List Entry} (token : String)
    (hvalid : r.validate = .ok userId)
    (hattempt : Alone m (Joiner.attempt ⟨.real, s, userId, r.iconUrl⟩ none).run entries m'
      (.ok (.joined x true, held)))
    (hkind : x.kind = .real) (hheld : Joiner.orphan? held x = none) :
    Alone m ((Job.join .real s r).program appId)
      (entries ++ finishEntries ⟨.real, s, userId, r.iconUrl⟩ x token) m'
      (.joined (.ok ⟨x, some ⟨x.meetingId, token, appId, false⟩⟩)) := by
  refine Alone.map ?_
  have hfinish := alone_finish m' appId (j := ⟨.real, s, userId, r.iconUrl⟩) token rfl hkind hheld
  -- Of the five attempts only the first is made.
  rw [run_join_of_ok hvalid]
  refine hattempt.bind ?_
  dsimp only [Joiner.proceed]
  rw [ExceptT.run_lift]
  exact hfinish.map

/-! ### A first join -/

/-- The session that a first join makes. -/
def firstSession (s meetingId userId : String) : Session :=
  (Session.new s ⟨meetingId, .real, false⟩ 0).add ⟨userId, 0, none⟩

/-- The session of a first user has the times of its clock. -/
theorem timed_firstSession (s meetingId userId : String) :
    (firstSession s meetingId userId).Timed := by
  refine Session.Timed.add (s := Session.new s ⟨meetingId, .real, false⟩ 0) ⟨rfl, fun _ h => ?_⟩ rfl
  exact nomatch h

/-- The store that maps a session id to a real meeting with a session in it. -/
def storeWith (s meetingId : String) (v : Versioned) : Memory :=
  (({} : Memory).insert (mappingKey s) ⟨(Mapping.mk meetingId .real).encode, 1⟩).insert
    (sessionKey meetingId) v

/-- The calls of a first attempt in real mode: nothing is found, a meeting is obtained and the
mapping to it is written, then a session with the user in it. -/
def firstEntries (s meetingId userId : String) : List Entry :=
  [⟨.get (mappingKey s), .ok none⟩,
   ⟨.createMeeting s, .ok meetingId⟩,
   ⟨.putIf (mappingKey s) (Mapping.mk meetingId .real).encode none, .ok (.written 1)⟩,
   ⟨.get (sessionKey meetingId), .ok none⟩,
   ⟨.now, (0 : Int)⟩,
   ⟨.now, (0 : Int)⟩,
   ⟨.putIf (sessionKey meetingId) (firstSession s meetingId userId).encode none,
    .ok (.written 1)⟩]

/-- With only a mapping stored there are no sessions. -/
theorem lookup_mapping_only (s meetingId key : String) :
    (({} : Memory).insert (mappingKey s) ⟨(Mapping.mk meetingId .real).encode, 1⟩).lookup
      (sessionKey key) = none := by
  rw [Memory.lookup_insert_mapping]
  rfl

/-- In real mode, the first attempt to join maps the session id to the meeting that the provider
gives, and makes the session. -/
theorem alone_attempt_first (s meetingId userId : String) :
    Alone {} (Joiner.attempt ⟨.real, s, userId, none⟩ none).run (firstEntries s meetingId userId)
      (storeWith s meetingId ⟨(firstSession s meetingId userId).encode, 1⟩)
      (.ok (.joined (firstSession s meetingId userId) true, some ⟨meetingId, .real, false⟩)) := by
  have hlookup := lookup_mapping_only s meetingId meetingId
  have hversion : ((({} : Memory).insert (mappingKey s)
      ⟨(Mapping.mk meetingId .real).encode, 1⟩).lookup (sessionKey meetingId)).map
        Versioned.version = none := by
    rw [hlookup, Option.map_none]
  have hwritten :=
    Memory.putIf_of_version (firstSession s meetingId userId).encode rfl hversion
  rw [Memory.nextVersion, hlookup] at hwritten
  -- no mapping is found, a meeting is granted and the mapping written
  refine .ask (c := .get _) _ rfl ?_
  refine .ask (c := .createMeeting _) _ trivial ?_
  refine .ask (c := .putIf ..) _ rfl ?_
  -- no session is found, so a new one is made and the user added
  refine .ask (c := .get _) _ (congrArg Except.ok hlookup.symm) ?_
  refine .ask (c := .now) _ rfl ?_
  refine .ask (c := .now) _ rfl ?_
  exact .step (c := .putIf ..) _ (congrArg Prod.fst hwritten).symm (congrArg Prod.snd hwritten)
    (.done _ _)

/-! ### A session that is found -/

/-- The session id is mapped to its meeting. -/
theorem lookup_storeWith_mapping (s meetingId : String) (v : Versioned) :
    (storeWith s meetingId v).lookup (mappingKey s) =
      some ⟨(Mapping.mk meetingId .real).encode, 1⟩ := by
  unfold storeWith
  rw [Memory.lookup_insert, if_neg (mappingKey_ne_sessionKey s meetingId), Memory.lookup_insert,
    if_pos rfl]

/-- The session is in its meeting. -/
theorem lookup_storeWith_session (s meetingId : String) (v : Versioned) :
    (storeWith s meetingId v).lookup (sessionKey meetingId) = some v := by
  unfold storeWith
  rw [Memory.lookup_insert_session, if_pos rfl]

/-- A mapping that is to be kept is found. -/
theorem alone_lookup {m : Memory} {s : String} {stored : Versioned} {mapping : Mapping}
    {version : Nat} (hup : m.available = true) (hlookup : m.lookup (mappingKey s) = some stored)
    (hfound : Resolution.ofStored .real stored = .found mapping version) :
    Alone m (Request.ofStore (Resolution.lookup s .real)).run
      [⟨.get (mappingKey s), .ok (some stored)⟩] m (.ok (.found mapping version)) := by
  refine .step (c := .get _) _ (Memory.get_of_lookup hup hlookup).symm rfl ?_
  dsimp only [Program.call, bind, Program.bind, pure]
  rw [hfound]
  exact .done _ _

/-- A mapped session is opened as it was stored. -/
theorem alone_openMapped {m : Memory} {j : Joiner} {stored : Versioned} {x : Session}
    (hup : m.available = true) (hlookup : m.lookup (sessionKey x.meetingId) = some stored)
    (hdecode : Session.decode stored.value = .ok x) :
    Alone m (j.openMapped x.mapping).run [⟨.get (sessionKey x.meetingId), .ok (some stored)⟩] m
      (.ok ⟨x, some stored.version, false⟩) := by
  have hagrees : x.agrees x.mapping = true := by
    simp [Session.agrees, Session.mapping]
  have hload : Alone m (load x.mapping).run
      [⟨.get (sessionKey x.meetingId), .ok (some stored)⟩] m
      (.ok (some ⟨x, stored.version, false⟩)) := by
    unfold load
    refine Alone.lastRequest (.get hup hlookup) ?_
    dsimp only
    rw [hdecode]
    dsimp only
    rw [if_neg (fun h => h rfl), Session.fit_of_agrees hagrees, hagrees]
    rfl
  unfold Joiner.openMapped
  exact hload.lastRequest rfl

/-- A new user is added where there is room, and the session is written. -/
theorem alone_enter {m : Memory} {j : Joiner} {d : Draft} {t : Int} {x : Session}
    (hup : m.available = true) (ht : fitsInt64 t) (hroom : d.session.isFull = false)
    (hmember : d.session.hasMember j.userId = false)
    (hx : d.session.add ⟨j.userId, t, j.iconUrl⟩ = x)
    (hversion : (m.lookup (sessionKey x.meetingId)).map Versioned.version = d.version) :
    Alone m (j.enter d).run
      [⟨.now, t⟩, ⟨.putIf (sessionKey x.meetingId) x.encode d.version,
        .ok (.written (m.nextVersion (sessionKey x.meetingId)))⟩]
      (m.insert (sessionKey x.meetingId) ⟨x.encode, m.nextVersion (sessionKey x.meetingId)⟩)
      (.ok (.joined x true)) := by
  unfold Joiner.enter
  dsimp only
  rw [hroom, if_neg Bool.false_ne_true]
  refine Alone.bindRequest (.now m t ht) ?_
  rw [hx, hmember, if_neg (by simp)]
  exact Alone.lastRequest (.putIf hup hversion) rfl

end VoiceRoom.Concurrency
