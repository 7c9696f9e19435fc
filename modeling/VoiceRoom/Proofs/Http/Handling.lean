import VoiceRoom.Http.Service
import VoiceRoom.Proofs.Conduct.Attempts

/-!
# What handling a request comes to

Each request is measured once, after it was handled. Handling it takes measurements of its own, of
joins, sessions and the provider, but none of a request (`Call.Inner`), and the response has one of
few statuses. Both follow from the programs alone: a program is *contained* in what `Q` says if all
its calls are inner ones and `Q` holds of what it comes to, however it is answered
(`Program.Contained`).
-/

namespace VoiceRoom

/-- Whether a measurement is of a request. -/
def Measurement.isRequest : Measurement → Bool
  | .request .. => true
  | _ => false

/-- Whether a call measures no request. -/
def Call.Inner : Call → Prop
  | .count m => m.isRequest = false
  | _ => True

namespace Program

variable {α β : Type} {Q : α → Prop} {R : β → Prop} {p : Program α}

/-- A program makes inner calls only, and comes to what `Q` says. -/
def Contained (Q : α → Prop) : Program α → Prop
  | .done a => Q a
  | .ask c next => c.Inner ∧ ∀ r, (next r).Contained Q

/-- A program makes inner calls only. -/
abbrev Internal (p : Program α) : Prop :=
  p.Contained fun _ => True

/-! ### Structural rules -/

theorem Contained.bind {f : α → Program β} (h : p.Contained Q)
    (hf : ∀ a, Q a → (f a).Contained R) : (p >>= f).Contained R := by
  induction p with
  | done a => exact hf a h
  | ask c next ih => exact ⟨h.1, fun r => ih r (h.2 r)⟩

theorem Internal.bind {f : α → Program β} (h : p.Internal) (hf : ∀ a, (f a).Contained R) :
    (p >>= f).Contained R :=
  Contained.bind h fun a _ => hf a

theorem internal_call {c : Call} (hc : c.Inner) : (call c).Internal :=
  ⟨hc, fun _ => trivial⟩

theorem contained_note {e : Event} {next : Unit → Program α} (h : (next ()).Contained Q) :
    (ask (.note e) next).Contained Q :=
  ⟨trivial, fun _ => h⟩

theorem contained_count {m : Measurement} {next : Unit → Program α} (hm : m.isRequest = false)
    (h : (next ()).Contained Q) : (ask (.count m) next).Contained Q :=
  ⟨hm, fun _ => h⟩

/-- What a program comes to when it was answered. -/
theorem Contained.came {q : Program α} {told : List Simulation.Entry} (h : p.Contained Q)
    (hcame : Conduct.Came p told q) : q.Contained Q := by
  induction hcame with
  | start => exact h
  | answer _ r _ ih => exact ih.2 r

end Program

namespace Request

variable {α β : Type} {x : Request α}

/-- A request makes inner calls only. -/
abbrev Internal (x : Request α) : Prop :=
  x.run.Internal

theorem internal_pure (a : α) : (pure a : Request α).Internal :=
  trivial

theorem internal_throw (e : ServiceError) : (throw e : Request α).Internal :=
  trivial

theorem Internal.bind {f : α → Request β} (h : x.Internal) (hf : ∀ a, (f a).Internal) :
    (x >>= f).Internal := by
  refine Program.Internal.bind h fun r => ?_
  cases r with
  | ok a => exact hf a
  | error e => exact trivial

theorem Internal.ite {c : Prop} [Decidable c] {y : Request α} (hx : x.Internal)
    (hy : y.Internal) : (if c then x else y).Internal := by
  split
  · exact hx
  · exact hy

theorem internal_lift {p : Program α} {f : α → Request β} (h : p.Internal)
    (hf : ∀ a, (f a).Internal) : (ExceptT.lift p >>= f).Internal :=
  Internal.bind (Program.Internal.bind h fun _ => trivial) hf

theorem internal_ofStore {p : Program (Except StoreError α)} {f : α → Request β} (h : p.Internal)
    (hf : ∀ a, (f a).Internal) : (ofStore p >>= f).Internal :=
  Internal.bind (Program.Internal.bind h fun _ => trivial) hf

theorem internal_note {e : Event} {f : Unit → Request β} (h : (f ()).Internal) :
    (note e >>= f).Internal :=
  Program.contained_note h

theorem internal_count {m : Measurement} {f : Unit → Request β} (hm : m.isRequest = false)
    (h : (f ()).Internal) : (count m >>= f).Internal :=
  Program.contained_count hm h

theorem internal_now {f : Int → Request β} (h : ∀ t, (f t).Internal) : (now >>= f).Internal :=
  internal_lift (Program.internal_call trivial) h

theorem internal_get {key : String} {f : Option Versioned → Request β}
    (h : ∀ stored, (f stored).Internal) : (get key >>= f).Internal :=
  internal_ofStore (Program.internal_call trivial) h

theorem internal_putIf {key value : String} {expected : Option Nat} {f : PutOutcome → Request β}
    (h : ∀ outcome, (f outcome).Internal) : (putIf key value expected >>= f).Internal :=
  internal_ofStore (Program.internal_call trivial) h

end Request

/-! ### Workflow functions -/

open Program Request

theorem internal_lookup (s : String) (mode : Mode) : (Resolution.lookup s mode).Internal := by
  refine ⟨trivial, fun r => ?_⟩
  match r with
  | .error e => exact trivial
  | .ok none => exact trivial
  | .ok (some stored) =>
    dsimp only [Program.bind]
    cases Resolution.ofStored mode stored with
    | stale mapping version => exact contained_note trivial
    | found mapping version => exact trivial
    | absent => exact trivial

theorem internal_allocate (mode : Mode) (s : String) : (allocate mode s).Internal := by
  cases mode with
  | mock => exact contained_note trivial
  | real =>
    refine ⟨trivial, fun r => ?_⟩
    cases r with
    | ok meetingId => exact trivial
    | error e => exact contained_note (contained_count rfl trivial)

theorem internal_issueToken (mode : Mode) (x : Session) (userId : String) :
    (issueToken mode x userId).Internal := by
  unfold issueToken
  cases mode with
  | mock => exact trivial
  | real =>
    cases x.kind with
    | mock => exact contained_note (contained_count rfl trivial)
    | real =>
      refine ⟨trivial, fun r => ?_⟩
      cases r with
      | ok token => exact trivial
      | error e => exact contained_note (contained_count rfl trivial)

theorem internal_load (mapping : Mapping) : (load mapping).Internal := by
  refine internal_get fun stored => ?_
  cases stored with
  | none => exact internal_pure none
  | some stored =>
    dsimp only
    cases Session.decode stored.value with
    | error fault => exact internal_note (internal_throw .internal)
    | ok x =>
      dsimp only
      split
      · exact internal_note (internal_pure _)
      · exact internal_pure _

namespace Joiner

variable (j : Joiner)

theorem internal_fresh (meeting : Meeting) (version : Option Nat) :
    (j.fresh meeting version).Internal :=
  internal_now fun _ => internal_pure _

theorem internal_openMapped (mapping : Mapping) : (j.openMapped mapping).Internal := by
  refine (internal_load mapping).bind fun loaded => ?_
  cases loaded with
  | none => exact internal_note (j.internal_fresh _ none)
  | some loaded => exact internal_pure _

theorem internal_writeMapping (seen : Resolution) (meeting : Meeting) :
    (j.writeMapping seen meeting).Internal := by
  unfold writeMapping
  refine .ite (internal_pure true) (internal_putIf fun outcome => ?_)
  cases outcome with
  | conflict => exact internal_pure false
  | written n => exact internal_pure true

theorem internal_openAllocated (meeting : Meeting) : (j.openAllocated meeting).Internal := by
  unfold openAllocated
  simp only [Draft.pure_graded]
  refine (internal_load _).bind fun loaded => ?_
  cases loaded with
  | none => exact (j.internal_fresh meeting none).bind fun _ => internal_pure _
  | some loaded =>
    exact .ite ((internal_pure _).bind fun _ => internal_pure _)
      ((j.internal_fresh meeting _).bind fun _ => internal_pure _)

theorem internal_enter (draft : Draft) : (j.enter draft).Internal := by
  unfold enter
  refine .ite (internal_note (internal_throw .sessionFull)) (internal_now fun t => ?_)
  refine .ite (internal_pure _) (internal_putIf fun outcome => ?_)
  cases outcome with
  | conflict => exact internal_pure _
  | written n => exact internal_pure _

theorem internal_land {x : Request Draft} (held : Option Meeting) (h : x.Internal) :
    Request.Internal (do
      let draft ← x
      return (← j.enter draft, held)) :=
  h.bind fun draft => (j.internal_enter draft).bind fun _ => internal_pure _

theorem internal_settle (seen : Resolution) (meeting : Meeting) :
    (j.settle seen meeting).Internal :=
  (j.internal_writeMapping seen meeting).bind fun _ =>
    .ite (j.internal_land _ (j.internal_openAllocated meeting)) (internal_pure _)

theorem internal_attempt (held : Option Meeting) : (j.attempt held).Internal := by
  have hobtain : ∀ seen, Request.Internal (do
      let meeting ← ExceptT.lift (allocate j.mode j.sessionId)
      j.settle seen meeting) := fun seen =>
    internal_lift (internal_allocate j.mode j.sessionId) (j.internal_settle seen)
  refine internal_ofStore (internal_lookup _ _) fun seen => ?_
  cases seen with
  | found mapping version => exact j.internal_land _ (j.internal_openMapped mapping)
  | stale mapping version =>
    cases held with
    | some meeting => exact j.internal_settle _ meeting
    | none => exact hobtain _
  | absent =>
    cases held with
    | some meeting => exact j.internal_settle _ meeting
    | none => exact hobtain _

theorem internal_finish (appId : String) (held : Option Meeting) (x : Session) (added : Bool) :
    (j.finish appId held x added).Internal := by
  have hissue : (issue appId j.mode x j.userId >>= fun c =>
      .done ({ session := x, realtime := some c } : JoinReply)).Internal :=
    Program.Internal.bind ((internal_issueToken j.mode x j.userId).bind fun _ => trivial)
      fun _ => trivial
  have hreport : (j.report appId x added).Internal := contained_count rfl (contained_note hissue)
  cases horphan : orphan? held x with
  | none =>
    rw [finish_of_none horphan]
    exact hreport
  | some meeting =>
    rw [finish_of_some horphan]
    exact contained_note hreport

theorem internal_retry (appId : String) (left : Nat) (held : Option Meeting) :
    (j.retry appId left held).Internal := by
  induction left generalizing held with
  | zero => exact internal_count rfl (internal_note (internal_throw _))
  | succ left ih =>
    unfold Request.Internal
    rw [retry_succ]
    refine Program.Internal.bind (j.internal_attempt held) fun result => ?_
    match result with
    | .error e => exact internal_count rfl (internal_throw _)
    | .ok (.joined x added, held) =>
      exact Program.Internal.bind (j.internal_finish appId held x added) fun _ => trivial
    | .ok (.raced, held) => exact internal_count rfl (internal_note (ih held))

end Joiner

/-- A join measures no request, whatever happens to it. -/
theorem internal_join (appId : String) (mode : Mode) (s : String) (r : JoinRequest) :
    (join appId mode s r).Internal := by
  unfold join
  cases r.validate with
  | error fault => exact internal_count rfl (internal_throw _)
  | ok userId => exact Joiner.internal_retry _ appId maxAttempts none

/-- A create measures no request, whatever happens to it. -/
theorem internal_create (mode : Mode) : (create mode).Internal := by
  refine internal_lift (internal_call trivial) fun s => ?_
  refine internal_lift (internal_allocate mode s) fun meeting => internal_now fun t => ?_
  refine internal_putIf fun outcome => ?_
  cases outcome with
  | conflict => exact internal_note (internal_throw _)
  | written n =>
    refine internal_putIf fun outcome => ?_
    cases outcome with
    | conflict => exact internal_note (internal_throw _)
    | written n => exact internal_count rfl (internal_note (internal_pure _))

/-! ### Handlers -/

namespace Http

/-- The statuses of the responses that handlers give. -/
def handlerStatuses : List Nat := [200, 400, 403, 409, 500]

/-- The statuses of all responses: paths may lead nowhere, methods may not be taken, and time may run
out. -/
def statuses : List Nat := 404 :: 408 :: 405 :: handlerStatuses

/-- A handler makes inner calls only, and answers with a status of its own. -/
abbrev Handler (p : Program Response) : Prop :=
  p.Contained fun response => response.status ∈ handlerStatuses

/-- The status of an error is one that a handler may give. -/
theorem ServiceError.status_mem (e : ServiceError) : e.status ∈ handlerStatuses := by
  cases e <;> simp [ServiceError.status, handlerStatuses]

theorem handler_done {response : Response} (status : Nat) (hstatus : response.status = status)
    (h : status ∈ handlerStatuses) : Handler (.done response) := by
  subst hstatus
  exact h

theorem handler_fail (e : ServiceError) : Handler (fail e) := by
  have hdone : Handler (.done (.ofError e)) := handler_done _ rfl (ServiceError.status_mem e)
  cases e with
  | store detail => exact contained_note hdone
  | _ => exact hdone

theorem handler_respond {α : Type} (toJson : α → Json) {x : VoiceRoom.Request α}
    (h : x.Internal) : Handler (respond toJson x) := by
  refine Program.Internal.bind h fun r => ?_
  cases r with
  | error e => exact handler_fail e
  | ok a => exact handler_done 200 rfl (by decide)

theorem handler_health : Handler health := by
  have htail : ∀ healthy : Bool, Handler (do
      let status := if healthy then "healthy" else "unhealthy"
      let mode ← Program.call .mode
      return Response.ofJson 200 (Health.toJson { status, mode := mode.name, store := status })) :=
    fun healthy => ⟨trivial, fun mode => handler_done 200 rfl (by decide)⟩
  refine ⟨trivial, fun r => ?_⟩
  cases r with
  | ok _ => exact htail true
  | error e => exact contained_note (htail false)

theorem handler_answerJoin (appId segment : String) (r : Request) :
    Handler (answerJoin appId segment r) := by
  unfold answerJoin
  cases segmentText? segment with
  | none => exact handler_done 400 rfl (by decide)
  | some s =>
    dsimp only
    cases readJoin? r with
    | none => exact contained_note (handler_fail (.badRequest "Invalid request body"))
    | some request =>
      exact ⟨trivial, fun mode => handler_respond _ (internal_join appId mode s request)⟩

/-- Whatever it is asked and answered, the handler of a route measures no request, and its response
is neither that of a path without a route nor that of a method that is not taken. -/
theorem handler_answerRoute (appId : String) (r : Request) (route : Route) :
    Handler (answerRoute appId r route) := by
  cases route with
  | root => exact handler_done 200 rfl (by decide)
  | health => exact handler_health
  | metrics => exact ⟨trivial, fun lines => handler_done 200 rfl (by decide)⟩
  | sessions => exact ⟨trivial, fun mode => handler_respond _ (internal_create mode)⟩
  | join segment => exact handler_answerJoin appId segment r

/-- A response is one that a request may get: only a path that leads nowhere is not found. -/
structure Fitting (r : Request) (response : Response) : Prop where
  status : response.status ∈ statuses
  lost : response.status = 404 ↔ Route.ofPath? (Route.path r.target) = none

/-- Every request is answered by a handler, or by the router itself. What a response may be is read
off this. -/
theorem contained_answer (appId : String) (r : Request) :
    (answer appId r).Contained (Fitting r) := by
  unfold answer
  cases hroute : Route.ofPath? (Route.path r.target) with
  | none => exact ⟨by decide, iff_of_true rfl hroute⟩
  | some route =>
    have hfound : ∀ response : Response, response.status ∈ 405 :: handlerStatuses →
        Fitting r response := by
      intro response hstatus
      refine ⟨?_, iff_of_false ?_ (by rw [hroute]; nofun)⟩
      · exact List.mem_cons_of_mem _ (List.mem_cons_of_mem _ hstatus)
      · intro hlost
        rw [hlost] at hstatus
        exact absurd hstatus (by decide)
    dsimp only
    split
    -- Leaving the body out keeps the status.
    · refine (handler_answerRoute appId r route).bind fun response hstatus => ?_
      have hfitting := hfound response (List.mem_cons_of_mem _ hstatus)
      split
      · exact ⟨hfitting.status, hfitting.lost⟩
      · exact hfitting
    · exact hfound _ List.mem_cons_self

end Http

end VoiceRoom
