import VoiceRoom.Http.Service
import VoiceRoom.Proofs.Joining
import VoiceRoom.Proofs.Twins.Logic

/-!
# The service does the same

What the service does depends on a record by what it reads as, and on a failure by its having
happened. So each of its functions is like itself, whatever the likeness: workflow functions come to
the same or both to an error, and a request over HTTP is answered with the same response, unless it
asks for the metrics, which count failures by their kind.
-/

namespace VoiceRoom.Twins.Likeness

variable {L : Likeness}

/-! ### Resolving and allocating -/

/-- Mappings that are alike are resolved in the same way. -/
theorem ofStored_eq {key s : String} {mode : Mode} {v v' : Versioned} (hkey : key = mappingKey s)
    (h : L.Versions key v v') : Resolution.ofStored mode v = Resolution.ofStored mode v' := by
  subst hkey
  unfold Resolution.ofStored
  rw [L.mapping h.value, h.version]

theorem alike_lookup (s : String) (mode : Mode) :
    L.Alike (Both L.storeError Eq) (Resolution.lookup s mode) (Resolution.lookup s mode) := by
  unfold Resolution.lookup
  refine .ask (.get (mappingKey s)) fun r r' hr => ?_
  cases hr with
  | error he => exact .done (.error he)
  | @ok stored stored' hstored =>
    cases hstored with
    | none => exact .done (.ok rfl)
    | @some v v' hv =>
      have hsame : Resolution.ofStored mode v = Resolution.ofStored mode v' := ofStored_eq rfl hv
      dsimp only [Program.bind]
      rw [hsame]
      cases Resolution.ofStored mode v' with
      | stale mapping version => exact .log _ (.done (.ok rfl))
      | found mapping version => exact .done (.ok rfl)
      | absent => exact .done (.ok rfl)

theorem alike_allocate (mode : Mode) (s : String) :
    L.Alike Eq (allocate mode s) (allocate mode s) := by
  cases mode with
  | mock => exact .log _ (.done rfl)
  | real =>
    refine .ask (.createMeeting s) fun r r' hr => ?_
    cases hr with
    | @ok meetingId meetingId' hsame =>
      subst hsame
      exact .done rfl
    | error he => exact .note (.meetingFailed s he) (.count _ (.done rfl))

theorem alike_issueToken (mode : Mode) (x : Session) (userId : String) :
    L.Alike Eq (issueToken mode x userId) (issueToken mode x userId) := by
  unfold issueToken
  cases mode with
  | mock => exact .done rfl
  | real =>
    cases x.kind with
    | mock => exact .log _ (.count _ (.done rfl))
    | real =>
      refine .ask (.createParticipant x.meetingId userId) fun r r' hr => ?_
      cases hr with
      | @ok token token' hsame =>
        subst hsame
        exact .done rfl
      | error he => exact .note (.tokenFailed x.meetingId he) (.count _ (.done rfl))

theorem alike_issue (appId : String) (mode : Mode) (x : Session) (userId : String) :
    L.Alike Eq (issue appId mode x userId) (issue appId mode x userId) := by
  unfold issue
  refine (alike_issueToken mode x userId).bind fun issued issued' h => ?_
  subst h
  exact .done rfl

/-! ### Opening a session -/

theorem steady_load (mapping : Mapping) : L.Steady (load mapping) := by
  unfold load
  refine twin_get (sessionKey mapping.meetingId) fun stored stored' hstored => ?_
  cases hstored with
  | none => exact steady_pure none
  | @some v v' hv =>
    dsimp only
    rw [L.session hv.value, hv.version]
    cases Session.decode v'.value with
    | error fault => exact twin_note _ (steady_throw .internal)
    | ok x =>
      dsimp only
      split
      · exact twin_note _ (steady_pure _)
      · exact steady_pure _

theorem steady_fresh (j : Joiner) (meeting : Meeting) (version : Option Nat) :
    L.Steady (j.fresh meeting version) :=
  twin_now fun _ => steady_pure _

theorem steady_openMapped (j : Joiner) (mapping : Mapping) :
    L.Steady (j.openMapped mapping) := by
  unfold Joiner.openMapped
  refine (steady_load mapping).bind fun loaded => ?_
  cases loaded with
  | none => exact twin_note _ (steady_fresh j _ none)
  | some loaded => exact steady_pure _

theorem steady_writeMapping (j : Joiner) (seen : Resolution) (meeting : Meeting) :
    L.Steady (j.writeMapping seen meeting) := by
  unfold Joiner.writeMapping
  dsimp only
  refine .ite (steady_pure true) (twin_putIf _ _ _ fun outcome => ?_)
  cases outcome with
  | conflict => exact steady_pure false
  | written n => exact steady_pure true

theorem steady_openAllocated (j : Joiner) (meeting : Meeting) :
    L.Steady (j.openAllocated meeting) := by
  have hgrade : ∀ draft : Draft, L.Steady (α := Draft)
      (if draft.session.degraded = meeting.degraded then pure draft
        else pure { draft with session.degraded := meeting.degraded, dirty := true }) :=
    fun draft => .ite (steady_pure _) (steady_pure _)
  unfold Joiner.openAllocated
  refine (steady_load _).bind fun loaded => ?_
  cases loaded with
  | none => exact (steady_fresh j meeting none).bind hgrade
  | some loaded =>
    exact .ite ((steady_pure _).bind hgrade) ((steady_fresh j meeting _).bind hgrade)

theorem steady_enter (j : Joiner) (d : Draft) : L.Steady (j.enter d) := by
  unfold Joiner.enter
  refine .ite (twin_note _ (steady_throw .sessionFull)) (twin_now fun t => ?_)
  dsimp only
  refine .ite (steady_pure _) (twin_putIf _ _ _ fun outcome => ?_)
  cases outcome with
  | conflict => exact steady_pure _
  | written n => exact steady_pure _

/-! ### Joining and creating -/

theorem steady_attempt (j : Joiner) (held : Option Meeting) :
    L.Steady (j.attempt held) := by
  have henter : ∀ (x : Request Draft) (held' : Option Meeting), L.Steady x →
      L.Steady (do
        let draft ← x
        return (← j.enter draft, held')) := fun x held' h =>
    h.bind fun draft => (steady_enter j draft).bind fun _ => steady_pure _
  unfold Joiner.attempt
  refine twin_ofStore (alike_lookup _ _) fun seen => ?_
  have hsettle : ∀ meeting, L.Steady (do
      if ← j.writeMapping seen meeting then
        let draft ← j.openAllocated meeting
        return (← j.enter draft, some meeting)
      else return (.raced, some meeting)) := fun meeting =>
    (steady_writeMapping j seen meeting).bind fun written =>
      .ite (henter _ _ (steady_openAllocated j meeting)) (steady_pure _)
  -- A meeting is obtained by allocating one or by holding it already, and then it is settled alike.
  have hobtain := twin_lift (L := L) (alike_allocate j.mode j.sessionId) hsettle
  cases seen with
  | found mapping version => exact henter _ _ (steady_openMapped j mapping)
  | stale mapping version =>
    cases held with
    | some meeting => exact hsettle meeting
    | none => exact hobtain
  | absent =>
    cases held with
    | some meeting => exact hsettle meeting
    | none => exact hobtain

theorem alike_finish (appId : String) (j : Joiner) (held : Option Meeting) (x : Session)
    (added : Bool) : L.Alike Eq (j.finish appId held x added) (j.finish appId held x added) := by
  have hreport : L.Alike Eq (j.report appId x added) (j.report appId x added) :=
    .count _ (.log _ ((alike_issue appId j.mode x j.userId).bind fun c c' h => .done (h ▸ rfl)))
  cases horphan : Joiner.orphan? held x with
  | none =>
    rw [Joiner.finish_of_none horphan]
    exact hreport
  | some meeting =>
    rw [Joiner.finish_of_some horphan]
    exact .log _ hreport

theorem steady_retry (appId : String) (j : Joiner) (left : Nat) (held : Option Meeting) :
    L.Steady (j.retry appId left held) := by
  induction left generalizing held with
  | zero => exact twin_count _ (twin_note _ (steady_throw _))
  | succ left ih =>
    unfold Joiner.retry Steady Twin
    rw [ExceptT.run_bind_lift]
    refine Alike.bind (steady_attempt j held) fun r r' hr => ?_
    cases hr with
    | error he =>
      cases he with
      | same => exact twin_count _ (steady_throw _)
      | store he => exact Alike.count _ (.done (.error (.store he)))
    | @ok a b hab =>
      subst hab
      obtain ⟨attempt, held⟩ := a
      cases attempt with
      | joined x added => exact (alike_finish appId j held x added).map fun _ _ h => .ok h
      | raced => exact twin_count _ (twin_note _ (ih held))

/-- A join goes the same way in both. -/
theorem steady_join (appId : String) (mode : Mode) (s : String) (r : JoinRequest) :
    L.Steady (join appId mode s r) := by
  unfold join
  cases r.validate with
  | error fault => exact twin_count _ (steady_throw _)
  | ok userId => exact steady_retry appId _ maxAttempts none

/-- A create goes the same way in both. -/
theorem steady_create (mode : Mode) : L.Steady (create mode) := by
  unfold create
  refine Alike.ask_eq (c := .freshId) (fun _ _ h => h) fun s => ?_
  refine twin_lift (alike_allocate mode s) fun meeting => twin_now fun t => ?_
  refine twin_putIf _ _ _ fun outcome => ?_
  cases outcome with
  | conflict => exact twin_note _ (steady_throw _)
  | written n =>
    refine twin_putIf _ _ _ fun outcome => ?_
    cases outcome with
    | conflict => exact twin_note _ (steady_throw _)
    | written n => exact twin_count _ (twin_note _ (steady_pure _))

/-! ### HTTP -/

section Http

open Http

/-- Errors that are alike are answered in the same words. -/
theorem alike_fail {e e' : ServiceError} (h : L.Faults e e') : L.Alike Eq (fail e) (fail e') := by
  cases h with
  | same e =>
    unfold fail
    cases e with
    | store detail => exact .log _ (.done rfl)
    | _ => exact .done rfl
  | store he => exact .note (.storeFailed he) (.done rfl)

/-- Responses are alike if the requests are twins. -/
theorem alike_respond {α : Type} (toJson : α → Json) {x y : VoiceRoom.Request α}
    (h : L.Twin x y) : L.Alike Eq (respond toJson x) (respond toJson y) := by
  unfold respond
  refine Alike.bind h fun r r' hr => ?_
  cases hr with
  | @ok a b hab =>
    subst hab
    exact .done rfl
  | error he => exact alike_fail he

/-- The health check is alike in both. -/
theorem alike_health : L.Alike Eq health health := by
  have htail : ∀ healthy : Bool, L.Alike Eq (do
      let status := if healthy then "healthy" else "unhealthy"
      let mode ← Program.call .mode
      return Response.ofJson 200 (Health.toJson { status, mode := mode.name, store := status })) (do
      let status := if healthy then "healthy" else "unhealthy"
      let mode ← Program.call .mode
      return Response.ofJson 200 (Health.toJson { status, mode := mode.name, store := status })) :=
    fun healthy => Alike.ask_eq (c := .mode) (fun _ _ h => h) fun mode => .done rfl
  unfold health
  refine .ask .ping fun r r' hr => ?_
  cases hr with
  | ok h => exact htail true
  | error he => exact .note (.pingFailed he) (htail false)

theorem alike_answerJoin (appId segment : String) (r : Http.Request) :
    L.Alike Eq (answerJoin appId segment r) (answerJoin appId segment r) := by
  unfold answerJoin
  cases segmentText? segment with
  | none => exact .done rfl
  | some s =>
    dsimp only
    cases readJoin? r with
    | none => exact .log _ (alike_fail (L := L) (.same (.badRequest "Invalid request body")))
    | some request =>
      exact Alike.ask_eq (c := .mode) (fun _ _ h => h) fun mode =>
        alike_respond JoinReply.toJson (steady_join appId mode s request)

/-- Every route but that of the metrics is answered alike. -/
theorem alike_answerRoute (appId : String) (r : Http.Request) {route : Route}
    (h : route ≠ .metrics) :
    L.Alike Eq (answerRoute appId r route) (answerRoute appId r route) := by
  cases route with
  | root => exact .done rfl
  | health => exact alike_health
  | metrics => exact absurd rfl h
  | sessions =>
    exact Alike.ask_eq (c := .mode) (fun _ _ h => h) fun mode =>
      alike_respond Session.toJson (steady_create mode)
  | join segment => exact alike_answerJoin appId segment r

/-- A request that does not ask for the metrics is answered with the same response. -/
theorem alike_answer (appId : String) {r : Http.Request}
    (h : Route.ofPath? (Route.path r.target) ≠ some .metrics) :
    L.Alike Eq (answer appId r) (answer appId r) := by
  unfold answer
  cases hroute : Route.ofPath? (Route.path r.target) with
  | none => exact .done rfl
  | some route =>
    have hother : route ≠ .metrics := fun hmetrics => h (by rw [hroute, hmetrics])
    dsimp only
    split
    · refine (alike_answerRoute appId r hother).bind fun response response' hsame => ?_
      subst hsame
      exact .done rfl
    · exact .done rfl

end Http

end VoiceRoom.Twins.Likeness
