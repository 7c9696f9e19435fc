import VoiceRoom.Proofs.Conduct.Rules

/-!
# The loop of a join

A join makes one attempt after the other until one is not raced. An attempt looks up the mapping and
then goes on in one of three ways (`abides_attempt`). What holds before the first attempt, and again
after each one that was raced, holds before every attempt (`abides_retry`), however often others are
faster.
-/

namespace VoiceRoom

open Simulation (Entry)

namespace Conduct.Code

variable {α β : Type} {K : Code} {j : Joiner} {held : Option Meeting} {told : List Entry}

/-- An error ends a request. -/
theorem Abides.request {x : Request α} {f : α → Request β}
    {W : Except ServiceError β → List Entry → Prop}
    (h : K.Comes x (fun a => K.Abides (f a).run W) (fun e => W (.error e)) told) :
    K.Abides (x >>= f).run W told := by
  refine Abides.bind (Abides.mono h fun r told' _ hr => ?_)
  cases r with
  | ok a => exact hr
  | error e => exact hr

/-- Once it knows what the mapping says, an attempt opens the session that it leads to, goes on with
the meeting of an earlier attempt, or obtains one. -/
theorem abides_attempt {P : Resolution → List Entry → Prop}
    {W : Except ServiceError (Attempt × Option Meeting) → List Entry → Prop}
    (hlookup : ∀ f, (∀ seen told', P seen told' → K.Abides (f seen).run W told') →
      K.Abides (Request.ofStore (Resolution.lookup j.sessionId j.mode) >>= f).run W told)
    (hfound : ∀ mapping version told', P (.found mapping version) told' → K.Abides
      (do
        let draft ← j.openMapped mapping
        return (← j.enter draft, held) : Request (Attempt × Option Meeting)).run W told')
    (hheld : ∀ seen meeting told', held = some meeting → P seen told' →
      (∀ mapping version, seen ≠ .found mapping version) →
      K.Abides (j.settle seen meeting).run W told')
    (hobtain : ∀ seen told', held = none → P seen told' →
      (∀ mapping version, seen ≠ .found mapping version) → K.Abides (allocate j.mode j.sessionId)
      (fun meeting => K.Abides (j.settle seen meeting).run W) told') :
    K.Abides (j.attempt held).run W told := by
  unfold Joiner.attempt
  refine hlookup _ fun seen told' hseen => ?_
  cases seen with
  | found mapping version => exact hfound mapping version told' hseen
  | _ =>
    -- Stale or absent: the session needs a meeting.
    cases held with
    | some meeting => exact hheld _ meeting told' rfl hseen fun _ _ h => nomatch h
    | none => exact Abides.request (Abides.bind (hobtain _ told' rfl hseen fun _ _ h => nomatch h))

/-- The rule for the loop: `I` holds before each attempt, of the attempts that are left, of the
meeting in the join's hands and of what the join was told, and an attempt that is the last one comes
to what `W` says. -/
theorem abides_retry {appId : String} {I : Nat → Option Meeting → List Entry → Prop}
    {W : Except ServiceError JoinReply → List Entry → Prop}
    (hattempt : ∀ left held told, I (left + 1) held told →
      K.Abides (j.attempt held).run (fun result told' => match result with
        | .error e => W (.error e) (⟨.count (.join (Joiner.failure e).name), ()⟩ :: told')
        | .ok (.raced, held') => ∀ attempt, I left held'
            (⟨.note (.joinRaced j.sessionId attempt), ()⟩ :: ⟨.count .joinConflict, ()⟩ :: told')
        | .ok (.joined x added, held') =>
          K.Abides (j.finish appId held' x added) (fun reply => W (.ok reply)) told') told)
    (habandoned : ∀ held told, I 0 held told →
      W (.error (.conflict "Session is busy, please retry"))
        (⟨.note (.joinAbandoned j.sessionId maxAttempts), ()⟩ ::
          ⟨.count (.join JoinOutcome.conflict.name), ()⟩ :: told))
    (left : Nat) (h : I left held told) : K.Abides (j.retry appId left held).run W told := by
  -- On the attempts that are left: one that was raced hands the invariant on to the next.
  induction left generalizing held told with
  | zero => exact ⟨K.harmless trivial, fun _ _ => ⟨K.harmless trivial, fun _ _ =>
      habandoned held told h⟩⟩
  | succ left ih =>
    rw [Joiner.retry_succ]
    refine Abides.bind (Abides.mono (hattempt left held told h) fun result told' _ hresult => ?_)
    match result, hresult with
    | .error e, hresult => exact ⟨K.harmless trivial, fun _ _ => hresult⟩
    | .ok (.raced, held'), hresult =>
      exact ⟨K.harmless trivial, fun _ _ => ⟨K.harmless trivial, fun _ _ => ih (hresult _)⟩⟩
    | .ok (.joined x added, held'), hresult => exact Abides.map hresult

/-! ### Codes of sessions -/

/-- A code says nothing but which sessions may be written. -/
def SessionsOnly (K : Code) : Prop :=
  ∀ told c, (∀ k value expected, c ≠ .putIf (sessionKey k) value expected) → K.permits told c

namespace SessionsOnly

variable {C : List Entry → Prop} {D : List Entry → Draft → Prop}

theorem permits_mapping (h : K.SessionsOnly) (s value : String) (expected : Option Nat) :
    K.permits told (.putIf (mappingKey s) value expected) :=
  h told _ fun k _ _ hcall => mappingKey_ne_sessionKey s k (Call.putIf.inj hcall).1

theorem abides_allocate (h : K.SessionsOnly) (mode : Mode) (s : String) :
    K.Abides (allocate mode s) (fun _ _ => True) told :=
  Code.abides_allocate (fun _ => h _ _ fun _ _ _ hcall => nomatch hcall)
    (fun _ _ _ => trivial) (fun _ _ => trivial) fun _ _ _ _ => trivial

/-- The part of an attempt that enters a session, however it was opened. -/
theorem complies_land {x : Request Draft} (held : Option Meeting)
    (henter : ∀ d told, D told d → K.Complies (j.enter d) (fun _ _ => True) C told)
    (hx : K.Complies x (fun d told' => D told' d) C told) :
    K.Complies (do
        let draft ← x
        return (← j.enter draft, held))
      (fun _ _ => True) C told :=
  Complies.bind (hx.mono fun d told' _ hd => Complies.bind
    ((henter d told' hd).mono fun _ _ _ _ => complies_pure trivial))

/-- The rule for joins: if all sessions are opened as `D` says, and what `D` says is enough to enter
one, then all attempts abide by the code. -/
theorem abides_retry (h : K.SessionsOnly) {appId : String}
    (hmapped : ∀ mapping told,
      K.Complies (j.openMapped mapping) (fun d told' => D told' d) (fun _ => True) told)
    (hallocated : ∀ meeting told,
      K.Complies (j.openAllocated meeting) (fun d told' => D told' d) (fun _ => True) told)
    (henter : ∀ d told, D told d →
      K.Complies (j.enter d) (fun _ _ => True) (fun _ => True) told)
    (left : Nat) (held : Option Meeting) (told : List Entry) :
    K.Abides (j.retry appId left held).run (fun _ _ => True) told := by
  have hsettle : ∀ seen meeting told,
      K.Complies (j.settle seen meeting) (fun _ _ => True) (fun _ => True) told := by
    intro seen meeting told
    have hland := fun told => complies_land (some meeting) henter (hallocated meeting told)
    exact Complies.bind (complies_writeMapping (fun _ => h.permits_mapping _ _ _) (hland _)
      (fun _ => hland _) (complies_pure trivial))
  have hattempt : ∀ held told,
      K.Complies (j.attempt held) (fun _ _ => True) (fun _ => True) told := by
    intro held told
    refine abides_attempt (P := fun _ _ => True)
      (fun f hf => complies_lookup fun stored told' _ => hf _ told' trivial) ?found ?held ?obtain
    case found => exact fun mapping _ told' _ => complies_land held henter (hmapped mapping told')
    case held => exact fun seen meeting told' _ _ _ => hsettle seen meeting told'
    case obtain =>
      exact fun seen told' _ _ _ => (h.abides_allocate j.mode j.sessionId).mono
        fun meeting told'' _ _ => hsettle seen meeting told''
  refine Code.abides_retry (I := fun _ _ _ => True) (fun _ held told _ => ?_)
    (fun _ _ _ => trivial) left trivial
  refine Abides.mono (hattempt held told) fun result told' _ _ => ?_
  match result with
  | .error e => trivial
  | .ok (.raced, held') => exact fun _ => trivial
  | .ok (.joined x added, held') =>
    refine Abides.mono (abides_finish fun _ _ _ _ => ?_) fun _ _ _ _ => trivial
    exact h _ _ fun _ _ _ hcall => nomatch hcall

end SessionsOnly

end Conduct.Code

end VoiceRoom
