import VoiceRoom.Workflow.Join

/-!
# The parts of a join

What is shown of a join is put together from what is shown of its parts, whatever the property. The
parts that have no name of their own get one here: what a lookup comes to (`Resolution.read`), a
draft as degraded as its meeting (`Draft.graded`), the way on with a meeting (`Joiner.settle`), the
way on after an attempt (`Joiner.proceed`), and what is left to do for whoever came in
(`Joiner.report`).
-/

namespace VoiceRoom

/-! ### Resolving -/

/-- What the absence or presence of a mapping means in a mode. -/
def Resolution.read (mode : Mode) : Option Versioned → Resolution
  | none => .absent
  | some stored => .ofStored mode stored

/-- What was read of a mapping includes its version. -/
theorem Resolution.version?_read (mode : Mode) (stored : Option Versioned) :
    (Resolution.read mode stored).version? = stored.map Versioned.version := by
  cases stored with
  | none => rfl
  | some v =>
    rcases Resolution.ofStored_cases mode v with ⟨-, heq⟩ | ⟨-, heq⟩ <;>
      exact congrArg Resolution.version? heq

/-- A mapping that was found counts. -/
theorem Resolution.counts_of_found {mode : Mode} {stored : Option Versioned} {mapping : Mapping}
    {version : Nat} (h : read mode stored = .found mapping version) :
    ∃ v, stored = some v ∧ Mapping.decode v.value = mapping ∧
      (mode = .mock ∨ mapping.kind = .real) := by
  cases stored with
  | none => exact nomatch h
  | some v =>
    obtain ⟨hdecode, -, hcounts⟩ := ofStored_eq_found_iff.1 h
    exact ⟨v, rfl, hdecode, hcounts⟩

/-! ### Opening a session -/

/-- The draft whose session is degraded or not, as it should be. -/
def Draft.graded (d : Draft) (degraded : Bool) : Draft :=
  if d.session.degraded = degraded then d
  else { d with session.degraded := degraded, dirty := true }

theorem Draft.graded_of_eq {d : Draft} {degraded : Bool} (h : d.session.degraded = degraded) :
    d.graded degraded = d :=
  if_pos h

/-- A new draft has the right flag. -/
theorem Draft.graded_new (s : String) (meeting : Meeting) (t : Int) (version : Option Nat)
    (dirty : Bool) : graded ⟨Session.new s meeting t, version, dirty⟩ meeting.degraded =
      ⟨Session.new s meeting t, version, dirty⟩ :=
  graded_of_eq rfl

/-- Setting the flag only where it differs is setting it. -/
theorem Draft.pure_graded (d : Draft) (degraded : Bool) :
    (if d.session.degraded = degraded then pure d
      else pure { d with session.degraded := degraded, dirty := true } : Request Draft) =
      pure (d.graded degraded) := by
  unfold Draft.graded
  split <;> rfl

/-! ### Attempts -/

namespace Joiner

/-- How an attempt goes on with a meeting. -/
def settle (j : Joiner) (seen : Resolution) (meeting : Meeting) :
    Request (Attempt × Option Meeting) := do
  if ← j.writeMapping seen meeting then
    let draft ← j.openAllocated meeting
    return (← j.enter draft, some meeting)
  else return (.raced, some meeting)

/-- How a join goes on after an attempt. -/
def proceed (appId : String) (j : Joiner) (left : Nat) :
    Except ServiceError (Attempt × Option Meeting) → Request JoinReply
  | .error e => do
    Request.count (.join (Joiner.failure e).name)
    throw e
  | .ok (.joined x added, held) => ExceptT.lift (j.finish appId held x added)
  | .ok (.raced, held) => do
    Request.count .joinConflict
    Request.note (.joinRaced j.sessionId (maxAttempts - left))
    j.retry appId left held

/-- While an attempt is left the loop makes it and goes on with its result. -/
theorem retry_succ (appId : String) (j : Joiner) (left : Nat) (held : Option Meeting) :
    (j.retry appId (left + 1) held).run =
      (j.attempt held).run >>= fun result => (j.proceed appId left result).run := by
  rw [retry, ExceptT.run_bind_lift]
  rfl

/-! ### Finishing -/

/-- What is left to do for whoever came in, but for the warning of an orphan. -/
def report (appId : String) (j : Joiner) (x : Session) (added : Bool) : Program JoinReply := do
  Program.call (.count (.join (if added then JoinOutcome.joined else .rejoined).name))
  Program.call (.note (.joined j.sessionId j.userId x.users.length added))
  let credentials ← issue appId j.mode x j.userId
  return { session := x, realtime := some credentials }

variable {appId : String} {j : Joiner} {held : Option Meeting} {x : Session} {added : Bool}

/-- Without an orphan the join reports at once. -/
theorem finish_of_none (h : orphan? held x = none) :
    j.finish appId held x added = j.report appId x added := by
  unfold finish
  rw [h]
  rfl

/-- An orphan is noted before the join reports. -/
theorem finish_of_some {meeting : Meeting} (h : orphan? held x = some meeting) :
    j.finish appId held x added =
      .ask (.note (.meetingOrphaned j.sessionId meeting.id)) fun _ => j.report appId x added := by
  unfold finish
  rw [h]
  rfl

end Joiner

/-! ### Requests -/

variable {appId s : String} {mode : Mode} {r : JoinRequest}

/-- A request that is turned down is counted, and that is all. -/
theorem run_join_of_error {fault : JoinRequest.Fault} (h : r.validate = .error fault) :
    (join appId mode s r).run =
      .ask (.count (.join JoinOutcome.invalid.name)) fun _ =>
        .done (.error (.badRequest fault.message)) := by
  unfold join
  rw [h]
  rfl

/-- A valid request enters the loop. -/
theorem join_of_ok {userId : String} (h : r.validate = .ok userId) :
    join appId mode s r = Joiner.retry appId ⟨mode, s, userId, r.iconUrl⟩ maxAttempts none := by
  unfold join
  rw [h]

/-- The first attempt of a request that is accepted. -/
theorem run_join_of_ok {userId : String} (h : r.validate = .ok userId) :
    (join appId mode s r).run =
      (Joiner.attempt ⟨mode, s, userId, r.iconUrl⟩ none).run >>= fun result =>
        (Joiner.proceed appId ⟨mode, s, userId, r.iconUrl⟩ 4 result).run := by
  rw [join_of_ok h]
  exact Joiner.retry_succ ..

end VoiceRoom
