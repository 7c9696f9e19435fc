import VoiceRoom.JoinRequest
import VoiceRoom.Workflow.Allocate
import VoiceRoom.Workflow.Reconcile
import VoiceRoom.Workflow.Resolve

/-!
# Joining a session

A join reads the mapping and the session, and writes what has to change against the versions that
it read. If another request was faster, the write fails and the join starts over, a bounded number
of times. A meeting that the provider gave once is kept for the attempts that follow.
-/

namespace VoiceRoom

/-- How often a join is attempted. -/
def maxAttempts : Nat := 5

/-- Who joins what. -/
structure Joiner where
  mode : Mode
  sessionId : String
  userId : String
  iconUrl : Option String
deriving DecidableEq, Repr

/-- A session as one attempt to join it found or made it: the version of its record, if it has one,
and whether there is anything to write even without a new member. -/
structure Draft where
  session : Session
  version : Option Nat
  dirty : Bool
deriving DecidableEq, Repr

/-- What came of an attempt. -/
inductive Attempt where
  | joined (session : Session) (added : Bool)
  /-- Another request was faster. -/
  | raced
deriving DecidableEq, Repr

namespace Joiner

/-- A session with no record, made for a meeting. -/
def fresh (j : Joiner) (meeting : Meeting) (version : Option Nat) : Request Draft := do
  return ⟨Session.new j.sessionId meeting (← Request.now), version, true⟩

/-- The session that a mapping leads to. The mapping counts even if the session is not written
yet. -/
def openMapped (j : Joiner) (mapping : Mapping) : Request Draft := do
  match ← load mapping with
  | some loaded => return ⟨loaded.session, some loaded.version, loaded.repaired⟩
  | none =>
    Request.note (.sessionMissing j.sessionId mapping.meetingId)
    j.fresh ⟨mapping.meetingId, mapping.kind, false⟩ none

/-- Writes the mapping to a meeting over the version that was seen, unless it is there already.
Says whether the mapping is in place. -/
def writeMapping (j : Joiner) (seen : Resolution) (meeting : Meeting) : Request Bool := do
  let mapping := Mapping.ofMeeting meeting
  let current : Option Mapping :=
    match seen with
    | .stale mapping _ => some mapping
    | _ => none
  if current = some mapping then return true
  match ← Request.putIf (mappingKey j.sessionId) mapping.encode seen.version? with
  | .conflict => return false
  | .written _ => return true

/-- The session in a meeting that was obtained for it. There may be a record already, since mock
meetings are always the same: of this session, which is kept, or of another, which is replaced. -/
def openAllocated (j : Joiner) (meeting : Meeting) : Request Draft := do
  let loaded ← load (Mapping.ofMeeting meeting)
  let draft ←
    match loaded with
    | none => j.fresh meeting none
    | some loaded =>
      if loaded.session.sessionId = j.sessionId then
        pure ⟨loaded.session, some loaded.version, loaded.repaired⟩
      else j.fresh meeting (some loaded.version)
  if draft.session.degraded = meeting.degraded then return draft
  return { draft with session.degraded := meeting.degraded, dirty := true }

/-- Puts the user into the roster and writes what changed. -/
def enter (j : Joiner) (draft : Draft) : Request Attempt := do
  if draft.session.isFull then
    Request.note (.sessionFull j.sessionId j.userId)
    throw .sessionFull
  let joinedAt ← Request.now
  let added := !draft.session.hasMember j.userId
  let session := draft.session.add { userId := j.userId, joinedAt, iconUrl := j.iconUrl }
  if !draft.dirty && !added then return .joined session added
  match ← Request.putIf (sessionKey session.meetingId) session.encode draft.version with
  | .conflict => return .raced
  | .written _ => return .joined session added

/-- One attempt, with the meeting that an earlier one obtained. Gives the meeting back. -/
def attempt (j : Joiner) (held : Option Meeting) : Request (Attempt × Option Meeting) := do
  let resolution ← Request.ofStore (Resolution.lookup j.sessionId j.mode)
  match resolution with
  | .found mapping _ =>
    let draft ← j.openMapped mapping
    return (← j.enter draft, held)
  | seen =>
    let meeting ←
      match held with
      | some meeting => pure meeting
      | none => ExceptT.lift (allocate j.mode j.sessionId)
    if ← j.writeMapping seen meeting then
      let draft ← j.openAllocated meeting
      return (← j.enter draft, some meeting)
    else return (.raced, some meeting)

/-- How a failed attempt counts. -/
def failure : ServiceError → JoinOutcome
  | .sessionFull => .full
  | _ => .error

/-- The real meeting that a join obtained and a session is not in. -/
def orphan? (held : Option Meeting) (s : Session) : Option Meeting :=
  held.filter fun m => m.kind == .real && m.id != s.meetingId

/-- What follows a successful attempt. -/
def finish (appId : String) (j : Joiner) (held : Option Meeting) (session : Session)
    (added : Bool) : Program JoinReply := do
  if let some m := orphan? held session then
    Program.call (.note (.meetingOrphaned j.sessionId m.id))
  Program.call (.count (.join (if added then JoinOutcome.joined else .rejoined).name))
  Program.call (.note (.joined j.sessionId j.userId session.users.length added))
  let credentials ← issue appId j.mode session j.userId
  return { session, realtime := some credentials }

/-- Attempts to join until one attempt is not raced, at most `left` times. -/
def retry (appId : String) (j : Joiner) : Nat → Option Meeting → Request JoinReply
  | 0, _ => do
    Request.count (.join JoinOutcome.conflict.name)
    Request.note (.joinAbandoned j.sessionId maxAttempts)
    throw (.conflict "Session is busy, please retry")
  | left + 1, held => do
    match ← ExceptT.lift (j.attempt held).run with
    | .error e =>
      Request.count (.join (failure e).name)
      throw e
    | .ok (.joined session added, held) => ExceptT.lift (finish appId j held session added)
    | .ok (.raced, held) =>
      Request.count .joinConflict
      Request.note (.joinRaced j.sessionId (maxAttempts - left))
      retry appId j left held

end Joiner

/-- Adds a user to a session, which is created if need be. -/
def join (appId : String) (mode : Mode) (sessionId : String) (r : JoinRequest) :
    Request JoinReply :=
  match r.validate with
  | .error fault => do
    Request.count (.join JoinOutcome.invalid.name)
    throw (.badRequest fault.message)
  | .ok userId => Joiner.retry appId ⟨mode, sessionId, userId, r.iconUrl⟩ maxAttempts none

end VoiceRoom
