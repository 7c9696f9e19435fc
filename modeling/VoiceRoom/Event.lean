import VoiceRoom.Meeting
import VoiceRoom.Mode

/-!
# Events

What the service notes in its log. Each event has a level, a target, a message and fields; all four
follow from what happened.
-/

namespace VoiceRoom

inductive Level where
  | debug
  | info
  | warn
  | error
deriving DecidableEq, Repr

def Level.name : Level → String
  | .debug => "DEBUG"
  | .info => "INFO"
  | .warn => "WARN"
  | .error => "ERROR"

/-- The value of a field. -/
inductive Fact where
  | text (s : String)
  | number (n : Int)
  | flag (b : Bool)
deriving DecidableEq, Repr

inductive Event where
  | modeChanged (change : ModeChange)
  -- Requests
  | bodyRejected
  | storeFailed (error : String)
  | pingFailed (error : String)
  -- Mappings and records
  | mockMappingStale (sessionId meetingId : String)
  | sessionUnreadable (key : String)
  | meetingIdRepaired (sessionId stored mapped : String)
  -- Creating a session
  | sessionIdTaken (sessionId : String)
  | sessionRecordTaken (meetingId : String)
  | sessionCreated (sessionId meetingId : String) (kind : MeetingKind) (degraded : Bool)
  -- Joining a session
  | sessionMissing (sessionId meetingId : String)
  | sessionFull (sessionId userId : String)
  | joined (sessionId userId : String) (members : Nat) (added : Bool)
  | joinRaced (sessionId : String) (attempt : Nat)
  | joinAbandoned (sessionId : String) (attempts : Nat)
  | meetingOrphaned (sessionId meetingId : String)
  -- Meetings and tokens
  | providerSkipped (sessionId : String)
  | meetingFailed (sessionId error : String)
  | tokenUnavailable (meetingId : String)
  | tokenFailed (meetingId error : String)
  -- The provider's answers
  | providerTimeout
  | providerUnreachable
  | providerMalformed
  | providerUnauthorized
  | providerStatus (status body : String)
  -- The shared store's answers
  | readFailed (key : String)
  | writeFailed (key : String)
  | conditionalWriteFailed (key : String)
  | versionConflict (key expected : String)
  | versionInvalid (key : String) (result : Int)
deriving DecidableEq, Repr

namespace Event

/-- How much an event matters. -/
def level : Event → Level
  | modeChanged _ | meetingIdRepaired .. | sessionCreated .. | sessionFull .. | joined .. => .info
  | sessionMissing .. | joinRaced .. | providerSkipped _ | versionConflict .. => .debug
  | storeFailed _ | sessionUnreadable _ | sessionIdTaken _ | sessionRecordTaken _
  | providerMalformed | providerUnauthorized | versionInvalid .. => .error
  | bodyRejected | pingFailed _ | mockMappingStale .. | joinAbandoned .. | meetingOrphaned ..
  | meetingFailed .. | tokenUnavailable _ | tokenFailed .. | providerTimeout | providerUnreachable
  | providerStatus .. | readFailed _ | writeFailed _ | conditionalWriteFailed _ => .warn

/-- The part of the service that notes an event. -/
def target : Event → String
  | modeChanged _ => "vc.services.mode"
  | bodyRejected => "vc.handlers.sessions"
  | storeFailed _ => "vc.store"
  | pingFailed _ => "vc.handlers.health"
  | mockMappingStale .. => "vc.services.mapping_resolver"
  | sessionUnreadable _ | meetingIdRepaired .. => "vc.services.session_reconciler"
  | providerTimeout | providerUnreachable | providerMalformed | providerUnauthorized
  | providerStatus .. => "vc.services.provider_client"
  | readFailed _ | writeFailed _ | conditionalWriteFailed _ | versionConflict ..
  | versionInvalid .. => "vc.repositories.redis"
  | _ => "vc.services.sessions"

def message : Event → String
  | modeChanged _ => "Realtime mode changed"
  | bodyRejected => "Rejected join body"
  | storeFailed _ => "Store operation failed"
  | pingFailed _ => "Record store ping failed"
  | mockMappingStale .. => "Mock meeting mapped in real mode, reallocating"
  | sessionUnreadable _ => "Stored session is not valid JSON"
  | meetingIdRepaired .. => "Repairing session meeting ID"
  | sessionIdTaken _ => "Generated session ID already mapped"
  | sessionRecordTaken _ => "Session record already exists"
  | sessionCreated .. => "Session created"
  | sessionMissing .. => "Mapped session not written yet, creating it"
  | sessionFull .. => "Join rejected, session is full"
  | joined .. => "User joined session"
  | joinRaced .. => "Concurrent update detected, retrying join"
  | joinAbandoned .. => "Join abandoned after repeated conflicts"
  | meetingOrphaned .. => "Provider meeting orphaned by concurrent allocation"
  | providerSkipped _ => "Mock mode, skipping provider meeting"
  | meetingFailed .. => "Provider meeting creation failed, using mock meeting"
  | tokenUnavailable _ => "Session has no provider meeting, issuing mock token"
  | tokenFailed .. => "Provider token issuance failed, issuing mock token"
  | providerTimeout => "Provider request timed out"
  | providerUnreachable => "Provider request failed"
  | providerMalformed => "Failed to parse provider response"
  | providerUnauthorized => "Provider credentials rejected"
  | providerStatus .. => "Provider returned error status"
  | readFailed _ => "Failed to read record"
  | writeFailed _ => "Failed to write record"
  | conditionalWriteFailed _ => "Conditional write failed"
  | versionConflict .. => "Version conflict"
  | versionInvalid .. => "Invalid version format in Redis"

def fields : Event → List (String × Fact)
  | modeChanged c => [("from", .text c.old.name), ("to", .text c.new.name)]
  | bodyRejected => []
  | storeFailed e | pingFailed e => [("error", .text e)]
  | mockMappingStale s m => [("session_id", .text s), ("meeting_id", .text m)]
  | sessionUnreadable k => [("key", .text k)]
  | meetingIdRepaired s stored mapped =>
    [("session_id", .text s), ("stored", .text stored), ("mapped", .text mapped)]
  | sessionIdTaken s => [("session_id", .text s)]
  | sessionRecordTaken m => [("meeting_id", .text m)]
  | sessionCreated s m kind degraded =>
    [("session_id", .text s), ("meeting_id", .text m), ("meeting_kind", .text kind.name),
     ("degraded", .flag degraded)]
  | sessionMissing s m => [("session_id", .text s), ("meeting_id", .text m)]
  | sessionFull s u => [("session_id", .text s), ("user_id", .text u)]
  | joined s u members added =>
    [("session_id", .text s), ("user_id", .text u), ("members", .number members),
     ("added", .flag added)]
  | joinRaced s attempt => [("session_id", .text s), ("attempt", .number attempt)]
  | joinAbandoned s attempts => [("session_id", .text s), ("attempts", .number attempts)]
  | meetingOrphaned s m => [("session_id", .text s), ("orphaned_meeting_id", .text m)]
  | providerSkipped s => [("session_id", .text s)]
  | meetingFailed s e => [("session_id", .text s), ("error", .text e)]
  | tokenUnavailable m => [("meeting_id", .text m)]
  | tokenFailed m e => [("meeting_id", .text m), ("error", .text e)]
  | providerTimeout | providerUnreachable | providerMalformed | providerUnauthorized => []
  | providerStatus status body => [("status", .text status), ("body", .text body)]
  | readFailed k | writeFailed k | conditionalWriteFailed k => [("key", .text k)]
  | versionConflict k expected => [("key", .text k), ("expected", .text expected)]
  | versionInvalid k result => [("key", .text k), ("result", .number result)]

end Event

end VoiceRoom
