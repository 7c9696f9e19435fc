import VoiceRoom.Program
import VoiceRoom.Reply

/-!
# Meetings and tokens

In real mode the provider is asked for a meeting and for tokens. When it fails, a mock meeting or
the mock token takes their place, and the result says that it is degraded.
-/

namespace VoiceRoom

/-- The meeting that a session gets without the provider. -/
def mockMeeting (sessionId : String) (degraded : Bool) : Meeting :=
  ⟨mockMeetingId sessionId, .mock, degraded⟩

def allocate (mode : Mode) (sessionId : String) : Program Meeting :=
  match mode with
  | .mock => do
    Program.call (.note (.providerSkipped sessionId))
    return mockMeeting sessionId false
  | .real => do
    match ← Program.call (.createMeeting sessionId) with
    | .ok meetingId => return ⟨meetingId, .real, false⟩
    | .error e =>
      Program.call (.note (.meetingFailed sessionId e.message))
      Program.call (.count (.fallback Operation.createMeeting.name))
      return mockMeeting sessionId true

/-- Obtains a token for a member of a session, and says whether it stands in for a real one. -/
def issueToken (mode : Mode) (s : Session) (userId : String) : Program (String × Bool) :=
  match mode, s.kind with
  | .mock, _ => return (mockToken, false)
  | .real, .mock => do
    Program.call (.note (.tokenUnavailable s.meetingId))
    Program.call (.count (.fallback Operation.createParticipant.name))
    return (mockToken, true)
  | .real, .real => do
    match ← Program.call (.createParticipant s.meetingId userId) with
    | .ok token => return (token, false)
    | .error e =>
      Program.call (.note (.tokenFailed s.meetingId e.message))
      Program.call (.count (.fallback Operation.createParticipant.name))
      return (mockToken, true)

def issue (appId : String) (mode : Mode) (s : Session) (userId : String) : Program Credentials := do
  let (token, degraded) ← issueToken mode s userId
  return { meetingId := s.meetingId, token, appId, degraded }

end VoiceRoom
