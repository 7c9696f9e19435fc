import VoiceRoom.Mapping
import VoiceRoom.Workflow.Allocate

/-!
# Creating a session

A new session gets an id and a meeting. The mapping is written first: whoever finds it before the
session is written creates the session in its place.
-/

namespace VoiceRoom

/-- Creates a session without members. -/
def create (mode : Mode) : Request Session := do
  let sessionId ← ExceptT.lift (Program.call .freshId)
  let meeting ← ExceptT.lift (allocate mode sessionId)
  let session := Session.new sessionId meeting (← Request.now)
  match ← Request.putIf (mappingKey sessionId) (Mapping.ofMeeting meeting).encode none with
  | .conflict =>
    Request.note (.sessionIdTaken sessionId)
    throw (.conflict "Session ID already in use")
  | .written _ =>
    match ← Request.putIf (sessionKey meeting.id) session.encode none with
    | .conflict =>
      Request.note (.sessionRecordTaken meeting.id)
      throw (.conflict "Session already exists")
    | .written _ =>
      Request.count (.created meeting.kind.name)
      Request.note (.sessionCreated sessionId meeting.id meeting.kind session.degraded)
      return session

end VoiceRoom
