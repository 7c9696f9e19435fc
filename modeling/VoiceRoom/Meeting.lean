import VoiceRoom.Json.Record

/-!
# Meetings

A meeting carries the voices of a session. A real one lives at the provider; a mock one is made up
from the session's id alone, so every party that needs one makes up the same.
-/

namespace VoiceRoom

/-- Whether a meeting exists at the provider. -/
inductive MeetingKind where
  | mock
  | real
deriving DecidableEq, Repr, Inhabited

namespace MeetingKind

def name : MeetingKind → String
  | .mock => "mock"
  | .real => "real"

def ofName? : String → Option MeetingKind
  | "mock" => some .mock
  | "real" => some .real
  | _ => none

theorem ofName?_name (k : MeetingKind) : ofName? k.name = some k := by
  cases k <;> rfl

/-- How the id of every mock meeting starts. -/
def mockMark : String := "mock-"

/-- The kind that the form of a meeting's id suggests. Records that do not name a kind are read
this way. -/
def classify (meetingId : String) : MeetingKind :=
  if mockMark.toList.isPrefixOf meetingId.toList then .mock else .real

def toJson (k : MeetingKind) : Json := Json.ofText k.name

def ofJson? (repeats : Json.Repeats) (v : Json) : Option MeetingKind :=
  v.variant? repeats >>= ofName?

end MeetingKind

/-- The id of the mock meeting of a session. -/
def mockMeetingId (sessionId : String) : String :=
  MeetingKind.mockMark ++ "meeting-" ++ sessionId

/-- A meeting obtained for a session. -/
structure Meeting where
  id : String
  kind : MeetingKind
  /-- The provider was asked for a meeting and gave none. -/
  degraded : Bool
deriving DecidableEq, Repr

end VoiceRoom
