import VoiceRoom.Json.Reader
import VoiceRoom.Json.Writer
import VoiceRoom.Meeting

/-!
# Mappings

A mapping says which meeting a session id leads to. It is stored as JSON. Older ones are stored as
the bare meeting id, so any text is a mapping (`Mapping.decode`).
-/

namespace VoiceRoom

open Json (Field)

structure Mapping where
  meetingId : String
  kind : MeetingKind
deriving DecidableEq, Repr

namespace Mapping

def ofMeeting (m : Meeting) : Mapping :=
  ⟨m.id, m.kind⟩

def meetingIdField : Field := ⟨0, "meetingId"⟩
def kindField : Field := ⟨1, "meetingKind"⟩

def toJson (m : Mapping) : Json :=
  Json.record [(meetingIdField.name, Json.ofText m.meetingId), (kindField.name, m.kind.toJson)]

def ofJson? (repeats : Json.Repeats) (v : Json) : Option Mapping := do
  let r ← v.record? repeats 2
  let meetingId ← r.required meetingIdField Json.text?
  let kind ← r.required kindField (MeetingKind.ofJson? repeats)
  return { meetingId, kind }

def encode (m : Mapping) : String :=
  m.toJson.render

/-- Reads a mapping in its JSON form. -/
def read? (text : String) : Option Mapping :=
  Json.read? .form (Symbol.ofText text) >>= ofJson? .refused

/-- Reads a stored mapping. A text in any other form is a meeting id, which tells the kind. -/
def decode (text : String) : Mapping :=
  (read? text).getD ⟨text, .classify text⟩

end Mapping

end VoiceRoom
