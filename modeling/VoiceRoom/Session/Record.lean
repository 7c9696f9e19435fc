import VoiceRoom.Json.Reader
import VoiceRoom.Json.Writer
import VoiceRoom.Session

/-!
# Session records

A session is stored as JSON. A stored session is read with every value checked, and of a name that
is given twice the last one counts. Records from before kinds were stored name no kind; their
meeting's id tells it (`Session.decode`).
-/

namespace VoiceRoom

open Json (Field)

namespace Member

def userIdField : Field := ⟨0, "userId"⟩
def joinedAtField : Field := ⟨1, "joinedAt"⟩
def iconUrlField : Field := ⟨2, "iconUrl"⟩

/-- The written form of a member. An icon that is absent is left out. -/
def toJson (m : Member) : Json :=
  Json.record <|
    [(userIdField.name, Json.ofText m.userId), (joinedAtField.name, Json.ofInt m.joinedAt)]
      ++ (m.iconUrl.map fun url => (iconUrlField.name, Json.ofText url)).toList

def ofJson? (repeats : Json.Repeats) (v : Json) : Option Member := do
  let r ← v.record? repeats 3
  let userId ← r.required userIdField Json.text?
  let joinedAt ← r.required joinedAtField Json.int64?
  let iconUrl ← r.optional iconUrlField none Json.textOrNull?
  return { userId, joinedAt, iconUrl }

end Member

namespace Session

def sessionIdField : Field := ⟨0, "sessionId"⟩
def meetingIdField : Field := ⟨1, "meetingId"⟩
def kindField : Field := ⟨2, "meetingKind"⟩
def degradedField : Field := ⟨3, "degraded"⟩
def usersField : Field := ⟨4, "users"⟩
def createdAtField : Field := ⟨5, "createdAt"⟩

def toJson (s : Session) : Json :=
  Json.record
    [(sessionIdField.name, Json.ofText s.sessionId),
     (meetingIdField.name, Json.ofText s.meetingId),
     (kindField.name, s.kind.toJson),
     (degradedField.name, .bool s.degraded),
     (usersField.name, .array (s.users.map Member.toJson)),
     (createdAtField.name, Json.ofInt s.createdAt)]

/-- Reads a session. One that does not name its kind counts as real, one that does not say whether
it is degraded is not, and one without a roster is empty. -/
def ofJson? (repeats : Json.Repeats) (v : Json) : Option Session := do
  let r ← v.record? repeats 6
  let sessionId ← r.required sessionIdField Json.text?
  let meetingId ← r.required meetingIdField Json.text?
  let kind ← r.optional kindField .real (MeetingKind.ofJson? repeats)
  let degraded ← r.optional degradedField false Json.bool?
  let users ← r.optional usersField [] (Json.list? (Member.ofJson? repeats))
  let createdAt ← r.required createdAtField Json.int64?
  return { sessionId, meetingId, kind, degraded, users, createdAt }

def encode (s : Session) : String :=
  s.toJson.render

/-- Why a text is no session. -/
inductive Fault where
  /-- The text is not JSON. -/
  | form
  /-- The text is JSON, but no session. -/
  | shape
deriving DecidableEq, Repr

/-- Whether a value is an object that names a kind. -/
def namesKind : Json → Bool
  | .object members => members.any fun (name, _) => name == some kindField.name
  | _ => false

/-- Reads a stored session. -/
def decode (text : String) : Except Fault Session :=
  match Json.read? .everything (Symbol.ofText text) with
  | none => .error .form
  | some v =>
    match ofJson? .lastWins v with
    | none => .error .shape
    | some s => .ok (if namesKind v then s else { s with kind := .classify s.meetingId })

end Session

end VoiceRoom
