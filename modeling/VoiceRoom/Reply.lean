import VoiceRoom.Session.Record

/-!
# What clients are told

Credentials let a user into the meeting of a session; a join is answered with the session and
credentials for it.
-/

namespace VoiceRoom

open Json (Field)

/-- The token of someone who could not be given a real one. -/
def mockToken : String := "mock-token"

structure Credentials where
  meetingId : String
  token : String
  appId : String
  /-- The token is no real one although a real one was wanted. -/
  degraded : Bool
deriving DecidableEq, Repr

namespace Credentials

def meetingIdField : Field := ⟨0, "meetingId"⟩
def tokenField : Field := ⟨1, "token"⟩
def appIdField : Field := ⟨2, "appId"⟩
def degradedField : Field := ⟨3, "degraded"⟩

def toJson (c : Credentials) : Json :=
  Json.record
    [(meetingIdField.name, Json.ofText c.meetingId), (tokenField.name, Json.ofText c.token),
     (appIdField.name, Json.ofText c.appId), (degradedField.name, .bool c.degraded)]

def ofJson? (repeats : Json.Repeats) (v : Json) : Option Credentials := do
  let r ← v.record? repeats 4
  let meetingId ← r.required meetingIdField Json.text?
  let token ← r.required tokenField Json.text?
  let appId ← r.required appIdField Json.text?
  let degraded ← r.required degradedField Json.bool?
  return { meetingId, token, appId, degraded }

end Credentials

structure JoinReply where
  session : Session
  realtime : Option Credentials
deriving DecidableEq, Repr

namespace JoinReply

def sessionField : Field := ⟨0, "session"⟩
def realtimeField : Field := ⟨1, "realtime"⟩

/-- The written form of a reply. Credentials that are absent are left out. -/
def toJson (r : JoinReply) : Json :=
  Json.record <|
    (sessionField.name, r.session.toJson)
      :: (r.realtime.map fun c => (realtimeField.name, c.toJson)).toList

/-- Reads credentials, or none, written as null. -/
def credentialsOrNull? (repeats : Json.Repeats) : Json → Option (Option Credentials)
  | .null => some none
  | v => (Credentials.ofJson? repeats v).map some

def ofJson? (repeats : Json.Repeats) (v : Json) : Option JoinReply := do
  let r ← v.record? repeats 2
  let session ← r.required sessionField (Session.ofJson? repeats)
  let realtime ← r.optional realtimeField none (credentialsOrNull? repeats)
  return { session, realtime }

end JoinReply

structure Health where
  status : String
  mode : String
  store : String
deriving DecidableEq, Repr

namespace Health

def statusField : Field := ⟨0, "status"⟩
def modeField : Field := ⟨1, "mode"⟩
def storeField : Field := ⟨2, "store"⟩

def toJson (h : Health) : Json :=
  Json.record
    [(statusField.name, Json.ofText h.status), (modeField.name, Json.ofText h.mode),
     (storeField.name, Json.ofText h.store)]

def ofJson? (repeats : Json.Repeats) (v : Json) : Option Health := do
  let r ← v.record? repeats 3
  let status ← r.required statusField Json.text?
  let mode ← r.required modeField Json.text?
  let store ← r.required storeField Json.text?
  return { status, mode, store }

end Health

end VoiceRoom
