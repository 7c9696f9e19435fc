import VoiceRoom.Error
import VoiceRoom.Json.Writer

/-!
# Requests and responses
-/

namespace VoiceRoom.Http

structure Request where
  method : String
  /-- The path and whatever follows it. -/
  target : String
  headers : List (String × String)
  body : List UInt8
deriving DecidableEq, Repr

/-- The first header of a name, in which case does not count. -/
def Request.header? (r : Request) (name : String) : Option String :=
  (r.headers.find? fun h => h.1.toLower == name).map Prod.snd

inductive Body where
  | text (s : String)
  /-- The lines of a scrape. -/
  | metrics (lines : List String)
deriving DecidableEq, Repr

structure Response where
  status : Nat
  contentType : Option String := none
  /-- The methods that a path takes. -/
  allow : Option String := none
  body : Body := .text ""
deriving DecidableEq, Repr

namespace Response

def jsonType : String := "application/json"
def textType : String := "text/plain; charset=utf-8"

def ofJson (status : Nat) (v : Json) : Response :=
  { status, contentType := some jsonType, body := .text v.render }

def ofText (status : Nat) (s : String) : Response :=
  { status, contentType := some textType, body := .text s }

/-- The response to a request that ran out of time. -/
def timeout : Response := { status := 408 }

def withoutBody (r : Response) : Response := { r with body := .text "" }

/-- The value that tells a client about an error. -/
def errorJson (e : ServiceError) : Json :=
  Json.record
    [("error", Json.record [("code", Json.ofText e.code),
      ("message", Json.ofText e.publicMessage)])]

def ofError (e : ServiceError) : Response :=
  ofJson e.status (errorJson e)

end Response

end VoiceRoom.Http
