import VoiceRoom.Http.MediaType
import VoiceRoom.Http.Message
import VoiceRoom.Http.Route
import VoiceRoom.Json.Reader
import VoiceRoom.Workflow.Create
import VoiceRoom.Workflow.Join

/-!
# The service over HTTP

Each request is answered by the program of its route. The mode is read once for a request, after
its body, so that a change of mode does not split it.
-/

namespace VoiceRoom.Http

/-- How many bytes a body has at most. -/
def bodyLimit : Nat := 2097152

/-- The words of the service about itself. -/
def banner : String := "Voice Chat service is running!"

/-- Reads the request to join that a body holds. What follows the first value of the body is not
looked at. -/
def readJoin? (r : Request) : Option JoinRequest := do
  let type ← r.header? "content-type"
  let media ← MediaType.read? type
  guard (media.isJson && r.body.length ≤ bodyLimit)
  let (v, _) ← Json.readFirst? .form (Symbol.ofBytes r.body)
  JoinRequest.ofJson? .refused v

def fail (e : ServiceError) : Program Response := do
  if let .store detail := e then
    Program.call (.note (.storeFailed detail))
  return .ofError e

/-- Answers with what a request comes to. -/
def respond {α : Type} (toJson : α → Json) (r : VoiceRoom.Request α) : Program Response := do
  match ← r.run with
  | .error e => fail e
  | .ok a => return .ofJson 200 (toJson a)

def health : Program Response := do
  let healthy ←
    match ← Program.call .ping with
    | .ok _ => pure true
    | .error e => do
      Program.call (.note (.pingFailed e.message))
      pure false
  let status := if healthy then "healthy" else "unhealthy"
  let mode ← Program.call .mode
  return .ofJson 200 (Health.toJson { status, mode := mode.name, store := status })

def answerJoin (appId : String) (segment : String) (r : Request) : Program Response := do
  match segmentText? segment with
  | none => return .ofText 400 "Invalid URL: Invalid UTF-8 in `session_id`"
  | some sessionId =>
    match readJoin? r with
    | none =>
      Program.call (.note .bodyRejected)
      fail (.badRequest "Invalid request body")
    | some request =>
      let mode ← Program.call .mode
      respond JoinReply.toJson (join appId mode sessionId request)

def answerRoute (appId : String) (r : Request) : Route → Program Response
  | .root => return .ofText 200 banner
  | .health => health
  | .metrics => do
    return { status := 200, contentType := some Response.textType,
             body := .metrics (← Program.call .scrape) }
  | .sessions => do
    let mode ← Program.call .mode
    respond Session.toJson (create mode)
  | .join segment => answerJoin appId segment r

def answer (appId : String) (r : Request) : Program Response :=
  match Route.ofPath? (Route.path r.target) with
  | none => return { status := 404 }
  | some route =>
    if route.takes r.method then do
      let response ← answerRoute appId r route
      return if r.method = "HEAD" then response.withoutBody else response
    else return { status := 405, allow := some route.allow }

end VoiceRoom.Http
