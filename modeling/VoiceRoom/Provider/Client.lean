import VoiceRoom.Config
import VoiceRoom.Error
import VoiceRoom.Event
import VoiceRoom.Json.Reader
import VoiceRoom.Json.Record
import VoiceRoom.Json.Writer
import VoiceRoom.Metrics
import VoiceRoom.Provider.Status
import VoiceRoom.Provider.Url
import VoiceRoom.Text.Base64

/-!
# Calling the provider

Each call is a single request with a deadline, and its answer is either the wanted text or an error
of the provider. What the network does with a request is given from outside (`Reply`).
-/

namespace VoiceRoom

/-- How the provider is reached. -/
structure Client where
  baseUrl : String
  orgId : String
  apiKey : String
  timeoutSeconds : Nat
deriving DecidableEq, Repr

/-- A request as it arrives at the provider. -/
structure Sent where
  method : String
  url : String
  authorization : String
  contentType : String
  body : String
deriving DecidableEq, Repr

/-- What becomes of a request on the network. -/
inductive Reply where
  /-- The connection ends without an answer. -/
  | dropped
  | answered (status : Nat) (body : List UInt8) (delayMs : Nat)
deriving DecidableEq, Repr

/-- A call that has ended. -/
structure Exchange where
  result : Except ProviderError String
  sent : Option Sent
  elapsedMs : Nat
  events : List Event

/-- Whether a request was made, so that its answer is used up. -/
def Exchange.used (x : Exchange) : Bool := x.sent.isSome

namespace Client

def ofConfig (c : Config) : Client where
  baseUrl := c.apiBaseUrl
  orgId := c.orgId
  apiKey := c.apiKey
  timeoutSeconds := c.timeoutSeconds

/-- What the client says who it is. -/
def authorization (c : Client) : String :=
  "Basic " ++ String.ofList (Base64.encode (utf8 (c.orgId ++ ":" ++ c.apiKey)))

/-- The address of a path. -/
def url? (c : Client) (path : String) : Option Url :=
  Url.read? (Config.dropSlashes c.baseUrl ++ path)

/-- Reads the wanted text out of an answer: a field of what is under `data`. -/
def readPayload? (wanted : String) (body : List UInt8) : Option String := do
  let v ← Json.read? .form (Symbol.ofBytes body)
  let envelope ← v.record? .refused 1
  envelope.required ⟨0, "data"⟩ fun data => do
    let payload ← data.record? .refused 1
    payload.required ⟨0, wanted⟩ Json.text?

/-- Whether answers with a status have no body. -/
def isBodiless (status : Nat) : Bool :=
  status < 200 || status == 204 || status == 304

/-- What an answer comes to. -/
def readAnswer (wanted : String) (status : Nat) (body : List UInt8) :
    Except ProviderError String × List Event :=
  let body := if isBodiless status then [] else body
  if 200 ≤ status ∧ status ≤ 299 then
    match readPayload? wanted body with
    | some text => (.ok text, [])
    | none => (.error (.malformed ""), [.providerMalformed])
  else if status = 401 then (.error (.status status), [.providerUnauthorized])
  else
    (.error (.status status),
      [.providerStatus (Status.line status) (Symbol.lossy (Symbol.ofBytes body))])

/-- Posts a value and reads the wanted text out of the answer. Nothing is sent without an address
or without time. -/
def post (c : Client) (path : String) (body : Json) (wanted : String) (reply : Reply) : Exchange :=
  match c.url? path with
  | none => ⟨.error (.unreachable ""), none, 0, [.providerUnreachable]⟩
  | some url =>
    if c.timeoutSeconds = 0 then ⟨.error .timeout, none, 0, [.providerTimeout]⟩
    else
      let sent : Sent :=
        { method := "POST", url := url.render, authorization := c.authorization,
          contentType := "application/json", body := body.render }
      match reply with
      | .dropped => ⟨.error (.unreachable ""), some sent, 0, [.providerUnreachable]⟩
      | .answered status body delayMs =>
        if 1000 * c.timeoutSeconds ≤ delayMs then
          ⟨.error .timeout, some sent, delayMs, [.providerTimeout]⟩
        else
          let (result, events) := readAnswer wanted status body
          ⟨result, some sent, delayMs, events⟩

/-- What every participant may do. -/
def participantPreset : String := "group_call_participant"

def createMeeting (c : Client) (title : String) (reply : Reply) : Exchange :=
  c.post "/meetings" (Json.record [("title", Json.ofText title)]) "id" reply

def createParticipant (c : Client) (meetingId userId : String) (reply : Reply) : Exchange :=
  let body := Json.record
    [("name", Json.ofText userId), ("custom_participant_id", Json.ofText userId),
     ("preset_name", Json.ofText participantPreset)]
  c.post ("/meetings/" ++ meetingId ++ "/participants") body "token" reply

def measure (operation : Operation) (x : Exchange) : Measurement :=
  let status :=
    match x.result with
    | .ok _ => "success"
    | .error e => e.label
  .providerCall operation.name status (1000 * x.elapsedMs)

end Client

end VoiceRoom
