import VoiceRoom.Mode
import VoiceRoom.Number.Word
import VoiceRoom.Text.Blank
import VoiceRoom.Text.Escaped
import VoiceRoom.Text.Numeral

/-!
# Configuration

The service is configured by variables. `Config.read` takes them in a fixed order and reports the
first that is at fault. The address of the shared store and the key of the provider are secrets:
`Config.describe` shows neither.
-/

namespace VoiceRoom

structure Config where
  redisUrl : String
  bindAddress : String
  mode : Mode
  apiBaseUrl : String
  orgId : String
  apiKey : String
  appId : String
  /-- How long a call of the provider may take, in seconds. -/
  timeoutSeconds : Nat
  /-- How long connections are drained at the end, in seconds. -/
  drainSeconds : Nat
deriving DecidableEq, Repr

/-- Why variables make no configuration. -/
inductive ConfigError where
  | missing (name : String)
  | mode (value : String)
  | timeout (value : String) (fault : Numeral.Fault)
  | timeoutZero
  | timeoutTooLong (seconds : Nat)
  | drain (value : String) (fault : Numeral.Fault)
deriving DecidableEq, Repr

namespace Config

def redisUrlName : String := "REDIS_URL"
def bindAddressName : String := "BIND_ADDRESS"
def mockName : String := "USE_MOCK_REALTIME"
def apiBaseUrlName : String := "REALTIME_API_BASE_URL"
def orgIdName : String := "REALTIME_ORG_ID"
def apiKeyName : String := "REALTIME_API_KEY"
def appIdName : String := "REALTIME_KIT_APP_ID"
def timeoutName : String := "REALTIME_TIMEOUT_SECONDS"
def drainName : String := "VC_DRAIN_SECONDS"

/-- The longest time that a provider call may be given. -/
def maxTimeoutSeconds : Nat := 30

def readMode (value : Option String) : Except ConfigError Mode :=
  match value.map trim with
  | none => .ok .real
  | some value =>
    if value = "" ∨ value = "false" then .ok .real
    else if value = "true" then .ok .mock
    else .error (.mode value)

def readTimeout (value : Option String) : Except ConfigError Nat :=
  match value with
  | none => .ok 5
  | some value =>
    match Numeral.read wordMax value.toList with
    | .error fault => .error (.timeout value fault)
    | .ok seconds =>
      if seconds = 0 then .error .timeoutZero
      else if maxTimeoutSeconds < seconds then .error (.timeoutTooLong seconds)
      else .ok seconds

def readDrain (value : Option String) : Except ConfigError Nat :=
  match value with
  | none => .ok 0
  | some value =>
    match Numeral.read wordMax value.toList with
    | .error fault => .error (.drain value fault)
    | .ok seconds => .ok seconds

/-- An address without slashes at its end. -/
def dropSlashes (url : String) : String :=
  String.ofList (url.toList.reverse.dropWhile (· == '/')).reverse

/-- The configuration that variables make. -/
def read (vars : String → Option String) : Except ConfigError Config := do
  let some redisUrl := vars redisUrlName | .error (.missing redisUrlName)
  let mode ← readMode (vars mockName)
  let timeoutSeconds ← readTimeout (vars timeoutName)
  let drainSeconds ← readDrain (vars drainName)
  return {
    redisUrl
    bindAddress := (vars bindAddressName).getD "0.0.0.0:8080"
    mode
    apiBaseUrl :=
      ((vars apiBaseUrlName).map dropSlashes).getD "https://api.realtime.cloudflare.com/v2"
    orgId := (vars orgIdName).getD ""
    apiKey := (vars apiKeyName).getD ""
    appId := (vars appIdName).getD ""
    timeoutSeconds
    drainSeconds }

def hasProviderCredentials (c : Config) : Bool :=
  c.orgId != "" && c.apiKey != ""

/-- What stands in place of a secret. -/
def redacted : String := "[REDACTED]"

/-- The configuration as operators see it. -/
def describe (c : Config) : String :=
  let fields :=
    [("redis_url", Escaped.quote redacted),
     ("bind_address", Escaped.quote c.bindAddress),
     ("realtime_mode", match c.mode with | .mock => "Mock" | .real => "Real"),
     ("realtime_api_base_url", Escaped.quote c.apiBaseUrl),
     ("realtime_org_id", Escaped.quote c.orgId),
     ("realtime_api_key", Escaped.quote redacted),
     ("realtime_app_id", Escaped.quote c.appId),
     ("realtime_timeout_seconds", c.timeoutSeconds.repr),
     ("drain_seconds", c.drainSeconds.repr)]
  "Config \x7b " ++ ", ".intercalate (fields.map fun (name, value) => name ++ ": " ++ value)
    ++ " \x7d"

end Config

namespace ConfigError

def message : ConfigError → String
  | .missing name => "Missing required environment variable: " ++ name
  | .mode value =>
    "Invalid realtime mode configuration: USE_MOCK_REALTIME must be 'true' or 'false', got '"
      ++ value ++ "'"
  | .timeout value fault =>
    timeoutFault ++ "REALTIME_TIMEOUT_SECONDS must be a valid positive integer, got '"
      ++ value ++ "': " ++ fault.message
  | .timeoutZero => timeoutFault ++ "REALTIME_TIMEOUT_SECONDS must be greater than 0"
  | .timeoutTooLong seconds =>
    timeoutFault ++ "REALTIME_TIMEOUT_SECONDS must not exceed "
      ++ Config.maxTimeoutSeconds.repr ++ " seconds, got " ++ seconds.repr
  | .drain value fault =>
    "Invalid drain period configuration: VC_DRAIN_SECONDS must be a valid non-negative integer, got '"
      ++ value ++ "': " ++ fault.message
where
  /-- What errors of the provider timeout start with. -/
  timeoutFault : String := "Invalid provider timeout configuration: "

end ConfigError

end VoiceRoom
