/-!
# Errors

Errors of the record store, of the meeting provider and of the service. Each is a cause; its
wording is in `message`. A failing provider never fails a request, so its errors do not occur among
those of the service.
-/

namespace VoiceRoom

/-- Why a store did not answer. -/
inductive StoreError where
  /-- It could not be reached, or refused. -/
  | backend (detail : String)
  /-- Its answer makes no sense. -/
  | protocol (detail : String)
deriving DecidableEq, Repr

def StoreError.message : StoreError → String
  | .backend detail => "store backend error: " ++ detail
  | .protocol detail => "unexpected store response: " ++ detail

/-- Why the provider gave no meeting or no token. -/
inductive ProviderError where
  | unreachable (detail : String)
  | timeout
  | status (code : Nat)
  | malformed (detail : String)
deriving DecidableEq, Repr

namespace ProviderError

def message : ProviderError → String
  | .unreachable detail => "Provider unreachable: " ++ detail
  | .timeout => "Provider request timed out"
  | .status code => "Provider returned status " ++ code.repr
  | .malformed detail => "Malformed provider response: " ++ detail

/-- The kind of an error, as metrics name it. -/
def label : ProviderError → String
  | .unreachable _ => "unreachable"
  | .timeout => "timeout"
  | .status _ => "status"
  | .malformed _ => "malformed"

end ProviderError

/-- Why a request is not granted. -/
inductive ServiceError where
  | badRequest (reason : String)
  | sessionFull
  | conflict (reason : String)
  | store (detail : String)
  | internal
deriving DecidableEq, Repr

namespace ServiceError

def ofStore (e : StoreError) : ServiceError :=
  .store e.message

/-- The words for a session that has no room left. -/
def fullMessage : String := "Session is full (max 5 users)"

def message : ServiceError → String
  | .badRequest reason => "Bad request: " ++ reason
  | .sessionFull => fullMessage
  | .conflict reason => "Conflict: " ++ reason
  | .store detail => "Store error: " ++ detail
  | .internal => "Internal server error"

/-- The status with which an error is answered. -/
def status : ServiceError → Nat
  | .badRequest _ => 400
  | .sessionFull => 403
  | .conflict _ => 409
  | .store _ => 500
  | .internal => 500

/-- The code of an error in an answer. -/
def code : ServiceError → String
  | .badRequest _ => "BAD_REQUEST"
  | .sessionFull => "SESSION_FULL"
  | .conflict _ => "CONFLICT"
  | .store _ => "STORE_ERROR"
  | .internal => "INTERNAL_ERROR"

/-- What a client is told. The details of a store error are not for clients. -/
def publicMessage : ServiceError → String
  | .badRequest reason => reason
  | .sessionFull => fullMessage
  | .conflict reason => reason
  | .store _ => "An internal storage error occurred"
  | .internal => "An internal error occurred"

end ServiceError

end VoiceRoom
