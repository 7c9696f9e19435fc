/-!
# Keys and versioned values

Mappings and sessions share one store. Each kind of record has keys of its own. Every write of a
key raises its version by one; a value written without a version reads as version 0.
-/

namespace VoiceRoom

/-- The key of the mapping of a session id. -/
def mappingKey (sessionId : String) : String :=
  "game:" ++ sessionId

/-- The key of the session that lives in a meeting. -/
def sessionKey (meetingId : String) : String :=
  "session:" ++ meetingId

/-- A stored value and its version. -/
structure Versioned where
  value : String
  version : Nat
deriving DecidableEq, Repr

/-- What came of a conditional write. -/
inductive PutOutcome where
  | written (version : Nat)
  /-- The version was another than expected, and nothing was written. -/
  | conflict
deriving DecidableEq, Repr

end VoiceRoom
