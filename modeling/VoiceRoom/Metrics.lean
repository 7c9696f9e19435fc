import VoiceRoom.Text.Label

/-!
# Metrics

The service takes measurements. Each of them adds to a counter, and those of requests and provider
calls also to a histogram of durations. What a scrape shows follows from the measurements taken so
far (`Metrics.exposition`): counters hold how often a series occurs, and a bucket of a histogram
holds how many durations do not exceed its bound.

Durations are in microseconds.
-/

namespace VoiceRoom

/-- How a join ended. -/
inductive JoinOutcome where
  | joined
  | rejoined
  | full
  | invalid
  | conflict
  | error
deriving DecidableEq, Repr

def JoinOutcome.name : JoinOutcome → String
  | .joined => "joined"
  | .rejoined => "rejoined"
  | .full => "full"
  | .invalid => "invalid"
  | .conflict => "conflict"
  | .error => "error"

/-- What the provider is asked for. -/
inductive Operation where
  | createMeeting
  | createParticipant
deriving DecidableEq, Repr

def Operation.name : Operation → String
  | .createMeeting => "create_meeting"
  | .createParticipant => "create_participant"

inductive Measurement where
  | request (method path : String) (status micros : Nat)
  | providerCall (operation status : String) (micros : Nat)
  | fallback (operation : String)
  | join (outcome : String)
  | joinConflict
  | created (kind : String)
deriving DecidableEq, Repr

/-- A metric with values for its labels. -/
structure Series where
  metric : String
  labels : List (String × String)
deriving DecidableEq, Repr

/-- A bound of a histogram: as it is written, and in microseconds. -/
structure Bound where
  text : String
  micros : Nat
deriving DecidableEq, Repr

namespace Metrics

/-! ### Labels -/

/-- Whether a request succeeded, timed out or failed otherwise. -/
def outcomeOf (status : Nat) : String :=
  if 200 ≤ status ∧ status ≤ 299 then "success"
  else if status = 408 ∨ status = 504 then "timeout"
  else "error"

/-- The pieces of a path between slashes. -/
def segments (path : String) : List (List Char) :=
  path.toList.splitOn '/'

/-- The endpoint that a path is counted under. Session ids are chosen by clients, so a placeholder
takes their place, and paths that lead nowhere are counted together. -/
def endpoint (path : String) : String :=
  if path = "/" ∨ path = "/health" ∨ path = "/metrics" ∨ path = "/sessions" then path
  else
    match segments path with
    | [_, area, _, action] =>
      if area = "sessions".toList ∧ action = "join".toList then "/sessions/\x7bid\x7d/join"
      else "/other"
    | _ => "/other"

/-! ### Series -/

def requestDurations : String := "vc_http_request_duration_seconds"
def requestTotal : String := "vc_http_requests_total"
def providerDurations : String := "vc_provider_call_duration_seconds"
def providerTotal : String := "vc_provider_calls_total"
def fallbackTotal : String := "vc_provider_fallbacks_total"
def joinTotal : String := "vc_session_joins_total"
def conflictTotal : String := "vc_join_conflicts_total"
def createdTotal : String := "vc_sessions_created_total"

/-- The counter that a measurement adds to. -/
def counter : Measurement → Series
  | .request method path status _ =>
    ⟨requestTotal,
      [("method", method), ("endpoint", endpoint path), ("status_code", status.repr)]⟩
  | .providerCall operation status _ =>
    ⟨providerTotal, [("operation", operation), ("status", status)]⟩
  | .fallback operation => ⟨fallbackTotal, [("operation", operation)]⟩
  | .join outcome => ⟨joinTotal, [("outcome", outcome)]⟩
  | .joinConflict => ⟨conflictTotal, []⟩
  | .created kind => ⟨createdTotal, [("kind", kind)]⟩

/-- The histogram that a measurement adds to, and the duration. -/
def duration? : Measurement → Option (Series × Nat)
  | .request method path status micros =>
    some (⟨requestDurations,
      [("method", method), ("endpoint", endpoint path), ("status", outcomeOf status)]⟩, micros)
  | .providerCall operation _ micros => some (⟨providerDurations, [("operation", operation)]⟩, micros)
  | _ => none

/-- The bounds for requests. -/
def requestBounds : List Bound :=
  [⟨"0.005", 5000⟩, ⟨"0.01", 10000⟩, ⟨"0.025", 25000⟩, ⟨"0.05", 50000⟩, ⟨"0.1", 100000⟩,
   ⟨"0.15", 150000⟩, ⟨"0.2", 200000⟩, ⟨"0.3", 300000⟩, ⟨"0.5", 500000⟩, ⟨"1", 1000000⟩,
   ⟨"2", 2000000⟩]

/-- The bounds for provider calls, which end within 30 seconds. -/
def providerBounds : List Bound :=
  [⟨"0.025", 25000⟩, ⟨"0.05", 50000⟩, ⟨"0.1", 100000⟩, ⟨"0.25", 250000⟩, ⟨"0.5", 500000⟩,
   ⟨"1", 1000000⟩, ⟨"2.5", 2500000⟩, ⟨"5", 5000000⟩, ⟨"10", 10000000⟩, ⟨"30", 30000000⟩]

def bounds (metric : String) : List Bound :=
  if metric = requestDurations then requestBounds else providerBounds

/-! ### Exposition -/

/-- A series as it is written. -/
def written (s : Series) : Series :=
  { s with labels := s.labels.map fun (label, value) => (label, Label.escape value) }

/-- A sample: name, labels as they are written, and value. -/
def sample (name : String) (labels : List (String × String)) (value : Nat) : String :=
  let pairs := labels.map fun (label, text) => label ++ "=\"" ++ text ++ "\""
  let block := if pairs = [] then "" else "\x7b" ++ ",".intercalate pairs ++ "\x7d"
  name ++ block ++ " " ++ value.repr

/-- The line that says what a metric is. -/
def typeLine (metric kind : String) : String :=
  "# TYPE " ++ metric ++ " " ++ kind

/-- How often a counter was added to. -/
def count (ms : List Measurement) (s : Series) : Nat :=
  ms.countP fun m => counter m == s

/-- The durations in a histogram, given as it is written. -/
def durations (ms : List Measurement) (s : Series) : List Nat :=
  ms.filterMap fun m =>
    match duration? m with
    | some (t, micros) => if written t = s then some micros else none
    | none => none

/-- The counters to show. Of those that are written alike it is the latest to appear. -/
def counters (ms : List Measurement) : List Series :=
  (ms.map counter).eraseDups.reverse.eraseDupsBy fun s t => written s == written t

/-- The histograms to show, as they are written. Those that are written alike are one. -/
def histograms (ms : List Measurement) : List Series :=
  ((ms.filterMap duration?).map fun (s, _) => written s).eraseDups

def counterLines (ms : List Measurement) (s : Series) : List String :=
  [typeLine s.metric "counter", sample s.metric (written s).labels (count ms s)]

/-- The lines of a histogram, given as it is written. Buckets that hold nothing are left out. -/
def histogramLines (ms : List Measurement) (s : Series) : List String :=
  let ds := durations ms s
  let bucket (text : String) (value : Nat) : String :=
    sample (s.metric ++ "_bucket") (s.labels ++ [("le", text)]) value
  let inner := (bounds s.metric).filterMap fun b =>
    let value := ds.countP (· ≤ b.micros)
    if value = 0 then none else some (bucket b.text value)
  typeLine s.metric "histogram" :: inner
    ++ [bucket "+Inf" ds.length, sample (s.metric ++ "_count") s.labels ds.length]

/-- What a scrape shows: the lines in order, each once. -/
def exposition (ms : List Measurement) : List String :=
  let lines :=
    (counters ms).flatMap (counterLines ms) ++ (histograms ms).flatMap (histogramLines ms)
  lines.eraseDups.mergeSort fun a b => decide (a ≤ b)

/-- What is said where metrics are already being taken. -/
def installedMessage : String := "Failed to install Prometheus recorder"

end Metrics

end VoiceRoom
