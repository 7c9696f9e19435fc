import VoiceRoom.Text.Symbol

/-!
# Routes

A path leads to a route, and each route takes one method. Session ids are a segment of a path,
percent-encoded; the segment may be empty.
-/

namespace VoiceRoom.Http

inductive Route where
  | root
  | health
  | metrics
  | sessions
  /-- The segment that holds the session id, as it is sent. -/
  | join (segment : String)
deriving DecidableEq, Repr

namespace Route

/-- A target without its query and its fragment. -/
def dropQuery (target : String) : List Char :=
  target.toList.takeWhile fun c => c != '?' && c != '#'

/-- The path of a target. A whole address has the path behind its host, which is the root if there
is nothing; a host alone has none. -/
def path (target : String) : String :=
  match dropQuery target with
  | '/' :: rest => String.ofList ('/' :: rest)
  | ['*'] => "*"
  | cs =>
    match cs.dropWhile (· != ':') with
    | ':' :: '/' :: '/' :: rest =>
      match rest.dropWhile (· != '/') with
      | [] => "/"
      | p => String.ofList p
    | _ => ""

def ofPath? (path : String) : Option Route :=
  match path.toList.splitOn '/' with
  | [[], []] => some root
  | [[], area] =>
    if area = "health".toList then some health
    else if area = "metrics".toList then some metrics
    else if area = "sessions".toList then some sessions
    else none
  | [[], area, segment, action] =>
    if area = "sessions".toList ∧ action = "join".toList then some (join (String.ofList segment))
    else none
  | _ => none

/-- Whether a route is read rather than posted to. -/
def isRead : Route → Bool
  | root | health | metrics => true
  | sessions | join _ => false

def allow (r : Route) : String :=
  if r.isRead then "GET,HEAD" else "POST"

/-- Whether a route takes a method. What can be read can be asked for without its body. -/
def takes (r : Route) (method : String) : Bool :=
  if r.isRead then method == "GET" || method == "HEAD" else method == "POST"

end Route

/-! ### Percent-encoding -/

def hexDigit? (b : UInt8) : Option UInt8 :=
  if 0x30 ≤ b ∧ b ≤ 0x39 then some (b - 0x30)
  else if 0x41 ≤ b ∧ b ≤ 0x46 then some (b - 0x37)
  else if 0x61 ≤ b ∧ b ≤ 0x66 then some (b - 0x57)
  else none

/-- Puts bytes in the place of percent signs with two digits. Other percent signs stay. -/
def percentDecode : List UInt8 → List UInt8
  | 0x25 :: a :: b :: rest =>
    match hexDigit? a, hexDigit? b with
    | some x, some y => (16 * x + y) :: percentDecode rest
    | _, _ => 0x25 :: percentDecode (a :: b :: rest)
  | b :: rest => b :: percentDecode rest
  | [] => []

/-- The text that a segment of a path stands for. -/
def segmentText? (segment : String) : Option String :=
  Symbol.text? (Symbol.ofBytes (percentDecode (utf8 segment)))

end VoiceRoom.Http
