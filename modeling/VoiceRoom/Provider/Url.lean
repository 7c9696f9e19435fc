import VoiceRoom.Text.Symbol

/-!
# Addresses of the provider

An address is taken the way browsers take it: case of the host does not count, the usual port goes
without saying, whoever is named in front of the host is dropped, steps up and on the spot are
resolved, and characters that may not stand in a path are percent-encoded.
-/

namespace VoiceRoom

structure Url where
  host : String
  port : Option Nat
  /-- The segments of the path. -/
  path : List (List Char)
  query : Option (List Char)
deriving DecidableEq, Repr

namespace Url

/-- Whether a character is dropped wherever it stands. -/
def isDropped (c : Char) : Bool := c == '\t' || c == '\n' || c == '\r'

/-- Whether a character is dropped at the ends of an address. -/
def isEdge (c : Char) : Bool := c.toNat ≤ 0x20

/-- Whether a character separates segments. -/
def isSlash (c : Char) : Bool := c == '/' || c == '\\'

/-- Whether a character ends the path. -/
def isPathEnd (c : Char) : Bool := c == '?' || c == '#'

/-- The address without characters that do not count. -/
def clean (s : String) : List Char :=
  let cs := (s.toList.dropWhile isEdge).reverse.dropWhile isEdge |>.reverse
  cs.filter fun c => !isDropped c

/-! ### Percent-encoding -/

/-- A digit of a percent-encoded byte. -/
def hexDigit (n : Nat) : Char :=
  (Nat.digitChar n).toUpper

/-- The percent-encoded bytes of a character. -/
def percent (c : Char) : List Char :=
  (utf8 (String.singleton c)).flatMap fun b => ['%', hexDigit (b.toNat / 16), hexDigit (b.toNat % 16)]

/-- Whether a character is a control or beyond ASCII. -/
def isForeign (c : Char) : Bool := c.toNat < 0x20 || 0x7E < c.toNat

/-- A character of a path. -/
def pathChar (c : Char) : List Char :=
  if isForeign c || " \"<>`\x7b\x7d".toList.contains c then percent c else [c]

/-- A character of a query. -/
def queryChar (c : Char) : List Char :=
  if isForeign c || " \"<>'".toList.contains c then percent c else [c]

/-! ### Paths -/

/-- Whether a segment stands for the place it is in. -/
def isDot (segment : List Char) : Bool :=
  let s := String.ofList (segment.map Char.toLower)
  s == "." || s == "%2e"

/-- Whether a segment stands for the place above. -/
def isDoubleDot (segment : List Char) : Bool :=
  let s := String.ofList (segment.map Char.toLower)
  s == ".." || s == ".%2e" || s == "%2e." || s == "%2e%2e"

/-- Resolves the segments that are left, after those in `done` (latest first). A step at the end
leaves an empty segment. -/
def resolve : List (List Char) → List (List Char) → List (List Char)
  | done, [] => done.reverse
  | done, [s] =>
    if isDoubleDot s then ([] :: done.tail).reverse
    else if isDot s then ([] :: done).reverse
    else (s :: done).reverse
  | done, s :: rest =>
    if isDoubleDot s then resolve done.tail rest
    else if isDot s then resolve done rest
    else resolve (s :: done) rest

/-- The pieces of a text between slashes. -/
def splitSlashes (cs : List Char) : List (List Char) :=
  (cs.map fun c => if isSlash c then '/' else c).splitOn '/'

/-- The path that a text is. The slash in front is part of every path. -/
def readPath (cs : List Char) : List (List Char) :=
  let segments :=
    match splitSlashes cs with
    | [] :: rest => if rest = [] then [[]] else rest
    | segments => segments
  resolve [] (segments.map fun s => s.flatMap pathChar)

/-! ### Addresses -/

def isHostChar (c : Char) : Bool :=
  c.isAlphanum || c == '.' || c == '-' || c == '_' || c == '~' || c == '!' || c == '$' || c == '&'
    || c == '\'' || c == '(' || c == ')' || c == '*' || c == '+' || c == ',' || c == ';' || c == '='

/-- Reads the host and the port of an authority. -/
def readHost? (cs : List Char) : Option (String × Option Nat) :=
  let host := cs.takeWhile (· != ':')
  if host = [] ∨ !host.all isHostChar then none
  else
    let name := String.ofList (host.map Char.toLower)
    match cs.dropWhile (· != ':') with
    | [] => some (name, none)
    | _ :: digits =>
      let port := Nat.ofDigitChars 10 digits 0
      if !digits.all Char.isDigit ∨ 65535 < port then none
      else some (name, if digits = [] ∨ port = 80 then none else some port)

/-- What follows the last sign `@` of an authority. -/
def dropUser (cs : List Char) : List Char :=
  (cs.reverse.takeWhile (· != '@')).reverse

/-- Reads an address, which has to be one of plain HTTP. -/
def read? (s : String) : Option Url :=
  let cs := clean s
  let scheme := cs.takeWhile (· != ':')
  if String.ofList (scheme.map Char.toLower) = "http" ∧ scheme.length < cs.length then
    let cs := (cs.drop (scheme.length + 1)).dropWhile isSlash
    let authority := cs.takeWhile fun c => !isSlash c && !isPathEnd c
    let rest := cs.drop authority.length
    (readHost? (dropUser authority)).map fun (host, port) =>
      let path := rest.takeWhile fun c => !isPathEnd c
      let query :=
        match rest.drop path.length with
        | '?' :: query => some ((query.takeWhile (· != '#')).flatMap queryChar)
        | _ => none
      { host, port, path := readPath path, query }
  else none

def render (u : Url) : String :=
  "http://" ++ u.host ++ (u.port.elim "" fun p => ":" ++ p.repr)
    ++ String.ofList (u.path.flatMap fun s => '/' :: s)
    ++ (u.query.elim "" fun q => String.ofList ('?' :: q))

end Url

end VoiceRoom
