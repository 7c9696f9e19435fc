/-!
# Media types

A body is taken for JSON if its media type says so. A media type is `type/subtype` followed by
parameters, which have to be well formed but do not matter.
-/

namespace VoiceRoom.Http

def isTokenChar (c : Char) : Bool :=
  c.isAlphanum || "!#$%&'*+-.^_`|~".toList.contains c

def isHeaderChar (c : Char) : Bool :=
  c == '\t' || (0x20 ≤ c.toNat && c.toNat ≤ 0x7E)

/-- Where a reader of parameters stands. -/
inductive Parameters where
  /-- In front of a name. -/
  | start
  | name
  /-- Behind the equals sign. -/
  | equals
  | value
  /-- Behind the quote that opens a value. -/
  | opened
  | quoted
  /-- Behind the quote that closes a value. -/
  | closed
deriving DecidableEq, Repr

namespace Parameters

/-- The next character. A quoted value has at least one character, whatever it is. -/
def step : Parameters → Char → Option Parameters
  | start, c => if c = ' ' then some start else if isTokenChar c then some name else none
  | name, c => if c = '=' then some equals else if isTokenChar c then some name else none
  | equals, c => if c = '"' then some opened else if isTokenChar c then some value else none
  | value, c => if c = ';' then some start else if isTokenChar c then some value else none
  | opened, c => if c.toNat < 0x20 then none else some quoted
  | quoted, c => if c = '"' then some closed else if c.toNat < 0x20 then none else some quoted
  | closed, c => if c = ' ' then some closed else if c = ';' then some start else none

/-- Whether parameters may end here. -/
def isEnd : Parameters → Bool
  | start | equals | value | closed => true
  | name | opened | quoted => false

/-- Whether a text is well formed as parameters. -/
def wellFormed (cs : List Char) : Bool :=
  (cs.foldlM step start).any isEnd

end Parameters

structure MediaType where
  type : List Char
  subtype : List Char
deriving DecidableEq, Repr

namespace MediaType

/-- Reads a media type. The subtype may be empty if nothing follows it. -/
def read? (header : String) : Option MediaType :=
  let cs := header.toList
  let type := cs.takeWhile isTokenChar
  match cs.dropWhile isTokenChar with
  | '/' :: rest =>
    let subtype := rest.takeWhile isTokenChar
    let wellFormed : Bool :=
      match rest.dropWhile isTokenChar with
      | [] => true
      | ';' :: parameters => subtype != [] && Parameters.wellFormed parameters
      | _ => false
    if type ≠ [] ∧ wellFormed ∧ cs.all isHeaderChar then some ⟨type, subtype⟩ else none
  | _ => none

/-- A subtype before its last plus sign and behind it. A plus sign in front is not counted. -/
def splitSuffix (subtype : List Char) : List Char × Option (List Char) :=
  let suffix := (subtype.reverse.takeWhile (· != '+')).reverse
  let stem := subtype.take (subtype.length - suffix.length - 1)
  if stem = [] then (subtype, none) else (stem, some suffix)

/-- Whether a media type is one of JSON: as the subtype, or as what it is built on. -/
def isJson (m : MediaType) : Bool :=
  let lower (cs : List Char) : List Char := cs.map Char.toLower
  let (stem, suffix) := splitSuffix m.subtype
  lower m.type == "application".toList
    && (lower stem == "json".toList || suffix.map lower == some "json".toList)

end MediaType

end VoiceRoom.Http
