import VoiceRoom.Text.Symbol

/-!
# Quoted strings

A quoted string is written in pieces: characters, escaped or not, and codes of UTF-16 units. What
the pieces denote is settled afterwards: a code of a surrogate has to be half of a pair. A string
that denotes no text is still a string; whether that matters is for the reader of the value to say.
-/

namespace VoiceRoom.Json

/-- What a quoted string denotes: a text, or nothing, if surrogates stand alone or bytes are not
UTF-8. -/
abbrev Text := Option String

/-- A piece of a quoted string. -/
inductive Piece where
  /-- A character, as it is or behind a backslash. -/
  | char (c : Char)
  /-- A UTF-16 unit, written as four hexadecimal digits. -/
  | code (unit : Nat)
  /-- Bytes that spell no character. -/
  | stray
deriving DecidableEq, Repr

/-- Whether a unit is the first half of a pair. -/
def isHigh (unit : Nat) : Bool := 0xD800 ≤ unit && unit < 0xDC00

/-- Whether a unit is the second half of a pair. -/
def isLow (unit : Nat) : Bool := 0xDC00 ≤ unit && unit < 0xE000

def pair (high low : Nat) : Char :=
  Char.ofNat (0x10000 + 0x400 * (high - 0xD800) + (low - 0xDC00))

/-- The characters that pieces denote, on top of those in `out` (latest first). -/
def denoteAux (out : List Char) : List Piece → Option (List Char)
  | [] => some out.reverse
  | .char c :: rest => denoteAux (c :: out) rest
  | .stray :: _ => none
  | .code u :: rest =>
    if isHigh u then
      match rest with
      | .code v :: rest => if isLow v then denoteAux (pair u v :: out) rest else none
      | _ => none
    else if isLow u then none
    else denoteAux (Char.ofNat u :: out) rest

/-- The text that pieces denote. -/
def denote (pieces : List Piece) : Text :=
  (denoteAux [] pieces).map String.ofList

/-- The character that a letter behind a backslash stands for. -/
def unescape (letter : Char) : Option Char :=
  match letter with
  | '"' => some '"'
  | '\\' => some '\\'
  | '/' => some '/'
  | 'b' => some '\x08'
  | 'f' => some '\x0c'
  | 'n' => some '\n'
  | 'r' => some '\r'
  | 't' => some '\t'
  | _ => none

def hexValue? (c : Char) : Option Nat :=
  if '0' ≤ c ∧ c ≤ '9' then some (c.toNat - '0'.toNat)
  else if 'a' ≤ c ∧ c ≤ 'f' then some (c.toNat - 'a'.toNat + 10)
  else if 'A' ≤ c ∧ c ≤ 'F' then some (c.toNat - 'A'.toNat + 10)
  else none

/-- Writes a character of a quoted string. Quotes, backslashes and controls are escaped. -/
def escape (c : Char) : List Char :=
  match c with
  | '"' => ['\\', '"']
  | '\\' => ['\\', '\\']
  | '\x08' => ['\\', 'b']
  | '\x0c' => ['\\', 'f']
  | '\n' => ['\\', 'n']
  | '\r' => ['\\', 'r']
  | '\t' => ['\\', 't']
  | c =>
    if c.toNat < 0x20 then
      ['\\', 'u', '0', '0', Nat.digitChar (c.toNat / 16), Nat.digitChar (c.toNat % 16)]
    else [c]

def quote (s : String) : List Char :=
  '"' :: s.toList.flatMap escape ++ ['"']

end VoiceRoom.Json
