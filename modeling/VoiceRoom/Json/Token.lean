import VoiceRoom.Json.Number
import VoiceRoom.Json.Quoted

/-!
# Tokens

The scanner takes a text symbol by symbol and hands out tokens. Words (literals and numbers) are
runs of letters, digits, signs and points; such a run ends where a symbol follows that cannot
belong to it, so one symbol may complete two tokens.
-/

namespace VoiceRoom.Json

/-- A value that has no parts. -/
inductive Atom where
  | null
  | bool (b : Bool)
  | number (n : Number)
deriving DecidableEq, Repr

inductive Token where
  | openArray
  | closeArray
  | openObject
  | closeObject
  | comma
  | colon
  | atom (a : Atom)
  | string (s : Text)
deriving DecidableEq, Repr

/-- The white space of JSON. -/
def isBlank (c : Char) : Bool :=
  c == ' ' || c == '\t' || c == '\n' || c == '\r'

def isWordChar (c : Char) : Bool :=
  c.isAlphanum || c == '+' || c == '-' || c == '.'

/-- The value that a word denotes. -/
def Atom.ofWord? (cs : List Char) : Option Atom :=
  if cs = ['n', 'u', 'l', 'l'] then some .null
  else if cs = ['t', 'r', 'u', 'e'] then some (.bool true)
  else if cs = ['f', 'a', 'l', 's', 'e'] then some (.bool false)
  else (Number.ofChars? cs).map .number

/-- Where the scanner stands. What it has read of a word or a string is kept latest first. -/
inductive Scanner where
  | between
  | word (letters : List Char)
  | quoted (pieces : List Piece)
  | escape (pieces : List Piece)
  /-- Inside a unit: its value so far, and how many digits follow the next one. -/
  | unit (pieces : List Piece) (value : Nat) (more : Nat)

namespace Scanner

/-- A character between tokens. -/
def start (c : Char) : Option (Scanner × List Token) :=
  match c with
  | '[' => some (between, [.openArray])
  | ']' => some (between, [.closeArray])
  | '{' => some (between, [.openObject])
  | '}' => some (between, [.closeObject])
  | ',' => some (between, [.comma])
  | ':' => some (between, [.colon])
  | '"' => some (quoted [], [])
  | c =>
    if isBlank c then some (between, [])
    else if isWordChar c then some (word [c], [])
    else none

/-- The next symbol: where the scanner stands after it, and the tokens that it completes. -/
def step : Scanner → Symbol → Option (Scanner × List Token)
  | between, .char c => start c
  | word w, .char c =>
    if isWordChar c then some (word (c :: w), [])
    else do
      let a ← Atom.ofWord? w.reverse
      let (s, tokens) ← start c
      some (s, .atom a :: tokens)
  | quoted ps, .char c =>
    if c = '"' then some (between, [.string (denote ps.reverse)])
    else if c = '\\' then some (escape ps, [])
    else if c.toNat < 0x20 then none
    else some (quoted (.char c :: ps), [])
  | quoted ps, .stray _ => some (quoted (.stray :: ps), [])
  | escape ps, .char c =>
    if c = 'u' then some (unit ps 0 3, [])
    else (unescape c).map fun c => (quoted (.char c :: ps), [])
  | unit ps value more, .char c => do
    let value := 16 * value + (← hexValue? c)
    match more with
    | 0 => some (quoted (.code value :: ps), [])
    | more + 1 => some (unit ps value more, [])
  | _, .stray _ => none

/-- The end of the text: the tokens that it completes. -/
def finish : Scanner → Option (List Token)
  | between => some []
  | word w => (Atom.ofWord? w.reverse).map fun a => [.atom a]
  | _ => none

end Scanner

end VoiceRoom.Json
