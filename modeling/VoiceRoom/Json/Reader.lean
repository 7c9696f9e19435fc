import VoiceRoom.Json.Basic

/-!
# Reading JSON

A text is read symbol by symbol. The scanner turns symbols into tokens, and the builder keeps the
arrays and objects that are still open on a stack. Reading ends with the symbol that completes the
first value (`readFirst?`); `read?` accepts nothing but white space after it.

How closely values are looked at is a matter of `Scrutiny`. Every text is checked for its form.
Under `Scrutiny.everything` each string has to denote a text, each number has to be in the range of
doubles, and values are nested at most `nestingLimit` deep.
-/

namespace VoiceRoom.Json

inductive Scrutiny where
  /-- Only the form is checked; the rest is left to whoever reads the value. -/
  | form
  | everything
deriving DecidableEq, Repr

/-- How deep values may be nested where that is checked. -/
def nestingLimit : Nat := 127

/-- An array or object that is still open, with what is complete of it, latest first. -/
inductive Frame where
  | array (items : List Json)
  | object (members : List (Text × Json)) (key : Text)

/-- What has to come next. -/
inductive Need where
  | value
  /-- Behind an opening bracket: a value or the closing one. -/
  | item
  /-- Behind an opening brace: a key or the closing one. -/
  | key
  | nextKey (members : List (Text × Json))
  | colon (members : List (Text × Json)) (key : Text)
  /-- Behind a value: whatever separates it from the next one or ends it. -/
  | separator (v : Json)

/-- The values that are still open, innermost first, and what has to come next. -/
structure Builder where
  stack : List Frame
  need : Need

namespace Builder

def empty : Builder := ⟨[], .value⟩

/-- Whether a text may stand as a string. -/
def admitsText (q : Scrutiny) (s : Text) : Bool :=
  q == .form || s.isSome

/-- Whether a value without parts may stand. -/
def admitsAtom (q : Scrutiny) : Atom → Bool
  | .number n => q == .form || n.inRange
  | _ => true

/-- Whether a value may be opened inside those on the stack. -/
def admitsNesting (q : Scrutiny) (stack : List Frame) : Bool :=
  q == .form || stack.length < nestingLimit

/-- The first token of a value. -/
def open? (q : Scrutiny) (stack : List Frame) : Token → Option Builder
  | .atom a => if admitsAtom q a then some ⟨stack, .separator a.toJson⟩ else none
  | .string s => if admitsText q s then some ⟨stack, .separator (.string s)⟩ else none
  | .openArray => if admitsNesting q stack then some ⟨stack, .item⟩ else none
  | .openObject => if admitsNesting q stack then some ⟨stack, .key⟩ else none
  | _ => none

/-- A token behind a value. -/
def close? (v : Json) : List Frame → Token → Option Builder
  | .array items :: stack, .comma => some ⟨.array (v :: items) :: stack, .value⟩
  | .array items :: stack, .closeArray =>
    some ⟨stack, .separator (.array (v :: items).reverse)⟩
  | .object members key :: stack, .comma => some ⟨stack, .nextKey ((key, v) :: members)⟩
  | .object members key :: stack, .closeObject =>
    some ⟨stack, .separator (.object ((key, v) :: members).reverse)⟩
  | _, _ => none

/-- The next token. -/
def feed? (q : Scrutiny) (b : Builder) (t : Token) : Option Builder :=
  match b.need, t with
  | .value, t => open? q b.stack t
  | .item, .closeArray => some ⟨b.stack, .separator (.array [])⟩
  | .item, t => open? q (.array [] :: b.stack) t
  | .key, .closeObject => some ⟨b.stack, .separator (.object [])⟩
  | .key, .string k => if admitsText q k then some ⟨b.stack, .colon [] k⟩ else none
  | .nextKey members, .string k =>
    if admitsText q k then some ⟨b.stack, .colon members k⟩ else none
  | .colon members key, .colon => some ⟨.object members key :: b.stack, .value⟩
  | .separator v, t => close? v b.stack t
  | _, _ => none

/-- The value, once it is complete. -/
def value? (b : Builder) : Option Json :=
  match b with
  | ⟨[], .separator v⟩ => some v
  | _ => none

end Builder

/-- Reads on from a scanner and a builder until a value is complete, which is handed out with the
symbols that are left. The value must not run into a string. -/
def readAux (q : Scrutiny) : Scanner → Builder → List Symbol → Option (Json × List Symbol)
  | s, b, [] => do
    let tokens ← s.finish
    let b ← tokens.foldlM (Builder.feed? q) b
    let v ← b.value?
    some (v, [])
  | s, b, c :: rest => do
    let (s, tokens) ← s.step c
    let b ← tokens.foldlM (Builder.feed? q) b
    match b.value?, s with
    | some v, .between => some (v, rest)
    | some _, _ => none
    | none, _ => readAux q s b rest

/-- Reads the first value of a text, and says what follows it. -/
def readFirst? (q : Scrutiny) (text : List Symbol) : Option (Json × List Symbol) :=
  readAux q .between .empty text

def isBlankSymbol : Symbol → Bool
  | .char c => isBlank c
  | .stray _ => false

/-- Reads the value that a text is. -/
def read? (q : Scrutiny) (text : List Symbol) : Option Json := do
  let (v, rest) ← readFirst? q text
  if rest.all isBlankSymbol then some v else none

end VoiceRoom.Json
