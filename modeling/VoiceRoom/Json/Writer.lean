import VoiceRoom.Json.Basic

/-!
# Writing JSON

Values are written without white space, members in the order they have.
-/

namespace VoiceRoom.Json

mutual

/-- The written form of a value. A string that denotes no text is written empty. -/
def chars : Json → List Char
  | .null => ['n', 'u', 'l', 'l']
  | .bool true => ['t', 'r', 'u', 'e']
  | .bool false => ['f', 'a', 'l', 's', 'e']
  | .number n => n.toChars
  | .string s => quote (s.getD "")
  | .array items => '[' :: itemChars items ++ [']']
  | .object members => '{' :: memberChars members ++ ['}']

/-- The items of an array, with commas between them. -/
def itemChars : List Json → List Char
  | [] => []
  | [v] => chars v
  | v :: w :: rest => chars v ++ ',' :: itemChars (w :: rest)

/-- The members of an object, with commas between them. -/
def memberChars : List (Text × Json) → List Char
  | [] => []
  | [(k, v)] => quote (k.getD "") ++ ':' :: chars v
  | (k, v) :: m :: rest => quote (k.getD "") ++ ':' :: chars v ++ ',' :: memberChars (m :: rest)

end

/-- The text of a value. -/
def render (v : Json) : String :=
  String.ofList v.chars

end VoiceRoom.Json
