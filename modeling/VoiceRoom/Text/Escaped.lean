import VoiceRoom.Text.Hidden

/-!
# Texts shown to operators

A text in a diagnostic is put between quotes, and what cannot be seen in it is escaped.
-/

namespace VoiceRoom.Escaped

def hex (n : Nat) : List Char :=
  Nat.toDigits 16 n

/-- A character of a quoted text. -/
def char (c : Char) : List Char :=
  match c with
  | '\x00' => ['\\', '0']
  | '\t' => ['\\', 't']
  | '\n' => ['\\', 'n']
  | '\r' => ['\\', 'r']
  | '"' => ['\\', '"']
  | '\\' => ['\\', '\\']
  | c =>
    if isHidden c then ['\\', 'u', '{'] ++ hex c.toNat ++ ['}']
    else [c]

/-- A text between quotes. -/
def quote (s : String) : String :=
  String.ofList ('"' :: s.toList.flatMap char ++ ['"'])

end VoiceRoom.Escaped
