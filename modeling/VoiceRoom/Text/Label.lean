/-!
# Values of labels

A value is written between quotes on a line of its own kind, so quotes, backslashes and line feeds in
it are escaped. A value may come with escapes already: two backslashes in a row are taken for one
that is escaped, and a backslash in front of a quote for the escape of the quote. Neither is escaped
again. A line feed is passed over in this: a backslash in front of it waits for what comes behind.
-/

namespace VoiceRoom.Label

/-- The backslash that was read and is not yet written, if there is one. -/
def backslash (held : Bool) : List Char :=
  if held then ['\\', '\\'] else []

/-- Writes what is left of a value, perhaps behind a backslash that was held back. -/
def escapeAux : Bool → List Char → List Char
  | held, [] => backslash held
  | held, c :: cs =>
    if c = '\n' then '\\' :: 'n' :: escapeAux held cs
    else if c = '"' then '\\' :: '"' :: escapeAux false cs
    else if c = '\\' then backslash held ++ escapeAux (!held) cs
    else backslash held ++ c :: escapeAux false cs

def escape (value : String) : String :=
  String.ofList (escapeAux false value.toList)

end VoiceRoom.Label
