/-!
# Text read from bytes

A byte string is read as UTF-8 into symbols. A symbol is a character, or a run of stray bytes that
belong to no character. A run is as long as it could still have become a character, so a reader
that shows stray bytes shows one replacement character for each run.

`Symbol.text?` gives the text back if there are no stray bytes.
-/

namespace VoiceRoom

/-- A character of a text, or bytes of it that spell none. -/
inductive Symbol where
  | char (c : Char)
  | stray (bytes : List UInt8)
deriving DecidableEq, Repr, Inhabited

namespace Symbol

def ofText (s : String) : List Symbol :=
  s.toList.map .char

/-- A character that is still short of bytes: the ones read (latest first), its code so far, how
many are missing, and between which bounds the next one lies. -/
structure Pending where
  bytes : List UInt8
  code : Nat
  missing : Nat
  low : UInt8 := 0x80
  high : UInt8 := 0xBF

/-- The first byte of a character says how many follow. The bounds of the second byte rule out
overlong forms, surrogates and codes above U+10FFFF. -/
def lead (b : UInt8) : Symbol ⊕ Pending :=
  let n := b.toNat
  if n < 0x80 then .inl (.char (Char.ofNat n))
  else if 0xC2 ≤ n ∧ n ≤ 0xDF then .inr { bytes := [b], code := n - 0xC0, missing := 1 }
  else if n = 0xE0 then .inr { bytes := [b], code := 0, missing := 2, low := 0xA0 }
  else if n = 0xED then .inr { bytes := [b], code := 0xD, missing := 2, high := 0x9F }
  else if 0xE1 ≤ n ∧ n ≤ 0xEF then .inr { bytes := [b], code := n - 0xE0, missing := 2 }
  else if n = 0xF0 then .inr { bytes := [b], code := 0, missing := 3, low := 0x90 }
  else if n = 0xF4 then .inr { bytes := [b], code := 4, missing := 3, high := 0x8F }
  else if 0xF1 ≤ n ∧ n ≤ 0xF3 then .inr { bytes := [b], code := n - 0xF0, missing := 3 }
  else .inl (.stray [b])

/-- Reads the bytes that are left, after the symbols `out` (latest first) and a pending one. -/
def ofBytesAux : Option Pending → List Symbol → List UInt8 → List Symbol
  | none, out, [] => out.reverse
  | some p, out, [] => (.stray p.bytes.reverse :: out).reverse
  | none, out, b :: rest =>
    match lead b with
    | .inl s => ofBytesAux none (s :: out) rest
    | .inr p => ofBytesAux (some p) out rest
  | some p, out, b :: rest =>
    if p.low ≤ b ∧ b ≤ p.high then
      let code := 64 * p.code + (b.toNat - 0x80)
      if p.missing ≤ 1 then ofBytesAux none (.char (Char.ofNat code) :: out) rest
      else ofBytesAux (some { bytes := b :: p.bytes, code, missing := p.missing - 1 }) out rest
    else
      let out := .stray p.bytes.reverse :: out
      match lead b with
      | .inl s => ofBytesAux none (s :: out) rest
      | .inr p => ofBytesAux (some p) out rest

/-- The symbols that bytes spell. -/
def ofBytes (bs : List UInt8) : List Symbol :=
  ofBytesAux none [] bs

def char? : Symbol → Option Char
  | .char c => some c
  | .stray _ => none

/-- The text, if every symbol is a character. -/
def text? (s : List Symbol) : Option String :=
  String.ofList <$> s.mapM char?

/-- The text with a replacement character for each run of stray bytes. -/
def lossy (s : List Symbol) : String :=
  String.ofList (s.map fun | .char c => c | .stray _ => '\uFFFD')

end Symbol

def utf8 (s : String) : List UInt8 :=
  s.toUTF8.toList

end VoiceRoom
