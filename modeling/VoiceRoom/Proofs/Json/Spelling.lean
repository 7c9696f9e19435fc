import VoiceRoom.Json.Basic

/-!
# Spellings of JSON values

How a value may be written, as a grammar and without a reader in mind: with white space between its
parts, with the characters of its strings as they are or escaped, with its numbers in any notation.
`Spells room v cs` says that `cs` spells `v`, which is nested at most `room` deep.

The strings of a value are texts here. A code of half a surrogate pair that stands alone spells no
character.
-/

namespace VoiceRoom.Json

/-! ### White space -/

/-- White space, perhaps none. -/
def Blanks (cs : List Char) : Prop :=
  ∀ c ∈ cs, isBlank c = true

instance (cs : List Char) : Decidable (Blanks cs) :=
  decidable_of_iff (cs.all isBlank = true) List.all_eq_true

theorem Blanks.nil : Blanks [] :=
  fun _ hc => nomatch hc

/-- Blanks after blanks are blanks. -/
theorem Blanks.append {cs ds : List Char} (hcs : Blanks cs) (hds : Blanks ds) :
    Blanks (cs ++ ds) :=
  fun c hc => (List.mem_append.1 hc).elim (hcs c) (hds c)

/-! ### Strings -/

/-- The letters behind a backslash, and what they stand for. -/
def letters : List (Char × Char) :=
  [('"', '"'), ('\\', '\\'), ('/', '/'), ('b', '\x08'), ('f', '\x0c'), ('n', '\n'), ('r', '\r'),
    ('t', '\t')]

/-- A hexadecimal digit, in lower or in upper case. -/
def SpellsHex (n : Nat) (c : Char) : Prop :=
  n < 16 ∧ (c = n.digitChar ∨ c = n.digitChar.toUpper)

/-- A UTF-16 unit: a backslash, the letter u and four hexadecimal digits. -/
inductive SpellsUnit : Nat → List Char → Prop where
  | intro {n₃ n₂ n₁ n₀ : Nat} {c₃ c₂ c₁ c₀ : Char} (h₃ : SpellsHex n₃ c₃) (h₂ : SpellsHex n₂ c₂)
      (h₁ : SpellsHex n₁ c₁) (h₀ : SpellsHex n₀ c₀) :
      SpellsUnit (0x1000 * n₃ + 0x100 * n₂ + 0x10 * n₁ + n₀) ['\\', 'u', c₃, c₂, c₁, c₀]

/-- A character between quotes. -/
inductive SpellsChar : Char → List Char → Prop where
  | plain {c : Char} (hquote : c ≠ '"') (hslash : c ≠ '\\') (hcontrol : 0x20 ≤ c.toNat) :
      SpellsChar c [c]
  | letter {letter c : Char} (h : (letter, c) ∈ letters) : SpellsChar c ['\\', letter]
  | unit {c : Char} {cs : List Char} (h : SpellsUnit c.toNat cs) : SpellsChar c cs
  /-- A character beyond those that are one unit: two halves. -/
  | pair {c : Char} {cs ds : List Char} (hc : 0x10000 ≤ c.toNat)
      (hhigh : SpellsUnit (0xD800 + (c.toNat - 0x10000) / 0x400) cs)
      (hlow : SpellsUnit (0xDC00 + (c.toNat - 0x10000) % 0x400) ds) : SpellsChar c (cs ++ ds)

/-- Characters between quotes. -/
inductive SpellsChars : List Char → List Char → Prop where
  | nil : SpellsChars [] []
  | cons {c : Char} {s cs ds : List Char} (hc : SpellsChar c cs) (hs : SpellsChars s ds) :
      SpellsChars (c :: s) (cs ++ ds)

inductive SpellsText : String → List Char → Prop where
  | intro {s : String} {cs : List Char} (h : SpellsChars s.toList cs) :
      SpellsText s ('"' :: (cs ++ ['"']))

/-! ### Numbers -/

def Digits (cs : List Char) : Prop :=
  ∀ c ∈ cs, c.isDigit = true

instance (cs : List Char) : Decidable (Digits cs) :=
  decidable_of_iff (cs.all Char.isDigit = true) List.all_eq_true

/-- Digits in front of the point. A zero in front stands alone. -/
inductive SpellsWhole : List Char → Prop where
  | zero : SpellsWhole ['0']
  | digits {c : Char} {cs : List Char} (hc : c.isDigit = true) (hzero : c ≠ '0') (hcs : Digits cs) :
      SpellsWhole (c :: cs)

inductive SpellsFraction : List Char → List Char → Prop where
  | none : SpellsFraction [] []
  | digits {cs : List Char} (hne : cs ≠ []) (hcs : Digits cs) : SpellsFraction cs ('.' :: cs)

/-- The signs of an exponent, and whether they are a minus sign. -/
inductive SpellsSign : Bool → List Char → Prop where
  | none : SpellsSign false []
  | plus : SpellsSign false ['+']
  | minus : SpellsSign true ['-']

inductive SpellsExponent : Option Exponent → List Char → Prop where
  | none : SpellsExponent none []
  | some {mark : Char} {e : Exponent} {sign : List Char} (hmark : mark = 'e' ∨ mark = 'E')
      (hsign : SpellsSign e.negative sign) (hne : e.digits ≠ []) (hdigits : Digits e.digits) :
      SpellsExponent (some e) (mark :: (sign ++ e.digits))

inductive SpellsNumber : Number → List Char → Prop where
  | intro {n : Number} {fraction exponent : List Char} (hwhole : SpellsWhole n.whole)
      (hfraction : SpellsFraction n.fraction fraction)
      (hexponent : SpellsExponent n.exponent exponent) :
      SpellsNumber n ((if n.negative then ['-'] else []) ++ (n.whole ++ (fraction ++ exponent)))

/-! ### Values -/

inductive SpellsAtom : Atom → List Char → Prop where
  | null : SpellsAtom .null ['n', 'u', 'l', 'l']
  | bool (b : Bool) : SpellsAtom (.bool b) (cond b ['t', 'r', 'u', 'e'] ['f', 'a', 'l', 's', 'e'])
  | number {n : Number} {cs : List Char} (h : SpellsNumber n cs) : SpellsAtom (.number n) cs

/-- A name with white space around it. -/
inductive SpellsName : String → List Char → Prop where
  | intro {name : String} {left cs right : List Char} (hleft : Blanks left)
      (h : SpellsText name cs) (hright : Blanks right) : SpellsName name (left ++ (cs ++ right))

/-- Texts with commas between them. -/
def listed : List (List Char) → List Char
  | [] => []
  | [cs] => cs
  | cs :: ds :: rest => cs ++ ',' :: listed (ds :: rest)

/-- An item of an array and how it is written. -/
structure Item where
  value : Json
  chars : List Char

/-- A member of an object and how it is written: its name and its value. -/
structure Entry where
  name : String
  value : Json
  nameChars : List Char
  valueChars : List Char

namespace Entry

def member (e : Entry) : String × Json :=
  (e.name, e.value)

def chars (e : Entry) : List Char :=
  e.nameChars ++ ':' :: e.valueChars

end Entry

/-- How a value that is nested at most so deep is written, with white space around it. -/
inductive Spells : Nat → Json → List Char → Prop where
  | atom {room : Nat} {a : Atom} {cs : List Char} (h : SpellsAtom a cs) : Spells room a.toJson cs
  | text {room : Nat} {s : String} {cs : List Char} (h : SpellsText s cs) :
      Spells room (ofText s) cs
  | noItems {room : Nat} {blanks : List Char} (h : Blanks blanks) :
      Spells (room + 1) (.array []) ('[' :: (blanks ++ [']']))
  | array {room : Nat} {items : List Item} (hne : items ≠ [])
      (hvalues : ∀ i ∈ items, Spells room i.value i.chars) :
      Spells (room + 1) (.array (items.map Item.value))
        ('[' :: (listed (items.map Item.chars) ++ [']']))
  | noMembers {room : Nat} {blanks : List Char} (h : Blanks blanks) :
      Spells (room + 1) (record []) ('{' :: (blanks ++ ['}']))
  | object {room : Nat} {entries : List Entry} (hne : entries ≠ [])
      (hnames : ∀ e ∈ entries, SpellsName e.name e.nameChars)
      (hvalues : ∀ e ∈ entries, Spells room e.value e.valueChars) :
      Spells (room + 1) (record (entries.map Entry.member))
        ('{' :: (listed (entries.map Entry.chars) ++ ['}']))
  | blanks {room : Nat} {v : Json} {left cs right : List Char} (hleft : Blanks left)
      (h : Spells room v cs) (hright : Blanks right) : Spells room v (left ++ (cs ++ right))

theorem Spells.of_eq {room : Nat} {v : Json} {cs ds : List Char} (h : Spells room v cs)
    (heq : ds = cs) : Spells room v ds :=
  heq ▸ h

end VoiceRoom.Json
