/-!
# Generated session ids

The service draws 128 random bits for a new session and writes them as a UUID of version 4: 32
hexadecimal digits in groups of 8, 4, 4, 4 and 12. Six of the bits are fixed: the version is the
first digit of the third group, and the variant the top two bits of the fourth.
-/

namespace VoiceRoom.SessionId

/-- The bits with the version and the variant put in. -/
def stamp (bits : Nat) : Nat :=
  -- Version: four bits above the lower 76. Variant: two bits above the lower 62.
  let high := (bits >>> 80) % (1 <<< 48)
  let middle := (bits >>> 64) % (1 <<< 12)
  let low := bits % (1 <<< 62)
  (high <<< 80) + (4 <<< 76) + (middle <<< 64) + (2 <<< 62) + low

/-- The last `count` hexadecimal digits of a number, on top of those in `out`. -/
def hexDigits : Nat → Nat → List Char → List Char
  | 0, _, out => out
  | count + 1, n, out => hexDigits count (n / 16) (Nat.digitChar (n % 16) :: out)

/-- The id that random bits become. -/
def ofBits (bits : Nat) : String :=
  let digits := hexDigits 32 (stamp bits) []
  String.ofList <|
    digits.take 8 ++ '-' :: (digits.drop 8).take 4 ++ '-' :: (digits.drop 12).take 4
      ++ '-' :: (digits.drop 16).take 4 ++ '-' :: digits.drop 20

end VoiceRoom.SessionId
