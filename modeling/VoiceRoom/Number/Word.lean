/-!
# Words of 64 bits

The integers that a word of 64 bits holds, without a sign and with one.
-/

namespace VoiceRoom

/-- The largest integer of a word without a sign. -/
def wordMax : Nat := 0xFFFFFFFFFFFFFFFF

/-- The least integer of a word with a sign. -/
def int64Min : Int := -0x8000000000000000

/-- The largest integer of a word with a sign. -/
def int64Max : Int := 0x7FFFFFFFFFFFFFFF

/-- Whether a word with a sign holds an integer. -/
def fitsInt64 (i : Int) : Bool :=
  int64Min ≤ i && i ≤ int64Max

theorem fitsInt64_iff {i : Int} : fitsInt64 i = true ↔ int64Min ≤ i ∧ i ≤ int64Max := by
  rw [fitsInt64, Bool.and_eq_true, decide_eq_true_eq, decide_eq_true_eq]

end VoiceRoom
