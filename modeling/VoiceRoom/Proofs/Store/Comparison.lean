import VoiceRoom.Proofs.Number.Confusion
import VoiceRoom.Proofs.Store.FailedWrites

/-!
# How exactly versions are compared

The script that writes over an expected version compares doubles: the one nearest to the counter and
the one nearest to what is expected (`Keyspace.conditionalPut_of_counted`). The version that it
hands back comes as a double as well.

Below `2 ^ 53` this is as good as comparing integers. From there on it is not, whichever version a
record has: some other version is taken for it, and the record is written over it, or the version
that comes next is not the one that is told (`compares_exactly_iff`, `versions_confused`).
-/

namespace VoiceRoom

open Binary64 (exactLimit)

namespace Keyspace

variable {ks : Keyspace} {key : String} {version : Nat}

/-- There is a record, and its counter says which version it has. A record that was written without
a counter has version 0. -/
structure Counted (ks : Keyspace) (key : String) (version : Nat) : Prop where
  record : (ks.lookup key).isSome = true
  counter : ks.lookup (versionKey key) = some (counterData version) ∨
    (version = 0 ∧ ks.lookup (versionKey key) = none)

/-- The data after a record was written at a version. -/
def written (ks : Keyspace) (key : String) (data : List Symbol) (version : Nat) : Keyspace :=
  (ks.set key data).set (versionKey key) (counterData version)

theorem lookup_written_self (ks : Keyspace) (key : String) (data : List Symbol) (version : Nat) :
    (ks.written key data version).lookup key = some data := by
  rw [written, lookup_set, if_neg (versionKey_ne_self key).symm, lookup_set, if_pos rfl]

namespace Counted

/-- The script reads the version as a double. -/
theorem scriptVersion?_eq (h : ks.Counted key version) :
    ks.scriptVersion? key = some (ScriptNumber.ofInt version) := by
  unfold scriptVersion?
  rcases h.counter with hcounter | ⟨rfl, hcounter⟩
  · rw [hcounter]
    exact ScriptNumber.read?_counterData version
  · rw [hcounter]
    rfl

/-- The version is where the counter starts from. -/
theorem start?_eq (h : ks.Counted key version) (hmax : (version : Int) < int64Max) :
    ks.start? key = some (version : Int) := by
  unfold start?
  rcases h.counter with hcounter | ⟨rfl, hcounter⟩
  · rw [hcounter]
    dsimp only
    rw [readCounter?_counterData (Int.le_of_lt hmax), Option.filter_some,
      if_pos (decide_eq_true (Int.ne_of_lt hmax))]
  · rw [hcounter]
    rfl

end Counted

/-- The record is written if its version and the expected one are the same as doubles. The version
that it gets is handed back as a double. -/
theorem conditionalPut_of_counted (h : ks.Counted key version) (hmax : (version : Int) < int64Max)
    (data : List Symbol) (expected : Nat) :
    ks.conditionalPut key data (some expected) =
      if (ScriptNumber.ofInt version).same (ScriptNumber.ofInt expected) then
        (some (ScriptNumber.ofInt (version + 1 : Nat)).toInt64, ks.written key data (version + 1))
      else (some 0, ks) := by
  have hrecord : (ks.lookup key).isNone = false := by
    rw [Option.isNone_eq_false_iff]
    exact h.record
  have hstart : (ks.set key data).start? key = some (version : Int) := by
    rw [start?, lookup_set_versionKey]
    exact h.start?_eq hmax
  -- The counter goes on from the version, and its new value is handed back as a double.
  have hput : ks.versionedPut key data =
      (some (ScriptNumber.ofInt (version + 1 : Nat)).toInt64, ks.written key data (version + 1)) := by
    rw [versionedPut, increment_eq, hstart]
    rfl
  unfold conditionalPut
  rw [h.scriptVersion?_eq]
  dsimp only
  rw [hrecord, Bool.false_or, hput]
  cases (ScriptNumber.ofInt version).same (ScriptNumber.ofInt expected) <;> rfl

end Keyspace

namespace Shared

variable {ks : Keyspace} {key : String} {version : Nat}

/-- A write over an expected version takes place if and only if the record has this very version,
and is then answered with the next one. Otherwise it is answered with a conflict and changes
nothing. -/
structure ComparesExactly (s : Shared) (key : String) (version : Nat) : Prop where
  matching : ∀ value, (s.putIf key value (some version)).result = .ok (.written (version + 1)) ∧
    (s.putIf key value (some version)).store.data =
      s.data.written key (Symbol.ofText value) (version + 1)
  other : ∀ value, ∀ expected ≤ wordMax, expected ≠ version →
    (s.putIf key value (some expected)).result = .ok .conflict ∧
      (s.putIf key value (some expected)).store.data = s.data

/-- A write over a version that is the same double as the record's takes place, and is answered with
what the script hands back. -/
theorem putIf_of_same (h : ks.Counted key version) (hmax : (version : Int) < int64Max)
    (value : String) {expected : Nat}
    (hsame : (ScriptNumber.ofInt version).same (ScriptNumber.ofInt expected) = true) :
    (Shared.putIf ⟨ks, .up⟩ key value (some expected)).result =
        putResult key (some (ScriptNumber.ofInt (version + 1 : Nat)).toInt64) ∧
      (Shared.putIf ⟨ks, .up⟩ key value (some expected)).store.data =
        ks.written key (Symbol.ofText value) (version + 1) := by
  obtain ⟨hresult, hstore⟩ := putIf_eq ks key value (some expected)
  rw [Keyspace.conditionalPut_of_counted h hmax, if_pos hsame] at hresult hstore
  exact ⟨hresult, by rw [hstore]⟩

/-- What is handed back is taken for a version only if it is that version. -/
theorem eq_of_putResult {result : Int} (h : putResult key (some result) = .ok (.written version)) :
    result = version := by
  unfold putResult at h
  dsimp only at h
  split at h
  · exact nomatch h
  · split at h
    · injection h with h
      injection h with h
      omega
    · exact nomatch h

/-- A write over any other version is answered with a conflict. -/
theorem putIf_of_not_same (h : ks.Counted key version) (hmax : (version : Int) < int64Max)
    (value : String) {expected : Nat}
    (hsame : ¬ (ScriptNumber.ofInt version).same (ScriptNumber.ofInt expected) = true) :
    (Shared.putIf ⟨ks, .up⟩ key value (some expected)).result = .ok .conflict ∧
      (Shared.putIf ⟨ks, .up⟩ key value (some expected)).store.data = ks := by
  obtain ⟨hresult, hstore⟩ := putIf_eq ks key value (some expected)
  rw [Keyspace.conditionalPut_of_counted h hmax, if_neg hsame] at hresult hstore
  exact ⟨hresult, by rw [hstore]⟩

/-- Below the limit a version is the same as no other. -/
theorem comparesExactly_of_lt (h : ks.Counted key version) (hlimit : version < exactLimit) :
    (⟨ks, .up⟩ : Shared).ComparesExactly key version := by
  have hmax : (version : Int) < int64Max := by
    have : (exactLimit : Int) < int64Max := by decide
    omega
  constructor
  · intro value
    obtain ⟨hresult, hdata⟩ :=
      putIf_of_same h hmax value ((ScriptNumber.same_ofInt_iff hlimit).2 rfl)
    refine ⟨?_, hdata⟩
    -- The next version is the limit at most, which is a double too.
    have hnext : (ScriptNumber.ofInt (version + 1 : Nat)).toInt64 = (version + 1 : Nat) := by
      rcases Nat.lt_or_eq_of_le (Nat.succ_le_of_lt hlimit) with hnext | hnext
      · exact ScriptNumber.toInt64_ofInt hnext
      · rw [show version + 1 = exactLimit from hnext]
        decide
    rw [hresult, hnext, putResult, if_neg (by omega), if_pos (by omega), Int.toNat_natCast]
  · intro value expected _ hne
    have hother : version ≠ expected := fun heq => hne heq.symm
    exact putIf_of_not_same h hmax value (mt (ScriptNumber.same_ofInt_iff hlimit).1 hother)

/-- From the limit on a version passes for another one, or its successor is not handed back: of two
neighbours only one is a double. -/
theorem not_comparesExactly_of_le (h : ks.Counted key version) (hmax : (version : Int) < int64Max)
    (hlimit : exactLimit ≤ version) : ¬ (⟨ks, .up⟩ : Shared).ComparesExactly key version := by
  intro hexact
  rcases ScriptNumber.exists_confused hlimit hmax with ⟨expected, hword, hne, hsame⟩ | hnext
  -- The record is written over a version that it does not have, which ought to change nothing.
  · obtain ⟨value, hvalue⟩ := exists_other_value (ks.lookup key)
    have hkept := (hexact.other value expected hword hne).2
    rw [(putIf_of_same h hmax value hsame).2] at hkept
    have hlookup := ks.lookup_written_self key (Symbol.ofText value) (version + 1)
    rw [hkept] at hlookup
    exact hvalue hlookup
  · have hword : int64Max < wordMax := by decide
    have hexactly := (hexact.matching "").1
    have htold := (putIf_of_same h hmax "" (ScriptNumber.same_ofInt_self (by omega))).1
    rw [hexactly] at htold
    exact absurd (eq_of_putResult htold.symm) hnext

/-- Versions are compared exactly, and told exactly, if and only if the record has one below
`2 ^ 53`. -/
theorem compares_exactly_iff (hcounted : ks.Counted key version)
    (hmax : (version : Int) < int64Max) :
    (⟨ks, .up⟩ : Shared).ComparesExactly key version ↔ version < 2 ^ 53 := by
  have hlimit : exactLimit = 2 ^ 53 := rfl
  constructor
  · intro hexact
    by_contra hge
    exact not_comparesExactly_of_le hcounted hmax (by omega) hexact
  · intro hlt
    exact comparesExactly_of_lt hcounted (by omega)

/-- A store with one record of a version. -/
def holding (version : String) : Shared :=
  ⟨⟨[("game:a", Symbol.ofText "m"), ("game:a:version", Symbol.ofText version)]⟩, .up⟩

/-- The last version that is compared exactly. -/
theorem compares_exactly_last :
    (holding "9007199254740991").data.Counted "game:a" 9007199254740991 ∧
      ((9007199254740991 : Nat) : Int) < int64Max ∧
      ((holding "9007199254740991").ComparesExactly "game:a" 9007199254740991 ↔
        9007199254740991 < 2 ^ 53) := by
  have hcounted : (holding "9007199254740991").data.Counted "game:a" 9007199254740991 :=
    ⟨by decide, .inl (by decide)⟩
  exact ⟨hcounted, by decide, compares_exactly_iff hcounted (by decide)⟩

/-- The first version that is taken for another one: the record has version `2 ^ 53`, the next one
is expected, and the record is written. What is told is the version that it had. -/
theorem versions_confused :
    (holding "9007199254740992").data.Counted "game:a" (2 ^ 53) ∧
      ((holding "9007199254740992").putIf "game:a" "n" (some (2 ^ 53 + 1))).result =
        .ok (.written (2 ^ 53)) ∧
      ((holding "9007199254740992").putIf "game:a" "n" (some (2 ^ 53 + 1))).store.data =
        ⟨[("game:a", Symbol.ofText "n"), ("game:a:version", Symbol.ofText "9007199254740993")]⟩ := by
  refine ⟨⟨?_, .inl ?_⟩, ?_, ?_⟩
  · decide
  · decide
  · decide
  · decide

end Shared

end VoiceRoom
