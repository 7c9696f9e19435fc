import VoiceRoom.Proofs.Number.Confusion
import VoiceRoom.Proofs.Store.Refinement

/-!
# Writes that fail

The scripts write a record before they raise its counter, and what they have written by then stays.
So a counter that cannot be raised leaves a write behind that was answered with an error. A counter
below zero is raised, but not to a version: the write is answered with an error too, or with a
conflict if zero comes out (`failed_writes_leave_data`). The largest counters are raised as well,
but come back from the script as the least integer, which is an error again.

Where writes are answered at all, nothing else makes one that fails change the data.
`fails_cleanly_iff` says so for every keyspace and every connection, and `Represents.not_spoilt` that
counters which only the service writes are no such counters.
-/

namespace VoiceRoom

/-- What consists of characters is made of them. -/
theorem Symbol.eq_map_of_mapM_char? {data : List Symbol} {cs : List Char}
    (h : data.mapM Symbol.char? = some cs) : data = cs.map Symbol.char := by
  induction data generalizing cs with
  | nil =>
    obtain rfl : [] = cs := Option.some.inj h
    rfl
  | cons symbol data ih =>
    rw [List.mapM_cons] at h
    obtain ⟨c, hc, h⟩ := Option.bind_eq_some_iff.1 h
    obtain ⟨cs', hcs, h⟩ := Option.bind_eq_some_iff.1 h
    obtain rfl : c :: cs' = cs := Option.some.inj h
    cases symbol with
    | stray bytes => exact nomatch hc
    | char c' =>
      obtain rfl : c' = c := Option.some.inj hc
      rw [ih hcs, List.map_cons]

namespace Keyspace

variable {ks : Keyspace} {key : String} {data : List Symbol}

/-- What the counter of a record is raised from, if it can be raised. -/
def start? (ks : Keyspace) (key : String) : Option Int :=
  match ks.lookup (versionKey key) with
  | none => some 0
  | some data => (readCounter? data).filter (· ≠ int64Max)

/-- The counter of a record is such that a write can fail and leave something behind. -/
inductive Spoilt (ks : Keyspace) (key : String) : Prop where
  /-- It is no counter, or the largest one. -/
  | stuck (h : ks.start? key = none)
  | negative {old : Int} (h : ks.start? key = some old) (hold : old < -1)
  /-- It is raised to zero, which stands for a conflict, with a record that can be new. -/
  | unseen (h : ks.start? key = some (-1)) (habsent : ks.lookup key = none)
  /-- It is raised to what scripts do not hand back. -/
  | beyond {old : Int} (h : ks.start? key = some old)
      (hold : ScriptNumber.returnLimit ≤ old + 1)

/-! ### Scripts -/

/-- Setting a record leaves its counter alone. -/
theorem lookup_set_versionKey (ks : Keyspace) (key : String) (data : List Symbol) :
    (ks.set key data).lookup (versionKey key) = ks.lookup (versionKey key) := by
  rw [lookup_set, if_neg (versionKey_ne_self key)]

/-- A counter that starts anywhere is one more, and any other one is left alone. -/
theorem increment_eq (ks : Keyspace) (key : String) :
    ks.increment (versionKey key) =
      (ks.start? key).elim (none, ks) fun old =>
        (some (old + 1), ks.set (versionKey key) (counterData (old + 1))) := by
  unfold increment start?
  cases ks.lookup (versionKey key) with
  | none => rfl
  | some data =>
    dsimp only
    cases readCounter? data with
    | none => rfl
    | some old => by_cases hmax : old = int64Max <;> simp [Option.filter, hmax]

/-- The script that writes in any case hands back, as a double, what its counter is raised to. -/
theorem versionedPut_of_start? {old : Int} (h : ks.start? key = some old) (data : List Symbol) :
    ks.versionedPut key data = (some (ScriptNumber.ofInt (old + 1)).toInt64,
      (ks.set key data).set (versionKey key) (counterData (old + 1))) := by
  have hstart : (ks.set key data).start? key = some old := by
    rw [start?, lookup_set_versionKey]
    exact h
  rw [versionedPut, increment_eq, hstart]
  rfl

/-- It stops halfway if the counter cannot be raised. -/
theorem versionedPut_of_stuck (h : ks.start? key = none) (data : List Symbol) :
    ks.versionedPut key data = (none, ks.set key data) := by
  have hstart : (ks.set key data).start? key = none := by
    rw [start?, lookup_set_versionKey]
    exact h
  rw [versionedPut, increment_eq, hstart]
  rfl

/-- A put sets the record before anything can go wrong with the counter, and nothing takes it back
afterwards. -/
theorem lookup_versionedPut_self (ks : Keyspace) (key : String) (data : List Symbol) :
    (ks.versionedPut key data).2.lookup key = some data := by
  refine (lookup_increment_of_ne (versionKey_ne_self key).symm).trans ?_
  rw [lookup_set, if_pos rfl]

/-! ### The counter before zero -/

/-- Digits without a leading zero that are worth one. -/
theorem eq_one_of_ofDigitChars {c : Char} {cs : List Char} (hc : c.isDigit = true) (hzero : c ≠ '0')
    (h : Nat.ofDigitChars 10 (c :: cs) 0 = 1) : c :: cs = ['1'] := by
  have hlow := (ScriptNumber.toNat_of_isDigit hc).1
  have hne : c.toNat ≠ '0'.toNat := fun heq => hzero (Char.toNat_inj.1 heq)
  have h48 : '0'.toNat = 48 := rfl
  rw [Nat.ofDigitChars_cons] at h
  cases cs with
  | nil =>
    rw [Nat.ofDigitChars_nil] at h
    have h49 : c.toNat = '1'.toNat := by
      have : '1'.toNat = 49 := rfl
      omega
    rw [Char.toNat_inj.1 h49]
  -- A second digit makes it ten at least.
  | cons d cs =>
    rw [Nat.ofDigitChars_cons] at h
    have hle := Json.Number.le_ofDigitChars cs
      (10 * (10 * 0 + (c.toNat - '0'.toNat)) + (d.toNat - '0'.toNat))
    omega

/-- There is one way to write the counter below zero that is next to it. -/
theorem eq_of_readCounter?_neg_one {data : List Symbol} (h : readCounter? data = some (-1)) :
    data = [.char '-', .char '1'] := by
  unfold readCounter? at h
  obtain ⟨cs, hcs, h⟩ := Option.bind_eq_some_iff.1 h
  rw [Symbol.eq_map_of_mapM_char? hcs]
  cases cs with
  | nil => exact nomatch h
  | cons c digits =>
    -- A negative counter begins with its sign, and a counter without one is not negative.
    by_cases hc : c = '-'
    · subst hc
      obtain ⟨hcounter, hvalue⟩ := Option.ite_none_right_eq_some.1 h
      have hneg : -(Nat.ofDigitChars 10 digits 0 : Int) = -1 := Option.some.inj hvalue
      have hcanonical := (Bool.and_eq_true_iff.1 hcounter).1
      cases digits with
      | nil => exact nomatch hcanonical
      | cons d rest =>
        have hzero : d ≠ '0' := by
          rintro rfl
          simp at hcanonical
        simp only [List.cons.injEq, hzero, false_and, imp_self, implies_true, List.all_cons,
          Bool.and_eq_true] at hcanonical
        rw [eq_one_of_ofDigitChars hcanonical.1 hzero (by omega)]
        rfl
    · simp only [List.cons.injEq, hc, false_and, imp_self, implies_true] at h
      obtain ⟨-, hvalue⟩ := Option.ite_none_right_eq_some.1 h
      simp at hvalue

/-- A counter that starts from minus one is stored as such. -/
theorem lookup_versionKey_of_start? (h : ks.start? key = some (-1)) :
    ks.lookup (versionKey key) = some [.char '-', .char '1'] := by
  unfold start? at h
  cases hcounter : ks.lookup (versionKey key) with
  | none =>
    rw [hcounter] at h
    exact nomatch h
  | some data =>
    rw [hcounter] at h
    obtain ⟨hread, -⟩ := Option.filter_eq_some_iff.1 h
    rw [eq_of_readCounter?_neg_one hread]

/-- No version is expected that equals the counter, so only a record that is new is written. -/
theorem conditionalPut_of_start?_neg_one (h : ks.start? key = some (-1)) (data : List Symbol)
    (expected : Option Nat) :
    (ks.conditionalPut key data expected).2 = ks ∨ ks.lookup key = none := by
  cases hrecord : ks.lookup key with
  | none => exact .inr rfl
  | some record =>
    left
    unfold conditionalPut
    cases expected with
    | none => simp [hrecord]
    | some version =>
      have hscript : ks.scriptVersion? key =
          some (.finite true ⟨Binary64.leadingBit, -52⟩) := by
        rw [scriptVersion?, lookup_versionKey_of_start? h]
        decide
      -- The counter is negative, and no version that can be expected is.
      have hother : (ScriptNumber.finite true ⟨Binary64.leadingBit, -52⟩).same
          (ScriptNumber.ofInt version) = false := by
        rw [ScriptNumber.ofInt_natCast]
        cases Binary64.round version 1 with
        | none => rfl
        | some x => exact Bool.and_false _
      simp [hscript, hother]

end Keyspace

/-! ### Calls -/

namespace Shared

variable {key : String}

/-- A call that is about to write a record leaves the data as it is whenever it is answered with an
error or with a conflict. -/
structure FailsCleanly (s : Shared) (key : String) : Prop where
  put : ∀ value e, (s.put key value).result = .error e → (s.put key value).store.data = s.data
  putIf : ∀ value expected,
    (s.putIf key value expected).result = .ok .conflict ∨
      (∃ e, (s.putIf key value expected).result = .error e) →
    (s.putIf key value expected).store.data = s.data

/-- What is not run changes nothing. -/
theorem failsCleanly_of_refused {s : Shared} (h : s.link.script.1 = .refused) :
    s.FailsCleanly key where
  put value _ _ := by rw [(put_eq_invoke s key value).2, invoke_of_refused h]
  putIf value expected _ := by rw [(putIf_eq_invoke s key value expected).2, invoke_of_refused h]

/-- With a counter that is not spoilt, whatever is written is answered with its version. -/
theorem failsCleanly_of_not_spoilt {s : Shared} (hanswered : s.link.script.1 = .answered)
    (h : ¬ s.data.Spoilt key) : s.FailsCleanly key := by
  cases hstart : s.data.start? key with
  | none => exact absurd (.stuck hstart) h
  | some old =>
    have hold : -1 ≤ old := Int.not_lt.1 fun hlt => h (.negative hstart hlt)
    have hlimit : old + 1 < ScriptNumber.returnLimit :=
      Int.not_le.1 fun hle => h (.beyond hstart hle)
    have hsign := ScriptNumber.sign_toInt64_ofInt hlimit
    constructor
    · intro value e herror
      have hversion : ¬ (ScriptNumber.ofInt (old + 1)).toInt64 < 0 := by
        rw [← Int.sign_eq_neg_one_iff_neg, hsign, Int.sign_eq_neg_one_iff_neg]
        omega
      rw [(put_eq_invoke s key value).1, invoke_of_answered hanswered,
        Keyspace.versionedPut_of_start? hstart, versionResult, if_neg hversion] at herror
      cases herror
    · intro value expected hfailed
      obtain ⟨hresult, hstore⟩ := putIf_eq_invoke s key value expected
      rw [invoke_of_answered hanswered] at hresult hstore
      rw [hstore]
      rcases s.data.conditionalPut_cases key (Symbol.ofText value) expected with hsame | hput
      · exact hsame
      rcases Int.lt_or_eq_of_le hold with hpos | rfl
      · have hversion : 0 < (ScriptNumber.ofInt (old + 1)).toInt64 := by
          rw [← Int.sign_eq_one_iff_pos, hsign, Int.sign_eq_one_iff_pos]
          omega
        rw [hresult, hput, Keyspace.versionedPut_of_start? hstart, putResult,
          if_neg (Int.ne_of_gt hversion), if_pos hversion] at hfailed
        rcases hfailed with hconflict | ⟨e, herror⟩
        · cases hconflict
        · cases herror
      -- A counter below zero equals no version, and there is a record.
      · rcases Keyspace.conditionalPut_of_start?_neg_one hstart (Symbol.ofText value) expected with
          hsame | habsent
        · exact hsame
        · exact absurd (.unseen hstart habsent) h

/-- There is always another value to write. -/
theorem exists_other_value (record : Option (List Symbol)) :
    ∃ value, record ≠ some (Symbol.ofText value) := by
  by_cases h : record = some (Symbol.ofText "")
  · refine ⟨"a", fun ha => ?_⟩
    have heq := Symbol.ofText_inj.1 (Option.some.inj (h.symm.trans ha))
    exact absurd heq (by decide)
  · exact ⟨"", h⟩

/-- Some write changes the data of a record, so it is not clean to answer all writes with an
error. -/
theorem not_failsCleanly_of_put {s : Shared}
    (hrun : ∀ value, (s.put key value).store.data =
      (s.data.versionedPut key (Symbol.ofText value)).2)
    (herror : ∀ value, ∃ e, (s.put key value).result = .error e) : ¬ s.FailsCleanly key := by
  intro hclean
  obtain ⟨value, hvalue⟩ := exists_other_value (s.data.lookup key)
  obtain ⟨e, he⟩ := herror value
  have hdata := hclean.put value e he
  have hlookup := s.data.lookup_versionedPut_self key (Symbol.ofText value)
  rw [← hrun, hdata] at hlookup
  exact hvalue hlookup

/-- Nobody hears of what is written over a connection that breaks. -/
theorem not_failsCleanly_of_lost {s : Shared} (h : s.link.script.1 = .lost) :
    ¬ s.FailsCleanly key := by
  refine not_failsCleanly_of_put (fun value => ?_) fun value => ⟨writeError key, ?_⟩
  · rw [(put_eq_invoke s key value).2, invoke_of_lost h]
  · rw [(put_eq_invoke s key value).1, invoke_of_lost h]
    rfl

/-- What is no version is an error. -/
theorem exists_error_of_neg {version : Int} (h : version < 0) :
    ∃ e, versionResult key (some version) = .error e :=
  ⟨_, if_pos h⟩

/-- A counter that is raised to zero makes writing what is new a conflict. Writing in any case is
answered as it should be. -/
theorem not_failsCleanly_of_unseen {s : Shared} (hanswered : s.link.script.1 = .answered)
    (hstart : s.data.start? key = some (-1)) (habsent : s.data.lookup key = none) :
    ¬ s.FailsCleanly key := by
  intro hclean
  have hnew : s.data.conditionalPut key (Symbol.ofText "") none =
      s.data.versionedPut key (Symbol.ofText "") := by
    rw [Keyspace.conditionalPut, habsent]
    rfl
  obtain ⟨hconflict, hstore⟩ := putIf_eq_invoke s key "" none
  rw [invoke_of_answered hanswered, hnew] at hconflict hstore
  rw [Keyspace.versionedPut_of_start? hstart] at hconflict
  have hsame := hclean.putIf "" none (.inl hconflict)
  rw [hstore] at hsame
  have hlookup := s.data.lookup_versionedPut_self key (Symbol.ofText "")
  rw [show (s.data.versionedPut key (Symbol.ofText "")).2 = s.data from hsame, habsent] at hlookup
  exact nomatch hlookup

/-- A spoilt counter makes some write fail and leave its data. -/
theorem not_failsCleanly_of_spoilt {s : Shared} (hanswered : s.link.script.1 = .answered)
    (h : s.data.Spoilt key) : ¬ s.FailsCleanly key := by
  have hput : (∀ value, ∃ e, versionResult key
      (s.data.versionedPut key (Symbol.ofText value)).1 = .error e) → ¬ s.FailsCleanly key := by
    intro herror
    refine not_failsCleanly_of_put (fun value => ?_) fun value => ?_
    · rw [(put_eq_invoke s key value).2, invoke_of_answered hanswered]
    · rw [(put_eq_invoke s key value).1, invoke_of_answered hanswered]
      exact herror value
  cases h with
  | stuck hstart =>
    refine hput fun value => ⟨writeError key, ?_⟩
    rw [Keyspace.versionedPut_of_stuck hstart]
    rfl
  | @negative old hstart hold =>
    have hversion : (ScriptNumber.ofInt (old + 1)).toInt64 < 0 := by
      have hlimit : old + 1 < ScriptNumber.returnLimit := by
        unfold ScriptNumber.returnLimit
        omega
      rw [← Int.sign_eq_neg_one_iff_neg, ScriptNumber.sign_toInt64_ofInt hlimit,
        Int.sign_eq_neg_one_iff_neg]
      omega
    refine hput fun value => ?_
    rw [Keyspace.versionedPut_of_start? hstart]
    exact exists_error_of_neg hversion
  | beyond hstart hold =>
    refine hput fun value => ?_
    rw [Keyspace.versionedPut_of_start? hstart, ScriptNumber.toInt64_ofInt_of_le hold]
    exact exists_error_of_neg (by decide)
  | unseen hstart habsent => exact not_failsCleanly_of_unseen hanswered hstart habsent

/-- Writes of a record that fail leave the data as it is, whatever is written and expected, if and
only if the connection lets no script through, or lets answers through and the counter of the record
is not spoilt. -/
theorem fails_cleanly_iff (s : Shared) (key : String) :
    s.FailsCleanly key ↔
      s.link.script.1 = .refused ∨ s.link.script.1 = .answered ∧ ¬ s.data.Spoilt key := by
  constructor
  · intro hclean
    cases hdelivery : s.link.script.1 with
    | refused => exact .inl rfl
    | lost => exact absurd hclean (not_failsCleanly_of_lost hdelivery)
    | answered => exact .inr ⟨rfl, fun h => not_failsCleanly_of_spoilt hdelivery h hclean⟩
  · rintro (hrefused | ⟨hanswered, hspoilt⟩)
    · exact failsCleanly_of_refused hrefused
    · exact failsCleanly_of_not_spoilt hanswered hspoilt

/-- A write of an absent record, answered with a conflict, and one that is answered with an error.
Both records stay. -/
theorem failed_writes_leave_data :
    let counted : Shared := ⟨⟨[("game:a:version", Symbol.ofText "-1")]⟩, .up⟩
    let marred : Shared := ⟨⟨[("game:a:version", Symbol.ofText "x")]⟩, .up⟩
    ((counted.putIf "game:a" "m" none).result = .ok .conflict ∧
      (counted.putIf "game:a" "m" none).store.data =
        ⟨[("game:a:version", Symbol.ofText "0"), ("game:a", Symbol.ofText "m")]⟩ ∧
      (counted.putIf "game:a" "m" none).store.data ≠ counted.data) ∧
    ((marred.put "game:a" "m").result = .error (.backend "Failed to write game:a") ∧
      (marred.put "game:a" "m").store.data =
        ⟨[("game:a:version", Symbol.ofText "x"), ("game:a", Symbol.ofText "m")]⟩ ∧
      (marred.put "game:a" "m").store.data ≠ marred.data) := by
  refine ⟨⟨?_, ?_, ?_⟩, ?_, ?_, ?_⟩
  · rfl
  · decide
  · decide
  · rfl
  · decide
  · decide

end Shared

/-- Where the service alone writes, no counter is spoilt. -/
theorem Represents.not_spoilt {K : Set String} {m : Memory} {ks : Keyspace} {key : String}
    (h : Represents K m ks) (hkey : key ∈ K)
    (hlimit : (versionOf (m.lookup key) : Int) + 1 < ScriptNumber.returnLimit) :
    ¬ ks.Spoilt key := by
  have hmax : (versionOf (m.lookup key) : Int) < int64Max := by
    have hreturn : ScriptNumber.returnLimit ≤ int64Max := by decide
    omega
  have hstart : ks.start? key = some (versionOf (m.lookup key) : Int) := by
    rw [Keyspace.start?, h.counter key hkey, counterOf]
    by_cases hzero : versionOf (m.lookup key) = 0
    · rw [if_pos hzero, hzero]
      rfl
    · rw [if_neg hzero]
      dsimp only
      rw [Keyspace.readCounter?_counterData (Int.le_of_lt hmax), Option.filter_some,
        if_pos (decide_eq_true (Int.ne_of_lt hmax))]
  intro hspoilt
  -- the counter starts from the version, which is none of the ways to be spoilt
  cases hspoilt with
  | stuck hstuck => exact nomatch hstart.symm.trans hstuck
  | negative hnegative hold =>
    have hsame := Option.some.inj (hstart.symm.trans hnegative)
    omega
  | unseen hunseen _ =>
    have hsame := Option.some.inj (hstart.symm.trans hunseen)
    omega
  | beyond hbeyond hold =>
    obtain rfl := Option.some.inj (hstart.symm.trans hbeyond)
    omega

end VoiceRoom
