import Mathlib.Data.Set.Defs
import VoiceRoom.Proofs.Store
import VoiceRoom.Proofs.Store.Frame
import VoiceRoom.Simulation.Store

/-!
# The shared store stands for the store in memory

A keyspace represents a store in memory if each record is under its own key and its version in the
counter beside it, a version of zero being no counter at all (`Represents`). As long as no record
has the key of another's counter and versions stay below `Binary64.exactLimit`, each call is
answered alike by both and keeps the one a representation of the other (`perform_shared`), and so
does every sequence of calls (`shared_refines_memory`).
-/

namespace VoiceRoom

open Binary64 (exactLimit)

/-! ### Calls -/

/-- A use of a store. -/
inductive StoreCall where
  | get (key : String)
  | put (key value : String)
  | putIf (key value : String) (expected : Option Nat)
deriving DecidableEq, Repr

/-- What a store answers. -/
inductive StoreAnswer where
  | record (r : Except StoreError (Option Versioned))
  | version (r : Except StoreError Nat)
  | outcome (r : Except StoreError PutOutcome)

/-- Whether something was written. -/
def StoreAnswer.wrote : StoreAnswer → Bool
  | version (.ok _) => true
  | outcome (.ok (.written _)) => true
  | _ => false

namespace StoreCall

def key : StoreCall → String
  | get key => key
  | put key _ => key
  | putIf key _ _ => key

/-- Uses a store. -/
def perform (c : StoreCall) (s : Simulation.Store) : StoreAnswer × Simulation.Store :=
  match c with
  | get key => (.record (s.get key).result, (s.get key).store)
  | put key value => (.version (s.put key value).result, (s.put key value).store)
  | putIf key value expected =>
    (.outcome (s.putIf key value expected).result, (s.putIf key value expected).store)

/-- Uses a store several times. -/
def performAll : List StoreCall → Simulation.Store → List StoreAnswer × Simulation.Store
  | [], s => ([], s)
  | c :: cs, s =>
    let (answer, s) := c.perform s
    let (answers, s) := performAll cs s
    (answer :: answers, s)

theorem performAll_cons (c : StoreCall) (cs : List StoreCall) (s : Simulation.Store) :
    performAll (c :: cs) s =
      ((c.perform s).1 :: (performAll cs (c.perform s).2).1, (performAll cs (c.perform s).2).2) :=
  rfl

end StoreCall

/-! ### Versions and counters -/

/-- No record has the key of another's counter. -/
def Apart (K : Set String) : Prop :=
  ∀ k ∈ K, ∀ k' ∈ K, k' ≠ versionKey k

/-- The version of a record, zero if there is none. -/
def versionOf (record : Option Versioned) : Nat :=
  record.elim 0 Versioned.version

theorem Memory.nextVersion_eq (m : Memory) (k : String) :
    m.nextVersion k = versionOf (m.lookup k) + 1 := rfl

/-- The counter that stands for the version of a record. -/
def counterOf (record : Option Versioned) : Option (List Symbol) :=
  if versionOf record = 0 then none else some (Keyspace.counterData (versionOf record))

/-- The counter of a record is read as its version. -/
theorem readVersion?_counterOf {record : Option Versioned} (h : versionOf record < exactLimit) :
    Shared.readVersion? (counterOf record) = some (versionOf record) := by
  unfold counterOf
  split
  · rename_i hzero
    rw [hzero]
    rfl
  · have hlimit : exactLimit ≤ wordMax := by decide
    exact Shared.readVersion?_counterData (by omega)

variable {K : Set String} {m : Memory} {ks : Keyspace} {k value : String}

/-- A keyspace holds the records of a store in memory, and their versions in counters. -/
structure Represents (K : Set String) (m : Memory) (ks : Keyspace) : Prop where
  value : ∀ k ∈ K, ks.lookup k = (m.lookup k).map fun v => Symbol.ofText v.value
  counter : ∀ k ∈ K, ks.lookup (versionKey k) = counterOf (m.lookup k)

namespace Represents

/-- The script reads the version of the record. -/
theorem scriptVersion?_eq (h : Represents K m ks) (hk : k ∈ K) :
    ks.scriptVersion? k = some (ScriptNumber.ofInt (versionOf (m.lookup k))) := by
  unfold Keyspace.scriptVersion?
  rw [h.counter k hk]
  unfold counterOf
  split
  · rename_i hnone
    split at hnone
    · rename_i hzero
      rw [hzero]
      rfl
    · exact nomatch hnone
  · rename_i data hsome
    split at hsome
    · exact nomatch hsome
    · obtain rfl := Option.some.inj hsome
      exact ScriptNumber.read?_counterData _

/-- A record that is written is represented. -/
theorem set (hK : Apart K) (h : Represents K m ks) (hk : k ∈ K) (value : String) :
    Represents K (m.insert k ⟨value, m.nextVersion k⟩)
      ((ks.set k (Symbol.ofText value)).set (versionKey k)
        (Keyspace.counterData (m.nextVersion k))) := by
  constructor
  · intro k' hk'
    rw [Keyspace.lookup_set, if_neg (hK k hk k' hk'), Keyspace.lookup_set, Memory.lookup_insert]
    split
    · rfl
    · exact h.value k' hk'
  · intro k' hk'
    rw [Keyspace.lookup_set, Memory.lookup_insert]
    by_cases hsame : k' = k
    · subst hsame
      rw [if_pos rfl, if_pos rfl]
      rfl
    · rw [if_neg (mt versionKey_inj.1 hsame), if_neg hsame, Keyspace.lookup_set,
        if_neg (hK k' hk' k hk).symm]
      exact h.counter k' hk'

/-- The script that writes in any case raises the counter by one. -/
theorem versionedPut_eq (h : Represents K m ks) (hk : k ∈ K) (hlimit : m.nextVersion k < exactLimit)
    (data : List Symbol) :
    ks.versionedPut k data = (some (m.nextVersion k : Int),
      (ks.set k data).set (versionKey k) (Keyspace.counterData (m.nextVersion k))) := by
  have hcounter : (ks.set k data).lookup (versionKey k) = counterOf (m.lookup k) := by
    rw [Keyspace.lookup_set, if_neg (versionKey_ne_self k), h.counter k hk]
  have hmax : (exactLimit : Int) ≤ int64Max := by decide
  rw [Memory.nextVersion_eq] at hlimit ⊢
  have hincrement : (ks.set k data).increment (versionKey k) =
      (some ((versionOf (m.lookup k) : Int) + 1), (ks.set k data).set (versionKey k)
        (Keyspace.counterData ((versionOf (m.lookup k) : Int) + 1))) := by
    unfold Keyspace.increment
    rw [hcounter]
    unfold counterOf
    -- a record without a counter is counted from zero
    by_cases hzero : versionOf (m.lookup k) = 0
    · rw [if_pos hzero, hzero]
      rfl
    · rw [if_neg hzero]
      dsimp only
      rw [Keyspace.readCounter?_counterData (by omega)]
      dsimp only
      rw [if_neg (by omega)]
  unfold Keyspace.versionedPut
  rw [hincrement]
  dsimp only
  rw [Option.map_some, ← Int.natCast_succ, ScriptNumber.toInt64_ofInt hlimit]

/-- A record and its version are read together. -/
theorem fetch?_eq (h : Represents K m ks) (hk : k ∈ K) (hlimit : versionOf (m.lookup k) < exactLimit) :
    Shared.fetch? ks k = some (m.lookup k) := by
  unfold Shared.fetch?
  rw [h.counter k hk, readVersion?_counterOf hlimit, h.value k hk]
  cases m.lookup k with
  | none => rfl
  | some v =>
    dsimp only [bind, Option.bind, Option.map_some]
    rw [Symbol.text?_ofText]
    rfl

/-- The script that compares versions finds the version that is expected, or another one. -/
theorem conditionalPut_eq (h : Represents K m ks) (hk : k ∈ K)
    (hlimit : versionOf (m.lookup k) < exactLimit) (data : List Symbol) (expected : Option Nat) :
    ks.conditionalPut k data expected =
      if (m.lookup k).map Versioned.version = expected then ks.versionedPut k data
      else (some 0, ks) := by
  unfold Keyspace.conditionalPut
  -- A new record is asked for, or a version, which is compared as a double.
  cases expected with
  | none =>
    dsimp only
    rw [h.value k hk, Option.isSome_map]
    cases m.lookup k with
    | none => rfl
    | some v => rfl
  | some version =>
    dsimp only
    rw [h.scriptVersion?_eq hk, h.value k hk, Option.isNone_map]
    cases hlookup : m.lookup k with
    | none => rfl
    | some v =>
      rw [hlookup] at hlimit
      have hsame := ScriptNumber.same_ofInt_iff (n := v.version) (m := version) hlimit
      dsimp only [versionOf, Option.elim_some, Option.isNone_some, Option.map_some]
      by_cases hversion : v.version = version
      · subst hversion
        rw [hsame.2 rfl, if_pos rfl]
        rfl
      · rw [Bool.eq_false_iff.2 (mt hsame.1 hversion), if_neg (mt Option.some.inj hversion)]
        rfl

end Represents

/-! ### Single calls -/

/-- A keyspace represents a store in memory that answers and was written a number of times. -/
structure Simulates (K : Set String) (writes : Nat) (m : Memory) (ks : Keyspace) : Prop where
  represents : Represents K m ks
  available : m.available = true
  versions : ∀ k ∈ K, versionOf (m.lookup k) ≤ writes

namespace Simulates

variable {writes : Nat}

/-- A write in memory is a write of the record and its counter. -/
theorem write (hK : Apart K) (h : Simulates K writes m ks) (hk : k ∈ K) (value : String) :
    Simulates K (writes + 1) (m.insert k ⟨value, m.nextVersion k⟩)
      ((ks.set k (Symbol.ofText value)).set (versionKey k)
        (Keyspace.counterData (m.nextVersion k))) where
  represents := h.represents.set hK hk value
  available := h.available
  versions k' hk' := by
    rw [Memory.lookup_insert]
    split
    · exact Nat.succ_le_succ (h.versions k hk)
    · exact Nat.le_succ_of_le (h.versions k' hk')

theorem get (h : Simulates K writes m ks) (hk : k ∈ K) (hlimit : writes < exactLimit) :
    Shared.get ⟨ks, .up⟩ k = ⟨m.get k, ⟨ks, .up⟩, []⟩ := by
  have hfetch := h.represents.fetch?_eq hk (Nat.lt_of_le_of_lt (h.versions k hk) hlimit)
  rw [Shared.get_of_fetch? hfetch, Memory.get_of_lookup h.available rfl]

/-- A put is answered alike, and the stores go on alike. -/
theorem put (hK : Apart K) (h : Simulates K writes m ks) (hk : k ∈ K)
    (hlimit : writes + 1 < exactLimit) (value : String) :
    ∃ ks', Shared.put ⟨ks, .up⟩ k value = ⟨(m.put k value).1, ⟨ks', .up⟩, []⟩ ∧
      Simulates K (writes + 1) (m.put k value).2 ks' := by
  have hnext : m.nextVersion k < exactLimit :=
    Nat.lt_of_le_of_lt (Nat.succ_le_succ (h.versions k hk)) hlimit
  have hput : m.put k value = (.ok (m.nextVersion k), m.insert k ⟨value, m.nextVersion k⟩) := by
    unfold Memory.put
    rw [if_pos h.available]
  rw [hput]
  refine ⟨_, ?_, h.write hK hk value⟩
  unfold Shared.put
  rw [Shared.invoke_of_answered rfl, h.represents.versionedPut_eq hk hnext]
  dsimp only
  rw [if_neg (by omega), Int.toNat_natCast]
  rfl

theorem putIf (hK : Apart K) (h : Simulates K writes m ks) (hk : k ∈ K) (value : String)
    (expected : Option Nat)
    (hlimit : writes + (if (StoreAnswer.outcome (m.putIf k value expected).1).wrote then 1 else 0) <
      exactLimit) :
    ∃ ks', (Shared.putIf ⟨ks, .up⟩ k value expected).result = (m.putIf k value expected).1 ∧
      (Shared.putIf ⟨ks, .up⟩ k value expected).store = ⟨ks', .up⟩ ∧
      Simulates K
        (writes + if (StoreAnswer.outcome (m.putIf k value expected).1).wrote then 1 else 0)
        (m.putIf k value expected).2 ks' := by
  have hversion : versionOf (m.lookup k) < exactLimit :=
    Nat.lt_of_le_of_lt (h.versions k hk) (by omega)
  have hput := h.represents.conditionalPut_eq hk hversion (Symbol.ofText value) expected
  obtain ⟨hresult, hstore⟩ := Shared.putIf_eq ks k value expected
  rw [hresult, hstore, hput]
  -- The condition holds in both stores or in neither.
  by_cases hexpected : (m.lookup k).map Versioned.version = expected
  · rw [Memory.putIf_of_version value h.available hexpected] at hlimit ⊢
    have hnext : m.nextVersion k < exactLimit :=
      Nat.lt_of_le_of_lt (Nat.succ_le_succ (h.versions k hk)) hlimit
    have hpos : (m.nextVersion k : Int) ≠ 0 := by
      rw [Memory.nextVersion_eq]
      omega
    rw [if_pos hexpected, h.represents.versionedPut_eq hk hnext]
    refine ⟨_, ?_, rfl, h.write hK hk value⟩
    unfold Shared.putResult
    dsimp only
    rw [if_neg hpos, if_pos (by omega), Int.toNat_natCast]
  · have hconflict : m.putIf k value expected = (.ok .conflict, m) := by
      unfold Memory.putIf
      rw [if_pos h.available, if_neg hexpected]
    rw [if_neg hexpected, hconflict]
    exact ⟨ks, rfl, rfl, h⟩

end Simulates

/-- Each call is answered alike by both stores, and the one goes on to represent the other. -/
theorem perform_shared (hK : Apart K) {writes : Nat} (h : Simulates K writes m ks) {c : StoreCall}
    (hk : c.key ∈ K)
    (hlimit : writes + (if (c.perform (.memory m)).1.wrote then 1 else 0) < exactLimit) :
    ∃ m' ks', (c.perform (.memory m)).2 = .memory m' ∧
      c.perform (.shared ⟨ks, .up⟩) = ((c.perform (.memory m)).1, .shared ⟨ks', .up⟩) ∧
      Simulates K (writes + if (c.perform (.memory m)).1.wrote then 1 else 0) m' ks' := by
  -- Each kind of call has its own lemma; what is left is to unfold the adapter.
  cases c with
  | get key =>
    have hget : Shared.get ⟨ks, .up⟩ key = _ := h.get hk hlimit
    refine ⟨m, ks, rfl, ?_, h⟩
    unfold StoreCall.perform Simulation.Store.get Simulation.Store.ofShared
    dsimp only
    rw [hget]
    rfl
  | put key value =>
    have hwrote : ((StoreCall.put key value).perform (.memory m)).1.wrote = true := by
      show (StoreAnswer.version (m.put key value).1).wrote = true
      unfold Memory.put
      rw [if_pos h.available]
      rfl
    rw [hwrote, if_pos rfl] at hlimit ⊢
    obtain ⟨ks', hput, h'⟩ := h.put hK (k := key) hk hlimit value
    refine ⟨_, ks', rfl, ?_, h'⟩
    unfold StoreCall.perform Simulation.Store.put Simulation.Store.ofShared
    dsimp only
    rw [hput]
    rfl
  | putIf key value expected =>
    obtain ⟨ks', hresult, hstore, h'⟩ := h.putIf hK (k := key) hk value expected hlimit
    refine ⟨_, ks', rfl, ?_, h'⟩
    unfold StoreCall.perform Simulation.Store.putIf Simulation.Store.ofShared
    dsimp only
    rw [hresult, hstore]
    rfl

/-! ### Sequences of calls -/

/-- Calls one after the other are answered alike as long as the versions are exact, by induction on
the calls with the number of writes so far. -/
theorem performAll_shared (hK : Apart K) {cs : List StoreCall} :
    ∀ {writes : Nat} {m : Memory} {ks : Keyspace}, Simulates K writes m ks →
      (∀ c ∈ cs, c.key ∈ K) →
      writes + (StoreCall.performAll cs (.memory m)).1.countP StoreAnswer.wrote < exactLimit →
      ∃ m' ks', (StoreCall.performAll cs (.memory m)).2 = .memory m' ∧
        StoreCall.performAll cs (.shared ⟨ks, .up⟩) =
          ((StoreCall.performAll cs (.memory m)).1, .shared ⟨ks', .up⟩) ∧
        Represents K m' ks' := by
  induction cs with
  | nil => exact fun h _ _ => ⟨_, _, rfl, rfl, h.represents⟩
  | cons c cs ih =>
    intro writes m ks h hcs hlimit
    rw [StoreCall.performAll_cons, List.countP_cons] at hlimit
    obtain ⟨m₁, ks₁, hmemory, hshared, h₁⟩ :=
      perform_shared hK h (hcs c List.mem_cons_self) (by omega)
    rw [hmemory] at hlimit
    obtain ⟨m', ks', hmemory', hshared', h'⟩ :=
      ih h₁ (fun c' hc' => hcs c' (List.mem_cons_of_mem c hc')) (by omega)
    refine ⟨m', ks', ?_, ?_, h'⟩
    · rw [StoreCall.performAll_cons, hmemory]
      exact hmemory'
    · rw [StoreCall.performAll_cons, StoreCall.performAll_cons, hshared, hmemory]
      dsimp only
      rw [hshared']

/-- A keyspace from before there were versions. Its records are texts without counters, and stand
for records of version zero. -/
structure Unversioned (K : Set String) (m : Memory) (ks : Keyspace) : Prop where
  available : m.available = true
  counter : ∀ k ∈ K, ks.lookup (versionKey k) = none
  text : ∀ k ∈ K, ∃ text : Option String,
    ks.lookup k = text.map Symbol.ofText ∧ m.lookup k = text.map fun value => ⟨value, 0⟩

/-- Records without counters are those of version zero. -/
theorem Unversioned.simulates (h : Unversioned K m ks) : Simulates K 0 m ks where
  available := h.available
  versions k hk := by
    obtain ⟨text, -, hlookup⟩ := h.text k hk
    rw [hlookup]
    cases text <;> exact Nat.le_refl 0
  represents := by
    constructor
    · intro k hk
      obtain ⟨text, hdata, hlookup⟩ := h.text k hk
      rw [hdata, hlookup, Option.map_map]
      rfl
    · intro k hk
      obtain ⟨text, -, hlookup⟩ := h.text k hk
      rw [h.counter k hk, hlookup]
      cases text <;> rfl

/-- The shared store answers every sequence of calls as the store in memory does, and represents it
afterwards. -/
theorem shared_refines_memory (hK : Apart K) (h : Unversioned K m ks) {cs : List StoreCall}
    (hcs : ∀ c ∈ cs, c.key ∈ K)
    (hwrites : (StoreCall.performAll cs (.memory m)).1.countP StoreAnswer.wrote < 2 ^ 53) :
    ∃ m' ks', (StoreCall.performAll cs (.memory m)).2 = .memory m' ∧
      StoreCall.performAll cs (.shared ⟨ks, .up⟩) =
        ((StoreCall.performAll cs (.memory m)).1, .shared ⟨ks', .up⟩) ∧
      Represents K m' ks' := by
  refine performAll_shared hK h.simulates hcs ?_
  rw [Nat.zero_add]
  exact hwrites

/-! A bare meeting id is replaced, once, and another key is written for the first time. -/

def legacyKeys : List String := ["game:a", "game:b"]

def legacyKeyspace : Keyspace := ⟨[("game:a", Symbol.ofText "m")]⟩

def legacyMemory : Memory := ⟨[("game:a", ⟨"m", 0⟩)], true⟩

def legacyCalls : List StoreCall :=
  [.get "game:a", .putIf "game:a" "x" (some 0), .putIf "game:a" "y" (some 0),
    .putIf "game:b" "x" (some 0), .put "game:b" "y", .get "game:a"]

/-- Calls to records that were written before there were counters. -/
theorem shared_refines_memory_legacyCalls :
    (StoreCall.performAll legacyCalls (.memory legacyMemory)).1.countP
        StoreAnswer.wrote = 2 ∧
      ∃ m' ks', StoreCall.performAll legacyCalls (.shared ⟨legacyKeyspace, .up⟩) =
          ((StoreCall.performAll legacyCalls (.memory legacyMemory)).1,
            .shared ⟨ks', .up⟩) ∧
        Represents {k | k ∈ legacyKeys} m' ks' := by
  have hwrites : (StoreCall.performAll legacyCalls (.memory legacyMemory)).1.countP
      StoreAnswer.wrote = 2 := by decide
  have hapart : ∀ k ∈ legacyKeys, ∀ k' ∈ legacyKeys, k' ≠ versionKey k := by decide
  have hcounter : ∀ k ∈ legacyKeys, legacyKeyspace.lookup (versionKey k) = none := by decide
  have hcs : ∀ c ∈ legacyCalls, c.key ∈ legacyKeys := by decide
  -- One of the records is there and the other one is not, and neither has a counter.
  have hlegacy : Unversioned {k | k ∈ legacyKeys} legacyMemory legacyKeyspace :=
    { available := rfl
      counter := hcounter
      text := by
        intro k hk
        rcases List.mem_cons.1 hk with rfl | hk
        · exact ⟨some "m", by decide, by decide⟩
        · obtain rfl := List.mem_singleton.1 hk
          exact ⟨none, by decide, by decide⟩ }
  obtain ⟨m', ks', -, hshared, hrepresents⟩ :=
    shared_refines_memory hapart hlegacy hcs (by rw [hwrites]; decide)
  exact ⟨hwrites, m', ks', hshared, hrepresents⟩

end VoiceRoom
