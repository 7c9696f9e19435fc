import Mathlib.Data.Set.Defs
import VoiceRoom.Proofs.Store.Counter

/-!
# What a call of the shared store depends on

A call that is about a record reads the record and its counter and changes nothing but these. So
two keyspaces that hold the same there answer alike, and where else they agree they still do
(`Shared.get_congr`, `Shared.putIf_congr`).
-/

namespace VoiceRoom

namespace Keyspace

variable {ks ks₀ : Keyspace} {key k : String} {data : List Symbol} {expected : Option Nat}

/-- Two keyspaces hold the same under a key and under the key of its counter. -/
def SameRecord (ks ks₀ : Keyspace) (key : String) : Prop :=
  ks.lookup key = ks₀.lookup key ∧ ks.lookup (versionKey key) = ks₀.lookup (versionKey key)

theorem lookup_set_congr (h : ks.lookup k = ks₀.lookup k) :
    (ks.set key data).lookup k = (ks₀.set key data).lookup k := by
  rw [lookup_set, lookup_set, h]

/-! ### Counters -/

/-- Counting depends on the counter only. -/
theorem increment_congr (h : ks.lookup key = ks₀.lookup key) :
    (ks.increment key).1 = (ks₀.increment key).1 ∧
      ∀ k, ks.lookup k = ks₀.lookup k →
        (ks.increment key).2.lookup k = (ks₀.increment key).2.lookup k := by
  unfold increment
  rw [h]
  dsimp only
  split
  · exact ⟨rfl, fun _ hk => hk⟩
  · split
    · exact ⟨rfl, fun _ hk => hk⟩
    · exact ⟨rfl, fun _ hk => lookup_set_congr hk⟩

/-- Counting leaves the other keys alone. -/
theorem lookup_increment_of_ne (h : k ≠ key) : (ks.increment key).2.lookup k = ks.lookup k := by
  unfold increment
  dsimp only
  split
  · rfl
  · split
    · rfl
    · rw [lookup_set, if_neg h]

/-! ### Scripts -/

/-- A put depends on the counter only. -/
theorem versionedPut_congr (h : ks.lookup (versionKey key) = ks₀.lookup (versionKey key))
    (data : List Symbol) :
    (ks.versionedPut key data).1 = (ks₀.versionedPut key data).1 ∧
      ∀ k, ks.lookup k = ks₀.lookup k →
        (ks.versionedPut key data).2.lookup k = (ks₀.versionedPut key data).2.lookup k := by
  have hset : ∀ k, ks.lookup k = ks₀.lookup k →
      (ks.set key data).lookup k = (ks₀.set key data).lookup k := fun _ => lookup_set_congr
  obtain ⟨hversion, hlookup⟩ := increment_congr (hset _ h)
  refine ⟨?_, fun k hk => hlookup k (hset k hk)⟩
  exact congrArg (Option.map fun v => (ScriptNumber.ofInt v).toInt64) hversion

/-- The script that compares versions changes nothing, or does what the other one does. -/
theorem conditionalPut_cases (ks : Keyspace) (key : String) (data : List Symbol)
    (expected : Option Nat) :
    (ks.conditionalPut key data expected).2 = ks ∨
      ks.conditionalPut key data expected = ks.versionedPut key data := by
  unfold conditionalPut
  cases expected with
  | none =>
    dsimp only
    split
    · exact .inl rfl
    · exact .inr rfl
  | some version =>
    dsimp only
    split
    · exact .inl rfl
    · split
      · exact .inl rfl
      · exact .inr rfl

/-- A conditional put depends on the record and its counter only. -/
theorem conditionalPut_congr (h : ks.SameRecord ks₀ key) :
    (ks.conditionalPut key data expected).1 = (ks₀.conditionalPut key data expected).1 ∧
      ∀ k, ks.lookup k = ks₀.lookup k →
        (ks.conditionalPut key data expected).2.lookup k =
          (ks₀.conditionalPut key data expected).2.lookup k := by
  have hput := versionedPut_congr h.2 data
  unfold conditionalPut scriptVersion?
  rw [h.1, h.2]
  -- Both scripts take the same branch, as they read the same.
  cases expected with
  | none =>
    dsimp only
    split
    · exact ⟨rfl, fun _ hk => hk⟩
    · exact hput
  | some version =>
    dsimp only
    split
    · exact ⟨rfl, fun _ hk => hk⟩
    · split
      · exact ⟨rfl, fun _ hk => hk⟩
      · exact hput

/-- A conditional put leaves the other keys alone. -/
theorem lookup_conditionalPut_of_ne (hkey : k ≠ key) (hversion : k ≠ versionKey key) :
    (ks.conditionalPut key data expected).2.lookup k = ks.lookup k := by
  rcases conditionalPut_cases ks key data expected with h | h
  · rw [h]
  · rw [h]
    exact (lookup_increment_of_ne hversion).trans (by rw [lookup_set, if_neg hkey])

/-- A conditional put leaves its record as it is or replaces it. -/
theorem lookup_conditionalPut_self (ks : Keyspace) (key : String) (data : List Symbol)
    (expected : Option Nat) :
    (ks.conditionalPut key data expected).2.lookup key = ks.lookup key ∨
      (ks.conditionalPut key data expected).2.lookup key = some data := by
  rcases conditionalPut_cases ks key data expected with h | h
  · exact .inl (by rw [h])
  · right
    rw [h]
    exact (lookup_increment_of_ne (versionKey_ne_self key).symm).trans
      (by rw [lookup_set, if_pos rfl])

/-- The data after the first write of a record. -/
def first (ks : Keyspace) (key : String) (data : List Symbol) : Keyspace :=
  (ks.set key data).set (versionKey key) (counterData 1)

/-- A first put leaves the other keys alone. -/
theorem lookup_first_of_ne (hkey : k ≠ key) (hversion : k ≠ versionKey key) :
    (ks.first key data).lookup k = ks.lookup k := by
  rw [first, lookup_set, if_neg hversion, lookup_set, if_neg hkey]

/-- A first put writes version one. -/
theorem conditionalPut_first (hkey : ks.lookup key = none)
    (hversion : ks.lookup (versionKey key) = none) (data : List Symbol) :
    ks.conditionalPut key data none = (some 1, ks.first key data) := by
  have hcounter : (ks.set key data).lookup (versionKey key) = none := by
    rw [lookup_set, if_neg (versionKey_ne_self key), hversion]
  unfold conditionalPut versionedPut increment
  dsimp only
  rw [hkey, hcounter]
  rfl

end Keyspace

/-! ### Calls -/

namespace Shared

open Keyspace (SameRecord)

variable {ks ks₀ : Keyspace} {key k value : String} {expected : Option Nat}

/-- What the service makes of the answer of the script that writes in any case. -/
def versionResult (key : String) : Option Int → Except StoreError Nat
  | none => .error (writeError key)
  | some version =>
    if version < 0 then
      .error (.protocol ("negative version " ++ version.repr ++ " for " ++ key))
    else .ok version.toNat

/-- What the service makes of the answer of the script that compares versions. -/
def putResult (key : String) : Option Int → Except StoreError PutOutcome
  | none => .error (writeError key)
  | some result =>
    if result = 0 then .ok .conflict
    else if 0 < result then .ok (.written result.toNat)
    else .error (.protocol ("invalid version for " ++ key))

/-- A write in any case is what its script comes to. -/
theorem put_eq_invoke (s : Shared) (key value : String) :
    (s.put key value).result =
        versionResult key (s.invoke fun ks => ks.versionedPut key (Symbol.ofText value)).1 ∧
      (s.put key value).store =
        (s.invoke fun ks => ks.versionedPut key (Symbol.ofText value)).2 := by
  unfold Shared.put versionResult
  rcases s.invoke _ with ⟨_ | version, s'⟩ <;> exact ⟨rfl, rfl⟩

/-- A write over an expected version is what its script comes to. -/
theorem putIf_eq_invoke (s : Shared) (key value : String) (expected : Option Nat) :
    (s.putIf key value expected).result =
        putResult key
          (s.invoke fun ks => ks.conditionalPut key (Symbol.ofText value) expected).1 ∧
      (s.putIf key value expected).store =
        (s.invoke fun ks => ks.conditionalPut key (Symbol.ofText value) expected).2 := by
  unfold Shared.putIf putResult
  rcases s.invoke _ with ⟨_ | result, s'⟩
  · exact ⟨rfl, rfl⟩
  · dsimp only
    split
    · exact ⟨rfl, rfl⟩
    · split <;> exact ⟨rfl, rfl⟩

/-- Over a connection that is up a put answers what its script says. -/
theorem putIf_eq (ks : Keyspace) (key value : String) (expected : Option Nat) :
    (Shared.putIf ⟨ks, .up⟩ key value expected).result =
        putResult key (ks.conditionalPut key (Symbol.ofText value) expected).1 ∧
      (Shared.putIf ⟨ks, .up⟩ key value expected).store =
        ⟨(ks.conditionalPut key (Symbol.ofText value) expected).2, .up⟩ :=
  putIf_eq_invoke ⟨ks, .up⟩ key value expected

/-- Over a connection that is up a get answers what was fetched. -/
theorem get_of_fetch? {record : Option Versioned} (h : fetch? ks key = some record) :
    Shared.get ⟨ks, .up⟩ key = ⟨.ok record, ⟨ks, .up⟩, []⟩ := by
  unfold Shared.get Link.command
  dsimp only
  rw [if_pos rfl, h]

/-- Over a connection that is up a get changes nothing. -/
theorem get_store (ks : Keyspace) (key : String) :
    (Shared.get ⟨ks, .up⟩ key).store = ⟨ks, .up⟩ := by
  unfold Shared.get Link.command
  dsimp only
  split <;> rfl

/-- A get depends on the record and its counter only. -/
theorem get_congr (h : ks.SameRecord ks₀ key) :
    (Shared.get ⟨ks, .up⟩ key).result = (Shared.get ⟨ks₀, .up⟩ key).result := by
  have hfetch : fetch? ks key = fetch? ks₀ key := by
    unfold fetch?
    rw [h.1, h.2]
  unfold Shared.get Link.command
  dsimp only
  rw [hfetch]
  split <;> rfl

/-- A put depends on the record and its counter only, and so does what it leaves. -/
theorem putIf_congr (h : ks.SameRecord ks₀ key) :
    (Shared.putIf ⟨ks, .up⟩ key value expected).result =
        (Shared.putIf ⟨ks₀, .up⟩ key value expected).result ∧
      ∀ k, ks.lookup k = ks₀.lookup k →
        (Shared.putIf ⟨ks, .up⟩ key value expected).store.data.lookup k =
          (Shared.putIf ⟨ks₀, .up⟩ key value expected).store.data.lookup k := by
  obtain ⟨hresult, hlookup⟩ := Keyspace.conditionalPut_congr h
  rw [(putIf_eq ks key value expected).1, (putIf_eq ks₀ key value expected).1,
    (putIf_eq ks key value expected).2, (putIf_eq ks₀ key value expected).2, hresult]
  exact ⟨rfl, hlookup⟩

/-- A record that is read is there. -/
theorem fetch?_of_get {record : Option Versioned}
    (h : (Shared.get ⟨ks, .up⟩ key).result = .ok record) : fetch? ks key = some record := by
  unfold Shared.get Link.command at h
  dsimp only at h
  rw [if_pos rfl] at h
  split at h
  · rename_i record' hrecord
    rw [hrecord, Except.ok.inj h]
  · exact nomatch h

/-- What is read of a text is the text. -/
theorem value_of_get {v : Versioned} (hlookup : ks.lookup key = some (Symbol.ofText value))
    (h : (Shared.get ⟨ks, .up⟩ key).result = .ok (some v)) : v.value = value := by
  have hfetch := fetch?_of_get h
  unfold fetch? at hfetch
  rw [hlookup] at hfetch
  dsimp only at hfetch
  rw [Symbol.text?_ofText] at hfetch
  obtain ⟨version, -, hv⟩ := Option.bind_eq_some_iff.1 hfetch
  rw [← Option.some.inj (Option.some.inj hv)]

/-- What is got is there. -/
theorem lookup_ne_none_of_get {v : Versioned}
    (h : (Shared.get ⟨ks, .up⟩ key).result = .ok (some v)) : ks.lookup key ≠ none := by
  intro hlookup
  have hfetch := fetch?_of_get h
  unfold fetch? at hfetch
  rw [hlookup] at hfetch
  obtain ⟨version, -, hv⟩ := Option.bind_eq_some_iff.1 hfetch
  exact nomatch hv

/-- Where there is neither a record nor a counter nothing is got. -/
theorem get_of_lookup_eq_none (hlookup : ks.lookup key = none)
    (hversion : ks.lookup (versionKey key) = none) :
    (Shared.get ⟨ks, .up⟩ key).result = .ok none := by
  have hfetch : fetch? ks key = some none := by
    unfold fetch?
    rw [hlookup, hversion]
    rfl
  rw [get_of_fetch? hfetch]

/-- A first put is answered with version one. -/
theorem putIf_first (hkey : ks.lookup key = none) (hversion : ks.lookup (versionKey key) = none)
    (value : String) :
    (Shared.putIf ⟨ks, .up⟩ key value none).result = .ok (.written 1) ∧
      (Shared.putIf ⟨ks, .up⟩ key value none).store =
        ⟨ks.first key (Symbol.ofText value), .up⟩ := by
  obtain ⟨hresult, hstore⟩ := putIf_eq ks key value none
  rw [hresult, hstore, Keyspace.conditionalPut_first hkey hversion]
  exact ⟨rfl, rfl⟩

end Shared

end VoiceRoom
