import VoiceRoom.Proofs.Store.FailedWrites

/-!
# What was written is read

Who is told by a store that a value was written finds it there: if the store answers at all, it
answers with the value, whichever of the two ways of writing was used (`has_of_wrote`, then
`Simulation.Store.Has.eq_of_get`). The version that the shared store tells need not be the one that
it told the writer, since scripts know integers as floats.
-/

namespace VoiceRoom

/-! ### Reading -/

/-- A get that succeeds was fetched and leaves the store as it is. -/
theorem Shared.get_eq_of_ok {s : Shared} {key : String} {stored : Option Versioned}
    (h : (s.get key).result = .ok stored) :
    Shared.fetch? s.data key = some stored ∧ s.get key = ⟨.ok stored, s, []⟩ := by
  obtain ⟨ks, link⟩ := s
  cases link with
  | up =>
    have hfetch := Shared.fetch?_of_get h
    exact ⟨hfetch, Shared.get_of_fetch? hfetch⟩
  -- Over any other connection the read is not answered.
  | _ => exact nomatch h

/-- A read that is answered changes nothing and goes unnoticed. -/
theorem Simulation.Store.get_eq_of_ok {s : Simulation.Store} {key : String}
    {stored : Option Versioned} (h : (s.get key).result = .ok stored) :
    s.get key = ⟨.ok stored, s, []⟩ := by
  cases s with
  | memory m =>
    show Simulation.Store.ofMemory (m.get key, m) = _
    have hget : m.get key = .ok stored := h
    rw [hget]
    rfl
  | shared s =>
    show Simulation.Store.ofShared (s.get key) = _
    rw [(Shared.get_eq_of_ok h).2]
    rfl

/-! ### Writing -/

/-- A use of a store that gives a key a value. -/
def StoreCall.Gives (c : StoreCall) (key value : String) : Prop :=
  c = .put key value ∨ ∃ expected, c = .putIf key value expected

namespace Keyspace

variable {ks : Keyspace} {key : String} {data : List Symbol}

/-- The script that compares versions tells by a positive version that it wrote. -/
theorem lookup_conditionalPut_of_pos {expected : Option Nat} {version : Int}
    (h : (ks.conditionalPut key data expected).1 = some version) (hpos : 0 < version) :
    (ks.conditionalPut key data expected).2.lookup key = some data := by
  unfold conditionalPut at h ⊢
  -- The branches that refuse return zero.
  cases expected with
  | none =>
    dsimp only at h ⊢
    split at h
    · obtain rfl := Option.some.inj h
      omega
    · rename_i hvacant
      rw [if_neg hvacant]
      exact lookup_versionedPut_self ks key data
  | some expected =>
    dsimp only at h ⊢
    split at h
    · obtain rfl := Option.some.inj h
      omega
    · split at h
      · obtain rfl := Option.some.inj h
        omega
      · rename_i hmatches
        rw [if_neg hmatches]
        exact lookup_versionedPut_self ks key data

end Keyspace

/-- A store has a value under a key. -/
def Simulation.Store.Has : Simulation.Store → String → String → Prop
  | .memory m, key, value => ∃ n, m.lookup key = some ⟨value, n⟩
  | .shared s, key, value => s.data.lookup key = some (Symbol.ofText value)

/-- What a store has under a key is what it says when it answers. -/
theorem Simulation.Store.Has.eq_of_get {s : Simulation.Store} {key value : String}
    {stored : Option Versioned} (h : s.Has key value) (hget : (s.get key).result = .ok stored) :
    ∃ n, stored = some ⟨value, n⟩ := by
  cases s with
  | memory m =>
    obtain ⟨n, hlookup⟩ := h
    have hresult : m.get key = .ok stored := hget
    unfold Memory.get at hresult
    split at hresult
    · exact ⟨n, (Except.ok.inj hresult).symm.trans hlookup⟩
    · exact nomatch hresult
  | shared s =>
    have hfetch := (Shared.get_eq_of_ok hget).1
    have hlookup : s.data.lookup key = some (Symbol.ofText value) := h
    unfold Shared.fetch? at hfetch
    rw [hlookup] at hfetch
    dsimp only at hfetch
    rw [Symbol.text?_ofText] at hfetch
    obtain ⟨version, -, hv⟩ := Option.bind_eq_some_iff.1 hfetch
    exact ⟨version, (Option.some.inj hv).symm⟩

/-- What was written to memory is there. -/
theorem Memory.has_of_wrote {m : Memory} {c : StoreCall} {key value : String}
    (hc : c.Gives key value) (hwrote : (c.perform (.memory m)).1.wrote = true) :
    (c.perform (.memory m)).2.Has key value := by
  have hinserted :
      (Simulation.Store.memory (m.insert key ⟨value, m.nextVersion key⟩)).Has key value :=
    ⟨m.nextVersion key, by rw [Memory.lookup_insert, if_pos rfl]⟩
  rcases hc with rfl | ⟨expected, rfl⟩
  · show (Simulation.Store.memory (m.put key value).2).Has key value
    replace hwrote : (StoreAnswer.version (m.put key value).1).wrote = true := hwrote
    -- A call that wrote found the store up and its version the current one, and then it inserts the
    -- record.
    unfold Memory.put at hwrote ⊢
    split at hwrote
    · rename_i hup
      rw [if_pos hup]
      exact hinserted
    · exact nomatch hwrote
  · show (Simulation.Store.memory (m.putIf key value expected).2).Has key value
    replace hwrote : (StoreAnswer.outcome (m.putIf key value expected).1).wrote = true := hwrote
    unfold Memory.putIf at hwrote ⊢
    split at hwrote
    · split at hwrote
      · rename_i hup hversion
        rw [if_pos hup, if_pos hversion]
        exact hinserted
      · exact nomatch hwrote
    · exact nomatch hwrote

/-- A version comes from a number. -/
theorem Shared.exists_of_versionResult {key : String} {result : Option Int} {version : Nat}
    (h : Shared.versionResult key result = .ok version) : ∃ r, result = some r := by
  cases result with
  | none => exact nomatch h
  | some r => exact ⟨r, rfl⟩

/-- What was put is there. -/
theorem Shared.lookup_of_put {s : Shared} {key value : String} {version : Nat}
    (h : (s.put key value).result = .ok version) :
    (s.put key value).store.data.lookup key = some (Symbol.ofText value) := by
  obtain ⟨hresult, hstore⟩ := Shared.put_eq_invoke s key value
  rw [hresult] at h
  obtain ⟨r, hr⟩ := Shared.exists_of_versionResult h
  rw [hstore, (Shared.invoke_of_some hr).2]
  exact Keyspace.lookup_versionedPut_self s.data key (Symbol.ofText value)

/-- A put that is written returned a positive number. -/
theorem Shared.pos_of_putResult {key : String} {result : Option Int} {version : Nat}
    (h : Shared.putResult key result = .ok (.written version)) : ∃ r, result = some r ∧ 0 < r := by
  cases result with
  | none => exact nomatch h
  | some r =>
    unfold Shared.putResult at h
    dsimp only at h
    split at h
    · exact nomatch h
    · split at h
      · exact ⟨r, rfl, ‹_›⟩
      · exact nomatch h

/-- What was put conditionally is there. -/
theorem Shared.lookup_of_putIf {s : Shared} {key value : String} {expected : Option Nat}
    {version : Nat} (h : (s.putIf key value expected).result = .ok (.written version)) :
    (s.putIf key value expected).store.data.lookup key = some (Symbol.ofText value) := by
  obtain ⟨hresult, hstore⟩ := Shared.putIf_eq_invoke s key value expected
  rw [hresult] at h
  obtain ⟨r, hr, hpos⟩ := Shared.pos_of_putResult h
  obtain ⟨hscript, hdata⟩ := Shared.invoke_of_some hr
  rw [hstore, hdata]
  exact Keyspace.lookup_conditionalPut_of_pos hscript hpos

/-- Who is told that a value was written finds it in the store. -/
theorem has_of_wrote {s : Simulation.Store} {c : StoreCall} {key value : String}
    (hc : c.Gives key value) (hwrote : (c.perform s).1.wrote = true) :
    (c.perform s).2.Has key value := by
  cases s with
  | memory m => exact Memory.has_of_wrote hc hwrote
  | shared s =>
    rcases hc with rfl | ⟨expected, rfl⟩
    · show (s.put key value).store.data.lookup key = some (Symbol.ofText value)
      replace hwrote : (StoreAnswer.version (s.put key value).result).wrote = true := hwrote
      cases hresult : (s.put key value).result with
      | error e => simp [hresult, StoreAnswer.wrote] at hwrote
      | ok version => exact Shared.lookup_of_put hresult
    · show (s.putIf key value expected).store.data.lookup key = some (Symbol.ofText value)
      replace hwrote : (StoreAnswer.outcome (s.putIf key value expected).result).wrote = true :=
        hwrote
      cases hresult : (s.putIf key value expected).result with
      | error e => simp [hresult, StoreAnswer.wrote] at hwrote
      | ok outcome =>
        cases outcome with
        | written version => exact Shared.lookup_of_putIf hresult
        | conflict => simp [hresult, StoreAnswer.wrote] at hwrote

/-- What was got can be replaced at its version. -/
theorem Memory.putIf_of_get {m : Memory} {key : String} {v : Versioned}
    (h : m.get key = .ok (some v)) (value : String) :
    ∃ m', m.putIf key value (some v.version) = (.ok (.written (v.version + 1)), m') ∧
      m'.get key = .ok (some ⟨value, v.version + 1⟩) := by
  have hseen : m.available = true ∧ m.lookup key = some v := by
    unfold Memory.get at h
    split at h
    · exact ⟨‹_›, Except.ok.inj h⟩
    · exact nomatch h
  obtain ⟨hup, hlookup⟩ := hseen
  have hnext : m.nextVersion key = v.version + 1 := by
    rw [Memory.nextVersion, hlookup]
    rfl
  have hversion : (m.lookup key).map Versioned.version = some v.version := by
    rw [hlookup, Option.map_some]
  have hput := Memory.putIf_of_version value hup hversion
  rw [hnext] at hput
  refine ⟨m.insert key ⟨value, v.version + 1⟩, hput, Memory.get_of_lookup hup ?_⟩
  rw [Memory.lookup_insert, if_pos rfl]

end VoiceRoom
