import VoiceRoom.Proofs.Rooms.Contract
import VoiceRoom.Proofs.Store.Frame
import VoiceRoom.Simulation.Run

/-!
# Requests on the shared store, one after the other

A program that runs alone on the shared store is answered by it call by call; the clock and the
provider answer as they like. If it keeps to a room, then it changes nothing outside the room
(`Solo.frame`), and runs just so on any data that agrees on the room (`Solo.transfer`). What it is
told from outside decides the rest (`Solo.unique`).
-/

namespace VoiceRoom

/-! ### The keys of a room -/

/-- The counter of a mapping has the key of another mapping. -/
theorem versionKey_mappingKey (s : String) :
    versionKey (mappingKey s) = mappingKey (s ++ ":version") :=
  String.append_assoc

/-- The counter of a session has the key of another session. -/
theorem versionKey_sessionKey (m : String) :
    versionKey (sessionKey m) = sessionKey (m ++ ":version") :=
  String.append_assoc

namespace Room

variable {R : Room} {ks : Keyspace}

/-- The keys of the room's records and of their counters. -/
def keys (R : Room) : Set String :=
  fun key => ∃ k ∈ R.records, key = k ∨ key = versionKey k

theorem record_mem_keys {k : String} (hk : k ∈ R.records) : k ∈ R.keys :=
  ⟨k, hk, .inl rfl⟩

theorem versionKey_mem_keys {k : String} (hk : k ∈ R.records) : versionKey k ∈ R.keys :=
  ⟨k, hk, .inr rfl⟩

/-- The room's mapping, if there is one, leads to a meeting of the room. -/
def Mapped (R : Room) (ks : Keyspace) : Prop :=
  ∀ data, ks.lookup (mappingKey R.sessionId) = some data →
    ∃ value, data = Symbol.ofText value ∧ R.Leads value

/-- No counter of a room is its mapping. -/
theorem versionKey_ne_mappingKey {k : String} (hk : k ∈ R.records) :
    versionKey k ≠ mappingKey R.sessionId := by
  rcases hk with rfl | ⟨m, -, rfl⟩
  · exact versionKey_ne_self _
  · rw [versionKey_sessionKey]
    exact (mappingKey_ne_sessionKey _ _).symm

end Room

namespace Rooms

open Simulation (Entry)

variable {α : Type} {R : Room} {ks ks' ks₀ : Keyspace}

/-! ### Calls -/

/-- How a call may be answered: by the shared store, which can be reached, as the store is, by the
clock with a word, and by everything else in any way. -/
def Answers (ks : Keyspace) : (c : Call) → c.Answer → Prop
  | .get key, r => r = (Shared.get ⟨ks, .up⟩ key).result
  | .putIf key value expected, r => r = (Shared.putIf ⟨ks, .up⟩ key value expected).result
  | .ping, r => r = (Shared.ping ⟨ks, .up⟩).result
  | .now, t => fitsInt64 t
  | _, _ => True

/-- The data of the shared store after a call. -/
def dataAfter (ks : Keyspace) : Call → Keyspace
  | .get key => (Shared.get ⟨ks, .up⟩ key).store.data
  | .putIf key value expected => (Shared.putIf ⟨ks, .up⟩ key value expected).store.data
  | _ => ks

theorem dataAfter_get (ks : Keyspace) (key : String) : dataAfter ks (.get key) = ks :=
  congrArg Shared.data (Shared.get_store ks key)

/-- A conditional put leaves what its script leaves. -/
theorem dataAfter_putIf (ks : Keyspace) (key value : String) (expected : Option Nat) :
    dataAfter ks (.putIf key value expected) =
      (ks.conditionalPut key (Symbol.ofText value) expected).2 :=
  congrArg Shared.data (Shared.putIf_eq ks key value expected).2

/-- Data that are the same on a room have the same records there. -/
theorem sameRecord_of_mem (hsame : ∀ k ∈ R.keys, ks.lookup k = ks₀.lookup k) {key : String}
    (hkey : key ∈ R.records) : ks.SameRecord ks₀ key :=
  ⟨hsame key (Room.record_mem_keys hkey), hsame _ (Room.versionKey_mem_keys hkey)⟩

/-- Data that agrees on the room answers a request about the room alike. -/
theorem answers_congr {c : Call} {r : c.Answer} (hc : R.Allows c)
    (hsame : ∀ k ∈ R.keys, ks.lookup k = ks₀.lookup k) (hr : Answers ks c r) :
    Answers ks₀ c r := by
  cases c with
  | get key => exact hr.trans (Shared.get_congr (sameRecord_of_mem hsame hc))
  | putIf key value expected =>
    exact hr.trans (Shared.putIf_congr (sameRecord_of_mem hsame hc.1)).1
  | _ => exact hr

/-- Where the data agrees otherwise, it does so still. -/
theorem lookup_dataAfter_congr {c : Call} (hc : R.Allows c)
    (hsame : ∀ k ∈ R.keys, ks.lookup k = ks₀.lookup k) {k : String}
    (hk : ks.lookup k = ks₀.lookup k) : (dataAfter ks c).lookup k = (dataAfter ks₀ c).lookup k := by
  cases c with
  | get key =>
    rw [dataAfter_get, dataAfter_get]
    exact hk
  | putIf key value expected =>
    exact (Shared.putIf_congr (sameRecord_of_mem hsame hc.1)).2 k hk
  | _ => exact hk

/-- A request about the room changes nothing else. -/
theorem lookup_dataAfter_of_notMem {c : Call} (hc : R.Allows c) {k : String} (hk : k ∉ R.keys) :
    (dataAfter ks c).lookup k = ks.lookup k := by
  cases c with
  | get key => rw [dataAfter_get]
  | putIf key value expected =>
    rw [dataAfter_putIf]
    refine Keyspace.lookup_conditionalPut_of_ne ?_ ?_
    · rintro rfl
      exact hk (Room.record_mem_keys hc.1)
    · rintro rfl
      exact hk (Room.versionKey_mem_keys hc.1)
  | _ => rfl

/-- A call that the room allows leaves its mapping leading into it. -/
theorem mapped_dataAfter {c : Call} (hc : R.Allows c) (hmapped : R.Mapped ks) :
    R.Mapped (dataAfter ks c) := by
  cases c with
  | get key =>
    rw [dataAfter_get]
    exact hmapped
  | putIf key value expected =>
    rw [dataAfter_putIf]
    -- Only a write of the mapping itself matters, and that leads into the room.
    by_cases hkey : key = mappingKey R.sessionId
    · intro data hdata
      rcases Keyspace.lookup_conditionalPut_self ks key (Symbol.ofText value) expected with
        hold | hnew
      · rw [← hkey, hold, hkey] at hdata
        exact hmapped data hdata
      · rw [← hkey, hnew] at hdata
        exact ⟨value, (Option.some.inj hdata).symm, hc.2 hkey⟩
    · intro data hdata
      rw [Keyspace.lookup_conditionalPut_of_ne (Ne.symm hkey)
        (Room.versionKey_ne_mappingKey hc.1).symm] at hdata
      exact hmapped data hdata
  | _ => exact hmapped

/-- What is read of the mapping is what the room takes for granted. -/
theorem trusts_of_answers {c : Call} {r : c.Answer} (hc : R.Allows c) (hmapped : R.Mapped ks)
    (hgranted : ∀ title meetingId, (⟨c, r⟩ : Entry) = ⟨.createMeeting title, .ok meetingId⟩ →
      title = R.sessionId → meetingId ∈ R.meetings)
    (hr : Answers ks c r) : R.Trusts c r := by
  cases c with
  | get key =>
    rcases r with e | _ | v
    · trivial
    · trivial
    · rintro rfl
      -- What is got was stored, and the stored mapping leads into the room.
      cases hlookup : ks.lookup (mappingKey R.sessionId) with
      | none => exact absurd hlookup (Shared.lookup_ne_none_of_get hr.symm)
      | some data =>
        obtain ⟨value, rfl, hleads⟩ := hmapped data hlookup
        rw [Room.Leads, Shared.value_of_get hlookup hr.symm]
        exact hleads
  | createMeeting title =>
    cases r with
    | error e => trivial
    | ok meetingId => exact hgranted title meetingId rfl hc
  | _ => trivial

/-! ### Runs -/

/-- A program runs alone: the data, the calls that it makes with their answers, the data afterwards,
and what it comes to. -/
inductive Solo : Keyspace → Program α → List Entry → Keyspace → α → Prop where
  | done (ks : Keyspace) (a : α) : Solo ks (.done a) [] ks a
  | ask {ks ks' : Keyspace} {c : Call} {rest : c.Answer → Program α} {entries : List Entry} {a : α}
      (r : c.Answer) (hr : Answers ks c r) (h : Solo (dataAfter ks c) (rest r) entries ks' a) :
      Solo ks (.ask c rest) (⟨c, r⟩ :: entries) ks' a

namespace Solo

variable {β : Type} {p : Program α} {Q : α → Prop} {entries : List Entry} {a : α}

theorem map {f : α → β} (h : Solo ks p entries ks' a) : Solo ks (f <$> p) entries ks' (f a) := by
  induction h with
  | done ks a => exact .done ks (f a)
  | ask r hr _ ih => exact .ask r hr ih

theorem bind {f : α → Program β} {entries' : List Entry} {ks₁ : Keyspace} {b : β}
    (h : Solo ks p entries ks₁ a) (h' : Solo ks₁ (f a) entries' ks' b) :
    Solo ks (p >>= f) (entries ++ entries') ks' b := by
  induction h with
  | done ks a => exact h'
  | ask r hr _ ih => exact .ask r hr (ih h')

theorem get {key : String} {v : Option Versioned}
    {rest : Except StoreError (Option Versioned) → Program α}
    (hget : (Shared.get ⟨ks, .up⟩ key).result = .ok v) (h : Solo ks (rest (.ok v)) entries ks' a) :
    Solo ks (.ask (.get key) rest) (⟨.get key, .ok v⟩ :: entries) ks' a :=
  .ask (c := .get key) _ hget.symm (by rwa [dataAfter_get])

/-- A record is written for the first time. -/
theorem putFirst {key value : String} {rest : Except StoreError PutOutcome → Program α}
    (hkey : ks.lookup key = none) (hversion : ks.lookup (versionKey key) = none)
    (h : Solo (ks.first key (Symbol.ofText value)) (rest (.ok (.written 1))) entries ks' a) :
    Solo ks (.ask (.putIf key value none) rest)
      (⟨.putIf key value none, .ok (.written 1)⟩ :: entries) ks' a := by
  obtain ⟨hresult, hstore⟩ := Shared.putIf_first hkey hversion value
  refine .ask (c := .putIf key value none) _ hresult.symm ?_
  rw [dataAfter, hstore]
  exact h

/-- The provider gave the room the meetings that were asked for it. -/
def Granted (R : Room) (entries : List Entry) : Prop :=
  ∀ title meetingId, (⟨.createMeeting title, .ok meetingId⟩ : Entry) ∈ entries →
    title = R.sessionId → meetingId ∈ R.meetings

/-- A room is told by the store and the provider what it trusts them to tell. -/
theorem trusts {c : Call} {r : c.Answer} (hc : R.Allows c) (hmapped : R.Mapped ks)
    (hgranted : Granted R (⟨c, r⟩ :: entries)) (hr : Answers ks c r) : R.Trusts c r :=
  trusts_of_answers hc hmapped
    (fun title meetingId h => hgranted title meetingId (h ▸ List.mem_cons_self)) hr

/-- A program that keeps to a room changes nothing outside of it. -/
theorem frame (h : Solo ks p entries ks' a) (hp : R.Keeps Q p) (hmapped : R.Mapped ks)
    (hgranted : Granted R entries) :
    R.Mapped ks' ∧ ∀ k ∉ R.keys, ks'.lookup k = ks.lookup k := by
  induction h with
  | done ks a => exact ⟨hmapped, fun _ _ => rfl⟩
  | @ask ks ks' c rest entries a r hr _ ih =>
    have htail : Granted R entries := fun title meetingId h =>
      hgranted title meetingId (List.mem_cons_of_mem _ h)
    obtain ⟨hmapped', hframe⟩ := ih (hp.2 r (trusts hp.1 hmapped hgranted hr))
      (mapped_dataAfter hp.1 hmapped) htail
    exact ⟨hmapped', fun k hk =>
      (hframe k hk).trans (lookup_dataAfter_of_notMem hp.1 hk)⟩

/-- A program that keeps to a room runs just so on data that agrees on the room. Where else the data
agrees, it agrees still. -/
theorem transfer (h : Solo ks p entries ks' a) (hp : R.Keeps Q p) (hmapped : R.Mapped ks)
    (hgranted : Granted R entries) (hsame : ∀ k ∈ R.keys, ks.lookup k = ks₀.lookup k) :
    ∃ ks₀', Solo ks₀ p entries ks₀' a ∧
      ∀ k, ks.lookup k = ks₀.lookup k → ks'.lookup k = ks₀'.lookup k := by
  induction h generalizing ks₀ with
  | done ks a => exact ⟨ks₀, .done ks₀ a, fun _ hk => hk⟩
  | @ask ks ks' c rest entries a r hr _ ih =>
    have htail : Granted R entries := fun title meetingId h =>
      hgranted title meetingId (List.mem_cons_of_mem _ h)
    have hafter : ∀ k, ks.lookup k = ks₀.lookup k →
        (dataAfter ks c).lookup k = (dataAfter ks₀ c).lookup k :=
      fun _ hk => lookup_dataAfter_congr hp.1 hsame hk
    obtain ⟨ks₀', hrun, hagree⟩ := ih (hp.2 r (trusts hp.1 hmapped hgranted hr))
      (mapped_dataAfter hp.1 hmapped) htail fun k hk => hafter k (hsame k hk)
    exact ⟨ks₀', .ask r (answers_congr hp.1 hsame hr) hrun, fun k hk => hagree k (hafter k hk)⟩

end Solo

/-! ### What a program is told from outside -/

/-- An answer that does not come from the store. -/
inductive Told where
  | time (t : Int)
  | provided (r : Except ProviderError String)
  | drawn (sessionId : String)
  | mode (m : Mode)
  | scraped (lines : List String)

def told? : Entry → Option Told
  | ⟨.now, t⟩ => some (.time t)
  | ⟨.createMeeting _, r⟩ => some (.provided r)
  | ⟨.createParticipant _ _, r⟩ => some (.provided r)
  | ⟨.freshId, sessionId⟩ => some (.drawn sessionId)
  | ⟨.mode, m⟩ => some (.mode m)
  | ⟨.scrape, lines⟩ => some (.scraped lines)
  | _ => none

/-- What a program was told by the clock, the provider and so on, in order. -/
def told (entries : List Entry) : List Told :=
  entries.filterMap told?

theorem told_cons_inj {c : Call} {r r' : c.Answer} {entries entries' : List Entry}
    (hr : Answers ks c r) (hr' : Answers ks c r')
    (h : told (⟨c, r⟩ :: entries) = told (⟨c, r'⟩ :: entries')) :
    r = r' ∧ told entries = told entries' := by
  -- The store determines its own answers, and all the others are told from outside.
  cases c with
  | get key => exact ⟨hr.trans hr'.symm, h⟩
  | putIf key value expected => exact ⟨hr.trans hr'.symm, h⟩
  | ping => exact ⟨hr.trans hr'.symm, h⟩
  | note e => exact ⟨rfl, h⟩
  | count m => exact ⟨rfl, h⟩
  | now =>
    obtain ⟨hhead, htail⟩ := List.cons.inj h
    exact ⟨Told.time.inj hhead, htail⟩
  | createMeeting title =>
    obtain ⟨hhead, htail⟩ := List.cons.inj h
    exact ⟨Told.provided.inj hhead, htail⟩
  | createParticipant meetingId userId =>
    obtain ⟨hhead, htail⟩ := List.cons.inj h
    exact ⟨Told.provided.inj hhead, htail⟩
  | freshId =>
    obtain ⟨hhead, htail⟩ := List.cons.inj h
    exact ⟨Told.drawn.inj hhead, htail⟩
  | mode =>
    obtain ⟨hhead, htail⟩ := List.cons.inj h
    exact ⟨Told.mode.inj hhead, htail⟩
  | scrape =>
    obtain ⟨hhead, htail⟩ := List.cons.inj h
    exact ⟨Told.scraped.inj hhead, htail⟩

/-- The data and what it is told from outside decide what a program does. -/
theorem Solo.unique {p : Program α} {entries entries₁ : List Entry} {ks₁ : Keyspace} {a a₁ : α}
    (h : Solo ks p entries ks' a) (h₁ : Solo ks p entries₁ ks₁ a₁)
    (htold : told entries₁ = told entries) : entries₁ = entries ∧ ks₁ = ks' ∧ a₁ = a := by
  induction h generalizing entries₁ with
  | done ks a =>
    cases h₁
    exact ⟨rfl, rfl, rfl⟩
  | @ask ks ks' c rest entries a r hr _ ih =>
    cases h₁ with
    | ask r₁ hr₁ hrest =>
      obtain ⟨rfl, htail⟩ := told_cons_inj hr₁ hr htold
      obtain ⟨rfl, hks, ha⟩ := ih hrest htail
      exact ⟨rfl, hks, ha⟩

end Rooms

end VoiceRoom
