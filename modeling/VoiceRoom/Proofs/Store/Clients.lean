import Mathlib.Logic.Function.Basic
import VoiceRoom.Number.Word
import VoiceRoom.Proofs.Store.Refinement

/-!
# Clients of the store in memory

A client's call first looks whether the store is available. If it is not, the call is refused.
Otherwise it waits for its turn, and is carried out whether the store is still available by then or
not. So the moves of any number of clients come in any order, and the store stops and starts to
answer between any two of them.

- `Desk.lookup_step`: what a move does to a key, once for all moves.
- `Desk.lookup_after`, `Desk.versions_writes`: after every history a key holds the last value that
  was written to it, and its writes got the versions 1, 2, 3 and so on.
- `Desk.lastWrite_iff`: the last write of a key is one that no other followed.
- `Desk.keeps_account`: what calls are told and do, from what happened before.
-/

namespace VoiceRoom

/-! ### Single calls -/

namespace StoreCall

/-- Uses a store in memory. -/
def performOn (c : StoreCall) (m : Memory) : StoreAnswer × Memory :=
  match c with
  | get key => (.record (m.get key), m)
  | put key value => (.version (m.put key value).1, (m.put key value).2)
  | putIf key value expected =>
    (.outcome (m.putIf key value expected).1, (m.putIf key value expected).2)

/-- The value that a call wrote, with the version that it is told. -/
def written? : StoreCall → StoreAnswer → Option Versioned
  | put _ value, .version (.ok version) => some ⟨value, version⟩
  | putIf _ value _, .outcome (.ok (.written version)) => some ⟨value, version⟩
  | _, _ => none

/-- A call writes a value with the next version of its key, or nothing at all. -/
theorem performOn_cases (c : StoreCall) (m : Memory) :
    (∃ value, c.written? (c.performOn m).1 = some ⟨value, m.nextVersion c.key⟩ ∧
      (c.performOn m).2 = m.insert c.key ⟨value, m.nextVersion c.key⟩) ∨
    (c.written? (c.performOn m).1 = none ∧ (c.performOn m).2 = m) := by
  -- A put is carried out if the store is up, a conditional one if the version is the current one as
  -- well.
  cases c with
  | get key => exact .inr ⟨rfl, rfl⟩
  | put key value =>
    dsimp only [performOn]
    unfold Memory.put
    by_cases hup : m.available = true
    · rw [if_pos hup]
      exact .inl ⟨value, rfl, rfl⟩
    · rw [if_neg hup]
      exact .inr ⟨rfl, rfl⟩
  | putIf key value expected =>
    dsimp only [performOn]
    unfold Memory.putIf
    by_cases hup : m.available = true
    · rw [if_pos hup]
      by_cases hversion : (m.lookup key).map Versioned.version = expected
      · rw [if_pos hversion]
        exact .inl ⟨value, rfl, rfl⟩
      · rw [if_neg hversion]
        exact .inr ⟨rfl, rfl⟩
    · rw [if_neg hup]
      exact .inr ⟨rfl, rfl⟩

/-- What was not written left nothing. -/
theorem written?_eq_none {c : StoreCall} {answer : StoreAnswer} (h : answer.wrote = false) :
    c.written? answer = none := by
  unfold written?
  split
  · exact nomatch h
  · exact nomatch h
  · rfl

/-- The answer to a call that is refused. -/
def refusal : StoreCall → StoreAnswer
  | get _ => .record (.error Memory.unavailable)
  | put .. => .version (.error Memory.unavailable)
  | putIf .. => .outcome (.error Memory.unavailable)

/-- A store that is down refuses every call and stays as it is. -/
theorem performOn_of_unavailable (c : StoreCall) {m : Memory} (h : m.available = false) :
    c.performOn m = (c.refusal, m) := by
  have hdown : ¬ m.available = true := by simp [h]
  cases c with
  | get key =>
    dsimp only [performOn]
    rw [Memory.get, if_neg hdown]
    rfl
  | put key value =>
    dsimp only [performOn]
    rw [Memory.put, if_neg hdown]
    rfl
  | putIf key value expected =>
    dsimp only [performOn]
    rw [Memory.putIf, if_neg hdown]
    rfl

end StoreCall

/-- The store, made available or not. -/
def Memory.switched (m : Memory) (available : Bool) : Memory :=
  { m with available }

namespace Memory

@[simp] theorem lookup_switched (m : Memory) (available : Bool) (key : String) :
    (m.switched available).lookup key = m.lookup key := rfl

@[simp] theorem nextVersion_switched (m : Memory) (available : Bool) (key : String) :
    (m.switched available).nextVersion key = m.nextVersion key := rfl

end Memory

/-! ### Moves -/

/-- A store in memory, and for each client the call that waits for its turn. -/
structure Desk where
  memory : Memory := {}
  waiting : Nat → Option StoreCall := fun _ => none

/-- Something that happens. -/
inductive Move where
  /-- A client calls, and gives up the call that it waited with. -/
  | call (client : Nat) (c : StoreCall)
  /-- The call of a client has its turn. -/
  | serve (client : Nat)
  | switch (available : Bool)

namespace Desk

/-- A call and its answer, if the move brings one, and the desk afterwards. -/
def step (d : Desk) : Move → Option (StoreCall × StoreAnswer) × Desk
  | .call client c =>
    if d.memory.available then
      (none, { d with waiting := Function.update d.waiting client (some c) })
    else
      (some (c, (c.performOn d.memory).1),
        { d with waiting := Function.update d.waiting client none })
  | .serve client =>
    match d.waiting client with
    | none => (none, d)
    | some c =>
      let (answer, memory) := c.performOn (d.memory.switched true)
      (some (c, answer),
        ⟨memory.switched d.memory.available, Function.update d.waiting client none⟩)
  | .switch available => (none, { d with memory := d.memory.switched available })

/-- What a move writes to a key. -/
def write? (d : Desk) (move : Move) (key : String) : Option Versioned :=
  (d.step move).1.bind fun (c, answer) => if c.key = key then c.written? answer else none

/-- A call that waits is carried out as if the store was up all the time. -/
theorem step_serve {d : Desk} {client : Nat} {c : StoreCall} (h : d.waiting client = some c) :
    d.step (.serve client) =
      (some (c, (c.performOn (d.memory.switched true)).1),
        ⟨(c.performOn (d.memory.switched true)).2.switched d.memory.available,
          Function.update d.waiting client none⟩) := by
  rw [step, h]

/-- A move leaves at a key what it writes to it, or else what was there. A value that is written
has the next version of its key. -/
theorem lookup_step (d : Desk) (move : Move) (key : String) :
    (d.step move).2.memory.lookup key = (d.write? move key <|> d.memory.lookup key) ∧
      ∀ v ∈ d.write? move key, v.version = d.memory.nextVersion key := by
  unfold write?
  cases move with
  | call client c =>
    by_cases hup : d.memory.available = true
    · simp [step, hup]
    · have hrefused := c.performOn_of_unavailable (Bool.eq_false_of_not_eq_true hup)
      rw [step, if_neg hup, hrefused]
      cases c <;> simp [StoreCall.refusal, StoreCall.written?]
  | switch available => simp [step]
  -- a call that was admitted is carried out even if the store is down by now
  | serve client =>
    cases hwaiting : d.waiting client with
    | none => simp [step, hwaiting]
    | some c =>
      rw [step_serve hwaiting]
      dsimp only [Option.bind_some]
      rw [Memory.lookup_switched]
      obtain ⟨value, hwritten, hmemory⟩ | ⟨hwritten, hmemory⟩ :=
        c.performOn_cases (d.memory.switched true)
      · rw [hwritten, hmemory, Memory.lookup_insert, Memory.lookup_switched,
          Memory.nextVersion_switched]
        by_cases hkey : c.key = key
        · subst hkey
          simp
        · simp [hkey, Ne.symm hkey]
      · rw [hwritten, hmemory]
        simp

/-- A move that writes nothing to a key leaves it alone. -/
theorem lookup_step_of_write?_eq_none {d : Desk} {move : Move} {key : String}
    (h : d.write? move key = none) : (d.step move).2.memory.lookup key = d.memory.lookup key := by
  rw [(d.lookup_step move key).1, h]
  rfl

/-! ### Histories -/

/-- The desk after a history of moves, latest first. It starts with an empty store. -/
def after : List Move → Desk
  | [] => {}
  | move :: past => ((after past).step move).2

/-- The call that the latest move of a history answers, with its answer. -/
def answered (past : List Move) (move : Move) : Option (StoreCall × StoreAnswer) :=
  ((after past).step move).1

/-- The values that were written to a key, with the versions that were told, latest first. -/
def writes (key : String) : List Move → List Versioned
  | [] => []
  | move :: past => ((after past).write? move key).toList ++ writes key past

variable {key : String} {past since base : List Move}

/-- A key holds the last value that was written to it. -/
theorem lookup_after (key : String) (past : List Move) :
    (after past).memory.lookup key = (writes key past).head? := by
  induction past with
  | nil => rfl
  | cons move past ih =>
    rw [after, writes, ((after past).lookup_step move key).1, ih]
    cases (after past).write? move key <;> rfl

/-- The latest of versions counted from one is their number. -/
theorem version_head_of_versions {values : List Versioned}
    (h : values.map Versioned.version = (List.range' 1 values.length).reverse) :
    versionOf values.head? = values.length := by
  cases values with
  | nil => rfl
  | cons v values =>
    rw [List.map_cons, List.length_cons, List.range'_1_concat, List.reverse_concat] at h
    have hversion : v.version = 1 + values.length := (List.cons.inj h).1
    rw [List.head?_cons, List.length_cons, ← Nat.add_comm 1, ← hversion]
    rfl

/-- The writes of a key got the versions 1, 2, 3 and so on. -/
theorem versions_writes (key : String) (past : List Move) :
    (writes key past).map Versioned.version = (List.range' 1 (writes key past).length).reverse := by
  induction past with
  | nil => rfl
  | cons move past ih =>
    have hnext := ((after past).lookup_step move key).2
    rw [writes]
    cases hwrite : (after past).write? move key with
    | none => exact ih
    | some v =>
      have hversion : v.version = 1 + (writes key past).length := by
        rw [hnext v hwrite, Memory.nextVersion_eq, lookup_after, version_head_of_versions ih,
          Nat.add_comm]
      rw [Option.toList_some, List.singleton_append, List.map_cons, List.length_cons,
        List.range'_1_concat, List.reverse_concat, ih, hversion]

/-- The next version is one more than the number of writes. -/
theorem nextVersion_after (key : String) (past : List Move) :
    (after past).memory.nextVersion key = (writes key past).length + 1 := by
  rw [Memory.nextVersion_eq, lookup_after, version_head_of_versions (versions_writes key past)]

/-! ### The last write -/

/-- No move of the later part of a history wrote to a key. -/
def Unwritten (key : String) (since base : List Move) : Prop :=
  ∀ later move earlier, since = later ++ move :: earlier →
    (after (earlier ++ base)).write? move key = none

/-- A move wrote a value to a key, and no later one did. -/
def LastWrite (key : String) (past : List Move) (v : Versioned) : Prop :=
  ∃ since move base, past = since ++ move :: base ∧ (after base).write? move key = some v ∧
    Unwritten key since (move :: base)

/-- A key is unwritten as long as no move writes it. -/
theorem unwritten_cons {move : Move} :
    Unwritten key (move :: since) base ↔
      (after (since ++ base)).write? move key = none ∧ Unwritten key since base := by
  constructor
  · intro h
    refine ⟨h [] move since rfl, fun later move' earlier hsince => ?_⟩
    exact h (move :: later) move' earlier (by rw [hsince, List.cons_append])
  · rintro ⟨hmove, hsince⟩ later move' earlier heq
    cases later with
    | nil =>
      obtain ⟨rfl, rfl⟩ := List.cons.inj heq
      exact hmove
    | cons first later => exact hsince later move' earlier (List.cons.inj heq).2

/-- Moves that do not write a key leave its writes as they were. -/
theorem writes_append_of_unwritten (h : Unwritten key since base) :
    writes key (since ++ base) = writes key base := by
  induction since with
  | nil => rfl
  | cons move since ih =>
    obtain ⟨hmove, hsince⟩ := unwritten_cons.1 h
    rw [List.cons_append, writes, hmove, ih hsince]
    rfl

/-- The last write is the first of the writes, the latest being first. -/
theorem lastWrite_iff {v : Versioned} :
    LastWrite key past v ↔ (writes key past).head? = some v := by
  constructor
  · rintro ⟨since, move, base, rfl, hwrite, hsince⟩
    rw [writes_append_of_unwritten hsince, writes, hwrite]
    rfl
  · intro h
    induction past with
    | nil => exact nomatch h
    | cons move past ih =>
      cases hwrite : (after past).write? move key with
      | some v' =>
        rw [writes, hwrite] at h
        obtain rfl : v' = v := Option.some.inj h
        exact ⟨[], move, past, rfl, hwrite, fun later _ _ heq => by cases later <;> exact nomatch heq⟩
      | none =>
        rw [writes, hwrite] at h
        obtain ⟨since, move', base, rfl, hwrite', hsince⟩ := ih h
        exact ⟨move :: since, move', base, rfl, hwrite', unwritten_cons.2 ⟨hwrite, hsince⟩⟩

/-- A key that was never written has no writes. -/
theorem unwritten_nil_iff : Unwritten key past [] ↔ writes key past = [] := by
  constructor
  · intro h
    have hwrites := writes_append_of_unwritten h
    rwa [List.append_nil] at hwrites
  · intro h
    induction past with
    | nil => exact fun later _ _ heq => by cases later <;> exact nomatch heq
    | cons move past ih =>
      rw [writes, List.append_eq_nil_iff, Option.toList_eq_nil_iff] at h
      exact unwritten_cons.2 ⟨by rw [List.append_nil]; exact h.1, ih h.2⟩

/-- The version that a conditional write expects is the one that it finds. -/
theorem version_lookup_after_eq_some_iff {version : Nat} :
    ((after past).memory.lookup key).map Versioned.version = some version ↔
      ∃ value, LastWrite key past ⟨value, version⟩ := by
  rw [lookup_after, Option.map_eq_some_iff]
  constructor
  · rintro ⟨⟨value, version⟩, hlast, rfl⟩
    exact ⟨value, lastWrite_iff.2 hlast⟩
  · rintro ⟨value, hlast⟩
    exact ⟨⟨value, version⟩, lastWrite_iff.1 hlast, rfl⟩

/-- A key has no version if it was never written. -/
theorem version_lookup_after_eq_none_iff :
    ((after past).memory.lookup key).map Versioned.version = none ↔ Unwritten key past [] := by
  rw [lookup_after, Option.map_eq_none_iff, List.head?_eq_none_iff, unwritten_nil_iff]

/-! ### What calls are told -/

/-- A get is answered with the last write. -/
theorem answered_get {client : Nat} (h : (after past).waiting client = some (.get key)) :
    answered past (.serve client) = some (.get key, .record (.ok (writes key past).head?)) := by
  rw [answered, step_serve h, ← lookup_after]
  rfl

/-- A put is answered with the number of writes, itself included. -/
theorem answered_put {client : Nat} {value : String}
    (h : (after past).waiting client = some (.put key value)) :
    answered past (.serve client) =
      some (.put key value, .version (.ok ((writes key past).length + 1))) := by
  rw [answered, step_serve h, ← nextVersion_after]
  rfl

/-- A conditional write succeeds if and only if it finds the version that it expects. -/
theorem answered_putIf {client : Nat} {value : String} {expected : Option Nat}
    (h : (after past).waiting client = some (.putIf key value expected)) :
    answered past (.serve client) =
      some (.putIf key value expected, .outcome (.ok
        (if ((after past).memory.lookup key).map Versioned.version = expected then
          .written ((writes key past).length + 1) else .conflict))) := by
  rw [answered, step_serve h, ← nextVersion_after]
  dsimp only [StoreCall.performOn]
  have hup : ((after past).memory.switched true).available = true := rfl
  rw [Memory.putIf, if_pos hup, Memory.lookup_switched]
  split <;> rfl

/-- What every history of a store in memory that starts empty comes to. -/
structure KeepsAccount (past : List Move) : Prop where
  /-- The versions that were handed out for a key are 1, 2, 3 and so on. -/
  versions : ∀ key,
    (writes key past).map Versioned.version = (List.range' 1 (writes key past).length).reverse
  /-- Before the writes are too many, the next version fits a word. -/
  fits : ∀ key, (writes key past).length < wordMax → (after past).memory.nextVersion key ≤ wordMax
  /-- A call waits for its turn if the store is available, and is refused otherwise. -/
  admitted : ∀ client c, (after past).memory.available = true →
    (after (.call client c :: past)).waiting client = some c
  refused : ∀ client c, (after past).memory.available = false →
    answered past (.call client c) = some (c, c.refusal)
  /-- A read finds the value and the version of the last write. -/
  get : ∀ client key, (after past).waiting client = some (.get key) →
    ∃ found, answered past (.serve client) = some (.get key, .record (.ok found)) ∧
      ∀ v, found = some v ↔ LastWrite key past v
  put : ∀ client key value, (after past).waiting client = some (.put key value) →
    answered past (.serve client) =
      some (.put key value, .version (.ok ((writes key past).length + 1)))
  /-- A write over a version succeeds exactly if the last write produced that version. -/
  putOver : ∀ client key value version,
    (after past).waiting client = some (.putIf key value (some version)) →
    ∃ outcome, answered past (.serve client) =
        some (.putIf key value (some version), .outcome (.ok outcome)) ∧
      (outcome = .written ((writes key past).length + 1) ↔
        ∃ value, LastWrite key past ⟨value, version⟩) ∧
      (outcome = .conflict ↔ ¬ ∃ value, LastWrite key past ⟨value, version⟩)
  /-- A write of an absent key succeeds exactly if the key was never written. -/
  putNew : ∀ client key value, (after past).waiting client = some (.putIf key value none) →
    ∃ outcome, answered past (.serve client) =
        some (.putIf key value none, .outcome (.ok outcome)) ∧
      (outcome = .written ((writes key past).length + 1) ↔ Unwritten key past []) ∧
      (outcome = .conflict ↔ ¬ Unwritten key past [])
  /-- A call that writes nothing, or another key, leaves a key as it is, and so does a move that
  answers no call. -/
  unchanged : ∀ move key,
    (∀ c answer, answered past move = some (c, answer) → answer.wrote = false ∨ c.key ≠ key) →
    (after (move :: past)).memory.lookup key = (after past).memory.lookup key

/-- A conditional put succeeds if its condition holds, and conflicts if not. The condition is left
open, as it is spelt differently for a new record and for a version. -/
theorem answered_putIf_iff {client : Nat} {value : String} {expected : Option Nat} {P : Prop}
    (hP : ((after past).memory.lookup key).map Versioned.version = expected ↔ P)
    (h : (after past).waiting client = some (.putIf key value expected)) :
    ∃ outcome, answered past (.serve client) =
        some (.putIf key value expected, .outcome (.ok outcome)) ∧
      (outcome = .written ((writes key past).length + 1) ↔ P) ∧ (outcome = .conflict ↔ ¬ P) := by
  refine ⟨_, answered_putIf h, ?_⟩
  rw [← hP]
  split
  · rename_i hversion
    exact ⟨iff_of_true rfl hversion, iff_of_false (fun heq => nomatch heq) (not_not_intro hversion)⟩
  · rename_i hversion
    exact ⟨iff_of_false (fun heq => nomatch heq) hversion, iff_of_true rfl hversion⟩

/-- Whatever clients do in whatever order, and whenever the store stops and starts to answer, no
write is lost. -/
theorem keeps_account (past : List Move) : KeepsAccount past where
  versions key := versions_writes key past
  fits key hfew := by
    rw [nextVersion_after]
    exact hfew
  admitted client c hup := by
    rw [after, step, if_pos hup]
    exact Function.update_self client (some c) (after past).waiting
  refused client c hdown := by
    rw [answered, step, hdown, c.performOn_of_unavailable hdown]
    rfl
  get client key h := ⟨_, answered_get h, fun _ => lastWrite_iff.symm⟩
  put client key value h := answered_put h
  putOver client key value version h := answered_putIf_iff version_lookup_after_eq_some_iff h
  putNew client key value h := answered_putIf_iff version_lookup_after_eq_none_iff h
  -- no move but a write to the key changes its record
  unchanged move key h := by
    refine lookup_step_of_write?_eq_none ?_
    unfold write?
    cases hanswered : ((after past).step move).1 with
    | none => rfl
    | some call =>
      obtain ⟨c, answer⟩ := call
      dsimp only [Option.bind_some]
      rcases h c answer hanswered with hwrote | hkey
      · rw [StoreCall.written?_eq_none hwrote, ite_self]
      · exact if_neg hkey

-- Two clients find a key absent. The store stops to answer before the first of them has its turn.
example :
    let past : List Move := [.serve 1, .serve 2, .switch false,
      .call 2 (.putIf "k" "b" none), .call 1 (.putIf "k" "a" none)]
    writes "k" past = [⟨"b", 1⟩] ∧ (after past).memory.available = false := by
  decide

end Desk

end VoiceRoom
