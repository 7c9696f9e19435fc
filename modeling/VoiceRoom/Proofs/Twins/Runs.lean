import Mathlib.Data.List.Forall2
import VoiceRoom.Proofs.Concurrency.System
import VoiceRoom.Proofs.Twins.Workflow

/-!
# Two runs side by side

A run is decided by its store and by what it is told from outside: which requests start, which of
them is answered next, and what the provider, the clock and the like say (`inputs`). Two runs that
are told the same, on stores whose values are alike, stay side by side (`Pair.step`): each request
makes the same calls in both and is answered alike. And whatever one of them is told, the other can
be told as well (`Pair.follows`).

The likeness has to tell failures apart, since what fails in one run fails in the same way in the
other.
-/

namespace VoiceRoom.Twins

open Concurrency
open Simulation (Entry)

/-! ### What comes from outside -/

/-- What an answer tells that is not up to the store. -/
inductive Said where
  | nothing
  | provided (r : Except ProviderError String)
  | time (t : Int)
  | id (sessionId : String)
  | mode (m : Mode)
  | lines (ls : List String)

def said : Entry → Said
  | ⟨.createMeeting _, r⟩ => .provided r
  | ⟨.createParticipant .., r⟩ => .provided r
  | ⟨.now, t⟩ => .time t
  | ⟨.freshId, s⟩ => .id s
  | ⟨.mode, m⟩ => .mode m
  | ⟨.scrape, ls⟩ => .lines ls
  | _ => .nothing

inductive Input where
  | start (job : Job)
  /-- It is a task's turn to be answered. -/
  | turn (task : Nat) (said : Said)
  | switch (available : Bool)

def input : Act → Input
  | .start job => .start job
  | .answer i entry => .turn i (said entry)
  | .switch available => .switch available

/-- What a run was told from outside, latest first. -/
def inputs (past : List Act) : List Input :=
  past.map input

/-- What a program has come to, or the call that it waits for. -/
def front {α : Type} : Program α → α ⊕ Call
  | .done a => .inl a
  | .ask c _ => .inr c

/-- What is seen of a task. -/
def seen (t : Task) : Job × (Outcome ⊕ Call) :=
  (t.job, front t.rest)

namespace Likeness

variable {L : Likeness} {α : Type} {m m' : Memory} {key : String}

/-! ### Likenesses that tell failures apart -/

/-- Failures are alike only if they are the same, and each value is like itself. -/
structure Exact (L : Likeness) : Prop where
  refl : ∀ key v, L.value key v v
  storeError : ∀ {e e'}, L.storeError e e' ↔ e = e'
  providerError : ∀ {e e'}, L.providerError e e' ↔ e = e'

theorem Exact.versions (hL : L.Exact) (v : Versioned) : L.Versions key v v :=
  ⟨rfl, hL.refl key v.value⟩

theorem Exact.optional (hL : L.Exact) (v : Option Versioned) :
    Option.Rel (L.Versions key) v v := by
  cases v with
  | none => exact .none
  | some v => exact .some (hL.versions v)

/-- Every answer agrees with itself. -/
theorem Exact.answers (hL : L.Exact) (c : Call) (r : c.Answer) : L.Answers c r r := by
  cases c with
  | get key => exact .refl (fun e => hL.storeError.2 rfl) hL.optional r
  | putIf => exact .refl (fun e => hL.storeError.2 rfl) (fun _ => rfl) r
  | ping => exact .refl (fun e => hL.storeError.2 rfl) (fun _ => rfl) r
  | createMeeting => exact .refl (fun e => hL.providerError.2 rfl) (fun _ => rfl) r
  | createParticipant => exact .refl (fun e => hL.providerError.2 rfl) (fun _ => rfl) r
  | now => exact rfl
  | freshId => exact rfl
  | mode => exact rfl
  | note => trivial
  | count => trivial
  | scrape => trivial

/-- No event differs. -/
theorem Exact.eq_of_events (hL : L.Exact) {e e' : Event} (h : L.Events e e') : e = e' := by
  cases h with
  | same => rfl
  | storeFailed h => rw [hL.storeError.1 h]
  | pingFailed h => rw [hL.storeError.1 h]
  | meetingFailed s h => rw [hL.providerError.1 h]
  | tokenFailed k h => rw [hL.providerError.1 h]

theorem Exact.eq_of_faults (hL : L.Exact) {e e' : ServiceError} (h : L.Faults e e') : e = e' := by
  cases h with
  | same => rfl
  | store h => rw [hL.storeError.1 h]

/-- What a program asks for, a program like it asks for as well. -/
theorem Exact.alike_ask (hL : L.Exact) {β : Type} {R : α → β → Prop} {c : Call}
    {next : c.Answer → Program α} {q : Program β} (h : L.Alike R (.ask c next) q) :
    ∃ next', q = .ask c next' ∧ ∀ r r', L.Answers c r r' → L.Alike R (next r) (next' r') := by
  cases h with
  | ask c h => exact ⟨_, rfl, h⟩
  | note he h =>
    obtain rfl := hL.eq_of_events he
    exact ⟨_, rfl, fun _ _ _ => h⟩

/-- Every program is like itself. -/
theorem Exact.alike_program (hL : L.Exact) (appId : String) (job : Job) :
    L.Alike Eq (job.program appId) (job.program appId) := by
  have hsame : ∀ {α : Type} (r r' : Except ServiceError α), Both L.Faults Eq r r' → r = r' := by
    intro α r r' h
    cases h with
    | ok h => exact congrArg _ h
    | error h => exact congrArg _ (hL.eq_of_faults h)
  cases job with
  | create mode => exact (steady_create mode).map fun r r' h => congrArg _ (hsame r r' h)
  | join mode s r => exact (steady_join appId mode s r).map fun r r' h => congrArg _ (hsame r r' h)

/-- The likeness seen from the other side. -/
def flip (L : Likeness) : Likeness where
  value key v v' := L.value key v' v
  storeError e e' := L.storeError e' e
  providerError e e' := L.providerError e' e
  mapping h := (L.mapping h).symm
  session h := (L.session h).symm

theorem Exact.flip (hL : L.Exact) : L.flip.Exact where
  refl := hL.refl
  storeError := hL.storeError.trans eq_comm
  providerError := hL.providerError.trans eq_comm

/-! ### Stores -/

/-- Stores with the same keys and versions, and with values that are alike. -/
structure Stores (L : Likeness) (m m' : Memory) : Prop where
  available : m.available = m'.available
  lookup : ∀ key, Option.Rel (L.Versions key) (m.lookup key) (m'.lookup key)

theorem Exact.stores (hL : L.Exact) (m : Memory) : L.Stores m m :=
  ⟨rfl, fun key => hL.optional (m.lookup key)⟩

theorem Stores.flip (h : L.Stores m m') : L.flip.Stores m' m where
  available := h.available.symm
  lookup key := by
    have hkey := h.lookup key
    generalize m.lookup key = v at hkey ⊢
    generalize m'.lookup key = v' at hkey ⊢
    cases hkey with
    | none => exact .none
    | some hv => exact .some ⟨hv.version.symm, hv.value⟩

/-- Records that are alike have the same version. -/
theorem version_eq {v v' : Option Versioned} (h : Option.Rel (L.Versions key) v v') :
    v.map Versioned.version = v'.map Versioned.version := by
  cases h with
  | none => rfl
  | some hv => exact congrArg some hv.version

/-- Stores that are alike have the same next versions. -/
theorem Stores.nextVersion (h : L.Stores m m') (key : String) :
    m.nextVersion key = m'.nextVersion key := by
  have helim : ∀ v : Option Versioned,
      v.elim 0 Versioned.version = (v.map Versioned.version).getD 0 := by
    intro v
    cases v <;> rfl
  unfold Memory.nextVersion
  rw [helim, helim, version_eq (h.lookup key)]

/-- Records that are alike may be inserted. -/
theorem Stores.insert (h : L.Stores m m') {v v' : Versioned} (hv : L.Versions key v v') :
    L.Stores (m.insert key v) (m'.insert key v') where
  available := h.available
  lookup k := by
    rw [Memory.lookup_insert, Memory.lookup_insert]
    by_cases hk : k = key
    · rw [if_pos hk, if_pos hk, hk]
      exact .some hv
    · rw [if_neg hk, if_neg hk]
      exact h.lookup k

theorem Stores.get (hL : L.Exact) (h : L.Stores m m') (key : String) :
    L.Answers (.get key) (m.get key) (m'.get key) := by
  unfold Memory.get
  rw [h.available]
  split
  · exact .ok (h.lookup key)
  · exact .error (hL.storeError.2 rfl)

/-- A conditional write comes to the same in both stores, and leaves them alike. -/
theorem Stores.putIf (hL : L.Exact) (h : L.Stores m m') (key value : String)
    (expected : Option Nat) :
    (m.putIf key value expected).1 = (m'.putIf key value expected).1 ∧
      L.Stores (m.putIf key value expected).2 (m'.putIf key value expected).2 := by
  unfold Memory.putIf
  rw [h.available, version_eq (h.lookup key), h.nextVersion key]
  split
  · split
    · exact ⟨rfl, h.insert (hL.versions _)⟩
    · exact ⟨rfl, h⟩
  · exact ⟨rfl, h⟩

/-- A ping is answered alike. -/
theorem Stores.ping (h : L.Stores m m') : m.ping = m'.ping := by
  unfold Memory.ping
  rw [h.available]

/-- A call leaves stores that are alike. -/
theorem Stores.after (hL : L.Exact) (h : L.Stores m m') (c : Call) :
    L.Stores (storeAfter m c) (storeAfter m' c) := by
  cases c with
  | putIf key value expected => exact (h.putIf hL key value expected).2
  | _ => exact h

/-! ### Runs -/

/-- The same thing happened, but that the value read in one run is like the value read in the
other. -/
inductive Acts (L : Likeness) : Act → Act → Prop where
  | same (act : Act) : L.Acts act act
  | read (i : Nat) (key : String) {v v' : Versioned} (h : L.Versions key v v') :
      L.Acts (.answer i ⟨.get key, .ok (some v)⟩) (.answer i ⟨.get key, .ok (some v')⟩)

/-- Tasks that do the same job, and have come equally far. -/
structure Tasks (L : Likeness) (t t' : Task) : Prop where
  job : t.job = t'.job
  rest : L.Alike Eq t.rest t'.rest

/-- Two systems side by side. -/
structure Pair (L : Likeness) (σ τ : System) : Prop where
  store : L.Stores σ.store τ.store
  past : List.Forall₂ L.Acts σ.past τ.past
  length : σ.tasks.length = τ.tasks.length
  tasks : ∀ i : Nat, Option.Rel L.Tasks σ.tasks[i]? τ.tasks[i]?

variable {appId : String} {σ σ' τ τ' : System}

/-- Systems with stores that are alike are a pair. -/
theorem Stores.pair (h : L.Stores m m') : L.Pair ⟨⟨m, []⟩, []⟩ ⟨⟨m', []⟩, []⟩ :=
  ⟨h, .nil, rfl, fun _ => .none⟩

/-- A task has a twin. -/
theorem Pair.twin (h : L.Pair σ τ) {i : Nat} {t : Task} (ht : σ.tasks[i]? = some t) :
    ∃ t', τ.tasks[i]? = some t' ∧ L.Tasks t t' := by
  have hi := h.tasks i
  rw [ht] at hi
  generalize τ.tasks[i]? = found at hi
  cases hi with
  | some htwin => exact ⟨_, rfl, htwin⟩

/-- A task that waits for a call has a twin that waits for it as well. -/
theorem Pair.waiting (hL : L.Exact) (h : L.Pair σ τ) {i : Nat} {job : Job} {c : Call}
    {rest : c.Answer → Program Outcome} (htask : σ.tasks[i]? = some ⟨job, .ask c rest⟩) :
    ∃ rest', τ.tasks[i]? = some ⟨job, .ask c rest'⟩ ∧
      ∀ r r', L.Answers c r r' → L.Alike Eq (rest r) (rest' r') := by
  obtain ⟨⟨job', program'⟩, ht', htwin⟩ := h.twin htask
  obtain ⟨rest', hrest, hnext⟩ := hL.alike_ask htwin.rest
  obtain rfl : job = job' := htwin.job
  obtain rfl : program' = .ask c rest' := hrest
  exact ⟨rest', ht', hnext⟩

theorem Pair.start (hL : L.Exact) (h : L.Pair σ τ) (appId : String) (job : Job) :
    L.Pair ⟨σ.world.next (.start job), σ.tasks ++ [⟨job, job.program appId⟩]⟩
      ⟨τ.world.next (.start job), τ.tasks ++ [⟨job, job.program appId⟩]⟩ where
  store := h.store
  past := .cons (.same _) h.past
  length := by
    rw [List.length_append, List.length_append, h.length]
  tasks i := by
    rw [List.getElem?_append, List.getElem?_append, h.length]
    split
    · exact h.tasks i
    · rw [List.getElem?_singleton]
      split
      · exact .some ⟨rfl, hL.alike_program appId job⟩
      · exact .none

/-- Answers that are alike may be given in both. -/
theorem Pair.answer (hL : L.Exact) (h : L.Pair σ τ) {i : Nat} {job : Job} {c : Call}
    {r r' : c.Answer} {program program' : Program Outcome} (hrest : L.Alike Eq program program')
    (hact : L.Acts (.answer i ⟨c, r⟩) (.answer i ⟨c, r'⟩)) :
    L.Pair ⟨σ.world.next (.answer i ⟨c, r⟩), σ.tasks.set i ⟨job, program⟩⟩
      ⟨τ.world.next (.answer i ⟨c, r'⟩), τ.tasks.set i ⟨job, program'⟩⟩ where
  store := h.store.after hL c
  past := .cons hact h.past
  length := by
    rw [List.length_set, List.length_set, h.length]
  tasks k := by
    rw [List.getElem?_set, List.getElem?_set, h.length]
    split
    · split
      · exact .some ⟨rfl, hrest⟩
      · exact .none
    · exact h.tasks k

/-- The store may be switched in both. -/
theorem Pair.switch (h : L.Pair σ τ) (available : Bool) :
    L.Pair ⟨σ.world.next (.switch available), σ.tasks⟩
      ⟨τ.world.next (.switch available), τ.tasks⟩ :=
  ⟨⟨rfl, h.store.lookup⟩, .cons (.same _) h.past, h.length, h.tasks⟩

/-- Answers of worlds that are alike, if what they tell from outside is the same. -/
theorem Stores.answers (hL : L.Exact) {w w' : World} (h : L.Stores w.store w'.store) {c : Call}
    {r r' : c.Answer} (hr : w.Answers c r) (hr' : w'.Answers c r')
    (hsaid : said ⟨c, r⟩ = said ⟨c, r'⟩) (i : Nat) :
    L.Answers c r r' ∧ L.Acts (.answer i ⟨c, r⟩) (.answer i ⟨c, r'⟩) := by
  have hsame : r = r' → L.Answers c r r' ∧ L.Acts (.answer i ⟨c, r⟩) (.answer i ⟨c, r'⟩) := by
    rintro rfl
    exact ⟨hL.answers c r, .same _⟩
  cases c with
  | get key =>
    have hget := h.get hL key
    rw [← show r = w.store.get key from hr, ← show r' = w'.store.get key from hr'] at hget
    refine ⟨hget, ?_⟩
    -- What is read is the only thing that may differ.
    cases hget with
    | error he =>
      obtain rfl := hL.storeError.1 he
      exact .same _
    | ok hv =>
      cases hv with
      | none => exact .same _
      | some hv => exact .read i key hv
  | putIf key value expected =>
    have hput := (h.putIf hL key value expected).1
    exact hsame (hr.trans (hput.trans hr'.symm))
  | ping => exact hsame (hr.trans (h.ping.trans hr'.symm))
  | note => exact hsame rfl
  | count => exact hsame rfl
  | _ =>
    simp only [said, Said.provided.injEq, Said.time.injEq, Said.id.injEq, Said.mode.injEq,
      Said.lines.injEq] at hsaid
    exact hsame hsaid

/-- Systems side by side stay so, if they are told the same. -/
theorem Pair.step (hL : L.Exact) (h : L.Pair σ τ) (hσ : Step appId σ σ') (hτ : Step appId τ τ')
    (hinputs : inputs σ'.past = inputs τ'.past) : L.Pair σ' τ' := by
  -- The inputs say which step the other system takes, so that no other pair of steps is left.
  cases hσ with
  | start job =>
    cases hτ with
    | start job' =>
      obtain rfl := Input.start.inj (List.cons.inj hinputs).1
      exact h.start hL appId job
    | answer => exact nomatch (List.cons.inj hinputs).1
    | switch => exact nomatch (List.cons.inj hinputs).1
  | @answer i job c rest r htask hr =>
    cases hτ with
    | start => exact nomatch (List.cons.inj hinputs).1
    | @answer i' job' c' rest' r' htask' hr' =>
      obtain ⟨rfl, hsaid⟩ := Input.turn.inj (List.cons.inj hinputs).1
      obtain ⟨twin, htwin, hnext⟩ := h.waiting hL htask
      obtain ⟨rfl, hprogram⟩ := Task.mk.inj (Option.some.inj (htwin.symm.trans htask'))
      obtain ⟨rfl, hrest⟩ := Program.ask.inj hprogram
      obtain rfl := eq_of_heq hrest
      obtain ⟨hanswers, hact⟩ := h.store.answers hL hr hr' hsaid i
      exact h.answer hL (hnext r r' hanswers) hact
    | switch => exact nomatch (List.cons.inj hinputs).1
  | switch available =>
    cases hτ with
    | start => exact nomatch (List.cons.inj hinputs).1
    | answer => exact nomatch (List.cons.inj hinputs).1
    | switch available' =>
      obtain rfl := Input.switch.inj (List.cons.inj hinputs).1
      exact h.switch available

/-- Acts that are alike have the same input. -/
theorem Acts.input {act act' : Act} (h : L.Acts act act') : input act = input act' := by
  cases h <;> rfl

/-- A pair has had the same inputs. -/
theorem Pair.inputs (h : L.Pair σ τ) : inputs σ.past = inputs τ.past := by
  have hsame : ∀ {past past' : List Act}, List.Forall₂ L.Acts past past' →
      Twins.inputs past = Twins.inputs past' := by
    intro past past' hpast
    induction hpast with
    | nil => rfl
    | cons hact _ ih => exact congrArg₂ List.cons hact.input ih
  exact hsame h.past

/-- Whatever one world is told, the other can be told as well. -/
theorem Stores.exists_answer (hL : L.Exact) {w w' : World} (h : L.Stores w.store w'.store)
    {c : Call} {r : c.Answer} (hr : w.Answers c r) (i : Nat) :
    ∃ r', w'.Answers c r' ∧ L.Answers c r r' ∧
      L.Acts (.answer i ⟨c, r⟩) (.answer i ⟨c, r'⟩) := by
  have htold : ∀ r', w'.Answers c r' → said ⟨c, r⟩ = said ⟨c, r'⟩ → ∃ r', w'.Answers c r' ∧
      L.Answers c r r' ∧ L.Acts (.answer i ⟨c, r⟩) (.answer i ⟨c, r'⟩) :=
    fun r' hr' hsaid => ⟨r', hr', h.answers hL hr hr' hsaid i⟩
  cases c with
  | get key => exact htold _ rfl rfl
  | putIf key value expected => exact htold _ rfl rfl
  | ping => exact htold _ rfl rfl
  | now => exact htold r hr rfl
  | _ => exact htold r trivial rfl

/-- Every step of one system can be followed by the other, which then answers the same call with
what its own store holds. -/
theorem Pair.follows (hL : L.Exact) (h : L.Pair σ τ) (hσ : Step appId σ σ') :
    ∃ τ', Step appId τ τ' ∧ L.Pair σ' τ' := by
  cases hσ with
  | start job => exact ⟨_, .start τ job, h.start hL appId job⟩
  | @answer i job c rest r htask hr =>
    obtain ⟨rest', htwin, hnext⟩ := h.waiting hL htask
    obtain ⟨r', hr', hanswers, hact⟩ := h.store.exists_answer hL hr i
    exact ⟨_, .answer r' htwin hr', h.answer hL (hnext r r' hanswers) hact⟩
  | switch available => exact ⟨_, .switch τ available, h.switch available⟩

/-! ### Whole runs -/

/-- Every run of one system can be followed by the other. -/
theorem Pair.run_follows (hL : L.Exact) (h : L.Pair σ τ) (hrun : Run appId σ σ') :
    ∃ τ', Run appId τ τ' ∧ L.Pair σ' τ' := by
  induction hrun with
  | refl => exact ⟨τ, .refl, h⟩
  | tail _ hstep ih =>
    obtain ⟨τ', hrun', hpair⟩ := ih
    obtain ⟨τ'', hstep', hpair'⟩ := hpair.follows hL hstep
    exact ⟨τ'', hrun'.tail hstep', hpair'⟩

/-- Runs that are told the same end side by side. -/
theorem pair_of_runs (hL : L.Exact) (h : L.Stores m m') (hσ : Run appId ⟨⟨m, []⟩, []⟩ σ)
    (hτ : Run appId ⟨⟨m', []⟩, []⟩ τ) (hinputs : inputs σ.past = inputs τ.past) : L.Pair σ τ := by
  -- The runs are as long as their inputs, so that the last steps of both belong together.
  induction hσ generalizing τ with
  | refl =>
    cases hτ with
    | refl => exact h.pair
    | tail _ hstep =>
      obtain ⟨act, hnext, -⟩ := hstep.next
      rw [System.past, System.past, hnext] at hinputs
      exact nomatch hinputs
  | @tail σ₁ σ₂ _ hstep ih =>
    obtain ⟨act, hnext, -⟩ := hstep.next
    cases hτ with
    | refl =>
      rw [System.past, hnext] at hinputs
      exact nomatch hinputs
    | tail hτ₁ hstep' =>
      obtain ⟨act', hnext', -⟩ := hstep'.next
      refine (ih hτ₁ ?_).step hL hstep hstep' hinputs
      rw [System.past, System.past, hnext, hnext'] at hinputs
      exact (List.cons.inj hinputs).2

/-- Tasks side by side show the same. -/
theorem Tasks.seen (hL : L.Exact) {t t' : Task} (h : L.Tasks t t') : seen t = seen t' := by
  have hfront : ∀ {p q : Program Outcome}, L.Alike Eq p q → front p = front q := by
    intro p q hpq
    cases hpq with
    | done hsame => exact congrArg Sum.inl hsame
    | ask c _ => rfl
    | note he _ =>
      obtain rfl := hL.eq_of_events he
      rfl
  exact Prod.ext h.job (hfront h.rest)

/-- The outcomes of a pair are the same. -/
theorem Pair.seen (hL : L.Exact) (h : L.Pair σ τ) : σ.tasks.map seen = τ.tasks.map seen := by
  refine List.ext_getElem? fun i => ?_
  rw [List.getElem?_map, List.getElem?_map]
  have hi := h.tasks i
  generalize σ.tasks[i]? = found at hi ⊢
  generalize τ.tasks[i]? = found' at hi ⊢
  cases hi with
  | none => rfl
  | some htwin => exact congrArg some (htwin.seen hL)

end Likeness

end VoiceRoom.Twins
