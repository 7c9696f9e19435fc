import VoiceRoom.Proofs.Concurrency.Chronicle
import VoiceRoom.Proofs.Conduct.Requests

/-!
# Requests of a run keep to their codes

However requests run side by side, each of them makes only calls that its code permits
(`obeyed_of_run`). What a request was shown was in the store at the time, so what it knows of its
session id is true of the world it is in: a meeting that is known was given for the session id
(`Known.given`), and a member that is vouched for is in the session that is stored
(`Vouched.stored`).
-/

namespace VoiceRoom

open Conduct
open Simulation (Entry)

namespace Concurrency

variable {appId : String} {σ τ : System} {past : List Act} {i : Nat}

/-! ### How far tasks have come -/

/-- What the world answers fits the call. -/
theorem World.Answers.fits {w : World} {c : Call} {r : c.Answer} (h : w.Answers c r) :
    c.Fits r := by
  cases c with
  | now => exact h
  | _ => trivial

/-- A single step in a world that answers as it likes. Only its clock shows a word; the store that
the system holds has no say. -/
inductive FreeStep (appId : String) : System → System → Prop where
  | start (σ : System) (job : Job) :
      FreeStep appId σ ⟨σ.world.next (.start job), σ.tasks ++ [⟨job, job.program appId⟩]⟩
  | answer {σ : System} {i : Nat} {job : Job} {c : Call} {rest : c.Answer → Program Outcome}
      (r : c.Answer) (htask : σ.tasks[i]? = some ⟨job, .ask c rest⟩) (hr : c.Fits r) :
      FreeStep appId σ ⟨σ.world.next (.answer i ⟨c, r⟩), σ.tasks.set i ⟨job, rest r⟩⟩
  | switch (σ : System) (available : Bool) :
      FreeStep appId σ ⟨σ.world.next (.switch available), σ.tasks⟩

/-- Any number of such steps, in any order. -/
def FreeRun (appId : String) : System → System → Prop :=
  Relation.ReflTransGen (FreeStep appId)

/-- Every step is one of a system whose store answers anything that fits. -/
theorem Step.free (h : Step appId σ τ) : FreeStep appId σ τ := by
  cases h with
  | start job => exact .start σ job
  | answer r htask hr => exact .answer r htask hr.fits
  | switch available => exact .switch σ available

/-- Every run is one of a system whose store answers anything that fits. -/
theorem Run.free (h : Run appId σ τ) : FreeRun appId σ τ :=
  Relation.ReflTransGen.mono (fun _ _ => Step.free) _ _ h

/-- Each task has come as far as its own answers took it. -/
structure Underway (appId : String) (σ : System) : Prop where
  task : ∀ i t, σ.tasks[i]? = some t → Came (t.job.program appId) (own i σ.past) t.rest
  new : ∀ i, σ.tasks.length ≤ i → own i σ.past = []

/-- A step leaves every task underway to what it has to do. The answer may be any that fits, so that
this holds over every store. -/
theorem Underway.freeStep (h : Underway appId σ) (hstep : FreeStep appId σ τ) :
    Underway appId τ := by
  cases hstep with
  | start job =>
    refine ⟨fun i t ht => ?_, fun i hi => h.new i ?_⟩
    -- A task was there before, or is the one that starts.
    · rcases Nat.lt_or_ge i σ.tasks.length with hi | hi
      · rw [List.getElem?_append_left hi] at ht
        exact h.task i t ht
      · rw [List.getElem?_append_right hi, List.getElem?_singleton] at ht
        split at ht
        · obtain rfl := Option.some.inj ht
          show Came _ (own i σ.past) _
          rw [h.new i hi]
          exact .start
        · exact nomatch ht
    · rw [List.length_append] at hi
      exact Nat.le_of_add_right_le hi
  | @answer k job c rest r htask hr =>
    have hk : k < σ.tasks.length := (List.getElem?_eq_some_iff.1 htask).1
    refine ⟨fun i t ht => ?_, fun i hi => ?_⟩
    -- A task is the one that was answered, or another one.
    · by_cases hik : k = i
      · subst hik
        rw [List.getElem?_set_self hk] at ht
        obtain rfl := Option.some.inj ht
        rw [System.past, World.past_next, own_answer_self]
        exact (h.task k _ htask).answer r hr
      · rw [List.getElem?_set_ne hik] at ht
        rw [System.past, World.past_next, own_answer_of_ne hik]
        exact h.task i t ht
    · rw [List.length_set] at hi
      rw [System.past, World.past_next, own_answer_of_ne (by omega)]
      exact h.new i hi
  | switch available => exact ⟨h.task, h.new⟩

/-- The same for a step of a system with a store. -/
theorem Underway.step (h : Underway appId σ) (hstep : Step appId σ τ) : Underway appId τ :=
  h.freeStep hstep.free

theorem underway_empty (m : Memory) : Underway appId ⟨⟨m, []⟩, []⟩ :=
  ⟨fun _ _ h => (nomatch h), fun _ _ => rfl⟩

/-- In every free run all the tasks are underway. -/
theorem underway_of_freeRun (hrun : FreeRun appId {} σ) : Underway appId σ := by
  induction hrun with
  | refl => exact underway_empty {}
  | tail _ hstep ih => exact ih.freeStep hstep

/-- In every run all the tasks are underway. -/
theorem underway_of_run (hrun : Run appId {} σ) : Underway appId σ :=
  underway_of_freeRun hrun.free

/-- A task makes only calls that the code of its job permits. -/
theorem Underway.obeyed (h : Underway appId σ) {t : Task} (ht : σ.tasks[i]? = some t) :
    (code t.job).Obeyed (own i σ.past) :=
  ((abides_program appId t.job).came (h.task i t ht)).1

/-- The outcome of a task is earned by what it was told. -/
theorem Underway.earned (h : Underway appId σ) {job : Job} {outcome : Outcome}
    (hfinished : σ.Finished i job outcome) : Earned job outcome (own i σ.past) :=
  ((abides_program appId job).came (h.task i _ hfinished)).2

/-- Every task obeys the code of its job. -/
theorem obeyed_of_run (hrun : Run appId {} σ) {t : Task} (ht : σ.tasks[i]? = some t) :
    (code t.job).Obeyed (own i σ.past) :=
  (underway_of_run hrun).obeyed ht

/-! ### What a task was told -/

/-- A call that a task was answered was answered at some time, after all that it was told before. -/
theorem exists_answer_of_suffix {e : Entry} {before : List Entry} (h : e :: before <:+ own i past) :
    ∃ p, Act.answer i e :: p <:+ past ∧ own i p = before := by
  induction past with
  | nil => exact nomatch List.suffix_nil.1 h
  | cons act past ih =>
    have hlater : e :: before <:+ own i past →
        ∃ p, Act.answer i e :: p <:+ act :: past ∧ own i p = before := by
      intro hbefore
      obtain ⟨p, hp, hown⟩ := ih hbefore
      exact ⟨p, hp.trans (List.suffix_cons act past), hown⟩
    cases act with
    | start job => exact hlater h
    | switch available => exact hlater h
    | answer j e' =>
      -- Only an answer to the task itself can be the entry that is looked for.
      by_cases hj : j = i
      · subst hj
        rw [own_answer_self] at h
        rcases List.suffix_cons_iff.1 h with hlast | hbefore
        · obtain ⟨rfl, rfl⟩ := List.cons.inj hlast
          exact ⟨past, List.suffix_refl _, rfl⟩
        · exact hlater hbefore
      · rw [own_answer_of_ne hj] at h
        exact hlater h

/-- What a task was told happened at some point of the past. -/
theorem exists_suffix_of_mem_own {e : Entry} (h : e ∈ own i past) :
    ∃ before, Act.answer i e :: before <:+ past := by
  obtain ⟨later, before, hsplit⟩ := List.append_of_mem h
  obtain ⟨p, hp, -⟩ := exists_answer_of_suffix ⟨later, hsplit.symm⟩
  exact ⟨p, hp⟩

/-- A write that was answered was made. -/
theorem next_of_written {w : World} {key value : String} {expected : Option Nat} {n : Nat}
    (hallows : w.Allows (.answer i ⟨.putIf key value expected, .ok (.written n)⟩)) :
    (w.next (.answer i ⟨.putIf key value expected, .ok (.written n)⟩)).store =
        w.store.insert key ⟨value, n⟩ ∧
      (w.store.lookup key).map Versioned.version = expected ∧ n = w.store.nextVersion key := by
  rcases putIf_cases hallows with ⟨hup, hversion, hr⟩ | ⟨-, -, hr⟩ | ⟨-, hr⟩
  · obtain rfl : n = w.store.nextVersion key := by
      cases hr
      rfl
    exact ⟨congrArg World.store (next_eq_written hup hversion), hversion, rfl⟩
  · exact nomatch hr
  · exact nomatch hr

end Concurrency

/-- What is got is what is there. -/
theorem Memory.lookup_of_get {m : Memory} {key : String} {v : Option Versioned}
    (h : m.get key = .ok v) : m.lookup key = v := by
  unfold Memory.get at h
  split at h
  · exact Except.ok.inj h
  · exact nomatch h

namespace Conduct

open Concurrency

variable {past : List Act} {i : Nat}

/-- What was read or written was in the store. -/
theorem Shown.exists_lookup {key : String} {v : Versioned} (hkept : Kept past)
    (h : Shown (own i past) key v) : ∃ p, p <:+ past ∧ (storeOf p).lookup key = some v := by
  cases h with
  | read h =>
    obtain ⟨p, hp⟩ := exists_suffix_of_mem_own h
    have hread : Except.ok (some v) = (storeOf p).get key := hkept.allowed _ p hp
    exact ⟨p, (List.suffix_cons _ p).trans hp, Memory.lookup_of_get hread.symm⟩
  | written expected h =>
    obtain ⟨p, hp⟩ := exists_suffix_of_mem_own h
    refine ⟨_, hp, ?_⟩
    have hstore := (next_of_written (hkept.allowed _ p hp)).1
    rw [← storeOf_cons (w := worldOf p) rfl] at hstore
    rw [worldOf] at hstore
    rw [hstore, Memory.lookup_insert, if_pos rfl]

/-- A meeting that is known was given for the session id. -/
theorem Known.given {mode : Mode} {s : String} {mapping : Mapping} (hkept : Kept past)
    (h : Known mode s (own i past) mapping) : Given past s mapping := by
  cases h with
  | obtained h =>
    cases h with
    | skipped hmode => exact rfl
    | refused e hmode h => exact rfl
    | given hmode h =>
      obtain ⟨p, hp⟩ := exists_suffix_of_mem_own h
      exact (grants_suffix hp).subset List.mem_cons_self
  | found v h hdecode =>
    obtain ⟨p, hp, hlookup⟩ := Shown.exists_lookup hkept (.read h)
    have hat : (storeOf p).mappingAt s = some mapping := by
      rw [Memory.mappingAt_of_lookup hlookup, hdecode]
    exact ((hkept.sound p hp).mapped s mapping hat).of_suffix hp

/-- A member that is vouched for is in the session that is stored. -/
theorem Vouched.stored {meetingId userId : String} (hkept : Kept past) (hfresh : FreshGrants past)
    (h : Vouched (own i past) meetingId userId) :
    ∃ x, (storeOf past).sessionAt meetingId = some x ∧ x.hasMember userId := by
  obtain ⟨v, y, hshown, hdecode, hmember⟩ := h
  obtain ⟨p, hp, hlookup⟩ := hshown.exists_lookup hkept
  have hat : (worldOf p).store.sessionAt meetingId = some y :=
    Memory.sessionAt_of_lookup hlookup hdecode
  obtain ⟨x, hx, hcontinues⟩ :=
    (hkept.grows p past hp (List.suffix_refl past)).sessions hfresh meetingId y hat
  exact ⟨x, hx, hcontinues.hasMember hmember⟩

end Conduct

end VoiceRoom
