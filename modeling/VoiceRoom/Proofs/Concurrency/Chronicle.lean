import VoiceRoom.Proofs.Concurrency.Guarantees
import VoiceRoom.Proofs.Concurrency.History

/-!
# What a run went through

The past of a run tells every world that the run went through (`worldOf`), and what was true of
every run was true there: calls were answered as they had to be and the ledger was kept (`Kept`).

So who reasons about runs from the beginning may take the ledger for granted. A bylaw says no more
than what it adds (`Bylaw.discipline`), and what the ledger says of a request is known of it under
every bylaw (`Bylaw.holds_and`).
-/

namespace VoiceRoom.Concurrency

open Discipline
open Simulation (Entry)

variable {appId : String} {σ τ : System}

/-! ### The worlds of the past -/

/-- The store of a run is the one that its past tells of. -/
theorem storeOf_of_run (hrun : Run appId {} σ) : σ.store = storeOf σ.past := by
  induction hrun with
  | refl => rfl
  | tail _ hstep ih =>
    obtain ⟨act, hnext, -⟩ := hstep.next
    rw [System.store, System.past, hnext]
    exact (storeOf_cons ih act).symm

/-- The world after all that happened. -/
def worldOf (past : List Act) : World :=
  ⟨storeOf past, past⟩

/-- A world whose store its past explains is the world of that past. -/
theorem eq_worldOf {w : World} (h : w.store = storeOf w.past) : w = worldOf w.past := by
  rw [worldOf, ← h]

/-- Every run leads to the world of its past. -/
theorem worldOf_of_run (hrun : Run appId {} σ) : σ.world = worldOf σ.past :=
  eq_worldOf (storeOf_of_run hrun)

/-- A run went through every world of its past. -/
theorem exists_run_of_suffix (hrun : Run appId {} σ) {past : List Act} (h : past <:+ σ.past) :
    ∃ τ : System, τ.past = past ∧ Run appId {} τ ∧ Run appId τ σ := by
  induction hrun with
  | refl =>
    obtain rfl : past = [] := List.suffix_nil.1 h
    exact ⟨{}, rfl, .refl, .refl⟩
  | @tail σ τ hrun hstep ih =>
    obtain ⟨act, hnext, -⟩ := hstep.next
    rw [System.past, hnext, World.past_next] at h
    -- It is the world that the run came to, or one that it came through.
    rcases List.suffix_cons_iff.1 h with hall | hbefore
    · exact ⟨τ, (congrArg World.past hnext).trans hall.symm, .tail hrun hstep, .refl⟩
    · obtain ⟨υ, hpast, hυ, hυσ⟩ := ih hbefore
      exact ⟨υ, hpast, hυ, .tail hυσ hstep⟩

/-- What every run keeps was kept throughout the past. -/
structure Kept (past : List Act) : Prop where
  allowed : ∀ act p, act :: p <:+ past → (worldOf p).Allows act
  sound : ∀ p, p <:+ past → Sound (worldOf p)
  grows : ∀ p q, p <:+ q → q <:+ past → Grows (worldOf p) (worldOf q)

theorem Kept.of_suffix {past past' : List Act} (h : Kept past') (hsuffix : past <:+ past') :
    Kept past where
  allowed act p hp := h.allowed act p (hp.trans hsuffix)
  sound p hp := h.sound p (hp.trans hsuffix)
  grows p q hpq hq := h.grows p q hpq (hq.trans hsuffix)

/-- In a run nothing happened that could not happen. -/
theorem allowed_of_run (hrun : Run appId {} σ) :
    ∀ act p, act :: p <:+ σ.past → (worldOf p).Allows act := by
  induction hrun with
  | refl => exact fun act p h => nomatch List.suffix_nil.1 h
  | @tail σ τ hrun hstep ih =>
    obtain ⟨act, hnext, hallows⟩ := hstep.next
    intro act' p hp
    rw [System.past, hnext, World.past_next] at hp
    rcases List.suffix_cons_iff.1 hp with hlast | hbefore
    · obtain ⟨rfl, rfl⟩ := List.cons.inj hlast
      rw [← worldOf_of_run hrun]
      exact hallows
    · exact ih act' p hbefore

/-- Runs keep what is to be kept. -/
theorem kept_of_run (hrun : Run appId {} σ) : Kept σ.past where
  allowed := allowed_of_run hrun
  sound p hp := by
    obtain ⟨τ, rfl, hτ, -⟩ := exists_run_of_suffix hrun hp
    rw [← worldOf_of_run hτ]
    exact (ledger_of_run hτ).inv
  grows p q hpq hq := by
    obtain ⟨τ, rfl, hτ, -⟩ := exists_run_of_suffix hrun hq
    obtain ⟨υ, rfl, hυ, hυτ⟩ := exists_run_of_suffix hτ hpq
    rw [← worldOf_of_run hτ, ← worldOf_of_run hυ]
    exact grows_of_run hυ hυτ

/-! ### The jobs of the past -/

/-- The job that is started, if one is. -/
def Act.started : Act → Option Job
  | .start job => some job
  | _ => none

/-- The jobs in the order in which they were started, which is how tasks are numbered. -/
def jobs (past : List Act) : List Job :=
  (past.filterMap Act.started).reverse

/-- A job that starts is the last one. -/
theorem jobs_start (job : Job) (past : List Act) : jobs (.start job :: past) = jobs past ++ [job] :=
  List.reverse_cons

/-- A task keeps its job. -/
theorem getElem?_jobs_of_suffix {past past' : List Act} {i : Nat} {job : Job}
    (h : past <:+ past') (hjob : (jobs past)[i]? = some job) : (jobs past')[i]? = some job := by
  have hprefix : jobs past <+: jobs past' := List.reverse_prefix.2 (h.filterMap _)
  obtain ⟨later, hlater⟩ := hprefix
  rw [← hlater, List.getElem?_append_left (List.getElem?_eq_some_iff.1 hjob).1]
  exact hjob

/-- The jobs that were started are those of the tasks, in the same order. -/
theorem jobs_of_run (hrun : Run appId {} σ) : jobs σ.past = σ.tasks.map Task.job := by
  induction hrun with
  | refl => rfl
  | @tail σ τ _ hstep ih =>
    cases hstep with
    | start job =>
      show jobs (.start job :: σ.past) = _
      rw [jobs_start, ih, List.map_append]
      rfl
    | @answer i job c rest r htask hr =>
      show jobs σ.past = _
      -- The task that was answered has the job that it had.
      obtain ⟨hi, hget⟩ := List.getElem?_eq_some_iff.1 htask
      have hlength : i < (σ.tasks.map Task.job).length := by rwa [List.length_map]
      have hjob : job = (σ.tasks.map Task.job)[i] := by
        rw [List.getElem_map, hget]
      rw [ih, List.map_set, hjob, List.set_getElem_self]
    | switch available => exact ih

/-- A job that starts is the job of the task that comes last. -/
theorem jobs_start_of_run (hrun : Run appId {} σ) (job : Job) :
    (jobs (.start job :: σ.past))[σ.tasks.length]? = some job := by
  rw [jobs_start, jobs_of_run hrun, ← List.length_map (f := Task.job), List.getElem?_concat_length]

/-- The job of a task that has come to an end. -/
theorem getElem?_jobs_of_finished (hrun : Run appId {} σ) {i : Nat} {job : Job} {outcome : Outcome}
    (h : σ.Finished i job outcome) : (jobs σ.past)[i]? = some job := by
  rw [jobs_of_run hrun, List.getElem?_map, h, Option.map_some]

/-! ### Bylaws -/

/-- What a discipline says beyond the ledger. -/
structure Bylaw where
  /-- What is taken for granted about a run. -/
  assumes : List Act → Prop
  /-- What holds at any time. -/
  inv : World → Prop
  assumes_tail : ∀ {act past}, assumes (act :: past) → assumes past
  /-- Only writes can break it. -/
  quiet : ∀ {w act}, ¬ act.Writes → w.Allows act → assumes (act :: w.past) → inv w →
    inv (w.next act)

namespace Bylaw

/-- What may be taken for granted under a bylaw. -/
structure Assumes (B : Bylaw) (past : List Act) : Prop where
  kept : Kept past
  fresh : FreshGrants past
  own : B.assumes past

/-- What holds at any time under a bylaw. -/
structure Inv (B : Bylaw) (w : World) : Prop where
  replay : w.store = storeOf w.past
  own : B.inv w

variable {B : Bylaw} {i : Nat} {u v w : World} {α : Type}

/-- The past explains the next world as well. -/
theorem Inv.next (h : B.Inv w) {act : Act} (hown : B.inv (w.next act)) : B.Inv (w.next act) :=
  ⟨(storeOf_cons h.replay act).symm, hown⟩

/-- Under the invariant a world is known by its past. -/
theorem Inv.eq_worldOf (h : B.Inv w) : w = worldOf w.past :=
  Concurrency.eq_worldOf h.replay

/-- Under the invariant the records are sound. -/
theorem Inv.sound (h : B.Inv w) (hassumes : B.Assumes w.past) : Sound w := by
  rw [h.eq_worldOf]
  exact hassumes.kept.sound w.past (List.suffix_refl _)

/-- Whatever happens, the ledger is known to be kept. -/
theorem Inv.grows_next (h : B.Inv w) {act : Act} (hassumes : B.Assumes (act :: w.past)) :
    Grows w (w.next act) := by
  have hgrows := hassumes.kept.grows w.past _ (List.suffix_cons act _) (List.suffix_refl _)
  have hnext : worldOf (act :: w.past) = w.next act := by
    rw [worldOf, storeOf_cons h.replay]
    rfl
  rw [hnext, ← h.eq_worldOf] at hgrows
  exact hgrows

/-- The ledger and a bylaw. -/
def discipline (B : Bylaw) : Discipline where
  assumes := B.Assumes
  inv := B.Inv
  le := Grows
  refl := grows_refl
  trans := Grows.trans
  assumes_tail h := ⟨h.kept.of_suffix (List.suffix_cons _ _),
    h.fresh.of_suffix (List.suffix_cons _ _), B.assumes_tail h.own⟩
  quiet hact hallows hassumes h :=
    ⟨h.next (B.quiet hact hallows hassumes.own h.own), h.grows_next hassumes⟩

/-- What is later under a bylaw is later for the ledger. -/
theorem ledger_later (h : B.discipline.Later i u v) : ledger.Later i u v where
  assumes := trivial
  inv := Inv.sound h.inv h.assumes
  le := h.le
  own := h.own

/-- What the ledger says of a program is known of it under a bylaw. -/
theorem holds_and {p : Program α} {Q R : α → World → Prop} (hledger : ledger.Holds i p Q u)
    (h : B.discipline.Holds i p R u) : B.discipline.Holds i p (fun a v => Q a v ∧ R a v) u := by
  induction p generalizing u with
  | done a => exact fun v hv => ⟨hledger v (ledger_later hv), h v hv⟩
  | ask c rest ih =>
    intro v hv r hr hassumes
    obtain ⟨hinv, hle, hrest⟩ := h v hv r hr hassumes
    obtain ⟨-, -, hrest'⟩ := hledger v (ledger_later hv) r hr trivial
    exact ⟨hinv, hle, ih r hrest' hrest⟩

/-- What the ledger ensures may be added to what a bylaw ensures. -/
theorem ensures_and {x : Request α} {Q R : α → World → Prop} {E F : ServiceError → World → Prop}
    (hledger : ledger.Ensures i x Q E u) (h : B.discipline.Ensures i x R F u) :
    B.discipline.Ensures i x (fun a v => Q a v ∧ R a v) (fun e v => E e v ∧ F e v) u := by
  refine (holds_and hledger h).mono fun result v _ _ hresult => ?_
  cases result with
  | ok a => exact hresult
  | error e => exact hresult

/-- A write that was answered was made. -/
theorem next_eq_of_assumes {key value : String} {expected : Option Nat} (hv : B.Inv v)
    (hassumes : B.Assumes (v.written i key value expected).past) :
    v.next (.answer i ⟨.putIf key value expected, .ok (.written (v.store.nextVersion key))⟩) =
      v.written i key value expected := by
  have hallows := hassumes.kept.allowed _ v.past (List.suffix_refl _)
  rw [← hv.eq_worldOf] at hallows
  rcases putIf_cases hallows with ⟨hup, hversion, -⟩ | ⟨-, -, hr⟩ | ⟨-, hr⟩
  · exact next_eq_written hup hversion
  · exact nomatch hr
  · exact nomatch hr

/-- After a write, a bylaw has to say nothing but what it adds. -/
theorem inv_written {key value : String} {expected : Option Nat} (hv : B.Inv v)
    (hassumes : B.Assumes (v.written i key value expected).past)
    (hown : B.inv (v.written i key value expected)) :
    B.Inv (v.written i key value expected) ∧ Grows v (v.written i key value expected) := by
  rw [← next_eq_of_assumes hv hassumes] at hown ⊢
  exact ⟨hv.next hown, hv.grows_next hassumes⟩

/-- If every job keeps a bylaw from where it starts, so does every run from the beginning. -/
theorem governs_of_run {post : Nat → Job → Outcome → World → Prop} (hrun : Run appId {} σ)
    (hassumes : B.Assumes σ.past) (hempty : B.inv {})
    (hjob : ∀ i job w, (jobs w.past)[i]? = some job → own i w.past = [] →
      B.discipline.Later i w w → B.discipline.Holds i (job.program appId) (post i job) w) :
    B.discipline.Governs post σ := by
  have hstart : B.discipline.Governs post {} :=
    ⟨⟨rfl, hempty⟩, fun _ _ h => (nomatch h), fun _ _ => rfl⟩
  refine (hstart.run_of_start hrun hassumes fun τ job hτ hlater hinv _ hown => ?_).2
  exact hjob τ.tasks.length job _ (jobs_start_of_run hτ job) hown (.self hlater hinv)

end Bylaw

end VoiceRoom.Concurrency
