import Mathlib.Algebra.BigOperators.Group.Finset.Piecewise
import VoiceRoom.Proofs.Accounting.Requests

/-!
# What the counters show

When all requests of a run have been answered, the counters tell what happened in it: how joins
ended, how many of their writes lost, how often the provider failed, and what was created
(`accounted_of_run`). That is so in every world, whatever the store and the provider answered.

Whatever was measured some request measured (`countP_answers`), and each request measured what it
was to measure (`Served.Sound`).
-/

namespace VoiceRoom

namespace Metrics

/-- A measurement that takes no time has a counter to itself. -/
theorem count_counter (ms : List Measurement) {m : Measurement} (h : duration? m = none) :
    count ms (counter m) = ms.count m := by
  unfold count
  refine List.countP_congr fun m' _ => ?_
  cases m <;> cases m' <;> simp_all [counter, duration?, fallbackTotal, joinTotal, conflictTotal,
    createdTotal, requestTotal, providerTotal]

end Metrics

namespace Accounting

open Concurrency
open Conduct
open Simulation (Entry)

/-! ### What is counted -/

/-- The calls that were answered, latest first. -/
def answers (past : List Act) : List Entry :=
  past.filterMap fun
    | .answer _ e => some e
    | _ => none

/-- All measurements that were taken, latest first. -/
def measured (σ : System) : List Measurement :=
  measurements (answers σ.past)

/-- Every task has come to its end. -/
def AllFinished (σ : System) : Prop :=
  ∀ t ∈ σ.tasks, ∃ outcome, t.rest = .done outcome

def served? (past : List Act) : Task × Nat → Option Served
  | (⟨job, .done outcome⟩, i) => some ⟨job, outcome, own i past⟩
  | _ => none

/-- The requests that were answered. -/
def served (σ : System) : List Served :=
  σ.tasks.zipIdx.filterMap (served? σ.past)

/-- The counters tell what happened. -/
structure Accounted (σ : System) : Prop where
  each : ∀ d ∈ served σ, d.Sound
  joins : ∀ o : JoinOutcome,
    Metrics.count (measured σ) ⟨Metrics.joinTotal, [("outcome", o.name)]⟩ =
      (served σ).countP fun d => d.ending = some o
  /-- Each join is counted once. -/
  all : ([.joined, .rejoined, .full, .invalid, .conflict, .error].map fun o : JoinOutcome =>
    Metrics.count (measured σ) ⟨Metrics.joinTotal, [("outcome", o.name)]⟩).sum =
      σ.tasks.countP fun t => isJoin t.job
  conflicts : Metrics.count (measured σ) ⟨Metrics.conflictTotal, []⟩ =
    (((served σ).filter Served.joins).flatMap Served.told).countP lost
  meetings : Metrics.count (measured σ)
      ⟨Metrics.fallbackTotal, [("operation", Operation.createMeeting.name)]⟩ =
    (answers σ.past).countP refused
  tokens : Metrics.count (measured σ)
      ⟨Metrics.fallbackTotal, [("operation", Operation.createParticipant.name)]⟩ =
    (served σ).countP Served.stoodIn
  created : ∀ kind : MeetingKind,
    Metrics.count (measured σ) ⟨Metrics.createdTotal, [("kind", kind.name)]⟩ =
      (served σ).countP fun d => d.created = some kind

/-! ### What a request is to measure -/

section Bill

/-- Outcomes of joins are known by their names. -/
theorem JoinOutcome.name_inj {o o' : JoinOutcome} : o.name = o'.name ↔ o = o' := by
  cases o <;> cases o' <;> decide

/-- Kinds of meetings are known by their names. -/
theorem MeetingKind.name_inj {k k' : MeetingKind} : k.name = k'.name ↔ k = k' := by
  cases k <;> cases k' <;> decide

variable {joins : Bool} {e : Entry} {m : Measurement}

/-- Calls make two measurements due, each for a reason of its own. -/
theorem debt_eq_some_iff : debt joins e = some m ↔
    (m = .joinConflict ∧ joins = true ∧ lost e = true) ∨
      (m = .fallback Operation.createMeeting.name ∧ refused e = true) := by
  obtain ⟨c, r⟩ := e
  cases c with
  | putIf key value expected =>
    rcases r with error | (n | _) <;> simp [debt, lost, refused, eq_comm, and_comm]
  | createMeeting title => cases r <;> simp [debt, lost, refused, eq_comm]
  | _ => simp [debt, lost, refused]

variable (told : List Entry)

/-- Conflicts are owed by joins for every race they lost. -/
theorem count_debts_joinConflict :
    (told.filterMap (debt joins)).count .joinConflict = if joins then told.countP lost else 0 := by
  rw [List.count_filterMap]
  cases joins with
  | false =>
    refine List.countP_eq_zero.2 fun e _ h => ?_
    simp [debt_eq_some_iff] at h
  | true =>
    refine List.countP_congr fun e _ => ?_
    simp [debt_eq_some_iff]

/-- A fallback is owed for every meeting that was refused. -/
theorem count_debts_meeting :
    (told.filterMap (debt joins)).count (.fallback Operation.createMeeting.name) =
      told.countP refused := by
  rw [List.count_filterMap]
  refine List.countP_congr fun e _ => ?_
  simp [debt_eq_some_iff]

variable (d : Served)

/-- No other measurement falls due. -/
theorem count_bill_of_ne (hconflict : m ≠ .joinConflict)
    (hmeeting : m ≠ .fallback Operation.createMeeting.name) :
    d.bill.count m = d.closing.count m := by
  have hnone : (d.told.filterMap (debt d.joins)).count m = 0 := by
    refine List.count_eq_zero.2 fun hmem => ?_
    obtain ⟨e, -, he⟩ := List.mem_filterMap.1 hmem
    rcases debt_eq_some_iff.1 he with ⟨rfl, -⟩ | ⟨rfl, -⟩
    · exact hconflict rfl
    · exact hmeeting rfl
  rw [Served.bill, List.count_append, hnone, Nat.zero_add]

/-- A bill counts the ending of its job once. -/
theorem count_bill_join (o : JoinOutcome) :
    d.bill.count (.join o.name) = if d.ending = some o then 1 else 0 := by
  rw [count_bill_of_ne d (by simp) (by simp), Served.closing]
  cases d.stoodIn <;> cases d.ending <;> cases d.created <;>
    simp [List.count_cons, JoinOutcome.name_inj]

theorem count_bill_created (kind : MeetingKind) :
    d.bill.count (.created kind.name) = if d.created = some kind then 1 else 0 := by
  rw [count_bill_of_ne d (by simp) (by simp), Served.closing]
  cases d.stoodIn <;> cases d.ending <;> cases d.created <;>
    simp [List.count_cons, MeetingKind.name_inj]

theorem count_bill_token :
    d.bill.count (.fallback Operation.createParticipant.name) = if d.stoodIn then 1 else 0 := by
  rw [count_bill_of_ne d (by simp) (by decide), Served.closing]
  cases d.stoodIn <;> cases d.ending <;> cases d.created <;> simp

theorem count_bill_joinConflict :
    d.bill.count .joinConflict = if d.joins then d.told.countP lost else 0 := by
  rw [Served.bill, List.count_append, count_debts_joinConflict, Served.closing]
  cases d.stoodIn <;> cases d.ending <;> cases d.created <;> simp

theorem count_bill_meeting :
    d.bill.count (.fallback Operation.createMeeting.name) = d.told.countP refused := by
  rw [Served.bill, List.count_append, count_debts_meeting, Served.closing]
  cases d.stoodIn <;> cases d.ending <;> cases d.created <;> simp [Operation.name]

end Bill

/-! ### Every call is some request's -/

variable {appId : String} {σ : System} {past : List Act}

/-- The calls of all tasks together are all calls. -/
theorem countP_answers {n : Nat} (h : ∀ i, n ≤ i → own i past = []) (p : Entry → Bool) :
    (answers past).countP p = ∑ i ∈ Finset.range n, (own i past).countP p := by
  -- Every answer is that of one task, and is counted in its summand.
  induction past with
  | nil => simp [answers]
  | cons act past ih =>
    cases act with
    | start job => exact ih h
    | switch available => exact ih h
    | answer k e =>
      have hk : k < n := by
        by_contra hle
        have hown := h k (Nat.not_lt.1 hle)
        rw [own_answer_self] at hown
        exact nomatch hown
      -- the tasks beyond the bound were told nothing before, either
      have hold : ∀ i, n ≤ i → own i past = [] := fun i hi => by
        rw [← own_answer_of_ne (by omega : k ≠ i) e past]
        exact h i hi
      have hsplit : ∀ i ∈ Finset.range n, (own i (.answer k e :: past)).countP p =
          (own i past).countP p + if k = i then (if p e then 1 else 0) else 0 := fun i _ => by
        by_cases hki : k = i
        · rw [hki, own_answer_self, List.countP_cons, if_pos rfl]
        · rw [own_answer_of_ne hki, if_neg hki, Nat.add_zero]
      rw [Finset.sum_congr rfl hsplit, Finset.sum_add_distrib, Finset.sum_ite_eq,
        if_pos (Finset.mem_range.2 hk), ← ih hold]
      exact List.countP_cons

/-- A task that has finished was served. -/
theorem served?_of_mem (h : AllFinished σ) {x : Task × Nat} (hx : x ∈ σ.tasks.zipIdx) :
    ∃ d, served? σ.past x = some d ∧ d.job = x.1.job ∧ d.told = own x.2 σ.past := by
  obtain ⟨⟨job, rest⟩, i⟩ := x
  obtain ⟨outcome, rfl⟩ := h _ (List.fst_mem_of_mem_zipIdx hx)
  exact ⟨_, rfl, rfl, rfl⟩

/-- What was served are the jobs of all the tasks. -/
theorem map_job_served (h : AllFinished σ) : (served σ).map Served.job = σ.tasks.map Task.job := by
  have hall : (served σ).map Served.job = σ.tasks.zipIdx.map fun x => x.1.job := by
    rw [served, List.map_filterMap, List.filterMap_eq_map_iff_forall_eq_some]
    intro x hx
    obtain ⟨d, hd, hjob, -⟩ := served?_of_mem h hx
    rw [hd, Option.map_some, hjob]
  rw [hall]
  conv_rhs => rw [← List.zipIdx_map_fst 0 σ.tasks, List.map_map]
  rfl

/-- What was told is what all the tasks were told. -/
theorem map_told_served (h : AllFinished σ) :
    (served σ).map Served.told = (List.range σ.tasks.length).map fun i => own i σ.past := by
  have hall : (served σ).map Served.told = σ.tasks.zipIdx.map fun x => own x.2 σ.past := by
    rw [served, List.map_filterMap, List.filterMap_eq_map_iff_forall_eq_some]
    intro x hx
    obtain ⟨d, hd, -, htold⟩ := served?_of_mem h hx
    rw [hd, Option.map_some, htold]
  rw [hall, List.range_eq_range', ← List.zipIdx_map_snd, List.map_map]
  rfl

/-- A call that was answered was one of a request that was. -/
theorem countP_served (hunderway : Underway appId σ) (h : AllFinished σ) (p : Entry → Bool) :
    (answers σ.past).countP p = ((served σ).map fun d => d.told.countP p).sum := by
  calc (answers σ.past).countP p
      = ∑ i ∈ Finset.range σ.tasks.length, (own i σ.past).countP p :=
        countP_answers hunderway.new p
    _ = (((List.range σ.tasks.length).map fun i => own i σ.past).map (List.countP p)).sum := by
        rw [List.map_map]
        rfl
    _ = ((served σ).map fun d => d.told.countP p).sum := by
        rw [← map_told_served h, List.map_map]
        rfl

/-- A request that was answered has measured what it was to measure. -/
theorem sound_of_mem_served (hunderway : Underway appId σ) {d : Served} (hd : d ∈ served σ) :
    d.Sound := by
  obtain ⟨⟨⟨job, rest⟩, i⟩, hmem, hserved⟩ := List.mem_filterMap.1 hd
  have htask : σ.tasks[i]? = some ⟨job, rest⟩ := List.mem_zipIdx_iff_getElem?.1 hmem
  cases rest with
  | ask c rest => exact nomatch hserved
  | done outcome =>
    obtain rfl := Option.some.inj hserved
    exact ((abides_program_sound appId job).came (hunderway.task i _ htask)).2

/-- What was measured is what the requests were to measure. -/
theorem count_measured (hunderway : Underway appId σ) (h : AllFinished σ) (m : Measurement) :
    (measured σ).count m = ((served σ).map fun d => d.bill.count m).sum := by
  have hbill : (served σ).map (fun d => (measurements d.told).count m) =
      (served σ).map fun d => d.bill.count m :=
    List.map_congr_left fun d hd => (sound_of_mem_served hunderway hd).bill.count_eq m
  rw [← hbill, measured, measurements, List.count_filterMap, countP_served hunderway h]
  refine congrArg List.sum (List.map_congr_left fun d _ => ?_)
  rw [measurements, List.count_filterMap]

/-! ### Totals -/

/-- A measurement that a request takes once at most is counted once for each request that takes
it. -/
theorem count_eq_countP (hunderway : Underway appId σ) (h : AllFinished σ) {m : Measurement}
    {p : Served → Bool} (hduration : Metrics.duration? m = none)
    (hp : ∀ d : Served, d.bill.count m = if p d then 1 else 0) :
    Metrics.count (measured σ) (Metrics.counter m) = (served σ).countP p := by
  rw [Metrics.count_counter _ hduration, count_measured hunderway h,
    List.map_congr_left fun d _ => hp d, List.sum_map_ite]
  simp [List.countP_eq_length_filter]

/-- Each join ended in one of the ways there are. -/
theorem sum_endings (ds : List Served) :
    ([.joined, .rejoined, .full, .invalid, .conflict, .error].map fun o : JoinOutcome =>
      ds.countP fun d => d.ending = some o).sum = ds.countP fun d => d.ending.isSome := by
  induction ds with
  | nil => rfl
  | cons d ds ih =>
    simp only [List.map_cons, List.map_nil, List.sum_cons, List.sum_nil, List.countP_cons] at ih ⊢
    rw [← ih]
    cases d.ending with
    | none => simp
    | some o => cases o <;> simp <;> omega

/-- As many jobs end as joins as there are joins, so that the outcomes add up to them. -/
theorem countP_isSome_ending (hunderway : Underway appId σ) (h : AllFinished σ) :
    ((served σ).countP fun d => d.ending.isSome) = σ.tasks.countP fun t => isJoin t.job :=
  calc ((served σ).countP fun d => d.ending.isSome)
      = (served σ).countP fun d => isJoin d.job :=
        List.countP_congr fun d hd => by rw [(sound_of_mem_served hunderway hd).ended]; rfl
    _ = ((served σ).map Served.job).countP isJoin := by rw [List.countP_map]; rfl
    _ = σ.tasks.countP fun t => isJoin t.job := by
        rw [map_job_served h, List.countP_map]
        rfl

/-- In every run in which every request is answered, the counters tell what happened. -/
theorem accounted_of_run (hrun : FreeRun appId {} σ) (hfinished : AllFinished σ) :
    Accounted σ := by
  have hunderway := underway_of_freeRun hrun
  have hjoins : ∀ o : JoinOutcome,
      Metrics.count (measured σ) ⟨Metrics.joinTotal, [("outcome", o.name)]⟩ =
        (served σ).countP fun d => d.ending = some o := fun o =>
    count_eq_countP (m := .join o.name) hunderway hfinished rfl fun d => by
      simp [count_bill_join]
  -- One series after the other is the sum of what the bills say of it.
  constructor
  case each => exact fun d hd => sound_of_mem_served hunderway hd
  case joins => exact hjoins
  case all => simp only [hjoins, sum_endings, countP_isSome_ending hunderway hfinished]
  -- a job may lose several races, so that the bills are summed and not the jobs counted
  case conflicts =>
    refine (Metrics.count_counter (m := .joinConflict) _ rfl).trans ?_
    rw [count_measured hunderway hfinished, List.countP_flatMap,
      List.map_congr_left fun d _ => count_bill_joinConflict d, List.sum_map_ite]
    simp [Function.comp_def]
  case meetings =>
    refine (Metrics.count_counter (m := .fallback Operation.createMeeting.name) _ rfl).trans ?_
    rw [count_measured hunderway hfinished, countP_served hunderway hfinished]
    exact congrArg List.sum (List.map_congr_left fun d _ => count_bill_meeting d)
  case tokens =>
    exact count_eq_countP (m := .fallback Operation.createParticipant.name) hunderway hfinished rfl
      count_bill_token
  case created =>
    intro kind
    exact count_eq_countP (m := .created kind.name) hunderway hfinished rfl fun d => by
      simp [count_bill_created]

/-- Both joins of the race have ended. -/
theorem allFinished_afterRace : AllFinished afterRace := by
  have hlength : afterRace.tasks.length = 2 := by
    rw [← List.length_map Task.job, jobs_afterRace]
    rfl
  intro t ht
  obtain ⟨i, hi⟩ := List.mem_iff_getElem?.1 ht
  have hcases : i = 0 ∨ i = 1 := by
    have hlt := (List.getElem?_eq_some_iff.1 hi).1
    omega
  obtain ⟨hu, hv⟩ := finished_afterRace
  rcases hcases with rfl | rfl
  · obtain rfl := Option.some.inj (hi.symm.trans hu)
    exact ⟨_, rfl⟩
  · obtain rfl := Option.some.inj (hi.symm.trans hv)
    exact ⟨_, rfl⟩

/-- Two joins came in, and one of them was overtaken twice. -/
theorem accounted_afterRace :
    AllFinished afterRace ∧ Accounted afterRace ∧
      Metrics.count (measured afterRace) ⟨Metrics.joinTotal, [("outcome", "joined")]⟩ = 2 ∧
      Metrics.count (measured afterRace) ⟨Metrics.conflictTotal, []⟩ = 2 := by
  refine ⟨allFinished_afterRace,
    accounted_of_run (Run.free run_afterRace) allFinished_afterRace, ?_⟩
  decide +kernel

end Accounting

end VoiceRoom
