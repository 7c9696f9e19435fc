import VoiceRoom.Proofs.Concurrency.Alone
import VoiceRoom.Proofs.Concurrency.Logic

/-!
# Oracles

What is asked of the store is answered by the store as it is. An oracle answers everything else, and
may know all that happened. With an oracle a program that runs alone comes to an end, whatever the
oracle says (`Oracle.exists_alone`), and a schedule of turns makes a run (`Oracle.run_play`).
-/

namespace VoiceRoom

/-- Whether a call is answered by something other than the store. -/
def Call.Outside : Call → Prop
  | .get _ => False
  | .putIf .. => False
  | .ping => False
  | _ => True

namespace Concurrency

open Simulation (Entry)

/-- Answers to all that is not asked of the store, after all that happened, latest first. -/
structure Oracle where
  say : List Act → (c : Call) → c.Answer
  /-- The clock shows words. -/
  clock : ∀ past, fitsInt64 (say past .now)

namespace Oracle

variable {α : Type} {appId : String}

/-- The answer to a call. -/
def answer (o : Oracle) (w : World) : (c : Call) → c.Answer
  | .get key => w.store.get key
  | .putIf key value expected => (w.store.putIf key value expected).1
  | .ping => w.store.ping
  | c => o.say w.past c

/-- What an oracle answers is an answer. -/
theorem answers (o : Oracle) (w : World) (c : Call) : w.Answers c (o.answer w c) := by
  cases c with
  | get key => rfl
  | putIf key value expected => rfl
  | ping => rfl
  | now => exact o.clock w.past
  | _ => trivial

/-- What the store does not know the oracle says by itself. -/
theorem answer_of_outside (o : Oracle) (w : World) {c : Call} (hc : c.Outside) :
    o.answer w c = o.say w.past c := by
  cases c with
  | get key => exact hc.elim
  | putIf key value expected => exact hc.elim
  | ping => exact hc.elim
  | _ => rfl

/-! ### Running alone -/

/-- A task was answered as an oracle has it, call by call, after what happened before. -/
def Spoke (o : Oracle) (i : Nat) (past : List Act) (entries : List Entry) : Prop :=
  ∀ before e after, entries = before ++ e :: after → e.call.Outside →
    e.answer = o.say ((before.map (Act.answer i)).reverse ++ past) e.call

theorem Spoke.cons {o : Oracle} {i : Nat} {past : List Act} {entries : List Entry} {e : Entry}
    (hfirst : e.call.Outside → e.answer = o.say past e.call)
    (h : o.Spoke i (.answer i e :: past) entries) : o.Spoke i past (e :: entries) := by
  rintro before e' after hsplit
  rcases List.cons_eq_append_iff.1 hsplit with ⟨rfl, hsame⟩ | ⟨before', rfl, hlater⟩
  · obtain ⟨rfl, rfl⟩ := List.cons.inj hsame
    exact hfirst
  · have hspoke := h before' e' after hlater
    rwa [List.map_cons, List.reverse_cons, List.append_assoc, List.singleton_append]

/-- What comes of a program that an oracle lets run alone. -/
structure Course (α : Type) where
  entries : List Entry
  store : Memory
  result : α

/-- An oracle lets a program run alone, on a store and after what happened before. -/
def course (o : Oracle) (i : Nat) : Program α → Memory → List Act → Course α
  | .done a, m, _ => ⟨[], m, a⟩
  | .ask c rest, m, past =>
    let r := o.answer ⟨m, past⟩ c
    let later := course o i (rest r) (storeAfter m c) (.answer i ⟨c, r⟩ :: past)
    ⟨⟨c, r⟩ :: later.entries, later.store, later.result⟩

/-- The course of a program is a run of it alone, which makes runs that end by evaluation. -/
theorem alone_course (o : Oracle) (i : Nat) (p : Program α) (m : Memory) (past : List Act) :
    Alone m p (o.course i p m past).entries (o.course i p m past).store
      (o.course i p m past).result := by
  induction p generalizing m past with
  | done a => exact .done m a
  | ask c rest ih =>
    have hanswers : World.Answers ⟨m, []⟩ c (o.answer ⟨m, past⟩ c) := by
      have h := o.answers ⟨m, past⟩ c
      cases c <;> exact h
    exact .ask _ hanswers (ih _ _ _)

/-- In its course a program is told what the oracle says. -/
theorem spoke_course (o : Oracle) (i : Nat) (p : Program α) (m : Memory) (past : List Act) :
    o.Spoke i past (o.course i p m past).entries := by
  induction p generalizing m past with
  | done a => exact fun _ _ _ h => nomatch (List.append_eq_nil_iff.1 h.symm).2
  | ask c rest ih =>
    exact (ih _ _ _).cons fun hc => o.answer_of_outside ⟨m, past⟩ hc

/-- A program that runs alone comes to an end, whatever an oracle says. -/
theorem exists_alone (o : Oracle) (i : Nat) (p : Program α) (m : Memory) (past : List Act) :
    ∃ entries m' a, Alone m p entries m' a ∧ o.Spoke i past entries :=
  ⟨_, _, _, o.alone_course i p m past, o.spoke_course i p m past⟩

/-! ### Taking turns -/

/-- A task is answered, if it waits for an answer. -/
def turn (o : Oracle) (σ : System) (i : Nat) : System :=
  match σ.tasks[i]? with
  | some ⟨job, .ask c rest⟩ =>
    let r := o.answer σ.world c
    ⟨σ.world.next (.answer i ⟨c, r⟩), σ.tasks.set i ⟨job, rest r⟩⟩
  | _ => σ

/-- A turn is a step, or nothing. -/
theorem run_turn (o : Oracle) (σ : System) (i : Nat) : Run appId σ (o.turn σ i) := by
  unfold turn
  split
  · rename_i job c rest htask
    exact .single (.answer (o.answer σ.world c) htask (o.answers σ.world c))
  · exact .refl

/-- In its turn a task is answered, or nothing happens. -/
theorem past_turn (o : Oracle) (σ : System) (i : Nat) : (o.turn σ i).past = σ.past ∨
    ∃ c, (o.turn σ i).past = .answer i ⟨c, o.answer σ.world c⟩ :: σ.past := by
  unfold turn
  split
  · exact .inr ⟨_, rfl⟩
  · exact .inl rfl

/-- Tasks are answered in turn. -/
def play (o : Oracle) (σ : System) (schedule : List Nat) : System :=
  schedule.foldl o.turn σ

/-- A schedule that is played is a run, whatever its turns are: those of tasks that have ended pass.
-/
theorem run_play (o : Oracle) (σ : System) (schedule : List Nat) :
    Run appId σ (o.play σ schedule) := by
  induction schedule generalizing σ with
  | nil => exact .refl
  | cons i schedule ih => exact (o.run_turn σ i).trans (ih (o.turn σ i))

/-- Schedules are played one after the other. -/
theorem play_append (o : Oracle) (σ : System) (schedule schedule' : List Nat) :
    o.play σ (schedule ++ schedule') = o.play (o.play σ schedule) schedule' :=
  List.foldl_append

/-- Turns leave it at the same jobs. -/
theorem map_job_turn (o : Oracle) (σ : System) (i : Nat) :
    (o.turn σ i).tasks.map Task.job = σ.tasks.map Task.job := by
  unfold turn
  split
  · rename_i job c rest htask
    obtain ⟨hi, hget⟩ := List.getElem?_eq_some_iff.1 htask
    rw [List.map_set, ← congrArg Task.job hget, ← List.getElem_map Task.job,
      List.set_getElem_self]
    rwa [List.length_map]
  · rfl

/-- Playing a schedule starts no jobs. -/
theorem map_job_play (o : Oracle) (σ : System) (schedule : List Nat) :
    (o.play σ schedule).tasks.map Task.job = σ.tasks.map Task.job := by
  induction schedule generalizing σ with
  | nil => rfl
  | cons i schedule ih => exact (ih (o.turn σ i)).trans (o.map_job_turn σ i)

/-- While tasks take turns, those who have a turn are answered, and nothing else happens. -/
theorem exists_past_play (o : Oracle) (σ : System) (schedule : List Nat) :
    ∃ new, (o.play σ schedule).past = new ++ σ.past ∧ ∀ act ∈ new, ∃ i e past,
      act = .answer i e ∧ i ∈ schedule ∧ (e.call.Outside → e.answer = o.say past e.call) := by
  induction schedule generalizing σ with
  | nil => exact ⟨[], rfl, fun _ h => nomatch h⟩
  | cons i schedule ih =>
    obtain ⟨new, hpast, hnew⟩ := ih (o.turn σ i)
    have hlater : ∀ act ∈ new, ∃ j e past, act = .answer j e ∧ j ∈ i :: schedule ∧
        (e.call.Outside → e.answer = o.say past e.call) := by
      intro act hact
      obtain ⟨j, e, past, hanswer, hj, he⟩ := hnew act hact
      exact ⟨j, e, past, hanswer, List.mem_cons_of_mem i hj, he⟩
    -- a turn of a task that has ended adds nothing
    rcases o.past_turn σ i with hsame | ⟨c, hanswer⟩
    · exact ⟨new, hpast.trans (congrArg (new ++ ·) hsame), hlater⟩
    · refine ⟨new ++ [.answer i ⟨c, o.answer σ.world c⟩], ?_, fun act hact => ?_⟩
      · rw [List.append_assoc, List.singleton_append, ← hanswer]
        exact hpast
      · rcases List.mem_append.1 hact with hin | hlast
        · exact hlater act hin
        · obtain rfl := List.mem_singleton.1 hlast
          exact ⟨i, _, σ.past, rfl, List.mem_cons_self, o.answer_of_outside σ.world⟩

section Finish

variable {o : Oracle} {σ : System} {i : Nat} {job : Job} {outcome : Outcome}

/-- In its turn a task is answered the call it waits for. -/
theorem turn_of_ask {c : Call} {rest : c.Answer → Program Outcome}
    (h : σ.tasks[i]? = some ⟨job, .ask c rest⟩) : o.turn σ i =
      ⟨σ.world.next (.answer i ⟨c, o.answer σ.world c⟩),
        σ.tasks.set i ⟨job, rest (o.answer σ.world c)⟩⟩ := by
  unfold turn
  rw [h]

/-- A task that has ended lets its turns pass. -/
theorem turn_of_finished (h : σ.Finished i job outcome) : o.turn σ i = σ := by
  unfold System.Finished at h
  unfold turn
  rw [h]

/-- In a turn the other tasks stay as they are. -/
theorem getElem?_turn_of_ne {j : Nat} (h : i ≠ j) : (o.turn σ i).tasks[j]? = σ.tasks[j]? := by
  unfold turn
  split
  · exact List.getElem?_set_ne h
  · rfl

/-- Who is done stays done. -/
theorem finished_play (h : σ.Finished i job outcome) (schedule : List Nat) :
    (o.play σ schedule).Finished i job outcome := by
  induction schedule generalizing σ with
  | nil => exact h
  | cons j schedule ih =>
    refine ih ?_
    by_cases hj : j = i
    · subst hj
      rw [turn_of_finished h]
      exact h
    · exact (getElem?_turn_of_ne hj).trans h

/-- Who gets enough turns comes to an end. -/
theorem exists_play_finished {p : Program Outcome} (h : σ.tasks[i]? = some ⟨job, p⟩) :
    ∃ n outcome, (o.play σ (List.replicate n i)).Finished i job outcome := by
  induction p generalizing σ with
  | done outcome => exact ⟨0, outcome, h⟩
  | ask c rest ih =>
    have hi : i < σ.tasks.length := (List.getElem?_eq_some_iff.1 h).1
    have hnext : (o.turn σ i).tasks[i]? = some ⟨job, rest (o.answer σ.world c)⟩ := by
      rw [turn_of_ask h, List.getElem?_set_self hi]
    obtain ⟨n, outcome, hfinished⟩ := ih _ hnext
    exact ⟨n + 1, outcome, hfinished⟩

/-- If each of some tasks gets enough turns, all of them come to an end. -/
theorem exists_play_all {J : List Nat} (hJ : ∀ i ∈ J, i < σ.tasks.length) :
    ∃ schedule ⊆ J, ∀ i ∈ J, ∃ job outcome, (o.play σ schedule).Finished i job outcome := by
  -- One task after the other is served until it ends, and ended tasks are left alone.
  induction J generalizing σ with
  | nil => exact ⟨[], List.Subset.refl _, fun _ h => nomatch h⟩
  | cons i J ih =>
    have hi : i < σ.tasks.length := hJ i List.mem_cons_self
    obtain ⟨n, outcome, hfinished⟩ := exists_play_finished (o := o) (List.getElem?_eq_getElem hi)
    have hrun : Run "" σ (o.play σ (List.replicate n i)) := o.run_play σ _
    have hlength := Discipline.length_tasks_of_run hrun
    obtain ⟨schedule, hsubset, hall⟩ := ih (σ := o.play σ (List.replicate n i)) fun i' hi' =>
      (hJ i' (List.mem_cons_of_mem i hi')).trans_le hlength
    refine ⟨List.replicate n i ++ schedule, fun i' hi' => ?_, fun i' hi' => ?_⟩
    · rcases List.mem_append.1 hi' with hfirst | hrest
      · obtain rfl := List.eq_of_mem_replicate hfirst
        exact List.mem_cons_self
      · exact List.mem_cons_of_mem i (hsubset hrest)
    · rw [play_append]
      rcases List.mem_cons.1 hi' with rfl | hrest
      · exact ⟨_, outcome, finished_play hfinished schedule⟩
      · exact hall i' hrest

end Finish

end Oracle

/-! ### Starting together -/

section Start

variable {appId : String} {σ : System}

/-- Jobs start one after the other. -/
def startAll (appId : String) (σ : System) : List Job → System
  | [] => σ
  | job :: jobs =>
    startAll appId ⟨σ.world.next (.start job), σ.tasks ++ [⟨job, job.program appId⟩]⟩ jobs

/-- Starting jobs is a run. -/
theorem run_startAll (jobs : List Job) : Run appId σ (startAll appId σ jobs) := by
  induction jobs generalizing σ with
  | nil => exact .refl
  | cons job jobs ih => exact .head (.start σ job) ih

/-- Each job gets a task of its own, after those there are. -/
theorem tasks_startAll (jobs : List Job) :
    (startAll appId σ jobs).tasks = σ.tasks ++ jobs.map fun job => ⟨job, job.program appId⟩ := by
  induction jobs generalizing σ with
  | nil => exact (List.append_nil _).symm
  | cons job jobs ih => rw [startAll, ih, List.append_assoc, List.singleton_append, List.map_cons]

/-- Starting jobs is all that happens meanwhile. -/
theorem past_startAll (jobs : List Job) :
    (startAll appId σ jobs).past = (jobs.map Act.start).reverse ++ σ.past := by
  induction jobs generalizing σ with
  | nil => rfl
  | cons job jobs ih =>
    rw [startAll, ih, List.map_cons, List.reverse_cons, List.append_assoc, List.singleton_append,
      System.past, World.past_next]

end Start

end Concurrency

end VoiceRoom
