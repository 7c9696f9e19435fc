import VoiceRoom.Proofs.Concurrency.Settling
import VoiceRoom.Proofs.Concurrency.Visits

/-!
# Joins are linearizable

Whatever the order in which the calls of a crowd of joins are answered, the answers are those of
the same joins made one after another (`joins_linearizable`): in the order of their last touches,
which agrees with real time, each is answered what a join by itself would be answered, and what is
stored in the end is what the last of them left.
-/

namespace VoiceRoom.Concurrency

open Discipline
open Simulation (Entry)

variable {appId : String} {mode : Mode} {s : String} {σ σ₁ : System}

/-! ### Tasks that are done -/

/-- A task that is done stays done, and does nothing more. -/
theorem finished_of_run (hrun : Run appId σ₁ σ) {i : Nat} {job : Job} {outcome : Outcome}
    (h : σ₁.Finished i job outcome) :
    σ.Finished i job outcome ∧ ∃ new, σ.past = new ++ σ₁.past ∧ own i new = [] := by
  -- A step starts another job, serves another task or switches the store, but never serves a task
  -- that has ended.
  induction hrun with
  | refl => exact ⟨h, [], rfl, rfl⟩
  | @tail σ τ _ hstep ih =>
    obtain ⟨hfinished, new, hpast, hown⟩ := ih
    have hlt : i < σ.tasks.length := (List.getElem?_eq_some_iff.1 hfinished).1
    unfold System.Finished at hfinished ⊢
    cases hstep with
    | start job' =>
      refine ⟨?_, .start job' :: new, ?_, hown⟩
      · rw [List.getElem?_append_left hlt]
        exact hfinished
      · exact congrArg (_ :: ·) hpast
    | @answer k job' c rest r htask hr =>
      have hk : k ≠ i := by
        rintro rfl
        have hsame := Option.some.inj (htask.symm.trans hfinished)
        exact nomatch congrArg Task.rest hsame
      refine ⟨?_, .answer k ⟨c, r⟩ :: new, ?_, ?_⟩
      · rw [List.getElem?_set_ne hk]
        exact hfinished
      · exact congrArg (_ :: ·) hpast
      · rw [own_answer_of_ne hk]
        exact hown
    | switch available =>
      exact ⟨hfinished, .switch available :: new, congrArg (_ :: ·) hpast, hown⟩

/-- In a crowd every join is settled by the time that it is answered. -/
theorem crowd_of_run (hrun : Run appId {} σ) (hcrowd : Crowd mode s σ.past) :
    (crowd mode s).Governs (fun i job outcome w => ∃ r answer, job = .join mode s r ∧
      outcome = .joined answer ∧ Settled mode s i w r answer) σ := by
  have hempty : (crowd mode s).Governs (fun i job outcome w => ∃ r answer, job = .join mode s r ∧
      outcome = .joined answer ∧ Settled mode s i w r answer) {} :=
    ⟨orderly_empty mode s, fun _ _ h => (nomatch h), fun _ _ => rfl⟩
  refine (hempty.run hrun hcrowd fun i job w _ hstarted _ _ hown => ?_).2
  obtain ⟨r, userId, rfl, hvalid⟩ := Crowd.starts hstarted job List.mem_cons_self
  refine holds_map (Holds.mono (ensures_join_crowd appId hvalid hown) fun result v _ _ h => ?_)
  cases result with
  | ok reply => exact ⟨r, .ok reply, rfl, rfl, h⟩
  | error e => exact ⟨r, .error e, rfl, rfl, h⟩

/-- Who touches a session was started. -/
theorem lt_of_mem_touchers (hrun : Run appId {} σ) (hcrowd : Crowd mode s σ.past) {i : Nat}
    (hi : i ∈ touchers σ.past) : i < σ.tasks.length := by
  refine Nat.lt_of_not_le fun hle => ?_
  obtain ⟨e, he, -⟩ := mem_touchers_iff.1 hi
  rw [(crowd_of_run hrun hcrowd).new i hle] at he
  exact nomatch he

/-- Who is answered has touched a session. -/
theorem mem_touchers_of_finished (hrun : Run appId {} σ) (hcrowd : Crowd mode s σ.past) {i : Nat}
    {job : Job} {outcome : Outcome} (h : σ.Finished i job outcome) : i ∈ touchers σ.past := by
  obtain ⟨r, answer, -, -, hsettled⟩ := (crowd_of_run hrun hcrowd).finished hcrowd h
  obtain ⟨e, before, hlast, -⟩ := hsettled.last
  exact hlast.mem_touchers

/-- Last touches agree with real time. -/
theorem sublist_order_of_finished {σ₂ : System} (h₁ : Run appId {} σ₁) (h₂ : Run appId σ₁ σ₂)
    (hcrowd : Crowd mode s σ₂.past) {i j : Nat} {job job' : Job} {outcome outcome' : Outcome}
    (hi : σ₁.Finished i job outcome) (hj : σ₂.Finished j job' outcome')
    (hlate : σ₁.tasks.length ≤ j) : [i, j].Sublist (order σ₂.past) := by
  obtain ⟨-, new, hpast, hown⟩ := finished_of_run h₂ hi
  have hbefore : Crowd mode s σ₁.past := hcrowd.of_suffix ⟨new, hpast.symm⟩
  have hinew : i ∉ touchers new := fun hmem => by
    obtain ⟨e, he, -⟩ := mem_touchers_iff.1 hmem
    rw [hown] at he
    exact nomatch he
  have hjold : j ∉ touchers σ₁.past := fun hmem =>
    Nat.not_lt_of_le hlate (lt_of_mem_touchers h₁ hbefore hmem)
  have hjmem : j ∈ touchers σ₂.past := mem_touchers_of_finished (h₁.trans h₂) hcrowd hj
  rw [hpast, touchers, List.filterMap_append, List.mem_append] at hjmem
  rw [hpast]
  exact sublist_order (mem_touchers_of_finished h₁ hbefore hi) hinew hjold
    (hjmem.resolve_right hjold)

/-! ### One after another -/

/-- The answers of tasks, taken in an order, are those of joins by themselves, which turn one
session into another. -/
inductive Explains (mode : Mode) (s : String) (σ : System) :
    List Nat → Option Session → Option Session → Prop where
  | nil (room : Option Session) : Explains mode s σ [] room room
  | cons {i : Nat} {rest : List Nat} {r : JoinRequest} {answer : Except ServiceError JoinReply}
      {room room' room'' : Option Session}
      (hfinished : σ.Finished i (.join mode s r) (.joined answer))
      (hserves : Serves mode s r room answer room')
      (hrest : Explains mode s σ rest room' room'') : Explains mode s σ (i :: rest) room room''

/-- From any time on, the joins that touch the session for the last time explain what becomes
of it. -/
theorem explains_touchers (hrun : Run appId {} σ) (hcrowd : Crowd mode s σ.past)
    (hdone : ∀ i < σ.tasks.length, ∃ job outcome, σ.Finished i job outcome) (acts past : List Act)
    (hsplit : σ.past = acts.reverse ++ past) :
    Explains mode s σ (acts.filterMap toucher).dedup (roomAt (storeOf past) s)
      (roomAt (storeOf σ.past) s) := by
  have hgov := crowd_of_run hrun hcrowd
  have hinv : Orderly mode s σ.world := hgov.inv
  -- From the end of the run back to `past`: `acts` is what happened since.
  induction acts generalizing past with
  | nil =>
    obtain rfl : σ.past = past := hsplit
    exact .nil _
  | cons act acts ih =>
    rw [List.reverse_cons, List.append_assoc, List.singleton_append] at hsplit
    have hrest := ih (act :: past) hsplit
    have hsuffix : (act :: past) <:+ σ.past := hsplit ▸ List.suffix_append _ _
    have hstill := hinv.still act past hsuffix
    cases htoucher : toucher act with
    -- Who does not touch the session leaves it as it is.
    | none =>
      rw [List.filterMap_cons_none htoucher, ← hstill fun i e hact => ?_]
      · exact hrest
      · refine seats_of_not_touches (Bool.eq_false_iff.2 fun htouches => ?_)
        have hsome := toucher_eq_some_iff.2 ⟨e, hact, htouches⟩
        exact nomatch htoucher.symm.trans hsome
    | some i =>
      obtain ⟨e, rfl, htouches⟩ := toucher_eq_some_iff.1 htoucher
      rw [List.filterMap_cons_some htoucher]
      -- Who touches the session was started, and is done by now.
      have hmem : i ∈ touchers σ.past :=
        List.mem_filterMap.2 ⟨_, hsuffix.subset List.mem_cons_self, htoucher⟩
      obtain ⟨job, outcome, hfinished⟩ := hdone i (lt_of_mem_touchers hrun hcrowd hmem)
      obtain ⟨r, answer, rfl, rfl, hsettled⟩ := hgov.finished hcrowd hfinished
      obtain ⟨e', before, hlast, hunseated, hserves⟩ := hsettled.last
      rcases hlast.cases_of_touch hsplit htouches with
        ⟨hnot, rfl, rfl⟩ | ⟨hmem, hown⟩
      -- The last touch: this is where the join counts.
      · rw [touchers, List.filterMap_reverse, List.mem_reverse] at hnot
        rw [List.dedup_cons_of_notMem hnot]
        exact .cons hfinished hserves hrest
      -- An earlier one, and the join comes again later.
      · rw [touchers, List.filterMap_reverse, List.mem_reverse] at hmem
        rw [List.dedup_cons_of_mem hmem, ← hstill fun j e'' hact => ?_]
        · exact hrest
        · cases hact
          exact hunseated e hown

/-- An order of all tasks, in agreement with real time, in which their answers are those of joins
made one after another on one session, which ends as the one that is stored. -/
structure Linearization (appId : String) (mode : Mode) (s : String) (σ : System)
    (order : List Nat) : Prop where
  all : order.Perm (List.range σ.tasks.length)
  /-- Who is answered before another one starts comes first. -/
  realTime : ∀ σ₁ i j job outcome, Run appId {} σ₁ → Run appId σ₁ σ →
    σ₁.Finished i job outcome → σ₁.tasks.length ≤ j → j < σ.tasks.length → [i, j].Sublist order
  explains : Explains mode s σ order none (roomAt σ.store s)

/-- Any number of valid joins of one session id, in one mode, with a store and a provider that
answer, are answered as if they were made one after another. -/
theorem joins_linearizable (hrun : Run appId {} σ) (hcrowd : Crowd mode s σ.past)
    (hdone : ∀ i < σ.tasks.length, ∃ job outcome, σ.Finished i job outcome) :
    ∃ order, Linearization appId mode s σ order := by
  -- The order is that of the last time each task read or wrote a session, which every join has done
  -- by the time it ends.
  refine ⟨order σ.past, ?_, fun σ₁ i j job outcome h₁ h₂ hfinished hlate hj => ?_, ?_⟩
  · refine (List.perm_ext_iff_of_nodup (nodup_order _) List.nodup_range).2 fun i => ?_
    rw [mem_order_iff, List.mem_range]
    refine ⟨lt_of_mem_touchers hrun hcrowd, fun hi => ?_⟩
    obtain ⟨job, outcome, hfinished⟩ := hdone i hi
    exact mem_touchers_of_finished hrun hcrowd hfinished
  · obtain ⟨job', outcome', hfinished'⟩ := hdone j hj
    exact sublist_order_of_finished h₁ h₂ hcrowd hfinished hfinished' hlate
  -- The touches explain the answers one after the other, from the first to the last.
  · have hexplains := explains_touchers hrun hcrowd hdone σ.past.reverse []
      (by rw [List.reverse_reverse, List.append_nil])
    rw [List.filterMap_reverse, ← Orderly.replay (crowd_of_run hrun hcrowd).inv] at hexplains
    exact hexplains

/-- Users who join the session id while the provider gives meetings are a crowd. -/
theorem Crowd.visited {meeting : List Act → Except ProviderError String} {visits : List Visit}
    (h : Crowd mode s σ.past) (turns : List (Nat × Nat))
    (hvisits : ∀ v ∈ visits, v.mode = mode ∧ v.sessionId = s ∧
      JoinRequest.validate ⟨some v.userId, none⟩ = .ok v.userId)
    (hgives : ∀ past, ∃ meetingId, meeting past = .ok meetingId) :
    Crowd mode s (visited meeting σ visits turns).past := by
  obtain ⟨new, hpast, hnew⟩ := exists_visiting meeting σ visits turns
  rw [hpast]
  refine ⟨fun job hjob => ?_, fun i title e hanswer => ?_, fun hswitch => ?_⟩
  · rcases List.mem_append.1 hjob with hlater | hbefore
    · cases hnew _ hlater with
      | @start v hv =>
        obtain ⟨rfl, rfl, hvalid⟩ := hvisits v hv
        exact ⟨_, _, rfl, hvalid⟩
    · exact h.starts job hbefore
  · rcases List.mem_append.1 hanswer with hlater | hbefore
    -- The provider was asked for a meeting, and said what it says.
    · cases hnew _ hlater with
      | answer past _ he =>
        obtain ⟨meetingId, hgiven⟩ := hgives past
        have hsame : Except.error e = meeting past := he trivial
        exact nomatch hsame.trans hgiven
    · exact h.provider i title e hbefore
  · rcases List.mem_append.1 hswitch with hlater | hbefore
    · exact nomatch hnew _ hlater
    · exact h.store hbefore

/-- In both races only real joins of the one session id take part. -/
theorem crowd_afterRaces : Crowd .real "s" afterRaces.past := by
  have hempty : Crowd .real "s" ({} : System).past :=
    ⟨fun _ h => (nomatch h), fun _ _ _ h => (nomatch h), fun h => (nomatch h)⟩
  have hgives : ∀ past, ∃ meetingId, twoMeetings past = .ok meetingId := fun _ => ⟨_, rfl⟩
  have hrace : Crowd .real "s" afterRace.past := by
    unfold afterRace
    exact hempty.visited _ (by decide) hgives
  unfold afterRaces
  exact hrace.visited _ (by decide) hgives

/-- Four joins, of which two had to try again. -/
theorem joins_linearizable_afterRaces :
    Crowd .real "s" afterRaces.past ∧ afterRaces.tasks.length = 4 ∧
      ∃ order, Linearization "app" .real "s" afterRaces order := by
  have hlength : afterRaces.tasks.length = 4 := by
    rw [← List.length_map Task.job, jobs_afterRaces]
    rfl
  obtain ⟨hu, hv⟩ := finished_afterRace
  obtain ⟨hw, hx⟩ := finished_afterRaces
  refine ⟨crowd_afterRaces, hlength, joins_linearizable run_both_races crowd_afterRaces
    fun i hi => ?_⟩
  have hcases : i = 0 ∨ i = 1 ∨ i = 2 ∨ i = 3 := by omega
  rcases hcases with rfl | rfl | rfl | rfl
  · exact ⟨_, _, (finished_of_run run_afterRaces hu).1⟩
  · exact ⟨_, _, (finished_of_run run_afterRaces hv).1⟩
  · exact ⟨_, _, hw⟩
  · exact ⟨_, _, hx⟩

end VoiceRoom.Concurrency
