import VoiceRoom.Proofs.Concurrency.Alone
import VoiceRoom.Proofs.Concurrency.Effects
import VoiceRoom.Proofs.Conduct.Runs

/-!
# Who is told to retry was overtaken

The store need not be the service's alone: it may hold anything from the start, and others may write
it between any two calls of any request (`OpenStep`). Whatever they do, a join that is answered
that the session is busy was overtaken in each of its attempts: between the read of a key and the
write that was to replace what was read, somebody else wrote the key (`conflicts_earned`). A join
that is left alone is never answered so.

What a request reads stays as it is until the key is written, and while it waits to write the key
the request writes nothing itself (`Learnt.overtaken`). So if the write is lost, the key was written
by another one (`Feasible.exists_rival`).
-/

namespace VoiceRoom.Concurrency

open Conduct
open Simulation (Entry)

/-! ### A store that others write too -/

/-- Something that happens around a store: of the service, or a write by others. -/
inductive Incident where
  | service (act : Act)
  | put (key value : String) (r : Except StoreError Nat)
  | putIf (key value : String) (expected : Option Nat) (r : Except StoreError PutOutcome)

/-- What happened of the service, latest first. -/
def acts (past : List Incident) : List Act :=
  past.filterMap fun
    | .service act => some act
    | _ => none

/-- A service, the store that it shares with others, and all that happened around it. -/
structure OpenSystem where
  store : Memory
  tasks : List Task := []
  past : List Incident := []

namespace OpenSystem

/-- The service as it is by itself. -/
def system (S : OpenSystem) : System :=
  ⟨⟨S.store, acts S.past⟩, S.tasks⟩

/-- A task has come to its end with an outcome. -/
def Finished (S : OpenSystem) (i : Nat) (job : Job) (outcome : Outcome) : Prop :=
  S.tasks[i]? = some ⟨job, .done outcome⟩

end OpenSystem

/-- A step of the service, or a write by others. -/
inductive OpenStep (appId : String) : OpenSystem → OpenSystem → Prop where
  | service {S : OpenSystem} {τ : System} {act : Act} (hstep : Step appId S.system τ)
      (hact : τ.past = act :: acts S.past) :
      OpenStep appId S ⟨τ.store, τ.tasks, .service act :: S.past⟩
  | put (S : OpenSystem) (key value : String) :
      OpenStep appId S
        ⟨(S.store.put key value).2, S.tasks, .put key value (S.store.put key value).1 :: S.past⟩
  | putIf (S : OpenSystem) (key value : String) (expected : Option Nat) :
      OpenStep appId S
        ⟨(S.store.putIf key value expected).2, S.tasks,
          .putIf key value expected (S.store.putIf key value expected).1 :: S.past⟩

/-- Any number of steps, in any order. -/
def OpenRun (appId : String) : OpenSystem → OpenSystem → Prop :=
  Relation.ReflTransGen (OpenStep appId)

variable {appId : String} {S T : OpenSystem} {past early : List Incident} {m : Memory} {i : Nat}

/-! ### Being overtaken -/

/-- A key was written, and not by a given task. -/
inductive Rival (i : Nat) (key : String) : Incident → Prop where
  | service {j : Nat} {value : String} {expected : Option Nat} {n : Nat} (hj : j ≠ i) :
      Rival i key (.service (.answer j ⟨.putIf key value expected, .ok (.written n)⟩))
  | put {value : String} {n : Nat} : Rival i key (.put key value (.ok n))
  | putIf {value : String} {expected : Option Nat} {n : Nat} :
      Rival i key (.putIf key value expected (.ok (.written n)))

/-- Whether a key is that of the mapping of a session id or that of a session. -/
def Concerned (s key : String) : Prop :=
  key = mappingKey s ∨ ∃ meetingId, key = sessionKey meetingId

/-- A number of times, one after the other, a task read a key and could not write it, since others
wrote it in between. -/
inductive Overtakings (i : Nat) (s : String) : Nat → List Incident → Prop where
  | none (past : List Incident) : Overtakings i s 0 past
  | more {n : Nat} {early : List Incident} (later between : List Incident) {key : String}
      (value : String) (stored : Option Versioned) (hkey : Concerned s key)
      (hrival : ∃ incident ∈ between, Rival i key incident) (hearly : Overtakings i s n early) :
      Overtakings i s (n + 1) (later ++ .service (.answer i
        ⟨.putIf key value (stored.map Versioned.version), .ok .conflict⟩) ::
          (between ++ .service (.answer i ⟨.get key, .ok stored⟩) :: early))

/-- Overtakings are not undone. -/
theorem Overtakings.append {s : String} {n : Nat} (h : Overtakings i s n past)
    (new : List Incident) : Overtakings i s n (new ++ past) := by
  cases h with
  | none => exact .none _
  | more later between value stored hkey hrival hearly =>
    rw [← List.append_assoc]
    exact .more (new ++ later) between value stored hkey hrival hearly

/-- The writes by others are as many as the times, since each falls in a time of its own. -/
theorem Overtakings.exists_sublist {s : String} {n : Nat} (h : Overtakings i s n past) :
    ∃ rivals : List Incident, rivals.length = n ∧ rivals.Sublist past ∧
      ∀ incident ∈ rivals, ∃ key, Concerned s key ∧ Rival i key incident := by
  induction h with
  | none past => exact ⟨[], rfl, List.nil_sublist past, fun _ h => nomatch h⟩
  | @more n early later between key value stored hkey hrival _ ih =>
    obtain ⟨rivals, hlength, hsublist, hrivals⟩ := ih
    obtain ⟨incident, hmem, hincident⟩ := hrival
    refine ⟨incident :: rivals, by rw [List.length_cons, hlength], ?_, fun d hd => ?_⟩
    · have hbetween : [incident].Sublist between := List.singleton_sublist.2 hmem
      have hrest := hbetween.append (hsublist.cons (.service (.answer i ⟨.get key, .ok stored⟩)))
      exact (hrest.cons _).trans (List.sublist_append_right later _)
    · rcases List.mem_cons.1 hd with rfl | hd
      · exact ⟨key, hkey, hincident⟩
      · exact hrivals d hd

/-- A join that is answered that the session is busy was overtaken by others as often as it
tried. -/
structure Conflicted (i : Nat) (job : Job) (s : String) (past : List Incident) : Prop where
  /-- All that happened since the task started. -/
  since : ∃ since before, past = since ++ .service (.start job) :: before ∧
    own i (acts before) = [] ∧ Overtakings i s maxAttempts since ∧
    ∃ rivals : List Incident, rivals.length = maxAttempts ∧ rivals.Sublist since ∧
      ∀ incident ∈ rivals, ∃ key, Concerned s key ∧ Rival i key incident

/-- Joins are answered that the session is busy only if others were faster every time. -/
structure ConflictsEarned (appId : String) : Prop where
  conflicted : ∀ m S i mode s r reason, OpenRun appId ⟨m, [], []⟩ S →
    S.Finished i (.join mode s r) (.joined (.error (.conflict reason))) →
    Conflicted i (.join mode s r) s S.past
  undisturbed : ∀ m mode s r entries m' reason,
    ¬ Alone m ((Job.join mode s r).program appId) entries m' (.joined (.error (.conflict reason)))

/-! ### What the store holds -/

/-- The store after something happened. -/
def Incident.apply (m : Memory) : Incident → Memory
  | .service act => (World.next ⟨m, []⟩ act).store
  | .put key value _ => (m.put key value).2
  | .putIf key value expected _ => (m.putIf key value expected).2

/-- Whether something may happen. -/
def Incident.Allowed (m : Memory) : Incident → Prop
  | .service act => World.Allows ⟨m, []⟩ act
  | .put key value r => r = (m.put key value).1
  | .putIf key value expected r => r = (m.putIf key value expected).1

/-- The store after all that happened. -/
def storeAfterAll (m : Memory) : List Incident → Memory
  | [] => m
  | incident :: past => incident.apply (storeAfterAll m past)

/-- All that happened was possible when it happened. -/
def Feasible (m : Memory) (past : List Incident) : Prop :=
  ∀ incident before, incident :: before <:+ past → incident.Allowed (storeAfterAll m before)

theorem Feasible.of_suffix (h : Feasible m past) (hsuffix : early <:+ past) : Feasible m early :=
  fun incident before hbefore => h incident before (hbefore.trans hsuffix)

theorem Feasible.cons (h : Feasible m past) {incident : Incident}
    (hincident : incident.Allowed (storeAfterAll m past)) : Feasible m (incident :: past) := by
  intro incident' before hsuffix
  rcases List.suffix_cons_iff.1 hsuffix with hlast | hbefore
  · obtain ⟨rfl, rfl⟩ := List.cons.inj hlast
    exact hincident
  · exact h incident' before hbefore

/-- The worlds before and after something happened are told apart by what happened only. -/
theorem World.allows_of_store {w w' : World} {act : Act} (h : w.Allows act)
    (hstore : w.store = w'.store) : w'.Allows act := by
  obtain ⟨store, past⟩ := w
  obtain ⟨store', past'⟩ := w'
  obtain rfl : store = store' := hstore
  cases act with
  | answer i e =>
    obtain ⟨c, r⟩ := e
    cases c <;> exact h
  | _ => trivial

theorem store_next_of_store {w w' : World} (h : w.store = w'.store) (act : Act) :
    (w.next act).store = (w'.next act).store := by
  unfold World.next
  rw [h]

/-- A key holds what it held, unless somebody writes it. -/
theorem Incident.lookup_apply {incident : Incident} {key : String} (hallowed : incident.Allowed m)
    (hspared : ∀ i, ¬ Rival i key incident) : (incident.apply m).lookup key = m.lookup key := by
  cases incident with
  | service act =>
    refine lookup_next_of_spared key hallowed ?_
    rintro j value expected n rfl
    exact hspared (j + 1) (.service (Nat.succ_ne_self j).symm)
  | put k value r =>
    obtain rfl : r = (m.put k value).1 := hallowed
    show (m.put k value).2.lookup key = _
    unfold Memory.put at hspared ⊢
    cases hup : m.available with
    | false => rfl
    | true =>
      rw [hup] at hspared
      refine (Memory.lookup_insert ..).trans (if_neg ?_)
      rintro rfl
      exact hspared 0 .put
  | putIf k value expected r =>
    -- Whoever makes it, a conditional write does the same.
    show (World.next ⟨m, []⟩ (.answer 0 ⟨.putIf k value expected, r⟩)).store.lookup key = _
    refine lookup_next_of_spared key hallowed ?_
    rintro j value' expected' n ⟨⟩
    exact hspared 0 .putIf

/-- If a key does not hold what it held, somebody wrote it. -/
theorem Feasible.exists_rival {key : String} {late : List Incident} (h : Feasible m (late ++ early))
    (hchanged : (storeAfterAll m (late ++ early)).lookup key ≠ (storeAfterAll m early).lookup key) :
    ∃ incident ∈ late, ∃ i, Rival i key incident := by
  induction late with
  | nil => exact absurd rfl hchanged
  | cons incident late ih =>
    have hallowed := h incident (late ++ early) (List.suffix_refl _)
    by_cases hspared : ∀ i, ¬ Rival i key incident
    · have hsame : (storeAfterAll m (incident :: late ++ early)).lookup key =
          (storeAfterAll m (late ++ early)).lookup key := Incident.lookup_apply hallowed hspared
      rw [hsame] at hchanged
      obtain ⟨incident', hmem, hrival⟩ := ih (h.of_suffix (List.suffix_cons incident _)) hchanged
      exact ⟨incident', List.mem_cons_of_mem incident hmem, hrival⟩
    · push Not at hspared
      exact ⟨incident, List.mem_cons_self, hspared⟩

/-! ### What a task was told -/

/-- What a task is told, if it is told something. -/
def Incident.told (i : Nat) : Incident → Option Entry
  | .service (.answer j e) => if j = i then some e else none
  | _ => none

/-- What a task was told, read off the incidents. -/
theorem own_acts (i : Nat) (past : List Incident) :
    own i (acts past) = past.filterMap (Incident.told i) := by
  unfold own acts
  rw [List.filterMap_filterMap]
  congr 1
  funext incident
  cases incident with
  | service act => cases act <;> rfl
  | _ => rfl

/-- Only the service tells a task anything. -/
theorem Incident.told_eq_some {incident : Incident} {e : Entry} (h : incident.told i = some e) :
    incident = .service (.answer i e) := by
  unfold Incident.told at h
  split at h
  · split at h
    · rename_i hj
      rw [hj, Option.some.inj h]
    · exact nomatch h
  · exact nomatch h

/-- What a task was told at some time was told it by what happened then. -/
theorem exists_split {later told : List Entry} {e : Entry}
    (h : own i (acts past) = later ++ e :: told) :
    ∃ late early, past = late ++ .service (.answer i e) :: early ∧ own i (acts late) = later ∧
      own i (acts early) = told := by
  simp only [own_acts] at h ⊢
  obtain ⟨late, rest, rfl, hlate, hrest⟩ := List.filterMap_eq_append_iff.1 h
  obtain ⟨silent, incident, early, rfl, hsilent, hincident, hearly⟩ :=
    List.filterMap_eq_cons_iff.1 hrest
  obtain rfl := Incident.told_eq_some hincident
  refine ⟨late ++ silent, early, (List.append_assoc ..).symm, ?_, hearly⟩
  rw [List.filterMap_append, hlate, List.filterMap_eq_nil_iff.2 hsilent, List.append_nil]

/-- What a task was told earlier, it was told at some point of the past. -/
theorem exists_split_of_suffix {told : List Entry} (h : told <:+ own i (acts past)) :
    ∃ late early, past = late ++ early ∧ own i (acts early) = told := by
  obtain ⟨later, hlater⟩ := h
  rw [own_acts] at hlater
  obtain ⟨late, early, rfl, -, hearly⟩ := List.filterMap_eq_append_iff.1 hlater.symm
  exact ⟨late, early, rfl, (own_acts i early).trans hearly⟩

/-- A task that only waits between a read and a lost write was overtaken by another one. -/
theorem exists_rival_of_idle {base between : List Incident} {key value : String}
    {stored : Option Versioned}
    (h : Feasible m (.service (.answer i ⟨.putIf key value (stored.map Versioned.version),
      .ok .conflict⟩) :: (between ++ .service (.answer i ⟨.get key, .ok stored⟩) :: base)))
    (hidle : ∀ e ∈ own i (acts between), Idle e.call) :
    ∃ incident ∈ between, Rival i key incident := by
  have hread : Except.ok stored = (storeAfterAll m base).get key :=
    h _ base ((List.suffix_append between _).trans (List.suffix_cons _ _))
  have hstored : (storeAfterAll m base).lookup key = stored := Memory.lookup_of_get hread.symm
  have hlost := h _ _ (List.suffix_refl _)
  -- The write is lost, so the key was no longer as it had been read.
  have hchanged : (storeAfterAll m (between ++ .service (.answer i ⟨.get key, .ok stored⟩) ::
      base)).lookup key ≠
      (storeAfterAll m (.service (.answer i ⟨.get key, .ok stored⟩) :: base)).lookup key := by
    intro hsame
    rcases putIf_cases (w := ⟨_, []⟩) hlost with ⟨-, -, hr⟩ | ⟨-, hversion, -⟩ | ⟨-, hr⟩
    · exact nomatch hr
    · refine hversion ?_
      rw [hsame]
      exact congrArg (Option.map Versioned.version) hstored
    · exact nomatch hr
  obtain ⟨incident, hmem, j, hrival⟩ :=
    (h.of_suffix (List.suffix_cons _ _)).exists_rival hchanged
  refine ⟨incident, hmem, ?_⟩
  cases hrival with
  | put => exact .put
  | putIf => exact .putIf
  | @service k value' expected n hk =>
    refine .service ?_
    rintro rfl
    have hown : ⟨.putIf key value' expected, .ok (.written n)⟩ ∈ own k (acts between) := by
      rw [own_acts]
      exact List.mem_filterMap.2 ⟨_, hmem, if_pos rfl⟩
    exact hidle _ hown

/-- As often as a task lost a write, it was overtaken. -/
theorem overtakings_of_losses {s : String} {n : Nat} {told : List Entry} (h : Losses s n told)
    {base : List Incident} (hown : own i (acts past) = told)
    (hfeasible : Feasible m (past ++ base)) : Overtakings i s n past := by
  induction h generalizing past with
  | none told => exact .none past
  | @more n told told' told'' _ hlost hlater ih =>
    obtain ⟨key, hkey, stored, before, between, value, hbefore, hidle, rfl⟩ :
        ∃ key, Concerned s key ∧ ∃ stored before between value, told <:+ before ∧
          (∀ e ∈ between, Idle e.call) ∧
          told' = ⟨.putIf key value (stored.map Versioned.version), .ok .conflict⟩ ::
            (between ++ ⟨.get key, .ok stored⟩ :: before) := by
      cases hlost with
      | mapping h => exact ⟨_, .inl rfl, h.split⟩
      | session meetingId h => exact ⟨_, .inr ⟨meetingId, rfl⟩, h.split⟩
    -- The past is split where the task lost the write, and before that where it read the key.
    obtain ⟨later, rfl⟩ := hlater
    obtain ⟨late, rest, rfl, -, hrest⟩ := exists_split hown
    obtain ⟨mid, early, rfl, hmid, hearly⟩ := exists_split hrest
    obtain ⟨older, oldest, rfl, holdest⟩ := exists_split_of_suffix (hearly ▸ hbefore)
    simp only [List.append_assoc, List.cons_append] at hfeasible
    have hlast := hfeasible.of_suffix (List.suffix_append late _)
    have hread := hlast.of_suffix ((List.suffix_append mid _).trans (List.suffix_cons _ _))
    refine .more late mid value stored hkey (exists_rival_of_idle hlast (hmid ▸ hidle)) ?_
    refine (ih holdest ?_).append older
    exact hread.of_suffix ((List.suffix_append older _).trans (List.suffix_cons _ _))

/-! ### Runs -/

/-- A task was there before a step, or is the one that the step starts. -/
theorem Step.task_cases {σ τ : System} (h : Step appId σ τ) {t : Task}
    (ht : τ.tasks[i]? = some t) : (∃ t', σ.tasks[i]? = some t' ∧ t'.job = t.job) ∨
      (i = σ.tasks.length ∧ τ.past = .start t.job :: σ.past) := by
  cases h with
  | start job =>
    -- the task was there before, or it is the one that starts
    rcases Nat.lt_or_ge i σ.tasks.length with hi | hi
    · rw [List.getElem?_append_left hi] at ht
      exact .inl ⟨t, ht, rfl⟩
    · rw [List.getElem?_append_right hi, List.getElem?_singleton] at ht
      split at ht
      · obtain rfl := Option.some.inj ht
        exact .inr ⟨by omega, rfl⟩
      · exact nomatch ht
  | @answer k job c rest r htask hr =>
    by_cases hik : k = i
    · subst hik
      rw [List.getElem?_set_self (List.getElem?_eq_some_iff.1 htask).1] at ht
      obtain rfl := Option.some.inj ht
      exact .inl ⟨_, htask, rfl⟩
    · rw [List.getElem?_set_ne hik] at ht
      exact .inl ⟨t, ht, rfl⟩
  | switch available => exact .inl ⟨t, ht, rfl⟩

/-- A task was started at some time and was told nothing before. -/
def StartedIn (past : List Incident) (i : Nat) (job : Job) : Prop :=
  ∃ since before, past = since ++ .service (.start job) :: before ∧ own i (acts before) = []

theorem StartedIn.cons {job : Job} (h : StartedIn past i job) (incident : Incident) :
    StartedIn (incident :: past) i job := by
  obtain ⟨since, before, rfl, hnone⟩ := h
  exact ⟨incident :: since, before, rfl, hnone⟩

/-- What is known of a service and its store at any time. -/
structure Chronicled (appId : String) (m : Memory) (S : OpenSystem) : Prop where
  store : S.store = storeAfterAll m S.past
  feasible : Feasible m S.past
  underway : Underway appId S.system
  started : ∀ i t, S.tasks[i]? = some t → StartedIn S.past i t.job

/-- A write by others is nothing to the tasks. -/
theorem Chronicled.others (h : Chronicled appId m S) {incident : Incident} {m' : Memory}
    (hacts : acts (incident :: S.past) = acts S.past) (hstore : m' = incident.apply S.store)
    (hallowed : incident.Allowed S.store) :
    Chronicled appId m ⟨m', S.tasks, incident :: S.past⟩ where
  store := hstore.trans (congrArg incident.apply h.store)
  feasible := h.feasible.cons (h.store ▸ hallowed)
  underway := by
    unfold OpenSystem.system
    dsimp only
    rw [hacts]
    exact ⟨h.underway.task, h.underway.new⟩
  started i t ht := (h.started i t ht).cons incident

/-- A step writes on in the chronicle, be it one of the service or of others who write to the store
that it uses. -/
theorem Chronicled.step (h : Chronicled appId m S) (hstep : OpenStep appId S T) :
    Chronicled appId m T := by
  cases hstep with
  | put key value => exact h.others rfl rfl rfl
  | putIf key value expected => exact h.others rfl rfl rfl
  | @service τ act hstep hact =>
    have hsystem : OpenSystem.system ⟨τ.store, τ.tasks, .service act :: S.past⟩ = τ := by
      show (⟨⟨τ.store, act :: acts S.past⟩, τ.tasks⟩ : System) = τ
      rw [← hact]
    obtain ⟨act', hnext, hallows⟩ := hstep.next
    obtain rfl : act' = act := by
      have hpast := hact.symm.trans (congrArg World.past hnext)
      exact (List.cons.inj hpast).1.symm
    refine ⟨?_, h.feasible.cons (World.allows_of_store hallows h.store), ?_, fun i t ht => ?_⟩
    · rw [storeAfterAll, ← h.store]
      exact (congrArg World.store hnext).trans (store_next_of_store rfl _)
    · rw [hsystem]
      exact h.underway.step hstep
    · rcases hstep.task_cases ht with ⟨t', ht', hjob⟩ | ⟨hi, hstart⟩
      · exact hjob ▸ (h.started i t' ht').cons _
      -- The task that starts was told nothing so far.
      · obtain rfl : act' = .start t.job := (List.cons.inj (hact.symm.trans hstart)).1
        exact ⟨[], S.past, rfl, h.underway.new i (Nat.le_of_eq hi.symm)⟩

/-- The chronicle of a run is complete. -/
theorem chronicled_of_run (hrun : OpenRun appId ⟨m, [], []⟩ S) : Chronicled appId m S := by
  induction hrun with
  | refl => exact ⟨rfl, fun _ _ h => (nomatch List.suffix_nil.1 h), underway_empty m,
      fun _ _ h => (nomatch h)⟩
  | tail _ hstep ih => exact ih.step hstep

/-- A join that ends in conflict was overtaken in each of its attempts, whoever else writes to the
store. -/
theorem conflicted_of_finished (hrun : OpenRun appId ⟨m, [], []⟩ S) {mode : Mode} {s : String}
    {r : JoinRequest} {reason : String}
    (hfinished : S.Finished i (.join mode s r) (.joined (.error (.conflict reason)))) :
    Conflicted i (.join mode s r) s S.past := by
  have hall := chronicled_of_run hrun
  obtain ⟨since, before, hpast, hnone⟩ := hall.started i _ hfinished
  have hlosses : Losses s maxAttempts (own i (acts S.past)) :=
    hall.underway.earned hfinished mode s r reason rfl rfl
  have hown : own i (acts since) = own i (acts S.past) := by
    simp only [own_acts] at hnone ⊢
    rw [hpast, List.filterMap_append, List.filterMap_cons, hnone]
    exact (List.append_nil _).symm
  have hovertaken := overtakings_of_losses hlosses hown (hpast ▸ hall.feasible)
  exact ⟨since, before, hpast, hnone, hovertaken, hovertaken.exists_sublist⟩

/-- Without other writers the incidents are the acts. -/
theorem acts_map_service (past : List Act) : acts (past.map .service) = past := by
  induction past with
  | nil => rfl
  | cons act past ih => exact congrArg (act :: ·) ih

/-- A run of the service alone is one in which others do nothing. -/
theorem openRun_of_run {τ : System} (hrun : Run appId ⟨⟨m, []⟩, []⟩ τ) :
    OpenRun appId ⟨m, [], []⟩ ⟨τ.store, τ.tasks, τ.past.map .service⟩ := by
  induction hrun with
  | refl => exact .refl
  | @tail σ τ _ hstep ih =>
    have hsystem : OpenSystem.system ⟨σ.store, σ.tasks, σ.past.map .service⟩ = σ := by
      show (⟨⟨σ.store, acts (σ.past.map .service)⟩, σ.tasks⟩ : System) = σ
      rw [acts_map_service]
    obtain ⟨act, hnext, -⟩ := hstep.next
    have hpast : τ.past = act :: σ.past := congrArg World.past hnext
    rw [hpast]
    refine .tail ih (.service (hsystem.symm ▸ hstep) ?_)
    rw [acts_map_service, hpast]

/-- Who is alone has no rivals. -/
theorem not_rival_of_mem_aloneAfter {job : Job} {entries : List Entry} {key : String}
    {incident : Incident} (hmem : incident ∈ (aloneAfter i job entries []).map Incident.service) :
    ¬ Rival i key incident := by
  intro hrival
  obtain ⟨act, hact, rfl⟩ := List.mem_map.1 hmem
  cases hrival with
  | service hj =>
    rcases List.mem_append.1 hact with hentry | hstart
    · obtain ⟨e, -, he⟩ := List.mem_map.1 (List.mem_reverse.1 hentry)
      cases he
      exact hj rfl
    · exact nomatch List.mem_singleton.1 hstart

/-- In every run, a join is answered that the session is busy only if others were faster in each of
its attempts. -/
theorem conflicts_earned (appId : String) : ConflictsEarned appId where
  conflicted _ _ _ _ _ _ _ hrun hfinished := conflicted_of_finished hrun hfinished
  undisturbed m mode s r entries m' reason halone := by
    have hrun := openRun_of_run (run_of_alone (σ := ⟨⟨m, []⟩, []⟩) halone)
    obtain ⟨since, before, hpast, -, -, rivals, hlength, hsublist, hrivals⟩ :=
      (conflicted_of_finished (i := 0) hrun rfl).since
    -- Five rivals would be told of in a past that has none.
    obtain ⟨incident, hincident⟩ : ∃ incident, incident ∈ rivals :=
      List.exists_mem_of_length_pos (hlength ▸ Nat.zero_lt_succ 4)
    obtain ⟨key, -, hrival⟩ := hrivals incident hincident
    have hmem : incident ∈ (aloneAfter 0 (.join mode s r) entries []).map Incident.service := by
      have hsince := List.mem_append_left (.service (.start (.join mode s r)) :: before)
        (hsublist.subset hincident)
      rwa [← hpast] at hsince
    exact not_rival_of_mem_aloneAfter hmem hrival

end VoiceRoom.Concurrency
