import Mathlib.Data.List.Forall2
import VoiceRoom.Proofs.Concurrency.Queue
import VoiceRoom.Proofs.Concurrency.Visits

/-!
# Newcomers are served

Whenever a session is there and newcomers join it side by side, undisturbed and each to the end,
the roster becomes what it was followed by those who were taken in, and nobody is turned away while
there is room (`newcomers_served`).

Whom the roster gained is known from who made it longer in the meantime (`exists_gained`), and that
it is full if anybody was turned away from the queue (`Venue.Admits`).
-/

namespace VoiceRoom.Concurrency

open Discipline
open Simulation (Entry)

variable {appId : String} {σ₁ σ₂ : System} {s : String} {mapping : Mapping} {x : Session}
variable {user : Nat → String} {J : List Nat} {i : Nat}

/-! ### The situation -/

/-- A session is there, and after that tasks join it: users who are told apart and are not in it,
with valid requests, each in a mode in which the mapping counts, and each to the end. All the while
the store answers, and no other task writes the mapping or the session. -/
structure Newcomers (σ₁ σ₂ : System) (s : String) (mapping : Mapping) (x : Session)
    (user : Nat → String) (J : List Nat) : Prop where
  mapped : σ₁.store.mappingAt s = some mapping
  stored : σ₁.store.sessionAt mapping.meetingId = some x
  started : ∀ i ∈ J, σ₁.tasks.length ≤ i
  finished : ∀ i ∈ J, ∃ mode r outcome, σ₂.Finished i (.join mode s r) outcome ∧
    r.validate = .ok (user i) ∧ (mode = .mock ∨ mapping.kind = .real)
  distinct : (J.map user).Nodup
  outside : ∀ i ∈ J, x.hasMember (user i) = false
  available : σ₁.store.available = true
  answering : ¬ Since σ₁.past σ₂.past (.switch false)
  undisturbed : ∀ i key value expected n,
    Since σ₁.past σ₂.past (.answer i ⟨.putIf key value expected, .ok (.written n)⟩) → i ∉ J →
      key ≠ mappingKey s ∧ key ≠ sessionKey mapping.meetingId

/-- A join was answered with a session. -/
def TookIn (σ : System) (i : Nat) : Prop :=
  ∃ mode s r reply, σ.Finished i (.join mode s r) (.joined (.ok reply))

/-- A join was answered that the session is full or busy. -/
def TurnedAway (σ : System) (i : Nat) : Prop :=
  ∃ mode s r e, σ.Finished i (.join mode s r) (.joined (.error e)) ∧
    (e = .sessionFull ∨ ∃ reason, e = .conflict reason)

/-- What newcomers come to. -/
structure Served (σ : System) (mapping : Mapping) (x : Session) (user : Nat → String)
    (J : List Nat) : Prop where
  /-- The roster is what it was followed by exactly those who were taken in, up to capacity. -/
  roster : ∃ (x' : Session) (added : List Member) (order : List Nat),
    σ.store.sessionAt mapping.meetingId = some x' ∧
    x'.users = x.users ++ added ∧ added.map Member.userId = order.map user ∧
    order.Nodup ∧ (∀ i, i ∈ order ↔ i ∈ J ∧ TookIn σ i) ∧
    x'.users.length = min capacity (x.users.length + J.length)
  answered : ∀ i ∈ J, TookIn σ i ∨ TurnedAway σ i
  everyone : x.users.length + J.length ≤ capacity → ∀ i ∈ J, TookIn σ i

/-! ### The queue -/

namespace Newcomers

/-- The session that the newcomers queue for. -/
def venue (σ₁ : System) (s : String) (mapping : Mapping) (J : List Nat) (gap : Int) : Venue :=
  ⟨σ₁.past, s, mapping, gap, (· ∈ J)⟩

/-- Newcomers queue from the beginning of their time. -/
theorem queued (h : Newcomers σ₁ σ₂ s mapping x user J) :
    ∃ gap, (venue σ₁ s mapping J gap).Queued σ₁.world := by
  obtain ⟨stored, hlookup, -⟩ := Memory.lookup_of_sessionAt h.stored
  refine ⟨stored.version - (rosterAt σ₁.store mapping.meetingId).length, List.suffix_refl _,
    h.available, h.mapped, stored, hlookup, ?_⟩
  show (stored.version : Int) = (rosterAt σ₁.store mapping.meetingId).length +
    (stored.version - (rosterAt σ₁.store mapping.meetingId).length)
  omega

/-- Nobody else writes into the room of the newcomers. -/
theorem venue_undisturbed (h : Newcomers σ₁ σ₂ s mapping x user J) (hrun : Run appId {} σ₂)
    (gap : Int) : (venue σ₁ s mapping J gap).Undisturbed σ₂.past where
  calm act hact := by
    refine ⟨?_, ?_⟩
    · rintro rfl
      exact h.answering hact
    · rintro i key value expected n rfl hi
      exact h.undisturbed i key value expected n hact hi
  suits i job hi hjob := by
    obtain ⟨mode, r, outcome, hfinished, hvalid, hmode⟩ := h.finished i hi
    obtain rfl := Option.some.inj (hjob.symm.trans (getElem?_jobs_of_finished hrun hfinished))
    exact ⟨rfl, ⟨_, hvalid⟩, hmode⟩

/-- Whoever of the newcomers is turned away is turned away from a full session, and the mapping is
as it was. -/
theorem admits (h : Newcomers σ₁ σ₂ s mapping x user J) (h₁ : Run appId {} σ₁)
    (h₂ : Run appId σ₁ σ₂) (hfresh : FreshGrants σ₂.past) :
    σ₂.store.mappingAt s = some mapping ∧ ∀ i job outcome, i ∈ J → σ₂.Finished i job outcome →
      ∃ r, outcome = .joined r ∧ ∀ e, r = .error e →
        (e = .sessionFull ∨ ∃ reason, e = .conflict reason) ∧
          capacity ≤ (rosterAt σ₂.store mapping.meetingId).length := by
  obtain ⟨gap, hqueued⟩ := h.queued
  have hassumes : (venue σ₁ s mapping J gap).bylaw.Assumes σ₂.past :=
    ⟨kept_of_run (h₁.trans h₂), hfresh, h.venue_undisturbed (h₁.trans h₂) gap⟩
  have hstart : (venue σ₁ s mapping J gap).bylaw.discipline.Governs
      (venue σ₁ s mapping J gap).Admits σ₁ := by
    refine ⟨⟨storeOf_of_run h₁, hqueued⟩, fun i t ht => ?_, (ledger_of_run h₁).new⟩
    -- No task that was there before queues.
    have hi : i ∉ J := fun hi => absurd (List.getElem?_eq_some_iff.1 ht).1
      (Nat.not_lt.2 (h.started i hi))
    exact Holds.mono (Venue.holds_bystander hi _) fun _ _ _ _ _ hi' => absurd hi' hi
  obtain ⟨-, hgov⟩ := hstart.run_of_start h₂ hassumes fun τ job hτ hlater _ _ _ =>
    Venue.holds_job_queue appId fun hi =>
      hlater.own.suits _ job hi (jobs_start_of_run (h₁.trans hτ) job)
  exact ⟨hgov.inv.own.mapped, fun i job outcome hi hfinished => hgov.finished hassumes hfinished hi⟩

end Newcomers

/-! ### Whom a roster gained -/

/-- Between two states, a roster gains one member from each task that made it longer. -/
theorem exists_gained (h₁ : Run appId {} σ₁) (h₂ : Run appId σ₁ σ₂)
    (hfresh : FreshGrants σ₂.past) (k : String) :
    ∃ order added, rosterAt σ₂.store k = rosterAt σ₁.store k ++ added ∧
      List.Forall₂ (Brought σ₂.past) order added ∧ order.Nodup ∧
      (∀ i ∈ order, i ∈ appenders k σ₂.past) ∧
      ∀ i ∈ order, ∃ value expected n, Since σ₁.past σ₂.past
        (.answer i ⟨.putIf (sessionKey k) value expected, .ok (.written n)⟩) := by
  have hgrows := grows_of_run h₁ h₂
  have hattended₁ : Attended σ₁.world :=
    (attendance_of_run h₁ (hfresh.of_suffix hgrows.past)).inv.own
  have hattended₂ : Attended σ₂.world := (attendance_of_run (h₁.trans h₂) hfresh).inv.own
  obtain ⟨new, hnew⟩ := hgrows.past
  obtain ⟨added, hadded⟩ := rosterAt_prefix_of_grows hgrows hfresh k
  have hallowed := (kept_of_run (h₁.trans h₂)).allowed
  rw [System.past, ← hnew] at hallowed
  obtain ⟨l, hl, hwrote⟩ := appenders_append (k := k) hallowed
  have hroll := hattended₂.roll k
  have hlength : (appenders k σ₁.world.past).reverse.length = (rosterAt σ₁.world.store k).length :=
    (hattended₁.roll k).length_eq
  have hnodup : (appenders k σ₂.world.past).Nodup := List.nodup_iff_count_le_one.2 fun i =>
    (count_appenders_le_tally k i _).trans (hattended₂.once i).2
  rw [← hnew, hl] at hnodup
  refine ⟨l.reverse, added, hadded.symm, ?_, List.nodup_reverse.2 hnodup.of_append_left,
    fun i hi => ?_, fun i hi => ?_⟩
  -- The members that were there before are those of the tasks before.
  · rw [← hadded, ← hnew, hl, List.reverse_append] at hroll
    have hdrop := List.forall₂_drop_append _ _ _ hroll
    rw [← hlength, List.drop_left] at hdrop
    rw [System.past, ← hnew]
    exact hdrop
  · rw [System.past, ← hnew, hl]
    exact List.mem_append_left _ (List.mem_reverse.1 hi)
  · obtain ⟨value, expected, n, hmem⟩ := hwrote i (List.mem_reverse.1 hi)
    exact ⟨value, expected, n, new, hnew.symm, hmem⟩

/-- Mappings do not move there and back. -/
theorem Moved.antisymm {before after : Mapping} (h : Moved s (some before) (some after))
    (h' : Moved s (some after) (some before)) : after = before := by
  rcases h with hstay | hmoves
  · exact Option.some.inj hstay
  -- A real meeting would not be left again.
  · cases hmoves with
    | promote meetingId => exact (Option.some.inj h'.eq_of_real).symm

/-- A task cannot have come to two ends. -/
theorem TookIn.reply (h : TookIn σ₂ i) {job : Job} {outcome : Outcome}
    (hfinished : σ₂.Finished i job outcome) : ∃ reply, outcome = .joined (.ok reply) := by
  obtain ⟨mode, s, r, reply, htook⟩ := h
  cases Option.some.inj (htook.symm.trans hfinished)
  exact ⟨reply, rfl⟩

namespace Newcomers

/-- Who made the roster longer since is one of the newcomers, and was taken in. -/
theorem tookIn_of_gained (h : Newcomers σ₁ σ₂ s mapping x user J) (h₁ : Run appId {} σ₁)
    (h₂ : Run appId σ₁ σ₂) (hfresh : FreshGrants σ₂.past)
    (happender : i ∈ appenders mapping.meetingId σ₂.past)
    (hwrote : ∃ value expected n, Since σ₁.past σ₂.past
      (.answer i ⟨.putIf (sessionKey mapping.meetingId) value expected, .ok (.written n)⟩)) :
    i ∈ J ∧ TookIn σ₂ i := by
  obtain ⟨value, expected, n, hsince⟩ := hwrote
  have hi : i ∈ J := by
    by_contra hi
    exact (h.undisturbed i _ value expected n hsince hi).2 rfl
  refine ⟨hi, ?_⟩
  obtain ⟨mode, r, outcome, hfinished, -⟩ := h.finished i hi
  obtain ⟨result, rfl, -⟩ := (h.admits h₁ h₂ hfresh).2 i _ outcome hi hfinished
  cases result with
  | ok reply => exact ⟨mode, s, r, reply, hfinished⟩
  -- Who is answered with an error has made no roster longer.
  | error e =>
    have hrun : Run appId {} σ₂ := h₁.trans h₂
    have hunseated : tally seats i σ₂.past = 0 :=
      (attendance_of_run hrun hfresh).finished ⟨kept_of_run hrun, hfresh, trivial⟩ hfinished
    exact absurd happender (not_mem_appenders hunseated)

/-- A newcomer who was taken in is in the session. -/
theorem mem_of_tookIn (h : Newcomers σ₁ σ₂ s mapping x user J) (h₁ : Run appId {} σ₁)
    (h₂ : Run appId σ₁ σ₂) (hfresh : FreshGrants σ₂.past) (hi : i ∈ J) (htook : TookIn σ₂ i) :
    user i ∈ (rosterAt σ₂.store mapping.meetingId).map Member.userId := by
  obtain ⟨mode, r, outcome, hfinished, hvalid, -⟩ := h.finished i hi
  obtain ⟨reply, rfl⟩ := htook.reply hfinished
  obtain ⟨-, hgov⟩ := ledger_of_run_run h₁ h₂
  obtain ⟨userId, hvalid', hseated⟩ := hgov.finished trivial hfinished (h.started i hi)
  obtain rfl : userId = user i := Except.ok.inj (hvalid'.symm.trans hvalid)
  obtain ⟨y, hy, hcontinues⟩ := hseated.stored hfresh
  -- The mapping is the same all the time, so it is where the join went.
  have hmapping : reply.session.mapping = mapping := by
    obtain ⟨u, -, hstart, hat, hend⟩ := hseated.chosen.once
    have hmoved := hstart.mapping s
    have hmoved' := hend.mapping s
    rw [h.mapped, hat] at hmoved
    rw [hat, (h.admits h₁ h₂ hfresh).1] at hmoved'
    exact hmoved.antisymm hmoved'
  have hmeeting : reply.session.meetingId = mapping.meetingId :=
    congrArg Mapping.meetingId hmapping
  rw [← hmeeting, rosterAt_of_sessionAt hy]
  exact Session.hasMember_iff.1 (hcontinues.hasMember (hseated.ours hfresh).2)

/-- The roster gains exactly the newcomers who were taken in. -/
theorem exists_order (h : Newcomers σ₁ σ₂ s mapping x user J) (h₁ : Run appId {} σ₁)
    (h₂ : Run appId σ₁ σ₂) (hfresh : FreshGrants σ₂.past) :
    ∃ (added : List Member) (order : List Nat),
      rosterAt σ₂.store mapping.meetingId = x.users ++ added ∧
      added.map Member.userId = order.map user ∧ order.Nodup ∧
      ∀ i, i ∈ order ↔ i ∈ J ∧ TookIn σ₂ i := by
  obtain ⟨order, added, hadded, hbrought, hnodup, happenders, hwrote⟩ :=
    exists_gained h₁ h₂ hfresh mapping.meetingId
  rw [rosterAt_of_sessionAt h.stored] at hadded
  have hgained : ∀ i ∈ order, i ∈ J ∧ TookIn σ₂ i := fun i hi =>
    h.tookIn_of_gained h₁ h₂ hfresh (happenders i hi) (hwrote i hi)
  have hnames : added.map Member.userId = order.map user := by
    refine names_of_brought hbrought fun i hi => ?_
    obtain ⟨mode, r, outcome, hfinished, hvalid, -⟩ := h.finished i (hgained i hi).1
    exact ⟨mode, s, r, getElem?_jobs_of_finished (h₁.trans h₂) hfinished, hvalid⟩
  refine ⟨added, order, hadded, hnames, hnodup, fun i => ⟨hgained i, fun ⟨hi, htook⟩ => ?_⟩⟩
  -- Who was taken in was not in the session before, so it is one of those who came.
  have hmem := h.mem_of_tookIn h₁ h₂ hfresh hi htook
  rw [hadded, List.map_append, hnames] at hmem
  have hnew : user i ∉ x.users.map Member.userId := fun hold => by
    rw [← Session.hasMember_iff, h.outside i hi] at hold
    exact nomatch hold
  obtain ⟨i', hi', huser⟩ := List.mem_map.1 ((List.mem_append.1 hmem).resolve_left hnew)
  obtain rfl : i' = i := List.inj_on_of_nodup_map h.distinct (hgained i' hi').1 hi huser
  exact hi'

/-- A newcomer is taken in, or turned away from a session that is full. -/
theorem answered (h : Newcomers σ₁ σ₂ s mapping x user J) (h₁ : Run appId {} σ₁)
    (h₂ : Run appId σ₁ σ₂) (hfresh : FreshGrants σ₂.past) (hi : i ∈ J) : TookIn σ₂ i ∨
      TurnedAway σ₂ i ∧ capacity ≤ (rosterAt σ₂.store mapping.meetingId).length := by
  obtain ⟨mode, r, outcome, hfinished, -⟩ := h.finished i hi
  obtain ⟨result, rfl, hresult⟩ := (h.admits h₁ h₂ hfresh).2 i _ outcome hi hfinished
  cases result with
  | ok reply => exact .inl ⟨mode, s, r, reply, hfinished⟩
  | error e =>
    obtain ⟨he, hfull⟩ := hresult e rfl
    exact .inr ⟨⟨mode, s, r, e, hfinished, he⟩, hfull⟩

end Newcomers

/-! ### Nobody is turned away while there is room -/

/-- As many were taken in as there are newcomers, or fewer if one of them was not. -/
theorem length_of_mem_iff {order : List Nat} {P : Nat → Prop} (hJ : J.Nodup)
    (hnodup : order.Nodup) (horder : ∀ i, i ∈ order ↔ i ∈ J ∧ P i) :
    order.length ≤ J.length ∧ (order.length = J.length ↔ ∀ i ∈ J, P i) := by
  classical
  have hperm : order.Perm (J.filter fun i => P i) :=
    (List.perm_ext_iff_of_nodup hnodup (hJ.filter _)).2 fun i => by
      rw [horder i, List.mem_filter, decide_eq_true_iff]
  rw [hperm.length_eq]
  refine ⟨List.length_filter_le _ J, ?_⟩
  rw [List.length_filter_eq_length_iff]
  simp only [decide_eq_true_iff]

/-- In every run, newcomers who join a session undisturbed are served. -/
theorem newcomers_served (h₁ : Run appId {} σ₁) (h₂ : Run appId σ₁ σ₂)
    (hfresh : FreshGrants σ₂.past) (h : Newcomers σ₁ σ₂ s mapping x user J) :
    Served σ₂ mapping x user J := by
  have hsound : Sound σ₂.world := (ledger_of_run (h₁.trans h₂)).inv
  obtain ⟨x', hx', -⟩ := (grows_of_run h₁ h₂).sessions hfresh _ x h.stored
  have hroom : x'.users.length ≤ capacity := by
    obtain ⟨stored, hlookup, hdecode⟩ := Memory.lookup_of_sessionAt hx'
    exact (hsound.housed_of_decode hfresh hlookup hdecode).proper.room
  obtain ⟨added, order, hadded, hnames, hnodup, horder⟩ := h.exists_order h₁ h₂ hfresh
  have hanswered := fun i (hi : i ∈ J) => h.answered h₁ h₂ hfresh hi
  rw [rosterAt_of_sessionAt hx'] at hadded hanswered
  have hlength : x'.users.length = x.users.length + order.length := by
    have hsame := congrArg List.length hnames
    rw [List.length_map, List.length_map] at hsame
    rw [hadded, List.length_append, hsame]
  obtain ⟨hfew, hmany⟩ := length_of_mem_iff (h.distinct.of_map _) hnodup horder
  -- All came in, or one did not and the session is full.
  by_cases hall : ∀ i ∈ J, TookIn σ₂ i
  · have heq : order.length = J.length := hmany.2 hall
    refine ⟨⟨x', added, order, hx', hadded, hnames, hnodup, horder, ?_⟩,
      fun i hi => .inl (hall i hi), fun _ => hall⟩
    omega
  · have hfewer : order.length < J.length := Nat.lt_of_le_of_ne hfew (mt hmany.1 hall)
    push Not at hall
    obtain ⟨i, hi, hout⟩ := hall
    have hfull := ((hanswered i hi).resolve_left hout).2
    refine ⟨⟨x', added, order, hx', hadded, hnames, hnodup, horder, ?_⟩,
      fun i hi => (hanswered i hi).imp_right And.left, fun hroomy => ?_⟩
    · omega
    · omega

/-- The users of the second race. -/
def latecomer (i : Nat) : String :=
  ["u", "v", "w", "x"].getD i ""

/-- Two users who race each other find the session of the two before them. -/
theorem newcomers_afterRace :
    Newcomers afterRace afterRaces "s" ⟨"m", .real⟩ sessionOfTwo latecomer [2, 3] where
  mapped := stored_afterRace.1
  stored := stored_afterRace.2
  started := by
    rw [← List.length_map Task.job, jobs_afterRace]
    decide
  finished i hi := by
    rcases List.mem_pair.1 hi with rfl | rfl
    · exact ⟨.real, ⟨some "w", none⟩, _, finished_afterRaces.1, rfl, .inr rfl⟩
    · exact ⟨.real, ⟨some "x", none⟩, _, finished_afterRaces.2, rfl, .inr rfl⟩
  distinct := by decide
  outside := by decide
  available := available_afterRace
  answering := by
    rintro ⟨new, hpast, hswitch⟩
    unfold afterRaces at hpast
    exact nomatch visiting_of_past_eq hpast hswitch
  undisturbed i key value expected n hsince hi := by
    obtain ⟨new, hpast, hwrite⟩ := hsince
    unfold afterRaces at hpast
    cases visiting_of_past_eq hpast hwrite with
    | answer _ hturn =>
      -- Nobody but the two had a turn.
      refine absurd ?_ hi
      simp only [List.map_cons, List.map_nil, List.mem_cons, List.not_mem_nil, or_false] at hturn ⊢
      omega

/-- Two newcomers of a second race, one of whom loses a put to the other on the way. The session has
two places more than there are newcomers. -/
theorem newcomers_served_afterRaces :
    FreshGrants afterRaces.past ∧
      Newcomers afterRace afterRaces "s" ⟨"m", .real⟩ sessionOfTwo latecomer [2, 3] ∧
      Served afterRaces ⟨"m", .real⟩ sessionOfTwo latecomer [2, 3] :=
  ⟨freshGrants_afterRaces, newcomers_afterRace,
    newcomers_served run_afterRace run_afterRaces freshGrants_afterRaces newcomers_afterRace⟩

end VoiceRoom.Concurrency
