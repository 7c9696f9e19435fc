import VoiceRoom.Proofs.Concurrency.Answering

/-!
# A task that is left alone

While nothing happens but that one task is answered, by a store that answers, a later world as the
task finds it is the very world that it left (`solitude_later_eq`), and without a write of its own no
record changes (`solitude_lookup_of_rests`). So what holds of a program whatever others do in between
tells what it comes to when it runs alone (`Discipline.Holds.alone`).
-/

namespace VoiceRoom.Concurrency

open Discipline
open Simulation (Entry)

variable {i : Nat} {u v w : World} {base : List Act} {α : Type}

/-- Nothing happens but that one task is answered. -/
def solitude (base : List Act) (i : Nat) : Bylaw :=
  answering base (fun act => ∃ e, act = .answer i e) fun ⟨_, h⟩ => nomatch h

/-! ### Nothing happens in between -/

/-- Everything a task is answered is its own. -/
theorem own_map_answer (i : Nat) (entries : List Entry) :
    own i (entries.map (.answer i)) = entries := by
  induction entries with
  | nil => rfl
  | cons e entries ih => rw [List.map_cons, own_answer_self, ih]

/-- Acts that answer one task are known by the entries. -/
theorem exists_eq_map_answer {acts : List Act} (h : ∀ act ∈ acts, ∃ e, act = .answer i e) :
    ∃ entries : List Entry, acts = entries.map (.answer i) := by
  induction acts with
  | nil => exact ⟨[], rfl⟩
  | cons act acts ih =>
    obtain ⟨e, rfl⟩ := h act List.mem_cons_self
    obtain ⟨entries, rfl⟩ := ih fun act hact => h act (List.mem_cons_of_mem _ hact)
    exact ⟨e :: entries, rfl⟩

/-- What happened meanwhile is what the task was told meanwhile. -/
theorem solitude_past_eq (hassumes : (solitude base i).Assumes w.past) (hv : base <:+ v.past)
    (hle : v.past <:+ w.past) {entries : List Entry}
    (hown : own i w.past = entries ++ own i v.past) :
    w.past = entries.map (.answer i) ++ v.past := by
  obtain ⟨new, hnew⟩ := hle
  obtain ⟨old, hold⟩ := hv
  obtain ⟨told, rfl⟩ : ∃ told : List Entry, new = told.map (.answer i) := by
    refine exists_eq_map_answer fun act hact =>
      hassumes.own act ⟨new ++ old, ?_, List.mem_append_left old hact⟩
    rw [List.append_assoc, hold, hnew]
  rw [← hnew, own_append, own_map_answer] at hown
  rw [← hnew, List.append_cancel_right hown]

/-- Nothing happens later while the task that is alone rests. -/
theorem solitude_later_eq (hv : (solitude base i).Inv v)
    (h : (solitude base i).discipline.Later i v w) : w = v := by
  have hown : own i w.past = [] ++ own i v.past := h.own
  have hpast : w.past = v.past := solitude_past_eq h.assumes hv.own.1 (Grows.past h.le) hown
  rw [Bylaw.Inv.eq_worldOf h.inv, hv.eq_worldOf, hpast]

/-- What was not written is as it was. -/
theorem lookup_of_quiet {entries : List Entry} {past : List Act}
    (hallowed : ∀ act p, act :: p <:+ entries.map (.answer i) ++ past → (worldOf p).Allows act)
    (hquiet : ∀ e ∈ entries, ¬ (Act.answer i e).Writes) (key : String) :
    (storeOf (entries.map (.answer i) ++ past)).lookup key = (storeOf past).lookup key := by
  induction entries with
  | nil => rfl
  | cons e entries ih =>
    have hlast := lookup_next_of_not_writes (hquiet e List.mem_cons_self)
      (hallowed (.answer i e) _ (List.suffix_refl _)) key
    exact hlast.trans (ih (fun act p hp => hallowed act p (hp.trans (List.suffix_cons _ _)))
      fun e' he' => hquiet e' (List.mem_cons_of_mem e he'))

/-- No record changes while the task that is alone rests, so that what it has read is still there
when it writes. -/
theorem solitude_lookup_of_rests (hv : (solitude base i).Inv v)
    (h : (solitude base i).discipline.Rests i v w) (key : String) :
    w.store.lookup key = v.store.lookup key := by
  obtain ⟨entries, hown, hquiet⟩ := h.own
  have hpast := solitude_past_eq h.assumes hv.own.1 (Grows.past h.le) hown
  have hallowed := Bylaw.Assumes.kept h.assumes |>.allowed
  rw [hpast] at hallowed
  rw [Bylaw.Inv.replay h.inv, hv.replay, hpast]
  exact lookup_of_quiet hallowed hquiet key

/-! ### Running alone -/

/-- What is assumed of a past is assumed of the earlier ones. -/
theorem Discipline.assumes_of_suffix {D : Discipline} {past past' : List Act} (h : D.assumes past')
    (hsuffix : past <:+ past') : D.assumes past := by
  induction past' with
  | nil => exact List.suffix_nil.1 hsuffix ▸ h
  | cons act past' ih =>
    rcases List.suffix_cons_iff.1 hsuffix with rfl | hbefore
    · exact h
    · exact ih (D.assumes_tail h) hbefore

/-- What a program comes to among others, it comes to when it runs alone. -/
theorem Discipline.Holds.alone {D : Discipline} {m m' : Memory} {p : Program α}
    {entries : List Entry} {a : α} {Q : α → World → Prop} {past : List Act}
    (h : D.Holds i p Q ⟨m, past⟩) (halone : Alone m p entries m' a) (hinv : D.inv ⟨m, past⟩)
    (hassumes : D.assumes ((entries.map (.answer i)).reverse ++ past)) :
    Q a ⟨m', (entries.map (.answer i)).reverse ++ past⟩ := by
  induction halone generalizing past with
  | done m a => exact h _ (.self hassumes hinv)
  | @ask m m' c rest entries a r hr _ ih =>
    have hanswers : World.Answers ⟨m, past⟩ c r := by
      cases c <;> exact hr
    rw [List.map_cons, List.reverse_cons, List.append_assoc, List.singleton_append] at hassumes ⊢
    have hnext : D.assumes (.answer i ⟨c, r⟩ :: past) :=
      D.assumes_of_suffix hassumes (List.suffix_append _ _)
    obtain ⟨hinv', -, hrest⟩ :=
      h _ (.self (D.assumes_tail hnext) hinv) r hanswers hnext
    exact ih hrest hinv' hassumes

/-- What runs alone goes on from where its first part came to. -/
theorem Alone.exists_bind {β : Type} {m m' : Memory} {p : Program α} {f : α → Program β}
    {entries : List Entry} {b : β} (h : Alone m (p >>= f) entries m' b) :
    ∃ early m₁ a late, entries = early ++ late ∧ Alone m p early m₁ a ∧
      Alone m₁ (f a) late m' b := by
  induction p generalizing m entries with
  | done a => exact ⟨[], m, a, entries, rfl, .done m a, h⟩
  | ask c rest ih =>
    cases h with
    | @ask _ _ _ _ entries _ r hr h =>
      obtain ⟨early, m₁, a, late, rfl, hfirst, hsecond⟩ := ih r h
      exact ⟨⟨c, r⟩ :: early, m₁, a, late, rfl, .ask r hr hfirst, hsecond⟩

/-- A mapped result comes from a result. -/
theorem Alone.exists_map {β : Type} {m m' : Memory} {p : Program α} {f : α → β}
    {entries : List Entry} {b : β} (h : Alone m (f <$> p) entries m' b) :
    ∃ a, b = f a ∧ Alone m p entries m' a := by
  rw [map_eq_pure_bind] at h
  obtain ⟨early, m₁, a, late, rfl, hfirst, hsecond⟩ := h.exists_bind
  cases hsecond
  exact ⟨a, rfl, by rwa [List.append_nil]⟩

/-- A program that does not concern the store leaves it as it is. -/
theorem Alone.of_idles {m m' : Memory} {p : Program α} {P : α → Prop} {entries : List Entry} {a : α}
    (h : Alone m p entries m' a) (hp : Idles P p) :
    P a ∧ m' = m ∧ ∀ e ∈ entries, Idle e.call := by
  induction h with
  | done m a => exact ⟨hp, rfl, fun _ he => nomatch he⟩
  | @ask m m' c rest entries a r _ _ ih =>
    obtain ⟨ha, hm, hidle⟩ := ih (hp.2 r)
    refine ⟨ha, hm.trans ?_, fun e he => ?_⟩
    · have hc := hp.1
      cases c with
      | putIf key value expected => exact hc.elim
      | _ => rfl
    · rcases List.mem_cons.1 he with rfl | hlater
      · exact hp.1
      · exact hidle e hlater

/-! ### Joins that run alone -/

/-- What follows the first attempt of a join, with the calls that are left to make: nothing that
concerns the store, unless the attempt was raced. -/
inductive Follows (m : Memory) : Except ServiceError (Attempt × Option Meeting) → List Entry →
    Memory → Except ServiceError JoinReply → Prop where
  | failed (e : ServiceError) {late : List Entry} (hidle : ∀ e ∈ late, Idle e.call) :
      Follows m (.error e) late m (.error e)
  | joined (added : Bool) (held : Option Meeting) {late : List Entry} (reply : JoinReply)
      (hidle : ∀ e ∈ late, Idle e.call) :
      Follows m (.ok (.joined reply.session added, held)) late m (.ok reply)
  | raced (held : Option Meeting) (late : List Entry) (m' : Memory)
      (result : Except ServiceError JoinReply) : Follows m (.ok (.raced, held)) late m' result

/-- A join that is accepted begins with an attempt. -/
theorem Alone.exists_attempt {appId : String} {m m' : Memory} {mode : Mode} {s userId : String}
    {r : JoinRequest} {entries : List Entry} {result : Except ServiceError JoinReply}
    (hvalid : r.validate = .ok userId)
    (h : Alone m (join appId mode s r).run entries m' result) :
    ∃ early m₁ a late, entries = early ++ late ∧
      Alone m (Joiner.attempt ⟨mode, s, userId, r.iconUrl⟩ none).run early m₁ a ∧
      Follows m₁ a late m' result := by
  rw [run_join_of_ok hvalid] at h
  obtain ⟨early, m₁, a, late, rfl, hfirst, hsecond⟩ := h.exists_bind
  refine ⟨early, m₁, a, late, rfl, hfirst, ?_⟩
  -- The attempt is what the loop makes of it: an error ends the join, a session is answered with
  -- the reply that finishes it, and a lost race leads to the next attempt.
  cases a with
  | error e =>
    have hidles : Idles (fun r => r = .error e) (do
        Request.count (.join (Joiner.failure e).name)
        throw e : Request JoinReply).run := ⟨trivial, fun _ => rfl⟩
    obtain ⟨rfl, rfl, hidle⟩ := hsecond.of_idles hidles
    exact .failed e hidle
  | ok landed =>
    obtain ⟨attempt, held⟩ := landed
    cases attempt with
    | joined x added =>
      dsimp only [Joiner.proceed] at hsecond
      rw [ExceptT.run_lift] at hsecond
      obtain ⟨reply, rfl, hfinish⟩ := Alone.exists_map hsecond
      obtain ⟨rfl, rfl, hidle⟩ := hfinish.of_idles (idles_finish appId _ held x added)
      exact .joined added held reply hidle
    | raced => exact .raced held late m' result

end VoiceRoom.Concurrency
