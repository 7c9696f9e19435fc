import VoiceRoom.Proofs.Concurrency.System
import VoiceRoom.Proofs.Store

/-!
# Reasoning about one request among others

A discipline says what holds of the world at any time and how the world may change. A program
*keeps* it if each call keeps it, however others kept it in between (`Holds`); what the program
comes to is then known of every world from its end on. If every job keeps a discipline, so does a
run of any number of them, whatever their order (`Governs.run`).

The rules for calls and for sequences of calls follow the programs: each function of the workflow
gets one specification, from the specifications of what it calls.
-/

namespace VoiceRoom.Concurrency

open Simulation (Entry)

/-- Whether something changes what the store holds. -/
def Act.Writes : Act → Prop
  | .answer _ ⟨.putIf .., .ok (.written _)⟩ => True
  | _ => False

/-- Only writes change what the store holds. -/
theorem lookup_next_of_not_writes {w : World} {act : Act} (hact : ¬ act.Writes)
    (hallows : w.Allows act) (key : String) :
    (w.next act).store.lookup key = w.store.lookup key := by
  cases act with
  | start job => rfl
  | switch available => rfl
  | answer i entry =>
    obtain ⟨c, r⟩ := entry
    cases c with
    | putIf k value expected =>
      -- An answer other than `written` tells that the store is as it was.
      have hr : r = (w.store.putIf k value expected).1 := hallows
      show (w.store.putIf k value expected).2.lookup key = _
      unfold Memory.putIf at hr ⊢
      split
      · split
        · rename_i hup hversion
          rw [if_pos hup, if_pos hversion] at hr
          subst hr
          exact absurd trivial hact
        · rfl
      · rfl
    | _ => rfl

/-- The world after a task wrote a key. -/
def World.written (w : World) (i : Nat) (key value : String) (expected : Option Nat) : World where
  store := w.store.insert key ⟨value, w.store.nextVersion key⟩
  past := .answer i ⟨.putIf key value expected, .ok (.written (w.store.nextVersion key))⟩ :: w.past

/-- The world after a conditional write that was made. -/
theorem next_eq_written {w : World} {i : Nat} {key value : String} {expected : Option Nat}
    (hup : w.store.available = true)
    (hversion : (w.store.lookup key).map Versioned.version = expected) :
    w.next (.answer i ⟨.putIf key value expected, .ok (.written (w.store.nextVersion key))⟩) =
      w.written i key value expected := by
  simp [World.next, World.written, storeAfter, Memory.putIf_of_version _ hup hversion]

/-- A conditional write replaces what it was meant to replace, or changes nothing, or fails. -/
theorem putIf_cases {w : World} {key value : String} {expected : Option Nat}
    {r : Except StoreError PutOutcome} (hr : w.Answers (.putIf key value expected) r) :
    (w.store.available = true ∧ (w.store.lookup key).map Versioned.version = expected ∧
        r = .ok (.written (w.store.nextVersion key))) ∨
      (w.store.available = true ∧ (w.store.lookup key).map Versioned.version ≠ expected ∧
        r = .ok .conflict) ∨
      (w.store.available = false ∧ r = .error Memory.unavailable) := by
  obtain rfl : r = (w.store.putIf key value expected).1 := hr
  cases hup : w.store.available with
  | false =>
    -- Nobody is answered by a store that is switched off.
    right; right
    exact ⟨rfl, by simp [Memory.putIf, hup]⟩
  | true =>
    by_cases hversion : (w.store.lookup key).map Versioned.version = expected
    · left
      exact ⟨rfl, hversion, by rw [Memory.putIf_of_version _ hup hversion]⟩
    · right; left
      exact ⟨rfl, hversion, by simp [Memory.putIf, hup, hversion]⟩

/-- Whether a call concerns no record of the store. -/
def Idle : Call → Prop
  | .get _ => False
  | .putIf .. => False
  | _ => True

/-- A call that is idle writes nothing. -/
theorem Idle.not_writes {c : Call} (h : Idle c) (i : Nat) (r : c.Answer) :
    ¬ (Act.answer i ⟨c, r⟩).Writes := by
  cases c with
  | putIf key value expected => exact h.elim
  | _ => exact id

structure Discipline where
  /-- What is taken for granted about a run. -/
  assumes : List Act → Prop
  /-- What holds at any time. -/
  inv : World → Prop
  /-- How the world may change. -/
  le : World → World → Prop
  refl : ∀ w, le w w
  trans : ∀ {u v w}, le u v → le v w → le u w
  assumes_tail : ∀ {act past}, assumes (act :: past) → assumes past
  /-- Only writes can break it. -/
  quiet : ∀ {w act}, ¬ act.Writes → w.Allows act → assumes (act :: w.past) → inv w →
    inv (w.next act) ∧ le w (w.next act)

namespace Discipline

/-- A later world, as a task finds it that did nothing in the meantime. -/
structure Later (D : Discipline) (i : Nat) (w w' : World) : Prop where
  assumes : D.assumes w'.past
  inv : D.inv w'
  le : D.le w w'
  own : own i w'.past = own i w.past

/-- A later world, as a task finds it that did nothing to the records in the meantime. -/
structure Aside (D : Discipline) (i : Nat) (w w' : World) : Prop where
  assumes : D.assumes w'.past
  inv : D.inv w'
  le : D.le w w'
  own : ∃ entries, own i w'.past = entries ++ own i w.past ∧ ∀ e ∈ entries, Idle e.call

/-- A later world, as a task finds it that wrote nothing in the meantime. -/
structure Rests (D : Discipline) (i : Nat) (w w' : World) : Prop where
  assumes : D.assumes w'.past
  inv : D.inv w'
  le : D.le w w'
  own : ∃ entries, own i w'.past = entries ++ own i w.past ∧
    ∀ e ∈ entries, ¬ (Act.answer i e).Writes

/-- The world after a task was answered. -/
structure Turn (D : Discipline) (i : Nat) (e : Entry) (w w' : World) : Prop where
  eq : w' = w.next (.answer i e)
  assumes : D.assumes w'.past
  inv : D.inv w'
  le : D.le w w'

/-- A program keeps a discipline from a world on, and comes to what `Q` says. -/
def Holds (D : Discipline) (i : Nat) {α : Type} : Program α → (α → World → Prop) → World → Prop
  | .done a, Q, w => ∀ w', D.Later i w w' → Q a w'
  | .ask c rest, Q, w => ∀ w', D.Later i w w' → ∀ r, w'.Answers c r →
      D.assumes (w'.next (.answer i ⟨c, r⟩)).past →
      D.inv (w'.next (.answer i ⟨c, r⟩)) ∧ D.le w' (w'.next (.answer i ⟨c, r⟩)) ∧
      Holds D i (rest r) Q (w'.next (.answer i ⟨c, r⟩))

variable {D : Discipline} {i : Nat} {u v w : World} {α β : Type}

theorem Later.trans (h : D.Later i u v) (h' : D.Later i v w) : D.Later i u w where
  assumes := h'.assumes
  inv := h'.inv
  le := D.trans h.le h'.le
  own := h'.own.trans h.own

/-- Every world is later than itself. -/
theorem Later.self (hassumes : D.assumes w.past) (hinv : D.inv w) : D.Later i w w :=
  ⟨hassumes, hinv, D.refl w, rfl⟩

/-- While others act, nothing is done by the task itself. -/
theorem Later.aside (h : D.Later i u v) : D.Aside i u v where
  assumes := h.assumes
  inv := h.inv
  le := h.le
  own := ⟨[], h.own, fun _ he => nomatch he⟩

theorem Aside.trans (h : D.Aside i u v) (h' : D.Aside i v w) : D.Aside i u w where
  assumes := h'.assumes
  inv := h'.inv
  le := D.trans h.le h'.le
  own := by
    obtain ⟨es, hes, hidle⟩ := h.own
    obtain ⟨es', hes', hidle'⟩ := h'.own
    refine ⟨es' ++ es, by rw [hes', hes, List.append_assoc], fun e he => ?_⟩
    rcases List.mem_append.1 he with hnew | hold
    · exact hidle' e hnew
    · exact hidle e hold

/-- An idle call that is answered keeps a task aside. -/
theorem Turn.aside {c : Call} {r : c.Answer} (hc : Idle c) (h : D.Turn i ⟨c, r⟩ u v) :
    D.Aside i u v where
  assumes := h.assumes
  inv := h.inv
  le := h.le
  own := by
    refine ⟨[⟨c, r⟩], ?_, fun e he => ?_⟩
    · rw [h.eq]
      exact own_answer_self i _ u.past
    · obtain rfl := List.mem_singleton.1 he
      exact hc

theorem Aside.rests (h : D.Aside i u v) : D.Rests i u v where
  assumes := h.assumes
  inv := h.inv
  le := h.le
  own := by
    obtain ⟨entries, hown, hidle⟩ := h.own
    exact ⟨entries, hown, fun e he => (hidle e he).not_writes i e.answer⟩

theorem Later.rests (h : D.Later i u v) : D.Rests i u v :=
  h.aside.rests

theorem Turn.rests {e : Entry} (he : ¬ (Act.answer i e).Writes) (h : D.Turn i e u v) :
    D.Rests i u v where
  assumes := h.assumes
  inv := h.inv
  le := h.le
  own := by
    refine ⟨[e], ?_, fun e' he' => ?_⟩
    · rw [h.eq]
      exact own_answer_self i _ u.past
    · obtain rfl := List.mem_singleton.1 he'
      exact he

theorem Rests.trans (h : D.Rests i u v) (h' : D.Rests i v w) : D.Rests i u w where
  assumes := h'.assumes
  inv := h'.inv
  le := D.trans h.le h'.le
  own := by
    obtain ⟨es, hes, hquiet⟩ := h.own
    obtain ⟨es', hes', hquiet'⟩ := h'.own
    refine ⟨es' ++ es, by rw [hes', hes, List.append_assoc], fun e he => ?_⟩
    rcases List.mem_append.1 he with hnew | hold
    · exact hquiet' e hnew
    · exact hquiet e hold

/-! ### Structural rules -/

/-- What holds of a program now holds of it later, as others may act at any time. -/
theorem Holds.later {p : Program α} {Q : α → World → Prop} (h : D.Holds i p Q u)
    (hle : D.Later i u v) : D.Holds i p Q v := by
  cases p with
  | done a => exact fun w hw => h w (hle.trans hw)
  | ask c rest => exact fun w hw => h w (hle.trans hw)

/-- What is to be shown may be shown of later worlds, where the discipline is known to hold. -/
theorem holds_of_later {p : Program α} {Q : α → World → Prop}
    (h : ∀ v, D.Later i u v → D.Holds i p Q v) : D.Holds i p Q u := by
  cases p with
  | done a => exact fun v hv => h v hv v (.self hv.assumes hv.inv)
  | ask c rest => exact fun v hv => h v hv v (.self hv.assumes hv.inv)

/-- A program that is done needs its condition to hold at any later time. -/
theorem holds_done {a : α} {Q : α → World → Prop} (h : ∀ v, D.Later i u v → Q a v) :
    D.Holds i (.done a) Q u :=
  h

theorem Holds.mono {p : Program α} {Q R : α → World → Prop} (h : D.Holds i p Q u)
    (hQ : ∀ a v, D.assumes v.past → D.inv v → Q a v → R a v) : D.Holds i p R u := by
  -- The world moves on with every call, so the induction is for all worlds at once.
  induction p generalizing u with
  | done a => exact fun v hv => hQ a v hv.assumes hv.inv (h v hv)
  | ask c rest ih =>
    intro v hv r hr hassumes
    obtain ⟨hinv, hle, hrest⟩ := h v hv r hr hassumes
    exact ⟨hinv, hle, ih r hrest⟩

/-- What a program comes to stays true until its task goes on. -/
theorem Holds.stable {p : Program α} {Q : α → World → Prop} (h : D.Holds i p Q u) :
    D.Holds i p (fun a v => ∀ w, D.Later i v w → Q a w) u := by
  induction p generalizing u with
  | done a => exact fun v hv w hw => h w (hv.trans hw)
  | ask c rest ih =>
    intro v hv r hr hassumes
    obtain ⟨hinv, hle, hrest⟩ := h v hv r hr hassumes
    exact ⟨hinv, hle, ih r hrest⟩

/-- What a program comes to is later than where it started. -/
theorem Holds.grown {p : Program α} {Q : α → World → Prop} (h : D.Holds i p Q u) :
    D.Holds i p (fun a v => D.le u v ∧ Q a v) u := by
  induction p generalizing u with
  | done a => exact fun v hv => ⟨hv.le, h v hv⟩
  | ask c rest ih =>
    intro v hv r hr hassumes
    obtain ⟨hinv, hle, hrest⟩ := h v hv r hr hassumes
    refine ⟨hinv, hle, (ih r hrest).mono fun a w _ _ ha => ⟨?_, ha.2⟩⟩
    exact D.trans hv.le (D.trans hle ha.1)

/-- Sequencing: what is asked for in the end is the condition of the first part. -/
theorem holds_bind {p : Program α} {f : α → Program β} {Q : β → World → Prop}
    (h : D.Holds i p (fun a v => D.Holds i (f a) Q v) u) : D.Holds i (p >>= f) Q u := by
  induction p generalizing u with
  -- Others may act before `f a` begins.
  | done a => exact holds_of_later h
  | ask c rest ih =>
    intro v hv r hr hassumes
    obtain ⟨hinv, hle, hrest⟩ := h v hv r hr hassumes
    exact ⟨hinv, hle, ih r hrest⟩

/-- What becomes of a result is part of the condition. -/
theorem holds_map {p : Program α} {f : α → β} {Q : β → World → Prop}
    (h : D.Holds i p (fun a v => Q (f a) v) u) : D.Holds i (f <$> p) Q u := by
  rw [map_eq_pure_bind]
  exact holds_bind (h.stable.mono fun a v _ _ ha => ha)

/-- A call, whatever the answer. -/
theorem holds_ask {c : Call} {rest : c.Answer → Program α} {Q : α → World → Prop}
    (h : ∀ v, D.Later i u v → ∀ r, v.Answers c r → D.assumes (.answer i ⟨c, r⟩ :: v.past) →
      D.inv (v.next (.answer i ⟨c, r⟩)) ∧ D.le v (v.next (.answer i ⟨c, r⟩)) ∧
      D.Holds i (rest r) Q (v.next (.answer i ⟨c, r⟩))) :
    D.Holds i (.ask c rest) Q u :=
  h

/-- A call that writes nothing keeps every discipline. -/
theorem holds_ask_quiet {c : Call} {rest : c.Answer → Program α} {Q : α → World → Prop}
    (hc : ∀ r, ¬ (Act.answer i ⟨c, r⟩).Writes)
    (h : ∀ v, D.Later i u v → ∀ r, v.Answers c r → ∀ v', D.Turn i ⟨c, r⟩ v v' →
      D.Holds i (rest r) Q v') :
    D.Holds i (.ask c rest) Q u := by
  intro v hv r hr hassumes
  obtain ⟨hinv, hle⟩ := D.quiet (hc r) hr hassumes hv.inv
  exact ⟨hinv, hle, h v hv r hr _ ⟨rfl, hassumes, hinv, hle⟩⟩

/-- An idle call may be answered in any way. -/
theorem holds_ask_idle {c : Call} {rest : c.Answer → Program α} {Q : α → World → Prop}
    (hc : Idle c)
    (h : ∀ v, D.Aside i u v → ∀ r, D.Holds i (rest r) Q v) : D.Holds i (.ask c rest) Q u :=
  holds_ask_quiet (hc.not_writes i) fun _ hv r _ v' hturn =>
    h v' (hv.aside.trans (hturn.aside hc)) r

/-- A program makes idle calls only and comes only to such results. -/
def Idles (P : α → Prop) : Program α → Prop
  | .done a => P a
  | .ask c rest => Idle c ∧ ∀ r, Idles P (rest r)

/-- A program that does not concern the store keeps every discipline. -/
theorem holds_of_idles {p : Program α} {P : α → Prop} {Q : α → World → Prop} (hp : Idles P p)
    (h : ∀ a v, P a → D.Aside i u v → Q a v) : D.Holds i p Q u := by
  induction p generalizing u with
  | done a => exact fun v hv => h a v hp hv.aside
  | ask c rest ih =>
    exact holds_ask_idle hp.1 fun v hv r => ih r (hp.2 r) fun a w ha hw => h a w ha (hv.trans hw)

/-! ### Requests, which may fail -/

/-- What is known of a result: `Q` of a good one, `E` of an error. -/
def either (Q : α → World → Prop) (E : ServiceError → World → Prop) :
    Except ServiceError α → World → Prop
  | .ok a, w => Q a w
  | .error e, w => E e w

/-- A request keeps a discipline and comes to what `Q` says, or ends in an error of which `E`
holds. -/
def Ensures (D : Discipline) (i : Nat) (x : Request α) (Q : α → World → Prop)
    (E : ServiceError → World → Prop) (w : World) : Prop :=
  D.Holds i x.run (either Q E) w

variable {Q : α → World → Prop} {R : β → World → Prop} {E : ServiceError → World → Prop}

/-- What is ensured now is ensured later. -/
theorem Ensures.later {x : Request α} (h : D.Ensures i x Q E u) (hle : D.Later i u v) :
    D.Ensures i x Q E v :=
  Holds.later h hle

theorem Ensures.mono {x : Request α} {Q' : α → World → Prop} {E' : ServiceError → World → Prop}
    (h : D.Ensures i x Q E u)
    (hQ : ∀ a v, D.assumes v.past → D.inv v → Q a v → Q' a v)
    (hE : ∀ e v, D.assumes v.past → D.inv v → E e v → E' e v) : D.Ensures i x Q' E' u := by
  refine Holds.mono h fun r v hassumes hinv hr => ?_
  cases r with
  | ok a => exact hQ a v hassumes hinv hr
  | error e => exact hE e v hassumes hinv hr

/-- Whatever is ensured is ensured of a world that came after the one at the start. -/
theorem Ensures.grown {x : Request α} (h : D.Ensures i x Q E u) :
    D.Ensures i x (fun a v => D.le u v ∧ Q a v) (fun e v => D.le u v ∧ E e v) u := by
  refine Holds.mono (Holds.grown h) fun r v _ _ hr => ?_
  cases r with
  | ok a => exact hr
  | error e => exact hr

/-- A request that is done needs the condition of its result. -/
theorem ensures_pure {a : α} (h : ∀ v, D.Later i u v → Q a v) :
    D.Ensures i (pure a : Request α) Q E u :=
  h

/-- A request that fails needs the condition of its error. -/
theorem ensures_throw {e : ServiceError} (h : ∀ v, D.Later i u v → E e v) :
    D.Ensures i (throw e : Request α) Q E u :=
  h

/-- What a request comes to is known of every later world until its task goes on. -/
theorem Ensures.bind {x : Request α} {f : α → Request β} (h : D.Ensures i x Q E u)
    (hf : ∀ a v, D.Later i v v → (∀ w, D.Later i v w → Q a w) → D.Ensures i (f a) R E v) :
    D.Ensures i (x >>= f) R E u := by
  refine holds_bind (Holds.mono (Holds.stable h) fun r v hassumes hinv hr => ?_)
  cases r with
  | ok a => exact hf a v (.self hassumes hinv) hr
  | error e => exact fun w hw => hr w hw

/-- Sequencing: errors of the first part are errors of the whole. -/
theorem ensures_bind {x : Request α} {f : α → Request β}
    (h : D.Ensures i x (fun a v => D.Ensures i (f a) R E v) E u) :
    D.Ensures i (x >>= f) R E u :=
  h.bind fun _ v hv ha => ha v hv

/-! ### Calls of a request -/

/-- A program that cannot fail may be the first part of a request. -/
theorem ensures_lift {p : Program α} {f : α → Request β}
    (h : D.Holds i p (fun a v => D.Ensures i (f a) R E v) u) :
    D.Ensures i (ExceptT.lift p >>= f) R E u := by
  refine ensures_bind (holds_bind (Holds.mono h fun a v _ _ ha => ?_))
  exact fun w hw => Ensures.later ha hw

/-- What holds of such a program can be used by the rest at any later time. -/
theorem Holds.lift {p : Program α} {f : α → Request β} (h : D.Holds i p Q u)
    (hf : ∀ a v, D.Later i v v → (∀ w, D.Later i v w → Q a w) → D.Ensures i (f a) R E v) :
    D.Ensures i (ExceptT.lift p >>= f) R E u :=
  ensures_lift (h.stable.mono fun a v hassumes hinv ha => hf a v (.self hassumes hinv) ha)

/-- What the store refuses becomes an error of the request. -/
theorem ensures_ofStore {p : Program (Except StoreError α)} {f : α → Request β}
    (h : D.Holds i p (fun r v => match r with
      | .ok a => D.Ensures i (f a) R E v
      | .error e => ∀ w, D.Later i v w → E (.ofStore e) w) u) :
    D.Ensures i (Request.ofStore p >>= f) R E u := by
  refine ensures_bind (holds_bind (Holds.mono h fun r v _ _ hr => ?_))
  cases r with
  | ok a => exact fun w hw => Ensures.later hr hw
  | error e => exact fun w hw => hr w hw

/-- A note is an idle call. -/
theorem ensures_note {e : Event} {f : Unit → Request β}
    (h : ∀ v, D.Aside i u v → D.Ensures i (f ()) R E v) :
    D.Ensures i (Request.note e >>= f) R E u :=
  ensures_lift (holds_ask_idle trivial fun v hv _ _ hw => (h v hv).later hw)

/-- So is a measurement. -/
theorem ensures_count {m : Measurement} {f : Unit → Request β}
    (h : ∀ v, D.Aside i u v → D.Ensures i (f ()) R E v) :
    D.Ensures i (Request.count m >>= f) R E u :=
  ensures_lift (holds_ask_idle trivial fun v hv _ _ hw => (h v hv).later hw)

/-- The clock shows a word. -/
theorem ensures_now {f : Int → Request β}
    (h : ∀ v t, D.Aside i u v → fitsInt64 t → D.Ensures i (f t) R E v) :
    D.Ensures i (Request.now >>= f) R E u :=
  ensures_lift (holds_ask_quiet (fun _ => id) fun _ hv t ht v' hturn _ hw =>
    (h v' t (hv.aside.trans (hturn.aside (c := .now) trivial)) ht).later hw)

/-- A read gives what the store holds, or fails if the store does not answer. -/
theorem ensures_get {key : String} {f : Option Versioned → Request β}
    (hread : ∀ v v', D.Later i u v → D.Turn i ⟨.get key, .ok (v.store.lookup key)⟩ v v' →
      D.Ensures i (f (v.store.lookup key)) R E v')
    (hfail : ∀ v w, D.Later i u v → v.store.available = false → D.Rests i v w →
      E (.ofStore Memory.unavailable) w) :
    D.Ensures i (Request.get key >>= f) R E u := by
  refine ensures_ofStore (holds_ask_quiet (fun _ => id) fun v hv r hr v' hturn => ?_)
  obtain rfl : r = v.store.get key := hr
  unfold Memory.get at hturn ⊢
  cases hup : v.store.available with
  | true =>
    rw [hup] at hturn
    exact fun w hw => (hread v v' hv hturn).later hw
  -- The error is told later on, when the discipline holds still.
  | false =>
    intro w hw w' hw'
    exact hfail v w' hv hup ((hturn.rests id).trans (hw.trans hw').rests)

/-- A conditional write either replaces what it was meant to replace, or changes nothing, or fails
if the store does not answer. -/
theorem ensures_putIf {key value : String} {expected : Option Nat} {f : PutOutcome → Request β}
    (hwritten : ∀ v, D.Later i u v → (v.store.lookup key).map Versioned.version = expected →
      D.assumes (v.written i key value expected).past →
      D.inv (v.written i key value expected) ∧ D.le v (v.written i key value expected) ∧
      D.Ensures i (f (.written (v.store.nextVersion key))) R E (v.written i key value expected))
    (hconflict : ∀ v v', D.Later i u v → (v.store.lookup key).map Versioned.version ≠ expected →
      D.Turn i ⟨.putIf key value expected, .ok .conflict⟩ v v' →
      D.Ensures i (f .conflict) R E v')
    (hfail : ∀ v w, D.Later i u v → v.store.available = false → D.Rests i v w →
      E (.ofStore Memory.unavailable) w) :
    D.Ensures i (Request.putIf key value expected >>= f) R E u := by
  refine ensures_ofStore (holds_ask fun v hv r hr hassumes => ?_)
  -- The world is as it is when the call is answered. The write is made, or lost, or refused.
  rcases putIf_cases hr with ⟨hup, hversion, rfl⟩ | ⟨-, hversion, rfl⟩ | ⟨hup, rfl⟩
  · rw [next_eq_written hup hversion]
    obtain ⟨hinv, hle, hf⟩ := hwritten v hv hversion hassumes
    exact ⟨hinv, hle, fun w hw => hf.later hw⟩
  · have hquiet : ¬ (Act.answer i ⟨.putIf key value expected, .ok .conflict⟩).Writes := id
    obtain ⟨hinv, hle⟩ := D.quiet hquiet hr hassumes hv.inv
    refine ⟨hinv, hle, fun w hw => ?_⟩
    exact (hconflict v _ hv hversion ⟨rfl, hassumes, hinv, hle⟩).later hw
  · have hquiet : ¬ (Act.answer i
      ⟨.putIf key value expected, .error Memory.unavailable⟩).Writes := id
    obtain ⟨hinv, hle⟩ := D.quiet hquiet hr hassumes hv.inv
    refine ⟨hinv, hle, fun w hw w' hw' => ?_⟩
    -- An error ends the request, and what is left of it is idle.
    have hturn : D.Turn i ⟨.putIf key value expected, .error Memory.unavailable⟩ v _ :=
      ⟨rfl, hassumes, hinv, hle⟩
    exact hfail v w' hv hup ((hturn.rests hquiet).trans (hw.trans hw').rests)

/-! ### Runs -/

/-- Every task of a system keeps a discipline and comes to what `post` says. -/
structure Governs (D : Discipline) (post : Nat → Job → Outcome → World → Prop) (σ : System) :
    Prop where
  inv : D.inv σ.world
  task : ∀ i t, σ.tasks[i]? = some t → D.Holds i t.rest (post i t.job) σ.world
  new : ∀ i, σ.tasks.length ≤ i → own i σ.past = []

variable {post : Nat → Job → Outcome → World → Prop} {appId : String} {σ₀ σ τ : System}

/-- What others do is no more to a task than time that passes. -/
theorem Later.next {act : Act} (hother : ∀ j entry, act = .answer j entry → j ≠ i)
    (hassumes : D.assumes (act :: w.past)) (hinv : D.inv (w.next act))
    (hle : D.le w (w.next act)) : D.Later i w (w.next act) where
  assumes := hassumes
  inv := hinv
  le := hle
  own := by
    cases act with
    | answer j entry => exact own_answer_of_ne (hother j entry rfl) entry w.past
    | _ => rfl

/-- A task goes on as before while others act. -/
theorem Governs.others (h : D.Governs post σ) {act : Act} {i : Nat} {t : Task}
    (ht : σ.tasks[i]? = some t) (hother : ∀ j entry, act = .answer j entry → j ≠ i)
    (hassumes : D.assumes (act :: σ.past)) (hinv : D.inv (σ.world.next act))
    (hle : D.le σ.world (σ.world.next act)) :
    D.Holds i t.rest (post i t.job) (σ.world.next act) :=
  (h.task i t ht).later (.next hother hassumes hinv hle)

theorem Governs.start (h : D.Governs post σ) {job : Job}
    (hassumes : D.assumes (.start job :: σ.past))
    (hjob : D.inv (σ.world.next (.start job)) → D.le σ.world (σ.world.next (.start job)) →
      D.Holds σ.tasks.length (job.program appId) (post σ.tasks.length job)
        (σ.world.next (.start job))) :
    D.le σ.world (σ.world.next (.start job)) ∧
      D.Governs post ⟨σ.world.next (.start job), σ.tasks ++ [⟨job, job.program appId⟩]⟩ := by
  have hquiet : ¬ (Act.start job).Writes := id
  obtain ⟨hinv, hle⟩ := D.quiet hquiet trivial hassumes h.inv
  refine ⟨hle, hinv, fun i t ht => ?_, fun i hi => ?_⟩
  -- A task was there before, or is the one that starts.
  · rcases Nat.lt_or_ge i σ.tasks.length with hi | hi
    · rw [List.getElem?_append_left hi] at ht
      exact h.others ht (by simp) hassumes hinv hle
    · rw [List.getElem?_append_right hi, List.getElem?_singleton] at ht
      split at ht
      · obtain rfl : i = σ.tasks.length := by omega
        obtain rfl := Option.some.inj ht
        exact hjob hinv hle
      · exact nomatch ht
  · rw [List.length_append] at hi
    exact h.new i (by omega)

/-- A task that is answered goes on with what its program ensures from there. -/
theorem Governs.answer (h : D.Governs post σ) {k : Nat} {job : Job} {c : Call}
    {rest : c.Answer → Program Outcome} {r : c.Answer}
    (htask : σ.tasks[k]? = some ⟨job, .ask c rest⟩) (hr : σ.world.Answers c r)
    (hassumes : D.assumes (.answer k ⟨c, r⟩ :: σ.past)) :
    D.le σ.world (σ.world.next (.answer k ⟨c, r⟩)) ∧
      D.Governs post ⟨σ.world.next (.answer k ⟨c, r⟩), σ.tasks.set k ⟨job, rest r⟩⟩ := by
  have hk : k < σ.tasks.length := (List.getElem?_eq_some_iff.1 htask).1
  obtain ⟨hinv, hle, hrest⟩ :=
    h.task k _ htask σ.world (.self (D.assumes_tail hassumes) h.inv) r hr hassumes
  refine ⟨hle, hinv, fun i t ht => ?_, fun i hi => ?_⟩
  -- A task is the one that was answered, or another one.
  · by_cases hik : k = i
    · subst hik
      rw [List.getElem?_set_self hk] at ht
      obtain rfl := Option.some.inj ht
      exact hrest
    · rw [List.getElem?_set_ne hik] at ht
      exact h.others ht (fun j e he => by cases he; exact hik) hassumes hinv hle
  · rw [List.length_set] at hi
    exact (own_answer_of_ne (by omega) _ _).trans (h.new i hi)

/-- No step breaks a discipline, if the job that it starts, if it starts one, keeps it. -/
theorem Governs.step (h : D.Governs post σ) (hstep : Step appId σ τ) (hassumes : D.assumes τ.past)
    (hjob : ∀ job, D.assumes (σ.world.next (.start job)).past →
      D.inv (σ.world.next (.start job)) → D.le σ.world (σ.world.next (.start job)) →
      D.Holds σ.tasks.length (job.program appId) (post σ.tasks.length job)
        (σ.world.next (.start job))) :
    D.le σ.world τ.world ∧ D.Governs post τ := by
  cases hstep with
  | start job => exact h.start hassumes (hjob job hassumes)
  | answer r htask hr => exact h.answer htask hr hassumes
  | switch available =>
    have hquiet : ¬ (Act.switch available).Writes := id
    obtain ⟨hinv, hle⟩ := D.quiet hquiet trivial hassumes h.inv
    exact ⟨hle, hinv, fun i t ht => h.others ht (by simp) hassumes hinv hle, h.new⟩

/-- Tasks are never forgotten. -/
theorem length_tasks_of_run (hrun : Run appId σ₀ σ) : σ₀.tasks.length ≤ σ.tasks.length := by
  induction hrun with
  | refl => exact Nat.le_refl _
  | tail _ hstep ih =>
    refine Nat.le_trans ih ?_
    cases hstep <;> simp

/-- If every job keeps a discipline from where it starts, so does every run, in whatever order the
jobs go on. -/
theorem Governs.run_of_start (h : D.Governs post σ₀) (hrun : Run appId σ₀ σ)
    (hassumes : D.assumes σ.past)
    (hjob : ∀ τ job, Run appId σ₀ τ → D.assumes (τ.world.next (.start job)).past →
      D.inv (τ.world.next (.start job)) → D.le σ₀.world (τ.world.next (.start job)) →
      own τ.tasks.length τ.past = [] →
      D.Holds τ.tasks.length (job.program appId) (post τ.tasks.length job)
        (τ.world.next (.start job))) :
    D.le σ₀.world σ.world ∧ D.Governs post σ := by
  induction hrun with
  | refl => exact ⟨D.refl _, h⟩
  | @tail σ τ hrun hstep ih =>
    have hbefore : D.assumes σ.past := by
      cases hstep <;> exact D.assumes_tail hassumes
    -- The step comes after a run that was governed itself.
    obtain ⟨hle, hgov⟩ := ih hbefore
    obtain ⟨hle', hgov'⟩ := hgov.step hstep hassumes fun job hstart hinv hlater =>
      hjob σ job hrun hstart hinv (D.trans hle hlater) (hgov.new _ (Nat.le_refl _))
    exact ⟨D.trans hle hle', hgov'⟩

/-- If every job keeps a discipline, so does every run. -/
theorem Governs.run (h : D.Governs post σ₀) (hrun : Run appId σ₀ σ) (hassumes : D.assumes σ.past)
    (hjob : ∀ i job (w : World), σ₀.tasks.length ≤ i → D.assumes (w.next (.start job)).past →
      D.inv (w.next (.start job)) → D.le σ₀.world (w.next (.start job)) → own i w.past = [] →
      D.Holds i (job.program appId) (post i job) (w.next (.start job))) :
    D.le σ₀.world σ.world ∧ D.Governs post σ :=
  h.run_of_start hrun hassumes fun τ job hτ =>
    hjob τ.tasks.length job τ.world (length_tasks_of_run hτ)

/-- A task that is done meets its condition. -/
theorem Governs.finished (h : D.Governs post σ) (hassumes : D.assumes σ.past) {i : Nat} {job : Job}
    {outcome : Outcome} (hi : σ.Finished i job outcome) : post i job outcome σ.world :=
  h.task i _ hi σ.world (.self hassumes h.inv)

end Discipline

end VoiceRoom.Concurrency
