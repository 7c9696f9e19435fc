import VoiceRoom.Error
import VoiceRoom.Program
import VoiceRoom.Number.Word
import VoiceRoom.Simulation.Run

/-!
# What a request does, whoever answers

What a request may do next depends on what it was told so far. A code says which calls are permitted
after which answers (`Code`), and a program *abides* by it if each of its calls is permitted when it
is made, however all of them are answered (`Code.Abides`). Nothing is said of the world that answers:
the store may hold anything and others may write it between any two calls.

What was answered and what is left of a program after that is its progress (`Came`). A program that
abides by a code made permitted calls only, and what is left abides by it too (`Abides.came`).
-/

namespace VoiceRoom

open Simulation (Entry)

/-- Whether a call may be answered so: a clock shows a word, and any other answer will do. -/
def Call.Fits : (c : Call) → c.Answer → Prop
  | .now, t => fitsInt64 t
  | _, _ => True

/-- Whether a call changes nothing, neither in the store nor at the provider, and uses up no id. -/
def Call.Harmless : Call → Prop
  | .putIf .. => False
  | .createMeeting _ => False
  | .createParticipant .. => False
  | .freshId => False
  | _ => True

/-- Whether a call concerns no record and is no question to the provider. -/
def Call.Quiet : Call → Prop
  | .now => True
  | .note _ => True
  | .count _ => True
  | _ => False

namespace Conduct

/-- What was told later begins with what was told before and goes on with quiet calls only. -/
def Hushed (told told' : List Entry) : Prop :=
  ∃ new, told' = new ++ told ∧ ∀ e ∈ new, e.call.Quiet

namespace Hushed

variable {told told' told'' : List Entry}

theorem refl (told : List Entry) : Hushed told told :=
  ⟨[], rfl, fun _ h => nomatch h⟩

theorem trans (h : Hushed told told') (h' : Hushed told' told'') : Hushed told told'' := by
  obtain ⟨new, rfl, hnew⟩ := h
  obtain ⟨newer, rfl, hnewer⟩ := h'
  refine ⟨newer ++ new, (List.append_assoc ..).symm, fun e he => ?_⟩
  rcases List.mem_append.1 he with hlate | hearly
  · exact hnewer e hlate
  · exact hnew e hearly

theorem cons {c : Call} (hc : c.Quiet) (r : c.Answer) : Hushed told (⟨c, r⟩ :: told) := by
  refine ⟨[⟨c, r⟩], rfl, fun e he => ?_⟩
  obtain rfl := List.mem_singleton.1 he
  exact hc

theorem suffix (h : Hushed told told') : told <:+ told' := by
  obtain ⟨new, rfl, -⟩ := h
  exact List.suffix_append new told

end Hushed

/-- Which calls are permitted after what was told, latest first. -/
structure Code where
  permits : List Entry → Call → Prop
  harmless : ∀ {told c}, c.Harmless → permits told c

namespace Code

/-- After what was told, a program makes permitted calls only, and comes to what `Q` says. -/
def Abides (K : Code) {α : Type} : Program α → (α → List Entry → Prop) → List Entry → Prop
  | .done a, Q, told => Q a told
  | .ask c rest, Q, told =>
    K.permits told c ∧ ∀ r, c.Fits r → Abides K (rest r) Q (⟨c, r⟩ :: told)

variable {K : Code} {α β : Type} {told : List Entry}

/-! ### Structural rules -/

theorem Abides.mono {p : Program α} {Q R : α → List Entry → Prop} (h : K.Abides p Q told)
    (hQ : ∀ a told', told <:+ told' → Q a told' → R a told') : K.Abides p R told := by
  induction p generalizing told with
  | done a => exact hQ a told (List.suffix_refl told) h
  | ask c rest ih =>
    refine ⟨h.1, fun r hr => ih r (h.2 r hr) fun a told' hsuffix => hQ a told' ?_⟩
    exact (List.suffix_cons _ told).trans hsuffix

theorem Abides.bind {p : Program α} {f : α → Program β} {R : β → List Entry → Prop}
    (h : K.Abides p (fun a => K.Abides (f a) R) told) : K.Abides (p >>= f) R told := by
  induction p generalizing told with
  | done a => exact h
  | ask c rest ih => exact ⟨h.1, fun r hr => ih r (h.2 r hr)⟩

theorem Abides.map {p : Program α} {f : α → β} {R : β → List Entry → Prop}
    (h : K.Abides p (fun a => R (f a)) told) : K.Abides (f <$> p) R told := by
  rw [map_eq_pure_bind]
  exact h.bind

/-- Every code permits quiet calls. -/
theorem abides_ask_quiet {c : Call} {rest : c.Answer → Program α} {Q : α → List Entry → Prop}
    (hc : c.Quiet)
    (h : ∀ r, c.Fits r → ∀ told', Hushed told told' → K.Abides (rest r) Q told') :
    K.Abides (.ask c rest) Q told := by
  refine ⟨K.harmless ?_, fun r hr => h r hr _ (.cons hc r)⟩
  cases c with
  | now => trivial
  | note e => trivial
  | count m => trivial
  | _ => exact hc.elim

/-! ### Requests, whatever error they end in -/

/-- What is known of a result: `Q` of a good one, and `E` of an error. -/
def verdict (Q : α → List Entry → Prop) (E : ServiceError → List Entry → Prop) :
    Except ServiceError α → List Entry → Prop
  | .ok a, told => Q a told
  | .error e, told => E e told

/-- A request makes permitted calls only and comes to what `Q` says, or to an error of which `E`
tells. -/
def Comes (K : Code) (x : Request α) (Q : α → List Entry → Prop)
    (E : ServiceError → List Entry → Prop) (told : List Entry) : Prop :=
  K.Abides x.run (verdict Q E) told

section Comes

variable {Q : α → List Entry → Prop} {R : β → List Entry → Prop}
  {E : ServiceError → List Entry → Prop}

theorem comes_pure {a : α} (h : Q a told) : K.Comes (pure a : Request α) Q E told :=
  h

theorem comes_throw {e : ServiceError} (h : E e told) : K.Comes (throw e : Request α) Q E told :=
  h

theorem Comes.mono {x : Request α} {Q' : α → List Entry → Prop} (h : K.Comes x Q E told)
    (hQ : ∀ a told', told <:+ told' → Q a told' → Q' a told') : K.Comes x Q' E told := by
  refine Abides.mono h fun r told' hsuffix hr => ?_
  cases r with
  | ok a => exact hQ a told' hsuffix hr
  | error e => exact hr

theorem Comes.ite {c : Prop} [Decidable c] {x y : Request α} (hx : K.Comes x Q E told)
    (hy : K.Comes y Q E told) : K.Comes (if c then x else y) Q E told := by
  split
  · exact hx
  · exact hy

theorem Comes.bind {x : Request α} {f : α → Request β}
    (h : K.Comes x (fun a => K.Comes (f a) R E) E told) : K.Comes (x >>= f) R E told := by
  refine Abides.bind (Abides.mono h fun r told' _ hr => ?_)
  cases r with
  | ok a => exact hr
  | error e => exact hr

/-- A program without errors may come first. -/
theorem comes_lift {p : Program α} {f : α → Request β}
    (h : K.Abides p (fun a => K.Comes (f a) R E) told) :
    K.Comes (ExceptT.lift p >>= f) R E told :=
  Comes.bind (Abides.bind h)

/-- A program that asks the store may come first, and its error is the request's. -/
theorem comes_ofStore {p : Program (Except StoreError α)} {f : α → Request β}
    (h : K.Abides p
      (verdict (fun a => K.Comes (f a) R E) E ∘ Except.mapError ServiceError.ofStore) told) :
    K.Comes (Request.ofStore p >>= f) R E told :=
  Comes.bind (Abides.bind h)

theorem comes_note {e : Event} {f : Unit → Request β}
    (h : K.Comes (f ()) R E (⟨.note e, ()⟩ :: told)) : K.Comes (Request.note e >>= f) R E told :=
  comes_lift ⟨K.harmless trivial, fun _ _ => h⟩

theorem comes_count {m : Measurement} {f : Unit → Request β}
    (h : K.Comes (f ()) R E (⟨.count m, ()⟩ :: told)) : K.Comes (Request.count m >>= f) R E told :=
  comes_lift ⟨K.harmless trivial, fun _ _ => h⟩

theorem comes_now {f : Int → Request β}
    (h : ∀ t, fitsInt64 t → K.Comes (f t) R E (⟨.now, t⟩ :: told)) :
    K.Comes (Request.now >>= f) R E told :=
  comes_lift ⟨K.harmless trivial, h⟩

theorem comes_get {key : String} {f : Option Versioned → Request β}
    (h : ∀ stored, K.Comes (f stored) R E (⟨.get key, .ok stored⟩ :: told))
    (herror : ∀ e, E (.ofStore e) (⟨.get key, .error e⟩ :: told)) :
    K.Comes (Request.get key >>= f) R E told := by
  refine comes_ofStore ⟨K.harmless trivial, fun r _ => ?_⟩
  cases r with
  | ok stored => exact h stored
  | error e => exact herror e

theorem comes_putIf {key value : String} {expected : Option Nat} {f : PutOutcome → Request β}
    (hpermits : K.permits told (.putIf key value expected))
    (h : ∀ outcome, K.Comes (f outcome) R E
      (⟨.putIf key value expected, .ok outcome⟩ :: told))
    (herror : ∀ e, E (.ofStore e) (⟨.putIf key value expected, .error e⟩ :: told)) :
    K.Comes (Request.putIf key value expected >>= f) R E told := by
  refine comes_ofStore ⟨hpermits, fun r _ => ?_⟩
  cases r with
  | ok outcome => exact h outcome
  | error e => exact herror e

end Comes

/-! ### Requests that may be overtaken -/

/-- What is known of a result: `Q` of a good one, and `C` of the answer that another request was
faster. -/
def settled (Q : α → List Entry → Prop) (C : List Entry → Prop) :
    Except ServiceError α → List Entry → Prop
  | .ok a, told => Q a told
  | .error (.conflict _), told => C told
  | .error _, _ => True

/-- A request makes permitted calls only and comes to what `Q` says, unless it ends in an error. If
the error is that another request was faster, `C` is known. -/
def Complies (K : Code) (x : Request α) (Q : α → List Entry → Prop) (C : List Entry → Prop)
    (told : List Entry) : Prop :=
  K.Abides x.run (settled Q C) told

variable {Q : α → List Entry → Prop} {R : β → List Entry → Prop} {C : List Entry → Prop}

theorem Complies.imp {x : Request α} {Q' : α → List Entry → Prop} {C' : List Entry → Prop}
    (h : K.Complies x Q C told) (hQ : ∀ a told', told <:+ told' → Q a told' → Q' a told')
    (hC : ∀ told', told <:+ told' → C told' → C' told') : K.Complies x Q' C' told := by
  refine Abides.mono h fun r told' hsuffix hr => ?_
  cases r with
  | ok a => exact hQ a told' hsuffix hr
  | error e =>
    cases e with
    | conflict reason => exact hC told' hsuffix hr
    | _ => trivial

theorem Complies.mono {x : Request α} {Q' : α → List Entry → Prop} (h : K.Complies x Q C told)
    (hQ : ∀ a told', told <:+ told' → Q a told' → Q' a told') : K.Complies x Q' C told :=
  h.imp hQ fun _ _ => id

theorem complies_pure {a : α} (h : Q a told) : K.Complies (pure a : Request α) Q C told :=
  h

theorem complies_throw {e : ServiceError} (h : ∀ reason, e = .conflict reason → C told) :
    K.Complies (throw e : Request α) Q C told := by
  show settled Q C (.error e) told
  cases e with
  | conflict reason => exact h reason rfl
  | _ => trivial

theorem Complies.bind {x : Request α} {f : α → Request β}
    (h : K.Complies x (fun a => K.Complies (f a) R C) C told) : K.Complies (x >>= f) R C told := by
  refine Abides.bind (Abides.mono h fun r told' _ hr => ?_)
  cases r with
  | ok a => exact hr
  | error e => cases e <;> exact hr

theorem complies_lift {p : Program α} {f : α → Request β}
    (h : K.Abides p (fun a => K.Complies (f a) R C) told) :
    K.Complies (ExceptT.lift p >>= f) R C told :=
  Complies.bind (Abides.bind h)

/-- An error of the store does not tell that another request was faster. -/
theorem complies_ofStore {p : Program (Except StoreError α)} {f : α → Request β}
    (h : K.Abides p (fun r told' => ∀ a, r = .ok a → K.Complies (f a) R C told') told) :
    K.Complies (Request.ofStore p >>= f) R C told := by
  refine Complies.bind (Abides.bind (Abides.mono h fun r told' _ hr => ?_))
  cases r with
  | ok a => exact hr a rfl
  | error e => trivial

theorem complies_note {e : Event} {f : Unit → Request β}
    (h : ∀ told', Hushed told told' → K.Complies (f ()) R C told') :
    K.Complies (Request.note e >>= f) R C told :=
  complies_lift (abides_ask_quiet trivial fun _ _ => h)

theorem complies_count {m : Measurement} {f : Unit → Request β}
    (h : ∀ told', Hushed told told' → K.Complies (f ()) R C told') :
    K.Complies (Request.count m >>= f) R C told :=
  complies_lift (abides_ask_quiet trivial fun _ _ => h)

theorem complies_now {f : Int → Request β}
    (h : ∀ t, fitsInt64 t → K.Complies (f t) R C (⟨.now, t⟩ :: told)) :
    K.Complies (Request.now >>= f) R C told :=
  complies_lift ⟨K.harmless trivial, h⟩

theorem complies_get {key : String} {f : Option Versioned → Request β}
    (h : ∀ stored, K.Complies (f stored) R C (⟨.get key, .ok stored⟩ :: told)) :
    K.Complies (Request.get key >>= f) R C told := by
  refine complies_ofStore ⟨K.harmless trivial, fun r _ => ?_⟩
  rintro stored rfl
  exact h stored

theorem complies_putIf {key value : String} {expected : Option Nat} {f : PutOutcome → Request β}
    (hpermits : K.permits told (.putIf key value expected))
    (h : ∀ outcome, K.Complies (f outcome) R C
      (⟨.putIf key value expected, .ok outcome⟩ :: told)) :
    K.Complies (Request.putIf key value expected >>= f) R C told := by
  refine complies_ofStore ⟨hpermits, fun r _ => ?_⟩
  rintro outcome rfl
  exact h outcome

end Code

/-! ### Progress -/

/-- A program was answered calls, latest first, and this is left of it. -/
inductive Came {α : Type} (p : Program α) : List Entry → Program α → Prop where
  | start : Came p [] p
  | answer {told : List Entry} {c : Call} {rest : c.Answer → Program α}
      (h : Came p told (.ask c rest)) (r : c.Answer) (hr : c.Fits r) :
      Came p (⟨c, r⟩ :: told) (rest r)

/-- Each of the calls was permitted when it was made. -/
def Code.Obeyed (K : Code) (told : List Entry) : Prop :=
  ∀ e before, e :: before <:+ told → K.permits before e.call

/-- Who did nothing obeyed every code. -/
theorem Code.obeyed_nil (K : Code) : K.Obeyed [] :=
  fun _ _ h => nomatch List.suffix_nil.1 h

theorem Code.Obeyed.cons {K : Code} {told : List Entry} {e : Entry} (h : K.Obeyed told)
    (he : K.permits told e.call) : K.Obeyed (e :: told) := by
  intro e' before hsuffix
  rcases List.suffix_cons_iff.1 hsuffix with hlast | hbefore
  · obtain ⟨rfl, rfl⟩ := List.cons.inj hlast
    exact he
  · exact h e' before hbefore

/-- However far a program came that abides by a code, it obeyed the code and abides by it. -/
theorem Code.Abides.came {K : Code} {α : Type} {p q : Program α} {Q : α → List Entry → Prop}
    {told : List Entry} (h : K.Abides p Q []) (hcame : Came p told q) :
    K.Obeyed told ∧ K.Abides q Q told := by
  induction hcame with
  | start => exact ⟨K.obeyed_nil, h⟩
  | answer _ r hr ih => exact ⟨ih.1.cons ih.2.1, ih.2.2 r hr⟩

end Conduct

end VoiceRoom
