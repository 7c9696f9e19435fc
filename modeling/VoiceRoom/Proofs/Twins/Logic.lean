import VoiceRoom.Mapping
import VoiceRoom.Program
import VoiceRoom.Session.Record

/-!
# Programs that are answered alike

Two programs are run side by side, and what one is answered is like what the other is answered. A
likeness says how far answers may differ: in how a record is written, as long as it reads the same,
and in why a call failed. Two programs are alike if then they make the same calls, in one order, and
come to results that are alike (`Likeness.Alike`). What they note in the log may differ where it
tells why a call failed.

The rules follow the programs. They are for two programs and not for one, since the two are told
different things when they read a record.
-/

namespace VoiceRoom.Twins

/-- Both results are good, or both are errors. -/
inductive Both {ε α β : Type} (R : ε → ε → Prop) (S : α → β → Prop) :
    Except ε α → Except ε β → Prop where
  | ok {a : α} {b : β} (h : S a b) : Both R S (.ok a) (.ok b)
  | error {e e' : ε} (h : R e e') : Both R S (.error e) (.error e')

theorem Both.refl {ε α : Type} {R : ε → ε → Prop} {S : α → α → Prop} (hR : ∀ e, R e e)
    (hS : ∀ a, S a a) (r : Except ε α) : Both R S r r := by
  cases r with
  | ok a => exact .ok (hS a)
  | error e => exact .error (hR e)

/-- How far answers may differ. -/
structure Likeness where
  /-- How a value at a key may differ. -/
  value : String → String → String → Prop
  storeError : StoreError → StoreError → Prop
  providerError : ProviderError → ProviderError → Prop
  mapping : ∀ {s v v'}, value (mappingKey s) v v' → Mapping.decode v = Mapping.decode v'
  session : ∀ {k v v'}, value (sessionKey k) v v' → Session.decode v = Session.decode v'

namespace Likeness

variable {L : Likeness} {α β γ δ : Type}

/-- Values of one version that are alike. -/
structure Versions (L : Likeness) (key : String) (v v' : Versioned) : Prop where
  version : v.version = v'.version
  value : L.value key v.value v'.value

/-- Answers to one call that are alike. -/
def Answers (L : Likeness) : (c : Call) → c.Answer → c.Answer → Prop
  | .get key, r, r' => Both L.storeError (Option.Rel (L.Versions key)) r r'
  | .putIf .., r, r' => Both L.storeError Eq r r'
  | .ping, r, r' => Both L.storeError Eq r r'
  | .createMeeting _, r, r' => Both L.providerError Eq r r'
  | .createParticipant .., r, r' => Both L.providerError Eq r r'
  | .now, t, t' => t = t'
  | .freshId, s, s' => s = s'
  | .mode, m, m' => m = m'
  -- The lines of a scrape count failures by their kind.
  | .scrape, _, _ => True
  | .note _, _, _ => True
  | .count _, _, _ => True

/-- Events that are alike: they tell the same, but for why a call failed. -/
inductive Events (L : Likeness) : Event → Event → Prop where
  | same (e : Event) : L.Events e e
  | storeFailed {e e' : StoreError} (h : L.storeError e e') :
      L.Events (.storeFailed e.message) (.storeFailed e'.message)
  | pingFailed {e e' : StoreError} (h : L.storeError e e') :
      L.Events (.pingFailed e.message) (.pingFailed e'.message)
  | meetingFailed (sessionId : String) {e e' : ProviderError} (h : L.providerError e e') :
      L.Events (.meetingFailed sessionId e.message) (.meetingFailed sessionId e'.message)
  | tokenFailed (meetingId : String) {e e' : ProviderError} (h : L.providerError e e') :
      L.Events (.tokenFailed meetingId e.message) (.tokenFailed meetingId e'.message)

/-- Two programs make the same calls, and come to what `R` says, as long as they are answered
alike. -/
inductive Alike (L : Likeness) {α β : Type} (R : α → β → Prop) : Program α → Program β → Prop where
  | done {a : α} {b : β} (h : R a b) : Alike L R (.done a) (.done b)
  | ask (c : Call) {next : c.Answer → Program α} {next' : c.Answer → Program β}
      (h : ∀ r r', L.Answers c r r' → Alike L R (next r) (next' r')) :
      Alike L R (.ask c next) (.ask c next')
  | note {e e' : Event} {next : Unit → Program α} {next' : Unit → Program β} (he : L.Events e e')
      (h : Alike L R (next ()) (next' ())) : Alike L R (.ask (.note e) next) (.ask (.note e') next')

/-! ### Structural rules -/

section Structure

variable {R : α → β → Prop} {S : γ → δ → Prop}

theorem Alike.bind {p : Program α} {q : Program β} {f : α → Program γ} {g : β → Program δ}
    (h : L.Alike R p q) (hfg : ∀ a b, R a b → L.Alike S (f a) (g b)) :
    L.Alike S (p >>= f) (q >>= g) := by
  induction h with
  | done h => exact hfg _ _ h
  | ask c _ ih => exact .ask c ih
  | note he _ ih => exact .note he ih

theorem Alike.map {p : Program α} {q : Program β} {f : α → γ} {g : β → δ} (h : L.Alike R p q)
    (hfg : ∀ a b, R a b → S (f a) (g b)) : L.Alike S (f <$> p) (g <$> q) := by
  rw [map_eq_pure_bind, map_eq_pure_bind]
  exact h.bind fun a b hab => .done (hfg a b hab)

/-- The answers to some calls are nothing to tell apart. -/
theorem Alike.ask_eq {c : Call} {next : c.Answer → Program α} {next' : c.Answer → Program β}
    (hc : ∀ r r', L.Answers c r r' → r = r') (h : ∀ r, L.Alike R (next r) (next' r)) :
    L.Alike R (.ask c next) (.ask c next') :=
  .ask c fun r r' hr => hc r r' hr ▸ h r

/-- A note may come first in both. -/
theorem Alike.log (e : Event) {next : Unit → Program α} {next' : Unit → Program β}
    (h : L.Alike R (next ()) (next' ())) : L.Alike R (.ask (.note e) next) (.ask (.note e) next') :=
  .note (.same e) h

theorem Alike.count (m : Measurement) {next : Unit → Program α} {next' : Unit → Program β}
    (h : L.Alike R (next ()) (next' ())) :
    L.Alike R (.ask (.count m) next) (.ask (.count m) next') :=
  .ask_eq (fun _ _ _ => rfl) fun _ => h

end Structure

/-! ### Requests -/

/-- Errors of a request that are alike. -/
inductive Faults (L : Likeness) : ServiceError → ServiceError → Prop where
  | same (e : ServiceError) : L.Faults e e
  | store {e e' : StoreError} (h : L.storeError e e') : L.Faults (.ofStore e) (.ofStore e')

/-- Two requests come to the same, or both to an error. -/
def Twin (L : Likeness) (x y : Request α) : Prop :=
  L.Alike (Both L.Faults Eq) x.run y.run

/-- A request comes to the same whichever of two answers that are alike it is given. -/
abbrev Steady (L : Likeness) (x : Request α) : Prop :=
  L.Twin x x

theorem steady_pure (a : α) : L.Steady (pure a) :=
  .done (.ok rfl)

theorem steady_throw (e : ServiceError) : L.Steady (throw e : Request α) :=
  .done (.error (.same e))

theorem Twin.bind {x y : Request α} {f g : α → Request β} (h : L.Twin x y)
    (hfg : ∀ a, L.Twin (f a) (g a)) : L.Twin (x >>= f) (y >>= g) := by
  refine Alike.bind h fun r r' hr => ?_
  cases hr with
  | @ok a b hab =>
    subst hab
    exact hfg a
  | error he => exact .done (.error he)

theorem Twin.ite {c : Prop} [Decidable c] {x x' y y' : Request α} (hx : L.Twin x x')
    (hy : L.Twin y y') : L.Twin (if c then x else y) (if c then x' else y') := by
  split
  · exact hx
  · exact hy

theorem twin_lift {p q : Program α} {f g : α → Request β} (h : L.Alike Eq p q)
    (hfg : ∀ a, L.Twin (f a) (g a)) :
    L.Twin (ExceptT.lift p >>= f) (ExceptT.lift q >>= g) := by
  refine Twin.bind (Alike.bind h fun a b hab => ?_) hfg
  subst hab
  exact .done (.ok rfl)

/-- A program that asks the store may come first in both. -/
theorem twin_ofStore {p q : Program (Except StoreError α)} {f g : α → Request β}
    (h : L.Alike (Both L.storeError Eq) p q) (hfg : ∀ a, L.Twin (f a) (g a)) :
    L.Twin (Request.ofStore p >>= f) (Request.ofStore q >>= g) := by
  refine Twin.bind (Alike.bind h fun r r' hr => ?_) hfg
  cases hr with
  | ok hab => exact .done (.ok hab)
  | error he => exact .done (.error (.store he))

theorem twin_note (e : Event) {f g : Unit → Request β} (h : L.Twin (f ()) (g ())) :
    L.Twin (Request.note e >>= f) (Request.note e >>= g) :=
  Alike.log e h

theorem twin_count (m : Measurement) {f g : Unit → Request β} (h : L.Twin (f ()) (g ())) :
    L.Twin (Request.count m >>= f) (Request.count m >>= g) :=
  Alike.count m h

theorem twin_now {f g : Int → Request β} (h : ∀ t, L.Twin (f t) (g t)) :
    L.Twin (Request.now >>= f) (Request.now >>= g) :=
  Alike.ask_eq (c := .now) (fun _ _ ht => ht) h

/-- Who reads a record goes on with values that are alike. -/
theorem twin_get (key : String) {f g : Option Versioned → Request β}
    (h : ∀ v v', Option.Rel (L.Versions key) v v' → L.Twin (f v) (g v')) :
    L.Twin (Request.get key >>= f) (Request.get key >>= g) := by
  refine Alike.ask (.get key) fun r r' hr => ?_
  cases hr with
  | ok hv => exact h _ _ hv
  | error he => exact .done (.error (.store he))

/-- The same put may come first in both. -/
theorem twin_putIf (key value : String) (expected : Option Nat) {f g : PutOutcome → Request β}
    (h : ∀ outcome, L.Twin (f outcome) (g outcome)) :
    L.Twin (Request.putIf key value expected >>= f) (Request.putIf key value expected >>= g) := by
  refine Alike.ask (.putIf key value expected) fun r r' hr => ?_
  cases hr with
  | @ok outcome outcome' hsame =>
    subst hsame
    exact h outcome
  | error he => exact .done (.error (.store he))

end Likeness

end VoiceRoom.Twins
