import VoiceRoom.Error
import VoiceRoom.Event
import VoiceRoom.Metrics
import VoiceRoom.Store.Key

/-!
# Programs

What the service does for a request depends on answers from outside: from the store, the provider,
the clock. A program is a tree of such calls, each followed by what is done for every answer. It
says nothing about how calls are answered, so one program serves a single run, a run disturbed by
others between any two calls, and a run that is never answered.
-/

namespace VoiceRoom

/-- A question to the world outside. -/
inductive Call where
  -- The record store
  | get (key : String)
  | putIf (key value : String) (expected : Option Nat)
  | ping
  -- The meeting provider
  | createMeeting (title : String)
  | createParticipant (meetingId userId : String)
  -- The service's surroundings
  | now
  | freshId
  | mode
  | note (e : Event)
  | count (m : Measurement)
  | scrape
deriving DecidableEq, Repr

/-- What a call is answered with. -/
abbrev Call.Answer : Call → Type
  | .get _ => Except StoreError (Option Versioned)
  | .putIf .. => Except StoreError PutOutcome
  | .ping => Except StoreError Unit
  | .createMeeting _ => Except ProviderError String
  | .createParticipant .. => Except ProviderError String
  | .now => Int
  | .freshId => String
  | .mode => Mode
  | .note _ => Unit
  | .count _ => Unit
  | .scrape => List String

/-- Calls to make, and what comes of them. -/
inductive Program (α : Type) where
  | done (a : α)
  | ask (c : Call) (next : c.Answer → Program α)

namespace Program

variable {α β γ : Type}

/-- Goes on with the result of a program. -/
def bind : Program α → (α → Program β) → Program β
  | done a, f => f a
  | ask c next, f => ask c fun r => (next r).bind f

instance : Monad Program where
  pure := done
  bind := bind

@[simp] theorem pure_eq (a : α) : (pure a : Program α) = done a := rfl

@[simp] theorem done_bind (a : α) (f : α → Program β) : (done a >>= f) = f a := rfl

@[simp] theorem ask_bind (c : Call) (next : c.Answer → Program α) (f : α → Program β) :
    (ask c next >>= f) = ask c fun r => next r >>= f := rfl

theorem bind_done (p : Program α) : (p >>= done) = p := by
  induction p with
  | done a => rfl
  | ask c next ih => simp [ih]

theorem bind_bind (p : Program α) (f : α → Program β) (g : β → Program γ) :
    (p >>= f >>= g) = p >>= fun a => f a >>= g := by
  induction p with
  | done a => rfl
  | ask c next ih => simp [ih]

instance : LawfulMonad Program :=
  LawfulMonad.mk' Program bind_done (fun _ _ => rfl) bind_bind

def call (c : Call) : Program c.Answer :=
  ask c done

@[simp] theorem call_bind (c : Call) (f : c.Answer → Program β) : (call c >>= f) = ask c f := rfl

end Program

/-- A program that an error of the service may end. -/
abbrev Request (α : Type) := ExceptT ServiceError Program α

namespace Request

variable {α : Type}

/-- A program whose store errors end the request. -/
def ofStore (p : Program (Except StoreError α)) : Request α :=
  ExceptT.mk (p >>= fun r => pure (r.mapError ServiceError.ofStore))

def get (key : String) : Request (Option Versioned) :=
  ofStore (Program.call (.get key))

/-- Writes a key if it has the expected version. -/
def putIf (key value : String) (expected : Option Nat) : Request PutOutcome :=
  ofStore (Program.call (.putIf key value expected))

def now : Request Int :=
  ExceptT.lift (Program.call .now)

def note (e : Event) : Request Unit :=
  ExceptT.lift (Program.call (.note e))

def count (m : Measurement) : Request Unit :=
  ExceptT.lift (Program.call (.count m))

end Request

end VoiceRoom
