import VoiceRoom.Program
import VoiceRoom.SessionId
import VoiceRoom.Simulation.Provider
import VoiceRoom.Simulation.Store

/-!
# The world around the service

A world answers the calls of programs: it has a store, a provider, a clock that moves only when it
is told to, and a supply of random bits. What programs note and measure is kept, latest first.
-/

namespace VoiceRoom.Simulation

/-- What happens to the next call of the store. -/
inductive Fault where
  | refuse (e : StoreError)
  /-- The call takes a long time and is never answered. -/
  | hang
deriving DecidableEq, Repr

structure World where
  appId : String
  clock : Int
  store : Store
  provider : Provider
  mode : Mode
  /-- How long a call of the store takes. -/
  storeMs : Nat
  /-- How long a call of the provider takes. -/
  providerMs : Nat
  /-- The random bits of the next session ids. -/
  bits : List Nat
  /-- How many ids were drawn after those bits ran out. -/
  drawn : Nat := 0
  fault : Option Fault := none
  events : List Event := []
  measurements : List Measurement := []
  sent : List Sent := []

namespace World

/-- How long a call takes that is never answered. -/
def hangMs : Nat := 31000

def advance (w : World) (ms : Int) : World :=
  { w with clock := w.clock + ms }

def note (w : World) (e : Event) : World :=
  { w with events := e :: w.events }

def noteAll (w : World) (es : List Event) : World :=
  es.foldl note w

def count (w : World) (m : Measurement) : World :=
  { w with measurements := m :: w.measurements }

def scrape (w : World) : List String :=
  Metrics.exposition w.measurements.reverse

def useStore {α : Type} (w : World) (f : Store → Stored α) : Except StoreError α × World :=
  let r := f w.store
  (r.result, { w with store := r.store }.noteAll r.events)

def useProvider (w : World) (f : Provider → Provided) : Except ProviderError String × World :=
  let r := f w.provider
  let w := ({ w with provider := r.provider }.advance r.elapsedMs).noteAll r.events
  (r.result, { r.measurements.foldl count w with sent := w.sent ++ r.sent.toList })

/-- A call of the store by the service: it takes its time, and a pending fault takes effect. The
call may stay without an answer. -/
def callStore {α : Type} (w : World) (f : Store → Stored α) :
    Option (Except StoreError α) × World :=
  let w := w.advance w.storeMs
  match w.fault with
  | none =>
    let (r, w) := w.useStore f
    (some r, w)
  | some (.refuse e) => (some (.error e), { w with fault := none })
  | some .hang => (none, { w with fault := none }.advance hangMs)

/-- A call of the provider by the service. -/
def callProvider (w : World) (f : Provider → Provided) : Except ProviderError String × World :=
  (w.advance w.providerMs).useProvider f

/-- Draws the random bits of a session id. -/
def drawBits (w : World) : Nat × World :=
  match w.bits with
  | bits :: rest => (bits, { w with bits := rest })
  | [] => (w.drawn + 1, { w with drawn := w.drawn + 1 })

/-- Sets the mode. A change is noted. -/
def setMode (w : World) (m : Mode) : World :=
  if w.mode = m then w else { w with mode := m }.note (.modeChanged ⟨w.mode, m⟩)

/-- Answers a call, or leaves it without an answer. -/
def answer (w : World) : (c : Call) → Option c.Answer × World
  | .get key => w.callStore fun s => s.get key
  | .putIf key value expected => w.callStore fun s => s.putIf key value expected
  | .ping => w.callStore fun s => s.ping
  | .createMeeting title =>
    let (r, w) := w.callProvider fun p => p.createMeeting title
    (some r, w)
  | .createParticipant meetingId userId =>
    let (r, w) := w.callProvider fun p => p.createParticipant meetingId userId
    (some r, w)
  | .now => (some w.clock, w)
  | .freshId =>
    let (bits, w) := w.drawBits
    (some (SessionId.ofBits bits), w)
  | .mode => (some w.mode, w)
  | .note e => (some (), w.note e)
  | .count m => (some (), w.count m)
  | .scrape => (some w.scrape, w)

end World

end VoiceRoom.Simulation
