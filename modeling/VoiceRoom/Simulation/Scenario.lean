import VoiceRoom.Http.Service
import VoiceRoom.Simulation.Run

/-!
# Scenarios

A scenario is a list of steps that are taken one after the other in a world. A step that runs a
program of the service can be interrupted by other steps, which may be interrupted in turn; this is
how races are told.
-/

namespace VoiceRoom.Simulation

/-- What a step does. -/
inductive Action where
  -- Programs of the service
  | create (mode : Mode)
  | join (mode : Mode) (sessionId : String) (request : JoinRequest)
  | resolve (sessionId : String) (mode : Mode)
  | load (mapping : Mapping)
  | http (request : Http.Request)
  -- Single calls of the provider
  | createMeeting (title : String)
  | createParticipant (meetingId userId : String)
  -- The store, used directly
  | get (key : String)
  | put (key value : String)
  | putIf (key value : String) (expected : Option Nat)
  | ping
  | peek (key : String)
  | setUnavailable (value : Bool)
  | pend (fault : Fault)
  | setData (key : String) (data : List Symbol)
  | eraseData (key : String)
  | setLink (link : Link)
  -- The rest of the world
  | setMode (mode : Mode)
  | advance (ms : Int)
  | tally

mutual

inductive Step where
  | mk (action : Action) (interruptions : List Interlude)

/-- Steps that are taken right before calls of another. -/
inductive Interlude where
  | mk (point : Point) (trigger : Trigger) (steps : List Step)

end

instance : Inhabited Step := ⟨.mk .tally []⟩

/-- A look at the store in memory. -/
structure Peek where
  value : Option String
  size : Nat
deriving DecidableEq, Repr

/-- What comes of a step. -/
inductive Outcome where
  | nothing
  | created (r : Except ServiceError Session)
  | joined (r : Except ServiceError JoinReply)
  | resolved (r : Except StoreError Resolution)
  | loaded (r : Except ServiceError (Option Loaded))
  | response (r : Http.Response)
  | value (r : Except StoreError (Option Versioned))
  | version (r : Except StoreError Nat)
  | put (r : Except StoreError PutOutcome)
  | pong (r : Except StoreError Unit)
  | peek (p : Option Peek)
  | mode (m : Mode)
  | provided (r : Except ProviderError String)
  | tally (t : Option Tally)
  /-- The program waits for an answer that does not come. -/
  | waiting

/-- What is seen of a step: what came of it, the calls that it made, and what is seen of the steps
that interrupted it. -/
inductive Sight where
  | mk (outcome : Outcome) (calls : List Entry) (interludes : List Sight)

/-- Runs a program and says what came of it. -/
def Action.runProgram {β : Type} (is : List (Interruption Sight)) (p : Program β)
    (outcome : β → Outcome) (w : World) : World × Sight :=
  let (result, progress) := run is p { world := w }
  let outcome := result.elim .waiting outcome
  (progress.world, .mk outcome progress.entries.reverse progress.seen)

/-- Serves a request. One that is not answered has run out of time. Its duration is measured along
with its response. -/
def Action.serve (is : List (Interruption Sight)) (r : Http.Request) (w : World) :
    World × Sight :=
  let (result, progress) := run is (Http.answer w.appId r) { world := w }
  let response := result.getD .timeout
  let after := progress.world
  let micros := 1000 * (after.clock - w.clock).toNat
  let after :=
    after.count (.request r.method (Http.Route.path r.target) response.status micros)
  (after, .mk (.response response) progress.entries.reverse progress.seen)

/-- What comes of something that is done to the world directly. -/
def direct (w : World) (outcome : Outcome) : World × Sight :=
  (w, .mk outcome [] [])

/-- Uses the store directly. -/
def directStore {α : Type} (w : World) (f : Store → Stored α)
    (outcome : Except StoreError α → Outcome) : World × Sight :=
  let (r, w) := w.useStore f
  direct w (outcome r)

def World.mapMemory (w : World) (f : Memory → Memory) : World :=
  match w.store with
  | .memory m => { w with store := .memory (f m) }
  | .shared _ => w

def World.mapShared (w : World) (f : Shared → Shared) : World :=
  match w.store with
  | .memory _ => w
  | .shared s => { w with store := .shared (f s) }

/-- Looks at a key of the store in memory, which need not be available. -/
def World.peek (w : World) (key : String) : Option Peek :=
  match w.store with
  | .memory m => some ⟨(m.lookup key).map Versioned.value, m.entries.length⟩
  | .shared _ => none

def Action.perform (a : Action) (is : List (Interruption Sight)) (w : World) : World × Sight :=
  match a with
  | create mode => runProgram is (VoiceRoom.create mode).run .created w
  | join mode sessionId request =>
    runProgram is (VoiceRoom.join w.appId mode sessionId request).run .joined w
  | resolve sessionId mode => runProgram is (Resolution.lookup sessionId mode) .resolved w
  | load mapping => runProgram is (VoiceRoom.load mapping).run .loaded w
  | http request => serve is request w
  | createMeeting title => runProgram is (Program.call (.createMeeting title)) .provided w
  | createParticipant meetingId userId =>
    runProgram is (Program.call (.createParticipant meetingId userId)) .provided w
  | get key => directStore w (fun s => s.get key) .value
  | put key value => directStore w (fun s => s.put key value) .version
  | putIf key value expected => directStore w (fun s => s.putIf key value expected) .put
  | ping => directStore w (fun s => s.ping) .pong
  | peek key => direct w (.peek (w.peek key))
  | setUnavailable value => direct (w.mapMemory fun m => { m with available := !value }) .nothing
  | pend fault => direct { w with fault := some fault } .nothing
  | setData key data => direct (w.mapShared fun s => { s with data := s.data.set key data }) .nothing
  | eraseData key => direct (w.mapShared fun s => { s with data := s.data.erase key }) .nothing
  | setLink link => direct (w.mapShared fun s => { s with link }) .nothing
  | setMode mode => direct (w.setMode mode) (.mode mode)
  | advance ms => direct (w.advance ms) .nothing
  | tally => direct w (.tally w.provider.tally?)

mutual

/-- Takes a step with its interruptions. -/
def Step.take : Step → World → World × Sight
  | .mk action interludes => action.perform (Interlude.all interludes)

/-- The interruptions that interludes are. -/
def Interlude.all : List Interlude → List (Interruption Sight)
  | [] => []
  | .mk point trigger steps :: rest => ⟨point, trigger, Step.takeAll steps⟩ :: Interlude.all rest

def Step.takeAll : List Step → World → World × List Sight
  | [], w => (w, [])
  | step :: rest, w =>
    let (w, sight) := step.take w
    let (w, sights) := Step.takeAll rest w
    (w, sight :: sights)

end

/-- What is seen of a step of a scenario: beside the step itself, the keys that it changed, what
reached the provider, and what was noted. -/
structure Report where
  sight : Sight
  changes : List (String × Option Content)
  sent : List Sent
  events : List Event

/-- Plays a scenario. -/
def play : List Step → World → List Report
  | [], _ => []
  | step :: rest, w =>
    let w := { w with sent := [], events := [] }
    let (after, sight) := step.take w
    { sight, changes := w.store.changes after.store, sent := after.sent,
      events := after.events.reverse } :: play rest after

end VoiceRoom.Simulation
