import Mathlib.Logic.Relation
import VoiceRoom.Number.Word
import VoiceRoom.Simulation.Run
import VoiceRoom.Store.Memory
import VoiceRoom.Workflow.Create
import VoiceRoom.Workflow.Join

/-!
# Requests that run side by side

Any number of requests share one store in memory. Each is a program of its own, and what happens
next is that some request starts, that the world answers the call some request waits for, or that
the store stops or starts to answer. Nothing makes a request go on: one that is abandoned between
two calls is one that is never answered again.

A run is a sequence of such steps (`Run`). The world keeps what happened in it, so that a state
tells the order of all that came before.
-/

namespace VoiceRoom.Concurrency

open Simulation (Entry)

/-- What a client asks for. -/
inductive Job where
  | create (mode : Mode)
  | join (mode : Mode) (sessionId : String) (request : JoinRequest)
deriving DecidableEq, Repr

/-- What a client is told. -/
inductive Outcome where
  | created (r : Except ServiceError Session)
  | joined (r : Except ServiceError JoinReply)

/-- The program that does a job. -/
def Job.program (appId : String) : Job → Program Outcome
  | create mode => Outcome.created <$> (VoiceRoom.create mode).run
  | join mode sessionId request =>
    Outcome.joined <$> (VoiceRoom.join appId mode sessionId request).run

/-- Something that happens. Tasks are numbered in the order in which they start. -/
inductive Act where
  | start (job : Job)
  | answer (task : Nat) (entry : Entry)
  /-- The store stops or starts to answer. -/
  | switch (available : Bool)

/-- The store after a call. -/
def storeAfter (m : Memory) : Call → Memory
  | .putIf key value expected => (m.putIf key value expected).2
  | _ => m

/-- What requests share: the store, and all that happened so far, latest first. -/
structure World where
  store : Memory := {}
  past : List Act := []

namespace World

/-- The world after something happened. -/
def next (w : World) (act : Act) : World where
  store :=
    match act with
    | .start _ => w.store
    | .answer _ entry => storeAfter w.store entry.call
    | .switch available => { w.store with available }
  past := act :: w.past

/-- How a call may be answered: by the store as the store is, by the clock with a word, and by
everything else in any way. -/
def Answers (w : World) : (c : Call) → c.Answer → Prop
  | .get key, r => r = w.store.get key
  | .putIf key value expected, r => r = (w.store.putIf key value expected).1
  | .ping, r => r = w.store.ping
  | .now, t => fitsInt64 t
  | _, _ => True

/-- Whether something may happen. -/
def Allows (w : World) : Act → Prop
  | .answer _ entry => w.Answers entry.call entry.answer
  | _ => True

@[simp] theorem past_next (w : World) (act : Act) : (w.next act).past = act :: w.past := rfl

end World

/-- A job and what is left to do of it. -/
structure Task where
  job : Job
  rest : Program Outcome

/-- The world and the tasks in it. -/
structure System where
  world : World := {}
  tasks : List Task := []

namespace System

/-- The store that the tasks share. -/
abbrev store (σ : System) : Memory := σ.world.store

/-- All that happened so far, latest first. -/
abbrev past (σ : System) : List Act := σ.world.past

/-- A task has come to its end with an outcome. -/
def Finished (σ : System) (i : Nat) (job : Job) (outcome : Outcome) : Prop :=
  σ.tasks[i]? = some ⟨job, .done outcome⟩

end System

/-- A single step. -/
inductive Step (appId : String) : System → System → Prop where
  | start (σ : System) (job : Job) :
      Step appId σ ⟨σ.world.next (.start job), σ.tasks ++ [⟨job, job.program appId⟩]⟩
  | answer {σ : System} {i : Nat} {job : Job} {c : Call} {rest : c.Answer → Program Outcome}
      (r : c.Answer) (htask : σ.tasks[i]? = some ⟨job, .ask c rest⟩) (hr : σ.world.Answers c r) :
      Step appId σ ⟨σ.world.next (.answer i ⟨c, r⟩), σ.tasks.set i ⟨job, rest r⟩⟩
  | switch (σ : System) (available : Bool) :
      Step appId σ ⟨σ.world.next (.switch available), σ.tasks⟩

/-- A step is something that may happen. -/
theorem Step.next {appId : String} {σ τ : System} (h : Step appId σ τ) :
    ∃ act, τ.world = σ.world.next act ∧ σ.world.Allows act := by
  cases h with
  | start job => exact ⟨.start job, rfl, trivial⟩
  | @answer i _ c _ r _ hr => exact ⟨.answer i ⟨c, r⟩, rfl, hr⟩
  | switch available => exact ⟨.switch available, rfl, trivial⟩

/-- Any number of steps, in any order. -/
def Run (appId : String) : System → System → Prop :=
  Relation.ReflTransGen (Step appId)

/-! ### What the past tells -/

/-- The calls of a task that were answered, latest first. -/
def own (i : Nat) (past : List Act) : List Entry :=
  past.filterMap fun
    | .answer j entry => if j = i then some entry else none
    | _ => none

@[simp] theorem own_nil (i : Nat) : own i [] = [] := rfl

@[simp] theorem own_answer_self (i : Nat) (entry : Entry) (past : List Act) :
    own i (.answer i entry :: past) = entry :: own i past := by
  simp [own]

theorem own_answer_of_ne {i j : Nat} (h : j ≠ i) (entry : Entry) (past : List Act) :
    own i (.answer j entry :: past) = own i past := by
  simp [own, h]

/-- The meetings that the provider gave, each with the title it was asked for. -/
def grants (past : List Act) : List (String × String) :=
  past.filterMap fun
    | .answer _ ⟨.createMeeting title, .ok meetingId⟩ => some (title, meetingId)
    | _ => none

/-- The provider never gave a meeting twice, and none that looks like a mock meeting. -/
structure FreshGrants (past : List Act) : Prop where
  nodup : ((grants past).map Prod.snd).Nodup
  unlike : ∀ grant ∈ grants past, ¬ "mock-meeting-".toList <+: grant.2.toList

theorem grants_suffix {past past' : List Act} (h : past <:+ past') : grants past <:+ grants past' :=
  h.filterMap _

theorem FreshGrants.of_suffix {past past' : List Act} (h : FreshGrants past')
    (hsuffix : past <:+ past') : FreshGrants past where
  nodup := h.nodup.sublist ((grants_suffix hsuffix).sublist.map _)
  unlike grant hgrant := h.unlike grant ((grants_suffix hsuffix).subset hgrant)

end VoiceRoom.Concurrency
