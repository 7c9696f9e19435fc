import VoiceRoom.Store.Memory
import VoiceRoom.Store.Shared

/-!
# Stores to try the service with

Either store can stand behind the service. An observer sees which keys a run changed.
-/

namespace VoiceRoom.Simulation

inductive Store where
  | memory (m : Memory)
  | shared (s : Shared)

/-- An answer of a store, the store afterwards, and what was noted. -/
structure Stored (α : Type) where
  result : Except StoreError α
  store : Store
  events : List Event := []

/-- The content of a key. -/
inductive Content where
  | versioned (v : Versioned)
  | raw (data : List Symbol)
deriving DecidableEq, Repr

namespace Store

variable {α : Type}

def ofMemory (r : Except StoreError α × Memory) : Stored α :=
  ⟨r.1, memory r.2, []⟩

def ofShared (r : Shared.Answered α) : Stored α :=
  ⟨r.result, shared r.store, r.events⟩

def get (s : Store) (key : String) : Stored (Option Versioned) :=
  match s with
  | memory m => ofMemory (m.get key, m)
  | shared s => ofShared (s.get key)

def put (s : Store) (key value : String) : Stored Nat :=
  match s with
  | memory m => ofMemory (m.put key value)
  | shared s => ofShared (s.put key value)

def putIf (s : Store) (key value : String) (expected : Option Nat) : Stored PutOutcome :=
  match s with
  | memory m => ofMemory (m.putIf key value expected)
  | shared s => ofShared (s.putIf key value expected)

def ping (s : Store) : Stored Unit :=
  match s with
  | memory m => ofMemory (m.ping, m)
  | shared s => ofShared s.ping

/-- The keys and what they hold. -/
def contents : Store → List (String × Content)
  | memory m => m.entries.map fun (key, v) => (key, .versioned v)
  | shared s => s.data.entries.map fun (key, data) => (key, .raw data)

/-- The keys that hold something else than before, with what they hold now, if anything. -/
def changes (old new : Store) : List (String × Option Content) :=
  let before := old.contents
  let after := new.contents
  let written := after.filter fun (key, c) => before.lookup key != some c
  let gone := before.filter fun (key, _) => (after.lookup key).isNone
  written.map (fun (key, c) => (key, some c)) ++ gone.map fun (key, _) => (key, none)

end Store

end VoiceRoom.Simulation
