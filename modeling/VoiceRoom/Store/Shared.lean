import VoiceRoom.Error
import VoiceRoom.Event
import VoiceRoom.Number.Word
import VoiceRoom.Store.Key
import VoiceRoom.Store.Keyspace
import VoiceRoom.Text.Numeral

/-!
# The shared store

Several instances of the service can use one keyspace behind a connection. A read fetches a record
and its version together; writes go through the scripts. Whatever goes wrong on the way is an error
of the store, and what was to be written may be there all the same. The words in which the server
explains itself are not part of it.
-/

namespace VoiceRoom

/-- The state of a connection. -/
inductive Link where
  | up
  /-- The next command is refused. -/
  | refusing
  /-- The server has lost its scripts: the next command is refused, but a script is sent along and
  run at once. -/
  | unscripted
  /-- The next command is run, but the connection breaks before the answer comes. -/
  | breaking
  | down
deriving DecidableEq, Repr

/-- What becomes of a command. -/
inductive Delivery where
  | answered
  /-- It is run, and nobody hears of it. -/
  | lost
  /-- It is not run. -/
  | refused
deriving DecidableEq, Repr

namespace Link

/-- What becomes of the next command, and the connection afterwards. -/
def command : Link → Delivery × Link
  | up => (.answered, up)
  | refusing => (.refused, up)
  | unscripted => (.refused, up)
  | breaking => (.lost, down)
  | down => (.refused, down)

/-- What becomes of the next script, and the connection afterwards. -/
def script : Link → Delivery × Link
  | unscripted => (.answered, up)
  | link => link.command

end Link

structure Shared where
  data : Keyspace := {}
  link : Link := .up
deriving DecidableEq, Repr

namespace Shared

/-- An answer of the store, the store afterwards, and what was noted. -/
structure Answered (α : Type) where
  result : Except StoreError α
  store : Shared
  events : List Event := []

/-- Has a script run: what it hands back, unless it fails or its answer does not come through, and
the store afterwards. -/
def invoke (s : Shared) (script : Keyspace → Option Int × Keyspace) : Option Int × Shared :=
  let (result, ks) := script s.data
  match s.link.script.1 with
  | .answered => (result, ⟨ks, s.link.script.2⟩)
  | .lost => (none, ⟨ks, s.link.script.2⟩)
  | .refused => (none, ⟨s.data, s.link.script.2⟩)

section invoke

variable {s : Shared} {script : Keyspace → Option Int × Keyspace}

/-- A script that is answered ran. -/
theorem invoke_of_answered (h : s.link.script.1 = .answered) :
    s.invoke script = ((script s.data).1, ⟨(script s.data).2, s.link.script.2⟩) := by
  unfold invoke
  rw [h]

/-- A script whose answer is lost ran as well. -/
theorem invoke_of_lost (h : s.link.script.1 = .lost) :
    s.invoke script = (none, ⟨(script s.data).2, s.link.script.2⟩) := by
  unfold invoke
  rw [h]

/-- A script that is refused did not run. -/
theorem invoke_of_refused (h : s.link.script.1 = .refused) :
    s.invoke script = (none, ⟨s.data, s.link.script.2⟩) := by
  unfold invoke
  rw [h]

/-- Who hears of a script knows that it was run. -/
theorem invoke_of_some {result : Int} (h : (s.invoke script).1 = some result) :
    (script s.data).1 = some result ∧ (s.invoke script).2.data = (script s.data).2 := by
  cases hdelivery : s.link.script.1 with
  | answered =>
    rw [invoke_of_answered hdelivery] at h ⊢
    exact ⟨h, rfl⟩
  | lost =>
    rw [invoke_of_lost hdelivery] at h
    exact nomatch h
  | refused =>
    rw [invoke_of_refused hdelivery] at h
    exact nomatch h

end invoke

/-- A version as the service reads it. -/
def readVersion? : Option (List Symbol) → Option Nat
  | none => some 0
  | some data => do
    let cs ← data.mapM Symbol.char?
    (Numeral.read wordMax cs).toOption

/-- Takes a record and its version out of the data. -/
def fetch? (ks : Keyspace) (key : String) : Option (Option Versioned) := do
  let version ← readVersion? (ks.lookup (versionKey key))
  match ks.lookup key with
  | none => some none
  | some data => (Symbol.text? data).map fun value => some ⟨value, version⟩

def get (s : Shared) (key : String) : Answered (Option Versioned) :=
  let (delivery, link) := s.link.command
  match if delivery = .answered then fetch? s.data key else none with
  | some record => ⟨.ok record, { s with link }, []⟩
  | none => ⟨.error (.backend ("Failed to read " ++ key)), { s with link }, [.readFailed key]⟩

/-- What the service says when a write fails. -/
def writeError (key : String) : StoreError :=
  .backend ("Failed to write " ++ key)

def put (s : Shared) (key value : String) : Answered Nat :=
  match s.invoke fun ks => ks.versionedPut key (Symbol.ofText value) with
  | (none, s) => ⟨.error (writeError key), s, [.writeFailed key]⟩
  | (some version, s) =>
    let result :=
      if version < 0 then
        .error (.protocol ("negative version " ++ version.repr ++ " for " ++ key))
      else .ok version.toNat
    ⟨result, s, []⟩

/-- How an expected version is passed to the script. -/
def expectedText (expected : Option Nat) : String :=
  match expected with
  | none => "absent"
  | some version => version.repr

def putIf (s : Shared) (key value : String) (expected : Option Nat) : Answered PutOutcome :=
  match s.invoke fun ks => ks.conditionalPut key (Symbol.ofText value) expected with
  | (none, s) => ⟨.error (writeError key), s, [.conditionalWriteFailed key]⟩
  | (some result, s) =>
    if result = 0 then ⟨.ok .conflict, s, [.versionConflict key (expectedText expected)]⟩
    else if 0 < result then ⟨.ok (.written result.toNat), s, []⟩
    else
      ⟨.error (.protocol ("invalid version for " ++ key)), s, [.versionInvalid key result]⟩

def ping (s : Shared) : Answered Unit :=
  let (delivery, link) := s.link.command
  ⟨if delivery = .answered then .ok () else .error (.backend "PING failed"), { s with link }, []⟩

end Shared

end VoiceRoom
