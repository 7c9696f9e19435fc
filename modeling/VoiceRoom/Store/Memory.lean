import VoiceRoom.Error
import VoiceRoom.Store.Entries
import VoiceRoom.Store.Key

/-!
# The store in memory

Keys with their versioned values, each key once. `lookup` is what there is to know of a store:
`lookup_insert` says how writing a key changes it.
-/

namespace VoiceRoom

structure Memory where
  entries : Entries Versioned := []
  /-- Whether the store answers. -/
  available : Bool := true
deriving DecidableEq, Repr

namespace Memory

def lookup (m : Memory) (key : String) : Option Versioned :=
  m.entries.lookup key

def insert (m : Memory) (key : String) (v : Versioned) : Memory :=
  { m with entries := m.entries.assign key v }

/-- What is inserted is there, and nothing else changes. -/
theorem lookup_insert (m : Memory) (key k : String) (v : Versioned) :
    (m.insert key v).lookup k = if k = key then some v else m.lookup k :=
  Entries.lookup_assign key k v m.entries

/-- What a store says that does not answer. -/
def unavailable : StoreError := .backend "store unavailable"

def get (m : Memory) (key : String) : Except StoreError (Option Versioned) :=
  if m.available then .ok (m.lookup key) else .error unavailable

/-- The version that the next write of a key gives it. -/
def nextVersion (m : Memory) (key : String) : Nat :=
  ((m.lookup key).elim 0 Versioned.version) + 1

def put (m : Memory) (key value : String) : Except StoreError Nat × Memory :=
  if m.available then
    let version := m.nextVersion key
    (.ok version, m.insert key ⟨value, version⟩)
  else (.error unavailable, m)

/-- Writes a key if it has the expected version, `none` meaning that it must be absent. -/
def putIf (m : Memory) (key value : String) (expected : Option Nat) :
    Except StoreError PutOutcome × Memory :=
  if m.available then
    if (m.lookup key).map Versioned.version = expected then
      let version := m.nextVersion key
      (.ok (.written version), m.insert key ⟨value, version⟩)
    else (.ok .conflict, m)
  else (.error unavailable, m)

def ping (m : Memory) : Except StoreError Unit :=
  if m.available then .ok () else .error unavailable

end Memory

end VoiceRoom
