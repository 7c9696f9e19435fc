import VoiceRoom.Proofs.Concurrency.History
import VoiceRoom.Proofs.Concurrency.Rules
import VoiceRoom.Proofs.Roster

/-!
# A crowd that joins one session

Any number of valid joins of one session id run side by side, all in one mode, while the store and
the provider answer. Then the session id comes to one meeting and stays there, and the session in
it changes by nothing but a write of its record (`Orderly`). Each join looks at the session and
either writes it, which settles the join, or comes to its end without (`Settled`): what the join is
answered is what a join by itself would be answered at that point (`Serves`).
-/

namespace VoiceRoom.Concurrency

open Discipline
open Simulation (Entry)

/-! ### A join by itself -/

/-- A meeting that is as a mode wants it. -/
def Meant (mode : Mode) (s : String) (m : Meeting) : Prop :=
  match mode with
  | .mock => m = mockMeeting s false
  | .real => m.kind = .real ∧ m.degraded = false

/-- A crowd never falls back on a mock meeting, so no meeting of it is degraded. -/
theorem Meant.degraded {mode : Mode} {s : String} {m : Meeting} (h : Meant mode s m) :
    m.degraded = false := by
  cases mode with
  | mock =>
    obtain rfl : m = mockMeeting s false := h
    rfl
  | real => exact h.2

/-- How many are in a session, if there is one. -/
def occupancy (room : Option Session) : Nat :=
  room.elim 0 fun x => x.users.length

/-- What a join does to the session of an id by itself, and how it is answered: a session that is
full turns everyone down, one that is not takes the user in, and one that is not there is made. A
join that gives up changes nothing. -/
inductive Serves (mode : Mode) (s : String) (r : JoinRequest) :
    Option Session → Except ServiceError JoinReply → Option Session → Prop where
  | conflict {room : Option Session} {reason : String} (hroom : occupancy room < capacity) :
      Serves mode s r room (.error (.conflict reason)) room
  | full {room : Option Session} (hroom : occupancy room = capacity) :
      Serves mode s r room (.error .sessionFull) room
  | opened {m : Meeting} {userId : String} {createdAt joinedAt : Int} {x : Session}
      {realtime : Option Credentials} (hm : Meant mode s m) (hvalid : r.validate = .ok userId)
      (hx : x = (Session.new s m createdAt).add ⟨userId, joinedAt, r.iconUrl⟩) :
      Serves mode s r none (.ok ⟨x, realtime⟩) (some x)
  | joined {x x' : Session} {userId : String} {joinedAt : Int} {realtime : Option Credentials}
      (hroom : x.users.length < capacity) (hvalid : r.validate = .ok userId)
      (hx : x' = x.add ⟨userId, joinedAt, r.iconUrl⟩) :
      Serves mode s r (some x) (.ok ⟨x', realtime⟩) (some x')

/-! ### Order in a crowd -/

/-- All that happens is that valid joins of a session id, in one mode, are started and go on, while
the store and the provider answer. -/
structure Crowd (mode : Mode) (s : String) (past : List Act) : Prop where
  starts : ∀ job, .start job ∈ past → ∃ r userId, job = .join mode s r ∧ r.validate = .ok userId
  provider : ∀ i title e, .answer i ⟨.createMeeting title, .error e⟩ ∉ past
  store : .switch false ∉ past

theorem Crowd.of_suffix {mode : Mode} {s : String} {past past' : List Act}
    (h : Crowd mode s past') (hsuffix : past <:+ past') : Crowd mode s past where
  starts job hjob := h.starts job (hsuffix.subset hjob)
  provider i title e he := h.provider i title e (hsuffix.subset he)
  store hswitch := h.store (hsuffix.subset hswitch)

/-- A session is as a crowd makes it, in the meeting its id is mapped to. -/
structure Lodged (m : Memory) (s : String) (x : Session) : Prop where
  sessionId : x.sessionId = s
  mapped : m.mappingAt s = some x.mapping
  genuine : x.degraded = false
  room : x.users.length ≤ capacity
  timed : x.Timed

/-- What holds at any time in a crowd. -/
structure Orderly (mode : Mode) (s : String) (w : World) : Prop where
  replay : w.store = storeOf w.past
  available : w.store.available = true
  meant : ∀ mapping, w.store.mappingAt s = some mapping →
    ∃ m, Meant mode s m ∧ mapping = .ofMeeting m
  stored : ∀ meetingId v, w.store.lookup (sessionKey meetingId) = some v →
    ∃ x, Session.decode v.value = .ok x ∧ x.meetingId = meetingId ∧ Lodged w.store s x
  /-- Only who writes the session changes it. -/
  still : ∀ act past, (act :: past) <:+ w.past → (∀ i e, act = .answer i e → seats e = false) →
    roomAt (storeOf (act :: past)) s = roomAt (storeOf past) s

/-- A world later on. -/
structure Onward (s : String) (w w' : World) : Prop where
  past : w.past <:+ w'.past
  store : w.store.Advances w'.store
  mapping : ∀ mapping, w.store.mappingAt s = some mapping → w'.store.mappingAt s = some mapping

variable {mode : Mode} {s : String} {i : Nat} {u v w w' : World}

theorem onward_refl (s : String) (w : World) : Onward s w w where
  past := List.suffix_refl _
  store := Memory.advances_refl _
  mapping _ h := h

theorem Onward.trans (h : Onward s u v) (h' : Onward s v w) : Onward s u w where
  past := h.past.trans h'.past
  store := h.store.trans h'.store
  mapping mapping hm := h'.mapping mapping (h.mapping mapping hm)

/-- In the beginning nothing is stored. -/
theorem orderly_empty (mode : Mode) (s : String) : Orderly mode s {} where
  replay := rfl
  available := rfl
  meant _ h := nomatch h
  stored _ _ h := nomatch h
  still _ _ h := nomatch List.suffix_nil.1 h

/-- The room stays what it is while others go on. -/
theorem Lodged.onward {x : Session} (h : Lodged w.store s x) (hle : Onward s w w') :
    Lodged w'.store s x :=
  { h with mapped := hle.mapping _ h.mapped }

/-- What was still goes on to be still if nothing new changes the session but a write of it. -/
theorem Orderly.still_cons (h : Orderly mode s w) {act : Act}
    (hroom : (∀ i e, act = .answer i e → seats e = false) →
      roomAt (w.next act).store s = roomAt w.store s) :
    ∀ act' past, (act' :: past) <:+ act :: w.past → (∀ i e, act' = .answer i e → seats e = false) →
      roomAt (storeOf (act' :: past)) s = roomAt (storeOf past) s := by
  intro act' past hsuffix hseats
  rcases List.suffix_cons_iff.1 hsuffix with hnow | hbefore
  · obtain ⟨rfl, rfl⟩ := List.cons.inj hnow
    rw [storeOf_cons h.replay, ← h.replay]
    exact hroom hseats
  · exact h.still act' past hbefore hseats

/-- As long as nothing is written, all stays as it is. -/
theorem orderly_next {act : Act} (hact : ¬ act.Writes) (hallows : w.Allows act)
    (hcrowd : Crowd mode s (act :: w.past)) (hw : Orderly mode s w) :
    Orderly mode s (w.next act) ∧ Onward s w (w.next act) := by
  have hlookup := lookup_next_of_not_writes hact hallows
  have hmapping : (w.next act).store.mappingAt s = w.store.mappingAt s := by
    unfold Memory.mappingAt
    rw [hlookup]
  refine ⟨⟨(storeOf_cons hw.replay act).symm, ?_, fun mapping h => ?_, fun k v hv => ?_,
    hw.still_cons fun _ => roomAt_of_lookup_eq hlookup s⟩, List.suffix_cons _ _,
    Memory.advances_of_lookup_eq hlookup, fun mapping h => hmapping.trans h⟩
  · exact available_next hw.available fun h => hcrowd.store (h ▸ List.mem_cons_self)
  · exact hw.meant mapping (hmapping.symm.trans h)
  · obtain ⟨x, hx, hid, hlodged⟩ := hw.stored k v ((hlookup _).symm.trans hv)
    exact ⟨x, hx, hid, { hlodged with mapped := hmapping.trans hlodged.mapped }⟩

/-- Order in a crowd. -/
def crowd (mode : Mode) (s : String) : Discipline where
  assumes := Crowd mode s
  inv := Orderly mode s
  le := Onward s
  refl := onward_refl s
  trans := Onward.trans
  assumes_tail h := h.of_suffix (List.suffix_cons _ _)
  quiet hact hallows hcrowd hw := orderly_next hact hallows hcrowd hw

/-! ### Writes -/

/-- A write that is made is in what the past makes of the store. -/
theorem storeOf_written {key value : String} {expected : Option Nat} (hw : Orderly mode s w)
    (hversion : (w.store.lookup key).map Versioned.version = expected) :
    (w.written i key value expected).store = storeOf (w.written i key value expected).past := by
  have hnext : w.next
      (.answer i ⟨.putIf key value expected, .ok (.written (w.store.nextVersion key))⟩) =
        w.written i key value expected :=
    next_eq_written hw.available hversion
  rw [← hnext]
  exact (storeOf_cons hw.replay _).symm

/-- The mapping is written where there is none. Nothing leads to a session yet. -/
theorem orderly_written_mapping {m : Meeting} (hw : Orderly mode s w) (hm : Meant mode s m)
    (hnone : w.store.lookup (mappingKey s) = none) (i : Nat) :
    let w' := w.written i (mappingKey s) (Mapping.ofMeeting m).encode none
    Orderly mode s w' ∧ Onward s w w' ∧ w'.store.mappingAt s = some (.ofMeeting m) := by
  intro w'
  have hversion : (w.store.lookup (mappingKey s)).map Versioned.version = none := by
    rw [hnone, Option.map_none]
  have hbefore : w.store.mappingAt s = none := Memory.mappingAt_eq_none_iff.2 hnone
  have hat : w'.store.mappingAt s = some (.ofMeeting m) :=
    (Memory.mappingAt_insert_encode ..).trans (if_pos rfl)
  -- A session that is stored has a mapping to it.
  have hempty : ∀ k, w.store.lookup (sessionKey k) = none := fun k => by
    cases hlookup : w.store.lookup (sessionKey k) with
    | none => rfl
    | some v =>
      obtain ⟨x, -, -, hlodged⟩ := hw.stored k v hlookup
      exact absurd (hlodged.mapped.symm.trans hbefore) (Option.some_ne_none _)
  have hempty' : ∀ k, w'.store.lookup (sessionKey k) = none := fun k =>
    (Memory.lookup_insert_mapping ..).trans (hempty k)
  refine ⟨⟨storeOf_written hw hversion, hw.available, fun mapping h => ?_, fun k v hv => ?_, ?_⟩,
    ⟨List.suffix_cons _ _, Memory.advances_insert w.store _ _, fun mapping h => ?_⟩, hat⟩
  · exact ⟨m, hm, (Option.some.inj (hat.symm.trans h)).symm⟩
  · exact absurd (hv.symm.trans (hempty' k)) (Option.some_ne_none v)
  · refine hw.still_cons fun _ => ?_
    rw [next_eq_written hw.available hversion, roomAt_of_mappingAt hat, roomAt, hbefore,
      Memory.sessionAt, hempty']
    rfl
  · exact absurd (h.symm.trans hbefore) (Option.some_ne_none mapping)

/-- The session is written in its meeting. -/
theorem orderly_written_session {x : Session} {expected : Option Nat} (hw : Orderly mode s w)
    (hx : Lodged w.store s x)
    (hversion : (w.store.lookup (sessionKey x.meetingId)).map Versioned.version = expected)
    (i : Nat) :
    let w' := w.written i (sessionKey x.meetingId) x.encode expected
    Orderly mode s w' ∧ Onward s w w' ∧ roomAt w'.store s = some x := by
  intro w'
  have hmapping : w'.store.mappingAt s = w.store.mappingAt s := Memory.mappingAt_insert_session ..
  have hlodged : ∀ y, Lodged w.store s y → Lodged w'.store s y := fun y hy =>
    { hy with mapped := hmapping.trans hy.mapped }
  refine ⟨⟨storeOf_written hw hversion, hw.available, fun mapping h => ?_, fun k v hv => ?_, ?_⟩,
    ⟨List.suffix_cons _ _, Memory.advances_insert w.store _ _, fun mapping h => ?_⟩, ?_⟩
  · exact hw.meant mapping (hmapping.symm.trans h)
  · replace hv : (w.store.insert _ _).lookup _ = _ := hv
    rw [Memory.lookup_insert_session] at hv
    split at hv
    · rename_i hk
      subst hk
      obtain rfl := Option.some.inj hv
      exact ⟨x, Session.decode_encode hx.timed, rfl, hlodged x hx⟩
    · obtain ⟨y, hy, hid, hylodged⟩ := hw.stored k v hv
      exact ⟨y, hy, hid, hlodged y hylodged⟩
  -- The write seats someone, so that it changes the session is no concern of `still`.
  · refine hw.still_cons fun hseats => ?_
    have hkey : isSessionKey (sessionKey x.meetingId) = false := hseats i _ rfl
    rw [isSessionKey_sessionKey] at hkey
    exact nomatch hkey
  · exact hmapping.trans h
  · have hat : w'.store.mappingAt s = some x.mapping := hmapping.trans hx.mapped
    rw [roomAt_of_mappingAt hat]
    exact (Memory.sessionAt_insert_encode _ _ _ hx.timed _).trans (if_pos rfl)

end VoiceRoom.Concurrency
