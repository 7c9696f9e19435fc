import Mathlib.Data.List.Dedup
import VoiceRoom.Proofs.Concurrency.Logic
import VoiceRoom.Proofs.Store

/-!
# What the past tells of sessions

A request *touches* a session when it reads or writes the record of one. The last time that it does
is when what it comes to is settled: it has written, or will write no more. Requests in the order of
their last touches (`order`) are in an order that agrees with real time (`sublist_order`).

The past also tells what the store held at any time (`storeOf`).
-/

namespace VoiceRoom.Concurrency

open Simulation (Entry)

/-! ### Touches -/

/-- Whether a key is that of a session. -/
def isSessionKey (key : String) : Bool :=
  "session:".toList.isPrefixOf key.toList

theorem isSessionKey_sessionKey (meetingId : String) : isSessionKey (sessionKey meetingId) := by
  unfold isSessionKey sessionKey
  rw [String.toList_append, List.isPrefixOf_iff_prefix]
  exact List.prefix_append _ _

theorem isSessionKey_mappingKey (s : String) : isSessionKey (mappingKey s) = false := by
  unfold isSessionKey mappingKey
  rw [String.toList_append]
  rfl

/-- Whether a session was written. -/
def seats : Entry → Bool
  | ⟨.putIf key _ _, .ok (.written _)⟩ => isSessionKey key
  | _ => false

/-- Whether a session was read or written. -/
def touches : Entry → Bool
  | ⟨.get key, _⟩ => isSessionKey key
  | e => seats e

/-- Whoever writes a session touches it. -/
theorem touches_of_seats {e : Entry} (h : seats e = true) : touches e = true := by
  obtain ⟨c, r⟩ := e
  cases c with
  | get key => exact nomatch h
  | _ => exact h

/-- An idle call touches nothing. -/
theorem touches_of_idle {e : Entry} (h : Idle e.call) : touches e = false := by
  obtain ⟨c, r⟩ := e
  cases c with
  | get key => exact h.elim
  | putIf key value expected => exact h.elim
  | _ => rfl

theorem seats_of_not_touches {e : Entry} (h : touches e = false) : seats e = false := by
  cases hseats : seats e with
  | false => rfl
  | true => rw [touches_of_seats hseats] at h; exact h

/-- The task that touches a session, if one does. -/
def toucher : Act → Option Nat
  | .answer i e => if touches e then some i else none
  | _ => none

/-- Only an answered call that touches a session has a toucher, its task. -/
theorem toucher_eq_some_iff {act : Act} {i : Nat} :
    toucher act = some i ↔ ∃ e, act = .answer i e ∧ touches e = true := by
  cases act with
  | answer j e =>
    show (if touches e then some j else none) = some i ↔ _
    constructor
    · intro h
      split at h
      · rename_i htouches
        obtain rfl := Option.some.inj h
        exact ⟨e, rfl, htouches⟩
      · exact nomatch h
    · rintro ⟨e', hact, htouches⟩
      cases hact
      exact if_pos htouches
  | start job => exact ⟨fun h => (nomatch h), fun ⟨_, h, _⟩ => (nomatch h)⟩
  | switch available => exact ⟨fun h => (nomatch h), fun ⟨_, h, _⟩ => (nomatch h)⟩

/-- The tasks in the order of their touches, latest first. -/
def touchers (past : List Act) : List Nat :=
  past.filterMap toucher

/-- A task is among the touchers if one of its own calls touched a session. -/
theorem mem_touchers_iff {past : List Act} {i : Nat} :
    i ∈ touchers past ↔ ∃ e ∈ own i past, touches e = true := by
  unfold touchers own
  simp only [List.mem_filterMap, toucher_eq_some_iff]
  constructor
  · rintro ⟨_, hmem, e, rfl, htouches⟩
    exact ⟨e, ⟨.answer i e, hmem, if_pos rfl⟩, htouches⟩
  · rintro ⟨e, ⟨act, hmem, hact⟩, htouches⟩
    -- Only an answer of the task itself is among its own calls.
    cases act with
    | answer j e' =>
      dsimp only at hact
      split at hact
      · rename_i hj
        subst hj
        obtain rfl := Option.some.inj hact
        exact ⟨_, hmem, e', rfl, htouches⟩
      · exact nomatch hact
    | start job => exact nomatch hact
    | switch available => exact nomatch hact

/-- The calls of a task come in the order of the past. -/
theorem own_append (i : Nat) (past past' : List Act) :
    own i (past ++ past') = own i past ++ own i past' :=
  List.filterMap_append

/-! ### Last touches -/

/-- The last touch of a task, with all that happened before. -/
structure LastTouch (i : Nat) (past : List Act) (e : Entry) (before : List Act) : Prop where
  touches : touches e = true
  split : ∃ after, past = after ++ .answer i e :: before ∧ i ∉ touchers after

namespace LastTouch

variable {i : Nat} {past before new : List Act} {e : Entry}

/-- A touch that just happened is the last one. -/
theorem now (h : Concurrency.touches e = true) : LastTouch i (.answer i e :: past) e past :=
  ⟨h, [], rfl, fun hmem => nomatch hmem⟩

/-- It stays the last one while the task touches nothing. -/
theorem append (h : LastTouch i past e before) (hnew : i ∉ touchers new) :
    LastTouch i (new ++ past) e before := by
  obtain ⟨after, rfl, hafter⟩ := h.split
  refine ⟨h.touches, new ++ after, (List.append_assoc ..).symm, fun hmem => ?_⟩
  rw [touchers, List.filterMap_append, List.mem_append] at hmem
  exact hmem.elim hnew hafter

theorem suffix (h : LastTouch i past e before) : (.answer i e :: before) <:+ past := by
  obtain ⟨after, rfl, -⟩ := h.split
  exact List.suffix_append _ _

theorem mem_touchers (h : LastTouch i past e before) : i ∈ touchers past := by
  refine mem_touchers_iff.2 ⟨e, ?_, h.touches⟩
  obtain ⟨after, rfl, -⟩ := h.split
  rw [own_append, own_answer_self]
  exact List.mem_append_right _ List.mem_cons_self

/-- A touch is the last one, or comes before the last one. -/
theorem cases_of_touch (h : LastTouch i past e before) {after' before' : List Act} {e' : Entry}
    (hpast : past = after' ++ .answer i e' :: before') (htouches : Concurrency.touches e' = true) :
    (i ∉ touchers after' ∧ e' = e ∧ before' = before) ∨
      (i ∈ touchers after' ∧ e' ∈ own i before) := by
  obtain ⟨after, hsplit, hafter⟩ := h.split
  rw [hpast] at hsplit
  have hmem : ∀ {e : Entry} {past : List Act}, Concurrency.touches e = true →
      .answer i e ∈ past → i ∈ touchers past := fun he hact =>
    List.mem_filterMap.2 ⟨_, hact, toucher_eq_some_iff.2 ⟨_, rfl, he⟩⟩
  -- The two splits of the past are compared: one of the touches is later, or they are the same.
  rcases List.append_eq_append_iff.1 hsplit with ⟨mid, rfl, hmid⟩ | ⟨mid, rfl, hmid⟩
  · -- The touch comes after the last one, or is the last one.
    cases mid with
    | nil =>
      rw [List.append_nil] at hafter
      cases hmid
      exact .inl ⟨hafter, rfl, rfl⟩
    | cons act mid =>
      obtain ⟨rfl, -⟩ := List.cons.inj hmid
      exact absurd (hmem htouches (List.mem_append_right _ List.mem_cons_self)) hafter
  · cases mid with
    | nil =>
      cases hmid
      rw [List.append_nil]
      exact .inl ⟨hafter, rfl, rfl⟩
    | cons act mid =>
      obtain ⟨rfl, rfl⟩ := List.cons.inj hmid
      right
      constructor
      · exact hmem h.touches (List.mem_append_right _ List.mem_cons_self)
      -- The other touch is earlier, so it is among what happened before the last one.
      · show e' ∈ own i (mid ++ .answer i e' :: before')
        rw [own_append, own_answer_self]
        exact List.mem_append_right _ List.mem_cons_self

end LastTouch

/-! ### The order of requests -/

/-- The tasks in the order of their last touches. -/
def order (past : List Act) : List Nat :=
  (touchers past).reverse.dedup

/-- Nobody is listed twice. -/
theorem nodup_order (past : List Act) : (order past).Nodup :=
  List.nodup_dedup _

/-- Everybody who touched a session is listed. -/
theorem mem_order_iff {past : List Act} {i : Nat} : i ∈ order past ↔ i ∈ touchers past := by
  rw [order, List.mem_dedup, List.mem_reverse]

/-- In a list without its repetitions, what does not occur later comes before what only does. -/
theorem sublist_dedup_append {i j : Nat} {l l' : List Nat} (hi : i ∈ l) (hi' : i ∉ l')
    (hj : j ∉ l) (hj' : j ∈ l') : [i, j].Sublist (l ++ l').dedup := by
  -- Only the last occurrence of `k` is kept.
  induction l with
  | nil => exact nomatch hi
  | cons k l ih =>
    have hjl : j ∉ l := fun h => hj (List.mem_cons_of_mem k h)
    rw [List.cons_append]
    by_cases hk : k ∈ l ++ l'
    · rw [List.dedup_cons_of_mem hk]
      refine ih ?_ hjl
      rcases List.mem_cons.1 hi with rfl | hil
      · exact (List.mem_append.1 hk).resolve_right hi'
      · exact hil
    · rw [List.dedup_cons_of_notMem hk]
      rcases List.mem_cons.1 hi with rfl | hil
      · have hjmem : j ∈ (l ++ l').dedup := List.mem_dedup.2 (List.mem_append_right l hj')
        exact (List.singleton_sublist.2 hjmem).cons_cons i
      · exact (ih hil hjl).cons k

/-- The order agrees with real time: who is done with touches comes before who has not begun. -/
theorem sublist_order {i j : Nat} {past new : List Act} (hi : i ∈ touchers past)
    (hi' : i ∉ touchers new) (hj : j ∉ touchers past) (hj' : j ∈ touchers new) :
    [i, j].Sublist (order (new ++ past)) := by
  unfold order
  rw [touchers, List.filterMap_append, List.reverse_append]
  exact sublist_dedup_append (List.mem_reverse.2 hi) (mt List.mem_reverse.1 hi')
    (mt List.mem_reverse.1 hj) (List.mem_reverse.2 hj')

/-! ### The store as it was -/

/-- What the store held after all that happened. -/
def storeOf : List Act → Memory
  | [] => {}
  | act :: past => (World.next ⟨storeOf past, past⟩ act).store

/-- If the past makes the store, so does the past with what happens next. -/
theorem storeOf_cons {w : World} (h : w.store = storeOf w.past) (act : Act) :
    storeOf (act :: w.past) = (w.next act).store := by
  show (World.next ⟨storeOf w.past, w.past⟩ act).store = (w.next act).store
  rw [← h]

/-- The store goes on answering unless it is switched off. -/
theorem available_next {w : World} {act : Act} (hup : w.store.available = true)
    (hact : act ≠ .switch false) : (w.next act).store.available = true := by
  cases act with
  | start job => exact hup
  | switch available =>
    cases available with
    | true => rfl
    | false => exact absurd rfl hact
  | answer i e =>
    obtain ⟨c, r⟩ := e
    cases c with
    | putIf key value expected =>
      -- A conditional write may change a record, but not whether the store answers.
      show (w.store.putIf key value expected).2.available = true
      unfold Memory.putIf
      rw [if_pos hup]
      split
      · exact hup
      · exact hup
    | _ => exact hup

/-- The session that a session id leads to. -/
def roomAt (m : Memory) (s : String) : Option Session :=
  (m.mappingAt s).bind fun mapping => m.sessionAt mapping.meetingId

/-- A room is looked up where the mapping leads. -/
theorem roomAt_of_mappingAt {m : Memory} {s : String} {mapping : Mapping}
    (h : m.mappingAt s = some mapping) : roomAt m s = m.sessionAt mapping.meetingId := by
  rw [roomAt, h, Option.bind_some]

/-- Stores that hold the same have the same rooms. -/
theorem roomAt_of_lookup_eq {m m' : Memory} (h : ∀ key, m'.lookup key = m.lookup key) (s : String) :
    roomAt m' s = roomAt m s := by
  unfold roomAt Memory.mappingAt Memory.sessionAt
  simp only [h]

end VoiceRoom.Concurrency
