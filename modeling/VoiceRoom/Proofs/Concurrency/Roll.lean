import Mathlib.Data.List.Forall2
import VoiceRoom.Proofs.Concurrency.Effects

/-!
# The roll

No request writes a mapping twice or a session twice, and the members in a meeting are those that
requests appended, one request for each member (`Attended`). This is kept by whatever writes
nothing, by a mapping that is written by a request that has written none
(`attended_written_mapping`), and by a session with one member more at most that is written by a
request that has written none (`attended_written_session`).
-/

namespace VoiceRoom.Concurrency

open Discipline
open Simulation (Entry)

variable {i : Nat} {v w : World} {s : String}

/-! ### Members and who brought them -/

/-- A task is a join that brings a member. -/
def Brought (past : List Act) (i : Nat) (m : Member) : Prop :=
  ∃ mode s r, (jobs past)[i]? = some (.join mode s r) ∧ r.validate = .ok m.userId ∧
    r.iconUrl = m.iconUrl

theorem Brought.of_suffix {past past' : List Act} {m : Member} (h : Brought past i m)
    (hsuffix : past <:+ past') : Brought past' i m := by
  obtain ⟨mode, s, r, hjob, hr⟩ := h
  exact ⟨mode, s, r, getElem?_jobs_of_suffix hsuffix hjob, hr⟩

/-- Members are named by the users of those who brought them. -/
theorem names_of_brought {past : List Act} {order : List Nat} {members : List Member}
    {user : Nat → String} (hbrought : List.Forall₂ (Brought past) order members)
    (huser : ∀ i ∈ order, ∃ mode s r, (jobs past)[i]? = some (.join mode s r) ∧
      r.validate = .ok (user i)) : members.map Member.userId = order.map user := by
  have hnamed := (List.forall₂_and_left order members).2 ⟨huser, hbrought⟩
  rw [← List.forall₂_eq_eq_eq, List.forall₂_map_left_iff, List.forall₂_map_right_iff]
  refine (hnamed.imp fun i m hm => ?_).flip
  obtain ⟨⟨mode, s, r, hjob, hvalid⟩, mode', s', r', hjob', hvalid', -⟩ := hm
  cases hjob.symm.trans hjob'
  exact Except.ok.inj (hvalid'.symm.trans hvalid)

/-- Who wrote what, at any time. -/
structure Attended (w : World) : Prop where
  once : ∀ i, tally maps i w.past ≤ 1 ∧ tally seats i w.past ≤ 1
  roll : ∀ k, List.Forall₂ (Brought w.past) (appenders k w.past).reverse (rosterAt w.store k)

theorem attended_empty : Attended {} where
  once _ := ⟨Nat.zero_le 1, Nat.zero_le 1⟩
  roll _ := .nil

/-- The roll may be read against a later past. -/
theorem Attended.roll_of_suffix (h : Attended w) {past : List Act} (hsuffix : w.past <:+ past)
    (k : String) : List.Forall₂ (Brought past) (appenders k w.past).reverse (rosterAt w.store k) :=
  (h.roll k).imp fun _ _ hm => hm.of_suffix hsuffix

/-- As long as nothing is written, all stays as it is. -/
theorem Attended.next {act : Act} (hact : ¬ act.Writes) (hallows : w.Allows act)
    (h : Attended w) : Attended (w.next act) where
  once i := by
    rw [World.past_next, tally_cons_of_not_writes effective_maps hact,
      tally_cons_of_not_writes effective_seats hact]
    exact h.once i
  roll k := by
    rw [World.past_next, appenders_cons_of_not_writes hact,
      rosterAt_of_lookup_eq (lookup_next_of_not_writes hact hallows _)]
    exact h.roll_of_suffix (List.suffix_cons _ _) k

/-- The ledger, and that every member is accounted for. -/
def attendance : Bylaw where
  assumes _ := True
  inv := Attended
  assumes_tail := id
  quiet hact hallows _ h := h.next hact hallows

/-- A call of a kind that the task made none of so far keeps every count at one or less. Every case
of the step lemma ends here. -/
theorem Attended.once_answer {past : List Act} {e : Entry}
    (h : ∀ j, tally maps j past ≤ 1 ∧ tally seats j past ≤ 1)
    (hmaps : maps e = true → tally maps i past = 0)
    (hseats : seats e = true → tally seats i past = 0) (j : Nat) :
    tally maps j (.answer i e :: past) ≤ 1 ∧ tally seats j (.answer i e :: past) ≤ 1 :=
  ⟨tally_answer_le_one (fun j => (h j).1) hmaps j,
    tally_answer_le_one (fun j => (h j).2) hseats j⟩

/-! ### Writes -/

/-- A mapping may be written by a request that has written none. -/
theorem attended_written_mapping {value : String} {expected : Option Nat}
    (hv : attendance.Inv v)
    (hassumes : attendance.Assumes (v.written i (mappingKey s) value expected).past)
    (hnew : tally maps i v.past = 0) :
    attendance.Inv (v.written i (mappingKey s) value expected) ∧
      Grows v (v.written i (mappingKey s) value expected) := by
  have hquiet : ∀ n, seats ⟨.putIf (mappingKey s) value expected, .ok (.written n)⟩ = false :=
    fun _ => isSessionKey_mappingKey s
  refine Bylaw.inv_written hv hassumes ⟨?_, fun k => ?_⟩
  · exact Attended.once_answer hv.own.once (fun _ => hnew)
      fun he => nomatch he.symm.trans (hquiet _)
  · have hroster : rosterAt (v.written i (mappingKey s) value expected).store k =
        rosterAt v.store k := rosterAt_of_lookup_eq (Memory.lookup_insert_mapping ..)
    show List.Forall₂ _ (appenders k (.answer i _ :: v.past)).reverse _
    rw [appenders_cons_of_none (appender_of_not_seats (hquiet _)), hroster]
    exact hv.own.roll_of_suffix (List.suffix_cons _ _) k

/-- Writing a session replaces the roster of its meeting and no other, so that only one roll is to
be looked at. -/
theorem rosterAt_written {x : Session} (htimed : x.Timed) (w : World) (i : Nat)
    (expected : Option Nat) (k : String) :
    rosterAt (w.written i (sessionKey x.meetingId) x.encode expected).store k =
      if k = x.meetingId then x.users else rosterAt w.store k := by
  show ((w.store.insert _ _).sessionAt k).elim [] Session.users = _
  rw [Memory.sessionAt_insert_encode _ _ _ htimed]
  split <;> rfl

/-- Writing a mapping seats nobody. -/
theorem unseated_written_mapping (s value : String) (expected : Option Nat)
    (h : tally seats i v.past = 0) :
    tally seats i (v.written i (mappingKey s) value expected).past = 0 := by
  show tally seats i (.answer i _ :: v.past) = 0
  rw [tally_answer_self, h, if_neg]
  rw [seats, isSessionKey_mappingKey]
  exact Bool.false_ne_true

/-- Who writes a session appends to the roster there if it gets longer. -/
theorem appenders_written {x : Session} {expected : Option Nat} (hv : attendance.Inv v)
    (hassumes : attendance.Assumes (v.written i (sessionKey x.meetingId) x.encode expected).past)
    (htimed : x.Timed) (k : String) :
    appenders k (v.written i (sessionKey x.meetingId) x.encode expected).past =
      if k = x.meetingId ∧ (rosterAt v.store x.meetingId).length < x.users.length then
        i :: appenders k v.past
      else appenders k v.past := by
  have hroster := rosterAt_written htimed v i expected k
  rw [← Bylaw.next_eq_of_assumes hv hassumes, ← storeOf_cons hv.replay] at hroster
  have hseats : ∀ n, seats ⟨.putIf (sessionKey x.meetingId) x.encode expected,
      .ok (.written n)⟩ = true := fun _ => isSessionKey_sessionKey x.meetingId
  show (appender k v.past (.answer i _)).toList ++ appenders k v.past = _
  dsimp only [appender]
  rw [hroster, ← hv.replay, hseats]
  -- Only the meeting of the session written can have a longer roster.
  by_cases hk : k = x.meetingId
  · subst hk
    simp only [if_true, true_and]
    split <;> rfl
  · simp only [hk, Nat.lt_irrefl, false_and, and_false, if_false]
    rfl

/-- A session may be written by a request that has written none, with the members that were there
or with the one that the request brings. -/
theorem attended_written_session {x : Session} {expected : Option Nat} (hv : attendance.Inv v)
    (hassumes : attendance.Assumes (v.written i (sessionKey x.meetingId) x.encode expected).past)
    (hunseated : tally seats i v.past = 0) (htimed : x.Timed)
    (hroster : x.users = rosterAt v.store x.meetingId ∨
      ∃ m, Brought v.past i m ∧ x.users = rosterAt v.store x.meetingId ++ [m]) :
    attendance.Inv (v.written i (sessionKey x.meetingId) x.encode expected) ∧
      Grows v (v.written i (sessionKey x.meetingId) x.encode expected) := by
  have hsuffix := past_suffix_written v i (sessionKey x.meetingId) x.encode expected
  have hquiet : ∀ n, maps ⟨.putIf (sessionKey x.meetingId) x.encode expected,
      .ok (.written n)⟩ = false := fun _ => isMappingKey_sessionKey x.meetingId
  refine Bylaw.inv_written hv hassumes ⟨?_, fun k => ?_⟩
  · exact Attended.once_answer hv.own.once (fun he => nomatch he.symm.trans (hquiet _))
      fun _ => hunseated
  · have hroll := hv.own.roll_of_suffix hsuffix k
    rw [appenders_written hv hassumes htimed, rosterAt_written htimed]
    -- The other rolls stay; that of the meeting stays as well, or gets its newest name.
    by_cases hk : k = x.meetingId
    · subst hk
      rw [if_pos rfl]
      rcases hroster with hsame | ⟨m, hm, happended⟩
      · rw [hsame, if_neg fun h => Nat.lt_irrefl _ h.2]
        exact hroll
      · rw [happended, List.length_append, if_pos ⟨rfl, Nat.lt_succ_self _⟩, List.reverse_cons]
        exact List.rel_append hroll (.cons (hm.of_suffix hsuffix) .nil)
    · rw [if_neg hk, if_neg fun h => hk h.1]
      exact hroll

end VoiceRoom.Concurrency
