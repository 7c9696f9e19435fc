import Mathlib.Data.List.Count
import VoiceRoom.Proofs.Concurrency.Chronicle

/-!
# Who wrote what

The past tells how often a request wrote (`tally`), and which requests made the roster of a meeting
longer (`appenders`). A request that only reads and waits changes neither (`Discipline.Rests`).
-/

namespace VoiceRoom.Concurrency

open Discipline
open Simulation (Entry)

variable {D : Discipline} {i j : Nat} {u v w : World} {e : Entry} {p : Entry → Bool}

/-! ### How often a request wrote -/

/-- Whether a key is that of a mapping. -/
def isMappingKey (key : String) : Bool :=
  "game:".toList.isPrefixOf key.toList

/-- The key of a session is not the key of a mapping. -/
theorem isMappingKey_sessionKey (k : String) : isMappingKey (sessionKey k) = false := by
  unfold isMappingKey sessionKey
  rw [String.toList_append]
  rfl

/-- Whether a mapping was written. -/
def maps : Entry → Bool
  | ⟨.putIf key _ _, .ok (.written _)⟩ => isMappingKey key
  | _ => false

/-- Whether only writes are such entries. -/
def Effective (p : Entry → Bool) : Prop :=
  ∀ i e, p e = true → (Act.answer i e).Writes

/-- Only writes map a session id. -/
theorem effective_maps : Effective maps := by
  intro i e h
  unfold maps at h
  split at h
  · trivial
  · exact nomatch h

/-- Only writes seat a user. -/
theorem effective_seats : Effective seats := by
  intro i e h
  unfold seats at h
  split at h
  · trivial
  · exact nomatch h

/-- How many entries of a task are such. -/
def tally (p : Entry → Bool) (i : Nat) (past : List Act) : Nat :=
  (own i past).countP p

/-- Of no calls there are none to count. -/
theorem tally_of_own_eq_nil {past : List Act} (h : own i past = []) : tally p i past = 0 := by
  rw [tally, h, List.countP_nil]

/-- A call of the task itself is counted if it is to be counted. -/
theorem tally_answer_self (e : Entry) (past : List Act) :
    tally p i (.answer i e :: past) = tally p i past + if p e then 1 else 0 := by
  rw [tally, own_answer_self, List.countP_cons, tally]

/-- Calls of other tasks are not counted. -/
theorem tally_answer_of_ne (h : j ≠ i) (e : Entry) (past : List Act) :
    tally p i (.answer j e :: past) = tally p i past := by
  rw [tally, own_answer_of_ne h, tally]

/-- Who was counted for nothing is counted once at most. -/
theorem tally_answer_le_one {past : List Act} (h : ∀ j, tally p j past ≤ 1)
    (hnew : p e = true → tally p i past = 0) (j : Nat) : tally p j (.answer i e :: past) ≤ 1 := by
  by_cases hj : i = j
  · subst hj
    rw [tally_answer_self]
    split
    · rename_i he
      rw [hnew he]
    · exact h i
  · rw [tally_answer_of_ne hj]
    exact h j

/-- Only a write is counted. -/
theorem tally_cons_of_not_writes (hp : Effective p) {act : Act} (hact : ¬ act.Writes) (i : Nat)
    (past : List Act) : tally p i (act :: past) = tally p i past := by
  cases act with
  | start job => rfl
  | switch available => rfl
  | answer j e =>
    by_cases hj : j = i
    · subst hj
      rw [tally_answer_self, if_neg fun h => hact (hp j e h), Nat.add_zero]
    · exact tally_answer_of_ne hj e past

/-- Who rests is counted for nothing. -/
theorem tally_of_rests (hp : Effective p) (h : D.Rests i u v) :
    tally p i v.past = tally p i u.past := by
  obtain ⟨entries, hown, hquiet⟩ := h.own
  have hnone : entries.countP p = 0 :=
    List.countP_eq_zero.2 fun e he hpe => hquiet e he (hp i e hpe)
  rw [tally, hown, List.countP_append, hnone, Nat.zero_add, tally]

/-- A task at rest loses none of its calls. -/
theorem mem_own_of_rests (h : D.Rests i u v) (he : e ∈ own i u.past) : e ∈ own i v.past := by
  obtain ⟨entries, hown, -⟩ := h.own
  rw [hown]
  exact List.mem_append_right entries he

/-- A key holds what it held unless it is written. -/
theorem lookup_next_of_spared (key : String) {act : Act} (hallows : w.Allows act)
    (hspared : ∀ i value expected n,
      act ≠ .answer i ⟨.putIf key value expected, .ok (.written n)⟩) :
    (w.next act).store.lookup key = w.store.lookup key := by
  by_cases hwrites : act.Writes
  · unfold Act.Writes at hwrites
    split at hwrites
    · rename_i i k value expected n
      rcases putIf_cases hallows with ⟨hup, hversion, hr⟩ | ⟨-, -, hr⟩ | ⟨-, hr⟩
      · obtain rfl : n = w.store.nextVersion k := by cases hr; rfl
        rw [next_eq_written hup hversion]
        have hkey : key ≠ k := by
          rintro rfl
          exact hspared i value expected _ rfl
        exact (Memory.lookup_insert ..).trans (if_neg hkey)
      · exact nomatch hr
      · exact nomatch hr
    · exact hwrites.elim
  · exact lookup_next_of_not_writes hwrites hallows key

/-! ### Who made a roster longer -/

/-- The members in a meeting, none if there is no session in it. -/
def rosterAt (m : Memory) (meetingId : String) : List Member :=
  (m.sessionAt meetingId).elim [] Session.users

/-- The roster of a meeting is that of the session there. -/
theorem rosterAt_of_sessionAt {m : Memory} {k : String} {x : Session}
    (h : m.sessionAt k = some x) : rosterAt m k = x.users := by
  rw [rosterAt, h, Option.elim_some]

/-- Without a record there is nobody. -/
theorem rosterAt_of_lookup_eq_none {m : Memory} {k : String}
    (h : m.lookup (sessionKey k) = none) : rosterAt m k = [] := by
  rw [rosterAt, Memory.sessionAt_of_lookup_eq_none h, Option.elim_none]

/-- The roster of a meeting depends on its record only. -/
theorem rosterAt_of_lookup_eq {m m' : Memory} {k : String}
    (h : m'.lookup (sessionKey k) = m.lookup (sessionKey k)) : rosterAt m' k = rosterAt m k := by
  rw [rosterAt, rosterAt, Memory.sessionAt, Memory.sessionAt, h]

/-- Nobody leaves a roster. -/
theorem rosterAt_prefix_of_grows (h : Grows v w) (hfresh : FreshGrants w.past) (k : String) :
    rosterAt v.store k <+: rosterAt w.store k := by
  cases hx : v.store.sessionAt k with
  | none =>
    rw [rosterAt, hx]
    exact List.nil_prefix
  | some x =>
    obtain ⟨y, hy, hcontinues⟩ := h.sessions hfresh k x hx
    rw [rosterAt_of_sessionAt hx, rosterAt_of_sessionAt hy]
    exact hcontinues.users

/-- The task that makes the roster of a meeting longer, if one does. -/
def appender (meetingId : String) (past : List Act) : Act → Option Nat
  | .answer i e =>
    if seats e ∧ (rosterAt (storeOf past) meetingId).length <
        (rosterAt (storeOf (.answer i e :: past)) meetingId).length then some i
    else none
  | _ => none

/-- The tasks that made the roster of a meeting longer, one for each time, latest first. -/
def appenders (meetingId : String) : List Act → List Nat
  | [] => []
  | act :: past => (appender meetingId past act).toList ++ appenders meetingId past

variable {k : String} {past past' new : List Act} {act : Act}

/-- Who makes a roster longer does it by a call that seats. -/
theorem eq_answer_of_appender (h : appender k past act = some i) :
    ∃ e, act = .answer i e ∧ seats e = true := by
  cases act with
  | start job => exact nomatch h
  | switch available => exact nomatch h
  | answer j e =>
    dsimp only [appender] at h
    split at h
    · rename_i hseats
      obtain rfl := Option.some.inj h
      exact ⟨e, rfl, hseats.1⟩
    · exact nomatch h

/-- Who makes the roster of a meeting longer writes its record. -/
theorem eq_putIf_of_appender (hallows : (worldOf past).Allows act)
    (h : appender k past act = some i) : ∃ value expected n,
      act = .answer i ⟨.putIf (sessionKey k) value expected, .ok (.written n)⟩ := by
  by_contra hnone
  obtain ⟨e, rfl, hseats⟩ := eq_answer_of_appender h
  have hlookup := lookup_next_of_spared (sessionKey k) hallows
    fun j value expected n hact => hnone ⟨value, expected, n, by cases hact; rfl⟩
  dsimp only [appender] at h
  rw [if_neg] at h
  · exact nomatch h
  · rintro ⟨-, hlonger⟩
    have hroster : rosterAt (storeOf (.answer i e :: past)) k = rosterAt (storeOf past) k :=
      rosterAt_of_lookup_eq hlookup
    rw [hroster] at hlonger
    exact Nat.lt_irrefl _ hlonger

/-- No other call makes a roster longer. -/
theorem appender_of_not_seats (h : seats e = false) : appender k past (.answer i e) = none := by
  dsimp only [appender]
  rw [h, if_neg fun hseats => nomatch hseats.1]

/-- Nobody is added to the list by what makes no roster longer. -/
theorem appenders_cons_of_none (h : appender k past act = none) :
    appenders k (act :: past) = appenders k past := by
  rw [appenders, h, Option.toList_none, List.nil_append]

/-- What writes nothing makes no roster longer. -/
theorem appenders_cons_of_not_writes (hact : ¬ act.Writes) :
    appenders k (act :: past) = appenders k past := by
  refine appenders_cons_of_none ?_
  cases happender : appender k past act with
  | none => rfl
  | some i =>
    obtain ⟨e, rfl, hseats⟩ := eq_answer_of_appender happender
    exact absurd (effective_seats i e hseats) hact

/-- Who made a roster longer in the meantime wrote the record in the meantime. -/
theorem appenders_append (hallowed : ∀ act p, act :: p <:+ new ++ past → (worldOf p).Allows act) :
    ∃ l, appenders k (new ++ past) = l ++ appenders k past ∧ ∀ i ∈ l, ∃ value expected n,
      .answer i ⟨.putIf (sessionKey k) value expected, .ok (.written n)⟩ ∈ new := by
  induction new with
  | nil => exact ⟨[], rfl, fun _ h => nomatch h⟩
  | cons act new ih =>
    obtain ⟨l, hl, hwrote⟩ := ih fun act' p hp => hallowed act' p (hp.trans (List.suffix_cons _ _))
    refine ⟨(appender k (new ++ past) act).toList ++ l, ?_, fun i hi => ?_⟩
    · rw [List.cons_append, appenders, hl, List.append_assoc]
    · rcases List.mem_append.1 hi with hlast | hbefore
      · obtain ⟨value, expected, n, rfl⟩ := eq_putIf_of_appender
          (hallowed act _ (List.suffix_refl _)) (Option.mem_toList.1 hlast)
        exact ⟨value, expected, n, List.mem_cons_self⟩
      · obtain ⟨value, expected, n, hmem⟩ := hwrote i hbefore
        exact ⟨value, expected, n, List.mem_cons_of_mem act hmem⟩

/-- A task makes rosters longer by writing sessions. -/
theorem count_appenders_le_tally (k : String) (i : Nat) (past : List Act) :
    (appenders k past).count i ≤ tally seats i past := by
  induction past with
  | nil => exact Nat.le_refl 0
  | cons act past ih =>
    rw [appenders, List.count_append]
    -- What happens last makes the roster longer, and is a call that seats, or does not.
    cases happender : appender k past act with
    | none =>
      have hle : tally seats i past ≤ tally seats i (act :: past) :=
        List.Sublist.countP_le ((List.sublist_cons_self act past).filterMap _)
      rw [Option.toList_none, List.count_nil]
      omega
    | some j =>
      obtain ⟨e, rfl, hseats⟩ := eq_answer_of_appender happender
      rw [Option.toList_some]
      by_cases hj : j = i
      · subst hj
        rw [tally_answer_self, if_pos hseats, List.count_singleton_self]
        omega
      · rw [tally_answer_of_ne hj, List.count_singleton, if_neg (by simpa using hj)]
        omega

/-- Who seats nobody is not on the list. -/
theorem not_mem_appenders (h : tally seats i past = 0) : i ∉ appenders k past := by
  have hcount := count_appenders_le_tally k i past
  rw [h] at hcount
  exact List.count_eq_zero.1 (Nat.le_zero.1 hcount)

/-- What a task appended to is settled when it writes no more sessions. -/
theorem mem_appenders_append (h : ∀ e ∈ own i new, seats e = false) :
    i ∈ appenders k (new ++ past) ↔ i ∈ appenders k past := by
  induction new with
  | nil => rfl
  | cons act new ih =>
    have htail : ∀ e ∈ own i new, seats e = false := fun e he =>
      h e (((List.suffix_cons act new).filterMap _).subset he)
    rw [List.cons_append, appenders, List.mem_append, ih htail]
    refine or_iff_right fun hmem => ?_
    obtain ⟨e, rfl, hseats⟩ := eq_answer_of_appender (Option.mem_toList.1 hmem)
    rw [h e (by rw [own_answer_self]; exact List.mem_cons_self)] at hseats
    exact nomatch hseats

/-- While a task is at rest it does not come on the list. -/
theorem mem_appenders_of_rests (h : D.Rests i u v) (hpast : u.past <:+ v.past) :
    i ∈ appenders k v.past ↔ i ∈ appenders k u.past := by
  obtain ⟨new, hnew⟩ := hpast
  obtain ⟨entries, hown, hquiet⟩ := h.own
  rw [← hnew] at hown ⊢
  rw [own_append] at hown
  refine mem_appenders_append fun e he => ?_
  rw [List.append_cancel_right hown] at he
  cases hseats : seats e with
  | false => rfl
  | true => exact absurd (effective_seats i e hseats) (hquiet e he)

end VoiceRoom.Concurrency
