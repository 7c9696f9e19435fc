import VoiceRoom.Proofs.Concurrency.Visits
import VoiceRoom.Proofs.Conduct.Timing
import VoiceRoom.Proofs.Conduct.Writers

/-!
# Rosters are chronological

On a clock that never goes back, every session that is ever stored was made before its members
joined, and lists them as they came (`chronological_of_run`). What requests read is what was stored
before, so the invariant says of every stored session that it is chronological and that its times
were on the clock already; any time that is read later is then no earlier. Which meetings the
provider gives does not matter.
-/

namespace VoiceRoom.Concurrency

open Conduct
open Simulation (Entry)

variable {appId : String} {σ : System} {past p q : List Act} {i : Nat} {t : Int}

/-! ### The clock -/

/-- What the clock showed, latest first. -/
def readings (past : List Act) : List Int :=
  past.filterMap fun
    | .answer _ ⟨.now, t⟩ => some t
    | _ => none

/-- The clock never went back. -/
def Steady (past : List Act) : Prop :=
  (readings past).Pairwise fun later earlier => earlier ≤ later

theorem readings_suffix (h : p <:+ past) : readings p <:+ readings past :=
  h.filterMap _

theorem Steady.of_suffix (h : Steady past) (hp : p <:+ past) : Steady p :=
  List.Pairwise.sublist (readings_suffix hp).sublist h

/-- What a task read off the clock is a reading. -/
theorem mem_readings_of_own (h : ⟨.now, t⟩ ∈ own i past) : t ∈ readings past :=
  List.mem_filterMap.2 ⟨_, mem_own_iff.1 h, rfl⟩

/-- A steady clock shows nothing earlier than before. -/
theorem Steady.le (h : Steady past) (hp : .answer i ⟨.now, t⟩ :: p <:+ past) {t' : Int}
    (ht' : t' ∈ readings p) : t' ≤ t := by
  have hlast : Steady (.answer i ⟨.now, t⟩ :: p) := h.of_suffix hp
  exact List.rel_of_pairwise_cons hlast ht'

/-! ### What a request has seen -/

/-- Every stored session is chronological, and its times were on the clock. -/
def InOrder (past : List Act) : Prop :=
  ∀ k v, (storeOf past).lookup (sessionKey k) = some v →
    ∃ x, Session.decode v.value = .ok x ∧ x.Chronological ∧ ∀ t ∈ x.times, t ∈ readings past

section Requests

variable (hkept : Kept past) (horder : ∀ p, p <:+ past → InOrder p)

include hkept horder

/-- A session that was read was in order when it was read. -/
theorem order_of_read {k : String} {v : Versioned} {x : Session}
    (h : ⟨.get (sessionKey k), .ok (some v)⟩ ∈ own i past) (hx : Session.decode v.value = .ok x) :
    x.Chronological ∧ ∀ t ∈ x.times, t ∈ readings past := by
  obtain ⟨p, hp, hlookup⟩ := Shown.exists_lookup hkept (.read h)
  obtain ⟨y, hy, hchronological, htimes⟩ := horder p hp k v hlookup
  obtain rfl : x = y := Except.ok.inj (hx.symm.trans hy)
  exact ⟨hchronological, fun t ht => (readings_suffix hp).subset (htimes t ht)⟩

/-- A time that a task has seen was shown by the clock. -/
theorem mem_readings_of_seen (h : Seen (own i past) t) : t ∈ readings past := by
  cases h with
  | clock h => exact mem_readings_of_own h
  | record h hx ht => exact (order_of_read hkept horder h hx).2 t ht

/-- On a clock that never goes back, whatever a request is told goes forward. -/
theorem forward_own (hsteady : Steady past) : Forward (own i past) where
  clock t before hbefore t' ht' := by
    obtain ⟨p, hp, rfl⟩ := exists_answer_of_suffix hbefore
    have hsuffix : p <:+ past := (List.suffix_cons _ p).trans hp
    refine hsteady.le hp ?_
    exact mem_readings_of_seen (hkept.of_suffix hsuffix)
      (fun q hq => horder q (hq.trans hsuffix)) ht'
  records k v x hread hx := (order_of_read hkept horder hread hx).1

end Requests

/-! ### Every state -/

theorem InOrder.cons {act : Act} (hkept : Kept (act :: past))
    (hobeyed : ∀ i, timing.Obeyed (own i (act :: past))) (hsteady : Steady past)
    (horder : ∀ p, p <:+ past → InOrder p) : InOrder (act :: past) := by
  intro k v hlookup
  have hsuffix : past <:+ act :: past := List.suffix_cons act past
  have hallows : (worldOf past).Allows act := hkept.allowed act past (List.suffix_refl _)
  have hnext : storeOf (act :: past) = ((worldOf past).next act).store :=
    storeOf_cons (w := worldOf past) rfl act
  by_cases hwritten : ∃ i value expected n,
      act = .answer i ⟨.putIf (sessionKey k) value expected, .ok (.written n)⟩
  · obtain ⟨i, value, expected, n, rfl⟩ := hwritten
    rw [hnext, (next_of_written hallows).1, Memory.lookup_insert, if_pos rfl] at hlookup
    obtain rfl := Option.some.inj hlookup
    -- What is written is dated by what its writer was told.
    have hpermits := hobeyed i _ (own i past) (own_cons_suffix (List.suffix_refl _))
    obtain ⟨x, hx, hdated⟩ := hpermits k value expected rfl
    have hkept' : Kept past := hkept.of_suffix hsuffix
    refine ⟨x, hx, hdated.chronological (forward_own hkept' horder hsteady), ?_⟩
    intro t ht
    exact (readings_suffix hsuffix).subset
      (mem_readings_of_seen hkept' horder (hdated.seen t ht))
  · have hsame := lookup_next_of_spared (sessionKey k) hallows fun i value expected n hact =>
      hwritten ⟨i, value, expected, n, hact⟩
    rw [hnext, hsame] at hlookup
    obtain ⟨x, hx, hchronological, htimes⟩ := horder past (List.suffix_refl past) k v hlookup
    exact ⟨x, hx, hchronological, fun t ht => (readings_suffix hsuffix).subset (htimes t ht)⟩

/-- All along the records have been in order. -/
theorem inOrder_of_suffix (hkept : Kept past) (hobeyed : ∀ i, timing.Obeyed (own i past))
    (hsteady : Steady past) : ∀ p, p <:+ past → InOrder p := by
  induction past with
  | nil =>
    intro p hp k v hlookup
    obtain rfl := List.suffix_nil.1 hp
    exact nomatch hlookup
  | cons act past ih =>
    have hsuffix : past <:+ act :: past := List.suffix_cons act past
    have hbefore := ih (hkept.of_suffix hsuffix)
      (fun i e before h => hobeyed i e before (h.trans (hsuffix.filterMap _)))
      (hsteady.of_suffix hsuffix)
    intro p hp
    rcases List.suffix_cons_iff.1 hp with rfl | hp
    · exact InOrder.cons hkept hobeyed (hsteady.of_suffix hsuffix) hbefore
    · exact hbefore p hp

/-- Every task keeps to the rules about time. -/
theorem timing_obeyed_of_run (hrun : Run appId {} σ) (i : Nat) : timing.Obeyed (own i σ.past) := by
  intro e before hbefore
  obtain ⟨t, ht⟩ := exists_task_of_mem_own hrun (hbefore.subset List.mem_cons_self)
  have hcame := (underway_of_run hrun).task i t ht
  exact ((abides_timing appId t.job).came hcame).1 e before hbefore

/-- In every run on a clock that never goes back, every session that is stored was made before its
first member joined, and its members are listed in the order in which they joined. -/
theorem chronological_of_run (hrun : Run appId {} σ) (hsteady : Steady σ.past) {k : String}
    {v : Versioned} (hlookup : σ.store.lookup (sessionKey k) = some v) :
    ∃ x, Session.decode v.value = .ok x ∧
      (∀ m, x.users.head? = some m → x.createdAt ≤ m.joinedAt) ∧
      x.users.Pairwise fun earlier later => earlier.joinedAt ≤ later.joinedAt := by
  rw [storeOf_of_run hrun] at hlookup
  have horder := inOrder_of_suffix (kept_of_run hrun) (timing_obeyed_of_run hrun) hsteady
  obtain ⟨x, hx, hchronological, -⟩ := horder σ.past (List.suffix_refl _) k v hlookup
  obtain ⟨hfirst, hlater⟩ := List.pairwise_cons.1 hchronological
  refine ⟨x, hx, ?_, List.pairwise_map.1 hlater⟩
  intro m hm
  exact hfirst m.joinedAt (List.mem_map_of_mem (List.mem_of_mem_head? hm))

/-- The clock moved while two users raced each other. -/
theorem readings_afterRace : readings afterRace.past = [27, 21, 20, 14, 13] := by
  decide +kernel

/-- Of two users who raced each other the second one was made to wait. -/
theorem chronological_afterRace :
    Steady afterRace.past ∧ ∃ v, afterRace.store.lookup (sessionKey "m") = some v ∧
      ∃ x, Session.decode v.value = .ok x ∧
        (∀ m, x.users.head? = some m → x.createdAt ≤ m.joinedAt) ∧
        x.users.Pairwise fun earlier later => earlier.joinedAt ≤ later.joinedAt := by
  have hsteady : Steady afterRace.past := by
    rw [Steady, readings_afterRace]
    decide
  obtain ⟨v, hlookup, -⟩ := Memory.lookup_of_sessionAt stored_afterRace.2
  exact ⟨hsteady, v, hlookup, chronological_of_run run_afterRace hsteady hlookup⟩

end VoiceRoom.Concurrency
