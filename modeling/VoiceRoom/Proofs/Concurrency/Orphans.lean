import VoiceRoom.Proofs.Concurrency.FullRoom
import VoiceRoom.Proofs.Concurrency.Visits
import VoiceRoom.Proofs.Conduct.Orphans
import VoiceRoom.Proofs.Conduct.Writers

/-!
# Orphaned meetings

A join that was given a meeting and lost the race for the mapping leaves its meeting orphaned. If it
is let in after all, it has warned of that, once; and it has warned of nothing if its meeting is the
one that counts. A join that is not let in does not warn at all, so its meeting is reported only if
there is nothing to report (`orphans_disclosed`). It needs no failure for that: the room may be full
when it comes back (`orphan_undisclosed`).
-/

namespace VoiceRoom.Concurrency

open Conduct
open Simulation (Entry)

variable {appId : String} {σ : System} {i : Nat} {s meetingId : String} {r : JoinRequest}

/-- A session id leads to a meeting. -/
def PointsTo (m : Memory) (s meetingId : String) : Prop :=
  ∃ mapping, m.mappingAt s = some mapping ∧ mapping.meetingId = meetingId

/-- A task has warned, exactly once, that a meeting is orphaned if the session id does not lead to
it. If it does, the task has not warned. -/
structure Disclosed (σ : System) (i : Nat) (s meetingId : String) : Prop where
  orphaned : ¬ PointsTo σ.store s meetingId →
    warnings (own i σ.past) = [.meetingOrphaned s meetingId]
  mapped : PointsTo σ.store s meetingId → warnings (own i σ.past) = []

/-- In mock mode the provider gives nothing. -/
theorem mode_of_given (hrun : Run appId {} σ) {mode : Mode} {outcome : Outcome}
    (hfinished : σ.Finished i (.join mode s r) outcome) {title : String}
    (hgiven : ⟨.createMeeting title, .ok meetingId⟩ ∈ own i σ.past) : mode = .real := by
  cases mode with
  | real => rfl
  | mock =>
    have hnone : inquiries (own i σ.past) = [] :=
      inquiries_of_mock (obeyed_of_run hrun hfinished) rfl
    have hasked : ⟨.createMeeting title, .ok meetingId⟩ ∈ inquiries (own i σ.past) :=
      mem_inquiries_iff.2 ⟨hgiven, rfl⟩
    rw [hnone] at hasked
    exact nomatch hasked

/-- What a finished join in real mode has warned of. -/
theorem confessed_of_finished (hrun : Run appId {} σ) {outcome : Outcome}
    (hfinished : σ.Finished i (.join .real s r) outcome) :
    ∃ result, outcome = .joined result ∧
      Code.verdict (fun reply told => Confessed s told reply.session) Unwarned result
        (own i σ.past) := by
  have habides : licence.Abides ((Job.join .real s r).program appId)
      (fun outcome told => ∃ result, outcome = .joined result ∧
        Code.verdict (fun reply told => Confessed s told reply.session) Unwarned result told) [] :=
    Code.Abides.map (Code.Abides.mono (Code.comes_join_confessed appId s r)
      fun result _ _ hresult => ⟨result, rfl, hresult⟩)
  exact (habides.came ((underway_of_run hrun).task i _ hfinished)).2

/-- Who is let in has reported what became of its meeting. -/
theorem disclosed_of_confessed (hrun : Run appId {} σ) {reply : JoinReply}
    (hfinished : σ.Finished i (.join .real s r) (.joined (.ok reply)))
    (hconfessed : Confessed s (own i σ.past) reply.session)
    (hgift : meetingId ∈ gifts (own i σ.past)) : Disclosed σ i s meetingId := by
  obtain ⟨hreal, hwarnings⟩ := hconfessed meetingId hgift
  have hat : σ.store.mappingAt s = some ⟨reply.session.meetingId, .real⟩ :=
    mappingAt_of_answered hrun (.joined .real r reply.realtime hfinished) hreal
  constructor
  · intro hlost
    rw [hwarnings, if_neg]
    intro hsame
    exact hlost ⟨_, hat, hsame⟩
  · rintro ⟨mapping, hmapping, hsame⟩
    obtain rfl := Option.some.inj (hat.symm.trans hmapping)
    rw [hwarnings, if_pos hsame]

/-- In every run, a join that was given a meeting has reported what became of it exactly if it was
let in or the meeting is the one that counts. A join that is not let in has not warned. -/
theorem orphans_disclosed (hrun : Run appId {} σ) {mode : Mode} {outcome : Outcome}
    (hfinished : σ.Finished i (.join mode s r) outcome) {title : String}
    (hgiven : ⟨.createMeeting title, .ok meetingId⟩ ∈ own i σ.past) :
    ∃ result, outcome = .joined result ∧
      (Disclosed σ i s meetingId ↔
        (∃ reply, result = .ok reply) ∨ PointsTo σ.store s meetingId) ∧
      ∀ e, result = .error e → warnings (own i σ.past) = [] := by
  obtain rfl := mode_of_given hrun hfinished hgiven
  obtain ⟨result, rfl, hverdict⟩ := confessed_of_finished hrun hfinished
  refine ⟨result, rfl, ?_⟩
  -- A join that was let in has confessed its orphans, and one that failed said nothing.
  cases result with
  | ok reply =>
    -- let in: it has warned of the meeting unless its session is there
    have hdisclosed : Disclosed σ i s meetingId :=
      disclosed_of_confessed hrun hfinished hverdict (mem_gifts_iff.2 ⟨title, hgiven⟩)
    constructor
    · exact iff_of_true hdisclosed (.inl ⟨reply, rfl⟩)
    · intro e herror
      exact nomatch herror
  | error e =>
    -- failed: it has said nothing, which discloses the meeting only if the mapping leads to it
    have hsilent : warnings (own i σ.past) = [] := hverdict
    refine ⟨?_, fun _ _ => hsilent⟩
    constructor
    · intro hdisclosed
      right
      by_contra hlost
      have hwarned := hdisclosed.orphaned hlost
      rw [hsilent] at hwarned
      exact List.cons_ne_nil _ _ hwarned.symm
    · rintro (⟨reply, hreply⟩ | hpoints)
      · exact nomatch hreply
      · exact ⟨fun hlost => absurd hpoints hlost, fun _ => hsilent⟩

/-- Each of the two joins was given a meeting. -/
theorem gifts_afterRace :
    ([0, 1].map fun i => gifts (own i afterRace.past)) = [["m"], ["n"]] := by
  decide +kernel

/-- Of two users who raced each other, the one whose meeting counts has not warned, and the other
one, who was let in too, has. -/
theorem orphans_disclosed_afterRace :
    PointsTo afterRace.store "s" "m" ∧ Disclosed afterRace 0 "s" "m" ∧
      ¬ PointsTo afterRace.store "s" "n" ∧ Disclosed afterRace 1 "s" "n" := by
  have hgifts : gifts (own 0 afterRace.past) = ["m"] ∧ gifts (own 1 afterRace.past) = ["n"] := by
    simpa using gifts_afterRace
  obtain ⟨title, hm⟩ := mem_gifts_iff.1 (hgifts.1 ▸ List.mem_singleton_self "m")
  obtain ⟨title', hn⟩ := mem_gifts_iff.1 (hgifts.2 ▸ List.mem_singleton_self "n")
  obtain ⟨result, hresult, hfirst, -⟩ := orphans_disclosed run_afterRace finished_afterRace.1 hm
  obtain ⟨result', hresult', hsecond, -⟩ := orphans_disclosed run_afterRace finished_afterRace.2 hn
  obtain rfl := Outcome.joined.inj hresult
  obtain rfl := Outcome.joined.inj hresult'
  refine ⟨⟨_, stored_afterRace.1, rfl⟩, hfirst.2 (.inl ⟨_, rfl⟩), ?_, hsecond.2 (.inl ⟨_, rfl⟩)⟩
  rintro ⟨mapping, hmapping, hsame⟩
  obtain rfl := Option.some.inj (stored_afterRace.1.symm.trans hmapping)
  exact absurd hsame (by decide)

/-- A join was given a meeting, and others filled the room in a meeting of their own before it wrote
the mapping. It is told that the session is full, and nothing is said of the meeting. -/
theorem orphan_undisclosed :
    ∃ σ, Run "app" {} σ ∧ FreshGrants σ.past ∧
      σ.Finished 0 (.join .real "s" ⟨some "a", none⟩) (.joined (.error .sessionFull)) ∧
      ⟨.createMeeting "s", .ok "r"⟩ ∈ own 0 σ.past ∧
      σ.store.mappingAt "s" = some ⟨"m", .real⟩ ∧
      warnings (own 0 σ.past) = [] ∧ ¬ Disclosed σ 0 "s" "r" := by
  have hvalid : JoinRequest.validate ⟨some "a", none⟩ = .ok "a" := rfl
  have hgiven : Run "app" {} _ := run_lateJoin "s" "r" hvalid
  have hfresh : FreshGrants [.answer 0 ⟨.createMeeting "s", .ok "r"⟩,
      .answer 0 ⟨.get (mappingKey "s"), .ok none⟩,
      .start (.join .real "s" ⟨some "a", none⟩)] := by
    refine ⟨by decide, fun grant hgrant => ?_⟩
    obtain rfl : grant = ("s", "r") := List.mem_singleton.1 hgrant
    decide
  have hothers : ∀ u ∈ ["b", "c", "d", "e", "f"], JoinRequest.validate ⟨some u, none⟩ = .ok u := by
    decide
  -- Five others fill the room while the first task holds the meeting r.
  obtain ⟨σ₁, x, hrun₁, hx, hmapping, hfull, -, hgrown⟩ :=
    hosts_full hgiven hfresh rfl "s" "m" (by decide) (by decide) rfl (by decide) hothers
  have htask : σ₁.tasks[0]? = some ⟨.join .real "s" ⟨some "a", none⟩,
      lateJoin "s" "a" ⟨"r", .real, false⟩⟩ := by
    obtain ⟨later, hlater⟩ := hgrown
    rw [← hlater]
    rfl
  obtain ⟨σ, hrun₂, hfresh', hfinished, hstore⟩ := hx.turnsAway hfull htask
  have hafter : Run "app" _ σ := hrun₁.trans hrun₂
  have hrun : Run "app" {} σ := hgiven.trans hafter
  have hobtained : ⟨.createMeeting "s", .ok "r"⟩ ∈ own 0 σ.past := by
    apply mem_own_iff.2
    exact (grows_of_run hgiven hafter).past.subset List.mem_cons_self
  have hmapped : σ.store.mappingAt "s" = some ⟨"m", .real⟩ := by
    rw [hstore, hx.mappingAt, hmapping]
  have hsilent : warnings (own 0 σ.past) = [] := by
    obtain ⟨result, hresult, hverdict⟩ := confessed_of_finished hrun hfinished
    obtain rfl := Outcome.joined.inj hresult
    exact hverdict
  -- The mapping leads to m, so that r is an orphan.
  have hlost : ¬ PointsTo σ.store "s" "r" := by
    rintro ⟨mapping, hmapping, hsame⟩
    obtain rfl := Option.some.inj (hmapped.symm.trans hmapping)
    exact absurd hsame (by decide)
  refine ⟨σ, hrun, hfresh', hfinished, hobtained, hmapped, hsilent, ?_⟩
  intro hdisclosed
  have hwarned := hdisclosed.orphaned hlost
  rw [hsilent] at hwarned
  exact List.cons_ne_nil _ _ hwarned.symm

end VoiceRoom.Concurrency
