import VoiceRoom.Proofs.Concurrency.FirstJoins
import VoiceRoom.Proofs.Concurrency.FullRoom
import VoiceRoom.Proofs.Concurrency.Guarantees
import VoiceRoom.Proofs.Concurrency.Solitude

/-!
# Joining again

A member who joins the session again changes nothing. The mapping counts, so no meeting is obtained;
the record says what the mapping says, so there is nothing to correct; and the roster has the user
already, so there is nothing to write. Such a join makes no write at all, whoever else is in the
roster (`looks_attempt_member`).

But an attempt looks for a free place before it looks who asks for it. In a session with all places
taken its own members are told that it is full, just like strangers (`rejoin_refused_when_full`).
-/

namespace VoiceRoom

/-- Whether a call asks the store to change. -/
def Call.Puts : Call → Prop
  | .putIf .. => True
  | _ => False

namespace Concurrency

open Simulation (Entry)

variable {α β : Type} {m m' : Memory} {entries : List Entry}

theorem Idle.not_puts {c : Call} (hc : Idle c) : ¬ c.Puts := by
  intro hputs
  cases c with
  | putIf key value expected => exact hc
  | _ => exact hputs

/-! ### Programs that only look -/

/-- A program that is answered by a store never asks it to change, and what it comes to has a
property whatever else it is told. -/
def Looks (m : Memory) (P : α → Prop) : Program α → Prop
  | .done a => P a
  | .ask c rest => ¬ c.Puts ∧ ∀ r, World.Answers ⟨m, []⟩ c r → Looks m P (rest r)

/-- A program that only looks leaves the store alone, whatever it is answered. -/
theorem Looks.alone {P : α → Prop} {p : Program α} {a : α} (h : Looks m P p)
    (halone : Alone m p entries m' a) : P a ∧ m' = m ∧ ∀ e ∈ entries, ¬ e.call.Puts := by
  induction halone with
  | done m a => exact ⟨h, rfl, fun _ he => nomatch he⟩
  | @ask m m' c rest entries a r hr _ ih =>
    obtain ⟨hc, hrest⟩ := h
    have hsame : storeAfter m c = m := by
      cases c with
      | putIf key value expected => exact absurd trivial hc
      | _ => rfl
    rw [hsame] at ih
    obtain ⟨ha, hm, hlooks⟩ := ih (hrest r hr)
    refine ⟨ha, hm, ?_⟩
    intro e he
    rcases List.mem_cons.1 he with rfl | hlater
    · exact hc
    · exact hlooks e hlater

theorem Looks.bind {P : β → Prop} {Q : α → Prop} {p : Program α} {f : α → Program β}
    (h : Looks m Q p) (hf : ∀ a, Q a → Looks m P (f a)) : Looks m P (p >>= f) := by
  induction p with
  | done a => exact hf a h
  | ask c rest ih => exact ⟨h.1, fun r hr => ih r (h.2 r hr)⟩

theorem looks_idle {P : α → Prop} {c : Call} {rest : c.Answer → Program α} (hc : Idle c)
    (h : ∀ r, Looks m P (rest r)) : Looks m P (.ask c rest) :=
  ⟨hc.not_puts, fun r _ => h r⟩

/-- What a store that answers says of a key is what it holds there. -/
theorem looks_get {P : α → Prop} {key : String} {v : Option Versioned}
    {rest : Except StoreError (Option Versioned) → Program α} (hup : m.available = true)
    (hlookup : m.lookup key = v) (h : Looks m P (rest (.ok v))) :
    Looks m P (.ask (.get key) rest) := by
  refine ⟨id, fun r hr => ?_⟩
  obtain rfl : r = .ok v := hr.trans (Memory.get_of_lookup hup hlookup)
  exact h

section Request

variable {x : Request α} {f : α → Request β} {P : Except ServiceError β → Prop}

theorem looks_get_then {key : String} {v : Option Versioned} {f : Option Versioned → Request β}
    (hup : m.available = true) (hlookup : m.lookup key = v) (hf : Looks m P (f v).run) :
    Looks m P (Request.get key >>= f).run :=
  looks_get hup hlookup hf

theorem looks_now_then {f : Int → Request β} (hf : ∀ t, Looks m P (f t).run) :
    Looks m P (Request.now >>= f).run :=
  looks_idle (c := .now) trivial hf

theorem looks_then {a : α} (h : Looks m (· = .ok a) x.run) (hf : Looks m P (f a).run) :
    Looks m P (x >>= f).run := by
  refine Looks.bind h fun r hr => ?_
  obtain rfl : r = .ok a := hr
  exact hf

end Request

/-! ### A member's join -/

variable {mapping : Mapping} {s userId : String} {mode : Mode} {x : Session} {j : Joiner}

/-- A mapping that counts is found. -/
theorem looks_lookup (hup : m.available = true) (hat : m.mappingAt s = some mapping)
    (hcounts : mode = .mock ∨ mapping.kind = .real) :
    ∃ version, Looks m (· = .ok (.found mapping version))
      (Request.ofStore (Resolution.lookup s mode)).run := by
  obtain ⟨stored, hlookup, rfl⟩ := Memory.lookup_of_mappingAt hat
  refine ⟨stored.version, looks_get hup hlookup ?_⟩
  dsimp only [Program.call, bind, Program.bind, pure]
  rw [Resolution.ofStored_of_counts hcounts]
  rfl

/-- A session that agrees with the mapping is opened as it is. -/
theorem looks_openMapped (hup : m.available = true)
    (hx : m.sessionAt mapping.meetingId = some x) (hagrees : x.agrees mapping = true) :
    ∃ version, Looks m (· = .ok ⟨x, version, false⟩) (j.openMapped mapping).run := by
  obtain ⟨stored, hlookup, hdecode⟩ := Memory.lookup_of_sessionAt hx
  have hid : x.meetingId = mapping.meetingId := by
    simp only [Session.agrees, Bool.and_eq_true, beq_iff_eq] at hagrees
    exact hagrees.1
  have hload : Looks m (· = .ok (some ⟨x, stored.version, false⟩)) (load mapping).run := by
    unfold load
    refine looks_get_then hup hlookup ?_
    dsimp only
    rw [hdecode]
    dsimp only
    rw [if_neg (fun h => h hid), Session.fit_of_agrees hagrees, hagrees]
    rfl
  refine ⟨some stored.version, ?_⟩
  unfold Joiner.openMapped
  exact looks_then hload rfl

/-- What a member is told who comes again: the session as it is, unless it is full. -/
def readmission (x : Session) : Except ServiceError Attempt :=
  if x.isFull then .error .sessionFull else .ok (.joined x false)

/-- A member changes nothing in a session that needs no correction. -/
theorem looks_enter_member {version : Option Nat} (hmember : x.hasMember j.userId = true) :
    Looks m (· = readmission x) (j.enter ⟨x, version, false⟩).run := by
  unfold Joiner.enter readmission
  dsimp only
  cases hfull : x.isFull with
  | true =>
    rw [if_pos rfl, if_pos rfl]
    exact looks_idle (c := .note _) trivial fun _ => rfl
  | false =>
    rw [if_neg Bool.false_ne_true, if_neg Bool.false_ne_true]
    refine looks_now_then fun t => ?_
    have hkept : x.add ⟨j.userId, t, j.iconUrl⟩ = x := Session.add_of_hasMember hmember
    rw [hkept, hmember]
    rfl

/-- The first attempt of a member's join finds the session and changes nothing. -/
theorem looks_attempt_member (hup : m.available = true)
    (hat : m.mappingAt j.sessionId = some mapping)
    (hcounts : j.mode = .mock ∨ mapping.kind = .real)
    (hx : m.sessionAt mapping.meetingId = some x) (hagrees : x.agrees mapping = true)
    (hmember : x.hasMember j.userId = true) :
    Looks m (· = (readmission x).map fun a => (a, none)) (j.attempt none).run := by
  obtain ⟨version, hfound⟩ := looks_lookup hup hat hcounts
  obtain ⟨read, hopened⟩ := looks_openMapped (j := j) hup hx hagrees
  unfold Joiner.attempt
  refine looks_then hfound (looks_then hopened ?_)
  refine Looks.bind (looks_enter_member hmember) ?_
  rintro r rfl
  unfold readmission
  split <;> rfl

/-- What a join changes and comes to that a member makes again. -/
structure Rejoins (m : Memory) (x : Session) (entries : List Entry) (m' : Memory)
    (result : Except ServiceError JoinReply) : Prop where
  unchanged : m' = m
  /-- It does not even ask the store to change. -/
  asked : ∀ e ∈ entries, ¬ e.call.Puts
  kept : x.users.length < capacity → ∃ reply, result = .ok reply ∧ reply.session = x
  refused : capacity ≤ x.users.length → result = .error .sessionFull

/-- On any store, the join of a member comes to the session as it is, unless that is full. -/
theorem joins_again {appId : String} {r : JoinRequest} {outcome : Outcome}
    (hup : m.available = true) (hat : m.mappingAt s = some mapping)
    (hcounts : mode = .mock ∨ mapping.kind = .real)
    (hx : m.sessionAt mapping.meetingId = some x) (hagrees : x.agrees mapping = true)
    (hvalid : r.validate = .ok userId) (hmember : x.hasMember userId = true)
    (halone : Alone m ((Job.join mode s r).program appId) entries m' outcome) :
    ∃ result, outcome = .joined result ∧ Rejoins m x entries m' result := by
  obtain ⟨result, rfl, hjoin⟩ := Alone.exists_map halone
  refine ⟨result, rfl, ?_⟩
  obtain ⟨early, m₁, a, late, rfl, hfirst, hfollows⟩ := hjoin.exists_attempt hvalid
  have hlooks := looks_attempt_member (j := ⟨mode, s, userId, r.iconUrl⟩)
    hup hat hcounts hx hagrees hmember
  obtain ⟨ha, rfl, hearly⟩ := hlooks.alone hfirst
  have hasked : (∀ e ∈ late, Idle e.call) → ∀ e ∈ early ++ late, ¬ e.call.Puts := by
    intro hlate e he
    rcases List.mem_append.1 he with he | he
    · exact hearly e he
    · exact (hlate e he).not_puts
  -- Whether the user is let in again depends on the places that are left and nothing else.
  unfold readmission at ha
  cases hfollows with
  | failed e hlate =>
    split at ha
    · rename_i hfull
      obtain rfl : e = .sessionFull := Except.error.inj ha
      refine ⟨rfl, hasked hlate, fun hroom => ?_, fun _ => rfl⟩
      rw [Session.isFull_eq_false_iff.2 hroom] at hfull
      exact nomatch hfull
    · exact nomatch ha
  | joined added held reply hlate =>
    split at ha
    · exact nomatch ha
    · rename_i hfull
      have hreply : reply.session = x :=
        (Attempt.joined.inj (congrArg Prod.fst (Except.ok.inj ha))).1
      refine ⟨rfl, hasked hlate, fun _ => ⟨reply, rfl, hreply⟩, fun hplaces => ?_⟩
      rw [Bool.not_eq_true, Session.isFull_eq_false_iff] at hfull
      omega
  | raced held late m' result =>
    split at ha
    · exact nomatch ha
    · exact nomatch congrArg Prod.fst (Except.ok.inj ha)

/-- In every reachable state, a member who joins again is answered with the session as it is and
changes nothing. Only in a session with all places taken the answer is that it is full. -/
theorem rejoin_idempotent {appId : String} {σ : System} (hrun : Run appId {} σ)
    (hup : σ.store.available = true) (hfresh : FreshGrants σ.past) {r : JoinRequest}
    (hat : σ.store.mappingAt s = some mapping) (hcounts : mode = .mock ∨ mapping.kind = .real)
    (hx : σ.store.sessionAt mapping.meetingId = some x) (hvalid : r.validate = .ok userId)
    (hmember : x.hasMember userId = true) :
    (∀ o : Oracle, ∃ entries m' outcome,
        Alone σ.store ((Job.join mode s r).program appId) entries m' outcome ∧
        o.Spoke σ.tasks.length (.start (.join mode s r) :: σ.past) entries) ∧
      x.users.length ≤ capacity ∧
      ∀ entries m' outcome,
        Alone σ.store ((Job.join mode s r).program appId) entries m' outcome →
        ∃ result, outcome = .joined result ∧ Rejoins σ.store x entries m' result := by
  have hsound : Sound σ.world := (ledger_of_run hrun).inv
  obtain ⟨stored, hlookup, hdecode⟩ := Memory.lookup_of_sessionAt hx
  have hhoused : Housed σ.world mapping.meetingId x :=
    hsound.housed_of_decode hfresh hlookup hdecode
  -- In a run the record of a session agrees with the mapping, so that nothing is to be repaired.
  have hagrees : x.agrees mapping = true := by
    obtain ⟨-, hmapping, -⟩ := hhoused.fit_eq hfresh (hsound.mapped s mapping hat) rfl
    subst hmapping
    simp [Session.agrees, Session.mapping]
  refine ⟨fun o => o.exists_alone _ _ _ _, hhoused.proper.room, ?_⟩
  intro entries m' outcome halone
  exact joins_again hup hat hcounts hx hagrees hvalid hmember halone

/-- One of four members joins again, the one who had been overtaken most. -/
theorem rejoin_idempotent_afterRaces :
    ∃ entries m' result,
      Alone afterRaces.store ((Job.join .real "s" ⟨some "v", some "icon"⟩).program "app") entries m'
        (.joined result) ∧
      Rejoins afterRaces.store sessionOfFour entries m' result := by
  have hvalid : JoinRequest.validate ⟨some "v", some "icon"⟩ = .ok "v" := rfl
  obtain ⟨hat, hx⟩ := stored_afterRaces
  obtain ⟨hends, -, hrejoins⟩ := rejoin_idempotent run_both_races available_afterRaces
    freshGrants_afterRaces hat (.inr rfl : Mode.real = .mock ∨ _) hx hvalid (by decide)
  obtain ⟨entries, m', outcome, halone, -⟩ := hends (.providing fun _ => .error .timeout)
  obtain ⟨result, rfl, hresult⟩ := hrejoins entries m' outcome halone
  exact ⟨entries, m', result, halone, hresult⟩

/-! ### A full room -/

/-- Five users have joined, one after the other. The first of them joins again, and is told that the
session is full. -/
theorem rejoin_refused_when_full :
    ∃ σ x, Run "app" {} σ ∧ FreshGrants σ.past ∧ σ.store.available = true ∧
      σ.store.mappingAt "s" = some ⟨"m", .real⟩ ∧ σ.store.sessionAt "m" = some x ∧
      x.users.map Member.userId = ["a", "b", "c", "d", "e"] ∧
      (∃ entries m', Alone σ.store ((Job.join .real "s" ⟨some "a", none⟩).program "app") entries m'
        (.joined (.error .sessionFull))) ∧
      ∀ entries m' outcome, Alone σ.store ((Job.join .real "s" ⟨some "a", none⟩).program "app")
        entries m' outcome → outcome = .joined (.error .sessionFull) := by
  have hvalid : ∀ u ∈ ["a", "b", "c", "d", "e"], JoinRequest.validate ⟨some u, none⟩ = .ok u := by
    decide
  obtain ⟨σ, x, -, hx, hmapping, hfull, hroster, -⟩ := hosts_full (.refl : Run "app" {} {})
    ⟨List.nodup_nil, fun _ h => nomatch h⟩ rfl "s" "m" (fun h => nomatch h) (by decide) rfl
    (by decide) hvalid
  have hmeeting : x.meetingId = "m" := congrArg Mapping.meetingId hmapping
  have hmember : x.hasMember "a" = true := by
    rw [Session.hasMember_iff, hroster]
    decide
  have hplaces : capacity ≤ x.users.length := of_decide_eq_true hfull
  have hagrees : x.agrees x.mapping = true := by
    simp [Session.agrees, Session.mapping]
  -- The room is full of five members, and the one who asks again is among them.
  have hrefused : ∀ entries m' outcome,
      Alone σ.store ((Job.join .real "s" ⟨some "a", none⟩).program "app") entries m' outcome →
      outcome = .joined (.error .sessionFull) := by
    intro entries m' outcome halone
    obtain ⟨result, rfl, hresult⟩ := joins_again hx.up hx.mappingAt (.inr hx.real) hx.sessionAt
      hagrees rfl hmember halone
    rw [hresult.refused hplaces]
  have hat := hx.mappingAt
  have hat' := hx.sessionAt
  rw [hmapping] at hat
  rw [hmeeting] at hat'
  refine ⟨σ, x, hx.run, hx.fresh, hx.up, hat, hat', hroster, ?_, hrefused⟩
  obtain ⟨entries, m', outcome, halone, -⟩ :=
    (Oracle.providing fun _ => .error .timeout).exists_alone 0
      ((Job.join .real "s" ⟨some "a", none⟩).program "app") σ.store σ.past
  obtain rfl := hrefused entries m' outcome halone
  exact ⟨entries, m', halone⟩

end Concurrency

end VoiceRoom
