import VoiceRoom.Proofs.Twins.Workflow
import VoiceRoom.Proofs.Twins.Worlds
import VoiceRoom.Simulation.Scenario

/-!
# Clients are not told why a call failed

A scenario is played in two worlds that agree, so that the same calls of the store and of the
provider fail in both, but perhaps in other words. Requests over HTTP are answered with the same
responses then, and what they leave in the store is the same (`failures_undisclosed`). Requests may
interrupt each other, and whatever else is done to the world may happen between any two calls. Only
the metrics tell failures apart, so nobody asks for them here.
-/

namespace VoiceRoom.Twins

open Simulation

/-! ### What is seen -/

/-- A call that was made in both worlds, and answered alike. -/
inductive EntriesAgree : Entry → Entry → Prop where
  | mk (c : Call) {r r' : c.Answer} (h : blind.Answers c r r') : EntriesAgree ⟨c, r⟩ ⟨c, r'⟩

/-- The same outcome, the same calls and the same of what interrupted them. -/
inductive SightsAgree : Sight → Sight → Prop where
  | mk (outcome : Outcome) {calls calls' : List Entry} {seen seen' : List Sight}
      (hcalls : List.Forall₂ EntriesAgree calls calls')
      (hseen : List.Forall₂ SightsAgree seen seen') :
      SightsAgree (.mk outcome calls seen) (.mk outcome calls' seen')

/-! ### Programs with interruptions -/

/-- What happens before a call leaves worlds that agree in agreement. -/
structure InterruptionsAgree (i i' : Interruption Sight) : Prop where
  point : i.point = i'.point
  trigger : i.trigger = i'.trigger
  happen : ∀ {w w'}, Agree w w' → Agree (i.happen w).1 (i'.happen w').1 ∧
    List.Forall₂ SightsAgree (i.happen w).2 (i'.happen w').2

structure ProgressAgree (p p' : Progress Sight) : Prop where
  world : Agree p.world p'.world
  entries : List.Forall₂ EntriesAgree p.entries p'.entries
  seen : List.Forall₂ SightsAgree p.seen p'.seen
  storeCalls : p.storeCalls = p'.storeCalls
  providerCalls : p.providerCalls = p'.providerCalls

namespace ProgressAgree

variable {p p' : Progress Sight} {is is' : List (Interruption Sight)}

theorem start {w w' : World} (h : Agree w w') :
    ProgressAgree { world := w } { world := w' } :=
  ⟨h, .nil, .nil, rfl, rfl⟩

theorem countCall (h : ProgressAgree p p') (point : Point) :
    (p.countCall point).1 = (p'.countCall point).1 ∧
      ProgressAgree (p.countCall point).2 (p'.countCall point).2 := by
  have hstore := congrArg (· + 1) h.storeCalls
  have hprovider := congrArg (· + 1) h.providerCalls
  cases point with
  | store => exact ⟨hstore, { h with storeCalls := hstore }⟩
  | provider => exact ⟨hprovider, { h with providerCalls := hprovider }⟩

theorem interrupt (h : ProgressAgree p p') {i i' : Interruption Sight}
    (hi : InterruptionsAgree i i') : ProgressAgree (p.interrupt i) (p'.interrupt i') := by
  obtain ⟨hworld, hseen⟩ := hi.happen h.world
  exact { h with world := hworld, seen := List.rel_append h.seen hseen }

/-- Both arrive at the same interruptions. -/
theorem arrive (h : ProgressAgree p p') (his : List.Forall₂ InterruptionsAgree is is') (c : Call) :
    ProgressAgree (p.arrive is c) (p'.arrive is' c) := by
  unfold Progress.arrive
  cases Point.ofCall? c with
  | none => exact h
  | some point =>
    obtain ⟨hcount, hcounted⟩ := h.countCall point
    dsimp only
    rw [hcount]
    refine List.rel_foldl (fun _ _ hp _ _ hi => hp.interrupt hi) hcounted ?_
    refine List.rel_filter (fun i i' hi => ?_) his
    show (i.point == point && i.trigger.hits _) = true ↔
      (i'.point == point && i'.trigger.hits _) = true
    rw [hi.point, hi.trigger]

theorem keep (h : ProgressAgree p p') {c : Call} {r r' : c.Answer} (hr : blind.Answers c r r') :
    ProgressAgree (p.keep ⟨c, r⟩) (p'.keep ⟨c, r'⟩) := by
  unfold Progress.keep
  dsimp only
  split
  · exact { h with entries := .cons (.mk c hr) h.entries }
  · exact h

/-- Programs that are alike come to results that are alike, or both wait. -/
theorem run {β : Type} {R : β → β → Prop} {x y : Program β} (hxy : blind.Alike R x y)
    (his : List.Forall₂ InterruptionsAgree is is') (h : ProgressAgree p p') :
    Option.Rel R (Simulation.run is x p).1 (Simulation.run is' y p').1 ∧
      ProgressAgree (Simulation.run is x p).2 (Simulation.run is' y p').2 := by
  -- On the likeness of the programs; worlds that agree answer alike, or both do not answer.
  induction hxy generalizing p p' with
  | done hab => exact ⟨.some hab, h⟩
  | ask c _ ih =>
    have harrive := h.arrive his c
    obtain ⟨hanswer, hworld⟩ := harrive.world.answer c
    unfold Simulation.run
    dsimp only
    generalize (p.arrive is c).world.answer c = answered at hanswer hworld
    generalize (p'.arrive is' c).world.answer c = answered' at hanswer hworld
    obtain ⟨r, w⟩ := answered
    obtain ⟨r', w'⟩ := answered'
    have hnext : ProgressAgree { p.arrive is c with world := w }
        { p'.arrive is' c with world := w' } := { harrive with world := hworld }
    cases hanswer with
    | none => exact ⟨.none, hnext⟩
    | some hr => exact ih _ _ hr (hnext.keep hr)
  | note he _ ih => exact ih { h with world := h.world.note _ _ }

end ProgressAgree

/-- A request is answered with the same response, unless it asks for the metrics. -/
theorem serve_agree {is is' : List (Interruption Sight)} {w w' : World} {r : Http.Request}
    (hroute : Http.Route.ofPath? (Http.Route.path r.target) ≠ some .metrics)
    (his : List.Forall₂ InterruptionsAgree is is') (h : Agree w w') :
    Agree (Action.serve is r w).1 (Action.serve is' r w').1 ∧
      SightsAgree (Action.serve is r w).2 (Action.serve is' r w').2 := by
  obtain ⟨hresult, hprogress⟩ :=
    (ProgressAgree.start h).run (Likeness.alike_answer w.appId hroute) his
  unfold Action.serve
  rw [← h.appId]
  dsimp only
  generalize Simulation.run is (Http.answer w.appId r) { world := w } = ran at hresult hprogress
  generalize Simulation.run is' (Http.answer w.appId r) { world := w' } = ran' at hresult hprogress
  obtain ⟨response, p⟩ := ran
  obtain ⟨response', p'⟩ := ran'
  -- both came to a response, or neither did and the limit ran out
  have hsame : response = response' := by
    cases hresult with
    | none => rfl
    | some hsame => exact congrArg some hsame
  rw [hsame]
  exact ⟨hprogress.world.count _ _, .mk _ (List.rel_reverse hprogress.entries) hprogress.seen⟩

/-! ### Scenarios -/

/-- What may be done in both worlds: requests but for the metrics, and everything that does not ask
the provider or a program of the service directly. -/
def Discreet : Action → Prop
  | .http r => Http.Route.ofPath? (Http.Route.path r.target) ≠ some .metrics
  | .create _ | .join .. | .resolve .. | .load _ => False
  | .createMeeting _ | .createParticipant .. | .tally => False
  | _ => True

inductive ActionsAgree : Action → Action → Prop where
  | same (a : Action) (h : Discreet a) : ActionsAgree a a
  /-- The next call of the store is refused, in other words. -/
  | pend (e e' : StoreError) : ActionsAgree (.pend (.refuse e)) (.pend (.refuse e'))

/-- The records may be changed alike. -/
theorem Agree.mapMemory {w w' : World} (h : Agree w w') (f : Memory → Memory) :
    Agree (w.mapMemory f) (w'.mapMemory f) := by
  unfold World.mapMemory
  rw [h.store]
  split
  · exact h.setStore _
  · exact h

/-- The data may be changed alike. -/
theorem Agree.mapShared {w w' : World} (h : Agree w w') (f : Shared → Shared) :
    Agree (w.mapShared f) (w'.mapShared f) := by
  unfold World.mapShared
  rw [h.store]
  split
  · exact h
  · exact h.setStore _

/-- An outcome that is the same is seen alike. -/
theorem direct_agree {w w' : World} (h : Agree w w') (outcome : Outcome) :
    Agree (direct w outcome).1 (direct w' outcome).1 ∧
      SightsAgree (direct w outcome).2 (direct w' outcome).2 :=
  ⟨h, .mk outcome .nil .nil⟩

/-- A direct use of the store is seen alike. -/
theorem directStore_agree {α : Type} {w w' : World} (h : Agree w w') (f : Store → Stored α)
    (outcome : Except StoreError α → Outcome) :
    Agree (directStore w f outcome).1 (directStore w' f outcome).1 ∧
      SightsAgree (directStore w f outcome).2 (directStore w' f outcome).2 := by
  obtain ⟨hsame, hagree⟩ := h.useStore f
  unfold directStore
  dsimp only
  rw [hsame]
  exact direct_agree hagree _

theorem perform_agree {a a' : Action} (ha : ActionsAgree a a')
    {is is' : List (Interruption Sight)} (his : List.Forall₂ InterruptionsAgree is is')
    {w w' : World} (h : Agree w w') :
    Agree (a.perform is w).1 (a'.perform is' w').1 ∧
      SightsAgree (a.perform is w).2 (a'.perform is' w').2 := by
  -- Failures that are pending may differ, and every other action is the same in both worlds.
  cases ha with
  | pend e e' => exact direct_agree (h.setFault (.some (.refuse e e'))) _
  | same a hdiscreet =>
    cases a with
    | http r => exact serve_agree hdiscreet his h
    | get key => exact directStore_agree h _ _
    | put key value => exact directStore_agree h _ _
    | putIf key value expected => exact directStore_agree h _ _
    | ping => exact directStore_agree h _ _
    | peek key =>
      have hpeek : w.peek key = w'.peek key := by
        unfold World.peek
        rw [h.store]
      show Agree (direct w (.peek (w.peek key))).1 (direct w' (.peek (w'.peek key))).1 ∧
        SightsAgree (direct w (.peek (w.peek key))).2 (direct w' (.peek (w'.peek key))).2
      rw [hpeek]
      exact direct_agree h _
    | setUnavailable value => exact direct_agree (h.mapMemory _) _
    | pend fault => exact direct_agree (h.setFault (.some (.refl fault))) _
    | setData key data => exact direct_agree (h.mapShared _) _
    | eraseData key => exact direct_agree (h.mapShared _) _
    | setLink link => exact direct_agree (h.mapShared _) _
    | setMode mode => exact direct_agree (h.setMode mode) _
    | advance ms => exact direct_agree (h.advance ms) _
    | _ => exact hdiscreet.elim

mutual

/-- Steps that do the same, with the same interruptions, but for the words of refusals. -/
inductive StepAgrees : Step → Step → Prop where
  | mk {a a' : Action} {is is' : List Interlude} (ha : ActionsAgree a a')
      (his : InterludesAgree is is') : StepAgrees (.mk a is) (.mk a' is')

inductive InterludesAgree : List Interlude → List Interlude → Prop where
  | nil : InterludesAgree [] []
  | cons (point : Point) (trigger : Trigger) {steps steps' : List Step}
      {rest rest' : List Interlude} (hsteps : StepsAgree steps steps')
      (hrest : InterludesAgree rest rest') :
      InterludesAgree (.mk point trigger steps :: rest) (.mk point trigger steps' :: rest')

inductive StepsAgree : List Step → List Step → Prop where
  | nil : StepsAgree [] []
  | cons {s s' : Step} {rest rest' : List Step} (hstep : StepAgrees s s')
      (hrest : StepsAgree rest rest') : StepsAgree (s :: rest) (s' :: rest')

end

mutual

/-- Steps that agree lead to worlds that agree, and show the same. -/
theorem take_agree {s s' : Step} (hs : StepAgrees s s') {w w' : World} (h : Agree w w') :
    Agree (s.take w).1 (s'.take w').1 ∧ SightsAgree (s.take w).2 (s'.take w').2 := by
  cases hs with
  | mk ha his => exact perform_agree ha (all_agree his) h

/-- Interludes that agree interrupt alike. -/
theorem all_agree {is is' : List Interlude} (his : InterludesAgree is is') :
    List.Forall₂ InterruptionsAgree (Interlude.all is) (Interlude.all is') := by
  cases his with
  | nil => exact .nil
  | cons point trigger hsteps hrest =>
    exact .cons ⟨rfl, rfl, fun h => takeAll_agree hsteps h⟩ (all_agree hrest)

/-- Scenarios that agree show the same, by induction on their steps; worlds agree throughout. -/
theorem takeAll_agree {steps steps' : List Step} (hsteps : StepsAgree steps steps')
    {w w' : World} (h : Agree w w') :
    Agree (Step.takeAll steps w).1 (Step.takeAll steps' w').1 ∧
      List.Forall₂ SightsAgree (Step.takeAll steps w).2 (Step.takeAll steps' w').2 := by
  cases hsteps with
  | nil => exact ⟨h, .nil⟩
  | cons hstep hrest =>
    obtain ⟨hagree, hsight⟩ := take_agree hstep h
    obtain ⟨hagree', hsights⟩ := takeAll_agree hrest hagree
    exact ⟨hagree', .cons hsight hsights⟩

end

/-- Scenarios that agree do so up to any step. -/
theorem StepsAgree.take {steps steps' : List Step} (h : StepsAgree steps steps') (n : Nat) :
    StepsAgree (steps.take n) (steps'.take n) := by
  induction n generalizing steps steps' with
  | zero => exact .nil
  | succ n ih =>
    cases h with
    | nil => exact .nil
    | cons hstep hrest => exact .cons hstep (ih hrest)

/-- Whatever the words in which calls fail, all responses are the same, and so is the store after
every step. -/
theorem failures_undisclosed {w w' : World} {steps steps' : List Step} (h : Agree w w')
    (hsteps : StepsAgree steps steps') :
    List.Forall₂ SightsAgree (Step.takeAll steps w).2 (Step.takeAll steps' w').2 ∧
      ∀ n, (Step.takeAll (steps.take n) w).1.store = (Step.takeAll (steps'.take n) w').1.store :=
  ⟨(takeAll_agree hsteps h).2, fun n => (takeAll_agree (hsteps.take n) h).1.store⟩

/-- A world with a provider that fails. -/
def troubledWorld (e : ProviderError) : World where
  appId := "app"
  clock := 0
  store := .memory {}
  provider := .listed [.error e]
  mode := .real
  storeMs := 1
  providerMs := 1
  bits := [1]

/-- A session is created while the store refuses its second call, and then the service is asked
whether it is well. -/
def troubledSteps (e : StoreError) : List Step :=
  [.mk (.http ⟨"POST", "/sessions", [], []⟩)
      [.mk .store (.nth 2) [.mk (.pend (.refuse e)) []]],
    .mk (.http ⟨"GET", "/health", [], []⟩) [.mk .store .every [.mk (.pend (.refuse e)) []]]]

/-- Worlds that differ in what troubles the provider agree. -/
theorem agree_troubledWorld (e e' : ProviderError) :
    Agree (troubledWorld e) (troubledWorld e') where
  appId := rfl
  clock := rfl
  store := rfl
  provider := providersAgree_listed (.cons (.error trivial) .nil)
  mode := rfl
  storeMs := rfl
  providerMs := rfl
  bits := rfl
  drawn := rfl
  fault := .none

/-- Steps that differ in what troubles the store agree. -/
theorem stepsAgree_troubledSteps (e e' : StoreError) :
    StepsAgree (troubledSteps e) (troubledSteps e') := by
  have hrefuse : StepsAgree [.mk (.pend (.refuse e)) []] [.mk (.pend (.refuse e')) []] :=
    .cons (.mk (.pend e e') .nil) .nil
  have hcreate : Discreet (.http ⟨"POST", "/sessions", [], []⟩) := by
    show Http.Route.ofPath? (Http.Route.path "/sessions") ≠ some .metrics
    decide
  have hhealth : Discreet (.http ⟨"GET", "/health", [], []⟩) := by
    show Http.Route.ofPath? (Http.Route.path "/health") ≠ some .metrics
    decide
  exact .cons (.mk (.same _ hcreate) (.cons _ _ hrefuse .nil))
    (.cons (.mk (.same _ hhealth) (.cons _ _ hrefuse .nil)) .nil)

/-- Two worlds of which each fails in its own way show the same. -/
theorem failures_undisclosed_troubled :
    Agree (troubledWorld .timeout) (troubledWorld (.status 503)) ∧
      StepsAgree (troubledSteps (.backend "a")) (troubledSteps (.protocol "b")) ∧
      List.Forall₂ SightsAgree
        (Step.takeAll (troubledSteps (.backend "a")) (troubledWorld .timeout)).2
        (Step.takeAll (troubledSteps (.protocol "b")) (troubledWorld (.status 503))).2 :=
  ⟨agree_troubledWorld _ _, stepsAgree_troubledSteps _ _,
    (failures_undisclosed (agree_troubledWorld _ _) (stepsAgree_troubledSteps _ _)).1⟩

end VoiceRoom.Twins
