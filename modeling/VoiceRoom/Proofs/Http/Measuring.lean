import VoiceRoom.Proofs.Http.Handling
import VoiceRoom.Simulation.Scenario

/-!
# What a scenario measures

Measurements are only ever added (`World.Adds`). Those of requests are taken when a request was
served, one for each (`adds_serve`); programs, the provider and what is done to the world directly
take others only. So every measurement of a request is of one that was sent, at the top of the
scenario or in between (`adds_takeAll`), and those at the top are all measured (`exists_measured`).
-/

namespace VoiceRoom

open Simulation

namespace Metrics

/-- A measurement is not of a request, or of one of these, which was answered. -/
def IsOf (requests : List Http.Request) : Measurement → Prop
  | .request method path status _ =>
    (∃ r ∈ requests, r.method = method ∧ Http.Route.path r.target = path) ∧ status ∈ Http.statuses
  | _ => True

/-- What measures no request is not in doubt. -/
theorem isOf_of_not_isRequest {requests : List Http.Request} {m : Measurement}
    (h : m.isRequest = false) : IsOf requests m := by
  cases m with
  | request method path status micros => exact nomatch h
  | _ => exact trivial

end Metrics

/-! ### What is measured in a world -/

namespace Simulation

/-- From one world to another, measurements were only added, and of these `P` holds. -/
def World.Adds (P : Measurement → Prop) (w w' : World) : Prop :=
  ∃ new, w'.measurements = new ++ w.measurements ∧ ∀ m ∈ new, P m

namespace World.Adds

variable {P : Measurement → Prop} {w w' w'' : World} {α : Type}

theorem of_eq (h : w'.measurements = w.measurements) : Adds P w w' :=
  ⟨[], h, fun _ hm => nomatch hm⟩

theorem refl (w : World) : Adds P w w :=
  of_eq rfl

theorem trans (h : Adds P w w') (h' : Adds P w' w'') : Adds P w w'' := by
  obtain ⟨new, hnew, hP⟩ := h
  obtain ⟨newer, hnewer, hP'⟩ := h'
  refine ⟨newer ++ new, by rw [hnewer, hnew, List.append_assoc], fun m hm => ?_⟩
  rcases List.mem_append.1 hm with hlate | hearly
  · exact hP' m hlate
  · exact hP m hearly

theorem count {m : Measurement} (hm : P m) (w : World) : Adds P w (w.count m) :=
  ⟨[m], rfl, fun _ h => List.mem_singleton.1 h ▸ hm⟩

theorem countAll {ms : List Measurement} (hms : ∀ m ∈ ms, P m) (w : World) :
    Adds P w (ms.foldl World.count w) := by
  induction ms generalizing w with
  | nil => exact refl w
  | cons m ms ih =>
    exact (count (hms m (.head _)) w).trans (ih (fun m' hm' => hms m' (.tail _ hm')) _)

theorem noteAll (es : List Event) (w : World) : Adds P w (w.noteAll es) := by
  induction es generalizing w with
  | nil => exact refl w
  | cons e es ih => exact (of_eq rfl).trans (ih (w.note e))

theorem subset (h : Adds P w w') {m : Measurement} (hm : m ∈ w.measurements) :
    m ∈ w'.measurements := by
  obtain ⟨new, hnew, -⟩ := h
  rw [hnew]
  exact List.mem_append_right _ hm

/-- What held of all measurements still does. -/
theorem forall_mem (h : Adds P w w') (hw : ∀ m ∈ w.measurements, P m) :
    ∀ m ∈ w'.measurements, P m := by
  obtain ⟨new, hnew, hP⟩ := h
  intro m hm
  rw [hnew] at hm
  rcases List.mem_append.1 hm with hlate | hearly
  · exact hP m hlate
  · exact hw m hearly

theorem useStore (f : Store → Stored α) (w : World) : Adds P w (w.useStore f).2 :=
  (of_eq rfl).trans (noteAll (f w.store).events _)

/-- A call to the store measures nothing but the call itself. -/
theorem callStore (f : Store → Stored α) (w : World) : Adds P w (w.callStore f).2 := by
  unfold World.callStore
  dsimp only
  split
  · exact (of_eq rfl).trans (useStore f _)
  · exact of_eq rfl
  · exact of_eq rfl

/-- A call to the provider adds what the provider measures. -/
theorem callProvider {f : Provider → Provided} (hf : ∀ p, ∀ m ∈ (f p).measurements, P m)
    (w : World) : Adds P w (w.callProvider f).2 := by
  unfold World.callProvider World.useProvider
  dsimp only
  refine .trans ?_ (.trans (countAll (hf w.provider) _) (of_eq rfl))
  exact .trans (of_eq rfl) (noteAll _ _)

end World.Adds

namespace Provider

variable {m : Measurement}

/-- A provider measures its own calls only. -/
theorem isRequest_of_mem_overNetwork {client : Client} {operation : Operation}
    {replies : List Reply} {exchange : Reply → Exchange}
    (hm : m ∈ (overNetwork client operation replies exchange).measurements) :
    m.isRequest = false := by
  obtain rfl := List.mem_singleton.1 hm
  rfl

/-- The provider measures no request when it creates a meeting. -/
theorem isRequest_of_mem_createMeeting {p : Provider} {title : String}
    (hm : m ∈ (p.createMeeting title).measurements) : m.isRequest = false := by
  cases p with
  | madeUp failsMeetings failsTokens tally => exact nomatch hm
  | listed results => cases results <;> exact nomatch hm
  | remote client replies => exact isRequest_of_mem_overNetwork hm

/-- The provider measures no request when it issues a token. -/
theorem isRequest_of_mem_createParticipant {p : Provider} {meetingId userId : String}
    (hm : m ∈ (p.createParticipant meetingId userId).measurements) : m.isRequest = false := by
  cases p with
  | madeUp failsMeetings failsTokens tally => exact nomatch hm
  | listed results => cases results <;> exact nomatch hm
  | remote client replies => exact isRequest_of_mem_overNetwork hm

end Provider

section Runs

variable {P : Measurement → Prop} (hP : ∀ m : Measurement, m.isRequest = false → P m)
include hP

/-- Whatever an internal call is answered, it measures no request. -/
theorem World.adds_answer (w : World) {c : Call} (hc : c.Inner) : World.Adds P w (w.answer c).2 := by
  cases c with
  | get key => exact .callStore _ w
  | putIf key value expected => exact .callStore _ w
  | ping => exact .callStore _ w
  | createMeeting title =>
    exact .callProvider (fun _ _ hm => hP _ (Provider.isRequest_of_mem_createMeeting hm)) w
  | createParticipant meetingId userId =>
    exact .callProvider (fun _ _ hm => hP _ (Provider.isRequest_of_mem_createParticipant hm)) w
  | freshId =>
    refine .of_eq ?_
    show w.drawBits.2.measurements = w.measurements
    unfold World.drawBits
    split <;> rfl
  | count m => exact .count (hP m hc) w
  | _ => exact .of_eq rfl

variable {is : List (Interruption Sight)} (his : ∀ i ∈ is, ∀ w, World.Adds P w (i.happen w).1)
include his

omit hP in
/-- What interrupts a call adds what it adds by itself. -/
theorem Progress.adds_arrive (p : Progress Sight) (c : Call) :
    World.Adds P p.world (p.arrive is c).world := by
  have hfold : ∀ js : List (Interruption Sight), (∀ i ∈ js, i ∈ is) → ∀ p : Progress Sight,
      World.Adds P p.world (js.foldl Progress.interrupt p).world := by
    intro js hjs
    induction js with
    | nil => exact fun p => .refl p.world
    | cons i js ih =>
      intro p
      have hfirst : World.Adds P p.world (p.interrupt i).world :=
        his i (hjs i (.head _)) p.world
      exact hfirst.trans (ih (fun j hj => hjs j (.tail _ hj)) _)
  unfold Progress.arrive
  cases Point.ofCall? c with
  | none => exact .refl p.world
  | some point =>
    cases point with
    | store => exact hfold _ (fun i hi => List.mem_of_mem_filter hi) _
    | provider => exact hfold _ (fun i hi => List.mem_of_mem_filter hi) _

/-- A run adds no measurement of a request but those of what interrupts it, and what it comes to is
what its program may come to. -/
theorem adds_run {β : Type} {Q : β → Prop} {x : Program β} (hx : x.Contained Q)
    (p : Progress Sight) :
    World.Adds P p.world (run is x p).2.world ∧ ∀ b, (run is x p).1 = some b → Q b := by
  induction x generalizing p with
  | done b => exact ⟨.refl p.world, fun b' hb' => Option.some.inj hb' ▸ hx⟩
  | ask c next ih =>
    have harrive := Progress.adds_arrive his p c
    have hanswer := World.adds_answer hP (p.arrive is c).world hx.1
    unfold run
    dsimp only
    generalize (p.arrive is c).world.answer c = answered at hanswer
    obtain ⟨_ | r, w⟩ := answered
    · exact ⟨harrive.trans hanswer, fun _ hb => nomatch hb⟩
    · obtain ⟨hrest, hresult⟩ := ih r (hx.2 r) (Progress.keep { p.arrive is c with world := w } ⟨c, r⟩)
      refine ⟨(harrive.trans hanswer).trans (World.Adds.trans (.of_eq ?_) hrest), hresult⟩
      unfold Progress.keep
      split <;> rfl

end Runs

/-! ### Scenarios -/

def Action.requests : Action → List Http.Request
  | .http r => [r]
  | _ => []

mutual

/-- The requests of a step and of what interrupts it. -/
def Step.requests : Step → List Http.Request
  | .mk action interludes => action.requests ++ Interlude.requests interludes

def Interlude.requests : List Interlude → List Http.Request
  | [] => []
  | .mk _ _ steps :: rest => Step.requestsAll steps ++ Interlude.requests rest

def Step.requestsAll : List Step → List Http.Request
  | [] => []
  | step :: rest => step.requests ++ Step.requestsAll rest

end

/-- The request that a step is. -/
def Step.request? : Step → Option Http.Request
  | .mk (.http r) _ => some r
  | _ => none

section Steps

open Metrics (IsOf isOf_of_not_isRequest)

variable {requests : List Http.Request} {is : List (Interruption Sight)}

/-- A request is measured with the status of its response. -/
theorem adds_serve (his : ∀ i ∈ is, ∀ w, World.Adds (IsOf requests) w (i.happen w).1)
    {r : Http.Request} (hr : r ∈ requests) (w : World) :
    World.Adds (IsOf requests) w (Action.serve is r w).1 := by
  have hrun := adds_run (fun _ => isOf_of_not_isRequest) his (Http.contained_answer w.appId r)
    { world := w }
  unfold Action.serve
  dsimp only
  generalize run is (Http.answer w.appId r) { world := w } = ran at hrun
  obtain ⟨result, progress⟩ := ran
  obtain ⟨hadds, hresult⟩ := hrun
  have hstatus : (result.getD .timeout).status ∈ Http.statuses := by
    cases result with
    | none => exact .tail _ (.head _)
    | some response => exact (hresult response rfl).status
  exact hadds.trans (.count ⟨⟨r, hr, rfl, rfl⟩, hstatus⟩ _)

/-- An internal program measures the requests of its interludes only. -/
theorem adds_runProgram (his : ∀ i ∈ is, ∀ w, World.Adds (IsOf requests) w (i.happen w).1)
    {β : Type} {x : Program β} (hx : x.Internal) (outcome : β → Outcome) (w : World) :
    World.Adds (IsOf requests) w (Action.runProgram is x outcome w).1 :=
  (adds_run (fun _ => isOf_of_not_isRequest) his hx { world := w }).1

/-- Any action measures the requests it makes and those of its interludes, and no other. Handlers
are internal programs, so that the layer around them is the only one to measure requests. -/
theorem adds_perform (his : ∀ i ∈ is, ∀ w, World.Adds (IsOf requests) w (i.happen w).1)
    {a : Action} (ha : a.requests ⊆ requests) (w : World) :
    World.Adds (IsOf requests) w (a.perform is w).1 := by
  -- what is changed in the store from outside is not measured
  have hmemory : ∀ f, World.Adds (IsOf requests) w (w.mapMemory f) := by
    intro f
    unfold World.mapMemory
    split <;> exact .of_eq rfl
  have hshared : ∀ f, World.Adds (IsOf requests) w (w.mapShared f) := by
    intro f
    unfold World.mapShared
    split <;> exact .of_eq rfl
  -- Jobs and their parts are internal programs; only an HTTP action measures a request.
  cases a with
  | create mode => exact adds_runProgram his (internal_create mode) _ w
  | join mode s request => exact adds_runProgram his (internal_join w.appId mode s request) _ w
  | resolve s mode => exact adds_runProgram his (internal_lookup s mode) _ w
  | load mapping => exact adds_runProgram his (internal_load mapping) _ w
  | http r => exact adds_serve his (ha (.head _)) w
  | createMeeting title =>
    exact adds_runProgram his (Program.internal_call (c := .createMeeting title) trivial) _ w
  | createParticipant meetingId userId =>
    exact adds_runProgram his
      (Program.internal_call (c := .createParticipant meetingId userId) trivial) _ w
  | get key => exact .useStore (fun s => s.get key) w
  | put key value => exact .useStore (fun s => s.put key value) w
  | putIf key value expected => exact .useStore (fun s => s.putIf key value expected) w
  | ping => exact .useStore (fun s => s.ping) w
  | setUnavailable value => exact hmemory _
  | setData key data => exact hshared _
  | eraseData key => exact hshared _
  | setLink link => exact hshared _
  | setMode mode =>
    show World.Adds (IsOf requests) w (w.setMode mode)
    unfold World.setMode
    split <;> exact .of_eq rfl
  | _ => exact .of_eq rfl

mutual

/-- A step measures the requests it makes and no other. -/
theorem adds_take (step : Step) (h : step.requests ⊆ requests) (w : World) :
    World.Adds (IsOf requests) w (step.take w).1 := by
  cases step with
  | mk action interludes =>
    rw [Step.requests, List.append_subset] at h
    exact adds_perform (adds_all interludes h.2) h.1 w

/-- So does every interlude. -/
theorem adds_all (interludes : List Interlude) (h : Interlude.requests interludes ⊆ requests) :
    ∀ i ∈ Interlude.all interludes, ∀ w, World.Adds (IsOf requests) w (i.happen w).1 := by
  cases interludes with
  | nil => exact fun _ hi => nomatch hi
  | cons interlude rest =>
    cases interlude with
    | mk point trigger steps =>
      rw [Interlude.requests, List.append_subset] at h
      intro i hi w
      rcases List.mem_cons.1 hi with rfl | hi
      · exact adds_takeAll steps h.1 w
      · exact adds_all rest h.2 i hi w

/-- A scenario measures the requests it makes and no other. -/
theorem adds_takeAll (steps : List Step) (h : Step.requestsAll steps ⊆ requests) (w : World) :
    World.Adds (IsOf requests) w (Step.takeAll steps w).1 := by
  cases steps with
  | nil => exact .refl w
  | cons step rest =>
    rw [Step.requestsAll, List.append_subset] at h
    exact (adds_take step h.1 w).trans (adds_takeAll rest h.2 _)

end

/-- A request of a scenario is measured, and stays so. -/
theorem exists_measured {steps : List Step} {r : Http.Request}
    (hr : r ∈ steps.filterMap Step.request?) (w : World) :
    ∃ status micros, .request r.method (Http.Route.path r.target) status micros ∈
      (Step.takeAll steps w).1.measurements := by
  induction steps generalizing w with
  | nil => exact nomatch hr
  | cons step rest ih =>
    obtain ⟨step', hstep', hrequest⟩ := List.mem_filterMap.1 hr
    rcases List.mem_cons.1 hstep' with rfl | hrest
    · cases step' with
      | mk action interludes =>
        cases action with
        | http r' =>
          obtain rfl := Option.some.inj hrequest
          -- A request is measured when it is served, and nothing that was measured is lost
          -- afterwards.
          obtain ⟨status, micros, hserved⟩ : ∃ status micros,
              .request r'.method (Http.Route.path r'.target) status micros ∈
                ((Step.mk (.http r') interludes).take w).1.measurements :=
            ⟨_, _, List.mem_cons_self⟩
          exact ⟨status, micros, (adds_takeAll rest (List.Subset.refl _) _).subset hserved⟩
        | _ => exact nomatch hrequest
    · exact ih (List.mem_filterMap.2 ⟨step', hrest, hrequest⟩) _

end Steps

end Simulation

end VoiceRoom
