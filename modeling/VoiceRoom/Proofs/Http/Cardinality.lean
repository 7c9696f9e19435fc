import Mathlib.Data.Finset.Prod
import VoiceRoom.Proofs.Http.Endpoints
import VoiceRoom.Proofs.Http.Measuring

/-!
# How many series requests make

A request adds to one series of the counter of requests and to one of the histogram of their
durations. The endpoint of such a series is one of six, whatever the path, and how the request ended
is one of few values. The method is the one that was sent, whatever it is. So there are as many
series as the methods that clients send allow, and at least one for each (`Http.counted_by_method`).
-/

namespace VoiceRoom

open Simulation

namespace Metrics

/-! ### Series of requests -/

/-- The methods that are meant to be counted. -/
def methods : List String := ["GET", "POST", "PATCH", "DELETE", "PUT", "HEAD", "OPTIONS"]

/-- The endpoints that paths are counted under. -/
def endpoints : List String :=
  ["/", "/health", "/metrics", "/sessions", "/sessions/\x7bid\x7d/join", "/other"]

/-- Every path is measured under one of the endpoints. -/
theorem endpoint_mem (path : String) : endpoint path ∈ endpoints := by
  unfold endpoint
  split
  · rename_i hplain
    rcases hplain with rfl | rfl | rfl | rfl <;> decide
  · split
    · split <;> decide
    · decide

/-- A metric of requests, with the label that tells how they ended and its values. -/
structure Family where
  metric : String
  label : String
  values : List String

namespace Family

def totals : Family :=
  ⟨requestTotal, "status_code", Http.statuses.map Nat.repr⟩

def durations : Family :=
  ⟨requestDurations, "status", ["success", "timeout", "error"]⟩

def series (f : Family) (method endpoint value : String) : Series :=
  ⟨f.metric, [("method", method), ("endpoint", endpoint), (f.label, value)]⟩

/-- The two metrics of requests. -/
def all : List Family := [totals, durations]

end Family

/-- Every status is one of the outcomes. -/
theorem outcomeOf_mem (status : Nat) : outcomeOf status ∈ Family.durations.values := by
  unfold outcomeOf
  split
  · exact .head _
  · split
    · exact .tail _ (.head _)
    · exact .tail _ (.tail _ (.head _))

variable {requests : List Http.Request} {m : Measurement} {s : Series} {f : Family}

/-- The metrics that are not of requests. -/
def otherMetrics : List String :=
  [providerTotal, providerDurations, fallbackTotal, joinTotal, conflictTotal, createdTotal]

/-- What is measured of anything but requests belongs to another metric. -/
theorem metric_mem_otherMetrics (h : m.isRequest = false) (hs : s ∈ touched m) :
    s.metric ∈ otherMetrics := by
  cases m with
  | request method path status micros => exact nomatch h
  | providerCall operation status micros =>
    rcases List.mem_pair.1 hs with rfl | rfl
    · exact .head _
    · exact .tail _ (.head _)
  | fallback operation =>
    obtain rfl := List.mem_singleton.1 hs
    exact .tail _ (.tail _ (.head _))
  | join outcome =>
    obtain rfl := List.mem_singleton.1 hs
    exact .tail _ (.tail _ (.tail _ (.head _)))
  | joinConflict =>
    obtain rfl := List.mem_singleton.1 hs
    decide
  | created kind =>
    obtain rfl := List.mem_singleton.1 hs
    exact .tail _ (.tail _ (.tail _ (.tail _ (.tail _ (.head _)))))

/-- No other metric is one of the requests. -/
theorem metric_not_mem_otherMetrics : ∀ f ∈ Family.all, f.metric ∉ otherMetrics := by
  decide

/-- The series that the measurement of a request adds to. -/
theorem exists_series_of_touched (hm : IsOf requests m) (hs : s ∈ touched m) (hf : f ∈ Family.all)
    (hmetric : s.metric = f.metric) :
    ∃ r ∈ requests, ∃ value ∈ f.values,
      s = f.series r.method (endpoint (Http.Route.path r.target)) value := by
  cases hrequest : m.isRequest with
  | false =>
    have hother := metric_mem_otherMetrics hrequest hs
    rw [hmetric] at hother
    exact absurd hother (metric_not_mem_otherMetrics f hf)
  | true =>
    cases m with
    | request method path status micros =>
      obtain ⟨⟨r, hr, rfl, rfl⟩, hstatus⟩ := hm
      have hapart : requestTotal ≠ requestDurations := by decide
      -- Each request touches one series of each family, and the families differ in their metrics.
      rcases List.mem_pair.1 hf with rfl | rfl <;> rcases List.mem_pair.1 hs with rfl | rfl
      · exact ⟨r, hr, status.repr, List.mem_map_of_mem hstatus, rfl⟩
      · exact absurd hmetric.symm hapart
      · exact absurd hmetric hapart
      · exact ⟨r, hr, outcomeOf status, outcomeOf_mem status, rfl⟩
    | _ => exact nomatch hrequest

end Metrics

/-! ### How many series there are -/

/-- What is left of a list without duplicates was in it. -/
theorem mem_of_mem_eraseDupsBy {α : Type} {r : α → α → Bool} {a : α} :
    ∀ {as : List α}, a ∈ as.eraseDupsBy r → a ∈ as
  | [], h => h
  | b :: as, h => by
    rw [List.eraseDupsBy_cons] at h
    rcases List.mem_cons.1 h with rfl | h
    · exact .head _
    · exact .tail _ (List.mem_of_mem_filter (mem_of_mem_eraseDupsBy h))
termination_by as => as.length
decreasing_by exact Nat.lt_succ_of_le (List.length_filter_le ..)

namespace Metrics

/-- The methods of requests. -/
def methodsOf (requests : List Http.Request) : Finset String :=
  (requests.map Http.Request.method).toFinset

/-- The series that measurements add to. -/
def allTouched (ms : List Measurement) : List Series :=
  ms.flatMap touched

namespace Family

/-- The series of a metric that measurements add to. -/
def found (f : Family) (ms : List Measurement) : Finset Series :=
  ((allTouched ms).filter fun s => s.metric = f.metric).toFinset

end Family

variable {requests : List Http.Request} {ms : List Measurement} {m : Measurement} {f : Family}
  {s : Series}

theorem mem_methodsOf {method : String} :
    method ∈ methodsOf requests ↔ ∃ r ∈ requests, r.method = method := by
  simp [methodsOf]

theorem mem_allTouched (hm : m ∈ ms) (hs : s ∈ touched m) : s ∈ allTouched ms :=
  List.mem_flatMap.2 ⟨m, hm, hs⟩

theorem mem_found : s ∈ f.found ms ↔ s ∈ allTouched ms ∧ s.metric = f.metric := by
  simp [Family.found]

/-- A counter that is shown was added to. -/
theorem mem_allTouched_of_mem_counters (h : s ∈ counters ms.reverse) : s ∈ allTouched ms := by
  have hcounter : s ∈ ms.reverse.map counter :=
    List.mem_eraseDups.1 (List.mem_reverse.1 (mem_of_mem_eraseDupsBy h))
  obtain ⟨m, hm, rfl⟩ := List.mem_map.1 hcounter
  exact mem_allTouched (List.mem_reverse.1 hm) (.head _)

/-- A histogram that is shown was added to. -/
theorem exists_of_mem_histograms (h : s ∈ histograms ms.reverse) :
    ∃ t ∈ allTouched ms, s = written t := by
  obtain ⟨⟨t, micros⟩, ht, rfl⟩ := List.mem_map.1 (List.mem_eraseDups.1 h)
  obtain ⟨m, hm, hduration⟩ := List.mem_filterMap.1 ht
  refine ⟨t, mem_allTouched (List.mem_reverse.1 hm) (.tail _ ?_), rfl⟩
  rw [hduration]
  exact .head _

/-- A series of requests has the method and the endpoint of one of them. -/
theorem exists_series_of_mem_found (hms : ∀ m ∈ ms, IsOf requests m) (hf : f ∈ Family.all)
    (hs : s ∈ f.found ms) : ∃ r ∈ requests, ∃ value ∈ f.values,
      s = f.series r.method (endpoint (Http.Route.path r.target)) value := by
  obtain ⟨htouched, hmetric⟩ := mem_found.1 hs
  obtain ⟨m, hm, hs⟩ := List.mem_flatMap.1 htouched
  exact exists_series_of_touched (hms m hm) hs hf hmetric

/-- A measured request adds to a series with its method. -/
theorem exists_found_of_measured {method path : String} {status micros : Nat}
    (hm : .request method path status micros ∈ ms) (hf : f ∈ Family.all) :
    ∃ s ∈ f.found ms, s.label? "method" = some method := by
  rcases List.mem_pair.1 hf with rfl | rfl
  · exact ⟨_, mem_found.2 ⟨mem_allTouched hm (.head _), rfl⟩, rfl⟩
  · exact ⟨_, mem_found.2 ⟨mem_allTouched hm (.tail _ (.head _)), rfl⟩, rfl⟩

/-- There are no more series than methods, endpoints and ways to end allow. -/
theorem card_found_le (hms : ∀ m ∈ ms, IsOf requests m) (hf : f ∈ Family.all) :
    (f.found ms).card ≤ (methodsOf requests).card * (6 * f.values.length) := by
  let space := methodsOf requests ×ˢ endpoints.toFinset ×ˢ f.values.toFinset
  have hsubset : f.found ms ⊆ space.image fun x => f.series x.1 x.2.1 x.2.2 := by
    intro s hs
    obtain ⟨r, hr, value, hvalue, rfl⟩ := exists_series_of_mem_found hms hf hs
    refine Finset.mem_image.2 ⟨(r.method, endpoint (Http.Route.path r.target), value), ?_, rfl⟩
    simp only [space, Finset.mem_product, List.mem_toFinset]
    exact ⟨mem_methodsOf.2 ⟨r, hr, rfl⟩, endpoint_mem _, hvalue⟩
  have hspace : space.card ≤ (methodsOf requests).card * (6 * f.values.length) := by
    rw [Finset.card_product, Finset.card_product]
    refine Nat.mul_le_mul_left _ (Nat.mul_le_mul ?_ (List.toFinset_card_le _))
    exact List.toFinset_card_le endpoints
  exact (Finset.card_le_card hsubset).trans (Finset.card_image_le.trans hspace)

/-- There is a series for each method that was measured. -/
theorem card_le_card_found {sent : Finset String}
    (h : ∀ method ∈ sent, ∃ s ∈ f.found ms, s.label? "method" = some method) :
    sent.card ≤ (f.found ms).card := by
  have hsubset : sent ⊆ (f.found ms).image fun s => (s.label? "method").getD "" := by
    intro method hmethod
    obtain ⟨s, hs, hlabel⟩ := h method hmethod
    exact Finset.mem_image.2 ⟨s, hs, by rw [hlabel, Option.getD_some]⟩
  exact (Finset.card_le_card hsubset).trans Finset.card_image_le

end Metrics

namespace Http

open Metrics

/-- What a metric of requests holds after a scenario with these requests, of which those that are
`sent` are steps of their own. The others interrupt steps, and perhaps never do. -/
structure CountedByMethod (requests sent : List Request) (ms : List Measurement) (f : Family) :
    Prop where
  endpoint : ∀ s ∈ f.found ms, ∃ e ∈ endpoints, s.label? "endpoint" = some e
  method : ∀ s ∈ f.found ms, ∃ r ∈ requests, s.label? "method" = some r.method
  /-- Every method that is sent gets a series. -/
  every : ∀ r ∈ sent, ∃ s ∈ f.found ms, s.label? "method" = some r.method
  atMost : (f.found ms).card ≤ (methodsOf requests).card * (6 * f.values.length)
  atLeast : (methodsOf sent).card ≤ (f.found ms).card
  /-- With methods that are meant to be counted only, there are no more series than are meant. -/
  expected : (∀ r ∈ requests, r.method ∈ methods) →
    (∀ s ∈ f.found ms, ∃ method ∈ methods, s.label? "method" = some method) ∧
      (f.found ms).card ≤ 7 * (6 * f.values.length)
  /-- A scrape shows no other series. -/
  shown : ∀ s, s.metric = f.metric → (s ∈ counters ms.reverse → s ∈ f.found ms) ∧
    (s ∈ histograms ms.reverse → ∃ t ∈ f.found ms, s = written t)

/-- There are no more methods than those a client is expected to use. -/
theorem card_methodsOf_le {requests : List Request} (h : ∀ r ∈ requests, r.method ∈ methods) :
    (methodsOf requests).card ≤ 7 := by
  have hsubset : methodsOf requests ⊆ methods.toFinset := by
    intro method hmethod
    obtain ⟨r, hr, rfl⟩ := mem_methodsOf.1 hmethod
    exact List.mem_toFinset.2 (h r hr)
  exact (Finset.card_le_card hsubset).trans (List.toFinset_card_le methods)

/-- Whatever is sent and however requests interrupt each other, the endpoints of all series are the
known ones, but the methods are those that were sent. -/
theorem counted_by_method {w : World} (hw : ∀ m ∈ w.measurements, m.isRequest = false)
    (steps : List Step) {f : Family} (hf : f ∈ Family.all) :
    CountedByMethod (Step.requestsAll steps) (steps.filterMap Step.request?)
      (Step.takeAll steps w).1.measurements f := by
  have hms : ∀ m ∈ (Step.takeAll steps w).1.measurements, IsOf (Step.requestsAll steps) m :=
    (adds_takeAll steps (List.Subset.refl _) w).forall_mem fun m hm =>
      isOf_of_not_isRequest (hw m hm)
  have hmethod : ∀ s ∈ f.found (Step.takeAll steps w).1.measurements,
      ∃ r ∈ Step.requestsAll steps, s.label? "method" = some r.method := by
    intro s hs
    obtain ⟨r, hr, value, -, rfl⟩ := exists_series_of_mem_found hms hf hs
    exact ⟨r, hr, rfl⟩
  -- every request leaves a series with its method, whatever it was answered
  have hsent : ∀ r ∈ steps.filterMap Step.request?,
      ∃ s ∈ f.found (Step.takeAll steps w).1.measurements, s.label? "method" = some r.method := by
    intro r hr
    obtain ⟨status, micros, hmeasured⟩ := exists_measured hr w
    exact exists_found_of_measured hmeasured hf
  -- A series is known by a method that was used, one of the endpoints and one of the ways to end.
  have hatMost := card_found_le hms hf
  refine ⟨?endpoint, hmethod, hsent, hatMost, ?atLeast, ?expected, ?shown⟩
  case endpoint =>
    intro s hs
    obtain ⟨r, -, value, -, rfl⟩ := exists_series_of_mem_found hms hf hs
    exact ⟨_, endpoint_mem (Route.path r.target), rfl⟩
  case atLeast =>
    refine card_le_card_found fun method hmember => ?_
    obtain ⟨r, hr, rfl⟩ := mem_methodsOf.1 hmember
    exact hsent r hr
  -- If only the seven methods were used there are only seven values.
  case expected =>
    intro hmethods
    refine ⟨fun s hs => ?_, hatMost.trans (Nat.mul_le_mul_right _ (card_methodsOf_le hmethods))⟩
    obtain ⟨r, hr, hlabel⟩ := hmethod s hs
    exact ⟨r.method, hmethods r hr, hlabel⟩
  case shown =>
    refine fun s hmetric => ⟨fun hs => ?_, fun hs => ?_⟩
    · exact mem_found.2 ⟨mem_allTouched_of_mem_counters hs, hmetric⟩
    · obtain ⟨t, ht, rfl⟩ := exists_of_mem_histograms hs
      exact ⟨t, mem_found.2 ⟨ht, hmetric⟩, rfl⟩

/-- A world in which nothing was measured yet. -/
def freshWorld : World where
  appId := "app"
  clock := 0
  store := .memory {}
  provider := .listed []
  mode := .mock
  storeMs := 0
  providerMs := 0
  bits := []

theorem freshWorld_unmeasured : ∀ m ∈ freshWorld.measurements, m.isRequest = false := by
  simp [freshWorld]

/-- Requests with these methods for the root, one after the other. -/
def knocks (methods : List String) : List Step :=
  methods.map fun method => .mk (.http ⟨method, "/", [], []⟩) []

/-- Two requests are counted, one of them with a method that nobody expects. -/
theorem counted_by_method_knocks :
    (∀ m ∈ freshWorld.measurements, m.isRequest = false) ∧ Family.totals ∈ Family.all ∧
      CountedByMethod (Step.requestsAll (knocks ["GET", "FOO"]))
        ((knocks ["GET", "FOO"]).filterMap Step.request?)
        (Step.takeAll (knocks ["GET", "FOO"]) freshWorld).1.measurements Family.totals :=
  ⟨freshWorld_unmeasured, .head _, counted_by_method freshWorld_unmeasured _ (.head _)⟩

/-- A method that is not meant to be counted is. -/
theorem unexpected_method_counted :
    (∀ m ∈ freshWorld.measurements, m.isRequest = false) ∧
      ∀ f ∈ Family.all, ∃ s ∈ f.found (Step.takeAll (knocks ["FOO"]) freshWorld).1.measurements,
        s.label? "method" = some "FOO" ∧ "FOO" ∉ methods := by
  refine ⟨freshWorld_unmeasured, fun f hf => ?_⟩
  have hmeasured : .request "FOO" "/" 405 0 ∈
      (Step.takeAll (knocks ["FOO"]) freshWorld).1.measurements := by
    decide
  obtain ⟨s, hs, hlabel⟩ := exists_found_of_measured hmeasured hf
  exact ⟨s, hs, hlabel, by decide⟩

/-- Clients can make as many series as they like. -/
theorem series_unbounded (n : Nat) : ∃ steps : List Step, ∀ f ∈ Family.all,
    n ≤ (f.found (Step.takeAll steps freshWorld).1.measurements).card := by
  let name := fun i : Nat => String.ofList (List.replicate i 'A')
  have hname : Function.Injective name := by
    intro i k h
    have hlength := congrArg List.length (String.ofList_injective h)
    simpa using hlength
  refine ⟨knocks ((List.range n).map name), fun f hf => ?_⟩
  have hcard : ((Finset.range n).image name).card = n := by
    rw [Finset.card_image_of_injective _ hname, Finset.card_range]
  refine hcard.symm.le.trans (card_le_card_found fun method hmethod => ?_)
  obtain ⟨i, hi, rfl⟩ := Finset.mem_image.1 hmethod
  have hsent : (⟨name i, "/", [], []⟩ : Request) ∈
      (knocks ((List.range n).map name)).filterMap Step.request? := by
    refine List.mem_filterMap.2 ⟨_, List.mem_map_of_mem ?_, rfl⟩
    exact List.mem_map_of_mem (List.mem_range.2 (Finset.mem_range.1 hi))
  obtain ⟨status, micros, hmeasured⟩ := exists_measured hsent freshWorld
  exact exists_found_of_measured hmeasured hf

end Http

end VoiceRoom
