import VoiceRoom.Proofs.Http.Handling
import VoiceRoom.Simulation.Scenario

/-!
# Requests are counted under their routes

The router and the metrics look at paths independently of each other. For every path that starts
with a slash they agree: the endpoint that it is counted under is the template of its route, and
`/other` if it leads nowhere (`Http.counted_under_route`). A session id takes exactly one segment,
whatever is in it and even if nothing is (`Route.ofPath?_eq_some_iff`).
-/

namespace VoiceRoom

open Conduct (Came)
open Simulation (Action Entry Interruption Sight World)

namespace Metrics

/-- The series that a measurement adds to. -/
def touched (m : Measurement) : List Series :=
  counter m :: ((duration? m).map Prod.fst).toList

end Metrics

/-- The value of a label. -/
def Series.label? (s : Series) (name : String) : Option String :=
  s.labels.lookup name

namespace Http

namespace Route

/-- The path that leads to a route. -/
def address : Route → String
  | root => "/"
  | health => "/health"
  | metrics => "/metrics"
  | sessions => "/sessions"
  | join segment => "/sessions/" ++ segment ++ "/join"

/-- The path without the session id. -/
def template : Route → String
  | join _ => "/sessions/\x7bid\x7d/join"
  | route => route.address

/-- The session id is in one segment. -/
def Segmented : Route → Prop
  | join segment => '/' ∉ segment.toList
  | _ => True

/-- The segments of the path, with what is in front of the first slash. -/
def segments : Route → List (List Char)
  | root => [[], []]
  | health => [[], "health".toList]
  | metrics => [[], "metrics".toList]
  | sessions => [[], "sessions".toList]
  | join segment => [[], "sessions".toList, segment.toList, "join".toList]

/-- An address is spelt segment by segment. -/
theorem toList_address (route : Route) :
    route.address.toList = ['/'].intercalate route.segments := by
  cases route with
  | join segment => simp [address, segments, List.intercalate]
  | _ => rfl

/-- In the segments of a route there is no slash. -/
theorem slash_not_mem_segments {route : Route} (h : route.Segmented) :
    ∀ piece ∈ route.segments, '/' ∉ piece := by
  cases route with
  | join segment =>
    intro piece hpiece
    simp only [segments, List.mem_cons, List.not_mem_nil, or_false] at hpiece
    rcases hpiece with rfl | rfl | rfl | rfl
    · decide
    · decide
    · exact h
    · decide
  | _ => decide

variable {path : String} {route : Route}

/-- The route of a path is told by its segments. -/
theorem ofPath?_eq_some_iff_segments :
    ofPath? path = some route ↔ path.toList.splitOn '/' = route.segments := by
  constructor
  · intro h
    unfold ofPath? at h
    split at h
    · cases h
      assumption
    · rename_i area _ hsplit
      -- One segment: its three names are the routes without a session.
      rw [hsplit]
      split at h
      · subst area
        cases h
        rfl
      · split at h
        · subst area
          cases h
          rfl
        · split at h
          · subst area
            cases h
            rfl
          · cases h
    · rename_i area segment action hsplit
      split at h
      · rename_i hwords
        obtain ⟨rfl, rfl⟩ := hwords
        cases h
        simpa [segments] using hsplit
      · cases h
    · cases h
  · intro h
    unfold ofPath?
    rw [h]
    cases route with
    | join segment => simp [segments]
    | _ => rfl

/-- What is between slashes holds none. -/
theorem slash_not_mem_of_mem_splitOn {cs piece : List Char} (h : piece ∈ cs.splitOn '/') :
    '/' ∉ piece := by
  induction cs generalizing piece with
  | nil =>
    rw [List.splitOn_nil, List.mem_singleton] at h
    subst h
    exact List.not_mem_nil
  | cons c cs ih =>
    rw [List.splitOn_cons_eq_if_modifyHead] at h
    split at h
    · rcases List.mem_cons.1 h with rfl | h
      · exact List.not_mem_nil
      · exact ih h
    -- the first piece grows by a character that is no slash
    · rename_i hc
      obtain ⟨first, rest, hsplit⟩ := List.exists_cons_of_ne_nil (List.splitOn_ne_nil '/' cs)
      rw [hsplit, List.modifyHead_cons] at h
      rw [hsplit] at ih
      rcases List.mem_cons.1 h with rfl | h
      · rintro (_ | ⟨_, hmem⟩)
        · exact hc (by decide)
        · exact ih List.mem_cons_self hmem
      · exact ih (List.mem_cons_of_mem _ h)

/-- A path leads to a route exactly if it is written as the route says, with the session id in one
segment. -/
theorem ofPath?_eq_some_iff :
    ofPath? path = some route ↔ path = route.address ∧ route.Segmented := by
  rw [ofPath?_eq_some_iff_segments]
  constructor
  · intro h
    refine ⟨?_, ?_⟩
    · apply String.toList_injective
      rw [toList_address, ← h, List.intercalate_splitOn]
    · cases route with
      | join segment =>
        have hsegment : segment.toList ∈ path.toList.splitOn '/' := by simp [h, segments]
        exact slash_not_mem_of_mem_splitOn hsegment
      | _ => exact trivial
  · rintro ⟨rfl, hsegmented⟩
    rw [toList_address]
    refine List.splitOn_intercalate '/' (slash_not_mem_segments hsegmented) ?_
    cases route <;> exact nofun

end Route

/-! ### Endpoints -/

section Endpoints

variable {path : String} {route : Route}

/-- What is counted as it is leads to a route without a session. -/
theorem exists_route_of_plain
    (h : path = "/" ∨ path = "/health" ∨ path = "/metrics" ∨ path = "/sessions") :
    ∃ route, Route.ofPath? path = some route ∧ route.template = path := by
  rcases h with rfl | rfl | rfl | rfl
  · exact ⟨.root, Route.ofPath?_eq_some_iff.2 ⟨rfl, trivial⟩, rfl⟩
  · exact ⟨.health, Route.ofPath?_eq_some_iff.2 ⟨rfl, trivial⟩, rfl⟩
  · exact ⟨.metrics, Route.ofPath?_eq_some_iff.2 ⟨rfl, trivial⟩, rfl⟩
  · exact ⟨.sessions, Route.ofPath?_eq_some_iff.2 ⟨rfl, trivial⟩, rfl⟩

/-- A path that leads to a route is counted under its template. -/
theorem endpoint_of_route (h : Route.ofPath? path = some route) :
    Metrics.endpoint path = route.template := by
  unfold Metrics.endpoint
  split
  · rename_i hplain
    obtain ⟨route', hroute', htemplate⟩ := exists_route_of_plain hplain
    obtain rfl : route = route' := Option.some.inj (h.symm.trans hroute')
    exact htemplate.symm
  · rename_i hplain
    have haddress := (Route.ofPath?_eq_some_iff.1 h).1
    -- Every route but that of joins has a plain address.
    cases route with
    | join segment =>
      have hsegments : Metrics.segments path = Route.segments (.join segment) :=
        Route.ofPath?_eq_some_iff_segments.1 h
      rw [hsegments]
      exact if_pos ⟨rfl, rfl⟩
    | root => exact absurd (.inl haddress) hplain
    | health => exact absurd (.inr (.inl haddress)) hplain
    | metrics => exact absurd (.inr (.inr (.inl haddress))) hplain
    | sessions => exact absurd (.inr (.inr (.inr haddress))) hplain

/-- A path that leads nowhere is counted with all others that do. -/
theorem endpoint_of_no_route (hslash : path.toList.head? = some '/')
    (h : Route.ofPath? path = none) : Metrics.endpoint path = "/other" := by
  unfold Metrics.endpoint
  split
  · rename_i hplain
    obtain ⟨route, hroute, -⟩ := exists_route_of_plain hplain
    rw [h] at hroute
    exact nomatch hroute
  · split
    · rename_i first area segment action hsegments
      refine if_neg ?_
      rintro ⟨rfl, rfl⟩
      -- Nothing is in front of the first slash, so this would be the path of a join.
      obtain ⟨rest, hrest⟩ := List.head?_eq_some_iff.1 hslash
      have hfirst : [] :: rest.splitOn '/' = Metrics.segments path := by
        rw [Metrics.segments, hrest, List.splitOn_cons_eq_if_modifyHead]
        exact (if_pos rfl).symm
      rw [hsegments] at hfirst
      obtain rfl := (List.cons.inj hfirst).1
      have hjoin : Route.ofPath? path = some (.join (String.ofList segment)) := by
        rw [← String.toList_ofList (l := segment)] at hsegments
        exact Route.ofPath?_eq_some_iff_segments.2 hsegments
      rw [h] at hjoin
      exact nomatch hjoin
    · rfl

/-- No route is measured as one of the others. -/
theorem template_ne_other (route : Route) : route.template ≠ "/other" := by
  cases route <;> simp [Route.template, Route.address]

end Endpoints

/-- What requests for a path are counted under: their route. -/
structure CountedUnderRoute (path : String) : Prop where
  /-- The endpoint is the template of the route. -/
  template : Metrics.endpoint path = ((Route.ofPath? path).map Route.template).getD "/other"
  other : Metrics.endpoint path = "/other" ↔ Route.ofPath? path = none
  routed : ∀ route, Route.ofPath? path = some route ↔ path = route.address ∧ route.Segmented
  /-- A request is counted once it is served, whatever interrupts it. -/
  recorded : ∀ (is : List (Interruption Sight)) (r : Request) (w : World),
    Route.path r.target = path → ∃ m earlier,
      (Action.serve is r w).1.measurements = m :: earlier ∧ m.isRequest = true ∧
        ∀ s ∈ Metrics.touched m, s.label? "endpoint" = some (Metrics.endpoint path)
  /-- A path is not found exactly if it is counted as one that leads nowhere. -/
  answered : ∀ (appId : String) (r : Request) (told : List Entry) (response : Response),
    Route.path r.target = path → Came (answer appId r) told (.done response) →
      (response.status = 404 ↔ Metrics.endpoint path = "/other")

/-- The metrics agree with the router on every path that starts with a slash. -/
theorem counted_under_route {path : String} (hslash : path.toList.head? = some '/') :
    CountedUnderRoute path := by
  have hother : Metrics.endpoint path = "/other" ↔ Route.ofPath? path = none := by
    refine ⟨fun hendpoint => ?_, endpoint_of_no_route hslash⟩
    -- A path with a route is measured under its template, which is none of the others.
    cases hroute : Route.ofPath? path with
    | none => rfl
    | some route =>
      rw [endpoint_of_route hroute] at hendpoint
      exact absurd hendpoint (template_ne_other route)
  refine ⟨?_, hother, fun route => Route.ofPath?_eq_some_iff, ?_, ?_⟩
  · cases hroute : Route.ofPath? path with
    | none => exact endpoint_of_no_route hslash hroute
    | some route => exact endpoint_of_route hroute
  · rintro is r w rfl
    refine ⟨_, _, rfl, rfl, fun s hs => ?_⟩
    rcases List.mem_cons.1 hs with rfl | hs
    · rfl
    · obtain rfl := List.mem_singleton.1 hs
      rfl
  · rintro appId r told response rfl hcame
    rw [hother]
    exact ((contained_answer appId r).came hcame).lost

/-- A slash that is encoded is no slash, neither to the router nor to the metrics. -/
theorem counted_under_route_encodedSlash :
    "/sessions/a%2Fb/join".toList.head? = some '/' ∧ CountedUnderRoute "/sessions/a%2Fb/join" ∧
      Metrics.endpoint "/sessions/a%2Fb/join" = "/sessions/\x7bid\x7d/join" :=
  ⟨by decide, counted_under_route (by decide), by decide⟩

/-- A session id that is there takes one segment. -/
def Route.Named : Route → Prop
  | .join segment => segment ≠ "" ∧ '/' ∉ segment.toList
  | _ => True

/-- A path leads to the join of a session without an id, and is counted under it. -/
theorem joins_without_id :
    "/sessions//join".toList.head? = some '/' ∧
      (¬∃ route : Route, "/sessions//join" = route.address ∧ route.Named) ∧
      Route.ofPath? "/sessions//join" = some (.join "") ∧
      Metrics.endpoint "/sessions//join" = "/sessions/\x7bid\x7d/join" := by
  have hroute : Route.ofPath? "/sessions//join" = some (.join "") := by decide
  refine ⟨by decide, ?_, hroute, by decide⟩
  rintro ⟨route, haddress, hnamed⟩
  have hsegmented : route.Segmented := by
    cases route with
    | join segment => exact hnamed.2
    | _ => exact trivial
  obtain rfl : Route.join "" = route :=
    Option.some.inj (hroute.symm.trans (Route.ofPath?_eq_some_iff.2 ⟨haddress, hsegmented⟩))
  exact hnamed.1 rfl

end Http

end VoiceRoom
