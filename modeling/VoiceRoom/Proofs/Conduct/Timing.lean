import VoiceRoom.Proofs.Conduct.Attempts

/-!
# The times that requests write

A request that writes a session has made it, or has read it before. The clock is read after that and
before the write, so the time of a new member is later than all times of the session that was read
(`Dated`). It does not matter how long the request is held up in between, since the write is for the
version that was read.

Nothing is taken for granted of the clock and of the store here. Whether the sessions that are
written are chronological depends on what was told (`Forward`): on a clock that does not go back and
on records that are chronological.
-/

namespace VoiceRoom

open Simulation (Entry)

namespace Session

/-- The times in a session: when it was made, and when its members joined. -/
def times (x : Session) : List Int :=
  x.createdAt :: x.users.map Member.joinedAt

/-- A session was made before its members joined, and these are listed as they came. -/
def Chronological (x : Session) : Prop :=
  x.times.Pairwise (· ≤ ·)

/-- Who is in already adds no time. -/
theorem times_add_of_hasMember {x : Session} {m : Member} (h : x.hasMember m.userId = true) :
    (x.add m).times = x.times := by
  rw [add_of_hasMember h]

/-- A new member adds the time of joining. -/
theorem times_add_of_not_hasMember {x : Session} {m : Member} (h : ¬ x.hasMember m.userId = true) :
    (x.add m).times = x.times ++ [m.joinedAt] := by
  simp [times, add, h]

end Session

namespace Conduct

/-! ### Times that a request knows -/

/-- A time was on the clock, or in a session that was read. -/
inductive Seen (told : List Entry) (t : Int) : Prop where
  | clock (h : ⟨.now, t⟩ ∈ told)
  | record {k : String} {v : Versioned} {x : Session}
      (h : ⟨.get (sessionKey k), .ok (some v)⟩ ∈ told) (hx : Session.decode v.value = .ok x)
      (ht : t ∈ x.times)

theorem Seen.suffix {told told' : List Entry} {t : Int} (h : Seen told t)
    (hsuffix : told <:+ told') : Seen told' t := by
  cases h with
  | clock h => exact .clock (hsuffix.subset h)
  | record h hx ht => exact .record (hsuffix.subset h) hx ht

/-- The clock never showed a time before one that was seen already, and sessions that were read are
chronological. -/
structure Forward (told : List Entry) : Prop where
  clock : ∀ t before, ⟨.now, t⟩ :: before <:+ told → ∀ t', Seen before t' → t' ≤ t
  records : ∀ k v x, ⟨.get (sessionKey k), .ok (some v)⟩ ∈ told →
    Session.decode v.value = .ok x → x.Chronological

theorem Forward.of_suffix {told told' : List Entry} (h : Forward told') (hsuffix : told <:+ told') :
    Forward told where
  clock t before hbefore := h.clock t before (hbefore.trans hsuffix)
  records k v x hread := h.records k v x (hsuffix.subset hread)

/-- The times of a session were seen, and it is chronological if time goes forward. -/
structure Dated (told : List Entry) (x : Session) : Prop where
  timed : x.Timed
  seen : ∀ t ∈ x.times, Seen told t
  chronological : Forward told → x.Chronological

namespace Dated

variable {told told' : List Entry} {x y : Session}

theorem suffix (h : Dated told x) (hsuffix : told <:+ told') : Dated told' x where
  timed := h.timed
  seen t ht := (h.seen t ht).suffix hsuffix
  chronological hforward := h.chronological (hforward.of_suffix hsuffix)

/-- A session that has just been made. -/
theorem new (s : String) (meeting : Meeting) {t : Int} (ht : fitsInt64 t) (told : List Entry) :
    Dated (⟨.now, t⟩ :: told) (.new s meeting t) where
  timed := Session.timed_new s meeting ht
  seen t' ht' := by
    obtain rfl : t' = t := List.mem_singleton.1 ht'
    exact .clock List.mem_cons_self
  chronological _ := List.pairwise_singleton _ _

/-- A session that was read. -/
theorem loaded {k : String} {v : Versioned}
    (h : ⟨.get (sessionKey k), .ok (some v)⟩ ∈ told) (hx : Session.decode v.value = .ok x) :
    Dated told x where
  timed := Session.timed_of_decode hx
  seen _ ht := .record h hx ht
  chronological hforward := hforward.records k v x h hx

/-- Only the times of a session matter. -/
theorem congr (h : Dated told x) (hcreated : y.createdAt = x.createdAt) (husers : y.users = x.users) :
    Dated told y := by
  have htimes : y.times = x.times := by
    rw [Session.times, hcreated, husers, Session.times]
  refine ⟨⟨?_, ?_⟩, ?_, fun hforward => ?_⟩
  · rw [hcreated]
    exact h.timed.created
  · rw [husers]
    exact h.timed.joined
  · rw [htimes]
    exact h.seen
  · show y.times.Pairwise (· ≤ ·)
    rw [htimes]
    exact h.chronological hforward

theorem graded {d : Draft} (h : Dated told d.session) (degraded : Bool) :
    Dated told (d.graded degraded).session := by
  unfold Draft.graded
  split
  · exact h
  · exact h.congr rfl rfl

/-- Who joins comes after all that was seen. -/
theorem add (h : Dated told x) {m : Member} (ht : fitsInt64 m.joinedAt) :
    Dated (⟨.now, m.joinedAt⟩ :: told) (x.add m) where
  timed := h.timed.add ht
  seen t hmem := by
    by_cases hmember : x.hasMember m.userId = true
    · rw [Session.times_add_of_hasMember hmember] at hmem
      exact (h.seen t hmem).suffix (List.suffix_cons _ told)
    · rw [Session.times_add_of_not_hasMember hmember] at hmem
      rcases List.mem_append.1 hmem with hold | hnew
      · exact (h.seen t hold).suffix (List.suffix_cons _ told)
      · obtain rfl := List.mem_singleton.1 hnew
        exact .clock List.mem_cons_self
  chronological hforward := by
    -- The new member joined at the time that the clock shows now, and all the others have been seen
    -- before.
    have hx : x.Chronological := h.chronological (hforward.of_suffix (List.suffix_cons _ told))
    show (x.add m).times.Pairwise (· ≤ ·)
    by_cases hmember : x.hasMember m.userId = true
    · rw [Session.times_add_of_hasMember hmember]
      exact hx
    · rw [Session.times_add_of_not_hasMember hmember, List.pairwise_append]
      refine ⟨hx, List.pairwise_singleton _ _, ?_⟩
      intro t hold t' hnew
      obtain rfl := List.mem_singleton.1 hnew
      exact hforward.clock _ told (List.suffix_refl _) t (h.seen t hold)

end Dated

/-! ### What is written -/

/-- A session is written only with times that were seen. -/
def timing : Code where
  permits told c := ∀ k value expected, c = .putIf (sessionKey k) value expected →
    ∃ x, Session.decode value = .ok x ∧ Dated told x
  harmless hc := by
    rintro k value expected rfl
    exact hc.elim

namespace Code

variable {told : List Entry} {C : List Entry → Prop} {j : Joiner}

theorem permits_session {k : String} {x : Session} {expected : Option Nat} (h : Dated told x) :
    timing.permits told (.putIf (sessionKey k) x.encode expected) := by
  intro k' value expected' hcall
  obtain ⟨-, rfl, -⟩ := Call.putIf.inj hcall
  exact ⟨x, Session.decode_encode h.timed, h⟩

theorem timing_sessionsOnly : timing.SessionsOnly :=
  fun _ _ hc k value expected hcall => absurd hcall (hc k value expected)

theorem complies_openMapped_dated (mapping : Mapping) :
    timing.Complies (j.openMapped mapping) (fun d told' => Dated told' d.session) C told := by
  refine complies_openMapped (fun t told' ht _ => .new j.sessionId _ ht told')
    fun stored x told' hread hdecode => ?_
  have hmem := (Hushed.suffix hread).subset List.mem_cons_self
  exact (Dated.loaded hmem hdecode).congr rfl rfl

theorem complies_openAllocated_dated (meeting : Meeting) :
    timing.Complies (j.openAllocated meeting) (fun d told' => Dated told' d.session) C told := by
  refine complies_openAllocated (fun t told' ht _ => .new j.sessionId meeting ht told')
    (fun stored x told' hread hdecode => ?_)
    fun stored x t told' ht _ _ _ => .new j.sessionId meeting ht told'
  have hmem := (Hushed.suffix hread).subset List.mem_cons_self
  have hloaded : Dated told' (x.fit (.ofMeeting meeting)) :=
    (Dated.loaded hmem hdecode).congr rfl rfl
  exact hloaded.graded meeting.degraded

/-- Who enters a dated session keeps to the rules about time. -/
theorem complies_enter_dated {d : Draft} (h : Dated told d.session) :
    timing.Complies (j.enter d) (fun _ _ => True) C told := by
  refine complies_enter (fun _ _ _ _ => trivial) fun t ht => ⟨?_, trivial, fun _ => trivial⟩
  exact permits_session (Dated.add (m := ⟨j.userId, t, j.iconUrl⟩) h ht)

/-! ### Requests -/

/-- Joins keep to the rules about time. -/
theorem abides_join_timing (appId : String) (mode : Mode) (s : String) (r : JoinRequest) :
    timing.Abides (join appId mode s r).run (fun _ _ => True) [] := by
  unfold join
  cases r.validate with
  | error fault => exact abides_ask_quiet trivial fun _ _ _ _ => trivial
  | ok userId =>
    exact timing_sessionsOnly.abides_retry (fun mapping _ => complies_openMapped_dated mapping)
      (fun meeting _ => complies_openAllocated_dated meeting) (fun _ _ hd => complies_enter_dated hd)
      maxAttempts none []

/-- Creates keep to the rules about time. -/
theorem complies_create_dated (mode : Mode) :
    timing.Complies (create mode) (fun _ _ => True) (fun _ => True) [] := by
  unfold create
  refine complies_lift ⟨fun _ _ _ h => (nomatch h), fun s _ => ?_⟩
  refine complies_lift ((timing_sessionsOnly.abides_allocate mode s).mono fun meeting told _ _ => ?_)
  refine complies_now fun t ht => ?_
  have hnew := Dated.new s meeting ht told
  dsimp only
  refine complies_putIf (timing_sessionsOnly.permits_mapping _ _ _) fun outcome => ?_
  cases outcome with
  | conflict => exact complies_note fun _ _ => complies_throw fun _ _ => trivial
  | written n =>
    refine complies_putIf (permits_session (hnew.suffix (List.suffix_cons _ _))) fun outcome => ?_
    cases outcome with
    | conflict => exact complies_note fun _ _ => complies_throw fun _ _ => trivial
    | written n => exact complies_count fun _ _ => complies_note fun _ _ => complies_pure trivial

end Code

/-- Every request writes sessions only with times that it has seen. -/
theorem abides_timing (appId : String) (job : Concurrency.Job) :
    timing.Abides (job.program appId) (fun _ _ => True) [] := by
  cases job with
  | create mode =>
    exact Code.Abides.map (Code.Abides.mono (Code.complies_create_dated mode)
      fun _ _ _ _ => trivial)
  | join mode s r => exact Code.Abides.map (Code.abides_join_timing appId mode s r)

end Conduct

end VoiceRoom
