import VoiceRoom.Proofs.Conduct.Attempts
import VoiceRoom.Proofs.Conduct.Candour

/-!
# Who warns of an orphaned meeting

A join in real mode may be given a meeting and then end up in another one. From one attempt to the
next it holds on to the meeting that it was given (`Holding`), and it warns of it only when it is
let in: then exactly if the session is in another meeting (`Confessed`). A join that ends in an
error has not warned of anything, whatever became of its meeting (`abides_join_confessed`).
-/

namespace VoiceRoom

open Simulation (Entry)

/-- Whether an event is the warning that a meeting is orphaned. -/
def Event.warnsOfOrphan (e : Event) : Bool :=
  e.message == "Provider meeting orphaned by concurrent allocation"

namespace Conduct

def warning? : Entry → Option Event
  | ⟨.note e, _⟩ => if e.warnsOfOrphan then some e else none
  | _ => none

/-- The warnings that a meeting is orphaned, latest first. -/
def warnings (told : List Entry) : List Event :=
  told.filterMap warning?

def gift? : Entry → Option String
  | ⟨.createMeeting _, .ok meetingId⟩ => some meetingId
  | _ => none

/-- The meetings that the provider gave, latest first. -/
def gifts (told : List Entry) : List String :=
  told.filterMap gift?

/-- The gifts are the meetings that the provider created. -/
theorem mem_gifts_iff {told : List Entry} {meetingId : String} :
    meetingId ∈ gifts told ↔ ∃ title, ⟨.createMeeting title, .ok meetingId⟩ ∈ told := by
  constructor
  · intro h
    obtain ⟨⟨c, r⟩, hmem, hgift⟩ := List.mem_filterMap.1 h
    cases c with
    | createMeeting title =>
      cases r with
      | ok given =>
        obtain rfl := Option.some.inj hgift
        exact ⟨title, hmem⟩
      | error e => exact nomatch hgift
    | _ => exact nomatch hgift
  · rintro ⟨title, hmem⟩
    exact List.mem_filterMap.2 ⟨_, hmem, rfl⟩

/-! ### What a join holds on to -/

/-- The real meeting in a join's hands. -/
def heldIds : Option Meeting → List String
  | some ⟨meetingId, .real, _⟩ => [meetingId]
  | _ => []

/-- A join has in its hands what the provider gave it, and has warned of nothing. -/
structure Holding (held : Option Meeting) (told : List Entry) : Prop where
  gifts : gifts told = heldIds held
  silent : warnings told = []

/-- A session that a join comes to is in a real meeting if the join has one in its hands. -/
structure Placed (held : Option Meeting) (told : List Entry) (x : Session) : Prop where
  holding : Holding held told
  real : ∀ meeting, held = some meeting → meeting.kind = .real → x.kind = .real

/-- What is known of an attempt. -/
def Landed (held : Option Meeting) (told : List Entry) : Attempt → Prop
  | .raced => Holding held told
  | .joined x _ => Placed held told x

/-- A join that fails has warned of nothing. -/
def Unwarned (_ : ServiceError) (told : List Entry) : Prop :=
  warnings told = []

section Holding

variable {held : Option Meeting} {told : List Entry} {e : Entry} {x : Session}

theorem holding_start : Holding none [] :=
  ⟨rfl, rfl⟩

/-- Most calls do not count. -/
theorem Holding.cons (h : Holding held told) (hgift : gift? e = none)
    (hwarning : warning? e = none) : Holding held (e :: told) where
  gifts := (List.filterMap_cons_none hgift).trans h.gifts
  silent := (List.filterMap_cons_none hwarning).trans h.silent

/-- A meeting that is given is held. -/
theorem Holding.given (h : Holding none told) (title meetingId : String) :
    Holding (some ⟨meetingId, .real, false⟩) (⟨.createMeeting title, .ok meetingId⟩ :: told) where
  gifts := by
    have hnone : Conduct.gifts told = [] := h.gifts
    show meetingId :: Conduct.gifts told = [meetingId]
    rw [hnone]
  silent := h.silent

/-- A mock meeting was not given by the provider. -/
theorem Holding.mock (h : Holding none told) (s : String) (degraded : Bool) :
    Holding (some (mockMeeting s degraded)) told :=
  ⟨h.gifts, h.silent⟩

theorem Placed.cons (h : Placed held told x) (hgift : gift? e = none)
    (hwarning : warning? e = none) : Placed held (e :: told) x :=
  ⟨h.holding.cons hgift hwarning, h.real⟩

theorem Placed.congr {y : Session} (h : Placed held told x) (hkind : y.kind = x.kind) :
    Placed held told y := by
  refine ⟨h.holding, ?_⟩
  intro meeting hheld hreal
  rw [hkind]
  exact h.real meeting hheld hreal

end Holding

/-! ### Attempts -/

namespace Code

variable {β : Type} {told : List Entry} {j : Joiner} {held : Option Meeting}
variable {R : β → List Entry → Prop}

theorem comes_lookup_holding {s : String} {mode : Mode} {f : Resolution → Request β}
    (h : Holding held told)
    (hf : ∀ stored told', Holding held told' →
      licence.Comes (f (.read mode stored)) R Unwarned told') :
    licence.Comes (Request.ofStore (Resolution.lookup s mode) >>= f) R Unwarned told := by
  refine comes_ofStore ⟨trivial, fun r _ => ?_⟩
  match r with
  | .error e => exact (h.cons rfl rfl).silent
  | .ok none => exact hf none _ (h.cons rfl rfl)
  | .ok (some stored) =>
    have hread := h.cons (e := ⟨.get (mappingKey s), .ok (some stored)⟩) rfl rfl
    have hstored : ∀ told', Holding held told' →
        licence.Comes (f (.ofStored mode stored)) R Unwarned told' := hf (some stored)
    dsimp only [Program.call, bind, Program.bind, pure]
    -- Only a mapping that is stale is noted; the note is no warning.
    cases hresolution : Resolution.ofStored mode stored with
    | stale mapping version =>
      rw [hresolution] at hstored
      exact ⟨trivial, fun _ _ => hstored _ (hread.cons rfl rfl)⟩
    | found mapping version =>
      rw [hresolution] at hstored
      exact hstored _ hread
    | absent =>
      rw [hresolution] at hstored
      exact hstored _ hread

/-- What is allocated is held. -/
theorem abides_allocate_holding (s : String) (h : Holding none told) :
    licence.Abides (allocate .real s) (fun meeting told' => Holding (some meeting) told') told := by
  refine ⟨trivial, fun r _ => ?_⟩
  cases r with
  | ok meetingId => exact h.given s meetingId
  | error e =>
    -- The failure is noted and counted before a mock meeting stands in.
    have hrefused := h.cons (e := ⟨.createMeeting s, .error e⟩) rfl rfl
    exact ⟨trivial, fun _ _ => ⟨trivial, fun _ _ =>
      ((hrefused.cons rfl rfl).cons rfl rfl).mock s true⟩⟩

/-- Loading a session keeps what is held, and its kind is that of the mapping. -/
theorem comes_load_holding {mapping : Mapping} {f : Option Loaded → Request β}
    (h : Holding held told)
    (hnone : ∀ told', Holding held told' → licence.Comes (f none) R Unwarned told')
    (hsome : ∀ loaded told', Holding held told' → loaded.session.kind = mapping.kind →
      licence.Comes (f (some loaded)) R Unwarned told') :
    licence.Comes (load mapping >>= f) R Unwarned told := by
  refine Comes.bind ?_
  unfold load
  refine comes_get (fun stored => ?_) fun e => (h.cons rfl rfl).silent
  cases stored with
  | none => exact comes_pure (hnone _ (h.cons rfl rfl))
  | some stored =>
    have hread := h.cons (e := ⟨.get (sessionKey mapping.meetingId), .ok (some stored)⟩) rfl rfl
    dsimp only
    cases Session.decode stored.value with
    | error fault => exact comes_note (comes_throw (hread.cons rfl rfl).silent)
    | ok x =>
      dsimp only
      split
      · exact comes_note (comes_pure (hsome _ _ (hread.cons rfl rfl) rfl))
      · exact comes_pure (hsome _ _ hread rfl)

/-- A new session is placed where its meeting is. -/
theorem comes_fresh_placed {meeting : Meeting} {version : Option Nat} (h : Holding held told)
    (hreal : ∀ m, held = some m → m.kind = .real → meeting.kind = .real) :
    licence.Comes (j.fresh meeting version) (fun d told' => Placed held told' d.session) Unwarned
      told :=
  comes_now fun _ _ => comes_pure ⟨h.cons rfl rfl, hreal⟩

/-- A session in a real mapping is placed, whatever is held. -/
theorem comes_openMapped_placed {mapping : Mapping} (h : Holding held told)
    (hreal : mapping.kind = .real) :
    licence.Comes (j.openMapped mapping) (fun d told' => Placed held told' d.session) Unwarned
      told := by
  unfold Joiner.openMapped
  refine comes_load_holding h (fun told' h' => ?_) fun loaded told' h' hkind => ?_
  · exact comes_note (comes_fresh_placed (h'.cons rfl rfl) fun _ _ _ => hreal)
  · exact comes_pure ⟨h', fun _ _ _ => hkind.trans hreal⟩

/-- The degraded flag does not move a session. -/
theorem placed_graded {d : Draft} (h : Placed held told d.session) (degraded : Bool) :
    Placed held told (d.graded degraded).session := by
  unfold Draft.graded
  split
  · exact h
  · exact h.congr rfl

/-- A session in the meeting held is placed there. -/
theorem comes_openAllocated_placed {meeting : Meeting} (h : Holding (some meeting) told) :
    licence.Comes (j.openAllocated meeting)
      (fun d told' => Placed (some meeting) told' d.session) Unwarned told := by
  have hmeeting : ∀ m, some meeting = some m → m.kind = .real → meeting.kind = .real := by
    rintro _ ⟨⟩ hreal
    exact hreal
  have hfresh : ∀ version told', Holding (some meeting) told' → licence.Comes (do
      let draft ← j.fresh meeting version
      pure (draft.graded meeting.degraded)) (fun d told' => Placed (some meeting) told' d.session)
      Unwarned told' := by
    intro version told' h'
    refine Comes.bind ((comes_fresh_placed h' hmeeting).mono fun d told'' _ hd => ?_)
    exact comes_pure (placed_graded hd meeting.degraded)
  unfold Joiner.openAllocated
  simp only [Draft.pure_graded]
  refine comes_load_holding h (fun told' h' => hfresh none told' h') fun loaded told' h' hkind => ?_
  dsimp only
  -- A session of the same id is loaded as the mapping has it, and every other one is made anew.
  split
  · have hloaded : Placed (some meeting) told' loaded.session :=
      ⟨h', fun m hheld hreal => hkind.trans (hmeeting m hheld hreal)⟩
    exact Comes.bind (comes_pure (comes_pure (placed_graded hloaded meeting.degraded)))
  · exact hfresh (some loaded.version) told' h'

/-- Who enters a session that is placed has landed. -/
theorem comes_enter_landed {d : Draft} (h : Placed held told d.session) :
    licence.Comes (j.enter d) (fun a told' => Landed held told' a) Unwarned told := by
  unfold Joiner.enter
  split
  · exact comes_note (comes_throw (h.cons rfl rfl).holding.silent)
  · refine comes_now fun t _ => ?_
    have hadded : Placed held (⟨.now, t⟩ :: told) (d.session.add ⟨j.userId, t, j.iconUrl⟩) :=
      (h.cons rfl rfl).congr (Session.continues_add _ _).kind
    dsimp only
    split
    · exact comes_pure hadded
    · refine comes_putIf trivial (fun outcome => ?_) fun e => (hadded.cons rfl rfl).holding.silent
      cases outcome with
      | conflict => exact comes_pure (hadded.cons rfl rfl).holding
      | written n => exact comes_pure (hadded.cons rfl rfl)

/-- Writing the mapping keeps what is held. -/
theorem comes_writeMapping_holding {seen : Resolution} {meeting : Meeting} (h : Holding held told) :
    licence.Comes (j.writeMapping seen meeting) (fun _ told' => Holding held told') Unwarned
      told := by
  unfold Joiner.writeMapping
  refine Comes.ite (comes_pure h) (comes_putIf trivial (fun outcome => ?_) fun e => ?_)
  · cases outcome <;> exact comes_pure (h.cons rfl rfl)
  · exact (h.cons rfl rfl).silent

/-- Opening and entering a session lands in it. -/
theorem comes_land_landed {x : Request Draft}
    (h : licence.Comes x (fun d told' => Placed held told' d.session) Unwarned told) :
    licence.Comes (do
        let draft ← x
        return (← j.enter draft, held))
      (fun result told' => Landed result.2 told' result.1) Unwarned told := by
  refine Comes.bind (h.mono fun d told' _ hd => ?_)
  exact Comes.bind ((comes_enter_landed hd).mono fun a told'' _ ha => comes_pure ha)

/-- The meeting in hand is where the task lands, or it is held for the next attempt. -/
theorem comes_settle_landed {seen : Resolution} {meeting : Meeting}
    (h : Holding (some meeting) told) :
    licence.Comes (j.settle seen meeting) (fun result told' => Landed result.2 told' result.1)
      Unwarned told := by
  refine Comes.bind ((comes_writeMapping_holding h).mono fun placed told' _ h' => ?_)
  cases placed with
  | true => exact comes_land_landed (comes_openAllocated_placed h')
  | false => exact comes_pure h'

/-- In real mode, an attempt hands on what the provider gave, and does not warn. -/
theorem comes_attempt_landed (hmode : j.mode = .real) (h : Holding held told) :
    licence.Comes (j.attempt held) (fun result told' => Landed result.2 told' result.1) Unwarned
      told := by
  refine abides_attempt (P := fun seen told' => Holding held told' ∧
    ∃ stored, Resolution.read .real stored = seen) ?lookup ?found ?held ?obtain
  case lookup =>
    intro f hf
    rw [hmode]
    exact comes_lookup_holding h fun stored told' h' => hf _ told' ⟨h', stored, rfl⟩
  case found =>
    rintro mapping version told' ⟨h', stored, hfound⟩
    obtain ⟨-, -, -, hcounts⟩ := Resolution.counts_of_found hfound
    -- in real mode only a real mapping is kept
    have hreal : mapping.kind = .real := hcounts.resolve_left fun hmock => nomatch hmock
    exact comes_land_landed (comes_openMapped_placed h' hreal)
  case held =>
    rintro seen meeting told' rfl ⟨h', -⟩ -
    exact comes_settle_landed h'
  case obtain =>
    rintro seen told' rfl ⟨h', -⟩ -
    rw [hmode]
    exact (abides_allocate_holding j.sessionId h').mono fun meeting told'' _ => comes_settle_landed

end Code

/-! ### Joins -/

/-- A join that is let in has warned of the meeting that it was given if its session is in another
one, and of nothing else. -/
def Confessed (s : String) (told : List Entry) (x : Session) : Prop :=
  ∀ meetingId ∈ gifts told, x.kind = .real ∧
    warnings told = if x.meetingId = meetingId then [] else [.meetingOrphaned s meetingId]

/-- Only real meetings are counted as held. -/
theorem mem_heldIds_iff {held : Option Meeting} {meetingId : String} :
    meetingId ∈ heldIds held ↔
      ∃ meeting, held = some meeting ∧ meeting.kind = .real ∧ meeting.id = meetingId := by
  match held with
  | none => simp [heldIds]
  | some ⟨_, .mock, _⟩ => simp [heldIds]
  | some ⟨_, .real, _⟩ => simpa [heldIds] using eq_comm

/-- A real meeting is an orphan unless it is that of the session. -/
theorem orphan?_eq {meeting : Meeting} {x : Session} (hreal : meeting.kind = .real) :
    Joiner.orphan? (some meeting) x = if x.meetingId = meeting.id then none else some meeting := by
  by_cases hsame : x.meetingId = meeting.id
  · simp [Joiner.orphan?, hreal, hsame]
  · simp [Joiner.orphan?, hreal, hsame, Ne.symm hsame]

namespace Code

variable {told : List Entry} {j : Joiner} {held : Option Meeting} {x : Session}

/-- The token is a matter between the join and the provider. -/
theorem abides_issue_silent (appId : String) (mode : Mode) (x : Session) (userId : String) :
    licence.Abides (issue appId mode x userId)
      (fun _ told' => gifts told' = gifts told ∧ warnings told' = warnings told) told := by
  unfold issue
  refine Abides.bind ?_
  unfold issueToken
  cases mode with
  | mock => exact ⟨rfl, rfl⟩
  | real =>
    cases x.kind with
    | mock => exact ⟨trivial, fun _ _ => ⟨trivial, fun _ _ => ⟨rfl, rfl⟩⟩⟩
    | real =>
      refine ⟨trivial, fun r _ => ?_⟩
      cases r with
      | ok token => exact ⟨rfl, rfl⟩
      | error e => exact ⟨trivial, fun _ _ => ⟨trivial, fun _ _ => ⟨rfl, rfl⟩⟩⟩

/-- What follows a successful attempt warns of the orphan, if there is one. -/
theorem abides_finish_warns (appId : String) (held : Option Meeting) (x : Session) (added : Bool) :
    licence.Abides (j.finish appId held x added)
      (fun reply told' => reply.session = x ∧ gifts told' = gifts told ∧ warnings told' =
        ((Joiner.orphan? held x).map fun m => Event.meetingOrphaned j.sessionId m.id).toList ++
          warnings told) told := by
  -- Reports and tokens are no warnings; what is left is the orphan.
  have hreport : ∀ told', licence.Abides (j.report appId x added)
      (fun reply told'' => reply.session = x ∧ gifts told'' = gifts told' ∧
        warnings told'' = warnings told') told' := by
    intro told'
    refine ⟨trivial, fun _ _ => ⟨trivial, fun _ _ => ?_⟩⟩
    show licence.Abides (issue appId j.mode x j.userId >>= _) _ _
    refine Abides.bind ((abides_issue_silent appId j.mode x j.userId).mono
      fun credentials told'' _ hsilent => ?_)
    exact ⟨rfl, hsilent⟩
  cases horphan : Joiner.orphan? held x with
  | none =>
    rw [Joiner.finish_of_none horphan]
    exact hreport told
  | some meeting =>
    rw [Joiner.finish_of_some horphan]
    exact ⟨trivial, fun _ _ => hreport _⟩

/-- A task that warns of the meeting it holds in vain has confessed. -/
theorem confessed_of_placed {told' : List Entry} (h : Placed held told x)
    (hgifts : gifts told' = gifts told) (hwarnings : warnings told' =
      ((Joiner.orphan? held x).map fun m => Event.meetingOrphaned j.sessionId m.id).toList ++
        warnings told) : Confessed j.sessionId told' x := by
  intro meetingId hmem
  rw [hgifts, h.holding.gifts, mem_heldIds_iff] at hmem
  obtain ⟨meeting, rfl, hreal, rfl⟩ := hmem
  refine ⟨h.real meeting rfl hreal, ?_⟩
  rw [hwarnings, h.holding.silent, orphan?_eq hreal]
  split <;> rfl

/-- The loop ends with a confession, or in silence: only a join that is let in warns of a meeting
that it holds in vain. -/
theorem comes_retry_confessed (appId : String) (hmode : j.mode = .real) (left : Nat)
    (h : Holding held told) :
    licence.Comes (j.retry appId left held)
      (fun reply told' => Confessed j.sessionId told' reply.session) Unwarned told := by
  refine abides_retry (I := fun _ => Holding) (fun _ held told h => ?_) (fun held told h => ?_)
    left h
  · refine Abides.mono (comes_attempt_landed hmode h) fun result told' _ hresult => ?_
    match result, hresult with
    | .error e, hsilent => exact hsilent
    | .ok (.raced, held'), h' => exact fun attempt => (h'.cons rfl rfl).cons rfl rfl
    | .ok (.joined x added, held'), hplaced =>
      refine (abides_finish_warns appId held' x added).mono fun reply told'' _ hreply => ?_
      obtain ⟨rfl, hgifts, hwarnings⟩ := hreply
      exact confessed_of_placed hplaced hgifts hwarnings
  · exact ((h.cons rfl rfl).cons rfl rfl).silent

/-- A join in real mode that is let in warns of its meeting if that is orphaned. One that is not let
in warns of nothing. -/
theorem comes_join_confessed (appId : String) (s : String) (r : JoinRequest) :
    licence.Comes (join appId .real s r) (fun reply told => Confessed s told reply.session) Unwarned
      [] := by
  unfold join
  cases r.validate with
  | error fault => exact comes_count (comes_throw rfl)
  | ok userId =>
    exact comes_retry_confessed (j := ⟨.real, s, userId, r.iconUrl⟩) appId rfl maxAttempts
      holding_start

end Code

end Conduct

end VoiceRoom
