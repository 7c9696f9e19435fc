import VoiceRoom.Proofs.Conduct.Candour

/-!
# What a request measures

Measurements are taken in many places while a request is carried out. What they come to is fixed by
what happened to it (`Served.bill`): one for each write of a join that lost and for each meeting
that the provider refused, and those that tell how the request ended. A request that was answered
has taken exactly these, whoever answered its calls (`Served.Sound`).

In between a measurement may be due that was not taken yet. `Balances` keeps book of both sides, so
that a spec of each function says only what it leaves open.
-/

namespace VoiceRoom.Accounting

open Concurrency (Job Outcome)
open Conduct Conduct.Code
open Simulation (Entry)

/-! ### What a request was told -/

def measurement? : Entry → Option Measurement
  | ⟨.count m, _⟩ => some m
  | _ => none

/-- The measurements that were taken, latest first. -/
def measurements (told : List Entry) : List Measurement :=
  told.filterMap measurement?

/-- Whether a write was too late. -/
def lost : Entry → Bool
  | ⟨.putIf .., .ok .conflict⟩ => true
  | _ => false

/-- Whether the provider was asked for a meeting and gave none. -/
def refused : Entry → Bool
  | ⟨.createMeeting _, .error _⟩ => true
  | _ => false

/-- What was read last under a key. -/
def lastRead (key : String) (told : List Entry) : Option Versioned :=
  (told.findSome? fun
    | ⟨.get key', .ok stored⟩ => if key' = key then some stored else none
    | _ => none).join

/-- The roster that a session was found with: the one in the record that was read last, if that is a
record of this session. -/
def foundRoster (told : List Entry) (x : Session) : List Member :=
  match (lastRead (sessionKey x.meetingId) told).map fun v => Session.decode v.value with
  | some (.ok y) => if y.sessionId = x.sessionId then y.users else []
  | _ => []

/-- Whether a session has more members than it was found with. -/
def appended (told : List Entry) (x : Session) : Bool :=
  (foundRoster told x).length < x.users.length

/-! ### What it is to measure -/

/-- Whether a job is to join. -/
def isJoin : Job → Bool
  | .create _ => false
  | .join .. => true

/-- The outcome that an error of a join stands for. -/
def refusal : ServiceError → JoinOutcome
  | .sessionFull => .full
  | .badRequest _ => .invalid
  | .conflict _ => .conflict
  | .store _ => .error
  | .internal => .error

/-- Whether a token was given in place of a real one, which is wanted in real mode only. -/
def standsIn (mode : Mode) (token : String) (degraded : Bool) : Bool :=
  mode == .real && token == mockToken && degraded

/-- A request that was answered, with the calls that it made. -/
structure Served where
  job : Job
  outcome : Outcome
  told : List Entry

/-- The measurement that a call makes due. Only joins measure that a write was lost. -/
def debt (joins : Bool) : Entry → Option Measurement
  | ⟨.putIf .., .ok .conflict⟩ => if joins then some .joinConflict else none
  | ⟨.createMeeting _, .error _⟩ => some (.fallback Operation.createMeeting.name)
  | _ => none

namespace Served

variable (d : Served)

def joins : Bool :=
  isJoin d.job

/-- How a join ended. -/
def ending : Option JoinOutcome :=
  match d.outcome with
  | .created _ => none
  | .joined (.ok reply) => some (if appended d.told reply.session then .joined else .rejoined)
  | .joined (.error e) => some (refusal e)

/-- Whether a join was let in with a token that stands in for a real one. -/
def stoodIn : Bool :=
  match d.job, d.outcome with
  | .join mode _ _, .joined (.ok reply) =>
    reply.realtime.any fun c => standsIn mode c.token c.degraded
  | _, _ => false

/-- The kind of the session that was created. -/
def created : Option MeetingKind :=
  match d.outcome with
  | .created (.ok x) => some x.kind
  | _ => none

/-- The measurements that tell how a request ended. -/
def closing : List Measurement :=
  (if d.stoodIn then [.fallback Operation.createParticipant.name] else [])
    ++ (d.ending.map fun o => Measurement.join o.name).toList
    ++ (d.created.map fun kind => Measurement.created kind.name).toList

/-- The measurements that a request is to take. -/
def bill : List Measurement :=
  d.told.filterMap (debt d.joins) ++ d.closing

/-- A request took the measurements that it was to take. One that was let in has the roster that it
found, or that one with its user at the end. -/
structure Sound : Prop where
  ended : d.ending.isSome = d.joins
  bill : (measurements d.told).Perm d.bill
  roster : ∀ mode s r reply, d.job = .join mode s r → d.outcome = .joined (.ok reply) →
    reply.session.users = foundRoster d.told reply.session ∨
      ∃ m, r.validate = .ok m.userId ∧
        reply.session.users = foundRoster d.told reply.session ++ [m]

end Served

/-! ### Keeping book -/

/-- What was measured, and what is still owed, is what fell due, and what was measured beyond. -/
def Balances (joins : Bool) (told : List Entry) (owed extra : List Measurement) : Prop :=
  (measurements told ++ owed).Perm (told.filterMap (debt joins) ++ extra)

namespace Balances

variable {joins : Bool} {told : List Entry} {owed extra : List Measurement} {e : Entry}
  {m : Measurement}

theorem start (joins : Bool) : Balances joins [] [] [] :=
  .refl []

/-- Most calls do not count. -/
theorem cons (h : Balances joins told owed extra) (hmeasures : measurement? e = none)
    (hdebt : debt joins e = none) : Balances joins (e :: told) owed extra := by
  unfold Balances measurements
  rwa [List.filterMap_cons_none hmeasures, List.filterMap_cons_none hdebt]

/-- What has to be measured is owed from then on, until it is counted; the order in which things are
counted is left open. -/
theorem owe (h : Balances joins told owed extra) (hmeasures : measurement? e = none)
    (hdebt : debt joins e = some m) : Balances joins (e :: told) (m :: owed) extra := by
  unfold Balances measurements
  rw [List.filterMap_cons_none hmeasures, List.filterMap_cons_some hdebt]
  exact List.perm_middle.trans (List.Perm.cons m h)

theorem pay (h : Balances joins told (m :: owed) extra) :
    Balances joins (⟨.count m, ()⟩ :: told) owed extra :=
  List.perm_middle.symm.trans h

/-- With nothing owed, what was counted is what had to be, and the extra. This is what a finished
request leaves in the counters. -/
theorem settled (h : Balances joins told [] extra) :
    (measurements told).Perm (told.filterMap (debt joins) ++ extra) := by
  unfold Balances at h
  rwa [List.append_nil] at h

theorem count (h : Balances joins told owed extra) (m : Measurement) :
    Balances joins (⟨.count m, ()⟩ :: told) owed (m :: extra) :=
  (List.Perm.cons m h).trans List.perm_middle.symm

end Balances

/-! ### Rosters -/

section Rosters

variable {told : List Entry} {x y : Session}

/-- The last reading is the latest. -/
theorem lastRead_get (key : String) (stored : Option Versioned) (told : List Entry) :
    lastRead key (⟨.get key, .ok stored⟩ :: told) = stored := by
  simp [lastRead]

/-- Where no record was read there was nobody. -/
theorem foundRoster_of_none (h : lastRead (sessionKey x.meetingId) told = none) :
    foundRoster told x = [] := by
  unfold foundRoster
  rw [h]
  rfl

/-- The roster found is that of the record read, if this is one of the session. -/
theorem foundRoster_of_decode {v : Versioned}
    (h : lastRead (sessionKey x.meetingId) told = some v)
    (hdecode : Session.decode v.value = .ok y) :
    foundRoster told x = if y.sessionId = x.sessionId then y.users else [] := by
  unfold foundRoster
  rw [h, Option.map_some, hdecode]

/-- Adding a user does not change whom the task found. -/
theorem foundRoster_add (told : List Entry) (x : Session) (m : Member) :
    foundRoster told (x.add m) = foundRoster told x := by
  unfold Session.add
  split <;> rfl

/-- A session has the roster that it was found with, or a user was put at its end. -/
structure Grew (userId : String) (told : List Entry) (x : Session) (added : Bool) : Prop where
  appended : appended told x = added
  roster : x.users = foundRoster told x ∨
    ∃ m : Member, m.userId = userId ∧ x.users = foundRoster told x ++ [m]

/-- What is not a read does not change with which roster a session was found. -/
theorem Grew.cons {userId : String} {added : Bool} {e : Entry} (h : Grew userId told x added)
    (hread : ∀ key, lastRead key (e :: told) = lastRead key told) :
    Grew userId (e :: told) x added := by
  have hfound : foundRoster (e :: told) x = foundRoster told x := by
    unfold foundRoster
    rw [hread]
  obtain ⟨happended, hroster⟩ := h
  unfold Accounting.appended at happended
  rw [← hfound] at happended hroster
  exact ⟨happended, hroster⟩

/-- Adding a user to the roster found is growing by that user. -/
theorem grew_add (h : x.users = foundRoster told x) (m : Member) :
    Grew m.userId told (x.add m) (!x.hasMember m.userId) := by
  by_cases hmember : x.hasMember m.userId
  · rw [Session.add_of_hasMember hmember, hmember]
    exact ⟨by simp [Accounting.appended, h], .inl h⟩
  · have husers : (x.add m).users = foundRoster told (x.add m) ++ [m] := by
      rw [Session.users_add_of_not_hasMember hmember, foundRoster_add, h]
    rw [Bool.not_eq_true] at hmember
    rw [hmember]
    exact ⟨by simp [Accounting.appended, husers], .inr ⟨m, rfl, husers⟩⟩

end Rosters

/-! ### Meetings and drafts -/

section Attempts

variable {β : Type} {told : List Entry} {j : Joiner} {R : β → List Entry → Prop}

/-- A join failed and does not owe a measurement but that of the failure. -/
structure Failed (e : ServiceError) (told : List Entry) : Prop where
  balances : Balances true told [] []
  refusal : refusal e = Joiner.failure e

/-- A lookup owes nothing. -/
theorem comes_lookup {s : String} {mode : Mode} {f : Resolution → Request β}
    (h : Balances true told [] [])
    (hf : ∀ resolution told', Balances true told' [] [] →
      licence.Comes (f resolution) R Failed told') :
    licence.Comes (Request.ofStore (Resolution.lookup s mode) >>= f) R Failed told := by
  refine comes_ofStore ⟨trivial, fun r _ => ?_⟩
  match r with
  | .error e => exact ⟨h.cons rfl rfl, rfl⟩
  | .ok none => exact hf .absent _ (h.cons rfl rfl)
  | .ok (some stored) =>
    have hread := h.cons (e := ⟨.get (mappingKey s), .ok (some stored)⟩) rfl rfl
    dsimp only [Program.call, bind, Program.bind, pure]
    cases Resolution.ofStored mode stored with
    | stale mapping version => exact ⟨trivial, fun _ _ => hf _ _ (hread.cons rfl rfl)⟩
    | found mapping version => exact hf _ _ hread
    | absent => exact hf _ _ hread

/-- That a meeting was refused is measured at once. -/
theorem abides_allocate_balances {joins : Bool} (mode : Mode) (s : String)
    (h : Balances joins told [] []) :
    licence.Abides (allocate mode s) (fun _ told' => Balances joins told' [] []) told := by
  cases mode with
  | mock => exact ⟨trivial, fun _ _ => h.cons rfl rfl⟩
  | real =>
    refine ⟨trivial, fun r _ => ?_⟩
    cases r with
    | ok meetingId => exact h.cons rfl rfl
    | error e =>
      -- The failure is noted before it is counted.
      exact ⟨trivial, fun _ _ => ⟨trivial, fun _ _ => ((h.owe rfl rfl).cons rfl rfl).pay⟩⟩

/-- A draft has the roster that its session was found with. -/
structure Drafted (d : Draft) (told : List Entry) : Prop where
  balances : Balances true told [] []
  roster : d.session.users = foundRoster told d.session

theorem comes_load {mapping : Mapping} {f : Option Loaded → Request β}
    (h : Balances true told [] [])
    (hnone : ∀ told', Balances true told' [] [] →
      lastRead (sessionKey mapping.meetingId) told' = none → licence.Comes (f none) R Failed told')
    (hsome : ∀ stored x told', Balances true told' [] [] →
      lastRead (sessionKey mapping.meetingId) told' = some stored →
      Session.decode stored.value = .ok x →
      licence.Comes (f (some ⟨x.fit mapping, stored.version, !x.agrees mapping⟩)) R Failed told') :
    licence.Comes (load mapping >>= f) R Failed told := by
  refine Comes.bind ?_
  unfold load
  refine comes_get (fun stored => ?_) fun e => ⟨h.cons rfl rfl, rfl⟩
  cases stored with
  | none => exact comes_pure (hnone _ (h.cons rfl rfl) (lastRead_get _ _ _))
  | some stored =>
    have hread := h.cons (e := ⟨.get (sessionKey mapping.meetingId), .ok (some stored)⟩) rfl rfl
    have hlast := lastRead_get (sessionKey mapping.meetingId) (some stored) told
    dsimp only
    -- A record that cannot be read and one that needs a repair are noted, which counts for nothing.
    cases hdecode : Session.decode stored.value with
    | error fault => exact comes_note (comes_throw ⟨hread.cons rfl rfl, rfl⟩)
    | ok x =>
      dsimp only
      split
      · exact comes_note (comes_pure (hsome stored x _ (hread.cons rfl rfl) hlast hdecode))
      · exact comes_pure (hsome stored x _ hread hlast hdecode)

theorem comes_fresh {meeting : Meeting} {version : Option Nat} {Q : Draft → List Entry → Prop}
    {E : ServiceError → List Entry → Prop}
    (h : ∀ t, Q ⟨Session.new j.sessionId meeting t, version, true⟩ (⟨.now, t⟩ :: told)) :
    licence.Comes (j.fresh meeting version) Q E told :=
  comes_now fun t _ => comes_pure (h t)

/-- In a new session nobody is found. -/
theorem drafted_new {meeting : Meeting} {version : Option Nat} {s : String}
    (h : Balances true told [] []) (hnone : ∀ t, foundRoster told (.new s meeting t) = [])
    (t : Int) : Drafted ⟨Session.new s meeting t, version, true⟩ (⟨.now, t⟩ :: told) :=
  ⟨h.cons rfl rfl, (hnone t).symm⟩

/-- In a session that was loaded those of its record are found. -/
theorem drafted_loaded {mapping : Mapping} {stored : Versioned} {x : Session} (dirty : Bool)
    (h : Balances true told [] [])
    (hlast : lastRead (sessionKey mapping.meetingId) told = some stored)
    (hdecode : Session.decode stored.value = .ok x) :
    Drafted ⟨x.fit mapping, some stored.version, dirty⟩ told := by
  refine ⟨h, ?_⟩
  rw [foundRoster_of_decode hlast hdecode]
  exact (if_pos rfl).symm

theorem Drafted.graded {d : Draft} (h : Drafted d told) (degraded : Bool) :
    Drafted (d.graded degraded) told := by
  unfold Draft.graded
  split
  · exact h
  · exact ⟨h.balances, h.roster⟩

/-- Opening a mapped session owes nothing, and its draft lists those found. -/
theorem comes_openMapped (mapping : Mapping) (h : Balances true told [] []) :
    licence.Comes (j.openMapped mapping) Drafted Failed told := by
  unfold Joiner.openMapped
  refine comes_load h (fun told' h' hnone => ?_) fun stored x told' h' hlast hdecode => ?_
  · refine comes_note (comes_fresh (drafted_new (h'.cons rfl rfl) fun t => ?_))
    exact foundRoster_of_none hnone
  · exact comes_pure (drafted_loaded _ h' hlast hdecode)

/-- Opening an allocated session owes nothing, and its draft lists those found. -/
theorem comes_openAllocated (meeting : Meeting) (h : Balances true told [] []) :
    licence.Comes (j.openAllocated meeting) Drafted Failed told := by
  unfold Joiner.openAllocated
  simp only [Draft.pure_graded]
  refine comes_load h (fun told' h' hnone => ?_) fun stored x told' h' hlast hdecode => ?_
  · refine Comes.bind (comes_fresh fun t => comes_pure (Drafted.graded ?_ _))
    exact drafted_new h' (fun t => foundRoster_of_none hnone) t
  · dsimp only
    split
    · exact Comes.bind (comes_pure (comes_pure ((drafted_loaded _ h' hlast hdecode).graded _)))
    -- The record is of another session, whose members do not count.
    · rename_i hother
      refine Comes.bind (comes_fresh fun t => comes_pure (Drafted.graded ?_ _))
      refine drafted_new h' (fun t => ?_) t
      rw [foundRoster_of_decode (x := .new j.sessionId meeting t) hlast hdecode]
      exact if_neg hother

/-! ### Attempts -/

/-- What is known of an attempt. The measurement of one that was raced is still owed. -/
def Tried (userId : String) (told : List Entry) : Attempt → Prop
  | .raced => Balances true told [.joinConflict] []
  | .joined x added => Balances true told [] [] ∧ Grew userId told x added

/-- Entering a draft makes the roster grow, or owes one lost race. -/
theorem comes_enter {d : Draft} (h : Drafted d told) :
    licence.Comes (j.enter d) (fun a told' => Tried j.userId told' a) Failed told := by
  unfold Joiner.enter
  split
  · exact comes_note (comes_throw ⟨h.balances.cons rfl rfl, rfl⟩)
  · refine comes_now fun t _ => ?_
    have hnow := h.balances.cons (e := ⟨.now, t⟩) rfl rfl
    have hgrew : Grew j.userId (⟨.now, t⟩ :: told) (d.session.add ⟨j.userId, t, j.iconUrl⟩)
        (!d.session.hasMember j.userId) :=
      (grew_add h.roster ⟨j.userId, t, j.iconUrl⟩).cons fun _ => rfl
    dsimp only
    split
    · exact comes_pure ⟨hnow, hgrew⟩
    · refine comes_putIf trivial (fun outcome => ?_) fun e => ⟨hnow.cons rfl rfl, rfl⟩
      cases outcome with
      | conflict => exact comes_pure (hnow.owe rfl rfl)
      | written n => exact comes_pure ⟨hnow.cons rfl rfl, hgrew.cons fun _ => rfl⟩

/-- Writing the mapping owes one lost race in case it fails. -/
theorem comes_writeMapping {seen : Resolution} {meeting : Meeting} (h : Balances true told [] []) :
    licence.Comes (j.writeMapping seen meeting)
      (fun placed told' => Balances true told' (if placed then [] else [.joinConflict]) []) Failed
      told := by
  unfold Joiner.writeMapping
  refine Comes.ite (comes_pure h) (comes_putIf trivial (fun outcome => ?_) fun e => ?_)
  swap
  · exact ⟨h.cons rfl rfl, rfl⟩
  cases outcome with
  | conflict => exact comes_pure (h.owe rfl rfl)
  | written n => exact comes_pure (h.cons rfl rfl)

theorem comes_land {x : Request Draft} (held : Option Meeting)
    (h : licence.Comes x Drafted Failed told) :
    licence.Comes (do
        let draft ← x
        return (← j.enter draft, held))
      (fun result told' => Tried j.userId told' result.1) Failed told :=
  Comes.bind (h.mono fun _ _ _ hd =>
    Comes.bind ((comes_enter hd).mono fun _ _ _ ha => comes_pure ha))

theorem comes_settle (seen : Resolution) (meeting : Meeting) (h : Balances true told [] []) :
    licence.Comes (j.settle seen meeting) (fun result told' => Tried j.userId told' result.1) Failed
      told := by
  refine Comes.bind ((comes_writeMapping h).mono fun placed told' _ h' => ?_)
  cases placed with
  | true => exact comes_land _ (comes_openAllocated meeting h')
  | false => exact comes_pure h'

/-- An attempt owes one lost race at most. -/
theorem comes_attempt (held : Option Meeting) (h : Balances true told [] []) :
    licence.Comes (j.attempt held) (fun result told' => Tried j.userId told' result.1) Failed
      told := by
  refine abides_attempt (P := fun _ told' => Balances true told' [] [])
    (fun f hf => comes_lookup h hf) ?found ?held ?obtain
  case found =>
    intro mapping version told' h'
    exact comes_land held (comes_openMapped mapping h')
  case held =>
    intro seen meeting told' _ h' _
    exact comes_settle seen meeting h'
  case obtain =>
    intro seen told' _ h' _
    exact (abides_allocate_balances j.mode j.sessionId h').mono fun meeting _ _ =>
      comes_settle seen meeting

/-! ### Joins -/

theorem abides_issueToken_balances {mode : Mode} {x : Session} {userId user : String}
    {extra : List Measurement} {added : Bool} (h : Balances true told [] extra)
    (hgrew : Grew user told x added) :
    licence.Abides (issueToken mode x userId)
      (fun issued told' => Balances true told' []
          ((if standsIn mode issued.1 issued.2 then [.fallback Operation.createParticipant.name]
            else []) ++ extra) ∧ Grew user told' x added) told := by
  unfold issueToken
  cases mode with
  | mock => exact ⟨h, hgrew⟩
  | real =>
    -- A session in a mock meeting gets no token and counts as a fallback, and so does a refusal.
    cases x.kind with
    | mock =>
      refine ⟨trivial, fun _ _ => ⟨trivial, fun _ _ => ⟨(h.cons rfl rfl).count _, ?_⟩⟩⟩
      exact (hgrew.cons fun _ => rfl).cons fun _ => rfl
    | real =>
      refine ⟨trivial, fun r _ => ?_⟩
      have hasked := hgrew.cons (e := ⟨.createParticipant x.meetingId userId, r⟩) fun _ => rfl
      cases r with
      | ok token =>
        refine ⟨?_, hasked⟩
        rw [standsIn, Bool.and_false, if_neg Bool.false_ne_true]
        exact h.cons rfl rfl
      | error e =>
        refine ⟨trivial, fun _ _ => ⟨trivial, fun _ _ => ⟨?_, ?_⟩⟩⟩
        · exact ((h.cons rfl rfl).cons rfl rfl).count _
        · exact (hasked.cons fun _ => rfl).cons fun _ => rfl

/-- A join that was let in has measured what tells how. -/
structure LetIn (mode : Mode) (userId : String) (told : List Entry) (reply : JoinReply) : Prop where
  balances : Balances true told []
    ((if reply.realtime.any fun c => standsIn mode c.token c.degraded then
        [.fallback Operation.createParticipant.name] else [])
      ++ [.join (if appended told reply.session then JoinOutcome.joined else .rejoined).name])
  roster : reply.session.users = foundRoster told reply.session ∨
    ∃ m : Member, m.userId = userId ∧ reply.session.users = foundRoster told reply.session ++ [m]

theorem abides_finish_letIn {appId : String} {held : Option Meeting} {x : Session} {added : Bool}
    (h : Balances true told [] []) (hgrew : Grew j.userId told x added) :
    licence.Abides (j.finish appId held x added)
      (fun reply told' => LetIn j.mode j.userId told' reply) told := by
  -- The report counts the end of the join, and then the token is issued.
  have hreport : ∀ told', Balances true told' [] [] → Grew j.userId told' x added →
      licence.Abides (j.report appId x added)
        (fun reply told'' => LetIn j.mode j.userId told'' reply) told' := by
    intro told' h' hgrew'
    refine ⟨trivial, fun _ _ => ⟨trivial, fun _ _ => ?_⟩⟩
    have hcounted := (h'.count (.join (if added then JoinOutcome.joined else .rejoined).name)).cons
      (e := ⟨.note (.joined j.sessionId j.userId x.users.length added), ()⟩) rfl rfl
    show licence.Abides (issue appId j.mode x j.userId >>= _) _ _
    refine Abides.bind ?_
    unfold issue
    refine Abides.bind (Abides.mono (abides_issueToken_balances hcounted
      ((hgrew'.cons fun _ => rfl).cons fun _ => rfl)) fun issued told'' _ hissued => ?_)
    obtain ⟨hbalances, happended, hroster⟩ := hissued
    rw [← happended] at hbalances
    exact ⟨hbalances, hroster⟩
  cases horphan : Joiner.orphan? held x with
  | none =>
    rw [Joiner.finish_of_none horphan]
    exact hreport told h hgrew
  | some meeting =>
    rw [Joiner.finish_of_some horphan]
    exact ⟨trivial, fun _ _ => hreport _ (h.cons rfl rfl) (hgrew.cons fun _ => rfl)⟩

/-- A join that was not let in has measured why. -/
def TurnedDown (e : ServiceError) (told : List Entry) : Prop :=
  Balances true told [] [.join (refusal e).name]

/-- What an attempt owes is paid before the next one. -/
theorem comes_retry (appId : String) (left : Nat) (held : Option Meeting)
    (h : Balances true told [] []) :
    licence.Comes (j.retry appId left held) (fun reply told' => LetIn j.mode j.userId told' reply)
      TurnedDown told := by
  refine abides_retry (I := fun _ _ told => Balances true told [] []) (fun _ held told h => ?_)
    (fun held told h => (h.count _).cons rfl rfl) left h
  refine Abides.mono (comes_attempt held h) fun result told' _ hr => ?_
  match result, hr with
  | .error e, hr =>
    show Balances true _ [] [.join (refusal e).name]
    rw [hr.refusal]
    exact hr.balances.count _
  | .ok (.raced, held'), hr => exact fun _ => hr.pay.cons rfl rfl
  | .ok (.joined x added, held'), hr => exact abides_finish_letIn hr.1 hr.2

/-- A join that fails was counted as failed, and one that succeeds as let in. -/
theorem comes_join (appId : String) (mode : Mode) (s : String) (r : JoinRequest) :
    licence.Comes (join appId mode s r)
      (fun reply told => ∃ userId, r.validate = .ok userId ∧ LetIn mode userId told reply)
      TurnedDown [] := by
  unfold join
  cases hvalid : r.validate with
  | error fault => exact comes_count (comes_throw ((Balances.start true).count _))
  | ok userId =>
    have hretry := comes_retry (j := ⟨mode, s, userId, r.iconUrl⟩) appId maxAttempts none
      (.start true)
    exact hretry.mono fun reply told _ hreply => ⟨userId, rfl, hreply⟩

end Attempts

/-! ### Creates -/

/-- A create counts the session it made, or nothing. -/
theorem comes_create (mode : Mode) :
    licence.Comes (create mode) (fun x told => Balances false told [] [.created x.kind.name])
      (fun _ told => Balances false told [] []) [] := by
  unfold create
  refine comes_lift ⟨trivial, fun s _ => ?_⟩
  refine comes_lift (Abides.mono (abides_allocate_balances mode s
    ((Balances.start false).cons rfl rfl)) fun meeting told _ h => ?_)
  refine comes_now fun t _ => comes_putIf trivial (fun mapped => ?_) fun e =>
    (h.cons rfl rfl).cons rfl rfl
  have hmapped := (h.cons (e := ⟨.now, t⟩) rfl rfl).cons
    (e := ⟨.putIf (mappingKey s) (Mapping.ofMeeting meeting).encode none, .ok mapped⟩) rfl
  -- Whether the writes are lost or carried out, only a session that was made is counted.
  cases mapped with
  | conflict => exact comes_note (comes_throw ((hmapped rfl).cons rfl rfl))
  | written n =>
    refine comes_putIf trivial (fun placed => ?_) fun e => (hmapped rfl).cons rfl rfl
    cases placed with
    | conflict => exact comes_note (comes_throw (((hmapped rfl).cons rfl rfl).cons rfl rfl))
    | written n' =>
      refine comes_count (comes_note (comes_pure ?_))
      exact (((hmapped rfl).cons rfl rfl).count _).cons rfl rfl

/-! ### Requests -/

/-- Whoever answers, a request that is carried out to its end has measured what it is to measure. -/
theorem abides_program_sound (appId : String) (job : Job) :
    licence.Abides (job.program appId) (fun outcome told => Served.Sound ⟨job, outcome, told⟩)
      [] := by
  -- Every kind of job has its bill and, if it let somebody in, its roster.
  cases job with
  | create mode =>
    refine Abides.map (Abides.mono (comes_create mode) fun r told _ h => ?_)
    cases r with
    | ok x => exact ⟨rfl, h.settled, fun _ _ _ _ hjob => nomatch hjob⟩
    | error e => exact ⟨rfl, h.settled, fun _ _ _ _ hjob => nomatch hjob⟩
  | join mode s request =>
    refine Abides.map (Abides.mono (comes_join appId mode s request)
      fun r told _ h => ?_)
    cases r with
    | error e => exact ⟨rfl, h.settled, fun _ _ _ _ _ houtcome => nomatch houtcome⟩
    | ok reply =>
      obtain ⟨userId, hvalid, hletIn⟩ := h
      refine ⟨rfl, ?_, fun _ _ _ _ hjob houtcome => ?_⟩
      · have hbill := hletIn.balances.settled
        rw [← List.append_nil (_ ++ [Measurement.join _])] at hbill
        exact hbill
      · cases hjob
        cases houtcome
        refine hletIn.roster.imp_right ?_
        rintro ⟨m, rfl, husers⟩
        exact ⟨m, hvalid, husers⟩

end VoiceRoom.Accounting
