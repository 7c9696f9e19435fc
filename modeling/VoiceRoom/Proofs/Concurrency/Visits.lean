import VoiceRoom.Proofs.Concurrency.Oracle

/-!
# Visits

Users who join are given turns: a user makes some calls, waits while others make theirs, and goes
on. That is a run (`run_visited`), and what happened in it is known from who joined, who had a turn
and what the provider says (`exists_visiting`).

Two such runs stand here for joins that get into each other's way. Two users join a session id that
was never joined before, and one of them loses the race for the mapping and then the one for the
session (`afterRace`). Two more join when they are in, and one of those is overtaken (`afterRaces`).
-/

namespace VoiceRoom.Concurrency

open Simulation (Entry)

/-! ### Taking turns -/

/-- An oracle with a provider that always gives tokens, and a clock that ticks whenever something
happens. -/
def Oracle.providing (meeting : List Act → Except ProviderError String) : Oracle where
  say past := fun
    | .createMeeting _ => meeting past
    | .createParticipant .. => .ok "token"
    | .now => min (past.length : Int) int64Max
    | .freshId => ""
    | .mode => .real
    | .note _ => ()
    | .count _ => ()
    | .scrape => []
    | .get _ => .ok none
    | .putIf .. => .ok .conflict
    | .ping => .ok ()
  clock past := by
    refine fitsInt64_iff.2 ⟨?_, min_le_right _ _⟩
    rw [le_min_iff]
    exact ⟨(by decide : int64Min ≤ 0).trans (Int.natCast_nonneg _), by decide⟩

/-- A user's join of a session id. -/
structure Visit where
  mode : Mode
  sessionId : String
  userId : String
deriving DecidableEq

def Visit.job (v : Visit) : Job :=
  .join v.mode v.sessionId ⟨some v.userId, none⟩

/-- Users start to join, and then tasks take turns, each a number of times. -/
def visited (meeting : List Act → Except ProviderError String) (σ : System) (visits : List Visit)
    (turns : List (Nat × Nat)) : System :=
  (Oracle.providing meeting).play (startAll "app" σ (visits.map Visit.job))
    (turns.flatMap fun turn => List.replicate turn.2 turn.1)

/-- What happens while users take turns: they start, and who has a turn is answered. -/
inductive Visiting (meeting : List Act → Except ProviderError String) (visits : List Visit)
    (turns : List (Nat × Nat)) : Act → Prop where
  | start {v : Visit} (hv : v ∈ visits) : Visiting meeting visits turns (.start v.job)
  | answer {i : Nat} {e : Entry} (past : List Act) (hi : i ∈ turns.map Prod.fst)
      (he : e.call.Outside → e.answer = (Oracle.providing meeting).say past e.call) :
      Visiting meeting visits turns (.answer i e)

section Visited

variable (meeting : List Act → Except ProviderError String) (σ : System) (visits : List Visit)
variable (turns : List (Nat × Nat))

/-- Visits are a run. -/
theorem run_visited : Run "app" σ (visited meeting σ visits turns) :=
  (run_startAll _).trans (Oracle.run_play _ _ _)

/-- The tasks that were there are followed by those of the users. -/
theorem map_job_visited : (visited meeting σ visits turns).tasks.map Task.job =
    σ.tasks.map Task.job ++ visits.map Visit.job := by
  rw [visited, Oracle.map_job_play, tasks_startAll, List.map_append, List.map_map]
  exact congrArg _ (List.map_id'' (fun _ => rfl) _)

/-- Whatever happens during visits is one of them starting or being served. Assumptions on what
happens are checked against the visits with this. -/
theorem exists_visiting : ∃ new, (visited meeting σ visits turns).past = new ++ σ.past ∧
    ∀ act ∈ new, Visiting meeting visits turns act := by
  obtain ⟨told, hplayed, htold⟩ := (Oracle.providing meeting).exists_past_play
    (startAll "app" σ (visits.map Visit.job))
    (turns.flatMap fun turn => List.replicate turn.2 turn.1)
  refine ⟨told ++ ((visits.map Visit.job).map Act.start).reverse, ?_, fun act hact => ?_⟩
  · rw [visited, hplayed, past_startAll, List.append_assoc]
  · rcases List.mem_append.1 hact with hanswer | hstart
    · obtain ⟨i, e, past, rfl, hi, he⟩ := htold act hanswer
      obtain ⟨turn, hturn, hi⟩ := List.mem_flatMap.1 hi
      obtain rfl := List.eq_of_mem_replicate hi
      exact .answer past (List.mem_map_of_mem hturn) he
    · obtain ⟨job, hjob, rfl⟩ := List.mem_map.1 (List.mem_reverse.1 hstart)
      obtain ⟨v, hv, rfl⟩ := List.mem_map.1 hjob
      exact .start hv

variable {meeting σ visits turns}

/-- The same, for what happened after a known past. -/
theorem visiting_of_past_eq {new : List Act} {act : Act}
    (hpast : (visited meeting σ visits turns).past = new ++ σ.past) (hact : act ∈ new) :
    Visiting meeting visits turns act := by
  obtain ⟨new', hpast', hnew⟩ := exists_visiting meeting σ visits turns
  rw [List.append_cancel_right (hpast.symm.trans hpast')] at hact
  exact hnew act hact

end Visited

/-! ### What is seen of it -/

/-- The reply to a join that came in. -/
def Outcome.reply? : Outcome → Option JoinReply
  | .joined (.ok reply) => some reply
  | _ => none

/-- The reply to a task, if it is done and was a join that came in. -/
def System.reply? (σ : System) (i : Nat) : Option JoinReply :=
  match σ.tasks[i]? with
  | some ⟨_, .done outcome⟩ => outcome.reply?
  | _ => none

/-- An outcome with a reply is that of a join that succeeded. -/
theorem Outcome.eq_of_reply? {outcome : Outcome} {reply : JoinReply}
    (h : outcome.reply? = some reply) : outcome = .joined (.ok reply) := by
  unfold Outcome.reply? at h
  split at h
  · rw [Option.some.inj h]
  · exact nomatch h

/-- A task with a reply has ended with it. -/
theorem System.finished_of_reply? {σ : System} {i : Nat} {job : Job} {reply : JoinReply}
    (hjob : (σ.tasks.map Task.job)[i]? = some job) (h : σ.reply? i = some reply) :
    σ.Finished i job (.joined (.ok reply)) := by
  unfold System.reply? at h
  split at h
  · rename_i job' outcome htask
    rw [List.getElem?_map, htask] at hjob
    obtain rfl : job' = job := Option.some.inj hjob
    rw [System.Finished, htask, Outcome.eq_of_reply? h]
  · exact nomatch h

/-- What is seen of joins of a session id: the replies to some tasks, the meetings that the provider
gave, whether the store answers, and where the session id leads. -/
structure View where
  replies : List (Option JoinReply)
  grants : List (String × String)
  available : Bool
  mapping : Option Mapping
  session : Option Session
deriving DecidableEq

def System.view (σ : System) (s : String) (tasks : List Nat) : View where
  replies := tasks.map σ.reply?
  grants := Concurrency.grants σ.past
  available := σ.store.available
  mapping := σ.store.mappingAt s
  session := (σ.store.mappingAt s).bind fun mapping => σ.store.sessionAt mapping.meetingId

/-- Where a session id leads, as it is seen. -/
theorem System.stored_of_view {σ : System} {s : String} {tasks : List Nat} {mapping : Mapping}
    (h : (σ.view s tasks).mapping = some mapping) : σ.store.mappingAt s = some mapping ∧
      σ.store.sessionAt mapping.meetingId = (σ.view s tasks).session := by
  have hmapping : σ.store.mappingAt s = some mapping := h
  refine ⟨hmapping, ?_⟩
  rw [System.view, hmapping, Option.bind_some]

/-- Who came in, as it is seen of two tasks. -/
theorem System.finished_of_view {σ : System} {s : String} {i i' : Nat} {job job' : Job}
    {reply reply' : JoinReply} (hjob : (σ.tasks.map Task.job)[i]? = some job)
    (hjob' : (σ.tasks.map Task.job)[i']? = some job')
    (h : (σ.view s [i, i']).replies = [some reply, some reply']) :
    σ.Finished i job (.joined (.ok reply)) ∧ σ.Finished i' job' (.joined (.ok reply')) := by
  have hreplies : [σ.reply? i, σ.reply? i'] = [some reply, some reply'] := h
  obtain ⟨hfirst, hrest⟩ := List.cons.inj hreplies
  exact ⟨System.finished_of_reply? hjob hfirst,
    System.finished_of_reply? hjob' (List.cons.inj hrest).1⟩

/-! ### A race between first joins -/

/-- A provider that gives a meeting, and another one ever after. -/
def twoMeetings (past : List Act) : Except ProviderError String :=
  .ok (if grants past = [] then "m" else "n")

/-- Two users find no mapping and are each given a meeting. The first one writes the mapping and is
about to make the session; the second one loses the mapping, finds no session and is about to make
it too; the first one writes it. So the second one comes in with the third attempt, and the meeting
that it was given is orphaned. -/
def afterRace : System :=
  visited twoMeetings {} [⟨.real, "s", "u"⟩, ⟨.real, "s", "v"⟩]
    [(0, 2), (1, 2), (0, 2), (1, 5), (0, 6), (1, 14)]

/-- Two more users find the session. One of them comes in, and so the other one has to read it
again. -/
def afterRaces : System :=
  visited twoMeetings afterRace [⟨.real, "s", "w"⟩, ⟨.real, "s", "x"⟩]
    [(2, 2), (3, 2), (2, 5), (3, 11)]

/-- The session with its first user. -/
def sessionOfOne : Session where
  sessionId := "s"
  meetingId := "m"
  kind := .real
  degraded := false
  users := [⟨"u", 14, none⟩]
  createdAt := 13

def sessionOfTwo : Session :=
  sessionOfOne.add ⟨"v", 27, none⟩

def sessionOfThree : Session :=
  sessionOfTwo.add ⟨"w", 39, none⟩

def sessionOfFour : Session :=
  sessionOfThree.add ⟨"x", 50, none⟩

/-- The reply to a user who joined, with the token that the provider gave. -/
def replyWith (x : Session) : JoinReply :=
  ⟨x, some ⟨x.meetingId, "token", "app", false⟩⟩

/-- Both joins of the first race are in the session, each of which was granted a meeting. The
schedule is evaluated here once, and every fact about the race is read off this view. -/
theorem view_afterRace : afterRace.view "s" [0, 1] =
    { replies := [some (replyWith sessionOfOne), some (replyWith sessionOfTwo)]
      grants := [("s", "n"), ("s", "m")]
      available := true
      mapping := some ⟨"m", .real⟩
      session := some sessionOfTwo } := by
  decide +kernel

/-- Both joins of the second race are in the session as well, without a new meeting. -/
theorem view_afterRaces : afterRaces.view "s" [2, 3] =
    { replies := [some (replyWith sessionOfThree), some (replyWith sessionOfFour)]
      grants := [("s", "n"), ("s", "m")]
      available := true
      mapping := some ⟨"m", .real⟩
      session := some sessionOfFour } := by
  decide +kernel

theorem run_afterRace : Run "app" {} afterRace :=
  run_visited ..

theorem run_afterRaces : Run "app" afterRace afterRaces :=
  run_visited ..

theorem run_both_races : Run "app" {} afterRaces :=
  run_afterRace.trans run_afterRaces

/-- The two meetings that are granted are fresh. -/
theorem freshGrants_of_view {σ : System} {s : String} {tasks : List Nat}
    (h : (σ.view s tasks).grants = [("s", "n"), ("s", "m")]) : FreshGrants σ.past := by
  have hgrants : grants σ.past = [("s", "n"), ("s", "m")] := h
  constructor
  · rw [hgrants]
    decide
  · rw [hgrants]
    decide

theorem freshGrants_afterRace : FreshGrants afterRace.past :=
  freshGrants_of_view (congrArg View.grants view_afterRace)

theorem freshGrants_afterRaces : FreshGrants afterRaces.past :=
  freshGrants_of_view (congrArg View.grants view_afterRaces)

/-- Whether the store is up can be read off the view. -/
theorem System.available_of_view {σ : System} {s : String} {tasks : List Nat}
    (h : (σ.view s tasks).available = true) : σ.store.available = true :=
  h

theorem available_afterRace : afterRace.store.available = true :=
  System.available_of_view (congrArg View.available view_afterRace)

theorem available_afterRaces : afterRaces.store.available = true :=
  System.available_of_view (congrArg View.available view_afterRaces)

theorem jobs_afterRace : afterRace.tasks.map Task.job =
    [.join .real "s" ⟨some "u", none⟩, .join .real "s" ⟨some "v", none⟩] :=
  map_job_visited ..

/-- The second race adds two more. -/
theorem jobs_afterRaces : afterRaces.tasks.map Task.job =
    [.join .real "s" ⟨some "u", none⟩, .join .real "s" ⟨some "v", none⟩,
      .join .real "s" ⟨some "w", none⟩, .join .real "s" ⟨some "x", none⟩] := by
  rw [afterRaces, map_job_visited, jobs_afterRace]
  rfl

/-- Both of the first two came in, the second one after the first. -/
theorem finished_afterRace :
    afterRace.Finished 0 (.join .real "s" ⟨some "u", none⟩)
        (.joined (.ok (replyWith sessionOfOne))) ∧
      afterRace.Finished 1 (.join .real "s" ⟨some "v", none⟩)
        (.joined (.ok (replyWith sessionOfTwo))) :=
  System.finished_of_view (by rw [jobs_afterRace]; rfl) (by rw [jobs_afterRace]; rfl)
    (congrArg View.replies view_afterRace)

/-- So did the other two. -/
theorem finished_afterRaces :
    afterRaces.Finished 2 (.join .real "s" ⟨some "w", none⟩)
        (.joined (.ok (replyWith sessionOfThree))) ∧
      afterRaces.Finished 3 (.join .real "s" ⟨some "x", none⟩)
        (.joined (.ok (replyWith sessionOfFour))) :=
  System.finished_of_view (by rw [jobs_afterRaces]; rfl) (by rw [jobs_afterRaces]; rfl)
    (congrArg View.replies view_afterRaces)

/-- The session id leads to a session of two users. -/
theorem stored_afterRace : afterRace.store.mappingAt "s" = some ⟨"m", .real⟩ ∧
    afterRace.store.sessionAt "m" = some sessionOfTwo := by
  obtain ⟨hmapping, hsession⟩ :=
    System.stored_of_view (congrArg View.mapping view_afterRace)
  exact ⟨hmapping, hsession.trans (congrArg View.session view_afterRace)⟩

/-- The session id leads to a session of four users. -/
theorem stored_afterRaces : afterRaces.store.mappingAt "s" = some ⟨"m", .real⟩ ∧
    afterRaces.store.sessionAt "m" = some sessionOfFour := by
  obtain ⟨hmapping, hsession⟩ :=
    System.stored_of_view (congrArg View.mapping view_afterRaces)
  exact ⟨hmapping, hsession.trans (congrArg View.session view_afterRaces)⟩

end VoiceRoom.Concurrency
