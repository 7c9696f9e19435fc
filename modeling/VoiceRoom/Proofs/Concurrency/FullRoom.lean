import VoiceRoom.Proofs.Concurrency.Alone
import VoiceRoom.Proofs.Conduct.Attempts

/-!
# Rooms that fill

Users join a session in real mode, each of them alone. The first one makes the session and everybody
else finds it, so every roster of distinct users that has places is reached, whatever other requests
wait in the meantime (`Hosts.filled`), up to a full room (`hosts_full`). A join that waits with a
meeting of its own until the room is full is turned away (`Hosts.turnsAway`).
-/

namespace VoiceRoom.Concurrency

open Simulation (Entry)

variable {σ : System} {m : Memory} {s userId : String} {x : Session} {stored v : Versioned}

/-! ### A join that finds the session -/

/-- The mapping to a session in a real meeting counts. -/
theorem found_of_real (hmapping : Mapping.decode stored.value = x.mapping) (hreal : x.kind = .real) :
    Resolution.ofStored .real stored = .found x.mapping stored.version :=
  Resolution.ofStored_eq_found_iff.2 ⟨hmapping, rfl, .inr hreal⟩

/-- The calls of an attempt in real mode that finds a session and puts a user into it. -/
def foundEntries (m : Memory) (s userId : String) (stored v : Versioned) (x : Session) :
    List Entry :=
  [⟨.get (mappingKey s), .ok (some stored)⟩,
   ⟨.get (sessionKey x.meetingId), .ok (some v)⟩,
   ⟨.now, (0 : Int)⟩,
   ⟨.putIf (sessionKey x.meetingId) (x.add ⟨userId, 0, none⟩).encode (some v.version),
    .ok (.written (m.nextVersion (sessionKey x.meetingId)))⟩]

/-- In real mode, an attempt to join finds the session where the session id leads. -/
theorem alone_attempt_found (hup : m.available = true)
    (hmapped : m.lookup (mappingKey s) = some stored)
    (hmapping : Mapping.decode stored.value = x.mapping) (hreal : x.kind = .real)
    (hstored : m.lookup (sessionKey x.meetingId) = some v) (hx : Session.decode v.value = .ok x)
    (hroom : x.isFull = false) (hnew : x.hasMember userId = false) :
    Alone m (Joiner.attempt ⟨.real, s, userId, none⟩ none).run (foundEntries m s userId stored v x)
      (m.insert (sessionKey x.meetingId)
        ⟨(x.add ⟨userId, 0, none⟩).encode, m.nextVersion (sessionKey x.meetingId)⟩)
      (.ok (.joined (x.add ⟨userId, 0, none⟩) true, none)) := by
  have hadd : (x.add ⟨userId, 0, none⟩).meetingId = x.meetingId :=
    (Session.continues_add x _).meetingId
  have hlookup := alone_lookup hup hmapped (found_of_real hmapping hreal)
  have hopen := alone_openMapped (j := ⟨.real, s, userId, none⟩) hup hstored hx
  have henter := alone_enter (j := ⟨.real, s, userId, none⟩) (d := ⟨x, some v.version, false⟩)
    (t := 0) hup rfl hroom hnew rfl (by rw [hadd, hstored]; rfl)
  dsimp only at henter
  rw [hadd] at henter
  exact hlookup.bindRequest (hopen.bindRequest (henter.lastRequest rfl))

/-! ### Filling a room -/

/-- After a run, a session id leads to a session in a real meeting. -/
structure Hosts (σ : System) (s : String) (x : Session) : Prop where
  run : Run "app" {} σ
  fresh : FreshGrants σ.past
  up : σ.store.available = true
  real : x.kind = .real
  timed : x.Timed
  mapped : ∃ stored, σ.store.lookup (mappingKey s) = some stored ∧
    Mapping.decode stored.value = x.mapping
  stored : ∃ n, σ.store.lookup (sessionKey x.meetingId) = some ⟨x.encode, n⟩

/-- The session id leads to the session that is hosted. -/
theorem Hosts.mappingAt (h : Hosts σ s x) : σ.store.mappingAt s = some x.mapping := by
  obtain ⟨stored, hlookup, hmapping⟩ := h.mapped
  rw [Memory.mappingAt_of_lookup hlookup, hmapping]

/-- The session that is hosted is stored. -/
theorem Hosts.sessionAt (h : Hosts σ s x) : σ.store.sessionAt x.meetingId = some x := by
  obtain ⟨n, hlookup⟩ := h.stored
  exact Memory.sessionAt_of_lookup hlookup (Session.decode_encode h.timed)

/-- The first user makes the session, in the meeting that the provider gives. -/
theorem hosts_first (hrun : Run "app" {} σ) (hfresh : FreshGrants σ.past) (hstore : σ.store = {})
    (s : String) {meetingId : String} (hgrant : meetingId ∉ (grants σ.past).map Prod.snd)
    (hunlike : ¬ "mock-meeting-".toList <+: meetingId.toList)
    (hvalid : JoinRequest.validate ⟨some userId, none⟩ = .ok userId) :
    ∃ σ', Run "app" σ σ' ∧ Hosts σ' s (firstSession s meetingId userId) ∧
      σ.tasks <+: σ'.tasks := by
  have hattempt := alone_attempt_first s meetingId userId
  rw [← hstore] at hattempt
  have hheld : Joiner.orphan? (some ⟨meetingId, .real, false⟩) (firstSession s meetingId userId) =
      none := by
    simp [Joiner.orphan?, firstSession, Session.add, Session.new, Session.hasMember]
  have hjoin : Alone σ.store ((Job.join .real s ⟨some userId, none⟩).program "app") _ _ _ :=
    alone_join "token" hvalid hattempt rfl hheld
  have hlater := run_of_alone hjoin
  refine ⟨_, hlater, ⟨hrun.trans hlater, ?_, rfl, rfl, timed_firstSession .., ?_, ?_⟩,
    List.prefix_append _ _⟩
  -- the only new grant is the meeting of the first user
  · have hgrants : grants (aloneAfter σ.tasks.length (.join .real s ⟨some userId, none⟩)
        (firstEntries s meetingId userId ++ finishEntries ⟨.real, s, userId, none⟩
          (firstSession s meetingId userId) "token") σ.past) = (s, meetingId) :: grants σ.past :=
      rfl
    constructor
    · show ((grants (aloneAfter ..)).map Prod.snd).Nodup
      rw [hgrants]
      exact List.nodup_cons.2 ⟨hgrant, hfresh.nodup⟩
    · show ∀ grant ∈ grants (aloneAfter ..), _
      rw [hgrants]
      intro grant hmem
      rcases List.mem_cons.1 hmem with rfl | hmem
      · exact hunlike
      · exact hfresh.unlike grant hmem
  · exact ⟨_, lookup_storeWith_mapping .., Mapping.decode_encode _⟩
  · exact ⟨1, lookup_storeWith_session ..⟩

/-- Another user finds a place. -/
theorem Hosts.joined (h : Hosts σ s x) (hroom : x.isFull = false)
    (hnew : x.hasMember userId = false)
    (hvalid : JoinRequest.validate ⟨some userId, none⟩ = .ok userId) :
    ∃ σ', Run "app" σ σ' ∧ Hosts σ' s (x.add ⟨userId, 0, none⟩) ∧ σ.tasks <+: σ'.tasks := by
  obtain ⟨stored, hmapped, hmapping⟩ := h.mapped
  obtain ⟨n, hstored⟩ := h.stored
  have hadd := Session.continues_add x ⟨userId, 0, none⟩
  have hreal : (x.add ⟨userId, 0, none⟩).kind = .real := hadd.kind.trans h.real
  have hattempt := alone_attempt_found h.up hmapped hmapping h.real hstored
    (Session.decode_encode h.timed) hroom hnew
  have hjoin : Alone σ.store ((Job.join .real s ⟨some userId, none⟩).program "app") _ _ _ :=
    alone_join "token" hvalid hattempt hreal rfl
  -- The provider is only asked for a token.
  have hfresh : FreshGrants (aloneAfter σ.tasks.length (.join .real s ⟨some userId, none⟩)
      (foundEntries σ.store s userId stored ⟨x.encode, n⟩ x ++
        finishEntries ⟨.real, s, userId, none⟩ (x.add ⟨userId, 0, none⟩) "token") σ.past) :=
    ⟨h.fresh.nodup, h.fresh.unlike⟩
  have hlater := run_of_alone hjoin
  refine ⟨_, hlater, ⟨h.run.trans hlater, hfresh, h.up, hreal, h.timed.add rfl, ?_, ?_⟩,
    List.prefix_append _ _⟩
  · refine ⟨stored, ?_, hmapping.trans hadd.mapping_eq.symm⟩
    show (σ.store.insert (sessionKey x.meetingId) _).lookup (mappingKey s) = _
    rw [Memory.lookup_insert, if_neg (mappingKey_ne_sessionKey s _), hmapped]
  · refine ⟨σ.store.nextVersion (sessionKey x.meetingId), ?_⟩
    show (σ.store.insert (sessionKey x.meetingId) _).lookup (sessionKey _) = _
    rw [hadd.meetingId, Memory.lookup_insert_session, if_pos rfl]

/-- So do others after them, as long as there are places. -/
theorem Hosts.filled {users : List String} (h : Hosts σ s x)
    (hplaces : x.users.length + users.length ≤ capacity)
    (hdistinct : (x.users.map Member.userId ++ users).Nodup)
    (hvalid : ∀ u ∈ users, JoinRequest.validate ⟨some u, none⟩ = .ok u) :
    ∃ σ' x', Run "app" σ σ' ∧ Hosts σ' s x' ∧ x'.meetingId = x.meetingId ∧
      x'.users.map Member.userId = x.users.map Member.userId ++ users ∧ σ.tasks <+: σ'.tasks := by
  -- One user after the other joins, and nobody disturbs them.
  induction users generalizing σ x with
  | nil => exact ⟨σ, x, .refl, h, rfl, (List.append_nil _).symm, List.prefix_refl _⟩
  | cons u users ih =>
    have hroom : x.isFull = false := by
      rw [Session.isFull_eq_false_iff]
      rw [List.length_cons] at hplaces
      omega
    have hnew : x.hasMember u = false := by
      rw [← Bool.not_eq_true, Session.hasMember_iff]
      intro hmem
      exact List.nodup_append.1 hdistinct |>.2.2 u hmem u List.mem_cons_self rfl
    obtain ⟨σ₁, hrun, hfirst, hgrown⟩ := h.joined hroom hnew (hvalid u List.mem_cons_self)
    have husers : (x.add ⟨u, 0, none⟩).users = x.users ++ [⟨u, 0, none⟩] := by
      apply Session.users_add_of_not_hasMember
      simp [hnew]
    have hids : (x.add ⟨u, 0, none⟩).users.map Member.userId ++ users =
        x.users.map Member.userId ++ u :: users := by
      simp [husers]
    obtain ⟨σ', x', hrun', hlast, hmeeting, hroster, hgrown'⟩ := ih hfirst
      (by simp [husers] at hplaces ⊢; omega) (hids ▸ hdistinct)
      fun u' hu' => hvalid u' (List.mem_cons_of_mem u hu')
    refine ⟨σ', x', hrun.trans hrun', hlast, ?_, hroster.trans hids, hgrown.trans hgrown'⟩
    exact hmeeting.trans (Session.continues_add x _).meetingId

/-- The first user is the only one. -/
theorem userIds_firstSession (s meetingId userId : String) :
    (firstSession s meetingId userId).users.map Member.userId = [userId] :=
  rfl

/-- As many users as there are places fill a room from its first member on. -/
theorem hosts_full (hrun : Run "app" {} σ) (hfresh : FreshGrants σ.past) (hstore : σ.store = {})
    (s meetingId : String) (hgrant : meetingId ∉ (grants σ.past).map Prod.snd)
    (hunlike : ¬ "mock-meeting-".toList <+: meetingId.toList) {users : List String}
    (hplaces : (userId :: users).length = capacity) (hdistinct : (userId :: users).Nodup)
    (hvalid : ∀ u ∈ userId :: users, JoinRequest.validate ⟨some u, none⟩ = .ok u) :
    ∃ σ' x, Run "app" σ σ' ∧ Hosts σ' s x ∧ x.mapping = ⟨meetingId, .real⟩ ∧ x.isFull = true ∧
      x.users.map Member.userId = userId :: users ∧ σ.tasks <+: σ'.tasks := by
  obtain ⟨σ₁, hrun₁, hfirst, hgrown₁⟩ := hosts_first hrun hfresh hstore s hgrant hunlike
    (hvalid userId List.mem_cons_self)
  have hlength : (firstSession s meetingId userId).users.length = 1 := rfl
  have hroom : (firstSession s meetingId userId).users.length + users.length ≤ capacity := by
    rw [List.length_cons] at hplaces
    omega
  obtain ⟨σ₂, x, hrun₂, hx, hmeeting, hroster, hgrown₂⟩ := hfirst.filled hroom
    (by rwa [userIds_firstSession]) fun u hu => hvalid u (List.mem_cons_of_mem userId hu)
  replace hroster : x.users.map Member.userId = userId :: users := hroster
  have hmapping : x.mapping = ⟨meetingId, .real⟩ := by
    rw [Session.mapping, hmeeting, hx.real]
    rfl
  -- all the places are taken by the users who joined
  have hfull : x.isFull = true := by
    rw [Session.isFull, ← List.length_map Member.userId, hroster, hplaces]
    rfl
  exact ⟨σ₂, x, hrun₁.trans hrun₂, hx, hmapping, hfull, hroster, hgrown₁.trans hgrown₂⟩

/-! ### Late arrivals -/

/-- The calls of a join that comes too late with the meeting that it was given, and finds the room
full. -/
def lateEntries (s userId : String) (meeting : Meeting) (stored v : Versioned) (x : Session) :
    List Entry :=
  [⟨.putIf (mappingKey s) (Mapping.ofMeeting meeting).encode none, .ok .conflict⟩,
   ⟨.count .joinConflict, ()⟩,
   ⟨.note (.joinRaced s 1), ()⟩,
   ⟨.get (mappingKey s), .ok (some stored)⟩,
   ⟨.get (sessionKey x.meetingId), .ok (some v)⟩,
   ⟨.note (.sessionFull s userId), ()⟩,
   ⟨.count (.join JoinOutcome.full.name), ()⟩]

/-- What is left of a join in real mode that was given a meeting when there was no mapping. -/
def lateJoin (s userId : String) (meeting : Meeting) : Program Outcome :=
  Outcome.joined <$> do
    let result ← (Joiner.settle ⟨.real, s, userId, none⟩ .absent meeting).run
    (Joiner.proceed "app" ⟨.real, s, userId, none⟩ 4 result).run

theorem alone_lateJoin (meeting : Meeting)
    (hup : m.available = true) (hmapped : m.lookup (mappingKey s) = some stored)
    (hmapping : Mapping.decode stored.value = x.mapping) (hreal : x.kind = .real)
    (hstored : m.lookup (sessionKey x.meetingId) = some v) (hx : Session.decode v.value = .ok x)
    (hfull : x.isFull = true) :
    Alone m (lateJoin s userId meeting) (lateEntries s userId meeting stored v x) m
      (.joined (.error .sessionFull)) := by
  have hput : m.putIf (mappingKey s) (Mapping.ofMeeting meeting).encode none =
      (.ok .conflict, m) := by
    simp [Memory.putIf, hup, hmapped]
  -- First the mapping is lost to somebody else, and this costs one attempt.
  have hraced : Alone m (Joiner.settle ⟨.real, s, userId, none⟩ .absent meeting).run
      [⟨.putIf (mappingKey s) (Mapping.ofMeeting meeting).encode none, .ok .conflict⟩] m
      (.ok (.raced, some meeting)) :=
    .step (c := .putIf ..) _ (congrArg Prod.fst hput).symm (congrArg Prod.snd hput) (.done _ _)
  have hlookup := alone_lookup hup hmapped (found_of_real hmapping hreal)
  have hopen := alone_openMapped (j := ⟨.real, s, userId, none⟩) hup hstored hx
  -- In the second attempt the session is found and has no place left.
  have henter : Alone m (Joiner.enter ⟨.real, s, userId, none⟩ ⟨x, some v.version, false⟩).run
      [⟨.note (.sessionFull s userId), ()⟩] m (.error .sessionFull) := by
    unfold Joiner.enter
    dsimp only
    rw [if_pos hfull]
    exact .ask (c := .note _) _ trivial (.done _ _)
  have hrefused : Alone m (Joiner.attempt ⟨.real, s, userId, none⟩ (some meeting)).run _ m
      (.error .sessionFull) :=
    hlookup.bindRequest (hopen.bindRequest henter.failRequest)
  refine Alone.map (hraced.bind ?_)
  refine .ask (c := .count _) _ trivial (.ask (c := .note _) _ trivial ?_)
  show Alone m (Joiner.retry "app" ⟨.real, s, userId, none⟩ (3 + 1) (some meeting)).run _ m _
  rw [Joiner.retry_succ]
  exact hrefused.bind (.ask (c := .count _) _ trivial (.done _ _))

/-- A join is given a meeting, and has not written the mapping yet. -/
theorem run_lateJoin (s meetingId : String)
    (hvalid : JoinRequest.validate ⟨some userId, none⟩ = .ok userId) :
    Run "app" {} ⟨⟨{}, [.answer 0 ⟨.createMeeting s, .ok meetingId⟩,
      .answer 0 ⟨.get (mappingKey s), .ok none⟩, .start (.join .real s ⟨some userId, none⟩)]⟩,
      [⟨.join .real s ⟨some userId, none⟩, lateJoin s userId ⟨meetingId, .real, false⟩⟩]⟩ := by
  have hprogram : (Job.join .real s ⟨some userId, none⟩).program "app" =
      Outcome.joined <$> ((Joiner.attempt ⟨.real, s, userId, none⟩ none).run >>= fun result =>
        (Joiner.proceed "app" ⟨.real, s, userId, none⟩ 4 result).run) := by
    show Outcome.joined <$> (join "app" .real s _).run = _
    rw [run_join_of_ok hvalid]
  have hstart : Run "app" {} _ := .single (.start {} (.join .real s ⟨some userId, none⟩))
  rw [hprogram] at hstart
  have hread := hstart.tail (Step.answer (i := 0) (c := .get _) (.ok none) rfl rfl)
  have hgiven := hread.tail
    (Step.answer (i := 0) (c := .createMeeting _) (.ok meetingId) rfl trivial)
  exact hgiven

/-- Whoever comes to a full room with a meeting of its own is turned away. -/
theorem Hosts.turnsAway (h : Hosts σ s x) (hfull : x.isFull = true) {i : Nat} {job : Job}
    {meeting : Meeting} (htask : σ.tasks[i]? = some ⟨job, lateJoin s userId meeting⟩) :
    ∃ σ', Run "app" σ σ' ∧ FreshGrants σ'.past ∧
      σ'.Finished i job (.joined (.error .sessionFull)) ∧ σ'.store = σ.store := by
  obtain ⟨stored, hmapped, hmapping⟩ := h.mapped
  obtain ⟨n, hstored⟩ := h.stored
  have hlate : Alone σ.store (lateJoin s userId meeting) _ σ.store _ :=
    alone_lateJoin meeting h.up hmapped hmapping h.real hstored (Session.decode_encode h.timed) hfull
  have hi : i < σ.tasks.length := (List.getElem?_eq_some_iff.1 htask).1
  refine ⟨_, run_task_of_alone hlate htask σ.past, ?_, List.getElem?_set_self hi, rfl⟩
  -- The provider is not asked again.
  exact ⟨h.fresh.nodup, h.fresh.unlike⟩

end VoiceRoom.Concurrency
