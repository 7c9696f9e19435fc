import VoiceRoom.Proofs.Concurrency.Answering
import VoiceRoom.Proofs.Conduct.Writers

/-!
# Who loses a write sees others get ahead

While the store answers, a join loses an attempt only to another request that wrote the mapping of
its session id or a session in one of its meetings. How much was written that can cost a join an
attempt depends on the kind of the meeting that it holds (`headway`): one that holds a mock meeting
never writes the mapping over another one, and one that holds a real meeting never enters a mock one.
So a join that gives up saw as much headway as it has attempts (`holds_join_headway`).

Who writes a mapping owes a session in the meeting, and has it there before it is done (`Owes`).
-/

namespace VoiceRoom.Concurrency

open Discipline

variable {i : Nat} {u v w : World} {base : List Act} {P : Act → Prop} {hP : ¬ P (.switch false)}
variable {s k : String} {kind : MeetingKind} {mapping : Mapping}

/-! ### Headway -/

/-- Who wrote the session in the real meeting that a session id leads to, if it leads to one. -/
def realWriters (s : String) (w : World) : List Nat :=
  match w.store.mappingAt s with
  | some ⟨meetingId, .real⟩ => writers (sessionKey meetingId) w.past
  | _ => []

/-- Who wrote a session in a meeting of a session id. -/
def entrants (s : String) (w : World) : List Nat :=
  writers (sessionKey (mockMeetingId s)) w.past ++ realWriters s w

/-- How much was written that can cost a join an attempt that goes on with a meeting of a kind. -/
def headway : MeetingKind → String → World → Nat
  | .mock, s, w => min 1 (writers (mappingKey s) w.past).length + (entrants s w).length
  | .real, s, w => (writers (mappingKey s) w.past).length + (realWriters s w).length

/-- A real mapping tells which session the real joins write. -/
theorem realWriters_of_mappingAt {meetingId : String}
    (hat : w.store.mappingAt s = some ⟨meetingId, .real⟩) :
    realWriters s w = writers (sessionKey meetingId) w.past := by
  rw [realWriters, hat]

/-- Who wrote a session in a meeting of a session id did so in a meeting that was given for it. -/
theorem exists_given_of_mem_entrants (hsound : Sound w) (h : i ∈ entrants s w) :
    ∃ k kind, Given w.past s ⟨k, kind⟩ ∧ i ∈ writers (sessionKey k) w.past := by
  rcases List.mem_append.1 h with hmock | hreal
  · exact ⟨mockMeetingId s, .mock, rfl, hmock⟩
  · unfold realWriters at hreal
    split at hreal
    · rename_i meetingId hat
      exact ⟨meetingId, .real, hsound.mapped s _ hat, hreal⟩
    · exact nomatch hreal

/-- Nobody enters the same session twice, so that there are no more entrants than joins. -/
theorem nodup_entrants (hsound : Sound w) (hfresh : FreshGrants w.past)
    (honce : ∀ i, tally seats i w.past ≤ 1) : (entrants s w).Nodup := by
  unfold entrants realWriters
  split
  · rename_i meetingId hat
    refine nodup_writers_append (fun hsame => ?_) honce
    have hgiven : Given w.past s ⟨meetingId, .real⟩ := hsound.mapped s _ hat
    exact nomatch (Given.unique hfresh hgiven (given_mock_iff.2 hsame.symm)).2
  · rw [List.append_nil]
    exact nodup_writers _ honce

/-- Writes are not undone. -/
theorem length_realWriters_le (h : Grows u w) :
    (realWriters s u).length ≤ (realWriters s w).length := by
  unfold realWriters
  split
  · rename_i meetingId hat
    have hmoved := h.mapping s
    rw [hat] at hmoved
    rw [hmoved.eq_of_real]
    exact length_writers_le _ h.past
  · exact Nat.zero_le _

/-- If the session was written in the real meeting of a session id, more of such were written. -/
theorem length_realWriters_lt {meetingId : String} (h : Grows u w)
    (hat : w.store.mappingAt s = some ⟨meetingId, .real⟩)
    (hlt : (writers (sessionKey meetingId) u.past).length <
      (writers (sessionKey meetingId) w.past).length) :
    (realWriters s u).length < (realWriters s w).length := by
  rw [realWriters_of_mappingAt hat]
  unfold realWriters
  split
  · rename_i other hbefore
    have hmoved := h.mapping s
    rw [hbefore, hat] at hmoved
    obtain rfl : meetingId = other :=
      congrArg Mapping.meetingId (Option.some.inj hmoved.eq_of_real)
    exact hlt
  · exact Nat.zero_lt_of_lt hlt

/-- Headway is never lost. -/
theorem headway_le (h : Grows u w) : headway kind s u ≤ headway kind s w := by
  have hmapping := length_writers_le (mappingKey s) h.past
  have hsession := length_writers_le (sessionKey (mockMeetingId s)) h.past
  have hreal := length_realWriters_le (s := s) h
  cases kind with
  | mock => simp only [headway, entrants, List.length_append]; omega
  | real => rw [headway, headway]; omega

/-- A mapping that was written is headway, unless it is written again and a mock meeting is held. -/
theorem headway_lt_of_mapping (h : Grows u w)
    (hlt : (writers (mappingKey s) u.past).length < (writers (mappingKey s) w.past).length)
    (hfirst : kind = .mock → writers (mappingKey s) u.past = []) :
    headway kind s u < headway kind s w := by
  have hsession := length_writers_le (sessionKey (mockMeetingId s)) h.past
  have hreal := length_realWriters_le (s := s) h
  cases kind with
  | mock =>
    rw [hfirst rfl, List.length_nil] at hlt
    simp only [headway, entrants, List.length_append, hfirst rfl, List.length_nil]
    omega
  | real => rw [headway, headway]; omega

/-- A session that was written where the session id led in the meantime is headway. -/
theorem headway_lt_of_session (h : Grows u w) (hchosen : Chosen u w s mapping)
    (hlt : (writers (sessionKey mapping.meetingId) u.past).length <
      (writers (sessionKey mapping.meetingId) w.past).length)
    (hkind : kind = mapping.kind ∨ mapping.kind = .real) :
    headway kind s u < headway kind s w := by
  have hmapping := length_writers_le (mappingKey s) h.past
  have hsession := length_writers_le (sessionKey (mockMeetingId s)) h.past
  have hgiven := hchosen.given
  have hleads := hchosen.leads
  obtain ⟨meetingId, mappingKind⟩ := mapping
  -- a mock mapping counts for mock joins only, a real one for both kinds
  cases mappingKind with
  | mock =>
    obtain rfl : kind = .mock := hkind.resolve_right fun h => nomatch h
    obtain rfl : meetingId = mockMeetingId s := hgiven
    have hreal := length_realWriters_le (s := s) h
    dsimp only at hlt
    simp only [headway, entrants, List.length_append]
    omega
  | real =>
    have hreal := length_realWriters_lt h hleads.real hlt
    cases kind with
    | mock => simp only [headway, entrants, List.length_append]; omega
    | real => rw [headway, headway]; omega

/-- At most one attempt is lost to nobody who wrote a session, if there is one in the mock meeting
when the session id was mapped to it. -/
theorem headway_le_entrants {appId : String} {σ : System} (hrun : Run appId {} σ)
    (hpaid : ∀ i, Mapped σ.past s i ⟨mockMeetingId s, .mock⟩ →
      σ.store.lookup (sessionKey (mockMeetingId s)) ≠ none) (kind : MeetingKind) :
    headway kind s σ.world ≤ 1 + (entrants s σ.world).length := by
  have hmapped := mappedBy_of_run hrun s
  cases kind with
  | mock => rw [headway]; omega
  | real =>
    rw [headway, entrants, List.length_append]
    generalize writers (mappingKey s) σ.past = l at hmapped ⊢
    generalize σ.store.mappingAt s = mapping at hmapped
    cases hmapped with
    | none => rw [List.length_nil]; omega
    | once => rw [List.length_singleton]; omega
    | twice hmock hreal =>
      -- The first of two mappings was to the mock meeting, where a session was written.
      have hpresent := hpaid _ hmock
      rw [storeOf_of_run hrun] at hpresent
      obtain ⟨i, hi⟩ := exists_writer (kept_of_run hrun) hpresent
      have hpos : 0 < (writers (sessionKey (mockMeetingId s)) σ.world.past).length :=
        List.length_pos_of_mem hi
      rw [List.length_cons, List.length_singleton]
      omega

/-! ### What is owed -/

/-- Records are never removed. -/
theorem Grows.lookup_ne_none {key : String} (h : Grows u w) (hu : u.store.lookup key ≠ none) :
    w.store.lookup key ≠ none := by
  obtain ⟨stored, hstored⟩ := Option.ne_none_iff_exists'.1 hu
  obtain ⟨later, hlater, -⟩ := h.store key stored hstored
  exact fun hnone => nomatch hnone.symm.trans hlater

/-- A key that does not hold the version any more that it held was written in the meantime. -/
theorem overtaken {B : Bylaw} {key : String} (hv : B.Inv v) (hw : B.Inv w)
    (hassumes : B.Assumes w.past) (h : Grows v w)
    (hversion : (w.store.lookup key).map Versioned.version ≠
      (v.store.lookup key).map Versioned.version) :
    (writers key v.past).length < (writers key w.past).length ∧ w.store.lookup key ≠ none := by
  constructor
  · refine length_writers_lt hassumes.kept h.past ?_
    rw [← hw.replay, ← hv.replay]
    exact hversion
  · intro hnone
    have hbefore : v.store.lookup key = none := by
      by_contra hsome
      exact h.lookup_ne_none hsome hnone
    exact hversion (by rw [hnone, hbefore])

/-- Wherever a task mapped a session id to, there is a session in the meeting, but for one meeting
where it is owed. -/
def Owes (i : Nat) (s : String) (owed : Option String) (w : World) : Prop :=
  ∀ mapping, Mapped w.past s i mapping →
    owed = some mapping.meetingId ∨ w.store.lookup (sessionKey mapping.meetingId) ≠ none

namespace Owes

variable {owed : Option String}

/-- A task that made no call owes nothing. -/
theorem of_own_eq_nil (h : own i w.past = []) (owed : Option String) : Owes i s owed w := by
  rintro mapping ⟨expected, n, hmem⟩
  rw [h] at hmem
  exact nomatch hmem

theorem weaken (h : Owes i s none w) (owed : Option String) : Owes i s owed w :=
  fun mapping hmapped => .inr ((h mapping hmapped).resolve_left fun h => nomatch h)

/-- Nothing is owed where there is a session. -/
theorem paid (h : Owes i s (some k) w) (hpresent : w.store.lookup (sessionKey k) ≠ none) :
    Owes i s none w := by
  intro mapping hmapped
  refine .inr ?_
  rcases h mapping hmapped with hsame | hother
  · rw [← Option.some.inj hsame]
    exact hpresent
  · exact hother

/-- Who maps nothing owes nothing new. -/
theorem grows (h : Owes i s owed u) (hle : Grows u w)
    (hmapped : ∀ mapping, Mapped w.past s i mapping → Mapped u.past s i mapping) :
    Owes i s owed w :=
  fun mapping h' => (h mapping (hmapped mapping h')).imp_right hle.lookup_ne_none

theorem rests (h : Owes i s owed u) {D : Discipline} (hle : Grows u w) (hrests : D.Rests i u w) :
    Owes i s owed w := by
  obtain ⟨new, hown, hquiet⟩ := hrests.own
  refine h.grows hle fun mapping ⟨expected, n, hmem⟩ => ⟨expected, n, ?_⟩
  rw [hown] at hmem
  exact (List.mem_append.1 hmem).resolve_left fun hnew => hquiet _ hnew trivial

end Owes

/-- Who writes a session maps nothing. -/
theorem Owes.written_session {owed : Option String} {value : String} {expected : Option Nat}
    (h : Owes i s owed v) (hgrows : Grows v (v.written i (sessionKey k) value expected)) :
    Owes i s owed (v.written i (sessionKey k) value expected) := by
  refine h.grows hgrows fun mapping ⟨expected', n, hmem⟩ => ⟨expected', n, ?_⟩
  rw [World.written, own_answer_self, List.mem_cons] at hmem
  refine hmem.resolve_left fun hlast => ?_
  have hcall := congrArg Simulation.Entry.call hlast
  exact mappingKey_ne_sessionKey _ _ (Call.putIf.inj hcall).1

/-- The session id was mapped, so a session is owed. -/
theorem owes_written_mapping {expected : Option Nat} (h : Owes i s none v)
    (hgrows : Grows v (v.written i (mappingKey s) mapping.encode expected)) :
    Owes i s (some mapping.meetingId) (v.written i (mappingKey s) mapping.encode expected) := by
  rintro other ⟨expected', n, hmem⟩
  rw [World.written, own_answer_self, List.mem_cons] at hmem
  rcases hmem with hlast | hbefore
  · have hcall := congrArg Simulation.Entry.call hlast
    have hencode : other.encode = mapping.encode := (Call.putIf.inj hcall).2.1
    have hsame : other = mapping := by
      rw [← Mapping.decode_encode other, hencode, Mapping.decode_encode]
    exact .inl (by rw [hsame])
  · have howed := (h other ⟨expected', n, hbefore⟩).resolve_left (Option.some_ne_none _).symm
    exact .inr (hgrows.lookup_ne_none howed)

/-! ### Entering a session -/

/-- A session of the session id is full. -/
def Crowded (s : String) (e : ServiceError) (w : World) : Prop :=
  e = .sessionFull ∧ ∃ meetingId kind, Given w.past s ⟨meetingId, kind⟩ ∧
    capacity ≤ (rosterAt w.store meetingId).length

theorem Crowded.grows {e : ServiceError} (h : Crowded s e u) (hle : Grows u w)
    (hfresh : FreshGrants w.past) : Crowded s e w := by
  obtain ⟨he, meetingId, kind, hgiven, hfull⟩ := h
  exact ⟨he, meetingId, kind, hgiven.of_suffix hle.past,
    hfull.trans (rosterAt_prefix_of_grows hle hfresh meetingId).length_le⟩

/-- Who is overtaken on the way into a session sees it written, and whoever comes in, or is
overtaken, leaves a session there. -/
theorem ensures_enter_headway {j : Joiner} {d : Draft} {start : World}
    (hmirrors : MirrorsSince base P hP i k start d u)
    (hgiven : Given u.past j.sessionId ⟨k, kind⟩) (howes : Owes i j.sessionId (some k) u) :
    (answering base P hP).discipline.Ensures i (j.enter d)
      (fun a w => Owes i j.sessionId none w ∧ (a = .raced →
        (writers (sessionKey k) start.past).length < (writers (sessionKey k) w.past).length))
      (Crowded j.sessionId) u := by
  obtain ⟨v, hv, hrests, hmirrors⟩ := hmirrors
  have hadd : ∀ m, (d.session.add m).meetingId = k := fun m =>
    (Session.continues_add d.session m).meetingId.trans hmirrors.meeting
  refine ensures_enter (fun hfull w hw => ⟨rfl, k, kind, ?_, ?_⟩)
    (fun _ hdirty _ w hw => ⟨?_, fun h => nomatch h⟩)
    (fun _ _ w t hw _ _ hassumes => ?_)
    (fun _ w w' w'' t hw hversion hturn hw'' => ?_)
    fun w _ hw hfails => (not_fails_answering hfails).elim
  · exact hgiven.of_suffix (Grows.past hw.le)
  · have hroster := rosterAt_prefix_of_grows (Grows.trans hrests.le hw.le)
      (Bylaw.Assumes.fresh hw.assumes) k
    rw [← hmirrors.users] at hroster
    unfold Session.isFull at hfull
    exact (of_decide_eq_true hfull).trans hroster.length_le
  -- The draft is the record that is there.
  · refine (howes.rests hw.le hw.rests).paid ?_
    exact (Grows.trans hrests.le hw.le).lookup_ne_none (hmirrors.clean hdirty)
  · rw [hadd] at hassumes ⊢
    obtain ⟨hinv, hgrows⟩ := answering_written hw.inv hassumes
    have hwritten := (howes.rests hw.le hw.rests).written_session hgrows
    refine ⟨hinv, hgrows, fun w' hw' => ⟨?_, fun h => nomatch h⟩⟩
    refine (hwritten.paid ?_).rests hw'.le hw'.rests
    show (w.store.insert _ _).lookup _ ≠ none
    rw [Memory.lookup_insert, if_pos rfl]
    exact fun h => nomatch h
  -- Somebody wrote the session since it was opened.
  · rw [hadd, hmirrors.version] at hversion
    have hend : Grows w w'' := Grows.trans hturn.le hw''.le
    obtain ⟨hlt, hpresent⟩ := overtaken hv.inv hw.inv hw.assumes (Grows.trans hrests.le hw.le)
      hversion
    have hstart := length_writers_le (sessionKey k) (Grows.past hv.le)
    have hlater := length_writers_le (sessionKey k) hend.past
    have hrests' := (hw.rests.trans (hturn.rests id)).trans hw''.rests
    refine ⟨?_, fun _ => by omega⟩
    exact (howes.rests (Grows.trans hw.le hend) hrests').paid (hend.lookup_ne_none hpresent)

/-! ### Each part of an attempt -/

/-- What an attempt leaves behind: a meeting to hold on to and no session owed, and if it was raced,
there is headway for meetings of some kinds. -/
structure Ran (i : Nat) (s : String) (held : Option Meeting) (kinds : MeetingKind → Prop)
    (v : World) (r : Attempt × Option Meeting) (w : World) : Prop where
  held : r.2 = held
  owes : Owes i s none w
  raced : r.1 = .raced → ∀ kind, kinds kind → headway kind s v < headway kind s w

/-- The session of a mapping that was in force is entered, or somebody else writes it. -/
theorem ensures_land_headway {j : Joiner} {x : Request Draft} {held : Option Meeting}
    {kinds : MeetingKind → Prop} (hchosen : Chosen v u j.sessionId mapping) (hstart : Grows v u)
    (howes : Owes i j.sessionId (some mapping.meetingId) u)
    (hkinds : ∀ kind, kinds kind → kind = mapping.kind ∨ mapping.kind = .real)
    (h : (answering base P hP).discipline.Ensures i x
      (MirrorsSince base P hP i mapping.meetingId u) (fun _ _ => False) u) :
    (answering base P hP).discipline.Ensures i (do
        let draft ← x
        return (← j.enter draft, held))
      (Ran i j.sessionId held kinds v) (Crowded j.sessionId) u := by
  refine Ensures.bind (h.mono (fun _ _ _ _ => id) fun _ _ _ _ h => h.elim) fun d w hw hd => ?_
  have hmirrors := hd w hw
  -- Opening the session only reads, so the task has written nothing since.
  have hrests : (answering base P hP).discipline.Rests i u w := by
    obtain ⟨_, hlater, hrests, -⟩ := hmirrors
    exact hlater.rests.trans hrests
  have hle : Grows u w := hrests.le
  have henter := ensures_enter_headway hmirrors (hchosen.grows hle).given (howes.rests hle hrests)
  refine Ensures.bind (henter.grown.mono (fun _ _ _ _ => id) fun _ _ _ _ h => h.2)
    fun a w' hw' ha => ensures_pure fun w'' hw'' => ?_
  -- A put that loses its race has lost it to a writer of this session, which is headway.
  obtain ⟨hle', howes', hraced⟩ := ha w'' hw''
  have hend : Grows u w'' := hle.trans hle'
  refine ⟨rfl, howes', fun hr kind hkind => ?_⟩
  exact headway_lt_of_session (hstart.trans hend) (hchosen.grows hend)
    ((length_writers_le _ hstart.past).trans_lt (hraced hr)) (hkinds kind hkind)

/-- What writing the mapping leaves behind: a session owed, or headway of somebody else. -/
def Recorded (i : Nat) (s : String) (meeting : Meeting) (v : World) (written : Bool) (w : World) :
    Prop :=
  if written then Owes i s (some meeting.id) w
  else Owes i s none w ∧ headway meeting.kind s v < headway meeting.kind s w

/-- A mapping write succeeds, or loses to another writer of the mapping, which is headway. A mock
join that loses finds the mapping at its next attempt, so that this counts once only. -/
theorem ensures_writeMapping_headway {j : Joiner} {seen : Resolution} {meeting : Meeting}
    (hv : (answering base P hP).discipline.Later i v v) (hle : Grows v u)
    (hseen : seen = .read j.mode (v.store.lookup (mappingKey j.sessionId)))
    (hfound : ∀ mapping version, seen ≠ .found mapping version)
    (hheld : Held u j.sessionId meeting) (howes : Owes i j.sessionId none u) :
    (answering base P hP).discipline.Ensures i (j.writeMapping seen meeting)
      (Recorded i j.sessionId meeting v) (fun _ _ => False) u := by
  by_cases hsame : ∃ version, seen = .stale (.ofMeeting meeting) version
  -- The mapping is in place already.
  · obtain ⟨version, rfl⟩ := hsame
    unfold Joiner.writeMapping
    dsimp only
    rw [if_pos rfl]
    exact ensures_pure fun w hw => (howes.rests hw.le hw.rests).weaken _
  · refine ensures_writeMapping (fun w version hstale _ => absurd ⟨version, hstale⟩ hsame)
      (fun _ w hw _ hassumes => ?_) (fun w w' w'' hw hversion hturn hw'' => ?_)
      fun w hfails => not_fails_answering hfails
    · obtain ⟨hinv, hgrows⟩ := answering_written hw.inv hassumes
      refine ⟨hinv, hgrows, fun w' hw' => ?_⟩
      exact (owes_written_mapping (howes.rests hw.le hw.rests) hgrows).rests hw'.le hw'.rests
    · have hwhole : Grows v w := Grows.trans hle hw.le
      have hend : Grows w w'' := Grows.trans hturn.le hw''.le
      rw [hseen, Resolution.version?_read] at hversion
      obtain ⟨hlt, -⟩ := overtaken hv.inv hw.inv hw.assumes hwhole hversion
      have hrests := (hw.rests.trans (hturn.rests id)).trans hw''.rests
      refine ⟨howes.rests (Grows.trans hw.le hend) hrests, ?_⟩
      refine (headway_lt_of_mapping hwhole hlt fun hmock => ?_).trans_le (headway_le hend)
      -- Who holds a mock meeting writes the mapping where there is none.
      have hkept := Bylaw.Assumes.kept hv.assumes
      rcases unmapped_or_mock (Bylaw.Inv.sound hv.inv hv.assumes) hseen hfound with
        hat | ⟨-, -, version, hstale⟩
      · refine writers_eq_nil hkept ?_
        rw [← Bylaw.Inv.replay hv.inv]
        exact Memory.mappingAt_eq_none_iff.1 hat
      · obtain ⟨meetingId, meetingKind, degraded⟩ := meeting
        obtain rfl : meetingKind = .mock := hmock
        obtain rfl : meetingId = mockMeetingId j.sessionId := hheld.given
        exact absurd ⟨version, hstale⟩ hsame

theorem ensures_settle_headway {j : Joiner} {seen : Resolution} {meeting : Meeting}
    (hv : (answering base P hP).discipline.Later i v v) (hle : Grows v u)
    (hseen : seen = .read j.mode (v.store.lookup (mappingKey j.sessionId)))
    (hfound : ∀ mapping version, seen ≠ .found mapping version)
    (hheld : Held u j.sessionId meeting) (howes : Owes i j.sessionId none u) :
    (answering base P hP).discipline.Ensures i (j.settle seen meeting)
      (Ran i j.sessionId (some meeting) (· = meeting.kind) v) (Crowded j.sessionId) u := by
  have hresolved : Resolved v u j.sessionId seen :=
    hseen ▸ resolved_read (Bylaw.Inv.sound hv.inv hv.assumes) (grows_refl v) hle
  have hwrite := Bylaw.ensures_and (ensures_writeMapping_ledger hresolved hheld hle hfound)
    (ensures_writeMapping_headway hv hle hseen hfound hheld howes)
  refine Ensures.bind (hwrite.mono (fun _ _ _ _ => id) fun _ _ _ _ h => h.2.elim)
    fun written w hw h => ?_
  cases written with
  -- the mapping is the task's own, and the attempt goes on with its session
  | true =>
    obtain ⟨⟨hle', hchosen⟩, hrecorded⟩ := h w hw
    have hchosen' : Chosen v w j.sessionId (.ofMeeting meeting) := hchosen rfl
    exact ensures_land_headway hchosen' (hle.trans hle') hrecorded (fun _ h => .inl h)
      (ensures_openAllocated_mirrors (hheld.given.of_suffix hle'.past))
  -- somebody else wrote the mapping first
  | false =>
    refine ensures_pure fun w' hw' => ?_
    obtain ⟨-, howes', hlt⟩ := h w' hw'
    refine ⟨rfl, howes', fun _ kind hkind => ?_⟩
    subst hkind
    exact hlt

/-! ### Attempts -/

/-- The kinds of meetings that a join may go on with. -/
def Possible (j : Joiner) (held : Option Meeting) (kind : MeetingKind) : Prop :=
  (j.mode = .mock → kind = .mock) ∧ ∀ meeting, held = some meeting → kind = meeting.kind

/-- What a join holds on to: a meeting that was given for its session id, in mock mode a mock
one. -/
def Holdable (j : Joiner) (held : Option Meeting) (w : World) : Prop :=
  ∀ meeting, held = some meeting →
    Held w j.sessionId meeting ∧ (j.mode = .mock → meeting.kind = .mock)

theorem Holdable.grows {j : Joiner} {held : Option Meeting} (h : Holdable j held u)
    (hle : Grows u w) : Holdable j held w :=
  fun meeting hmeeting => (h meeting hmeeting).imp_left fun hheld => hheld.grows hle

/-- There is a kind of meetings that a join may go on with. -/
theorem Holdable.exists_possible {j : Joiner} {held : Option Meeting} (h : Holdable j held w) :
    ∃ kind, Possible j held kind := by
  cases held with
  | none => exact ⟨.mock, fun _ => rfl, fun _ h => nomatch h⟩
  | some meeting =>
    exact ⟨meeting.kind, (h meeting rfl).2, fun _ h => by rw [Option.some.inj h]⟩

/-- The meeting a task allocates is one it may hold. -/
theorem holds_allocate_headway {j : Joiner} :
    (answering base P hP).discipline.Holds i (allocate j.mode j.sessionId) (fun meeting v =>
      (answering base P hP).discipline.Rests i u v ∧ Holdable j (some meeting) v) u := by
  have hkind : (answering base P hP).discipline.Holds i (allocate j.mode j.sessionId)
      (fun meeting v => (answering base P hP).discipline.Rests i u v ∧
        (j.mode = .mock → meeting.kind = .mock)) u := by
    refine holds_allocate (fun _ v hv => ⟨hv.rests, fun _ => rfl⟩)
      (fun hmode v v' w meetingId hv hturn hw => ⟨?_, fun h => nomatch hmode.symm.trans h⟩)
      fun _ v v' w e hv hturn hw => ⟨?_, fun _ => rfl⟩
    · exact (hv.rests.trans (hturn.rests id)).trans hw.rests
    · exact (hv.rests.trans (hturn.rests id)).trans hw.rests
  refine (Bylaw.holds_and (holds_allocate_ledger j.mode j.sessionId) hkind).mono
    fun meeting v _ _ ⟨⟨_, hheld⟩, hrests, hmock⟩ => ⟨hrests, fun m hm => ?_⟩
  obtain rfl := Option.some.inj hm
  exact ⟨hheld, hmock⟩

/-- What an attempt leaves behind, whichever way it went. -/
structure Advanced (i : Nat) (j : Joiner) (held : Option Meeting) (u : World)
    (r : Attempt × Option Meeting) (w : World) : Prop where
  holdable : Holdable j r.2 w
  owes : Owes i j.sessionId none w
  raced : r.1 = .raced → ∀ kind, Possible j r.2 kind →
    Possible j held kind ∧ headway kind j.sessionId u < headway kind j.sessionId w

/-- An attempt ends with an answer, or others have made headway meanwhile. The sum of attempts left
and headway made is then no smaller than before. -/
theorem ensures_attempt_headway {j : Joiner} {held : Option Meeting} (hheld : Holdable j held u)
    (howes : Owes i j.sessionId none u) :
    (answering base P hP).discipline.Ensures i (j.attempt held) (Advanced i j held u)
      (Crowded j.sessionId) u := by
  -- Unless a mapping that counts was found, the attempt goes on with a meeting.
  have hsettle : ∀ {v w seen meeting}, (answering base P hP).discipline.Later i u v →
      (answering base P hP).discipline.Rests i v w →
      Resolution.read j.mode (v.store.lookup (mappingKey j.sessionId)) = seen →
      (∀ mapping version, seen ≠ .found mapping version) → Holdable j (some meeting) w →
      (∀ m, held = some m → m = meeting) →
      (answering base P hP).discipline.Ensures i (j.settle seen meeting) (Advanced i j held u)
        (Crowded j.sessionId) w := by
    intro v w seen meeting hv hrests hseen hfound hholdable hsame
    have howes' : Owes i j.sessionId none w :=
      howes.rests (Grows.trans hv.le hrests.le) (hv.rests.trans hrests)
    have hran := ensures_settle_headway (.self hv.assumes hv.inv) hrests.le hseen.symm hfound
      (hholdable meeting rfl).1 howes'
    refine hran.grown.mono (fun r x _ _ ⟨hle', hran⟩ => ⟨?_, hran.owes, fun hr kind hkind => ?_⟩)
      fun _ _ _ _ h => h.2
    · rw [hran.held]
      exact hholdable.grows hle'
    · have hmeeting := hkind.2 meeting hran.held
      refine ⟨⟨hkind.1, fun m hm => hsame m hm ▸ hmeeting⟩, ?_⟩
      exact (headway_le hv.le).trans_lt (hran.raced hr kind hmeeting)
  refine ensures_attempt (fun v w mapping version hv hreads hseen => ?_)
    (fun v w seen meeting hv hreads hseen hfound hm => ?_)
    (fun v w seen hv hreads hseen hfound hnone => ?_)
    fun w hfails => (not_fails_answering hfails).elim
  · obtain ⟨stored, hlookup, rfl, hcounts⟩ := Resolution.counts_of_found hseen
    have hle : Grows u w := Grows.trans hv.le hreads.le
    have howes' : Owes i j.sessionId none w := howes.rests hle (hv.rests.trans hreads.rests)
    have hchosen : Chosen v w j.sessionId (.decode stored.value) :=
      chosen_of_lookup (Bylaw.Inv.sound hv.inv hv.assumes) (grows_refl v) hlookup hreads.le
    have hopen : (answering base P hP).discipline.Ensures i (j.openMapped (.decode stored.value))
        _ _ w := ensures_openMapped_mirrors
    -- A mock meeting counts in mock mode only.
    have hkinds : ∀ kind, Possible j held kind → kind = (Mapping.decode stored.value).kind ∨
        (Mapping.decode stored.value).kind = .real := by
      intro kind hkind
      cases hmapping : (Mapping.decode stored.value).kind with
      | real => exact .inr rfl
      | mock => exact .inl (hkind.1 (hcounts.resolve_right fun h => nomatch hmapping.symm.trans h))
    refine (ensures_land_headway hchosen hreads.le (howes'.weaken _) hkinds hopen).grown.mono
      (fun r x _ _ ⟨hle', hran⟩ => ⟨?_, hran.owes, fun hr kind hkind => ?_⟩)
      fun _ _ _ _ h => h.2
    · rw [hran.held]
      exact hheld.grows (hle.trans hle')
    · rw [hran.held] at hkind
      exact ⟨hkind, (headway_le hv.le).trans_lt (hran.raced hr kind hkind)⟩
  · subst hm
    refine hsettle hv hreads.rests hseen hfound ?_ fun m h => (Option.some.inj h).symm
    exact hheld.grows (Grows.trans hv.le hreads.le)
  · refine holds_allocate_headway.lift fun meeting w' hw' hmeeting => ?_
    obtain ⟨hrests, hholdable⟩ := hmeeting w' hw'
    exact hsettle hv (hreads.rests.trans hrests) hseen hfound hholdable
      fun m hm => nomatch hnone.symm.trans hm

/-! ### A join as a whole -/

/-- Who gives up saw as much headway as it has attempts, and owes nothing. -/
theorem ensures_retry_headway (appId : String) {j : Joiner} (left : Nat) {held : Option Meeting}
    {n : Nat} (hheld : Holdable j held u) (howes : Owes i j.sessionId none u)
    (hn : ∀ kind, Possible j held kind → n ≤ headway kind j.sessionId u) :
    (answering base P hP).discipline.Ensures i (j.retry appId left held)
      (fun _ v => Owes i j.sessionId none v)
      (fun e v => Crowded j.sessionId e v ∨ Owes i j.sessionId none v ∧
        e = .conflict "Session is busy, please retry" ∧
        ∃ kind, n + left ≤ headway kind j.sessionId v) u := by
  -- With every attempt lost one attempt fewer is left and the headway is one more, so that their
  -- sum never falls below what it was at the beginning.
  refine ensures_retry
    (I := fun left' held v => Holdable j held v ∧ Owes i j.sessionId none v ∧
      ∀ kind, Possible j held kind → n + left ≤ headway kind j.sessionId v + left')
    (fun left' held v h => ?_) (fun held v w h hw => .inr ?_) left
    ⟨hheld, howes, fun kind hkind => Nat.add_le_add_right (hn kind hkind) left⟩
  · obtain ⟨hheld, howes, hn⟩ := h
    refine (ensures_attempt_headway hheld howes).mono (fun result w _ _ hadvanced => ?_)
      fun e w _ _ hcrowded w' hw' => .inl (hcrowded.grows hw'.le (Bylaw.Assumes.fresh hw'.assumes))
    match result, hadvanced with
    | (.joined x added, held'), hadvanced =>
      exact fun _ w' _ hw' _ => hadvanced.owes.rests hw'.le hw'.rests
    | (.raced, held'), hadvanced =>
      refine fun w' hw' => ⟨hadvanced.holdable.grows hw'.le, hadvanced.owes.rests hw'.le hw'.rests,
        fun kind hkind => ?_⟩
      obtain ⟨hkind', hlt⟩ := hadvanced.raced rfl kind hkind
      have hbefore : n + left ≤ headway kind j.sessionId v + (left' + 1) := hn kind hkind'
      have hafter : headway kind j.sessionId w ≤ headway kind j.sessionId w' := headway_le hw'.le
      omega
  · obtain ⟨hheld, howes, hn⟩ := h
    obtain ⟨kind, hkind⟩ := hheld.exists_possible
    exact ⟨howes.rests hw.le hw.rests, rfl, kind, (hn kind hkind).trans (headway_le hw.le)⟩

/-- What comes of a join: it owes no session, and gives up only after as much headway as it has
attempts, unless it is turned away from a full session. -/
inductive Concludes (i : Nat) (s : String) (w : World) : Outcome → Prop where
  | ok {reply : JoinReply} (howes : Owes i s none w) : Concludes i s w (.joined (.ok reply))
  | full {e : ServiceError} (h : Crowded s e w) : Concludes i s w (.joined (.error e))
  | busy {kind : MeetingKind} (howes : Owes i s none w) (h : maxAttempts ≤ headway kind s w) :
      Concludes i s w (.joined (.error (.conflict "Session is busy, please retry")))

/-- A join that starts ends in one of three ways. -/
theorem holds_join_headway (appId : String) {mode : Mode} {r : JoinRequest} {userId : String}
    (hvalid : r.validate = .ok userId) (hown : own i u.past = []) :
    (answering base P hP).discipline.Holds i ((Job.join mode s r).program appId)
      (fun outcome w => Concludes i s w outcome) u := by
  have hretry : (answering base P hP).discipline.Ensures i
      (Joiner.retry appId ⟨mode, s, userId, r.iconUrl⟩ maxAttempts none) _ _ u :=
    ensures_retry_headway appId maxAttempts (fun _ h => nomatch h)
      (Owes.of_own_eq_nil hown none) fun _ _ => Nat.zero_le _
  rw [Nat.zero_add] at hretry
  unfold Job.program
  dsimp only
  rw [join_of_ok hvalid]
  refine holds_map (Holds.mono hretry fun result v _ _ h => ?_)
  match result, h with
  | .ok reply, howes => exact .ok howes
  | .error e, .inl hfull => exact .full hfull
  | .error e, .inr ⟨howes, he, kind, hheadway⟩ =>
    subst he
    exact .busy howes hheadway

/-- What is known of a join of a session id that is among the later tasks. -/
def Concluded (earlier : Nat) (s : String) (i : Nat) (job : Job) (outcome : Outcome) (w : World) :
    Prop :=
  earlier ≤ i → ∀ mode r userId, job = .join mode s r → r.validate = .ok userId →
    Concludes i s w outcome

/-- Every job concludes, be it one of the first joins or not. -/
theorem holds_job_headway (appId : String) (earlier : Nat) (s : String) (job : Job)
    (hown : own i u.past = []) :
    (answering base P hP).discipline.Holds i (job.program appId) (Concluded earlier s i job) u := by
  by_cases hjoin : ∃ mode r userId, job = .join mode s r ∧ r.validate = .ok userId
  · obtain ⟨mode, r, userId, rfl, hvalid⟩ := hjoin
    refine (holds_join_headway appId hvalid hown).mono fun outcome v _ _ hconcludes _ => ?_
    exact fun _ _ _ _ _ => hconcludes
  · refine (holds_answering _).mono fun outcome v _ _ _ _ mode r userId hjob hvalid => ?_
    exact absurd ⟨mode, r, userId, hjob, hvalid⟩ hjoin

end VoiceRoom.Concurrency
