import VoiceRoom.Proofs.Concurrency.Logic
import VoiceRoom.Proofs.Joining

/-!
# Rules for the workflow

A rule for each function of the workflow says what has to be shown of it, whatever the discipline:
what every read and every write that it makes is worth where it is made. What a function does
otherwise, notes and measurements, is no concern of any discipline (`Idle`).
-/

namespace VoiceRoom

namespace Concurrency.Discipline

variable {D : Discipline} {i : Nat} {u v w : World} {α β : Type}
variable {R : β → World → Prop} {E : ServiceError → World → Prop}

/-- A task read a key at one world, and did nothing else to the records until another. -/
structure Reads (D : Discipline) (i : Nat) (key : String) (v w : World) : Prop where
  after : ∃ v', D.Turn i ⟨.get key, .ok (v.store.lookup key)⟩ v v' ∧ D.Aside i v' w

/-- A read keeps to the order of worlds. -/
theorem Reads.le {key : String} (h : D.Reads i key v w) : D.le v w := by
  obtain ⟨v', hturn, haside⟩ := h.after
  exact D.trans hturn.le haside.le

theorem Reads.rests {key : String} (h : D.Reads i key v w) : D.Rests i v w := by
  obtain ⟨v', hturn, haside⟩ := h.after
  exact (hturn.rests id).trans haside.rests

/-- Idle calls may follow a read. -/
theorem Reads.aside {key : String} {w' : World} (h : D.Reads i key v w) (h' : D.Aside i w w') :
    D.Reads i key v w' := by
  obtain ⟨v', hturn, haside⟩ := h.after
  exact ⟨v', hturn, haside.trans h'⟩

/-- The store does not answer a task at some time. -/
def Fails (D : Discipline) (i : Nat) (u w : World) : Prop :=
  ∃ v, D.Later i u v ∧ v.store.available = false ∧ D.Rests i v w

theorem Fails.rests (h : D.Fails i u w) : D.Rests i u w := by
  obtain ⟨v, hv, -, hw⟩ := h
  exact hv.rests.trans hw

/-! ### Resolving and allocating -/

/-- A lookup reads the mapping once. What it comes to depends on the mapping at that time. -/
theorem ensures_lookup {s : String} {mode : Mode} {f : Resolution → Request β}
    (hread : ∀ v w, D.Later i u v → D.Reads i (mappingKey s) v w →
      D.Ensures i (f (.read mode (v.store.lookup (mappingKey s)))) R E w)
    (hfail : ∀ w, D.Fails i u w → E (.ofStore Memory.unavailable) w) :
    D.Ensures i (Request.ofStore (Resolution.lookup s mode) >>= f) R E u := by
  refine ensures_ofStore (holds_ask_quiet (fun _ => id) fun v hv r hr v' hturn => ?_)
  obtain rfl : r = v.store.get (mappingKey s) := hr
  cases hup : v.store.available with
  | false =>
    unfold Memory.get at hturn ⊢
    rw [hup, if_neg Bool.false_ne_true] at hturn ⊢
    intro w hw w' hw'
    have hlater := hw.trans hw'
    exact hfail w' ⟨v, hv, hup, (hturn.rests id).trans hlater.rests⟩
  | true =>
    rw [Memory.get_of_lookup hup rfl] at hturn ⊢
    -- Whatever the resolution, nothing but a note follows the read.
    have hdone := fun w (hw : D.Aside i v' w) => hread v w hv ⟨v', hturn, hw⟩
    cases hlookup : v.store.lookup (mappingKey s) with
    | none =>
      rw [hlookup] at hdone
      exact fun w hw => hdone w hw.aside
    | some stored =>
      rw [hlookup] at hdone
      dsimp only [Program.call, bind, Program.bind, pure]
      cases hresolution : Resolution.ofStored mode stored with
      | stale mapping version =>
        refine holds_ask_idle trivial fun w hw _ w' hw' => ?_
        rw [← hresolution]
        exact hdone w' (hw.trans hw'.aside)
      | found mapping version =>
        intro w hw
        rw [← hresolution]
        exact hdone w hw.aside
      | absent =>
        intro w hw
        rw [← hresolution]
        exact hdone w hw.aside

/-- Obtaining a meeting asks the provider in real mode only, and comes to a mock meeting if the
provider refuses. -/
theorem holds_allocate {mode : Mode} {s : String} {Q : Meeting → World → Prop}
    (hmock : mode = .mock → ∀ v, D.Aside i u v → Q (mockMeeting s false) v)
    (hreal : mode = .real → ∀ v v' w meetingId, D.Later i u v →
      D.Turn i ⟨.createMeeting s, .ok meetingId⟩ v v' → D.Later i v' w →
      Q ⟨meetingId, .real, false⟩ w)
    (hdegraded : mode = .real → ∀ v v' w e, D.Later i u v →
      D.Turn i ⟨.createMeeting s, .error e⟩ v v' → D.Aside i v' w →
      Q (mockMeeting s true) w) :
    D.Holds i (allocate mode s) Q u := by
  cases mode with
  | mock =>
    exact holds_ask_idle trivial fun v hv _ w hw => hmock rfl w (hv.trans hw.aside)
  | real =>
    refine holds_ask_quiet (fun _ => id) fun v hv r _ v' hturn => ?_
    cases r with
    | ok meetingId => exact fun w hw => hreal rfl v v' w meetingId hv hturn hw
    | error e =>
      -- The failure is noted and counted before a mock meeting stands in.
      refine holds_ask_idle trivial fun w hw _ => holds_ask_idle trivial fun w' hw' _ w'' hw'' => ?_
      exact hdegraded rfl v v' w'' e hv hturn (hw.trans (hw'.trans hw''.aside))

/-! ### Opening a session -/

theorem ensures_load {mapping : Mapping} {f : Option Loaded → Request β}
    (hnone : ∀ v w, D.Later i u v → v.store.lookup (sessionKey mapping.meetingId) = none →
      D.Reads i (sessionKey mapping.meetingId) v w → D.Ensures i (f none) R E w)
    (hsome : ∀ v w stored x, D.Later i u v →
      v.store.lookup (sessionKey mapping.meetingId) = some stored →
      Session.decode stored.value = .ok x → D.Reads i (sessionKey mapping.meetingId) v w →
      D.Ensures i (f (some ⟨x.fit mapping, stored.version, !x.agrees mapping⟩)) R E w)
    (hbad : ∀ v w stored fault, D.Later i u v →
      v.store.lookup (sessionKey mapping.meetingId) = some stored →
      Session.decode stored.value = .error fault →
      D.Reads i (sessionKey mapping.meetingId) v w → E .internal w)
    (hfail : ∀ w, D.Fails i u w → E (.ofStore Memory.unavailable) w) :
    D.Ensures i (load mapping >>= f) R E u := by
  refine ensures_bind ?_
  unfold load
  refine ensures_get (fun v v' hv hturn => ?_) fun v w hv hup hrests =>
    hfail w ⟨v, hv, hup, hrests⟩
  -- The record is as it was when it was read, whatever happens to it later.
  have hreads := fun w (hw : D.Aside i v' w) =>
    (⟨v', hturn, hw⟩ : D.Reads i (sessionKey mapping.meetingId) v w)
  cases hlookup : v.store.lookup (sessionKey mapping.meetingId) with
  | none => exact ensures_pure fun w hw => hnone v w hv hlookup (hreads w hw.aside)
  | some stored =>
    dsimp only
    cases hdecode : Session.decode stored.value with
    | error fault =>
      refine ensures_note fun w hw => ensures_throw fun w' hw' => ?_
      exact hbad v w' stored fault hv hlookup hdecode (hreads w' (hw.trans hw'.aside))
    | ok x =>
      have hdone := fun w hw => hsome v w stored x hv hlookup hdecode (hreads w hw)
      dsimp only
      -- A session that does not agree with the mapping is fitted to it, which is noted and nothing
      -- else.
      split
      · exact ensures_note fun w hw => ensures_pure fun w' hw' => hdone w' (hw.trans hw'.aside)
      · exact ensures_pure fun w hw => hdone w hw.aside

/-- A new session takes its time from the clock. -/
theorem ensures_fresh {j : Joiner} {meeting : Meeting} {version : Option Nat}
    {Q : Draft → World → Prop}
    (h : ∀ w t, D.Aside i u w → fitsInt64 t →
      Q ⟨Session.new j.sessionId meeting t, version, true⟩ w) :
    D.Ensures i (j.fresh meeting version) Q E u :=
  ensures_now fun _ t hv ht => ensures_pure fun w hw => h w t (hv.trans hw.aside) ht

theorem ensures_openMapped {j : Joiner} {mapping : Mapping} {Q : Draft → World → Prop}
    (hnone : ∀ v w t, D.Later i u v → v.store.lookup (sessionKey mapping.meetingId) = none →
      D.Reads i (sessionKey mapping.meetingId) v w → fitsInt64 t →
      Q ⟨Session.new j.sessionId ⟨mapping.meetingId, mapping.kind, false⟩ t, none, true⟩ w)
    (hsome : ∀ v w stored x, D.Later i u v →
      v.store.lookup (sessionKey mapping.meetingId) = some stored →
      Session.decode stored.value = .ok x → D.Reads i (sessionKey mapping.meetingId) v w →
      Q ⟨x.fit mapping, some stored.version, !x.agrees mapping⟩ w)
    (hbad : ∀ v w stored fault, D.Later i u v →
      v.store.lookup (sessionKey mapping.meetingId) = some stored →
      Session.decode stored.value = .error fault →
      D.Reads i (sessionKey mapping.meetingId) v w → E .internal w)
    (hfail : ∀ w, D.Fails i u w → E (.ofStore Memory.unavailable) w) :
    D.Ensures i (j.openMapped mapping) Q E u := by
  -- Without a record a new session is made for the mapping, and a record is never replaced.
  unfold Joiner.openMapped
  refine ensures_load (fun v w hv hlookup hreads => ?_)
    (fun v w stored x hv hlookup hdecode hreads => ?_) hbad hfail
  · refine ensures_note fun w' hw' => ensures_fresh fun w'' t hw'' ht => ?_
    exact hnone v w'' t hv hlookup (hreads.aside (hw'.trans hw'')) ht
  · exact ensures_pure fun w' hw' => hsome v w' stored x hv hlookup hdecode (hreads.aside hw'.aside)

theorem ensures_openAllocated {j : Joiner} {meeting : Meeting} {Q : Draft → World → Prop}
    (hnone : ∀ v w t, D.Later i u v → v.store.lookup (sessionKey meeting.id) = none →
      D.Reads i (sessionKey meeting.id) v w → fitsInt64 t →
      Q ⟨Session.new j.sessionId meeting t, none, true⟩ w)
    (hours : ∀ v w stored x, D.Later i u v →
      v.store.lookup (sessionKey meeting.id) = some stored →
      Session.decode stored.value = .ok x → x.sessionId = j.sessionId →
      D.Reads i (sessionKey meeting.id) v w →
      Q (Draft.graded ⟨x.fit (.ofMeeting meeting), some stored.version,
        !x.agrees (.ofMeeting meeting)⟩ meeting.degraded) w)
    (hforeign : ∀ v w stored x t, D.Later i u v →
      v.store.lookup (sessionKey meeting.id) = some stored →
      Session.decode stored.value = .ok x → x.sessionId ≠ j.sessionId →
      D.Reads i (sessionKey meeting.id) v w → fitsInt64 t →
      Q ⟨Session.new j.sessionId meeting t, some stored.version, true⟩ w)
    (hbad : ∀ v w stored fault, D.Later i u v →
      v.store.lookup (sessionKey meeting.id) = some stored →
      Session.decode stored.value = .error fault →
      D.Reads i (sessionKey meeting.id) v w → E .internal w)
    (hfail : ∀ w, D.Fails i u w → E (.ofStore Memory.unavailable) w) :
    D.Ensures i (j.openAllocated meeting) Q E u := by
  -- The three ways to a draft: no record, a record of the id that is joined, one of another id.
  unfold Joiner.openAllocated
  simp only [Draft.pure_graded]
  refine ensures_load (fun v w hv hlookup hreads => ?_)
    (fun v w stored x hv hlookup hdecode hreads => ?_) hbad hfail
  -- A new session has the grade of the meeting from the start.
  · refine ensures_bind (ensures_fresh fun w' t hw' ht => ensures_pure fun w'' hw'' => ?_)
    rw [Draft.graded_new]
    exact hnone v w'' t hv hlookup (hreads.aside (hw'.trans hw''.aside)) ht
  · dsimp only
    split
    -- The session is of this id: it is kept, fitted to the meeting and graded.
    · rename_i hid
      refine ensures_bind (ensures_pure fun w' hw' => ensures_pure fun w'' hw'' => ?_)
      exact hours v w'' stored x hv hlookup hdecode hid (hreads.aside (hw'.trans hw'').aside)
    · rename_i hid
      refine ensures_bind (ensures_fresh fun w' t hw' ht => ensures_pure fun w'' hw'' => ?_)
      rw [Draft.graded_new]
      exact hforeign v w'' stored x t hv hlookup hdecode hid
        (hreads.aside (hw'.trans hw''.aside)) ht

/-! ### Writing -/

theorem ensures_writeMapping {j : Joiner} {seen : Resolution} {meeting : Meeting}
    {Q : Bool → World → Prop}
    (hsame : ∀ w version, seen = .stale (.ofMeeting meeting) version → D.Later i u w → Q true w)
    (hwritten : (∀ version, seen ≠ .stale (.ofMeeting meeting) version) → ∀ v, D.Later i u v →
      (v.store.lookup (mappingKey j.sessionId)).map Versioned.version = seen.version? →
      let v' := v.written i (mappingKey j.sessionId) (Mapping.ofMeeting meeting).encode seen.version?
      D.assumes v'.past → D.inv v' ∧ D.le v v' ∧ ∀ w, D.Later i v' w → Q true w)
    (hconflict : ∀ v v' w, D.Later i u v →
      (v.store.lookup (mappingKey j.sessionId)).map Versioned.version ≠ seen.version? →
      D.Turn i ⟨.putIf (mappingKey j.sessionId) (Mapping.ofMeeting meeting).encode seen.version?,
        .ok .conflict⟩ v v' → D.Later i v' w → Q false w)
    (hfail : ∀ w, D.Fails i u w → E (.ofStore Memory.unavailable) w) :
    D.Ensures i (j.writeMapping seen meeting) Q E u := by
  unfold Joiner.writeMapping
  by_cases hcurrent : ∃ version, seen = .stale (.ofMeeting meeting) version
  · obtain ⟨version, rfl⟩ := hcurrent
    dsimp only
    rw [if_pos rfl]
    exact ensures_pure fun w hw => hsame w version rfl hw
  · dsimp only
    -- What is in place is not the mapping to be written, so the write is made.
    rw [if_neg fun h => by
      cases seen with
      | stale mapping version => exact hcurrent ⟨version, by rw [Option.some.inj h]⟩
      | found mapping version => exact nomatch h
      | absent => exact nomatch h]
    refine ensures_putIf (fun v hv hversion hassumes => ?_) (fun v v' hv hversion hturn => ?_)
      fun v w hv hup hrests => hfail w ⟨v, hv, hup, hrests⟩
    · have hother : ∀ version, seen ≠ .stale (.ofMeeting meeting) version :=
        fun version h => hcurrent ⟨version, h⟩
      obtain ⟨hinv, hle, hQ⟩ := hwritten hother v hv hversion hassumes
      exact ⟨hinv, hle, ensures_pure hQ⟩
    · exact ensures_pure fun w hw => hconflict v v' w hv hversion hturn hw

theorem ensures_enter {j : Joiner} {d : Draft} {Q : Attempt → World → Prop}
    (hfull : d.session.isFull = true → ∀ w, D.Aside i u w → E .sessionFull w)
    (hclean : d.session.isFull = false → d.dirty = false → d.session.hasMember j.userId = true →
      ∀ w, D.Aside i u w → Q (.joined d.session false) w)
    (hwritten : d.session.isFull = false →
      d.dirty = true ∨ d.session.hasMember j.userId = false → ∀ v t, D.Aside i u v → fitsInt64 t →
      let x := d.session.add { userId := j.userId, joinedAt := t, iconUrl := j.iconUrl }
      (v.store.lookup (sessionKey x.meetingId)).map Versioned.version = d.version →
      let v' := v.written i (sessionKey x.meetingId) x.encode d.version
      D.assumes v'.past → D.inv v' ∧ D.le v v' ∧
        ∀ w, D.Later i v' w → Q (.joined x !(d.session.hasMember j.userId)) w)
    (hconflict : d.session.isFull = false → ∀ v v' w t, D.Aside i u v →
      let x := d.session.add { userId := j.userId, joinedAt := t, iconUrl := j.iconUrl }
      (v.store.lookup (sessionKey x.meetingId)).map Versioned.version ≠ d.version →
      D.Turn i ⟨.putIf (sessionKey x.meetingId) x.encode d.version, .ok .conflict⟩ v v' →
      D.Later i v' w → Q .raced w)
    (hfail : ∀ v w, D.Aside i u v → D.Fails i v w → E (.ofStore Memory.unavailable) w) :
    D.Ensures i (j.enter d) Q E u := by
  unfold Joiner.enter
  dsimp only
  cases hroom : d.session.isFull with
  | true =>
    exact ensures_note fun v hv => ensures_throw fun w hw => hfull hroom w (hv.trans hw.aside)
  | false =>
    refine ensures_now fun v t hv ht => ?_
    split
    -- Nothing is to be written: the draft is clean and the user is in it.
    · rename_i hclear
      rw [Bool.and_eq_true, Bool.not_eq_true', Bool.not_not] at hclear
      obtain ⟨hdirty, hmember⟩ := hclear
      refine ensures_pure fun w hw => ?_
      rw [Session.add_of_hasMember hmember, hmember]
      exact hclean hroom hdirty hmember w (hv.trans hw.aside)
    · rename_i hchange
      have hneed : d.dirty = true ∨ d.session.hasMember j.userId = false := by
        cases hdirty : d.dirty with
        | true => exact .inl rfl
        | false =>
          rw [hdirty, Bool.not_not, Bool.not_false, Bool.true_and, Bool.not_eq_true] at hchange
          exact .inr hchange
      refine ensures_putIf (fun v' hv' hversion hassumes => ?_)
        (fun v' w hv' hversion hturn => ?_)
        fun v' w hv' hup hrests => hfail v w hv ⟨v', hv', hup, hrests⟩
      · obtain ⟨hinv, hle, hQ⟩ :=
          hwritten hroom hneed v' t (hv.trans hv'.aside) ht hversion hassumes
        exact ⟨hinv, hle, ensures_pure hQ⟩
      · exact ensures_pure fun w' hw' =>
          hconflict hroom v' w w' t (hv.trans hv'.aside) hversion hturn hw'

/-! ### Finishing -/

/-- Credentials are issued without a look at the store. -/
theorem idles_issue (appId : String) (mode : Mode) (s : Session) (userId : String) :
    Idles (fun _ => True) (issue appId mode s userId) := by
  cases mode with
  | mock => trivial
  | real =>
    unfold issue issueToken
    cases s.kind with
    | mock => exact ⟨trivial, fun _ => ⟨trivial, fun _ => trivial⟩⟩
    | real =>
      refine ⟨trivial, fun r => ?_⟩
      cases r with
      | ok token => trivial
      | error e => exact ⟨trivial, fun _ => ⟨trivial, fun _ => trivial⟩⟩

theorem Idles.bind {p : Program α} {f : α → Program β} {P : α → Prop} {P' : β → Prop}
    (hp : Idles P p) (hf : ∀ a, P a → Idles P' (f a)) : Idles P' (p >>= f) := by
  induction p with
  | done a => exact hf a hp
  | ask c rest ih => exact ⟨hp.1, fun r => ih r (hp.2 r)⟩

/-- What follows a successful attempt touches no record, and answers with the session. -/
theorem idles_finish (appId : String) (j : Joiner) (held : Option Meeting) (x : Session)
    (added : Bool) : Idles (fun reply => reply.session = x) (j.finish appId held x added) := by
  have hreport : Idles (fun reply => reply.session = x) (j.report appId x added) :=
    ⟨trivial, fun _ => ⟨trivial, fun _ =>
      (idles_issue appId j.mode x j.userId).bind fun _ _ => rfl⟩⟩
  cases horphan : Joiner.orphan? held x with
  | none =>
    rw [Joiner.finish_of_none horphan]
    exact hreport
  | some meeting =>
    rw [Joiner.finish_of_some horphan]
    exact ⟨trivial, fun _ => hreport⟩

/-- What follows a successful attempt says what came of it. -/
theorem holds_finish {appId : String} {j : Joiner} {held : Option Meeting} {x : Session}
    {added : Bool} {Q : JoinReply → World → Prop}
    (h : ∀ reply w, reply.session = x → D.Aside i u w →
      ⟨.note (.joined j.sessionId j.userId x.users.length added), ()⟩ ∈ own i w.past →
      Q reply w) :
    D.Holds i (j.finish appId held x added) Q u := by
  -- The count and the note come first, then the credentials; only the note is needed later.
  have hreport : ∀ v, D.Aside i u v → D.Holds i (j.report appId x added) Q v := by
    refine fun v hv => holds_ask_idle trivial fun v' hv' _ => ?_
    refine holds_ask_quiet (fun _ => id) fun w hw r _ w' hturn => ?_
    have hissue : Idles (fun reply : JoinReply => reply.session = x)
        (issue appId j.mode x j.userId >>= fun credentials => .done ⟨x, some credentials⟩) :=
      (idles_issue appId j.mode x j.userId).bind fun _ _ => rfl
    have hnoted : D.Aside i w w' := hturn.aside (c := .note _) trivial
    refine holds_of_idles hissue fun reply w'' hreply hw'' => h reply w'' hreply ?_ ?_
    · exact ((hv.trans hv').trans hw.aside).trans (hnoted.trans hw'')
    · obtain ⟨entries, hown, -⟩ := hw''.own
      rw [hown, hturn.eq, World.past_next, own_answer_self]
      exact List.mem_append_right entries List.mem_cons_self
  -- An orphaned meeting is one more note in front of that.
  cases horphan : Joiner.orphan? held x with
  | none =>
    rw [Joiner.finish_of_none horphan]
    exact holds_of_later fun v hv => hreport v hv.aside
  | some meeting =>
    rw [Joiner.finish_of_some horphan]
    exact holds_ask_idle trivial fun v hv _ => hreport v hv

/-! ### Attempts -/

/-- Once it has looked up the mapping, an attempt opens the session that it leads to, goes on with
the meeting in the join's hands, or obtains one. -/
theorem ensures_attempt {j : Joiner} {held : Option Meeting}
    {Q : Attempt × Option Meeting → World → Prop}
    (hfound : ∀ v w mapping version, D.Later i u v → D.Reads i (mappingKey j.sessionId) v w →
      Resolution.read j.mode (v.store.lookup (mappingKey j.sessionId)) = .found mapping version →
      D.Ensures i (do
        let draft ← j.openMapped mapping
        return (← j.enter draft, held)) Q E w)
    (hheld : ∀ v w seen meeting, D.Later i u v → D.Reads i (mappingKey j.sessionId) v w →
      Resolution.read j.mode (v.store.lookup (mappingKey j.sessionId)) = seen →
      (∀ mapping version, seen ≠ .found mapping version) → held = some meeting →
      D.Ensures i (j.settle seen meeting) Q E w)
    (hobtain : ∀ v w seen, D.Later i u v → D.Reads i (mappingKey j.sessionId) v w →
      Resolution.read j.mode (v.store.lookup (mappingKey j.sessionId)) = seen →
      (∀ mapping version, seen ≠ .found mapping version) → held = none →
      D.Ensures i (do
        let meeting ← ExceptT.lift (allocate j.mode j.sessionId)
        j.settle seen meeting) Q E w)
    (hfail : ∀ w, D.Fails i u w → E (.ofStore Memory.unavailable) w) :
    D.Ensures i (j.attempt held) Q E u := by
  unfold Joiner.attempt
  refine ensures_lookup (fun v w hv hreads => ?_) hfail
  cases hseen : Resolution.read j.mode (v.store.lookup (mappingKey j.sessionId)) with
  | found mapping version => exact hfound v w mapping version hv hreads hseen
  | _ =>
    -- Stale or absent: the session needs a meeting.
    cases held with
    | some meeting => exact hheld v w _ meeting hv hreads hseen (fun _ _ h => nomatch h) rfl
    | none => exact hobtain v w _ hv hreads hseen (fun _ _ h => nomatch h) rfl

/-- The rule for the loop: `I` holds before each attempt, of the attempts that are left, of the
meeting in the join's hands and of the world. -/
theorem ensures_retry {appId : String} {j : Joiner} {I : Nat → Option Meeting → World → Prop}
    {Q : JoinReply → World → Prop}
    (hattempt : ∀ left held v, I (left + 1) held v → D.Ensures i (j.attempt held)
      (fun result w => match result with
        | (.joined x added, _) => ∀ reply w', reply.session = x → D.Aside i w w' →
            ⟨.note (.joined j.sessionId j.userId x.users.length added), ()⟩ ∈ own i w'.past →
            Q reply w'
        | (.raced, held') => ∀ w', D.Aside i w w' → I left held' w')
      (fun e w => ∀ w', D.Aside i w w' → E e w') v)
    (habandoned : ∀ held v w, I 0 held v → D.Aside i v w →
      E (.conflict "Session is busy, please retry") w)
    (left : Nat) {held : Option Meeting} (h : I left held u) :
    D.Ensures i (j.retry appId left held) Q E u := by
  -- On the attempts that are left: one that was raced hands the invariant on to the next.
  induction left generalizing held u with
  | zero =>
    refine ensures_count fun v hv => ensures_note fun v' hv' => ensures_throw fun w hw => ?_
    exact habandoned held u w h ((hv.trans hv').trans hw.aside)
  | succ left ih =>
    unfold Ensures
    rw [Joiner.retry_succ]
    refine holds_bind (Holds.mono (hattempt left held u h) fun result v _ _ hresult => ?_)
    match result, hresult with
    | .error e, hresult =>
      exact ensures_count fun v' hv' => ensures_throw fun w hw => hresult w (hv'.trans hw.aside)
    | .ok (.joined x added, held'), hresult =>
      exact holds_map (holds_finish hresult)
    | .ok (.raced, held'), hresult =>
      exact ensures_count fun v' hv' => ensures_note fun w hw => ih (hresult w (hv'.trans hw))

end Concurrency.Discipline

end VoiceRoom
