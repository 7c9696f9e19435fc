import Mathlib.Data.List.Nodup
import VoiceRoom.Proofs.Concurrency.System
import VoiceRoom.Proofs.Rooms.Solo

/-!
# Rooms do not interfere

Creates and joins run one after the other on the shared store, which is empty at first. If those
about one session id are left out of such a history, then every other one is answered as before, and
the mapping and the session of every other session id are stored as before
(`rooms_isolated`).

This needs that no session id is another one followed by `:version`, and no meeting id either. For
then the counter of the one has the key of the other's record, and the count is read as a record:
`rooms_meet` shows where that leads.
-/

namespace VoiceRoom.Rooms

open Simulation (Entry)
open Concurrency (Job Outcome)

/-! ### Histories -/

/-- A job that was done, from its start to its end. -/
structure Deed where
  job : Job
  entries : List Entry
  outcome : Outcome

/-- The session id that a deed is about. A create draws it. -/
def Deed.sessionId? (d : Deed) : Option String :=
  match d.job with
  | .join _ sessionId _ => some sessionId
  | .create _ => d.entries.findSome? fun
    | ⟨.freshId, sessionId⟩ => some sessionId
    | _ => none

/-- What a deed was asked for, and what it was told from outside. -/
def Deed.asked (d : Deed) : Job × List Told :=
  (d.job, told d.entries)

/-- Deeds that were done one after the other, latest first, and the data they left behind. -/
inductive History (appId : String) : List Deed → Keyspace → Prop where
  | nil : History appId [] {}
  | cons {ds : List Deed} {ks ks' : Keyspace} {d : Deed} (h : History appId ds ks)
      (hrun : Solo ks (d.job.program appId) d.entries ks' d.outcome) : History appId (d :: ds) ks'

/-- The deeds that are not about a session id. -/
def purge (s : String) (ds : List Deed) : List Deed :=
  ds.filter fun d => d.sessionId? != some s

/-- The meetings that the provider gave, each with the title it was asked for. -/
def grants (ds : List Deed) : List (String × String) :=
  ds.flatMap fun d => d.entries.filterMap fun
    | ⟨.createMeeting title, .ok meetingId⟩ => some (title, meetingId)
    | _ => none

/-- The provider never gave a meeting twice, and none that looks like a mock meeting. No session id
and no given meeting has the name of another one's counter. -/
structure Apart (ds : List Deed) : Prop where
  nodup : ((grants ds).map Prod.snd).Nodup
  unlike : ∀ grant ∈ grants ds, ¬ "mock-meeting-".toList <+: grant.2.toList
  sessionIds : ∀ d ∈ ds, ∀ d' ∈ ds, ∀ s s', d.sessionId? = some s → d'.sessionId? = some s' →
    s' ≠ s ++ ":version"
  meetings : ∀ grant ∈ grants ds, ∀ grant' ∈ grants ds, grant'.2 ≠ grant.2 ++ ":version"

/-- The room of a session id: what the provider gave for it, and its mock meeting. -/
def room (ds : List Deed) (s : String) : Room where
  sessionId := s
  meetings := fun m => m = mockMeetingId s ∨ (s, m) ∈ grants ds
  mock_mem := .inl rfl

/-- What the provider granted in a deed is among the grants. -/
theorem mem_grants {ds : List Deed} {d : Deed} (hd : d ∈ ds) {title meetingId : String}
    (h : (⟨.createMeeting title, .ok meetingId⟩ : Entry) ∈ d.entries) :
    (title, meetingId) ∈ grants ds :=
  List.mem_flatMap.2 ⟨d, hd, List.mem_filterMap.2 ⟨_, h, rfl⟩⟩

/-! ### Rooms are apart -/

/-- The mark of a counter cannot be the end of the mark of a mock meeting. -/
theorem mark_prefix_of_version {m : String}
    (h : "mock-meeting-".toList <+: (m ++ ":version").toList) :
    "mock-meeting-".toList <+: m.toList := by
  rw [String.toList_append] at h
  rcases List.prefix_or_prefix_of_prefix h (List.prefix_append m.toList ":version".toList) with
    hmock | ⟨rest, hrest⟩
  · exact hmock
  · rw [← hrest, List.prefix_append_right_inj] at h
    cases rest with
    | nil =>
      rw [List.append_nil] at hrest
      exact ⟨[], by rw [List.append_nil, hrest]⟩
    | cons c rest =>
      obtain ⟨tail, htail⟩ := h
      have hcolon : c = ':' := (List.cons.inj htail).1
      have hmem : c ∈ "mock-meeting-".toList := hrest ▸ List.mem_append_right _ List.mem_cons_self
      rw [hcolon] at hmem
      exact absurd hmem (by decide)

section Apart

variable {ds : List Deed} {s s' : String}

/-- A session id that some deed is about. -/
def Named (ds : List Deed) (s : String) : Prop :=
  ∃ d ∈ ds, d.sessionId? = some s

/-- No session id is another one with the suffix of versions. -/
theorem Apart.sessionId_ne (h : Apart ds) (hs : Named ds s) (hs' : Named ds s') :
    s' ≠ s ++ ":version" := by
  obtain ⟨d, hd, hds⟩ := hs
  obtain ⟨d', hd', hds'⟩ := hs'
  exact h.sessionIds d hd d' hd' s s' hds hds'

/-- No meeting belongs to two rooms. -/
theorem Apart.meeting_ne (h : Apart ds) (hne : s ≠ s') {m m' : String}
    (hm : m ∈ (room ds s).meetings) (hm' : m' ∈ (room ds s').meetings) : m ≠ m' := by
  rintro rfl
  rcases hm with rfl | hgrant <;> rcases hm' with hmock' | hgrant'
  · exact hne (mockMeetingId_inj.1 hmock')
  · exact h.unlike _ hgrant' (mark_prefix_mockMeetingId s)
  · subst hmock'
    exact h.unlike _ hgrant (mark_prefix_mockMeetingId s')
  · have hsame := List.inj_on_of_nodup_map h.nodup hgrant hgrant' rfl
    exact hne (congrArg Prod.fst hsame)

/-- No meeting has the name of another one's counter. -/
theorem Apart.meeting_ne_version (h : Apart ds) (hs : Named ds s) (hs' : Named ds s')
    {m m' : String} (hm : m ∈ (room ds s).meetings) (hm' : m' ∈ (room ds s').meetings) :
    m ≠ m' ++ ":version" := by
  rintro hversion
  rcases hm with rfl | hgrant
  · have hprefix := mark_prefix_mockMeetingId s
    rw [hversion] at hprefix
    rcases hm' with rfl | hgrant'
    · have hmock : mockMeetingId s' ++ ":version" = mockMeetingId (s' ++ ":version") :=
        String.append_assoc
      exact h.sessionId_ne hs' hs (mockMeetingId_inj.1 (hversion.trans hmock))
    · exact h.unlike _ hgrant' (mark_prefix_of_version hprefix)
  · rcases hm' with rfl | hgrant'
    · refine h.unlike _ hgrant ?_
      dsimp only
      rw [hversion, String.toList_append]
      exact (mark_prefix_mockMeetingId s').trans (List.prefix_append _ _)
    · exact h.meetings _ hgrant' _ hgrant hversion

/-- Different rooms have different records. -/
theorem Apart.record_ne (h : Apart ds) (hne : s ≠ s') {k k' : String}
    (hk : k ∈ (room ds s).records) (hk' : k' ∈ (room ds s').records) : k ≠ k' := by
  rcases hk with rfl | ⟨m, hm, rfl⟩ <;> rcases hk' with rfl | ⟨m', hm', rfl⟩
  · exact mt mappingKey_inj.1 hne
  · exact mappingKey_ne_sessionKey _ _
  · exact (mappingKey_ne_sessionKey _ _).symm
  · exact mt sessionKey_inj.1 (h.meeting_ne hne hm hm')

/-- No record of a room is the counter of another record. This is where a session id that ends in
the suffix of versions does harm. -/
theorem Apart.record_ne_version (h : Apart ds) (hs : Named ds s) (hs' : Named ds s')
    {k k' : String} (hk : k ∈ (room ds s).records) (hk' : k' ∈ (room ds s').records) :
    k ≠ versionKey k' := by
  rcases hk with rfl | ⟨m, hm, rfl⟩ <;> rcases hk' with rfl | ⟨m', hm', rfl⟩
  · rw [versionKey_mappingKey]
    exact mt mappingKey_inj.1 (h.sessionId_ne hs' hs)
  · rw [versionKey_sessionKey]
    exact mappingKey_ne_sessionKey _ _
  · rw [versionKey_mappingKey]
    exact (mappingKey_ne_sessionKey _ _).symm
  · rw [versionKey_sessionKey]
    exact mt sessionKey_inj.1 (h.meeting_ne_version hs hs' hm hm')

/-- Two rooms have no key in common. -/
theorem Apart.notMem_keys (h : Apart ds) (hs : Named ds s) (hs' : Named ds s') (hne : s ≠ s')
    {k : String} (hk : k ∈ (room ds s).keys) : k ∉ (room ds s').keys := by
  rintro ⟨k', hk', heq⟩
  obtain ⟨k₁, hk₁, hkeq⟩ := hk
  rcases hkeq with rfl | rfl <;> rcases heq with heq | heq
  · exact h.record_ne hne hk₁ hk' heq
  · exact h.record_ne_version hs hs' hk₁ hk' heq
  · exact h.record_ne_version hs' hs hk' hk₁ heq.symm
  · exact h.record_ne hne hk₁ hk' (versionKey_inj.1 heq)

end Apart

/-! ### Deeds keep to their rooms -/

/-- Once a job has its session id, it keeps to the room of this id. -/
theorem exists_keeps {appId : String} {ks ks' : Keyspace} {d : Deed}
    (h : Solo ks (d.job.program appId) d.entries ks' d.outcome) :
    ∃ (s : String) (p : Program Outcome) (entries : List Entry), d.sessionId? = some s ∧
      (∀ R : Room, R.sessionId = s → R.Keeps (fun _ => True) p) ∧ (∀ e ∈ entries, e ∈ d.entries) ∧
      ∀ ks ks', Solo ks (d.job.program appId) d.entries ks' d.outcome ↔
        Solo ks p entries ks' d.outcome := by
  obtain ⟨job, entries, outcome⟩ := d
  -- A join knows its session id from the beginning, a create draws it first.
  cases job with
  | join mode s r =>
    refine ⟨s, _, entries, rfl, ?_, fun _ he => he, fun _ _ => Iff.rfl⟩
    rintro R rfl
    exact Room.Keeps.map (R.keeps_join appId mode r)
  | create mode =>
    obtain ⟨rest, hcreate, hkeeps⟩ := Room.exists_keeps_create mode
    have hprogram : (Job.create mode).program appId =
        .ask .freshId fun s => Outcome.created <$> rest s := by
      show Outcome.created <$> (create mode).run = _
      rw [hcreate]
      rfl
    dsimp only at h ⊢
    rw [hprogram] at h ⊢
    cases h with
    | @ask _ _ _ _ entries _ s hr h =>
      refine ⟨s, Outcome.created <$> rest s, entries, rfl, ?_,
        fun e he => List.mem_cons_of_mem _ he, fun ks ks' => ?_⟩
      · rintro R rfl
        exact Room.Keeps.map (hkeeps R)
      · constructor
        · intro h
          cases h with
          | ask _ _ h => exact h
        · exact fun h => .ask (c := .freshId) s trivial h

section Deeds

variable {appId : String} {ds all : List Deed} {ks ks' ks₀ : Keyspace} {d : Deed} {s : String}

/-- A deed changes nothing outside the room of its session id. -/
theorem frame_of_deed (h : Solo ks (d.job.program appId) d.entries ks' d.outcome) (hd : d ∈ all)
    (hs : d.sessionId? = some s) (hmapped : (room all s).Mapped ks) :
    (room all s).Mapped ks' ∧ ∀ k ∉ (room all s).keys, ks'.lookup k = ks.lookup k := by
  obtain ⟨s', p, entries, hs', hkeeps, hentries, hiff⟩ := exists_keeps h
  obtain rfl : s' = s := Option.some.inj (hs'.symm.trans hs)
  refine ((hiff ks ks').1 h).frame (hkeeps (room all s') rfl) hmapped ?_
  rintro title meetingId he rfl
  exact .inr (mem_grants hd (hentries _ he))

/-- A deed is done just so on data that agrees on the room of its session id. -/
theorem transfer_of_deed (h : Solo ks (d.job.program appId) d.entries ks' d.outcome)
    (hd : d ∈ all) (hs : d.sessionId? = some s) (hmapped : (room all s).Mapped ks)
    (hsame : ∀ k ∈ (room all s).keys, ks.lookup k = ks₀.lookup k) :
    ∃ ks₀', Solo ks₀ (d.job.program appId) d.entries ks₀' d.outcome ∧
      ∀ k, ks.lookup k = ks₀.lookup k → ks'.lookup k = ks₀'.lookup k := by
  obtain ⟨s', p, entries, hs', hkeeps, hentries, hiff⟩ := exists_keeps h
  obtain rfl : s' = s := Option.some.inj (hs'.symm.trans hs)
  obtain ⟨ks₀', hrun, hagree⟩ := ((hiff ks ks').1 h).transfer (hkeeps (room all s') rfl) hmapped
    (fun title meetingId he htitle => by
      rw [htitle] at he
      exact .inr (mem_grants hd (hentries _ he))) hsame
  exact ⟨ks₀', (hiff ks₀ ks₀').2 hrun, hagree⟩

/-- Every mapping leads to a meeting of its room. -/
theorem mapped_of_history (h : History appId ds ks) (hall : ∀ d ∈ ds, d ∈ all)
    (hapart : Apart all) : ∀ s, Named all s → (room all s).Mapped ks := by
  induction h with
  | nil => exact fun _ _ _ hdata => nomatch hdata
  | @cons ds ks ks' d h hrun ih =>
    intro s hs
    have hmapped := ih fun d hd => hall d (List.mem_cons_of_mem _ hd)
    have hd := hall d List.mem_cons_self
    obtain ⟨s', -, -, hs', -⟩ := exists_keeps hrun
    obtain ⟨hmapped', hframe⟩ := frame_of_deed hrun hd hs' (hmapped s' ⟨d, hd, hs'⟩)
    by_cases hsame : s = s'
    · rw [hsame]
      exact hmapped'
    · have hkey : mappingKey s ∉ (room all s').keys :=
        hapart.notMem_keys hs ⟨d, hd, hs'⟩ hsame (Room.record_mem_keys Room.mappingKey_mem)
      intro data hdata
      exact hmapped s hs data ((hframe _ hkey).symm.trans hdata)

/-- Without the deeds about one session id, the others are done just so. The data is the same
outside the room of this id. -/
theorem exists_purged (h : History appId ds ks) (hall : ∀ d ∈ ds, d ∈ all) (hapart : Apart all)
    (hs : Named all s) :
    ∃ ks₀, History appId (purge s ds) ks₀ ∧
      ∀ k ∉ (room all s).keys, ks.lookup k = ks₀.lookup k := by
  induction h with
  | nil => exact ⟨{}, .nil, fun _ _ => rfl⟩
  | @cons ds ks ks' d h hrun ih =>
    have hrest : ∀ d ∈ ds, d ∈ all := fun d hd => hall d (List.mem_cons_of_mem _ hd)
    have hd := hall d List.mem_cons_self
    obtain ⟨ks₀, hpurged, hagree⟩ := ih hrest
    obtain ⟨s', -, -, hs', -⟩ := exists_keeps hrun
    have hmapped := mapped_of_history h hrest hapart s' ⟨d, hd, hs'⟩
    by_cases hsame : s' = s
    -- The deed is left out. It changed nothing outside the room.
    · have hdrop : purge s (d :: ds) = purge s ds :=
        List.filter_cons_of_neg (by simp [hs', hsame])
      rw [hdrop]
      refine ⟨ks₀, hpurged, fun k hk => ?_⟩
      rw [hsame] at hs' hmapped
      exact ((frame_of_deed hrun hd hs' hmapped).2 k hk).trans (hagree k hk)
    · have hkeep : purge s (d :: ds) = d :: purge s ds :=
        List.filter_cons_of_pos (by simp [hs', hsame])
      rw [hkeep]
      obtain ⟨ks₀', hrun', hagree'⟩ := transfer_of_deed hrun hd hs' hmapped fun k hk =>
        hagree k (hapart.notMem_keys ⟨d, hd, hs'⟩ hs hsame hk)
      exact ⟨ks₀', .cons hpurged hrun', fun k hk => hagree' k (hagree k hk)⟩

/-- What is asked for, and what is told from outside, decide what is done. -/
theorem History.unique (h : History appId ds ks) {ds₁ : List Deed} {ks₁ : Keyspace}
    (h₁ : History appId ds₁ ks₁) (hasked : ds₁.map Deed.asked = ds.map Deed.asked) :
    ds₁ = ds ∧ ks₁ = ks := by
  induction h generalizing ds₁ ks₁ with
  | nil =>
    obtain rfl := List.map_eq_nil_iff.1 hasked
    cases h₁
    exact ⟨rfl, rfl⟩
  | @cons ds ks ks' d h hrun ih =>
    cases h₁ with
    | nil => exact nomatch hasked
    | @cons ds₁ ks₁ ks₁' d₁ h₁ hrun₁ =>
      obtain ⟨hhead, htail⟩ := List.cons.inj hasked
      obtain ⟨rfl, rfl⟩ := ih h₁ htail
      obtain ⟨job, entries, outcome⟩ := d
      obtain ⟨job₁, entries₁, outcome₁⟩ := d₁
      obtain ⟨rfl, htold⟩ := Prod.mk.inj hhead
      obtain ⟨rfl, rfl, rfl⟩ := hrun.unique hrun₁ htold
      exact ⟨rfl, rfl⟩

end Deeds

/-! ### Joins in mock mode -/

/-- The session that a join makes in a meeting that has none. -/
def sessionIn (s : String) (meeting : Meeting) (userId : String) : Session :=
  (Session.new s meeting 0).add ⟨userId, 0, none⟩

/-- The data once the session is made. -/
def dataIn (ks : Keyspace) (s : String) (meeting : Meeting) (userId : String) : Keyspace :=
  ks.first (sessionKey meeting.id) (Symbol.ofText (sessionIn s meeting userId).encode)

/-- A join in mock mode that makes a session, once it knows the meeting. -/
def joinIn (appId s userId : String) (meeting : Meeting) (entries : List Entry) : Deed where
  job := .join .mock s ⟨some userId, none⟩
  entries := entries ++
    [⟨.now, (0 : Int)⟩,
     ⟨.now, (0 : Int)⟩,
     ⟨.putIf (sessionKey meeting.id) (sessionIn s meeting userId).encode none, .ok (.written 1)⟩] ++
    [⟨.count (.join JoinOutcome.joined.name), ()⟩,
     ⟨.note (.joined s userId 1 true), ()⟩]
  outcome := .joined (.ok
    ⟨sessionIn s meeting userId, some ⟨meeting.id, mockToken, appId, false⟩⟩)

/-- A first join, which maps the session id to its mock meeting. -/
def firstJoin (appId s userId : String) : Deed :=
  joinIn appId s userId (mockMeeting s false)
    [⟨.get (mappingKey s), .ok none⟩,
     ⟨.note (.providerSkipped s), ()⟩,
     ⟨.putIf (mappingKey s) (Mapping.ofMeeting (mockMeeting s false)).encode none,
      .ok (.written 1)⟩,
     ⟨.get (sessionKey (mockMeetingId s)), .ok none⟩]

/-- The data once a session id is mapped to its mock meeting. -/
def dataMapped (ks : Keyspace) (s : String) : Keyspace :=
  ks.first (mappingKey s) (Symbol.ofText (Mapping.ofMeeting (mockMeeting s false)).encode)

/-- The data once it is joined. -/
def dataJoined (ks : Keyspace) (s userId : String) : Keyspace :=
  dataIn (dataMapped ks s) s (mockMeeting s false) userId

/-- A join of a session id whose mapping is a text without a version. -/
def mappedJoin (appId s text userId : String) (meeting : Meeting) : Deed :=
  joinIn appId s userId meeting
    [⟨.get (mappingKey s), .ok (some ⟨text, 0⟩)⟩,
     ⟨.get (sessionKey meeting.id), .ok none⟩,
     ⟨.note (.sessionMissing s meeting.id), ()⟩]

section MockJoins

variable {appId s userId : String} {ks ks' : Keyspace} {meeting : Meeting} {entries : List Entry}

/-- A join whose first attempt makes a session is done. -/
theorem solo_joinIn (held : Option Meeting)
    (hvalid : JoinRequest.validate ⟨some userId, none⟩ = .ok userId)
    (hheld : Joiner.orphan? held (sessionIn s meeting userId) = none)
    (hattempt : Solo ks (Joiner.attempt ⟨.mock, s, userId, none⟩ none).run
      (entries ++ [⟨.now, (0 : Int)⟩, ⟨.now, (0 : Int)⟩,
        ⟨.putIf (sessionKey meeting.id) (sessionIn s meeting userId).encode none,
          .ok (.written 1)⟩])
      ks' (.ok (.joined (sessionIn s meeting userId) true, held))) :
    Solo ks ((joinIn appId s userId meeting entries).job.program appId)
      (joinIn appId s userId meeting entries).entries ks'
      (joinIn appId s userId meeting entries).outcome := by
  refine Solo.map ?_
  -- Of the five attempts only the first is made.
  rw [run_join_of_ok hvalid]
  refine hattempt.bind ?_
  dsimp only [Joiner.proceed]
  rw [ExceptT.run_lift, Joiner.finish_of_none hheld]
  refine Solo.map ?_
  exact .ask (c := .count _) _ trivial (.ask (c := .note _) _ trivial (.done _ _))

/-- Writing a mapping leaves the sessions alone. -/
theorem lookup_dataMapped (ks : Keyspace) (s m : String) :
    (dataMapped ks s).lookup (sessionKey m) = ks.lookup (sessionKey m) := by
  refine Keyspace.lookup_first_of_ne (mappingKey_ne_sessionKey _ _).symm ?_
  rw [versionKey_mappingKey]
  exact (mappingKey_ne_sessionKey _ _).symm

/-- The first user of a session id finds nothing and leaves a mapping and a session. -/
theorem solo_firstJoin (hvalid : JoinRequest.validate ⟨some userId, none⟩ = .ok userId)
    (hmapping : ks.lookup (mappingKey s) = none)
    (hmappingVersion : ks.lookup (versionKey (mappingKey s)) = none)
    (hsession : ks.lookup (sessionKey (mockMeetingId s)) = none)
    (hsessionVersion : ks.lookup (versionKey (sessionKey (mockMeetingId s))) = none) :
    Solo ks ((firstJoin appId s userId).job.program appId) (firstJoin appId s userId).entries
      (dataJoined ks s userId) (firstJoin appId s userId).outcome := by
  have hfree : (dataMapped ks s).lookup (sessionKey (mockMeetingId s)) = none := by
    rw [lookup_dataMapped, hsession]
  have hfreeVersion :
      (dataMapped ks s).lookup (versionKey (sessionKey (mockMeetingId s))) = none := by
    rw [versionKey_sessionKey, lookup_dataMapped, ← versionKey_sessionKey, hsessionVersion]
  refine solo_joinIn (some (mockMeeting s false)) hvalid rfl ?_
  refine Solo.get (Shared.get_of_lookup_eq_none hmapping hmappingVersion) ?_
  refine .ask (c := .note _) _ trivial ?_
  refine Solo.putFirst hmapping hmappingVersion ?_
  refine Solo.get (Shared.get_of_lookup_eq_none hfree hfreeVersion) ?_
  refine .ask (c := .now) _ rfl (.ask (c := .now) _ rfl ?_)
  exact Solo.putFirst hfree hfreeVersion (.done _ _)

theorem solo_mappedJoin {text : String}
    (hvalid : JoinRequest.validate ⟨some userId, none⟩ = .ok userId)
    (hmapping : ks.lookup (mappingKey s) = some (Symbol.ofText text))
    (hmappingVersion : ks.lookup (versionKey (mappingKey s)) = none)
    (hdecode : Mapping.decode text = ⟨meeting.id, meeting.kind⟩)
    (hdegraded : meeting.degraded = false)
    (hsession : ks.lookup (sessionKey meeting.id) = none)
    (hsessionVersion : ks.lookup (versionKey (sessionKey meeting.id)) = none) :
    Solo ks ((mappedJoin appId s text userId meeting).job.program appId)
      (mappedJoin appId s text userId meeting).entries (dataIn ks s meeting userId)
      (mappedJoin appId s text userId meeting).outcome := by
  obtain ⟨meetingId, kind, degraded⟩ := meeting
  subst hdegraded
  have hfetch : Shared.fetch? ks (mappingKey s) = some (some ⟨text, 0⟩) := by
    unfold Shared.fetch?
    rw [hmapping, hmappingVersion]
    dsimp only [Shared.readVersion?, bind, Option.bind]
    rw [Symbol.text?_ofText]
    rfl
  have hresolve : Resolution.ofStored .mock ⟨text, 0⟩ = .found ⟨meetingId, kind⟩ 0 :=
    Resolution.ofStored_eq_found_iff.2 ⟨hdecode, rfl, .inl rfl⟩
  -- The mapping is kept, and the meeting it leads to has no session yet.
  have hlookup : Solo ks (Request.ofStore (Resolution.lookup s .mock)).run
      [⟨.get (mappingKey s), .ok (some ⟨text, 0⟩)⟩] ks (.ok (.found ⟨meetingId, kind⟩ 0)) := by
    refine Solo.get (congrArg Shared.Answered.result (Shared.get_of_fetch? hfetch)) ?_
    dsimp only [Program.call, bind, Program.bind, pure]
    rw [hresolve]
    exact .done _ _
  refine solo_joinIn none hvalid rfl (hlookup.bind ?_)
  refine Solo.get (Shared.get_of_lookup_eq_none hsession hsessionVersion) ?_
  refine .ask (c := .note _) _ trivial ?_
  refine .ask (c := .now) _ rfl (.ask (c := .now) _ rfl ?_)
  exact Solo.putFirst hsession hsessionVersion (.done _ _)

end MockJoins

/-! ### Isolation -/

/-- The mapping of a session id and the session that it leads to are stored alike. -/
def SameRoom (ks ks₀ : Keyspace) (s : String) : Prop :=
  ks.SameRecord ks₀ (mappingKey s) ∧
    ∀ value, ks.lookup (mappingKey s) = some (Symbol.ofText value) →
      ks.SameRecord ks₀ (sessionKey (Mapping.decode value).meetingId)

/-- Leave the deeds about one session id out of a history. What is left is a history, in which every
deed is answered as it was, and the same requests, told the same from outside, have no other. The
rooms of all other session ids are stored as they were. -/
theorem rooms_isolated {appId : String} {ds : List Deed} {ks : Keyspace}
    (h : History appId ds ks) (hapart : Apart ds) (s : String) :
    ∃ ks₀, History appId (purge s ds) ks₀ ∧
      (∀ ds₁ ks₁, History appId ds₁ ks₁ →
        ds₁.map Deed.asked = (purge s ds).map Deed.asked → ds₁ = purge s ds ∧ ks₁ = ks₀) ∧
      ∀ t, Named ds t → t ≠ s → SameRoom ks ks₀ t := by
  by_cases hs : Named ds s
  · obtain ⟨ks₀, hpurged, hagree⟩ := exists_purged h (fun _ hd => hd) hapart hs
    refine ⟨ks₀, hpurged, fun ds₁ ks₁ h₁ hasked => hpurged.unique h₁ hasked, fun t ht hne => ?_⟩
    have hsame : ∀ k ∈ (room ds t).records, ks.SameRecord ks₀ k := fun k hk =>
      ⟨hagree _ (hapart.notMem_keys ht hs hne (Room.record_mem_keys hk)),
        hagree _ (hapart.notMem_keys ht hs hne (Room.versionKey_mem_keys hk))⟩
    refine ⟨hsame _ Room.mappingKey_mem, fun value hvalue => hsame _ (Room.sessionKey_mem ?_)⟩
    obtain ⟨value', hvalue', hleads⟩ :=
      mapped_of_history h (fun _ hd => hd) hapart t ht _ hvalue
    rw [Symbol.ofText_inj.1 hvalue']
    exact hleads
  -- There is nothing to leave out.
  · have hpurge : purge s ds = ds := by
      refine List.filter_eq_self.2 fun d hd => ?_
      rw [bne_iff_ne]
      exact fun hs' => hs ⟨d, hd, hs'⟩
    rw [hpurge]
    exact ⟨ks, h, fun ds₁ ks₁ h₁ hasked => h.unique h₁ hasked,
      fun t _ _ => ⟨⟨rfl, rfl⟩, fun _ _ => ⟨rfl, rfl⟩⟩⟩

/-- First joins of two rooms that are apart. -/
def joinsApart : List Deed :=
  [firstJoin "app" "b" "v", firstJoin "app" "a" "u"]

/-- Two joins of different session ids happen one after the other. -/
theorem history_joinsApart :
    History "app" joinsApart (dataJoined (dataJoined {} "a" "u") "b" "v") :=
  .cons (.cons .nil (solo_firstJoin rfl rfl rfl rfl rfl)) (solo_firstJoin rfl rfl rfl rfl rfl)

/-- What the second join leaves is what it would have left without the first. -/
theorem rooms_isolated_joinsApart :
    Apart joinsApart ∧ ∃ ks₀, History "app" [firstJoin "app" "b" "v"] ks₀ ∧
      SameRoom (dataJoined (dataJoined {} "a" "u") "b" "v") ks₀ "b" := by
  have hids : ∀ d ∈ joinsApart, ∀ s, d.sessionId? = some s → s ∈ ["a", "b"] := by
    intro d hd s hs
    rcases List.mem_cons.1 hd with rfl | hd
    · obtain rfl := Option.some.inj hs
      decide
    · obtain rfl := List.mem_singleton.1 hd
      obtain rfl := Option.some.inj hs
      decide
  -- Neither id is the other one with the suffix of versions.
  have hnames : ∀ s ∈ ["a", "b"], ∀ s' ∈ ["a", "b"], s' ≠ s ++ ":version" := by decide
  have hapart : Apart joinsApart :=
    { nodup := List.nodup_nil
      unlike := fun _ hgrant => nomatch hgrant
      sessionIds := fun d hd d' hd' s s' hs hs' =>
        hnames s (hids d hd s hs) s' (hids d' hd' s' hs')
      meetings := fun _ hgrant => nomatch hgrant }
  obtain ⟨ks₀, hpurged, -, hsame⟩ := rooms_isolated history_joinsApart hapart "a"
  exact ⟨hapart, ks₀, hpurged, hsame "b" ⟨_, List.mem_cons_self, rfl⟩ (by decide)⟩

/-- A join of a session id that is another one followed by `:version`. It takes the counter of the
other one's mapping for a mapping of its own. -/
def misledJoin : Deed :=
  mappedJoin "app" "a:version" "1" "v" ⟨"1", .real, false⟩

/-- The counter of one record is the mapping of the other session id. -/
theorem history_misledJoin :
    History "app" [misledJoin, firstJoin "app" "a" "u"]
      (dataIn (dataJoined {} "a" "u") "a:version" ⟨"1", .real, false⟩ "v") :=
  .cons (.cons .nil (solo_firstJoin rfl rfl rfl rfl rfl))
    (solo_mappedJoin rfl rfl rfl (by decide) rfl rfl rfl)

/-- The same join goes another way where the first one did not happen. -/
theorem history_firstJoin :
    History "app" [firstJoin "app" "a:version" "v"] (dataJoined {} "a:version" "v") :=
  .cons .nil (solo_firstJoin rfl rfl rfl rfl rfl)

/-- The same join, told the same from outside, is answered with another meeting if there was a join
of the other session id before. -/
theorem rooms_meet :
    History "app" [misledJoin, firstJoin "app" "a" "u"]
        (dataIn (dataJoined {} "a" "u") "a:version" ⟨"1", .real, false⟩ "v") ∧
      grants [misledJoin, firstJoin "app" "a" "u"] = [] ∧
      purge "a" [misledJoin, firstJoin "app" "a" "u"] = [misledJoin] ∧
      History "app" [firstJoin "app" "a:version" "v"] (dataJoined {} "a:version" "v") ∧
      (firstJoin "app" "a:version" "v").asked = misledJoin.asked ∧
      (firstJoin "app" "a:version" "v").outcome ≠ misledJoin.outcome ∧
      ¬ ∃ ks, History "app" [misledJoin] ks := by
  have hdiffer : (firstJoin "app" "a:version" "v").outcome ≠ misledJoin.outcome := by
    intro h
    have hmeeting : mockMeetingId "a:version" = "1" :=
      congrArg (fun r => r.session.meetingId) (Except.ok.inj (Outcome.joined.inj h))
    exact absurd hmeeting (by decide)
  refine ⟨history_misledJoin, rfl, rfl, history_firstJoin, rfl, hdiffer, ?_⟩
  rintro ⟨ks, h⟩
  obtain ⟨hsame, -⟩ := history_firstJoin.unique h rfl
  exact hdiffer (congrArg Deed.outcome (List.cons.inj hsame).1).symm

end VoiceRoom.Rooms
