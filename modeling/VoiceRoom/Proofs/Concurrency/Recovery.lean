import VoiceRoom.Proofs.Concurrency.Solitude
import VoiceRoom.Proofs.Concurrency.Visits
import VoiceRoom.Proofs.Conduct.Provider

/-!
# No room is ever wedged

A mapping and the session it leads to are written one after the other, and whoever writes them may
be abandoned in between. Whatever was left behind, a valid join that nothing disturbs comes in at
its first attempt, unless the session that it comes to is full, and then it leaves every record as
it was (`unwedged_of_run`).

A join that runs alone finds every record as it was when it started (`Intact`). So it is known where
it comes to: to a session that may be there already (`LandsAt`), or to a meeting in which there can
be none (`Way`).
-/

namespace VoiceRoom.Concurrency

open Conduct (Obtained)
open Discipline
open Simulation (Entry)

variable {i : Nat} {u v w : World} {base : List Act} {mode : Mode} {s k : String}

/-! ### What is as it was -/

/-- Every record is as it was. -/
def Intact (base : List Act) (w : World) : Prop :=
  ∀ key, w.store.lookup key = (storeOf base).lookup key

theorem Intact.rests (h : Intact base v) (hv : (solitude base i).Inv v)
    (hle : (solitude base i).discipline.Rests i v w) : Intact base w :=
  fun key => (solitude_lookup_of_rests hv hle key).trans (h key)

/-! ### Where a join comes to -/

/-- The meeting where a join that runs alone comes to a session that may be there already: the one
that the session id leads to, if it counts, and the mock one again if the provider refuses to give a
real one in its place. -/
inductive LandsAt (m : Memory) (mode : Mode) (s : String) (told : List Entry) : String → Prop where
  | mapped {mapping : Mapping} (hat : m.mappingAt s = some mapping)
      (hcounts : mode = .mock ∨ mapping.kind = .real) : LandsAt m mode s told mapping.meetingId
  | refused {mapping : Mapping} {e : ProviderError} (hmode : mode = .real)
      (hat : m.mappingAt s = some mapping) (hmock : mapping.kind = .mock)
      (h : ⟨.createMeeting s, .error e⟩ ∈ told) : LandsAt m mode s told (mockMeetingId s)

/-- A join that runs alone comes to a session that may be there already, or makes the first mapping
of its session id, or the first mapping to a real meeting. -/
inductive Way (m : Memory) (mode : Mode) (s : String) (told : List Entry) : String → Prop where
  | lands {k : String} (h : LandsAt m mode s told k) : Way m mode s told k
  | first {k : String} (hat : m.mappingAt s = none) : Way m mode s told k
  | promoted {mapping : Mapping} {k : String} (hmode : mode = .real)
      (hat : m.mappingAt s = some mapping) (hmock : mapping.kind = .mock)
      (h : ⟨.createMeeting s, .ok k⟩ ∈ told) : Way m mode s told k

theorem LandsAt.subset {m : Memory} {told told' : List Entry} (h : LandsAt m mode s told k)
    (hsubset : told ⊆ told') : LandsAt m mode s told' k := by
  cases h with
  | mapped hat hcounts => exact .mapped hat hcounts
  | refused hmode hat hmock h => exact .refused hmode hat hmock (hsubset h)

theorem Way.subset {m : Memory} {told told' : List Entry} (h : Way m mode s told k)
    (hsubset : told ⊆ told') : Way m mode s told' k := by
  cases h with
  | lands h => exact .lands (h.subset hsubset)
  | first hat => exact .first hat
  | promoted hmode hat hmock h => exact .promoted hmode hat hmock (hsubset h)

/-- Who was asked once gave one answer. -/
theorem eq_of_countP_le_one {p : Entry → Bool} {told : List Entry} (h : told.countP p ≤ 1)
    {e e' : Entry} (he : e ∈ told) (he' : e' ∈ told) (hp : p e = true) (hp' : p e' = true) :
    e = e' := by
  rw [List.countP_eq_length_filter] at h
  have hmem := List.mem_filter.2 ⟨he, hp⟩
  have hmem' := List.mem_filter.2 ⟨he', hp'⟩
  obtain ⟨a, ha⟩ := List.length_eq_one_iff.1
    (Nat.le_antisymm h (List.length_pos_of_mem hmem))
  rw [ha, List.mem_singleton] at hmem hmem'
  rw [hmem, hmem']

/-- If there may be a session already where a join comes to, it comes to no other. -/
theorem Way.eq_of_landsAt {m : Memory} {told : List Entry} {k' : String}
    (h : Way m mode s told k) (honce : told.countP asksMeeting ≤ 1)
    (hlands : LandsAt m mode s told k') : k' = k := by
  -- A mapping that counts is not to a mock meeting in real mode.
  have hcount : ∀ {mapping mapping' : Mapping}, m.mappingAt s = some mapping →
      (mode = .mock ∨ mapping.kind = .real) → m.mappingAt s = some mapping' → mode = .real →
      mapping'.kind = .mock → False := by
    intro mapping mapping' hat hcounts hat' hreal hmock
    obtain rfl : mapping = mapping' := Option.some.inj (hat.symm.trans hat')
    rcases hcounts with h | h
    · exact nomatch hreal.symm.trans h
    · exact nomatch hmock.symm.trans h
  cases hlands with
  | mapped hat hcounts =>
    cases h with
    | lands h =>
      cases h with
      | mapped hat' hcounts' =>
        obtain rfl := Option.some.inj (hat.symm.trans hat')
        rfl
      | refused hmode hat' hmock h => exact (hcount hat hcounts hat' hmode hmock).elim
    | first hat' => exact nomatch hat.symm.trans hat'
    | promoted hmode hat' hmock h => exact (hcount hat hcounts hat' hmode hmock).elim
  | refused hmode hat hmock h' =>
    cases h with
    | lands h =>
      cases h with
      | mapped hat' hcounts' => exact (hcount hat' hcounts' hat hmode hmock).elim
      | refused => rfl
    | first hat' => exact nomatch hat.symm.trans hat'
    | promoted _ _ _ h => cases eq_of_countP_le_one honce h h' rfl rfl

/-! ### Where there is no session yet -/

/-- Before a meeting was given there was no session in it. -/
theorem lookup_eq_none_of_granted {past : List Act} (hbase : Sound (worldOf base))
    (hnew : own i base = []) (hsuffix : base <:+ past) (hfresh : FreshGrants past)
    (h : ⟨.createMeeting s, .ok k⟩ ∈ own i past) :
    (storeOf base).lookup (sessionKey k) = none := by
  obtain ⟨p, hp⟩ := exists_suffix_of_mem_own h
  have hafter : ¬ Act.answer i ⟨.createMeeting s, .ok k⟩ :: p <:+ base := fun hin => by
    have hmem := (own_cons_suffix hin).subset List.mem_cons_self
    rw [hnew] at hmem
    exact nomatch hmem
  have hbefore : base <:+ p := by
    rcases List.suffix_or_suffix_of_suffix hp hsuffix with hin | hout
    · exact absurd hin hafter
    · rcases List.suffix_cons_iff.1 hout with rfl | hout
      · exact absurd (List.suffix_refl _) hafter
      · exact hout
  have hfresh' := hfresh.of_suffix hp
  have hgiven : Given (.answer i ⟨.createMeeting s, .ok k⟩ :: p) s ⟨k, .real⟩ :=
    List.mem_cons_self
  cases hlookup : (storeOf base).lookup (sessionKey k) with
  | none => rfl
  | some stored =>
    obtain ⟨x, -, hhoused⟩ := hbase.housed (hfresh.of_suffix hsuffix) k stored hlookup
    -- The session would be in a meeting that was given twice.
    have hfirst : Given base x.sessionId ⟨k, x.kind⟩ := hhoused.meeting ▸ hhoused.given
    obtain ⟨-, hkind⟩ := Given.unique hfresh'
      (hfirst.of_suffix (hbefore.trans (List.suffix_cons _ p))) hgiven
    rw [hkind] at hfirst
    have hmem := List.mem_map_of_mem (f := Prod.snd) ((grants_suffix hbefore).subset hfirst)
    exact absurd hmem (List.nodup_cons.1 hfresh'.nodup).1

/-- Where no mapping is, there is no session in the mock meeting. -/
theorem lookup_eq_none_of_unmapped (hbase : Sound (worldOf base)) (hfresh : FreshGrants base)
    (hat : (storeOf base).mappingAt s = none) :
    (storeOf base).lookup (sessionKey (mockMeetingId s)) = none := by
  cases hlookup : (storeOf base).lookup (sessionKey (mockMeetingId s)) with
  | none => rfl
  | some stored =>
    obtain ⟨x, -, hhoused⟩ := hbase.housed hfresh _ stored hlookup
    have hgiven : Given base x.sessionId ⟨mockMeetingId s, x.kind⟩ :=
      hhoused.meeting ▸ hhoused.given
    obtain ⟨hs, -⟩ := Given.unique hfresh hgiven (given_mock_iff.2 rfl)
    have hleads := hhoused.leads
    rw [hs] at hleads
    rcases hleads with hat' | ⟨-, meetingId, hat'⟩
    · exact nomatch hat.symm.trans hat'
    · exact nomatch hat.symm.trans hat'

/-- With a meeting that was obtained, a join comes to the session of the mapping that is in place
already, or to a meeting in which there is no session. -/
theorem way_of_obtained {past : List Act} (hassumes : (solitude base i).Assumes past)
    (hsuffix : base <:+ past) (hnew : own i base = []) {seen : Resolution} {mapping : Mapping}
    (hseen : seen = .read mode ((storeOf base).lookup (mappingKey s)))
    (hfound : ∀ mapping version, seen ≠ .found mapping version)
    (hobtained : Obtained mode s (own i past) mapping) :
    (LandsAt (storeOf base) mode s (own i past) mapping.meetingId ∧
        ∃ version, seen = .stale mapping version) ∨
      (Way (storeOf base) mode s (own i past) mapping.meetingId ∧
        (storeOf base).lookup (sessionKey mapping.meetingId) = none) := by
  have hbase := hassumes.kept.sound base hsuffix
  -- Without a mapping to keep, the session id is unmapped, or mapped to its mock meeting.
  rcases unmapped_or_mock (v := worldOf base) hbase hseen hfound with hat | ⟨hreal, hat, hstale⟩
  · refine .inr ⟨.first hat, ?_⟩
    cases hobtained with
    | given _ h => exact lookup_eq_none_of_granted hbase hnew hsuffix hassumes.fresh h
    | _ => exact lookup_eq_none_of_unmapped hbase (hassumes.fresh.of_suffix hsuffix) hat
  · cases hobtained with
    -- a mock join keeps every mapping
    | skipped hmode => exact nomatch hreal.symm.trans hmode
    | given _ h =>
      exact .inr ⟨.promoted hreal hat rfl h,
        lookup_eq_none_of_granted hbase hnew hsuffix hassumes.fresh h⟩
    | refused e _ h => exact .inl ⟨.refused hreal hat rfl h, hstale⟩

/-! ### Each part of an attempt -/

/-- Allocating changes no record, and its meeting was obtained as it should be. -/
theorem holds_allocate_alone (hu : (solitude base i).Inv u) (hintact : Intact base u) :
    (solitude base i).discipline.Holds i (allocate mode s) (fun meeting v =>
      Intact base v ∧ Obtained mode s (own i v.past) (.ofMeeting meeting)) u := by
  refine holds_allocate (fun hmode v hv => ⟨hintact.rests hu hv.rests, .skipped hmode⟩)
    (fun hmode v v' w meetingId hv hturn hw => ?_) fun hmode v v' w e hv hturn hw => ?_
  · have hasked : ⟨.createMeeting s, .ok meetingId⟩ ∈ own i v'.past := by
      rw [hturn.eq, World.past_next, own_answer_self]
      exact List.mem_cons_self
    exact ⟨hintact.rests hu ((hv.rests.trans (hturn.rests id)).trans hw.rests),
      .given hmode (mem_own_of_rests hw.rests hasked)⟩
  · have hasked : ⟨.createMeeting s, .error e⟩ ∈ own i v'.past := by
      rw [hturn.eq, World.past_next, own_answer_self]
      exact List.mem_cons_self
    exact ⟨hintact.rests hu ((hv.rests.trans (hturn.rests id)).trans hw.rests),
      .refused e hmode (mem_own_of_rests hw.rests hasked)⟩

/-- Every session is as it was. -/
def SessionsIntact (base : List Act) (w : World) : Prop :=
  ∀ k, w.store.lookup (sessionKey k) = (storeOf base).lookup (sessionKey k)

/-- Nobody is faster to write the mapping. -/
theorem ensures_writeMapping_alone {j : Joiner} {seen : Resolution} (meeting : Meeting)
    (hu : (solitude base i).Inv u) (hintact : Intact base u)
    (hseen : seen = .read j.mode ((storeOf base).lookup (mappingKey j.sessionId))) :
    (solitude base i).discipline.Ensures i (j.writeMapping seen meeting) (fun written v =>
      written = true ∧ SessionsIntact base v ∧
        ((∃ version, seen = .stale (.ofMeeting meeting) version) → Intact base v))
      (fun _ _ => False) u := by
  refine ensures_writeMapping (fun w version _ hw => ?_)
    (fun hother v hv _ hassumes => ?_) (fun v _ _ hv hversion _ _ => ?_)
    fun w hfails => not_fails_answering hfails
  · have hsame := hintact.rests hu hw.rests
    exact ⟨rfl, fun k => hsame (sessionKey k), fun _ => hsame⟩
  · obtain ⟨hinv, hgrows⟩ := answering_written hv.inv hassumes
    refine ⟨hinv, hgrows, fun w hw => ⟨rfl, fun k => ?_, fun h => ?_⟩⟩
    · rw [solitude_lookup_of_rests hinv hw.rests]
      exact (Memory.lookup_insert_mapping ..).trans (hintact.rests hu hv.rests _)
    · obtain ⟨version, h⟩ := h
      exact absurd h (hother version)
  -- nobody else writes, so the version that was read is still the current one
  · refine absurd ?_ hversion
    rw [hintact.rests hu hv.rests, hseen, Resolution.version?_read]

/-- A draft is of the session that was in the meeting from the start. -/
theorem MirrorsSince.alone {hP} {d : Draft} (hu : (solitude base i).Inv u)
    (hsessions : SessionsIntact base u)
    (h : MirrorsSince base (fun act => ∃ e, act = .answer i e) hP i k u d w) :
    Mirrors (storeOf base) k d ∧ (solitude base i).discipline.Rests i u w := by
  obtain ⟨v, hv, hrests, hmirrors⟩ := h
  obtain rfl := solitude_later_eq hu hv
  exact ⟨hmirrors.congr (hsessions k).symm, hrests⟩

/-- What comes of entering: the user comes in, or the session was full and all stays as it is. -/
def LetIn (base : List Act) (k userId : String) (a : Attempt) : Prop :=
  ∃ x added, a = .joined x added ∧ x.hasMember userId = true ∧
    (rosterAt (storeOf base) k).length < capacity

def KeptOut (base : List Act) (k : String) (u : World) (e : ServiceError) (v : World) : Prop :=
  e = .sessionFull ∧ capacity ≤ (rosterAt (storeOf base) k).length ∧
    ∀ key, v.store.lookup key = u.store.lookup key

/-- Nobody is faster to write the session. -/
theorem ensures_enter_alone {j : Joiner} {d : Draft} (hu : (solitude base i).Inv u)
    (hsessions : SessionsIntact base u) (hmirrors : Mirrors (storeOf base) k d) :
    (solitude base i).discipline.Ensures i (j.enter d) (fun a _ => LetIn base k j.userId a)
      (KeptOut base k u) u := by
  -- The draft mirrors the record, so that there is room in both or in neither.
  have hroom : d.session.isFull = false → (rosterAt (storeOf base) k).length < capacity := by
    rw [← hmirrors.users]
    exact Session.isFull_eq_false_iff.1
  refine ensures_enter (fun hfull w hw => ⟨rfl, ?_, fun key => ?_⟩)
    (fun hroom' _ hmember w hw => ⟨_, _, rfl, hmember, hroom hroom'⟩)
    (fun hroom' _ v t hv ht hversion hassumes => ?_)
    (fun _ v _ _ t hv hversion _ _ => ?_) fun v w _ hfails => (not_fails_answering hfails).elim
  · unfold Session.isFull at hfull
    rw [← hmirrors.users]
    exact of_decide_eq_true hfull
  · exact solitude_lookup_of_rests hu hw.rests key
  · obtain ⟨hinv, hgrows⟩ := answering_written hv.inv hassumes
    exact ⟨hinv, hgrows, fun w hw =>
      ⟨_, _, rfl, Session.hasMember_add d.session _, hroom hroom'⟩⟩
  · refine absurd ?_ hversion
    -- nobody else writes, so no put loses its race
    have hmeeting : (d.session.add ⟨j.userId, t, j.iconUrl⟩).meetingId = k :=
      (Session.continues_add _ _).meetingId.trans hmirrors.meeting
    rw [hmeeting, solitude_lookup_of_rests hu hv.rests, hsessions, hmirrors.version]

/-! ### An attempt as a whole -/

/-- What comes of opening a session and entering it. -/
theorem ensures_land {hP} {j : Joiner} {x : Request Draft} {held : Option Meeting}
    (hu : (solitude base i).Inv u) (hsessions : SessionsIntact base u)
    (h : (solitude base i).discipline.Ensures i x
      (MirrorsSince base (fun act => ∃ e, act = .answer i e) hP i k u) (fun _ _ => False) u) :
    (solitude base i).discipline.Ensures i (do
        let draft ← x
        return (← j.enter draft, held))
      (fun r _ => LetIn base k j.userId r.1) (KeptOut base k u) u := by
  refine (h.mono (fun _ _ _ _ => id) fun _ _ _ _ h => h.elim).bind fun d v hv hd => ?_
  obtain ⟨hmirrors, hrests⟩ := MirrorsSince.alone hu hsessions (hd v hv)
  have hsame := solitude_lookup_of_rests hu hrests
  have hsessions' : SessionsIntact base v := fun k => (hsame _).trans (hsessions k)
  have henter := ensures_enter_alone (j := j) hv.inv hsessions' hmirrors
  refine Ensures.bind (henter.mono (fun _ _ _ _ => id) fun e w _ _ he => ?_) fun a w hw ha =>
    ensures_pure fun w' hw' => ha w' hw'
  obtain ⟨he, hfull, hkept⟩ := he
  exact ⟨he, hfull, fun key => (hkept key).trans (hsame key)⟩

/-- How an attempt of a join ends that runs alone. -/
def Settles (base : List Act) (i : Nat) (j : Joiner) (r : Attempt × Option Meeting) (v : World) :
    Prop :=
  ∃ k, Way (storeOf base) j.mode j.sessionId (own i v.past) k ∧ LetIn base k j.userId r.1

def FindsFull (base : List Act) (i : Nat) (j : Joiner) (e : ServiceError) (v : World) : Prop :=
  ∃ k, LandsAt (storeOf base) j.mode j.sessionId (own i v.past) k ∧ e = .sessionFull ∧
    capacity ≤ (rosterAt (storeOf base) k).length ∧ Intact base v

/-- Nothing that a task was told is forgotten. -/
theorem own_subset_of_grows (h : Grows u v) : own i u.past ⊆ own i v.past :=
  (h.past.filterMap _).subset

/-- Having obtained a meeting, the task maps its session id there and enters, or finds the room
full. -/
theorem ensures_settle_alone {j : Joiner} {seen : Resolution} {meeting : Meeting}
    (hnew : own i base = []) (hu : (solitude base i).discipline.Later i u u)
    (hintact : Intact base u)
    (hseen : seen = .read j.mode ((storeOf base).lookup (mappingKey j.sessionId)))
    (hfound : ∀ mapping version, seen ≠ .found mapping version)
    (hobtained : Obtained j.mode j.sessionId (own i u.past) (.ofMeeting meeting)) :
    (solitude base i).discipline.Ensures i (j.settle seen meeting)
      (Settles base i j) (FindsFull base i j) u := by
  have hway := way_of_obtained hu.assumes hu.inv.own.1 hnew hseen hfound hobtained
  have hgiven : Given u.past j.sessionId (.ofMeeting meeting) :=
    (Conduct.Known.obtained hobtained).given (Bylaw.Assumes.kept hu.assumes)
  have hwrite := (ensures_writeMapping_alone meeting hu.inv hintact hseen).grown
  refine Ensures.bind (hwrite.mono (fun _ _ _ _ => id) fun _ _ _ _ h => h.2.elim)
    fun written v hv h => ?_
  obtain ⟨hle, rfl, hsessions, hstale⟩ := h v hv
  refine (ensures_land hv.inv hsessions (ensures_openAllocated_mirrors
    (hgiven.of_suffix (Grows.past hle)))).grown.mono (fun r w _ _ hr => ?_) fun e w _ _ he => ?_
  · obtain ⟨hle', hentered⟩ := hr
    have hsubset := own_subset_of_grows (i := i) (Grows.trans hle hle')
    refine ⟨meeting.id, ?_, hentered⟩
    rcases hway with ⟨hlands, -⟩ | ⟨hway, -⟩
    · exact .lands (hlands.subset hsubset)
    · exact hway.subset hsubset
  · obtain ⟨hle', he, hfull, hkept⟩ := he
    rcases hway with ⟨hlands, hsame⟩ | ⟨-, hvacant⟩
    · refine ⟨meeting.id, hlands.subset (own_subset_of_grows (Grows.trans hle hle')), he, hfull,
        fun key => ?_⟩
      exact (hkept key).trans (hstale hsame key)
    -- Where there was no session there was none that is full.
    · have hempty : rosterAt (storeOf base) meeting.id = [] := rosterAt_of_lookup_eq_none hvacant
      rw [hempty] at hfull
      exact nomatch hfull

/-- An attempt that nobody disturbs lets the user in or finds the room full; it loses no race, as
there is nobody to lose one to. -/
theorem ensures_attempt_alone {j : Joiner} (hnew : own i base = [])
    (hu : (solitude base i).Inv u) (hintact : Intact base u) :
    (solitude base i).discipline.Ensures i (j.attempt none) (Settles base i j)
      (FindsFull base i j) u := by
  refine ensures_attempt (fun v w mapping version hv hreads hseen => ?_)
    (fun _ _ _ _ _ _ _ _ hheld => nomatch hheld) (fun v w seen hv hreads hseen hfound _ => ?_)
    fun w hfails => (not_fails_answering hfails).elim
  · have hw : Intact base w := hintact.rests hu (hv.rests.trans hreads.rests)
    rw [hintact.rests hu hv.rests] at hseen
    obtain ⟨stored, hlookup, rfl, hcounts⟩ := Resolution.counts_of_found hseen
    have hat := Memory.mappingAt_of_lookup hlookup
    have hopen : (solitude base i).discipline.Ensures i (j.openMapped (.decode stored.value))
        _ _ w := ensures_openMapped_mirrors
    refine (ensures_land hreads.rests.inv (fun k => hw (sessionKey k)) hopen).grown.mono
      (fun r w' _ _ hr => ?_) fun e w' _ _ he => ?_
    · exact ⟨_, .lands (.mapped hat hcounts), hr.2⟩
    · obtain ⟨-, he, hfull, hkept⟩ := he
      exact ⟨_, .mapped hat hcounts, he, hfull, fun key => (hkept key).trans (hw key)⟩
  -- Without a mapping that counts, a meeting is obtained.
  · have hw : Intact base w := hintact.rests hu (hv.rests.trans hreads.rests)
    rw [hintact.rests hu hv.rests] at hseen
    refine (holds_allocate_alone hreads.rests.inv hw).lift fun meeting w' hw' h => ?_
    obtain ⟨hintact', hobtained⟩ := h w' hw'
    exact ensures_settle_alone hnew hw' hintact' hseen.symm hfound hobtained

/-! ### A create -/

/-- A create comes through if the id that it draws is not mapped. -/
theorem ensures_create_alone (mode : Mode) (hnew : own i base = [])
    (hu : (solitude base i).Inv u) (hintact : Intact base u) :
    (solitude base i).discipline.Ensures i (create mode) (fun _ _ => True)
      (fun _ v => ∃ s, ⟨.freshId, s⟩ ∈ own i v.past ∧
        (storeOf base).lookup (mappingKey s) ≠ none) u := by
  unfold create
  refine ensures_lift (holds_ask_quiet (fun _ => id) fun v hv s _ w hturn => holds_done
    fun w' hw' => ?_)
  have hw : Intact base w' := hintact.rests hu ((hv.rests.trans (hturn.rests id)).trans hw'.rests)
  have hdrawn : ⟨.freshId, s⟩ ∈ own i w'.past := by
    rw [hw'.own, hturn.eq, World.past_next, own_answer_self]
    exact List.mem_cons_self
  -- What is left of the create fails only if the id is mapped.
  suffices hrest : (solitude base i).discipline.Ensures i _ (fun _ _ => True)
      (fun _ _ => (storeOf base).lookup (mappingKey s) ≠ none) w' from
    hrest.grown.mono (fun _ _ _ _ _ => trivial) fun e x _ _ he =>
      ⟨s, own_subset_of_grows he.1 hdrawn, he.2⟩
  refine (holds_allocate_alone hw'.inv hw).lift fun meeting x hx h => ?_
  obtain ⟨hx', hobtained⟩ := h x hx
  refine ensures_now fun y t hy _ => ?_
  have hy' : Intact base y := hx'.rests hx.inv hy.rests
  refine ensures_putIf (fun z hz hversion hassumes => ?_)
    (fun z z' hz hversion _ => ensures_note fun _ _ => ensures_throw fun _ _ => ?_)
    fun z z' hz hup _ => absurd (Bylaw.Inv.own hz.inv).2 (by rw [hup]; exact Bool.false_ne_true)
  · have hz' : Intact base z := hy'.rests hy.inv hz.rests
    rw [hz'] at hversion
    have hat : (storeOf base).mappingAt s = none :=
      Memory.mappingAt_eq_none_iff.2 (Option.map_eq_none_iff.1 hversion)
    obtain ⟨hinv, hgrows⟩ := answering_written hz.inv hassumes
    refine ⟨hinv, hgrows, ensures_putIf (fun z₁ hz₁ _ hassumes₁ => ?_)
      (fun z₁ z₂ hz₁ hversion₁ _ => absurd ?_ hversion₁)
      fun z₁ _ hz₁ hup _ =>
        absurd (Bylaw.Inv.own hz₁.inv).2 (by rw [hup]; exact Bool.false_ne_true)⟩
    · obtain ⟨hinv₁, hgrows₁⟩ := answering_written hz₁.inv hassumes₁
      exact ⟨hinv₁, hgrows₁, ensures_count fun _ _ => ensures_note fun _ _ =>
        ensures_pure fun _ _ => trivial⟩
    -- There is no session in the meeting of an id that is not mapped.
    · have hvacant : (storeOf base).lookup (sessionKey meeting.id) = none := by
        have habsent : Resolution.absent =
            .read mode ((storeOf base).lookup (mappingKey s)) := by
          rw [Memory.mappingAt_eq_none_iff.1 hat]
          rfl
        have hway := way_of_obtained hx.assumes (Bylaw.Inv.own hx.inv).1 hnew habsent
          (fun _ _ h => nomatch h) hobtained
        rcases hway with ⟨-, version, hstale⟩ | ⟨-, hvacant⟩
        · exact nomatch hstale
        · exact hvacant
      rw [solitude_lookup_of_rests hinv hz₁.rests]
      refine Option.map_eq_none_iff.2 ((Memory.lookup_insert_mapping ..).trans ?_)
      exact (hz' _).trans hvacant
  · intro hnone
    rw [hy'.rests hy.inv hz.rests, hnone] at hversion
    exact hversion rfl

/-! ### What comes of requests that run alone -/

/-- A join came in at its first attempt. -/
structure CameIn (m : Memory) (j : Joiner) (entries : List Entry) (reply : JoinReply) : Prop where
  attempt : ∃ early late m' added held, entries = early ++ late ∧
    Alone m (j.attempt none).run early m' (.ok (.joined reply.session added, held)) ∧
    ∀ e ∈ late, Idle e.call
  member : reply.session.hasMember j.userId = true

/-- What comes of a join that is accepted and runs alone. -/
structure Recovers (m : Memory) (j : Joiner) (entries : List Entry) (m' : Memory)
    (result : Except ServiceError JoinReply) : Prop where
  answer : (∃ reply, result = .ok reply ∧ CameIn m j entries reply) ∨ result = .error .sessionFull
  full_iff : result = .error .sessionFull ↔ ∃ k x, LandsAt m j.mode j.sessionId entries k ∧
    m.sessionAt k = some x ∧ x.users.length = capacity
  unchanged : result = .error .sessionFull → ∀ key, m'.lookup key = m.lookup key

/-- Whatever was left behind, who runs alone gets through. -/
structure Unwedged (appId : String) (σ : System) : Prop where
  /-- Whatever is answered, a job that runs alone comes to an end. -/
  ends : ∀ (job : Job) (o : Oracle), ∃ entries m' outcome,
    Alone σ.store (job.program appId) entries m' outcome ∧
      o.Spoke σ.tasks.length (.start job :: σ.past) entries
  join : ∀ mode s r userId entries m' outcome, r.validate = .ok userId →
    Alone σ.store ((Job.join mode s r).program appId) entries m' outcome →
    FreshGrants (aloneAfter σ.tasks.length (.join mode s r) entries σ.past) →
    ∃ result, outcome = .joined result ∧
      Recovers σ.store ⟨mode, s, userId, r.iconUrl⟩ entries m' result
  /-- A create comes through if the id that it draws is not mapped. -/
  create : ∀ mode entries m' outcome,
    Alone σ.store ((Job.create mode).program appId) entries m' outcome →
    FreshGrants (aloneAfter σ.tasks.length (.create mode) entries σ.past) →
    (∀ s, ⟨.freshId, s⟩ ∈ entries → σ.store.lookup (mappingKey s) = none) →
    ∃ x, outcome = .created (.ok x)

section Run

variable {appId : String} {σ : System} {job : Job} {entries : List Entry} {m' : Memory}
variable {outcome : Outcome}

/-- Whoever starts finds every record as it is. -/
theorem inv_start_of_run (hrun : Run appId {} σ) (hup : σ.store.available = true) (job : Job) :
    (solitude (.start job :: σ.past) σ.tasks.length).Inv ⟨σ.store, .start job :: σ.past⟩ where
  replay := storeOf_of_run (σ := ⟨σ.world.next (.start job), _⟩) (hrun.tail (.start σ job))
  own := ⟨List.suffix_refl _, hup⟩

/-- Starting a job changes no record. -/
theorem intact_start_of_run (hrun : Run appId {} σ) (job : Job) :
    Intact (.start job :: σ.past) ⟨σ.store, .start job :: σ.past⟩ := by
  have hstore : σ.store = storeOf (.start job :: σ.past) :=
    storeOf_of_run (σ := ⟨σ.world.next (.start job), _⟩) (hrun.tail (.start σ job))
  exact fun key => congrArg (fun m => m.lookup key) hstore

/-- A join that runs alone after a run keeps to what is assumed of a task alone. The run before it
makes the records sound. -/
theorem solitude_assumes_of_run (hrun : Run appId {} σ)
    (halone : Alone σ.store (job.program appId) entries m' outcome)
    (hfresh : FreshGrants (aloneAfter σ.tasks.length job entries σ.past)) :
    (solitude (.start job :: σ.past) σ.tasks.length).Assumes
      (aloneAfter σ.tasks.length job entries σ.past) where
  kept := kept_of_run (hrun.trans (run_of_alone halone))
  fresh := hfresh
  own act hact := by
    obtain ⟨new, hnew, hmem⟩ := hact
    rw [aloneAfter] at hnew
    rw [← List.append_cancel_right hnew] at hmem
    obtain ⟨e, -, rfl⟩ := List.mem_map.1 (List.mem_reverse.1 hmem)
    exact ⟨e, rfl⟩

theorem own_start_of_run (hrun : Run appId {} σ) (job : Job) :
    own σ.tasks.length (.start job :: σ.past) = [] :=
  (underway_of_run hrun).new _ (Nat.le_refl _)

/-- A task that ran alone was told exactly the entries of its run. -/
theorem own_aloneAfter (hrun : Run appId {} σ) (job : Job) (entries : List Entry) :
    own σ.tasks.length (aloneAfter σ.tasks.length job entries σ.past) = entries.reverse := by
  rw [aloneAfter, ← List.map_reverse, own_append, own_map_answer, own_start_of_run hrun job,
    List.append_nil]

/-- A session with all places taken is there. -/
theorem exists_full {past : List Act} (hsound : Sound (worldOf past)) (hfresh : FreshGrants past)
    (hfull : capacity ≤ (rosterAt (storeOf past) k).length) :
    ∃ x, (storeOf past).sessionAt k = some x ∧ x.users.length = capacity := by
  cases hx : (storeOf past).sessionAt k with
  | none =>
    rw [rosterAt, hx] at hfull
    exact absurd hfull (by decide)
  | some x =>
    rw [rosterAt_of_sessionAt hx] at hfull
    obtain ⟨v, hlookup, hdecode⟩ := Memory.lookup_of_sessionAt hx
    have hroom := (hsound.housed_of_decode hfresh hlookup hdecode).proper.room
    exact ⟨x, rfl, Nat.le_antisymm hroom hfull⟩

/-- A join that runs alone asks for a meeting once at most. -/
theorem countP_asksMeeting_of_alone (hrun : Run appId {} σ) {mode : Mode} {s : String}
    {r : JoinRequest}
    (halone : Alone σ.store ((Job.join mode s r).program appId) entries m' outcome) :
    entries.countP asksMeeting ≤ 1 := by
  have hlast : (σ.tasks ++ [Task.mk (.join mode s r) (.done outcome)])[σ.tasks.length]? =
      some ⟨.join mode s r, .done outcome⟩ := List.getElem?_concat_length
  have hobeyed := obeyed_of_run (hrun.trans (run_of_alone halone)) hlast
  rw [← List.countP_reverse, ← own_aloneAfter hrun (.join mode s r) entries]
  exact countP_asksMeeting hobeyed

/-- A join that is accepted and runs alone comes in, or finds the session full. -/
theorem recovers_of_run (hrun : Run appId {} σ) (hup : σ.store.available = true) {mode : Mode}
    {s userId : String} {r : JoinRequest} (hvalid : r.validate = .ok userId)
    (halone : Alone σ.store ((Job.join mode s r).program appId) entries m' outcome)
    (hfresh : FreshGrants (aloneAfter σ.tasks.length (.join mode s r) entries σ.past)) :
    ∃ result, outcome = .joined result ∧
      Recovers σ.store ⟨mode, s, userId, r.iconUrl⟩ entries m' result := by
  have honce := countP_asksMeeting_of_alone hrun halone
  have hassumes := solitude_assumes_of_run hrun halone hfresh
  have hbase : Sound (worldOf (.start (.join mode s r) :: σ.past)) :=
    hassumes.kept.sound _ (List.suffix_append _ _)
  have hinv := inv_start_of_run hrun hup (.join mode s r)
  have hstore : storeOf (.start (.join mode s r) :: σ.past) = σ.store := hinv.replay.symm
  have hattempt := ensures_attempt_alone (j := ⟨mode, s, userId, r.iconUrl⟩)
    (own_start_of_run hrun _) hinv (intact_start_of_run hrun _)
  -- The first attempt comes first.
  obtain ⟨result, rfl, hjoin⟩ := Alone.exists_map halone
  refine ⟨result, rfl, ?_⟩
  obtain ⟨early, m₁, a, late, rfl, hfirst, hfollows⟩ := hjoin.exists_attempt hvalid
  have hsuffix : aloneAfter σ.tasks.length (.join mode s r) early σ.past <:+
      aloneAfter σ.tasks.length (.join mode s r) (early ++ late) σ.past := by
    rw [aloneAfter, aloneAfter, List.map_append, List.reverse_append, List.append_assoc]
    exact List.suffix_append _ _
  have hpost := hattempt.alone hfirst hinv (assumes_of_suffix
    (D := (solitude (.start (.join mode s r) :: σ.past) σ.tasks.length).discipline)
    hassumes hsuffix)
  have hown := own_aloneAfter hrun (.join mode s r) early
  have hsubset : early.reverse ⊆ early ++ late := fun e he =>
    List.mem_append_left late (List.mem_reverse.1 he)
  rw [aloneAfter] at hown
  cases hfollows with
  | failed e _ =>
    obtain ⟨k, hlands, rfl, hfull, hkept⟩ := hpost
    obtain ⟨x, hx, hlength⟩ := exists_full hbase (hfresh.of_suffix (List.suffix_append _ _)) hfull
    rw [hown] at hlands
    rw [Intact, hstore] at hkept
    rw [hstore] at hlands hx
    exact ⟨.inr rfl, ⟨fun _ => ⟨k, x, hlands.subset hsubset, hx, hlength⟩, fun _ => rfl⟩,
      fun _ => hkept⟩
  | joined added held reply hidle =>
    obtain ⟨k, hway, y, _, hsame, hmember, hroom⟩ := hpost
    obtain ⟨rfl, rfl⟩ := Attempt.joined.inj hsame
    rw [hown] at hway
    rw [hstore] at hway hroom
    refine ⟨.inl ⟨reply, rfl, ⟨early, late, _, added, held, rfl, hfirst, hidle⟩, hmember⟩,
      ⟨fun h => (by cases h), ?_⟩, fun h => (by cases h)⟩
    rintro ⟨k', x, hlands, hx, hlength⟩
    obtain rfl := (hway.subset hsubset).eq_of_landsAt honce hlands
    rw [rosterAt_of_sessionAt hx, hlength] at hroom
    exact absurd hroom (Nat.lt_irrefl _)
  | raced held late m' result =>
    obtain ⟨k, _, _, _, hsame, _⟩ := hpost
    cases hsame

/-- A create that runs alone comes through if the id that it draws is not mapped. -/
theorem created_of_run (hrun : Run appId {} σ) (hup : σ.store.available = true) {mode : Mode}
    (halone : Alone σ.store ((Job.create mode).program appId) entries m' outcome)
    (hfresh : FreshGrants (aloneAfter σ.tasks.length (.create mode) entries σ.past))
    (hunused : ∀ s, ⟨.freshId, s⟩ ∈ entries → σ.store.lookup (mappingKey s) = none) :
    ∃ x, outcome = .created (.ok x) := by
  have hassumes := solitude_assumes_of_run hrun halone hfresh
  have hinv := inv_start_of_run hrun hup (.create mode)
  have hstore : storeOf (.start (.create mode) :: σ.past) = σ.store := hinv.replay.symm
  have hcreate := ensures_create_alone mode (own_start_of_run hrun _) hinv
    (intact_start_of_run hrun _)
  obtain ⟨result, rfl, halone'⟩ := Alone.exists_map halone
  have hpost := hcreate.alone halone' hinv hassumes
  cases result with
  | ok x => exact ⟨x, rfl⟩
  | error e =>
    -- A create fails only where its id is mapped, and the id it drew is not.
    obtain ⟨s, hdrawn, hmapped⟩ := hpost
    have hown := own_aloneAfter hrun (.create mode) entries
    rw [aloneAfter] at hown
    rw [hown, List.mem_reverse] at hdrawn
    rw [hstore] at hmapped
    exact absurd (hunused s hdrawn) hmapped

end Run

/-- In every state of every run in which the store answers, who runs alone gets through, whatever
was left behind. -/
theorem unwedged_of_run {appId : String} {σ : System} (hrun : Run appId {} σ)
    (hup : σ.store.available = true) : Unwedged appId σ where
  ends job o := o.exists_alone σ.tasks.length (job.program appId) σ.store (.start job :: σ.past)
  join _ _ _ _ _ _ _ hvalid halone hfresh := recovers_of_run hrun hup hvalid halone hfresh
  create _ _ _ _ halone hfresh hunused := created_of_run hrun hup halone hfresh hunused

/-- A user who is given a meeting and writes the mapping to it, and is never heard of again. -/
def abandoned : System :=
  visited twoMeetings {} [⟨.real, "s", "u"⟩] [(0, 3)]

/-- A mapping that leads nowhere is in nobody's way. -/
theorem unwedged_abandoned :
    (abandoned.store.mappingAt "s" = some ⟨"m", .real⟩ ∧ abandoned.store.sessionAt "m" = none ∧
      abandoned.store.available = true) ∧ Unwedged "app" abandoned := by
  have hleft : abandoned.store.mappingAt "s" = some ⟨"m", .real⟩ ∧
      abandoned.store.sessionAt "m" = none ∧ abandoned.store.available = true := by
    decide +kernel
  exact ⟨hleft, unwedged_of_run (run_visited ..) hleft.2.2⟩

end VoiceRoom.Concurrency
