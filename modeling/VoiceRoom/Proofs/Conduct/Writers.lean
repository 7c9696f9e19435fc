import VoiceRoom.Proofs.Concurrency.Effects
import VoiceRoom.Proofs.Conduct.Provider

/-!
# Who writes the records of a session id

The past tells which tasks wrote a key (`writers`). A key holds what it held until it is written
once more (`lookup_of_writers`), and no task writes two sessions (`nodup_writers_append`).

The mapping of a session id and the sessions in its meetings are written by tasks about that session
id only (`concerns_of_mem_mapping`, `concerns_of_mem_session`). The mapping is written twice at most:
to the mock meeting first, if twice (`mapping_written`).
-/

namespace VoiceRoom.Concurrency

open Conduct
open Simulation (Entry)

variable {appId : String} {σ : System} {past past' : List Act} {i : Nat} {key s k : String}

/-! ### Writers -/

/-- Whether a key was written. -/
def writes (key : String) : Entry → Bool
  | ⟨.putIf key' _ _, .ok (.written _)⟩ => key' == key
  | _ => false

/-- A call writes a key if it is a put that was carried out. -/
theorem writes_iff {e : Entry} : writes key e = true ↔
    ∃ value expected n, e = ⟨.putIf key value expected, .ok (.written n)⟩ := by
  constructor
  · intro h
    unfold writes at h
    split at h
    · obtain rfl := eq_of_beq h
      exact ⟨_, _, _, rfl⟩
    · exact nomatch h
  · rintro ⟨value, expected, n, rfl⟩
    exact beq_self_eq_true key

/-- The task that writes a key, if one does. -/
def writer (key : String) : Act → Option Nat
  | .answer i e => if writes key e then some i else none
  | _ => none

/-- The tasks that wrote a key, one for each time, latest first. -/
def writers (key : String) (past : List Act) : List Nat :=
  past.filterMap (writer key)

/-- The writer of an act is the task whose put it carries out. -/
theorem writer_eq_some_iff {act : Act} : writer key act = some i ↔ ∃ value expected n,
    act = .answer i ⟨.putIf key value expected, .ok (.written n)⟩ := by
  constructor
  · intro h
    unfold writer at h
    split at h
    · rename_i e
      split at h
      · rename_i hwrites
        obtain ⟨value, expected, n, rfl⟩ := writes_iff.1 hwrites
        obtain rfl := Option.some.inj h
        exact ⟨value, expected, n, rfl⟩
      · exact nomatch h
    · exact nomatch h
  · rintro ⟨value, expected, n, rfl⟩
    exact if_pos (writes_iff.2 ⟨value, expected, n, rfl⟩)

/-- What a task was told is what it was answered. -/
theorem mem_own_iff {e : Entry} : e ∈ own i past ↔ .answer i e ∈ past := by
  constructor
  · intro h
    obtain ⟨before, hbefore⟩ := exists_suffix_of_mem_own h
    exact hbefore.subset List.mem_cons_self
  · exact fun h => List.mem_filterMap.2 ⟨_, h, if_pos rfl⟩

/-- A task is among the writers of a key if it was told so. -/
theorem mem_writers_iff : i ∈ writers key past ↔ ∃ value expected n,
    ⟨.putIf key value expected, .ok (.written n)⟩ ∈ own i past := by
  unfold writers
  simp only [List.mem_filterMap, writer_eq_some_iff, mem_own_iff]
  constructor
  · rintro ⟨_, hmem, value, expected, n, rfl⟩
    exact ⟨value, expected, n, hmem⟩
  · rintro ⟨value, expected, n, hmem⟩
    exact ⟨_, hmem, value, expected, n, rfl⟩

theorem writers_suffix (key : String) (h : past <:+ past') :
    writers key past <:+ writers key past' :=
  h.filterMap _

theorem length_writers_le (key : String) (h : past <:+ past') :
    (writers key past).length ≤ (writers key past').length :=
  (writers_suffix key h).length_le

/-- Acts that do not write the key add no writer. -/
theorem writers_cons_of_none {act : Act} (h : writer key act = none) (past : List Act) :
    writers key (act :: past) = writers key past :=
  List.filterMap_cons_none h

/-- An act that writes the key adds its writer. -/
theorem writers_cons_of_some {act : Act} (h : writer key act = some i) (past : List Act) :
    writers key (act :: past) = i :: writers key past :=
  List.filterMap_cons_some h

/-- A key holds what it held until it is written once more. -/
theorem lookup_of_writers (hkept : Kept past') (hsuffix : past <:+ past')
    (h : (writers key past').length = (writers key past).length) :
    (storeOf past').lookup key = (storeOf past).lookup key := by
  obtain ⟨new, rfl⟩ := hsuffix
  induction new with
  | nil => rfl
  | cons act new ih =>
    have hbefore := length_writers_le key (List.suffix_append new past)
    rw [List.cons_append] at hkept h ⊢
    cases hwriter : writer key act with
    | some i =>
      rw [writers_cons_of_some hwriter, List.length_cons] at h
      -- a new writer would make the list longer
      omega
    | none =>
      rw [writers_cons_of_none hwriter] at h
      have hlast := lookup_next_of_spared key (hkept.allowed act _ (List.suffix_refl _))
        fun i value expected n hact => by
          rw [writer_eq_some_iff.2 ⟨value, expected, n, hact⟩] at hwriter
          exact nomatch hwriter
      rw [← storeOf_cons (w := worldOf (new ++ past)) rfl] at hlast
      exact hlast.trans (ih (hkept.of_suffix (List.suffix_cons _ _)) h)

/-- A key that holds another version was written. -/
theorem length_writers_lt (hkept : Kept past') (hsuffix : past <:+ past')
    (h : ((storeOf past').lookup key).map Versioned.version ≠
      ((storeOf past).lookup key).map Versioned.version) :
    (writers key past).length < (writers key past').length := by
  refine Nat.lt_of_le_of_ne (length_writers_le key hsuffix) fun hsame => h ?_
  rw [lookup_of_writers hkept hsuffix hsame.symm]

/-- A key that holds something was written. -/
theorem exists_writer (hkept : Kept past) (h : (storeOf past).lookup key ≠ none) :
    ∃ i, i ∈ writers key past := by
  refine List.exists_mem_of_ne_nil _ fun hnil => h ?_
  rw [lookup_of_writers hkept (List.nil_suffix) (by rw [hnil]; rfl)]
  rfl

/-- A key that was written holds something. -/
theorem lookup_ne_none_of_mem (hkept : Kept past) (h : i ∈ writers key past) :
    (storeOf past).lookup key ≠ none := by
  obtain ⟨value, expected, n, hmem⟩ := mem_writers_iff.1 h
  obtain ⟨old, hsuffix⟩ := exists_suffix_of_mem_own hmem
  have hstore := (next_of_written (hkept.allowed _ old hsuffix)).1
  rw [← storeOf_cons (w := worldOf old) rfl] at hstore
  have hlookup : (storeOf (.answer i ⟨.putIf key value expected, .ok (.written n)⟩ :: old)).lookup
      key = some ⟨value, n⟩ := by
    rw [worldOf] at hstore
    rw [hstore, Memory.lookup_insert, if_pos rfl]
  obtain ⟨v, hv, -⟩ := (hkept.grows _ _ hsuffix (List.suffix_refl _)).store key _ hlookup
  rw [show (storeOf past).lookup key = some v from hv]
  exact Option.some_ne_none v

/-- A key without a record was written by nobody. -/
theorem writers_eq_nil (hkept : Kept past) (h : (storeOf past).lookup key = none) :
    writers key past = [] := by
  refine List.eq_nil_iff_forall_not_mem.2 fun i hi => ?_
  exact lookup_ne_none_of_mem hkept hi h

/-! ### No task writes two sessions -/

theorem count_writers (key : String) (i : Nat) (past : List Act) :
    (writers key past).count i = tally (writes key) i past := by
  induction past with
  | nil => rfl
  | cons act past ih =>
    cases act with
    | start job => exact ih
    | switch available => exact ih
    | answer j e =>
      -- Both sides count one more if the key is written, and it is this task that writes it.
      cases hwrites : writes key e with
      | true =>
        have hwriter : writer key (.answer j e) = some j := if_pos hwrites
        rw [writers_cons_of_some hwriter]
        by_cases hj : j = i
        · subst hj
          rw [tally_answer_self, if_pos hwrites, List.count_cons_self, ih]
        · rw [tally_answer_of_ne hj, List.count_cons_of_ne hj, ih]
      | false =>
        have hne : ¬ writes key e = true := by rw [hwrites]; exact Bool.false_ne_true
        have hwriter : writer key (.answer j e) = none := if_neg hne
        rw [writers_cons_of_none hwriter, ih]
        by_cases hj : j = i
        · subst hj
          rw [tally_answer_self, if_neg hne, Nat.add_zero]
        · rw [tally_answer_of_ne hj]

/-- What is counted once at most in either of two ways is counted in a third. -/
theorem tally_add_le {p q r : Entry → Bool} (hp : ∀ e, p e = true → r e = true)
    (hq : ∀ e, q e = true → r e = true) (hpq : ∀ e, p e = true → q e = false) (i : Nat)
    (past : List Act) : tally p i past + tally q i past ≤ tally r i past := by
  unfold tally
  induction own i past with
  | nil => exact Nat.le_refl 0
  | cons e told ih =>
    have hone : (if p e then 1 else 0) + (if q e then 1 else 0) ≤ if r e then 1 else 0 := by
      cases hpe : p e with
      | true => rw [hpq e hpe, hp e hpe]; decide
      | false =>
        cases hqe : q e with
        | true => rw [hq e hqe]; decide
        | false => exact Nat.zero_le _
    simp only [List.countP_cons]
    omega

/-- Writing a session is seating somebody. -/
theorem seats_of_writes {e : Entry} (h : writes (sessionKey k) e = true) : seats e = true := by
  obtain ⟨value, expected, n, rfl⟩ := writes_iff.1 h
  exact isSessionKey_sessionKey k

/-- No task wrote a session twice. -/
theorem nodup_writers (k : String) (honce : ∀ i, tally seats i past ≤ 1) :
    (writers (sessionKey k) past).Nodup := by
  refine List.nodup_iff_count_le_one.2 fun i => ?_
  rw [count_writers]
  exact (List.countP_mono_left fun e _ => seats_of_writes).trans (honce i)

/-- No task wrote sessions in two meetings. -/
theorem nodup_writers_append {k k' : String} (hk : k ≠ k')
    (honce : ∀ i, tally seats i past ≤ 1) :
    (writers (sessionKey k) past ++ writers (sessionKey k') past).Nodup := by
  refine List.nodup_iff_count_le_one.2 fun i => ?_
  rw [List.count_append, count_writers, count_writers]
  refine (tally_add_le (fun _ => seats_of_writes) (fun _ => seats_of_writes) (fun e h => ?_) i
    past).trans (honce i)
  obtain ⟨value, expected, n, rfl⟩ := writes_iff.1 h
  exact beq_eq_false_iff_ne.2 fun h => hk (sessionKey_inj.1 h)

/-- Who wrote a session has seated somebody. -/
theorem tally_pos_of_mem (h : i ∈ writers (sessionKey k) past) : 0 < tally seats i past := by
  obtain ⟨value, expected, n, hmem⟩ := mem_writers_iff.1 h
  exact List.countP_pos_iff.2 ⟨_, hmem, isSessionKey_sessionKey k⟩

/-- Who made a roster longer wrote the session. -/
theorem mem_writers_of_appenders (hkept : Kept past) (h : i ∈ appenders k past) :
    i ∈ writers (sessionKey k) past := by
  have hallowed := hkept.allowed
  rw [← List.append_nil past] at h hallowed
  obtain ⟨l, hl, hwrote⟩ := appenders_append (k := k) hallowed
  rw [hl, appenders, List.append_nil] at h
  obtain ⟨value, expected, n, hmem⟩ := hwrote i h
  exact mem_writers_iff.2 ⟨value, expected, n, mem_own_iff.2 hmem⟩

/-! ### Who is about a session id -/

/-- A task is about a session id: it joins it, or it drew it to create a session. -/
def Concerns (σ : System) (s : String) (i : Nat) : Prop :=
  (∃ mode r rest, σ.tasks[i]? = some ⟨.join mode s r, rest⟩) ∨ ⟨.freshId, s⟩ ∈ own i σ.past

/-- Only tasks are told anything. -/
theorem exists_task_of_mem_own (hrun : Run appId {} σ) {e : Entry} (h : e ∈ own i σ.past) :
    ∃ t, σ.tasks[i]? = some t := by
  have hi : i < σ.tasks.length := by
    by_contra hi
    rw [(underway_of_run hrun).new i (Nat.not_lt.1 hi)] at h
    exact nomatch h
  exact ⟨_, List.getElem?_eq_getElem hi⟩

/-- A join draws no session id. -/
theorem not_drawn_of_join (hrun : Run appId {} σ) {mode : Mode} {s' : String} {r : JoinRequest}
    {rest : Program Outcome} (ht : σ.tasks[i]? = some ⟨.join mode s' r, rest⟩) :
    ⟨.freshId, s⟩ ∉ own i σ.past := by
  intro hdrawn
  obtain ⟨before, hbefore⟩ := exists_suffix_of_mem hdrawn
  exact obeyed_of_run hrun ht _ before hbefore

/-- What a task wrote, it could record for a session id that it is about. -/
theorem recordable_of_written (hrun : Run appId {} σ) {value : String} {expected : Option Nat}
    {n : Nat} {before : List Act}
    (h : .answer i ⟨.putIf key value expected, .ok (.written n)⟩ :: before <:+ σ.past) :
    ∃ t s, σ.tasks[i]? = some t ∧ Concerns σ s i ∧
      Recordable t.job.mode s (own i before) key value expected := by
  have hsuffix := own_cons_suffix h
  obtain ⟨t, ht⟩ := exists_task_of_mem_own hrun (hsuffix.subset List.mem_cons_self)
  have hpermits := obeyed_of_run hrun ht _ _ hsuffix
  obtain ⟨job, rest⟩ := t
  cases job with
  | join mode s r => exact ⟨_, s, ht, .inl ⟨mode, r, rest, ht⟩, hpermits⟩
  | create mode =>
    obtain ⟨s, hdrawn, hrecordable⟩ := hpermits
    have hbefore := (List.suffix_cons _ _).trans hsuffix
    exact ⟨_, s, ht, .inr (hbefore.subset hdrawn), hrecordable⟩

/-- A mapping is written for its session id only. -/
theorem recordable_mappingKey_iff {mode : Mode} {s' : String} {told : List Entry} {value : String}
    {expected : Option Nat} : Recordable mode s' told (mappingKey s) value expected ↔
      s' = s ∧ ∃ mapping : Mapping, value = mapping.encode ∧ Obtained mode s told mapping ∧
        Replaces s told mapping expected := by
  constructor
  · intro h
    generalize hkey : mappingKey s = key at h
    cases h with
    | mapping mapping expected hobtained hreplaces =>
      obtain rfl := mappingKey_inj.1 hkey
      exact ⟨rfl, mapping, rfl, hobtained, hreplaces⟩
    | session => exact absurd hkey (mappingKey_ne_sessionKey _ _)
  · rintro ⟨rfl, mapping, rfl, hobtained, hreplaces⟩
    exact .mapping mapping expected hobtained hreplaces

/-- A session is written in a meeting that is known only. -/
theorem known_of_recordable {mode : Mode} {told : List Entry} {value : String}
    {expected : Option Nat} (h : Recordable mode s told (sessionKey k) value expected) :
    ∃ kind, Known mode s told ⟨k, kind⟩ := by
  generalize hkey : sessionKey k = key at h
  cases h with
  | mapping => exact absurd hkey.symm (mappingKey_ne_sessionKey _ _)
  | session mapping value expected hknown =>
    obtain rfl := sessionKey_inj.1 hkey
    exact ⟨mapping.kind, hknown⟩

/-- Sessions in the meetings of a session id are written by tasks about it only, who know the
meeting. -/
theorem known_of_mem_session (hrun : Run appId {} σ) (hfresh : FreshGrants σ.past)
    {kind : MeetingKind} (hgiven : Given σ.past s ⟨k, kind⟩)
    (h : i ∈ writers (sessionKey k) σ.past) : Concerns σ s i ∧ ∃ t kind', σ.tasks[i]? = some t ∧
      Known t.job.mode s (own i σ.past) ⟨k, kind'⟩ := by
  obtain ⟨value, expected, n, hmem⟩ := mem_writers_iff.1 h
  obtain ⟨before, hsuffix⟩ := exists_suffix_of_mem_own hmem
  have hbefore := (List.suffix_cons _ _).trans hsuffix
  obtain ⟨t, s', ht, hconcerns, hrecordable⟩ := recordable_of_written hrun hsuffix
  obtain ⟨kind', hknown⟩ := known_of_recordable hrecordable
  have hgiven' := hknown.given ((kept_of_run hrun).of_suffix hbefore)
  obtain ⟨rfl, -⟩ := Given.unique hfresh hgiven (hgiven'.of_suffix hbefore)
  exact ⟨hconcerns, t, kind', ht, hknown.suffix (hbefore.filterMap _)⟩

/-! ### How often a mapping is written -/

/-- A task wrote a mapping for a session id. -/
def Mapped (past : List Act) (s : String) (i : Nat) (mapping : Mapping) : Prop :=
  ∃ expected n, ⟨.putIf (mappingKey s) mapping.encode expected, .ok (.written n)⟩ ∈ own i past

theorem Mapped.of_suffix {mapping : Mapping} (h : Mapped past s i mapping)
    (hsuffix : past <:+ past') : Mapped past' s i mapping := by
  obtain ⟨expected, n, hmem⟩ := h
  exact ⟨expected, n, (hsuffix.filterMap _).subset hmem⟩

/-- Who writes a mapping is about the session id, obtained the meeting, and moves the mapping. -/
theorem moves_of_written (hrun : Run appId {} σ) {value : String} {expected : Option Nat} {n : Nat}
    {before : List Act}
    (h : .answer i ⟨.putIf (mappingKey s) value expected, .ok (.written n)⟩ :: before <:+ σ.past) :
    Concerns σ s i ∧ ∃ t mapping, σ.tasks[i]? = some t ∧ value = mapping.encode ∧
      Obtained t.job.mode s (own i before) mapping ∧
      (storeOf (.answer i ⟨.putIf (mappingKey s) value expected, .ok (.written n)⟩ ::
        before)).mappingAt s = some mapping ∧
      Moves s ((storeOf before).mappingAt s) (some mapping) := by
  have hkept := (kept_of_run hrun).of_suffix h
  obtain ⟨t, s', ht, hconcerns, hrecordable⟩ := recordable_of_written hrun h
  obtain ⟨rfl, mapping, rfl, hobtained, hreplaces⟩ := recordable_mappingKey_iff.1 hrecordable
  obtain ⟨hstore, hversion, -⟩ := next_of_written (hkept.allowed _ before (List.suffix_refl _))
  have hgrows := hkept.grows before _ (List.suffix_cons _ _) (List.suffix_refl _)
  have hat : (storeOf (.answer i ⟨.putIf (mappingKey s') mapping.encode expected,
      .ok (.written n)⟩ :: before)).mappingAt s' = some mapping := by
    rw [← storeOf_cons (w := worldOf before) rfl] at hstore
    rw [worldOf] at hstore
    rw [hstore, Memory.mappingAt_insert_encode, if_pos rfl]
  refine ⟨hconcerns, t, mapping, ht, rfl, hobtained, hat, ?_⟩
  have hmoved := hgrows.mapping s'
  rw [show (worldOf (_ :: before)).store.mappingAt s' = some mapping from hat] at hmoved
  refine hmoved.resolve_left fun hsame => ?_
  -- The mapping that was replaced is none, or the other one that was read.
  rcases hreplaces with rfl | ⟨v, hread, rfl, hother⟩
  · have hnone := Memory.mappingAt_eq_none_iff.2 (Option.map_eq_none_iff.1 hversion)
    exact absurd (hsame.trans hnone) (Option.some_ne_none mapping)
  · obtain ⟨p, hp⟩ := exists_suffix_of_mem_own hread
    have hget : Except.ok (some v) = (storeOf p).get (mappingKey s') :=
      hkept.allowed _ p (hp.trans (List.suffix_cons _ _))
    have hsaw := Memory.saw_of_lookup (Memory.lookup_of_get hget.symm)
    have hlater := hkept.grows p before ((List.suffix_cons _ _).trans hp) (List.suffix_cons _ _)
    have hlookup := (hsaw.advance hlater.store).lookup_eq hversion
    have hbefore := Memory.mappingAt_of_lookup hlookup
    exact hother (Option.some.inj (hbefore.symm.trans hsame.symm))

/-- Mappings are written by tasks about the session id only. -/
theorem concerns_of_mem_mapping (hrun : Run appId {} σ)
    (h : i ∈ writers (mappingKey s) σ.past) : Concerns σ s i := by
  obtain ⟨value, expected, n, hmem⟩ := mem_writers_iff.1 h
  obtain ⟨before, hsuffix⟩ := exists_suffix_of_mem_own hmem
  exact (moves_of_written hrun hsuffix).1

theorem Mapped.mem_writers {mapping : Mapping} (h : Mapped past s i mapping) :
    i ∈ writers (mappingKey s) past := by
  obtain ⟨expected, n, hmem⟩ := h
  exact mem_writers_iff.2 ⟨_, expected, n, hmem⟩

/-- Who wrote a mapping obtained the meeting. -/
theorem Mapped.obtained (hrun : Run appId {} σ) {mapping : Mapping} (h : Mapped σ.past s i mapping)
    {t : Task} (ht : σ.tasks[i]? = some t) :
    Obtained t.job.mode s (own i σ.past) mapping := by
  obtain ⟨expected, n, hmem⟩ := h
  obtain ⟨before, hsuffix⟩ := exists_suffix_of_mem_own hmem
  obtain ⟨-, t', mapping', ht', hencode, hobtained, -⟩ := moves_of_written hrun hsuffix
  obtain rfl := Option.some.inj (ht.symm.trans ht')
  have hmapping : mapping = mapping' := by
    rw [← Mapping.decode_encode mapping, hencode, Mapping.decode_encode]
  rw [hmapping]
  exact hobtained.suffix ((List.suffix_cons _ _).trans (own_cons_suffix hsuffix))

/-- Who wrote the mapping of a session id, latest first, and what it is: nobody, one task, or one
that wrote the mock mapping and one that put a real one in its place. -/
inductive MappedBy (past : List Act) (s : String) : List Nat → Option Mapping → Prop where
  | none : MappedBy past s [] none
  | once {i : Nat} {mapping : Mapping} (h : Mapped past s i mapping) :
      MappedBy past s [i] (some mapping)
  | twice {i j : Nat} {meetingId : String} (hmock : Mapped past s i ⟨mockMeetingId s, .mock⟩)
      (hreal : Mapped past s j ⟨meetingId, .real⟩) :
      MappedBy past s [j, i] (some ⟨meetingId, .real⟩)

theorem MappedBy.of_suffix {l : List Nat} {mapping : Option Mapping} (h : MappedBy past s l mapping)
    (hsuffix : past <:+ past') : MappedBy past' s l mapping := by
  cases h with
  | none => exact .none
  | once h => exact .once (h.of_suffix hsuffix)
  | twice hmock hreal => exact .twice (hmock.of_suffix hsuffix) (hreal.of_suffix hsuffix)

/-- Whoever moves the mapping comes next. -/
theorem MappedBy.moves {l : List Nat} {before : Option Mapping} {mapping : Mapping}
    (h : MappedBy past s l before) (hmoves : Moves s before (some mapping))
    (hmapped : Mapped past s i mapping) : MappedBy past s (i :: l) (some mapping) := by
  cases hmoves with
  | mock => cases h with | none => exact .once hmapped
  | real meetingId => cases h with | none => exact .once hmapped
  | promote meetingId => cases h with | once hmock => exact .twice hmock hmapped

/-- The mapping of a session id is written twice at most. -/
theorem mappedBy_of_run (hrun : Run appId {} σ) (s : String) :
    MappedBy σ.past s (writers (mappingKey s) σ.past) (σ.store.mappingAt s) := by
  -- It is shown of every world that the run went through.
  suffices h : ∀ past, past <:+ σ.past →
      MappedBy past s (writers (mappingKey s) past) ((storeOf past).mappingAt s) by
    rw [storeOf_of_run hrun]
    exact h σ.past (List.suffix_refl _)
  intro past
  induction past with
  | nil => exact fun _ => .none
  | cons act past ih =>
    intro hsuffix
    have hbefore := (ih ((List.suffix_cons act past).trans hsuffix)).of_suffix
      (List.suffix_cons act past)
    cases hwriter : writer (mappingKey s) act with
    | some i =>
      obtain ⟨value, expected, n, rfl⟩ := writer_eq_some_iff.1 hwriter
      obtain ⟨-, t, mapping, -, rfl, -, hat, hmoves⟩ := moves_of_written hrun hsuffix
      rw [writers_cons_of_some hwriter, hat]
      exact hbefore.moves hmoves ⟨expected, n, mem_own_iff.2 List.mem_cons_self⟩
    | none =>
      have hsame : (writers (mappingKey s) (act :: past)).length =
          (writers (mappingKey s) past).length := by rw [writers_cons_of_none hwriter]
      have hlookup := lookup_of_writers ((kept_of_run hrun).of_suffix hsuffix)
        (List.suffix_cons act past) hsame
      rw [writers_cons_of_none hwriter, Memory.mappingAt, hlookup]
      exact hbefore

/-- Somebody wrote the mapping that is there. -/
theorem exists_mapped (hrun : Run appId {} σ) {mapping : Mapping}
    (hat : σ.store.mappingAt s = some mapping) : ∃ i, Mapped σ.past s i mapping := by
  have hmapped := mappedBy_of_run hrun s
  rw [hat] at hmapped
  generalize writers (mappingKey s) σ.past = l at hmapped
  cases hmapped with
  | once h => exact ⟨_, h⟩
  | twice _ hreal => exact ⟨_, hreal⟩

/-- A meeting in which a session is was obtained by a task about the session id. -/
theorem exists_obtained (hrun : Run appId {} σ) (hfresh : FreshGrants σ.past) {kind : MeetingKind}
    (hgiven : Given σ.past s ⟨k, kind⟩) (h : σ.store.lookup (sessionKey k) ≠ none) :
    ∃ i t kind', Concerns σ s i ∧ σ.tasks[i]? = some t ∧
      Obtained t.job.mode s (own i σ.past) ⟨k, kind'⟩ := by
  rw [storeOf_of_run hrun] at h
  obtain ⟨i, hi⟩ := exists_writer (kept_of_run hrun) h
  obtain ⟨hconcerns, t, kind', ht, hknown⟩ := known_of_mem_session hrun hfresh hgiven hi
  cases hknown with
  | obtained h => exact ⟨i, t, kind', hconcerns, ht, h⟩
  -- Who found the meeting found a mapping that somebody else wrote.
  | found v hread hdecode =>
    obtain ⟨past, hpast, hlookup⟩ := Shown.exists_lookup (kept_of_run hrun) (.read hread)
    obtain ⟨τ, rfl, hτ, -⟩ := exists_run_of_suffix hrun hpast
    have hat : τ.store.mappingAt s = some ⟨k, kind'⟩ := by
      rw [storeOf_of_run hτ, Memory.mappingAt_of_lookup hlookup, hdecode]
    obtain ⟨i', hbefore⟩ := exists_mapped hτ hat
    have hmapped : Mapped σ.past s i' ⟨k, kind'⟩ := hbefore.of_suffix hpast
    obtain ⟨t', ht'⟩ : ∃ t', σ.tasks[i']? = some t' := by
      obtain ⟨expected, n, hmem⟩ := hmapped
      exact exists_task_of_mem_own hrun hmem
    exact ⟨i', t', kind', concerns_of_mem_mapping hrun hmapped.mem_writers, ht',
      hmapped.obtained hrun ht'⟩

end VoiceRoom.Concurrency
