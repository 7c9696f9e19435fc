import VoiceRoom.Proofs.Concurrency.System
import VoiceRoom.Proofs.Conduct.Attempts

/-!
# The code of each request

A request writes a mapping only to a meeting that it obtained, and a session only in a meeting that
it obtained or found (`Recordable`). It asks the provider for a meeting once at most, and a join for
a token once at most, when it was shown a record with its user in it (`joining`, `creating`).

Every job abides by its code, and a join that is answered that another request was faster has lost a
write in each of its attempts (`abides_program`).
-/

namespace VoiceRoom

open Concurrency (Idle Job Outcome)
open Simulation (Entry)

/-! ### Questions to the provider -/

/-- Whether a call is a question to the provider. -/
def Call.asksProvider : Call → Bool
  | .createMeeting _ => true
  | .createParticipant .. => true
  | _ => false

namespace Conduct

/-- The questions to the provider, latest first. -/
def inquiries (told : List Entry) : List Entry :=
  told.filter fun e => e.call.asksProvider

theorem inquiries_cons {told : List Entry} {e : Entry} (h : e.call.asksProvider = false) :
    inquiries (e :: told) = inquiries told :=
  List.filter_cons_of_neg (by rw [h]; exact Bool.false_ne_true)

theorem inquiries_ask {told : List Entry} {e : Entry} (h : e.call.asksProvider = true) :
    inquiries (e :: told) = e :: inquiries told :=
  List.filter_cons_of_pos h

theorem inquiries_append {new told : List Entry} (h : ∀ e ∈ new, e.call.asksProvider = false) :
    inquiries (new ++ told) = inquiries told := by
  unfold inquiries
  rw [List.filter_append, List.filter_eq_nil_iff.2 fun e he => by simp [h e he], List.nil_append]

theorem Hushed.inquiries_eq {told told' : List Entry} (h : Hushed told told') :
    inquiries told' = inquiries told := by
  obtain ⟨new, rfl, hquiet⟩ := h
  refine inquiries_append fun e he => ?_
  have hcall := hquiet e he
  cases hc : e.call <;> rw [hc] at hcall <;> first | rfl | exact hcall.elim

theorem Learnt.inquiries_eq {key : String} {stored : Option Versioned} {told told' : List Entry}
    (h : Learnt key stored told told') : inquiries told' = inquiries told :=
  (Hushed.inquiries_eq h).trans (inquiries_cons rfl)

/-! ### What may be recorded -/

/-- A meeting was obtained for a session id: made up from it in mock mode, and in real mode given by
the provider or made up since the provider failed. -/
inductive Obtained (mode : Mode) (s : String) (told : List Entry) : Mapping → Prop where
  | skipped (hmode : mode = .mock) : Obtained mode s told ⟨mockMeetingId s, .mock⟩
  | given {meetingId : String} (hmode : mode = .real)
      (h : ⟨.createMeeting s, .ok meetingId⟩ ∈ told) : Obtained mode s told ⟨meetingId, .real⟩
  | refused (e : ProviderError) (hmode : mode = .real)
      (h : ⟨.createMeeting s, .error e⟩ ∈ told) : Obtained mode s told ⟨mockMeetingId s, .mock⟩

/-- A meeting was obtained for a session id, or found in the mapping of it. -/
inductive Known (mode : Mode) (s : String) (told : List Entry) (mapping : Mapping) : Prop where
  | obtained (h : Obtained mode s told mapping)
  | found (v : Versioned) (h : ⟨.get (mappingKey s), .ok (some v)⟩ ∈ told)
      (hdecode : Mapping.decode v.value = mapping)

/-- A mapping is to be written where none is, or over another one that was read. -/
def Replaces (s : String) (told : List Entry) (mapping : Mapping) (expected : Option Nat) : Prop :=
  expected = none ∨ ∃ v, ⟨.get (mappingKey s), .ok (some v)⟩ ∈ told ∧
    expected = some v.version ∧ Mapping.decode v.value ≠ mapping

/-- What may be written for a session id: a mapping to a meeting that was obtained, if it changes
the mapping, and a session in a meeting that is known. -/
inductive Recordable (mode : Mode) (s : String) (told : List Entry) :
    String → String → Option Nat → Prop where
  | mapping (mapping : Mapping) (expected : Option Nat) (h : Obtained mode s told mapping)
      (hreplaces : Replaces s told mapping expected) :
      Recordable mode s told (mappingKey s) mapping.encode expected
  | session (mapping : Mapping) (value : String) (expected : Option Nat)
      (h : Known mode s told mapping) :
      Recordable mode s told (sessionKey mapping.meetingId) value expected

section Suffix

variable {mode : Mode} {s : String} {told told' : List Entry} {mapping : Mapping}

theorem Obtained.suffix (h : Obtained mode s told mapping) (hsuffix : told <:+ told') :
    Obtained mode s told' mapping := by
  cases h with
  | skipped hmode => exact .skipped hmode
  | given hmode h => exact .given hmode (hsuffix.subset h)
  | refused e hmode h => exact .refused e hmode (hsuffix.subset h)

theorem Known.suffix (h : Known mode s told mapping) (hsuffix : told <:+ told') :
    Known mode s told' mapping := by
  cases h with
  | obtained h => exact .obtained (h.suffix hsuffix)
  | found v h hdecode => exact .found v (hsuffix.subset h) hdecode

end Suffix

/-! ### Codes -/

/-- The code of writing the records of a session id, with no question to the provider. -/
def recording (mode : Mode) (s : String) : Code where
  permits told
    | .putIf key value expected => Recordable mode s told key value expected
    | .createMeeting _ => False
    | .createParticipant .. => False
    | .freshId => False
    | _ => True
  harmless {told c} hc := by
    cases c <;> trivial

/-- The code of a join. -/
def joining (mode : Mode) (s : String) (r : JoinRequest) : Code where
  permits told
    | .putIf key value expected => Recordable mode s told key value expected
    -- The mapping was read last, and is none that counts in real mode.
    | .createMeeting title => mode = .real ∧ title = s ∧ inquiries told = [] ∧
        ∃ stored before, Learnt (mappingKey s) stored before told ∧
          ∀ v, stored = some v → (Mapping.decode v.value).kind = .mock
    | .createParticipant meetingId userId => mode = .real ∧ r.validate = .ok userId ∧
        (∀ e ∈ inquiries told, ∃ title, e.call = .createMeeting title) ∧
        Known mode s told ⟨meetingId, .real⟩ ∧ Vouched told meetingId userId
    | .freshId => False
    | _ => True
  harmless {told c} hc := by
    cases c <;> trivial

/-- The code of a create. -/
def creating (mode : Mode) : Code where
  permits told
    | .putIf key value expected =>
      ∃ s, ⟨.freshId, s⟩ ∈ told ∧ Recordable mode s told key value expected
    | .createMeeting title => mode = .real ∧ told = [⟨.freshId, title⟩]
    | .createParticipant .. => False
    | .freshId => told = []
    | _ => True
  harmless {told c} hc := by
    cases c <;> trivial

/-- The code of a job. -/
def code : Job → Code
  | .create mode => creating mode
  | .join mode s r => joining mode s r

/-! ### Writing records -/

namespace Code

variable {mode : Mode} {s : String} {r : JoinRequest} {told : List Entry}
variable {α : Type} {C : List Entry → Prop}

/-- What only writes records is part of a join, and asks the provider nothing. -/
theorem Abides.joining {p : Program α} {Q : α → List Entry → Prop}
    (h : (recording mode s).Abides p Q told) :
    (joining mode s r).Abides p (fun a told' => Q a told' ∧ inquiries told' = inquiries told)
      told := by
  induction p generalizing told with
  | done a => exact ⟨h, rfl⟩
  | ask c rest ih =>
    have hcall : (Conduct.joining mode s r).permits told c ∧ c.asksProvider = false := by
      have hpermits := h.1
      cases c <;> first | exact ⟨hpermits, rfl⟩ | exact hpermits.elim
    refine ⟨hcall.1, fun answer hanswer => (ih answer (h.2 answer hanswer)).mono ?_⟩
    exact fun a told' _ ha => ⟨ha.1, ha.2.trans (inquiries_cons hcall.2)⟩

/-- A join may do all that recording takes, and it takes no inquiry. -/
theorem Complies.joining {x : Request α} {Q : α → List Entry → Prop}
    (h : (recording mode s).Complies x Q C told) :
    (joining mode s r).Complies x (fun a told' => Q a told' ∧ inquiries told' = inquiries told) C
      told := by
  refine Abides.mono (Abides.joining h) fun result told' _ hr => ?_
  cases result with
  | ok a => exact hr
  | error e => cases e <;> exact hr.1

end Code

/-! ### An attempt -/

/-- The provider was asked for meetings only. -/
def Untokened (told : List Entry) : Prop :=
  ∀ e ∈ inquiries told, ∃ title, e.call = .createMeeting title

/-- What a join knows between two attempts. -/
structure Pending (j : Joiner) (held : Option Meeting) (told : List Entry) : Prop where
  obtained : ∀ meeting, held = some meeting → Obtained j.mode j.sessionId told (.ofMeeting meeting)
  unasked : held = none → inquiries told = []
  untokened : Untokened told

theorem Vouched.suffix {told told' : List Entry} {meetingId userId : String}
    (h : Vouched told meetingId userId) (hsuffix : told <:+ told') :
    Vouched told' meetingId userId := by
  obtain ⟨v, x, hshown, hx⟩ := h
  exact ⟨v, x, hshown.suffix hsuffix, hx⟩

theorem pending_start (j : Joiner) : Pending j none [] :=
  ⟨fun _ h => (nomatch h), fun _ => rfl, fun _ h => (nomatch h)⟩

/-- A join stays pending while it makes no inquiry. -/
theorem Pending.later {j : Joiner} {held : Option Meeting} {told told' : List Entry}
    (h : Pending j held told) (hsuffix : told <:+ told')
    (hinquiries : inquiries told' = inquiries told) : Pending j held told' where
  obtained meeting hmeeting := (h.obtained meeting hmeeting).suffix hsuffix
  unasked hnone := hinquiries.trans (h.unasked hnone)
  untokened e he := h.untokened e (hinquiries ▸ he)

/-- What came of an attempt. -/
def Attempted (j : Joiner) (told told' : List Entry) : Attempt → Prop
  | .raced => Lost j.sessionId told told'
  | .joined x _ => Known j.mode j.sessionId told' x.mapping ∧ Vouched told' x.meetingId j.userId

theorem Overtaken.of_suffix {key : String} {told told' told'' : List Entry}
    (h : Overtaken key told' told'') (hsuffix : told <:+ told') : Overtaken key told told'' := by
  obtain ⟨stored, before, between, value, hbefore, hidle, heq⟩ := h.split
  exact ⟨stored, before, between, value, hsuffix.trans hbefore, hidle, heq⟩

/-- Trying a session with a known mapping makes an attempt. -/
theorem Tried.attempted {j : Joiner} {mapping : Mapping} {told told' told'' : List Entry}
    {a : Attempt} (h : Tried j mapping told' told'' a)
    (hknown : Known j.mode j.sessionId told'' mapping) (hsuffix : told <:+ told') :
    Attempted j told told'' a := by
  cases a with
  | raced => exact .session mapping.meetingId (Overtaken.of_suffix h hsuffix)
  | joined x added =>
    obtain ⟨rfl, hvouched⟩ := h
    exact ⟨hknown, hvouched⟩

namespace Code

variable {j : Joiner} {r : JoinRequest} {told told' told'' : List Entry} {C : List Entry → Prop}

/-- Entering the session of a mapping is part of writing records. -/
theorem complies_enter_recording {mapping : Mapping} {d : Draft} {held : Option Meeting}
    (hknown : Known j.mode j.sessionId told' mapping) (hsuffix : told <:+ told')
    (hopened : Opened mapping told' told'' d) (hlater : told' <:+ told'') :
    (recording j.mode j.sessionId).Complies (do return (← j.enter d, held))
      (fun result told''' => result.2 = held ∧ Attempted j told told''' result.1) C told'' := by
  have henter : (recording j.mode j.sessionId).Complies (j.enter d)
      (fun a told''' => Tried j mapping told' told''' a) C told'' :=
    complies_enter_opened hopened fun value told''' h =>
      .session mapping value d.version (hknown.suffix (hlater.trans h))
  refine Complies.bind (henter.mono fun a told''' h ha => complies_pure ⟨rfl, ?_⟩)
  exact ha.attempted (hknown.suffix (hlater.trans h)) hsuffix

/-- The part of an attempt that finds the session where the mapping leads. -/
theorem complies_mapped {mapping : Mapping} {held : Option Meeting}
    (hknown : Known j.mode j.sessionId told' mapping) (hsuffix : told <:+ told') :
    (recording j.mode j.sessionId).Complies (do
        let draft ← j.openMapped mapping
        return (← j.enter draft, held))
      (fun result told'' => result.2 = held ∧ Attempted j told told'' result.1) C told' :=
  Complies.bind (Complies.mono (complies_openMapped_opened mapping) fun _ _ hlater hopened =>
    complies_enter_recording hknown hsuffix hopened hlater)

/-- A mapping that takes the place of what was read changes it. -/
theorem replaces_of_read {mode : Mode} {s : String} {stored : Option Versioned} {mapping : Mapping}
    (hread : ⟨.get (mappingKey s), .ok stored⟩ ∈ told)
    (hfound : ∀ mapping version, Resolution.read mode stored ≠ .found mapping version)
    (hother : ∀ version, Resolution.read mode stored ≠ .stale mapping version) :
    Replaces s told mapping (Resolution.read mode stored).version? := by
  cases stored with
  | none => exact .inl rfl
  | some v =>
    dsimp only [Resolution.read] at hfound hother ⊢
    rcases Resolution.ofStored_cases mode v with ⟨-, heq⟩ | ⟨-, heq⟩
    · exact absurd heq (hfound _ _)
    · rw [heq] at hother ⊢
      exact .inr ⟨v, hread, rfl, fun h => hother v.version (by rw [h])⟩

/-- The part of an attempt that goes on with a meeting. -/
theorem complies_settle {meeting : Meeting} {stored : Option Versioned}
    (hfound : ∀ mapping version, Resolution.read j.mode stored ≠ .found mapping version)
    (hobtained : Obtained j.mode j.sessionId told'' (.ofMeeting meeting))
    (hread : Learnt (mappingKey j.sessionId) stored told told')
    (hidle : ∃ new, told'' = new ++ told' ∧ ∀ e ∈ new, Idle e.call) :
    (recording j.mode j.sessionId).Complies (j.settle (.read j.mode stored) meeting)
      (fun result told''' => result.2 = some meeting ∧ Attempted j told told''' result.1) C
      told'' := by
  have hsuffix : told <:+ told'' := by
    obtain ⟨new, rfl, -⟩ := hidle
    exact hread.suffix.trans (List.suffix_append new told')
  -- Once the mapping is in place, the session is opened and entered.
  have henter : ∀ t, told'' <:+ t → (recording j.mode j.sessionId).Complies (do
      let draft ← j.openAllocated meeting
      return (← j.enter draft, some meeting))
      (fun result told''' => result.2 = some meeting ∧ Attempted j told told''' result.1) C t :=
    fun t ht => Complies.bind (Complies.mono (complies_openAllocated_opened meeting)
      fun _ _ hlater hopened => complies_enter_recording (.obtained (hobtained.suffix ht))
        (hsuffix.trans ht) hopened hlater)
  have hshown : ⟨.get (mappingKey j.sessionId), .ok stored⟩ ∈ told'' := by
    obtain ⟨new, rfl, -⟩ := hidle
    exact List.mem_append_right new ((Hushed.suffix hread).subset List.mem_cons_self)
  refine Complies.bind (complies_writeMapping
    (fun hother => .mapping _ _ hobtained (replaces_of_read hshown hfound hother))
    (henter _ (List.suffix_refl _)) (fun n => henter _ (List.suffix_cons _ _)) ?_)
  exact complies_pure ⟨rfl, .mapping (hread.overtaken (Resolution.version?_read _ _) hidle)⟩

/-- A meeting is obtained by asking the provider once at most. -/
theorem abides_obtain {K : Code} {mode : Mode} {s : String} (hunasked : inquiries told = [])
    (hpermits : mode = .real → K.permits told (.createMeeting s)) :
    K.Abides (allocate mode s)
      (fun meeting told' => Obtained mode s told' (.ofMeeting meeting) ∧
        Untokened told' ∧ ∃ new, told' = new ++ told ∧ ∀ e ∈ new, Idle e.call) told := by
  have hasked : ∀ r, Untokened (⟨.createMeeting s, r⟩ :: told) := by
    intro r e he
    rw [inquiries_ask rfl, hunasked, List.mem_singleton] at he
    exact ⟨s, congrArg Entry.call he⟩
  -- The three ways to a meeting: none is asked for, one is given, or the provider refuses.
  refine abides_allocate hpermits (fun hmode told' h => ?_) (fun hmode meetingId => ?_)
    fun hmode e told' h => ?_
  · refine ⟨.skipped hmode, fun e he => ?_, h.idle⟩
    rw [h.inquiries_eq, hunasked] at he
    exact nomatch he
  · refine ⟨.given hmode List.mem_cons_self, hasked _, [_], rfl, fun e he => ?_⟩
    obtain rfl := List.mem_singleton.1 he
    trivial
  · obtain ⟨new, hnew, hidle⟩ := h.idle
    refine ⟨.refused e hmode (h.suffix.subset List.mem_cons_self), fun e he => ?_,
      new ++ [⟨.createMeeting s, .error e⟩], ?_, fun e' he' => ?_⟩
    · exact hasked _ e (h.inquiries_eq ▸ he)
    · rw [hnew, List.append_assoc, List.singleton_append]
    · rcases List.mem_append.1 he' with hlate | hfirst
      · exact hidle e' hlate
      · obtain rfl := List.mem_singleton.1 hfirst
        trivial

/-- One attempt of a join. -/
theorem complies_attempt {held : Option Meeting} (hpending : Pending j held told) :
    (joining j.mode j.sessionId r).Complies (j.attempt held)
      (fun result told' => Pending j result.2 told' ∧ Attempted j told told' result.1) C told := by
  -- Whoever has a meeting goes on with it and hands it on.
  have hsettle : ∀ {stored told' t meeting}, Learnt (mappingKey j.sessionId) stored told told' →
      (∀ mapping version, Resolution.read j.mode stored ≠ .found mapping version) →
      Obtained j.mode j.sessionId t (.ofMeeting meeting) → Untokened t →
      (∃ new, t = new ++ told' ∧ ∀ e ∈ new, Idle e.call) →
      (joining j.mode j.sessionId r).Complies (j.settle (.read j.mode stored) meeting)
        (fun result told' => Pending j result.2 told' ∧ Attempted j told told' result.1) C t := by
    intro stored told' t meeting hread hfound hobtained huntokened hidle
    refine (complies_settle hfound hobtained hread hidle).joining.mono
      fun result told'' hlater hr => ⟨?_, hr.1.2⟩
    rw [hr.1.1]
    refine ⟨?_, fun hnone => (nomatch hnone), fun e he => huntokened e (hr.2 ▸ he)⟩
    rintro _ ⟨⟩
    exact hobtained.suffix hlater
  refine abides_attempt (P := fun seen told' => ∃ stored, Resolution.read j.mode stored = seen ∧
      Learnt (mappingKey j.sessionId) stored told told')
    (fun f hf => complies_lookup fun stored told' hread => hf _ told' ⟨stored, rfl, hread⟩)
    ?found ?held ?obtain
  case found =>
    rintro mapping version told' ⟨stored, hseen, hread⟩
    obtain ⟨v, rfl, rfl, -⟩ := Resolution.counts_of_found hseen
    have hfound : ⟨.get (mappingKey j.sessionId), .ok (some v)⟩ ∈ told' :=
      (Hushed.suffix hread).subset List.mem_cons_self
    refine (complies_mapped (.found v hfound rfl) hread.suffix).joining.mono
      fun result told'' hlater hr => ⟨?_, hr.1.2⟩
    rw [hr.1.1]
    exact (hpending.later hread.suffix hread.inquiries_eq).later hlater hr.2
  case held =>
    rintro _ meeting told' rfl ⟨stored, rfl, hread⟩ hfound
    have hpending' := hpending.later hread.suffix hread.inquiries_eq
    exact hsettle hread hfound (hpending'.obtained meeting rfl) hpending'.untokened
      ⟨[], rfl, fun _ h => nomatch h⟩
  -- Without one, a meeting is asked for only if the mapping is none that counts.
  case obtain =>
    rintro _ told' rfl ⟨stored, rfl, hread⟩ hfound
    have hunasked := (hpending.later hread.suffix hread.inquiries_eq).unasked rfl
    refine (abides_obtain hunasked fun hmode => ?_).mono
      fun meeting t _ h => hsettle hread hfound h.1 h.2.1 h.2.2
    refine ⟨hmode, rfl, hunasked, stored, told, hread, fun v hv => ?_⟩
    subst hv
    rcases Resolution.ofStored_cases j.mode v with ⟨-, heq⟩ | ⟨hstale, -⟩
    · exact absurd heq (hfound _ _)
    · exact hstale.2

end Code

/-! ### Requests -/

/-- A request about a session id lost a number of writes, one after the other. -/
inductive Losses (s : String) : Nat → List Entry → Prop where
  | none (told : List Entry) : Losses s 0 told
  | more {n : Nat} {told told' told'' : List Entry} (h : Losses s n told)
      (hlost : Lost s told told') (hlater : told' <:+ told'') : Losses s (n + 1) told''

theorem Losses.suffix {s : String} {n : Nat} {told told' : List Entry} (h : Losses s n told)
    (hsuffix : told <:+ told') : Losses s n told' := by
  cases h with
  | none => exact .none told'
  | more h hlost hlater => exact .more h hlost (hlater.trans hsuffix)

namespace Code

variable {j : Joiner} {r : JoinRequest} {told : List Entry}

/-- A join that gives up lost a write in each attempt. -/
theorem complies_retry (appId : String) (hvalid : r.validate = .ok j.userId) (left : Nat)
    {held : Option Meeting} {n : Nat} (hpending : Pending j held told)
    (hlosses : Losses j.sessionId n told) :
    (joining j.mode j.sessionId r).Complies (j.retry appId left held) (fun _ _ => True)
      (Losses j.sessionId (n + left)) told := by
  -- Attempts lost and attempts left make the same sum throughout.
  refine abides_retry (I := fun left' held told => Pending j held told ∧
      ∃ lost, Losses j.sessionId lost told ∧ lost + left' = n + left)
    (fun left' held told h => ?_) (fun held told h => ?_) left ⟨hpending, n, hlosses, rfl⟩
  · obtain ⟨hpending, lost, hlosses, hcount⟩ := h
    refine Abides.mono (complies_attempt (C := fun _ => False) hpending)
      fun result told' hsuffix hr => ?_
    match result, hr with
    | .error e, hr =>
      cases e with
      | conflict reason => exact hr.elim
      | _ => trivial
    | .ok (.raced, held'), ⟨hpending', hlost⟩ =>
      -- the raced attempt is one more loss
      intro attempt
      have hlater : told' <:+ ⟨.note (.joinRaced j.sessionId attempt), ()⟩ ::
          ⟨.count .joinConflict, ()⟩ :: told' := List.suffix_append [_, _] told'
      exact ⟨hpending'.later hlater rfl, lost + 1, .more hlosses hlost hlater, by omega⟩
    | .ok (.joined x added, held'), ⟨hpending', hknown, hvouched⟩ =>
      refine Abides.mono (abides_finish fun hmode hkind told'' hquiet => ?_) fun _ _ _ _ => trivial
      refine ⟨hmode, hvalid, (hpending'.later hquiet.suffix hquiet.inquiries_eq).untokened, ?_, ?_⟩
      · rw [← hkind]
        exact hknown.suffix hquiet.suffix
      · exact hvouched.suffix hquiet.suffix
  · obtain ⟨-, lost, hlosses, hcount⟩ := h
    obtain rfl : lost = n + left := hcount
    exact hlosses.suffix (List.suffix_append [_, _] told)

/-- A join keeps to its code, and a conflict is answered only after every attempt was lost. All that
is said of conflicts and of provider calls comes from here. -/
theorem complies_join (appId : String) (mode : Mode) (s : String) (r : JoinRequest) :
    (joining mode s r).Complies (join appId mode s r) (fun _ _ => True)
      (Losses s maxAttempts) [] := by
  unfold join
  split
  · exact complies_count fun _ _ => complies_throw fun _ h => nomatch h
  · rename_i userId hvalid
    exact complies_retry (j := ⟨mode, s, userId, r.iconUrl⟩) appId hvalid maxAttempts
      (pending_start _) (.none [])

theorem complies_create (mode : Mode) :
    (creating mode).Complies (create mode) (fun _ _ => True) (fun _ => True) [] := by
  unfold create
  refine complies_lift ⟨rfl, fun s _ => ?_⟩
  refine complies_lift ((abides_obtain (K := creating mode) rfl fun hmode => ⟨hmode, rfl⟩).mono
    fun meeting told _ h => ?_)
  obtain ⟨hobtained, -, new, hnew, -⟩ := h
  have hdrawn : ⟨.freshId, s⟩ ∈ told := hnew ▸ List.mem_append_right new List.mem_cons_self
  -- the session may be written as long as the meeting is the one obtained
  have hsession : ∀ value told', told <:+ told' →
      (creating mode).permits told' (.putIf (sessionKey meeting.id) value none) :=
    fun value told' h => ⟨s, h.subset hdrawn,
      .session (.ofMeeting meeting) value none (.obtained (hobtained.suffix h))⟩
  refine complies_now fun t _ => ?_
  have hnow : told <:+ ⟨.now, t⟩ :: told := List.suffix_cons _ told
  dsimp only
  refine complies_putIf ⟨s, hnow.subset hdrawn,
    .mapping (.ofMeeting meeting) none (hobtained.suffix hnow) (.inl rfl)⟩ fun outcome => ?_
  cases outcome with
  | conflict => exact complies_note fun _ _ => complies_throw fun _ _ => trivial
  | written n =>
    refine complies_putIf (hsession _ _ (hnow.trans (List.suffix_cons _ _)))
      fun outcome => ?_
    cases outcome with
    | conflict => exact complies_note fun _ _ => complies_throw fun _ _ => trivial
    | written n => exact complies_count fun _ _ => complies_note fun _ _ => complies_pure trivial

end Code

/-- What is known when a job is done: a join that is answered that another request was faster has
lost a write in each of its attempts. -/
def Earned (job : Job) (outcome : Outcome) (told : List Entry) : Prop :=
  ∀ mode s r reason, job = .join mode s r → outcome = .joined (.error (.conflict reason)) →
    Losses s maxAttempts told

/-- Every job abides by its code. -/
theorem abides_program (appId : String) (job : Job) :
    (code job).Abides (job.program appId) (Earned job) [] := by
  cases job with
  | create mode =>
    refine Code.Abides.map (Code.Abides.mono (Code.complies_create mode) fun _ _ _ _ => ?_)
    rintro _ _ _ _ ⟨⟩
  | join mode s r =>
    refine Code.Abides.map (Code.Abides.mono (Code.complies_join appId mode s r)
      fun result told _ hr => ?_)
    rintro _ _ _ reason ⟨⟩ h
    obtain rfl := Outcome.joined.inj h
    exact hr

end Conduct

end VoiceRoom
