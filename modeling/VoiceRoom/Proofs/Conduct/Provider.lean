import VoiceRoom.Proofs.Conduct.Runs

/-!
# How the provider is used

In every run, however requests go on side by side, the provider is asked for a meeting once at most
by each request, and for a token once at most by each join. A token is asked for only in a meeting
that the provider gave for the very session id, and only for a member of the session that is stored
(`provider_disciplined`).

The codes of the requests say so of what each of them was told (`Code.Obeyed`); what they were told
is true of the store (`Known.given`, `Vouched.stored`).
-/

namespace VoiceRoom.Concurrency

open Conduct
open Simulation (Entry)

def Job.mode : Job → Mode
  | .create mode => mode
  | .join mode _ _ => mode

/-- Whether the provider was asked for a meeting. -/
def asksMeeting : Entry → Bool
  | ⟨.createMeeting _, _⟩ => true
  | _ => false

/-- Whether the provider was asked for a token. -/
def asksToken : Entry → Bool
  | ⟨.createParticipant .., _⟩ => true
  | _ => false

/-- The provider is used as it should be, by every task of a system. -/
structure ProviderDisciplined (σ : System) : Prop where
  /-- In mock mode the provider is not asked at all. -/
  mock : ∀ i t, σ.tasks[i]? = some t → t.job.mode = .mock → inquiries (own i σ.past) = []
  /-- A create in real mode asks once at most, for a meeting with the id that it drew, right after
  it drew the id. -/
  create : ∀ i t, σ.tasks[i]? = some t → t.job = .create .real → inquiries (own i σ.past) = [] ∨
    ∃ later s r, own i σ.past = later ++ [⟨.createMeeting s, r⟩, ⟨.freshId, s⟩] ∧
      inquiries later = []
  /-- A join in real mode asks once at most for a meeting and once at most for a token. -/
  once : ∀ i t s r, σ.tasks[i]? = some t → t.job = .join .real s r →
    (own i σ.past).countP asksMeeting ≤ 1 ∧ (own i σ.past).countP asksToken ≤ 1
  /-- It asks for a meeting with its session id when it has just read that the mapping is absent or
  to a mock meeting. -/
  meeting : ∀ i t s r title answer told, σ.tasks[i]? = some t → t.job = .join .real s r →
    ⟨.createMeeting title, answer⟩ :: told <:+ own i σ.past → title = s ∧
      ∃ stored before, Learnt (mappingKey s) stored before told ∧
        ∀ v, stored = some v → (Mapping.decode v.value).kind = .mock
  /-- It asks for a token for its user, who is in the session that is stored, in a meeting that the
  provider gave before when it was asked for one with that session id. -/
  token : ∀ i t s r meetingId userId answer past, σ.tasks[i]? = some t → t.job = .join .real s r →
    .answer i ⟨.createParticipant meetingId userId, answer⟩ :: past <:+ σ.past →
      r.validate = .ok userId ∧ (s, meetingId) ∈ grants past ∧
      ∃ x, (storeOf past).sessionAt meetingId = some x ∧ x.sessionId = s ∧ x.hasMember userId

/-! ### Counting -/

/-- What happens only when it has not happened yet happens once at most. -/
theorem countP_le_one {p : Entry → Bool} {told : List Entry}
    (h : ∀ e before, e :: before <:+ told → p e = true → before.countP p = 0) :
    told.countP p ≤ 1 := by
  induction told with
  | nil => exact Nat.zero_le _
  | cons e told ih =>
    have hrest := ih fun e' before hsuffix =>
      h e' before (hsuffix.trans (List.suffix_cons e told))
    rw [List.countP_cons]
    split
    · rename_i he
      rw [h e told (List.suffix_refl _) he]
    · exact hrest

/-- Who asks for a meeting asks the provider. -/
theorem asksProvider_of_asksMeeting {e : Entry} (h : asksMeeting e = true) :
    e.call.asksProvider = true := by
  obtain ⟨c, r⟩ := e
  cases c with
  | createMeeting title => rfl
  | _ => exact nomatch h

/-- Who asks for a token asks the provider. -/
theorem asksProvider_of_asksToken {e : Entry} (h : asksToken e = true) :
    e.call.asksProvider = true := by
  obtain ⟨c, r⟩ := e
  cases c with
  | createParticipant meetingId userId => rfl
  | _ => exact nomatch h

/-- Inquiries are the entries that ask the provider. -/
theorem mem_inquiries_iff {e : Entry} {told : List Entry} :
    e ∈ inquiries told ↔ e ∈ told ∧ e.call.asksProvider = true :=
  List.mem_filter

/-- Before every entry there is what was told before it. -/
theorem exists_suffix_of_mem {e : Entry} {told : List Entry} (h : e ∈ told) :
    ∃ before, e :: before <:+ told := by
  obtain ⟨later, before, rfl⟩ := List.append_of_mem h
  exact ⟨before, List.suffix_append later _⟩

/-! ### What the codes say -/

section Obeyed

variable {mode : Mode} {s : String} {r : JoinRequest} {told : List Entry}

/-- A code that never permits to ask the provider leaves nothing to ask. -/
theorem inquiries_eq_nil_of_permits {K : Code} (h : K.Obeyed told)
    (hnever : ∀ before c, K.permits before c → c.asksProvider = false) : inquiries told = [] := by
  refine List.filter_eq_nil_iff.2 fun e he => ?_
  obtain ⟨before, hbefore⟩ := exists_suffix_of_mem he
  rw [hnever before e.call (h e before hbefore)]
  exact Bool.false_ne_true

/-- Mock jobs ask the provider nothing, since none of their codes permits it. -/
theorem inquiries_of_mock {job : Job} (h : (code job).Obeyed told) (hmode : job.mode = .mock) :
    inquiries told = [] := by
  refine inquiries_eq_nil_of_permits h fun before c hpermits => ?_
  cases job with
  | create mode =>
    obtain rfl : mode = .mock := hmode
    cases c with
    | createMeeting title => exact nomatch hpermits.1
    | createParticipant meetingId userId => exact hpermits.elim
    | _ => rfl
  | join mode s r =>
    obtain rfl : mode = .mock := hmode
    cases c with
    | createMeeting title => exact nomatch hpermits.1
    | createParticipant meetingId userId => exact nomatch hpermits.1
    | _ => rfl

/-- A join asks for one meeting at most. -/
theorem countP_asksMeeting (h : (joining mode s r).Obeyed told) : told.countP asksMeeting ≤ 1 := by
  refine countP_le_one fun e before hbefore he => List.countP_eq_zero.2 fun e' he' hasks => ?_
  obtain ⟨c, answer⟩ := e
  cases c with
  | createMeeting title =>
    obtain ⟨-, -, hunasked, -⟩ := h _ before hbefore
    have hmem := mem_inquiries_iff.2 ⟨he', asksProvider_of_asksMeeting hasks⟩
    rw [hunasked] at hmem
    exact nomatch hmem
  | _ => exact nomatch he

/-- A join asks for one token at most. -/
theorem countP_asksToken (h : (joining mode s r).Obeyed told) : told.countP asksToken ≤ 1 := by
  refine countP_le_one fun e before hbefore he => List.countP_eq_zero.2 fun e' he' hasks => ?_
  obtain ⟨c, answer⟩ := e
  cases c with
  | createParticipant meetingId userId =>
    obtain ⟨-, -, huntokened, -⟩ := h _ before hbefore
    obtain ⟨title, hcall⟩ :=
      huntokened e' (mem_inquiries_iff.2 ⟨he', asksProvider_of_asksToken hasks⟩)
    obtain ⟨c', answer'⟩ := e'
    obtain rfl : c' = .createMeeting title := hcall
    exact nomatch hasks
  | _ => exact nomatch he

/-- A create asks when it has drawn its id and done nothing else. -/
theorem inquiries_of_create (h : (creating mode).Obeyed told) : inquiries told = [] ∨
    ∃ later s r, told = later ++ [⟨.createMeeting s, r⟩, ⟨.freshId, s⟩] ∧ inquiries later = [] := by
  induction told with
  | nil => exact .inl rfl
  | cons e told ih =>
    have hpermits := h e told (List.suffix_refl _)
    rcases ih fun e' before hbefore => h e' before (hbefore.trans (List.suffix_cons e told)) with
      hnone | ⟨later, s, r, rfl, hlater⟩
    · obtain ⟨c, r⟩ := e
      cases c with
      | createMeeting title =>
        obtain ⟨-, rfl⟩ := hpermits
        exact .inr ⟨[], title, r, rfl, rfl⟩
      | createParticipant meetingId userId => exact hpermits.elim
      | _ => exact .inl ((inquiries_cons rfl).trans hnone)
    -- The provider was asked, and is not asked again after other calls.
    · obtain ⟨c, r'⟩ := e
      refine .inr ⟨⟨c, r'⟩ :: later, s, r, rfl, ?_⟩
      cases c with
      | createMeeting title =>
        have hlength := congrArg List.length hpermits.2
        rw [List.length_append] at hlength
        exact absurd hlength (by simp)
      | createParticipant meetingId userId => exact hpermits.elim
      | _ => exact (inquiries_cons rfl).trans hlater

end Obeyed

/-! ### Every run -/

/-- What a task was told at some point it has been told ever since. -/
theorem own_cons_suffix {i : Nat} {e : Entry} {past past' : List Act}
    (h : .answer i e :: past <:+ past') : e :: own i past <:+ own i past' := by
  have hsuffix : own i (.answer i e :: past) <:+ own i past' := h.filterMap _
  rwa [own_answer_self] at hsuffix

variable {appId : String} {σ : System}

/-- In every run, the provider is used as it should be. -/
theorem provider_disciplined (hrun : Run appId {} σ) (hfresh : FreshGrants σ.past) :
    ProviderDisciplined σ where
  mock i t ht hmode := inquiries_of_mock (obeyed_of_run hrun ht) hmode
  create i t ht hjob := by
    have hobeyed := obeyed_of_run hrun ht
    rw [hjob] at hobeyed
    exact inquiries_of_create hobeyed
  once i t s r ht hjob := by
    have hobeyed := obeyed_of_run hrun ht
    rw [hjob] at hobeyed
    exact ⟨countP_asksMeeting hobeyed, countP_asksToken hobeyed⟩
  meeting i t s r title answer told ht hjob hasked := by
    have hobeyed := obeyed_of_run hrun ht
    rw [hjob] at hobeyed
    obtain ⟨-, htitle, -, hread⟩ := hobeyed _ told hasked
    exact ⟨htitle, hread⟩
  token i t s r meetingId userId answer past ht hjob hasked := by
    have hobeyed := obeyed_of_run hrun ht
    rw [hjob] at hobeyed
    obtain ⟨-, hvalid, -, hknown, hvouched⟩ := hobeyed _ _ (own_cons_suffix hasked)
    have hsuffix : past <:+ σ.past := (List.suffix_cons _ past).trans hasked
    have hkept : Kept past := (kept_of_run hrun).of_suffix hsuffix
    have hfresh' : FreshGrants past := hfresh.of_suffix hsuffix
    have hgiven : Given past s ⟨meetingId, .real⟩ := hknown.given hkept
    obtain ⟨x, hx, hmember⟩ := hvouched.stored hkept hfresh'
    refine ⟨hvalid, hgiven, x, hx, ?_, hmember⟩
    -- The session is in a meeting that was given for one session id only.
    obtain ⟨v, hlookup, hdecode⟩ := Memory.lookup_of_sessionAt hx
    have hsound := hkept.sound past (List.suffix_refl past)
    have hhoused := hsound.housed_of_decode hfresh' hlookup hdecode
    have hgiven' : Given past x.sessionId ⟨meetingId, x.kind⟩ := hhoused.meeting ▸ hhoused.given
    exact (Given.unique hfresh' hgiven' hgiven).1

/-- Also when two meetings were given and one of them came to nothing. -/
theorem provider_disciplined_afterRaces :
    FreshGrants afterRaces.past ∧ ProviderDisciplined afterRaces :=
  ⟨freshGrants_afterRaces, provider_disciplined run_both_races freshGrants_afterRaces⟩

end VoiceRoom.Concurrency
