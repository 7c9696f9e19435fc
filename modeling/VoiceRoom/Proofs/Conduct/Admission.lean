import Mathlib.Data.String.Basic
import VoiceRoom.Proofs.Accounting.Requests
import VoiceRoom.Proofs.Store

/-!
# Who may join, and under which name

A join is turned down for what it asks for before anything else is looked at, and for nothing else is
it called a bad request (`Screened`). The limits are told in characters but hold for bytes: besides
requests that are at fault, those are turned down whose texts are within the limits in characters
and beyond them in bytes (`JoinRequest.Swollen`).

Who is let in is written down as named in the request, after the members that the session was found
with (`Conduct.Seats`).
-/

namespace VoiceRoom

open Simulation (Entry Point)

/-- A text has no more characters than bytes. -/
theorem length_le_utf8ByteSize (s : String) : s.length ≤ s.utf8ByteSize := by
  have hchars : ∀ cs : List Char, cs.length ≤ String.utf8Len cs := by
    intro cs
    induction cs with
    | nil => exact Nat.zero_le _
    | cons c cs ih =>
      rw [List.length_cons, String.utf8Len_cons]
      exact Nat.add_le_add ih c.utf8Size_pos
  have hsize := String.utf8ByteSize_ofList s.toList
  rw [String.ofList_toList] at hsize
  rw [hsize, ← String.length_toList]
  exact hchars s.toList

namespace JoinRequest

/-! ### Faults -/

/-- A request is at fault, if texts are measured by `size`. -/
inductive AtFault (size : String → Nat) (r : JoinRequest) : Prop where
  | absent (h : r.userId = none)
  | blank {userId : String} (h : r.userId = some userId)
      (hblank : ∀ c ∈ userId.toList, isWhite c = true)
  | longUserId {userId : String} (h : r.userId = some userId) (hlong : 128 < size userId)
  | longIconUrl {url : String} (h : r.iconUrl = some url) (hlong : 2048 < size url)

/-- A text of a request is within its limit in characters, and beyond it in bytes. -/
inductive Swollen (r : JoinRequest) : Prop where
  | userId {userId : String} (h : r.userId = some userId) (hshort : userId.length ≤ 128)
      (hlong : 128 < userId.utf8ByteSize)
  | iconUrl {url : String} (h : r.iconUrl = some url) (hshort : url.length ≤ 2048)
      (hlong : 2048 < url.utf8ByteSize)

variable {r : JoinRequest} {fault : Fault} {userId : String}

theorem atFault_utf8ByteSize_iff :
    r.AtFault String.utf8ByteSize ↔ r.AtFault String.length ∨ r.Swollen := by
  constructor
  · intro h
    cases h with
    | absent h => exact .inl (.absent h)
    | blank h hblank => exact .inl (.blank h hblank)
    | longUserId h hlong =>
      -- too many bytes: of too many characters, or of few characters that take more than one
      rcases Nat.lt_or_ge 128 _ with hchars | hchars
      · exact .inl (.longUserId h hchars)
      · exact .inr (.userId h hchars hlong)
    | longIconUrl h hlong =>
      rcases Nat.lt_or_ge 2048 _ with hchars | hchars
      · exact .inl (.longIconUrl h hchars)
      · exact .inr (.iconUrl h hchars hlong)
  · rintro (h | h)
    · cases h with
      | absent h => exact .absent h
      | blank h hblank => exact .blank h hblank
      | longUserId h hlong =>
        exact .longUserId h (Nat.lt_of_lt_of_le hlong (length_le_utf8ByteSize _))
      | longIconUrl h hlong =>
        exact .longIconUrl h (Nat.lt_of_lt_of_le hlong (length_le_utf8ByteSize _))
    · cases h with
      | userId h _ hlong => exact .longUserId h hlong
      | iconUrl h _ hlong => exact .longIconUrl h hlong

theorem atFault_of_validate_error (h : r.validate = .error fault) :
    r.AtFault String.utf8ByteSize := by
  unfold validate at h
  cases huserId : r.userId with
  | none => exact .absent huserId
  | some userId =>
    rw [huserId] at h
    dsimp only [Option.getD_some] at h
    split at h
    · rename_i hblank
      exact .blank huserId (List.all_eq_true.1 hblank)
    · split at h
      · rename_i hlong
        exact .longUserId huserId hlong
      · split at h
        · cases h
        · rename_i url hurl
          split at h
          · rename_i hlong
            exact .longIconUrl hurl hlong
          · cases h

/-- A request is valid, and this is its user. -/
structure Valid (r : JoinRequest) (userId : String) : Prop where
  named : r.userId = some userId
  visible : ¬isBlank userId = true
  short : ¬128 < userId.utf8ByteSize
  icon : ∀ url, r.iconUrl = some url → ¬2048 < url.utf8ByteSize

theorem valid_of_validate_ok (h : r.validate = .ok userId) : r.Valid userId := by
  unfold validate at h
  cases huserId : r.userId with
  | none =>
    rw [huserId] at h
    exact nomatch h
  | some name =>
    rw [huserId] at h
    dsimp only [Option.getD_some] at h
    -- The checks are made one after the other, and each that is passed leaves a fact.
    split at h
    · cases h
    · rename_i hvisible
      split at h
      · cases h
      · rename_i hshort
        split at h
        · rename_i hnone
          cases h
          exact ⟨huserId, hvisible, hshort, fun url hurl => nomatch hnone.symm.trans hurl⟩
        · rename_i url hurl
          split at h
          · cases h
          · rename_i hicon
            cases h
            refine ⟨huserId, hvisible, hshort, fun url' hurl' => ?_⟩
            obtain rfl : url = url' := Option.some.inj (hurl.symm.trans hurl')
            exact hicon

theorem Valid.not_atFault (h : r.Valid userId) : ¬r.AtFault String.utf8ByteSize := by
  intro hfault
  cases hfault with
  | absent hnone => exact nomatch hnone.symm.trans h.named
  | blank hname hblank =>
    obtain rfl := Option.some.inj (hname.symm.trans h.named)
    exact h.visible (List.all_eq_true.2 hblank)
  | longUserId hname hlong =>
    obtain rfl := Option.some.inj (hname.symm.trans h.named)
    exact h.short hlong
  | longIconUrl hurl hlong => exact h.icon _ hurl hlong

theorem exists_fault_iff :
    (∃ fault, r.validate = .error fault) ↔ r.AtFault String.utf8ByteSize := by
  refine ⟨fun ⟨_, h⟩ => atFault_of_validate_error h, fun h => ?_⟩
  cases hvalid : r.validate with
  | error fault => exact ⟨fault, rfl⟩
  | ok userId => exact absurd h (valid_of_validate_ok hvalid).not_atFault

end JoinRequest

/-! ### Rosters that are written -/

namespace Conduct

open Accounting (foundRoster foundRoster_add foundRoster_of_decode foundRoster_of_none lastRead
  lastRead_get)

section Seated

variable {told told' : List Entry} {key : String} {stored : Option Versioned} {x : Session}

/-- Quiet calls read nothing. -/
theorem Hushed.lastRead_eq (h : Hushed told told') (key : String) :
    lastRead key told' = lastRead key told := by
  obtain ⟨new, rfl, hnew⟩ := h
  induction new with
  | nil => rfl
  | cons e new ih =>
    rw [List.cons_append, ← ih fun e' he' => hnew e' (.tail _ he')]
    have hquiet := hnew e (.head _)
    obtain ⟨c, r⟩ := e
    cases c with
    | now => rfl
    | note event => rfl
    | count m => rfl
    | _ => exact hquiet.elim

theorem Hushed.foundRoster_eq (h : Hushed told told') (x : Session) :
    foundRoster told' x = foundRoster told x := by
  unfold foundRoster
  rw [h.lastRead_eq]

theorem Learnt.lastRead_eq (h : Learnt key stored told told') : lastRead key told' = stored :=
  (Hushed.lastRead_eq h key).trans (lastRead_get key stored told)

/-- A draft has the members that its session was found with. -/
structure Seated (told : List Entry) (d : Draft) : Prop where
  timed : d.session.Timed
  roster : d.session.users = foundRoster told d.session

theorem Seated.hushed {d : Draft} (h : Seated told d) (hhushed : Hushed told told') :
    Seated told' d :=
  ⟨h.timed, h.roster.trans (hhushed.foundRoster_eq d.session).symm⟩

theorem Seated.graded {d : Draft} (h : Seated told d) (degraded : Bool) :
    Seated told (d.graded degraded) := by
  unfold Draft.graded
  split
  · exact h
  · exact ⟨⟨h.timed.created, h.timed.joined⟩, h.roster⟩

theorem seated_new {s : String} {meeting : Meeting} {version : Option Nat} {t : Int}
    (ht : fitsInt64 t) (hnone : foundRoster told (.new s meeting t) = []) :
    Seated told ⟨.new s meeting t, version, true⟩ :=
  ⟨Session.timed_new s meeting ht, hnone.symm⟩

theorem seated_loaded {mapping : Mapping} {v : Versioned} (dirty : Bool)
    (h : Learnt (sessionKey mapping.meetingId) (some v) told told')
    (hdecode : Session.decode v.value = .ok x) :
    Seated told' ⟨x.fit mapping, some v.version, dirty⟩ := by
  refine ⟨(Session.timed_of_decode hdecode).fit mapping, ?_⟩
  rw [foundRoster_of_decode h.lastRead_eq hdecode]
  exact (if_pos rfl).symm

end Seated

/-- A session is written with the members that it was found with, or with one more at their end, as
named in the request. -/
def Seats (r : JoinRequest) (told : List Entry) (k value : String) : Prop :=
  ∃ x, Session.decode value = .ok x ∧ x.meetingId = k ∧ (x.users = foundRoster told x ∨
    ∃ m : Member, r.userId = some m.userId ∧ m.iconUrl = r.iconUrl ∧
      x.users = foundRoster told x ++ [m])

/-- Nobody but the user of a request is new in a session that is written. -/
def seating (r : JoinRequest) : Code where
  permits told c := ∀ k value expected, c = .putIf (sessionKey k) value expected →
    Seats r told k value
  harmless hc := by
    rintro k value expected rfl
    exact hc.elim

namespace Code

variable {r : JoinRequest} {told : List Entry} {C : List Entry → Prop} {j : Joiner}

theorem seating_sessionsOnly : (seating r).SessionsOnly :=
  fun _ _ hc k value expected hcall => absurd hcall (hc k value expected)

theorem seating_permits_session {d : Draft} {m : Member} (h : Seated told d)
    (hm : fitsInt64 m.joinedAt) (hname : r.userId = some m.userId) (hicon : m.iconUrl = r.iconUrl)
    (expected : Option Nat) : (seating r).permits told
      (.putIf (sessionKey (d.session.add m).meetingId) (d.session.add m).encode expected) := by
  intro k value expected' hcall
  obtain ⟨hkey, rfl, -⟩ := Call.putIf.inj hcall
  obtain rfl := sessionKey_inj.1 hkey
  refine ⟨d.session.add m, Session.decode_encode (h.timed.add hm), rfl, ?_⟩
  rw [foundRoster_add]
  by_cases hmember : d.session.hasMember m.userId
  · rw [Session.add_of_hasMember hmember]
    exact .inl h.roster
  · rw [Session.users_add_of_not_hasMember hmember, h.roster]
    exact .inr ⟨m, hname, hicon, rfl⟩

theorem complies_openMapped_seated (mapping : Mapping) :
    (seating r).Complies (j.openMapped mapping) (fun d told' => Seated told' d) C told := by
  exact complies_openMapped
    (fun _ _ ht hread => seated_new ht (foundRoster_of_none hread.lastRead_eq))
    fun _ _ _ hread hdecode => seated_loaded _ hread hdecode

theorem complies_openAllocated_seated (meeting : Meeting) :
    (seating r).Complies (j.openAllocated meeting) (fun d told' => Seated told' d) C told := by
  refine complies_openAllocated
    (fun _ _ ht hread => seated_new ht (foundRoster_of_none hread.lastRead_eq))
    (fun _ _ _ hread hdecode => (seated_loaded _ hread hdecode).graded meeting.degraded)
    fun stored x t told' ht hread hdecode hother => seated_new ht ?_
  -- The record is of another session, whose members do not count.
  rw [foundRoster_of_decode (x := .new j.sessionId meeting t) hread.lastRead_eq hdecode]
  exact if_neg hother

theorem complies_enter_seated {d : Draft} (h : Seated told d) (hname : r.userId = some j.userId)
    (hicon : j.iconUrl = r.iconUrl) :
    (seating r).Complies (j.enter d) (fun _ _ => True) C told := by
  refine complies_enter (fun _ _ _ _ => trivial) fun t ht => ⟨?_, trivial, fun _ => trivial⟩
  have hnow : Hushed told (⟨.now, t⟩ :: told) := .cons (c := .now) trivial t
  exact seating_permits_session (m := ⟨j.userId, t, j.iconUrl⟩) (h.hushed hnow) ht hname hicon
    d.version

/-- A join writes its user as named, or nobody new. -/
theorem abides_join_seating (appId : String) (mode : Mode) (s : String) (r : JoinRequest) :
    (seating r).Abides (join appId mode s r).run (fun _ _ => True) [] := by
  unfold join
  cases hvalid : r.validate with
  | error fault => exact abides_ask_quiet trivial fun _ _ _ _ => trivial
  | ok userId =>
    have hname := (JoinRequest.valid_of_validate_ok hvalid).named
    exact seating_sessionsOnly.abides_retry (fun mapping _ => complies_openMapped_seated mapping)
      (fun meeting _ => complies_openAllocated_seated meeting)
      (fun _ _ hd => complies_enter_seated hd hname rfl) maxAttempts none []

end Code

end Conduct

/-! ### Answers -/

/-- How far a program of one call comes. -/
theorem Conduct.Came.of_ask_done {α : Type} {c : Call} {f : c.Answer → α} {told : List Entry}
    {q : Program α} (h : Came (.ask c fun r => .done (f r)) told q) :
    (told = [] ∧ q = .ask c fun r => .done (f r)) ∨ ∃ r, told = [⟨c, r⟩] ∧ q = .done (f r) := by
  induction h with
  | start => exact .inl ⟨rfl, rfl⟩
  | answer _ r _ ih =>
    rcases ih with ⟨rfl, hask⟩ | ⟨_, -, hdone⟩
    · cases hask
      exact .inr ⟨r, rfl, rfl⟩
    · exact nomatch hdone

namespace Conduct.Code

open Accounting (Balances comes_attempt)

variable {j : Joiner} {told : List Entry}

/-- An attempt does not fail for what was asked for. -/
theorem ne_badRequest_of_failed {e : ServiceError} (h : Accounting.Failed e told)
    (reason : String) : e ≠ .badRequest reason := by
  rintro rfl
  exact nomatch h.refusal

/-- Once a request is found valid, it is not called a bad one any more. -/
theorem abides_retry_valid (appId : String) (left : Nat) (held : Option Meeting)
    (h : Balances true told [] []) : licence.Abides (j.retry appId left held).run
      (fun result _ => ∀ reason, result ≠ .error (.badRequest reason)) told := by
  refine abides_retry (I := fun _ _ told => Balances true told [] []) (fun _ held told h => ?_)
    (fun _ _ _ _ hresult => nomatch hresult) left h
  refine Abides.mono (comes_attempt held h) fun result told' _ hr => ?_
  match result, hr with
  | .error e, hr =>
    exact fun reason hresult => ne_badRequest_of_failed hr reason (Except.error.inj hresult)
  | .ok (.raced, held'), hr => exact fun _ => hr.pay.cons rfl rfl
  | .ok (.joined x added, held'), _ =>
    exact (abides_finish fun _ _ _ _ => trivial).mono fun _ _ _ _ _ hresult => nomatch hresult

end Conduct.Code

open Conduct (Came Seats licence)

/-- How a join of this request comes out, whoever answers its calls. -/
structure Screened (appId : String) (mode : Mode) (s : String) (r : JoinRequest) : Prop where
  /-- It is called a bad request exactly if it is at fault, or if a text of it is too long in bytes
  only. -/
  answered : ∀ told result, Came (join appId mode s r).run told (.done result) →
    ((∃ reason, result = .error (.badRequest reason)) ↔ r.AtFault String.length ∨ r.Swollen)
  /-- Then it is answered, and neither the store nor the provider is asked before. -/
  refused : r.AtFault String.length ∨ r.Swollen →
    ∃ fault : JoinRequest.Fault, ∀ told q, Came (join appId mode s r).run told q →
      (∀ e ∈ told, Point.ofCall? e.call = none) ∧
        (told = [] ∨ q = .done (.error (.badRequest fault.message)))
  /-- Otherwise nobody is added to a session that is written, or the user as named. -/
  stored : ∀ told k value expected rest,
    Came (join appId mode s r).run told (.ask (.putIf (sessionKey k) value expected) rest) →
      Seats r told k value

/-- Whatever is in the store and whatever others do in between, a join is turned down for what it
asks for before anything is looked at, and a user who is let in is stored as named. -/
theorem join_screened (appId : String) (mode : Mode) (s : String) (r : JoinRequest) :
    Screened appId mode s r := by
  -- The check counts bytes, and a text of few characters may have too many of them.
  have hfault : r.AtFault String.length ∨ r.Swollen ↔ ∃ fault, r.validate = .error fault :=
    JoinRequest.atFault_utf8ByteSize_iff.symm.trans JoinRequest.exists_fault_iff.symm
  refine ⟨?answered, ?refused, ?stored⟩
  case answered =>
    intro told result hcame
    rw [hfault]
    cases hvalid : r.validate with
    | error fault =>
      rw [run_join_of_error hvalid] at hcame
      rcases hcame.of_ask_done with ⟨-, hask⟩ | ⟨_, -, hdone⟩
      · exact nomatch hask
      · cases hdone
        exact iff_of_true ⟨_, rfl⟩ ⟨_, rfl⟩
    | ok userId =>
      refine iff_of_false ?_ fun ⟨_, h⟩ => nomatch h
      rintro ⟨reason, rfl⟩
      -- a valid request may fail later on, but never with an error of validation
      have habides := Conduct.Code.abides_retry_valid (j := ⟨mode, s, userId, r.iconUrl⟩) appId
        maxAttempts none (Accounting.Balances.start true)
      rw [join_of_ok hvalid] at hcame
      exact (habides.came hcame).2 reason rfl
  case refused =>
    intro h
    obtain ⟨fault, hvalid⟩ := hfault.1 h
    refine ⟨fault, fun told q hcame => ?_⟩
    rw [run_join_of_error hvalid] at hcame
    rcases hcame.of_ask_done with ⟨rfl, -⟩ | ⟨_, rfl, rfl⟩
    · exact ⟨fun _ he => (nomatch he), .inl rfl⟩
    · exact ⟨List.forall_mem_singleton.2 rfl, .inr rfl⟩
  case stored =>
    intro told k value expected rest hcame
    have habides := (Conduct.Code.abides_join_seating appId mode s r).came hcame
    exact habides.2.1 k value expected rfl

/-- A name of 65 characters in 130 bytes. -/
def accented : JoinRequest where
  userId := some (String.ofList (List.replicate 65 'é'))
  iconUrl := none

/-- A name that is within the limit in characters is turned down for exceeding it. -/
theorem short_name_refused :
    ¬accented.AtFault String.length ∧
      (join "app" .mock "s" accented).run =
        .ask (.count (.join "invalid")) fun _ =>
          .done (.error (.badRequest "User ID must be at most 128 characters")) := by
  have hfault : accented.validate = .error .longUserId := by decide +kernel
  refine ⟨fun h => ?_, run_join_of_error hfault⟩
  cases h with
  | absent hnone => exact nomatch hnone
  | blank hname hblank =>
    obtain rfl := Option.some.inj hname
    rw [String.toList_ofList] at hblank
    exact absurd (hblank 'é' (.head _)) (by decide)
  | longUserId hname hlong =>
    obtain rfl := Option.some.inj hname
    rw [String.length_ofList, List.length_replicate] at hlong
    exact absurd hlong (by decide)
  | longIconUrl hurl hlong => exact nomatch hurl

end VoiceRoom
