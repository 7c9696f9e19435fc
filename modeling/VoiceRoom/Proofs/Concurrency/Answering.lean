import VoiceRoom.Proofs.Concurrency.Queue

/-!
# While the store answers

What is written here is for any time in which the store answers, whatever else is known of what
happens in it (`answering`). Then no request ends in an error of the store, and every record can be
read: an attempt that looks for a session comes to a draft of the session that was in the meeting, or
of a new one if there was none (`Mirrors`).
-/

namespace VoiceRoom.Concurrency

open Discipline

variable {i : Nat} {u v w : World} {base : List Act} {P : Act → Prop} {hP : ¬ P (.switch false)}
variable {mode : Mode} {s k : String}

/-- The ledger, and that the store answers, with only such things happening. -/
def answering (base : List Act) (P : Act → Prop) (hP : ¬ P (.switch false)) : Bylaw where
  assumes past := ∀ act, Since base past act → P act
  inv w := base <:+ w.past ∧ w.store.available = true
  assumes_tail h act hact := h act (hact.of_suffix (List.suffix_cons _ _))
  quiet {w act} _ _ hassumes h := by
    refine ⟨h.1.trans (List.suffix_cons act _), available_next h.2 ?_⟩
    rintro rfl
    exact hP (hassumes _ (since_cons h.1 (.switch false)))

/-- Whatever a request does, the store goes on to answer. -/
theorem holds_answering {α : Type} (p : Program α) :
    (answering base P hP).discipline.Holds i p (fun _ _ => True) u := by
  induction p generalizing u with
  | done a => exact fun _ _ => trivial
  | ask c rest ih =>
    intro v hv r hr hassumes
    have hup : (v.next (.answer i ⟨c, r⟩)).store.available = true :=
      available_next hv.inv.own.2 fun h => nomatch h
    exact ⟨hv.inv.next ⟨hv.inv.own.1.trans (List.suffix_cons _ _), hup⟩,
      hv.inv.grows_next hassumes, ih r⟩

/-- Under this bylaw the store answers, so no call fails. -/
theorem not_fails_answering (h : (answering base P hP).discipline.Fails i u w) : False := by
  obtain ⟨v, hv, hdown, -⟩ := h
  exact nomatch hdown.symm.trans hv.inv.own.2

/-- A write is among what the bylaw allows, whatever is written: the bylaw only forbids that the
store refuses. -/
theorem answering_written {key value : String} {expected : Option Nat}
    (hv : (answering base P hP).Inv v)
    (hassumes : (answering base P hP).Assumes (v.written i key value expected).past) :
    (answering base P hP).Inv (v.written i key value expected) ∧
      Grows v (v.written i key value expected) :=
  Bylaw.inv_written hv hassumes ⟨hv.own.1.trans (past_suffix_written ..), hv.own.2⟩

/-- A record can be read. -/
theorem not_bad_answering {stored : Versioned} {fault : Session.Fault}
    (hv : (answering base P hP).discipline.Later i u v)
    (hlookup : v.store.lookup (sessionKey k) = some stored)
    (hdecode : Session.decode stored.value = .error fault) : False := by
  obtain ⟨x, hx, -⟩ := (Bylaw.Inv.sound hv.inv hv.assumes).housed (Bylaw.Assumes.fresh hv.assumes)
    k stored hlookup
  exact nomatch hdecode.symm.trans hx

/-! ### Resolving -/

/-- A mapping that does not count: there is none, or in real mode it is to the mock meeting. -/
theorem unmapped_or_mock (hv : Sound v) {seen : Resolution}
    (hseen : seen = .read mode (v.store.lookup (mappingKey s)))
    (hfound : ∀ mapping version, seen ≠ .found mapping version) :
    v.store.mappingAt s = none ∨ mode = .real ∧
      v.store.mappingAt s = some ⟨mockMeetingId s, .mock⟩ ∧
      ∃ version, seen = .stale ⟨mockMeetingId s, .mock⟩ version := by
  -- What was read: nothing, or a mapping that is not to be kept, which is a mock one.
  cases hlookup : v.store.lookup (mappingKey s) with
  | none => exact .inl (Memory.mappingAt_eq_none_iff.2 hlookup)
  | some stored =>
    have hat := Memory.mappingAt_of_lookup hlookup
    rw [hlookup] at hseen
    rcases Resolution.ofStored_cases mode stored with ⟨-, heq⟩ | ⟨⟨hmode, hmock⟩, heq⟩
    · exact absurd (hseen.trans heq) (hfound _ _)
    · have hgiven := hv.mapped s _ hat
      have hstale := hseen.trans heq
      generalize Mapping.decode stored.value = mapping at *
      obtain ⟨meetingId, kind⟩ := mapping
      obtain rfl : kind = .mock := hmock
      obtain rfl : meetingId = mockMeetingId s := hgiven
      exact .inr ⟨hmode, hat, _, hstale⟩

/-! ### Opening a session -/

/-- A draft is of the session in a meeting, or of a new one if there is none. -/
structure Mirrors (m : Memory) (k : String) (d : Draft) : Prop where
  meeting : d.session.meetingId = k
  version : d.version = (m.lookup (sessionKey k)).map Versioned.version
  users : d.session.users = rosterAt m k
  clean : d.dirty = false → m.lookup (sessionKey k) ≠ none

theorem Mirrors.congr {m m' : Memory} {d : Draft} (h : Mirrors m k d)
    (hlookup : m'.lookup (sessionKey k) = m.lookup (sessionKey k)) : Mirrors m' k d where
  meeting := h.meeting
  version := hlookup ▸ h.version
  users := h.users.trans (rosterAt_of_lookup_eq hlookup).symm
  clean := hlookup ▸ h.clean

/-- A fresh session mirrors a key without a record. -/
theorem mirrors_new {m : Memory} {s : String} {meeting : Meeting} {t : Int}
    (h : m.lookup (sessionKey meeting.id) = none) :
    Mirrors m meeting.id ⟨Session.new s meeting t, none, true⟩ where
  meeting := rfl
  version := by rw [h, Option.map_none]
  users := (rosterAt_of_lookup_eq_none h).symm
  clean hdirty := nomatch hdirty

/-- A session read from the store and fitted to its mapping mirrors the record it was read from. -/
theorem mirrors_fit {m : Memory} {mapping : Mapping} {stored : Versioned} {x : Session}
    {dirty : Bool} (hlookup : m.lookup (sessionKey mapping.meetingId) = some stored)
    (hdecode : Session.decode stored.value = .ok x) :
    Mirrors m mapping.meetingId ⟨x.fit mapping, some stored.version, dirty⟩ where
  meeting := rfl
  version := by rw [hlookup, Option.map_some]
  users := (rosterAt_of_sessionAt (Memory.sessionAt_of_lookup hlookup hdecode)).symm
  clean _ h := nomatch hlookup.symm.trans h

theorem Mirrors.graded {m : Memory} {d : Draft} (h : Mirrors m k d) (degraded : Bool) :
    Mirrors m k (d.graded degraded) := by
  unfold Draft.graded
  split
  · exact h
  · exact ⟨h.meeting, h.version, h.users, fun hdirty => nomatch hdirty⟩

/-- A draft is of the session that was in a meeting at some time since. -/
def MirrorsSince (base : List Act) (P : Act → Prop) (hP : ¬ P (.switch false)) (i : Nat)
    (k : String) (u : World) (d : Draft) (w : World) : Prop :=
  ∃ v, (answering base P hP).discipline.Later i u v ∧
    (answering base P hP).discipline.Rests i v w ∧ Mirrors v.store k d

/-- Opening a mapped session gives a draft of the record as it is then. -/
theorem ensures_openMapped_mirrors {j : Joiner} {mapping : Mapping} :
    (answering base P hP).discipline.Ensures i (j.openMapped mapping)
      (MirrorsSince base P hP i mapping.meetingId u) (fun _ _ => False) u := by
  refine ensures_openMapped (fun v w t hv hlookup hreads _ => ⟨v, hv, hreads.rests, ?_⟩)
    (fun v w stored x hv hlookup hdecode hreads =>
      ⟨v, hv, hreads.rests, mirrors_fit hlookup hdecode⟩)
    (fun v w stored fault hv hlookup hdecode _ => not_bad_answering hv hlookup hdecode)
    fun w hfails => not_fails_answering hfails
  show Mirrors _ (Meeting.mk mapping.meetingId mapping.kind false).id _
  exact mirrors_new hlookup

/-- Opening an allocated session gives a draft of the record as it is then, also where the record is
of another session and is about to be replaced. -/
theorem ensures_openAllocated_mirrors {j : Joiner} {meeting : Meeting}
    (hgiven : Given u.past j.sessionId (.ofMeeting meeting)) :
    (answering base P hP).discipline.Ensures i (j.openAllocated meeting)
      (MirrorsSince base P hP i meeting.id u) (fun _ _ => False) u := by
  refine ensures_openAllocated
    (fun v w t hv hlookup hreads _ => ⟨v, hv, hreads.rests, mirrors_new hlookup⟩)
    (fun v w stored x hv hlookup hdecode _ hreads => ⟨v, hv, hreads.rests, ?_⟩)
    (fun v w stored x t hv hlookup hdecode hforeign _ _ => ?_)
    (fun v w stored fault hv hlookup hdecode _ => not_bad_answering hv hlookup hdecode)
    fun w hfails => not_fails_answering hfails
  · show Mirrors v.store (Mapping.ofMeeting meeting).meetingId _
    exact (mirrors_fit hlookup hdecode).graded _
  -- There is no session of another id in the meeting.
  · have hfresh := Bylaw.Assumes.fresh hv.assumes
    have hhoused := (Bylaw.Inv.sound hv.inv hv.assumes).housed_of_decode hfresh hlookup hdecode
    have hours := hhoused.fit_eq hfresh (hgiven.of_suffix (Grows.past hv.le)) rfl
    exact absurd hours.1 hforeign

end VoiceRoom.Concurrency
