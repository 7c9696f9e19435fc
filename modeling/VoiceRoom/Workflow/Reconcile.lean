import VoiceRoom.Mapping
import VoiceRoom.Program
import VoiceRoom.Session.Record

/-!
# Loading the session of a mapping

The mapping decides which meeting a session lives in. A record that says otherwise is corrected as
it is loaded; writing the correction is left to whoever needs it.
-/

namespace VoiceRoom

/-- A session as it was loaded. -/
structure Loaded where
  session : Session
  version : Nat
  /-- The record disagreed with the mapping. -/
  repaired : Bool
deriving DecidableEq, Repr

namespace Session

/-- Whether a session says what a mapping says. -/
def agrees (s : Session) (m : Mapping) : Bool :=
  s.meetingId == m.meetingId && s.kind == m.kind

/-- The session in the meeting of a mapping. One that moves to a real meeting is degraded no
longer. -/
def fit (s : Session) (m : Mapping) : Session :=
  { s with
    meetingId := m.meetingId
    kind := m.kind
    degraded := s.degraded && (s.kind == m.kind || m.kind != .real) }

theorem fit_of_agrees {s : Session} {m : Mapping} (h : s.agrees m) : s.fit m = s := by
  simp only [agrees, Bool.and_eq_true, beq_iff_eq] at h
  obtain ⟨hid, hkind⟩ := h
  cases s
  simp_all [fit]

/-- A session that was fitted agrees with the mapping. -/
theorem agrees_fit (s : Session) (m : Mapping) : (s.fit m).agrees m := by
  simp [agrees, fit]

end Session

/-- Loads the session of a mapping, if there is one. -/
def load (m : Mapping) : Request (Option Loaded) := do
  let key := sessionKey m.meetingId
  let some stored ← Request.get key | return none
  match Session.decode stored.value with
  | .error _ =>
    Request.note (.sessionUnreadable key)
    throw .internal
  | .ok session =>
    if session.meetingId ≠ m.meetingId then
      Request.note (.meetingIdRepaired session.sessionId session.meetingId m.meetingId)
    return some ⟨session.fit m, stored.version, !session.agrees m⟩

end VoiceRoom
