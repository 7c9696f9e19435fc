import VoiceRoom.Meeting

/-!
# Sessions

A session is a room: a meeting and the members who are in it, in the order they came. A member is
known by user id, which occurs once in a roster.
-/

namespace VoiceRoom

/-- How many members a session has room for. -/
def capacity : Nat := 5

structure Member where
  userId : String
  /-- Milliseconds since the epoch. -/
  joinedAt : Int
  iconUrl : Option String
deriving DecidableEq, Repr

structure Session where
  sessionId : String
  meetingId : String
  kind : MeetingKind
  /-- The meeting stands in for one that the provider failed to give. -/
  degraded : Bool
  users : List Member
  /-- Milliseconds since the epoch. -/
  createdAt : Int
deriving DecidableEq, Repr

namespace Session

/-- A session without members. -/
def new (sessionId : String) (meeting : Meeting) (createdAt : Int) : Session where
  sessionId
  meetingId := meeting.id
  kind := meeting.kind
  degraded := meeting.degraded
  users := []
  createdAt

def isFull (s : Session) : Bool :=
  capacity ≤ s.users.length

def hasMember (s : Session) (userId : String) : Bool :=
  s.users.any (·.userId == userId)

/-- The session with a member at the end of its roster, unless the user is in it already. -/
def add (s : Session) (m : Member) : Session :=
  if s.hasMember m.userId then s else { s with users := s.users ++ [m] }

/-- Who is added is a member. -/
@[simp] theorem hasMember_add (s : Session) (m : Member) : (s.add m).hasMember m.userId := by
  by_cases h : s.hasMember m.userId
  · simp [add, h]
  · rw [add, if_neg h]
    simp [hasMember]

/-- Who is a member already is not added again. -/
theorem add_of_hasMember {s : Session} {m : Member} (h : s.hasMember m.userId) : s.add m = s := by
  simp [add, h]

/-- Who is not a member yet is added at the end. -/
theorem users_add_of_not_hasMember {s : Session} {m : Member} (h : ¬ s.hasMember m.userId) :
    (s.add m).users = s.users ++ [m] := by
  simp [add, h]

end Session

end VoiceRoom
