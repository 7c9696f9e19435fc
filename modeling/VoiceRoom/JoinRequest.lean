import VoiceRoom.Json.Record
import VoiceRoom.Text.Blank

/-!
# Requests to join

A request names the user and, if there is one, the icon to show. Ids are kept as they are sent;
white space around them is not taken off, but an id of nothing else is no id.
-/

namespace VoiceRoom

open Json (Field)

structure JoinRequest where
  userId : Option String
  iconUrl : Option String
deriving DecidableEq, Repr

namespace JoinRequest

/-- How many bytes a user id has at most. -/
def userIdLimit : Nat := 128

/-- How many bytes the address of an icon has at most. -/
def iconUrlLimit : Nat := 2048

/-- Why a request is turned down. -/
inductive Fault where
  | noUserId
  | longUserId
  | longIconUrl
deriving DecidableEq, Repr

def Fault.message : Fault → String
  | .noUserId => "User ID is required"
  | .longUserId => "User ID must be at most 128 characters"
  | .longIconUrl => "Icon URL must be at most 2048 characters"

/-- The user who asks to join. -/
def validate (r : JoinRequest) : Except Fault String :=
  let userId := r.userId.getD ""
  if isBlank userId then .error .noUserId
  else if userIdLimit < userId.utf8ByteSize then .error .longUserId
  else
    match r.iconUrl with
    | none => .ok userId
    | some url => if iconUrlLimit < url.utf8ByteSize then .error .longIconUrl else .ok userId

def userIdField : Field := ⟨0, "userId"⟩
def iconUrlField : Field := ⟨1, "iconUrl"⟩

def ofJson? (repeats : Json.Repeats) (v : Json) : Option JoinRequest := do
  let r ← v.record? repeats 2
  let userId ← r.optional userIdField none Json.textOrNull?
  let iconUrl ← r.optional iconUrlField none Json.textOrNull?
  return { userId, iconUrl }

end JoinRequest

end VoiceRoom
