import VoiceRoom.JoinRequest
import VoiceRoom.Proofs.Records
import VoiceRoom.Workflow.Reconcile

/-!
# Rosters

A session that is proper has room, names no user twice, and has only members whose requests were
accepted (`Session.Proper`). Adding a member keeps it so (`Session.Proper.add`), and a session goes
on as what it was, with more members at most (`Session.Continues`).
-/

namespace VoiceRoom

namespace Member

/-- A request of this member would be accepted. -/
def Admitted (m : Member) : Prop :=
  JoinRequest.validate ⟨some m.userId, m.iconUrl⟩ = .ok m.userId

/-- A request that was accepted makes a member who is. -/
theorem admitted_of_validate {r : JoinRequest} {userId : String} (h : r.validate = .ok userId)
    (joinedAt : Int) : Admitted { userId, joinedAt, iconUrl := r.iconUrl } := by
  obtain ⟨named, iconUrl⟩ := r
  have huser : userId = named.getD "" := by
    unfold JoinRequest.validate at h
    dsimp only at h
    -- whatever is checked, the name that comes out is the one that went in
    split at h
    · exact nomatch h
    · split at h
      · exact nomatch h
      · split at h
        · exact (Except.ok.inj h).symm
        · split at h
          · exact nomatch h
          · exact (Except.ok.inj h).symm
  cases named with
  | none => exact nomatch h
  | some name =>
    obtain rfl : userId = name := huser
    exact h

end Member

namespace Session

/-- A session that may be stored: it has room for its members, who are told apart by their ids and
were accepted, and a real meeting does not stand in for one. -/
structure Proper (s : Session) : Prop where
  room : s.users.length ≤ capacity
  distinct : (s.users.map Member.userId).Nodup
  admitted : ∀ m ∈ s.users, m.Admitted
  genuine : s.kind = .real → s.degraded = false
  timed : s.Timed

/-- The mapping that leads to a session. -/
def mapping (x : Session) : Mapping :=
  ⟨x.meetingId, x.kind⟩

/-- A session is the same as before, with members added at the end of the roster at most. -/
structure Continues (s s' : Session) : Prop where
  sessionId : s'.sessionId = s.sessionId
  meetingId : s'.meetingId = s.meetingId
  kind : s'.kind = s.kind
  createdAt : s'.createdAt = s.createdAt
  users : s.users <+: s'.users

variable {s s' s'' : Session} {m : Member}

theorem continues_refl (s : Session) : s.Continues s :=
  ⟨rfl, rfl, rfl, rfl, List.prefix_refl _⟩

theorem Continues.trans (h : s.Continues s') (h' : s'.Continues s'') : s.Continues s'' where
  sessionId := h'.sessionId.trans h.sessionId
  meetingId := h'.meetingId.trans h.meetingId
  kind := h'.kind.trans h.kind
  createdAt := h'.createdAt.trans h.createdAt
  users := h.users.trans h'.users

/-- A session is continued in the same meeting. -/
theorem Continues.mapping_eq (h : s.Continues s') : s'.mapping = s.mapping := by
  rw [mapping, mapping, h.meetingId, h.kind]

/-- Nobody leaves a session that is continued. -/
theorem Continues.hasMember (h : s.Continues s') {userId : String} (hm : s.hasMember userId) :
    s'.hasMember userId := by
  unfold Session.hasMember at hm ⊢
  rw [List.any_eq_true] at hm ⊢
  obtain ⟨m, hmem, hid⟩ := hm
  exact ⟨m, h.users.subset hmem, hid⟩

/-- A session has the members it lists. -/
theorem hasMember_iff {userId : String} :
    s.hasMember userId ↔ userId ∈ s.users.map Member.userId := by
  rw [hasMember, List.any_eq_true, List.mem_map]
  simp only [beq_iff_eq]

/-- Adding a member changes the roster only, and this only if the member is new. -/
theorem add_eq (s : Session) (m : Member) :
    s.add m = { s with users := if s.hasMember m.userId then s.users else s.users ++ [m] } := by
  unfold add
  split <;> rfl

/-- Adding a member continues the session. -/
theorem continues_add (s : Session) (m : Member) : s.Continues (s.add m) := by
  rw [add_eq]
  refine ⟨rfl, rfl, rfl, rfl, ?_⟩
  split
  · exact List.prefix_refl _
  · exact List.prefix_append _ _

/-- A session is not full while there are fewer members than places. -/
theorem isFull_eq_false_iff : s.isFull = false ↔ s.users.length < capacity := by
  unfold isFull
  rw [decide_eq_false_iff_not, Nat.not_le]

/-- A new session is proper. -/
theorem proper_new (sessionId : String) {meeting : Meeting} {createdAt : Int}
    (hgenuine : meeting.kind = .real → meeting.degraded = false) (hcreated : fitsInt64 createdAt) :
    (new sessionId meeting createdAt).Proper where
  room := Nat.zero_le _
  distinct := List.nodup_nil
  admitted _ h := nomatch h
  genuine := hgenuine
  timed := ⟨hcreated, fun _ h => nomatch h⟩

/-- A session with room for one has not too many members after that. -/
theorem length_users_add_le (hroom : s.isFull = false) (m : Member) :
    (s.add m).users.length ≤ capacity := by
  rw [isFull_eq_false_iff] at hroom
  rw [add_eq]
  dsimp only
  split
  · omega
  · rw [List.length_append]
    exact hroom

/-- A session stays timed when a timed member is added. -/
theorem Timed.add (h : s.Timed) (hm : m.Timed) : (s.add m).Timed := by
  rw [add_eq]
  refine ⟨h.created, fun n hn => ?_⟩
  dsimp only at hn
  split at hn
  · exact h.joined n hn
  · rcases List.mem_append.1 hn with hold | hlast
    · exact h.joined n hold
    · obtain rfl := List.mem_singleton.1 hlast
      exact hm

/-- A session stays proper when a member is added for whom there is room. -/
theorem Proper.add (h : s.Proper) (hroom : s.isFull = false) (hm : m.Admitted) (ht : m.Timed) :
    (s.add m).Proper := by
  refine ⟨length_users_add_le hroom m, ?_, fun n hn => ?_, ?_, h.timed.add ht⟩
  · rw [add_eq]
    dsimp only
    split
    · exact h.distinct
    -- A user that is not a member yet comes last.
    · rename_i hmem
      have hnew : m.userId ∉ s.users.map Member.userId := mt hasMember_iff.2 hmem
      rw [List.map_append, List.nodup_append]
      refine ⟨h.distinct, by simp, ?_⟩
      rintro a ha b hb rfl
      rw [List.map_singleton, List.mem_singleton] at hb
      exact hnew (hb ▸ ha)
  · rw [add_eq] at hn
    dsimp only at hn
    split at hn
    · exact h.admitted n hn
    · rcases List.mem_append.1 hn with hold | hlast
      · exact h.admitted n hold
      · obtain rfl := List.mem_singleton.1 hlast
        exact hm
  · rw [add_eq]
    exact h.genuine

end Session

end VoiceRoom
