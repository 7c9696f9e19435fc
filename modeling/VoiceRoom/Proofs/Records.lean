import Mathlib.Data.List.Forall2
import VoiceRoom.Mapping
import VoiceRoom.Proofs.Json.Members
import VoiceRoom.Proofs.Json.RoundTrip
import VoiceRoom.Session.Record

/-!
# Stored records are read back

A mapping that was stored is the mapping that is read (`Mapping.decode_encode`), whatever its
meeting id looks like. So is a session whose timestamps are words (`Session.decode_encode`), and no
other session is ever read (`Session.timed_of_decode`).

An object is read as a session if its members carry the session's fields (`Session.CarriedBy`). The
one that is written today gives all of them.
-/

namespace VoiceRoom

open Json (Omits Plain)

variable {ms : List (String × Json)}

/-! ### Fields -/

/-- Kinds of meetings are read back. -/
theorem MeetingKind.ofJson?_toJson (repeats : Json.Repeats) (k : MeetingKind) :
    MeetingKind.ofJson? repeats k.toJson = some k := by
  cases k <;> rfl

/-- Kinds of meetings are plain. -/
theorem MeetingKind.plain_toJson {room : Nat} (k : MeetingKind) : Plain room k.toJson :=
  .text k.name

/-- Integers that fit a word are read back. -/
theorem Json.int64?_ofInt {i : Int} (h : fitsInt64 i) : Json.int64? (.ofInt i) = some i := by
  simp [Json.int64?, Json.ofInt, Json.Number.int?_ofInt, h]

/-- The size of an integer of 64 bits fits a word. -/
theorem natAbs_le_wordMax {i : Int} (h : fitsInt64 i) : i.natAbs ≤ wordMax := by
  rw [fitsInt64_iff] at h
  unfold int64Min int64Max at h
  unfold wordMax
  omega

/-- What is read as an integer fits a word. -/
theorem Json.fitsInt64_of_int64? {v : Json} {i : Int} (h : v.int64? = some i) : fitsInt64 i := by
  cases v with
  | number n =>
    obtain ⟨k, -, hk⟩ := Option.bind_eq_some_iff.1 h
    split at hk
    · rename_i hfits
      exact Option.some.inj hk ▸ hfits
    · exact nomatch hk
  | _ => exact nomatch h

namespace Json.Record

variable {α : Type} {r : Record} {f : Field} {read : Json → Option α} {a : α}

/-- A required member was there and could be read. -/
theorem exists_of_required (h : r.required f read = some a) : ∃ v, read v = some a := by
  unfold required at h
  split at h
  · exact ⟨_, h⟩
  · exact nomatch h

/-- An optional member has its default, or was there and could be read. -/
theorem eq_or_exists_of_optional {default : α} (h : r.optional f default read = some a) :
    a = default ∨ ∃ v, read v = some a := by
  unfold optional at h
  split at h
  · exact .inr ⟨_, h⟩
  · exact .inl (Option.some.inj h).symm
  · exact nomatch h

end Json.Record

/-! ### Mappings -/

namespace Mapping

/-- Mappings are plain. -/
theorem plain_toJson (m : Mapping) : Plain 1 m.toJson := by
  refine .object (by simp) fun member hmember => ?_
  simp only [List.map_cons, List.map_nil, List.mem_cons, List.not_mem_nil, or_false] at hmember
  rcases hmember with rfl | rfl
  · exact .text m.meetingId
  · exact m.kind.plain_toJson

/-- Mappings are read back. -/
theorem ofJson?_toJson (repeats : Json.Repeats) (m : Mapping) :
    ofJson? repeats m.toJson = some m := by
  have hkind := MeetingKind.ofJson?_toJson repeats m.kind
  cases repeats <;>
    simp [ofJson?, toJson, Json.record, Json.record?, Json.named?, Json.Record.required,
      Json.Record.find?, meetingIdField, kindField, Json.text?, Json.ofText, hkind]

/-- Mappings are decoded as they were encoded. -/
theorem decode_encode (m : Mapping) : decode m.encode = m := by
  have hread : Json.read? .form (Symbol.ofText m.encode) = some m.toJson :=
    Json.read?_render m.plain_toJson (by decide)
  simp [decode, read?, hread, ofJson?_toJson]

end Mapping

/-! ### Members -/

namespace Member

/-- The timestamp of a member is a word. -/
def Timed (m : Member) : Prop :=
  fitsInt64 m.joinedAt

/-- Members are plain. -/
theorem plain_toJson {m : Member} (h : m.Timed) : Plain 1 m.toJson := by
  refine .object (by simp) fun member hmember => ?_
  cases hicon : m.iconUrl with
  | none =>
    simp only [hicon, Option.map_none, Option.toList_none, List.append_nil, List.map_cons,
      List.map_nil, List.mem_cons, List.not_mem_nil, or_false] at hmember
    rcases hmember with rfl | rfl
    · exact .text m.userId
    · exact .int (natAbs_le_wordMax h)
  | some url =>
    simp only [hicon, Option.map_some, Option.toList_some, List.cons_append, List.nil_append,
      List.map_cons, List.map_nil, List.mem_cons, List.not_mem_nil, or_false] at hmember
    rcases hmember with rfl | rfl | rfl
    · exact .text m.userId
    · exact .int (natAbs_le_wordMax h)
    · exact .text url

/-- The object carries the fields of a member. An icon that is absent is left out or null. -/
structure CarriedBy (m : Member) (ms : List (String × Json)) : Prop where
  names : (ms.map Prod.fst).Nodup
  userId : ("userId", Json.ofText m.userId) ∈ ms
  joinedAt : ("joinedAt", Json.ofInt m.joinedAt) ∈ ms
  iconUrl : (∃ url, m.iconUrl = some url ∧ ("iconUrl", Json.ofText url) ∈ ms) ∨
    (m.iconUrl = none ∧ (("iconUrl", Json.null) ∈ ms ∨ Omits ms "iconUrl"))

/-- A member is read from any record that carries it. -/
theorem ofJson?_of_carriedBy (repeats : Json.Repeats) {m : Member} (ht : m.Timed)
    (h : m.CarriedBy ms) : ofJson? repeats (Json.record ms) = some m := by
  have huserId : Json.Record.required (.members repeats ms) userIdField Json.text? =
      some m.userId :=
    Json.Record.required_of_mem h.names h.userId rfl
  have hjoinedAt : Json.Record.required (.members repeats ms) joinedAtField Json.int64? =
      some m.joinedAt :=
    Json.Record.required_of_mem h.names h.joinedAt (Json.int64?_ofInt ht)
  have hiconUrl : Json.Record.optional (.members repeats ms) iconUrlField none Json.textOrNull? =
      some m.iconUrl := by
    rcases h.iconUrl with ⟨url, hurl, hmem⟩ | ⟨hnone, hmem | homits⟩
    · rw [hurl]
      exact Json.Record.optional_of_mem h.names hmem rfl
    · rw [hnone]
      exact Json.Record.optional_of_mem h.names hmem rfl
    · rw [hnone]
      exact Json.Record.optional_of_omits homits
  simp only [ofJson?, Json.record?_record, huserId, hjoinedAt, hiconUrl, Option.bind_eq_bind,
    Option.bind_some, Option.pure_def]

/-- The members of the object that is written. -/
def fields (m : Member) : List (String × Json) :=
  [("userId", Json.ofText m.userId), ("joinedAt", Json.ofInt m.joinedAt)] ++
    (m.iconUrl.map fun url => ("iconUrl", Json.ofText url)).toList

/-- A member is carried by its own fields. -/
theorem carriedBy_fields (m : Member) : m.CarriedBy m.fields := by
  obtain ⟨userId, joinedAt, iconUrl⟩ := m
  cases iconUrl with
  | none =>
    exact
      { names := (by decide : ["userId", "joinedAt"].Nodup)
        userId := .head _
        joinedAt := .tail _ (.head _)
        iconUrl := .inr ⟨rfl, .inr (by simp [Omits, fields])⟩ }
  | some url =>
    exact
      { names := (by decide : ["userId", "joinedAt", "iconUrl"].Nodup)
        userId := .head _
        joinedAt := .tail _ (.head _)
        iconUrl := .inl ⟨url, rfl, .tail _ (.tail _ (.head _))⟩ }

/-- A member that is read has a time that fits. -/
theorem timed_of_ofJson? {repeats : Json.Repeats} {v : Json} {m : Member}
    (h : ofJson? repeats v = some m) : m.Timed := by
  simp only [ofJson?, Option.bind_eq_bind, Option.bind_eq_some_iff, Option.pure_def,
    Option.some.injEq] at h
  obtain ⟨r, -, userId, -, joinedAt, hjoined, iconUrl, -, rfl⟩ := h
  obtain ⟨v', hv'⟩ := Json.Record.exists_of_required hjoined
  exact Json.fitsInt64_of_int64? hv'

end Member

/-- All the members of a roster that is read have times that fit. -/
theorem timed_of_list? {repeats : Json.Repeats} {v : Json} {users : List Member}
    (h : Json.list? (Member.ofJson? repeats) v = some users) : ∀ m ∈ users, m.Timed := by
  cases v with
  | array vs =>
    replace h : vs.mapM (Member.ofJson? repeats) = some users := h
    induction vs generalizing users with
    | nil =>
      obtain rfl : [] = users := Option.some.inj h
      exact fun _ hm => nomatch hm
    | cons v vs ih =>
      simp only [List.mapM_cons, Option.bind_eq_bind, Option.bind_eq_some_iff, Option.pure_def,
        Option.some.injEq] at h
      obtain ⟨m, hm, rest, hrest, rfl⟩ := h
      intro n hn
      rcases List.mem_cons.1 hn with rfl | hn
      · exact Member.timed_of_ofJson? hm
      · exact ih hrest n hn
  | _ => exact nomatch h

/-! ### Sessions -/

namespace Session

/-- The timestamps of a session are words. -/
structure Timed (s : Session) : Prop where
  created : fitsInt64 s.createdAt
  joined : ∀ m ∈ s.users, m.Timed

/-- Sessions are plain. -/
theorem plain_toJson {s : Session} (h : s.Timed) : Plain 3 s.toJson := by
  refine .object (by simp) fun member hmember => ?_
  simp only [List.map_cons, List.map_nil, List.mem_cons, List.not_mem_nil, or_false] at hmember
  rcases hmember with rfl | rfl | rfl | rfl | rfl | rfl
  · exact .text s.sessionId
  · exact .text s.meetingId
  · exact s.kind.plain_toJson
  · exact .bool s.degraded
  · refine .array fun v hv => ?_
    obtain ⟨m, hm, rfl⟩ := List.mem_map.1 hv
    exact Member.plain_toJson (h.joined m hm)
  · exact .int (natAbs_le_wordMax h.created)

/-- The object carries the fields of a session. A kind that the meeting's id tells, a session that
is not degraded and an empty roster may go without saying. -/
structure CarriedBy (s : Session) (ms : List (String × Json)) : Prop where
  names : (ms.map Prod.fst).Nodup
  sessionId : ("sessionId", Json.ofText s.sessionId) ∈ ms
  meetingId : ("meetingId", Json.ofText s.meetingId) ∈ ms
  kind : ("meetingKind", Json.ofText s.kind.name) ∈ ms ∨
    (s.kind = .classify s.meetingId ∧ Omits ms "meetingKind")
  degraded : ("degraded", Json.bool s.degraded) ∈ ms ∨ (s.degraded = false ∧ Omits ms "degraded")
  users : (∃ roster : List (List (String × Json)),
      ("users", Json.array (roster.map Json.record)) ∈ ms ∧
        List.Forall₂ Member.CarriedBy s.users roster) ∨
    (s.users = [] ∧ Omits ms "users")
  createdAt : ("createdAt", Json.ofInt s.createdAt) ∈ ms

/-- A roster is read from any records that carry its members. -/
theorem mapM_ofJson?_of_carriedBy (repeats : Json.Repeats) {users : List Member}
    {roster : List (List (String × Json))} (ht : ∀ m ∈ users, m.Timed)
    (h : List.Forall₂ Member.CarriedBy users roster) :
    (roster.map Json.record).mapM (Member.ofJson? repeats) = some users := by
  induction h with
  | nil => rfl
  | @cons m ms users roster hm _ ih =>
    obtain ⟨htimed, hrest⟩ := List.forall_mem_cons.1 ht
    simp [Member.ofJson?_of_carriedBy repeats htimed hm, ih hrest]

/-- What is read at first sight. The kind of a record that does not name one is taken for real. -/
theorem ofJson?_of_carriedBy (repeats : Json.Repeats) {s : Session} (ht : s.Timed)
    (h : s.CarriedBy ms) {kind : MeetingKind}
    (hkind : Json.Record.optional (.members repeats ms) kindField .real
      (MeetingKind.ofJson? repeats) = some kind) :
    ofJson? repeats (Json.record ms) = some { s with kind } := by
  have hsessionId : Json.Record.required (.members repeats ms) sessionIdField Json.text? =
      some s.sessionId :=
    Json.Record.required_of_mem h.names h.sessionId rfl
  have hmeetingId : Json.Record.required (.members repeats ms) meetingIdField Json.text? =
      some s.meetingId :=
    Json.Record.required_of_mem h.names h.meetingId rfl
  -- A member that has its default may be left out.
  have hdegraded : Json.Record.optional (.members repeats ms) degradedField false Json.bool? =
      some s.degraded := by
    rcases h.degraded with hmem | ⟨hfalse, homits⟩
    · exact Json.Record.optional_of_mem h.names hmem rfl
    · rw [hfalse]
      exact Json.Record.optional_of_omits homits
  have husers : Json.Record.optional (.members repeats ms) usersField []
      (Json.list? (Member.ofJson? repeats)) = some s.users := by
    rcases h.users with ⟨roster, hmem, hroster⟩ | ⟨hempty, homits⟩
    · exact Json.Record.optional_of_mem h.names hmem
        (mapM_ofJson?_of_carriedBy repeats ht.joined hroster)
    · rw [hempty]
      exact Json.Record.optional_of_omits homits
  have hcreatedAt : Json.Record.required (.members repeats ms) createdAtField Json.int64? =
      some s.createdAt :=
    Json.Record.required_of_mem h.names h.createdAt (Json.int64?_ofInt ht.created)
  simp only [ofJson?, Json.record?_record, hsessionId, hmeetingId, hkind, hdegraded, husers,
    hcreatedAt, Option.bind_eq_bind, Option.bind_some, Option.pure_def]

/-- The members of the object that is written. -/
def fields (s : Session) : List (String × Json) :=
  [("sessionId", Json.ofText s.sessionId), ("meetingId", Json.ofText s.meetingId),
    ("meetingKind", s.kind.toJson), ("degraded", .bool s.degraded),
    ("users", .array ((s.users.map Member.fields).map Json.record)),
    ("createdAt", Json.ofInt s.createdAt)]

/-- A session is written as the record of its fields. -/
theorem toJson_eq_record (s : Session) : s.toJson = Json.record s.fields := by
  rw [fields, List.map_map]
  rfl

/-- A session is carried by its own fields. -/
theorem carriedBy_fields (s : Session) : s.CarriedBy s.fields where
  names := (by decide :
    ["sessionId", "meetingId", "meetingKind", "degraded", "users", "createdAt"].Nodup)
  sessionId := by simp [fields]
  meetingId := by simp [fields]
  kind := .inl (by simp [fields, MeetingKind.toJson])
  degraded := .inl (by simp [fields])
  users := .inl ⟨s.users.map Member.fields, by simp [fields],
    List.forall₂_map_right_iff.2 (List.forall₂_same.2 fun m _ => m.carriedBy_fields)⟩
  createdAt := by simp [fields]

/-- Sessions are read back. -/
theorem ofJson?_toJson (repeats : Json.Repeats) {s : Session} (h : s.Timed) :
    ofJson? repeats s.toJson = some s := by
  have hkind : ("meetingKind", s.kind.toJson) ∈ s.fields := by simp [fields]
  rw [toJson_eq_record]
  exact ofJson?_of_carriedBy repeats h s.carriedBy_fields (Json.Record.optional_of_mem
    s.carriedBy_fields.names hkind (MeetingKind.ofJson?_toJson repeats s.kind))

theorem namesKind_of_mem {v : Json} (h : ("meetingKind", v) ∈ ms) :
    namesKind (Json.record ms) = true :=
  List.any_eq_true.2 ⟨(some "meetingKind", v), List.mem_map.2 ⟨_, h, rfl⟩, beq_self_eq_true _⟩

theorem namesKind_of_omits (h : Omits ms "meetingKind") : namesKind (Json.record ms) = false := by
  refine List.any_eq_false.2 (List.forall_mem_map.2 fun m hm => ?_)
  simpa [kindField] using h m hm

/-- A session is decoded from any text that spells a record which carries it. -/
theorem decode_of_read {s : Session} {text : String} (ht : s.Timed) (h : s.CarriedBy ms)
    (hread : Json.read? .everything (Symbol.ofText text) = some (Json.record ms)) :
    decode text = .ok s := by
  rcases h.kind with hmem | ⟨hkind, homits⟩
  · have hgiven := ofJson?_of_carriedBy .lastWins ht h
      (Json.Record.optional_of_mem h.names hmem (MeetingKind.ofJson?_toJson .lastWins s.kind))
    simp only [decode, hread, hgiven, namesKind_of_mem hmem, if_pos]
  · have hdefault := ofJson?_of_carriedBy .lastWins ht h (Json.Record.optional_of_omits homits)
    simp only [decode, hread, hdefault, namesKind_of_omits homits]
    rw [if_neg Bool.false_ne_true, ← hkind]

/-- Sessions are decoded as they were encoded. -/
theorem decode_encode {s : Session} (h : s.Timed) : decode s.encode = .ok s := by
  have hread : Json.read? .everything (Symbol.ofText s.encode) = some s.toJson :=
    Json.read?_render (plain_toJson h) (by decide)
  rw [toJson_eq_record] at hread
  exact decode_of_read h s.carriedBy_fields hread

/-- Only sessions whose timestamps are words can be read. -/
theorem timed_of_decode {text : String} {s : Session} (h : decode text = .ok s) : s.Timed := by
  unfold decode at h
  split at h
  · exact nomatch h
  · split at h
    · exact nomatch h
    · rename_i x hx
      simp only [ofJson?, Option.bind_eq_bind, Option.bind_eq_some_iff, Option.pure_def,
        Option.some.injEq] at hx
      obtain ⟨r, -, sessionId, -, meetingId, -, kind, -, degraded, -, users, husers, createdAt,
        hcreated, rfl⟩ := hx
      obtain ⟨v', hv'⟩ := Json.Record.exists_of_required hcreated
      have hcreated' := Json.fitsInt64_of_int64? hv'
      have hjoined : ∀ m ∈ users, m.Timed := by
        rcases Json.Record.eq_or_exists_of_optional husers with rfl | ⟨v, hv⟩
        · exact fun _ hm => nomatch hm
        · exact timed_of_list? hv
      obtain rfl := Except.ok.inj h
      split <;> exact ⟨hcreated', hjoined⟩

end Session

end VoiceRoom
