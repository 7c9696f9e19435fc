import VoiceRoom.Proofs.Json.Bare
import VoiceRoom.Proofs.Records

/-!
# Stored formats

What is stored can be told apart. Different sessions are stored as different texts, and each is read
back by whoever takes the format at its word as well (`Session.encode_faithful`). A mapping in its
JSON form is never taken for a bare meeting id, nor the other way round (`Mapping.formats_apart`).
-/

namespace VoiceRoom

/-! ### Sessions -/

namespace Session

/-- Reads a session in its JSON form without a second look: one that does not name its kind counts
as real, and a name that is given twice is refused. -/
def read? (text : String) : Option Session :=
  Json.read? .form (Symbol.ofText text) >>= ofJson? .refused

/-- What is written is read back. -/
theorem read?_encode {s : Session} (h : s.Timed) : read? s.encode = some s := by
  have hread : Json.read? .form (Symbol.ofText s.encode) = some s.toJson :=
    Json.read?_render (plain_toJson h) (by decide)
  rw [read?, hread]
  exact ofJson?_toJson .refused h

/-- A session is read back as it was, with and without a second look at its kind, and it is stored
as no other session is. -/
theorem encode_faithful {s : Session} (h : s.Timed) :
    decode s.encode = .ok s ∧ read? s.encode = some s ∧
      ∀ s' : Session, s'.Timed → s'.encode = s.encode → s' = s := by
  refine ⟨decode_encode h, read?_encode h, fun s' h' hsame => ?_⟩
  have hread := read?_encode h'
  rw [hsame, read?_encode h] at hread
  exact (Option.some.inj hread).symm

/-- A session with all that may be odd about one: control characters, quotes and a character of two
UTF-16 units in its texts, the first and the last timestamp, and a kind that its meeting's id
belies. -/
def peculiar : Session where
  sessionId := "a\"\\\u0001\n\u007f😀"
  meetingId := "mock-"
  kind := .real
  degraded := true
  users := [⟨"😀", int64Max, some "/\t"⟩, ⟨"", int64Min, none⟩]
  createdAt := int64Min

/-- A session whose texts need every kind of escape. -/
theorem encode_faithful_peculiar :
    peculiar.Timed ∧ decode peculiar.encode = .ok peculiar ∧ read? peculiar.encode = some peculiar :=
  have htimed : peculiar.Timed :=
    ⟨rfl, List.forall_mem_cons.2 ⟨rfl, List.forall_mem_singleton.2 rfl⟩⟩
  ⟨htimed, (encode_faithful htimed).1, (encode_faithful htimed).2.1⟩

end Session

/-! ### Mappings -/

/-- An id is classified by how it begins. -/
theorem MeetingKind.classify_eq_mock_iff {meetingId : String} :
    classify meetingId = .mock ↔ ∃ rest, meetingId = "mock-" ++ rest := by
  have hclassify : classify meetingId = .mock ↔ "mock-".toList <+: meetingId.toList := by
    rw [← List.isPrefixOf_iff_prefix, classify, mockMark]
    split <;> simp_all
  rw [hclassify]
  constructor
  · rintro ⟨rest, hrest⟩
    exact ⟨.ofList rest, String.toList_injective (by simp [← hrest])⟩
  · rintro ⟨rest, rfl⟩
    exact ⟨rest.toList, by simp⟩

namespace Mapping

/-- A text that is not an object is no record. -/
theorem read?_of_bare {text : String} (h : Json.Bare text.toList) : read? text = none := by
  rw [read?]
  cases hread : Json.read? .form (Symbol.ofText text) with
  | none => rfl
  | some v =>
    have hflat : Json.Flat v := Json.flat_of_read? h hread
    show ofJson? .refused v = none
    rw [ofJson?, Json.record?_of_flat hflat]
    rfl

/-- A bare meeting id is kept as it is, white space included. -/
theorem decode_of_bare {text : String} (h : Json.Bare text.toList) :
    decode text = ⟨text, .classify text⟩ := by
  rw [decode, read?_of_bare h, Option.getD_none]

/-- The JSON form of a mapping opens an object. -/
theorem not_bare_encode (m : Mapping) : ¬ Json.Bare m.encode.toList := by
  have hchars : m.encode.toList = m.toJson.chars := by simp [encode, Json.render]
  have hopens : (m.encode.toList.dropWhile Json.isBlank).head? = some '{' := by
    rw [hchars, toJson, Json.chars_record]
    rfl
  exact fun hbare => hbare.2 hopens

/-- The two forms of a mapping are never taken for one another. What is stored in the JSON form is
read as it was, whether or not the kind goes with the meeting's id, and every text that opens no
array and no object is a bare meeting id, which alone tells the kind. -/
theorem formats_apart :
    (∀ m : Mapping, decode m.encode = m ∧ ¬ Json.Bare m.encode.toList) ∧
      ∀ text : String, Json.Bare text.toList →
        (decode text).meetingId = text ∧
          ((decode text).kind = .mock ↔ ∃ rest, text = "mock-" ++ rest) := by
  refine ⟨fun m => ⟨decode_encode m, not_bare_encode m⟩, fun text htext => ?_⟩
  rw [decode_of_bare htext]
  exact ⟨rfl, MeetingKind.classify_eq_mock_iff⟩

/-- A word of JSON is a bare meeting id with the white space around it, and so is a text that opens
an array only further on. -/
theorem formats_apart_null :
    Json.Bare " null\n".toList ∧ Json.Bare "mock-7 [".toList ∧
      (decode " null\n").meetingId = " null\n" ∧ (decode "mock-7 [").kind = .mock ∧
      decode (encode ⟨"[\"mock-\"]", .mock⟩) = ⟨"[\"mock-\"]", .mock⟩ :=
  ⟨by decide, by decide, (formats_apart.2 " null\n" (by decide)).1,
    (formats_apart.2 "mock-7 [" (by decide)).2.2 ⟨"7 [", rfl⟩, (formats_apart.1 _).1⟩

end Mapping

end VoiceRoom
