import VoiceRoom.Proofs.Json.Reading
import VoiceRoom.Proofs.Records

/-!
# Session records of others

A session may have been stored by an older version of the service, or by something else, so its text
need not be the one that is written today. Members of the object come in any order, with others
among them, and three of them may be left out (`Session.CarriedBy`). However such an object is
spelled, it is read as the session (`Session.decode_carried`), unless it holds a number beyond the
range of doubles: then it is not read at all.

Only the kind needs a second look. Where it is given it counts, whatever the meeting's id looks
like, and where it is left out the id tells it, not the default.
-/

namespace VoiceRoom

open Json (Omits)

namespace Session

/-- Every spelling of an object that carries a session is read as the session, if a double can hold
each of its numbers. Otherwise it is no JSON to the reader. -/
theorem decode_carried {s : Session} {ms : List (String × Json)} {text : String} (ht : s.Timed)
    (hs : s.CarriedBy ms) (htext : Json.Spells 127 (Json.record ms) text.toList) :
    decode text =
      if (Json.record ms).numbers.all Json.Number.inRange then .ok s else .error .form := by
  have hread : Json.read? .everything (Symbol.ofText text) =
      if (Json.record ms).admitted .everything then some (Json.record ms) else none :=
    Json.read?_of_spells htext (Nat.le_refl 127)
  rw [Json.admitted_everything] at hread
  -- Numbers are checked while they are read, also those of members that the record does not use.
  split at hread
  · rename_i hrange
    rw [if_pos hrange, decode_of_read ht hs hread]
  · rename_i hrange
    rw [if_neg hrange, decode, hread]

/-! ### A record of an older version

It was stored before kinds were, and names no kind, no state and no icon. -/

def older : Session where
  sessionId := "s"
  meetingId := "mock-1"
  kind := .mock
  degraded := false
  users := [⟨"😀", 7, none⟩]
  createdAt := 0

def olderUser : List (String × Json) :=
  [("iconUrl", .null), ("joinedAt", .ofInt 7), ("userId", .ofText "😀")]

def olderNumber : Json.Number :=
  ⟨false, ['3'], ['0', '0'], some ⟨true, ['2']⟩⟩

def olderMembers : List (String × Json) :=
  [("users", .array [.record olderUser]), ("x", .array [.record [], .number olderNumber]),
    ("createdAt", .ofInt 0), ("meetingId", .ofText "mock-1"), ("sessionId", .ofText "s")]

def olderText : String :=
  " \x7b\"users\":[\x7b\"iconUrl\":null,\"joinedAt\":7,\"userId\":\"\\ud83D\\uDe00\"\x7d],\n" ++
    "\"x\" :[\x7b \x7d,3.00e-2],\"createdAt\":0,\"meetingId\":\"mock-1\",\"sessionId\":\"s\"\x7d\r\n"

/-- The members of the older record carry the session. -/
theorem carriedBy_older : older.CarriedBy olderMembers where
  names := by decide
  sessionId := by simp [olderMembers, older]
  meetingId := by simp [olderMembers, older]
  kind := .inr ⟨by decide, by simp [Omits, olderMembers]⟩
  degraded := .inr ⟨rfl, by simp [Omits, olderMembers]⟩
  users := .inl ⟨[olderUser], List.mem_cons_self, .cons
    { names := by decide
      userId := by simp [olderUser]
      joinedAt := by simp [olderUser]
      iconUrl := .inr ⟨rfl, .inl List.mem_cons_self⟩ } .nil⟩
  createdAt := by simp [olderMembers, older]

theorem spells_olderUser : Json.Spells 125 (.record olderUser)
    "\x7b\"iconUrl\":null,\"joinedAt\":7,\"userId\":\"\\ud83D\\uDe00\"\x7d".toList := by
  have hhigh : Json.SpellsUnit 0xD83D "\\ud83D".toList :=
    @Json.SpellsUnit.intro 13 8 3 13 'd' '8' '3' 'D' ⟨by decide, .inl rfl⟩ ⟨by decide, .inl rfl⟩
      ⟨by decide, .inl rfl⟩ ⟨by decide, .inr rfl⟩
  have hlow : Json.SpellsUnit 0xDE00 "\\uDe00".toList :=
    @Json.SpellsUnit.intro 13 14 0 0 'D' 'e' '0' '0' ⟨by decide, .inr rfl⟩ ⟨by decide, .inl rfl⟩
      ⟨by decide, .inl rfl⟩ ⟨by decide, .inl rfl⟩
  have hface : Json.SpellsChar '😀' ("\\ud83D".toList ++ "\\uDe00".toList) :=
    .pair (by decide) hhigh hlow
  have huserId : Json.Spells 124 (.ofText "😀") "\"\\ud83D\\uDe00\"".toList :=
    .text (Json.SpellsText.intro (s := "😀") (.cons hface .nil))
  have hiconUrl : Json.Spells 124 .null ['n', 'u', 'l', 'l'] := .atom .null
  have hjoinedAt : Json.Spells 124 (.ofInt 7) ['7'] := .atom (.number (Json.spellsNumber_ofInt 7))
  have hobject := @Json.Spells.object 124 [⟨"iconUrl", .null, Json.quote "iconUrl", _⟩,
    ⟨"joinedAt", .ofInt 7, Json.quote "joinedAt", _⟩,
    ⟨"userId", .ofText "😀", Json.quote "userId", _⟩] nofun (by simp [Json.spellsName_quote])
    (List.forall_mem_cons.2 ⟨hiconUrl, List.forall_mem_cons.2 ⟨hjoinedAt,
      List.forall_mem_singleton.2 huserId⟩⟩)
  exact hobject.of_eq (by decide +kernel)

theorem spells_olderNumber : Json.SpellsNumber olderNumber "3.00e-2".toList := by
  have hexponent : Json.SpellsExponent olderNumber.exponent "e-2".toList :=
    @Json.SpellsExponent.some 'e' ⟨true, ['2']⟩ ['-'] (.inl rfl) .minus (by decide) (by decide)
  exact @Json.SpellsNumber.intro olderNumber ".00".toList "e-2".toList
    (.digits rfl (by decide) nofun) (.digits (by decide) (by decide)) hexponent

theorem spells_older : Json.Spells 127 (.record olderMembers) olderText.toList := by
  have husers := @Json.Spells.array 125 [⟨.record olderUser, _⟩] nofun
    (List.forall_mem_singleton.2 spells_olderUser)
  have hempty := @Json.Spells.noMembers 124 [' '] (by decide)
  have hnumber : Json.Spells 125 (.number olderNumber) "3.00e-2".toList :=
    .atom (.number spells_olderNumber)
  have hx := @Json.Spells.array 125 [⟨.record [], _⟩, ⟨.number olderNumber, _⟩] nofun
    (List.forall_mem_cons.2 ⟨hempty, List.forall_mem_singleton.2 hnumber⟩)
  have hxName : Json.SpellsName "x" "\n\"x\" ".toList :=
    @Json.SpellsName.intro "x" ['\n'] (Json.quote "x") [' '] (by decide)
      (Json.spellsText_quote "x") (by decide)
  have hcreatedAt : Json.Spells 126 (.ofInt 0) ['0'] :=
    .atom (.number (Json.spellsNumber_ofInt 0))
  have hmeetingId : Json.Spells 126 (.ofText "mock-1") (Json.quote "mock-1") :=
    .text (Json.spellsText_quote "mock-1")
  have hsessionId : Json.Spells 126 (.ofText "s") (Json.quote "s") :=
    .text (Json.spellsText_quote "s")
  have hobject := @Json.Spells.object 126 [⟨"users", _, Json.quote "users", _⟩,
    ⟨"x", _, "\n\"x\" ".toList, _⟩, ⟨"createdAt", _, Json.quote "createdAt", _⟩,
    ⟨"meetingId", _, Json.quote "meetingId", _⟩, ⟨"sessionId", _, Json.quote "sessionId", _⟩] nofun
    (by simpa [Json.spellsName_quote] using hxName)
    (List.forall_mem_cons.2 ⟨husers, List.forall_mem_cons.2 ⟨hx, List.forall_mem_cons.2 ⟨hcreatedAt,
      List.forall_mem_cons.2 ⟨hmeetingId, List.forall_mem_singleton.2 hsessionId⟩⟩⟩⟩)
  have hwhole := @Json.Spells.blanks _ _ [' '] _ ['\r', '\n'] (by decide) hobject (by decide)
  exact hwhole.of_eq (by decide +kernel)

/-- The older record is read, its additional members being ignored. -/
theorem decode_carried_older : decode olderText = .ok older := by
  have htimed : older.Timed := ⟨rfl, List.forall_mem_singleton.2 rfl⟩
  have hrange : (Json.record olderMembers).numbers.all Json.Number.inRange = true := by decide
  rw [decode_carried htimed carriedBy_older spells_older, if_pos hrange]

/-! ### Values that no reader holds -/

def scant : Session where
  sessionId := "s"
  meetingId := "m"
  kind := .real
  degraded := false
  users := []
  createdAt := 5

/-- The members of a session beside a number of a thousand digits. -/
def vastMembers : List (String × Json) :=
  [("sessionId", .ofText "s"), ("meetingId", .ofText "m"), ("createdAt", .ofInt 5),
    ("x", .number ⟨false, ['1'], [], some ⟨false, ['9', '9', '9']⟩⟩)]

def vastText : String :=
  "\x7b\"sessionId\":\"s\",\"meetingId\":\"m\",\"createdAt\":5,\"x\":1e999\x7d"

/-- The members of the vast record carry the session. -/
theorem carriedBy_vast : scant.CarriedBy vastMembers where
  names := by decide
  sessionId := by simp [vastMembers, scant]
  meetingId := by simp [vastMembers, scant]
  kind := .inr ⟨by decide, by simp [Omits, vastMembers]⟩
  degraded := .inr ⟨rfl, by simp [Omits, vastMembers]⟩
  users := .inr ⟨rfl, by simp [Omits, vastMembers]⟩
  createdAt := by simp [vastMembers, scant]

theorem spells_vast : Json.Spells 127 (.record vastMembers) vastText.toList := by
  have hvalues : ∀ m ∈ vastMembers, Json.Spells 126 m.2 m.2.chars := by
    refine List.forall_mem_cons.2 ⟨Json.spells_chars (.text "s"), List.forall_mem_cons.2
      ⟨Json.spells_chars (.text "m"), List.forall_mem_cons.2
        ⟨Json.spells_chars (.int (by decide)), List.forall_mem_singleton.2 ?_⟩⟩⟩
    have hnumber := @Json.SpellsNumber.intro ⟨false, ['1'], [], some ⟨false, ['9', '9', '9']⟩⟩ []
      "e999".toList (.digits rfl (by decide) nofun) .none
      (@Json.SpellsExponent.some 'e' ⟨false, ['9', '9', '9']⟩ [] (.inl rfl) .none (by decide)
        (by decide))
    exact .atom (.number hnumber)
  exact (Json.spells_record hvalues).of_eq (by decide +kernel)

/-- A well-formed number that no double holds keeps a session from being read, and so does half of a
surrogate pair. -/
theorem decode_vast :
    scant.Timed ∧ scant.CarriedBy vastMembers ∧
      Json.Spells 127 (.record vastMembers) vastText.toList ∧ decode vastText = .error .form ∧
      decode "\x7b\"sessionId\":\"s\",\"meetingId\":\"m\",\"createdAt\":5,\"x\":\"\\ud800\"\x7d" =
        .error .form := by
  refine ⟨⟨rfl, nofun⟩, carriedBy_vast, spells_vast, ?_, ?_⟩
  · decide +kernel
  · decide +kernel

end Session

end VoiceRoom
