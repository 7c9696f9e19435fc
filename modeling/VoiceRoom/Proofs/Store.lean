import VoiceRoom.Proofs.Records
import VoiceRoom.Store.Memory

/-!
# What a store says of session ids and meetings

Mappings and sessions have keys of their own, so a write of one is no write of another. A value at
a key is replaced by a value with a higher version, never by one with the same version: a
conditional write that succeeds finds exactly what was read (`Memory.Saw.lookup_eq`).
-/

namespace VoiceRoom

/-! ### Keys and meeting ids -/

/-- Different session ids have different mappings. -/
theorem mappingKey_inj {s s' : String} : mappingKey s = mappingKey s' ↔ s = s' := by
  unfold mappingKey
  rw [String.append_right_inj]

/-- Different meetings have different sessions. -/
theorem sessionKey_inj {m m' : String} : sessionKey m = sessionKey m' ↔ m = m' := by
  unfold sessionKey
  rw [String.append_right_inj]

/-- No mapping is a session. -/
theorem mappingKey_ne_sessionKey (s m : String) : mappingKey s ≠ sessionKey m := by
  intro h
  have hchars := congrArg String.toList h
  simp [mappingKey, sessionKey, String.toList_append] at hchars

/-- Different session ids have different mock meetings. -/
theorem mockMeetingId_inj {s s' : String} : mockMeetingId s = mockMeetingId s' ↔ s = s' := by
  unfold mockMeetingId
  rw [String.append_right_inj]

/-- Mock meetings are known by their mark. -/
theorem mark_prefix_mockMeetingId (s : String) :
    "mock-meeting-".toList <+: (mockMeetingId s).toList := by
  unfold mockMeetingId MeetingKind.mockMark
  rw [String.toList_append, String.toList_append]
  exact List.prefix_append _ _

namespace Memory

/-- The mapping of a session id. -/
def mappingAt (m : Memory) (sessionId : String) : Option Mapping :=
  (m.lookup (mappingKey sessionId)).map fun v => Mapping.decode v.value

/-- The session in a meeting, unless its record cannot be read. -/
def sessionAt (m : Memory) (meetingId : String) : Option Session :=
  (m.lookup (sessionKey meetingId)).bind fun v => (Session.decode v.value).toOption

variable {m m' m'' : Memory} {key : String} {v : Versioned}

/-- The mapping of a session id is what its record denotes. -/
theorem mappingAt_of_lookup {s : String} (h : m.lookup (mappingKey s) = some v) :
    m.mappingAt s = some (Mapping.decode v.value) := by
  rw [mappingAt, h, Option.map_some]

/-- A session id that is mapped has a record. -/
theorem lookup_of_mappingAt {s : String} {mapping : Mapping} (h : m.mappingAt s = some mapping) :
    ∃ v, m.lookup (mappingKey s) = some v ∧ Mapping.decode v.value = mapping :=
  Option.map_eq_some_iff.1 h

/-- A session id is unmapped if it has no record. -/
theorem mappingAt_eq_none_iff {s : String} :
    m.mappingAt s = none ↔ m.lookup (mappingKey s) = none :=
  Option.map_eq_none_iff

/-- The session in a meeting is what its record denotes. -/
theorem sessionAt_of_lookup {k : String} {x : Session} (h : m.lookup (sessionKey k) = some v)
    (hx : Session.decode v.value = .ok x) : m.sessionAt k = some x := by
  rw [sessionAt, h, Option.bind_some, hx]
  rfl

/-- Without a record there is no session. -/
theorem sessionAt_of_lookup_eq_none {k : String} (h : m.lookup (sessionKey k) = none) :
    m.sessionAt k = none := by
  rw [sessionAt, h, Option.bind_none]

/-- A session has a record. -/
theorem lookup_of_sessionAt {k : String} {x : Session} (h : m.sessionAt k = some x) :
    ∃ v, m.lookup (sessionKey k) = some v ∧ Session.decode v.value = .ok x := by
  obtain ⟨v, hv, hx⟩ := Option.bind_eq_some_iff.1 h
  refine ⟨v, hv, ?_⟩
  cases hdecode : Session.decode v.value with
  | error fault => rw [hdecode] at hx; exact nomatch hx
  | ok y =>
    rw [hdecode] at hx
    exact congrArg Except.ok (Option.some.inj hx)

/-! ### Writes -/

/-- A mapping that was written is there, and no other one is touched. -/
theorem mappingAt_insert_encode (m : Memory) (s s' : String) (mapping : Mapping) (version : Nat) :
    (m.insert (mappingKey s) ⟨mapping.encode, version⟩).mappingAt s' =
      if s' = s then some mapping else m.mappingAt s' := by
  unfold mappingAt
  rw [lookup_insert]
  by_cases h : s' = s
  · rw [if_pos (mappingKey_inj.2 h), if_pos h, Option.map_some, Mapping.decode_encode]
  · rw [if_neg (mt mappingKey_inj.1 h), if_neg h]

/-- Writing a session leaves the mappings alone. -/
theorem mappingAt_insert_session (m : Memory) (k s : String) (v : Versioned) :
    (m.insert (sessionKey k) v).mappingAt s = m.mappingAt s := by
  unfold mappingAt
  rw [lookup_insert, if_neg (mappingKey_ne_sessionKey s k)]

/-- Writing a session leaves the other sessions alone. -/
theorem lookup_insert_session (m : Memory) (k k' : String) (v : Versioned) :
    (m.insert (sessionKey k) v).lookup (sessionKey k') =
      if k' = k then some v else m.lookup (sessionKey k') := by
  rw [lookup_insert]
  by_cases h : k' = k
  · rw [if_pos (sessionKey_inj.2 h), if_pos h]
  · rw [if_neg (mt sessionKey_inj.1 h), if_neg h]

/-- Writing a mapping leaves the sessions alone. -/
theorem lookup_insert_mapping (m : Memory) (s k : String) (v : Versioned) :
    (m.insert (mappingKey s) v).lookup (sessionKey k) = m.lookup (sessionKey k) := by
  rw [lookup_insert, if_neg (mappingKey_ne_sessionKey s k).symm]

/-- A session that was written is there, and no other one is touched. -/
theorem sessionAt_insert_encode (m : Memory) (k k' : String) {x : Session} (hx : x.Timed)
    (version : Nat) :
    (m.insert (sessionKey k) ⟨x.encode, version⟩).sessionAt k' =
      if k' = k then some x else m.sessionAt k' := by
  unfold sessionAt
  rw [lookup_insert_session]
  by_cases h : k' = k
  · rw [if_pos h, if_pos h, Option.bind_some, Session.decode_encode hx]
    rfl
  · rw [if_neg h, if_neg h]

theorem get_of_lookup {v : Option Versioned} (hup : m.available = true)
    (hlookup : m.lookup key = v) : m.get key = .ok v := by
  rw [get, if_pos hup, hlookup]

/-- A put at the current version is carried out. -/
theorem putIf_of_version (value : String) {expected : Option Nat} (hup : m.available = true)
    (hversion : (m.lookup key).map Versioned.version = expected) :
    m.putIf key value expected =
      (.ok (.written (m.nextVersion key)), m.insert key ⟨value, m.nextVersion key⟩) := by
  unfold putIf
  rw [if_pos hup, if_pos hversion]

/-! ### Versions -/

/-- A value was at a key: it is there still, or one with a higher version is. -/
def Saw (m : Memory) (key : String) (v : Versioned) : Prop :=
  ∃ v', m.lookup key = some v' ∧ (v' = v ∨ v.version < v'.version)

/-- What was at a key once is there still, or was replaced. -/
def Advances (m m' : Memory) : Prop :=
  ∀ key v, m.lookup key = some v → m'.Saw key v

theorem saw_of_lookup (h : m.lookup key = some v) : m.Saw key v :=
  ⟨v, h, .inl rfl⟩

theorem Saw.advance (h : m.Saw key v) (hm : m.Advances m') : m'.Saw key v := by
  obtain ⟨v', hv', hold⟩ := h
  obtain ⟨v'', hv'', hnew⟩ := hm key v' hv'
  refine ⟨v'', hv'', ?_⟩
  rcases hold with rfl | hlt
  · exact hnew
  · rcases hnew with rfl | hlt'
    · exact .inr hlt
    · exact .inr (Nat.lt_trans hlt hlt')

/-- A version belongs to one value. -/
theorem Saw.lookup_eq (h : m.Saw key v)
    (hversion : (m.lookup key).map Versioned.version = some v.version) :
    m.lookup key = some v := by
  obtain ⟨v', hv', hold⟩ := h
  rw [hv', Option.map_some, Option.some.injEq] at hversion
  rcases hold with rfl | hlt
  · exact hv'
  -- What replaced it has a higher version.
  · omega

theorem advances_refl (m : Memory) : m.Advances m :=
  fun _ _ h => saw_of_lookup h

theorem Advances.trans (h : m.Advances m') (h' : m'.Advances m'') : m.Advances m'' :=
  fun key v hv => (h key v hv).advance h'

theorem advances_of_lookup_eq (h : ∀ key, m'.lookup key = m.lookup key) : m.Advances m' :=
  fun key _ hv => saw_of_lookup ((h key).trans hv)

/-- Writing a record with the next version is an advance. -/
theorem advances_insert (m : Memory) (key value : String) :
    m.Advances (m.insert key ⟨value, m.nextVersion key⟩) := by
  intro k v hv
  unfold Saw
  rw [lookup_insert]
  by_cases hk : k = key
  · subst hk
    rw [if_pos rfl]
    refine ⟨_, rfl, .inr ?_⟩
    show v.version < m.nextVersion k
    rw [nextVersion, hv]
    exact Nat.lt_succ_self v.version
  · rw [if_neg hk]
    exact ⟨v, hv, .inl rfl⟩

end Memory

end VoiceRoom
