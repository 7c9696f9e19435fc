import VoiceRoom.Proofs.Records
import VoiceRoom.Proofs.Store.Readback
import VoiceRoom.Simulation.Run
import VoiceRoom.Workflow.Reconcile

/-!
# Loading a session corrects its record

Loading the session of a mapping asks the store once and writes nothing. What comes of it is told by
the record alone, whatever text that is: the session as the record has it, moved to the meeting of
the mapping (`Mapping.Reconciles`).

A session that was loaded is a fixed point. Written in the place of its record it names its kind, so
that reading it never guesses a kind from the id of the meeting, and it says what the mapping says:
loaded again it is the same, and nothing is left to correct (`load_converges`).
-/

namespace VoiceRoom

open Simulation (run)

variable {mapping : Mapping} {x y : Session}

/-! ### What loading makes of a record -/

/-- A session as it was loaded for a mapping, beside the session that was stored. -/
structure Mapping.Corrects (mapping : Mapping) (x y : Session) : Prop where
  meetingId : y.meetingId = mapping.meetingId
  kind : y.kind = mapping.kind
  sessionId : y.sessionId = x.sessionId
  users : y.users = x.users
  createdAt : y.createdAt = x.createdAt
  /-- A mock meeting that turned real stands in for nothing. -/
  degraded : y.degraded = if x.kind = .mock ∧ mapping.kind = .real then false else x.degraded

/-- Fitting a session to a mapping corrects it. -/
theorem corrects_fit (mapping : Mapping) (x : Session) : mapping.Corrects x (x.fit mapping) where
  meetingId := rfl
  kind := rfl
  sessionId := rfl
  users := rfl
  createdAt := rfl
  degraded := by
    show (x.degraded && (x.kind == mapping.kind || mapping.kind != .real)) = _
    cases x.kind <;> cases mapping.kind <;> simp

/-- A session disagrees with a mapping just if moving it to its meeting changes it. -/
theorem not_agrees_iff : (!x.agrees mapping) = true ↔ x ≠ x.fit mapping := by
  constructor
  · intro hdiffers hsame
    have hagrees : x.agrees mapping = true := by
      rw [hsame]
      exact x.agrees_fit mapping
    simp [hagrees] at hdiffers
  · intro hmoved
    cases hagrees : x.agrees mapping with
    | false => rfl
    | true => exact absurd (Session.fit_of_agrees hagrees).symm hmoved

/-- What loading the session of a mapping comes to, by what is stored of it. -/
structure Mapping.Reconciles (mapping : Mapping) (stored : Option Versioned)
    (result : Except ServiceError (Option Loaded)) : Prop where
  vacant : result = .ok none ↔ stored = none
  unreadable : result = .error .internal ↔
    ∃ v, stored = some v ∧ ∀ x, Session.decode v.value ≠ .ok x
  /-- There is no other way to fail. -/
  internal : ∀ e, result = .error e → e = .internal
  loaded : ∀ l, result = .ok (some l) → ∃ v x, stored = some v ∧
    Session.decode v.value = .ok x ∧ mapping.Corrects x l.session ∧ l.version = v.version ∧
    (l.repaired = true ↔ x ≠ l.session)

/-- Where there is nothing, nothing is loaded. -/
theorem reconciles_vacant : mapping.Reconciles none (.ok none) where
  vacant := by simp
  unreadable := by simp
  internal _ h := nomatch h
  loaded _ h := nomatch h

/-- A record that cannot be read is an internal error. -/
theorem reconciles_unreadable {v : Versioned} {fault : Session.Fault}
    (hdecode : Session.decode v.value = .error fault) :
    mapping.Reconciles (some v) (.error .internal) where
  vacant := by simp
  unreadable := by simp [hdecode]
  internal _ h := (Except.error.inj h).symm
  loaded _ h := nomatch h

/-- A session that is read is loaded as corrected, and marked if it differed. -/
theorem reconciles_session {v : Versioned} (hdecode : Session.decode v.value = .ok x) :
    mapping.Reconciles (some v) (.ok (some ⟨x.fit mapping, v.version, !x.agrees mapping⟩)) where
  vacant := by simp
  unreadable := by simp [hdecode]
  internal _ h := nomatch h
  loaded l hl := by
    obtain rfl := Option.some.inj (Except.ok.inj hl)
    exact ⟨v, x, rfl, hdecode, corrects_fit mapping x, rfl, not_agrees_iff⟩

/-! ### Programs that ask once -/

/-- The store of a world answers, and this is what it says of a key. -/
structure Simulation.World.Tells (w : Simulation.World) (key : String)
    (stored : Option Versioned) : Prop where
  sound : w.fault = none
  result : (w.store.get key).result = .ok stored

/-- A world that tells a record answers a get with it. -/
theorem Simulation.World.Tells.answer {w : Simulation.World} {key : String}
    {stored : Option Versioned} (h : w.Tells key stored) :
    ∃ w', w.answer (.get key) = (some (.ok stored), w') ∧ w'.store = w.store := by
  have hstore : (w.advance w.storeMs).store.get key = ⟨.ok stored, w.store, []⟩ :=
    Simulation.Store.get_eq_of_ok h.result
  have hsound : (w.advance w.storeMs).fault = none := h.sound
  unfold Simulation.World.answer Simulation.World.callStore Simulation.World.useStore
  simp only [hsound, hstore]
  exact ⟨_, rfl, rfl⟩

/-- A program only notes something, if anything. -/
inductive Program.Notes {α : Type} : Program α → α → Prop where
  | done (a : α) : Notes (.done a) a
  | note (e : Event) {rest : Unit → Program α} {a : α} (h : Notes (rest ()) a) :
      Notes (.ask (.note e) rest) a

/-- Notes cost no call to the store. -/
theorem Program.Notes.run_eq {α : Type} {p : Program α} {a : α} (h : p.Notes a)
    (progress : Simulation.Progress Empty) :
    ∃ after, run [] p progress = (some a, after) ∧ after.world.store = progress.world.store ∧
      after.entries = progress.entries := by
  induction h generalizing progress with
  | done a => exact ⟨progress, rfl, rfl, rfl⟩
  | note e _ ih => exact ih { progress with world := progress.world.note e }

/-- A program comes to a result in a world: it asks the store for a key and for nothing else, and
leaves the store as it is. -/
def Program.AsksOnce {α : Type} (p : Program α) (w : Simulation.World) (key : String)
    (stored : Option Versioned) (a : α) : Prop :=
  ∃ after : Simulation.Progress Empty, run [] p { world := w } = (some a, after) ∧
    after.world.store = w.store ∧ after.entries = [⟨.get key, .ok stored⟩]

/-- The one answer determines the result. -/
theorem Program.AsksOnce.unique {α : Type} {w : Simulation.World} {p : Program α} {key : String}
    {stored stored' : Option Versioned} {a a' : α} (h : p.AsksOnce w key stored a)
    (h' : p.AsksOnce w key stored' a') : a = a' := by
  obtain ⟨after, hrun, -⟩ := h
  obtain ⟨after', hrun', -⟩ := h'
  exact Option.some.inj (congrArg Prod.fst (hrun.symm.trans hrun'))

theorem notes_then {α : Type} {e : Event} {x : Request α} {a : Except ServiceError α}
    (h : x.run.Notes a) : (Request.note e >>= fun _ => x).run.Notes a :=
  .note e h

/-- A get may be the one call. -/
theorem asksOnce_get {α : Type} {w : Simulation.World} {key : String} {stored : Option Versioned}
    {f : Option Versioned → Request α} {a : Except ServiceError α} (h : w.Tells key stored)
    (hnext : (f stored).run.Notes a) : (Request.get key >>= f).run.AsksOnce w key stored a := by
  obtain ⟨w', hanswer, hstore⟩ := h.answer
  obtain ⟨after, hrun, hafter, hentries⟩ :=
    hnext.run_eq ⟨w', [⟨.get key, .ok stored⟩], [], 1, 0⟩
  refine ⟨after, ?_, hafter.trans hstore, hentries⟩
  show run [] (.ask (.get key) _) _ = _
  have harrive : (Simulation.Progress.arrive (α := Empty) { world := w } [] (.get key)).world.answer
      (.get key) = (some (.ok stored), w') := hanswer
  rw [run, harrive]
  exact hrun

/-- A record that is a session is loaded as that session in the meeting of the mapping. -/
theorem asksOnce_load {w : Simulation.World} {v : Versioned}
    (h : w.Tells (sessionKey mapping.meetingId) (some v))
    (hdecode : Session.decode v.value = .ok x) :
    (load mapping).run.AsksOnce w (sessionKey mapping.meetingId) (some v)
      (.ok (some ⟨x.fit mapping, v.version, !x.agrees mapping⟩)) := by
  unfold load
  refine asksOnce_get h ?_
  dsimp only
  rw [hdecode]
  dsimp only
  split
  · exact notes_then (.done _)
  · exact .done _

/-- Loading asks for the record at the meeting of the mapping and tells what it says. -/
theorem exists_reconciles {w : Simulation.World} {stored : Option Versioned}
    (h : w.Tells (sessionKey mapping.meetingId) stored) :
    ∃ result, (load mapping).run.AsksOnce w (sessionKey mapping.meetingId) stored result ∧
      mapping.Reconciles stored result := by
  cases stored with
  | none =>
    refine ⟨.ok none, ?_, reconciles_vacant⟩
    unfold load
    exact asksOnce_get h (.done _)
  | some v =>
    cases hdecode : Session.decode v.value with
    | error fault =>
      refine ⟨.error .internal, ?_, reconciles_unreadable hdecode⟩
      unfold load
      refine asksOnce_get h ?_
      dsimp only
      rw [hdecode]
      exact notes_then (.done _)
    | ok x => exact ⟨_, asksOnce_load h hdecode, reconciles_session hdecode⟩

/-! ### Convergence -/

/-- A session that was corrected agrees with the mapping. -/
theorem Mapping.Corrects.agrees (h : mapping.Corrects x y) : y.agrees mapping = true := by
  simp [Session.agrees, h.meetingId, h.kind]

theorem Mapping.Corrects.timed (h : mapping.Corrects x y) (hx : x.Timed) : y.Timed where
  created := by
    rw [h.createdAt]
    exact hx.created
  joined := by
    rw [h.users]
    exact hx.joined

/-- A session that is stored in its meeting is loaded as it is. -/
theorem asksOnce_load_of_agrees {w : Simulation.World} {n : Nat} (htimed : y.Timed)
    (hagrees : y.agrees mapping = true)
    (h : w.Tells (sessionKey mapping.meetingId) (some ⟨y.encode, n⟩)) :
    (load mapping).run.AsksOnce w (sessionKey mapping.meetingId) (some ⟨y.encode, n⟩)
      (.ok (some ⟨y, n, false⟩)) := by
  have hload := asksOnce_load h (Session.decode_encode htimed)
  rw [Session.fit_of_agrees hagrees, hagrees] at hload
  exact hload

/-- Where a session is written in the place of its record, loading finds nothing to correct. -/
structure Mapping.Converges (mapping : Mapping) (s : Simulation.Store) (l : Loaded) : Prop where
  again : ∀ c : StoreCall, c.Gives (sessionKey mapping.meetingId) l.session.encode →
    (c.perform s).1.wrote = true → ∀ w stored, w.store = (c.perform s).2 →
      w.Tells (sessionKey mapping.meetingId) stored →
      ∃ n, (load mapping).run.AsksOnce w (sessionKey mapping.meetingId) stored
        (.ok (some ⟨l.session, n, false⟩))
  /-- The store in memory accepts it for the version that was seen, and goes on to answer. -/
  accepted : ∀ m, s = .memory m → ∃ m',
    m.putIf (sessionKey mapping.meetingId) l.session.encode (some l.version) =
        (.ok (.written (l.version + 1)), m') ∧
      m'.get (sessionKey mapping.meetingId) = .ok (some ⟨l.session.encode, l.version + 1⟩)

/-- Writing the corrected session back leaves nothing to correct. -/
theorem Mapping.Corrects.converges {w : Simulation.World} {v : Versioned} {l : Loaded}
    (h : w.Tells (sessionKey mapping.meetingId) (some v)) (hx : Session.decode v.value = .ok x)
    (hl : mapping.Corrects x l.session) (hversion : l.version = v.version) :
    mapping.Converges w.store l where
  again c hc hwrote w' stored hstore h' := by
    have hhas : w'.store.Has (sessionKey mapping.meetingId) l.session.encode :=
      hstore ▸ has_of_wrote hc hwrote
    obtain ⟨n, rfl⟩ := hhas.eq_of_get h'.result
    exact ⟨n, asksOnce_load_of_agrees (hl.timed (Session.timed_of_decode hx)) hl.agrees h'⟩
  accepted m hm := by
    have hget : m.get (sessionKey mapping.meetingId) = .ok (some v) := by
      have hresult := h.result
      rw [hm] at hresult
      exact hresult
    rw [hversion]
    exact Memory.putIf_of_get hget l.session.encode

/-- Loading the session of a mapping writes nothing and tells what is stored, corrected to what the
mapping says. Once that is stored, loading it again finds nothing to correct. -/
theorem load_converges (mapping : Mapping) {w : Simulation.World} {stored : Option Versioned}
    (h : w.Tells (sessionKey mapping.meetingId) stored) :
    ∃ result, (load mapping).run.AsksOnce w (sessionKey mapping.meetingId) stored result ∧
      mapping.Reconciles stored result ∧
      ∀ l, result = .ok (some l) → mapping.Converges w.store l := by
  obtain ⟨result, hasks, hreconciles⟩ := exists_reconciles h
  refine ⟨result, hasks, hreconciles, ?_⟩
  intro l hl
  obtain ⟨v, x, rfl, hx, hcorrects, hversion, -⟩ := hreconciles.loaded l hl
  exact hcorrects.converges h hx hversion

/-- A record from before kinds were stored, of a session in a mock meeting. -/
def legacyRecord : Versioned where
  value :=
    "\x7b\"sessionId\":\"s\",\"meetingId\":\"mock-meeting-s\",\"degraded\":true,\"createdAt\":0\x7d"
  version := 4

/-- A record of old is in a mock meeting of the same name as its session. -/
theorem decode_legacyRecord :
    Session.decode legacyRecord.value = .ok ⟨"s", "mock-meeting-s", .mock, true, [], 0⟩ := by
  decide +kernel

/-- A world in which that record is at the meeting `m`. -/
def legacyWorld : Simulation.World where
  appId := "app"
  clock := 0
  store := .memory (({} : Memory).insert (sessionKey "m") legacyRecord)
  provider := .listed []
  mode := .real
  storeMs := 0
  providerMs := 0
  bits := []

/-- Where the mapping says that the meeting is a real one, the session is loaded as a real one that
is degraded no longer, and so it stays. -/
theorem load_converges_legacyRecord :
    ∃ l, (load ⟨"m", .real⟩).run.AsksOnce legacyWorld (sessionKey "m") (some legacyRecord)
        (.ok (some l)) ∧
      l = ⟨⟨"s", "m", .real, false, [], 0⟩, 4, true⟩ ∧
      (Mapping.mk "m" .real).Converges legacyWorld.store l := by
  have htells : legacyWorld.Tells (sessionKey "m") (some legacyRecord) := by
    refine ⟨rfl, ?_⟩
    have hlookup : (({} : Memory).insert (sessionKey "m") legacyRecord).lookup (sessionKey "m") =
        some legacyRecord := by
      rw [Memory.lookup_insert, if_pos rfl]
    exact Memory.get_of_lookup rfl hlookup
  obtain ⟨result, hasks, -, hconverges⟩ := load_converges ⟨"m", .real⟩ htells
  have hload : (load ⟨"m", .real⟩).run.AsksOnce legacyWorld _ _ _ :=
    asksOnce_load htells decode_legacyRecord
  obtain rfl := hasks.unique hload
  exact ⟨_, hload, rfl, hconverges _ rfl⟩

end VoiceRoom
