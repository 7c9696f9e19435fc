import Mathlib.Data.List.Forall2
import VoiceRoom.Proofs.Twins.Logic
import VoiceRoom.Simulation.World

/-!
# Worlds that fail in other words

Two worlds agree if the same calls fail in both, with the same effects, but perhaps in other words
(`Agree`). Then they answer calls alike, and agree afterwards (`Agree.answer`). What was noted,
measured and sent may differ; no answer depends on it but that to a scrape.
-/

namespace VoiceRoom.Twins

open Simulation

/-- Failures are alike, whatever they are. -/
def blind : Likeness where
  value _ v v' := v = v'
  storeError _ _ := True
  providerError _ _ := True
  mapping h := congrArg Mapping.decode h
  session h := congrArg Session.decode h

/-- What is there or missing is seen as it is. -/
theorem blind_optional {key : String} (v : Option Versioned) :
    Option.Rel (blind.Versions key) v v := by
  cases v with
  | none => exact .none
  | some v => exact .some ⟨rfl, rfl⟩

/-! ### Providers -/

/-- Answers of two providers, which are related by `R` afterwards. -/
structure ProvidedAlike (R : Provider → Provider → Prop) (x x' : Provided) : Prop where
  result : Both blind.providerError Eq x.result x'.result
  elapsed : x.elapsedMs = x'.elapsedMs
  provider : R x.provider x'.provider

/-- Related providers answer alike, and stay related. -/
structure Tracks (R : Provider → Provider → Prop) : Prop where
  meeting : ∀ {p p'}, R p p' → ∀ title,
    ProvidedAlike R (p.createMeeting title) (p'.createMeeting title)
  participant : ∀ {p p'}, R p p' → ∀ meetingId userId,
    ProvidedAlike R (p.createParticipant meetingId userId) (p'.createParticipant meetingId userId)

/-- Providers that fail at the same calls, whatever is asked of them. -/
def ProvidersAgree (p p' : Provider) : Prop :=
  ∃ R, Tracks R ∧ R p p'

/-- A provider agrees with itself. -/
theorem providersAgree_refl (p : Provider) : ProvidersAgree p p := by
  have hself : ∀ x : Provided, ProvidedAlike Eq x x := fun x =>
    ⟨.refl (fun _ => trivial) (fun _ => rfl) x.result, rfl, rfl⟩
  refine ⟨Eq, ⟨?_, ?_⟩, rfl⟩
  · rintro p _ rfl title
    exact hself _
  · rintro p _ rfl meetingId userId
    exact hself _

/-- Two providers that answer from lists. -/
theorem providersAgree_listed {results results' : List (Except ProviderError String)}
    (h : List.Forall₂ (Both blind.providerError Eq) results results') :
    ProvidersAgree (.listed results) (.listed results') := by
  let R : Provider → Provider → Prop := fun p p' => ∃ rs rs', p = .listed rs ∧ p' = .listed rs' ∧
    List.Forall₂ (Both blind.providerError Eq) rs rs'
  have hnext : ∀ {rs rs'}, List.Forall₂ (Both blind.providerError Eq) rs rs' →
      ProvidedAlike R (Provider.next rs) (Provider.next rs') := by
    intro rs rs' hrs
    cases hrs with
    | nil => exact ⟨.error trivial, rfl, [], [], rfl, rfl, .nil⟩
    | cons hr hrest => exact ⟨hr, rfl, _, _, rfl, rfl, hrest⟩
  refine ⟨R, ⟨?_, ?_⟩, results, results', rfl, rfl, h⟩
  · rintro _ _ ⟨rs, rs', rfl, rfl, hrs⟩ title
    exact hnext hrs
  · rintro _ _ ⟨rs, rs', rfl, rfl, hrs⟩ meetingId userId
    exact hnext hrs

/-! ### Worlds -/

/-- What happens to the next call of the store, but for the words of a refusal. -/
inductive FaultsAgree : Fault → Fault → Prop where
  | refuse (e e' : StoreError) : FaultsAgree (.refuse e) (.refuse e')
  | hang : FaultsAgree .hang .hang

structure Agree (w w' : World) : Prop where
  appId : w.appId = w'.appId
  clock : w.clock = w'.clock
  store : w.store = w'.store
  provider : ProvidersAgree w.provider w'.provider
  mode : w.mode = w'.mode
  storeMs : w.storeMs = w'.storeMs
  providerMs : w.providerMs = w'.providerMs
  bits : w.bits = w'.bits
  drawn : w.drawn = w'.drawn
  fault : Option.Rel FaultsAgree w.fault w'.fault

theorem FaultsAgree.refl (fault : Fault) : FaultsAgree fault fault := by
  cases fault with
  | refuse e => exact .refuse e e
  | hang => exact .hang

/-- Every world agrees with itself. -/
theorem Agree.refl (w : World) : Agree w w := by
  have hfault : Option.Rel FaultsAgree w.fault w.fault := by
    cases w.fault with
    | none => exact .none
    | some fault => exact .some (.refl fault)
  exact ⟨rfl, rfl, rfl, providersAgree_refl w.provider, rfl, rfl, rfl, rfl, rfl, hfault⟩

/-- A world but for what was noted, measured and sent. -/
def quiet (w : World) : World :=
  { w with events := [], measurements := [], sent := [] }

theorem quiet_noteAll (w : World) (es : List Event) : quiet (w.noteAll es) = quiet w := by
  induction es generalizing w with
  | nil => rfl
  | cons e es ih => exact ih (w.note e)

theorem quiet_countAll (w : World) (ms : List Measurement) :
    quiet (ms.foldl World.count w) = quiet w := by
  induction ms generalizing w with
  | nil => rfl
  | cons m ms ih => exact ih (w.count m)

theorem quiet_used (w : World) (es : List Event) (ms : List Measurement) (sent : List Sent) :
    quiet { ms.foldl World.count (w.noteAll es) with sent } = quiet w :=
  (quiet_countAll _ ms).trans (quiet_noteAll w es)

namespace Agree

variable {v v' w w' : World} {α : Type}

theorem of_quiet (h : Agree w w') (hv : quiet v = quiet w) (hv' : quiet v' = quiet w') :
    Agree v v' := by
  have hquiet : Agree (quiet w) (quiet w') :=
    ⟨h.1, h.2, h.3, h.4, h.5, h.6, h.7, h.8, h.9, h.10⟩
  rw [← hv, ← hv'] at hquiet
  exact ⟨hquiet.1, hquiet.2, hquiet.3, hquiet.4, hquiet.5, hquiet.6, hquiet.7, hquiet.8, hquiet.9,
    hquiet.10⟩

theorem note (h : Agree w w') (e e' : Event) : Agree (w.note e) (w'.note e') :=
  h.of_quiet rfl rfl

theorem count (h : Agree w w') (m m' : Measurement) : Agree (w.count m) (w'.count m') :=
  h.of_quiet rfl rfl

theorem advance (h : Agree w w') (ms : Int) : Agree (w.advance ms) (w'.advance ms) :=
  { h with clock := congrArg (· + ms) h.clock }

theorem setStore (h : Agree w w') (s : Store) :
    Agree { w with store := s } { w' with store := s } :=
  { h with store := rfl }

theorem setFault (h : Agree w w') {fault fault' : Option Fault}
    (hfault : Option.Rel FaultsAgree fault fault') :
    Agree { w with fault } { w' with fault := fault' } :=
  { h with fault := hfault }

theorem setMode (h : Agree w w') (m : Mode) : Agree (w.setMode m) (w'.setMode m) := by
  unfold World.setMode
  rw [h.mode]
  split
  · exact h
  · have hset : Agree { w with mode := m } { w' with mode := m } := { h with mode := rfl }
    exact hset.note _ _

/-- A store that is used answers the same in both worlds. -/
theorem useStore (h : Agree w w') (f : Store → Stored α) :
    (w.useStore f).1 = (w'.useStore f).1 ∧ Agree (w.useStore f).2 (w'.useStore f).2 := by
  unfold World.useStore
  rw [h.store]
  have hset := h.setStore (f w'.store).store
  exact ⟨rfl, hset.of_quiet (quiet_noteAll _ _) (quiet_noteAll _ _)⟩

/-- A pending fault takes effect in both worlds or in neither. -/
theorem callStore (h : Agree w w') (f : Store → Stored α) {S : α → α → Prop} (hS : ∀ a, S a a) :
    Option.Rel (Both blind.storeError S) (w.callStore f).1 (w'.callStore f).1 ∧
      Agree (w.callStore f).2 (w'.callStore f).2 := by
  have hlater := h.advance w.storeMs
  have hfault := hlater.fault
  unfold World.callStore
  rw [← h.storeMs]
  dsimp only
  generalize (w.advance w.storeMs).fault = fault at hfault
  generalize (w'.advance w.storeMs).fault = fault' at hfault
  -- Without a fault both stores are used; with one neither is, and the reasons may differ.
  cases hfault with
  | none =>
    obtain ⟨hsame, hagree⟩ := hlater.useStore f
    dsimp only
    rw [hsame]
    exact ⟨.some (.refl (fun _ => trivial) hS _), hagree⟩
  | some hfault =>
    have hdone := hlater.setFault .none
    cases hfault with
    | refuse e e' => exact ⟨.some (.error trivial), hdone⟩
    | hang => exact ⟨.none, hdone.advance World.hangMs⟩

/-- A provider that is used answers alike in both worlds. -/
theorem useProvider (h : Agree w w') {f : Provider → Provided}
    (hf : ∀ {R}, Tracks R → ∀ {p p'}, R p p' → ProvidedAlike R (f p) (f p')) :
    Both blind.providerError Eq (w.useProvider f).1 (w'.useProvider f).1 ∧
      Agree (w.useProvider f).2 (w'.useProvider f).2 := by
  obtain ⟨R, htracks, hR⟩ := h.provider
  have hprovided := hf htracks hR
  have hset : Agree { w with provider := (f w.provider).provider }
      { w' with provider := (f w'.provider).provider } :=
    { h with provider := ⟨R, htracks, hprovided.provider⟩ }
  have helapsed := hset.advance (f w.provider).elapsedMs
  refine ⟨hprovided.result, helapsed.of_quiet (quiet_used _ _ _ _) ?_⟩
  rw [hprovided.elapsed]
  exact quiet_used _ _ _ _

/-- A call to the provider is answered alike. -/
theorem callProvider (h : Agree w w') {f : Provider → Provided}
    (hf : ∀ {R}, Tracks R → ∀ {p p'}, R p p' → ProvidedAlike R (f p) (f p')) :
    Both blind.providerError Eq (w.callProvider f).1 (w'.callProvider f).1 ∧
      Agree (w.callProvider f).2 (w'.callProvider f).2 := by
  have hlater := h.advance w.providerMs
  unfold World.callProvider
  rw [← h.providerMs]
  exact hlater.useProvider hf

/-- The same bits are drawn. -/
theorem drawBits (h : Agree w w') :
    w.drawBits.1 = w'.drawBits.1 ∧ Agree w.drawBits.2 w'.drawBits.2 := by
  have hcount := congrArg (· + 1) h.drawn
  unfold World.drawBits
  rw [h.bits]
  split
  · exact ⟨rfl, { h with bits := rfl }⟩
  · exact ⟨hcount, { h with bits := rfl, drawn := hcount }⟩

/-- Worlds that agree answer alike, and agree afterwards. -/
theorem answer (h : Agree w w') (c : Call) :
    Option.Rel (blind.Answers c) (w.answer c).1 (w'.answer c).1 ∧
      Agree (w.answer c).2 (w'.answer c).2 := by
  -- What is stored is answered alike, and so are the provider and the world around.
  cases c with
  | get key => exact h.callStore (fun s => s.get key) blind_optional
  | putIf key value expected =>
    exact h.callStore (fun s => s.putIf key value expected) fun _ => rfl
  | ping => exact h.callStore (fun s => s.ping) fun _ => rfl
  | createMeeting title =>
    obtain ⟨hresult, hagree⟩ := h.callProvider (f := fun p => p.createMeeting title)
      fun htracks _ _ hR => htracks.meeting hR title
    exact ⟨.some hresult, hagree⟩
  | createParticipant meetingId userId =>
    obtain ⟨hresult, hagree⟩ := h.callProvider (f := fun p => p.createParticipant meetingId userId)
      fun htracks _ _ hR => htracks.participant hR meetingId userId
    exact ⟨.some hresult, hagree⟩
  | now => exact ⟨.some h.clock, h⟩
  | freshId =>
    obtain ⟨hbits, hagree⟩ := h.drawBits
    exact ⟨.some (congrArg SessionId.ofBits hbits), hagree⟩
  | mode => exact ⟨.some h.mode, h⟩
  | note e => exact ⟨.some trivial, h.note e e⟩
  | count m => exact ⟨.some trivial, h.count m m⟩
  | scrape => exact ⟨.some trivial, h⟩

end Agree

end VoiceRoom.Twins
