import VoiceRoom.Config
import VoiceRoom.Proofs.Number.Numeral

/-!
# Which variables make a configuration

Four variables can be at fault (`Setting`). A configuration is made if none of them is, and then it
holds what they tell; otherwise the first that is at fault is reported (`Judged`). What is reported
and what operators see depend on neither secret (`read_judges`).
-/

namespace VoiceRoom

/-- The variables that can be at fault. -/
inductive Setting where
  | redisUrl
  | mode
  | timeout
  | drain
deriving DecidableEq, Repr

/-- In this order they are looked at. -/
def Setting.order : List Setting := [.redisUrl, .mode, .timeout, .drain]

/-- The mode that a variable chooses. White space around its value does not count. -/
inductive ChoosesMode : Option String → Mode → Prop where
  | absent : ChoosesMode none .real
  | blank {value : String} (h : trim value = "") : ChoosesMode (some value) .real
  | no {value : String} (h : trim value = "false") : ChoosesMode (some value) .real
  | yes {value : String} (h : trim value = "true") : ChoosesMode (some value) .mock

/-- How many seconds a variable tells, between two bounds. Without it, it is `standard`. -/
inductive TellsSeconds (standard low high : Nat) : Option String → Nat → Prop where
  | absent : TellsSeconds standard low high none standard
  | told {value : String} {n : Nat} (h : Numeral.Denotes value.toList n) (hlow : low ≤ n)
      (hhigh : n ≤ high) : TellsSeconds standard low high (some value) n

namespace Config

variable {vars vars' : String → Option String} {value : Option String} {c : Config} {m : Mode}
  {n : Nat} {e : ConfigError}

/-! ### Single variables -/

/-- A mode is read exactly if the value chooses it. -/
theorem readMode_eq_ok_iff : readMode value = .ok m ↔ ChoosesMode value m := by
  constructor
  · intro h
    cases value with
    | none =>
      obtain rfl := Except.ok.inj h
      exact .absent
    | some value =>
      rw [readMode, Option.map_some] at h
      dsimp only at h
      split at h
      · rename_i hfalse
        obtain rfl := Except.ok.inj h
        -- an empty value chooses the same as a no
        exact hfalse.elim .blank .no
      · split at h
        · rename_i htrue
          obtain rfl := Except.ok.inj h
          exact .yes htrue
        · exact nomatch h
  · intro h
    cases h with
    | absent => rfl
    | blank h => simp [readMode, h]
    | no h => simp [readMode, h]
    | yes h => simp [readMode, h]

/-- A timeout is read exactly if the value tells a number of seconds from 1 to 30. -/
theorem readTimeout_eq_ok_iff :
    readTimeout value = .ok n ↔ TellsSeconds 5 1 30 value n := by
  -- Without a value there is the default; with one, the bounds are checked in the order of the
  -- reader.
  cases value with
  | none =>
    constructor
    · intro h
      obtain rfl := Except.ok.inj h
      exact .absent
    · rintro ⟨⟩
      rfl
  | some value =>
    constructor
    · intro h
      rw [readTimeout] at h
      split at h
      · exact nomatch h
      · rename_i seconds hread
        split at h
        · exact nomatch h
        · rename_i hzero
          split at h
          · exact nomatch h
          · rename_i hlong
            obtain rfl := Except.ok.inj h
            exact .told (Numeral.read_eq_ok_iff.1 hread).1 (Nat.pos_of_ne_zero hzero)
              (Nat.not_lt.1 hlong)
    · rintro (_ | ⟨hdenotes, hlow, hhigh⟩)
      have hword : n ≤ wordMax := Nat.le_trans hhigh (by decide)
      rw [readTimeout, Numeral.read_eq_ok_iff.2 ⟨hdenotes, hword⟩]
      dsimp only
      rw [if_neg (Nat.ne_of_gt hlow), if_neg (Nat.not_lt.2 (show n ≤ maxTimeoutSeconds from hhigh))]

/-- A drain time is read exactly if the value tells one that fits a word. -/
theorem readDrain_eq_ok_iff : readDrain value = .ok n ↔ TellsSeconds 0 0 wordMax value n := by
  cases value with
  | none =>
    constructor
    · intro h
      obtain rfl := Except.ok.inj h
      exact .absent
    · rintro ⟨⟩
      rfl
  | some value =>
    constructor
    · intro h
      rw [readDrain] at h
      split at h
      · exact nomatch h
      · rename_i seconds hread
        obtain rfl := Except.ok.inj h
        obtain ⟨hdenotes, hword⟩ := Numeral.read_eq_ok_iff.1 hread
        exact .told hdenotes (Nat.zero_le _) hword
    · rintro (_ | ⟨hdenotes, -, hhigh⟩)
      rw [readDrain, Numeral.read_eq_ok_iff.2 ⟨hdenotes, hhigh⟩]

/-! ### Faults -/

/-- A variable is as it has to be. -/
def Admits (vars : String → Option String) : Setting → Prop
  | .redisUrl => ∃ url, vars redisUrlName = some url
  | .mode => ∃ m, ChoosesMode (vars mockName) m
  | .timeout => ∃ n, TellsSeconds 5 1 30 (vars timeoutName) n
  | .drain => ∃ n, TellsSeconds 0 0 wordMax (vars drainName) n

/-- The error of a variable that is at fault. -/
inductive Blames (vars : String → Option String) : Setting → ConfigError → Prop where
  | missing (h : vars redisUrlName = none) : Blames vars .redisUrl (.missing redisUrlName)
  | mode {value : String} (h : vars mockName = some value)
      (hother : trim value ∉ ["", "false", "true"]) : Blames vars .mode (.mode (trim value))
  | timeout {value : String} {fault : Numeral.Fault} (h : vars timeoutName = some value)
      (hfault : Numeral.Refuses wordMax value.toList fault) :
      Blames vars .timeout (.timeout value fault)
  | timeoutZero {value : String} (h : vars timeoutName = some value)
      (hzero : Numeral.Denotes value.toList 0) : Blames vars .timeout .timeoutZero
  | timeoutTooLong {value : String} {n : Nat} (h : vars timeoutName = some value)
      (hlong : Numeral.Denotes value.toList n) (hlow : 30 < n) (hword : n ≤ wordMax) :
      Blames vars .timeout (.timeoutTooLong n)
  | drain {value : String} {fault : Numeral.Fault} (h : vars drainName = some value)
      (hfault : Numeral.Refuses wordMax value.toList fault) :
      Blames vars .drain (.drain value fault)

/-- A mode that is refused is blamed on its variable. -/
theorem blames_of_readMode (h : readMode (vars mockName) = .error e) : Blames vars .mode e := by
  cases hvalue : vars mockName with
  | none =>
    rw [hvalue] at h
    exact nomatch h
  | some value =>
    rw [hvalue, readMode, Option.map_some] at h
    dsimp only at h
    split at h
    · exact nomatch h
    · split at h
      · exact nomatch h
      · rename_i hreal hmock
        obtain rfl := Except.error.inj h
        refine .mode hvalue ?_
        simpa [hmock] using hreal

/-- A timeout that is refused is blamed on its variable, for the reason it deserves. -/
theorem blames_of_readTimeout (h : readTimeout (vars timeoutName) = .error e) :
    Blames vars .timeout e := by
  cases hvalue : vars timeoutName with
  | none =>
    rw [hvalue] at h
    exact nomatch h
  | some value =>
    rw [hvalue, readTimeout] at h
    -- The value is no number, or it is out of bounds: zero is looked at first.
    split at h
    · rename_i fault hread
      obtain rfl := Except.error.inj h
      exact .timeout hvalue (Numeral.refuses_of_read hread)
    · rename_i seconds hread
      obtain ⟨hdenotes, hword⟩ := Numeral.read_eq_ok_iff.1 hread
      split at h
      · rename_i hzero
        obtain rfl := Except.error.inj h
        exact .timeoutZero hvalue (hzero ▸ hdenotes)
      · split at h
        · rename_i hlong
          obtain rfl := Except.error.inj h
          exact .timeoutTooLong hvalue hdenotes hlong hword
        · exact nomatch h

/-- A drain time that is refused is blamed on its variable. -/
theorem blames_of_readDrain (h : readDrain (vars drainName) = .error e) : Blames vars .drain e := by
  cases hvalue : vars drainName with
  | none =>
    rw [hvalue] at h
    exact nomatch h
  | some value =>
    rw [hvalue, readDrain] at h
    split at h
    · rename_i fault hread
      obtain rfl := Except.error.inj h
      exact .drain hvalue (Numeral.refuses_of_read hread)
    · exact nomatch h

/-! ### All of them -/

/-- A configuration holds what the variables tell. -/
structure Holds (vars : String → Option String) (c : Config) : Prop where
  redisUrl : vars redisUrlName = some c.redisUrl
  mode : ChoosesMode (vars mockName) c.mode
  timeout : TellsSeconds 5 1 30 (vars timeoutName) c.timeoutSeconds
  drain : TellsSeconds 0 0 wordMax (vars drainName) c.drainSeconds

/-- A variable is at fault, and none is that is looked at before it. -/
structure FirstFault (vars : String → Option String) (x : Setting) (e : ConfigError) : Prop where
  blames : Blames vars x e
  fault : ¬ Admits vars x
  before : ∀ y, Setting.order.idxOf y < Setting.order.idxOf x → Admits vars y

/-- Variables make a configuration exactly if none of them is at fault. -/
structure Judged (vars : String → Option String) : Prop where
  accepted : (∃ c, read vars = .ok c) ↔ ∀ x, Admits vars x
  holds : ∀ c, read vars = .ok c → Holds vars c
  refused : ∀ e, read vars = .error e → ∃ x, FirstFault vars x e

/-- An error is just if it is that of the first fault. -/
theorem judged_of_error {x : Setting} (h : read vars = .error e) (hfirst : FirstFault vars x e) :
    Judged vars where
  accepted := by
    refine iff_of_false ?_ fun hall => hfirst.fault (hall x)
    rintro ⟨c, hc⟩
    exact nomatch h.symm.trans hc
  holds c hc := nomatch h.symm.trans hc
  refused e' he := by
    obtain rfl := Except.error.inj (h.symm.trans he)
    exact ⟨x, hfirst⟩

/-- A configuration is just if it holds what the variables say. -/
theorem judged_of_ok (h : read vars = .ok c) (hholds : Holds vars c) : Judged vars where
  accepted := by
    refine iff_of_true ⟨c, h⟩ fun x => ?_
    cases x with
    | redisUrl => exact ⟨_, hholds.redisUrl⟩
    | mode => exact ⟨_, hholds.mode⟩
    | timeout => exact ⟨_, hholds.timeout⟩
    | drain => exact ⟨_, hholds.drain⟩
  holds c' hc := by
    obtain rfl := Except.ok.inj (h.symm.trans hc)
    exact hholds
  refused e he := nomatch h.symm.trans he

/-- The variables are looked at one after the other, up to the first that is at fault. -/
theorem judged (vars : String → Option String) : Judged vars := by
  -- The variables are read one after the other, and the first that is not admitted decides.
  cases hurl : vars redisUrlName with
  | none =>
    have hread : read vars = .error (.missing redisUrlName) := by simp [read, hurl]
    refine judged_of_error hread ⟨.missing hurl, ?_, fun y hy => absurd hy (Nat.not_lt_zero _)⟩
    rintro ⟨url, h⟩
    exact nomatch hurl.symm.trans h
  | some url =>
    have hadmitsUrl : Admits vars .redisUrl := ⟨url, hurl⟩
    cases hmode : readMode (vars mockName) with
    | error e =>
      have hread : read vars = .error e := by
        simp only [read, hurl, hmode]
        rfl
      refine judged_of_error hread ⟨blames_of_readMode hmode, ?_, ?_⟩
      · rintro ⟨m, h⟩
        exact nomatch hmode.symm.trans (readMode_eq_ok_iff.2 h)
      · rintro (_ | _ | _ | _) hy
        · exact hadmitsUrl
        all_goals exact absurd hy (by decide)
    | ok m =>
      have hadmitsMode : Admits vars .mode := ⟨m, readMode_eq_ok_iff.1 hmode⟩
      cases htimeout : readTimeout (vars timeoutName) with
      | error e =>
        have hread : read vars = .error e := by
          simp only [read, hurl, hmode, htimeout]
          rfl
        refine judged_of_error hread ⟨blames_of_readTimeout htimeout, ?_, ?_⟩
        · rintro ⟨n, h⟩
          exact nomatch htimeout.symm.trans (readTimeout_eq_ok_iff.2 h)
        · rintro (_ | _ | _ | _) hy
          · exact hadmitsUrl
          · exact hadmitsMode
          all_goals exact absurd hy (by decide)
      | ok seconds =>
        have hadmitsTimeout : Admits vars .timeout := ⟨seconds, readTimeout_eq_ok_iff.1 htimeout⟩
        cases hdrain : readDrain (vars drainName) with
        | error e =>
          have hread : read vars = .error e := by
            simp only [read, hurl, hmode, htimeout, hdrain]
            rfl
          refine judged_of_error hread ⟨blames_of_readDrain hdrain, ?_, ?_⟩
          · rintro ⟨n, h⟩
            exact nomatch hdrain.symm.trans (readDrain_eq_ok_iff.2 h)
          · rintro (_ | _ | _ | _) hy
            · exact hadmitsUrl
            · exact hadmitsMode
            · exact hadmitsTimeout
            · exact absurd hy (by decide)
        | ok drain =>
          have hread : ∃ c, read vars = .ok c ∧ c.redisUrl = url ∧ c.mode = m ∧
              c.timeoutSeconds = seconds ∧ c.drainSeconds = drain := by
            simp only [read, hurl, hmode, htimeout, hdrain]
            exact ⟨_, rfl, rfl, rfl, rfl, rfl⟩
          obtain ⟨c, hc, rfl, rfl, rfl, rfl⟩ := hread
          exact judged_of_ok hc ⟨hurl, readMode_eq_ok_iff.1 hmode, readTimeout_eq_ok_iff.1 htimeout,
            readDrain_eq_ok_iff.1 hdrain⟩

/-! ### Secrets -/

/-- Variables that differ in secrets only: in the address of the shared store, which has to be there,
and in the key of the provider. -/
structure DifferInSecrets (vars vars' : String → Option String) : Prop where
  redisUrl : (vars redisUrlName).isSome = (vars' redisUrlName).isSome
  others : ∀ name, name ≠ redisUrlName → name ≠ apiKeyName → vars name = vars' name

/-- Neither errors nor descriptions depend on secrets. -/
theorem map_describe_read (h : DifferInSecrets vars vars') :
    (read vars).map describe = (read vars').map describe := by
  have hbind := h.others bindAddressName (by decide) (by decide)
  have hmock := h.others mockName (by decide) (by decide)
  have hbase := h.others apiBaseUrlName (by decide) (by decide)
  have horg := h.others orgIdName (by decide) (by decide)
  have happ := h.others appIdName (by decide) (by decide)
  have htimeout := h.others timeoutName (by decide) (by decide)
  have hdrain := h.others drainName (by decide) (by decide)
  have hpresent := h.redisUrl
  simp only [read, hbind, hmock, hbase, horg, happ, htimeout, hdrain]
  -- Of the URL only its presence matters, and every other variable is the same.
  cases hurl : vars redisUrlName with
  | none =>
    rw [hurl, Option.isSome_none, eq_comm, Option.isSome_eq_false_iff, Option.isNone_iff_eq_none]
      at hpresent
    rw [hpresent]
  | some url =>
    rw [hurl, Option.isSome_some, eq_comm, Option.isSome_iff_exists] at hpresent
    obtain ⟨url', hurl'⟩ := hpresent
    rw [hurl']
    cases readMode (vars' mockName) with
    | error e => rfl
    | ok m =>
      cases readTimeout (vars' timeoutName) with
      | error e => rfl
      | ok seconds =>
        cases readDrain (vars' drainName) with
        | error e => rfl
        | ok drain => rfl

/-- A configuration is made of variables exactly if none of the four that can be at fault is. It
holds the numbers that they denote, and otherwise the first that is at fault is reported. Neither
this nor what operators see of it depends on secrets. -/
theorem read_judges : (∀ vars, Judged vars) ∧ ∀ vars vars', DifferInSecrets vars vars' →
    (read vars).map describe = (read vars').map describe :=
  ⟨judged, fun _ _ => map_describe_read⟩

/-- Variables with secrets, and with numerals that have a sign and zeros in front. -/
def padded (url key name : String) : Option String :=
  [(redisUrlName, url), (apiKeyName, key), (mockName, " true\n"), (timeoutName, "+030"),
    (drainName, "+0018446744073709551615")].lookup name

/-- Padded environments differ in their secrets only. -/
theorem differInSecrets_padded (url url' key key' : String) :
    DifferInSecrets (padded url key) (padded url' key') where
  redisUrl := rfl
  others name hurl hkey := by
    unfold padded
    simp only [List.lookup_cons, beq_eq_false_iff_ne.2 hurl, beq_eq_false_iff_ne.2 hkey]

/-- The largest numbers are accepted, whatever the secrets. -/
theorem read_judges_padded :
    DifferInSecrets (padded "redis://:a@host" "b") (padded "" "c") ∧
      (∃ c, read (padded "redis://:a@host" "b") = .ok c ∧ c.mode = .mock ∧ c.timeoutSeconds = 30 ∧
        c.drainSeconds = wordMax) ∧
      (∀ x, Admits (padded "redis://:a@host" "b") x) ∧
      (read (padded "redis://:a@host" "b")).map describe = (read (padded "" "c")).map describe := by
  have hdiffer := differInSecrets_padded "redis://:a@host" "" "b" "c"
  have hread : ∃ c, read (padded "redis://:a@host" "b") = .ok c ∧ c.mode = .mock ∧
      c.timeoutSeconds = 30 ∧ c.drainSeconds = wordMax := ⟨_, rfl, by decide, by decide, by decide⟩
  refine ⟨hdiffer, hread, (read_judges.1 _).accepted.1 ?_, read_judges.2 _ _ hdiffer⟩
  obtain ⟨c, hc, -⟩ := hread
  exact ⟨c, hc⟩

end Config

end VoiceRoom
