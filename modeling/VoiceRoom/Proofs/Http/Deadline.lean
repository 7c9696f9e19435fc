import VoiceRoom.Http.Service
import VoiceRoom.Proofs.Conduct.Provider
import VoiceRoom.Provider.Client

/-!
# Requests and their deadline

A request that has taken thirty seconds is answered in place of its handler (`Http.served`). A call
of the provider may take as long as is configured, up to thirty seconds too. Nothing else takes
time. So what counts is how often a request asks the provider: a create once at most, a join twice
(`Http.prompt_answer`).

With less than fifteen seconds for a call every request is answered by its handler, and with less
than thirty every create is, whatever the provider does. From there on a provider that does not
answer makes requests run out of time (`handled_within_limit`).
-/

namespace VoiceRoom

/-- How a call may be answered, and after how many milliseconds. The store answers at once. Anything
may come of a call of the provider, but nobody waits for it beyond its deadline. -/
def Client.Permits (client : Client) : (c : Call) → c.Answer × Nat → Prop
  | .get _, a => (∃ stored, a.1 = .ok stored) ∧ a.2 = 0
  | .putIf .., a => (∃ outcome, a.1 = .ok outcome) ∧ a.2 = 0
  | .ping, a => a.1 = .ok () ∧ a.2 = 0
  | .createMeeting _, a => a.2 ≤ 1000 * client.timeoutSeconds
  | .createParticipant .., a => a.2 ≤ 1000 * client.timeoutSeconds
  | .now, a => fitsInt64 a.1 ∧ a.2 = 0
  | _, a => a.2 = 0

namespace Client

/-- What the client makes of a reply that does not come in time. -/
def wait (client : Client) (post : Reply → Exchange) : Except ProviderError String × Nat :=
  let x := post (.answered 200 [] (1000 * client.timeoutSeconds))
  (x.result, if x.sent.isNone then 0 else 1000 * client.timeoutSeconds)

variable {client : Client} {c : Call} {a : c.Answer × Nat}

/-- No call waits longer than the timeout of the client. -/
theorem wait_le (client : Client) (post : Reply → Exchange) :
    (client.wait post).2 ≤ 1000 * client.timeoutSeconds := by
  unfold wait
  dsimp only
  split
  · exact Nat.zero_le _
  · exact Nat.le_refl _

/-- A call that is sent is waited for as long as is configured. -/
theorem wait_post {path : String} (hpath : (client.url? path).isSome) (body : Json)
    (wanted : String) :
    client.wait (client.post path body wanted) = (.error .timeout, 1000 * client.timeoutSeconds) := by
  obtain ⟨url, hurl⟩ := Option.isSome_iff_exists.1 hpath
  unfold wait post
  rw [hurl]
  by_cases hzero : client.timeoutSeconds = 0
  · simp [hzero]
  · simp [hzero]

/-- Whether calls of the provider that a join makes in a meeting are sent. -/
structure Reaches (client : Client) (meetingId : String) : Prop where
  meetings : (client.url? "/meetings").isSome
  participants : (client.url? ("/meetings/" ++ meetingId ++ "/participants")).isSome

/-- A silent provider is waited for as long as the client waits at all. -/
theorem wait_createMeeting (h : (client.url? "/meetings").isSome) (title : String) :
    client.wait (client.createMeeting title) = (.error .timeout, 1000 * client.timeoutSeconds) := by
  unfold createMeeting
  exact wait_post h _ _

/-- The same for tokens. -/
theorem wait_createParticipant {meetingId : String}
    (h : (client.url? ("/meetings/" ++ meetingId ++ "/participants")).isSome) (userId : String) :
    client.wait (client.createParticipant meetingId userId) =
      (.error .timeout, 1000 * client.timeoutSeconds) := by
  unfold createParticipant
  exact wait_post h _ _

/-- What a client permits fits the call. -/
theorem Permits.fits (h : client.Permits c a) : c.Fits a.1 := by
  cases c with
  | now => exact h.1
  | _ => trivial

/-- Only the provider takes time. -/
theorem Permits.le (h : client.Permits c a) :
    a.2 ≤ if c.asksProvider then 1000 * client.timeoutSeconds else 0 := by
  cases c with
  | createMeeting title => exact h
  | createParticipant meetingId userId => exact h
  | get key => exact Nat.le_of_eq h.2
  | putIf key value expected => exact Nat.le_of_eq h.2
  | ping => exact Nat.le_of_eq h.2
  | now => exact Nat.le_of_eq h.2
  | _ => exact Nat.le_of_eq h

end Client

namespace Http

open Concurrency (asksMeeting asksToken inquiries_of_create countP_asksMeeting countP_asksToken)
open Conduct
open Simulation (Entry)

/-! ### Carrying out a request -/

/-- Answers to calls after what was told before, with the milliseconds that they take. -/
abbrev Behaviour :=
  List Entry → (c : Call) → c.Answer × Nat

/-- What the world may do while a request is carried out. -/
def Behaviour.Possible (client : Client) (b : Behaviour) : Prop :=
  ∀ told c, client.Permits c (b told c)

/-- What a program came to, the calls that were answered, latest first, and the time that it took. -/
structure Carried (α : Type) where
  result : α
  told : List Entry
  ms : Nat

variable {α β : Type}

/-- Carries out a program, after what was told and the time that it took. -/
def carry (b : Behaviour) : Program α → List Entry → Nat → Carried α
  | .done a, told, ms => ⟨a, told, ms⟩
  | .ask c rest, told, ms =>
    carry b (rest (b told c).1) (⟨c, (b told c).1⟩ :: told) (ms + (b told c).2)

/-- A program is carried out before the one that follows it, with what it was told and the time it
took. -/
theorem carry_bind (b : Behaviour) (p : Program α) (f : α → Program β) (told : List Entry)
    (ms : Nat) :
    carry b (p >>= f) told ms =
      carry b (f (carry b p told ms).result) (carry b p told ms).told (carry b p told ms).ms := by
  induction p generalizing told ms with
  | done a => rfl
  | ask c rest ih => exact ih (b told c).1 _ _

/-- A request goes on with what a part of it came to. -/
theorem carry_bind_ok {b : Behaviour} {x : VoiceRoom.Request α} {a : α}
    {told told' : List Entry} {ms ms' : Nat} (h : carry b x.run told ms = ⟨.ok a, told', ms'⟩)
    (f : α → VoiceRoom.Request β) :
    carry b (x >>= f).run told ms = carry b (f a).run told' ms' := by
  rw [ExceptT.run_bind, carry_bind, h]

theorem carry_lift_ok {b : Behaviour} {p : Program α} {a : α} {told told' : List Entry}
    {ms ms' : Nat} (h : carry b p told ms = ⟨a, told', ms'⟩) :
    carry b (ExceptT.lift p : VoiceRoom.Request α).run told ms = ⟨.ok a, told', ms'⟩ := by
  rw [ExceptT.run_lift, map_eq_pure_bind, carry_bind, h]
  rfl

/-- A store that answers costs the request nothing more. -/
theorem carry_ofStore_ok {b : Behaviour} {p : Program (Except StoreError α)} {a : α}
    {told told' : List Entry} {ms ms' : Nat} (h : carry b p told ms = ⟨.ok a, told', ms'⟩) :
    carry b (VoiceRoom.Request.ofStore p).run told ms = ⟨.ok a, told', ms'⟩ := by
  rw [VoiceRoom.Request.ofStore, ExceptT.run_mk, carry_bind, h]
  rfl

/-- How long a request may take, in milliseconds. -/
def limitMs : Nat := 30000

/-- How a request is handled. -/
def handled (appId : String) (b : Behaviour) (r : Request) : Carried Response :=
  carry b (answer appId r) [] 0

/-- The response to a request. -/
def served (appId : String) (b : Behaviour) (r : Request) : Response :=
  if (handled appId b r).ms < limitMs then (handled appId b r).result else .timeout

/-- A request is answered by its handler, and is not told that it ran out of time. -/
structure Handled (appId : String) (b : Behaviour) (r : Request) : Prop where
  response : served appId b r = (handled appId b r).result
  status : (served appId b r).status ≠ 408

/-! ### How long it takes -/

section Time

variable {client : Client} {b : Behaviour} {appId : String}

/-- A program is told what it goes through, and takes the time of the calls of the provider. -/
theorem exists_came (hb : b.Possible client) {p q : Program α} {new : List Entry}
    (told : List Entry) {ms start : Nat} (hcame : Came p new q)
    (hms : ms ≤ start + 1000 * client.timeoutSeconds * (inquiries new).length) :
    ∃ new', (carry b q (new ++ told) ms).told = new' ++ told ∧
      Came p new' (.done (carry b q (new ++ told) ms).result) ∧
      (carry b q (new ++ told) ms).ms ≤
        start + 1000 * client.timeoutSeconds * (inquiries new').length := by
  induction q generalizing new ms with
  | done a => exact ⟨new, rfl, hcame, hms⟩
  | ask c rest ih =>
    have hpermits := hb (new ++ told) c
    have hle := hpermits.le
    have hnext : Came p (⟨c, (b (new ++ told) c).1⟩ :: new) (rest (b (new ++ told) c).1) :=
      hcame.answer _ hpermits.fits
    refine ih _ hnext ?_
    -- only inquiries take time, and each of them adds to both sides
    cases hasks : c.asksProvider with
    | false =>
      rw [hasks, if_neg Bool.false_ne_true] at hle
      rw [inquiries_cons hasks]
      omega
    | true =>
      rw [hasks, if_pos rfl] at hle
      rw [inquiries_ask hasks, List.length_cons, Nat.mul_succ]
      omega

/-- What a request asks the provider is counted by its code. -/
theorem ms_le_of_complies {K : Code} {x : VoiceRoom.Request α} {Q : α → List Entry → Prop}
    {C : List Entry → Prop} {n : Nat} (hb : b.Possible client) (hx : K.Complies x Q C [])
    (hn : ∀ new, K.Obeyed new → (inquiries new).length ≤ n) (told : List Entry) (ms : Nat) :
    (carry b x.run told ms).ms ≤ ms + 1000 * client.timeoutSeconds * n := by
  have hstart : ms ≤ ms + 1000 * client.timeoutSeconds * (inquiries []).length :=
    Nat.le_add_right _ _
  obtain ⟨new, -, hcame, hle⟩ := exists_came hb told (Came.start (p := x.run)) hstart
  have hlength := hn new (hx.came hcame).1
  exact Nat.le_trans hle (Nat.add_le_add_left (Nat.mul_le_mul_left _ hlength) ms)

/-- An inquiry asks for a meeting or for a token. -/
theorem length_inquiries (told : List Entry) :
    (inquiries told).length = told.countP asksMeeting + told.countP asksToken := by
  induction told with
  | nil => rfl
  | cons e told ih =>
    obtain ⟨c, r⟩ := e
    cases c <;>
      simp_all [inquiries, Call.asksProvider, asksMeeting, asksToken, List.countP_cons] <;> omega

/-- How often a route asks the provider at most. -/
def Route.inquiries : Route → Nat
  | .sessions => 1
  | .join _ => 2
  | _ => 0

theorem ms_le_create (hb : b.Possible client) (mode : Mode) (told : List Entry) (ms : Nat) :
    (carry b (create mode).run told ms).ms ≤ ms + 1000 * client.timeoutSeconds * 1 := by
  refine ms_le_of_complies hb (Code.complies_create mode) (fun new hobeyed => ?_) told ms
  rcases inquiries_of_create hobeyed with hnone | ⟨later, s, r, rfl, hlater⟩
  · rw [hnone]
    exact Nat.zero_le 1
  · unfold Conduct.inquiries at hlater ⊢
    rw [List.filter_append, hlater]
    exact Nat.le_refl 1

/-- A join waits for the provider twice. -/
theorem ms_le_join (hb : b.Possible client) (mode : Mode) (s : String) (r : JoinRequest)
    (told : List Entry) (ms : Nat) :
    (carry b (join appId mode s r).run told ms).ms ≤ ms + 1000 * client.timeoutSeconds * 2 := by
  refine ms_le_of_complies hb (Code.complies_join appId mode s r) (fun new hobeyed => ?_) told ms
  rw [length_inquiries]
  exact Nat.add_le_add (countP_asksMeeting hobeyed) (countP_asksToken hobeyed)

/-- A call that is not of the provider takes no time. -/
theorem carry_ask (hb : b.Possible client) {c : Call} (hc : c.asksProvider = false)
    (rest : c.Answer → Program α) (told : List Entry) (ms : Nat) :
    carry b (.ask c rest) told ms =
      carry b (rest (b told c).1) (⟨c, (b told c).1⟩ :: told) ms := by
  have hle := (hb told c).le
  rw [hc, if_neg Bool.false_ne_true] at hle
  rw [carry, Nat.le_zero.1 hle, Nat.add_zero]

/-- No error of the service is reported as a timeout. -/
theorem ServiceError.status_ne (e : ServiceError) : e.status ≠ 408 := by
  cases e <;> exact nofun

/-- What a handler takes at most, and that it does not answer as if time had run out. -/
structure Prompt (b : Behaviour) (p : Program Response) (limit : Nat) : Prop where
  ms : ∀ told ms, (carry b p told ms).ms ≤ ms + limit
  status : ∀ told ms, (carry b p told ms).result.status ≠ 408

/-- An answer that is given at once is prompt. -/
theorem prompt_done {response : Response} {limit : Nat} (n : Nat) (h : response.status = n)
    (hn : n ≠ 408) : Prompt b (.done response) limit where
  ms _ ms := Nat.le_add_right ms limit
  status _ _ := h ▸ hn

/-- A call that does not ask the provider takes no time. -/
theorem prompt_ask (hb : b.Possible client) {c : Call} (hc : c.asksProvider = false)
    {rest : c.Answer → Program Response} {limit : Nat} (h : ∀ r, Prompt b (rest r) limit) :
    Prompt b (.ask c rest) limit where
  ms told ms := by
    rw [carry_ask hb hc]
    exact (h _).ms _ ms
  status told ms := by
    rw [carry_ask hb hc]
    exact (h _).status _ ms

theorem Prompt.bind {p : Program α} {f : α → Program Response} {limit : Nat}
    (hp : ∀ told ms, (carry b p told ms).ms ≤ ms + limit) (hf : ∀ a, Prompt b (f a) 0) :
    Prompt b (p >>= f) limit where
  ms told ms := by
    rw [carry_bind]
    exact Nat.le_trans ((hf _).ms _ _) (hp told ms)
  status told ms := by
    rw [carry_bind]
    exact (hf _).status _ _

theorem prompt_fail (hb : b.Possible client) (e : ServiceError) (limit : Nat) :
    Prompt b (fail e) limit := by
  have hdone : Prompt b (.done (.ofError e)) limit := prompt_done _ rfl (ServiceError.status_ne e)
  cases e with
  | store detail => exact prompt_ask hb rfl fun _ => hdone
  | _ => exact hdone

/-- A response is as prompt as what it reports. -/
theorem prompt_respond (hb : b.Possible client) {toJson : α → Json} {x : VoiceRoom.Request α}
    {limit : Nat} (hx : ∀ told ms, (carry b x.run told ms).ms ≤ ms + limit) :
    Prompt b (respond toJson x) limit := by
  refine Prompt.bind hx fun r => ?_
  cases r with
  | error e => exact prompt_fail hb e 0
  | ok a => exact prompt_done 200 rfl (by decide)

theorem prompt_health (hb : b.Possible client) (limit : Nat) : Prompt b health limit := by
  refine prompt_ask hb rfl fun r => ?_
  cases r with
  | ok _ => exact prompt_ask hb rfl fun _ => prompt_done 200 rfl (by decide)
  | error e =>
    exact prompt_ask hb rfl fun _ => prompt_ask hb rfl fun _ => prompt_done 200 rfl (by decide)

/-- A route is as prompt as the inquiries it makes. -/
theorem prompt_answerRoute (hb : b.Possible client) (appId : String) (r : Request) (route : Route) :
    Prompt b (answerRoute appId r route) (1000 * client.timeoutSeconds * route.inquiries) := by
  cases route with
  | root => exact prompt_done 200 rfl (by decide)
  | health => exact prompt_health hb _
  | metrics => exact prompt_ask hb rfl fun _ => prompt_done 200 rfl (by decide)
  | sessions => exact prompt_ask hb rfl fun mode => prompt_respond hb (ms_le_create hb mode)
  | join segment =>
    unfold answerRoute answerJoin
    dsimp only
    split
    · exact prompt_done 400 rfl (by decide)
    · split
      · exact prompt_ask hb rfl fun _ => prompt_fail hb (.badRequest "Invalid request body") _
      · rename_i s _ _ request _
        exact prompt_ask hb rfl fun mode => prompt_respond hb (ms_le_join hb mode s request)

/-- How often a request asks the provider at most. -/
def Request.inquiries (r : Request) : Nat :=
  match Route.ofPath? (Route.path r.target) with
  | none => 0
  | some route => route.inquiries

/-- No request makes more than two inquiries. -/
theorem Request.inquiries_le (r : Request) : r.inquiries ≤ 2 := by
  unfold inquiries
  split
  · exact Nat.zero_le 2
  · rename_i route _
    cases route <;> simp [Route.inquiries]

/-- A request is answered as promptly as the inquiries it makes: nothing else takes time. -/
theorem prompt_answer (hb : b.Possible client) (appId : String) (r : Request) :
    Prompt b (answer appId r) (1000 * client.timeoutSeconds * r.inquiries) := by
  unfold answer Request.inquiries
  cases Route.ofPath? (Route.path r.target) with
  | none => exact prompt_done 404 rfl (by decide)
  | some route =>
    have hroute := prompt_answerRoute hb appId r route
    dsimp only
    split
    -- A request for the head of a page leaves the body out.
    · refine ⟨fun told ms => ?_, fun told ms => ?_⟩
      · rw [carry_bind]
        exact hroute.ms told ms
      · rw [carry_bind]
        have hstatus := hroute.status told ms
        dsimp only [carry, pure]
        split <;> exact hstatus
    · exact prompt_done 405 rfl (by decide)

/-- A request that takes less than the limit is answered by its handler. -/
theorem handled_of_lt (hb : b.Possible client) {r : Request}
    (h : 1000 * client.timeoutSeconds * r.inquiries < limitMs) : Handled appId b r := by
  have hprompt := prompt_answer hb appId r
  have hms : (handled appId b r).ms < limitMs := by
    have hle := hprompt.ms [] 0
    rw [Nat.zero_add] at hle
    exact Nat.lt_of_le_of_lt hle h
  have hserved : served appId b r = (handled appId b r).result := if_pos hms
  refine ⟨hserved, ?_⟩
  rw [hserved]
  exact hprompt.status [] 0

end Time

/-! ### A provider that does not answer -/

/-- How often a call reads the store. -/
def readsOf : Call → Nat
  | .get _ => 1
  | _ => 0

/-- How often the store was read. -/
def reads (told : List Entry) : Nat :=
  (told.map fun e => readsOf e.call).sum

/-- Every entry reads a record or does not. -/
theorem reads_cons (c : Call) (r : c.Answer) (told : List Entry) :
    reads (⟨c, r⟩ :: told) = readsOf c + reads told := by
  rw [reads, List.map_cons, List.sum_cons]
  rfl

/-- The mapping to the meeting that another request obtained. -/
def rival : Mapping :=
  ⟨"m", .real⟩

/-- The provider does not answer, and what was absent when it was read first is written by another
request before it is read again. -/
def overtaken (client : Client) : Behaviour
  | told, .get _ => (.ok (if reads told = 1 then some ⟨rival.encode, 1⟩ else none), 0)
  | told, .putIf .. => (.ok (if reads told = 1 then .conflict else .written 1), 0)
  | _, .ping => (.ok (), 0)
  | _, .createMeeting title => client.wait (client.createMeeting title)
  | _, .createParticipant meetingId userId =>
    client.wait (client.createParticipant meetingId userId)
  | _, .now => (0, 0)
  | _, .freshId => ("", 0)
  | _, .mode => (.real, 0)
  | _, .note _ => ((), 0)
  | _, .count _ => ((), 0)
  | _, .scrape => ([], 0)

section Late

variable {client : Client} {T : Nat}

/-- The mapping of the other join is kept. -/
theorem ofStored_rival : Resolution.ofStored .real ⟨rival.encode, 1⟩ = .found rival 1 :=
  Resolution.ofStored_eq_found_iff.2 ⟨Mapping.decode_encode rival, rfl, .inr rfl⟩

/-- Time does not go back. -/
theorem le_ms_carry (b : Behaviour) (p : Program α) (told : List Entry) (ms : Nat) :
    ms ≤ (carry b p told ms).ms := by
  induction p generalizing told ms with
  | done a => exact Nat.le_refl ms
  | ask c rest ih => exact Nat.le_trans (Nat.le_add_right ms _) (ih _ _ _)

/-- An allocation waits for the provider in vain. -/
theorem carry_allocate_overtaken
    (hmeeting : ∀ title, client.wait (client.createMeeting title) = (.error .timeout, T))
    (s : String) (told : List Entry) (ms : Nat) :
    ∃ told', carry (overtaken client) (allocate .real s) told ms =
      ⟨mockMeeting s true, told', ms + T⟩ ∧ reads told' = reads told := by
  simp [allocate, Program.call, bind, Program.bind, pure, carry, overtaken, hmeeting, reads_cons,
    readsOf]

/-- A create waits for a meeting in vain. -/
theorem le_ms_create_overtaken
    (hmeeting : ∀ title, client.wait (client.createMeeting title) = (.error .timeout, T))
    (told : List Entry) (ms : Nat) :
    ms + T ≤ (carry (overtaken client) (create .real).run told ms).ms := by
  obtain ⟨told', hallocate, -⟩ := carry_allocate_overtaken hmeeting "" (⟨.freshId, ""⟩ :: told) ms
  have hid : carry (overtaken client) (Program.call .freshId) told ms =
      ⟨"", ⟨.freshId, ""⟩ :: told, ms⟩ := rfl
  unfold create
  rw [carry_bind_ok (carry_lift_ok hid), carry_bind_ok (carry_lift_ok hallocate)]
  exact le_ms_carry _ _ _ _

/-- The first lookup finds no mapping, the second one that of the other join. -/
theorem carry_lookup_overtaken (client : Client) (s : String) (mode : Mode) (told : List Entry)
    (ms : Nat) :
    ∃ told', carry (overtaken client) (Resolution.lookup s mode) told ms =
      ⟨.ok (.read mode (if reads told = 1 then some ⟨rival.encode, 1⟩ else none)), told', ms⟩ ∧
      reads told' = 1 + reads told := by
  by_cases hreads : reads told = 1
  · cases hresolution : Resolution.ofStored mode ⟨rival.encode, 1⟩ <;>
      simp [Resolution.lookup, Resolution.read, Program.call, bind, Program.bind, pure, carry,
        overtaken, hreads, hresolution, reads_cons, readsOf]
  · simp [Resolution.lookup, Resolution.read, Program.call, bind, Program.bind, pure, carry,
      overtaken, hreads, reads_cons, readsOf]

/-- A put after the first reading comes too late, and every other one is carried out. -/
theorem carry_putIf_overtaken (client : Client) (key value : String) (expected : Option Nat)
    (told : List Entry) (ms : Nat) :
    ∃ told', carry (overtaken client) (VoiceRoom.Request.putIf key value expected).run told ms =
      ⟨.ok (if reads told = 1 then .conflict else .written 1), told', ms⟩ ∧
      reads told' = reads told :=
  ⟨_, rfl, (reads_cons _ _ _).trans (Nat.zero_add _)⟩

/-- Every reading but the second finds nothing. -/
theorem carry_get_overtaken (client : Client) (key : String) (told : List Entry) (ms : Nat) :
    ∃ told', carry (overtaken client) (VoiceRoom.Request.get key).run told ms =
      ⟨.ok (if reads told = 1 then some ⟨rival.encode, 1⟩ else none), told', ms⟩ ∧
      reads told' = 1 + reads told :=
  ⟨_, rfl, reads_cons _ _ _⟩

/-- The first attempt of a join waits for a meeting in vain, and another request is faster. -/
theorem carry_attempt_overtaken {j : Joiner} (hmode : j.mode = .real)
    (hmeeting : ∀ title, client.wait (client.createMeeting title) = (.error .timeout, T))
    {told : List Entry} (hreads : reads told = 0) (ms : Nat) :
    ∃ told', carry (overtaken client) (j.attempt none).run told ms =
      ⟨.ok (.raced, some (mockMeeting j.sessionId true)), told', ms + T⟩ ∧ reads told' = 1 := by
  obtain ⟨told₁, hlookup, hreads₁⟩ := carry_lookup_overtaken client j.sessionId j.mode told ms
  obtain ⟨told₂, hallocate, hreads₂⟩ := carry_allocate_overtaken hmeeting j.sessionId told₁ ms
  rw [hreads, if_neg Nat.zero_ne_one] at hlookup
  rw [hreads] at hreads₁
  rw [hreads₁] at hreads₂
  unfold Joiner.attempt
  rw [carry_bind_ok (carry_ofStore_ok hlookup), hmode]
  dsimp only [Resolution.read]
  rw [carry_bind_ok (carry_lift_ok hallocate)]
  -- the mapping was written by the other join in the meantime
  obtain ⟨told₃, hput, hreads₃⟩ := carry_putIf_overtaken client (mappingKey j.sessionId)
    (Mapping.ofMeeting (mockMeeting j.sessionId true)).encode none told₂ (ms + T)
  rw [hreads₂, if_pos rfl] at hput
  have hwrite : carry (overtaken client)
      (j.writeMapping .absent (mockMeeting j.sessionId true)).run told₂ (ms + T) =
        ⟨.ok false, told₃, ms + T⟩ := by
    unfold Joiner.writeMapping
    dsimp only
    rw [if_neg nofun]
    exact carry_bind_ok hput _
  rw [carry_bind_ok hwrite]
  exact ⟨told₃, rfl, hreads₃.trans hreads₂⟩

/-- The session of a mapping is not written yet. -/
theorem carry_openMapped_overtaken (client : Client) (j : Joiner) {told : List Entry}
    (hreads : reads told = 2) (ms : Nat) :
    ∃ told', carry (overtaken client) (j.openMapped rival).run told ms =
      ⟨.ok ⟨.new j.sessionId ⟨"m", .real, false⟩ 0, none, true⟩, told', ms⟩ ∧
      reads told' = 3 := by
  obtain ⟨told₁, hget, hreads₁⟩ := carry_get_overtaken client (sessionKey "m") told ms
  rw [hreads, if_neg (by decide)] at hget
  rw [hreads] at hreads₁
  have hload : carry (overtaken client) (load rival).run told ms =
      ⟨.ok none, told₁, ms⟩ := carry_bind_ok hget _
  refine ⟨_, carry_bind_ok hload _, ?_⟩
  calc reads _ = 0 + reads _ := reads_cons _ _ _
    _ = 0 + (0 + reads told₁) := congrArg _ (reads_cons _ _ _)
    _ = 3 := by rw [hreads₁]

/-- The user is added to a new session in the other meeting. -/
theorem carry_enter_overtaken (client : Client) (j : Joiner) {told : List Entry}
    (hreads : reads told = 3) (ms : Nat) :
    ∃ told' x, carry (overtaken client)
        (j.enter ⟨.new j.sessionId ⟨"m", .real, false⟩ 0, none, true⟩).run told ms =
      ⟨.ok (.joined x true), told', ms⟩ ∧ x.meetingId = "m" ∧ x.kind = .real := by
  let x := (Session.new j.sessionId ⟨"m", .real, false⟩ 0).add ⟨j.userId, 0, j.iconUrl⟩
  obtain ⟨told₁, hput, -⟩ := carry_putIf_overtaken client (sessionKey "m") x.encode none
    (⟨.now, (0 : Int)⟩ :: told) ms
  have hreads₁ : reads (⟨.now, (0 : Int)⟩ :: told) = 3 := by
    rw [reads_cons, hreads]
    rfl
  rw [hreads₁, if_neg (by decide)] at hput
  have hnow : carry (overtaken client) VoiceRoom.Request.now.run told ms =
      ⟨.ok 0, ⟨.now, (0 : Int)⟩ :: told, ms⟩ := rfl
  refine ⟨told₁, x, ?_, rfl, rfl⟩
  unfold Joiner.enter
  rw [if_neg (by exact Bool.false_ne_true), carry_bind_ok hnow]
  exact carry_bind_ok hput _

/-- The second attempt enters the meeting that the other request obtained. -/
theorem carry_attempt_mapped (client : Client) {j : Joiner} (hmode : j.mode = .real)
    (held : Option Meeting) {told : List Entry} (hreads : reads told = 1) (ms : Nat) :
    ∃ told' x, carry (overtaken client) (j.attempt held).run told ms =
      ⟨.ok (.joined x true, held), told', ms⟩ ∧ x.meetingId = "m" ∧ x.kind = .real := by
  obtain ⟨told₁, hlookup, hreads₁⟩ := carry_lookup_overtaken client j.sessionId j.mode told ms
  rw [hreads, if_pos rfl, hmode, Resolution.read, ofStored_rival] at hlookup
  rw [hreads] at hreads₁
  obtain ⟨told₂, hopen, hreads₂⟩ := carry_openMapped_overtaken client j hreads₁ ms
  obtain ⟨told₃, x, henter, hmeeting⟩ := carry_enter_overtaken client j hreads₂ ms
  unfold Joiner.attempt
  rw [hmode, carry_bind_ok (carry_ofStore_ok hlookup)]
  dsimp only
  rw [carry_bind_ok hopen, carry_bind_ok henter]
  exact ⟨told₃, x, rfl, hmeeting⟩

/-- Then it waits for a token in vain. -/
theorem le_ms_finish_overtaken (appId : String) {j : Joiner} (hmode : j.mode = .real)
    (htoken : ∀ userId, client.wait (client.createParticipant "m" userId) = (.error .timeout, T))
    {x : Session} (hmeeting : x.meetingId = "m") (hkind : x.kind = .real) (s : String)
    (added : Bool) (told : List Entry) (ms : Nat) :
    ms + T ≤
      (carry (overtaken client) (j.finish appId (some (mockMeeting s true)) x added)
        told ms).ms := by
  simp [Joiner.finish, Joiner.orphan?, mockMeeting, issue, issueToken, hmode, hmeeting, hkind,
    htoken, Program.call, bind, Program.bind, pure, carry, overtaken]

/-- A join that is overtaken once waits for a meeting and then for a token, since the mapping it
loses to is a real one. -/
theorem le_ms_join_overtaken (appId s : String)
    (hmeeting : ∀ title, client.wait (client.createMeeting title) = (.error .timeout, T))
    (htoken : ∀ userId, client.wait (client.createParticipant "m" userId) = (.error .timeout, T))
    {r : JoinRequest} {userId : String} (hvalid : r.validate = .ok userId)
    {told : List Entry} (hreads : reads told = 0) (ms : Nat) :
    ms + T + T ≤ (carry (overtaken client) (join appId .real s r).run told ms).ms := by
  let j : Joiner := ⟨.real, s, userId, r.iconUrl⟩
  have hjoin : join appId .real s r = j.retry appId maxAttempts none := by
    rw [join, hvalid]
  obtain ⟨told₁, hfirst, hreads₁⟩ := carry_attempt_overtaken (j := j) rfl hmeeting hreads ms
  -- The first attempt is lost, which is counted and noted.
  let told₂ : List Entry := ⟨.note (.joinRaced s 1), ()⟩ :: ⟨.count .joinConflict, ()⟩ :: told₁
  have hreads₂ : reads told₂ = 1 := by
    rw [reads_cons, reads_cons, hreads₁]
    rfl
  obtain ⟨told₃, x, hsecond, hid, hkind⟩ :=
    carry_attempt_mapped client (j := j) rfl (some (mockMeeting s true)) hreads₂ (ms + T)
  rw [hjoin, maxAttempts, Joiner.retry, ExceptT.run_bind_lift, carry_bind, hfirst]
  show _ ≤ (carry _ (j.retry appId 4 (some (mockMeeting s true))).run told₂ (ms + T)).ms
  rw [Joiner.retry, ExceptT.run_bind_lift, carry_bind, hsecond]
  dsimp only
  rw [ExceptT.run_lift, map_eq_pure_bind, carry_bind]
  exact Nat.le_trans (le_ms_finish_overtaken appId rfl htoken hid hkind s true told₃ (ms + T))
    (le_ms_carry _ _ _ _)

/-- Being overtaken can happen. -/
theorem possible_overtaken (client : Client) :
    (overtaken client).Possible client := by
  intro told c
  cases c with
  | get key => exact ⟨⟨_, rfl⟩, rfl⟩
  | putIf key value expected => exact ⟨⟨_, rfl⟩, rfl⟩
  | ping => exact ⟨rfl, rfl⟩
  | createMeeting title => exact client.wait_le _
  | createParticipant meetingId userId => exact client.wait_le _
  | now => exact ⟨rfl, rfl⟩
  | _ => rfl

end Late

/-! ### What is answered in time -/

/-- A request to create a session. -/
structure IsCreate (r : Request) : Prop where
  route : Route.ofPath? (Route.path r.target) = some .sessions
  method : r.method = "POST"

/-- A valid request to join a session. -/
inductive IsJoin (r : Request) : Prop where
  | intro (segment s userId : String) (request : JoinRequest)
      (route : Route.ofPath? (Route.path r.target) = some (.join segment))
      (method : r.method = "POST") (id : segmentText? segment = some s)
      (body : readJoin? r = some request) (valid : request.validate = .ok userId) : IsJoin r

/-- Whether clients of a service see the responses of its handlers, however the provider behaves,
depends on how long a call of the provider may take. -/
structure HandledWithinLimit (c : Config) : Prop where
  all : c.timeoutSeconds < 15 → ∀ b : Behaviour, b.Possible (.ofConfig c) → ∀ r,
    Handled c.appId b r
  creates : c.timeoutSeconds < 30 → ∀ b : Behaviour, b.Possible (.ofConfig c) → ∀ r, IsCreate r →
    Handled c.appId b r
  /-- Creates run out of time if the provider is silent. -/
  lateCreates : 30 ≤ c.timeoutSeconds → ((Client.ofConfig c).url? "/meetings").isSome →
    ∃ b : Behaviour, b.Possible (.ofConfig c) ∧ ∀ r, IsCreate r → served c.appId b r = .timeout
  /-- Valid joins run out of time if the provider is silent and another request is faster. -/
  lateJoins : 15 ≤ c.timeoutSeconds → (Client.ofConfig c).Reaches "m" →
    ∃ b : Behaviour, b.Possible (.ofConfig c) ∧ ∀ r, IsJoin r → served c.appId b r = .timeout

section Served

variable {b : Behaviour} {appId : String} {r : Request} {told : List Entry} {ms : Nat}

theorem le_ms_respond (b : Behaviour) (toJson : α → Json) (x : VoiceRoom.Request α) :
    (carry b x.run told ms).ms ≤ (carry b (respond toJson x) told ms).ms := by
  rw [respond, carry_bind]
  exact le_ms_carry _ _ _ _

/-- What takes as long as the limit is cut off. -/
theorem served_of_le {route : Route} (hroute : Route.ofPath? (Route.path r.target) = some route)
    (htakes : route.takes r.method = true)
    (h : limitMs ≤ (carry b (answerRoute appId r route) [] 0).ms) :
    served appId b r = .timeout := by
  have hms : limitMs ≤ (handled appId b r).ms := by
    rw [handled, answer, hroute]
    dsimp only
    rw [if_pos htakes, carry_bind]
    exact Nat.le_trans h (le_ms_carry _ _ _ _)
  rw [served, if_neg (Nat.not_lt.2 hms)]

/-- The mode of the service is read before anything else is done. -/
theorem carry_mode_overtaken (client : Client) (rest : Mode → Program Response) :
    carry (overtaken client) (.ask .mode rest) [] 0 =
      carry (overtaken client) (rest .real) [⟨.mode, .real⟩] 0 := rfl

/-- A create is cut off if the client waits for 30 seconds. -/
theorem served_create_overtaken {client : Client}
    (hle : 30 ≤ client.timeoutSeconds) (hurl : (client.url? "/meetings").isSome)
    (hr : IsCreate r) : served appId (overtaken client) r = .timeout := by
  refine served_of_le hr.route (by rw [hr.method]; rfl) ?_
  have hms : 0 + 1000 * client.timeoutSeconds ≤
      (carry (overtaken client) (create .real).run [⟨.mode, .real⟩] 0).ms :=
    le_ms_create_overtaken (Client.wait_createMeeting hurl) _ 0
  have hroute : answerRoute appId r .sessions = .ask .mode fun mode =>
      respond Session.toJson (create mode) := rfl
  rw [hroute, carry_mode_overtaken]
  refine Nat.le_trans ?_ (Nat.le_trans hms (le_ms_respond _ _ _))
  rw [limitMs]
  omega

/-- A join is cut off if the client waits for 15 seconds. -/
theorem served_join_overtaken {client : Client}
    (hle : 15 ≤ client.timeoutSeconds) (hurl : client.Reaches "m")
    (hr : IsJoin r) : served appId (overtaken client) r = .timeout := by
  cases hr with
  | intro segment s userId request hroute hmethod hid hbody hvalid =>
    refine served_of_le hroute (by rw [hmethod]; rfl) ?_
    have hms : 0 + 1000 * client.timeoutSeconds + 1000 * client.timeoutSeconds ≤
        (carry (overtaken client) (join appId .real s request).run [⟨.mode, .real⟩] 0).ms :=
      le_ms_join_overtaken appId s (Client.wait_createMeeting hurl.meetings)
        (Client.wait_createParticipant hurl.participants) hvalid rfl 0
    have hjoin : answerRoute appId r (.join segment) = .ask .mode fun mode =>
        respond JoinReply.toJson (join appId mode s request) := by
      rw [answerRoute, answerJoin, hid]
      dsimp only
      rw [hbody]
      rfl
    rw [hjoin, carry_mode_overtaken]
    refine Nat.le_trans ?_ (Nat.le_trans hms (le_ms_respond _ _ _))
    rw [limitMs]
    omega

end Served

/-- Whatever the provider does, requests are handled in time if a call of it may take less than
fifteen seconds, and creates if it may take less than thirty. Otherwise they need not be. -/
theorem handled_within_limit (c : Config) : HandledWithinLimit c where
  all hlt b hb r := by
    refine handled_of_lt hb ?_
    -- no request makes more than two inquiries, each of which waits as long as the client does
    calc 1000 * c.timeoutSeconds * r.inquiries
        ≤ 1000 * c.timeoutSeconds * 2 := Nat.mul_le_mul_left _ r.inquiries_le
      _ < limitMs := by
        rw [limitMs]
        omega
  creates hlt b hb r hr := by
    refine handled_of_lt hb ?_
    rw [Request.inquiries, hr.route]
    show 1000 * c.timeoutSeconds * 1 < limitMs
    rw [limitMs]
    omega
  -- The other way round a provider that says nothing makes both wait that long.
  lateCreates hle hurl :=
    ⟨_, possible_overtaken _, fun _ hr => served_create_overtaken hle hurl hr⟩
  lateJoins hle hurl :=
    ⟨_, possible_overtaken _, fun _ hr => served_join_overtaken hle hurl hr⟩

/-! The longest time that is accepted for a call, and half of it. -/

/-- Variables with a time for calls of the provider. -/
def patience (seconds : String) (name : String) : Option String :=
  [(Config.redisUrlName, "redis://localhost"), (Config.timeoutName, seconds),
    (Config.apiBaseUrlName, "http://provider.test/v2")].lookup name

/-- The configuration with a time for calls of the provider. -/
def patient (seconds : Nat) : Config where
  redisUrl := "redis://localhost"
  bindAddress := "0.0.0.0:8080"
  mode := .real
  apiBaseUrl := "http://provider.test/v2"
  orgId := ""
  apiKey := ""
  appId := ""
  timeoutSeconds := seconds
  drainSeconds := 0

def createRequest : Request :=
  ⟨"POST", "/sessions", [], []⟩

def joinRequest : Request :=
  ⟨"POST", "/sessions/s/join", [("content-type", "application/json")], utf8 "\x7b\"userId\":\"u\"\x7d"⟩

/-- With a second less for each call, a create and a join that is overtaken outlast a provider that
does not answer, and are answered by their handlers. -/
theorem silence_outlasted :
    (Config.read (patience "29") = .ok (patient 29) ∧
      (overtaken (.ofConfig (patient 29))).Possible (.ofConfig (patient 29)) ∧
      Handled (patient 29).appId (overtaken (.ofConfig (patient 29))) createRequest ∧
      (handled (patient 29).appId (overtaken (.ofConfig (patient 29))) createRequest).ms = 29000 ∧
      (served (patient 29).appId (overtaken (.ofConfig (patient 29))) createRequest).status = 200) ∧
    Config.read (patience "14") = .ok (patient 14) ∧
      (overtaken (.ofConfig (patient 14))).Possible (.ofConfig (patient 14)) ∧
      Handled (patient 14).appId (overtaken (.ofConfig (patient 14))) joinRequest ∧
      (handled (patient 14).appId (overtaken (.ofConfig (patient 14))) joinRequest).ms = 28000 ∧
      (served (patient 14).appId (overtaken (.ofConfig (patient 14))) joinRequest).status = 200 := by
  have hcreate := possible_overtaken (.ofConfig (patient 29))
  have hjoin := possible_overtaken (.ofConfig (patient 14))
  refine ⟨⟨by decide, hcreate, ?_, by decide +kernel, by decide +kernel⟩, by decide, hjoin, ?_,
    by decide +kernel, by decide +kernel⟩
  · exact (handled_within_limit (patient 29)).creates (by decide) _ hcreate _ ⟨by decide, rfl⟩
  · exact (handled_within_limit (patient 14)).all (by decide) _ hjoin _

/-- A create with thirty seconds for a call and a join with fifteen run out of time. -/
theorem silence_outlasts_limit :
    (Config.read (patience "30") = .ok (patient 30) ∧
      (overtaken (.ofConfig (patient 30))).Possible (.ofConfig (patient 30)) ∧
      served (patient 30).appId (overtaken (.ofConfig (patient 30))) createRequest = .timeout) ∧
    (Config.read (patience "15") = .ok (patient 15) ∧
      (overtaken (.ofConfig (patient 15))).Possible (.ofConfig (patient 15)) ∧
      served (patient 15).appId (overtaken (.ofConfig (patient 15))) joinRequest = .timeout) ∧
    Response.timeout.status = 408 := by
  refine ⟨⟨by decide, possible_overtaken _, ?_⟩, ⟨by decide, possible_overtaken _, ?_⟩, rfl⟩
  · exact served_create_overtaken (by decide) (by decide) ⟨by decide, rfl⟩
  · refine served_join_overtaken (by decide) ⟨by decide, by decide⟩ ?_
    exact .intro "s" "s" "u" ⟨some "u", none⟩ (by decide) rfl (by decide +kernel)
      (by decide +kernel) (by decide)

end Http

end VoiceRoom
