import VoiceRoom.Provider.Client

/-!
# Providers to try the service with

A provider that makes up meetings and tokens and can be told to fail, one that answers from a
list, and the real client over a network whose replies are listed.
-/

namespace VoiceRoom.Simulation

/-- What a made-up provider was asked for. -/
structure Tally where
  meetings : Nat := 0
  participants : Nat := 0
  titles : List String := []
deriving DecidableEq, Repr

inductive Provider where
  | madeUp (failsMeetings failsTokens : Bool) (tally : Tally)
  | listed (results : List (Except ProviderError String))
  | remote (client : Client) (replies : List Reply)

/-- An answer of a provider and the provider afterwards. -/
structure Provided where
  result : Except ProviderError String
  provider : Provider
  elapsedMs : Nat := 0
  events : List Event := []
  measurements : List Measurement := []
  sent : Option Sent := none

namespace Provider

/-- The next result of a list. After the last one every call times out. -/
def next (results : List (Except ProviderError String)) : Provided :=
  match results with
  | [] => { result := .error .timeout, provider := listed [] }
  | r :: rest => { result := r, provider := listed rest }

/-- A call over the network. -/
def overNetwork (client : Client) (operation : Operation) (replies : List Reply)
    (exchange : Reply → Exchange) : Provided :=
  let x := exchange (replies.head?.getD .dropped)
  { result := x.result
    provider := remote client (if x.used then replies.tail else replies)
    elapsedMs := x.elapsedMs
    events := x.events
    measurements := [Client.measure operation x]
    sent := x.sent }

def createMeeting (p : Provider) (title : String) : Provided :=
  match p with
  | madeUp failsMeetings failsTokens tally =>
    let tally :=
      { tally with meetings := tally.meetings + 1, titles := tally.titles ++ [title] }
    { result :=
        if failsMeetings then .error (.unreachable "Mock provider error")
        else .ok ("real-meeting-" ++ tally.meetings.repr)
      provider := madeUp failsMeetings failsTokens tally }
  | listed results => next results
  | remote client replies =>
    overNetwork client .createMeeting replies (client.createMeeting title)

def createParticipant (p : Provider) (meetingId userId : String) : Provided :=
  match p with
  | madeUp failsMeetings failsTokens tally =>
    { result :=
        if failsTokens then .error (.status 503)
        else .ok ("token-" ++ meetingId ++ "-" ++ userId)
      provider :=
        madeUp failsMeetings failsTokens { tally with participants := tally.participants + 1 } }
  | listed results => next results
  | remote client replies =>
    overNetwork client .createParticipant replies (client.createParticipant meetingId userId)

def tally? : Provider → Option Tally
  | madeUp _ _ tally => some tally
  | _ => none

end Provider

end VoiceRoom.Simulation
