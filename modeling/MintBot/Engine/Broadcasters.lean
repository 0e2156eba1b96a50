import MintBot.Engine.Broadcast

/-!
# Broadcasters

What each broadcaster makes of the answers to a signed transaction: a public
endpoint, a blast to several, a sequencer with endpoints behind it, the Flashbots
relay, and the relay with a blast behind it.
-/

namespace MintBot

/-- A value that an endpoint gives as its `result`: a text, or another JSON value,
known by its JSON text and by whether a condition takes it for true. -/
inductive ResultValue
  | text (value : String)
  | other (json : String) (truthy : Bool)
  deriving DecidableEq, Repr

def ResultValue.truthy : ResultValue → Bool
  | .text value => value ≠ ""
  | .other _ truthy => truthy

/-- The value in the place of a hash; one that is no text stands there as its JSON. -/
def ResultValue.hash : ResultValue → String
  | .text value => value
  | .other json _ => json

/-- What `eth_sendRawTransaction` comes to at one endpoint.  An error may come
without a message. -/
inductive EndpointAnswer
  | answered (result : Option ResultValue) (error : Option (Option String))
  /-- The request failed, timed out, or its body was no JSON. -/
  | failed (error : Error)
  deriving DecidableEq, Repr

/-- The hash that an answer names, if it carries a result. -/
def EndpointAnswer.named : EndpointAnswer → Option String
  | .answered result _ => (result.filter ResultValue.truthy).map ResultValue.hash
  | .failed _ => none

section Endpoints

-- The hash of the signed bytes.
variable (signedHash : String)

/-- A send whose outcome is not known keeps the hash of the signed bytes. -/
def lostAnswer (error : Error) : BroadcastResult where
  txHash := signedHash
  success := false
  responseClass := some .ambiguous
  ambiguous := true
  error := some error

/-- The result of one endpoint.  The broadcasters differ in how they tell an error for a
transaction that the node has already, and in their text for an error without one. -/
def endpointResult (isKnown : Option (Option String) → Except Error Bool) (unknownError : String) :
    EndpointAnswer → BroadcastResult
  | .failed error => lostAnswer signedHash error
  | .answered result error =>
      match (EndpointAnswer.answered result error).named with
      | some txHash =>
          { txHash, success := true, responseClass := some .accepted, ambiguous := false,
            error := none }
      | none =>
          match isKnown error with
          | .error thrown => lostAnswer signedHash thrown
          | .ok true =>
              { txHash := signedHash, success := true, responseClass := some .alreadyKnown,
                ambiguous := false, error := some "already known" }
          | .ok false =>
              { txHash := signedHash, success := false, responseClass := some .rejected,
                ambiguous := false, error := some (error.join.getD unknownError) }

/-- `PublicMempoolBroadcaster` reads the message of every error it is given. -/
def publicMempoolKnown : Option (Option String) → Except Error Bool
  | none => .ok false
  | some none => .error "Cannot read properties of undefined (reading 'toLowerCase')"
  | some (some message) => .ok (mentions "already known" message)

/-- `PublicMempoolBroadcaster.broadcast`. -/
def publicMempoolBroadcast (answer : EndpointAnswer) : List BroadcastResult :=
  [endpointResult signedHash publicMempoolKnown "Unknown RPC error" answer]

def blastKnown (error : Option (Option String)) : Except Error Bool :=
  .ok (mentionsAlreadyKnown (error.join.getD ""))

/-- `BlastBroadcaster.fireBlast`. -/
def fireBlast (answers : List EndpointAnswer) : List BroadcastResult :=
  answers.map (endpointResult signedHash blastKnown "Unknown error")

/-- `SequencerDirectBroadcaster.broadcast`: the sequencer before the other endpoints. -/
def sequencerDirectBroadcast (sequencer : EndpointAnswer) (fallbacks : List EndpointAnswer) :
    List BroadcastResult :=
  (sequencer :: fallbacks).map (endpointResult signedHash blastKnown "Unknown error")

/-! ## The relay -/

/-- What the relay makes of the bundle for one target block. -/
inductive RelayAnswer
  | refused (message code : String)
  | answered (bundleHash : Option String)
  | failed (error : Error)
  deriving DecidableEq, Repr

/-- `sendBundle`. -/
def sendBundle : RelayAnswer → Except Error String
  | .refused message code =>
      .error ("Flashbots relay error: " ++ message ++ " (code: " ++ code ++ ")")
  | .answered bundleHash =>
      match bundleHash.filter (· ≠ "") with
      | none => .error "Flashbots relay returned no bundle hash"
      | some bundleHash => .ok bundleHash
  | .failed error => .error error

/-- The result for one target block; the transaction keeps the hash of its signed bytes. -/
def relayResult (answer : RelayAnswer) : BroadcastResult :=
  match sendBundle answer with
  | .ok _ =>
      { txHash := signedHash, success := true, responseClass := some .accepted,
        ambiguous := false, error := none }
  | .error error =>
      let ambiguous := !(mentions "relay error" error || mentions "returned no bundle hash" error)
      { txHash := signedHash, success := false,
        responseClass := some (if ambiguous then .ambiguous else .rejected), ambiguous,
        error := some error }

/-- `FlashbotsBroadcaster.broadcast`, one answer for each target block. -/
def flashbotsBroadcast (answers : List RelayAnswer) : List BroadcastResult :=
  answers.map (relayResult signedHash)

/-! ## Fallback -/

/-- The results of a route; one that throws leaves a single ambiguous result. -/
def orAmbiguous : Except Error (List BroadcastResult) → List BroadcastResult
  | .ok results => results
  | .error error => [lostAnswer signedHash error]

/-- `FallbackBroadcaster.broadcast`: the fallback is asked when the primary route had no
success. -/
def fallbackBroadcast (primary fallback : Except Error (List BroadcastResult)) :
    List BroadcastResult :=
  let primaryResults := orAmbiguous signedHash primary
  if primaryResults.any BroadcastResult.success then primaryResults
  else primaryResults ++ orAmbiguous signedHash fallback

/-! ## One broadcast -/

/-- A broadcaster with what its endpoints answer. -/
inductive Broadcasting
  | publicMempool (answer : EndpointAnswer)
  | blast (answers : List EndpointAnswer)
  | sequencerDirect (sequencer : EndpointAnswer) (fallbacks : List EndpointAnswer)
  | flashbots (relay : List RelayAnswer)
  | fallback (relay : Except Error (List RelayAnswer))
      (blast : Except Error (List EndpointAnswer))
  /-- The target block could not be read. -/
  | threw (error : Error)

/-- `broadcaster.broadcast` for one signed transaction. -/
def broadcast : Broadcasting → Except Error (List BroadcastResult)
  | .publicMempool answer => .ok (publicMempoolBroadcast signedHash answer)
  | .blast answers => .ok (fireBlast signedHash answers)
  | .sequencerDirect sequencer fallbacks =>
      .ok (sequencerDirectBroadcast signedHash sequencer fallbacks)
  | .flashbots relay => .ok (flashbotsBroadcast signedHash relay)
  | .fallback relay blast =>
      .ok (fallbackBroadcast signedHash (relay.map (flashbotsBroadcast signedHash))
        (blast.map (fireBlast signedHash)))
  | .threw error => .error error

end Endpoints

/-! ## What the results carry -/

section Results

variable (signedHash : String)

/-- An endpoint's result carries the hash of the signed bytes or the one the endpoint
named, and in that case it is a success. -/
theorem endpointResult_txHash (isKnown : Option (Option String) → Except Error Bool)
    (unknownError : String) (answer : EndpointAnswer) :
    match answer.named with
    | some named =>
        (endpointResult signedHash isKnown unknownError answer).txHash = named ∧
          (endpointResult signedHash isKnown unknownError answer).success = true
    | none => (endpointResult signedHash isKnown unknownError answer).txHash = signedHash := by
  cases answer with
  | failed error => rfl
  | answered result error =>
      cases named : (EndpointAnswer.answered result error).named with
      | some txHash => simp only [endpointResult, named, and_self]
      | none =>
          simp only [endpointResult, named]
          cases isKnown error with
          | error thrown => rfl
          | ok known => cases known <;> rfl

theorem relayResult_txHash (answer : RelayAnswer) :
    (relayResult signedHash answer).txHash = signedHash := by
  unfold relayResult
  cases sendBundle answer <;> rfl

theorem flashbotsBroadcast_txHash {relay : List RelayAnswer} {result : BroadcastResult}
    (member : result ∈ flashbotsBroadcast signedHash relay) : result.txHash = signedHash := by
  obtain ⟨answer, _, rfl⟩ := List.mem_map.mp member
  exact relayResult_txHash signedHash answer

/-- A route that throws leaves a result under the hash of the signed bytes. -/
theorem orAmbiguous_error {error : Error} {result : BroadcastResult}
    (member : result ∈ orAmbiguous signedHash (.error error)) :
    result.txHash = signedHash ∧ result.success = false := by
  obtain rfl := List.mem_singleton.mp member
  exact ⟨rfl, rfl⟩

end Results

end MintBot
