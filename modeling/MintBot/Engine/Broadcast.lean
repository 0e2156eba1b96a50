import MintBot.Store.Transaction

/-!
# Broadcast results

What the engine makes of the answers to a broadcast: the class of each answer,
the answer it selects, and the attempts it records, first the signed one and
then one for each answer in list order.
-/

namespace MintBot

/-- One endpoint's answer to a broadcast. -/
structure BroadcastResult where
  txHash : String
  success : Bool
  responseClass : Option BroadcastResponseClass
  ambiguous : Bool
  error : Option String
  deriving DecidableEq, Repr

/-- The text contains the pattern, letter case aside. -/
def mentions (pattern text : String) : Bool :=
  (toLowerCase text).toList.tails.any fun rest => pattern.toList.isPrefixOf rest

/-- `/already\\s*known/i` matches the text. -/
def mentionsAlreadyKnown (text : String) : Bool :=
  (toLowerCase text).toList.tails.any fun rest =>
    "already".toList.isPrefixOf rest &&
      "known".toList.isPrefixOf ((rest.drop "already".length).dropWhile Char.isWhitespace)

/-- `classifyBroadcastResult`. -/
def classifyBroadcastResult (result : BroadcastResult) : BroadcastResponseClass :=
  let error := result.error.getD ""
  match result.responseClass with
  | some responseClass => responseClass
  | none =>
      if result.success then .accepted
      else if result.ambiguous then .ambiguous
      else if mentionsAlreadyKnown error then .alreadyKnown
      else if mentions "timeout" error || mentions "timed out" error || mentions "deadline" error
      then .timeout
      else .providerError

/-- `selectBroadcastAttempt`: the first successful answer, with the id of the
attempt recorded for it. -/
def selectBroadcastAttempt (executionId : ExecutionId) (results : List BroadcastResult) :
    Option (Nat × AttemptId × BroadcastResult) := do
  let resultIndex ← results.findIdx? BroadcastResult.success
  let result ← results[resultIndex]?
  pure (resultIndex, .broadcast executionId resultIndex (classifyBroadcastResult result), result)

/-- One submission of an execution: the transaction that the engine signed and
the clock readings of the attempts it records. -/
structure Submission where
  executionId : ExecutionId
  transactionIntentId : IntentRowId
  nonce : Nat
  signedHash : String
  signedAt : Time
  answeredAt : Nat → Time

/-- The attempt recorded after signing. -/
def Submission.signedAttempt (submission : Submission) : EngineAttempt where
  id := .signed submission.executionId
  executionId := submission.executionId
  transactionIntentId := submission.transactionIntentId
  responseClass := .signed
  txHash := some submission.signedHash
  nonce := submission.nonce
  replacementOfId := none
  attemptedAt := submission.signedAt

/-- The attempt recorded for the answer at an index; `0x` stands for no hash. -/
def Submission.answerAttempt (submission : Submission) (resultIndex : Nat)
    (result : BroadcastResult) : EngineAttempt where
  id := .broadcast submission.executionId resultIndex (classifyBroadcastResult result)
  executionId := submission.executionId
  transactionIntentId := submission.transactionIntentId
  responseClass := .broadcast (classifyBroadcastResult result)
  txHash := if result.txHash ≠ "0x" then some result.txHash else none
  nonce := submission.nonce
  replacementOfId := none
  attemptedAt := submission.answeredAt resultIndex

/-- Record the answers from an index on, in list order. -/
def persistAnswers (fleetPolicy : Option FleetSpendPolicy) (submission : Submission) :
    Nat → List BroadcastResult → Db → Except Error Db
  | _, [], db => .ok db
  | resultIndex, result :: rest, db => do
      let next ← persistEngineAttempt fleetPolicy db (submission.answeredAt resultIndex)
        (submission.answerAttempt resultIndex result)
      persistAnswers fleetPolicy submission (resultIndex + 1) rest next

/-- Record the signed attempt and then every answer. -/
def persistBroadcast (fleetPolicy : Option FleetSpendPolicy) (submission : Submission)
    (results : List BroadcastResult) (db : Db) : Except Error Db := do
  let signed ← persistEngineAttempt fleetPolicy db submission.signedAt submission.signedAttempt
  persistAnswers fleetPolicy submission 0 results signed

end MintBot
