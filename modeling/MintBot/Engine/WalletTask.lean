import MintBot.Engine.Broadcast

/-!
# Wallet tasks of the engine

`executeFleet` runs one task for each wallet.  A task may stop before it has an
identity, fail at any later step, or see its transaction mined; what it returns
is made from the variables it had set by then.  A course says how far a task
came and what it was told on the way.
-/

namespace MintBot

inductive WalletStatus
  | success
  | prepared
  | failed
  | timeout
  | skipped
  | killed
  deriving DecidableEq, Repr

/-- Finality stages as the engine names them. -/
inductive ObservedStage
  | unknown
  | confirmed
  | soft
  | posted
  | ethereumFinal
  deriving DecidableEq, Repr

inductive WalletLifecycleState
  | submitted
  | included
  | posted
  | ethereumFinal
  | replaced
  | dropped
  | reorged
  | failed
  deriving DecidableEq, Repr

/-- What is known of a submission whose receipt is missing. -/
inductive SubmissionDisposition
  | matched
  | ambiguous
  | replaced
  | dropped
  | reorged
  | unresolved
  deriving DecidableEq, Repr

structure WalletMintResult where
  address : String
  status : WalletStatus
  txHash : Option String := none
  nonce : Option Nat := none
  blockNumber : Option Nat := none
  blockHash : Option String := none
  finalityStage : Option ObservedStage := none
  gasUsed : Option Nat := none
  effectiveGasPrice : Option Nat := none
  l1DataFeeWei : Option Nat := none
  operatorFeeWei : Option Nat := none
  totalCostWei : Option Nat := none
  executionId : Option ExecutionId := none
  transactionIntentId : Option IntentRowId := none
  reservationId : Option ReservationId := none
  attemptIds : List AttemptId := []
  submittedAttemptId : Option AttemptId := none
  attemptHashes : List (AttemptId × String) := []
  attemptReplacements : List (AttemptId × AttemptId) := []
  replacedAttemptIds : List AttemptId := []
  lifecycleState : Option WalletLifecycleState := none

structure MintJobResult where
  dryRun : Bool
  walletResults : List WalletMintResult

/-- A mined transaction as the receipt watcher returns it. -/
structure MintReceipt where
  txHash : String
  succeeded : Bool
  blockNumber : Nat
  blockHash : String
  gasUsed : Nat
  effectiveGasPrice : Nat
  l1DataFeeWei : Option Nat
  operatorFeeWei : Option Nat
  finalityStage : ObservedStage
  txHashPresent : txHash ≠ ""
  blockHashPresent : blockHash ≠ ""

/-- The stage at which the chain counts a receipt as settled. -/
def settlementStage : ChainId → ObservedStage
  | .ethereum => .confirmed
  | .base | .robinhood => .ethereumFinal

/-- The receipt watcher returns a receipt only at the settlement stage of its
chain; until then it waits, and in the end it times out. -/
def MintReceipt.Awaited (receipt : MintReceipt) (chainId : ChainId) : Prop :=
  receipt.finalityStage = settlementStage chainId

/-- The outcome of the receipt is authoritative. -/
def MintReceipt.Authoritative (receipt : MintReceipt) (chainId : ChainId) : Prop :=
  chainId = .ethereum ∨ receipt.finalityStage = .ethereumFinal

instance (receipt : MintReceipt) (chainId : ChainId) :
    Decidable (receipt.Authoritative chainId) := by
  unfold MintReceipt.Authoritative
  infer_instance

/-- `lifecycleStateForFinality`. -/
def lifecycleStateForFinality (chainId : ChainId) (receipt : MintReceipt) :
    WalletLifecycleState :=
  if receipt.succeeded = false ∧ receipt.Authoritative chainId then .failed
  else if chainId ≠ .ethereum ∧ receipt.finalityStage = .ethereumFinal then .ethereumFinal
  else if chainId ≠ .ethereum ∧ receipt.finalityStage = .posted then .posted
  else .included

/-- What the tasks of one fleet share. -/
structure MintJob where
  runId : RunId
  intentId : IntentId
  chainId : ChainId
  valueWei : Nat
  deriving DecidableEq, Repr

/-- `canonicalExecutionIdentity`: the execution of a wallet in a run. -/
def MintJob.executionId (job : MintJob) (address : String) : ExecutionId :=
  ⟨job.runId, toLowerCase address⟩

/-! ## The variables of a task -/

structure WalletTask where
  address : String
  builtNonce : Option Nat := none
  executionId : Option ExecutionId := none
  transactionIntentId : Option IntentRowId := none
  reservationId : Option ReservationId := none
  attemptIds : List AttemptId := []
  submittedHash : Option String := none
  submissionAttemptId : Option AttemptId := none
  attemptHashes : List (AttemptId × String) := []
  attemptReplacements : List (AttemptId × AttemptId) := []
  replacedAttemptIds : List AttemptId := []

namespace WalletTask

/-- The task once its nonce is built and its identity assigned. -/
def identified (job : MintJob) (address : String) (nonce : Nat) : WalletTask where
  address := address
  builtNonce := some nonce
  executionId := some (job.executionId address)
  transactionIntentId := some ⟨job.intentId, toLowerCase address⟩

/-- The task once money is reserved for it. -/
def reserved (job : MintJob) (address : String) (nonce : Nat) : WalletTask :=
  { identified job address nonce with reservationId := some ⟨job.runId, toLowerCase address⟩ }

/-- The task once its transaction is signed. -/
def signed (job : MintJob) (address : String) (nonce : Nat) : WalletTask :=
  { reserved job address nonce with attemptIds := [.signed (job.executionId address)] }

end WalletTask

/-- An answer after which the transaction may be on its way. -/
def BroadcastResult.Ambiguous (result : BroadcastResult) : Prop :=
  result.ambiguous = true ∨ classifyBroadcastResult result = .ambiguous ∨
    classifyBroadcastResult result = .timeout

instance (result : BroadcastResult) : Decidable result.Ambiguous := by
  unfold BroadcastResult.Ambiguous
  infer_instance

/-- The hash an answer names; `0x` stands for the signed one. -/
def BroadcastResult.hashOr (signedHash : String) (result : BroadcastResult) : String :=
  if result.txHash ≠ "0x" then result.txHash else signedHash

/-- The ids of the attempts recorded for a list of answers. -/
def answerIds (executionId : ExecutionId) (results : List BroadcastResult) : List AttemptId :=
  results.mapIdx fun resultIndex result =>
    .broadcast executionId resultIndex (classifyBroadcastResult result)

namespace WalletTask

/-- The task once the endpoints answered and the first of their answers are
recorded. -/
def answering (job : MintJob) (address : String) (nonce : Nat) (signedHash : String)
    (results : List BroadcastResult) (recorded : Nat) : WalletTask :=
  let task := signed job address nonce
  { task with
    attemptIds := task.attemptIds ++ answerIds (job.executionId address) (results.take recorded)
    submittedHash :=
      (results.find? fun result => result.success ∨ result.Ambiguous).map
        (BroadcastResult.hashOr signedHash) }

/-- The task once every answer is recorded and none was successful. -/
def unaccepted (job : MintJob) (address : String) (nonce : Nat) (signedHash : String)
    (results : List BroadcastResult) : WalletTask :=
  let task := answering job address nonce signedHash results results.length
  match results.findIdx? fun result => result.Ambiguous with
  | none => task
  | some resultIndex =>
      { task with
        submittedHash := results[resultIndex]?.map (BroadcastResult.hashOr signedHash)
        submissionAttemptId := results[resultIndex]?.map fun result =>
          .broadcast (job.executionId address) resultIndex (classifyBroadcastResult result) }

/-- The task once every answer is recorded and this one was successful. -/
def accepted (job : MintJob) (address : String) (nonce : Nat) (signedHash : String)
    (results : List BroadcastResult) (attemptId : AttemptId) (result : BroadcastResult) :
    WalletTask :=
  { answering job address nonce signedHash results results.length with
    submittedHash := some result.txHash
    submissionAttemptId := some attemptId }

end WalletTask

/-! ## The replacement ladder -/

/-- A signed replacement with the answers recorded for it; its broadcast either
completed or was interrupted. -/
structure Replacement where
  signedHash : String
  answers : List BroadcastResult
  completed : Bool
  deriving DecidableEq, Repr

/-- A task that watches the hashes it sent. -/
structure Ladder where
  task : WalletTask
  acceptedAttemptByHash : List (String × AttemptId)
  watched : List String
  newest : AttemptId

/-- The attempt that carries a hash, the latest one of that hash. -/
def Ladder.acceptedAttempt (ladder : Ladder) (hash : String) : Option AttemptId :=
  (Table.lookup Prod.fst (toLowerCase hash) ladder.acceptedAttemptByHash).map Prod.snd

/-- The ladder of an accepted transaction, before any replacement. -/
def Ladder.start (task : WalletTask) (executionId : ExecutionId) (firstHash : String) : Ladder where
  task := task
  acceptedAttemptByHash :=
    [(toLowerCase firstHash, task.submissionAttemptId.getD (.signed executionId))]
  watched := [firstHash]
  newest := .signed executionId

/-- Replacements give every attempt its own hash. -/
def Ladder.open (ladder : Ladder) (firstHash : String) : Ladder :=
  { ladder with
    task := { ladder.task with
      attemptHashes := ladder.task.attemptIds.map fun attemptId => (attemptId, firstHash) } }

/-- The ids of the attempts recorded for a replacement. -/
def Replacement.attemptIds (replacement : Replacement) (executionId : ExecutionId) (bump : Nat) :
    List AttemptId :=
  .replacementSigned executionId bump ::
    replacement.answers.mapIdx fun resultIndex result =>
      .replacementBroadcast executionId bump resultIndex (classifyBroadcastResult result)

/-- The attempt a receipt of the replacement is linked to. -/
def Replacement.linkedAttempt (replacement : Replacement) (executionId : ExecutionId)
    (bump : Nat) : AttemptId :=
  let selected := selectBroadcastAttempt executionId replacement.answers
  match selected.filter fun _ => replacement.completed with
  | none => .replacementSigned executionId bump
  | some (resultIndex, _, result) =>
      .replacementBroadcast executionId bump resultIndex (classifyBroadcastResult result)

/-- One rung: sign the replacement and record the answers to it. -/
def Ladder.replace (ladder : Ladder) (executionId : ExecutionId) (bump : Nat)
    (replacement : Replacement) : Ladder :=
  let attemptIds := replacement.attemptIds executionId bump
  { task := { ladder.task with
      attemptIds := ladder.task.attemptIds ++ attemptIds
      attemptHashes := ladder.task.attemptHashes ++
        attemptIds.map fun attemptId => (attemptId, replacement.signedHash)
      attemptReplacements := ladder.task.attemptReplacements ++
        attemptIds.map fun attemptId => (attemptId, ladder.newest) }
    acceptedAttemptByHash :=
      (toLowerCase replacement.signedHash, replacement.linkedAttempt executionId bump) ::
        ladder.acceptedAttemptByHash
    watched := ladder.watched ++ [replacement.signedHash]
    newest := .replacementSigned executionId bump }

/-- The rungs of a ladder, bump by bump. -/
def Ladder.climb (executionId : ExecutionId) : Nat → List Replacement → Ladder → Ladder
  | _, [], ladder => ladder
  | bump, replacement :: rest, ladder =>
      Ladder.climb executionId (bump + 1) rest (ladder.replace executionId bump replacement)

/-- The watched hash that was mined is the submission; attempts of the other
hashes were replaced. -/
def Ladder.mined (ladder : Ladder) (receipt : MintReceipt) : WalletTask :=
  if 1 < ladder.watched.length then
    { ladder.task with
      submittedHash := some receipt.txHash
      submissionAttemptId :=
        (ladder.acceptedAttempt receipt.txHash).or ladder.task.submissionAttemptId
      replacedAttemptIds := (ladder.task.attemptHashes.filter fun entry =>
        toLowerCase entry.2 ≠ toLowerCase receipt.txHash).map Prod.fst }
  else ladder.task

/-! ## Courses of a task -/

/-- What came after a successful answer: the replacements, if the chain has any,
the receipt, if one was seen, and whether everything after it was recorded. -/
structure Watch where
  replacements : Option (List Replacement)
  receipt : Option MintReceipt
  recorded : Bool
  recovery : Option SubmissionDisposition

/-- How a task went. -/
inductive WalletCourse
  /-- Preflight found no simulation, capacity or funds for the wallet. -/
  | skippedInPreflight
  | killedBeforeStart
  | dropChanged
  | simulationUnavailable
  /-- A call failed before the identity was assigned. -/
  | failedBeforeIdentity (nonce : Option Nat)
  /-- The task itself was rejected: outside its error handler, or inside it. -/
  | rejected
  | failedBeforeReservation (nonce : Nat)
  | failedBeforeSigning (nonce : Nat)
  | failedBeforeBroadcast (nonce : Nat)
  | broadcastThrew (nonce : Nat) (signedHash : String) (recovery : Option SubmissionDisposition)
  /-- A kill or a storage error cut the recording of the answers short. -/
  | interrupted (nonce : Nat) (signedHash : String) (results : List BroadcastResult)
      (recorded : Nat) (recovery : Option SubmissionDisposition)
  | answered (nonce : Nat) (signedHash : String) (results : List BroadcastResult) (watch : Watch)

/-- How a task ends. -/
inductive WalletEnding
  | stopped (status : WalletStatus)
  | caught (recovery : Option SubmissionDisposition)
  | mined (receipt : MintReceipt)
  | lost

/-- The ladder of an accepted transaction, replacements included. -/
def Watch.ladder (watch : Watch) (executionId : ExecutionId) (task : WalletTask)
    (firstHash : String) : Ladder :=
  let start := Ladder.start task executionId firstHash
  match watch.replacements with
  | none => start
  | some replacements => (start.open firstHash).climb executionId 1 replacements

/-- The variables of a task that watches its transaction, at its end. -/
def Watch.task (watch : Watch) (executionId : ExecutionId) (task : WalletTask)
    (firstHash : String) : WalletTask :=
  let ladder := watch.ladder executionId task firstHash
  match watch.receipt with
  | none => ladder.task
  | some receipt => ladder.mined receipt

/-- The variables of a task at its end. -/
def WalletCourse.task (job : MintJob) (address : String) : WalletCourse → WalletTask
  | .skippedInPreflight | .killedBeforeStart | .dropChanged | .simulationUnavailable
  | .rejected => { address := address }
  | .failedBeforeIdentity nonce => { address := address, builtNonce := nonce }
  | .failedBeforeReservation nonce => .identified job address nonce
  | .failedBeforeSigning nonce => .reserved job address nonce
  | .failedBeforeBroadcast nonce => .signed job address nonce
  | .broadcastThrew nonce signedHash _ =>
      { WalletTask.signed job address nonce with submittedHash := some signedHash }
  | .interrupted nonce signedHash results recorded _ =>
      .answering job address nonce signedHash results recorded
  | .answered nonce signedHash results watch =>
      match selectBroadcastAttempt (job.executionId address) results with
      | none => .unaccepted job address nonce signedHash results
      | some (_, attemptId, result) =>
          watch.task (job.executionId address)
            (.accepted job address nonce signedHash results attemptId result) result.txHash

def WalletCourse.ending : WalletCourse → WalletEnding
  | .skippedInPreflight | .dropChanged | .simulationUnavailable => .stopped .skipped
  | .killedBeforeStart => .stopped .killed
  | .rejected => .lost
  | .failedBeforeIdentity _ | .failedBeforeReservation _ | .failedBeforeSigning _
  | .failedBeforeBroadcast _ => .caught none
  | .broadcastThrew _ _ recovery | .interrupted _ _ _ _ recovery => .caught recovery
  | .answered _ _ results watch =>
      match watch.receipt.filter fun _ => results.any BroadcastResult.success ∧ watch.recorded with
      | none => .caught watch.recovery
      | some receipt => .mined receipt

/-! ## Results -/

/-- What the error handler returns.  It reports a hash only when there is one. -/
def WalletTask.caught (task : WalletTask) (recovery : Option SubmissionDisposition) :
    WalletMintResult :=
  let submittedHash := task.submittedHash.filter fun hash => hash ≠ ""
  { address := task.address
    status := if submittedHash = none then .failed else .timeout
    txHash := submittedHash
    nonce := task.builtNonce
    executionId := task.executionId
    transactionIntentId := task.transactionIntentId
    reservationId := task.reservationId
    attemptIds := task.attemptIds
    submittedAttemptId := task.submissionAttemptId
    attemptHashes := task.attemptHashes
    attemptReplacements := task.attemptReplacements
    replacedAttemptIds := task.replacedAttemptIds
    lifecycleState := submittedHash.map fun _ =>
      match recovery with
      | some .reorged => .reorged
      | some .replaced => .replaced
      | some .dropped => .dropped
      | _ => .submitted }

/-- The cost of a mined transaction, fees and mint value together. -/
def MintReceipt.totalCostWei (receipt : MintReceipt) (valueWei : Nat) : Nat :=
  receipt.gasUsed * receipt.effectiveGasPrice + receipt.l1DataFeeWei.getD 0 +
    receipt.operatorFeeWei.getD 0 + if receipt.succeeded then valueWei else 0

/-- What a task returns for a mined transaction. -/
def WalletTask.mined (task : WalletTask) (job : MintJob) (receipt : MintReceipt) :
    WalletMintResult where
  address := task.address
  status :=
    if receipt.Authoritative job.chainId then
      if receipt.succeeded then .success else .failed
    else .timeout
  txHash := some receipt.txHash
  nonce := task.builtNonce
  blockNumber := some receipt.blockNumber
  blockHash := some receipt.blockHash
  finalityStage := some receipt.finalityStage
  gasUsed := some receipt.gasUsed
  effectiveGasPrice := some receipt.effectiveGasPrice
  l1DataFeeWei := some (receipt.l1DataFeeWei.getD 0)
  operatorFeeWei := some (receipt.operatorFeeWei.getD 0)
  totalCostWei := some (receipt.totalCostWei job.valueWei)
  executionId := task.executionId
  transactionIntentId := task.transactionIntentId
  reservationId := task.reservationId
  attemptIds := task.attemptIds
  submittedAttemptId := task.submissionAttemptId
  attemptHashes := task.attemptHashes
  attemptReplacements := task.attemptReplacements
  replacedAttemptIds := task.replacedAttemptIds
  lifecycleState := some (lifecycleStateForFinality job.chainId receipt)

/-- What the engine returns for a wallet.  A rejected task leaves no trace but
a failure of the address `0x`. -/
def WalletCourse.result (course : WalletCourse) (job : MintJob) (address : String) :
    WalletMintResult :=
  match course.ending with
  | .stopped status => { address := address, status := status }
  | .caught recovery => (course.task job address).caught recovery
  | .mined receipt => (course.task job address).mined job receipt
  | .lost => { address := "0x", status := .failed }

/-- The result of a live job, with one course for each wallet. -/
def executeFleet (job : MintJob) (fleet : List (String × WalletCourse)) : MintJobResult where
  dryRun := false
  walletResults := fleet.map fun wallet => wallet.2.result job wallet.1

end MintBot
