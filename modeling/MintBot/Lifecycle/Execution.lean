import MintBot.Store.Operation

/-!
# Facts about one execution

Every recorded attempt and every recorded receipt asks its execution for a
state.  When the rows behind an execution are in order, a write succeeds exactly
when the asked state follows the stored one, so that a sequence of writes is a
walk of `safeState` over the states that they ask for.
-/

namespace MintBot

open Fallible

/-- The stored state after `transitionExecutionSafe` asked for a target; `none`
when the transition guard refuses it. -/
def safeState (old target : LifecycleState) : Option LifecycleState :=
  if old = .aborted ∨ old = target then some old
  else if SafeMove old target then some target else none

/-- The stored state after a sequence of requests. -/
def safeStates (start : LifecycleState) (targets : List LifecycleState) :
    Option LifecycleState :=
  targets.foldlM safeState start

theorem safeStates_cons (start target : LifecycleState) (targets : List LifecycleState) :
    safeStates start (target :: targets) =
      (safeState start target).bind fun next => safeStates next targets := by
  rfl

/-- The rows behind an execution are in order: its identity can be read, its
chain is enabled and settles at `ethereum_final`, and its attempts are attempts
of its intent. -/
structure ExecutionReady (db : Db) (id : ExecutionId) (identity : ExecutionIdentity)
    (state : LifecycleState) : Prop where
  identified : executionIdentity db id = some identity
  state : ∃ row, db.execution id = some row ∧ row.state = state ∧
    row.transactionIntentId = identity.transactionIntentId
  chain : db.executionChain id = some identity.chainId
  intent : ∃ intent, db.intent identity.transactionIntentId = some intent ∧
    intent.walletId.chainProfileId = identity.chainId
  profile : ∃ profile, db.profile identity.chainId = some profile ∧
    profile.executionEnabled = true ∧ profile.successFinalityStage = .ethereumFinal
  attempts : ∀ row ∈ db.attempts, row.executionId = id →
    row.transactionIntentId = identity.transactionIntentId

namespace ExecutionReady

variable {db : Db} {id : ExecutionId} {identity : ExecutionIdentity} {state : LifecycleState}

/-- More attempts of the intent, receipts and accounting rows keep the rows in
order. -/
theorem write (ready : ExecutionReady db id identity state)
    {attempts : List TransactionAttemptRow}
    (ofIntent : ∀ row ∈ attempts, row.executionId = id →
      row.transactionIntentId = identity.transactionIntentId)
    (receipts : List TransactionReceiptRow) (accounting : List ReceiptAccountingRow) :
    ExecutionReady
      { db with attempts := attempts, receipts := receipts, receiptAccounting := accounting }
      id identity state where
  identified := ready.identified
  state := ready.state
  chain := ready.chain
  intent := ready.intent
  profile := ready.profile
  attempts := ofIntent

theorem executionIdentity_setExecutionState (db : Db) (id : ExecutionId)
    (target : LifecycleState) :
    executionIdentity (db.setExecutionState id target) id = executionIdentity db id := by
  unfold executionIdentity
  rw [execution_setExecutionState_self]
  cases db.execution id <;> rfl

/-- Moving the execution keeps the rows in order. -/
theorem move (ready : ExecutionReady db id identity state) (target : LifecycleState) :
    ExecutionReady (db.setExecutionState id target) id identity target where
  identified := (executionIdentity_setExecutionState db id target).trans ready.identified
  state := by
    obtain ⟨row, found, -, sameIntent⟩ := ready.state
    refine ⟨{ row with state := target }, ?_, rfl, sameIntent⟩
    rw [execution_setExecutionState_self, found, Option.map_some]
  chain := by
    obtain ⟨row, found, -⟩ := ready.state
    have chain := ready.chain
    unfold Db.executionChain at chain ⊢
    rw [execution_setExecutionState_self, found, Option.map_some]
    rwa [found] at chain
  intent := ready.intent
  profile := ready.profile
  attempts := ready.attempts

/-- A request for a target that `safeState` allows succeeds, and only the state
of the execution changes. -/
theorem transition (ready : ExecutionReady db id identity state) {target next : LifecycleState}
    (allowed : safeState state target = some next) :
    ∃ db', transitionExecutionSafe db id target = .ok db' ∧
      ExecutionReady db' id identity next ∧ db'.attempts = db.attempts ∧
      db'.receipts = db.receipts := by
  obtain ⟨row, found, rfl, -⟩ := ready.state
  unfold safeState at allowed
  split at allowed
  · rename_i stays
    obtain rfl := Option.some.inj allowed
    exact ⟨db, transitionExecutionSafe_eq_ok.mpr (Or.inr ⟨row, found, Or.inl ⟨stays, rfl⟩⟩),
      ready, rfl, rfl⟩
  · rename_i leaves
    rw [not_or] at leaves
    split at allowed
    · rename_i moves
      obtain rfl := Option.some.inj allowed
      exact ⟨_, transitionExecutionSafe_eq_ok.mpr
        (Or.inr ⟨row, found, Or.inr ⟨leaves.1, leaves.2, moves, rfl⟩⟩), ready.move target, rfl, rfl⟩
    · cases allowed

/-- A request that succeeds was allowed by `safeState`. -/
theorem allowed_of_transition (ready : ExecutionReady db id identity state)
    {target : LifecycleState} {db' : Db}
    (success : transitionExecutionSafe db id target = .ok db') :
    ∃ next, safeState state target = some next := by
  obtain ⟨row, found, rfl, -⟩ := ready.state
  unfold safeState
  rcases transitionExecutionSafe_eq_ok.mp success with
    ⟨missing, -⟩ | ⟨other, otherFound, ⟨stays, -⟩ | ⟨-, -, moves, -⟩⟩
  · simp [found] at missing
  · obtain rfl := Option.some.inj (found.symm.trans otherFound)
    exact ⟨row.state, if_pos stays⟩
  · obtain rfl := Option.some.inj (found.symm.trans otherFound)
    by_cases stays : row.state = .aborted ∨ row.state = target
    · exact ⟨row.state, if_pos stays⟩
    · exact ⟨target, by rw [if_neg stays, if_pos moves]⟩

end ExecutionReady

/-! ## Recording an attempt -/

/-- A new attempt of the engine for the intent of an execution. -/
structure NewAttempt (db : Db) (id : ExecutionId) (identity : ExecutionIdentity)
    (input : EngineAttempt) : Prop where
  execution : input.executionId = id
  intent : input.transactionIntentId = identity.transactionIntentId
  nonce : 0 ≤ input.nonce
  first : input.replacementOfId = none
  fresh : ∀ row ∈ db.attempts, row.id ≠ input.id

/-- The row of a new attempt. -/
def EngineAttempt.row (input : EngineAttempt) (identity : ExecutionIdentity) :
    TransactionAttemptRow :=
  (input.record identity).row identity.transactionIntentId

/-- A new attempt is appended and asks its execution for the state of its
response class. -/
theorem persistEngineAttempt_of_new (fleetPolicy : Option FleetSpendPolicy) {db db' : Db}
    (now : Time) {id : ExecutionId} {identity : ExecutionIdentity} {state : LifecycleState}
    {input : EngineAttempt} (ready : ExecutionReady db id identity state)
    (new : NewAttempt db id identity input) :
    persistEngineAttempt fleetPolicy db now input = .ok db' ↔
      transitionExecutionSafe { db with attempts := db.attempts ++ [input.row identity] }
        id (attemptTarget input.responseClass.state) = .ok db' := by
  obtain ⟨rfl, sameIntent, nonce, first, fresh⟩ := new
  obtain ⟨execution, found, -, intentOfExecution⟩ := ready.state
  obtain ⟨intent, intentFound, -⟩ := ready.intent
  have freshRead : ∀ attempt ∈ db.readAttempts, attempt.id ≠ input.id := by
    intro attempt member same
    obtain ⟨row, rowMember, read⟩ := mem_readAttempts member
    exact fresh row rowMember (read.id.symm.trans same)
  have unstored : db.readAttempts.find? (fun attempt => decide (attempt.id = input.id)) = none := by
    simpa using freshRead
  have accepted : db.AttemptAccepted (input.row identity) := by
    refine ⟨⟨intent, intentFound⟩, ?_, ⟨execution, found, intentOfExecution⟩, ?_, fresh⟩
    · simp [EngineAttempt.row, AttemptRecord.row, EngineAttempt.record, first]
    · simpa [EngineAttempt.row, AttemptRecord.row, EngineAttempt.record] using nonce
  have named : intentRowIdFromExecution db input.executionId identity.wallet identity.runId =
      some identity.transactionIntentId := by
    simp only [intentRowIdFromExecution, found, intentOfExecution]
  have notReplacement : ¬ (input.record identity).replacementOfId ≠ none := by
    simpa [EngineAttempt.record] using first
  rw [persistEngineAttempt_eq_ok]
  constructor
  · rintro ⟨_, identified, -, ⟨existing, stored, -⟩ | ⟨-, persisted⟩⟩
    · simp [unstored] at stored
    · obtain rfl := Option.some.inj (ready.identified.symm.trans identified)
      obtain ⟨intentId, namedIntent, -, moved⟩ := persistAttempt_eq_ok.mp persisted
      obtain rfl := Option.some.inj (named.symm.trans namedIntent)
      rwa [if_neg notReplacement] at moved
  · intro moved
    refine ⟨identity, ready.identified, sameIntent.symm, Or.inr ⟨freshRead, ?_⟩⟩
    refine persistAttempt_eq_ok.mpr ⟨identity.transactionIntentId, named, accepted, ?_⟩
    rwa [if_neg notReplacement]

/-! ## Recording a receipt -/

/-- A new receipt with the facts that the store asks for: it names a sent
attempt of the execution, and when it is stored as confirmed it is final. -/
structure NewReceipt (db : Db) (id : ExecutionId) (identity : ExecutionIdentity)
    (receipt : ReceiptRecord) : Prop where
  execution : receipt.executionId = id
  attempt : ∃ attempt hash, receipt.transactionAttemptId = some attempt.id ∧
    db.attempt attempt.id = some attempt ∧ attempt.executionId = id ∧
    attempt.txHash = some hash ∧ hash ≠ ""
  block : ∃ blockNumber blockHash, receipt.blockNumber = some blockNumber ∧
    receipt.blockHash = some blockHash ∧ blockHash ≠ ""
  amounts : ∀ amount ∈ [receipt.gasUsed, receipt.effectiveGasPrice, receipt.l1DataFeeWei,
    receipt.operatorFeeWei], ∀ wei ∈ amount, 0 ≤ wei
  spend : receipt.actualSpendWei ≠ none
  final : receipt.persistedStatus identity.chainId = .confirmed →
    receipt.storedStage identity.chainId = .ethereumFinal
  fresh : ∀ row ∈ db.receipts, row.id ≠ receipt.id

/-- The status and the finality that a receipt is stored with always agree. -/
theorem persisted_finality_consistent (receipt : ReceiptRecord) (chainId : ChainId) :
    ¬ ReceiptFinalityInconsistent (receipt.persistedStatus chainId)
      (receipt.storedStage chainId) := by
  unfold ReceiptRecord.persistedStatus
  by_cases reorged : receipt.state = .reorged
  · rw [if_pos reorged]
    have stage : receipt.storedStage chainId = .unknown := by
      simp [ReceiptRecord.storedStage, canonicalReceiptFinalityStage, reorged]
    rw [stage]
    decide
  · rw [if_neg reorged]
    by_cases failed : receipt.state = .failed
    · rw [if_pos failed]
      have stage : receipt.storedStage chainId = .ethereumFinal ∨
          receipt.storedStage chainId = .unknown := by
        simp only [ReceiptRecord.storedStage, canonicalReceiptFinalityStage, failed]
        split <;> simp
      rcases stage with stage | stage <;> rw [stage] <;> decide
    · rw [if_neg failed]
      split <;> cases receipt.storedStage chainId <;> decide

/-- The row of a new receipt, and what storing it asks for. -/
theorem persistReceipt_of_new {db : Db} {id : ExecutionId} {identity : ExecutionIdentity}
    {state : LifecycleState} {receipt : ReceiptRecord}
    (ready : ExecutionReady db id identity state) (new : NewReceipt db id identity receipt) :
    ∃ row : TransactionReceiptRow, row.id = receipt.id ∧ ∀ db',
      persistReceipt db receipt = .ok db' ↔
        transitionExecutionSafe { db with receipts := db.receipts ++ [row] } id
          (receipt.target identity.chainId) = .ok db' := by
  obtain ⟨attempt, hash, named, found, ofExecution, sent, hashPresent⟩ := new.attempt
  obtain ⟨blockNumber, blockHash, numbered, hashed, blockHashPresent⟩ := new.block
  have sameExecution := new.execution
  have chain : db.executionChain receipt.executionId = some identity.chainId := by
    rw [sameExecution]
    exact ready.chain
  have linked : db.linkedAttempt receipt = some attempt := by
    unfold Db.linkedAttempt
    rw [named]
    simp only [found, Option.filter_some, ofExecution, sameExecution, decide_true, if_true]
  have enabled : db.EnabledFinality attempt .ethereumFinal := by
    obtain ⟨intent, intentFound, onChain⟩ := ready.intent
    obtain ⟨profile, profileFound, isEnabled, finality⟩ := ready.profile
    have sameIntent := ready.attempts attempt (Table.lookup_eq_some found).1 ofExecution
    refine ⟨profile, ?_, isEnabled, finality.symm⟩
    simp only [Db.attemptProfile, sameIntent, intentFound, Option.bind_eq_bind, Option.bind_some,
      onChain, profileFound, Option.mem_def]
  have accepted : db.ReceiptAccepted
      (receipt.row identity.chainId attempt.id hash blockNumber blockHash) := by
    refine ⟨new.amounts, ⟨attempt, found, by rw [sent]; rfl, ?_, ?_⟩,
      persisted_finality_consistent receipt identity.chainId, new.fresh⟩
    · exact ofExecution.trans sameExecution.symm
    · intro confirmed
      have stage := new.final confirmed
      show db.EnabledFinality attempt (receipt.storedStage identity.chainId)
      rw [stage]
      exact enabled
  refine ⟨receipt.row identity.chainId attempt.id hash blockNumber blockHash, rfl, fun db' => ?_⟩
  rw [persistReceipt_eq_ok]
  constructor
  · rintro ⟨chainId, row, ⟨chainFound, ⟨other, otherHash, otherNumber, otherBlock, otherLinked,
      otherSent, -, otherNumbered, otherHashed, -, rfl⟩, -, -⟩, moved⟩
    obtain rfl := Option.some.inj (chain.symm.trans chainFound)
    obtain rfl := Option.some.inj (linked.symm.trans otherLinked)
    obtain rfl := Option.some.inj (sent.symm.trans otherSent)
    obtain rfl := Option.some.inj (numbered.symm.trans otherNumbered)
    obtain rfl := Option.some.inj (hashed.symm.trans otherHashed)
    rwa [sameExecution] at moved
  · intro moved
    refine ⟨identity.chainId, _, ⟨chain, ⟨attempt, hash, blockNumber, blockHash, linked, sent,
      hashPresent, numbered, hashed, blockHashPresent, rfl⟩, new.spend, accepted⟩, ?_⟩
    rwa [sameExecution]

/-- Storing a new receipt succeeds exactly when its target is allowed; the
receipt is appended and the execution is left at the target. -/
theorem persistReceipt_step {db : Db} {id : ExecutionId} {identity : ExecutionIdentity}
    {state : LifecycleState} {receipt : ReceiptRecord}
    (ready : ExecutionReady db id identity state) (new : NewReceipt db id identity receipt) :
    (∀ db', persistReceipt db receipt = .ok db' →
      ∃ next, safeState state (receipt.target identity.chainId) = some next ∧
        ExecutionReady db' id identity next ∧ db'.attempts = db.attempts ∧
        ∃ row : TransactionReceiptRow, row.id = receipt.id ∧
          db'.receipts = db.receipts ++ [row]) ∧
    (∀ next, safeState state (receipt.target identity.chainId) = some next →
      ∃ db', persistReceipt db receipt = .ok db') := by
  obtain ⟨row, rowId, stored⟩ := persistReceipt_of_new ready new
  have appended := ready.write ready.attempts (db.receipts ++ [row]) db.receiptAccounting
  constructor
  · intro db' success
    have transitioned := (stored db').mp success
    obtain ⟨next, allowed⟩ := appended.allowed_of_transition transitioned
    obtain ⟨other, otherTransitioned, readyAfter, sameAttempts, sameReceipts⟩ :=
      appended.transition allowed
    obtain rfl := Except.ok.inj (transitioned.symm.trans otherTransitioned)
    exact ⟨next, allowed, readyAfter, sameAttempts, row, rowId, sameReceipts⟩
  · intro next allowed
    obtain ⟨db', transitioned, -⟩ := appended.transition allowed
    exact ⟨db', (stored db').mpr transitioned⟩

/-- An engine receipt whose record is new and whose hash is that of its
attempt. -/
structure NewEngineReceipt (db : Db) (id : ExecutionId) (identity : ExecutionIdentity)
    (input : EngineReceipt) : Prop where
  record : NewReceipt db id identity (input.record identity)
  valid : input.status.valid = true
  hash : ∀ attempt ∈ db.attempt input.transactionAttemptId, ∀ hash ∈ attempt.txHash,
    toLowerCase hash = toLowerCase input.txHash

theorem NewReceipt.freshRead {db : Db} {id : ExecutionId} {identity : ExecutionIdentity}
    {receipt : ReceiptRecord} (new : NewReceipt db id identity receipt) :
    ∀ old ∈ db.readReceipts, old.id ≠ receipt.id := by
  intro old member same
  obtain ⟨row, rowMember, read⟩ := mem_readReceipts member
  exact new.fresh row rowMember (read.id.symm.trans same)

/-- A new engine receipt is persisted next to the accounting of what it
spent. -/
theorem persistEngineReceipt_of_new (fleetPolicy : Option FleetSpendPolicy) {db db' : Db}
    (now : Time) {id : ExecutionId} {identity : ExecutionIdentity} {state : LifecycleState}
    {input : EngineReceipt} (ready : ExecutionReady db id identity state)
    (new : NewEngineReceipt db id identity input) :
    persistEngineReceipt fleetPolicy db now input = .ok db' ↔
      persistReceipt
        { db with
          receiptAccounting := db.receiptAccounting ++
            [{ receiptId := input.id, actualSpendWei := input.actualSpendWei identity }] }
        (input.record identity) = .ok db' := by
  obtain ⟨attempt, hash, named, found, ofExecution, sent, hashPresent⟩ := new.record.attempt
  obtain ⟨blockNumber, blockHash, numbered, hashed, blockHashPresent⟩ := new.record.block
  have sameExecution : input.executionId = id := new.record.execution
  have attemptFound : db.attempt input.transactionAttemptId = some attempt := by
    have namedInput : some input.transactionAttemptId = some attempt.id := named
    rw [Option.some.inj namedInput]
    exact found
  have facts : ¬ (input.blockNumber = none ∨ input.blockHash.filter (· ≠ "") = none) := by
    have numberedInput : input.blockNumber = some blockNumber := numbered
    have hashedInput : input.blockHash = some blockHash := hashed
    simp [numberedInput, hashedInput, blockHashPresent]
  have identified : executionIdentity db input.executionId = some identity := by
    rw [sameExecution]
    exact ready.identified
  have attemptHash : ((db.attempt input.transactionAttemptId).filter fun row =>
      row.executionId = input.executionId).bind (fun row => row.txHash.filter (· ≠ "")) =
        some hash := by
    simp [attemptFound, Option.filter_some, ofExecution, sameExecution, sent, hashPresent]
  have sameHash : toLowerCase hash = toLowerCase input.txHash :=
    new.hash attempt attemptFound hash sent
  have unstored : ¬ ∃ receipt ∈ (snapshot db).receipts, receipt.id = input.id := by
    rintro ⟨receipt, member, same⟩
    exact new.record.freshRead receipt member same
  have delta : ∀ audited, persistDelta fleetPolicy now audited (snapshot db)
      { snapshot db with receipts := (snapshot db).receipts ++ [input.record identity] } =
        persistReceipt audited (input.record identity) :=
    fun audited => persistDelta_receipt fleetPolicy now audited new.record.freshRead
  simp only [persistEngineReceipt, bind_eq_ok, require_eq_ok, identified, if_neg facts,
    refuse_eq_ok, attemptHash, if_neg unstored, Option.some.injEq]
  constructor
  · rintro ⟨_, rfl, ⟨⟩, -, _, rfl, ⟨⟩, -, persisted⟩
    rwa [delta] at persisted
  · intro persisted
    refine ⟨identity, rfl, ⟨⟩, by simp [new.valid], hash, rfl, ⟨⟩, by simp [sameHash], ?_⟩
    rwa [delta]

/-- Accounting rows do not matter to a new receipt. -/
theorem NewReceipt.account {db : Db} {id : ExecutionId} {identity : ExecutionIdentity}
    {receipt : ReceiptRecord} (new : NewReceipt db id identity receipt)
    (accounting : List ReceiptAccountingRow) :
    NewReceipt { db with receiptAccounting := accounting } id identity receipt :=
  ⟨new.execution, new.attempt, new.block, new.amounts, new.spend, new.final, new.fresh⟩

/-- Recording a new engine receipt succeeds exactly when its target is
allowed. -/
theorem persistEngineReceipt_step (fleetPolicy : Option FleetSpendPolicy) {db : Db} (now : Time)
    {id : ExecutionId} {identity : ExecutionIdentity} {state : LifecycleState}
    {input : EngineReceipt} (ready : ExecutionReady db id identity state)
    (new : NewEngineReceipt db id identity input) :
    (∀ db', persistEngineReceipt fleetPolicy db now input = .ok db' →
      ∃ next, safeState state ((input.record identity).target identity.chainId) = some next ∧
        ExecutionReady db' id identity next ∧ db'.attempts = db.attempts ∧
        ∃ row : TransactionReceiptRow, row.id = input.id ∧
          db'.receipts = db.receipts ++ [row]) ∧
    (∀ next, safeState state ((input.record identity).target identity.chainId) = some next →
      ∃ db', persistEngineReceipt fleetPolicy db now input = .ok db') := by
  have audited := ready.write ready.attempts db.receipts (db.receiptAccounting ++
    [{ receiptId := input.id, actualSpendWei := input.actualSpendWei identity }])
  obtain ⟨stored, storing⟩ := persistReceipt_step audited (new.record.account _)
  constructor
  · intro db' success
    exact stored db' ((persistEngineReceipt_of_new fleetPolicy now ready new).mp success)
  · intro next allowed
    obtain ⟨db', persisted⟩ := storing next allowed
    exact ⟨db', (persistEngineReceipt_of_new fleetPolicy now ready new).mpr persisted⟩

end MintBot
