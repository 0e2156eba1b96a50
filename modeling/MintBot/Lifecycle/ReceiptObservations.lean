import MintBot.Lifecycle.Execution

/-!
# Sequences of receipt observations

A receipt is recorded by the engine or pushed by a transaction of the
coordinator.  Either way it asks its execution for the state of what was
observed, and a refused state loses the receipt.  A sequence of observations is
kept exactly when each one follows its predecessor in the transition guard.
-/

namespace MintBot

open Fallible

/-- The two ways of recording an observed receipt. -/
inductive ReceiptWrite
  | engine (now : Time) (input : EngineReceipt)
  | pushed (now : Time) (receipt : ReceiptRecord)

/-- A coordinator transaction pushes a receipt unless its id is known. -/
def pushReceipt (receipt : ReceiptRecord) (current : BackendState) : BackendState :=
  if ∃ old ∈ current.receipts, old.id = receipt.id then current
  else { current with receipts := current.receipts ++ [receipt] }

namespace ReceiptWrite

/-- Record an observation. -/
def step (fleetPolicy : Option FleetSpendPolicy) (db : Db) : ReceiptWrite → Except Error Db
  | .engine now input => persistEngineReceipt fleetPolicy db now input
  | .pushed now receipt =>
      transaction fleetPolicy now db fun current => .ok (pushReceipt receipt current)

/-- The receipt record of an observation. -/
def record (identity : ExecutionIdentity) : ReceiptWrite → ReceiptRecord
  | .engine _ input => input.record identity
  | .pushed _ receipt => receipt

def id : ReceiptWrite → ReceiptId
  | .engine _ input => input.id
  | .pushed _ receipt => receipt.id

/-- The execution state that an observation asks for: `submitted` for a staged
one, else `confirmed`, `reorged` or `failed`. -/
def target (identity : ExecutionIdentity) (write : ReceiptWrite) : LifecycleState :=
  (write.record identity).target identity.chainId

/-- The observation carries the facts that recording asks for. -/
def New (db : Db) (executionId : ExecutionId) (identity : ExecutionIdentity) :
    ReceiptWrite → Prop
  | .engine _ input => NewEngineReceipt db executionId identity input
  | .pushed _ receipt => NewReceipt db executionId identity receipt

theorem record_id (identity : ExecutionIdentity) (write : ReceiptWrite) :
    (write.record identity).id = write.id := by
  cases write <;> rfl

variable {db : Db} {executionId : ExecutionId} {identity : ExecutionIdentity}
  {state : LifecycleState} {write : ReceiptWrite}

/-- A pushed receipt with a new id is persisted. -/
theorem step_pushed (fleetPolicy : Option FleetSpendPolicy) (now : Time)
    {receipt : ReceiptRecord} (new : NewReceipt db executionId identity receipt) :
    step fleetPolicy db (.pushed now receipt) = persistReceipt db receipt := by
  have unknown : ¬ ∃ old ∈ (snapshot db).receipts, old.id = receipt.id := by
    rintro ⟨old, member, same⟩
    exact new.freshRead old member same
  have delta : persistDelta fleetPolicy now db (snapshot db)
      { snapshot db with receipts := (snapshot db).receipts ++ [receipt] } =
        persistReceipt db receipt :=
    persistDelta_receipt fleetPolicy now db new.freshRead
  have pushed : pushReceipt receipt (snapshot db) =
      { snapshot db with receipts := (snapshot db).receipts ++ [receipt] } :=
    if_neg unknown
  show persistDelta fleetPolicy now db (snapshot db) (pushReceipt receipt (snapshot db)) = _
  rw [pushed]
  exact delta

/-- Recording an observation succeeds exactly when its target is allowed; the
receipt is appended and the execution is left at the target. -/
theorem step_spec (fleetPolicy : Option FleetSpendPolicy)
    (ready : ExecutionReady db executionId identity state)
    (new : write.New db executionId identity) :
    (∀ db', step fleetPolicy db write = .ok db' →
      ∃ next, safeState state (write.target identity) = some next ∧
        ExecutionReady db' executionId identity next ∧ db'.attempts = db.attempts ∧
        ∃ row : TransactionReceiptRow, row.id = write.id ∧
          db'.receipts = db.receipts ++ [row]) ∧
    (∀ next, safeState state (write.target identity) = some next →
      ∃ db', step fleetPolicy db write = .ok db') := by
  cases write with
  | engine now input => exact persistEngineReceipt_step fleetPolicy now ready new
  | pushed now receipt =>
      rw [step_pushed fleetPolicy now new]
      exact persistReceipt_step ready new

/-- An observation stays new while other receipts are appended. -/
theorem New.append {db' : Db} (new : write.New db executionId identity)
    (sameAttempts : db'.attempts = db.attempts) {row : TransactionReceiptRow}
    (appended : db'.receipts = db.receipts ++ [row]) (differ : row.id ≠ write.id) :
    write.New db' executionId identity := by
  have sameAttempt : ∀ id, db'.attempt id = db.attempt id := by
    intro id
    rw [Db.attempt, sameAttempts]
    rfl
  have receiptNew : ∀ receipt : ReceiptRecord, row.id ≠ receipt.id →
      NewReceipt db executionId identity receipt → NewReceipt db' executionId identity receipt := by
    intro receipt otherId new
    refine ⟨new.execution, ?_, new.block, new.amounts, new.spend, new.final, ?_⟩
    · simpa only [sameAttempt] using new.attempt
    · intro old member
      rw [appended] at member
      rcases List.mem_append.mp member with stored | added
      · exact new.fresh old stored
      · rw [List.mem_singleton.mp added]
        exact otherId
  cases write with
  | engine now input =>
      refine ⟨receiptNew _ differ new.record, new.valid, ?_⟩
      simpa only [sameAttempt] using new.hash
  | pushed now receipt => exact receiptNew receipt differ new

end ReceiptWrite

/-! ## Sequences -/

/-- The observations carry their facts, under ids of their own. -/
structure ObservationsNew (db : Db) (executionId : ExecutionId) (identity : ExecutionIdentity)
    (writes : List ReceiptWrite) : Prop where
  each : ∀ write ∈ writes, write.New db executionId identity
  distinct : (writes.map ReceiptWrite.id).Nodup

/-- Every observation is stored, and the execution is in the state of the last
one. -/
def ObservationsKept (fleetPolicy : Option FleetSpendPolicy) (db : Db)
    (executionId : ExecutionId) (identity : ExecutionIdentity) (writes : List ReceiptWrite) : Prop :=
  ∃ db', writes.foldlM (ReceiptWrite.step fleetPolicy) db = .ok db' ∧
    (∀ write ∈ writes, ∃ row ∈ db'.receipts, row.id = write.id) ∧
    ∀ last ∈ writes.getLast?, ∃ row ∈ db'.execution executionId, row.state = last.target identity

/-- An observed state may follow a stored one: it is the same or the guard lets
it through, and nothing follows `aborted`. -/
def Follows (old target : LifecycleState) : Prop :=
  old ≠ .aborted ∧ (target = old ∨ SafeMove old target)

instance (old target : LifecycleState) : Decidable (Follows old target) := by
  unfold Follows
  infer_instance

/-- Every observed state follows its predecessor. -/
def ObservationsFollow : LifecycleState → List LifecycleState → Prop
  | _, [] => True
  | old, target :: rest => Follows old target ∧ ObservationsFollow target rest

/-! ## Walks -/

theorem safeState_of_follows {old target : LifecycleState} (follows : Follows old target) :
    safeState old target = some target := by
  rcases follows with ⟨alive, rfl | moves⟩
  · exact if_pos (Or.inr rfl)
  · unfold safeState
    by_cases same : old = target
    · rw [if_pos (Or.inr same), same]
    · rw [if_neg (not_or.mpr ⟨alive, same⟩), if_pos moves]

theorem safeState_eq_none {old target : LifecycleState} (alive : old ≠ .aborted)
    (refused : ¬ Follows old target) : safeState old target = none := by
  have differ : old ≠ target := fun same => refused ⟨alive, Or.inl same.symm⟩
  have stuck : ¬ SafeMove old target := fun moves => refused ⟨alive, Or.inr moves⟩
  unfold safeState
  rw [if_neg (not_or.mpr ⟨alive, differ⟩), if_neg stuck]

/-- An aborted execution takes every request and stays aborted. -/
theorem safeStates_aborted (targets : List LifecycleState) :
    safeStates .aborted targets = some .aborted := by
  induction targets with
  | nil => rfl
  | cons target rest inductionHypothesis =>
      rw [safeStates_cons, safeState, if_pos (Or.inl rfl)]
      exact inductionHypothesis

/-- A walk ends in the last state asked for exactly when every state follows its
predecessor. -/
theorem safeStates_last_iff {start : LifecycleState} {targets : List LifecycleState}
    (alive : .aborted ∉ targets) :
    (∃ final, safeStates start targets = some final ∧ final = targets.getLast?.getD start) ↔
      ObservationsFollow start targets := by
  induction targets generalizing start with
  | nil => exact ⟨fun _ => trivial, fun _ => ⟨start, rfl, rfl⟩⟩
  | cons target rest inductionHypothesis =>
      rw [List.mem_cons, not_or] at alive
      rw [safeStates_cons, List.getLast?_cons, Option.getD_some]
      by_cases follows : Follows start target
      · rw [safeState_of_follows follows, Option.bind_some, inductionHypothesis alive.2]
        exact ⟨fun rest => ⟨follows, rest⟩, fun both => both.2⟩
      · constructor
        · rintro ⟨final, walk, last⟩
          by_cases aborted : start = .aborted
          · -- The execution is still aborted, and no observation is.
            subst aborted
            rw [safeState, if_pos (Or.inl rfl), Option.bind_some, safeStates_aborted] at walk
            obtain rfl := Option.some.inj walk
            cases lastOfRest : rest.getLast? with
            | none =>
                rw [lastOfRest] at last
                exact absurd last alive.1
            | some other =>
                rw [lastOfRest] at last
                have member := List.mem_of_getLast? lastOfRest
                exact absurd (last ▸ member : LifecycleState.aborted ∈ rest) alive.2
          · rw [safeState_eq_none aborted follows] at walk
            cases walk
        · exact fun both => absurd both.1 follows

theorem receiptTarget_ne_aborted (receipt : ReceiptRecord) (chainId : ChainId) :
    receipt.target chainId ≠ .aborted := by
  unfold ReceiptRecord.target
  split
  · decide
  · split
    · decide
    · split <;> decide

/-! ## Keeping every observation -/

section Kept

variable (fleetPolicy : Option FleetSpendPolicy) {db : Db} {executionId : ExecutionId}
  {identity : ExecutionIdentity} {state : LifecycleState}

/-- Recording a sequence succeeds exactly when the walk over its targets does; it
stores every receipt and leaves the execution at the end of the walk. -/
theorem observations_walk {writes : List ReceiptWrite}
    (ready : ExecutionReady db executionId identity state)
    (new : ObservationsNew db executionId identity writes) :
    (∀ db', writes.foldlM (ReceiptWrite.step fleetPolicy) db = .ok db' →
      ∃ final, safeStates state (writes.map (ReceiptWrite.target identity)) = some final ∧
        ExecutionReady db' executionId identity final ∧
        (∀ row ∈ db.receipts, row ∈ db'.receipts) ∧
        ∀ write ∈ writes, ∃ row ∈ db'.receipts, row.id = write.id) ∧
    (∀ final, safeStates state (writes.map (ReceiptWrite.target identity)) = some final →
      ∃ db', writes.foldlM (ReceiptWrite.step fleetPolicy) db = .ok db') := by
  induction writes generalizing db state with
  | nil =>
      constructor
      · intro db' success
        obtain rfl := pure_eq_ok.mp success
        exact ⟨state, rfl, ready, fun _ member => member, by simp⟩
      · exact fun final _ => ⟨db, rfl⟩
  | cons write rest inductionHypothesis =>
      obtain ⟨stored, storing⟩ :=
        ReceiptWrite.step_spec fleetPolicy ready (new.each write (by simp))
      have distinct := new.distinct
      rw [List.map_cons, List.nodup_cons] at distinct
      have newAfter : ∀ middle : Db, middle.attempts = db.attempts →
          ∀ row : TransactionReceiptRow, row.id = write.id →
            middle.receipts = db.receipts ++ [row] →
              ObservationsNew middle executionId identity rest := by
        intro middle sameAttempts row rowId appended
        refine ⟨fun other member => ?_, distinct.2⟩
        refine (new.each other (by simp [member])).append sameAttempts appended ?_
        rw [rowId]
        exact fun same => distinct.1 (same ▸ List.mem_map_of_mem member)
      simp only [List.foldlM_cons, List.map_cons, safeStates_cons, bind_eq_ok,
        Option.bind_eq_some_iff]
      constructor
      · rintro db' ⟨middle, first, remaining⟩
        obtain ⟨next, allowed, readyMiddle, sameAttempts, row, rowId, appended⟩ :=
          stored middle first
        obtain ⟨final, walk, readyAfter, grown, allStored⟩ :=
          (inductionHypothesis readyMiddle (newAfter middle sameAttempts row rowId appended)).1
            db' remaining
        have rowStored : row ∈ db'.receipts := grown row (by simp [appended])
        refine ⟨final, ⟨next, allowed, walk⟩, readyAfter, ?_, ?_⟩
        · exact fun old member => grown old (by simp [appended, member])
        · intro other member
          rcases List.mem_cons.mp member with rfl | member
          · exact ⟨row, rowStored, rowId⟩
          · exact allStored other member
      · rintro final ⟨next, allowed, walk⟩
        obtain ⟨middle, first⟩ := storing next allowed
        obtain ⟨other, otherAllowed, readyMiddle, sameAttempts, row, rowId, appended⟩ :=
          stored middle first
        obtain rfl := Option.some.inj (allowed.symm.trans otherAllowed)
        obtain ⟨db', remaining⟩ :=
          (inductionHypothesis readyMiddle (newAfter middle sameAttempts row rowId appended)).2
            final walk
        exact ⟨db', middle, first, remaining⟩

/-- A sequence of observations is kept exactly when each observed state follows
its predecessor, the first one following the stored state of the execution. -/
theorem observations_kept_iff {writes : List ReceiptWrite}
    (ready : ExecutionReady db executionId identity state)
    (new : ObservationsNew db executionId identity writes) :
    ObservationsKept fleetPolicy db executionId identity writes ↔
      ObservationsFollow state (writes.map (ReceiptWrite.target identity)) := by
  obtain ⟨stored, storing⟩ := observations_walk fleetPolicy ready new
  have alive : .aborted ∉ writes.map (ReceiptWrite.target identity) := by
    intro member
    obtain ⟨write, -, target⟩ := List.mem_map.mp member
    exact receiptTarget_ne_aborted (write.record identity) identity.chainId target
  rw [← safeStates_last_iff alive]
  constructor
  · rintro ⟨db', success, -, last⟩
    obtain ⟨final, walk, readyAfter, -⟩ := stored db' success
    refine ⟨final, walk, ?_⟩
    obtain ⟨row, found, rowState, -⟩ := readyAfter.state
    rw [List.getLast?_map]
    cases lastWrite : writes.getLast? with
    | none =>
        rw [List.getLast?_eq_none_iff] at lastWrite
        subst lastWrite
        exact (Option.some.inj walk).symm
    | some write =>
        obtain ⟨other, otherFound, otherState⟩ := last write lastWrite
        obtain rfl := Option.some.inj (found.symm.trans otherFound)
        exact rowState.symm.trans otherState
  · rintro ⟨final, walk, ended⟩
    obtain ⟨db', success⟩ := storing final walk
    obtain ⟨other, otherWalk, readyAfter, -, allStored⟩ := stored db' success
    obtain rfl := Option.some.inj (walk.symm.trans otherWalk)
    refine ⟨db', success, allStored, fun last lastWrite => ?_⟩
    obtain ⟨row, found, rowState, -⟩ := readyAfter.state
    refine ⟨row, found, rowState.trans (ended.trans ?_)⟩
    rw [List.getLast?_map, Option.mem_def.mp lastWrite]
    rfl

end Kept

-- What may be observed after a submitted, a confirmed, a reorged and a failed execution.
example :
    ([.submitted, .confirmed, .reorged, .failed] : List LifecycleState).map
      (fun old => [.submitted, .confirmed, .reorged, .failed].filter
        fun target => decide (Follows old target)) =
    [[.submitted, .confirmed, .reorged, .failed], [.confirmed, .reorged],
      [.submitted, .reorged, .failed], [.failed]] := by
  decide

/-- The store after the transaction of the wallet `w` was accepted. -/
def submittedStore : Db :=
  Sample.after [.attempt 0 (Sample.attempt "first" "w")] (Sample.admitted .ethereum "first" "w")

theorem submittedStore_ready :
    ExecutionReady submittedStore ⟨"first", "w"⟩ (Sample.identity .ethereum "first" "w")
      .submitted where
  identified := by decide +kernel
  state := (by decide +kernel : ∃ row ∈ submittedStore.execution ⟨"first", "w"⟩,
    row.state = .submitted ∧ row.transactionIntentId = ⟨"first", "w"⟩)
  chain := by decide +kernel
  intent := (by decide +kernel : ∃ intent ∈ submittedStore.intent ⟨"first", "w"⟩,
    intent.walletId.chainProfileId = .ethereum)
  profile := (by decide +kernel : ∃ profile ∈ submittedStore.profile .ethereum,
    profile.executionEnabled = true ∧ profile.successFinalityStage = .ethereumFinal)
  attempts := by decide +kernel

/-- A receipt of the transaction of `w` as the coordinator pushes it. -/
def observedReceipt (blockHash : String) (state : ExecutionState) : ReceiptWrite :=
  .pushed 0
    { id := if state = .reorged then .reconciledReorged ⟨"first", "w"⟩ blockHash
        else .reconciled ⟨"first", "w"⟩ blockHash
      executionId := ⟨"first", "w"⟩
      runId := "first"
      transactionAttemptId := some (.broadcast ⟨"first", "w"⟩ 0 .accepted)
      state := state
      finalityStage := none
      robinhoodFinality := none
      blockNumber := some 1
      blockHash := some blockHash
      gasUsed := none
      effectiveGasPrice := none
      l1DataFeeWei := none
      operatorFeeWei := none
      actualSpendWei := some 0
      observedAt := 0 }

theorem observedReceipt_new {blockHash : String} {state : ExecutionState} (present : blockHash ≠ "")
    (known : state = .confirmed ∨ state = .reorged ∨ state = .failed) :
    (observedReceipt blockHash state).New submittedStore ⟨"first", "w"⟩
      (Sample.identity .ethereum "first" "w") where
  execution := rfl
  attempt := by
    have stored : ∃ attempt ∈ submittedStore.attempt (.broadcast ⟨"first", "w"⟩ 0 .accepted),
        attempt.id = .broadcast ⟨"first", "w"⟩ 0 .accepted ∧
          attempt.executionId = ⟨"first", "w"⟩ ∧ attempt.txHash = some "0xhash" := by
      decide +kernel
    obtain ⟨attempt, found, named, ofExecution, hash⟩ := stored
    exact ⟨attempt, "0xhash", congrArg some named.symm, named ▸ found, ofExecution, hash,
      by decide⟩
  block := ⟨1, blockHash, rfl, rfl, present⟩
  amounts := by simp
  spend := by simp
  final := by
    rcases known with rfl | rfl | rfl <;>
      simp [ReceiptRecord.persistedStatus, ReceiptRecord.storedStage,
        canonicalReceiptFinalityStage, Sample.identity]
  fresh := by
    have none : submittedStore.receipts = [] := by decide +kernel
    simp [none]

theorem observations_kept_iff_sample :
    ObservationsKept Sample.fleetPolicy submittedStore ⟨"first", "w"⟩
        (Sample.identity .ethereum "first" "w")
        [observedReceipt "0xa" .confirmed, observedReceipt "0xa" .reorged,
          observedReceipt "0xb" .failed] ↔
      ObservationsFollow .submitted [.confirmed, .reorged, .failed] := by
  refine observations_kept_iff Sample.fleetPolicy submittedStore_ready ⟨?_, by decide⟩
  intro write member
  simp only [List.mem_cons, List.not_mem_nil, or_false] at member
  rcases member with rfl | rfl | rfl
  · exact observedReceipt_new (by decide) (Or.inl rfl)
  · exact observedReceipt_new (by decide) (Or.inr (Or.inl rfl))
  · exact observedReceipt_new (by decide) (Or.inr (Or.inr rfl))

/-- A transaction that is confirmed, reorged and included again in another block
loses the second inclusion. -/
theorem reincluded_receipt_lost :
    ¬ ObservationsKept Sample.fleetPolicy submittedStore ⟨"first", "w"⟩
        (Sample.identity .ethereum "first" "w")
        [observedReceipt "0xa" .confirmed, observedReceipt "0xa" .reorged,
          observedReceipt "0xb" .confirmed] := by
  rintro ⟨db, success, -⟩
  have refused : ([observedReceipt "0xa" .confirmed, observedReceipt "0xa" .reorged,
      observedReceipt "0xb" .confirmed].foldlM (ReceiptWrite.step Sample.fleetPolicy)
        submittedStore).toOption = none := by
    decide +kernel
  simp [success, Except.toOption] at refused

end MintBot
