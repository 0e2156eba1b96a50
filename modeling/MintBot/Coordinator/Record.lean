import MintBot.Coordinator.Accounting
import MintBot.Store.Facts

/-!
# Recording results and updates

The coordinator records an engine result after an execution and an update of a
reconcile pass, each in one transaction.  Both add the facts they carry, move
the run by what they say, and account for the reservations of the run.
-/

namespace MintBot

open Fallible

/-- The move of a run whose engine call returned a result. -/
def moveExecutedRun (chainId : ChainId) (killedAfterExecution : Bool) (result : ExecutionState)
    (run : RunRecord) : Except Error RunRecord :=
  if killedAfterExecution = true ∧ run.state = .active then transition run .aborted
  else if result = .failed then transition run .failed
  else if result = .aborted ∧ run.state = .active then transition run .aborted
  else if result = .confirmed ∧ chainId = .ethereum then transition run .completed
  else .ok run

/-- An armed run becomes active. -/
def activateArmed (run : RunRecord) : Except Error RunRecord :=
  if run.state = .armed then transition run .active else .ok run

/-- An active run becomes completed. -/
def completeActive (run : RunRecord) : Except Error RunRecord :=
  if run.state = .active then transition run .completed else .ok run

/-- The move of a run that a reconcile pass read. -/
def moveReconciledRun (chainId : ChainId) (result : ReconciliationResult) (run : RunRecord) :
    Except Error RunRecord :=
  if run.state = .aborted then .ok run
  else if (result = .confirmed ∧ chainId = .ethereum) ∨ result = .final then
    activateArmed run >>= completeActive
  else if result = .soft ∨ result = .posted then activateArmed run
  else if (result = .failed ∨ result = .reorged) ∧ run.state ≠ .failed then transition run .failed
  else .ok run

/-- The transaction of `execute` after the engine returned. -/
def recordResult (chainId : ChainId) (runId : RunId) (result : ExecutionResult)
    (killedAfterExecution : Bool) (state : BackendState) : Except Error BackendState := do
  let runs ← match Table.lookup RunRecord.id runId state.runs with
    | none => .ok state.runs
    | some run => do
        let moved ← moveExecutedRun chainId killedAfterExecution result.state run
        pure (Table.update RunRecord.id runId (fun _ => moved) state.runs)
  applyAccountingToState chainId result.attempts result.receipts runId
    { state with
      attempts := state.attempts ++ result.attempts
      receipts := state.receipts ++ result.receipts
      events := state.events ++ [{ runId := some runId, type := .executionFactsRecorded }]
      runs := runs }

/-- The attempt that a pushed reconciliation names: that of a receipt, else the
first attempt of the update, else the first stored attempt with a hash. -/
def reconciliationAttemptId (runId : RunId) (update : ReconciliationUpdate)
    (storedAttempts : List AttemptRecord) : Option AttemptId :=
  (update.receipts.findSome? ReceiptRecord.transactionAttemptId).or
    ((update.attempts.head?.map AttemptRecord.id).or
      ((storedAttempts.find? fun attempt =>
        attempt.runId = runId ∧ attempt.hash.getD "" ≠ "").map AttemptRecord.id))

/-- The reconciliation that an update pushes. -/
def reconciliationRecord (runId : RunId) (update : ReconciliationUpdate)
    (storedAttempts : List AttemptRecord) (now : Time) : ReconciliationRecord where
  runId := runId
  attemptId := reconciliationAttemptId runId update storedAttempts
  result := update.result
  observedAt := now

/-- The transaction of a reconcile pass.  `storedAttempts` were read before the
engine was asked. -/
def recordUpdate (chainId : ChainId) (runId : RunId) (update : ReconciliationUpdate)
    (storedAttempts : List AttemptRecord) (now : Time) (state : BackendState) :
    Except Error BackendState := do
  let run ← require (Table.lookup RunRecord.id runId state.runs) "RUN_NOT_FOUND"
  let moved ← moveReconciledRun chainId update.result run
  applyAccountingToState chainId update.attempts update.receipts runId
    { state with
      attempts := state.attempts ++ added AttemptRecord.id state.attempts update.attempts
      receipts := state.receipts ++ added ReceiptRecord.id state.receipts update.receipts
      reconciliations :=
        state.reconciliations ++ [reconciliationRecord runId update storedAttempts now]
      runs := Table.update RunRecord.id runId (fun _ => moved) state.runs }

/-! ## What a recorded update is -/

theorem applyAccountingToState_shape {chainId : ChainId} {attempts : List AttemptRecord}
    {receipts : List ReceiptRecord} {runId : RunId} {state next : BackendState}
    (success : applyAccountingToState chainId attempts receipts runId state = .ok next) :
    ∃ reservations, next = { state with reservations := reservations } := by
  simp only [applyAccountingToState, bind_eq_ok, pure_eq_ok] at success
  obtain ⟨reservations, -, rfl⟩ := success
  exact ⟨reservations, rfl⟩

theorem transition_id {run next : RunRecord} {state : CampaignState}
    (success : transition run state = .ok next) : next.id = run.id := by
  rw [← (transition_eq_ok.mp success).2]

theorem activateArmed_id {run next : RunRecord} (success : activateArmed run = .ok next) :
    next.id = run.id := by
  unfold activateArmed at success
  split at success
  · exact transition_id success
  · exact Except.ok.inj success ▸ rfl

theorem completeActive_id {run next : RunRecord} (success : completeActive run = .ok next) :
    next.id = run.id := by
  unfold completeActive at success
  split at success
  · exact transition_id success
  · exact Except.ok.inj success ▸ rfl

theorem moveReconciledRun_id {chainId : ChainId} {result : ReconciliationResult}
    {run moved : RunRecord} (success : moveReconciledRun chainId result run = .ok moved) :
    moved.id = run.id := by
  unfold moveReconciledRun at success
  split at success
  · exact Except.ok.inj success ▸ rfl
  · split at success
    · obtain ⟨started, starting, completing⟩ := bind_eq_ok.mp success
      exact (completeActive_id completing).trans (activateArmed_id starting)
    · split at success
      · exact activateArmed_id success
      · split at success
        · exact transition_id success
        · exact Except.ok.inj success ▸ rfl

/-- What the transaction of a reconcile pass makes of the backend state. -/
structure UpdateRecorded (chainId : ChainId) (runId : RunId) (update : ReconciliationUpdate)
    (record : ReconciliationRecord) (state next : BackendState) : Prop where
  intents : next.intents = state.intents
  events : next.events = state.events
  killed : next.killed = state.killed
  attempts : next.attempts =
    state.attempts ++ added AttemptRecord.id state.attempts update.attempts
  receipts : next.receipts =
    state.receipts ++ added ReceiptRecord.id state.receipts update.receipts
  reconciliations : next.reconciliations = state.reconciliations ++ [record]
  runs : ∃ run ∈ state.runs, run.id = runId ∧ ∃ moved,
    moveReconciledRun chainId update.result run = .ok moved ∧
      next.runs = Table.update RunRecord.id runId (fun _ => moved) state.runs

theorem recordUpdate_effect {chainId : ChainId} {runId : RunId} {update : ReconciliationUpdate}
    {storedAttempts : List AttemptRecord} {now : Time} {state next : BackendState}
    (success : recordUpdate chainId runId update storedAttempts now state = .ok next) :
    UpdateRecorded chainId runId update (reconciliationRecord runId update storedAttempts now)
      state next := by
  simp only [recordUpdate, bind_eq_ok, require_eq_ok] at success
  obtain ⟨run, found, moved, moving, accounted⟩ := success
  obtain ⟨reservations, rfl⟩ := applyAccountingToState_shape accounted
  obtain ⟨member, named⟩ := Table.lookup_eq_some found
  exact
    { intents := rfl
      events := rfl
      killed := rfl
      attempts := rfl
      receipts := rfl
      reconciliations := rfl
      runs := ⟨run, member, named, moved, moving, rfl⟩ }

/-- A reconcile pass adds no run. -/
theorem UpdateRecorded.runsKnown {chainId : ChainId} {runId : RunId}
    {update : ReconciliationUpdate} {record : ReconciliationRecord} {state next : BackendState}
    (recorded : UpdateRecorded chainId runId update record state next) :
    RunsKnown state.runs next.runs := by
  obtain ⟨run, member, named, moved, moving, runs⟩ := recorded.runs
  intro other otherMember
  rw [runs] at otherMember
  rcases Table.mem_update.mp otherMember with ⟨old, -⟩ | ⟨-, -, -, rfl⟩
  · exact ⟨other, old, rfl⟩
  · exact ⟨run, member, (moveReconciledRun_id moving).symm⟩

end MintBot
