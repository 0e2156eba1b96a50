import MintBot.Coordinator.Record
import MintBot.Store.Operation

/-!
# Resolved runs

A killed run that sent a transaction stays in the way of startup and of the
release of the kill switch until its latest reconciliation is terminal for its
chain.  Reconciliations go through the states of their table, which are fewer
than the results of the backend, before they are judged.
-/

namespace MintBot

open Fallible

/-- Nothing more is expected of a run with this latest result. -/
def ReconciliationResult.Terminal (result : ReconciliationResult) (chainId : Option ChainId) :
    Prop :=
  result = .failed ∨ result = .final ∨ (result = .confirmed ∧ chainId = some .ethereum)

instance (result : ReconciliationResult) (chainId : Option ChainId) :
    Decidable (result.Terminal chainId) := by
  unfold ReconciliationResult.Terminal
  infer_instance

namespace BackendState

/-- The result of the latest reconciliation of a run. -/
def latestResult (state : BackendState) (runId : RunId) : Option ReconciliationResult :=
  (state.reconciliations.filter fun item => item.runId = runId).getLast?.map
    ReconciliationRecord.result

/-- The run is in flight, or was aborted after one of its transactions was sent. -/
def InFlight (state : BackendState) (run : RunRecord) : Prop :=
  run.state = .armed ∨ run.state = .active ∨
    (run.state = .aborted ∧
      ∃ attempt ∈ state.attempts, attempt.runId = run.id ∧ attempt.hash.getD "" ≠ "")

instance (state : BackendState) (run : RunRecord) : Decidable (state.InFlight run) := by
  unfold InFlight
  infer_instance

/-- `unresolvedRunIds`, which `start` repeats; `campaignChain` finds the chain of
a campaign. -/
def unresolvedRunIds (campaignChain : CampaignId → Option ChainId) (state : BackendState) :
    List RunId :=
  (state.runs.filter fun run => state.InFlight run ∧
    ¬ ∃ result ∈ state.latestResult run.id, result.Terminal (campaignChain run.campaignId)).map
      RunRecord.id

end BackendState

/-! ## Reading a pushed reconciliation back -/

theorem mem_moveRuns_fold (previous : List RunRecord) (runs : List RunRecord) (db : Db) :
    ∃ rows, runs.foldl (fun db run =>
      if (Table.lookup RunRecord.id run.id previous).map RunRecord.state = some run.state then db
      else db.moveRun run) db = { db with runs := rows } := by
  induction runs generalizing db with
  | nil => exact ⟨db.runs, rfl⟩
  | cons run rest inductionHypothesis =>
      rw [List.foldl_cons]
      split
      · exact inductionHypothesis db
      · exact inductionHypothesis (db.moveRun run)

/-- Moving runs writes the run table only. -/
theorem moveRuns_frame (previous next : List RunRecord) (db : Db) :
    ∃ rows, moveRuns previous next db = { db with runs := rows } :=
  mem_moveRuns_fold previous _ db

/-- Reservation writes leave the reconciliations and what attempts are read from
alone. -/
theorem reservationWrites_frame {now : Time} {db db' : Db} {writes : List FactWrite}
    (only : ∀ write ∈ writes, ∃ next prior, write = .reservation next prior)
    (success : writes.foldlM (fun db write => FactWrite.run now write db) db = .ok db') :
    db'.reconciliations = db.reconciliations ∧ db'.readAttempts = db.readAttempts := by
  refine foldlM_invariant (I := fun state =>
    state.reconciliations = db.reconciliations ∧ state.readAttempts = db.readAttempts)
    ?_ ⟨rfl, rfl⟩ success
  rintro state write member next ⟨reconciliations, attempts⟩ written
  obtain ⟨changed, prior, rfl⟩ := only write member
  rcases persistReservation_shape written with rfl | ⟨-, -, -, rfl⟩ | ⟨-, rfl⟩ <;>
    exact ⟨reconciliations, attempts⟩

/-- Attempt and receipt writes add no reconciliation. -/
theorem factWrites_noReconciliation {now : Time} {db db' : Db} {writes : List FactWrite}
    (other : ∀ record, FactWrite.reconciliation record ∉ writes)
    (success : writes.foldlM (fun db write => FactWrite.run now write db) db = .ok db') :
    db'.reconciliations = db.reconciliations := by
  obtain ⟨rows, appended, made⟩ := (FactsWritten.of_foldlM success).reconciliations
  cases rows with
  | nil => rw [appended, List.append_nil]
  | cons row rest =>
      obtain ⟨record, member, -⟩ := made row (by simp)
      exact absurd member (other record)

/-- A change that pushes one reconciliation persists it between its other
facts. -/
theorem factWrites_pushed {now : Time} {db db' : Db} {previous next : BackendState}
    {record : ReconciliationRecord}
    (pushed : next.reconciliations = previous.reconciliations ++ [record])
    (success : (factWrites previous next).foldlM (fun db write => FactWrite.run now write db) db =
      .ok db') :
    ∃ before after, before.reconciliations = db.reconciliations ∧
      persistReconciliation before record = .ok after ∧
      db'.reconciliations = after.reconciliations ∧ db'.readAttempts = before.readAttempts := by
  unfold factWrites at success
  rw [pushed, List.drop_left, List.map_singleton, List.append_assoc, List.foldlM_append,
    bind_eq_ok] at success
  obtain ⟨before, facts, success⟩ := success
  rw [List.singleton_append, List.foldlM_cons, bind_eq_ok] at success
  obtain ⟨after, written, reservations⟩ := success
  have sameReconciliations : before.reconciliations = db.reconciliations := by
    refine factWrites_noReconciliation ?_ facts
    simp
  obtain ⟨reconciliations, attempts⟩ := reservationWrites_frame
    (by simp only [List.mem_map]; rintro - ⟨changed, -, rfl⟩; exact ⟨_, _, rfl⟩) reservations
  refine ⟨before, after, sameReconciliations, written, reconciliations, attempts.trans ?_⟩
  rcases persistReconciliation_shape written with rfl | ⟨-, -, rfl⟩ <;> rfl

/-- A reconciliation that names a read attempt with a hash and a nonce is stored
for the execution of the attempt. -/
theorem persistReconciliation_stored {db db' : Db} {record : ReconciliationRecord}
    {id : AttemptId} {attempt : AttemptRecord} {hash : String} {nonce : Int}
    (success : persistReconciliation db record = .ok db') (named : record.attemptId = some id)
    (found : db.readAttempts.find? (fun item => item.id = id) = some attempt)
    (hasHash : attempt.hash = some hash) (hasNonce : attempt.nonce = some nonce) :
    ∃ row : ReconciliationRow, row.executionId = attempt.executionId ∧
      row.state = databaseReconciliationState record.result ∧
      db'.reconciliations = db.reconciliations ++ [row] := by
  simp only [persistReconciliation, named, Option.bind_some, found, hasHash, hasNonce, bind_eq_ok,
    recordReconciliation_eq_ok] at success
  obtain ⟨-, -, -, -, -, rfl⟩ := success
  exact ⟨_, rfl, rfl, rfl⟩

/-- Reading reconciliations depends on the runs of the executions only. -/
theorem readReconciliation_congr {db db' : Db}
    (sameRuns : ∀ id, (db'.execution id).map ExecutionRow.runId =
      (db.execution id).map ExecutionRow.runId) :
    db'.readReconciliation = db.readReconciliation := by
  have read : ∀ (db : Db) (row : ReconciliationRow), db.readReconciliation row =
      ((db.execution row.executionId).map ExecutionRow.runId).map fun runId =>
        { runId := runId
          attemptId := some row.transactionAttemptId
          result := reconciliationResult row.state
          observedAt := row.checkedAt } := by
    intro db row
    unfold Db.readReconciliation
    cases db.execution row.executionId <;> rfl
  funext row
  rw [read, read, sameRuns]

theorem readReconciliations_perm (db : Db) :
    db.readReconciliations.Perm (db.reconciliations.filterMap db.readReconciliation) :=
  (List.perm_insertionSort _ _).filterMap _

/-- The execution of a read attempt belongs to the run of the attempt. -/
theorem runOfExecution_eq_some {db : Db} {id : ExecutionId} {runId : RunId}
    (owner : db.runOfExecution id = some runId) :
    ∃ execution, db.execution id = some execution ∧ execution.runId = runId := by
  simp only [Db.runOfExecution, Option.bind_eq_bind, Option.bind_eq_some_iff, Option.pure_def,
    Option.some.injEq] at owner
  obtain ⟨execution, found, run, runFound, rfl⟩ := owner
  exact ⟨execution, found, (Table.lookup_eq_some runFound).2.symm⟩

/-! ## Terminal results -/

/-- The results whose stored form is as terminal as they are: a failed result is
stored as an ambiguous one, and an unfinished stage on Ethereum as a match. -/
def ReconciliationResult.KeepsTerminal (result : ReconciliationResult)
    (chainId : Option ChainId) : Prop :=
  result ≠ .failed ∧ ¬ ((result = .soft ∨ result = .posted) ∧ chainId = some .ethereum)

theorem terminal_roundTrip_iff (result : ReconciliationResult) (chainId : Option ChainId) :
    ((reconciliationResult (databaseReconciliationState result)).Terminal chainId ↔
      result.Terminal chainId) ↔ result.KeepsTerminal chainId := by
  by_cases ethereum : chainId = some .ethereum <;> cases result <;>
    simp [ReconciliationResult.Terminal, ReconciliationResult.KeepsTerminal, reconciliationResult,
      databaseReconciliationState, ethereum]

/-- A reconcile pass that names an attempt of the run with a hash and a nonce
leaves exactly one new reconciliation to read.  It is as terminal as the result
that was pushed exactly when that result keeps its meaning in the table. -/
theorem reconciliation_terminal_iff {fleetPolicy : Option FleetSpendPolicy} {now : Time}
    {db db' : Db} {chainId : ChainId} {run : ExecutionRunRow} {update : ReconciliationUpdate}
    {storedAttempts : List AttemptRecord} {id : AttemptId} {attempt : AttemptRecord}
    (committed : transaction fleetPolicy now db
      (recordUpdate chainId run.id update storedAttempts now) = .ok db')
    (named : reconciliationAttemptId run.id update storedAttempts = some id)
    (found : (snapshot db').attempts.find? (fun item => item.id = id) = some attempt)
    (owner : attempt.runId = run.id) (hasHash : attempt.hash ≠ none)
    (hasNonce : attempt.nonce ≠ none) :
    ∃ stored, (snapshot db').reconciliations.Perm (stored :: (snapshot db).reconciliations) ∧
      stored.runId = run.id ∧
      ((stored.result.Terminal (db.chainProfileForCampaign run.campaignId) ↔
          update.result.Terminal (db.chainProfileForCampaign run.campaignId)) ↔
        update.result.KeepsTerminal (db.chainProfileForCampaign run.campaignId)) := by
  obtain ⟨next, mutated, persisted⟩ := bind_eq_ok.mp committed
  have effect := recordUpdate_effect mutated
  obtain ⟨recorded, writing, written, rfl⟩ :=
    persistDelta_effect effect.intents effect.runsKnown persisted
  obtain ⟨before, after, sameBefore, storing, sameAfter, attempts⟩ :=
    factWrites_pushed effect.reconciliations writing
  obtain ⟨hash, hashEq⟩ := Option.ne_none_iff_exists'.mp hasHash
  obtain ⟨nonce, nonceEq⟩ := Option.ne_none_iff_exists'.mp hasNonce
  have foundBefore : before.readAttempts.find? (fun item => item.id = id) = some attempt :=
    attempts ▸ found
  obtain ⟨row, rowExecution, rowState, appended⟩ :=
    persistReconciliation_stored storing named foundBefore hashEq nonceEq
  obtain ⟨rows, moved⟩ := moveRuns_frame (snapshot db).runs next.runs db
  have sameRuns : recorded.readReconciliation = db.readReconciliation := by
    refine readReconciliation_congr fun other => ?_
    rw [written.executionRuns, moved]
    rfl
  obtain ⟨attemptRow, -, read⟩ := mem_readAttempts (List.mem_of_find?_eq_some found)
  obtain ⟨execution, executionFound, executionRun⟩ := runOfExecution_eq_some read.run
  obtain ⟨stored, readRow, storedRun, storedResult⟩ : ∃ stored,
      recorded.readReconciliation row = some stored ∧ stored.runId = execution.runId ∧
        stored.result = reconciliationResult row.state := by
    have executionFound : recorded.execution row.executionId = some execution := by
      rw [rowExecution, read.execution]
      exact executionFound
    unfold Db.readReconciliation
    rw [executionFound]
    exact ⟨_, rfl, rfl, rfl⟩
  have appendedAll : recorded.reconciliations = db.reconciliations ++ [row] := by
    rw [sameAfter, appended, sameBefore, moved]
  have split : recorded.reconciliations.filterMap recorded.readReconciliation =
      db.reconciliations.filterMap db.readReconciliation ++ [stored] := by
    rw [appendedAll, List.filterMap_append, List.filterMap_cons_some readRow, List.filterMap_nil,
      sameRuns]
  refine ⟨stored, ?_, storedRun.trans (executionRun.trans owner), ?_⟩
  · have readAgain := readReconciliations_perm recorded
    rw [split] at readAgain
    have readBefore := (readReconciliations_perm db).symm
    exact readAgain.trans ((List.perm_append_singleton _ _).trans (readBefore.cons _))
  · rw [storedResult, rowState]
    exact terminal_roundTrip_iff update.result _

/-! ## A killed run with a reverted transaction -/

/-- The run was killed after the transaction of its wallet was accepted. -/
def killedAfterSending : Db :=
  Sample.after [.attempt 0 (Sample.attempt "first" "w"), .setKillSwitch true, .abortRemaining]
    (Sample.admitted .ethereum "first" "w")

/-- The transaction of the wallet was included and reverted. -/
def revertedUpdate : ReconciliationUpdate where
  result := .failed
  attempts := (snapshot killedAfterSending).attempts
  receipts :=
    [{ id := .reconciled ⟨"first", "w"⟩ "0xblock"
       executionId := ⟨"first", "w"⟩
       runId := "first"
       transactionAttemptId := some (.broadcast ⟨"first", "w"⟩ 0 .accepted)
       state := .failed
       finalityStage := none
       robinhoodFinality := none
       blockNumber := some 1
       blockHash := some "0xblock"
       gasUsed := none
       effectiveGasPrice := none
       l1DataFeeWei := none
       operatorFeeWei := none
       actualSpendWei := some 10
       observedAt := 0 }]
  reason := none

/-- A reconcile pass over the killed run. -/
def revertedPass (db : Db) : Except Error Db :=
  transaction none 1 db
    (recordUpdate .ethereum "first" revertedUpdate (snapshot db).attempts 1)

theorem reconciliation_terminal_iff_sample :
    ∃ db', revertedPass killedAfterSending = .ok db' ∧
      ∃ stored, (snapshot db').reconciliations.Perm
          (stored :: (snapshot killedAfterSending).reconciliations) ∧
        stored.runId = "first" ∧
        ((stored.result.Terminal (killedAfterSending.chainProfileForCampaign "first") ↔
            ReconciliationResult.failed.Terminal
              (killedAfterSending.chainProfileForCampaign "first")) ↔
          ReconciliationResult.failed.KeepsTerminal
            (killedAfterSending.chainProfileForCampaign "first")) := by
  have committed : ∃ db' ∈ (revertedPass killedAfterSending).toOption,
      ∃ run ∈ killedAfterSending.run "first",
        run.id = "first" ∧ run.campaignId = "first" ∧
          ∃ attempt ∈ (snapshot db').attempts.find? (fun item =>
            item.id = .broadcast ⟨"first", "w"⟩ 0 .accepted),
            attempt.runId = run.id ∧ attempt.hash ≠ none ∧ attempt.nonce ≠ none := by
    decide +kernel
  obtain ⟨db', success, run, -, named, campaign, attempt, found, owner, hash, nonce⟩ := committed
  refine ⟨db', mem_toOption.mp success, ?_⟩
  have pass : transaction none 1 killedAfterSending
      (recordUpdate .ethereum run.id revertedUpdate (snapshot killedAfterSending).attempts 1) =
        .ok db' := by
    rw [named]
    exact mem_toOption.mp success
  have stored := reconciliation_terminal_iff pass rfl found owner hash nonce
  rw [campaign, named] at stored
  exact stored

/-- The reverted transaction of a killed run is settled, and the run stays
unresolved after every pass that reports it. -/
theorem reverted_run_unresolved :
    ∃ db' ∈ ((revertedPass killedAfterSending).bind revertedPass).toOption,
      (snapshot db').killed = true ∧
        (snapshot db').reservations.all (fun item => item.status = .settled) = true ∧
        (snapshot db').unresolvedRunIds db'.chainProfileForCampaign = ["first"] := by
  decide +kernel

end MintBot
