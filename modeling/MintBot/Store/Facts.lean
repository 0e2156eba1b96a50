import MintBot.Library.Machine
import MintBot.Store.Transaction

/-!
# Transactions that record facts

A transaction of the coordinator moves a run, adds attempts, receipts and a
reconciliation, and changes reservations.  Its writes are commands on the
database, one for each record; each has the conditions under which the tables
accept it, and the transaction commits exactly when every write finds its
conditions met when its turn comes.
-/

namespace MintBot

open Fallible

/-- A write of a transaction that records facts. -/
inductive FactWrite
  | attempt (record : AttemptRecord)
  | receipt (record : ReceiptRecord)
  | reconciliation (record : ReconciliationRecord)
  | reservation (next : Reservation) (prior : Option Reservation)
  deriving DecidableEq, Repr

/-- The execution is missing, stays where it is, or may move to the target. -/
def Db.Movable (db : Db) (id : ExecutionId) (target : LifecycleState) : Prop :=
  ∀ row ∈ db.execution id,
    row.state = .aborted ∨ row.state = target ∨ SafeMove row.state target

instance (db : Db) (id : ExecutionId) (target : LifecycleState) :
    Decidable (db.Movable id target) := by
  unfold Db.Movable
  infer_instance

theorem transitionExecutionSafe_succeeds_iff {db : Db} {id : ExecutionId}
    {target : LifecycleState} :
    (∃ db', transitionExecutionSafe db id target = .ok db') ↔ db.Movable id target := by
  simp only [transitionExecutionSafe_eq_ok]
  unfold Db.Movable
  cases found : db.execution id with
  | none => simp
  | some row =>
      simp only [reduceCtorEq, false_and, Option.some.injEq, exists_eq_left', false_or,
        Option.mem_def, forall_eq']
      constructor
      · rintro ⟨db', ⟨stays | stays, -⟩ | ⟨-, -, moves, -⟩⟩
        · exact Or.inl stays
        · exact Or.inr (Or.inl stays)
        · exact Or.inr (Or.inr moves)
      · intro movable
        by_cases stays : row.state = .aborted ∨ row.state = target
        · exact ⟨db, Or.inl ⟨stays, rfl⟩⟩
        · obtain ⟨notAborted, notThere⟩ := not_or.mp stays
          have moves := (movable.resolve_left notAborted).resolve_left notThere
          exact ⟨_, Or.inr ⟨notAborted, notThere, moves, rfl⟩⟩

namespace FactWrite

/-- Carry out a write. -/
def run (now : Time) : FactWrite → Db → Except Error Db
  | .attempt record, db => persistAttempt db record
  | .receipt record, db => persistReceipt db record
  | .reconciliation record, db => persistReconciliation db record
  | .reservation next prior, db => persistReservation db now next prior

/-- A reconciliation names a stored attempt with a hash and a nonce. -/
def reconciled (db : Db) (record : ReconciliationRecord) : Option ReconciliationRow := do
  let id ← record.attemptId
  let attempt ← db.readAttempts.find? fun item => item.id = id
  let hash ← attempt.hash
  let nonce ← attempt.nonce
  pure
    { transactionAttemptId := attempt.id
      executionId := attempt.executionId
      txHash := hash
      nonce := nonce
      state := databaseReconciliationState record.result
      checkedAt := record.observedAt }

/-- The change of a reservation settles it. -/
def Settles (next prior : Reservation) : Prop :=
  next.status = .settled ∧ prior.status ≠ .settled

instance (next prior : Reservation) : Decidable (Settles next prior) := by
  unfold Settles
  infer_instance

/-- The conditions under which the tables accept a write. -/
def Accepted (write : FactWrite) (db : Db) : Prop :=
  match write with
  | .attempt record =>
      ∃ intentId ∈ intentRowIdFromExecution db record.executionId record.wallet record.runId,
        db.AttemptAccepted (record.row intentId) ∧
          (record.replacementOfId = none →
            db.Movable record.executionId (attemptTarget record.state))
  | .receipt record =>
      ∃ chainId row, record.Persistable db chainId row ∧
        db.Movable record.executionId (record.target chainId)
  | .reconciliation record =>
      ∀ row ∈ reconciled db record, db.ReconciliationAccepted row ∧
        ∃ run, db.run record.runId = some run ∧
          db.chainProfileForCampaign run.campaignId ≠ none
  | .reservation next prior =>
      ∃ old ∈ prior, Settles next old → ∀ row ∈ db.reservation next.id, row.status = .reserved →
        (0 ≤ next.actualAmountWei.getD next.amountWei ∧
          next.actualAmountWei.getD next.amountWei ≤ row.reservedAmountWei) ∧
          db.SettlementEvidence row.executionId

theorem attempt_succeeds_iff {db : Db} {record : AttemptRecord} :
    (∃ db', persistAttempt db record = .ok db') ↔ (attempt record).Accepted db := by
  simp only [persistAttempt_eq_ok, Accepted, Option.mem_def]
  constructor
  · rintro ⟨db', intentId, named, accepted, moved⟩
    refine ⟨intentId, named, accepted, fun first => ?_⟩
    rw [if_neg (not_not.mpr first)] at moved
    have movable := transitionExecutionSafe_succeeds_iff.mp ⟨db', moved⟩
    exact movable
  · rintro ⟨intentId, named, accepted, movable⟩
    by_cases first : record.replacementOfId = none
    · obtain ⟨db', moved⟩ := transitionExecutionSafe_succeeds_iff.mpr
        (show Db.Movable { db with attempts := db.attempts ++ [record.row intentId] }
          record.executionId (attemptTarget record.state) from movable first)
      refine ⟨db', intentId, named, accepted, ?_⟩
      rwa [if_neg (not_not.mpr first)]
    · exact ⟨_, intentId, named, accepted, by rw [if_pos first]⟩

theorem receipt_succeeds_iff {db : Db} {record : ReceiptRecord} :
    (∃ db', persistReceipt db record = .ok db') ↔ (receipt record).Accepted db := by
  simp only [persistReceipt_eq_ok, Accepted]
  constructor
  · rintro ⟨db', chainId, row, persistable, moved⟩
    have movable := transitionExecutionSafe_succeeds_iff.mp ⟨db', moved⟩
    exact ⟨chainId, row, persistable, movable⟩
  · rintro ⟨chainId, row, persistable, movable⟩
    obtain ⟨db', moved⟩ := transitionExecutionSafe_succeeds_iff.mpr
      (show Db.Movable { db with receipts := db.receipts ++ [row] }
        record.executionId (record.target chainId) from movable)
    exact ⟨db', chainId, row, persistable, moved⟩

theorem reconciliation_succeeds_iff {db : Db} {record : ReconciliationRecord} :
    (∃ db', persistReconciliation db record = .ok db') ↔ (reconciliation record).Accepted db := by
  simp only [Accepted]
  unfold persistReconciliation reconciled
  cases found : record.attemptId.bind fun id => db.readAttempts.find? fun item => item.id = id with
  | none => simp [← Option.bind_assoc, found]
  | some attempt =>
      simp only [Option.bind_eq_bind, ← Option.bind_assoc, found, Option.bind_some]
      cases attempt.hash with
      | none => simp
      | some hash =>
          cases attempt.nonce with
          | none => simp
          | some nonce =>
              simp only [Option.bind_some, bind_eq_ok, require_eq_ok,
                recordReconciliation_eq_ok]
              constructor
              · rintro ⟨db', run, runFound, chainId, chain, accepted, -⟩ row same
                obtain rfl := Option.some.inj same
                exact ⟨accepted, run, runFound, by simp [chain]⟩
              · intro accepted
                obtain ⟨row, run, runFound, chain⟩ := accepted _ rfl
                obtain ⟨chainId, chain⟩ := Option.ne_none_iff_exists'.mp chain
                exact ⟨_, run, runFound, chainId, chain, row, rfl⟩

theorem settleReservationTotal_succeeds_iff {db : Db} {now : Time} {id : ReservationId}
    {actualAmountWei : Wei} :
    (∃ db', settleReservationTotal db now id actualAmountWei = .ok db') ↔
      ∀ row ∈ db.reservation id, row.status = .reserved →
        (0 ≤ actualAmountWei ∧ actualAmountWei ≤ row.reservedAmountWei) ∧
          db.SettlementEvidence row.executionId := by
  unfold settleReservationTotal
  cases db.reservation id with
  | none => simp
  | some row =>
      by_cases pending : row.status = .reserved
      · simp only [pending, ne_eq, not_true_eq_false, if_false, bind_eq_ok, refuse_eq_ok,
          pure_eq_ok, not_or, Int.not_lt, not_not, Option.mem_def, Option.some.injEq, forall_eq',
          forall_const]
        constructor
        · rintro ⟨db', ⟨⟩, amount, ⟨⟩, evidence, -⟩
          exact ⟨amount, evidence⟩
        · rintro ⟨amount, evidence⟩
          exact ⟨_, ⟨⟩, amount, ⟨⟩, evidence, rfl⟩
      · simp [pending]

theorem reservation_succeeds_iff {db : Db} {now : Time} {next : Reservation}
    {prior : Option Reservation} :
    (∃ db', persistReservation db now next prior = .ok db') ↔
      (reservation next prior).Accepted db := by
  simp only [Accepted]
  unfold persistReservation
  cases prior with
  | none => simp
  | some prior =>
      simp only [Option.mem_def, Option.some.injEq, exists_eq_left']
      by_cases unchanged : prior.status = next.status ∧ prior.actualAmountWei = next.actualAmountWei
      · rw [if_pos unchanged]
        have settles : ¬ Settles next prior := fun both => both.2 (unchanged.1.trans both.1)
        simp [settles]
      by_cases settled : prior.status = .settled
      · rw [if_neg unchanged, if_pos settled]
        have settles : ¬ Settles next prior := fun both => both.2 settled
        simp [settles]
      rw [if_neg unchanged, if_neg settled]
      cases status : next.status with
      | settled =>
          have settles : Settles next prior := ⟨status, settled⟩
          rw [imp_iff_right settles]
          exact settleReservationTotal_succeeds_iff
      | released => simp [Settles, status]
      | reorged => simp [Settles, status]
      | reserved => simp [Settles, status]

/-- A write succeeds exactly when the tables accept it. -/
theorem run_succeeds_iff {db : Db} {now : Time} {write : FactWrite} :
    (∃ db', write.run now db = .ok db') ↔ write.Accepted db := by
  cases write with
  | attempt record => exact attempt_succeeds_iff
  | receipt record => exact receipt_succeeds_iff
  | reconciliation record => exact reconciliation_succeeds_iff
  | reservation next prior => exact reservation_succeeds_iff

end FactWrite

/-! ## What the writes leave behind -/

/-- The reservation is released by one of the writes. -/
def ReleasedBy (writes : List FactWrite) (id : ReservationId) : Prop :=
  ∃ next prior, FactWrite.reservation next prior ∈ writes ∧ next.id = id ∧
    next.status = .released

/-- The effect of some writes: rows of the recorded facts are appended, executions
move, and reservations are closed as the writes ask. -/
structure FactsWritten (writes : List FactWrite) (db db' : Db) : Prop where
  runs : db'.runs = db.runs
  intents : db'.intents = db.intents
  campaigns : db'.campaigns = db.campaigns
  events : db'.events = db.events
  killed : db'.killed = db.killed
  executionIds : db'.executions.map ExecutionRow.id = db.executions.map ExecutionRow.id
  executionRuns : ∀ id, (db'.execution id).map ExecutionRow.runId =
    (db.execution id).map ExecutionRow.runId
  attemptsKept : ∀ row ∈ db.attempts, row ∈ db'.attempts
  attemptsMade : ∀ row ∈ db'.attempts, row ∈ db.attempts ∨
    ∃ record intentId, FactWrite.attempt record ∈ writes ∧ row = record.row intentId
  receiptsKept : ∀ row ∈ db.receipts, row ∈ db'.receipts
  receiptsMade : ∀ row ∈ db'.receipts, row ∈ db.receipts ∨
    ∃ record chainId attemptId txHash blockNumber blockHash, FactWrite.receipt record ∈ writes ∧
      row = record.row chainId attemptId txHash blockNumber blockHash
  reconciliations : ∃ rows, db'.reconciliations = db.reconciliations ++ rows ∧
    ∀ row ∈ rows, ∃ record, FactWrite.reconciliation record ∈ writes ∧
      row.state = databaseReconciliationState record.result
  reservations : db.LaterReservations db'
  released : ∀ row' ∈ db'.reservations, row'.status = .released →
    (∃ row ∈ db.reservations, row.id = row'.id ∧ row.status = .released) ∨
      ReleasedBy writes row'.id

theorem FactsWritten.start (writes : List FactWrite) (db : Db) : FactsWritten writes db db where
  runs := rfl
  intents := rfl
  campaigns := rfl
  events := rfl
  killed := rfl
  executionIds := rfl
  executionRuns _ := rfl
  attemptsKept _ member := member
  attemptsMade _ member := Or.inl member
  receiptsKept _ member := member
  receiptsMade _ member := Or.inl member
  reconciliations := ⟨[], (List.append_nil _).symm, by simp⟩
  reservations := .of_eq rfl
  released row member released := Or.inl ⟨row, member, rfl, released⟩

namespace FactsWritten

variable {writes : List FactWrite} {db mid : Db}

/-- Moving an execution keeps the effect. -/
theorem move (written : FactsWritten writes db mid) (id : ExecutionId) (state : LifecycleState) :
    FactsWritten writes db (mid.setExecutionState id state) :=
  { written with
    executionIds := (executionIds_setExecutionState mid id state).trans written.executionIds
    executionRuns := fun other =>
      (executionRun_setExecutionState mid id other state).trans (written.executionRuns other) }

theorem transition (written : FactsWritten writes db mid) {db' : Db} {id : ExecutionId}
    {target : LifecycleState} (success : transitionExecutionSafe mid id target = .ok db') :
    FactsWritten writes db db' := by
  rcases transitionExecutionSafe_shape success with rfl | rfl
  · exact written
  · exact written.move id target

theorem attempt (written : FactsWritten writes db mid) {db' : Db} {record : AttemptRecord}
    (member : FactWrite.attempt record ∈ writes) (success : persistAttempt mid record = .ok db') :
    FactsWritten writes db db' := by
  obtain ⟨intentId, -, -, moved⟩ := persistAttempt_eq_ok.mp success
  have appended : FactsWritten writes db
      { mid with attempts := mid.attempts ++ [record.row intentId] } :=
    { written with
      attemptsKept := fun row old => List.mem_append_left _ (written.attemptsKept row old)
      attemptsMade := by
        intro row rowMember
        rcases List.mem_append.mp rowMember with old | new
        · exact written.attemptsMade row old
        · exact Or.inr ⟨record, intentId, member, List.mem_singleton.mp new⟩ }
  split at moved
  · exact moved ▸ appended
  · exact appended.transition moved

theorem receipt (written : FactsWritten writes db mid) {db' : Db} {record : ReceiptRecord}
    (member : FactWrite.receipt record ∈ writes) (success : persistReceipt mid record = .ok db') :
    FactsWritten writes db db' := by
  obtain ⟨chainId, row, persistable, moved⟩ := persistReceipt_eq_ok.mp success
  obtain ⟨attempt, txHash, blockNumber, blockHash, -, -, -, -, -, -, rfl⟩ := persistable.facts
  have appended : FactsWritten writes db
      { mid with
        receipts := mid.receipts ++
          [record.row chainId attempt.id txHash blockNumber blockHash] } :=
    { written with
      receiptsKept := fun row old => List.mem_append_left _ (written.receiptsKept row old)
      receiptsMade := by
        intro row rowMember
        rcases List.mem_append.mp rowMember with old | new
        · exact written.receiptsMade row old
        · exact Or.inr ⟨record, chainId, attempt.id, txHash, blockNumber, blockHash, member,
            List.mem_singleton.mp new⟩ }
  exact appended.transition moved

theorem reconciliation (written : FactsWritten writes db mid) {db' : Db}
    {record : ReconciliationRecord} (member : FactWrite.reconciliation record ∈ writes)
    (success : persistReconciliation mid record = .ok db') : FactsWritten writes db db' := by
  rcases persistReconciliation_shape success with rfl | ⟨row, state, rfl⟩
  · exact written
  · obtain ⟨rows, appended, made⟩ := written.reconciliations
    refine { written with reconciliations := ⟨rows ++ [row], ?_, ?_⟩ }
    · rw [appended, List.append_assoc]
    · intro other otherMember
      rcases List.mem_append.mp otherMember with old | new
      · exact made other old
      · rw [List.mem_singleton.mp new]
        exact ⟨record, member, state⟩

theorem reservation (written : FactsWritten writes db mid) {db' : Db} {now : Time}
    {next : Reservation} {prior : Option Reservation}
    (member : FactWrite.reservation next prior ∈ writes)
    (success : persistReservation mid now next prior = .ok db') : FactsWritten writes db db' := by
  have later := written.reservations.trans (persistReservation_later success)
  rcases persistReservation_shape success with
    rfl | ⟨amountWei, settledAmountWei, -, rfl⟩ | ⟨status, rfl⟩
  · exact written
  · refine { written with reservations := later, released := ?_ }
    intro row rowMember released
    rcases Table.mem_update.mp rowMember with ⟨old, -⟩ | ⟨old, oldMember, -, rfl⟩
    · exact written.released row old released
    · by_cases pending : old.status = .reserved
      · simp [SpendReservationRow.settle, pending] at released
      · have unchanged : old.settle amountWei settledAmountWei now = old := by
          simp [SpendReservationRow.settle, pending]
        rw [unchanged] at released ⊢
        exact written.released old oldMember released
  · refine { written with reservations := later, released := ?_ }
    intro row rowMember released
    rcases Table.mem_update.mp rowMember with ⟨old, -⟩ | ⟨old, oldMember, named, rfl⟩
    · exact written.released row old released
    · have sameId : old.release.id = old.id := by
        unfold SpendReservationRow.release SpendReservationRow.close
        split <;> rfl
      exact Or.inr ⟨next, prior, member, (sameId.trans named).symm, status⟩

/-- Carrying out the writes in order has their effect. -/
theorem of_foldlM {now : Time} {db' : Db}
    (success : writes.foldlM (fun db write => FactWrite.run now write db) db = .ok db') :
    FactsWritten writes db db' := by
  refine foldlM_invariant (I := FactsWritten writes db) ?_ (FactsWritten.start writes db) success
  intro state write member next written stepped
  cases write with
  | attempt record => exact written.attempt member stepped
  | receipt record => exact written.receipt member stepped
  | reconciliation record => exact written.reconciliation member stepped
  | reservation changed prior => exact written.reservation member stepped

/-- The row of every written attempt is stored. -/
theorem attempts_stored {now : Time} {db' : Db}
    (success : writes.foldlM (fun db write => FactWrite.run now write db) db = .ok db')
    {record : AttemptRecord} (member : FactWrite.attempt record ∈ writes) :
    ∃ intentId, record.row intentId ∈ db'.attempts := by
  induction writes generalizing db with
  | nil => cases member
  | cons write rest inductionHypothesis =>
      rw [List.foldlM_cons, bind_eq_ok] at success
      obtain ⟨next, stepped, folded⟩ := success
      rcases List.mem_cons.mp member with rfl | later
      · obtain ⟨intentId, -, -, moved⟩ := persistAttempt_eq_ok.mp stepped
        have stored : record.row intentId ∈ next.attempts := by
          split at moved
          · exact moved ▸ List.mem_append_right _ (List.mem_singleton.mpr rfl)
          · rcases transitionExecutionSafe_shape moved with rfl | rfl <;>
              exact List.mem_append_right _ (List.mem_singleton.mpr rfl)
        exact ⟨intentId, (of_foldlM folded).attemptsKept _ stored⟩
      · exact inductionHypothesis folded later

/-- The row of every written receipt is stored. -/
theorem receipts_stored {now : Time} {db' : Db}
    (success : writes.foldlM (fun db write => FactWrite.run now write db) db = .ok db')
    {record : ReceiptRecord} (member : FactWrite.receipt record ∈ writes) :
    ∃ chainId attemptId txHash blockNumber blockHash,
      record.row chainId attemptId txHash blockNumber blockHash ∈ db'.receipts := by
  induction writes generalizing db with
  | nil => cases member
  | cons write rest inductionHypothesis =>
      rw [List.foldlM_cons, bind_eq_ok] at success
      obtain ⟨next, stepped, folded⟩ := success
      rcases List.mem_cons.mp member with rfl | later
      · obtain ⟨chainId, row, persistable, moved⟩ := persistReceipt_eq_ok.mp stepped
        obtain ⟨attempt, txHash, blockNumber, blockHash, -, -, -, -, -, -, rfl⟩ :=
          persistable.facts
        have stored : record.row chainId attempt.id txHash blockNumber blockHash ∈
            next.receipts := by
          rcases transitionExecutionSafe_shape moved with rfl | rfl <;>
            exact List.mem_append_right _ (List.mem_singleton.mpr rfl)
        exact ⟨chainId, attempt.id, txHash, blockNumber, blockHash,
          (of_foldlM folded).receiptsKept _ stored⟩
      · exact inductionHypothesis folded later

end FactsWritten

/-! ## The transaction as a whole -/

/-- The writes that record the facts of a change, in the order of
`persistDelta`. -/
def factWrites (previous next : BackendState) : List FactWrite :=
  (added AttemptRecord.id previous.attempts next.attempts).map FactWrite.attempt ++
    (added ReceiptRecord.id previous.receipts next.receipts).map FactWrite.receipt ++
    (next.reconciliations.drop previous.reconciliations.length).map FactWrite.reconciliation ++
    (changed previous.reservations next.reservations).map fun reservation =>
      FactWrite.reservation reservation
        (Table.lookup Reservation.id reservation.id previous.reservations)

/-- A transaction without new intents moves runs, records facts and notes
events. -/
theorem persistDelta_facts (fleetPolicy : Option FleetSpendPolicy) (now : Time) (db : Db)
    {previous next : BackendState} (sameIntents : next.intents = previous.intents) :
    persistDelta fleetPolicy now db previous next = (do
      let moved ← (changed previous.runs next.runs).foldlM
        (fun db run => persistRun db run (Table.lookup RunRecord.id run.id previous.runs)) db
      let recorded ← (factWrites previous next).foldlM
        (fun db write => FactWrite.run now write db) moved
      let noted ← (next.events.drop previous.events.length).foldlM persistEvent recorded
      return { noted with killed := noted.killed || (!previous.killed && next.killed) }) := by
  unfold persistDelta factWrites
  rw [sameIntents, added_self]
  simp only [List.foldlM_nil, List.foldlM_append, List.foldlM_map, pure_bind, bind_assoc,
    FactWrite.run]

/-! ## When the transaction commits -/

/-- Write the state of a run. -/
def Db.moveRun (db : Db) (run : RunRecord) : Db :=
  { db with
    runs := Table.update ExecutionRunRow.id run.id
      (fun row => { row with state := dbRunState run.state }) db.runs }

/-- The database after the runs of a change are written. -/
def moveRuns (previous next : List RunRecord) (db : Db) : Db :=
  (changed previous next).foldl (fun db run =>
    if (Table.lookup RunRecord.id run.id previous).map RunRecord.state = some run.state then db
    else db.moveRun run) db

/-- Every run of the next list has a previous version. -/
def RunsKnown (previous next : List RunRecord) : Prop :=
  ∀ run ∈ next, ∃ prior ∈ previous, prior.id = run.id

theorem persistRuns_eq_ok {previous next : List RunRecord} (known : RunsKnown previous next)
    (db : Db) :
    (changed previous next).foldlM
        (fun db run => persistRun db run (Table.lookup RunRecord.id run.id previous)) db =
      .ok (moveRuns previous next db) := by
  have each : ∀ runs : List RunRecord, (∀ run ∈ runs, ∃ prior ∈ previous, prior.id = run.id) →
      ∀ db, runs.foldlM (fun db run =>
          persistRun db run (Table.lookup RunRecord.id run.id previous)) db =
        .ok (runs.foldl (fun db run =>
          if (Table.lookup RunRecord.id run.id previous).map RunRecord.state = some run.state
          then db else db.moveRun run) db) := by
    intro runs
    induction runs with
    | nil => exact fun _ _ => rfl
    | cons run rest inductionHypothesis =>
        intro all db
        obtain ⟨other, otherMember, named⟩ := all run (by simp)
        cases found : Table.lookup RunRecord.id run.id previous with
        | none => exact absurd named (Table.lookup_eq_none.mp found other otherMember)
        | some prior =>
            rw [List.foldlM_cons, List.foldl_cons, found]
            have written : persistRun db run (some prior) =
                .ok (if prior.state = run.state then db else db.moveRun run) := by
              unfold persistRun
              by_cases same : prior.state = run.state
              · simp only [if_pos same]
              · simp only [if_neg same]
                rfl
            rw [written]
            simp only [Option.map_some, Option.some.injEq]
            exact inductionHypothesis (fun run member => all run (by simp [member])) _
  exact each _ (fun run member => known run (List.mem_filter.mp member).1) db

theorem persistEvents_eq_ok {db db' : Db} {events : List EventRecord} :
    events.foldlM persistEvent db = .ok db' ↔
      (∀ event ∈ events, ∀ id ∈ event.runId, db.run id ≠ none) ∧
        { db with events := db.events ++ events } = db' := by
  induction events generalizing db with
  | nil => simp [pure_eq_ok]
  | cons event rest inductionHypothesis =>
      simp only [List.foldlM_cons, bind_eq_ok, persistEvent_eq_ok, inductionHypothesis]
      constructor
      · rintro ⟨_, ⟨known, rfl⟩, others, rfl⟩
        refine ⟨?_, by simp⟩
        rw [List.forall_mem_cons]
        exact ⟨known, others⟩
      · rintro ⟨known, rfl⟩
        rw [List.forall_mem_cons] at known
        exact ⟨_, ⟨known.1, rfl⟩, known.2, by simp⟩

/-- A change without new runs and intents commits exactly when every fact is
accepted when its turn comes. -/
theorem persistDelta_commits_iff (fleetPolicy : Option FleetSpendPolicy) (now : Time) (db : Db)
    {previous next : BackendState} (sameIntents : next.intents = previous.intents)
    (runsKnown : RunsKnown previous.runs next.runs)
    (eventsKnown : ∀ event ∈ next.events.drop previous.events.length, ∀ id ∈ event.runId,
      (moveRuns previous.runs next.runs db).run id ≠ none) :
    (∃ db', persistDelta fleetPolicy now db previous next = .ok db') ↔
      Machine.Allowed (FactWrite.run now) (fun db write => write.Accepted db)
        (moveRuns previous.runs next.runs db) (factWrites previous next) := by
  rw [persistDelta_facts fleetPolicy now db sameIntents, persistRuns_eq_ok runsKnown db,
    ← Machine.foldlM_succeeds_iff fun _ _ => FactWrite.run_succeeds_iff]
  constructor
  · rintro ⟨db', success⟩
    rw [bind_eq_ok] at success
    obtain ⟨moved, same, recording⟩ := success
    obtain rfl := Except.ok.inj same
    obtain ⟨recorded, recording, -⟩ := bind_eq_ok.mp recording
    exact ⟨recorded, recording⟩
  · rintro ⟨recorded, recording⟩
    have sameRuns := (FactsWritten.of_foldlM recording).runs
    refine ⟨_, bind_eq_ok.mpr ⟨_, rfl, bind_eq_ok.mpr ⟨recorded, recording,
      bind_eq_ok.mpr ⟨_, persistEvents_eq_ok.mpr ⟨?_, rfl⟩, rfl⟩⟩⟩⟩
    intro event member id named
    have known := eventsKnown event member id named
    unfold Db.run at known ⊢
    rwa [sameRuns]

/-- What a committed change without new runs and intents did. -/
theorem persistDelta_effect {fleetPolicy : Option FleetSpendPolicy} {now : Time} {db db' : Db}
    {previous next : BackendState} (sameIntents : next.intents = previous.intents)
    (runsKnown : RunsKnown previous.runs next.runs)
    (success : persistDelta fleetPolicy now db previous next = .ok db') :
    ∃ recorded,
      (factWrites previous next).foldlM (fun db write => FactWrite.run now write db)
        (moveRuns previous.runs next.runs db) = .ok recorded ∧
      FactsWritten (factWrites previous next) (moveRuns previous.runs next.runs db) recorded ∧
      db' =
        { recorded with
          events := recorded.events ++ next.events.drop previous.events.length
          killed := recorded.killed || (!previous.killed && next.killed) } := by
  rw [persistDelta_facts fleetPolicy now db sameIntents, persistRuns_eq_ok runsKnown db] at success
  simp only [bind_eq_ok, persistEvents_eq_ok, pure_eq_ok] at success
  obtain ⟨moved, same, recorded, recording, noted, ⟨-, rfl⟩, rfl⟩ := success
  obtain rfl := Except.ok.inj same
  exact ⟨recorded, recording, FactsWritten.of_foldlM recording, rfl⟩

/-! ## Moving one run -/

/-- Rewriting one row of a table with distinct keys changes that row only. -/
theorem changed_update {α κ : Type} [DecidableEq α] [DecidableEq κ] {key : α → κ} {rows : List α}
    (distinct : (rows.map key).Nodup) {row : α} (member : row ∈ rows) (new : α)
    (sameKey : key new = key row) :
    changed rows (Table.update key (key row) (fun _ => new) rows) =
      if new = row then [] else [new] := by
  obtain ⟨before, after, rfl⟩ := List.append_of_mem member
  simp only [List.map_append, List.map_cons, List.nodup_append, List.nodup_cons,
    List.mem_cons, List.mem_map] at distinct
  obtain ⟨-, ⟨notAfter, -⟩, apart⟩ := distinct
  have keptBefore : ∀ other ∈ before, key other ≠ key row := fun other otherMember same =>
    apart (key other) ⟨other, otherMember, rfl⟩ (key row) (Or.inl rfl) same
  have keptAfter : ∀ other ∈ after, key other ≠ key row := fun other otherMember same =>
    notAfter ⟨other, otherMember, same⟩
  have updated : Table.update key (key row) (fun _ => new) (before ++ row :: after) =
      before ++ new :: after := by
    have first := Table.update_of_absent keptBefore fun _ => new
    have last := Table.update_of_absent keptAfter fun _ => new
    unfold Table.update at first last ⊢
    rw [List.map_append, List.map_cons, if_pos rfl, first, last]
  have stored : new ∈ before ++ row :: after ↔ new = row := by
    rw [List.mem_append, List.mem_cons]
    constructor
    · rintro (old | same | old)
      · exact absurd sameKey (keptBefore new old)
      · exact same
      · exact absurd sameKey (keptAfter new old)
    · exact fun same => Or.inr (Or.inl same)
  have oldBefore : before.filter (fun item => item ∉ before ++ row :: after) = [] := by
    simp only [List.filter_eq_nil_iff, decide_eq_true_eq, not_not]
    exact fun item old => List.mem_append_left _ old
  have oldAfter : after.filter (fun item => item ∉ before ++ row :: after) = [] := by
    simp only [List.filter_eq_nil_iff, decide_eq_true_eq, not_not]
    exact fun item old => List.mem_append_right _ (List.mem_cons_of_mem _ old)
  unfold changed
  rw [updated, List.filter_append, oldBefore, List.nil_append]
  by_cases same : new = row
  · have kept := stored.mpr same
    rw [if_pos same, List.filter_cons, if_neg (by simpa only [decide_eq_true_eq, not_not]), oldAfter]
  · have differs := mt stored.mp same
    rw [if_neg same, List.filter_cons, if_pos (by simpa only [decide_eq_true_eq]), oldAfter]

/-- The state that a run is read back in. -/
theorem backendRunState_dbRunState {state : CampaignState}
    (kept : state = .armed ∨ state = .active ∨ state = .completed ∨ state = .failed ∨
      state = .aborted ∨ state = .cancelled) : backendRunState (dbRunState state) = state := by
  rcases kept with rfl | rfl | rfl | rfl | rfl | rfl <;> rfl

/-- Moving one run writes its state, and nothing when it has that state already. -/
theorem moveRuns_update {db : Db} (distinct : (db.runs.map ExecutionRunRow.id).Nodup)
    {prior : RunRecord} (found : prior ∈ db.readRuns) (state : CampaignState) :
    moveRuns db.readRuns
        (Table.update RunRecord.id prior.id (fun _ => { prior with state := state }) db.readRuns)
        db =
      if prior.state = state then db else db.moveRun { prior with state := state } := by
  have ids : db.readRuns.map RunRecord.id = db.runs.map ExecutionRunRow.id := by
    rw [Db.readRuns, List.map_map]
    rfl
  have distinctRead : (db.readRuns.map RunRecord.id).Nodup := ids ▸ distinct
  unfold moveRuns
  rw [changed_update distinctRead found { prior with state := state } rfl]
  by_cases same : prior.state = state
  · subst same
    simp
  · have differ : ({ prior with state := state } : RunRecord) ≠ prior := by
      intro equal
      exact same (congrArg RunRecord.state equal).symm
    have lookup : Table.lookup RunRecord.id prior.id db.readRuns = some prior :=
      Table.lookup_of_mem distinctRead found
    rw [if_neg differ, List.foldl_cons, List.foldl_nil, lookup]
    simp [same]

end MintBot
