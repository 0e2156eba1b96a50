import MintBot.Store.Operation

/-!
# Executions and their runs

Executions are made by admission only, under an id that names their run, and
every other operation leaves the ids and the runs of the executions as they
are.  The kill switch is left as it was as well, or it is engaged.
-/

namespace MintBot

open Fallible

/-- The executions with the runs that own them. -/
def Db.owners (db : Db) : List (ExecutionId × RunId) :=
  db.executions.map fun row => (row.id, row.runId)

theorem Db.owners_setExecutionState (db : Db) (id : ExecutionId) (state : LifecycleState) :
    (db.setExecutionState id state).owners = db.owners := by
  unfold Db.owners Db.setExecutionState Table.update
  rw [List.map_map]
  refine List.map_congr_left fun row _ => ?_
  by_cases named : row.id = id <;> simp [named]

/-- The executions and the kill switch are as before. -/
structure Db.Kept (db db' : Db) : Prop where
  owners : db'.owners = db.owners
  killed : db'.killed = db.killed

theorem Db.Kept.rfl {db : Db} : db.Kept db :=
  ⟨Eq.refl _, Eq.refl _⟩

theorem Db.Kept.trans {db mid db' : Db} (first : db.Kept mid) (second : mid.Kept db') :
    db.Kept db' :=
  ⟨second.owners.trans first.owners, second.killed.trans first.killed⟩

theorem Db.kept_setExecutionState (db : Db) (id : ExecutionId) (state : LifecycleState) :
    db.Kept (db.setExecutionState id state) :=
  ⟨db.owners_setExecutionState id state, rfl⟩

theorem foldlM_kept {β : Type} {step : Db → β → Except Error Db} {items : List β}
    (each : ∀ db, ∀ item ∈ items, ∀ db', step db item = .ok db' → db.Kept db')
    {db db' : Db} (success : items.foldlM step db = .ok db') : db.Kept db' :=
  foldlM_invariant (I := fun state => db.Kept state)
    (fun state item member next kept stepped => kept.trans (each state item member next stepped))
    .rfl success

/-! ## Writes of a transaction -/

theorem transitionExecutionSafe_kept {db db' : Db} {id : ExecutionId} {target : LifecycleState}
    (success : transitionExecutionSafe db id target = .ok db') : db.Kept db' := by
  rcases transitionExecutionSafe_shape success with rfl | rfl
  · exact .rfl
  · exact db.kept_setExecutionState id target

theorem persistAttempt_kept {db db' : Db} {attempt : AttemptRecord}
    (success : persistAttempt db attempt = .ok db') : db.Kept db' := by
  obtain ⟨intentId, -, -, moved⟩ := persistAttempt_eq_ok.mp success
  split at moved
  · exact moved ▸ ⟨rfl, rfl⟩
  · have same := transitionExecutionSafe_kept moved
    exact ⟨same.owners, same.killed⟩

theorem persistReceipt_kept {db db' : Db} {receipt : ReceiptRecord}
    (success : persistReceipt db receipt = .ok db') : db.Kept db' := by
  obtain ⟨chainId, row, -, moved⟩ := persistReceipt_eq_ok.mp success
  have same := transitionExecutionSafe_kept moved
  exact ⟨same.owners, same.killed⟩

theorem persistReconciliation_kept {db db' : Db} {record : ReconciliationRecord}
    (success : persistReconciliation db record = .ok db') : db.Kept db' := by
  rcases persistReconciliation_shape success with rfl | ⟨row, -, rfl⟩ <;> exact ⟨rfl, rfl⟩

theorem persistReservation_kept {db db' : Db} {now : Time} {next : Reservation}
    {prior : Option Reservation} (success : persistReservation db now next prior = .ok db') :
    db.Kept db' := by
  rcases persistReservation_shape success with rfl | ⟨-, -, -, rfl⟩ | ⟨-, rfl⟩ <;>
    exact ⟨rfl, rfl⟩

theorem persistRun_kept {db db' : Db} {run : RunRecord} {prior : Option RunRecord}
    (success : persistRun db run prior = .ok db') : db.Kept db' := by
  unfold persistRun at success
  split at success
  · simp only [bind_eq_ok, pure_eq_ok] at success
    rcases success with ⟨⟨⟩, -, rfl⟩
    exact ⟨rfl, rfl⟩
  · split at success <;> exact Except.ok.inj success ▸ ⟨rfl, rfl⟩

theorem persistIntent_kept {fleetPolicy : Option FleetSpendPolicy} {now : Time} {db db' : Db}
    {intent : IntentRecord} (success : persistIntent fleetPolicy now db intent = .ok db') :
    db.Kept db' := by
  obtain ⟨feePolicies, intents, rfl⟩ := persistIntent_shape success
  exact ⟨rfl, rfl⟩

theorem persistEvent_kept {db db' : Db} {event : EventRecord}
    (success : persistEvent db event = .ok db') : db.Kept db' := by
  obtain ⟨-, rfl⟩ := persistEvent_eq_ok.mp success
  exact ⟨rfl, rfl⟩

/-- A transaction engages the kill switch when its mutation does. -/
theorem persistDelta_kept {fleetPolicy : Option FleetSpendPolicy} {now : Time} {db db' : Db}
    {previous next : BackendState}
    (success : persistDelta fleetPolicy now db previous next = .ok db') :
    db'.owners = db.owners ∧ db'.killed = (db.killed || (!previous.killed && next.killed)) := by
  simp only [persistDelta, bind_eq_ok, pure_eq_ok] at success
  rcases success with ⟨runs, runsDone, intents, intentsDone, attempts, attemptsDone, receipts,
    receiptsDone, reconciliations, reconciliationsDone, reservations, reservationsDone, events,
    eventsDone, rfl⟩
  have afterRuns := foldlM_kept (fun _ _ _ _ => persistRun_kept) runsDone
  have afterIntents := foldlM_kept (fun _ _ _ _ => persistIntent_kept) intentsDone
  have afterAttempts := foldlM_kept (fun _ _ _ _ => persistAttempt_kept) attemptsDone
  have afterReceipts := foldlM_kept (fun _ _ _ _ => persistReceipt_kept) receiptsDone
  have afterReconciliations :=
    foldlM_kept (fun _ _ _ _ => persistReconciliation_kept) reconciliationsDone
  have afterReservations :=
    foldlM_kept (fun _ _ _ _ => persistReservation_kept) reservationsDone
  have afterEvents := foldlM_kept (fun _ _ _ _ => persistEvent_kept) eventsDone
  have kept : db.Kept events :=
    (((((afterRuns.trans afterIntents).trans afterAttempts).trans afterReceipts).trans
      afterReconciliations).trans afterReservations).trans afterEvents
  exact ⟨kept.owners, congrArg (· || (!previous.killed && next.killed)) kept.killed⟩

theorem transaction_kept {fleetPolicy : Option FleetSpendPolicy} {now : Time} {db db' : Db}
    {mutate : BackendState → Except Error BackendState}
    (success : transaction fleetPolicy now db mutate = .ok db') :
    db'.owners = db.owners ∧ (db.killed = true → db'.killed = true) := by
  obtain ⟨next, -, persisted⟩ := bind_eq_ok.mp success
  obtain ⟨owners, killed⟩ := persistDelta_kept persisted
  refine ⟨owners, fun engaged => ?_⟩
  rw [killed, engaged, Bool.true_or]

/-! ## The other operations -/

theorem persistEngineReceipt_kept {fleetPolicy : Option FleetSpendPolicy} {db db' : Db}
    {now : Time} {input : EngineReceipt}
    (success : persistEngineReceipt fleetPolicy db now input = .ok db') :
    db'.owners = db.owners ∧ (db.killed = true → db'.killed = true) := by
  simp only [persistEngineReceipt, bind_eq_ok] at success
  rcases success with ⟨identity, -, written⟩
  split at written
  · have same := persistEvent_kept written
    exact ⟨same.owners, fun engaged => same.killed.trans engaged⟩
  · simp only [bind_eq_ok] at written
    rcases written with ⟨⟨⟩, -, attemptHash, -, ⟨⟩, -, persisted⟩
    split at persisted
    · exact pure_eq_ok.mp persisted ▸ ⟨rfl, id⟩
    · obtain ⟨owners, killed⟩ := persistDelta_kept persisted
      refine ⟨owners, fun engaged => ?_⟩
      rw [killed]
      exact Bool.or_eq_true_iff.mpr (.inl engaged)

theorem settleReservationTotal_kept {db db' : Db} {now : Time} {id : ReservationId}
    {actualAmountWei : Wei}
    (success : settleReservationTotal db now id actualAmountWei = .ok db') :
    db.Kept db' := by
  unfold settleReservationTotal at success
  split at success
  · exact Except.ok.inj success ▸ .rfl
  · split at success
    · exact Except.ok.inj success ▸ .rfl
    · simp only [bind_eq_ok, pure_eq_ok] at success
      rcases success with ⟨⟨⟩, -, ⟨⟩, -, rfl⟩
      exact ⟨rfl, rfl⟩

theorem settleExecutionComponents_kept {db db' : Db} {now : Time} {id : ReservationId}
    {components : SettlementComponents}
    (success : settleExecutionComponents db now id components = .ok db') :
    db.Kept db' := by
  simp only [settleExecutionComponents, bind_eq_ok] at success
  rcases success with ⟨row, -, settled⟩
  split at settled
  · exact pure_eq_ok.mp settled ▸ .rfl
  · simp only [bind_eq_ok, pure_eq_ok] at settled
    rcases settled with ⟨⟨⟩, -, ⟨⟩, -, ⟨⟩, -, ⟨⟩, -, ⟨⟩, -, ⟨⟩, -, ⟨⟩, -, rfl⟩
    exact ⟨rfl, rfl⟩

theorem transitionReservation_kept {db db' : Db} {id : ReservationId}
    {status : ReservationStatus} (success : transitionReservation db id status = .ok db') :
    db.Kept db' := by
  simp only [transitionReservation, bind_eq_ok, pure_eq_ok] at success
  rcases success with ⟨row, -, ⟨⟩, -, ⟨⟩, -, rfl⟩
  exact ⟨rfl, rfl⟩

theorem abortExecution_kept {db db' : Db} {row : ExecutionRow}
    (success : abortExecution db row = .ok db') : db.Kept db' := by
  simp only [abortExecution, bind_eq_ok, pure_eq_ok] at success
  rcases success with ⟨moved, aborting, rfl⟩
  rcases moveToAborted_shape aborting with rfl | rfl
  · exact ⟨rfl, rfl⟩
  · exact ⟨db.owners_setExecutionState row.id .aborted, rfl⟩

theorem abortRemaining_kept {db db' : Db} (success : abortRemaining db = .ok db') :
    db.Kept db' := by
  simp only [abortRemaining, bind_eq_ok] at success
  rcases success with ⟨released, aborted, noted⟩
  have afterRows := foldlM_kept (fun _ _ _ _ => abortExecution_kept) aborted
  have same := persistEvent_kept noted
  exact ⟨same.owners.trans afterRows.owners, same.killed.trans afterRows.killed⟩

theorem abortRunIfUnsent_kept {db db' : Db} {runId : RunId} {outcome : CloseOutcome}
    (success : abortRunIfUnsent db runId = .ok (db', outcome)) : db.Kept db' := by
  unfold abortRunIfUnsent at success
  split at success
  · cases success
    exact .rfl
  · dsimp only at success
    split at success
    · cases success
      exact .rfl
    · simp only [bind_eq_ok, pure_eq_ok, Prod.mk.injEq] at success
      rcases success with ⟨released, aborted, closed, noted, rfl, -⟩
      have afterRows := foldlM_kept (fun _ _ _ _ => abortExecution_kept) aborted
      have same := persistEvent_kept noted
      exact ⟨same.owners.trans afterRows.owners, same.killed.trans afterRows.killed⟩

/-! ## Admission -/

theorem linkReservation_owners {db db' : Db} {executionId : ExecutionId}
    {reservationId : ReservationId}
    (success : linkReservation db executionId reservationId = .ok db') :
    db'.owners = db.owners := by
  rcases linkReservation_shape success with rfl | rfl
  · rfl
  · unfold Db.owners Table.update
    rw [List.map_map]
    refine List.map_congr_left fun row _ => ?_
    by_cases named : row.id = executionId <;> simp [named, ExecutionRow.link]

/-- A wallet is admitted to an execution of its run, which is made unless it is
there. -/
theorem admitWallet_owners {context : AdmissionContext} {wallet : String}
    {progress next : AdmissionProgress}
    (success : admitWallet context progress wallet = .ok next) :
    next.db.owners =
      if progress.db.execution ⟨context.input.run.id, toLowerCase wallet⟩ = none then
        progress.db.owners ++
          [(⟨context.input.run.id, toLowerCase wallet⟩, context.input.run.id)]
      else progress.db.owners := by
  simp only [admitWallet, bind_eq_ok, pure_eq_ok] at success
  rcases success with ⟨walletId, -, ⟨⟩, -, ⟨⟩, -, prepared, ensured, reserved, reserving,
    linked, linking, rfl⟩
  have sameReserved : reserved.db.owners = prepared.owners := by
    unfold reserveUnlessHeld at reserving
    split at reserving
    · obtain ⟨row, -, -, rfl⟩ := reserveWallet_admits reserving
      rfl
    · obtain rfl := Except.ok.inj reserving
      rfl
  refine ((linkReservation_owners linking).trans sameReserved).trans ?_
  unfold ensureExecution at ensured
  split at ensured
  · rename_i present
    rw [if_neg present]
    exact Except.ok.inj ensured ▸ rfl
  · rename_i absent
    rw [if_pos (not_not.mp absent)]
    rcases saveExecution_eq_ok.mp ensured with ⟨-, -, -, rfl⟩
    exact List.map_append

/-- Executions of an admission are added behind the others, each owned by the
run that its id names. -/
theorem admitExecution_owners {fleetPolicy : Option FleetSpendPolicy} {db db' : Db} {now : Time}
    {input : CanonicalAdmissionInput} {result : CanonicalAdmissionResult}
    (success : admitExecution fleetPolicy db now input = .ok (db', result)) :
    ∃ made, db'.owners = db.owners ++ made ∧
      ∀ owner ∈ made, owner.1.runId = input.run.id ∧ owner.2 = input.run.id := by
  rcases admitExecution_eq_ok.mp success with
    ⟨begun, admitted, -, started, -, looped, activated, -⟩
  obtain ⟨watermark, feePolicies, intents, rfl⟩ := beginAdmission_shape started
  obtain ⟨-, rfl⟩ := activateRun_eq_ok.mp activated
  refine foldlM_invariant (I := fun progress : AdmissionProgress =>
    ∃ made, progress.db.owners = db.owners ++ made ∧
      ∀ owner ∈ made, owner.1.runId = input.run.id ∧ owner.2 = input.run.id)
    ?_ ⟨[], by simp; rfl, by simp⟩ looped
  rintro progress wallet - next ⟨made, appended, named⟩ stepped
  rw [admitWallet_owners stepped]
  split
  · refine ⟨made ++ [(⟨input.run.id, toLowerCase wallet⟩, input.run.id)], ?_, ?_⟩
    · rw [appended, List.append_assoc]
      rfl
    · intro owner member
      rcases List.mem_append.mp member with old | new
      · exact named owner old
      · rw [List.mem_singleton.mp new]
        exact ⟨rfl, rfl⟩
  · exact ⟨made, appended, named⟩

/-! ## Steps -/

/-- An operation is an admission, sets the kill switch, or keeps the executions with their
runs and an engaged kill switch. -/
theorem step_kept {fleetPolicy : Option FleetSpendPolicy} {op : StoreOp} {db db' : Db}
    (success : op.step fleetPolicy db = .ok db') :
    (∃ now input, op = .admission now input) ∨
      (∃ engaged, op = .setKillSwitch engaged ∧ db' = setKillSwitch db engaged) ∨
      (db'.owners = db.owners ∧ (db.killed = true → db'.killed = true)) := by
  have kept (same : db.Kept db') :
      db'.owners = db.owners ∧ (db.killed = true → db'.killed = true) :=
    ⟨same.owners, same.killed.trans⟩
  cases op with
  | admission now input => exact .inl ⟨now, input, rfl⟩
  | attempt now input =>
      obtain ⟨identity, -, persisted⟩ := bind_eq_ok.mp success
      exact .inr (.inr (transaction_kept persisted))
  | receipt now input => exact .inr (.inr (persistEngineReceipt_kept success))
  | transact now mutate => exact .inr (.inr (transaction_kept success))
  | settleComponents now id components =>
      exact .inr (.inr (kept (settleExecutionComponents_kept success)))
  | settleTotal now id actualAmountWei =>
      exact .inr (.inr (kept (settleReservationTotal_kept success)))
  | transitionReservation id status =>
      exact .inr (.inr (kept (transitionReservation_kept success)))
  | abortRemaining => exact .inr (.inr (kept (abortRemaining_kept success)))
  | abortRunIfUnsent runId =>
      obtain ⟨outcome, closed⟩ := StoreOp.map_fst_eq_ok.mp success
      exact .inr (.inr (kept (abortRunIfUnsent_kept closed)))
  | setKillSwitch engaged => exact .inr (.inl ⟨engaged, rfl, (Except.ok.inj success).symm⟩)

/-- Every operation keeps the executions and their runs, and an admission adds
executions of its run. -/
theorem step_owners {fleetPolicy : Option FleetSpendPolicy} {op : StoreOp} {db db' : Db}
    (success : op.step fleetPolicy db = .ok db') :
    ∃ made, db'.owners = db.owners ++ made ∧ ∀ owner ∈ made, owner.1.runId = owner.2 := by
  rcases step_kept success with ⟨now, input, rfl⟩ | ⟨engaged, -, rfl⟩ | ⟨same, -⟩
  · obtain ⟨result, admitted⟩ := StoreOp.map_fst_eq_ok.mp success
    obtain ⟨made, appended, named⟩ := admitExecution_owners admitted
    exact ⟨made, appended, fun owner member =>
      (named owner member).1.trans (named owner member).2.symm⟩
  · exact ⟨[], (List.append_nil _).symm, fun _ member => nomatch member⟩
  · exact ⟨[], by rw [same, List.append_nil], fun _ member => nomatch member⟩

/-- The run of an execution is found among the owners. -/
theorem Db.execution_run (db : Db) (id : ExecutionId) :
    (db.execution id).map ExecutionRow.runId = (Table.lookup Prod.fst id db.owners).map Prod.snd := by
  unfold Db.execution Db.owners Table.lookup
  rw [List.find?_map, Option.map_map]
  rfl

end MintBot
