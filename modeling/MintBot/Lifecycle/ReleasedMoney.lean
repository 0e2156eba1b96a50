import MintBot.Store.Operation

/-!
# Released money and sent transactions

The two abort operations release reservations after looking for attempts, while
an engine in flight may record attempts at any time.  An aborted execution
accepts a late attempt without moving.  Runs in which no such late attempt is
recorded, and in which every possibly sent execution shows a hash before money
is released, keep released money away from possibly sent transactions.
-/

namespace MintBot

open Fallible Machine

/-- Attempt states behind which a transaction may have been sent. -/
def PossiblySent (state : ExecutionState) : Prop :=
  state = .submitted ∨ state = .pending

instance (state : ExecutionState) : Decidable (PossiblySent state) := by
  unfold PossiblySent
  infer_instance

instance (db : Db) (id : ExecutionId) : Decidable (db.Aborted id) :=
  decidable_of_iff (∃ row ∈ db.execution id, row.state = .aborted) (by simp [Db.Aborted])

/-! ## What aborting rows does -/

theorem transitionExecution_arrives {db db' : Db} {id : ExecutionId} {state : LifecycleState}
    {row : ExecutionRow} (found : db.execution id = some row)
    (success : transitionExecution db id state = .ok db') :
    ∃ row', db'.execution id = some row' ∧ row'.state = state := by
  simp only [transitionExecution, found] at success
  split at success
  · obtain rfl := Except.ok.inj success
    exact ⟨row, found, ‹_›⟩
  · rcases repositoryTransitionExecution_eq_ok.mp success with ⟨-, -, -, rfl⟩
    rw [execution_setExecutionState_self, found]
    exact ⟨_, rfl, rfl⟩

theorem setExecutionState_aborted {db : Db} {id other : ExecutionId} (aborted : db.Aborted other) :
    (db.setExecutionState id .aborted).Aborted other := by
  obtain ⟨row, found, state⟩ := aborted
  by_cases same : other = id
  · subst same
    refine ⟨{ row with state := .aborted }, ?_, rfl⟩
    rw [execution_setExecutionState_self, found, Option.map_some]
  · exact ⟨row, (execution_setExecutionState_other db same .aborted).trans found, state⟩

/-- Moving a row that was read from an earlier database aborts it now. -/
theorem moveToAborted_arrives {db db' : Db} {row current : ExecutionRow}
    (found : db.execution row.id = some current)
    (already : row.state = .aborted → db.Aborted row.id)
    (success : moveToAborted db row = .ok db') : db'.Aborted row.id := by
  unfold moveToAborted at success
  split at success
  · exact transitionExecution_arrives found success
  · rename_i wasAborted
    obtain rfl := Except.ok.inj success
    exact already (not_not.mp wasAborted)

/-- The effect of aborting some rows: attempts are untouched, aborted executions
stay so, and every newly released reservation belongs to an aborted row. -/
structure AbortedRows (start : Db) (rows : List ExecutionRow) (db : Db) : Prop where
  attempts : db.attempts = start.attempts
  ids : db.executions.map ExecutionRow.id = start.executions.map ExecutionRow.id
  aborted : ∀ id, start.Aborted id → db.Aborted id
  released : ∀ reservation ∈ db.reservations, reservation.status = .released →
    (∃ old ∈ start.reservations, old.status = .released ∧
      old.executionId = reservation.executionId) ∨
    ∃ row ∈ rows, row.id = reservation.executionId ∧ db.Aborted row.id

theorem AbortedRows.start (db : Db) (rows : List ExecutionRow) : AbortedRows db rows db where
  attempts := rfl
  ids := rfl
  aborted _ aborted := aborted
  released reservation member released := Or.inl ⟨reservation, member, released, rfl⟩

/-- Moving an execution to `aborted` keeps the effect and aborts it. -/
theorem AbortedRows.abort {start db db' : Db} {rows : List ExecutionRow} {row : ExecutionRow}
    (effect : AbortedRows start rows db) (member : row ∈ rows) (inStart : row ∈ start.executions)
    (distinct : (start.executions.map ExecutionRow.id).Nodup)
    (success : abortExecution db row = .ok db') : AbortedRows start rows db' := by
  have known : ∃ current, db.execution row.id = some current := by
    have named : row.id ∈ db.executions.map ExecutionRow.id :=
      effect.ids ▸ List.mem_map_of_mem inStart
    obtain ⟨current, currentMember, sameId⟩ := List.mem_map.mp named
    refine ⟨current, sameId ▸ Table.lookup_of_mem ?_ currentMember⟩
    rw [effect.ids]
    exact distinct
  obtain ⟨current, found⟩ := known
  simp only [abortExecution, bind_eq_ok, pure_eq_ok] at success
  rcases success with ⟨moved, aborting, rfl⟩
  have rowAborted : moved.Aborted row.id := by
    refine moveToAborted_arrives found (fun state => effect.aborted row.id ?_) aborting
    exact ⟨row, Table.lookup_of_mem distinct inStart, state⟩
  have sameAttempts : moved.attempts = db.attempts := by
    rcases moveToAborted_shape aborting with rfl | rfl <;> rfl
  have sameReservations : moved.reservations = db.reservations := by
    rcases moveToAborted_shape aborting with rfl | rfl <;> rfl
  have sameIds : moved.executions.map ExecutionRow.id = db.executions.map ExecutionRow.id := by
    rcases moveToAborted_shape aborting with rfl | rfl
    · rfl
    · exact executionIds_setExecutionState db row.id .aborted
  have stillAborted : ∀ id, db.Aborted id → moved.Aborted id := by
    intro id aborted
    rcases moveToAborted_shape aborting with rfl | rfl
    · exact aborted
    · exact setExecutionState_aborted aborted
  constructor
  · exact sameAttempts.trans effect.attempts
  · exact sameIds.trans effect.ids
  · exact fun id aborted => stillAborted id (effect.aborted id aborted)
  · intro reservation reservationMember released
    have before : ∀ old ∈ moved.reservations, old.status = .released →
        (∃ first ∈ start.reservations, first.status = .released ∧
          first.executionId = old.executionId) ∨
        ∃ other ∈ rows, other.id = old.executionId ∧ moved.Aborted other.id := by
      intro old oldMember oldReleased
      rw [sameReservations] at oldMember
      rcases effect.released old oldMember oldReleased with early | ⟨other, inRows, named, aborted⟩
      · exact Or.inl early
      · exact Or.inr ⟨other, inRows, named, stillAborted other.id aborted⟩
    rcases Table.mem_update.mp reservationMember with
      ⟨unchanged, -⟩ | ⟨old, oldMember, named, rfl⟩
    · exact before reservation unchanged released
    · by_cases pending : old.status = .reserved
      · refine Or.inr ⟨row, member, ?_, rowAborted⟩
        simp [SpendReservationRow.release, SpendReservationRow.close, pending, named]
      · have unchanged : old.release = old := by
          simp [SpendReservationRow.release, SpendReservationRow.close, pending]
        rw [unchanged] at released ⊢
        exact before old oldMember released

theorem abortRows_effect {start db : Db} {rows : List ExecutionRow}
    (subset : ∀ row ∈ rows, row ∈ start.executions)
    (distinct : (start.executions.map ExecutionRow.id).Nodup)
    (success : rows.foldlM abortExecution start = .ok db) : AbortedRows start rows db :=
  foldlM_invariant (I := AbortedRows start rows)
    (fun _ row member _ effect stepped =>
      effect.abort member (subset row member) distinct stepped)
    (AbortedRows.start start rows) success

theorem abortRemaining_effect {db db' : Db}
    (distinct : (db.executions.map ExecutionRow.id).Nodup)
    (success : abortRemaining db = .ok db') :
    AbortedRows db (db.executions.filter fun row =>
      row.state ∈ abortableStates ∧ ¬ db.Submitted row.id) db' := by
  simp only [abortRemaining, bind_eq_ok, persistEvent_eq_ok] at success
  rcases success with ⟨released, aborted, -, rfl⟩
  have effect := abortRows_effect (fun row member => (List.mem_filter.mp member).1) distinct aborted
  exact ⟨effect.attempts, effect.ids, effect.aborted, effect.released⟩

/-- Closing an unsent run changes nothing, or aborts rows that were never
attempted. -/
theorem abortRunIfUnsent_effect {db db' : Db} {runId : RunId} {outcome : CloseOutcome}
    (distinct : (db.executions.map ExecutionRow.id).Nodup)
    (success : abortRunIfUnsent db runId = .ok (db', outcome)) :
    db' = db ∨ ∃ rows, (∀ row ∈ rows, row ∈ db.executions ∧ ¬ db.Attempted row) ∧
      AbortedRows db rows db' := by
  unfold abortRunIfUnsent at success
  split at success
  · cases success
    exact Or.inl rfl
  · dsimp only at success
    split at success
    · cases success
      exact Or.inl rfl
    · rename_i unsent
      simp only [bind_eq_ok, pure_eq_ok, Prod.mk.injEq, persistEvent_eq_ok] at success
      rcases success with ⟨released, aborted, closed, ⟨-, rfl⟩, rfl, -⟩
      refine Or.inr ⟨db.executions.filter fun row => row.runId = runId, ?_, ?_⟩
      · intro row member
        exact ⟨(List.mem_filter.mp member).1, fun attempted =>
          unsent ⟨row, member, Or.inl attempted⟩⟩
      · have effect :=
          abortRows_effect (fun row member => (List.mem_filter.mp member).1) distinct aborted
        exact ⟨effect.attempts, effect.ids, effect.aborted, effect.released⟩

/-! ## What recording an attempt does -/

/-- The effect of a recorded attempt: one row more, nothing released, and
aborted executions stay aborted. -/
structure AttemptRecorded (input : EngineAttempt) (db db' : Db) : Prop where
  fresh : ∀ attempt ∈ db.attempts, attempt.id ≠ input.id
  added : ∃ row, row.executionId = input.executionId ∧
    row.responseClass = input.responseClass.state ∧ db'.attempts = db.attempts ++ [row]
  reservations : db'.reservations = db.reservations
  ids : db'.executions.map ExecutionRow.id = db.executions.map ExecutionRow.id
  aborted : ∀ id, db.Aborted id → db'.Aborted id

theorem persistEngineAttempt_effect {fleetPolicy : Option FleetSpendPolicy} {db db' : Db}
    {now : Time} {input : EngineAttempt}
    (success : persistEngineAttempt fleetPolicy db now input = .ok db') :
    db' = db ∨ AttemptRecorded input db db' := by
  rcases persistEngineAttempt_eq_ok.mp success with
    ⟨identity, -, -, ⟨-, -, -, rfl⟩ | ⟨-, persisted⟩⟩
  · exact Or.inl rfl
  · obtain ⟨intentId, -, accepted, moved⟩ := persistAttempt_eq_ok.mp persisted
    refine Or.inr ?_
    split at moved
    · subst moved
      exact ⟨accepted.fresh, ⟨_, rfl, rfl, rfl⟩, rfl, rfl, fun _ aborted => aborted⟩
    · have shape := transitionExecutionSafe_shape moved
      constructor
      · exact accepted.fresh
      · exact ⟨_, rfl, rfl, by rcases shape with rfl | rfl <;> rfl⟩
      · exact persistAttempt_reservations persisted
      · rcases shape with rfl | rfl
        · rfl
        · exact executionIds_setExecutionState _ _ _
      · intro id aborted
        exact transitionExecutionSafe_aborted moved aborted

/-! ## Runs -/

/-- No released reservation has a possibly sent attempt behind it. -/
def ReleasedUnsent (db : Db) : Prop :=
  ∀ reservation ∈ db.reservations, reservation.status = .released →
    ∀ attempt ∈ db.attempts, attempt.executionId = reservation.executionId →
      ¬ PossiblySent attempt.responseClass

instance (db : Db) : Decidable (ReleasedUnsent db) := by
  unfold ReleasedUnsent
  infer_instance

/-- Admissions, engine attempts and the two abort operations. -/
def AbortRaceOp : StoreOp → Prop
  | .admission _ _ | .attempt _ _ | .abortRemaining | .abortRunIfUnsent _ => True
  | _ => False

instance (op : StoreOp) : Decidable (AbortRaceOp op) := by
  unfold AbortRaceOp
  cases op <;> infer_instance

/-- A possibly sent attempt is not recorded for an aborted execution, and
`abortRemaining` runs when every possibly sent execution it selects by state
shows a hash. -/
def AbortRaceStep (db : Db) : StoreOp → Prop
  | .admission _ _ | .abortRunIfUnsent _ => True
  | .attempt _ input =>
      (∀ attempt ∈ db.attempts, attempt.id ≠ input.id) →
        PossiblySent input.responseClass.state → ¬ db.Aborted input.executionId
  | .abortRemaining =>
      ∀ row ∈ db.executions, row.state ∈ abortableStates → ¬ db.Submitted row.id →
        ∀ attempt ∈ db.attempts, attempt.executionId = row.id → ¬ PossiblySent attempt.responseClass
  | _ => False

instance (db : Db) (op : StoreOp) : Decidable (AbortRaceStep db op) := by
  unfold AbortRaceStep
  cases op <;> infer_instance

/-- Released money belongs to aborted executions without a possibly sent
attempt. -/
structure ReleasedInvariant (db : Db) : Prop where
  distinct : (db.executions.map ExecutionRow.id).Nodup
  aborted : ∀ reservation ∈ db.reservations, reservation.status = .released →
    db.Aborted reservation.executionId
  unsent : ReleasedUnsent db

theorem ReleasedInvariant.admit {fleetPolicy : Option FleetSpendPolicy} {db db' : Db}
    {now : Time} {input : CanonicalAdmissionInput} {result : CanonicalAdmissionResult}
    (holds : ReleasedInvariant db)
    (success : admitExecution fleetPolicy db now input = .ok (db', result)) :
    ReleasedInvariant db' := by
  obtain ⟨extended, sameAttempts⟩ := admitExecution_extends success
  -- Admission puts reserved rows in front of the old ones.
  have releasedBefore : ∀ reservation ∈ db'.reservations, reservation.status = .released →
      reservation ∈ db.reservations := by
    refine admitExecution_reservations
      (I := fun rows => ∀ row ∈ rows, SpendReservationRow.status row = .released →
        row ∈ db.reservations) (fun _ member _ => member) ?_ success
    rintro rows row kept - - - admits other member released
    rcases List.mem_cons.mp member with rfl | member
    · obtain ⟨walletId, wallet, rfl⟩ := admits.made
      simp [reservationRow] at released
    · exact kept other member released
  constructor
  · exact extended.distinct holds.distinct
  · intro reservation member released
    exact extended.aborted
      (holds.aborted reservation (releasedBefore reservation member released) released)
  · intro reservation member released attempt attemptMember
    rw [sameAttempts] at attemptMember
    exact holds.unsent reservation (releasedBefore reservation member released) released attempt
      attemptMember

theorem ReleasedInvariant.attempt {input : EngineAttempt} {db db' : Db}
    (holds : ReleasedInvariant db) (recorded : AttemptRecorded input db db')
    (inTime : PossiblySent input.responseClass.state → ¬ db.Aborted input.executionId) :
    ReleasedInvariant db' := by
  obtain ⟨row, sameExecution, sameClass, appended⟩ := recorded.added
  constructor
  · rw [recorded.ids]
    exact holds.distinct
  · intro reservation member released
    rw [recorded.reservations] at member
    exact recorded.aborted _ (holds.aborted reservation member released)
  · intro reservation member released attempt attemptMember named sent
    rw [recorded.reservations] at member
    rw [appended, List.mem_append, List.mem_singleton] at attemptMember
    rcases attemptMember with old | rfl
    · exact holds.unsent reservation member released attempt old named sent
    · rw [sameClass] at sent
      refine inTime sent ?_
      rw [← sameExecution, named]
      exact holds.aborted reservation member released

theorem ReleasedInvariant.abortRows {db db' : Db} {rows : List ExecutionRow}
    (holds : ReleasedInvariant db) (effect : AbortedRows db rows db')
    (unsent : ∀ row ∈ rows, ∀ attempt ∈ db.attempts, attempt.executionId = row.id →
      ¬ PossiblySent attempt.responseClass) :
    ReleasedInvariant db' := by
  constructor
  · rw [effect.ids]
    exact holds.distinct
  · intro reservation member released
    rcases effect.released reservation member released with
      ⟨old, oldMember, oldReleased, named⟩ | ⟨row, -, named, aborted⟩
    · rw [← named]
      exact effect.aborted _ (holds.aborted old oldMember oldReleased)
    · rw [← named]
      exact aborted
  · intro reservation member released attempt attemptMember named
    rw [effect.attempts] at attemptMember
    rcases effect.released reservation member released with
      ⟨old, oldMember, oldReleased, sameExecution⟩ | ⟨row, inRows, sameExecution, -⟩
    · exact holds.unsent old oldMember oldReleased attempt attemptMember
        (named.trans sameExecution.symm)
    · exact unsent row inRows attempt attemptMember (named.trans sameExecution.symm)

/-- In every run whose attempts are in time and whose `abortRemaining` sees the
hashes, no released reservation has a possibly sent attempt behind it. -/
theorem released_unsent_of_run {fleetPolicy : Option FleetSpendPolicy} {start db : Db}
    (noExecutions : start.executions = []) (noReservations : start.reservations = [])
    (run : Reaches (StoreOp.step fleetPolicy) AbortRaceStep start db) : ReleasedUnsent db := by
  have holds : ReleasedInvariant db := by
    refine run.invariant ?_ ?_
    · constructor
      · simp [noExecutions]
      · simp [noReservations]
      · simp [ReleasedUnsent, noReservations]
    · intro state op next holds allowed stepped
      cases op with
      | admission now input =>
          obtain ⟨result, admitted⟩ := StoreOp.map_fst_eq_ok.mp stepped
          exact holds.admit admitted
      | attempt now input =>
          rcases persistEngineAttempt_effect stepped with rfl | recorded
          · exact holds
          · exact holds.attempt recorded (allowed recorded.fresh)
      | abortRemaining =>
          refine holds.abortRows (abortRemaining_effect holds.distinct stepped) ?_
          intro row member attempt attemptMember named
          obtain ⟨inExecutions, selected⟩ := List.mem_filter.mp member
          obtain ⟨abortable, unhashed⟩ := of_decide_eq_true selected
          exact allowed row inExecutions abortable unhashed attempt attemptMember named
      | abortRunIfUnsent runId =>
          obtain ⟨outcome, closed⟩ := StoreOp.map_fst_eq_ok.mp stepped
          rcases abortRunIfUnsent_effect holds.distinct closed with rfl | ⟨rows, clean, effect⟩
          · exact holds
          · refine holds.abortRows effect ?_
            intro row member attempt attemptMember named
            exact absurd ⟨attempt, attemptMember, Or.inl named⟩ (clean row member).2
      | receipt | transact | settleComponents | settleTotal | transitionReservation
      | setKillSwitch => exact absurd allowed id
  exact holds.unsent

/-- One wallet is admitted and its transaction is accepted before everything
unsent is aborted. -/
def abortAfterBroadcast : List StoreOp :=
  [.admission 0 (Sample.input .ethereum "first" ["w"]), .attempt 0 (Sample.attempt "first" "w"),
    .abortRemaining]

theorem released_unsent_of_run_sample :
    ReleasedUnsent (Sample.after abortAfterBroadcast (Sample.db .ethereum ["first"])) :=
  released_unsent_of_run rfl rfl
    ((Reaches.refl (Sample.db .ethereum ["first"])).applyAll
      (by decide +kernel : Allowed (StoreOp.step Sample.fleetPolicy) AbortRaceStep
        (Sample.db .ethereum ["first"]) abortAfterBroadcast))

/-- Everything unsent is aborted after signing and before the answer of the
endpoint arrives: the late attempt is stored behind released money. -/
theorem late_attempt_behind_released_money :
    ¬ ∀ (fleetPolicy : Option FleetSpendPolicy) (start db : Db),
      start.executions = [] → start.reservations = [] →
      Reaches (StoreOp.step fleetPolicy) (fun _ op => AbortRaceOp op) start db →
      ReleasedUnsent db := by
  intro claim
  have run := (Reaches.refl (Sample.db .ethereum ["first"])).applyAll
    (by decide +kernel : Allowed (StoreOp.step Sample.fleetPolicy) (fun _ op => AbortRaceOp op)
      (Sample.db .ethereum ["first"])
      [.admission 0 (Sample.input .ethereum "first" ["w"]), .abortRemaining,
        .attempt 0 (Sample.attempt "first" "w")])
  exact absurd (claim _ _ _ rfl rfl run) (by decide +kernel)

end MintBot
