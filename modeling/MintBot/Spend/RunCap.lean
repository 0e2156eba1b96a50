import MintBot.Store.Owners

/-!
# The run cap and repeated admission

The run cap is tested against an exposure that the wallet loop carries by hand.
It stays the exposure of the stored rows because admission makes an execution of
the run for every row it inserts.  A repeated admission finds its rows and
inserts nothing, and a row that was closed refuses it.
-/

namespace MintBot

open Fallible Machine

/-! ## The exposure of a run -/

/-- The row holds money of the run, by the run its execution id names. -/
def SpendReservationRow.HeldBy (runId : RunId) (row : SpendReservationRow) : Prop :=
  (row.status = .reserved ∨ row.status = .settled) ∧ row.executionId.runId = runId

instance (runId : RunId) (row : SpendReservationRow) : Decidable (row.HeldBy runId) := by
  unfold SpendReservationRow.HeldBy
  infer_instance

/-- The reservations of a store are made by admission: under distinct ids, for
positive amounts, and for executions that name their run. -/
structure RunLedger (db : Db) : Prop where
  owned : ∀ owner ∈ db.owners, owner.1.runId = owner.2
  backed : ∀ row ∈ db.reservations, row.executionId ∈ db.owners.map Prod.fst
  distinct : (db.reservations.map SpendReservationRow.id).Nodup
  nonneg : ∀ row ∈ db.reservations, 0 ≤ row.reservedAmountWei

/-- Only the executions and the reservations matter. -/
theorem RunLedger.congr {db db' : Db} (ledger : RunLedger db)
    (executions : db'.executions = db.executions)
    (reservations : db'.reservations = db.reservations) : RunLedger db' := by
  have owners : db'.owners = db.owners := by rw [Db.owners, executions, Db.owners]
  constructor
  · rw [owners]
    exact ledger.owned
  · rw [owners, reservations]
    exact ledger.backed
  · rw [reservations]
    exact ledger.distinct
  · rw [reservations]
    exact ledger.nonneg

theorem RunLedger.empty {db : Db} (noExecutions : db.executions = [])
    (noReservations : db.reservations = []) : RunLedger db where
  owned := by simp [Db.owners, noExecutions]
  backed := by simp [noReservations]
  distinct := by simp [noReservations]
  nonneg := by simp [noReservations]

/-- The exposure of a run is what the rows hold under its executions. -/
theorem RunLedger.runExposure_eq {db : Db} (ledger : RunLedger db) (runId : RunId) :
    db.runExposure runId = reservedTotal (SpendReservationRow.HeldBy runId) db.reservations := by
  unfold Db.runExposure reservedTotal
  congr 2
  refine List.filter_congr fun row member => ?_
  obtain ⟨owner, ownerMember, named⟩ := List.mem_map.mp (ledger.backed row member)
  have found : ∃ first, Table.lookup Prod.fst row.executionId db.owners = some first := by
    cases absent : Table.lookup Prod.fst row.executionId db.owners with
    | none => exact absurd named (Table.lookup_eq_none.mp absent owner ownerMember)
    | some first => exact ⟨first, rfl⟩
  obtain ⟨first, found⟩ := found
  obtain ⟨firstMember, firstNamed⟩ := Table.lookup_eq_some found
  have runOfRow : (db.execution row.executionId).map ExecutionRow.runId =
      some row.executionId.runId := by
    rw [db.execution_run, found, Option.map_some, ← ledger.owned first firstMember, firstNamed]
  simp only [SpendReservationRow.HeldBy, runOfRow, Option.some.injEq]

namespace SpendReservationRow.Later

variable {old new : SpendReservationRow}

theorem id_eq (later : Later old new) : new.id = old.id := by
  cases later <;> rfl

theorem executionId_eq (later : Later old new) : new.executionId = old.executionId := by
  cases later <;> rfl

theorem reservedAmountWei_eq (later : Later old new) :
    new.reservedAmountWei = old.reservedAmountWei := by
  cases later <;> rfl

/-- Closed money is never held again. -/
theorem heldBy (later : Later old new) {runId : RunId} (held : new.HeldBy runId) :
    old.HeldBy runId := by
  cases later with
  | same => exact held
  | settled pending => exact ⟨Or.inl pending, held.2⟩
  | closed pending => exact ⟨Or.inl pending, held.2⟩

end SpendReservationRow.Later

theorem later_ids {before after : List SpendReservationRow}
    (later : List.Forall₂ SpendReservationRow.Later before after) :
    after.map SpendReservationRow.id = before.map SpendReservationRow.id := by
  induction later with
  | nil => rfl
  | cons head tail inductionHypothesis =>
      rw [List.map_cons, List.map_cons, head.id_eq, inductionHypothesis]

/-- Rows that only settle or close hold no more than before. -/
theorem reservedTotal_later {runId : RunId} {before after : List SpendReservationRow}
    (later : List.Forall₂ SpendReservationRow.Later before after)
    (nonneg : ∀ row ∈ before, 0 ≤ row.reservedAmountWei) :
    reservedTotal (SpendReservationRow.HeldBy runId) after ≤
      reservedTotal (SpendReservationRow.HeldBy runId) before := by
  induction later with
  | nil => exact le_rfl
  | @cons old new before after head tail inductionHypothesis =>
      have rest := inductionHypothesis fun row member => nonneg row (by simp [member])
      have first : (if new.HeldBy runId then new.reservedAmountWei else 0) ≤
          if old.HeldBy runId then old.reservedAmountWei else 0 := by
        by_cases held : new.HeldBy runId
        · rw [if_pos held, if_pos (head.heldBy held), head.reservedAmountWei_eq]
        · rw [if_neg held]
          split
          · exact nonneg old (by simp)
          · exact le_rfl
      rw [reservedTotal_cons, reservedTotal_cons]
      exact Int.add_le_add first rest

/-! ## One wallet -/

/-- One turn of the wallet loop keeps the rows and the exposure it carries, or
puts a fresh row within the run cap in front of the rows and counts it. -/
theorem admitWallet_charges {context : AdmissionContext} {wallet : String}
    {progress next : AdmissionProgress}
    (success : admitWallet context progress wallet = .ok next) :
    (next.db.reservations = progress.db.reservations ∧
        next.totalRunExposure = progress.totalRunExposure ∧
        progress.db.reservation ⟨context.input.run.id, toLowerCase wallet⟩ ≠ none) ∨
      ∃ row : SpendReservationRow, row.id = ⟨context.input.run.id, toLowerCase wallet⟩ ∧
        row.executionId = ⟨context.input.run.id, toLowerCase wallet⟩ ∧
        row.status = .reserved ∧ row.reservedAmountWei = context.amount ∧
        next.db.reservations = row :: progress.db.reservations ∧
        next.totalRunExposure = progress.totalRunExposure + context.amount ∧
        next.totalRunExposure ≤ context.input.campaign.spendPolicy.maxRunWei ∧
        ∀ other ∈ progress.db.reservations, other.id ≠ row.id := by
  simp only [admitWallet, bind_eq_ok, pure_eq_ok] at success
  rcases success with ⟨walletId, -, ⟨⟩, -, ⟨⟩, -, prepared, ensured, reserved, reserving,
    linked, linking, rfl⟩
  have sameAsProgress : prepared.reservations = progress.db.reservations := by
    rcases ensureExecution_shape ensured with rfl | ⟨row, -, -, -, -, rfl⟩ <;> rfl
  have sameAsReserved : linked.reservations = reserved.db.reservations := by
    rcases linkReservation_shape linking with rfl | rfl <;> rfl
  unfold reserveUnlessHeld at reserving
  split at reserving
  · simp only [reserveWallet, bind_eq_ok, pure_eq_ok, assertCaps_eq_ok,
      insertReservation_eq_ok] at reserving
    rcases reserving with ⟨⟨⟩, -, ⟨⟩, ⟨withinRun, -⟩, ⟨⟩, -, _, ⟨accepted, rfl⟩, rfl⟩
    dsimp only at sameAsReserved
    rw [sameAsProgress] at sameAsReserved
    refine Or.inr ⟨_, rfl, rfl, rfl, rfl, sameAsReserved, rfl, withinRun, ?_⟩
    intro other member
    exact (accepted.fresh other (sameAsProgress ▸ member)).1
  · rename_i held
    obtain rfl := Except.ok.inj reserving
    exact Or.inl ⟨sameAsReserved.trans sameAsProgress, rfl, held⟩

/-- The loop of one admission: the rows stay a ledger, the exposure it carries
is that of the rows, and no run holds more than its cap. -/
structure CapProgress (runId : RunId) (cap : Wei) (input : CanonicalAdmissionInput)
    (progress : AdmissionProgress) : Prop where
  ledger : RunLedger progress.db
  carried : progress.totalRunExposure =
    reservedTotal (SpendReservationRow.HeldBy input.run.id) progress.db.reservations
  capped : reservedTotal (SpendReservationRow.HeldBy runId) progress.db.reservations ≤ cap

theorem CapProgress.admitWallet {runId : RunId} {cap : Wei} {context : AdmissionContext}
    {wallet : String} {progress next : AdmissionProgress}
    (holds : CapProgress runId cap context.input progress)
    (within : context.input.run.id = runId →
      context.input.campaign.spendPolicy.maxRunWei ≤ cap)
    (positive : 0 < context.amount)
    (success : MintBot.admitWallet context progress wallet = .ok next) :
    CapProgress runId cap context.input next := by
  have ownersEq := admitWallet_owners success
  have kept : ∀ owner ∈ progress.db.owners, owner ∈ next.db.owners := by
    intro owner member
    rw [ownersEq]
    split
    · exact List.mem_append_left _ member
    · exact member
  have owned : ∀ owner ∈ next.db.owners, owner.1.runId = owner.2 := by
    intro owner member
    rw [ownersEq] at member
    split at member
    · rcases List.mem_append.mp member with old | new
      · exact holds.ledger.owned owner old
      · rw [List.mem_singleton.mp new]
    · exact holds.ledger.owned owner member
  have backedBefore : ∀ row ∈ progress.db.reservations,
      row.executionId ∈ next.db.owners.map Prod.fst := by
    intro row member
    obtain ⟨owner, ownerMember, named⟩ := List.mem_map.mp (holds.ledger.backed row member)
    exact List.mem_map.mpr ⟨owner, kept owner ownerMember, named⟩
  rcases admitWallet_charges success with
    ⟨same, sameTotal, -⟩ | ⟨row, named, execution, status, amount, added, total, charged, fresh⟩
  · constructor
    · exact
        { owned := owned
          backed := by rw [same]; exact backedBefore
          distinct := by rw [same]; exact holds.ledger.distinct
          nonneg := by rw [same]; exact holds.ledger.nonneg }
    · rw [sameTotal, same]
      exact holds.carried
    · rw [same]
      exact holds.capped
  · have executionMade : row.executionId ∈ next.db.owners.map Prod.fst := by
      rw [ownersEq, execution]
      split
      · simp
      · rename_i present
        obtain ⟨stored, found⟩ := Option.ne_none_iff_exists'.mp present
        obtain ⟨member, sameId⟩ := Table.lookup_eq_some found
        exact List.mem_map.mpr ⟨(stored.id, stored.runId), List.mem_map_of_mem member, sameId⟩
    have ofRun : row.HeldBy context.input.run.id := by
      refine ⟨Or.inl status, ?_⟩
      rw [execution]
    constructor
    · constructor
      · exact owned
      · rw [added]
        exact List.forall_mem_cons.mpr ⟨executionMade, backedBefore⟩
      · rw [added, List.map_cons, List.nodup_cons]
        refine ⟨?_, holds.ledger.distinct⟩
        intro member
        obtain ⟨other, otherMember, sameId⟩ := List.mem_map.mp member
        exact fresh other otherMember sameId
      · rw [added]
        refine List.forall_mem_cons.mpr ⟨?_, holds.ledger.nonneg⟩
        rw [amount]
        exact Int.le_of_lt positive
    · rw [total, added, reservedTotal_cons, if_pos ofRun, amount, holds.carried, Int.add_comm]
    · rw [added, reservedTotal_cons]
      by_cases sameRun : context.input.run.id = runId
      · have carried := holds.carried
        rw [sameRun] at ofRun carried
        rw [if_pos ofRun, amount, ← carried, Int.add_comm, ← total]
        exact le_trans charged (within sameRun)
      · have other : ¬ row.HeldBy runId := by
          rintro ⟨-, ofRunId⟩
          rw [execution] at ofRunId
          exact sameRun ofRunId
        rw [if_neg other, Int.zero_add]
        exact holds.capped

/-! ## Runs of operations -/

/-- Admissions of the run have a run cap of at most `cap`. -/
def RunAdmission (runId : RunId) (cap : Wei) (_db : Db) : StoreOp → Prop
  | .admission _ input => input.run.id = runId → input.campaign.spendPolicy.maxRunWei ≤ cap
  | _ => True

instance (runId : RunId) (cap : Wei) (db : Db) (op : StoreOp) :
    Decidable (RunAdmission runId cap db op) :=
  match op with
  | .admission _ input =>
      inferInstanceAs (Decidable (input.run.id = runId → input.campaign.spendPolicy.maxRunWei ≤ cap))
  | .attempt _ _ | .receipt _ _ | .transact _ _ | .settleComponents _ _ _ | .settleTotal _ _ _
  | .transitionReservation _ _ | .abortRemaining | .abortRunIfUnsent _ | .setKillSwitch _ =>
      .isTrue trivial

/-- The rows are a ledger in which the run holds no more than its cap. -/
structure RunCapped (runId : RunId) (cap : Wei) (db : Db) : Prop where
  ledger : RunLedger db
  capped : reservedTotal (SpendReservationRow.HeldBy runId) db.reservations ≤ cap

/-- Operations that only let rows settle or close keep the cap. -/
theorem RunCapped.later {runId : RunId} {cap : Wei} {db db' : Db}
    (holds : RunCapped runId cap db) (later : db.LaterReservations db')
    {made : List (ExecutionId × RunId)} (owners : db'.owners = db.owners ++ made)
    (named : ∀ owner ∈ made, owner.1.runId = owner.2) : RunCapped runId cap db' := by
  constructor
  · constructor
    · rw [owners]
      intro owner member
      rcases List.mem_append.mp member with old | new
      · exact holds.ledger.owned owner old
      · exact named owner new
    · intro row member
      obtain ⟨old, oldMember, step⟩ := Table.forall₂_mem_right later member
      rw [step.executionId_eq, owners, List.map_append]
      exact List.mem_append_left _ (holds.ledger.backed old oldMember)
    · rw [later_ids later]
      exact holds.ledger.distinct
    · intro row member
      obtain ⟨old, oldMember, step⟩ := Table.forall₂_mem_right later member
      rw [step.reservedAmountWei_eq]
      exact holds.ledger.nonneg old oldMember
  · exact le_trans (reservedTotal_later later holds.ledger.nonneg) holds.capped

/-- A successful admission within the cap keeps it. -/
theorem RunCapped.admit {fleetPolicy : Option FleetSpendPolicy} {runId : RunId} {cap : Wei}
    {db db' : Db} {now : Time} {input : CanonicalAdmissionInput}
    {result : CanonicalAdmissionResult} (holds : RunCapped runId cap db)
    (within : input.run.id = runId → input.campaign.spendPolicy.maxRunWei ≤ cap)
    (success : admitExecution fleetPolicy db now input = .ok (db', result)) :
    RunCapped runId cap db' := by
  rcases admitExecution_eq_ok.mp success with
    ⟨begun, admitted, -, started, positive, looped, activated, -⟩
  obtain ⟨watermark, feePolicies, intents, rfl⟩ := beginAdmission_shape started
  obtain ⟨-, rfl⟩ := activateRun_eq_ok.mp activated
  have looped : CapProgress runId cap input admitted := by
    refine foldlM_invariant (I := CapProgress runId cap input) ?_ ?_ looped
    · intro progress wallet _ next progressHolds stepped
      exact @CapProgress.admitWallet _ _ (admissionContext fleetPolicy db now input) _ _ _
        progressHolds within positive stepped
    · exact
        { ledger := holds.ledger.congr rfl rfl
          carried := (holds.ledger.congr rfl rfl).runExposure_eq input.run.id
          capped := holds.capped }
  exact ⟨looped.ledger.congr rfl rfl, looped.capped⟩

theorem RunCapped.step {fleetPolicy : Option FleetSpendPolicy} {runId : RunId} {cap : Wei}
    {db db' : Db} {op : StoreOp} (holds : RunCapped runId cap db)
    (allowed : RunAdmission runId cap db op) (success : op.step fleetPolicy db = .ok db') :
    RunCapped runId cap db' := by
  rcases StoreOp.step_reservations success with ⟨now, input, result, rfl, admitted⟩ | later
  · exact holds.admit allowed admitted
  · obtain ⟨made, owners, named⟩ := step_owners success
    exact holds.later later owners named

/-! ## Repeated admission -/

/-- A reservation and an execution of the run are stored for the wallet. -/
def Db.Admitted (db : Db) (runId : RunId) (wallet : String) : Prop :=
  (⟨runId, toLowerCase wallet⟩ : ReservationId) ∈ db.reservations.map SpendReservationRow.id ∧
    (⟨runId, toLowerCase wallet⟩ : ExecutionId) ∈ db.owners.map Prod.fst

/-- Longer tables store what they stored before. -/
theorem Db.Admitted.mono {db db' : Db} {runId : RunId} {wallet : String}
    (stored : db.Admitted runId wallet)
    (reservations : ∀ id ∈ db.reservations.map SpendReservationRow.id,
      id ∈ db'.reservations.map SpendReservationRow.id)
    (owners : ∃ made, db'.owners = db.owners ++ made) : db'.Admitted runId wallet := by
  obtain ⟨made, owners⟩ := owners
  refine ⟨reservations _ stored.1, ?_⟩
  rw [owners, List.map_append]
  exact List.mem_append_left _ stored.2

theorem admitWallet_reservationIds {context : AdmissionContext} {wallet : String}
    {progress next : AdmissionProgress}
    (success : admitWallet context progress wallet = .ok next) :
    ∀ id ∈ progress.db.reservations.map SpendReservationRow.id,
      id ∈ next.db.reservations.map SpendReservationRow.id := by
  intro id member
  rcases admitWallet_charges success with ⟨same, -, -⟩ | ⟨row, -, -, -, -, added, -, -, -⟩
  · rw [same]
    exact member
  · rw [added, List.map_cons]
    exact List.mem_cons_of_mem _ member

theorem admitWallet_ownersMade {context : AdmissionContext} {wallet : String}
    {progress next : AdmissionProgress}
    (success : admitWallet context progress wallet = .ok next) :
    ∃ made, next.db.owners = progress.db.owners ++ made := by
  rw [admitWallet_owners success]
  split
  · exact ⟨_, rfl⟩
  · exact ⟨[], (List.append_nil _).symm⟩

theorem execution_mem_owners {db : Db} {id : ExecutionId} (present : db.execution id ≠ none) :
    id ∈ db.owners.map Prod.fst := by
  obtain ⟨row, found⟩ := Option.ne_none_iff_exists'.mp present
  obtain ⟨member, named⟩ := Table.lookup_eq_some found
  exact List.mem_map.mpr ⟨(row.id, row.runId), List.mem_map_of_mem member, named⟩

theorem execution_of_mem_owners {db : Db} {id : ExecutionId}
    (member : id ∈ db.owners.map Prod.fst) : db.execution id ≠ none := by
  intro absent
  obtain ⟨owner, ownerMember, named⟩ := List.mem_map.mp member
  obtain ⟨row, rowMember, rfl⟩ := List.mem_map.mp ownerMember
  exact Table.lookup_eq_none.mp absent row rowMember named

/-- An admitted wallet is stored. -/
theorem admitWallet_stores {context : AdmissionContext} {wallet : String}
    {progress next : AdmissionProgress}
    (success : admitWallet context progress wallet = .ok next) :
    next.db.Admitted context.input.run.id wallet := by
  constructor
  · rcases admitWallet_charges success with
      ⟨same, -, held⟩ | ⟨row, named, -, -, -, added, -, -, -⟩
    · obtain ⟨row, found⟩ := Option.ne_none_iff_exists'.mp held
      obtain ⟨member, named⟩ := Table.lookup_eq_some found
      rw [same, ← named]
      exact List.mem_map_of_mem member
    · rw [added, List.map_cons, named]
      exact List.mem_cons_self
  · rw [admitWallet_owners success]
    split
    · simp
    · rename_i present
      exact execution_mem_owners present

/-- A stored wallet is admitted again without a new row. -/
theorem admitWallet_replay {context : AdmissionContext} {wallet : String}
    {progress next : AdmissionProgress}
    (stored : progress.db.Admitted context.input.run.id wallet)
    (success : admitWallet context progress wallet = .ok next) :
    next.db.reservations = progress.db.reservations ∧ next.db.owners = progress.db.owners := by
  constructor
  · rcases admitWallet_charges success with ⟨same, -, -⟩ | ⟨row, named, -, -, -, -, -, -, fresh⟩
    · exact same
    · obtain ⟨other, member, sameId⟩ := List.mem_map.mp stored.1
      exact absurd (sameId.trans named.symm) (fresh other member)
  · rw [admitWallet_owners success, if_neg (execution_of_mem_owners stored.2)]

/-- Every wallet of a successful admission is stored. -/
theorem admitExecution_stores {fleetPolicy : Option FleetSpendPolicy} {db db' : Db} {now : Time}
    {input : CanonicalAdmissionInput} {result : CanonicalAdmissionResult}
    (success : admitExecution fleetPolicy db now input = .ok (db', result)) :
    ∀ wallet ∈ input.wallets, db'.Admitted input.run.id wallet := by
  rcases admitExecution_eq_ok.mp success with
    ⟨begun, admitted, -, -, -, looped, activated, -⟩
  obtain ⟨-, rfl⟩ := activateRun_eq_ok.mp activated
  refine foldlM_establishes
    (P := fun wallet (progress : AdmissionProgress) => progress.db.Admitted input.run.id wallet)
    ?_ ?_ looped
  · exact fun _ _ _ stepped => admitWallet_stores stepped
  · intro wallet progress other next stored stepped
    exact stored.mono (admitWallet_reservationIds stepped) (admitWallet_ownersMade stepped)

/-- An admission of stored wallets changes no reservation and no execution. -/
theorem admitExecution_replay {fleetPolicy : Option FleetSpendPolicy} {db db' : Db} {now : Time}
    {input : CanonicalAdmissionInput} {result : CanonicalAdmissionResult}
    (stored : ∀ wallet ∈ input.wallets, db.Admitted input.run.id wallet)
    (success : admitExecution fleetPolicy db now input = .ok (db', result)) :
    db'.reservations = db.reservations ∧ db'.owners = db.owners := by
  rcases admitExecution_eq_ok.mp success with
    ⟨begun, admitted, -, started, -, looped, activated, -⟩
  obtain ⟨watermark, feePolicies, intents, rfl⟩ := beginAdmission_shape started
  obtain ⟨-, rfl⟩ := activateRun_eq_ok.mp activated
  refine foldlM_invariant (I := fun progress : AdmissionProgress =>
    progress.db.reservations = db.reservations ∧ progress.db.owners = db.owners)
    ?_ ⟨rfl, rfl⟩ looped
  rintro progress wallet member next ⟨sameReservations, sameOwners⟩ stepped
  have storedNow : progress.db.Admitted input.run.id wallet := by
    unfold Db.Admitted
    rw [sameReservations, sameOwners]
    exact stored wallet member
  have unchanged := admitWallet_replay storedNow stepped
  exact ⟨unchanged.1.trans sameReservations, unchanged.2.trans sameOwners⟩

/-- Stored wallets stay stored. -/
theorem Db.Admitted.step {fleetPolicy : Option FleetSpendPolicy} {db db' : Db} {op : StoreOp}
    {runId : RunId} {wallet : String} (stored : db.Admitted runId wallet)
    (success : op.step fleetPolicy db = .ok db') : db'.Admitted runId wallet := by
  obtain ⟨made, owners, -⟩ := step_owners success
  refine stored.mono ?_ ⟨made, owners⟩
  rcases StoreOp.step_reservations success with ⟨now, input, result, rfl, admitted⟩ | later
  · intro id member
    refine admitExecution_reservations
      (I := fun rows => id ∈ rows.map SpendReservationRow.id) member ?_ admitted
    intro rows row kept _ _ _ _
    exact List.mem_cons_of_mem _ kept
  · rw [later_ids later]
    exact fun _ member => member

/-- The reservations of stored wallets are found under their ids. -/
theorem foundReservations_ids {db : Db} {runId : RunId} {wallets : List String}
    (stored : ∀ wallet ∈ wallets, db.Admitted runId wallet) :
    (wallets.filterMap fun wallet =>
        (db.reservation ⟨runId, toLowerCase wallet⟩).map db.mapReservation).map Reservation.id =
      wallets.map fun wallet => ⟨runId, toLowerCase wallet⟩ := by
  induction wallets with
  | nil => rfl
  | cons wallet rest inductionHypothesis =>
      obtain ⟨first, others⟩ := List.forall_mem_cons.mp stored
      obtain ⟨row, member, named⟩ := List.mem_map.mp first.1
      cases found : db.reservation ⟨runId, toLowerCase wallet⟩ with
      | none => exact absurd named (Table.lookup_eq_none.mp found row member)
      | some row =>
          rw [List.filterMap_cons_some (b := db.mapReservation row) (by rw [found]; rfl),
            List.map_cons, List.map_cons, inductionHypothesis others]
          exact congrArg (· :: _) (Table.lookup_eq_some found).2

/-- Admission reports the reservations that its wallets name. -/
theorem admitExecution_reports {fleetPolicy : Option FleetSpendPolicy} {db db' : Db} {now : Time}
    {input : CanonicalAdmissionInput} {result : CanonicalAdmissionResult}
    (success : admitExecution fleetPolicy db now input = .ok (db', result)) :
    result.reservations.map Reservation.id =
      input.wallets.map fun wallet => ⟨input.run.id, toLowerCase wallet⟩ := by
  have stored := admitExecution_stores success
  obtain ⟨-, -, -, -, -, -, -, rfl⟩ := admitExecution_eq_ok.mp success
  exact foundReservations_ids stored

/-! ## Closed reservations -/

/-- The reservation was released or expired. -/
def SpendReservationRow.Closed (row : SpendReservationRow) : Prop :=
  row.status = .released ∨ row.status = .expired

instance (row : SpendReservationRow) : Decidable row.Closed := by
  unfold SpendReservationRow.Closed
  infer_instance

theorem SpendReservationRow.Later.closed_eq {old new : SpendReservationRow}
    (later : SpendReservationRow.Later old new) (closed : old.Closed) : new = old := by
  cases later with
  | same => rfl
  | settled pending => rcases closed with status | status <;> simp [pending] at status
  | closed pending => rcases closed with status | status <;> simp [pending] at status

/-- Every operation keeps closed rows, and rows stay under distinct ids. -/
theorem step_closed {fleetPolicy : Option FleetSpendPolicy} {db db' : Db} {op : StoreOp}
    {row : SpendReservationRow} (closed : row.Closed) (stored : row ∈ db.reservations)
    (success : op.step fleetPolicy db = .ok db') : row ∈ db'.reservations := by
  rcases StoreOp.step_reservations success with ⟨now, input, result, rfl, admitted⟩ | later
  · refine admitExecution_reservations
      (I := fun rows => row ∈ rows) stored ?_ admitted
    intro rows added kept _ _ _ _
    exact List.mem_cons_of_mem _ kept
  · obtain ⟨new, newMember, step⟩ := Table.forall₂_mem_left later stored
    rwa [step.closed_eq closed] at newMember

/-- An admission that names a wallet whose reservation is closed fails. -/
theorem admitExecution_closed (fleetPolicy : Option FleetSpendPolicy) {db : Db} (now : Time)
    {input : CanonicalAdmissionInput} {row : SpendReservationRow}
    (distinct : (db.reservations.map SpendReservationRow.id).Nodup)
    (stored : row ∈ db.reservations) (closed : row.Closed)
    (named : ∃ wallet ∈ input.wallets, row.id = ⟨input.run.id, toLowerCase wallet⟩) :
    ∃ failure, admitExecution fleetPolicy db now input = .error failure := by
  cases outcome : admitExecution fleetPolicy db now input with
  | error failure => exact ⟨failure, rfl⟩
  | ok pair =>
      obtain ⟨db', result⟩ := pair
      obtain ⟨wallet, member, rowId⟩ := named
      rcases admitExecution_eq_ok.mp outcome with ⟨begun, admitted, -, started, -, looped, -, -⟩
      obtain ⟨watermark, feePolicies, intents, rfl⟩ := beginAdmission_shape started
      obtain ⟨before, after, ⟨storedThen, distinctThen⟩, stepped⟩ := foldlM_mem
        (I := fun progress : AdmissionProgress => row ∈ progress.db.reservations ∧
          (progress.db.reservations.map SpendReservationRow.id).Nodup)
        (by
          rintro progress other - next ⟨kept, distinctKept⟩ otherStepped
          rcases admitWallet_charges otherStepped with
            ⟨same, -, -⟩ | ⟨added, -, -, -, -, rows, -, -, fresh⟩
          · rw [same]
            exact ⟨kept, distinctKept⟩
          · rw [rows, List.map_cons, List.nodup_cons]
            refine ⟨List.mem_cons_of_mem _ kept, ?_, distinctKept⟩
            intro repeated
            obtain ⟨old, oldMember, sameId⟩ := List.mem_map.mp repeated
            exact fresh old oldMember sameId)
        ⟨stored, distinct⟩ looped member
      have found : before.db.reservation ⟨input.run.id, toLowerCase wallet⟩ = some row :=
        rowId ▸ Table.lookup_of_mem distinctThen storedThen
      simp only [admitWallet, bind_eq_ok, refuse_eq_ok] at stepped
      rcases stepped with ⟨walletId, -, ⟨⟩, notClosed, -⟩
      exact absurd ⟨row, found, closed⟩ notClosed

/-- Rows stay under distinct ids. -/
theorem step_distinct {fleetPolicy : Option FleetSpendPolicy} {db db' : Db} {op : StoreOp}
    (distinct : (db.reservations.map SpendReservationRow.id).Nodup)
    (success : op.step fleetPolicy db = .ok db') :
    (db'.reservations.map SpendReservationRow.id).Nodup := by
  rcases StoreOp.step_reservations success with ⟨now, input, result, rfl, admitted⟩ | later
  · refine admitExecution_reservations
      (I := fun rows => (rows.map SpendReservationRow.id).Nodup) distinct ?_ admitted
    intro rows row kept _ _ _ admits
    refine List.nodup_cons.mpr ⟨?_, kept⟩
    intro repeated
    obtain ⟨other, member, sameId⟩ := List.mem_map.mp repeated
    exact (admits.fresh other member).1 sameId
  · rw [later_ids later]
    exact distinct

/-! ## Whole runs -/

/-- In every run of operations from a store without executions, the money a run
holds is within the run caps it was admitted with; an admission that repeats an
earlier one of the same run and wallets inserts nothing, changes no reservation
and reports the same ids; and once a reservation is closed, every admission that
names its wallet fails and leaves the store as it was. -/
theorem run_cap_and_replay {fleetPolicy : Option FleetSpendPolicy} {runId : RunId} {cap : Nat}
    {start db : Db} (noExecutions : start.executions = []) (noReservations : start.reservations = [])
    (run : Reaches (StoreOp.step fleetPolicy) (RunAdmission runId cap) start db) :
    db.runExposure runId ≤ cap ∧
    (∀ now input admitted result,
      admitExecution fleetPolicy db now input = .ok (admitted, result) →
      ∀ later, Reaches (StoreOp.step fleetPolicy) (fun _ _ => True) admitted later →
      ∀ now' repeated admitted' result', repeated.run.id = input.run.id →
        repeated.wallets.map toLowerCase = input.wallets.map toLowerCase →
        admitExecution fleetPolicy later now' repeated = .ok (admitted', result') →
        admitted'.reservations = later.reservations ∧ admitted'.owners = later.owners ∧
          result'.reservations.map Reservation.id = result.reservations.map Reservation.id) ∧
    ∀ row ∈ db.reservations, row.Closed →
      ∀ later, Reaches (StoreOp.step fleetPolicy) (fun _ _ => True) db later →
      ∀ now input, (∃ wallet ∈ input.wallets, row.id = ⟨input.run.id, toLowerCase wallet⟩) →
        (∃ failure, admitExecution fleetPolicy later now input = .error failure) ∧
          apply (StoreOp.step fleetPolicy) later (.admission now input) = later := by
  refine ⟨?_, ?_, ?_⟩
  · have holds : RunCapped runId cap db := by
      refine run.invariant ⟨.empty noExecutions noReservations, ?_⟩ ?_
      · rw [noReservations]
        exact Int.natCast_nonneg cap
      · exact fun state op next kept allowed success => kept.step allowed success
    rw [holds.ledger.runExposure_eq]
    exact holds.capped
  · intro now input admitted result success later afterwards now' repeated admitted' result'
      sameRun sameWallets again
    have stored : ∀ wallet ∈ repeated.wallets, later.Admitted repeated.run.id wallet := by
      intro wallet member
      obtain ⟨first, firstMember, sameText⟩ :=
        List.mem_map.mp (sameWallets ▸ List.mem_map_of_mem (f := toLowerCase) member)
      have kept : later.Admitted input.run.id first := by
        refine afterwards.invariant (I := fun state => state.Admitted input.run.id first)
          (admitExecution_stores success first firstMember) ?_
        exact fun state op next holds _ stepped => holds.step stepped
      unfold Db.Admitted at kept ⊢
      rwa [sameRun, ← sameText]
    obtain ⟨sameReservations, sameOwners⟩ := admitExecution_replay stored again
    refine ⟨sameReservations, sameOwners, ?_⟩
    have ids : ∀ wallets : List String, wallets.map (fun wallet =>
        (⟨input.run.id, toLowerCase wallet⟩ : ReservationId)) =
          (wallets.map toLowerCase).map fun text => ⟨input.run.id, text⟩ := by
      intro wallets
      rw [List.map_map]
      rfl
    rw [admitExecution_reports again, admitExecution_reports success, sameRun, ids, ids,
      sameWallets]
  · intro row member closed later afterwards now input named
    have distinct : (db.reservations.map SpendReservationRow.id).Nodup := by
      refine run.invariant
        (I := fun state => (state.reservations.map SpendReservationRow.id).Nodup) ?_ ?_
      · simp [noReservations]
      · exact fun state op next kept _ stepped => step_distinct kept stepped
    have still : row ∈ later.reservations ∧
        (later.reservations.map SpendReservationRow.id).Nodup := by
      refine afterwards.invariant (I := fun state => row ∈ state.reservations ∧
        (state.reservations.map SpendReservationRow.id).Nodup) ⟨member, distinct⟩ ?_
      exact fun state op next kept _ stepped =>
        ⟨step_closed closed kept.1 stepped, step_distinct kept.2 stepped⟩
    obtain ⟨failure, failed⟩ := admitExecution_closed fleetPolicy now still.2 still.1 closed named
    refine ⟨⟨failure, failed⟩, ?_⟩
    have stepFailed : StoreOp.step fleetPolicy (.admission now input) later = .error failure := by
      rw [StoreOp.step, failed]
      rfl
    exact apply_error stepFailed

/-- One of the two wallets of an intent. -/
def halfBatch (wallet : String) : CanonicalAdmissionInput :=
  { Sample.input .ethereum "first" ["w", "v"] with wallets := [wallet] }

/-- The reservation of `w` was released before the engine attempted anything. -/
def halfReleased : Db :=
  Machine.applyAll (StoreOp.step Sample.pairPolicy) (Sample.db .ethereum ["first"])
    [.admission 0 (halfBatch "w"), .transitionReservation ⟨"first", "w"⟩ .released]

theorem halfReleased_reaches :
    Reaches (StoreOp.step Sample.pairPolicy) (RunAdmission "first" (1000 : Nat))
      (Sample.db .ethereum ["first"]) halfReleased :=
  (Reaches.refl _).applyAll (by decide +kernel)

theorem run_cap_and_replay_sample :
    halfReleased.runExposure "first" ≤ 1000 ∧
      ∃ failure, admitExecution Sample.pairPolicy halfReleased 0
        (Sample.input .ethereum "first" ["w", "v"]) = .error failure := by
  have bounds := run_cap_and_replay rfl rfl halfReleased_reaches
  have released : ∃ row ∈ halfReleased.reservations, row.Closed ∧ row.id = ⟨"first", "w"⟩ := by
    decide +kernel
  obtain ⟨row, member, closed, named⟩ := released
  refine ⟨bounds.1, ?_⟩
  exact (bounds.2.2 row member closed _ (.refl _) 0 _ ⟨"w", by decide, named⟩).1

/-- A batch that leaves the released wallet out is still admitted for the run. -/
theorem other_wallet_admitted_after_release :
    ¬ ∀ (fleetPolicy : Option FleetSpendPolicy) (start db : Db), start.executions = [] →
      start.reservations = [] →
      Reaches (StoreOp.step fleetPolicy) (RunAdmission "first" (1000 : Nat)) start db →
      ∀ row ∈ db.reservations, row.Closed → ∀ now input, input.run.id = row.id.runId →
        ∃ failure, admitExecution fleetPolicy db now input = .error failure := by
  intro claim
  have released : ∃ row ∈ halfReleased.reservations, row.Closed ∧ row.id.runId = "first" := by
    decide +kernel
  obtain ⟨row, member, closed, ofRun⟩ := released
  obtain ⟨failure, failed⟩ := claim Sample.pairPolicy _ _ rfl rfl halfReleased_reaches row member
    closed 0 (halfBatch "v") ofRun.symm
  have admitted : (admitExecution Sample.pairPolicy halfReleased 0
      (halfBatch "v")).toOption.isSome = true := by
    decide +kernel
  rw [failed] at admitted
  cases admitted

end MintBot
