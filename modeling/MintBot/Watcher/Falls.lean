import Mathlib.Algebra.BigOperators.Group.Finset.Basic
import Mathlib.Algebra.Order.BigOperators.Group.Finset
import Mathlib.Tactic.Linarith
import MintBot.Store.Operation
import MintBot.Watcher.Accepts

/-!
# How far a balance may fall

Every tick compares a reading with the baseline, and lets a fall pass that the
reservations of the moment explain.  The baseline then moves to the reading, and
a reservation that is still pending explains the next fall again.  As long as no
reservation explains two falls, all the falls together stay within the amounts of
the reservations, each counted once.
-/

namespace MintBot

open Fallible

section Judged

variable {options : FleetWatcherOptions} {records : WatchedRecords} {target : WatchTarget}
  {reading : WalletReading} {answers : JudgeAnswers} {state next : WatchState}
  {baseline : WalletBaseline} {before : Wei}

/-- The transaction count of a reading is one that the baseline and the records
lead to, so that its balance is compared. -/
def Comparable (reading : WalletReading) (baseline : WalletBaseline) (ledger : WalletLedger) :
    Prop :=
  baseline.nonce ≤ (reading.nonce : Number) ∧
    (reading.nonce : Number) ≤ expectedNonce baseline ledger

instance (reading : WalletReading) (baseline : WalletBaseline) (ledger : WalletLedger) :
    Decidable (Comparable reading baseline ledger) := by
  unfold Comparable
  infer_instance

theorem judgeWallet_comparable {ledger : WalletLedger}
    (comparable : Comparable reading baseline ledger)
    (isBefore : bigInt baseline.balanceWei = .ok before) :
    judgeWallet reading baseline ledger =
      .ok (if reading.balanceWei < before then
        if ledger.allowedFallWei < before - reading.balanceWei then
          .unexplainedFall (before - reading.balanceWei) ledger.allowedFallWei
        else .ok
      else if before < reading.balanceWei then .rise else .ok) := by
  simp only [judgeWallet, not_lt.mpr comparable.1, not_lt.mpr comparable.2, if_false, isBefore,
    bind, Except.bind, pure, Except.pure]
  repeat' split
  all_goals rfl

/-- A reading that is as the baseline, or below it by no more than the records
explain, becomes the baseline; its date is that of the old one or of the tick. -/
theorem judgeAndAct_ok (inUse : state.baselines (keyOf target) = some baseline)
    (isBefore : bigInt baseline.balanceWei = .ok before)
    (comparable : Comparable reading baseline (ledgerFor records target baseline))
    (noRise : reading.balanceWei ≤ before)
    (explained : before - reading.balanceWei ≤
      (ledgerFor records target baseline).allowedFallWei)
    (success : judgeAndAct options records target reading answers state = .ok next) :
    ∃ moved, next.baselines (keyOf target) = some moved ∧
      bigInt moved.balanceWei = .ok reading.balanceWei ∧
      (moved.observedAt = baseline.observedAt ∨ moved.observedAt = state.now) := by
  have verdict : judgeWallet reading (some baseline) (ledgerFor records target (some baseline)) =
      .ok .ok := by
    rw [judgeWallet_comparable comparable isBefore]
    by_cases falls : reading.balanceWei < before
    · rw [if_pos falls, if_neg (not_lt.mpr explained)]
    · rw [if_neg falls, if_neg (not_lt.mpr noRise)]
  have notKill : ¬ (WalletVerdict.ok).IsKillClass := id
  have confirmed : confirm target (some baseline) reading .ok answers = (.ok, reading) := by
    rw [confirm, if_pos notKill]
  have noted : (noteReadings target reading .ok answers state).baselines = state.baselines ∧
      (noteReadings target reading .ok answers state).now = state.now := by
    unfold noteReadings
    dsimp only
    split
    · rw [if_neg notKill]
      exact ⟨rfl, rfl⟩
    · exact ⟨rfl, rfl⟩
  simp only [judgeAndAct, inUse, verdict, confirmed, bind, Except.bind] at success
  generalize noteReadings target reading .ok answers state = middle at noted success
  have noReturn : returned options target .ok reading answers middle = none := rfl
  rw [noReturn] at success
  obtain rfl := pure_eq_ok.mp success
  unfold act
  dsimp only
  set settled := WatchState.forgetFinding
    { middle with inconsistent := Function.update middle.inconsistent (keyOf target) 0 }
    (keyOf target) with settledEq
  have baselines : settled.baselines = state.baselines := noted.1
  split
  next needed =>
    obtain ⟨moved, isMoved⟩ : ∃ moved, (remember target reading answers.write settled).baselines
        (keyOf target) = some moved ∧ moved = baselineOf reading settled.now
          (settled.baselines (keyOf target)) := by
      refine ⟨_, ?_, rfl⟩
      unfold remember WatchState.persist
      dsimp only
      split <;> exact Function.update_self _ _ _
    refine ⟨moved, isMoved.1, ?_, Or.inr ?_⟩
    · rw [isMoved.2]
      exact bigInt_toString reading.balanceWei
    · rw [isMoved.2]
      exact noted.2
  next settles =>
    rw [baselines, inUse] at settles
    refine ⟨baseline, by rw [baselines, inUse], ?_, Or.inl rfl⟩
    simp only [NeedsRemembering, not_or, ne_eq, not_not] at settles
    rw [settles.2.1]
    exact bigInt_toString reading.balanceWei

/-- A fall beyond what the records explain, that a second read does not take back,
is found. -/
theorem judgeAndAct_fall (inUse : state.baselines (keyOf target) = some baseline)
    (isBefore : bigInt baseline.balanceWei = .ok before)
    (comparable : Comparable reading baseline (ledgerFor records target baseline))
    (unexplained : (ledgerFor records target baseline).allowedFallWei <
      before - reading.balanceWei)
    (falls : reading.balanceWei < before)
    (confirmed : ∀ second ∈ answers.second,
      Comparable second baseline (ledgerFor answers.secondRecords target baseline) ∧
        second.balanceWei < before ∧
        (ledgerFor answers.secondRecords target baseline).allowedFallWei <
          before - second.balanceWei)
    (success : judgeAndAct options records target reading answers state = .ok next) :
    (keyOf target, FleetWatchFinding.unexplainedFall) ∈ next.result.findings := by
  have verdict : judgeWallet reading (some baseline) (ledgerFor records target (some baseline)) =
      .ok (.unexplainedFall (before - reading.balanceWei)
        (ledgerFor records target baseline).allowedFallWei) := by
    rw [judgeWallet_comparable comparable isBefore, if_pos falls, if_pos unexplained]
  obtain ⟨fallWei, allowedWei, effective, confirmation⟩ : ∃ fallWei allowedWei effective,
      confirm target (some baseline) reading (.unexplainedFall (before - reading.balanceWei)
        (ledgerFor records target baseline).allowedFallWei) answers =
        (.unexplainedFall fallWei allowedWei, effective) := by
    have stops : ∀ fallWei allowedWei : Wei,
        (WalletVerdict.unexplainedFall fallWei allowedWei).IsKillClass := fun _ _ => trivial
    unfold confirm
    rw [if_neg (not_not.mpr (stops _ _))]
    cases isSecond : answers.second with
    | none => exact ⟨_, _, _, rfl⟩
    | some second =>
        obtain ⟨secondComparable, secondFalls, secondUnexplained⟩ := confirmed second isSecond
        dsimp only
        rw [judgeWallet_comparable secondComparable isBefore, if_pos secondFalls,
          if_pos secondUnexplained]
        dsimp only
        rw [if_pos (stops _ _)]
        exact ⟨_, _, _, rfl⟩
  simp only [judgeAndAct, inUse, verdict, confirmation, bind, Except.bind] at success
  generalize noteReadings target reading _ answers state = middle at success
  have noReturn : returned options target (.unexplainedFall fallWei allowedWei) effective answers
      middle = none := rfl
  rw [noReturn] at success
  obtain rfl := pure_eq_ok.mp success
  unfold act actOnStop WatchState.persist
  dsimp only
  split
  · simp [WatchState.report, WatchState.found]
  · split <;> simp [WatchState.report, WatchState.found, WatchState.keepFinding, WatchState.push]

end Judged

/-! ## Counting the falls of one wallet -/

/-- The state of a run, with what the readings of one wallet have shown since its
first baseline. -/
structure FallCount where
  state : WatchState
  /-- The reservations that the ledger of a tick with a fall counted. -/
  spent : List ReservationId
  /-- The reservations that were pending at a tick, or updated since the first
  baseline. -/
  counted : List ReservationId
  /-- The balance of the last reading. -/
  last : Wei

/-- The reservations that may explain a fall of the wallet since a baseline. -/
def explainingIds (records : WatchedRecords) (target : WatchTarget) (baseline : WalletBaseline) :
    List ReservationId :=
  (records.explaining target (some baseline)).map fun reservation => reservation.id

/-- A reservation is stored once, and its amount never changes. -/
structure Booked (amount : ReservationId → Wei) (records : WatchedRecords) : Prop where
  distinct : (records.reservations.map fun reservation => reservation.id).Nodup
  amounts : ∀ reservation ∈ records.reservations, reservation.amountWei = amount reservation.id
  nonneg : ∀ reservation ∈ records.reservations, 0 ≤ reservation.amountWei

section Run

variable (options : FleetWatcherOptions) (target : WatchTarget) (amount : ReservationId → Wei)
  (first : WalletBaseline)

/-- One reading of the wallet is counted. -/
def FallCount.judge (falls : FallCount) (records : WatchedRecords) (judged : WatchTarget)
    (reading : WalletReading) (next : WatchState) : FallCount where
  state := next
  spent :=
    match falls.state.baselines (keyOf target) with
    | some baseline =>
        if reading.balanceWei < falls.last then
          falls.spent ++ explainingIds records judged baseline
        else falls.spent
    | none => falls.spent
  counted := falls.counted ++ explainingIds records judged first
  last := reading.balanceWei

def fallStep (command : WatchCommand) (falls : FallCount) : Except Error FallCount := do
  let next ← watchStep options command falls.state
  match command with
  | .judgeAndAct records judged reading _ =>
      if keyOf judged = keyOf target then
        return falls.judge target first records judged reading next
      else return { falls with state := next }
  | _ => return { falls with state := next }

/-- One reading of the wallet that is no rise and leads to no finding of an
unexplained fall.  Its transaction count is one the records lead to, so that the
balance is compared; a second read that is made bears the fall out; and where a
reservation that the ledger counts explained an earlier fall, the other ones
cover this fall. -/
structure ReadingInOrder (falls : FallCount) (records : WatchedRecords) (judged : WatchTarget)
    (reading : WalletReading) (answers : JudgeAnswers) (baseline : WalletBaseline) : Prop where
  booked : Booked amount records
  clock : first.observedAt ≤ falls.state.now
  noRise : reading.balanceWei ≤ falls.last
  noFinding : ∀ next, judgeAndAct options records judged reading answers falls.state = .ok next →
    (keyOf target, FleetWatchFinding.unexplainedFall) ∉ next.result.findings
  comparable : Comparable reading baseline (ledgerFor records judged baseline)
  confirmed : (ledgerFor records judged baseline).allowedFallWei <
      falls.last - reading.balanceWei → ∀ second ∈ answers.second,
    Comparable second baseline (ledgerFor answers.secondRecords judged baseline) ∧
      second.balanceWei < falls.last ∧
      (ledgerFor answers.secondRecords judged baseline).allowedFallWei <
        falls.last - second.balanceWei
  explainedOnce : reading.balanceWei < falls.last →
    (∃ id ∈ explainingIds records judged baseline, id ∈ falls.spent) →
    falls.last - reading.balanceWei ≤
      ∑ id ∈ (explainingIds records judged baseline).toFinset \ falls.spent.toFinset, amount id

/-- One process that adopts no accept of the wallet, and whose readings of the
wallet are in order. -/
def FallsInOrder (falls : FallCount) (command : WatchCommand) : Prop :=
  match command with
  | .restart => False
  | .syncAccepts => ∀ accept ∈ falls.state.foundAccepts options,
      keyOf accept.target = keyOf target → accept.Due falls.state →
        accept.Refused falls.state.now (falls.state.reading (keyOf target))
  | .judgeAndAct records judged reading answers => keyOf judged = keyOf target →
      ∀ baseline ∈ falls.state.baselines (keyOf target),
        ReadingInOrder options target amount first falls records judged reading answers baseline
  | _ => True

variable {options target amount first}

/-! ## What leaves the baseline alone -/

theorem observeWallet_baselines (now : Time) (state : WatchState) (read : WatchTarget)
    (answer : Option WalletReading) :
    (observeWallet now state read answer).baselines = state.baselines := by
  unfold observeWallet
  split
  · rfl
  · dsimp only
    split <;> rfl

theorem openTick_baselines (now : Time) (answers : List (Option WalletReading))
    (state : WatchState) :
    (openTick options now answers state).baselines = (load options state).baselines := by
  have observe (observed : List (WatchTarget × Option WalletReading)) (middle : WatchState) :
      (observed.foldl (fun state read =>
        observeWallet now state read.1 read.2) middle).baselines = middle.baselines := by
    induction observed generalizing middle with
    | nil => rfl
    | cons read rest inductionHypothesis =>
        exact (inductionHypothesis _).trans (observeWallet_baselines now middle _ _)
  exact observe _ _

theorem load_baseline {state : WatchState} {key : WatchKey} {baseline : WalletBaseline}
    (inUse : state.baselines key = some baseline) :
    (load options state).baselines key = some baseline := by
  unfold load
  split
  · exact inUse
  · simp [inUse]

theorem foldl_takeAccept_baseline {accepts : List FoundAccept} {state : WatchState}
    {key : WatchKey}
    (refused : ∀ accept ∈ accepts, keyOf accept.target = key → accept.Due state →
      accept.Refused state.now (state.reading key)) :
    (accepts.foldl takeAccept state).baselines key = state.baselines key := by
  induction accepts generalizing state with
  | nil => rfl
  | cons accept rest inductionHypothesis =>
      have kept : (takeAccept state accept).baselines key = state.baselines key := by
        by_cases same : keyOf accept.target = key
        · unfold takeAccept
          split
          · rfl
          next due =>
            rw [same, if_pos (refused accept (by simp) same (not_not.mp due))]
            rfl
        · unfold takeAccept
          split
          · rfl
          · split
            · rfl
            · exact Function.update_of_ne (Ne.symm same) _ _
      have scanned := takeAccept_scanned state accept
      rw [List.foldl_cons, inductionHypothesis, kept]
      intro other member same due
      rw [scanned.now, scanned.reading]
      refine refused other (by simp [member]) same ?_
      intro known inUse
      rw [same, ← kept, ← same] at inUse
      exact due known inUse

theorem trackExcess_baseline {tracked : WatchTarget} {after : Option ExcessState}
    {write : StoreWrite} {state : WatchState} {key : WatchKey} {baseline : WalletBaseline}
    (inUse : state.baselines key = some baseline) :
    ∃ moved, (trackExcess tracked after write state).baselines key = some moved ∧
      moved.balanceWei = baseline.balanceWei ∧ moved.observedAt = baseline.observedAt := by
  by_cases same : key = keyOf tracked
  · subst same
    unfold trackExcess WatchState.persist
    dsimp only
    rw [inUse]
    dsimp only
    split
    · exact ⟨baseline, inUse, rfl, rfl⟩
    · refine ⟨{ baseline with excess := after }, ?_, rfl, rfl⟩
      split <;> exact Function.update_self _ _ _
  · rw [(trackExcess_pieces tracked after write).baselines_other same]
    exact ⟨baseline, inUse, rfl, rfl⟩

/-! ## The bound -/

/-- What a fall needs of the reservations: the ones not spent before cover it. -/
theorem Booked.allowed {records : WatchedRecords} (booked : Booked amount records)
    (judged : WatchTarget) (baseline : WalletBaseline) :
    (ledgerFor records judged baseline).allowedFallWei =
      ∑ id ∈ (explainingIds records judged baseline).toFinset, amount id := by
  have inBook : ∀ reservation ∈ records.explaining judged (some baseline),
      reservation.amountWei = amount reservation.id := fun reservation member =>
    booked.amounts reservation (List.mem_of_mem_filter member)
  have distinct : (explainingIds records judged baseline).Nodup :=
    booked.distinct.sublist (List.filter_sublist.map _)
  rw [List.sum_toFinset _ distinct, explainingIds, List.map_map]
  exact congrArg List.sum (List.map_congr_left inBook)

/-- What may explain a fall since a later baseline may explain it since the first. -/
theorem explainingIds_mono {records : WatchedRecords} {judged : WatchTarget}
    {baseline : WalletBaseline} (later : first.observedAt ≤ baseline.observedAt) :
    explainingIds records judged baseline ⊆ explainingIds records judged first := by
  refine List.map_subset _ ?_
  intro reservation member
  obtain ⟨stored, explains⟩ := List.mem_filter.mp member
  refine List.mem_filter.mpr ⟨stored, ?_⟩
  simp only [ChainReservation.Explains, Option.mem_some, exists_eq_left',
    decide_eq_true_eq] at explains ⊢
  exact ⟨explains.1, explains.2.imp id fun updated => later.trans updated⟩

/-- The falls so far are covered by the reservations that explained them. -/
structure FallsCovered (target : WatchTarget) (amount : ReservationId → Wei)
    (first : WalletBaseline) (start : Wei) (falls : FallCount) : Prop where
  baseline : ∃ baseline, falls.state.baselines (keyOf target) = some baseline ∧
    bigInt baseline.balanceWei = .ok falls.last ∧ first.observedAt ≤ baseline.observedAt
  covered : start - falls.last ≤ ∑ id ∈ falls.spent.toFinset, amount id
  spent : falls.spent ⊆ falls.counted
  nonneg : ∀ id ∈ falls.counted, 0 ≤ amount id

variable {start : Wei} {falls : FallCount}

/-- A command that leaves the wallet's balance and date alone. -/
theorem FallsCovered.frame (covered : FallsCovered target amount first start falls)
    {next : WatchState}
    (kept : ∀ baseline, falls.state.baselines (keyOf target) = some baseline →
      ∃ moved, next.baselines (keyOf target) = some moved ∧
        moved.balanceWei = baseline.balanceWei ∧ moved.observedAt = baseline.observedAt) :
    FallsCovered target amount first start { falls with state := next } where
  baseline := by
    obtain ⟨baseline, inUse, isLast, later⟩ := covered.baseline
    obtain ⟨moved, isMoved, balance, observed⟩ := kept baseline inUse
    exact ⟨moved, isMoved, balance ▸ isLast, observed ▸ later⟩
  covered := covered.covered
  spent := covered.spent
  nonneg := covered.nonneg

theorem FallsCovered.judge (covered : FallsCovered target amount first start falls)
    {records : WatchedRecords} {judged : WatchTarget} {reading : WalletReading}
    {answers : JudgeAnswers} {next : WatchState} (same : keyOf judged = keyOf target)
    (inOrder : ∀ baseline ∈ falls.state.baselines (keyOf target),
      ReadingInOrder options target amount first falls records judged reading answers baseline)
    (success : judgeAndAct options records judged reading answers falls.state = .ok next) :
    FallsCovered target amount first start
      (falls.judge target first records judged reading next) := by
  obtain ⟨baseline, inUse, isLast, later⟩ := covered.baseline
  have inOrder := inOrder baseline inUse
  have judgedUse : falls.state.baselines (keyOf judged) = some baseline := same ▸ inUse
  have allowed := inOrder.booked.allowed judged baseline
  -- Without a finding, the fall is within what the records explain.
  have explained : falls.last - reading.balanceWei ≤
      (ledgerFor records judged baseline).allowedFallWei := by
    by_contra unexplained
    have unexplained := not_le.mp unexplained
    have nonneg : 0 ≤ (ledgerFor records judged baseline).allowedFallWei := by
      rw [allowed]
      refine Finset.sum_nonneg fun id member => ?_
      obtain ⟨reservation, isExplaining, rfl⟩ := List.mem_map.mp (List.mem_toFinset.mp member)
      have stored := List.mem_of_mem_filter isExplaining
      exact inOrder.booked.amounts reservation stored ▸ inOrder.booked.nonneg reservation stored
    have falls := judgeAndAct_fall judgedUse isLast inOrder.comparable unexplained
      (by linarith) (inOrder.confirmed unexplained) success
    exact inOrder.noFinding next success (same ▸ falls)
  obtain ⟨moved, isMoved, movedBalance, movedAt⟩ := judgeAndAct_ok judgedUse isLast
    inOrder.comparable inOrder.noRise explained success
  have spentIs : (falls.judge target first records judged reading next).spent =
      if reading.balanceWei < falls.last then falls.spent ++ explainingIds records judged baseline
      else falls.spent := by
    simp only [FallCount.judge, inUse]
  have inFirst := @explainingIds_mono first records judged baseline later
  refine ⟨⟨moved, same ▸ isMoved, movedBalance, ?_⟩, ?_, ?_, ?_⟩
  · rcases movedAt with sameDate | ofTick
    · rw [sameDate]
      exact later
    · rw [ofTick]
      exact inOrder.clock
  · rw [spentIs]
    change start - reading.balanceWei ≤ _
    have before := covered.covered
    by_cases fell : reading.balanceWei < falls.last
    · rw [if_pos fell, List.toFinset_append, ← Finset.union_sdiff_self_eq_union,
        Finset.sum_union Finset.disjoint_sdiff]
      have fresh : falls.last - reading.balanceWei ≤
          ∑ id ∈ (explainingIds records judged baseline).toFinset \ falls.spent.toFinset,
            amount id := by
        by_cases again : ∃ id ∈ explainingIds records judged baseline, id ∈ falls.spent
        · exact inOrder.explainedOnce fell again
        · have apart : (explainingIds records judged baseline).toFinset \ falls.spent.toFinset =
              (explainingIds records judged baseline).toFinset := by
            rw [Finset.sdiff_eq_self_iff_disjoint, Finset.disjoint_left]
            intro id member isSpent
            exact again ⟨id, List.mem_toFinset.mp member, List.mem_toFinset.mp isSpent⟩
          rw [apart, ← allowed]
          exact explained
      linarith
    · rw [if_neg fell]
      linarith [inOrder.noRise]
  · rw [spentIs]
    change _ ⊆ falls.counted ++ explainingIds records judged first
    split
    · exact List.append_subset.mpr
        ⟨List.Subset.trans covered.spent (List.subset_append_left _ _),
          List.Subset.trans inFirst (List.subset_append_right _ _)⟩
    · exact List.Subset.trans covered.spent (List.subset_append_left _ _)
  · intro id member
    rcases List.mem_append.mp member with old | new
    · exact covered.nonneg id old
    · obtain ⟨reservation, isExplaining, rfl⟩ := List.mem_map.mp new
      have stored := List.mem_of_mem_filter isExplaining
      exact inOrder.booked.amounts reservation stored ▸ inOrder.booked.nonneg reservation stored

/-- In a run of one process whose readings of the wallet are in order, the balance
of the first baseline less that of the last reading is at most the amounts of the
reservations that were pending at a tick or updated since the first baseline, each
counted once. -/
theorem falls_within_reservations {state : WatchState}
    (begins : state.baselines (keyOf target) = some first)
    (balance : bigInt first.balanceWei = .ok start)
    (run : Machine.Reaches (fallStep options target first)
      (FallsInOrder options target amount first) ⟨state, [], [], start⟩ falls) :
    start - falls.last ≤ ∑ id ∈ falls.counted.toFinset, amount id := by
  have covered : FallsCovered target amount first start falls := by
    refine run.invariant ⟨⟨first, begins, balance, le_refl _⟩, by simp, by simp, by simp⟩ ?_
    intro falls command next covered inOrder stepped
    rw [fallStep, bind_eq_ok] at stepped
    obtain ⟨after, stepped, counted⟩ := stepped
    have same : ∀ {other : WatchState}, other.baselines (keyOf target) =
        falls.state.baselines (keyOf target) →
        FallsCovered target amount first start { falls with state := other } := by
      intro other unchanged
      exact covered.frame fun baseline inUse => ⟨baseline, unchanged.trans inUse, rfl, rfl⟩
    cases command with
    | commit event =>
        obtain rfl := pure_eq_ok.mp counted
        simp only [watchStep, bind_eq_ok, refuse_eq_ok, pure_eq_ok] at stepped
        obtain ⟨-, -, rfl⟩ := stepped
        exact same rfl
    | restart => exact absurd inOrder id
    | openTick now answers =>
        obtain rfl := pure_eq_ok.mp counted
        cases stepped
        refine covered.frame fun baseline inUse => ⟨baseline, ?_, rfl, rfl⟩
        rw [openTick_baselines]
        exact load_baseline inUse
    | syncAccepts =>
        obtain rfl := pure_eq_ok.mp counted
        cases stepped
        exact same (foldl_takeAccept_baseline inOrder)
    | judgeAndAct records judged reading answers =>
        simp only [watchStep, bind_eq_ok, refuse_eq_ok] at stepped
        obtain ⟨-, -, stepped⟩ := stepped
        dsimp only at counted
        split at counted
        next sameWallet =>
          obtain rfl := pure_eq_ok.mp counted
          exact covered.judge sameWallet (inOrder sameWallet) stepped
        next otherWallet =>
          obtain rfl := pure_eq_ok.mp counted
          exact same ((judgeAndAct_pieces options stepped).baselines_other (Ne.symm otherWallet))
    | trackExcess tracked after write =>
        obtain rfl := pure_eq_ok.mp counted
        cases stepped
        exact covered.frame fun baseline inUse => trackExcess_baseline inUse
  refine covered.covered.trans (Finset.sum_le_sum_of_subset_of_nonneg ?_ ?_)
  · intro id member
    exact List.mem_toFinset.mpr (covered.spent (List.mem_toFinset.mp member))
  · intro id member _
    exact covered.nonneg id (List.mem_toFinset.mp member)

end Run

/-! ## Examples -/

namespace WatchSample

def attempt (name : String) (nonce : Int) : AttemptRecord where
  id := .signed ⟨name, target.address⟩
  executionId := ⟨name, target.address⟩
  runId := name
  wallet := target.address
  nonce := some nonce
  hash := some name
  replacementOfId := none
  state := .pending
  robinhoodFinality := none
  createdAt := 0

/-- Two runs have sent one transaction each, and the money of the first one is
still reserved. -/
def sentRecords : WatchedRecords where
  campaigns := [Sample.campaign .ethereum "first", Sample.campaign .ethereum "second"]
  runs := [Sample.run "first", Sample.run "second"]
  intents := []
  attempts := [attempt "first" 5, attempt "second" 6]
  reservations :=
    [{ id := ⟨"first", target.address⟩
       runId := "first"
       wallet := target.address
       amountWei := 10
       actualAmountWei := none
       status := .reserved
       chainId := some .ethereum
       updatedAt := 0 }]

def amount (id : ReservationId) : Wei :=
  if id = ⟨"first", target.address⟩ then 10 else 0

def firstBaseline : WalletBaseline := ⟨5, "1000", 100, none⟩

/-- The first tick has made the reading the baseline. -/
def started : FallCount where
  state := Machine.applyAll (watchStep options) .initial
    [.openTick 100 [some reading], .syncAccepts,
      .judgeAndAct records target reading (answers "evt_1" 100)]
  spent := []
  counted := []
  last := 1000

/-- A tick at an instant that reads the wallet as given. -/
def tick (eventId : String) (now : Time) (shown : WalletReading) : List WatchCommand :=
  [.openTick now [some shown], .syncAccepts,
    .judgeAndAct sentRecords target shown (answers eventId now)]

def falls (commands : List WatchCommand) : FallCount :=
  Machine.applyAll (fallStep options target firstBaseline) started commands

end WatchSample

/-- Two falls of ten pass without a finding, although one reservation of ten is all
there is: it explains the first fall, and while it is pending also the second. -/
theorem falls_sliced :
    let falls := WatchSample.falls
      (WatchSample.tick "evt_2" 200 ⟨6, 990⟩ ++ WatchSample.tick "evt_3" 300 ⟨7, 980⟩)
    (∀ sent ∈ falls.state.reports, sent.finding ≠ .unexplainedFall) ∧
      1000 - falls.last = 20 ∧
      ∑ id ∈ falls.counted.toFinset, WatchSample.amount id = 10 := by
  decide +kernel

namespace WatchSample

theorem tickInOrder : Machine.Reaches (fallStep options target firstBaseline)
    (FallsInOrder options target amount firstBaseline) started
    (falls (tick "evt_2" 200 ⟨6, 990⟩)) := by
  refine (Machine.Reaches.refl _).applyAll ⟨trivial, ?_, ?_, trivial⟩
  · show ∀ accept ∈ WatchState.foundAccepts _ _, _
    decide +kernel
  · rintro - baseline inUse
    obtain rfl : firstBaseline = baseline := Option.some.inj inUse
    refine ⟨⟨by decide, by decide, by decide⟩, by decide +kernel, by decide +kernel, ?_,
      by decide +kernel, by decide +kernel, by decide +kernel⟩
    intro next success
    have findings := congrArg (fun outcome => outcome.toOption.map fun state =>
      state.result.findings) success
    have none : next.result.findings = [] := (Option.some.inj findings).symm
    simp [none]

end WatchSample

/-- One fall within the reservation. -/
theorem falls_within_reservations_sample :
    1000 - (WatchSample.falls (WatchSample.tick "evt_2" 200 ⟨6, 990⟩)).last ≤
      ∑ id ∈ (WatchSample.falls (WatchSample.tick "evt_2" 200 ⟨6, 990⟩)).counted.toFinset,
        WatchSample.amount id :=
  falls_within_reservations (by decide +kernel) (by decide +kernel) WatchSample.tickInOrder

end MintBot
