import Mathlib.Data.List.Induction
import MintBot.Settlement.Summaries

/-!
# When a refresh is exact

After any calls, a refresh stores sums that agree with the reader exactly when its
scope was never refreshed, the rows it refers to are there, and, where the reader
has the same scope, no reservation in it is dated later or not settled yet.
-/

namespace MintBot.Settlement

open Script

/-! ## Sums of rows -/

section Sums

variable {α : Type*} {rows : List α} {small large : α → Int}

theorem sum_le_sum (le : ∀ row ∈ rows, small row ≤ large row) :
    (rows.map small).sum ≤ (rows.map large).sum := by
  induction rows with
  | nil => exact Int.le_refl _
  | cons row rest inductionHypothesis =>
      have others := inductionHypothesis fun row member => le row (List.mem_cons_of_mem _ member)
      have first := le row List.mem_cons_self
      simp only [List.map_cons, List.sum_cons]
      omega

/-- Sums of which one is nowhere larger are equal when no term differs. -/
theorem sum_eq_iff_of_le (le : ∀ row ∈ rows, small row ≤ large row) :
    (rows.map small).sum = (rows.map large).sum ↔ ∀ row ∈ rows, small row = large row := by
  induction rows with
  | nil => simp
  | cons row rest inductionHypothesis =>
      have leRest : ∀ row ∈ rest, small row ≤ large row := fun row member =>
        le row (List.mem_cons_of_mem _ member)
      have first := le row List.mem_cons_self
      have others := sum_le_sum leRest
      simp only [List.map_cons, List.sum_cons, List.forall_mem_cons, ← inductionHypothesis leRest]
      omega

/-- A sum of positive terms misses something where a row is left out. -/
theorem sum_filter_eq_iff {kept : α → Prop} [DecidablePred kept]
    (positive : ∀ row ∈ rows, 0 < large row) :
    ((rows.filter kept).map large).sum = (rows.map large).sum ↔ ∀ row ∈ rows, kept row := by
  have same : ((rows.filter kept).map large).sum =
      (rows.map fun row => if kept row then large row else 0).sum := by
    induction rows with
    | nil => rfl
    | cons row rest inductionHypothesis =>
        have others := inductionHypothesis fun row member =>
          positive row (List.mem_cons_of_mem _ member)
        by_cases inside : kept row
        · simp [inside, others]
        · simp [inside, others]
  rw [same, sum_eq_iff_of_le]
  · refine forall₂_congr fun row member => ?_
    have above := positive row member
    by_cases inside : kept row
    · simp [inside]
    · simp only [inside, if_false, iff_false]
      omega
  · intro row member
    have above := positive row member
    split <;> omega

end Sums

/-! ## Amounts of a reservation -/

/-- The amounts of a reservation after any calls. -/
structure Amounts (row : ReservationRow) : Prop where
  positive : 0 < row.amountWei
  allIn : row.amountWei ≤ row.reservedAmountWei
  components : ∀ amount ∈ [row.mintValueWei, row.l2ExecutionGasWei, row.l1DataGasWei,
    row.priorityFeeComponentWei], 0 ≤ amount
  settled : (∀ amount ∈ row.settledAmountWei, 0 ≤ amount) ∧
    ∀ amounts ∈ row.settledComponents, ∀ amount ∈ amounts.toList, 0 ≤ amount

/-- A change that leaves the component columns alone. -/
def KeepsComponents (change : ReservationRow → ReservationRow) : Prop :=
  ∀ row, (change row).mintValueWei = row.mintValueWei ∧
    (change row).l2ExecutionGasWei = row.l2ExecutionGasWei ∧
    (change row).l1DataGasWei = row.l1DataGasWei ∧
    (change row).priorityFeeComponentWei = row.priorityFeeComponentWei

def Books.AllAmounts (books : Books) : Prop :=
  ∀ row ∈ books.reservations, Amounts row

section Calls

variable {evidence : Evidence} {books next : Books} {value : PUnit} {id : ReservationId}
  {now : Time}

theorem allAmounts_rewrite (sound : Sound books) (amounts : books.AllAmounts)
    {change : ReservationRow → ReservationRow} (keeps : KeepsComponents change)
    {row : ReservationRow} (found : books.reserved id = some row)
    (accepted : RowAccepted evidence (change row)) :
    (books.rewrite id change).AllAmounts := by
  intro other member
  rcases (sound.mem_rewrite found).mp member with ⟨old, -⟩ | rfl
  · exact amounts other old
  · obtain ⟨mint, gas, data, priority⟩ := keeps row
    refine ⟨accepted.positive, accepted.allIn, ?_, accepted.nonneg⟩
    rw [mint, gas, data, priority]
    exact (amounts row (reserved_eq_some found).1).components

theorem allAmounts_updateReserved (sound : Sound books) (amounts : books.AllAmounts)
    {change : ReservationRow → ReservationRow} (keeps : KeepsComponents change)
    (ended : Ends (updateReserved evidence id change) books value next) : next.AllAmounts := by
  rcases ends_updateReserved.mp ended with ⟨row, found, accepted, rfl⟩ | ⟨-, rfl⟩
  · exact allAmounts_rewrite sound amounts keeps found accepted
  · exact amounts

theorem allAmounts_settleInTransaction (sound : Sound books) (amounts : books.AllAmounts)
    {request : SettlementRequest}
    (ended : Ends (settleExecutionComponentsInTransaction evidence id request now) books value
      next) : next.AllAmounts := by
  obtain ⟨row, link, found, linked, settleable, -, rfl⟩ :=
    ends_settleExecutionComponentsInTransaction.mp ended
  exact allAmounts_rewrite sound amounts (fun _ => ⟨rfl, rfl, rfl, rfl⟩) found settleable.accepted

theorem allAmounts_insertReservation (amounts : books.AllAmounts) {record : NewReservation}
    (ended : Ends (insertReservation record) books value next) : next.AllAmounts := by
  rw [insertReservation, ends_refuse_bind, ends_refuse_bind, ends_refuse_bind, ends_write] at ended
  obtain ⟨-, -, bounds, rfl⟩ := ended
  push Not at bounds
  refine List.forall_mem_append.mpr ⟨amounts, ?_⟩
  rw [List.forall_mem_singleton]
  refine ⟨bounds.1, Int.le_refl _, fun amount member => bounds.2 amount ?_, ?_, ?_⟩
  · exact List.mem_append_left [record.buffers.replacementBudgetWei,
      record.buffers.mintValueBufferWei, record.buffers.l2ExecutionGasBufferWei,
      record.buffers.l1DataGasBufferWei, record.buffers.priorityFeeBufferWei] member
  · rintro _ ⟨⟩
  · rintro _ ⟨⟩

theorem allAmounts_settleTotal (sound : Sound books) (amounts : books.AllAmounts)
    {actualAmountWei : Wei}
    (ended : Ends (settleReservationTotal evidence id actualAmountWei now) books value next) :
    next.AllAmounts := by
  rw [settleReservationTotal, ends_read_bind] at ended
  rcases ends_forSome.mp ended with ⟨row, found, ran⟩ | ⟨-, rfl⟩
  · rw [ends_refuse_bind] at ran
    refine allAmounts_updateReserved sound amounts ?_ ran.2
    exact fun _ => ⟨rfl, rfl, rfl, rfl⟩
  · exact amounts

theorem allAmounts_transition (sound : Sound books) (amounts : books.AllAmounts)
    {status : ClosingStatus} (ended : Ends (transition evidence id status now) books value next) :
    next.AllAmounts := by
  rw [transition, ends_require_bind] at ended
  obtain ⟨row, -, ended⟩ := ended
  rw [ends_refuse_bind, ends_refuse_bind, ends_bind] at ended
  obtain ⟨-, -, _, middle, updated, ended⟩ := ended
  have middleAmounts : middle.AllAmounts := by
    refine allAmounts_updateReserved sound amounts ?_ updated
    exact fun _ => ⟨rfl, rfl, rfl, rfl⟩
  rcases ends_onlyIf.mp ended with ⟨-, inserted⟩ | ⟨-, rfl⟩
  · obtain ⟨-, rfl⟩ := ends_insertEntry.mp inserted
    exact middleAmounts
  · exact middleAmounts

/-- Whatever call succeeds, the amounts stay in their bounds. -/
theorem allAmounts_of_ends (sound : Sound books) (amounts : books.AllAmounts) {timed : TimedCall}
    (ended : Ends timed.script books value next) : next.AllAmounts := by
  rcases timed with ⟨call, evidence, now⟩
  have ran := ends_immediate.mp ended
  cases call with
  | insertReservation record => exact allAmounts_insertReservation amounts ran
  | settleComponents id request => exact allAmounts_settleInTransaction sound amounts ran
  | settleStored id request =>
      dsimp only [settleExecutionComponents] at ran
      rw [ends_require_bind] at ran
      obtain ⟨row, -, ran⟩ := ran
      rcases ends_onlyIf.mp ran with ⟨-, settled⟩ | ⟨-, rfl⟩
      · rw [ends_refuse_bind] at settled
        exact allAmounts_settleInTransaction sound amounts settled.2
      · exact amounts
  | settleTotal id actualAmountWei => exact allAmounts_settleTotal sound amounts ran
  | release id =>
      refine allAmounts_updateReserved sound amounts ?_ ran
      exact fun _ => ⟨rfl, rfl, rfl, rfl⟩
  | transition id status => exact allAmounts_transition sound amounts ran

theorem allAmounts_next (sound : Sound books) (amounts : books.AllAmounts) (timed : TimedCall) :
    (books.next timed).AllAmounts := by
  rcases ran : attempt timed.script books with ⟨failure | result, middle⟩
  · have same := timed.undone books failure middle ran
    rw [Books.next, ran, same]
    exact amounts
  · rw [Books.next, ran]
    exact allAmounts_of_ends sound amounts ran

end Calls

/-! ## The two readers -/

section Readers

variable {rows : List ReservationRow} {columns : ReservationId → ReservationColumns} {now : Time}

/-- The readers agree exactly where nothing is dated later and everything is settled. -/
theorem readTotals_eq_iff (amounts : ∀ row ∈ rows, Amounts row) :
    readTotals (rows.filter fun row => (columns row.id).createdAt ≤ now) = refreshTotals rows ↔
      ∀ row ∈ rows, (columns row.id).createdAt ≤ now ∧ row.settledAmountWei ≠ none := by
  have reserved : ∀ row ∈ rows, 0 < row.reservedAmountWei := fun row member =>
    Int.lt_of_lt_of_le (amounts row member).positive (amounts row member).allIn
  have unsettled : ∀ row ∈ rows, row.settledAmountWei.getD 0 ≤
      row.settledAmountWei.getD row.amountWei := by
    intro row member
    cases row.settledAmountWei with
    | none => exact Int.le_of_lt (amounts row member).positive
    | some => exact Int.le_refl _
  have fallback : (∀ row ∈ rows, row.settledAmountWei.getD 0 =
      row.settledAmountWei.getD row.amountWei) ↔ ∀ row ∈ rows, row.settledAmountWei ≠ none := by
    refine forall₂_congr fun row member => ?_
    cases row.settledAmountWei with
    | none => simpa using Int.ne_of_lt (amounts row member).positive
    | some => simp
  constructor
  · intro same
    have all := (sum_filter_eq_iff reserved).mp (congrArg SpendTotals.reservedAmountWei same)
    have whole : rows.filter (fun row => (columns row.id).createdAt ≤ now) = rows :=
      List.filter_eq_self.mpr fun row member => decide_eq_true (all row member)
    rw [whole] at same
    have settled := fallback.mp
      ((sum_eq_iff_of_le unsettled).mp (congrArg SpendTotals.settledAmountWei same))
    exact fun row member => ⟨all row member, settled row member⟩
  · intro all
    have whole : rows.filter (fun row => (columns row.id).createdAt ≤ now) = rows :=
      List.filter_eq_self.mpr fun row member => decide_eq_true (all row member).1
    have settled := fallback.mpr fun row member => (all row member).2
    rw [whole, readTotals, refreshTotals, totals, totals, List.map_congr_left settled]

end Readers

/-! ## One refresh -/

/-- What holds of the store after any calls. -/
structure SummaryStore.Sound (store : SummaryStore) : Prop where
  books : Settlement.Sound store.books
  amounts : store.books.AllAmounts
  ids : ∀ row ∈ store.summaries, row.id = .stored row.scope

/-- The scopes that both readers filter by alike. -/
def SpendScope.Compared : SpendScope → Prop
  | wallet _ | campaign _ | run _ => True
  | period _ | day _ => False

/-- The refresh succeeds, its row holds the sums it returns, and these are the sums of the
reader. -/
def RefreshExact (columns : ReservationId → ReservationColumns) (store : SummaryStore)
    (refresh : Refresh) : Prop :=
  ∃ summary next, Ends (refreshSpendSummary columns refresh) store summary next ∧
    summary.totals = refreshTotals (store.books.inScope columns refresh.scope) ∧
    (∃ row ∈ next.summaries, row.key = (refresh.summary columns store.books).key) ∧
    (∀ row ∈ next.summaries, row.key = (refresh.summary columns store.books).key →
      row.totals = summary.totals) ∧
    (refresh.scope.Compared →
      (readSpendSummary columns store.books refresh.scope none refresh.now).totals =
        summary.totals)

/-- The scope was never refreshed, the rows that the summary refers to are there, and where both
readers filter alike everything in scope is settled and none of it is dated later. -/
structure Refreshable (columns : ReservationId → ReservationColumns) (store : SummaryStore)
    (refresh : Refresh) : Prop where
  first : ∀ row ∈ store.summaries, row.scope ≠ refresh.scope
  wallet : ∀ id ∈ refresh.options.walletId.or refresh.scope.walletId, id ∈ refresh.wallets
  campaign : ∀ id ∈ refresh.options.campaignId.or refresh.scope.campaignId,
    id ∈ refresh.campaigns
  settled : refresh.scope.Compared → ∀ row ∈ store.books.inScope columns refresh.scope,
    (columns row.id).createdAt ≤ refresh.now ∧ row.settledAmountWei ≠ none

section OneRefresh

variable {columns : ReservationId → ReservationColumns} {store next : SummaryStore}
  {refresh : Refresh} {summary : SpendSummaryRecord}

theorem ends_refreshSpendSummary :
    Ends (refreshSpendSummary columns refresh) store summary next ↔
      summary = refresh.summary columns store.books ∧
        (∀ amount ∈ summary.totals.toList, 0 ≤ amount) ∧
        (∀ row ∈ store.summaries, row.key ≠ summary.key) ∧
        (∀ row ∈ store.summaries, row.id ≠ summary.id) ∧
        ((∀ id ∈ summary.walletId, id ∈ refresh.wallets) ∧
          ∀ id ∈ summary.campaignId, id ∈ refresh.campaigns) ∧
        next = { store with summaries := store.summaries ++ [summary] } := by
  rw [refreshSpendSummary, ends_immediate, ends_read_bind, ends_refuse_bind, ends_refuse_bind,
    ends_refuse_bind, ends_refuse_bind, ends_write_bind, ends_pure]
  push Not
  constructor
  · rintro ⟨nonneg, keys, ids, refers, rfl, rfl⟩
    exact ⟨rfl, nonneg, keys, ids, refers, rfl⟩
  · rintro ⟨rfl, nonneg, keys, ids, refers, rfl⟩
    exact ⟨nonneg, keys, ids, refers, rfl, rfl⟩

theorem component_nonneg {row : ReservationRow} (amounts : Amounts row)
    {settled : ComponentAmounts → Wei} {reserved : Wei}
    (listed : ∀ components : ComponentAmounts, settled components ∈ components.toList)
    (nonneg : 0 ≤ reserved) : 0 ≤ row.component settled reserved := by
  unfold ReservationRow.component
  split
  · cases found : row.settledComponents with
    | none => exact Int.le_refl 0
    | some components => exact amounts.settled.2 components found _ (listed components)
  · exact nonneg

/-- No sum is negative. -/
theorem refreshTotals_nonneg {rows : List ReservationRow} (amounts : ∀ row ∈ rows, Amounts row) :
    ∀ amount ∈ (refreshTotals rows).toList, 0 ≤ amount := by
  have sum_nonneg {large : ReservationRow → Int} (nonneg : ∀ row ∈ rows, 0 ≤ large row) :
      0 ≤ (rows.map large).sum := by
    have zero := sum_le_sum nonneg
    simpa using zero
  have positive : ∀ row ∈ rows, 0 ≤ row.amountWei := fun row member =>
    Int.le_of_lt (amounts row member).positive
  simp only [SpendTotals.toList, List.forall_mem_cons, refreshTotals, totals]
  refine ⟨?_, ?_, Int.le_refl 0, ?_, ?_, ?_, ?_, nofun⟩
  · exact sum_nonneg fun row member => Int.le_trans (positive row member) (amounts row member).allIn
  · refine sum_nonneg fun row member => ?_
    cases found : row.settledAmountWei with
    | none => exact positive row member
    | some amount => exact (amounts row member).settled.1 amount found
  · exact sum_nonneg fun row member => component_nonneg (amounts row member)
      (fun components => by simp [ComponentAmounts.toList])
      ((amounts row member).components _ (by simp))
  · exact sum_nonneg fun row member => component_nonneg (amounts row member)
      (fun components => by simp [ComponentAmounts.toList])
      ((amounts row member).components _ (by simp))
  · exact sum_nonneg fun row member => component_nonneg (amounts row member)
      (fun components => by simp [ComponentAmounts.toList])
      ((amounts row member).components _ (by simp))
  · exact sum_nonneg fun row member => component_nonneg (amounts row member)
      (fun components => by simp [ComponentAmounts.toList])
      ((amounts row member).components _ (by simp))

theorem compared_at {scope : SpendScope} (compared : scope.Compared) : scope.at none = scope := by
  cases scope with
  | wallet | campaign | run => rfl
  | period | day => cases compared

/-- A refresh is exact exactly under these conditions. -/
theorem SummaryStore.Sound.refreshExact_iff (sound : store.Sound) :
    RefreshExact columns store refresh ↔ Refreshable columns store refresh := by
  have amounts : ∀ row ∈ store.books.inScope columns refresh.scope, Amounts row :=
    fun row member => sound.amounts row (List.mem_filter.mp member).1
  have agree : refresh.scope.Compared →
      ((readSpendSummary columns store.books refresh.scope none refresh.now).totals =
          (refresh.summary columns store.books).totals ↔
        ∀ row ∈ store.books.inScope columns refresh.scope,
          (columns row.id).createdAt ≤ refresh.now ∧ row.settledAmountWei ≠ none) := by
    intro compared
    unfold readSpendSummary Refresh.summary
    rw [compared_at compared]
    exact readTotals_eq_iff amounts
  constructor
  · rintro ⟨summary, next, ended, -, -, -, same⟩
    obtain ⟨rfl, -, -, ids, ⟨wallet, campaign⟩, -⟩ := ends_refreshSpendSummary.mp ended
    refine ⟨fun row member sameScope => ids row member ?_, wallet, campaign, fun compared => ?_⟩
    · exact (sound.ids row member).trans (congrArg SummaryId.stored sameScope)
    · exact (agree compared).mp (same compared)
  · intro refreshable
    refine ⟨refresh.summary columns store.books, _, ends_refreshSpendSummary.mpr
      ⟨rfl, refreshTotals_nonneg amounts, ?_, ?_, ⟨refreshable.wallet, refreshable.campaign⟩, rfl⟩,
      rfl, ⟨_, List.mem_append_right _ (List.mem_singleton_self _), rfl⟩, ?_, fun compared => ?_⟩
    · exact fun row member same => refreshable.first row member (congrArg Prod.fst same)
    · intro row member same
      rw [sound.ids row member] at same
      exact refreshable.first row member (SummaryId.stored.inj same)
    · intro row member same
      rcases List.mem_append.mp member with old | new
      · exact absurd (congrArg Prod.fst same) (refreshable.first row old)
      · rw [List.mem_singleton.mp new]
    · exact (agree compared).mpr (refreshable.settled compared)

end OneRefresh

/-! ## Runs -/

section Runs

variable {columns : ReservationId → ReservationColumns}

theorem SummaryStore.Sound.next {store : SummaryStore} (sound : store.Sound) (call : SummaryCall) :
    (store.next columns call).Sound := by
  cases call with
  | reservations timed =>
      exact ⟨sound.books.effect (store.books.next_effect timed),
        allAmounts_next sound.books sound.amounts timed, sound.ids⟩
  | refresh refresh =>
      rcases ran : attempt (refreshSpendSummary columns refresh) store with
        ⟨failure | summary, middle⟩
      · have same := Undone.immediate _ store failure middle ran
        rw [SummaryStore.next, ran, same]
        exact sound
      · rw [SummaryStore.next, ran]
        obtain ⟨rfl, -, -, -, -, rfl⟩ := ends_refreshSpendSummary.mp ran
        refine ⟨sound.books, sound.amounts, List.forall_mem_append.mpr ⟨sound.ids, ?_⟩⟩
        rw [List.forall_mem_singleton]
        rfl

theorem SummaryStore.sound_empty : SummaryStore.empty.Sound where
  books := Settlement.sound_empty
  amounts _ member := absurd member List.not_mem_nil
  ids _ member := absurd member List.not_mem_nil

theorem sound_after (calls : List SummaryCall) : (SummaryStore.after columns calls).Sound := by
  induction calls using List.reverseRecOn with
  | nil => exact SummaryStore.sound_empty
  | append_singleton calls call inductionHypothesis =>
      rw [SummaryStore.after, List.foldl_append]
      exact inductionHypothesis.next call

/-- After any calls, a refresh is exact exactly when its scope was never refreshed, the rows it
refers to are there, and a compared scope holds nothing unsettled or dated later. -/
theorem refresh_exact_iff (columns : ReservationId → ReservationColumns) (calls : List SummaryCall)
    (refresh : Refresh) :
    RefreshExact columns (SummaryStore.after columns calls) refresh ↔
      Refreshable columns (SummaryStore.after columns calls) refresh :=
  (sound_after calls).refreshExact_iff

/-! ## A scope that is refreshed twice -/

/-- The refresh of a wallet that is known. -/
def walletRefresh (now : Time) : Refresh where
  scope := .wallet ⟨.ethereum, "0xa1"⟩
  options := {}
  wallets := [⟨.ethereum, "0xa1"⟩]
  campaigns := []
  now := now

/-- The second refresh of a wallet fails, although everything it refers to is there. -/
theorem second_refresh_fails :
    ¬ ∀ (columns : ReservationId → ReservationColumns) (calls : List SummaryCall)
        (refresh : Refresh),
      (∀ id ∈ refresh.options.walletId.or refresh.scope.walletId, id ∈ refresh.wallets) →
      (∀ id ∈ refresh.options.campaignId.or refresh.scope.campaignId, id ∈ refresh.campaigns) →
      RefreshExact columns (SummaryStore.after columns calls) refresh := by
  intro claimed
  obtain ⟨summary, next, ended, -⟩ := claimed (fun _ => ⟨none, "default", "1970-01-01", 0⟩)
    [.refresh (walletRefresh 1)] (walletRefresh 2) (by simp [walletRefresh, SpendScope.walletId])
    (by simp [walletRefresh, SpendScope.campaignId])
  have refused : (attempt (refreshSpendSummary (fun _ => ⟨none, "default", "1970-01-01", 0⟩)
      (walletRefresh 2)) (SummaryStore.after (fun _ => ⟨none, "default", "1970-01-01", 0⟩)
        [.refresh (walletRefresh 1)])).1 =
      .error "spend summaries are append-only snapshots" := by
    decide +kernel
  rw [ended] at refused
  cases refused

end Runs

end MintBot.Settlement
