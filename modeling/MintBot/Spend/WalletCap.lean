import Mathlib
import MintBot.Spend.Ledger

/-!
# The daily cap of a wallet over whole runs

Every reservation of a wallet was tested against the daily cap of its campaign
when it was admitted, with the amounts that were pending or had settled within
the last 24 hours.  Settlements and releases come later and in any order; the
rolling ledger turns the tests into bounds on every window and on the exposure
after every admission that is not earlier than the newest reservation of the
wallet.
-/

namespace MintBot

open Machine RollingCap

section Bounded

variable {select : SpendReservationRow → Prop} [DecidablePred select]

/-- The rows of a selection keep the rolling cap. -/
def CapHolds (select : SpendReservationRow → Prop) [DecidablePred select] (cap : Wei)
    (rows : List SpendReservationRow) : Prop :=
  Bounded rollingSpendWindowMs cap (ledger select rows)

/-- The admitted rows of an operation leave the selected exposure within the
cap. -/
def AdmitsWithin (fleetPolicy : Option FleetSpendPolicy) (select : SpendReservationRow → Prop)
    [DecidablePred select] (cap : Wei) (db : Db) (op : StoreOp) : Prop :=
  ∀ now input, op = .admission now input → ∀ rows row,
    admissionPreconditions fleetPolicy db now input = .ok () →
    (∃ wallet ∈ input.wallets, db.findWallet input.campaign wallet = .ok row.walletId) →
    (admissionContext fleetPolicy db now input).Admits rows row → select row →
    reservedTotal (fun other => select other ∧ other.CountsSince (rollingSpendCutoff now)) rows +
      row.reservedAmountWei ≤ cap

/-- An admitted row within the cap keeps the cap. -/
theorem CapHolds.insert {cap : Wei} {context : AdmissionContext}
    {rows : List SpendReservationRow} {row : SpendReservationRow}
    (holds : CapHolds select cap rows) (positive : 0 < context.amount)
    (admits : context.Admits rows row)
    (within : select row →
      reservedTotal
          (fun other => select other ∧ other.CountsSince (rollingSpendCutoff context.now)) rows +
        row.reservedAmountWei ≤ cap) :
    CapHolds select cap (row :: rows) := by
  unfold CapHolds at holds ⊢
  rw [ledger_cons]
  by_cases selected : select row
  · rw [if_pos selected]
    obtain ⟨walletId, wallet, rfl⟩ := admits.made
    have accepted := within selected
    rw [← exposure_ledger] at accepted
    exact holds.admit (le_of_lt positive) accepted
  · rw [if_neg selected]
    exact holds

/-- A run whose admissions stay within a cap keeps the cap. -/
theorem reaches_capHolds {fleetPolicy : Option FleetSpendPolicy} {guard : Db → StoreOp → Prop}
    {cap : Wei} {start db : Db}
    (stable : ∀ old new, SpendReservationRow.Later old new → (select new ↔ select old))
    (within : ∀ db op, guard db op → AdmitsWithin fleetPolicy select cap db op)
    (empty : start.reservations = [])
    (run : Reaches (StoreOp.step fleetPolicy) guard start db) :
    CapHolds select cap db.reservations := by
  refine run.invariant (I := fun db => CapHolds select cap db.reservations) ?_ ?_
  · rw [empty]
    trivial
  · intro state op next holds allowed stepped
    rcases StoreOp.step_reservations stepped with ⟨now, input, result, rfl, admitted⟩ | later
    · exact admitExecution_reservations holds
        (fun rows row kept checked positive touched admits =>
          kept.insert positive admits
            (within state _ allowed now input rfl rows row checked touched admits)) admitted
    · exact holds.later (ledger_later stable later)

/-- The exposure of the selected rows is within the cap for every reader whose
clock is not behind the newest of them. -/
theorem CapHolds.exposure_le {cap : Wei} {rows : List SpendReservationRow}
    (holds : CapHolds select cap rows) (capNonneg : 0 ≤ cap) {now : Time}
    (current : ∀ row ∈ (rows.filter fun row => decide (select row)).head?, row.createdAt ≤ now) :
    reservedTotal (fun row => select row ∧ row.CountsSince (rollingSpendCutoff now)) rows ≤
      cap := by
  rw [← exposure_ledger]
  refine Bounded.exposure_le holds capNonneg ?_
  intro entry first
  unfold ledger at first
  rw [List.head?_map, Option.mem_map] at first
  obtain ⟨row, newest, rfl⟩ := first
  exact current row newest

/-- What settled in one window is within the cap when no settlement is earlier
than its admission. -/
theorem CapHolds.settled_le {cap : Wei} {rows : List SpendReservationRow}
    (holds : CapHolds select cap rows) (capNonneg : 0 ≤ cap)
    (stamped : ∀ row ∈ rows, row.Stamped)
    (ordered : ∀ row ∈ rows, select row → row.SettledInOrder) (start : Time) :
    reservedTotal (fun row => select row ∧ row.SettledIn start) rows ≤ cap := by
  classical
  have inWindow : ∀ row ∈ rows, (select row ∧ row.SettledIn start ↔
      select row ∧ ∃ instant, row.toEntry.standing = .settled instant ∧ start < instant ∧
        instant ≤ start + rollingSpendWindowMs) := by
    intro row member
    have settled : ∀ instant, row.toEntry.standing = .settled instant ↔
        row.settledAt = some instant :=
      fun instant => SpendReservationRow.standing_eq_settled (stamped row member)
    simp only [settled, SpendReservationRow.SettledIn, Option.mem_def]
  rw [← charge_ledger (p := fun entry => ∃ instant, entry.standing = .settled instant ∧
    start < instant ∧ instant ≤ start + rollingSpendWindowMs) rows inWindow]
  refine Bounded.settled_le holds capNonneg ?_ start ?_
  · intro entry member instant settled
    obtain ⟨row, selected, rfl⟩ := List.mem_map.mp member
    obtain ⟨rowMember, inSelection⟩ := List.mem_filter.mp selected
    have present := (SpendReservationRow.standing_eq_settled (stamped row rowMember)).mp settled
    exact ordered row rowMember (of_decide_eq_true inSelection) instant present
  · rintro entry ⟨instant, settled, after, before⟩
    exact ⟨instant, settled, le_of_lt after, before⟩

/-- Along a run from an empty store only settled rows carry a settlement
instant. -/
theorem reaches_stamped {fleetPolicy : Option FleetSpendPolicy} {guard : Db → StoreOp → Prop}
    {start db : Db} (empty : start.reservations = [])
    (run : Reaches (StoreOp.step fleetPolicy) guard start db) :
    ∀ row ∈ db.reservations, row.Stamped := by
  refine run.invariant (I := fun db => ∀ row ∈ db.reservations, row.Stamped) ?_ ?_
  · simp [empty]
  · intro state op next holds allowed stepped
    rcases StoreOp.step_reservations stepped with ⟨now, input, result, rfl, admitted⟩ | later
    · refine admitExecution_reservations
        (I := fun rows => ∀ row ∈ rows, SpendReservationRow.Stamped row) holds ?_ admitted
      intro rows row kept checked positive touched admits other member
      rcases List.mem_cons.mp member with rfl | member
      · obtain ⟨walletId, wallet, rfl⟩ := admits.made
        simp [SpendReservationRow.Stamped, reservationRow]
      · exact kept other member
    · intro row member
      obtain ⟨old, oldMember, step⟩ := Table.forall₂_mem_right later member
      exact step.stamped (holds old oldMember)

end Bounded

/-! ## Wallets -/

/-- The admission is about this wallet. -/
def CanonicalAdmissionInput.Touches (input : CanonicalAdmissionInput) (db : Db)
    (walletId : WalletId) : Prop :=
  db.chainProfileForCampaign input.campaign.id = some walletId.chainProfileId ∧
    walletId.address ∈ input.wallets.map toLowerCase

instance (input : CanonicalAdmissionInput) (db : Db) (walletId : WalletId) :
    Decidable (input.Touches db walletId) := by
  unfold CanonicalAdmissionInput.Touches
  infer_instance

/-- Admissions that touch the wallet have a daily cap of at most `cap`. -/
def WalletAdmission (walletId : WalletId) (cap : Nat) (db : Db) : StoreOp → Prop
  | .admission _ input => input.Touches db walletId → input.campaign.spendPolicy.dailyCapWei ≤ cap
  | _ => True

instance (walletId : WalletId) (cap : Nat) (db : Db) (op : StoreOp) :
    Decidable (WalletAdmission walletId cap db op) :=
  match op with
  | .admission _ input =>
      inferInstanceAs
        (Decidable (input.Touches db walletId → input.campaign.spendPolicy.dailyCapWei ≤ cap))
  | .attempt _ _ | .receipt _ _ | .transact _ _ | .settleComponents _ _ _ | .settleTotal _ _ _
  | .transitionReservation _ _ | .abortRemaining | .abortRunIfUnsent _ | .setKillSwitch _ =>
      .isTrue trivial

/-- The steps of a run whose admissions of the wallet are capped and after which
no reservation of the wallet has settled before its admission. -/
def WalletStep (fleetPolicy : Option FleetSpendPolicy) (walletId : WalletId) (cap : Nat)
    (db : Db) (op : StoreOp) : Prop :=
  WalletAdmission walletId cap db op ∧
    ∀ row ∈ (apply (StoreOp.step fleetPolicy) db op).reservations,
      row.walletId = walletId → row.SettledInOrder

instance (fleetPolicy : Option FleetSpendPolicy) (walletId : WalletId) (cap : Nat) (db : Db)
    (op : StoreOp) : Decidable (WalletStep fleetPolicy walletId cap db op) := by
  unfold WalletStep
  infer_instance

theorem WalletAdmission.admitsWithin {fleetPolicy : Option FleetSpendPolicy}
    {walletId : WalletId} {cap : Nat} {db : Db} {op : StoreOp}
    (capped : WalletAdmission walletId cap db op) :
    AdmitsWithin fleetPolicy (fun row => row.walletId = walletId) cap db op := by
  rintro now input rfl rows row checked ⟨wallet, member, found⟩ admits named
  obtain ⟨chainId, chain, identity⟩ := findWallet_eq_ok.mp found
  have touches : input.Touches db walletId := by
    rw [← named, ← identity]
    exact ⟨chain, List.mem_map_of_mem member⟩
  obtain ⟨rowWallet, text, rfl⟩ := admits.made
  have within := admits.walletCap
  rw [named] at within
  exact le_trans within (capped touches)

theorem Later.walletId_eq {old new : SpendReservationRow}
    (later : SpendReservationRow.Later old new) : new.walletId = old.walletId := by
  cases later <;> rfl

/-- The wallet cap over whole runs: what settled in any window of 24 hours is
within the cap, and so is the exposure after an admission whose clock reading is
not behind the newest reservation of the wallet. -/
theorem wallet_cap_of_run {fleetPolicy : Option FleetSpendPolicy} {walletId : WalletId}
    {cap : Nat} {start db : Db} (empty : start.reservations = [])
    (run : Reaches (StoreOp.step fleetPolicy) (WalletStep fleetPolicy walletId cap) start db) :
    (∀ instant, reservedTotal
      (fun row => row.walletId = walletId ∧ row.SettledIn instant) db.reservations ≤ cap) ∧
    ∀ now input admitted result, WalletAdmission walletId cap db (.admission now input) →
      admitExecution fleetPolicy db now input = .ok (admitted, result) →
      (∀ row ∈ (admitted.reservations.filter fun row => row.walletId = walletId).head?,
        row.createdAt ≤ now) →
      admitted.walletDailyExposure walletId (rollingSpendCutoff now) ≤ cap := by
  have capNonneg : (0 : Wei) ≤ cap := Int.natCast_nonneg cap
  have holds : CapHolds (fun row => row.walletId = walletId) cap db.reservations :=
    reaches_capHolds (fun old new later => by rw [Later.walletId_eq later])
      (fun state op allowed => allowed.1.admitsWithin) empty run
  constructor
  · intro instant
    refine holds.settled_le capNonneg (reaches_stamped empty run) ?_ instant
    cases run with
    | refl => simp [empty]
    | tail _ command allowed => exact allowed.2
  · intro now input admitted result capped success current
    have holdsAfter : CapHolds (fun row => row.walletId = walletId) cap admitted.reservations :=
      admitExecution_reservations holds
        (fun rows row kept checked positive touched admits =>
          kept.insert positive admits
            (capped.admitsWithin now input rfl rows row checked touched admits)) success
    exact holdsAfter.exposure_le capNonneg current

/-- One wallet mints in full at instant 0. -/
def walletMinted : Db :=
  Sample.after (Sample.mint .ethereum 0 "first" "w") (Sample.db .ethereum ["first", "second"])

/-- A second campaign is admitted one window and one millisecond later. -/
def walletReadmitted : Db :=
  Sample.after [.admission 86400001 (Sample.input .ethereum "second" ["w"])] walletMinted

theorem walletMinted_reaches :
    Reaches (StoreOp.step Sample.fleetPolicy) (WalletStep Sample.fleetPolicy ⟨.ethereum, "w"⟩ 100)
      (Sample.db .ethereum ["first", "second"]) walletMinted :=
  (Reaches.refl _).applyAll (by decide +kernel)

theorem wallet_cap_of_run_sample :
    (∀ instant, reservedTotal
      (fun row => row.walletId = ⟨.ethereum, "w"⟩ ∧ row.SettledIn instant)
        walletMinted.reservations ≤ 100) ∧
    ∃ admitted result,
      admitExecution Sample.fleetPolicy walletMinted 86400001
        (Sample.input .ethereum "second" ["w"]) = .ok (admitted, result) ∧
      admitted.walletDailyExposure ⟨.ethereum, "w"⟩ (rollingSpendCutoff 86400001) ≤ 100 := by
  have bounds := wallet_cap_of_run rfl walletMinted_reaches
  have admission : ∃ outcome ∈ (admitExecution Sample.fleetPolicy walletMinted 86400001
      (Sample.input .ethereum "second" ["w"])).toOption,
      ∀ row ∈ (outcome.1.reservations.filter
        fun row => row.walletId = ⟨.ethereum, "w"⟩).head?, row.createdAt ≤ 86400001 := by
    decide +kernel
  obtain ⟨⟨admitted, result⟩, succeeded, current⟩ := admission
  have success := Fallible.mem_toOption.mp succeeded
  exact ⟨bounds.1, admitted, result, success,
    bounds.2 86400001 _ admitted result (by decide +kernel) success current⟩

/-- A repeated admission makes no new test, and the clock may lag the last
admission by the tolerance: its window can then hold an amount that had left
the window of the newest reservation. -/
theorem wallet_cap_fails_behind_the_clock :
    ¬ ∀ (fleetPolicy : Option FleetSpendPolicy) (walletId : WalletId) (cap : Nat) (start db : Db),
      start.reservations = [] →
      Reaches (StoreOp.step fleetPolicy) (WalletStep fleetPolicy walletId cap) start db →
      ∀ now input admitted result, WalletAdmission walletId cap db (.admission now input) →
        admitExecution fleetPolicy db now input = .ok (admitted, result) →
        admitted.walletDailyExposure walletId (rollingSpendCutoff now) ≤ cap := by
  intro claim
  have run : Reaches (StoreOp.step Sample.fleetPolicy)
      (WalletStep Sample.fleetPolicy ⟨.ethereum, "w"⟩ 100)
      (Sample.db .ethereum ["first", "second"]) walletReadmitted :=
    walletMinted_reaches.applyAll (by decide +kernel)
  have repeated : ∃ outcome ∈ (admitExecution Sample.fleetPolicy walletReadmitted 86400000
      (Sample.input .ethereum "second" ["w"])).toOption,
      outcome.1.walletDailyExposure ⟨.ethereum, "w"⟩ (rollingSpendCutoff 86400000) = 200 := by
    decide +kernel
  obtain ⟨⟨admitted, result⟩, succeeded, total⟩ := repeated
  have bound := claim _ _ _ _ _ rfl run 86400000 _ admitted result (by decide +kernel)
    (Fallible.mem_toOption.mp succeeded)
  rw [total] at bound
  exact absurd bound (by decide)

end MintBot
