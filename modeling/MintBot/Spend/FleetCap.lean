import MintBot.Spend.WalletCap

/-!
# The fleet cap of a mint class over whole runs

The daily cap of a chain and mint class is tested against the rows of all
wallets, the rows of the same batch included.  A row is of the class of its
request because a request under a fleet policy is for at least one NFT at a
price that is not negative; with this the argument for one wallet carries over.
-/

namespace MintBot

open Fallible Machine RollingCap

/-- The reservation counts towards a mint class of a chain. -/
def SpendReservationRow.InClass (chainId : ChainId) (mintClass : MintClass)
    (row : SpendReservationRow) : Prop :=
  row.chainProfileId = chainId ∧ row.OfClass mintClass

instance (chainId : ChainId) (mintClass : MintClass) (row : SpendReservationRow) :
    Decidable (row.InClass chainId mintClass) := by
  unfold SpendReservationRow.InClass
  infer_instance

theorem SpendReservationRow.Later.inClass_iff {chainId : ChainId} {mintClass : MintClass}
    {old new : SpendReservationRow} (later : SpendReservationRow.Later old new) :
    new.InClass chainId mintClass ↔ old.InClass chainId mintClass := by
  cases later <;> exact Iff.rfl

/-- The admitted campaign is stored on the chain that the request names. -/
def CanonicalAdmissionInput.OnStoredChain (input : CanonicalAdmissionInput) (db : Db) : Prop :=
  ∀ chainId ∈ db.chainProfileForCampaign input.campaign.id, chainId = input.campaign.chainId

instance (input : CanonicalAdmissionInput) (db : Db) : Decidable (input.OnStoredChain db) := by
  unfold CanonicalAdmissionInput.OnStoredChain
  infer_instance

/-- Admitted campaigns are on their stored chain. -/
def FleetAdmission (db : Db) : StoreOp → Prop
  | .admission _ input => input.OnStoredChain db
  | _ => True

instance (db : Db) (op : StoreOp) : Decidable (FleetAdmission db op) :=
  match op with
  | .admission _ input => inferInstanceAs (Decidable (input.OnStoredChain db))
  | .attempt _ _ | .receipt _ _ | .transact _ _ | .settleComponents _ _ _ | .settleTotal _ _ _
  | .transitionReservation _ _ | .abortRemaining | .abortRunIfUnsent _ | .setKillSwitch _ =>
      .isTrue trivial

/-- The steps of a run in which campaigns keep their chain and after which no
reservation of the class has settled before its admission. -/
def FleetStep (fleetPolicy : Option FleetSpendPolicy) (chainId : ChainId) (mintClass : MintClass)
    (db : Db) (op : StoreOp) : Prop :=
  FleetAdmission db op ∧
    ∀ row ∈ (apply (StoreOp.step fleetPolicy) db op).reservations,
      row.InClass chainId mintClass → row.SettledInOrder

instance (fleetPolicy : Option FleetSpendPolicy) (chainId : ChainId) (mintClass : MintClass)
    (db : Db) (op : StoreOp) : Decidable (FleetStep fleetPolicy chainId mintClass db op) := by
  unfold FleetStep
  infer_instance

/-- The class of a stored row, read from its mint value, is the class of its
request, read from the price. -/
theorem ofClass_reservationRow_iff {input : CanonicalAdmissionInput} {walletId : WalletId}
    {wallet : String} {requestFingerprint : Fingerprint} {amount : Wei} {now : Time}
    {mintClass : MintClass} (quantity : 1 ≤ input.campaign.quantity)
    (price : 0 ≤ input.campaign.mintPriceWei) :
    (reservationRow input walletId wallet requestFingerprint amount now).OfClass mintClass ↔
      input.mintClass = mintClass := by
  have zero : input.campaign.mintPriceWei * input.campaign.quantity = 0 ↔
      input.campaign.mintPriceWei = 0 := by
    rw [Int.mul_eq_zero]
    constructor
    · rintro (zeroPrice | zeroQuantity)
      · exact zeroPrice
      · omega
    · exact Or.inl
  have value : 0 ≤ input.campaign.mintPriceWei * input.campaign.quantity :=
    Int.mul_nonneg price (by omega)
  unfold SpendReservationRow.OfClass CanonicalAdmissionInput.mintClass
  by_cases freeMint : input.campaign.mintPriceWei = 0
  · cases mintClass <;> simp [reservationRow, freeMint]
  · have positive : 0 < input.campaign.mintPriceWei * input.campaign.quantity :=
      lt_of_le_of_ne value (Ne.symm (mt zero.mp freeMint))
    cases mintClass with
    | free => simpa [reservationRow, freeMint] using mt zero.mp freeMint
    | paid => simpa [reservationRow, freeMint] using positive

/-- The store's daily sum of a class is the exposure of its rows. -/
theorem fleetDailyExposure_eq (db : Db) (chainId : ChainId) (mintClass : MintClass)
    (cutoff : Time) :
    db.fleetDailyExposure chainId mintClass cutoff =
      reservedTotal (fun row => row.InClass chainId mintClass ∧ row.CountsSince cutoff)
        db.reservations := by
  unfold Db.fleetDailyExposure SpendReservationRow.InClass
  simp only [and_assoc]

theorem FleetAdmission.admitsWithin {fleetPolicy : Option FleetSpendPolicy} {chainId : ChainId}
    {mintClass : MintClass} {policy : FleetSpendPolicy}
    (inForce : policy ∈ fleetPolicyFor fleetPolicy chainId) {db : Db} {op : StoreOp}
    (stored : FleetAdmission db op) :
    AdmitsWithin fleetPolicy (fun row => row.InClass chainId mintClass)
      (classDailyCap policy chainId mintClass) db op := by
  rintro now input rfl rows row checked ⟨wallet, member, found⟩ admits ⟨onChain, ofClass⟩
  obtain ⟨storedChain, chain, identity⟩ := findWallet_eq_ok.mp found
  have sameChain : input.campaign.chainId = chainId := by
    have named : row.walletId.chainProfileId = input.campaign.chainId := by
      rw [← identity]
      exact stored storedChain chain
    obtain ⟨walletId, text, rfl⟩ := admits.made
    exact named.symm.trans onChain
  subst sameChain
  obtain ⟨quantity, price⟩ := admissionPreconditions_amounts inForce checked
  have sameClass : input.mintClass = mintClass := by
    obtain ⟨walletId, text, rfl⟩ := admits.made
    exact (ofClass_reservationRow_iff quantity price).mp ofClass
  subst sameClass
  have within := admits.fleetCap policy inForce
  obtain ⟨walletId, text, rfl⟩ := admits.made
  simp only [SpendReservationRow.InClass, and_assoc]
  exact within

/-- The fleet cap over whole runs: for the policy in force on a chain, what
settled in any window of 24 hours is within the cap of its class, and so is the
exposure of the class after an admission whose clock reading is not behind the
newest reservation of the class. -/
theorem fleet_cap_of_run {fleetPolicy : Option FleetSpendPolicy} {chainId : ChainId}
    {mintClass : MintClass} {policy : FleetSpendPolicy}
    (inForce : policy ∈ fleetPolicyFor fleetPolicy chainId) {start db : Db}
    (empty : start.reservations = [])
    (run : Reaches (StoreOp.step fleetPolicy) (FleetStep fleetPolicy chainId mintClass) start db) :
    (∀ instant, reservedTotal
      (fun row => row.InClass chainId mintClass ∧ row.SettledIn instant) db.reservations ≤
        classDailyCap policy chainId mintClass) ∧
    ∀ now input admitted result, input.OnStoredChain db →
      admitExecution fleetPolicy db now input = .ok (admitted, result) →
      (∀ row ∈ (admitted.reservations.filter fun row => row.InClass chainId mintClass).head?,
        row.createdAt ≤ now) →
      admitted.fleetDailyExposure chainId mintClass (rollingSpendCutoff now) ≤
        classDailyCap policy chainId mintClass := by
  have capNonneg := classDailyCap_nonneg policy chainId mintClass
  have holds : CapHolds (fun row => row.InClass chainId mintClass)
      (classDailyCap policy chainId mintClass) db.reservations :=
    reaches_capHolds (fun old new later => later.inClass_iff)
      (fun state op allowed => allowed.1.admitsWithin inForce) empty run
  constructor
  · intro instant
    refine holds.settled_le capNonneg (reaches_stamped empty run) ?_ instant
    cases run with
    | refl => simp [empty]
    | tail _ command allowed => exact allowed.2
  · intro now input admitted result stored success current
    have capped : FleetAdmission db (.admission now input) := stored
    have holdsAfter : CapHolds (fun row => row.InClass chainId mintClass)
        (classDailyCap policy chainId mintClass) admitted.reservations :=
      admitExecution_reservations holds
        (fun rows row kept checked positive touched admits =>
          kept.insert positive admits
            (capped.admitsWithin inForce now input rfl rows row checked touched admits)) success
    rw [fleetDailyExposure_eq]
    exact holdsAfter.exposure_le capNonneg current

theorem fleetLimits_inForce :
    Sample.fleetLimits ∈ fleetPolicyFor Sample.fleetPolicy .ethereum :=
  rfl

theorem walletMinted_reaches_fleet :
    Reaches (StoreOp.step Sample.fleetPolicy) (FleetStep Sample.fleetPolicy .ethereum .free)
      (Sample.db .ethereum ["first", "second"]) walletMinted :=
  (Reaches.refl _).applyAll (by decide +kernel)

theorem fleet_cap_of_run_sample :
    (∀ instant, reservedTotal
      (fun row => row.InClass .ethereum .free ∧ row.SettledIn instant)
        walletMinted.reservations ≤ classDailyCap Sample.fleetLimits .ethereum .free) ∧
    ∃ admitted result,
      admitExecution Sample.fleetPolicy walletMinted 86400001
        (Sample.input .ethereum "second" ["w"]) = .ok (admitted, result) ∧
      admitted.fleetDailyExposure .ethereum .free (rollingSpendCutoff 86400001) ≤
        classDailyCap Sample.fleetLimits .ethereum .free := by
  have bounds := fleet_cap_of_run fleetLimits_inForce rfl walletMinted_reaches_fleet
  have admission : ∃ outcome ∈ (admitExecution Sample.fleetPolicy walletMinted 86400001
      (Sample.input .ethereum "second" ["w"])).toOption,
      ∀ row ∈ (outcome.1.reservations.filter
        fun row => row.InClass .ethereum .free).head?, row.createdAt ≤ 86400001 := by
    decide +kernel
  obtain ⟨⟨admitted, result⟩, succeeded, current⟩ := admission
  have success := mem_toOption.mp succeeded
  exact ⟨bounds.1, admitted, result, success,
    bounds.2 86400001 _ admitted result (by decide +kernel) success current⟩

/-- A repeated admission on a clock that lags the newest reservation sees an
amount that had left that reservation's window. -/
theorem fleet_cap_fails_behind_the_clock :
    ¬ ∀ (fleetPolicy : Option FleetSpendPolicy) (chainId : ChainId) (mintClass : MintClass)
      (policy : FleetSpendPolicy), policy ∈ fleetPolicyFor fleetPolicy chainId →
      ∀ start db : Db, start.reservations = [] →
      Reaches (StoreOp.step fleetPolicy) (FleetStep fleetPolicy chainId mintClass) start db →
      ∀ now input admitted result, input.OnStoredChain db →
        input.campaign.chainId = chainId → input.mintClass = mintClass →
        admitExecution fleetPolicy db now input = .ok (admitted, result) →
        admitted.fleetDailyExposure chainId mintClass (rollingSpendCutoff now) ≤
          classDailyCap policy chainId mintClass := by
  intro claim
  have run : Reaches (StoreOp.step Sample.fleetPolicy)
      (FleetStep Sample.fleetPolicy .ethereum .free)
      (Sample.db .ethereum ["first", "second"]) walletReadmitted :=
    walletMinted_reaches_fleet.applyAll (by decide +kernel)
  have repeated : ∃ outcome ∈ (admitExecution Sample.fleetPolicy walletReadmitted 86400000
      (Sample.input .ethereum "second" ["w"])).toOption,
      outcome.1.fleetDailyExposure .ethereum .free (rollingSpendCutoff 86400000) = 200 := by
    decide +kernel
  obtain ⟨⟨admitted, result⟩, succeeded, total⟩ := repeated
  have bound := claim _ _ _ Sample.fleetLimits rfl _ _ rfl run 86400000 _ admitted result
    (by decide +kernel) (by decide) (by decide) (mem_toOption.mp succeeded)
  rw [total] at bound
  exact absurd bound (by decide)

end MintBot
