import Mathlib.Data.List.Dedup
import Mathlib.Data.List.Sort
import Mathlib.Data.String.Basic
import MintBot.Funding.Plan
import MintBot.Library.Fallible
import MintBot.Library.Table

/-!
# The balance gate

`checkBalances` decides, when a run is about to arm, whether the observed
balances of the fleet keep the limits of the chain and carry what the run needs.
It reads the same limits as the funding plan, from a configuration that the plan
is fed to.  The theorem at the end says that the two agree.
-/

namespace MintBot

open Fallible

/-- `COMPENSATING_OBSERVATION_MAX_AGE_MS`. -/
def compensatingObservationMaxAgeMs : Time := 10 * 60 * 1000

structure WalletBalance where
  address : String
  balanceWei : String
  deriving DecidableEq, Repr

/-- Observed balances; an unreadable time is none. -/
structure BalanceEvidence where
  observedAt : Option Time
  expiresAt : Option Time
  wallets : List WalletBalance
  deriving DecidableEq, Repr

/-- The parts of `CompensatingControlsEvidence` that the balance control reads. -/
structure CompensatingControlsEvidence where
  chainId : Nat
  balances : Option BalanceEvidence
  deriving DecidableEq, Repr

/-- The parts of `CompensatingAssuranceConfig` that the balance control reads. -/
structure CompensatingAssuranceConfig where
  ceilings : Nat → Option BalanceCeiling
  walletSetDigest : String
  runEnvelopeWei : Option (List (String × String))
  minimumBalanceWei : Option (List (String × String))

/-- The value of a key of a record. -/
def recordValue (record : Option (List (String × String))) (key : String) : Option String :=
  record.bind fun entries => (Table.lookup Prod.fst key entries).map Prod.snd

/-- `/^\d{1,40}$/`. -/
def IsDecimal (text : String) : Prop :=
  1 ≤ text.toList.length ∧ text.toList.length ≤ 40 ∧ ∀ char ∈ text.toList, char.isDigit = true

instance (text : String) : Decidable (IsDecimal text) := by
  unfold IsDecimal
  have := List.decidableBAll (fun char => char.isDigit = true) text.toList
  infer_instance

/-- `bigintOf`. -/
def bigintOf (text : Option String) : Option Wei :=
  (text.filter fun text => IsDecimal text).map bigint

/-- `walletLimitFor`. -/
def walletLimitFor (config : CompensatingAssuranceConfig) (ceiling : BalanceCeiling)
    (address : String) : Wei :=
  match bigintOf (recordValue config.runEnvelopeWei address) with
  | none => ceiling.walletMaxWei
  | some envelope =>
      if envelope ≤ ceiling.walletMaxWei then ceiling.walletMaxWei
      else if envelope < ceiling.walletBound then envelope else ceiling.walletBound

/-- One turn of the wallet loop of `checkBalances`. -/
def checkWallet (config : CompensatingAssuranceConfig) (ceiling : BalanceCeiling)
    (progress : List String × Wei) (wallet : WalletBalance) : Except Error (List String × Wei) := do
  let (seen, fleet) := progress
  refuse (¬ IsAddress wallet.address) "INVALID_WALLET"
  let address := toLowerCase wallet.address
  refuse (address ∈ seen) "DUPLICATE_WALLET"
  let balance ← require (bigintOf (some wallet.balanceWei)) "INVALID_BALANCE"
  refuse (balance > walletLimitFor config ceiling address) "WALLET_ABOVE_LIMIT"
  let minimum := recordValue config.minimumBalanceWei address
  refuse (minimum ≠ none ∧ bigintOf minimum = none) "INVALID_MINIMUM"
  refuse (∃ required ∈ bigintOf minimum, balance < required) "FUNDING_NOT_ARRIVED"
  return (seen ++ [address], fleet + balance)

/-- What the fleet may hold: the idle limit, raised to the envelopes of the
observed wallets as far as the chain allows. -/
def fleetLimitFor (config : CompensatingAssuranceConfig) (ceiling : BalanceCeiling)
    (seen : List String) : Wei :=
  if config.runEnvelopeWei = none then ceiling.fleetMaxWei
  else
    let envelopeTotal := (seen.map (walletLimitFor config ceiling)).sum
    let raised := if envelopeTotal < ceiling.fleetBound then envelopeTotal else ceiling.fleetBound
    if raised > ceiling.fleetMaxWei then raised else ceiling.fleetMaxWei

section Digest

-- `createHash('sha256')` with its digest in lower-case hexadecimal.
variable (sha256 : String → String)

/-- `computeWalletSetDigest`. -/
def computeWalletSetDigest (addresses : List String) : Except Error String := do
  refuse (∃ address ∈ addresses, ¬ IsAddress address) "COMPENSATING_WALLET_ADDRESS_INVALID"
  let normalized := ((addresses.map toLowerCase).dedup).insertionSort (· ≤ ·)
  refuse (normalized = []) "COMPENSATING_WALLET_SET_EMPTY"
  return "sha256:" ++ sha256 ("\n".intercalate normalized)

/-- The times of the evidence are readable, in order and recent. -/
def BalanceEvidence.Fresh (balances : BalanceEvidence) (now : Time) : Prop :=
  ∃ observed ∈ balances.observedAt, ∃ expires ∈ balances.expiresAt,
    now < expires ∧ observed ≤ now ∧ observed < expires ∧
      now - observed ≤ compensatingObservationMaxAgeMs

instance (balances : BalanceEvidence) (now : Time) : Decidable (balances.Fresh now) := by
  unfold BalanceEvidence.Fresh
  infer_instance

/-- `checkBalances`: succeeds where the source returns no reason, and fails with
the reason, or with what `computeWalletSetDigest` throws. -/
def checkBalances (evidence : CompensatingControlsEvidence) (config : CompensatingAssuranceConfig)
    (now : Time) : Except Error Unit := do
  let ceiling ← require ((config.ceilings evidence.chainId).filter fun ceiling =>
    0 < ceiling.walletMaxWei ∧ 0 < ceiling.fleetMaxWei) "NO_BALANCE_CEILING_FOR_CHAIN"
  let balances ← require evidence.balances "MISSING"
  refuse (¬ balances.Fresh now) "STALE"
  refuse (balances.wallets = []) "NO_WALLETS_OBSERVED"
  let (seen, fleet) ← balances.wallets.foldlM (checkWallet config ceiling) ([], 0)
  let digest ← computeWalletSetDigest sha256 seen
  refuse (digest ≠ toLowerCase config.walletSetDigest) "WALLET_SET_MISMATCH"
  refuse (fleet > fleetLimitFor config ceiling seen) "FLEET_ABOVE_LIMIT"

end Digest

/-! ## Reading what the plan wrote -/

theorem isDecimal_toString {wei : Wei} (nonneg : 0 ≤ wei) (small : wei < 10 ^ 40) :
    IsDecimal (toString wei) := by
  have bounded : wei.toNat < 10 ^ 40 := by
    rw [Int.toNat_lt nonneg]
    exact_mod_cast small
  unfold IsDecimal
  rw [toString_of_nonneg nonneg, Nat.toList_repr]
  refine ⟨Nat.length_toDigits_pos, ?_, fun char member => ?_⟩
  · exact (Nat.length_toDigits_le_iff (by decide) (by decide)).mpr bounded
  · exact Nat.isDigit_of_mem_toDigits (by decide) (by decide) member

theorem bigintOf_toString {wei : Wei} (nonneg : 0 ≤ wei) (small : wei < 10 ^ 40) :
    bigintOf (some (toString wei)) = some wei := by
  rw [bigintOf, Option.filter_some, if_pos (decide_eq_true (isDecimal_toString nonneg small)),
    Option.map_some, bigint_toString nonneg]

/-- The value that a record made from a list has for one of its keys. -/
theorem recordValue_map {α : Type} {items : List α} {key value : α → String}
    (distinct : (items.map key).Nodup) {item : α} (member : item ∈ items) :
    recordValue (some (items.map fun item => (key item, value item))) (key item) =
      some (value item) := by
  have keys : ((items.map fun item => (key item, value item)).map Prod.fst).Nodup := by
    rwa [List.map_map]
  have found := Table.lookup_of_mem keys (List.mem_map_of_mem member)
  rw [recordValue, Option.bind_some, found, Option.map_some]

/-- The lower-case form of an address is an address, and is in lower case. -/
theorem IsAddress.toLowerCase {text : String} (address : IsAddress text) :
    IsAddress (toLowerCase text) ∧ MintBot.toLowerCase (toLowerCase text) = toLowerCase text := by
  obtain ⟨length, prefixed, digits⟩ := address
  have split : text.toList = ['0', 'x'] ++ text.toList.drop 2 := by
    rw [← prefixed, List.take_append_drop]
  have hexLower : ∀ char ∈ "0123456789abcdefABCDEF".toList,
      char.toLower ∈ "0123456789abcdefABCDEF".toList ∧ char.toLower.toLower = char.toLower := by
    intro char member
    have all : ("0123456789abcdefABCDEF".toList.all fun char =>
        char.toLower ∈ "0123456789abcdefABCDEF".toList ∧
          char.toLower.toLower = char.toLower) = true := by
      decide
    exact of_decide_eq_true (List.all_eq_true.mp all char member)
  unfold IsAddress MintBot.toLowerCase
  simp only [String.toList_ofList]
  refine ⟨⟨by rw [List.length_map, length], ?_, ?_⟩, ?_⟩
  · rw [← List.map_take, prefixed]
    decide
  · rw [← List.map_drop]
    intro char member
    obtain ⟨other, otherMember, rfl⟩ := List.mem_map.mp member
    exact (hexLower other (digits other otherMember)).1
  · rw [List.map_map]
    refine congrArg String.ofList (List.map_congr_left fun char member => ?_)
    rw [split] at member
    rcases List.mem_append.mp member with first | rest
    · rcases List.mem_cons.mp first with rfl | second
      · decide
      · rw [List.mem_singleton.mp second]
        decide
    · exact (hexLower char (digits char rest)).2

/-- The digest depends on the set of the lower-case addresses only. -/
theorem computeWalletSetDigest_perm (sha256 : String → String) {addresses others : List String}
    (valid : ∀ address ∈ addresses, IsAddress address)
    (othersValid : ∀ address ∈ others, IsAddress address)
    (perm : (addresses.map toLowerCase).Perm (others.map toLowerCase)) :
    computeWalletSetDigest sha256 addresses = computeWalletSetDigest sha256 others := by
  have sorted : ((addresses.map toLowerCase).dedup).insertionSort (· ≤ ·) =
      ((others.map toLowerCase).dedup).insertionSort (· ≤ ·) := by
    refine List.Perm.eq_of_pairwise' (List.pairwise_insertionSort _ _)
      (List.pairwise_insertionSort _ _) ?_
    exact (List.perm_insertionSort _ _).trans
      (perm.dedup.trans (List.perm_insertionSort _ _).symm)
  have checked : (∃ address ∈ addresses, ¬ IsAddress address) ↔
      ∃ address ∈ others, ¬ IsAddress address := by
    refine iff_of_false ?_ ?_
    · rintro ⟨address, member, invalid⟩
      exact invalid (valid address member)
    · rintro ⟨address, member, invalid⟩
      exact invalid (othersValid address member)
  unfold computeWalletSetDigest
  simp only [sorted, checked]

/-! ## The gate on the balances of a plan -/

/-- The observed wallet passes, with this balance. -/
structure WalletPasses (config : CompensatingAssuranceConfig) (ceiling : BalanceCeiling)
    (wallet : WalletBalance) (balance : Wei) : Prop where
  address : IsAddress wallet.address
  readable : bigintOf (some wallet.balanceWei) = some balance
  within : balance ≤ walletLimitFor config ceiling (toLowerCase wallet.address)
  minimum : ∃ required ≤ balance,
    bigintOf (recordValue config.minimumBalanceWei (toLowerCase wallet.address)) = some required

theorem checkWallet_of_passes {config : CompensatingAssuranceConfig} {ceiling : BalanceCeiling}
    {wallet : WalletBalance} {balance : Wei} (passes : WalletPasses config ceiling wallet balance)
    {seen : List String} (fresh : toLowerCase wallet.address ∉ seen) (fleet : Wei) :
    checkWallet config ceiling (seen, fleet) wallet =
      .ok (seen ++ [toLowerCase wallet.address], fleet + balance) := by
  obtain ⟨required, enough, minimum⟩ := passes.minimum
  simp only [checkWallet, bind_eq_ok, refuse_eq_ok, require_eq_ok, pure_eq_ok]
  refine ⟨⟨⟩, not_not.mpr passes.address, ⟨⟩, fresh, balance, passes.readable, ⟨⟩,
    Int.not_lt.mpr passes.within, ⟨⟩, ?_, ⟨⟩, ?_, rfl⟩
  · simp [minimum]
  · rw [minimum]
    simpa using enough

/-- Wallets that pass, none of them twice, are all seen and added up. -/
theorem checkWallets_of_passes {config : CompensatingAssuranceConfig} {ceiling : BalanceCeiling}
    {wallets : List WalletBalance} {balance : WalletBalance → Wei}
    (passes : ∀ wallet ∈ wallets, WalletPasses config ceiling wallet (balance wallet))
    (distinct : (wallets.map fun wallet => toLowerCase wallet.address).Nodup)
    {seen : List String} (fresh : ∀ wallet ∈ wallets, toLowerCase wallet.address ∉ seen)
    (fleet : Wei) :
    wallets.foldlM (checkWallet config ceiling) (seen, fleet) =
      .ok (seen ++ wallets.map (fun wallet => toLowerCase wallet.address),
        fleet + (wallets.map balance).sum) := by
  induction wallets generalizing seen fleet with
  | nil => simp [pure, Except.pure]
  | cons wallet rest inductionHypothesis =>
      rw [List.forall_mem_cons] at passes fresh
      rw [List.map_cons, List.nodup_cons] at distinct
      have freshRest : ∀ other ∈ rest,
          toLowerCase other.address ∉ seen ++ [toLowerCase wallet.address] := by
        intro other member repeated
        rcases List.mem_append.mp repeated with early | same
        · exact fresh.2 other member early
        · exact distinct.1 (List.mem_map.mpr ⟨other, member, List.mem_singleton.mp same⟩)
      rw [List.foldlM_cons, bind_eq_ok]
      refine ⟨_, checkWallet_of_passes passes.1 fresh.1 fleet, ?_⟩
      rw [inductionHypothesis passes.2 distinct.2 freshRest]
      simp [Int.add_assoc]

/-- What fits the limits of the wallets fits the limit of the fleet. -/
theorem le_fleetLimitFor {config : CompensatingAssuranceConfig} {ceiling : BalanceCeiling}
    {seen : List String} {heldWei : Wei} (raises : config.runEnvelopeWei ≠ none)
    (held : heldWei ≤ (seen.map (walletLimitFor config ceiling)).sum)
    (bounded : (seen.map (walletLimitFor config ceiling)).sum ≤ ceiling.fleetBound) :
    heldWei ≤ fleetLimitFor config ceiling seen := by
  have raised : (if (seen.map (walletLimitFor config ceiling)).sum < ceiling.fleetBound then
      (seen.map (walletLimitFor config ceiling)).sum else ceiling.fleetBound) =
        (seen.map (walletLimitFor config ceiling)).sum := by
    split
    · rfl
    · rename_i above
      exact le_antisymm (not_lt.mp above) bounded
  unfold fleetLimitFor
  rw [if_neg raises]
  dsimp only
  rw [raised]
  split
  · exact held
  · rename_i below
    exact le_trans held (not_lt.mp below)

section Agreement

variable {ceiling : BalanceCeiling} {marginWei : Wei} {wallets : List FundingWalletInput}
  {config : CompensatingAssuranceConfig}

/-- The gate gives a planned wallet the limit that the plan gave it. -/
theorem walletLimitFor_planned (fundable : RunFundable ceiling marginWei wallets)
    (fed : config.runEnvelopeWei = some (wallets.map fun wallet =>
      (toLowerCase wallet.address, toString (envelopeWei ceiling marginWei wallet))))
    {wallet : FundingWalletInput} (member : wallet ∈ wallets)
    (small : envelopeWei ceiling marginWei wallet < 10 ^ 40) :
    walletLimitFor config ceiling (toLowerCase wallet.address) =
      limitWei ceiling marginWei wallet := by
  have each := fundable.each wallet member
  have nonneg : 0 ≤ envelopeWei ceiling marginWei wallet :=
    le_trans (le_of_lt each.required) (each.required_le_envelope fundable.margin)
  unfold walletLimitFor
  rw [fed, recordValue_map fundable.distinct member, bigintOf_toString nonneg small]
  dsimp only
  rw [limitWei_eq]
  split
  · rename_i below
    exact (max_eq_left below).symm
  · rename_i above
    rw [max_eq_right (le_of_lt (not_le.mp above))]
    split
    · rfl
    · rename_i clipped
      exact le_antisymm (not_lt.mp clipped) each.envelope_le_bound

/-- A planned wallet that holds what the plan asks for passes the gate. -/
theorem walletPasses_planned (fundable : RunFundable ceiling marginWei wallets)
    (envelopes : config.runEnvelopeWei = some (wallets.map fun wallet =>
      (toLowerCase wallet.address, toString (envelopeWei ceiling marginWei wallet))))
    (minimums : config.minimumBalanceWei = some (wallets.map fun wallet =>
      (toLowerCase wallet.address, toString wallet.requiredWei)))
    {wallet : FundingWalletInput} (member : wallet ∈ wallets)
    (smallEnvelope : envelopeWei ceiling marginWei wallet < 10 ^ 40)
    (smallRequired : wallet.requiredWei < 10 ^ 40)
    (smallBalance : wallet.balanceWei + topUpWei ceiling marginWei wallet < 10 ^ 40)
    {observed : WalletBalance} (address : IsAddress observed.address)
    (sameWallet : toLowerCase observed.address = toLowerCase wallet.address)
    (sameBalance : observed.balanceWei =
      toString (wallet.balanceWei + topUpWei ceiling marginWei wallet)) :
    WalletPasses config ceiling observed
      (wallet.balanceWei + topUpWei ceiling marginWei wallet) where
  address := address
  readable := by
    rw [sameBalance]
    exact bigintOf_toString
      (Int.add_nonneg (fundable.each wallet member).balance (topUpWei_nonneg _ _ _)) smallBalance
  within := by
    rw [sameWallet, walletLimitFor_planned fundable envelopes member smallEnvelope]
    exact (fundable.each wallet member).funded_le_limit
  minimum := by
    refine ⟨wallet.requiredWei,
      (fundable.each wallet member).required_le_funded fundable.margin, ?_⟩
    rw [sameWallet, minimums, recordValue_map fundable.distinct member]
    exact bigintOf_toString (le_of_lt (fundable.each wallet member).required) smallRequired

end Agreement

/-! ## The plan and the gate -/

theorem raisedBound_eq_max (bound : Option Wei) (idleWei : Wei) :
    raisedBound bound idleWei = max idleWei (bound.getD idleWei) := by
  cases bound with
  | none => exact (max_self idleWei).symm
  | some boundWei =>
      unfold raisedBound
      dsimp only [Option.getD_some]
      split
      · rename_i above
        exact (max_eq_right (le_of_lt above)).symm
      · rename_i below
        exact (max_eq_left (not_lt.mp below)).symm

/-- The wallets once the owner has sent what the items of the plan ask for. -/
def fundWallets (wallets : List FundingWalletInput) (items : List FundingPlanItem) :
    List FundingWalletInput :=
  List.zipWith (fun wallet item =>
    { wallet with balanceWei := wallet.balanceWei + bigint item.topUpWei }) wallets items

/-- What a wallet holds according to its item, once it is funded. -/
def FundingPlanItem.fundedWei (item : FundingPlanItem) : Wei :=
  bigint item.balanceWei + bigint item.topUpWei

/-- Evidence of exactly the funded balances of a plan, in any order and spelling
of the addresses, taken in time and read with the numbers of the plan. -/
structure FundedEvidence (sha256 : String → String) (plan : FundingPlan)
    (ceiling : BalanceCeiling) (wallets : List FundingWalletInput) (balances : BalanceEvidence)
    (config : CompensatingAssuranceConfig) (now : Time) : Prop where
  ceiling : config.ceilings plan.chainId = some ceiling
  envelopes : config.runEnvelopeWei = some plan.runEnvelopeWei
  minimums : config.minimumBalanceWei = some plan.minimumBalanceWei
  digest : computeWalletSetDigest sha256 (wallets.map FundingWalletInput.address) =
    .ok (toLowerCase config.walletSetDigest)
  fresh : balances.Fresh now
  addresses : ∀ wallet ∈ balances.wallets, IsAddress wallet.address
  listed : (balances.wallets.map fun wallet =>
      (toLowerCase wallet.address, wallet.balanceWei)).Perm
    (plan.items.map fun item => (item.wallet, toString item.fundedWei))
  small : ∀ item ∈ plan.items, item.fundedWei < 10 ^ 40 ∧ bigint item.requiredWei < 10 ^ 40 ∧
    bigint item.envelopeWei < 10 ^ 40

section Agreement

variable {ceiling : BalanceCeiling} {marginWei : Wei} {wallets : List FundingWalletInput}

theorem bigint_topUpWei (wallet : FundingWalletInput) :
    bigint (planItem ceiling marginWei wallet).topUpWei = topUpWei ceiling marginWei wallet :=
  bigint_toString (topUpWei_nonneg ceiling marginWei wallet)

theorem fundedWei_planItem {wallet : FundingWalletInput}
    (fundable : Fundable ceiling marginWei wallet) :
    (planItem ceiling marginWei wallet).fundedWei =
      wallet.balanceWei + topUpWei ceiling marginWei wallet := by
  rw [FundingPlanItem.fundedWei, bigint_topUpWei]
  exact congrArg (· + _) (bigint_toString fundable.balance)

theorem envelope_nonneg (fundable : RunFundable ceiling marginWei wallets)
    {wallet : FundingWalletInput} (member : wallet ∈ wallets) :
    0 ≤ envelopeWei ceiling marginWei wallet :=
  le_trans (le_of_lt (fundable.each wallet member).required)
    ((fundable.each wallet member).required_le_envelope fundable.margin)

theorem fundWallets_planned (wallets : List FundingWalletInput) :
    fundWallets wallets (wallets.map (planItem ceiling marginWei)) =
      wallets.map (FundingWalletInput.funded ceiling marginWei) := by
  unfold fundWallets
  rw [List.zipWith_map_right, List.zipWith_self]
  refine List.map_congr_left fun wallet _ => ?_
  rw [bigint_topUpWei]
  rfl

/-- The gate accepts the funded balances of a fleet that can be funded. -/
theorem checkBalances_of_funded {sha256 : String → String} {chainId : Nat}
    {evidence : CompensatingControlsEvidence} {balances : BalanceEvidence}
    {config : CompensatingAssuranceConfig} {now : Time}
    (fundable : RunFundable ceiling marginWei wallets)
    (chain : evidence.chainId = chainId) (given : evidence.balances = some balances)
    (funded : FundedEvidence sha256 (fundedPlan chainId ceiling marginWei wallets) ceiling wallets
      balances config now) :
    checkBalances sha256 evidence config now = .ok () := by
  -- Every observed wallet is a planned one, with the balance that the plan asks for.
  have planned : ∀ observed ∈ balances.wallets, ∃ wallet ∈ wallets,
      toLowerCase observed.address = toLowerCase wallet.address ∧
        observed.balanceWei =
          toString (wallet.balanceWei + topUpWei ceiling marginWei wallet) := by
    intro observed member
    have listed := funded.listed.mem_iff.mp (List.mem_map_of_mem member)
    obtain ⟨item, itemMember, same⟩ := List.mem_map.mp listed
    obtain ⟨wallet, walletMember, rfl⟩ := List.mem_map.mp itemMember
    rw [fundedWei_planItem (fundable.each wallet walletMember), Prod.mk.injEq] at same
    exact ⟨wallet, walletMember, same.1.symm, same.2.symm⟩
  have small : ∀ wallet ∈ wallets,
      wallet.balanceWei + topUpWei ceiling marginWei wallet < 10 ^ 40 ∧
        wallet.requiredWei < 10 ^ 40 ∧ envelopeWei ceiling marginWei wallet < 10 ^ 40 := by
    intro wallet member
    have each := funded.small _ (List.mem_map_of_mem member)
    rw [fundedWei_planItem (fundable.each wallet member)] at each
    have required : bigint (planItem ceiling marginWei wallet).requiredWei = wallet.requiredWei :=
      bigint_toString (le_of_lt (fundable.each wallet member).required)
    have envelope : bigint (planItem ceiling marginWei wallet).envelopeWei =
        envelopeWei ceiling marginWei wallet := bigint_toString (envelope_nonneg fundable member)
    rwa [required, envelope] at each
  have passes : ∀ observed ∈ balances.wallets,
      WalletPasses config ceiling observed (bigint observed.balanceWei) := by
    intro observed member
    obtain ⟨wallet, walletMember, sameWallet, sameBalance⟩ := planned observed member
    obtain ⟨smallBalance, smallRequired, smallEnvelope⟩ := small wallet walletMember
    rw [sameBalance, bigint_toString
      (Int.add_nonneg (fundable.each wallet walletMember).balance (topUpWei_nonneg _ _ _))]
    exact walletPasses_planned fundable funded.envelopes funded.minimums walletMember
      smallEnvelope smallRequired smallBalance (funded.addresses observed member) sameWallet
      sameBalance
  have sameAddresses : (balances.wallets.map fun wallet => toLowerCase wallet.address).Perm
      (wallets.map fun wallet => toLowerCase wallet.address) := by
    have keys := funded.listed.map Prod.fst
    rw [List.map_map, List.map_map] at keys
    refine keys.trans (List.Perm.of_eq ?_)
    change (wallets.map (planItem ceiling marginWei)).map _ = _
    rw [List.map_map]
    rfl
  have distinct := sameAddresses.nodup_iff.mpr fundable.distinct
  have fresh : ∀ observed ∈ balances.wallets, toLowerCase observed.address ∉ ([] : List String) :=
    fun _ _ => List.not_mem_nil
  have checked := checkWallets_of_passes passes distinct fresh 0
  rw [List.nil_append, Int.zero_add] at checked
  have fleet : (balances.wallets.map fun wallet => bigint wallet.balanceWei).sum =
      (wallets.map fun wallet => wallet.balanceWei + topUpWei ceiling marginWei wallet).sum := by
    have amounts := funded.listed.map fun pair => bigint pair.2
    rw [List.map_map, List.map_map] at amounts
    refine amounts.sum_eq.trans (congrArg List.sum ?_)
    change (wallets.map (planItem ceiling marginWei)).map _ = _
    rw [List.map_map]
    refine List.map_congr_left fun wallet member => ?_
    have nonneg := Int.add_nonneg (fundable.each wallet member).balance
      (topUpWei_nonneg ceiling marginWei wallet)
    simp only [Function.comp_apply, fundedWei_planItem (fundable.each wallet member)]
    exact bigint_toString nonneg
  have limits : ((balances.wallets.map fun wallet => toLowerCase wallet.address).map
      (walletLimitFor config ceiling)).sum = (wallets.map (limitWei ceiling marginWei)).sum := by
    refine (sameAddresses.map (walletLimitFor config ceiling)).sum_eq.trans (congrArg List.sum ?_)
    rw [List.map_map]
    exact List.map_congr_left fun wallet member =>
      walletLimitFor_planned fundable funded.envelopes member (small wallet member).2.2
  have withinFleet : ¬ (balances.wallets.map fun wallet => bigint wallet.balanceWei).sum >
      fleetLimitFor config ceiling
        (balances.wallets.map fun wallet => toLowerCase wallet.address) := by
    refine not_lt.mpr (le_fleetLimitFor (by simp [funded.envelopes]) ?_ ?_)
    · rw [fleet, limits]
      exact fundable.funded_le
    · rw [limits]
      exact fundable.fleet
  have valid : ∀ address ∈ balances.wallets.map fun wallet => toLowerCase wallet.address,
      IsAddress address := by
    intro address member
    obtain ⟨observed, observedMember, rfl⟩ := List.mem_map.mp member
    exact (funded.addresses observed observedMember).toLowerCase.1
  have lowered : (balances.wallets.map fun wallet => toLowerCase wallet.address).map toLowerCase =
      balances.wallets.map fun wallet => toLowerCase wallet.address := by
    rw [List.map_map]
    exact List.map_congr_left fun observed member =>
      (funded.addresses observed member).toLowerCase.2
  have digest : computeWalletSetDigest sha256
      (balances.wallets.map fun wallet => toLowerCase wallet.address) =
        .ok (toLowerCase config.walletSetDigest) := by
    rw [← funded.digest]
    refine computeWalletSetDigest_perm sha256 valid ?_ ?_
    · intro address member
      obtain ⟨wallet, walletMember, rfl⟩ := List.mem_map.mp member
      exact (fundable.each wallet walletMember).address
    · rw [lowered, List.map_map]
      exact sameAddresses
  have nonempty : balances.wallets ≠ [] := by
    intro none
    have empty : wallets.map (fun wallet => toLowerCase wallet.address) = [] := by
      simpa [none] using sameAddresses
    exact fundable.nonempty (List.map_eq_nil_iff.mp empty)
  have ceilingFound : (config.ceilings evidence.chainId).filter (fun ceiling =>
      0 < ceiling.walletMaxWei ∧ 0 < ceiling.fleetMaxWei) = some ceiling := by
    have found : config.ceilings chainId = some ceiling := funded.ceiling
    rw [chain, found]
    simp [fundable.idle]
  simp only [checkBalances, bind_eq_ok, require_eq_ok, refuse_eq_ok]
  refine ⟨ceiling, ceilingFound, balances, given, ⟨⟩, not_not.mpr funded.fresh, ⟨⟩, nonempty,
    _, checked, _, digest, ⟨⟩, not_not.mpr rfl, withinFleet⟩

/-- A plan without blockers funds every wallet for its run within the limits of
the chain, needs nothing more once it is carried out, and then the balance gate
of the arming code finds nothing against it. -/
theorem funding_plan_agrees {chainId : Nat} {ceiling : Option BalanceCeiling}
    {marginWei : Option Wei} {wallets : List FundingWalletInput}
    (unblocked : (planRunFunding chainId ceiling wallets marginWei).blockers = []) :
    ∃ found, ceiling = some found ∧
      List.Forall₂ (fun wallet item =>
          wallet.requiredWei ≤ wallet.balanceWei + bigint item.topUpWei ∧
          wallet.balanceWei + bigint item.topUpWei ≤
            max found.walletMaxWei (bigint item.envelopeWei))
        wallets (planRunFunding chainId ceiling wallets marginWei).items ∧
      ((planRunFunding chainId ceiling wallets marginWei).items.map
          FundingPlanItem.fundedWei).sum ≤
        max found.fleetMaxWei (found.runEnvelopeFleetMaxWei.getD found.fleetMaxWei) ∧
      (planRunFunding chainId ceiling
        (fundWallets wallets (planRunFunding chainId ceiling wallets marginWei).items)
        marginWei).blockers = [] ∧
      (planRunFunding chainId ceiling
        (fundWallets wallets (planRunFunding chainId ceiling wallets marginWei).items)
        marginWei).ready = true ∧
      ∀ sha256 evidence balances config now, evidence.chainId = chainId →
        evidence.balances = some balances →
        FundedEvidence sha256 (planRunFunding chainId ceiling wallets marginWei) found wallets
          balances config now →
        checkBalances sha256 evidence config now = .ok () := by
  obtain ⟨found, rfl, fundable⟩ := (planRunFunding_blockers chainId ceiling marginWei wallets).mp
    unblocked
  rw [planRunFunding_of_fundable chainId fundable]
  refine ⟨found, rfl, ?_, ?_, ?_, ?_, ?_⟩
  · rw [fundedPlan, List.forall₂_map_right_iff, List.forall₂_same]
    intro wallet member
    have envelope : bigint (planItem found (marginWei.getD fundingRoundingMarginWei)
        wallet).envelopeWei = envelopeWei found (marginWei.getD fundingRoundingMarginWei) wallet :=
      bigint_toString (envelope_nonneg fundable member)
    rw [bigint_topUpWei, envelope, ← limitWei_eq]
    exact ⟨(fundable.each wallet member).required_le_funded fundable.margin,
      (fundable.each wallet member).funded_le_limit⟩
  · rw [← raisedBound_eq_max]
    refine le_trans (le_of_eq ?_) (le_trans fundable.funded_le fundable.fleet)
    rw [fundedPlan, List.map_map]
    exact congrArg List.sum (List.map_congr_left fun wallet member =>
      fundedWei_planItem (fundable.each wallet member))
  · rw [fundedPlan, fundWallets_planned, planRunFunding_of_fundable chainId fundable.again]
    rfl
  · rw [fundedPlan, fundWallets_planned, planRunFunding_of_fundable chainId fundable.again]
    refine decide_eq_true ?_
    rw [List.map_map]
    refine List.sum_eq_zero fun amount member => ?_
    obtain ⟨wallet, walletMember, rfl⟩ := List.mem_map.mp member
    exact (fundable.each wallet walletMember).topUp_again fundable.margin
  · intro sha256 evidence balances config now chain given funded
    exact checkBalances_of_funded fundable chain given funded

end Agreement

/-! ## A fleet of one wallet -/

def sampleCeiling : BalanceCeiling where
  walletMaxWei := 400000000000000
  fleetMaxWei := 2000000000000000
  runEnvelopeMaxWei := some 4100000000000000
  runEnvelopeFleetMaxWei := some 8500000000000000

/-- A wallet that needs more than the idle ceiling. -/
def sampleWallet : FundingWalletInput where
  address := "0xAAAAAAAAAAAAAAAAAAAAAAAAAAAAAAAAAAAAAAAA"
  balanceWei := 1
  requiredWei := 1000000000000001

def samplePlan : FundingPlan :=
  planRunFunding 1 (some sampleCeiling) [sampleWallet] none

/-- The wallet once it is funded, observed a minute ago. -/
def sampleBalances : BalanceEvidence where
  observedAt := some 0
  expiresAt := some 600000
  wallets := samplePlan.items.map fun item =>
    { address := item.wallet, balanceWei := toString item.fundedWei }

def sampleConfig : CompensatingAssuranceConfig where
  ceilings := fun chainId => if chainId = 1 then some sampleCeiling else none
  walletSetDigest := "sha256:digest"
  runEnvelopeWei := some samplePlan.runEnvelopeWei
  minimumBalanceWei := some samplePlan.minimumBalanceWei

theorem funding_plan_agrees_sample :
    checkBalances (fun _ => "digest") { chainId := 1, balances := some sampleBalances }
      sampleConfig 60000 = .ok () := by
  obtain ⟨found, same, -, -, -, -, gate⟩ := funding_plan_agrees
    (by decide +kernel : samplePlan.blockers = [])
  obtain rfl := Option.some.inj same
  refine gate _ _ sampleBalances _ _ rfl rfl ?_
  exact
    { ceiling := by decide +kernel
      envelopes := rfl
      minimums := rfl
      digest := by decide +kernel
      fresh := by decide +kernel
      addresses := by decide +kernel
      listed := by decide +kernel
      small := by decide +kernel }

end MintBot
