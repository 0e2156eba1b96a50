import Mathlib.Algebra.BigOperators.Group.List.Basic
import Mathlib.Algebra.Order.BigOperators.Group.List
import Mathlib.Tactic.Linarith
import MintBot.Types

/-!
# Funding one run

`planRunFunding` works out what each wallet needs for one run: an envelope that
the chain allows, and the amount the owner should send.  Amounts travel as
decimal texts.  A plan without blockers says of every wallet that it can be
funded, and adds up what the funded wallets may hold.
-/

namespace MintBot

/-- `/^0x[0-9a-fA-F]{40}$/`. -/
def IsAddress (text : String) : Prop :=
  text.toList.length = 42 ∧ text.toList.take 2 = ['0', 'x'] ∧
    ∀ char ∈ text.toList.drop 2, char ∈ "0123456789abcdefABCDEF".toList

instance (text : String) : Decidable (IsAddress text) := by
  unfold IsAddress
  have := List.decidableBAll (fun char => char ∈ "0123456789abcdefABCDEF".toList) (text.toList.drop 2)
  infer_instance

/-- The balance limits of a chain; the envelope bounds are optional. -/
structure BalanceCeiling where
  walletMaxWei : Wei
  fleetMaxWei : Wei
  runEnvelopeMaxWei : Option Wei
  runEnvelopeFleetMaxWei : Option Wei
  deriving DecidableEq, Repr

/-- An optional bound, where it raises the idle limit. -/
def raisedBound (bound : Option Wei) (idleWei : Wei) : Wei :=
  match bound with
  | some boundWei => if boundWei > idleWei then boundWei else idleWei
  | none => idleWei

namespace BalanceCeiling

/-- What a wallet may hold while its run is funded. -/
def walletBound (ceiling : BalanceCeiling) : Wei :=
  raisedBound ceiling.runEnvelopeMaxWei ceiling.walletMaxWei

/-- What the fleet may hold while a run is funded. -/
def fleetBound (ceiling : BalanceCeiling) : Wei :=
  raisedBound ceiling.runEnvelopeFleetMaxWei ceiling.fleetMaxWei

end BalanceCeiling

/-- 0.000001 of the native unit. -/
def fundingRoundingMarginWei : Wei := 1000000000000

/-- `roundUpToDisplay`. -/
def roundUpToDisplay (wei : Wei) : Wei :=
  (wei + fundingRoundingMarginWei - 1).tdiv fundingRoundingMarginWei * fundingRoundingMarginWei

structure FundingWalletInput where
  address : String
  balanceWei : Wei
  requiredWei : Wei
  deriving DecidableEq, Repr

structure FundingPlanItem where
  wallet : String
  balanceWei : String
  requiredWei : String
  envelopeWei : String
  topUpWei : String
  deriving DecidableEq, Repr

structure FundingPlan where
  chainId : Nat
  items : List FundingPlanItem := []
  totalTopUpWei : String := "0"
  runEnvelopeWei : List (String × String) := []
  minimumBalanceWei : List (String × String) := []
  blockers : List String := []
  ready : Bool := false
  deriving DecidableEq, Repr

/-- `BigInt` of a text of digits. -/
def bigint (text : String) : Wei :=
  Nat.ofDigitChars 10 text.toList 0

theorem toString_of_nonneg {wei : Wei} (nonneg : 0 ≤ wei) : toString wei = wei.toNat.repr := by
  obtain ⟨amount, rfl⟩ := Int.eq_ofNat_of_zero_le nonneg
  rfl

/-- Amounts are read back as they were written. -/
theorem bigint_toString {wei : Wei} (nonneg : 0 ≤ wei) : bigint (toString wei) = wei := by
  rw [bigint, toString_of_nonneg nonneg, Nat.toList_repr, Nat.ofDigitChars_ten_toDigits]
  exact Int.toNat_of_nonneg nonneg

/-! ## One wallet -/

section Wallet

variable (ceiling : BalanceCeiling) (marginWei : Wei) (wallet : FundingWalletInput)

/-- The envelope of a wallet: its requirement with the rounding margin, as far
as the bound of the chain allows. -/
def envelopeWei : Wei :=
  let padded := wallet.requiredWei + marginWei
  if padded > ceiling.walletBound ∧ wallet.requiredWei ≤ ceiling.walletBound then
    ceiling.walletBound
  else padded

/-- The limit of a wallet is never below the idle ceiling. -/
def limitWei : Wei :=
  if envelopeWei ceiling marginWei wallet > ceiling.walletMaxWei then
    envelopeWei ceiling marginWei wallet
  else ceiling.walletMaxWei

/-- What the owner should send, rounded up as long as it fits the limit. -/
def topUpWei : Wei :=
  let shortfall :=
    if wallet.requiredWei > wallet.balanceWei then
      roundUpToDisplay (wallet.requiredWei - wallet.balanceWei)
    else 0
  let room :=
    if limitWei ceiling marginWei wallet > wallet.balanceWei then
      limitWei ceiling marginWei wallet - wallet.balanceWei
    else 0
  if shortfall > room then room else shortfall

/-- The item of a wallet in the plan. -/
def planItem : FundingPlanItem where
  wallet := toLowerCase wallet.address
  balanceWei := toString wallet.balanceWei
  requiredWei := toString wallet.requiredWei
  envelopeWei := toString (envelopeWei ceiling marginWei wallet)
  topUpWei := toString (topUpWei ceiling marginWei wallet)

end Wallet

/-! ## The plan -/

/-- The variables of the wallet loop. -/
structure PlanProgress where
  seen : List String := []
  totalWei : Wei := 0
  envelopeTotalWei : Wei := 0
  items : List FundingPlanItem := []
  runEnvelopeWei : List (String × String) := []
  minimumBalanceWei : List (String × String) := []
  blockers : List String := []

/-- One turn of the wallet loop. -/
def planWallet (ceiling : BalanceCeiling) (marginWei : Wei) (progress : PlanProgress)
    (wallet : FundingWalletInput) : PlanProgress :=
  let address := toLowerCase wallet.address
  if ¬ IsAddress wallet.address then
    { progress with blockers := progress.blockers ++ ["WALLET_ADDRESS_INVALID"] }
  else if address ∈ progress.seen then
    { progress with blockers := progress.blockers ++ ["DUPLICATE_WALLET:" ++ address] }
  else if wallet.requiredWei ≤ 0 ∨ wallet.balanceWei < 0 then
    { progress with
      seen := progress.seen ++ [address]
      blockers := progress.blockers ++ ["REQUIREMENT_INVALID:" ++ address] }
  else
    { seen := progress.seen ++ [address]
      totalWei := progress.totalWei + topUpWei ceiling marginWei wallet
      envelopeTotalWei := progress.envelopeTotalWei + limitWei ceiling marginWei wallet
      items := progress.items ++ [planItem ceiling marginWei wallet]
      runEnvelopeWei := progress.runEnvelopeWei ++
        [(address, toString (envelopeWei ceiling marginWei wallet))]
      minimumBalanceWei := progress.minimumBalanceWei ++ [(address, toString wallet.requiredWei)]
      blockers := progress.blockers ++
        (if wallet.requiredWei > ceiling.walletBound then
          ["RUN_ENVELOPE_ABOVE_CHAIN_BOUND:" ++ address] else []) ++
        (if wallet.balanceWei > limitWei ceiling marginWei wallet then
          ["WALLET_ABOVE_RUN_ENVELOPE:" ++ address] else []) }

/-- `planRunFunding`. -/
def planRunFunding (chainId : Nat) (ceiling : Option BalanceCeiling)
    (wallets : List FundingWalletInput) (marginWei : Option Wei) : FundingPlan :=
  match ceiling.filter fun ceiling => 0 < ceiling.walletMaxWei ∧ 0 < ceiling.fleetMaxWei with
  | none => { chainId := chainId, blockers := ["NO_BALANCE_CEILING_FOR_CHAIN"] }
  | some ceiling =>
      let margin := marginWei.getD fundingRoundingMarginWei
      if wallets = [] then { chainId := chainId, blockers := ["NO_WALLETS"] }
      else if margin < 0 then { chainId := chainId, blockers := ["MARGIN_INVALID"] }
      else
        let progress := wallets.foldl (planWallet ceiling margin) {}
        let blockers := progress.blockers ++
          if progress.envelopeTotalWei > ceiling.fleetBound then
            ["RUN_ENVELOPE_ABOVE_FLEET_BOUND"]
          else []
        { chainId := chainId
          items := progress.items
          totalTopUpWei := toString progress.totalWei
          runEnvelopeWei := progress.runEnvelopeWei
          minimumBalanceWei := progress.minimumBalanceWei
          blockers := blockers
          ready := blockers = [] ∧ progress.totalWei = 0 }

/-! ## What a plan without blockers says -/

section Fundable

variable (ceiling : BalanceCeiling) (marginWei : Wei)

/-- A wallet that the loop finds nothing against, apart from the others. -/
structure Fundable (wallet : FundingWalletInput) : Prop where
  address : IsAddress wallet.address
  required : 0 < wallet.requiredWei
  balance : 0 ≤ wallet.balanceWei
  fits : wallet.requiredWei ≤ ceiling.walletBound
  within : wallet.balanceWei ≤ limitWei ceiling marginWei wallet

/-- The progress after the wallets of a list, none of which is blocked. -/
def PlanProgress.add (progress : PlanProgress) (wallets : List FundingWalletInput) :
    PlanProgress where
  seen := progress.seen ++ wallets.map fun wallet => toLowerCase wallet.address
  totalWei := progress.totalWei + (wallets.map (topUpWei ceiling marginWei)).sum
  envelopeTotalWei :=
    progress.envelopeTotalWei + (wallets.map (limitWei ceiling marginWei)).sum
  items := progress.items ++ wallets.map (planItem ceiling marginWei)
  runEnvelopeWei := progress.runEnvelopeWei ++ wallets.map fun wallet =>
    (toLowerCase wallet.address, toString (envelopeWei ceiling marginWei wallet))
  minimumBalanceWei := progress.minimumBalanceWei ++ wallets.map fun wallet =>
    (toLowerCase wallet.address, toString wallet.requiredWei)
  blockers := progress.blockers

variable {ceiling marginWei}

/-- A turn adds a blocker, or it adds the wallet. -/
theorem planWallet_blockers (progress : PlanProgress) (wallet : FundingWalletInput) :
    (planWallet ceiling marginWei progress wallet).blockers = [] ↔
      progress.blockers = [] ∧ Fundable ceiling marginWei wallet ∧
        toLowerCase wallet.address ∉ progress.seen := by
  unfold planWallet
  dsimp only
  split
  · rename_i invalid
    simp only [List.append_eq_nil_iff, reduceCtorEq, and_false, false_iff]
    exact fun holds => invalid holds.2.1.address
  · rename_i valid
    split
    · rename_i repeated
      simp only [List.append_eq_nil_iff, reduceCtorEq, and_false, false_iff]
      exact fun holds => holds.2.2 repeated
    · rename_i fresh
      split
      · rename_i invalid
        simp only [List.append_eq_nil_iff, reduceCtorEq, and_false, false_iff]
        intro holds
        rcases invalid with none | negative
        · exact absurd holds.2.1.required (Int.not_lt.mpr none)
        · exact absurd holds.2.1.balance (Int.not_le.mpr negative)
      · rename_i amounts
        rw [not_or, Int.not_le, Int.not_lt] at amounts
        simp only [List.append_eq_nil_iff, ite_eq_right_iff, reduceCtorEq, imp_false, Int.not_lt,
          gt_iff_lt]
        constructor
        · rintro ⟨⟨empty, fits⟩, within⟩
          exact ⟨empty, ⟨not_not.mp valid, amounts.1, amounts.2, fits, within⟩, fresh⟩
        · rintro ⟨empty, fundable, -⟩
          exact ⟨⟨empty, fundable.fits⟩, fundable.within⟩

theorem planWallet_of_fundable {progress : PlanProgress} {wallet : FundingWalletInput}
    (fundable : Fundable ceiling marginWei wallet)
    (fresh : toLowerCase wallet.address ∉ progress.seen) :
    planWallet ceiling marginWei progress wallet = progress.add ceiling marginWei [wallet] := by
  have amounts : ¬ (wallet.requiredWei ≤ 0 ∨ wallet.balanceWei < 0) :=
    not_or.mpr ⟨Int.not_le.mpr fundable.required, Int.not_lt.mpr fundable.balance⟩
  have fits : ¬ wallet.requiredWei > ceiling.walletBound := Int.not_lt.mpr fundable.fits
  have within : ¬ wallet.balanceWei > limitWei ceiling marginWei wallet :=
    Int.not_lt.mpr fundable.within
  unfold planWallet PlanProgress.add
  dsimp only
  rw [if_neg (not_not.mpr fundable.address), if_neg fresh, if_neg amounts, if_neg fits,
    if_neg within]
  simp

theorem PlanProgress.add_append (progress : PlanProgress)
    (wallet : FundingWalletInput) (rest : List FundingWalletInput) :
    (progress.add ceiling marginWei [wallet]).add ceiling marginWei rest =
      progress.add ceiling marginWei (wallet :: rest) := by
  simp [PlanProgress.add, Int.add_assoc]

/-- The loop ends without a blocker exactly when every wallet can be funded and
none is named twice. -/
theorem planWallets_blockers (wallets : List FundingWalletInput) (progress : PlanProgress) :
    (wallets.foldl (planWallet ceiling marginWei) progress).blockers = [] ↔
      progress.blockers = [] ∧ (∀ wallet ∈ wallets, Fundable ceiling marginWei wallet) ∧
        (wallets.map fun wallet => toLowerCase wallet.address).Nodup ∧
        ∀ wallet ∈ wallets, toLowerCase wallet.address ∉ progress.seen := by
  induction wallets generalizing progress with
  | nil => simp
  | cons wallet rest inductionHypothesis =>
      rw [List.foldl_cons, inductionHypothesis, planWallet_blockers]
      constructor
      · rintro ⟨⟨empty, fundable, fresh⟩, others, distinct, apart⟩
        rw [planWallet_of_fundable fundable fresh] at apart
        refine ⟨empty, List.forall_mem_cons.mpr ⟨fundable, others⟩, ?_, ?_⟩
        · rw [List.map_cons, List.nodup_cons, List.mem_map]
          refine ⟨?_, distinct⟩
          rintro ⟨other, member, same⟩
          exact apart other member (by simp [PlanProgress.add, same])
        · refine List.forall_mem_cons.mpr ⟨fresh, fun other member => ?_⟩
          exact fun early => apart other member (by simp [PlanProgress.add, early])
      · rintro ⟨empty, fundable, distinct, apart⟩
        rw [List.forall_mem_cons] at fundable apart
        rw [List.map_cons, List.nodup_cons] at distinct
        refine ⟨⟨empty, fundable.1, apart.1⟩, fundable.2, distinct.2, ?_⟩
        rw [planWallet_of_fundable fundable.1 apart.1]
        intro other member seen
        simp only [PlanProgress.add, List.map_cons, List.map_nil, List.mem_append,
          List.mem_singleton] at seen
        rcases seen with early | same
        · exact apart.2 other member early
        · exact distinct.1 (List.mem_map.mpr ⟨other, member, same⟩)

theorem planWallets_of_fundable {wallets : List FundingWalletInput} {progress : PlanProgress}
    (fundable : ∀ wallet ∈ wallets, Fundable ceiling marginWei wallet)
    (distinct : (wallets.map fun wallet => toLowerCase wallet.address).Nodup)
    (apart : ∀ wallet ∈ wallets, toLowerCase wallet.address ∉ progress.seen) :
    wallets.foldl (planWallet ceiling marginWei) progress =
      progress.add ceiling marginWei wallets := by
  induction wallets generalizing progress with
  | nil => simp [PlanProgress.add]
  | cons wallet rest inductionHypothesis =>
      rw [List.forall_mem_cons] at fundable apart
      rw [List.map_cons, List.nodup_cons] at distinct
      rw [List.foldl_cons, planWallet_of_fundable fundable.1 apart.1,
        inductionHypothesis fundable.2 distinct.2 ?_, progress.add_append]
      intro other member seen
      simp only [PlanProgress.add, List.map_cons, List.map_nil, List.mem_append,
        List.mem_singleton] at seen
      rcases seen with early | same
      · exact apart.2 other member early
      · exact distinct.1 (List.mem_map.mpr ⟨other, member, same⟩)

/-! ## Amounts of a wallet that can be funded -/

theorem le_roundUpToDisplay {wei : Int} (nonneg : 0 ≤ wei) : wei ≤ roundUpToDisplay wei := by
  change wei ≤ (wei + 1000000000000 - 1).tdiv 1000000000000 * 1000000000000
  rw [Int.tdiv_eq_ediv_of_nonneg (by omega)]
  omega

theorem limitWei_eq (ceiling : BalanceCeiling) (marginWei : Wei) (wallet : FundingWalletInput) :
    limitWei ceiling marginWei wallet =
      max ceiling.walletMaxWei (envelopeWei ceiling marginWei wallet) := by
  unfold limitWei
  split
  · rename_i above
    exact (max_eq_right (le_of_lt above)).symm
  · rename_i below
    exact (max_eq_left (not_lt.mp below)).symm

/-- The limit does not depend on the balance. -/
theorem limitWei_balance (ceiling : BalanceCeiling) (marginWei : Wei)
    (wallet : FundingWalletInput) (balanceWei : Wei) :
    limitWei ceiling marginWei { wallet with balanceWei := balanceWei } =
      limitWei ceiling marginWei wallet :=
  rfl

theorem topUpWei_nonneg (ceiling : BalanceCeiling) (marginWei : Wei)
    (wallet : FundingWalletInput) : 0 ≤ topUpWei ceiling marginWei wallet := by
  unfold topUpWei
  dsimp only
  by_cases short : wallet.requiredWei > wallet.balanceWei
  · have rounded := le_roundUpToDisplay (sub_nonneg.mpr (le_of_lt short))
    rw [if_pos short]
    split_ifs <;> linarith
  · rw [if_neg short]
    split_ifs <;> linarith

namespace Fundable

variable {wallet : FundingWalletInput}

theorem required_le_envelope (fundable : Fundable ceiling marginWei wallet)
    (margin : 0 ≤ marginWei) : wallet.requiredWei ≤ envelopeWei ceiling marginWei wallet := by
  have fits := fundable.fits
  unfold envelopeWei
  dsimp only
  split <;> linarith

theorem envelope_le_bound (fundable : Fundable ceiling marginWei wallet) :
    envelopeWei ceiling marginWei wallet ≤ ceiling.walletBound := by
  unfold envelopeWei
  dsimp only
  split
  · exact le_rfl
  · rename_i unclipped
    exact not_lt.mp fun above => unclipped ⟨above, fundable.fits⟩

theorem required_le_limit (fundable : Fundable ceiling marginWei wallet)
    (margin : 0 ≤ marginWei) : wallet.requiredWei ≤ limitWei ceiling marginWei wallet := by
  rw [limitWei_eq]
  exact le_max_of_le_right (fundable.required_le_envelope margin)

/-- The funded wallet can pay for its run. -/
theorem required_le_funded (fundable : Fundable ceiling marginWei wallet)
    (margin : 0 ≤ marginWei) :
    wallet.requiredWei ≤ wallet.balanceWei + topUpWei ceiling marginWei wallet := by
  have fits := fundable.required_le_limit margin
  unfold topUpWei
  dsimp only
  by_cases short : wallet.requiredWei > wallet.balanceWei
  · have rounded := le_roundUpToDisplay (sub_nonneg.mpr (le_of_lt short))
    rw [if_pos short]
    split_ifs <;> linarith
  · rw [if_neg short]
    split_ifs <;> linarith

/-- The funded wallet stays within its limit. -/
theorem funded_le_limit (fundable : Fundable ceiling marginWei wallet) :
    wallet.balanceWei + topUpWei ceiling marginWei wallet ≤ limitWei ceiling marginWei wallet := by
  have within := fundable.within
  unfold topUpWei
  dsimp only
  split_ifs <;> linarith

end Fundable

/-- The wallet once the owner has sent what the plan asks for. -/
def FundingWalletInput.funded (ceiling : BalanceCeiling) (marginWei : Wei)
    (wallet : FundingWalletInput) : FundingWalletInput :=
  { wallet with balanceWei := wallet.balanceWei + topUpWei ceiling marginWei wallet }

theorem Fundable.again {wallet : FundingWalletInput}
    (fundable : Fundable ceiling marginWei wallet) :
    Fundable ceiling marginWei (wallet.funded ceiling marginWei) where
  address := fundable.address
  required := fundable.required
  balance := Int.add_nonneg fundable.balance (topUpWei_nonneg _ _ _)
  fits := fundable.fits
  within := fundable.funded_le_limit

/-- A funded wallet needs nothing more. -/
theorem Fundable.topUp_again {wallet : FundingWalletInput}
    (fundable : Fundable ceiling marginWei wallet) (margin : 0 ≤ marginWei) :
    topUpWei ceiling marginWei (wallet.funded ceiling marginWei) = 0 := by
  have paid := fundable.required_le_funded margin
  unfold topUpWei
  rw [FundingWalletInput.funded]
  dsimp only
  rw [if_neg (Int.not_lt.mpr paid), limitWei_balance]
  split_ifs <;> linarith

end Fundable

/-! ## The fleet -/

/-- The fleet can be funded as asked. -/
structure RunFundable (ceiling : BalanceCeiling) (marginWei : Wei)
    (wallets : List FundingWalletInput) : Prop where
  idle : 0 < ceiling.walletMaxWei ∧ 0 < ceiling.fleetMaxWei
  nonempty : wallets ≠ []
  margin : 0 ≤ marginWei
  each : ∀ wallet ∈ wallets, Fundable ceiling marginWei wallet
  distinct : (wallets.map fun wallet => toLowerCase wallet.address).Nodup
  fleet : (wallets.map (limitWei ceiling marginWei)).sum ≤ ceiling.fleetBound

/-- The plan of a fleet that can be funded. -/
def fundedPlan (chainId : Nat) (ceiling : BalanceCeiling) (marginWei : Wei)
    (wallets : List FundingWalletInput) : FundingPlan where
  chainId := chainId
  items := wallets.map (planItem ceiling marginWei)
  totalTopUpWei := toString (wallets.map (topUpWei ceiling marginWei)).sum
  runEnvelopeWei := wallets.map fun wallet =>
    (toLowerCase wallet.address, toString (envelopeWei ceiling marginWei wallet))
  minimumBalanceWei := wallets.map fun wallet =>
    (toLowerCase wallet.address, toString wallet.requiredWei)
  ready := (wallets.map (topUpWei ceiling marginWei)).sum = 0

theorem planRunFunding_of_fundable (chainId : Nat) {ceiling : BalanceCeiling}
    {marginWei : Option Wei} {wallets : List FundingWalletInput}
    (fundable : RunFundable ceiling (marginWei.getD fundingRoundingMarginWei) wallets) :
    planRunFunding chainId (some ceiling) wallets marginWei =
      fundedPlan chainId ceiling (marginWei.getD fundingRoundingMarginWei) wallets := by
  have fresh : ∀ wallet ∈ wallets, toLowerCase wallet.address ∉ ({} : PlanProgress).seen :=
    fun _ _ => List.not_mem_nil
  have looped := planWallets_of_fundable fundable.each fundable.distinct fresh
  have kept : (some ceiling).filter (fun ceiling =>
      0 < ceiling.walletMaxWei ∧ 0 < ceiling.fleetMaxWei) = some ceiling := by
    simp [Option.filter, fundable.idle]
  have fleet : ¬ ((PlanProgress.add ceiling (marginWei.getD fundingRoundingMarginWei) {}
      wallets).envelopeTotalWei > ceiling.fleetBound) := by
    simpa [PlanProgress.add] using fundable.fleet
  unfold planRunFunding
  rw [kept]
  dsimp only
  rw [if_neg fundable.nonempty, if_neg (Int.not_lt.mpr fundable.margin), looped, if_neg fleet]
  simp [PlanProgress.add, fundedPlan]

/-- A plan has no blocker exactly when the fleet can be funded. -/
theorem planRunFunding_blockers (chainId : Nat) (ceiling : Option BalanceCeiling)
    (marginWei : Option Wei) (wallets : List FundingWalletInput) :
    (planRunFunding chainId ceiling wallets marginWei).blockers = [] ↔
      ∃ found, ceiling = some found ∧
        RunFundable found (marginWei.getD fundingRoundingMarginWei) wallets := by
  constructor
  · intro unblocked
    unfold planRunFunding at unblocked
    split at unblocked
    · simp at unblocked
    · rename_i found filtered
      obtain ⟨rfl, idle⟩ := Option.filter_eq_some_iff.mp filtered
      refine ⟨found, rfl, ?_⟩
      dsimp only at unblocked
      split at unblocked
      · simp at unblocked
      · rename_i nonempty
        split at unblocked
        · simp at unblocked
        · rename_i margin
          rw [List.append_eq_nil_iff, planWallets_blockers] at unblocked
          obtain ⟨⟨-, each, distinct, apart⟩, fleet⟩ := unblocked
          rw [planWallets_of_fundable each distinct apart] at fleet
          exact
            { idle := of_decide_eq_true idle
              nonempty := nonempty
              margin := Int.not_lt.mp margin
              each := each
              distinct := distinct
              fleet := by simpa [PlanProgress.add] using fleet }
  · rintro ⟨found, rfl, fundable⟩
    rw [planRunFunding_of_fundable chainId fundable]
    rfl

theorem RunFundable.again {ceiling : BalanceCeiling} {marginWei : Wei}
    {wallets : List FundingWalletInput} (fundable : RunFundable ceiling marginWei wallets) :
    RunFundable ceiling marginWei
      (wallets.map (FundingWalletInput.funded ceiling marginWei)) where
  idle := fundable.idle
  nonempty := by simpa using fundable.nonempty
  margin := fundable.margin
  each := by
    intro wallet member
    obtain ⟨other, otherMember, rfl⟩ := List.mem_map.mp member
    exact (fundable.each other otherMember).again
  distinct := by
    rw [List.map_map]
    exact fundable.distinct
  fleet := by
    rw [List.map_map]
    exact fundable.fleet

/-- What the funded fleet holds fits the bound of the fleet. -/
theorem RunFundable.funded_le {ceiling : BalanceCeiling} {marginWei : Wei}
    {wallets : List FundingWalletInput} (fundable : RunFundable ceiling marginWei wallets) :
    (wallets.map fun wallet => wallet.balanceWei + topUpWei ceiling marginWei wallet).sum ≤
      (wallets.map (limitWei ceiling marginWei)).sum :=
  List.sum_le_sum fun wallet member => (fundable.each wallet member).funded_le_limit

end MintBot
