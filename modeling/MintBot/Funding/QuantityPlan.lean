import Mathlib.Algebra.Order.Floor.Ring
import Mathlib.Algebra.Order.Floor.Semiring
import Mathlib.Data.Rat.Floor
import MintBot.Funding.EthText
import MintBot.Library.Fallible

/-!
# The quantity of a free mint

`planFreeQuantity` lowers the wanted quantity to the largest one whose worst case
fits the fee allowance and the gas ceiling of one transaction.  Below the full
quantity it searches by halves.  An estimate that is missing or not positive ends
the search without a plan: the full quantity is kept, and nothing is promised
about it.
-/

namespace MintBot

open Fallible DecimalText

/-- `formatGwei`, of an amount that is not negative. -/
def formatGwei (wei : Nat) : String :=
  let fraction := dropZeros ((padded 9 (wei % 10 ^ 9)).take 3)
  String.ofList (Nat.toDigits 10 (wei / 10 ^ 9) ++
    if fraction = [] then [] else '.' :: fraction)

inductive QuantityPlanReason
  | full
  | reducedForFees
  | reducedForGasLimit
  | cannotFitOne
  | unknown
  deriving DecidableEq, Repr

structure QuantityPlanInput where
  desired : Int
  allowanceWei : Wei
  maxFeePerGasWei : Wei
  gasForQuantity : Int → Option Int
  paddingNumerator : Option Int := none
  paddingDenominator : Option Int := none
  maxGasLimit : Option Int := none

structure QuantityPlan where
  desired : Int
  planned : Int
  reduced : Bool
  reason : QuantityPlanReason
  maxFeeGwei : String
  plannedWorstCaseWei : Option Wei
  message : String
  deriving DecidableEq, Repr

/-- The padded gas limit of a quantity and its worst case. -/
structure Measured where
  gasLimit : Int
  cost : Wei
  deriving DecidableEq, Repr

/-- `(gas * num + den - 1n) / den`. -/
def paddedGas (num den gas : Int) : Int :=
  (gas * num + den - 1).tdiv den

namespace QuantityPlanInput

variable (input : QuantityPlanInput)

def num : Int := input.paddingNumerator.getD 12

def den : Int := input.paddingDenominator.getD 10

def gasCeiling : Int := input.maxGasLimit.getD 15000000

def maxFeeGwei : String := formatGwei input.maxFeePerGasWei.toNat

/-- What a quantity is measured at, where its gas can be estimated. -/
def measured (quantity : Int) : Option Measured :=
  ((input.gasForQuantity quantity).filter fun gas => 0 < gas).map fun gas =>
    { gasLimit := paddedGas input.num input.den gas
      cost := paddedGas input.num input.den gas * input.maxFeePerGasWei }

/-- `measure`: the division by the padding may fail. -/
def measure (quantity : Int) : Except Error (Option Measured) := do
  refuse (input.measured quantity ≠ none ∧ input.den = 0) "Division by zero"
  return input.measured quantity

/-- `fits`. -/
def Fits (measured : Measured) : Prop :=
  measured.cost ≤ input.allowanceWei ∧ measured.gasLimit ≤ input.gasCeiling

instance (measured : Measured) : Decidable (input.Fits measured) :=
  inferInstanceAs (Decidable (_ ∧ _))

/-- `Math.floor((low + high) / 2)`: a sum above the exact integers is rounded to an even one, and
an odd one halfway goes to the multiple of four. -/
def middle (low high : Int) : Int :=
  let sum := low + high
  if sum ≤ 2 ^ 53 ∨ sum % 2 = 0 then sum / 2
  else if sum / 2 % 2 = 0 then sum / 2
  else sum / 2 + 1

theorem middle_bounds {low high : Int} (inOrder : low ≤ high) :
    low ≤ middle low high ∧ middle low high ≤ high := by
  unfold middle
  dsimp only
  split
  · omega
  · split <;> omega

/-- The search below the full quantity: the best quantity that was seen to fit, or nothing where an
estimate is missing. -/
def search (low high : Int) (best : Option (Int × Wei)) :
    Except Error (Option (Option (Int × Wei))) :=
  if _inOrder : low ≤ high then do
    match ← input.measure (middle low high) with
    | none => return none
    | some measured =>
        if input.Fits measured then
          search (middle low high + 1) high (some (middle low high, measured.cost))
        else search low (middle low high - 1) best
  else .ok (some best)
termination_by (high + 1 - low).toNat
decreasing_by
  · have := middle_bounds _inOrder
    omega
  · have := middle_bounds _inOrder
    omega

/-- The full quantity, kept because a fee could not be estimated. -/
def unknownPlan : QuantityPlan where
  desired := input.desired
  planned := input.desired
  reduced := false
  reason := .unknown
  maxFeeGwei := input.maxFeeGwei
  plannedWorstCaseWei := none
  message := s!"Could not estimate the mint fee, so the full {input.desired} per wallet is kept for now. Live admission re-checks the fee allowance before anything is signed."

def fullPlan (full : Measured) : QuantityPlan where
  desired := input.desired
  planned := input.desired
  reduced := false
  reason := .full
  maxFeeGwei := input.maxFeeGwei
  plannedWorstCaseWei := some full.cost
  message := s!"All {input.desired} NFT(s) per wallet fit the {formatEth input.allowanceWei} ETH fee allowance at {input.maxFeeGwei} gwei."

def skippedPlan (one : Option Measured) : QuantityPlan where
  desired := input.desired
  planned := 0
  reduced := true
  reason := .cannotFitOne
  maxFeeGwei := input.maxFeeGwei
  plannedWorstCaseWei := one.map Measured.cost
  message := s!"Skipped: at {input.maxFeeGwei} gwei even 1 NFT would cost more than the {formatEth input.allowanceWei} ETH fee allowance in the worst case. It will be reconsidered when fees fall."

/-- The fees allow the full quantity, but one transaction cannot carry that much gas. -/
def gasLimitPlan (best : Int × Wei) : QuantityPlan where
  desired := input.desired
  planned := best.1
  reduced := true
  reason := .reducedForGasLimit
  maxFeeGwei := input.maxFeeGwei
  plannedWorstCaseWei := some best.2
  message := s!"Planned {best.1} of {input.desired} NFTs per wallet: the fee allowance would cover more, but one transaction cannot carry more than {best.1} NFTs (network gas limit per transaction)."

def feesPlan (best : Int × Wei) : QuantityPlan where
  desired := input.desired
  planned := best.1
  reduced := true
  reason := .reducedForFees
  maxFeeGwei := input.maxFeeGwei
  plannedWorstCaseWei := some best.2
  message := s!"Planned {best.1} of {input.desired} NFTs per wallet: at {input.maxFeeGwei} gwei the {formatEth input.allowanceWei} ETH fee allowance only covers {best.1}. More will be minted when fees are lower."

end QuantityPlanInput

/-- `planFreeQuantity`. -/
def planFreeQuantity (input : QuantityPlanInput) : Except Error QuantityPlan := do
  refuse (maxSafeInteger < input.desired ∨ input.desired < 1 ∨ input.allowanceWei ≤ 0 ∨
    input.maxFeePerGasWei ≤ 0) "QUANTITY_PLAN_INPUT_INVALID"
  match ← input.measure input.desired with
  | none => return input.unknownPlan
  | some full =>
      if input.Fits full then return input.fullPlan full
      else
        match ← input.search 1 (input.desired - 1) none with
        | none => return input.unknownPlan
        | some none => return input.skippedPlan (← input.measure 1)
        | some (some best) =>
            if full.cost ≤ input.allowanceWei then return input.gasLimitPlan best
            else return input.feesPlan best

/-! ## What is planned fits -/

namespace QuantityPlanInput

variable {input : QuantityPlanInput}

theorem measure_eq_ok {quantity : Int} {result : Option Measured} :
    input.measure quantity = .ok result ↔
      (input.measured quantity = none ∨ input.den ≠ 0) ∧ input.measured quantity = result := by
  simp only [measure, bind_eq_ok, refuse_eq_ok, pure_eq_ok, exists_const, not_and_or, not_not]

/-- A quantity fits by its measure. -/
def FitsAt (input : QuantityPlanInput) (quantity : Int) (measured : Measured) : Prop :=
  input.measured quantity = some measured ∧ input.Fits measured

/-- The best quantity so far was measured and fits. -/
def BestFits (input : QuantityPlanInput) (best : Option (Int × Wei)) : Prop :=
  ∀ found ∈ best, ∃ measured, input.FitsAt found.1 measured ∧ found.2 = measured.cost

/-- One turn of the search. -/
theorem search_inside {low high : Int} (inOrder : low ≤ high) (best : Option (Int × Wei)) :
    input.search low high best = (input.measure (middle low high) >>= fun
      | none => pure none
      | some measured =>
          if input.Fits measured then
            input.search (middle low high + 1) high (some (middle low high, measured.cost))
          else input.search low (middle low high - 1) best) := by
  rw [search, dif_pos inOrder]

theorem search_done {low high : Int} (crossed : ¬ low ≤ high) (best : Option (Int × Wei)) :
    input.search low high best = .ok (some best) := by
  rw [search, dif_neg crossed]

/-- Whatever the estimates are, the search returns a quantity that fits. -/
theorem search_fits (low high : Int) (best : Option (Int × Wei)) (fits : input.BestFits best)
    {result : Option (Int × Wei)} (searched : input.search low high best = .ok (some result)) :
    input.BestFits result := by
  induction low, high, best using search.induct with
  | case1 low high best inOrder higher lower =>
      rw [search_inside inOrder, bind_eq_ok] at searched
      obtain ⟨measured, known, searched⟩ := searched
      cases measured with
      | none => cases searched
      | some measured =>
          dsimp only at searched
          by_cases fit : input.Fits measured
          · rw [if_pos fit] at searched
            refine higher measured ?_ searched
            intro found same
            obtain rfl := Option.some.inj same
            exact ⟨measured, ⟨(measure_eq_ok.mp known).2, fit⟩, rfl⟩
          · rw [if_neg fit] at searched
            exact lower fits searched
  | case2 low high best crossed =>
      rw [search_done crossed] at searched
      cases searched
      exact fits

/-! ## The largest quantity -/

/-- The quantity fits by its measure. -/
def Affordable (input : QuantityPlanInput) (quantity : Int) : Prop :=
  ∃ measured, input.FitsAt quantity measured

/-- No quantity up to the wanted one lacks an estimate, and what fits a larger one fits a smaller
one. -/
structure Regular (input : QuantityPlanInput) : Prop where
  divides : input.den ≠ 0
  known : ∀ quantity, 1 ≤ quantity → quantity ≤ input.desired → input.measured quantity ≠ none
  downward : ∀ smaller larger, 1 ≤ smaller → smaller ≤ larger → larger ≤ input.desired →
    input.Affordable larger → input.Affordable smaller

/-- The outcome of the search: nothing fits, or the quantity is the largest that does. -/
def Largest (input : QuantityPlanInput) : Option (Int × Wei) → Prop
  | none => ∀ quantity, 1 ≤ quantity → quantity ≤ input.desired → ¬ input.Affordable quantity
  | some (found, _) => 1 ≤ found ∧ found ≤ input.desired ∧ input.Affordable found ∧
      ∀ larger, found < larger → larger ≤ input.desired → ¬ input.Affordable larger

theorem Regular.measure_ok (regular : input.Regular) (quantity : Int) (positive : 1 ≤ quantity)
    (wanted : quantity ≤ input.desired) :
    ∃ measured, input.measured quantity = some measured ∧
      input.measure quantity = .ok (some measured) := by
  obtain ⟨measured, known⟩ := Option.ne_none_iff_exists'.mp (regular.known quantity positive wanted)
  exact ⟨measured, known, measure_eq_ok.mpr ⟨.inr regular.divides, known⟩⟩

/-- The search keeps the best quantity below its range, and everything above it too large. -/
theorem search_largest (regular : input.Regular) (low high : Int) (best : Option (Int × Wei))
    (start : 1 ≤ low) (stop : low ≤ high + 1) (below : high < input.desired)
    (found : match best with
      | none => low = 1
      | some (quantity, _) => 1 ≤ quantity ∧ quantity = low - 1 ∧ input.Affordable quantity)
    (above : ∀ quantity, high < quantity → quantity ≤ input.desired →
      ¬ input.Affordable quantity) :
    ∃ result, input.search low high best = .ok (some result) ∧ input.Largest result := by
  induction low, high, best using search.induct with
  | case1 low high best inOrder higher lower =>
      have bounds := middle_bounds inOrder
      obtain ⟨measured, known, measures⟩ :=
        regular.measure_ok (middle low high) (by omega) (by omega)
      rw [search_inside inOrder, measures, ok_bind]
      dsimp only
      by_cases fit : input.Fits measured
      · rw [if_pos fit]
        exact higher measured (by omega) (by omega) below
          ⟨by omega, by omega, measured, known, fit⟩ above
      · rw [if_neg fit]
        refine lower start (by omega) (by omega) found ?_
        intro quantity beyond wanted affordable
        obtain ⟨seen, here, fits⟩ := regular.downward (middle low high) quantity (by omega)
          (by omega) wanted affordable
        obtain rfl := Option.some.inj (known.symm.trans here)
        exact fit fits
  | case2 low high best crossed =>
      refine ⟨best, search_done crossed best, ?_⟩
      cases best with
      | none =>
          intro quantity positive wanted
          exact above quantity (by omega) wanted
      | some quantity =>
          obtain ⟨positive, last, affordable⟩ := found
          exact ⟨positive, by omega, affordable, fun larger beyond wanted =>
            above larger (by omega) wanted⟩

/-! ## The plan -/

/-- The amounts that `planFreeQuantity` takes. -/
def Accepted (input : QuantityPlanInput) : Prop :=
  input.desired ≤ maxSafeInteger ∧ 1 ≤ input.desired ∧ 0 < input.allowanceWei ∧
    0 < input.maxFeePerGasWei

instance (input : QuantityPlanInput) : Decidable input.Accepted :=
  inferInstanceAs (Decidable (_ ∧ _ ∧ _ ∧ _))

/-- How the search below the full quantity ends the plan. -/
def EndsWith (input : QuantityPlanInput) (full : Measured) (plan : QuantityPlan) :
    Option (Int × Wei) → Prop
  | none => ∃ one, input.measure 1 = .ok one ∧ plan = input.skippedPlan one
  | some best => plan =
      if full.cost ≤ input.allowanceWei then input.gasLimitPlan best else input.feesPlan best

theorem planFreeQuantity_eq_ok {plan : QuantityPlan} :
    planFreeQuantity input = .ok plan ↔ input.Accepted ∧
      ∃ full, input.measure input.desired = .ok full ∧
        match full with
        | none => plan = input.unknownPlan
        | some full =>
            if input.Fits full then plan = input.fullPlan full
            else ∃ outcome, input.search 1 (input.desired - 1) none = .ok outcome ∧
              match outcome with
              | none => plan = input.unknownPlan
              | some result => input.EndsWith full plan result := by
  simp only [planFreeQuantity, bind_eq_ok, refuse_eq_ok, not_or, Int.not_lt, Int.not_le, Accepted,
    exists_const]
  refine and_congr Iff.rfl (exists_congr fun full => and_congr_right fun _ => ?_)
  cases full with
  | none =>
      dsimp only
      rw [pure_eq_ok, eq_comm]
  | some full =>
      dsimp only
      by_cases fit : input.Fits full
      · rw [if_pos fit, if_pos fit, pure_eq_ok, eq_comm]
      · rw [if_neg fit, if_neg fit, bind_eq_ok]
        refine exists_congr fun outcome => and_congr_right fun _ => ?_
        match outcome with
        | none =>
            dsimp only
            rw [pure_eq_ok, eq_comm]
        | some none =>
            dsimp only [EndsWith]
            rw [bind_eq_ok]
            refine exists_congr fun one => and_congr_right fun _ => ?_
            rw [pure_eq_ok, eq_comm]
        | some (some best) =>
            dsimp only [EndsWith]
            by_cases covered : full.cost ≤ input.allowanceWei
            · rw [if_pos covered, if_pos covered, pure_eq_ok, eq_comm]
            · rw [if_neg covered, if_neg covered, pure_eq_ok, eq_comm]

/-- The gas of a measured quantity. -/
theorem measured_eq_some {quantity : Int} {measured : Measured} :
    input.measured quantity = some measured ↔
      ∃ gas, (input.gasForQuantity quantity = some gas ∧ 0 < gas) ∧
        ⟨paddedGas input.num input.den gas,
          paddedGas input.num input.den gas * input.maxFeePerGasWei⟩ = measured := by
  simp only [QuantityPlanInput.measured, Option.map_eq_some_iff, Option.filter_eq_some_iff,
    decide_eq_true_eq]

/-- A planned quantity that is no guess fits the allowance and the gas ceiling, and its worst case
is the one stated. -/
theorem planned_fits {plan : QuantityPlan} (planned : planFreeQuantity input = .ok plan)
    (positive : 0 < plan.planned) (known : plan.reason ≠ .unknown) :
    ∃ gas, input.gasForQuantity plan.planned = some gas ∧ 0 < gas ∧
      paddedGas input.num input.den gas ≤ input.gasCeiling ∧
      paddedGas input.num input.den gas * input.maxFeePerGasWei ≤ input.allowanceWei ∧
      plan.plannedWorstCaseWei =
        some (paddedGas input.num input.den gas * input.maxFeePerGasWei) := by
  obtain ⟨-, full, measures, ending⟩ := planFreeQuantity_eq_ok.mp planned
  suffices fits : ∃ measured, input.FitsAt plan.planned measured ∧
      plan.plannedWorstCaseWei = some measured.cost by
    obtain ⟨measured, ⟨estimate, fit⟩, worst⟩ := fits
    obtain ⟨gas, ⟨given, positive⟩, rfl⟩ := measured_eq_some.mp estimate
    exact ⟨gas, given, positive, fit.2, fit.1, worst⟩
  cases full with
  | none =>
      obtain rfl := ending
      exact absurd rfl known
  | some full =>
      dsimp only at ending
      by_cases fit : input.Fits full
      · rw [if_pos fit] at ending
        obtain rfl := ending
        exact ⟨full, ⟨(measure_eq_ok.mp measures).2, fit⟩, rfl⟩
      · rw [if_neg fit] at ending
        obtain ⟨outcome, searched, ending⟩ := ending
        match outcome, searched, ending with
        | none, _, ending =>
            obtain rfl := ending
            exact absurd rfl known
        | some none, _, ending =>
            obtain ⟨one, -, rfl⟩ := ending
            exact absurd positive (lt_irrefl 0)
        | some (some best), searched, ending =>
            have bestFits := search_fits 1 (input.desired - 1) none (fun _ none => nomatch none)
              searched
            obtain ⟨measured, fits, worst⟩ := bestFits best rfl
            dsimp only [EndsWith] at ending
            split at ending <;> obtain rfl := ending <;>
              exact ⟨measured, fits, congrArg some worst⟩

/-- The largest quantity is planned; one that does not fit is skipped; and a reduction for fees says
that the full quantity costs too much. -/
structure PlansLargest (input : QuantityPlanInput) (plan : QuantityPlan) : Prop where
  known : plan.reason ≠ .unknown
  largest : IsGreatest
    {quantity | 0 ≤ quantity ∧ quantity ≤ input.desired ∧
      (quantity = 0 ∨ input.Affordable quantity)} plan.planned
  skipped : plan.reason = .cannotFitOne ↔ ¬ input.Affordable 1
  reduced : plan.reason = .reducedForFees ∨ plan.reason = .reducedForGasLimit →
    (plan.reason = .reducedForFees ↔
      ∃ full, input.measured input.desired = some full ∧ input.allowanceWei < full.cost)

theorem planned_largest (regular : input.Regular) {plan : QuantityPlan}
    (planned : planFreeQuantity input = .ok plan) : input.PlansLargest plan := by
  obtain ⟨⟨-, wanted, -, -⟩, full, measures, ending⟩ := planFreeQuantity_eq_ok.mp planned
  obtain ⟨full, known, measuresFull⟩ := regular.measure_ok input.desired wanted le_rfl
  obtain rfl := Except.ok.inj (measuresFull.symm.trans measures)
  dsimp only at ending
  by_cases fit : input.Fits full
  · rw [if_pos fit] at ending
    obtain rfl := ending
    have affordable : input.Affordable input.desired := ⟨full, known, fit⟩
    refine ⟨nofun, ⟨⟨le_trans zero_le_one wanted, le_rfl, .inr affordable⟩, fun quantity inside => inside.2.1⟩,
      ?_, by rintro (reason | reason) <;> cases reason⟩
    exact iff_of_false nofun
      (not_not.mpr (regular.downward 1 input.desired le_rfl wanted le_rfl affordable))
  · rw [if_neg fit] at ending
    have tooLarge : ¬ input.Affordable input.desired := by
      rintro ⟨measured, here, fits⟩
      obtain rfl := Option.some.inj (known.symm.trans here)
      exact fit fits
    obtain ⟨result, found, largest⟩ := search_largest regular 1 (input.desired - 1) none le_rfl
      (by omega) (by omega) rfl (fun quantity beyond wanted => by
        obtain rfl : quantity = input.desired := by omega
        exact tooLarge)
    obtain ⟨outcome, searched, ending⟩ := ending
    obtain rfl := Except.ok.inj (found.symm.trans searched)
    dsimp only at ending
    cases result with
    | none =>
        obtain ⟨one, -, rfl⟩ := ending
        refine ⟨nofun, ⟨⟨le_rfl, le_trans zero_le_one wanted, .inl rfl⟩, ?_⟩, ?_,
          by rintro (reason | reason) <;> cases reason⟩
        · rintro quantity ⟨-, within, rfl | affordable⟩
          · exact le_rfl
          · exact not_lt.mp fun positive => largest quantity positive within affordable
        · exact iff_of_true rfl (largest 1 le_rfl wanted)
    | some best =>
        obtain ⟨positive, within, affordable, above⟩ := largest
        have one : input.Affordable 1 := regular.downward 1 best.1 le_rfl positive within affordable
        have greatest : IsGreatest {quantity | 0 ≤ quantity ∧ quantity ≤ input.desired ∧
            (quantity = 0 ∨ input.Affordable quantity)} best.1 := by
          refine ⟨⟨by omega, within, .inr affordable⟩, ?_⟩
          rintro quantity ⟨-, inside, rfl | larger⟩
          · omega
          · exact not_lt.mp fun beyond => above quantity beyond inside larger
        dsimp only [EndsWith] at ending
        by_cases covered : full.cost ≤ input.allowanceWei
        · rw [if_pos covered] at ending
          obtain rfl := ending
          refine ⟨nofun, greatest, iff_of_false nofun (not_not.mpr one), fun _ => ?_⟩
          refine iff_of_false nofun ?_
          rintro ⟨other, here, dear⟩
          obtain rfl := Option.some.inj (known.symm.trans here)
          exact absurd covered (not_le.mpr dear)
        · rw [if_neg covered] at ending
          obtain rfl := ending
          exact ⟨nofun, greatest, iff_of_false nofun (not_not.mpr one), fun _ =>
            iff_of_true rfl ⟨full, known, not_le.mp covered⟩⟩

/-! ## Steady estimates -/

theorem measure_succeeds (divides : input.den ≠ 0) (quantity : Int) :
    ∃ result, input.measure quantity = .ok result :=
  ⟨_, measure_eq_ok.mpr ⟨.inr divides, rfl⟩⟩

theorem search_succeeds (divides : input.den ≠ 0) (low high : Int) (best : Option (Int × Wei)) :
    ∃ outcome, input.search low high best = .ok outcome := by
  induction low, high, best using search.induct with
  | case1 low high best inOrder higher lower =>
      obtain ⟨measured, measures⟩ := measure_succeeds divides (middle low high)
      rw [search_inside inOrder, measures, ok_bind]
      cases measured with
      | none => exact ⟨none, rfl⟩
      | some measured =>
          dsimp only
          split
          · exact higher measured
          · exact lower
  | case2 low high best crossed => exact ⟨some best, search_done crossed best⟩

/-- Amounts in range and a padding that divides give a plan. -/
theorem plan_exists (accepted : input.Accepted) (divides : input.den ≠ 0) :
    ∃ plan, planFreeQuantity input = .ok plan := by
  obtain ⟨full, measures⟩ := measure_succeeds divides input.desired
  obtain ⟨outcome, searched⟩ := search_succeeds divides 1 (input.desired - 1) none
  obtain ⟨one, measuresOne⟩ := measure_succeeds divides 1
  simp only [planFreeQuantity_eq_ok]
  cases full with
  | none => exact ⟨_, accepted, none, measures, rfl⟩
  | some full =>
      by_cases fit : input.Fits full
      · exact ⟨_, accepted, some full, measures, (if_pos fit).mpr rfl⟩
      · cases outcome with
        | none => exact ⟨_, accepted, some full, measures, (if_neg fit).mpr ⟨none, searched, rfl⟩⟩
        | some result =>
            cases result with
            | none => exact ⟨_, accepted, some full, measures,
                (if_neg fit).mpr ⟨some none, searched, one, measuresOne, rfl⟩⟩
            | some best => exact ⟨_, accepted, some full, measures,
                (if_neg fit).mpr ⟨some (some best), searched, rfl⟩⟩

/-- A padding that does not turn the sign. -/
def PadsUp (input : QuantityPlanInput) : Prop :=
  0 ≤ input.num ∧ 0 < input.den

instance (input : QuantityPlanInput) : Decidable input.PadsUp :=
  inferInstanceAs (Decidable (_ ∧ _))

/-- Every quantity up to the wanted one has a positive estimate, and a larger quantity has no
smaller one. -/
structure Steady (input : QuantityPlanInput) : Prop where
  estimated : ∀ quantity, 1 ≤ quantity → quantity ≤ input.desired →
    ∃ gas, input.gasForQuantity quantity = some gas ∧ 0 < gas
  monotone : ∀ smaller larger less more, 1 ≤ smaller → smaller ≤ larger → larger ≤ input.desired →
    input.gasForQuantity smaller = some less → input.gasForQuantity larger = some more → less ≤ more

theorem paddedGas_mono {num den less more : Int} (num_nonneg : 0 ≤ num) (den_pos : 0 < den)
    (positive : 0 < less) (inOrder : less ≤ more) : paddedGas num den less ≤ paddedGas num den more := by
  have scaled : less * num ≤ more * num := Int.mul_le_mul_of_nonneg_right inOrder num_nonneg
  have start : 0 ≤ less * num := Int.mul_nonneg positive.le num_nonneg
  rw [paddedGas, paddedGas, Int.tdiv_eq_ediv_of_nonneg (by omega),
    Int.tdiv_eq_ediv_of_nonneg (by omega)]
  exact Int.ediv_le_ediv den_pos (by omega)

/-- The padded gas is rounded up. -/
theorem paddedGas_eq_ceil {num den gas : Int} (num_nonneg : 0 ≤ num) (den_pos : 0 < den)
    (gas_nonneg : 0 ≤ gas) : paddedGas num den gas = ⌈((gas * num : Int) : ℚ) / (den : ℚ)⌉ := by
  have start : 0 ≤ gas * num := Int.mul_nonneg gas_nonneg num_nonneg
  rw [paddedGas, Int.tdiv_eq_ediv_of_nonneg (by omega), eq_comm, Int.ceil_eq_iff]
  have below := Int.ediv_mul_le (gas * num + den - 1) den_pos.ne'
  have above := Int.lt_ediv_add_one_mul_self (gas * num + den - 1) den_pos
  have positive : (0 : ℚ) < (den : ℚ) := Int.cast_pos.mpr den_pos
  constructor
  · rw [lt_div_iff₀ positive]
    have exact_ : ((gas * num + den - 1) / den - 1) * den < gas * num := by linarith
    exact_mod_cast exact_
  · rw [div_le_iff₀ positive]
    have exact_ : gas * num ≤ (gas * num + den - 1) / den * den := by linarith
    exact_mod_cast exact_

theorem Steady.regular (steady : input.Steady) (pads : input.PadsUp) (fee : 0 < input.maxFeePerGasWei) :
    input.Regular where
  divides := pads.2.ne'
  known := by
    intro quantity positive wanted
    obtain ⟨gas, given, some⟩ := steady.estimated quantity positive wanted
    rw [Option.ne_none_iff_exists']
    exact ⟨_, measured_eq_some.mpr ⟨gas, ⟨given, some⟩, rfl⟩⟩
  downward := by
    rintro smaller larger positive inOrder wanted ⟨_, known, fits⟩
    obtain ⟨more, ⟨givenMore, -⟩, rfl⟩ := measured_eq_some.mp known
    obtain ⟨less, givenLess, someLess⟩ := steady.estimated smaller positive (inOrder.trans wanted)
    have padded := paddedGas_mono pads.1 pads.2 someLess
      (steady.monotone smaller larger less more positive inOrder wanted givenLess givenMore)
    refine ⟨_, measured_eq_some.mpr ⟨less, ⟨givenLess, someLess⟩, rfl⟩, ?_, padded.trans fits.2⟩
    exact (Int.mul_le_mul_of_nonneg_right padded fee.le).trans fits.1

/-- What is planned fits, whatever the estimates are; with steady estimates and a padding that does
not turn the sign, the largest quantity that fits is planned. -/
theorem plans_safely_and_largest (input : QuantityPlanInput) :
    (input.Accepted → input.den ≠ 0 → ∃ plan, planFreeQuantity input = .ok plan) ∧
      ∀ plan, planFreeQuantity input = .ok plan →
        (0 < plan.planned → plan.reason ≠ .unknown →
          ∃ gas, input.gasForQuantity plan.planned = some gas ∧
            paddedGas input.num input.den gas ≤ input.gasCeiling ∧
            paddedGas input.num input.den gas * input.maxFeePerGasWei ≤ input.allowanceWei ∧
            plan.plannedWorstCaseWei =
              some (paddedGas input.num input.den gas * input.maxFeePerGasWei) ∧
            (input.PadsUp → paddedGas input.num input.den gas =
              ⌈((gas * input.num : Int) : ℚ) / (input.den : ℚ)⌉)) ∧
        (input.PadsUp → input.Steady → input.PlansLargest plan) := by
  refine ⟨plan_exists, fun plan planned => ⟨?_, ?_⟩⟩
  · intro positive known
    obtain ⟨gas, given, some, ceiling, covered, worst⟩ := planned_fits planned positive known
    exact ⟨gas, given, ceiling, covered, worst, fun pads =>
      paddedGas_eq_ceil pads.1 pads.2 some.le⟩
  · intro pads steady
    obtain ⟨⟨-, -, -, fee⟩, -⟩ := planFreeQuantity_eq_ok.mp planned
    exact planned_largest (steady.regular pads fee) planned

/-- Five NFTs at 100000 gas each and 1 gwei, of which the allowance covers three. -/
def sample : QuantityPlanInput where
  desired := 5
  allowanceWei := 400000000000000
  maxFeePerGasWei := 1000000000
  gasForQuantity := fun quantity => some (100000 * quantity)

theorem sample_plans_largest :
    ∃ plan, planFreeQuantity sample = .ok plan ∧ sample.PlansLargest plan := by
  obtain ⟨plan, planned⟩ := (plans_safely_and_largest sample).1 (by decide) (by decide)
  refine ⟨plan, planned, ((plans_safely_and_largest sample).2 plan planned).2 (by decide) ⟨?_, ?_⟩⟩
  · intro quantity positive wanted
    exact ⟨100000 * quantity, rfl, by omega⟩
  · intro smaller larger less more positive inOrder wanted givenLess givenMore
    obtain rfl := Option.some.inj givenLess
    obtain rfl := Option.some.inj givenMore
    omega

/-- An estimate of nothing for one NFT, and of more than any block carries for three. -/
def zeroEstimate : QuantityPlanInput where
  desired := 3
  allowanceWei := 400000000000000
  maxFeePerGasWei := 1000000000
  gasForQuantity := fun quantity => some (if quantity < 3 then 0 else 1000000000)

/-- A padding that turns the sign. -/
def negativePadding : QuantityPlanInput where
  desired := 1
  allowanceWei := 400000000000000
  maxFeePerGasWei := 1000000000
  gasForQuantity := fun _ => some 10
  paddingNumerator := some (-12)

/-- An estimate of zero counts as none, so the full quantity is kept although it does not fit; and
with a negative padding the gas limit is not the padded gas rounded up. -/
theorem zero_estimate_and_negative_padding :
    (¬ ∀ (input : QuantityPlanInput) (plan : QuantityPlan),
      planFreeQuantity input = .ok plan →
      (∀ quantity, input.gasForQuantity quantity ≠ none) →
      (∀ smaller larger less more, smaller ≤ larger →
        input.gasForQuantity smaller = some less → input.gasForQuantity larger = some more →
          less ≤ more) →
      IsGreatest {quantity | 0 ≤ quantity ∧ quantity ≤ input.desired ∧
        (quantity = 0 ∨ input.Affordable quantity)} plan.planned) ∧
    ¬ ∀ (input : QuantityPlanInput) (plan : QuantityPlan),
      planFreeQuantity input = .ok plan → 0 < plan.planned → plan.reason ≠ .unknown →
      ∃ gas, input.gasForQuantity plan.planned = some gas ∧
        plan.plannedWorstCaseWei =
          some (⌈((gas * input.num : Int) : ℚ) / (input.den : ℚ)⌉ * input.maxFeePerGasWei) := by
  constructor
  · intro claimed
    have searched : zeroEstimate.search 1 2 none = .ok none := by
      rw [search_inside (by decide)]
      rfl
    have planned : planFreeQuantity zeroEstimate = .ok zeroEstimate.unknownPlan :=
      planFreeQuantity_eq_ok.mpr
        ⟨by decide, _, rfl, (if_neg (by decide)).mpr ⟨none, searched, rfl⟩⟩
    have largest := claimed zeroEstimate _ planned (fun _ none => nomatch none) (by
      intro smaller larger less more inOrder givenLess givenMore
      obtain rfl := Option.some.inj givenLess
      obtain rfl := Option.some.inj givenMore
      split <;> split <;> omega)
    rcases largest.1.2.2 with none | ⟨measured, known, fits⟩
    · exact absurd none (by decide)
    · obtain rfl := Option.some.inj known
      exact absurd fits (by decide)
  · intro claimed
    have planned : planFreeQuantity negativePadding =
        .ok (negativePadding.fullPlan ⟨-11, -11000000000⟩) :=
      planFreeQuantity_eq_ok.mpr ⟨by decide, _, rfl, (if_pos (by decide)).mpr rfl⟩
    obtain ⟨gas, given, worst⟩ := claimed negativePadding _ planned (by decide) (by decide)
    obtain rfl := Option.some.inj given
    have up : ⌈((10 * negativePadding.num : Int) : ℚ) / (negativePadding.den : ℚ)⌉ = -12 := by
      rw [Int.ceil_eq_iff]
      norm_num [negativePadding, num, den]
    rw [up] at worst
    exact absurd worst (by decide)

end QuantityPlanInput

end MintBot
