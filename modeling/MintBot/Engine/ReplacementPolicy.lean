import Mathlib.Tactic.Common
import MintBot.Types

/-!
# Replacement policy

When a sent transaction may be replaced under the same nonce, and with which fees: both fees
rise by ten percent, rounded up, and never above the ceiling.
-/

namespace MintBot

structure Fees where
  maxFeePerGas : Int
  maxPriorityFeePerGas : Int
  deriving DecidableEq, Repr

inductive ReplacementRefusal
  | disabled
  | limitReached
  | mayHaveMined
  | minedStatusUnknown
  | ceilingReached
  | feesInvalid
  | configInvalid
  deriving DecidableEq, Repr

inductive MinedStatus
  | no
  | yes
  | unknown
  deriving DecidableEq, Repr

structure ReplacementDecision where
  next : Fees
  bumpsUsed : Int
  deriving DecidableEq, Repr

/-- `MAX_REPLACEMENT_BUMPS_LIMIT`. -/
def maxReplacementBumpsLimit : Int := 5

/-- `Number.isSafeInteger` of a whole number. -/
def isSafeInteger (value : Int) : Prop :=
  -maxSafeInteger ≤ value ∧ value ≤ maxSafeInteger

instance (value : Int) : Decidable (isSafeInteger value) :=
  inferInstanceAs (Decidable (_ ∧ _))

/-- `validFees`. -/
def ValidFees (fees : Fees) : Prop :=
  0 < fees.maxFeePerGas ∧ 0 ≤ fees.maxPriorityFeePerGas ∧
    fees.maxPriorityFeePerGas ≤ fees.maxFeePerGas

instance (fees : Fees) : Decidable (ValidFees fees) :=
  inferInstanceAs (Decidable (_ ∧ _))

/-- Ten percent more, rounded up, in basis points; the division is that of bigints. -/
def raise (value : Int) : Int :=
  (value * (10000 + 1000) + 10000 - 1).tdiv 10000

def nextStep (current : Fees) : Fees :=
  let raisedTip := raise current.maxPriorityFeePerGas
  let tip :=
    if raisedTip > current.maxPriorityFeePerGas then raisedTip
    else current.maxPriorityFeePerGas + 1
  let raisedFee := raise current.maxFeePerGas
  { maxFeePerGas := if raisedFee > tip then raisedFee else tip
    maxPriorityFeePerGas := tip }

def planReplacement (current ceiling : Fees) (bumpsUsed maxBumps : Int)
    (minedStatus : MinedStatus) : Except ReplacementRefusal ReplacementDecision :=
  if ¬ isSafeInteger maxBumps ∨ maxBumps < 0 ∨ maxBumps > maxReplacementBumpsLimit ∨
      ¬ isSafeInteger bumpsUsed ∨ bumpsUsed < 0 then .error .configInvalid
  else if maxBumps = 0 then .error .disabled
  else if bumpsUsed ≥ maxBumps then .error .limitReached
  else if minedStatus = .yes then .error .mayHaveMined
  else if minedStatus ≠ .no then .error .minedStatusUnknown
  else if ¬ ValidFees current ∨ ¬ ValidFees ceiling then .error .feesInvalid
  else
    let next := nextStep current
    if next.maxFeePerGas > ceiling.maxFeePerGas ∨
        next.maxPriorityFeePerGas > ceiling.maxPriorityFeePerGas then .error .ceilingReached
    else .ok { next, bumpsUsed := bumpsUsed + 1 }

/-! ## What a plan guarantees -/

/-- Both fees are at least 110 percent of the earlier ones; as they are whole numbers, they
are at least that rounded up. -/
def RaisedFrom (earlier later : Fees) : Prop :=
  11 * earlier.maxFeePerGas ≤ 10 * later.maxFeePerGas ∧
    11 * earlier.maxPriorityFeePerGas ≤ 10 * later.maxPriorityFeePerGas

def Within (fees ceiling : Fees) : Prop :=
  fees.maxFeePerGas ≤ ceiling.maxFeePerGas ∧
    fees.maxPriorityFeePerGas ≤ ceiling.maxPriorityFeePerGas

instance (fees ceiling : Fees) : Decidable (Within fees ceiling) :=
  inferInstanceAs (Decidable (_ ∧ _))

/-- `raise` is 110 percent rounded up. -/
theorem raise_eq_ceil {value : Int} (nonnegative : 0 ≤ value) :
    11 * value ≤ 10 * raise value ∧ 10 * raise value < 11 * value + 10 := by
  have positive : 0 ≤ value * (10000 + 1000) + 10000 - 1 := by omega
  rw [raise, Int.tdiv_eq_ediv_of_nonneg positive]
  omega

theorem nextStep_raised {current : Fees} (valid : ValidFees current) :
    RaisedFrom current (nextStep current) ∧ ValidFees (nextStep current) := by
  obtain ⟨positive, nonnegative, -⟩ := valid
  have tip := raise_eq_ceil nonnegative
  have fee := raise_eq_ceil (Int.le_of_lt positive)
  simp only [RaisedFrom, ValidFees, nextStep]
  split <;> split <;> omega

/-- A planned replacement counts one more, below the limit, and only with nothing mined. -/
theorem planReplacement_ok {current ceiling : Fees} {bumpsUsed maxBumps : Int}
    {minedStatus : MinedStatus} {planned : ReplacementDecision}
    (plan : planReplacement current ceiling bumpsUsed maxBumps minedStatus = .ok planned) :
    minedStatus = .no ∧ bumpsUsed < maxBumps ∧ planned.bumpsUsed = bumpsUsed + 1 ∧
      RaisedFrom current planned.next ∧ ValidFees planned.next ∧
      Within planned.next ceiling := by
  unfold planReplacement at plan
  split at plan
  · exact nomatch plan
  split at plan
  · exact nomatch plan
  split at plan
  · exact nomatch plan
  rename_i below
  split at plan
  · exact nomatch plan
  split at plan
  · exact nomatch plan
  rename_i proven
  split at plan
  · exact nomatch plan
  rename_i valid
  simp only at plan
  split at plan
  · exact nomatch plan
  rename_i within
  obtain rfl := Except.ok.inj plan
  rw [not_or, not_not, not_not] at valid
  rw [not_or, Int.not_lt, Int.not_lt] at within
  obtain ⟨raised, stays⟩ := nextStep_raised valid.1
  exact ⟨not_not.1 proven, Int.not_le.1 below, rfl, raised, stays, within⟩

end MintBot
