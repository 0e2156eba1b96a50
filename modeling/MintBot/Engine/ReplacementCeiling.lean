import MintBot.Engine.PreSign

/-!
# Replacement ceiling

The ceiling reserved ahead of a run is the fee pair that the configured number of steps ends at.
It is compared here with the replacements themselves, planned one after the other: the budget
allows exactly as many of them, and no smaller one does.
-/

namespace MintBot

open Fallible

/-- Successive calls of `planReplacement`, one for each mined status found, each from the fees
and the count that the one before returned. -/
def planReplacements (ceiling : Fees) (maxBumps : Int) :
    List MinedStatus → ReplacementDecision → Except ReplacementRefusal ReplacementDecision
  | [], planned => .ok planned
  | minedStatus :: later, planned => do
      let planned ← planReplacement planned.next ceiling planned.bumpsUsed maxBumps minedStatus
      planReplacements ceiling maxBumps later planned

theorem planReplacements_append (ceiling : Fees) (maxBumps : Int)
    (earlier later : List MinedStatus) (planned : ReplacementDecision) :
    planReplacements ceiling maxBumps (earlier ++ later) planned =
      planReplacements ceiling maxBumps earlier planned >>=
        planReplacements ceiling maxBumps later := by
  induction earlier generalizing planned with
  | nil => rfl
  | cons minedStatus earlier inductionHypothesis =>
      simp only [List.cons_append, planReplacements]
      cases planReplacement planned.next ceiling planned.bumpsUsed maxBumps minedStatus with
      | error refusal => rfl
      | ok planned => exact inductionHypothesis planned

/-! ## The steps rise -/

theorem Within.trans {lower middle upper : Fees} (first : Within lower middle)
    (second : Within middle upper) : Within lower upper :=
  ⟨Int.le_trans first.1 second.1, Int.le_trans first.2 second.2⟩

/-- A step raises both fees, also from a zero tip. -/
theorem nextStep_rises {fees : Fees} (valid : ValidFees fees) :
    fees.maxFeePerGas < (nextStep fees).maxFeePerGas ∧
      fees.maxPriorityFeePerGas < (nextStep fees).maxPriorityFeePerGas := by
  obtain ⟨positive, nonnegative, -⟩ := valid
  have fee := raise_eq_ceil (Int.le_of_lt positive)
  simp only [nextStep]
  split <;> split <;> omega

theorem within_nextStep {fees : Fees} (valid : ValidFees fees) : Within fees (nextStep fees) :=
  ⟨Int.le_of_lt (nextStep_rises valid).1, Int.le_of_lt (nextStep_rises valid).2⟩

theorem validFees_iterate (steps : Nat) {fees : Fees} (valid : ValidFees fees) :
    ValidFees (nextStep^[steps] fees) := by
  induction steps generalizing fees with
  | zero => exact valid
  | succ steps inductionHypothesis => exact inductionHypothesis (nextStep_raised valid).2

theorem within_iterate (steps : Nat) {fees : Fees} (valid : ValidFees fees) :
    Within fees (nextStep^[steps] fees) := by
  induction steps generalizing fees with
  | zero => exact ⟨Int.le_refl _, Int.le_refl _⟩
  | succ steps inductionHypothesis =>
      exact (within_nextStep valid).trans (inductionHypothesis (nextStep_raised valid).2)

/-! ## The budget and the plans -/

/-- What a plan with nothing mined comes to, under a valid configuration and valid fees. -/
theorem planReplacement_of_valid {current ceiling : Fees} {bumpsUsed maxBumps : Int}
    (valid : ValidFees current) (ceilingValid : ValidFees ceiling) (started : 0 ≤ bumpsUsed)
    (below : bumpsUsed < maxBumps) (limited : maxBumps ≤ maxReplacementBumpsLimit) :
    planReplacement current ceiling bumpsUsed maxBumps .no =
      if Within (nextStep current) ceiling then
        .ok { next := nextStep current, bumpsUsed := bumpsUsed + 1 }
      else .error .ceilingReached := by
  have limit : maxReplacementBumpsLimit = 5 := rfl
  have safe : (5 : Int) ≤ maxSafeInteger := by decide
  have configured : ¬ (¬ isSafeInteger maxBumps ∨ maxBumps < 0 ∨
      maxBumps > maxReplacementBumpsLimit ∨ ¬ isSafeInteger bumpsUsed ∨ bumpsUsed < 0) := by
    simp only [isSafeInteger]
    omega
  have enabled : maxBumps ≠ 0 := by omega
  have unspent : ¬ bumpsUsed ≥ maxBumps := by omega
  unfold planReplacement
  rw [if_neg configured, if_neg enabled, if_neg unspent, if_neg (by decide),
    if_neg (by decide), if_neg (by simp [valid, ceilingValid])]
  by_cases within : Within (nextStep current) ceiling
  · rw [if_pos within]
    exact if_neg (by simp only [Within] at within; omega)
  · rw [if_neg within]
    exact if_pos (by simp only [Within] at within; omega)

theorem planReplacement_follows {current ceiling : Fees} {bumpsUsed maxBumps : Int}
    {minedStatus : MinedStatus} {planned : ReplacementDecision}
    (plan : planReplacement current ceiling bumpsUsed maxBumps minedStatus = .ok planned) :
    planned.next = nextStep current ∧ 0 ≤ bumpsUsed ∧ maxBumps ≤ maxReplacementBumpsLimit := by
  simp only [planReplacement] at plan
  split_ifs at plan
  obtain rfl := Except.ok.inj plan
  exact ⟨rfl, by omega, by omega⟩

/-- A ceiling that the fees after `steps` steps lie within allows `steps` plans, which end at
those fees. -/
theorem planReplacements_within {ceiling : Fees} {maxBumps : Int}
    (ceilingValid : ValidFees ceiling) (limited : maxBumps ≤ maxReplacementBumpsLimit)
    (steps : Nat) {planned : ReplacementDecision} (valid : ValidFees planned.next)
    (started : 0 ≤ planned.bumpsUsed) (enough : planned.bumpsUsed + steps ≤ maxBumps)
    (within : Within (nextStep^[steps] planned.next) ceiling) :
    planReplacements ceiling maxBumps (List.replicate steps .no) planned =
      .ok { next := nextStep^[steps] planned.next, bumpsUsed := planned.bumpsUsed + steps } := by
  induction steps generalizing planned with
  | zero => simp [planReplacements]
  | succ steps inductionHypothesis =>
      have nextValid := (nextStep_raised valid).2
      have nextWithin : Within (nextStep planned.next) ceiling :=
        (within_iterate steps nextValid).trans within
      rw [List.replicate_succ, planReplacements,
        planReplacement_of_valid valid ceilingValid started (by omega) limited,
        if_pos nextWithin]
      have rest := @inductionHypothesis
        { next := nextStep planned.next, bumpsUsed := planned.bumpsUsed + 1 }
        nextValid (by dsimp only; omega) (by dsimp only; omega) within
      refine rest.trans ?_
      simp only [Function.iterate_succ_apply, Int.natCast_succ, Int.add_assoc, Int.add_comm 1]

/-- Plans that succeed ended at the fees after as many steps, and the ceiling and the
configured number allowed these. -/
theorem planReplacements_ok {ceiling : Fees} {maxBumps : Int} (statuses : List MinedStatus)
    {planned last : ReplacementDecision}
    (plans : planReplacements ceiling maxBumps statuses planned = .ok last) :
    last.next = nextStep^[statuses.length] planned.next ∧
      last.bumpsUsed = planned.bumpsUsed + statuses.length ∧
      (statuses ≠ [] → Within last.next ceiling ∧ 0 ≤ planned.bumpsUsed ∧
        last.bumpsUsed ≤ maxBumps ∧ maxBumps ≤ maxReplacementBumpsLimit) := by
  induction statuses generalizing planned with
  | nil =>
      obtain rfl := Except.ok.inj plans
      exact ⟨rfl, (Int.add_zero _).symm, fun nonempty => absurd rfl nonempty⟩
  | cons minedStatus statuses inductionHypothesis =>
      obtain ⟨second, plan, rest⟩ := bind_eq_ok.mp plans
      obtain ⟨-, below, counted, -, -, within⟩ := planReplacement_ok plan
      obtain ⟨stepped, started, limited⟩ := planReplacement_follows plan
      obtain ⟨ends, total, allowed⟩ := inductionHypothesis rest
      refine ⟨by rw [ends, stepped]; rfl, ?_, fun _ => ?_⟩
      · rw [total, counted, List.length_cons]
        omega
      cases statuses with
      | nil =>
          obtain rfl := Except.ok.inj rest
          exact ⟨within, started, by omega, limited⟩
      | cons minedStatus statuses =>
          obtain ⟨lastWithin, -, bounded, -⟩ := allowed (List.cons_ne_nil _ _)
          exact ⟨lastWithin, started, bounded, limited⟩

theorem requiredCeiling_eq {initial : Fees} {bumps : Nat} (valid : ValidFees initial)
    (limited : (bumps : Int) ≤ maxReplacementBumpsLimit) :
    requiredCeiling initial bumps = .ok (nextStep^[bumps] initial) := by
  have limit : maxReplacementBumpsLimit = 5 := rfl
  have safe : (5 : Int) ≤ maxSafeInteger := by decide
  unfold requiredCeiling
  rw [if_neg (by simp only [isSafeInteger]; omega), if_neg (not_not.mpr valid), Int.toNat_natCast]

/-- The plan after the last one that the budget pays for. -/
theorem planReplacement_beyond {fees : Fees} {bumpsUsed maxBumps : Int} (valid : ValidFees fees)
    (started : 0 ≤ bumpsUsed) (enough : bumpsUsed ≤ maxBumps)
    (limited : maxBumps ≤ maxReplacementBumpsLimit) :
    planReplacement fees fees bumpsUsed maxBumps .no = .error (
      if maxBumps = 0 then .disabled
      else if bumpsUsed = maxBumps then .limitReached
      else .ceilingReached) := by
  rcases Int.lt_or_eq_of_le enough with below | spent
  · have rises := nextStep_rises valid
    rw [planReplacement_of_valid valid valid started below limited,
      if_neg (fun within => Int.not_le.mpr rises.1 within.1), if_neg (by omega),
      if_neg (by omega)]
  · have limit : maxReplacementBumpsLimit = 5 := rfl
    have safe : (5 : Int) ≤ maxSafeInteger := by decide
    unfold planReplacement
    rw [if_neg (by simp only [isSafeInteger]; omega)]
    by_cases disabled : maxBumps = 0
    · rw [if_pos disabled, if_pos disabled]
    · rw [if_neg disabled, if_neg disabled, if_pos (by omega), if_pos spent]

/-- With the budget of `bumps` steps as its ceiling, a run that has used `bumpsUsed` of its
replacements plans exactly `bumps` more. What the next one is refused for depends on the
configured number: the ceiling stops it only while that number is not used up. A ceiling that
allows `bumps` plans, at least one, is not below the budget in either fee. -/
theorem requiredCeiling_exact {initial : Fees} {bumps : Nat} {bumpsUsed maxBumps : Int}
    (valid : ValidFees initial) (started : 0 ≤ bumpsUsed)
    (enough : bumpsUsed + bumps ≤ maxBumps) (limited : maxBumps ≤ maxReplacementBumpsLimit) :
    ∃ ceiling, requiredCeiling initial bumps = .ok ceiling ∧
      planReplacements ceiling maxBumps (List.replicate bumps .no)
          { next := initial, bumpsUsed } =
        .ok { next := ceiling, bumpsUsed := bumpsUsed + bumps } ∧
      planReplacements ceiling maxBumps (List.replicate (bumps + 1) .no)
          { next := initial, bumpsUsed } = .error (
        if maxBumps = 0 then .disabled
        else if bumpsUsed + bumps = maxBumps then .limitReached
        else .ceilingReached) ∧
      ∀ (other : Fees) (otherBumps otherUsed : Int) (statuses : List MinedStatus)
        (last : ReplacementDecision), statuses ≠ [] → statuses.length = bumps →
        planReplacements other otherBumps statuses { next := initial, bumpsUsed := otherUsed } =
          .ok last → Within ceiling other := by
  have finalValid := validFees_iterate bumps valid
  have plans := @planReplacements_within (nextStep^[bumps] initial) maxBumps finalValid limited
    bumps { next := initial, bumpsUsed } valid started enough ⟨Int.le_refl _, Int.le_refl _⟩
  refine ⟨nextStep^[bumps] initial, requiredCeiling_eq valid (by omega), plans, ?_, ?_⟩
  · rw [List.replicate_succ', planReplacements_append, plans]
    have beyond := planReplacement_beyond finalValid
      (show 0 ≤ bumpsUsed + bumps by omega) enough limited
    show planReplacement _ _ _ _ _ >>= planReplacements _ _ [] = _
    rw [beyond]
    rfl
  · intro other otherBumps otherUsed statuses last nonempty counted succeeded
    obtain ⟨ends, -, allowed⟩ := planReplacements_ok statuses succeeded
    rw [counted] at ends
    rw [← ends]
    exact (allowed nonempty).1

/-- Two steps from a zero tip, under a configuration of three. -/
theorem requiredCeiling_exact_two :
    ∃ ceiling, requiredCeiling ⟨10, 0⟩ 2 = .ok ceiling ∧
      planReplacements ceiling 3 (List.replicate 2 .no) ⟨⟨10, 0⟩, 0⟩ = .ok ⟨ceiling, 0 + 2⟩ ∧
      planReplacements ceiling 3 (List.replicate (2 + 1) .no) ⟨⟨10, 0⟩, 0⟩ =
        .error .ceilingReached := by
  obtain ⟨ceiling, budget, plans, refused, -⟩ :=
    @requiredCeiling_exact ⟨10, 0⟩ 2 0 3 (by decide) (by decide) (by decide) (by decide)
  exact ⟨ceiling, budget, plans, refused⟩

/-- At the policy limit no configuration lets the ceiling be what refuses the sixth plan. -/
theorem requiredCeiling_five_spent :
    ¬ ∀ (initial : Fees) (bumps : Nat), ValidFees initial →
      (bumps : Int) ≤ maxReplacementBumpsLimit →
      ∃ (ceiling : Fees) (bumpsUsed maxBumps : Int), requiredCeiling initial bumps = .ok ceiling ∧
        (∃ last, planReplacements ceiling maxBumps (List.replicate bumps .no)
          { next := initial, bumpsUsed } = .ok last) ∧
        planReplacements ceiling maxBumps (List.replicate (bumps + 1) .no)
          { next := initial, bumpsUsed } = .error .ceilingReached := by
  intro claimed
  obtain ⟨ceiling, bumpsUsed, maxBumps, -, ⟨last, plans⟩, refused⟩ :=
    claimed ⟨10, 0⟩ 5 (by decide) (by decide)
  have limit : maxReplacementBumpsLimit = 5 := rfl
  obtain ⟨-, counted, allowed⟩ := planReplacements_ok (List.replicate 5 .no) plans
  obtain ⟨-, started, bounded, limited⟩ := allowed (List.cons_ne_nil _ _)
  rw [List.length_replicate] at counted
  dsimp only at counted started
  have configured : maxBumps = 5 := by omega
  have spent : last.bumpsUsed = 5 := by omega
  rw [List.replicate_succ', planReplacements_append, plans] at refused
  change planReplacement last.next ceiling last.bumpsUsed maxBumps .no >>=
    planReplacements ceiling maxBumps [] = _ at refused
  rw [configured, spent] at refused
  exact nomatch refused

end MintBot
