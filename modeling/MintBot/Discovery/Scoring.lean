import Mathlib.Algebra.GroupWithZero.Nat
import MintBot.Types

/-!
# Scoring an opportunity

A score is the points of the factors that could be measured over the points they could have
had.  Few measured factors, or a blocking risk, put an opportunity into a lower band than
its score does.  The texts that explain factors and risks are left out, and so is the track
record, which discovery never supplies.
-/

namespace MintBot

structure ScoringInput where
  watchedMinters : Nat
  watchingConfigured : Bool
  priceWei : Option Wei
  budgetPerNftWei : Wei
  knownSeaDropPattern : Bool
  hasCode : Option Bool
  mintsLastHour : Nat
  discoveredAt : Time
  now : Time

structure ScoredFactor where
  code : String
  available : Bool
  points : Nat
  max : Nat
  deriving DecidableEq, Repr

inductive Severity
  | info
  | warning
  | blocking
  deriving DecidableEq, Repr

structure ScoreRisk where
  code : String
  severity : Severity
  deriving DecidableEq, Repr

inductive ScoreBand
  | proposal
  | notify
  | log
  deriving DecidableEq, Repr

inductive ConfidenceLabel
  | low
  | medium
  | high
  deriving DecidableEq, Repr

/-- `confidence` is in percent. -/
structure ScoreResult where
  score : Nat
  confidence : Nat
  confidenceLabel : ConfidenceLabel
  band : ScoreBand
  factors : List ScoredFactor
  risks : List ScoreRisk
  blocked : Bool
  deriving DecidableEq, Repr

def freshFullMs : Time := 15 * 60000
def freshZeroMs : Time := 6 * 60 * 60000

/-- In percent: below it a score drops one band. -/
def lowConfidence : Nat := 60

/-- `Math.round` of a fraction of natural numbers. -/
def roundFraction (numerator denominator : Nat) : Nat :=
  (2 * numerator + denominator) / (2 * denominator)

def availableFactor (code : String) (points max : Nat) : ScoredFactor :=
  { code := code, available := true, points := min points max, max := max }

def unavailableFactor (code : String) (max : Nat) : ScoredFactor :=
  { code := code, available := false, points := 0, max := max }

def convergenceFactor (input : ScoringInput) : ScoredFactor :=
  if input.watchingConfigured then
    availableFactor "convergence"
      (if 3 ≤ input.watchedMinters then 20
        else if input.watchedMinters = 2 then 14
        else if input.watchedMinters = 1 then 8
        else 0) 20
  else unavailableFactor "convergence" 20

def priceFactor (input : ScoringInput) : ScoredFactor :=
  match input.priceWei with
  | none => unavailableFactor "price" 12
  | some priceWei =>
      availableFactor "price"
        (if priceWei = 0 then 12
          else if priceWei ≤ input.budgetPerNftWei.tdiv 2 then 10
          else if priceWei ≤ input.budgetPerNftWei then 6
          else 0) 12

def codeFactor (input : ScoringInput) : ScoredFactor :=
  match input.hasCode with
  | none => unavailableFactor "contract_code" 3
  | some hasCode => availableFactor "contract_code" (if hasCode then 3 else 0) 3

def demandFactor (input : ScoringInput) : ScoredFactor :=
  availableFactor "demand"
    (if 50 ≤ input.mintsLastHour then 10
      else if 10 ≤ input.mintsLastHour then 6
      else if 1 ≤ input.mintsLastHour then 3
      else 0) 10

def freshnessFactor (input : ScoringInput) : ScoredFactor :=
  let ageMs := max 0 (input.now - input.discoveredAt)
  availableFactor "freshness"
    (if ageMs ≤ freshFullMs then 10
      else if freshZeroMs ≤ ageMs then 0
      else roundFraction (10 * (freshZeroMs - ageMs).toNat) (freshZeroMs - freshFullMs).toNat) 10

def scoringFactors (input : ScoringInput) : List ScoredFactor :=
  [unavailableFactor "track_record" 25, convergenceFactor input, priceFactor input,
   unavailableFactor "floor_margin" 8,
   availableFactor "known_pattern" (if input.knownSeaDropPattern then 6 else 0) 6,
   codeFactor input, unavailableFactor "verified_source" 3, unavailableFactor "contract_age" 3,
   demandFactor input, freshnessFactor input]

def scoringRisks (input : ScoringInput) : List ScoreRisk :=
  (match input.priceWei with
    | some priceWei =>
        if priceWei ≠ 0 ∧ input.budgetPerNftWei.tdiv 2 < priceWei ∧ input.budgetPerNftWei < priceWei then
          [{ code := "PRICE_ABOVE_LIMIT", severity := .blocking }]
        else []
    | none => []) ++
  if input.hasCode = some false then [{ code := "NO_CONTRACT_CODE", severity := .blocking }] else []

/-- The band of a score before its confidence and its risks are looked at. -/
def bandOfScore (score : Nat) : ScoreBand :=
  if 70 ≤ score then .proposal else if 40 ≤ score then .notify else .log

def scoreOpportunity (input : ScoringInput) : ScoreResult :=
  let factors := scoringFactors input
  let risks := scoringRisks input
  let measured := factors.filter ScoredFactor.available
  let availableMax := (measured.map ScoredFactor.max).sum
  let earned := (measured.map ScoredFactor.points).sum
  let score := if availableMax = 0 then 0 else roundFraction (100 * earned) availableMax
  let blocked := risks.any fun risk => risk.severity = .blocking
  let confident :=
    if availableMax < lowConfidence then
      if bandOfScore score = .proposal then .notify else .log
    else bandOfScore score
  { score := score
    confidence := availableMax
    confidenceLabel :=
      if 80 ≤ availableMax then .high else if lowConfidence ≤ availableMax then .medium else .low
    band := if blocked then .log else confident
    factors := factors
    risks := risks
    blocked := blocked }

/-- A blocked opportunity is never announced. -/
theorem band_of_blocked {input : ScoringInput} (blocked : (scoreOpportunity input).blocked = true) :
    (scoreOpportunity input).band = .log :=
  if_pos blocked

end MintBot
