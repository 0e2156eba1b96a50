import Mathlib.Data.List.Induction
import Mathlib.Data.Option.Basic
import MintBot.Types

/-!
# The history of a receipt

`appendReceiptObservation` keeps every observation of a receipt, and adds a reorg
when `detectReorg` sees one between the last observation and the new one.  An
observation that could not be made, or could not tell whether its block is
canonical, stands in the history like any other.  The history is complete where
no such observation separates a canonical sighting from the next non-canonical
one.
-/

namespace MintBot

/-- The stages of the engine, with the one that Ethereum receipts reach. -/
inductive ChainFinalityStage
  | unknown
  | soft
  | posted
  | confirmed
  | ethereumFinal
  deriving DecidableEq, Repr

inductive ChainFactKind
  | head
  | logs
  | drop
  | wallet
  | receipt
  | finality
  | reorg
  deriving DecidableEq, Repr

inductive ChainFactAvailability
  | available
  | partialFact
  | unavailable
  deriving DecidableEq, Repr

inductive FreshnessStatus
  | fresh
  | stale
  | unknown
  deriving DecidableEq, Repr

structure FactFreshness where
  status : FreshnessStatus
  observedAt : Option Time
  expiresAt : Option Time
  ageSeconds : Option String
  policyVersion : Option String
  deriving DecidableEq, Repr

inductive ProvenanceKind
  | chainObservation
  | strategy
  | receipt
  | finality
  | reconciliation
  | fixture
  deriving DecidableEq, Repr

/-- Ids of provenance records: `reorg:` hash `:` instant, or another text. -/
inductive ProvenanceRecordId
  | reorg (transactionHash : String) (observedAt : Time)
  | other (text : String)
  deriving DecidableEq, Repr

structure ChainFactProvenance where
  kind : ProvenanceKind
  recordId : ProvenanceRecordId
  observedAt : Time
  sourceBlockNumber : Option Int
  sourceBlockHash : Option String
  sourceRef : Option String
  deriving DecidableEq, Repr

structure ChainFact (α : Type) where
  kind : ChainFactKind
  value : Option α
  availability : ChainFactAvailability
  freshness : FactFreshness
  provenance : List ChainFactProvenance
  sourceBlockNumber : Option Int
  sourceBlockHash : Option String
  deriving DecidableEq, Repr

structure ChainReceiptFact where
  transactionHash : String
  blockHash : String
  /-- Whether the block is on the chain, where that could be told. -/
  canonical : Option Bool
  finalityStage : ChainFinalityStage
  deriving DecidableEq, Repr

structure ReorgFact where
  transactionHash : String
  previousBlockHash : String
  replacementBlockHash : Option String
  previousStage : ChainFinalityStage
  newStage : ChainFinalityStage
  detectedAt : Time
  reason : String
  deriving DecidableEq, Repr

/-- `unknownFreshness`. -/
def unknownFreshness (policyVersion : Option String) : FactFreshness where
  status := .unknown
  observedAt := none
  expiresAt := none
  ageSeconds := none
  policyVersion := policyVersion

/-- The reorg that `detectReorg` reports between two receipts. -/
def reorgBetween (prior next : ChainReceiptFact) (source : Option ChainFactProvenance)
    (observedAt : Time) : ChainFact ReorgFact where
  kind := .reorg
  value := some {
    transactionHash := next.transactionHash
    previousBlockHash := prior.blockHash
    replacementBlockHash :=
      if toLowerCase next.blockHash = toLowerCase prior.blockHash then none
      else some next.blockHash
    previousStage := prior.finalityStage
    newStage := .unknown
    detectedAt := observedAt
    reason := "receipt-block-noncanonical" }
  availability := .available
  freshness := unknownFreshness none
  provenance := [{
    kind := .reconciliation
    recordId := .reorg (toLowerCase next.transactionHash) observedAt
    observedAt := observedAt
    sourceBlockNumber := source.bind ChainFactProvenance.sourceBlockNumber
    sourceBlockHash := source.bind ChainFactProvenance.sourceBlockHash
    sourceRef := source.bind ChainFactProvenance.sourceRef }]
  sourceBlockNumber := source.bind ChainFactProvenance.sourceBlockNumber
  sourceBlockHash := source.bind ChainFactProvenance.sourceBlockHash

/-- `detectReorg`.  `detectedAt` is missing where it is no date. -/
def detectReorg (previous current : Option (ChainFact ChainReceiptFact))
    (detectedAt : Option Time) : Option (ChainFact ReorgFact) := do
  let prior ← previous.bind ChainFact.value
  let next ← current.bind ChainFact.value
  guard (prior.canonical = some true ∧ next.canonical = some false ∧
    toLowerCase prior.transactionHash = toLowerCase next.transactionHash)
  let observedAt ← detectedAt
  return reorgBetween prior next (current.bind fun fact => fact.provenance.head?) observedAt

structure ReceiptObservationHistory where
  observations : List (ChainFact ChainReceiptFact) := []
  reorgs : List (ChainFact ReorgFact) := []
  deriving DecidableEq, Repr

/-- `appendReceiptObservation`. -/
def appendReceiptObservation (history : ReceiptObservationHistory)
    (next : ChainFact ChainReceiptFact) (detectedAt : Option Time) : ReceiptObservationHistory where
  observations := history.observations ++ [next]
  reorgs :=
    match detectReorg history.observations.getLast? (some next) detectedAt with
    | some reorg => history.reorgs ++ [reorg]
    | none => history.reorgs

/-! ## Whole histories -/

/-- An observation and the date it is appended with. -/
structure ReceiptSighting where
  fact : ChainFact ChainReceiptFact
  detectedAt : Option Time
  deriving DecidableEq, Repr

/-- The history of the sightings, from the empty one. -/
def receiptHistory (sightings : List ReceiptSighting) : ReceiptObservationHistory :=
  sightings.foldl
    (fun history sighting => appendReceiptObservation history sighting.fact sighting.detectedAt) {}

/-- The receipt of a sighting that could tell whether its block is canonical. -/
def ReceiptSighting.determined (sighting : ReceiptSighting) : Option ChainReceiptFact :=
  sighting.fact.value.filter fun receipt => receipt.canonical.isSome

/-- The last canonical receipt, where no non-canonical one came after it. -/
def lastCanonical (sightings : List ReceiptSighting) : Option ChainReceiptFact :=
  (sightings.filterMap ReceiptSighting.determined).getLast?.filter fun receipt =>
    receipt.canonical = some true

/-- The sighting shows that the block is not canonical. -/
def ReceiptSighting.NonCanonical (sighting : ReceiptSighting) : Prop :=
  ∃ receipt ∈ sighting.fact.value, receipt.canonical = some false

instance (sighting : ReceiptSighting) : Decidable sighting.NonCanonical := by
  unfold ReceiptSighting.NonCanonical
  infer_instance

/-- The block hash that the reorg of a sighting names, where there is one. -/
def reorgedFrom (before : List ReceiptSighting) (sighting : ReceiptSighting) : Option String :=
  if sighting.NonCanonical then (lastCanonical before).map ChainReceiptFact.blockHash else none

/-- All observations are kept, and the reorgs are those of the non-canonical sightings that come
after a canonical one. -/
structure MissesNothing (sightings : List ReceiptSighting) : Prop where
  observations : (receiptHistory sightings).observations = sightings.map ReceiptSighting.fact
  reorgs : ∀ before sighting after, sightings = before ++ sighting :: after →
    ∃ added, (receiptHistory (before ++ [sighting])).reorgs =
        (receiptHistory before).reorgs ++ added ∧
      added.map (fun reorg => reorg.value.map ReorgFact.previousBlockHash) =
        (reorgedFrom before sighting).toList.map some

/-! ## What one append adds -/

/-- The sighting shows that the block is canonical. -/
def ReceiptSighting.IsCanonical (sighting : ReceiptSighting) : Prop :=
  ∃ receipt ∈ sighting.fact.value, receipt.canonical = some true

instance (sighting : ReceiptSighting) : Decidable sighting.IsCanonical := by
  unfold ReceiptSighting.IsCanonical
  infer_instance

theorem receiptHistory_concat (before : List ReceiptSighting) (sighting : ReceiptSighting) :
    receiptHistory (before ++ [sighting]) =
      appendReceiptObservation (receiptHistory before) sighting.fact sighting.detectedAt := by
  simp [receiptHistory]

/-- The observations are the whole sequence in order. -/
theorem receiptHistory_observations (sightings : List ReceiptSighting) :
    (receiptHistory sightings).observations = sightings.map ReceiptSighting.fact := by
  induction sightings using List.reverseRec with
  | nil => rfl
  | append_singleton before sighting inductionHypothesis =>
      rw [receiptHistory_concat, appendReceiptObservation, inductionHypothesis, List.map_append,
        List.map_singleton]

theorem receiptHistory_reorgs (before : List ReceiptSighting) (sighting : ReceiptSighting) :
    (receiptHistory (before ++ [sighting])).reorgs = (receiptHistory before).reorgs ++
      (detectReorg (before.getLast?.map ReceiptSighting.fact) (some sighting.fact)
        sighting.detectedAt).toList := by
  rw [receiptHistory_concat, appendReceiptObservation, receiptHistory_observations,
    List.getLast?_map]
  cases detectReorg (before.getLast?.map ReceiptSighting.fact) (some sighting.fact) sighting.detectedAt with
  | none => exact (List.append_nil _).symm
  | some reorg => rfl

/-- A canonical sighting that is the last one is the last canonical one. -/
theorem lastCanonical_of_last {before : List ReceiptSighting} {last : ReceiptSighting}
    {receipt : ChainReceiptFact} (isLast : before.getLast? = some last)
    (value : last.fact.value = some receipt) (canonical : receipt.canonical = some true) :
    lastCanonical before = some receipt := by
  obtain ⟨older, rfl⟩ := List.getLast?_eq_some_iff.mp isLast
  have determined : last.determined = some receipt := by
    simp [ReceiptSighting.determined, value, canonical]
  simp [lastCanonical, List.filterMap_append, determined, canonical]

section OneHash

variable {before : List ReceiptSighting} {sighting : ReceiptSighting} {hash : String}

/-- With one transaction hash, a reorg is detected exactly from a canonical neighbour, at a date. -/
theorem detectReorg_hash
    (ofLast : ∀ last ∈ before.getLast?, ∀ receipt ∈ last.fact.value,
      toLowerCase receipt.transactionHash = hash)
    (own : ∀ receipt ∈ sighting.fact.value, toLowerCase receipt.transactionHash = hash) :
    (detectReorg (before.getLast?.map ReceiptSighting.fact) (some sighting.fact)
        sighting.detectedAt).map (fun reorg => reorg.value.map ReorgFact.previousBlockHash) =
      if sighting.detectedAt ≠ none ∧ ∃ last ∈ before.getLast?, last.IsCanonical then
        (reorgedFrom before sighting).map some
      else none := by
  unfold detectReorg reorgedFrom
  cases isLast : before.getLast? with
  | none => simp
  | some last =>
      cases prior : last.fact.value with
      | none => simp [ReceiptSighting.IsCanonical, prior]
      | some receipt =>
          by_cases canonical : receipt.canonical = some true
          · have known := lastCanonical_of_last isLast prior canonical
            have sameHash := ofLast last isLast receipt prior
            cases current : sighting.fact.value with
            | none => simp [prior, current, ReceiptSighting.NonCanonical]
            | some next =>
                have nextHash := own next current
                cases detected : sighting.detectedAt with
                | none => simp [prior, current]
                | some date =>
                    by_cases gone : next.canonical = some false <;>
                      simp [prior, current, ReceiptSighting.NonCanonical, ReceiptSighting.IsCanonical, gone,
                        canonical, known, sameHash, nextHash, reorgBetween]
          · simp [ReceiptSighting.IsCanonical, prior, canonical]

theorem toList_inj {α : Type} {left right : Option α} :
    left.toList = right.toList ↔ left = right := by
  cases left <;> cases right <;> simp

variable (before sighting) in
/-- What an append adds is what it should, exactly when a sighting that has a reorg comes directly
after a canonical one, at a date. -/
theorem added_iff
    (ofLast : ∀ last ∈ before.getLast?, ∀ receipt ∈ last.fact.value,
      toLowerCase receipt.transactionHash = hash)
    (own : ∀ receipt ∈ sighting.fact.value, toLowerCase receipt.transactionHash = hash) :
    (∃ added, (receiptHistory (before ++ [sighting])).reorgs =
          (receiptHistory before).reorgs ++ added ∧
        added.map (fun reorg => reorg.value.map ReorgFact.previousBlockHash) =
          (reorgedFrom before sighting).toList.map some) ↔
      (sighting.NonCanonical → lastCanonical before ≠ none →
        sighting.detectedAt ≠ none ∧ ∃ last ∈ before.getLast?, last.IsCanonical) := by
  have detected := detectReorg_hash ofLast own
  rw [receiptHistory_reorgs]
  simp only [List.append_cancel_left_eq, exists_eq_left', ← Option.toList_map, toList_inj,
    detected]
  by_cases neighbour : sighting.detectedAt ≠ none ∧ ∃ last ∈ before.getLast?, last.IsCanonical
  · rw [if_pos neighbour]
    exact ⟨fun _ _ _ => neighbour, fun _ => rfl⟩
  · rw [if_neg neighbour]
    unfold reorgedFrom
    by_cases gone : sighting.NonCanonical
    · rw [if_pos gone]
      cases lastCanonical before with
      | none => simp
      | some receipt =>
          refine iff_of_false (by simp) fun adjacent => neighbour (adjacent gone (by simp))
    · rw [if_neg gone]
      exact ⟨fun _ shown => absurd shown gone, fun _ => rfl⟩

end OneHash

/-- The history of one transaction hash is complete, exactly when every non-canonical sighting that
comes after a canonical one comes directly after it, at a date. -/
theorem missesNothing_iff {sightings : List ReceiptSighting} {hash : String}
    (oneHash : ∀ sighting ∈ sightings, ∀ receipt ∈ sighting.fact.value,
      toLowerCase receipt.transactionHash = hash) :
    MissesNothing sightings ↔
      ∀ before sighting after, sightings = before ++ sighting :: after →
        sighting.NonCanonical → lastCanonical before ≠ none →
          sighting.detectedAt ≠ none ∧ ∃ last ∈ before.getLast?, last.IsCanonical := by
  have added : ∀ before sighting after, sightings = before ++ sighting :: after → _ :=
    fun before sighting after same => added_iff before sighting
      (fun last isLast => oneHash last (by
        rw [same]
        exact List.mem_append_left _ (List.mem_of_getLast? isLast)))
      (oneHash sighting (by simp [same]))
  constructor
  · intro complete before sighting after same
    exact (added before sighting after same).mp (complete.reorgs before sighting after same)
  · intro adjacent
    exact ⟨receiptHistory_observations sightings, fun before sighting after same =>
      (added before sighting after same).mpr (adjacent before sighting after same)⟩

/-- An observation of the transaction `0xaa` in a block, at an instant. -/
def sampleSighting (value : Option (String × Option Bool)) (at_ : Time) : ReceiptSighting where
  fact := {
    kind := .receipt
    value := value.map fun (blockHash, canonical) =>
      { transactionHash := "0xaa"
        blockHash := blockHash
        canonical := canonical
        finalityStage := .confirmed }
    availability := if value.isSome then .available else .unavailable
    freshness := unknownFreshness none
    provenance := []
    sourceBlockNumber := none
    sourceBlockHash := none }
  detectedAt := some at_

/-- A canonical sighting and the reorg directly after it. -/
theorem missesNothing_adjacent :
    MissesNothing [sampleSighting (some ("0x01", some true)) 1000,
      sampleSighting (some ("0x01", some false)) 2000] := by
  have oneHash : ∀ sighting ∈ [sampleSighting (some ("0x01", some true)) 1000,
      sampleSighting (some ("0x01", some false)) 2000], ∀ receipt ∈ sighting.fact.value,
        toLowerCase receipt.transactionHash = "0xaa" := by
    decide +kernel
  refine (missesNothing_iff oneHash).mpr ?_
  intro before sighting after same gone known
  rcases before with - | ⟨first, - | ⟨second, before⟩⟩
  · exact absurd rfl known
  · obtain ⟨rfl, -⟩ := List.cons.inj same
    obtain ⟨rfl, -⟩ := List.cons.inj (List.cons.inj same).2
    decide +kernel
  · simp at same

/-- A provider failure between the canonical and the non-canonical sighting hides the reorg. -/
theorem reorg_hidden_by_failure :
    ¬ ∀ (sightings : List ReceiptSighting) (hash : String),
      (∀ sighting ∈ sightings, sighting.detectedAt ≠ none ∧
        ∀ receipt ∈ sighting.fact.value, toLowerCase receipt.transactionHash = hash) →
      MissesNothing sightings := by
  intro claimed
  have complete := claimed [sampleSighting (some ("0x01", some true)) 1000,
    sampleSighting none 2000, sampleSighting (some ("0x01", some false)) 3000] "0xaa"
    (by decide +kernel)
  obtain ⟨added, reorgs, named⟩ := complete.reorgs
    [sampleSighting (some ("0x01", some true)) 1000, sampleSighting none 2000]
    (sampleSighting (some ("0x01", some false)) 3000) [] rfl
  have nothing : added = [] := by
    rw [receiptHistory_reorgs] at reorgs
    exact (List.append_cancel_left reorgs).symm
  rw [nothing] at named
  exact absurd named (by decide +kernel)

end MintBot
