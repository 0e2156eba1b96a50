import Mathlib.Algebra.BigOperators.Group.List.Basic
import Mathlib.Algebra.Order.Ring.Unbundled.Rat
import Mathlib.Algebra.Ring.Int.Defs
import Mathlib.Data.Rat.Defs
import MintBot.Library.IntegerText
import MintBot.Library.Fallible
import MintBot.Types

/-!
# Judging one wallet

The watcher compares what the chain shows of a wallet with the baseline it last
accepted and with the service's own records.  A transaction count that nothing
recorded explains, or a balance fall above the amounts of the reservations that
may have been spent since, is a finding.
-/

namespace MintBot

open Fallible

/-- A number in JSON data. -/
abbrev Number := Rat

/-- `Number.isSafeInteger`. -/
def IsSafeNumber (value : Number) : Prop :=
  value.den = 1 ∧ -maxSafeInteger ≤ value.num ∧ value.num ≤ maxSafeInteger

instance (value : Number) : Decidable (IsSafeNumber value) := by
  unfold IsSafeNumber
  infer_instance

/-- `BigInt` of a text. -/
def bigInt (text : String) : Except Error Wei :=
  require (IntegerText.readInteger text) "SyntaxError: Cannot convert to a BigInt"

/-- Amounts are read back as they were written. -/
@[simp]
theorem bigInt_toString (wei : Wei) : bigInt (toString wei) = .ok wei := by
  rw [bigInt, IntegerText.readInteger_toString]
  rfl

structure WatchTarget where
  chainId : ChainId
  address : String
  deriving DecidableEq, Repr

/-- `chainId ':' address`, with the address in lower case. -/
structure WatchKey where
  chainId : ChainId
  address : String
  deriving DecidableEq, Repr

def keyOf (target : WatchTarget) : WatchKey :=
  ⟨target.chainId, toLowerCase target.address⟩

theorem toLowerCase_keyOf (target : WatchTarget) :
    toLowerCase (keyOf target).address = (keyOf target).address := by
  simp only [keyOf, toLowerCase, String.toList_ofList, List.map_map, Function.comp_def,
    toLower_toLower]

structure WalletReading where
  nonce : Int
  balanceWei : Wei
  deriving DecidableEq, Repr

/-- The left-over balance clock of a wallet. -/
structure ExcessState where
  firstAboveAt : Option Time
  activityKey : Option String
  lastReminderAt : Option Time
  deriving DecidableEq, Repr

structure WalletBaseline where
  nonce : Number
  balanceWei : String
  observedAt : Time
  excess : Option ExcessState
  deriving DecidableEq, Repr

structure WalletLedger where
  /-- One above the highest transaction count the service used for the wallet. -/
  knownNextNonce : Option Int
  /-- The most the recorded reservations explain being spent since the baseline. -/
  allowedFallWei : Wei
  deriving DecidableEq, Repr

inductive WalletVerdict
  | baseline
  | ok
  | rise
  | unknownActivity (observedNonce : Int) (expectedNonce : Number)
  | unexplainedFall (fallWei allowedWei : Wei)
  | rpcInconsistent
  deriving DecidableEq, Repr

/-- Findings of this kind stop signing. -/
def WalletVerdict.IsKillClass (verdict : WalletVerdict) : Prop :=
  match verdict with
  | .unknownActivity _ _ | .unexplainedFall _ _ => True
  | _ => False

instance (verdict : WalletVerdict) : Decidable verdict.IsKillClass := by
  unfold WalletVerdict.IsKillClass
  cases verdict <;> infer_instance

/-- The transaction count that the baseline and the records lead to. -/
def expectedNonce (baseline : WalletBaseline) (ledger : WalletLedger) : Number :=
  max baseline.nonce ((ledger.knownNextNonce.map fun nonce => (nonce : Number)).getD baseline.nonce)

def judgeWallet (reading : WalletReading) (baseline : Option WalletBaseline)
    (ledger : WalletLedger) : Except Error WalletVerdict :=
  match baseline with
  | none => .ok .baseline
  | some baseline =>
      if (reading.nonce : Number) < baseline.nonce then .ok .rpcInconsistent
      else if expectedNonce baseline ledger < reading.nonce then
        .ok (.unknownActivity reading.nonce (expectedNonce baseline ledger))
      else do
        let before ← bigInt baseline.balanceWei
        if reading.balanceWei < before then
          if ledger.allowedFallWei < before - reading.balanceWei then
            return .unexplainedFall (before - reading.balanceWei) ledger.allowedFallWei
          else return .ok
        else if before < reading.balanceWei then return .rise
        else return .ok

/-! ## The ledger of a wallet -/

/-- A reservation with the chain it was made on and the time of its last change. -/
structure ChainReservation extends Reservation where
  chainId : Option ChainId
  updatedAt : Time
  deriving DecidableEq, Repr

/-- The records of a backend state that the watcher reads. -/
structure WatchedRecords where
  campaigns : List Campaign
  runs : List RunRecord
  intents : List IntentRecord
  attempts : List AttemptRecord
  reservations : List ChainReservation
  deriving DecidableEq, Repr

namespace WatchedRecords

/-- A run is armed or active. -/
def RunActive (records : WatchedRecords) : Prop :=
  ∃ run ∈ records.runs, run.state = .armed ∨ run.state = .active

instance (records : WatchedRecords) : Decidable records.RunActive := by
  unfold RunActive
  infer_instance

/-- The chain of a run: that of its intent, or else that of its campaign. -/
def runChain (records : WatchedRecords) (runId : RunId) : Option ChainId :=
  match records.intents.find? fun intent => intent.runId = runId with
  | some intent => some intent.campaignSnapshot.chainId
  | none => do
      let run ← records.runs.find? fun run => run.id = runId
      let campaign ← records.campaigns.reverse.find? fun campaign => campaign.id = run.campaignId
      return campaign.chainId

end WatchedRecords

/-- The amount is held for a transaction that may still be spent. -/
def ChainReservation.IsPending (reservation : ChainReservation) : Prop :=
  reservation.status = .reserved ∨ reservation.status = .reorged

instance (reservation : ChainReservation) : Decidable reservation.IsPending := by
  unfold ChainReservation.IsPending
  infer_instance

/-- The reservation is one of the wallet, on the chain it is watched on. -/
def ChainReservation.OfWallet (records : WatchedRecords) (target : WatchTarget)
    (reservation : ChainReservation) : Prop :=
  toLowerCase reservation.wallet = toLowerCase target.address ∧
    reservation.chainId.or (records.runChain reservation.runId) = some target.chainId

instance (records : WatchedRecords) (target : WatchTarget) (reservation : ChainReservation) :
    Decidable (reservation.OfWallet records target) := by
  unfold ChainReservation.OfWallet
  infer_instance

/-- The reservation may explain a fall since the baseline: it is pending, or it
was updated since. -/
def ChainReservation.Explains (records : WatchedRecords) (target : WatchTarget)
    (baseline : Option WalletBaseline) (reservation : ChainReservation) : Prop :=
  reservation.OfWallet records target ∧
    (reservation.IsPending ∨ ∃ known ∈ baseline, known.observedAt ≤ reservation.updatedAt)

instance (records : WatchedRecords) (target : WatchTarget) (baseline : Option WalletBaseline)
    (reservation : ChainReservation) :
    Decidable (reservation.Explains records target baseline) := by
  unfold ChainReservation.Explains
  infer_instance

/-- The reservations that may explain a fall of the wallet. -/
def WatchedRecords.explaining (records : WatchedRecords) (target : WatchTarget)
    (baseline : Option WalletBaseline) : List ChainReservation :=
  records.reservations.filter fun reservation => reservation.Explains records target baseline

/-- One above the highest transaction count of the wallet's attempts. -/
def WatchedRecords.knownNextNonce (records : WatchedRecords) (target : WatchTarget) : Option Int :=
  records.attempts.foldl (fun known attempt =>
    match attempt.nonce with
    | some nonce =>
        if toLowerCase attempt.wallet = toLowerCase target.address ∧
            records.runChain attempt.runId = some target.chainId then
          some (max (known.getD 0) (nonce + 1))
        else known
    | none => known) none

def ledgerFor (records : WatchedRecords) (target : WatchTarget)
    (baseline : Option WalletBaseline) : WalletLedger where
  knownNextNonce := records.knownNextNonce target
  allowedFallWei := ((records.explaining target baseline).map fun reservation =>
    reservation.amountWei).sum

/-- Pending exposure of the wallet, also of an unknown chain, or a run in flight
blocks the exemption of a treasury return. -/
def ReturnBlocked (records : WatchedRecords) (target : WatchTarget) : Prop :=
  records.RunActive ∨ ∃ reservation ∈ records.reservations,
    toLowerCase reservation.wallet = toLowerCase target.address ∧ reservation.IsPending ∧
      (reservation.chainId = none ∨ reservation.chainId = some target.chainId)

instance (records : WatchedRecords) (target : WatchTarget) :
    Decidable (ReturnBlocked records target) := by
  unfold ReturnBlocked
  infer_instance

end MintBot
