import Mathlib.Control.Basic
import MintBot.Authority.Reads

/-!
# The independent check of a public mint

The drop, its fee recipients and its supply are read from two providers at one block.  The clock is
read when all of it has been read.
-/

namespace MintBot.Authority

open Json

/-- The arguments of `mintPublic`. -/
structure MintCall where
  nftContract : Text
  feeRecipient : Text
  minterIfNotPayer : Text
  quantity : Int
  deriving DecidableEq

/-- The codec of `mintPublic`: reading has no result for a call of another function, or for data
that cannot be decoded. -/
structure MintCodec where
  decodeFunctionData : Text → Option MintCall
  encodeFunctionData : MintCall → Text

structure Mint where
  nft : Text
  recipient : Text
  quantity : Int
  deriving DecidableEq

def maxQuantity (chainId : Int) : Int :=
  if chainId = 8453 then 4 else 15

/-- The checks of `canonicalMint` before it decodes. -/
def IntentValid (intent : TransactionIntent) (nftContract feeRecipient : Text) : Prop :=
  intent.chainId ∈ [1, 8453, 4663] ∧ intent.value = 0 ∧
    isHexText 40 intent.to_ ∧ lower intent.to_ = lower SEADROP_V1_ADDRESS ∧
    isHexText 40 intent.from_ ∧ lower intent.from_ ≠ zeroAddress ∧
    intent.campaignId ≠ [] ∧ intent.runId ≠ [] ∧
    isHexText 40 nftContract ∧ lower nftContract ≠ zeroAddress ∧ isHexText 40 feeRecipient

instance (intent : TransactionIntent) (nftContract feeRecipient : Text) :
    Decidable (IntentValid intent nftContract feeRecipient) := by
  unfold IntentValid
  infer_instance

/-- A call is the canonical encoding of a mint for the context of the intent. -/
def CallValid (codec : MintCodec) (intent : TransactionIntent) (nftContract feeRecipient : Text)
    (call : MintCall) : Prop :=
  lower call.nftContract = lower nftContract ∧ lower call.feeRecipient = lower feeRecipient ∧
    lower call.minterIfNotPayer = zeroAddress ∧
    1 ≤ call.quantity ∧ call.quantity ≤ maxQuantity intent.chainId ∧
    lower (codec.encodeFunctionData call) = lower intent.data

instance (codec : MintCodec) (intent : TransactionIntent) (nftContract feeRecipient : Text)
    (call : MintCall) : Decidable (CallValid codec intent nftContract feeRecipient call) := by
  unfold CallValid
  infer_instance

def canonicalMint (codec : MintCodec) (intent : TransactionIntent) : Option Mint := do
  let context ← intent.familyContext
  let nftContract ← context.nftContract
  let feeRecipient ← context.feeRecipient
  if IntentValid intent nftContract feeRecipient then
    let call ← codec.decodeFunctionData intent.data
    if CallValid codec intent nftContract feeRecipient call then
      some { nft := call.nftContract, recipient := call.feeRecipient, quantity := call.quantity }
    else none
  else none

structure PublicDrop where
  mintPrice : Int
  startTime : Int
  endTime : Int
  maxTotalMintableByWallet : Int
  feeBps : Int
  restrictFeeRecipients : Bool
  deriving DecidableEq

/-- The ranges of the fields of a drop. -/
def PublicDrop.InRange (drop : PublicDrop) : Prop :=
  (0 ≤ drop.mintPrice ∧ drop.mintPrice < 2 ^ 80) ∧
    (0 ≤ drop.startTime ∧ drop.startTime ≤ 2 ^ 48 - 1) ∧
    (0 ≤ drop.endTime ∧ drop.endTime ≤ 2 ^ 48 - 1) ∧
    (0 ≤ drop.maxTotalMintableByWallet ∧ drop.maxTotalMintableByWallet ≤ 65535) ∧
    0 ≤ drop.feeBps ∧ drop.feeBps ≤ 10000

instance (drop : PublicDrop) : Decidable drop.InRange := by
  unfold PublicDrop.InRange
  infer_instance

def publicDrop : JsValue → Option PublicDrop
  | .object field =>
      match field "mintPrice", field "startTime", field "endTime",
        field "maxTotalMintableByWallet", field "feeBps", field "restrictFeeRecipients" with
      | .bigint mintPrice, .integer startTime, .integer endTime, .integer perWallet,
          .integer feeBps, .boolean restricted =>
          let drop : PublicDrop :=
            { mintPrice := mintPrice
              startTime := startTime
              endTime := endTime
              maxTotalMintableByWallet := perWallet
              feeBps := feeBps
              restrictFeeRecipients := restricted }
          if drop.InRange then some drop else none
      | _, _, _, _, _, _ => none
  | _ => none

/-- A supply that cannot be read is unknown; one that is no supply throws. -/
def optionalSupply (reply : Reply JsValue) : Option (Option Int) :=
  match reply.value with
  | none => some none
  | some (.bigint value) => if 0 ≤ value ∧ value < 2 ^ 256 then some (some value) else none
  | some _ => none

structure PublicView where
  blockHash : Text
  timestamp : Int
  drop : PublicDrop
  fees : List Text
  supply : Option Int
  maximum : Option Int
  deriving DecidableEq

/-! ## What is read -/

/-- The reads of one provider at a block. -/
structure PublicReads where
  chain : Reply Int
  block : Reply Block
  dropValue : Reply JsValue
  feesValue : Reply JsValue
  supply : Reply JsValue
  maximum : Reply JsValue

def Client.publicReads (client : Client) (nft : Text) (blockNumber : Int) : PublicReads where
  chain := client.getChainId
  block := client.getBlock blockNumber
  dropValue := client.readContract SEADROP_V1_ADDRESS .getPublicDrop [nft] blockNumber
  feesValue := client.readContract SEADROP_V1_ADDRESS .getAllowedFeeRecipients [nft] blockNumber
  supply := client.readContract nft .totalSupply [] blockNumber
  maximum := client.readContract nft .maxSupply [] blockNumber

def PublicReads.delays (reads : PublicReads) : List Nat :=
  [reads.chain.delay, reads.block.delay, reads.dropValue.delay, reads.feesValue.delay,
    reads.supply.delay, reads.maximum.delay]

def PublicReads.view (reads : PublicReads) (chainId : Int) : Option PublicView := do
  let chain ← reads.chain.value
  let block ← reads.block.value
  let dropValue ← reads.dropValue.value
  let feesValue ← reads.feesValue.value
  let supply ← optionalSupply reads.supply
  let maximum ← optionalSupply reads.maximum
  let hash ← block.hash
  if chain = chainId ∧ isHexText 64 hash then
    let fees ← feesValue.addresses
    let drop ← publicDrop dropValue
    some
      { blockHash := lower hash
        timestamp := block.timestamp
        drop := drop
        fees := sorted (fees.map lower)
        supply := supply
        maximum := maximum }
  else none

/-! ## The view as a text -/

def PublicDrop.document (drop : PublicDrop) : Document Scalar :=
  .object
    [(ascii "mintPrice", bigintLeaf drop.mintPrice),
      (ascii "startTime", integerLeaf drop.startTime),
      (ascii "endTime", integerLeaf drop.endTime),
      (ascii "maxTotalMintableByWallet", integerLeaf drop.maxTotalMintableByWallet),
      (ascii "feeBps", integerLeaf drop.feeBps),
      (ascii "restrictFeeRecipients", .leaf (.boolean drop.restrictFeeRecipients))]

def supplyDocument : Option Int → Document Scalar
  | none => .object [(ascii "known", .leaf (.boolean false))]
  | some value =>
      .object [(ascii "known", .leaf (.boolean true)), (ascii "value", bigintLeaf value)]

def PublicView.document (view : PublicView) : Document Scalar :=
  .object
    [(ascii "blockHash", textLeaf view.blockHash),
      (ascii "timestamp", bigintLeaf view.timestamp),
      (ascii "drop", view.drop.document),
      (ascii "fees", textsDocument view.fees),
      (ascii "supply", supplyDocument view.supply),
      (ascii "maximum", supplyDocument view.maximum)]

/-! ## The checks -/

def StageNotOpen (drop : PublicDrop) (blockTime wallTime : Int) : Prop :=
  drop.startTime = 0 ∧ drop.endTime = 0 ∨ drop.endTime < drop.startTime ∨
    blockTime < drop.startTime ∨ drop.endTime < blockTime ∨
    wallTime < drop.startTime ∨ drop.endTime < wallTime

instance (drop : PublicDrop) (blockTime wallTime : Int) :
    Decidable (StageNotOpen drop blockTime wallTime) := by
  unfold StageNotOpen
  infer_instance

/-- Both supplies are known, and the mint goes past the maximum. -/
def SupplyExceeded (view : PublicView) (quantity : Int) : Prop :=
  ∃ supply ∈ view.supply, ∃ maximum ∈ view.maximum, maximum < supply + quantity

instance (view : PublicView) (quantity : Int) : Decidable (SupplyExceeded view quantity) := by
  unfold SupplyExceeded
  infer_instance

/-- A fee recipient is listed, or lists do not matter and it is the collector. -/
def FeeRecipientAllowed (fees : List Text) (restricted : Bool) (recipient : Text) : Prop :=
  lower recipient ∈ fees ∨ restricted = false ∧ lower recipient = lower OPENSEA_FEE_COLLECTOR

instance (fees : List Text) (restricted : Bool) (recipient : Text) :
    Decidable (FeeRecipientAllowed fees restricted recipient) :=
  inferInstanceAs (Decidable (_ ∨ _))

/-- The checks of a view that both providers have, at a time. -/
def publicViewError (mint : Mint) (view : PublicView) (nowMs : Int) : Option String :=
  if ¬ Dated nowMs view.timestamp then some "TURNKEY_PUBLIC_AUTHORITY_STALE"
  else if view.drop.mintPrice ≠ 0 then some "TURNKEY_PUBLIC_DROP_NOT_FREE"
  else if StageNotOpen view.drop view.timestamp (nowMs / 1000) then
    some "TURNKEY_PUBLIC_STAGE_NOT_OPEN"
  else if view.drop.maxTotalMintableByWallet < mint.quantity then
    some "TURNKEY_PUBLIC_QUANTITY_EXCEEDED"
  else if SupplyExceeded view mint.quantity then some "TURNKEY_PUBLIC_SUPPLY_EXCEEDED"
  else if ¬ FeeRecipientAllowed view.fees view.drop.restrictFeeRecipients mint.recipient then
    some "TURNKEY_PUBLIC_FEE_RECIPIENT_INVALID"
  else none

/-- When the last read of a public check is done. -/
def publicReadsAt (first second : Client) (nft : Text) (blockNumber start : Int) : Int :=
  readsAt ((first.publicReads nft blockNumber).delays ++ (second.publicReads nft blockNumber).delays)
    (headsAt first second start)

/-- `assertIndependentPublicAuthority`, which returns the instant at which it does, or throws.  The
clock is read when all reads are done. -/
def assertIndependentPublicAuthority (codec : MintCodec) (intent : TransactionIntent)
    (clients : List Client) (start : Int) (clock : Int → Int := id) : Option Int := do
  let mint ← canonicalMint codec intent
  match clients with
  | first :: second :: _ =>
      let blockNumber ← commonBlock first second
      let left ← (first.publicReads mint.nft blockNumber).view intent.chainId
      let right ← (second.publicReads mint.nft blockNumber).view intent.chainId
      let completedAt := publicReadsAt first second mint.nft blockNumber start
      if left.document.text ≠ right.document.text then none
      else if publicViewError mint left (clock completedAt) = none then some completedAt
      else none
  | _ => none

end MintBot.Authority
