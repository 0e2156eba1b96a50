import MintBot.Authority.Public

/-!
# The independent check of an allowlist mint

The Merkle root and the fee recipients are read from two providers at one block.  Here the clock is
read when the check is called, before any of the reads.
-/

namespace MintBot.Authority

open Json

structure AllowlistView where
  blockHash : Text
  root : Text
  fees : List Text
  deriving DecidableEq

/-- The reads of one provider at a block. -/
structure AllowlistReads where
  chain : Reply Int
  block : Reply Block
  rootValue : Reply JsValue
  feesValue : Reply JsValue

def Client.allowlistReads (client : Client) (nftContract : Text) (blockNumber : Int) :
    AllowlistReads where
  chain := client.getChainId
  block := client.getBlock blockNumber
  rootValue :=
    client.readContract SEADROP_V1_ADDRESS .getAllowListMerkleRoot [nftContract] blockNumber
  feesValue :=
    client.readContract SEADROP_V1_ADDRESS .getAllowedFeeRecipients [nftContract] blockNumber

def AllowlistReads.delays (reads : AllowlistReads) : List Nat :=
  [reads.chain.delay, reads.block.delay, reads.rootValue.delay, reads.feesValue.delay]

/-- A text of 32 bytes. -/
def JsValue.root : JsValue → Option Text
  | .text value => if isHexText 64 value then some value else none
  | _ => none

def AllowlistReads.view (reads : AllowlistReads) (chainId now : Int) : Option AllowlistView := do
  let chain ← reads.chain.value
  let block ← reads.block.value
  let rootValue ← reads.rootValue.value
  let feesValue ← reads.feesValue.value
  let hash ← block.hash
  if chain = chainId ∧ hash ≠ [] ∧ Dated now block.timestamp then
    let root ← rootValue.root
    let fees ← feesValue.addresses
    some { blockHash := lower hash, root := lower root, fees := sorted (fees.map lower) }
  else none

def AllowlistView.document (view : AllowlistView) : Document Scalar :=
  .object
    [(ascii "blockHash", textLeaf view.blockHash),
      (ascii "root", textLeaf view.root),
      (ascii "fees", textsDocument view.fees)]

/-- The checks of a view that both providers have. -/
def allowlistViewError (intent : TransactionIntent) (proof : AllowlistProof) (view : AllowlistView) :
    Option String :=
  if view.root ≠ lower proof.root ∨ proof.chainId ≠ intent.chainId then
    some "TURNKEY_ALLOWLIST_ROOT_CHANGED"
  else if ¬ FeeRecipientAllowed view.fees proof.restrictFeeRecipients proof.feeRecipient then
    some "TURNKEY_ALLOWLIST_FEE_RECIPIENT_INVALID"
  else none

/-- When the last read of an allowlist check is done. -/
def allowlistReadsAt (first second : Client) (nftContract : Text) (blockNumber start : Int) : Int :=
  readsAt ((first.allowlistReads nftContract blockNumber).delays ++
    (second.allowlistReads nftContract blockNumber).delays) (headsAt first second start)

/-- `readAuthority`, at the instant of the clock that it is given. -/
def allowlistAuthority (intent : TransactionIntent) (clients : List Client) (start now : Int) :
    Option Int := do
  let context ← intent.familyContext
  let proof ← context.allowlistProof
  match clients with
  | first :: second :: _ =>
      let blockNumber ← commonBlock first second
      let left ← (first.allowlistReads proof.nftContract blockNumber).view intent.chainId now
      let right ← (second.allowlistReads proof.nftContract blockNumber).view intent.chainId now
      if left.document.text ≠ right.document.text then none
      else if allowlistViewError intent proof left = none then
        some (allowlistReadsAt first second proof.nftContract blockNumber start)
      else none
  | _ => none

/-- `assertIndependentAllowlistAuthority`, which returns the instant at which it does, or throws.
Its default clock is the instant of the call. -/
def assertIndependentAllowlistAuthority (intent : TransactionIntent) (clients : List Client)
    (start : Int) : Option Int :=
  allowlistAuthority intent clients start start

end MintBot.Authority
