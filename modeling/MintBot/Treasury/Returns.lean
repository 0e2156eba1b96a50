import MintBot.Library.Bisection
import MintBot.Treasury.Values

/-!
# Trusted treasury returns

`verifyTrustedTreasuryReturns` exempts a wallet from the kill switch when two providers show that
every transaction behind an unexplained nonce was a plain transfer to an approved address.  Each
provider is asked for the state of the chain at one block; for every nonce the block that consumed
it is found by bisection of the nonce at past blocks, and the transaction, its receipt and its fees
are read there.  What the two providers show is compared as a whole.

A refusal, a failed read and an answer behind the time limit all end in no proof.
-/

namespace MintBot.Treasury

open Json Authority

/-! ## Inputs -/

structure TreasuryReturnInput where
  chainId : Nat
  address : Text
  baselineNonce : Int
  baselineBalanceWei : Text
  baselineObservedAt : Text
  readingNonce : Int
  readingBalanceWei : Int
  knownNextNonce : Option Int
  allowedFallWei : Int
  approvedRecipients : List Text
  feeAllowanceWei : Int

/-- Why the code of an account is read: the answers of one provider may differ between reads. -/
inductive CodeRead
  | walletNow
  | recipientThen (nonce : Nat)
  | recipientNow (nonce : Nat)
  | walletThen (nonce : Nat)
  deriving DecidableEq

/-- What a provider answers.  Counts and blocks are asked for once and remembered, but the block of
the view is read again at the end. -/
structure TreasuryReturnClient where
  /-- Which object it is. -/
  identity : Nat
  getChainId : Option Answer
  getBlockNumber : Option Answer
  getTransactionCount : (blockNumber : Nat) → Option Answer
  getBlock : (blockNumber : Nat) → Option Answer
  getBlockAgain : Option Answer
  getBalance : (blockNumber : Nat) → Option Answer
  getCode : CodeRead → (address : Text) → (blockNumber : Nat) → Option Answer
  getTransactionReceipt : (nonce : Nat) → (hash : Text) → Option Answer

structure TreasuryReturnProof where
  chainId : Nat
  address : Text
  fromNonce : Nat
  /-- Exclusive upper bound, equal to the observed nonce. -/
  toNonce : Nat
  nonce : Nat
  balanceWei : Nat
  baselineNonce : Int
  baselineBalanceWei : Text
  baselineObservedAt : Text
  hashes : List Text
  blockNumber : Nat
  blockHash : Text
  totalValueWei : Nat
  totalFeeWei : Nat
  deriving DecidableEq

/-- `MAX_LOOKBACK` -/
def MAX_LOOKBACK : Nat := 65536

/-- `MAX_GAP` -/
def MAX_GAP : Nat := 8

/-! ## One provider -/

namespace TreasuryReturnClient

variable (client : TreasuryReturnClient)

/-- `countAt` -/
def countAt (blockNumber : Nat) : Option Nat := do
  let answer ← client.getTransactionCount blockNumber
  nonce answer.document

/-- A block answer names its own number and has a hash, a time and transactions. -/
def checkBlock (blockNumber : Nat) (block : ObjectValue) : Option Unit := do
  requireProof (bigint? (field "number" block) = some (blockNumber : Int) ∧
    (array? (field "transactions" block)).isSome)
  let _ ← hash (field "hash" block)
  let _ ← amount (field "timestamp" block)
  return ()

/-- `blockAt` -/
def blockAt (blockNumber : Nat) : Option ObjectValue := do
  let answer ← client.getBlock blockNumber
  let block ← object answer.document
  checkBlock blockNumber block
  return block

/-- The code of an account is empty. -/
def requireNoCode (read : CodeRead) (address : Text) (blockNumber : Nat) : Option Unit := do
  let answer ← client.getCode read address blockNumber
  requireProof (emptyCode answer.document = true)

end TreasuryReturnClient

/-! ## Fees of a receipt -/

@[ext]
structure OtherFees where
  l1Fee : Nat
  operatorFee : Nat
  deriving DecidableEq

/-- The fee fields of a receipt that have a meaning here. -/
def knownFeeFields : List Text :=
  [ascii "effectiveGasPrice", ascii "l1Fee", ascii "l1DataFee", ascii "operatorFee",
    ascii "l1FeeScalar", ascii "l1BaseFeeScalar", ascii "l1BlobBaseFeeScalar",
    ascii "operatorFeeScalar", ascii "operatorFeeConstant"]

/-- A fee of nothing. -/
def isNoFee (value : Document AnswerLeaf) : Bool :=
  isNullish value || bigint? value = some 0 || string? value = some (ascii "0x0")

/-- Unknown fees are not ignored. -/
def NoUnknownFee (receipt : ObjectValue) : Prop :=
  ∀ member ∈ receipt, mentionsFee member.1 = true → member.1 ∉ knownFeeFields →
    isNoFee member.2 = true

instance (receipt : ObjectValue) : Decidable (NoUnknownFee receipt) :=
  List.decidableBAll _ receipt

/-- `baseReceiptFees` without an oracle, as far as it returns. -/
def baseReceiptFees (receipt : ObjectValue) : Option OtherFees := do
  let l1DataFee := field "l1DataFee" receipt
  let l1Fee := field "l1Fee" receipt
  requireProof (¬ (isNullish l1DataFee = true ∧ isNullish l1Fee = true))
  let normalizedL1DataFee ← if isNullish l1DataFee then some none else (quantity l1DataFee).map some
  let normalizedL1Fee ← if isNullish l1Fee then some none else (quantity l1Fee).map some
  requireProof (∀ left ∈ normalizedL1DataFee, ∀ right ∈ normalizedL1Fee, left = right)
  let l1DataFeeWei ← normalizedL1DataFee <|> normalizedL1Fee
  let operatorFeeWei ← quantity (field "operatorFee" receipt)
  return { l1Fee := l1DataFeeWei, operatorFee := operatorFeeWei }

/-- The charges of Robinhood: an explicit one is required. -/
def robinhoodReceiptFees (receipt : ObjectValue) : Option OtherFees := do
  let l1Fee := field "l1Fee" receipt
  let l1DataFee := field "l1DataFee" receipt
  requireProof (¬ (isUndefined l1Fee = true ∧ isUndefined l1DataFee = true))
  let charge ← quantity (if isNullish l1DataFee then l1Fee else l1DataFee)
  if isUndefined l1Fee then pure () else do
    let other ← quantity l1Fee
    requireProof (other = charge)
  let operatorFee ←
    if isUndefined (field "operatorFee" receipt) then some 0
    else quantity (field "operatorFee" receipt)
  requireProof ((isUndefined (field "operatorFeeScalar" receipt) = true ∧
      isUndefined (field "operatorFeeConstant" receipt) = true) ∨
    isUndefined (field "operatorFee" receipt) = false)
  return { l1Fee := charge, operatorFee := operatorFee }

/-- Ethereum receipts have no other charges. -/
def ethereumReceiptFees (receipt : ObjectValue) : Option OtherFees := do
  requireProof (∀ name ∈ ["l1Fee", "l1DataFee", "operatorFee", "operatorFeeScalar",
    "operatorFeeConstant"], isUndefined (field name receipt) = true)
  return { l1Fee := 0, operatorFee := 0 }

/-- The charges beside the gas, by chain. -/
def otherFees (chainId : Nat) (receipt : ObjectValue) : Option OtherFees := do
  requireProof (NoUnknownFee receipt)
  if chainId = 8453 then baseReceiptFees receipt
  else if chainId = 4663 then robinhoodReceiptFees receipt
  else ethereumReceiptFees receipt

/-! ## One transaction -/

/-- What the watcher needs of the inputs, read once. -/
structure Interval where
  chainId : Nat
  address : Text
  start : Nat
  end_ : Nat
  recipients : List Text
  baselineBalance : Nat
  baselineTime : Int
  readingBalance : Nat
  allowedFall : Nat
  feeAllowance : Nat
  deriving DecidableEq

/-- What a view lists of a transaction. -/
@[ext]
structure TransferFacts where
  hash : Text
  nonce : Nat
  blockNumber : Nat
  blockHash : Text
  to_ : Text
  value : Nat
  gasUsed : Nat
  effectiveGasPrice : Nat
  fees : OtherFees
  deriving DecidableEq

/-- A transaction as a view lists it, with the answers as a whole. -/
structure Transfer extends TransferFacts where
  transactionResponse : ObjectValue
  receiptResponse : ObjectValue

/-- `fee` -/
def TransferFacts.fee (transfer : TransferFacts) : Nat :=
  transfer.gasUsed * transfer.effectiveGasPrice + transfer.fees.l1Fee + transfer.fees.operatorFee

def transferTypes : List Text :=
  [ascii "legacy", ascii "eip2930", ascii "eip1559", ascii "0x0", ascii "0x1", ascii "0x2"]

/-- A transaction of the wallet with a nonce. -/
def IsOwn (address : Text) (n : Nat) (tx : ObjectValue) : Prop :=
  lower (field "from" tx) = some address ∧ integer? (field "nonce" tx) = some (n : Int)

instance (address : Text) (n : Nat) (tx : ObjectValue) : Decidable (IsOwn address n tx) :=
  inferInstanceAs (Decidable (_ ∧ _))

/-- The objects of a list of transactions; the sender of each has to be a text. -/
def transactionsOf (block : ObjectValue) : Option (List ObjectValue) := do
  let items ← array? (field "transactions" block)
  let transactions ← items.mapM object
  requireProof (∀ tx ∈ transactions, (lower (field "from" tx)).isSome = true)
  return transactions

/-- The item of a list that has no other. -/
def single {α : Type} : List α → Option α
  | [item] => some item
  | _ => none

theorem single_eq_some {α : Type} {items : List α} {item : α} :
    single items = some item ↔ items = [item] := by
  unfold single
  split <;> simp_all

/-- The two items of a list that has no others. -/
def pair {α : Type} : List α → Option (α × α)
  | [first, second] => some (first, second)
  | _ => none

theorem pair_eq_some {α : Type} {items : List α} {both : α × α} :
    pair items = some both ↔ items = [both.1, both.2] := by
  obtain ⟨first, second⟩ := both
  unfold pair
  split <;> simp_all

/-- A plain transfer: no data, no access list and none of the newer extras. -/
def IsPlain (tx : ObjectValue) : Prop :=
  string? (field "input" tx) = some (ascii "0x") ∧
  stringOf (field "type" tx) ∈ transferTypes ∧
  isUndefined (field "authorizationList" tx) = true ∧
  isUndefined (field "blobVersionedHashes" tx) = true ∧
  isUndefined (field "maxFeePerBlobGas" tx) = true ∧
  (isUndefined (field "accessList" tx) = true ∨
    (array? (field "accessList" tx)).map List.length = some 0)

instance (tx : ObjectValue) : Decidable (IsPlain tx) := by
  unfold IsPlain
  infer_instance

/-- The type of a transaction that names the most it pays for gas. -/
def isDynamic (tx : ObjectValue) : Bool :=
  string? (field "type" tx) = some (ascii "eip1559") ||
    string? (field "type" tx) = some (ascii "0x2")

/-- The price that was paid is one that the transaction allows. -/
def checkPrice (tx : ObjectValue) (effectiveGasPrice : Nat) : Option Unit :=
  if isDynamic tx then do
    let most ← amount (field "maxFeePerGas" tx)
    requireProof (effectiveGasPrice ≤ most)
  else do
    let price ← amount (field "gasPrice" tx)
    requireProof (effectiveGasPrice = price)

/-- The block after which a nonce was consumed, by bisection of the counts of past blocks. -/
def locate (client : TreasuryReturnClient) (first last n : Nat) : Option Nat := do
  let atFirst ← client.countAt first
  let atLast ← client.countAt last
  requireProof (atFirst ≤ n ∧ n < atLast)
  let (low, high) ← Bisection.narrow client.countAt n 17 first last
  let atLow ← client.countAt low
  let atHigh ← client.countAt high
  requireProof (low + 1 = high ∧ atLow ≤ n ∧ n < atHigh)
  return high

/-- What a checked transaction says of itself. -/
structure Sent where
  hash : Text
  to_ : Text
  value : Nat
  deriving DecidableEq

/-- The checks of a transaction. -/
def sentOf (interval : Interval) (high n : Nat) (blockHash : Text) (tx : ObjectValue) :
    Option Sent := do
  let txHash ← hash (field "hash" tx)
  let to_ ← addr (field "to" tx)
  requireProof (to_ ∈ interval.recipients ∧ to_ ≠ interval.address)
  requireProof (bigint? (field "blockNumber" tx) = some (high : Int) ∧
    hash (field "blockHash" tx) = some blockHash)
  requireProof (integer? (field "chainId" tx) = some (interval.chainId : Int) ∧
    nonce (field "nonce" tx) = some n)
  requireProof (IsPlain tx)
  let value ← amount (field "value" tx)
  requireProof (0 < value)
  return { hash := txHash, to_ := to_, value := value }

/-- What a checked receipt says was paid for the gas. -/
structure Charged where
  gasUsed : Nat
  effectiveGasPrice : Nat
  deriving DecidableEq

/-- A receipt is the one of the transaction, and the transaction succeeded. -/
def IsReceiptOf (interval : Interval) (high : Nat) (blockHash : Text) (sent : Sent)
    (receipt : ObjectValue) : Prop :=
  hash (field "transactionHash" receipt) = some sent.hash ∧
  bigint? (field "blockNumber" receipt) = some (high : Int) ∧
  hash (field "blockHash" receipt) = some blockHash ∧
  addr (field "from" receipt) = some interval.address ∧
  addr (field "to" receipt) = some sent.to_ ∧
  string? (field "status" receipt) = some (ascii "success") ∧
  isNull (field "contractAddress" receipt) = true

instance (interval : Interval) (high : Nat) (blockHash : Text) (sent : Sent)
    (receipt : ObjectValue) : Decidable (IsReceiptOf interval high blockHash sent receipt) := by
  unfold IsReceiptOf
  infer_instance

/-- The checks of a receipt, its charges beside the gas excepted. -/
def chargedOf (interval : Interval) (high : Nat) (blockHash : Text) (sent : Sent)
    (tx receipt : ObjectValue) : Option Charged := do
  requireProof (IsReceiptOf interval high blockHash sent receipt)
  let gasUsed ← amount (field "gasUsed" receipt)
  let effectiveGasPrice ← amount (field "effectiveGasPrice" receipt)
  requireProof (isUndefined (field "blobGasUsed" receipt) = true ∧
    isUndefined (field "blobGasPrice" receipt) = true)
  let gas ← amount (field "gas" tx)
  requireProof (gasUsed = 21000 ∧ gasUsed ≤ gas)
  checkPrice tx effectiveGasPrice
  return { gasUsed := gasUsed, effectiveGasPrice := effectiveGasPrice }

/-- The transaction of a nonce, with its receipt and all its checks. -/
def transferAt (client : TreasuryReturnClient) (interval : Interval)
    (firstBlock blockNumber n : Nat) : Option Transfer := do
  let high ← locate client firstBlock blockNumber n
  let block ← client.blockAt high
  let blockHash ← hash (field "hash" block)
  let transactions ← transactionsOf block
  let tx ← single (transactions.filter fun tx => IsOwn interval.address n tx)
  let sent ← sentOf interval high n blockHash tx
  let answer ← client.getTransactionReceipt n sent.hash
  let receipt ← object answer.document
  let charged ← chargedOf interval high blockHash sent tx receipt
  client.requireNoCode (.recipientThen n) sent.to_ high
  client.requireNoCode (.recipientNow n) sent.to_ blockNumber
  client.requireNoCode (.walletThen n) interval.address high
  let fees ← otherFees interval.chainId receipt
  return {
    hash := sent.hash
    nonce := n
    blockNumber := high
    blockHash := blockHash
    to_ := sent.to_
    value := sent.value
    gasUsed := charged.gasUsed
    effectiveGasPrice := charged.effectiveGasPrice
    fees := fees
    transactionResponse := tx
    receiptResponse := receipt }

/-! ## One view -/

/-- The totals so far and the transactions of the nonces before. -/
structure Progress where
  transactions : List Transfer
  totalValueWei : Nat
  totalFeeWei : Nat

/-- Take in the transaction of one more nonce. -/
def takeTransfer (client : TreasuryReturnClient) (interval : Interval)
    (firstBlock blockNumber : Nat) (progress : Progress) (n : Nat) : Option Progress := do
  let transfer ← transferAt client interval firstBlock blockNumber n
  requireProof (progress.totalFeeWei + transfer.fee ≤ interval.feeAllowance)
  return {
    transactions := progress.transactions ++ [transfer]
    totalValueWei := progress.totalValueWei + transfer.value
    totalFeeWei := progress.totalFeeWei + transfer.fee }

/-- What one provider shows. -/
structure View where
  blockHash : Text
  timestamp : Nat
  balance : Nat
  transactions : List Transfer
  totalValueWei : Nat
  totalFeeWei : Nat

/-- The view of a provider at a block. -/
def viewAt (client : TreasuryReturnClient) (interval : Interval) (blockNumber : Nat) :
    Option View := do
  let firstBlock := blockNumber - MAX_LOOKBACK
  let common ← client.blockAt blockNumber
  let atBlock ← client.countAt blockNumber
  let atFirst ← client.countAt firstBlock
  requireProof (atBlock = interval.end_ ∧ atFirst ≤ interval.start)
  let answer ← client.getBalance blockNumber
  let balance ← amount answer.document
  requireProof (balance = interval.readingBalance)
  client.requireNoCode .walletNow interval.address blockNumber
  let progress ← (List.range' interval.start (interval.end_ - interval.start)).foldlM
    (takeTransfer client interval firstBlock blockNumber) ⟨[], 0, 0⟩
  let again ← client.getBlockAgain
  let finalBlock ← object again.document
  let blockHash ← hash (field "hash" common)
  let finalHash ← hash (field "hash" finalBlock)
  requireProof (finalHash = blockHash)
  let timestamp ← amount (field "timestamp" common)
  return {
    blockHash := blockHash
    timestamp := timestamp
    balance := balance
    transactions := progress.transactions
    totalValueWei := progress.totalValueWei
    totalFeeWei := progress.totalFeeWei }

/-! ## Comparable views -/

def textValue (value : Text) : Document AnswerLeaf :=
  .leaf (.scalar (.string value))

def bigintValue (value : Nat) : Document AnswerLeaf :=
  .leaf (.bigint value)

def numberValue (value : Nat) : Document AnswerLeaf :=
  .leaf (.scalar (.number (Number.ofInteger value)))

/-- The fields that a view holds for a transaction. -/
def Transfer.members (address : Text) (transfer : Transfer) : ObjectValue :=
  let tx := transfer.transactionResponse
  [
    (ascii "hash", textValue transfer.hash),
    (ascii "nonce", numberValue transfer.nonce),
    (ascii "blockNumber", bigintValue transfer.blockNumber),
    (ascii "blockHash", textValue transfer.blockHash),
    (ascii "from", textValue address),
    (ascii "to", textValue transfer.to_),
    (ascii "chainId", field "chainId" tx),
    (ascii "type", field "type" tx),
    (ascii "input", field "input" tx),
    (ascii "value", bigintValue transfer.value),
    (ascii "gas", field "gas" tx),
    (ascii "gasPrice", field "gasPrice" tx),
    (ascii "maxFeePerGas", field "maxFeePerGas" tx),
    (ascii "maxPriorityFeePerGas", field "maxPriorityFeePerGas" tx),
    (ascii "gasUsed", bigintValue transfer.gasUsed),
    (ascii "effectiveGasPrice", bigintValue transfer.effectiveGasPrice),
    (ascii "l1Fee", bigintValue transfer.fees.l1Fee),
    (ascii "operatorFee", bigintValue transfer.fees.operatorFee),
    (ascii "transactionResponse", .object tx),
    (ascii "receiptResponse", .object transfer.receiptResponse)]

def Transfer.document (address : Text) (transfer : Transfer) : Document AnswerLeaf :=
  .object (transfer.members address)

def View.members (address : Text) (view : View) : ObjectValue :=
  [
    (ascii "blockHash", textValue view.blockHash),
    (ascii "timestamp", bigintValue view.timestamp),
    (ascii "balance", bigintValue view.balance),
    (ascii "transactions", .array (view.transactions.map (Transfer.document address))),
    (ascii "totalValueWei", bigintValue view.totalValueWei),
    (ascii "totalFeeWei", bigintValue view.totalFeeWei)]

def View.document (address : Text) (view : View) : Document AnswerLeaf :=
  .object (view.members address)

/-! ## The verifier -/

/-- A decimal text without leading zeros. -/
def decimalOf (value : Text) : Option Nat :=
  let read := readDigits value
  if read.2 = [] ∧ naturalDigits (ofDigits read.1) = read.1 then some (ofDigits read.1) else none

/-- The checks of the inputs. -/
def intervalOf (host : Host) (input : TreasuryReturnInput) : Option Interval := do
  let address ← addrOf input.address
  requireProof (input.chainId ∈ [1, 8453, 4663])
  let baselineNonce ← nonceOf input.baselineNonce
  let known ← nonceOf (input.knownNextNonce.getD input.baselineNonce)
  let end_ ← nonceOf input.readingNonce
  let start := max baselineNonce known
  requireProof (start < end_ ∧ end_ - start ≤ MAX_GAP)
  let balance ← decimalOf input.baselineBalanceWei
  let baselineBalance ← amountOf balance
  let readingBalance ← amountOf input.readingBalanceWei
  let allowedFall ← amountOf input.allowedFallWei
  let feeAllowance ← amountOf input.feeAllowanceWei
  let baselineTime ← host.parseDate input.baselineObservedAt
  let recipients ← input.approvedRecipients.mapM addrOf
  requireProof (recipients ≠ [])
  return {
    chainId := input.chainId
    address := address
    start := start
    end_ := end_
    recipients := recipients
    baselineBalance := baselineBalance
    baselineTime := baselineTime
    readingBalance := readingBalance
    allowedFall := allowedFall
    feeAllowance := feeAllowance }

/-- The head of a provider on the chain of the wallet. -/
def headOf (client : TreasuryReturnClient) (interval : Interval) : Option Nat := do
  let chain ← client.getChainId
  requireProof (integer? chain.document = some (interval.chainId : Int))
  let answer ← client.getBlockNumber
  amount answer.document

/-- When the verifier is run: what `now` says, none for an invalid date, and whether everything was
answered within the time limit. -/
structure Occasion where
  now : Option Int
  inTime : Bool

/-- The last checks, of two views that agree. -/
def concludes (interval : Interval) (occasion : Occasion) (view : View) : Option Unit := do
  requireProof (occasion.inTime = true)
  let nowMs ← occasion.now
  requireProof (interval.baselineTime ≤ nowMs)
  let ageMs := nowMs - view.timestamp * 1000
  requireProof (0 ≤ ageMs ∧ ageMs ≤ 300000)
  requireProof (interval.baselineBalance - interval.readingBalance ≤
    view.totalValueWei + view.totalFeeWei + interval.allowedFall)

def verifyTrustedTreasuryReturns (host : Host) (input : TreasuryReturnInput)
    (clients : List TreasuryReturnClient) (occasion : Occasion) : Option TreasuryReturnProof := do
  let (first, second) ← pair clients
  requireProof (first.identity ≠ second.identity)
  let interval ← intervalOf host input
  let firstHead ← headOf first interval
  let secondHead ← headOf second interval
  let minHead := min firstHead secondHead
  requireProof (2 ≤ minHead)
  let blockNumber := minHead - 2
  let view ← viewAt first interval blockNumber
  let other ← viewAt second interval blockNumber
  requireProof (stable host (view.document interval.address) =
    stable host (other.document interval.address))
  concludes interval occasion view
  return {
    chainId := interval.chainId
    address := interval.address
    fromNonce := interval.start
    toNonce := interval.end_
    nonce := interval.end_
    balanceWei := interval.readingBalance
    baselineNonce := input.baselineNonce
    baselineBalanceWei := input.baselineBalanceWei
    baselineObservedAt := input.baselineObservedAt
    hashes := view.transactions.map fun transfer => transfer.hash
    blockNumber := blockNumber
    blockHash := view.blockHash
    totalValueWei := view.totalValueWei
    totalFeeWei := view.totalFeeWei }

end MintBot.Treasury
