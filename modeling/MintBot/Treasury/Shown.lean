import MintBot.Treasury.Returns

/-!
# What a view shows

Every transaction of a view is the one transaction of the wallet with its nonce, in the block that
consumed the nonce, with the checks of the transaction and its receipt.  The transactions of a view
follow the nonces, and its totals are their sums.
-/

namespace MintBot.Treasury

open Json Authority Bisection

variable {client : TreasuryReturnClient} {interval : Interval}

/-- The first block, by the counts of a provider, in whose state a nonce is consumed. -/
structure ConsumedIn (client : TreasuryReturnClient) (n block : Nat) : Prop where
  positive : 0 < block
  brackets : Brackets client.countAt n (block - 1) block

/-- The code of an account is empty. -/
def NoCode (client : TreasuryReturnClient) (read : CodeRead) (address : Text) (block : Nat) :
    Prop :=
  ∃ answer, client.getCode read address block = some answer ∧ emptyCode answer.document = true

/-- The receipt of a transfer: it succeeded, took the gas of a plain transfer, and its charges are
the ones that are counted. -/
structure Receipted (client : TreasuryReturnClient) (interval : Interval) (transfer : Transfer) :
    Prop where
  answered : ∃ answer, client.getTransactionReceipt transfer.nonce transfer.hash = some answer ∧
    object answer.document = some transfer.receiptResponse
  own : IsReceiptOf interval transfer.blockNumber transfer.blockHash
    ⟨transfer.hash, transfer.to_, transfer.value⟩ transfer.receiptResponse
  gas : amount (field "gasUsed" transfer.receiptResponse) = some transfer.gasUsed
  gasOfTransfer : transfer.gasUsed = 21000
  price : amount (field "effectiveGasPrice" transfer.receiptResponse) =
    some transfer.effectiveGasPrice
  fees : otherFees interval.chainId transfer.receiptResponse = some transfer.fees

/-- A transfer as a provider shows it at a block. -/
structure ShownAt (client : TreasuryReturnClient) (interval : Interval) (blockNumber : Nat)
    (transfer : Transfer) : Prop where
  consumed : ConsumedIn client transfer.nonce transfer.blockNumber
  behind : transfer.blockNumber ≤ blockNumber
  /-- It is the only transaction of the wallet with its nonce in that block. -/
  only : ∃ block transactions, client.blockAt transfer.blockNumber = some block ∧
    Treasury.hash (field "hash" block) = some transfer.blockHash ∧
    transactionsOf block = some transactions ∧
    (transactions.filter fun tx => IsOwn interval.address transfer.nonce tx) =
      [transfer.transactionResponse]
  hash : Treasury.hash (field "hash" transfer.transactionResponse) = some transfer.hash
  recipient : addr (field "to" transfer.transactionResponse) = some transfer.to_
  approved : transfer.to_ ∈ interval.recipients ∧ transfer.to_ ≠ interval.address
  plain : IsPlain transfer.transactionResponse
  value : amount (field "value" transfer.transactionResponse) = some transfer.value
  positive : 0 < transfer.value
  receipt : Receipted client interval transfer
  recipientThen : NoCode client (.recipientThen transfer.nonce) transfer.to_ transfer.blockNumber
  recipientNow : NoCode client (.recipientNow transfer.nonce) transfer.to_ blockNumber
  walletThen : NoCode client (.walletThen transfer.nonce) interval.address transfer.blockNumber

/-! ## One transaction -/

theorem locate_consumed {first last n high : Nat}
    (located : locate client first last n = some high) :
    ConsumedIn client n high ∧ high ≤ last := by
  simp only [locate, Option.bind_eq_bind, Option.bind_eq_some_iff, requireProof_eq_some] at located
  obtain ⟨atFirst, readFirst, atLast, readLast, -, ⟨small, large⟩, ⟨low, top⟩, narrowed, atLow,
    readLow, atHigh, readHigh, -, ⟨next, below, above⟩, same⟩ := located
  obtain rfl := Option.some.inj same
  have before : first < last := by
    by_contra late
    rw [narrow, if_neg (by omega), Option.some.injEq, Prod.mk.injEq] at narrowed
    omega
  have kept := narrow_brackets narrowed ⟨⟨_, readFirst, small⟩, _, readLast, large⟩ before
  refine ⟨⟨by omega, ?_⟩, kept.2.2.2⟩
  have low_eq : top - 1 = low := by omega
  rw [low_eq]
  exact kept.1

theorem noCode_of_require {read : CodeRead} {address : Text} {block : Nat} {value : Unit}
    (required : client.requireNoCode read address block = some value) :
    NoCode client read address block := by
  simp only [TreasuryReturnClient.requireNoCode, Option.bind_eq_bind, Option.bind_eq_some_iff,
    requireProof_eq_some] at required
  exact required

theorem sentOf_eq_some {high n : Nat} {blockHash : Text} {tx : ObjectValue} {sent : Sent} :
    sentOf interval high n blockHash tx = some sent ↔
      hash (field "hash" tx) = some sent.hash ∧ addr (field "to" tx) = some sent.to_ ∧
      (sent.to_ ∈ interval.recipients ∧ sent.to_ ≠ interval.address) ∧
      (bigint? (field "blockNumber" tx) = some (high : Int) ∧
        hash (field "blockHash" tx) = some blockHash) ∧
      (integer? (field "chainId" tx) = some (interval.chainId : Int) ∧
        nonce (field "nonce" tx) = some n) ∧
      IsPlain tx ∧ amount (field "value" tx) = some sent.value ∧ 0 < sent.value := by
  simp only [sentOf, Option.bind_eq_bind, Option.bind_eq_some_iff, requireProof_eq_some,
    Option.pure_def, Option.some.injEq]
  constructor
  · rintro ⟨txHash, hashed, to_, sentTo, -, approved, -, placed, -, named, -, plain, value, paid, -,
      positive, rfl⟩
    exact ⟨hashed, sentTo, approved, placed, named, plain, paid, positive⟩
  · rintro ⟨hashed, sentTo, approved, placed, named, plain, paid, positive⟩
    exact ⟨_, hashed, _, sentTo, (), approved, (), placed, (), named, (), plain, _, paid, (),
      positive, rfl⟩

theorem chargedOf_eq_some {high : Nat} {blockHash : Text} {sent : Sent} {tx receipt : ObjectValue}
    {charged : Charged}
    (checked : chargedOf interval high blockHash sent tx receipt = some charged) :
    IsReceiptOf interval high blockHash sent receipt ∧
      amount (field "gasUsed" receipt) = some charged.gasUsed ∧ charged.gasUsed = 21000 ∧
      amount (field "effectiveGasPrice" receipt) = some charged.effectiveGasPrice := by
  simp only [chargedOf, Option.bind_eq_bind, Option.bind_eq_some_iff, requireProof_eq_some,
    Option.pure_def, Option.some.injEq] at checked
  obtain ⟨-, own, used, readUsed, price, readPrice, -, -, gas, -, -, ⟨exact_, -⟩, -, -, rfl⟩ :=
    checked
  exact ⟨own, readUsed, exact_, readPrice⟩

theorem transferAt_shown {first blockNumber n : Nat} {transfer : Transfer}
    (found : transferAt client interval first blockNumber n = some transfer) :
    ShownAt client interval blockNumber transfer ∧ transfer.nonce = n := by
  simp only [transferAt, Option.bind_eq_bind, Option.bind_eq_some_iff, single_eq_some,
    Option.pure_def, Option.some.injEq] at found
  obtain ⟨high, located, block, readBlock, blockHash, hashed, transactions, listed, tx, only, sent,
    sentBy, answer, answered, receipt, isObject, charged, chargedBy, _, codeThen, _, codeNow, _,
    codeWallet, fees, counted, rfl⟩ := found
  obtain ⟨consumed, behind⟩ := locate_consumed located
  obtain ⟨txHash, sentTo, approved, -, -, plain, paid, positive⟩ := sentOf_eq_some.mp sentBy
  obtain ⟨own, used, exact_, price⟩ := chargedOf_eq_some chargedBy
  refine ⟨?_, rfl⟩
  exact
    { consumed := consumed
      behind := behind
      only := ⟨block, transactions, readBlock, hashed, listed, only⟩
      hash := txHash
      recipient := sentTo
      approved := approved
      plain := plain
      value := paid
      positive := positive
      receipt :=
        { answered := ⟨answer, answered, isObject⟩
          own := own
          gas := used
          gasOfTransfer := exact_
          price := price
          fees := counted }
      recipientThen := noCode_of_require codeThen
      recipientNow := noCode_of_require codeNow
      walletThen := noCode_of_require codeWallet }

/-! ## One view -/

section View

variable {blockNumber : Nat}

/-- The transactions of so many nonces are shown, and the totals are theirs. -/
structure ProgressShown (client : TreasuryReturnClient) (interval : Interval) (blockNumber : Nat)
    (transactions : List Transfer) (totalValueWei totalFeeWei count : Nat) : Prop where
  nonces : (transactions.map fun transfer => transfer.nonce) = List.range' interval.start count
  shown : ∀ transfer ∈ transactions, ShownAt client interval blockNumber transfer
  value : totalValueWei = (transactions.map fun transfer => transfer.value).sum
  fee : totalFeeWei = (transactions.map fun transfer => transfer.fee).sum
  within : totalFeeWei ≤ interval.feeAllowance

theorem ProgressShown.take {first count : Nat} {progress next : Progress}
    (shown : ProgressShown client interval blockNumber progress.transactions
      progress.totalValueWei progress.totalFeeWei count)
    (taken : takeTransfer client interval first blockNumber progress (interval.start + count) =
      some next) :
    ProgressShown client interval blockNumber next.transactions next.totalValueWei
      next.totalFeeWei (count + 1) := by
  simp only [takeTransfer, Option.bind_eq_bind, Option.bind_eq_some_iff, requireProof_eq_some,
    Option.pure_def, Option.some.injEq] at taken
  obtain ⟨transfer, found, -, within, rfl⟩ := taken
  obtain ⟨here, named⟩ := transferAt_shown found
  exact
    { nonces := by
        rw [List.map_append, shown.nonces, List.range'_1_concat, List.map_singleton, named]
      shown := by
        intro other listed
        rcases List.mem_append.mp listed with earlier | last
        · exact shown.shown other earlier
        · rw [List.mem_singleton.mp last]
          exact here
      value := by rw [List.map_append, List.sum_append, ← shown.value, List.map_singleton,
        List.sum_singleton]
      fee := by rw [List.map_append, List.sum_append, ← shown.fee, List.map_singleton,
        List.sum_singleton]
      within := within }

/-- The loop over the nonces shows them all. -/
theorem progress_shown {first count : Nat} {progress : Progress}
    (ran : (List.range' interval.start count).foldlM
      (takeTransfer client interval first blockNumber) ⟨[], 0, 0⟩ = some progress) :
    ProgressShown client interval blockNumber progress.transactions progress.totalValueWei
      progress.totalFeeWei count := by
  induction count generalizing progress with
  | zero =>
      obtain rfl := Option.some.inj ran
      exact
        { nonces := rfl
          shown := fun _ listed => absurd listed List.not_mem_nil
          value := rfl
          fee := rfl
          within := Nat.zero_le _ }
  | succ count ih =>
      rw [List.range'_1_concat, List.foldlM_append, Option.bind_eq_bind,
        Option.bind_eq_some_iff] at ran
      obtain ⟨middle, before, taken⟩ := ran
      rw [List.foldlM_cons, Option.bind_eq_bind, Option.bind_eq_some_iff] at taken
      obtain ⟨last, taken, rest⟩ := taken
      obtain rfl := Option.some.inj rest
      exact (ih before).take taken

/-- What a view holds was read from its provider, for every nonce of the interval. -/
structure ViewShown (client : TreasuryReturnClient) (interval : Interval) (blockNumber : Nat)
    (view : View) : Prop where
  progress : ProgressShown client interval blockNumber view.transactions view.totalValueWei
    view.totalFeeWei (interval.end_ - interval.start)
  counted : client.countAt blockNumber = some interval.end_
  balance : view.balance = interval.readingBalance
  noCode : NoCode client .walletNow interval.address blockNumber

theorem viewAt_shown {view : View} (viewed : viewAt client interval blockNumber = some view) :
    ViewShown client interval blockNumber view := by
  simp only [viewAt, Option.bind_eq_bind, Option.bind_eq_some_iff, requireProof_eq_some,
    Option.pure_def, Option.some.injEq] at viewed
  obtain ⟨common, -, atBlock, counted, atFirst, -, -, ⟨rfl, -⟩, answer, -, balance, -, -, rfl, _,
    noCode, progress, ran, -, -, -, -, -, -, -, -, -, -, timestamp, -, rfl⟩ := viewed
  exact
    { progress := progress_shown ran
      counted := counted
      balance := rfl
      noCode := noCode_of_require noCode }

end View

end MintBot.Treasury
