import MintBot.Treasury.Shown

/-!
# What a proof of returns stands for

Two views that are written as one text list the same transactions.  A proof is given only when two
different providers show, for every nonce between the baseline and the reading, the same plain
transfer to an approved address, and when these transfers account for the fall of the balance.
-/

namespace MintBot.Treasury

open Json Authority

section Views

variable (host : Host)

/-! ## Views with one text -/

theorem normalize_textValue (value : Text) :
    normalize host (textValue value) = some (.leaf (.string value)) :=
  rfl

theorem normalize_bigintValue (value : Nat) :
    normalize host (bigintValue value) =
      some (.object [(ascii "bigint", bigintLeaf value)]) :=
  rfl

theorem normalize_numberValue (value : Nat) :
    normalize host (numberValue value) = some (integerLeaf value) :=
  rfl

theorem bigint_inj {left right : Nat} :
    Document.object [(ascii "bigint", bigintLeaf left)] =
        Document.object [(ascii "bigint", bigintLeaf right)] ↔ left = right := by
  constructor
  · intro same
    simp only [Document.object.injEq, List.cons.injEq, Prod.mk.injEq, true_and, and_true] at same
    exact Int.ofNat_inj.mp (bigintLeaf_injective same)
  · rintro rfl
    rfl

theorem integerLeaf_inj {left right : Nat} :
    integerLeaf (left : Int) = integerLeaf (right : Int) ↔ left = right := by
  rw [integerLeaf_injective.eq_iff, Int.ofNat_inj]

theorem nodup_transferMembers (address : Text) (transfer : Transfer) :
    ((transfer.members address).map Prod.fst).Nodup := by
  have names : (transfer.members address).map Prod.fst =
      ["hash", "nonce", "blockNumber", "blockHash", "from", "to", "chainId", "type", "input",
        "value", "gas", "gasPrice", "maxFeePerGas", "maxPriorityFeePerGas", "gasUsed", "effectiveGasPrice",
        "l1Fee", "operatorFee", "transactionResponse", "receiptResponse"].map ascii := rfl
  rw [names]
  decide

theorem nodup_viewMembers (address : Text) (view : View) :
    ((view.members address).map Prod.fst).Nodup := by
  have names : (view.members address).map Prod.fst =
      ["blockHash", "timestamp", "balance", "transactions", "totalValueWei", "totalFeeWei"].map
        ascii := rfl
  rw [names]
  decide

/-- Transactions that are the same after `normalize` have the same facts. -/
theorem facts_of_normalize_eq (address : Text) {left right : Transfer}
    (same : normalize host (left.document address) = normalize host (right.document address)) :
    left.toTransferFacts = right.toTransferFacts := by
  have names : (left.members address).map Prod.fst = (right.members address).map Prod.fst := rfl
  have fields := fields_of_normalize_eq host (nodup_transferMembers address left) names same
  simp only [Transfer.members, List.map_cons, Document.onValue, normalize_textValue,
    normalize_bigintValue, normalize_numberValue, List.cons.injEq, Prod.mk.injEq, true_and,
    Option.some.injEq, Document.leaf.injEq, Scalar.string.injEq, bigint_inj,
    integerLeaf_inj] at fields
  obtain ⟨hash, nonce, block, blockHash, recipient, -, -, -, value, -, -, -, -, gas, price, l1Fee,
    operatorFee, -⟩ := fields
  exact TransferFacts.ext hash nonce block blockHash recipient value gas price
    (OtherFees.ext l1Fee operatorFee)

/-- Lists that one function maps to the same list are mapped to the same list by every function
whose values it decides. -/
theorem map_eq_map_of {α β γ : Type} {f : α → β} {g : α → γ}
    (decides : ∀ first second, f first = f second → g first = g second) {left right : List α}
    (same : left.map f = right.map f) : left.map g = right.map g := by
  induction left generalizing right with
  | nil => rw [List.map_eq_nil_iff.mp same.symm]
  | cons first left ih =>
      cases right with
      | nil => cases same
      | cons second right =>
          obtain ⟨here, later⟩ := List.cons_eq_cons.mp same
          rw [List.map_cons, List.map_cons, decides first second here, ih later]

/-- Views that are written as one text list the same facts. -/
theorem facts_of_stable_eq {address : Text} {left right : View}
    (same : stable host (left.document address) = stable host (right.document address)) :
    left.transactions.map Transfer.toTransferFacts =
      right.transactions.map Transfer.toTransferFacts := by
  have defined : normalize host (left.document address) ≠ none := by
    rw [View.document, normalize_object]
    exact Option.some_ne_none _
  have names : (left.members address).map Prod.fst = (right.members address).map Prod.fst := rfl
  have fields := fields_of_normalize_eq host (nodup_viewMembers address left) names
    (normalize_eq_of_stable_eq host defined same)
  simp only [View.members, List.map_cons, Document.onValue, normalize_array, List.cons.injEq,
    Prod.mk.injEq, true_and, Option.some.injEq, Document.array.injEq, List.map_map] at fields
  obtain ⟨-, -, -, transactions, -⟩ := fields
  refine map_eq_map_of (fun first second alike => facts_of_normalize_eq host address ?_)
    transactions
  simp only [Function.comp_apply, Transfer.document, normalize_object, Option.getD_some] at alike ⊢
  rw [alike]

/-! ## Proofs -/

/-- What a proof stands for, with the transfers behind it. -/
structure Corroborated (interval : Interval) (clients : List TreasuryReturnClient)
    (transfers : List TransferFacts) (proof : TreasuryReturnProof) : Prop where
  nonces : (transfers.map fun facts => facts.nonce) =
    List.range' proof.fromNonce (proof.toNonce - proof.fromNonce)
  shown : ∀ client ∈ clients, ∀ facts ∈ transfers, ∃ transfer : Transfer,
    transfer.toTransferFacts = facts ∧ ShownAt client interval proof.blockNumber transfer
  counted : ∀ client ∈ clients, client.countAt proof.blockNumber = some proof.toNonce
  noCode : ∀ client ∈ clients,
    NoCode client .walletNow proof.address proof.blockNumber
  hashes : proof.hashes = transfers.map fun facts => facts.hash
  value : proof.totalValueWei = (transfers.map fun facts => facts.value).sum
  fee : proof.totalFeeWei = (transfers.map fun facts => facts.fee).sum
  within : proof.totalFeeWei ≤ interval.feeAllowance
  fall : interval.baselineBalance ≤
    proof.balanceWei + proof.totalValueWei + proof.totalFeeWei + interval.allowedFall

/-- Facts that both views list are shown by both providers. -/
theorem shown_of_facts {client : TreasuryReturnClient} {interval : Interval} {blockNumber : Nat}
    {view : View} (viewed : ViewShown client interval blockNumber view) {facts : TransferFacts}
    (listed : facts ∈ view.transactions.map Transfer.toTransferFacts) :
    ∃ transfer : Transfer, transfer.toTransferFacts = facts ∧
      ShownAt client interval blockNumber transfer := by
  obtain ⟨transfer, member, same⟩ := List.mem_map.mp listed
  exact ⟨transfer, same, viewed.progress.shown transfer member⟩

theorem concludes_fall {interval : Interval} {occasion : Occasion} {view : View} {value : Unit}
    (concluded : concludes interval occasion view = some value) :
    interval.baselineBalance - interval.readingBalance ≤
      view.totalValueWei + view.totalFeeWei + interval.allowedFall := by
  simp only [concludes, Option.bind_eq_bind, Option.bind_eq_some_iff,
    requireProof_eq_some] at concluded
  obtain ⟨-, -, now, -, -, -, -, -, within⟩ := concluded
  exact within

/-- A proof is given only for transfers that two different providers show alike, one for each
nonce from the baseline to the reading, and only when they account for the fall. -/
theorem returns_corroborated {input : TreasuryReturnInput} {clients : List TreasuryReturnClient}
    {occasion : Occasion} {proof : TreasuryReturnProof}
    (verified : verifyTrustedTreasuryReturns host input clients occasion = some proof) :
    (∃ first second, clients = [first, second] ∧ first.identity ≠ second.identity) ∧
      ∃ interval transfers, intervalOf host input = some interval ∧
        proof.address = interval.address ∧ proof.fromNonce = interval.start ∧
        proof.toNonce = interval.end_ ∧ proof.balanceWei = interval.readingBalance ∧
        Corroborated interval clients transfers proof := by
  simp only [verifyTrustedTreasuryReturns, Option.bind_eq_bind, Option.bind_eq_some_iff,
    requireProof_eq_some, pair_eq_some, Option.pure_def, Option.some.injEq] at verified
  obtain ⟨⟨first, second⟩, two, -, different, interval, inputs, firstHead, -, secondHead, -, -, -,
    view, viewed, other, otherViewed, -, same, _, concluded, rfl⟩ := verified
  have firstShown := viewAt_shown viewed
  have secondShown := viewAt_shown otherViewed
  have alike := facts_of_stable_eq host same
  refine ⟨⟨first, second, two, different⟩, interval, view.transactions.map Transfer.toTransferFacts,
    inputs, rfl, rfl, rfl, rfl, ?_⟩
  subst two
  exact
    { nonces := by
        rw [List.map_map]
        exact firstShown.progress.nonces
      shown := by
        intro client listed facts member
        rcases List.mem_pair.mp listed with rfl | rfl
        · exact shown_of_facts firstShown member
        · exact shown_of_facts secondShown (alike ▸ member)
      counted := by
        intro client listed
        rcases List.mem_pair.mp listed with rfl | rfl
        · exact firstShown.counted
        · exact secondShown.counted
      noCode := by
        intro client listed
        rcases List.mem_pair.mp listed with rfl | rfl
        · exact firstShown.noCode
        · exact secondShown.noCode
      hashes := by rw [List.map_map]; rfl
      value := by
        rw [List.map_map]
        exact firstShown.progress.value
      fee := by
        rw [List.map_map]
        exact firstShown.progress.fee
      within := firstShown.progress.within
      fall := by
        have within := concludes_fall concluded
        dsimp only
        omega }

end Views

/-! ## One return -/

namespace Sample

def wallet : Text := ascii "0x" ++ List.replicate 40 0x31
def treasury : Text := ascii "0x" ++ List.replicate 40 0x32
def hashText (letter : CodeUnit) : Text := ascii "0x" ++ List.replicate 64 letter

/-- Names are compared without regard to letter case first. -/
def localeCompare : Text → Text → Int
  | [], [] => 0
  | [], _ => -1
  | _, [] => 1
  | left :: lefts, right :: rights =>
      if lowerUnit left = lowerUnit right then localeCompare lefts rights
      else if lowerUnit left < lowerUnit right then -1
      else 1

def host : Host where
  localeCompare := localeCompare
  parseDate := fun text => if text = ascii "1970-01-01T00:00:00.000Z" then some 0 else none

def leaves (fields : List (String × AnswerLeaf)) : ObjectValue :=
  fields.map fun entry => (ascii entry.1, .leaf entry.2)

def number (value : Int) : AnswerLeaf := .scalar (.number (Number.ofInteger value))

def text (value : Text) : AnswerLeaf := .scalar (.string value)

def answer (value : AnswerLeaf) : Answer :=
  ⟨.leaf value, .leaf _⟩

theorem proper_leaves (fields : List (String × AnswerLeaf)) :
    ∀ member ∈ leaves fields, member.2.Proper := by
  intro member listed
  obtain ⟨entry, -, rfl⟩ := List.mem_map.mp listed
  exact .leaf _

/-- The transaction with nonce 5. -/
def transaction : ObjectValue :=
  leaves [("from", text wallet), ("nonce", number 5), ("hash", text (hashText 0x61)),
    ("to", text treasury), ("blockNumber", .bigint 3), ("blockHash", text (hashText 0x62)),
    ("chainId", number 1), ("input", text (ascii "0x")), ("type", text (ascii "legacy")),
    ("value", .bigint 1000), ("gas", .bigint 21000), ("gasPrice", .bigint 1)]

def receipt : ObjectValue :=
  leaves [("transactionHash", text (hashText 0x61)), ("blockNumber", .bigint 3),
    ("blockHash", text (hashText 0x62)), ("from", text wallet), ("to", text treasury),
    ("status", text (ascii "success")), ("contractAddress", .scalar .null),
    ("gasUsed", .bigint 21000), ("effectiveGasPrice", .bigint 1)]

def block (n : Int) (letter : CodeUnit) (transactions : List ObjectValue) : ObjectValue :=
  leaves [("number", .bigint n), ("hash", text (hashText letter)), ("timestamp", .bigint 1000)] ++
    [(ascii "transactions", .array (transactions.map .object))]

theorem names_transaction : (transaction.map Prod.fst).Nodup ∧
    ∀ key ∈ transaction.map Prod.fst, arrayIndex? key = none := by
  decide +kernel

theorem names_receipt : (receipt.map Prod.fst).Nodup ∧
    ∀ key ∈ receipt.map Prod.fst, arrayIndex? key = none := by
  decide +kernel

theorem names_block (n : Int) (letter : CodeUnit) (transactions : List ObjectValue) :
    ((block n letter transactions).map Prod.fst).Nodup ∧
      ∀ key ∈ (block n letter transactions).map Prod.fst, arrayIndex? key = none := by
  have names : (block n letter transactions).map Prod.fst =
      ["number", "hash", "timestamp", "transactions"].map ascii := by
    simp only [block, leaves, List.map_cons, List.map_nil, List.cons_append, List.nil_append]
  rw [names]
  decide +kernel

theorem proper_object {members : ObjectValue}
    (names : (members.map Prod.fst).Nodup ∧ ∀ key ∈ members.map Prod.fst, arrayIndex? key = none)
    (values : ∀ member ∈ members, member.2.Proper) : (Document.object members).Proper :=
  .object members (ownMembers_of_sublist (List.Sublist.refl _) names.1 names.2) values

def blockAnswer (n : Int) (letter : CodeUnit) (transactions : List ObjectValue)
    (proper : ∀ tx ∈ transactions, (Document.object tx).Proper) : Answer where
  document := .object (block n letter transactions)
  proper := by
    refine proper_object (names_block n letter transactions) fun member listed => ?_
    rcases List.mem_append.mp listed with leaf | last
    · exact proper_leaves _ member leaf
    · rw [List.mem_singleton.mp last]
      refine .array _ fun item known => ?_
      obtain ⟨tx, mined, rfl⟩ := List.mem_map.mp known
      exact proper tx mined

/-- A provider that has seen the return in block 3 and answers up to block 7. -/
def client (identity : Nat) : TreasuryReturnClient where
  identity := identity
  getChainId := some (answer (number 1))
  getBlockNumber := some (answer (.bigint 7))
  getTransactionCount := fun blockNumber =>
    some (answer (number (if blockNumber < 3 then 5 else 6)))
  getBlock := fun blockNumber =>
    if blockNumber = 3 then
      some (blockAnswer 3 0x62 [transaction] (List.forall_mem_singleton.mpr
        (proper_object names_transaction (proper_leaves _))))
    else if blockNumber = 5 then
      some (blockAnswer 5 0x63 [] fun _ none => absurd none List.not_mem_nil)
    else none
  getBlockAgain := some (blockAnswer 5 0x63 [] fun _ none => absurd none List.not_mem_nil)
  getBalance := fun _ => some (answer (.bigint 978000))
  getCode := fun _ _ _ => some (answer (text (ascii "0x")))
  getTransactionReceipt := fun _ _ =>
    some ⟨.object receipt, proper_object names_receipt (proper_leaves _)⟩

def input : TreasuryReturnInput where
  chainId := 1
  address := wallet
  baselineNonce := 5
  baselineBalanceWei := ascii "1000000"
  baselineObservedAt := ascii "1970-01-01T00:00:00.000Z"
  readingNonce := 6
  readingBalanceWei := 978000
  knownNextNonce := none
  allowedFallWei := 0
  approvedRecipients := [treasury]
  feeAllowanceWei := 30000

def proof : TreasuryReturnProof where
  chainId := 1
  address := wallet
  fromNonce := 5
  toNonce := 6
  nonce := 6
  balanceWei := 978000
  baselineNonce := 5
  baselineBalanceWei := ascii "1000000"
  baselineObservedAt := ascii "1970-01-01T00:00:00.000Z"
  hashes := [hashText 0x61]
  blockNumber := 5
  blockHash := hashText 0x63
  totalValueWei := 1000
  totalFeeWei := 21000

end Sample

theorem returns_corroborated_sample :
    (∃ first second, [Sample.client 0, Sample.client 1] = [first, second] ∧
        first.identity ≠ second.identity) ∧
      ∃ interval transfers, intervalOf Sample.host Sample.input = some interval ∧
        Sample.proof.address = interval.address ∧ Sample.proof.fromNonce = interval.start ∧
        Sample.proof.toNonce = interval.end_ ∧
        Sample.proof.balanceWei = interval.readingBalance ∧
        Corroborated interval [Sample.client 0, Sample.client 1] transfers Sample.proof := by
  have verified : verifyTrustedTreasuryReturns Sample.host Sample.input
      [Sample.client 0, Sample.client 1] ⟨some 1001000, true⟩ = some Sample.proof := by
    decide +kernel
  exact returns_corroborated Sample.host verified

/-! ## Finding the block -/

open Bisection

/-- With counts that do not fall, and a look back that is long enough, the block is found. -/
theorem locate_finds {client : TreasuryReturnClient} {counts : Nat → Nat} {first last n : Nat}
    (rises : Rises client.countAt counts first last) (before : first < last)
    (near : last - first ≤ MAX_LOOKBACK) (small : counts first ≤ n) (large : n < counts last) :
    ∃ high, locate client first last n = some high ∧
      ∀ block, first ≤ block → block ≤ last → (n < counts block ↔ high ≤ block) := by
  have readFirst := rises.reads first (le_refl _) before.le
  have readLast := rises.reads last before.le (le_refl _)
  have enough : last - first ≤ 2 ^ 17 := by
    unfold MAX_LOOKBACK at near
    omega
  have narrows : ∃ place, narrow client.countAt n 17 first last = some (place, place + 1) :=
    narrow_meets rises before enough
  obtain ⟨place, narrowed⟩ := narrows
  have kept := narrow_brackets narrowed ⟨⟨_, readFirst, small⟩, _, readLast, large⟩ before
  obtain ⟨brackets, above, -, below⟩ := kept
  obtain ⟨atLow, readLow, lowSmall⟩ := brackets.below
  obtain ⟨atHigh, readHigh, highLarge⟩ := brackets.above
  refine ⟨place + 1, ?_, fun block after behind =>
    brackets.first_above rises above below after behind⟩
  simp only [locate, Option.bind_eq_bind, Option.bind_eq_some_iff, requireProof_eq_some]
  exact ⟨_, readFirst, _, readLast, (), ⟨small, large⟩, (place, place + 1), narrowed, atLow,
    readLow, atHigh, readHigh, (), ⟨rfl, lowSmall, highLarge⟩, rfl⟩

theorem rises_client (identity first last : Nat) :
    Rises (Sample.client identity).countAt (fun block => if block < 3 then 5 else 6)
      first last where
  reads := by
    intro block _ _
    by_cases before : block < 3
    · simp only [TreasuryReturnClient.countAt, Sample.client, if_pos before]
      decide +kernel
    · simp only [TreasuryReturnClient.countAt, Sample.client, if_neg before]
      decide +kernel
  rises := by
    intro left right _ order _
    split_ifs <;> omega

/-- The block of nonce 5 is found. -/
theorem locate_finds_sample :
    ∃ high, locate (Sample.client 0) 0 5 5 = some high ∧
      ∀ block, 0 ≤ block → block ≤ 5 → (5 < (if block < 3 then 5 else 6) ↔ high ≤ block) :=
  locate_finds (rises_client 0 0 5) (by decide) (by decide) (by decide) (by decide)

end MintBot.Treasury
