import MintBot.Authority.AllowlistRoot

/-!
# What an accepted check says

Both checks compare the two views as texts, and equal texts are equal views.  A public check stands
at the instant at which it accepts.  An allowlist check has looked at the clock before its reads, so
that it stands only when the reads were quick enough for the age of the block.
-/

namespace MintBot.Authority

open Json

/-! ## The facts -/

/-- Both providers report the chain, and one block of a number. -/
structure SameBlock (intent : TransactionIntent) (first second : Client) (blockNumber : Int)
    (left right : Block) : Prop where
  number : commonBlock first second = some blockNumber
  firstChain : first.getChainId.value = some intent.chainId
  secondChain : second.getChainId.value = some intent.chainId
  firstBlock : (first.getBlock blockNumber).value = some left
  secondBlock : (second.getBlock blockNumber).value = some right
  hash : ∃ leftHash ∈ left.hash, ∃ rightHash ∈ right.hash, lower leftHash = lower rightHash

/-- The fee recipients that a provider reports. -/
def reportedFees (client : Client) (nftContract : Text) (blockNumber : Int) : Option (List Text) :=
  (client.readContract SEADROP_V1_ADDRESS .getAllowedFeeRecipients [nftContract]
    blockNumber).value.bind JsValue.addresses

/-- Both providers report these fee recipients, in any order and letter case. -/
def SameFees (first second : Client) (nftContract : Text) (blockNumber : Int) (fees : List Text) :
    Prop :=
  ∃ left right, reportedFees first nftContract blockNumber = some left ∧
    reportedFees second nftContract blockNumber = some right ∧
    (left.map lower).Perm fees ∧ (right.map lower).Perm fees

/-- What an accepted public check says at an instant. -/
structure PublicStands (codec : MintCodec) (intent : TransactionIntent) (first second : Client)
    (t : Int) (call : MintCall) (blockNumber : Int) (left right : Block) (drop : PublicDrop)
    (fees : List Text) (supply maximum : Option Int) : Prop where
  canonical : codec.decodeFunctionData intent.data = some call ∧
    lower (codec.encodeFunctionData call) = lower intent.data
  block : SameBlock intent first second blockNumber left right
  sameFees : SameFees first second call.nftContract blockNumber fees
  sameDrop : ∀ client ∈ [first, second],
    (client.readContract SEADROP_V1_ADDRESS .getPublicDrop [call.nftContract]
      blockNumber).value.bind publicDrop = some drop
  sameSupply : ∀ client ∈ [first, second],
    optionalSupply (client.readContract call.nftContract .totalSupply [] blockNumber) = some supply
  sameMaximum : ∀ client ∈ [first, second],
    optionalSupply (client.readContract call.nftContract .maxSupply [] blockNumber) = some maximum
  dated : Dated t left.timestamp ∧ Dated t right.timestamp
  price : drop.mintPrice = 0 ∧ intent.value = 0
  openAtBlock : drop.startTime ≤ left.timestamp ∧ left.timestamp ≤ drop.endTime
  openNow : drop.startTime ≤ t / 1000 ∧ t / 1000 ≤ drop.endTime
  quantity : call.quantity ≤ drop.maxTotalMintableByWallet ∧
    ∀ known ∈ supply, ∀ limit ∈ maximum, known + call.quantity ≤ limit
  recipient : FeeRecipientAllowed fees drop.restrictFeeRecipients call.feeRecipient

/-- What an accepted allowlist check says at an instant. -/
structure AllowlistStands (intent : TransactionIntent) (first second : Client) (t : Int)
    (proof : AllowlistProof) (blockNumber : Int) (left right : Block) (fees : List Text) : Prop where
  ofIntent : ∃ context ∈ intent.familyContext, context.allowlistProof = some proof
  chain : proof.chainId = intent.chainId
  block : SameBlock intent first second blockNumber left right
  sameFees : SameFees first second proof.nftContract blockNumber fees
  sameRoot : ∀ client ∈ [first, second], ∃ root,
    (client.readContract SEADROP_V1_ADDRESS .getAllowListMerkleRoot [proof.nftContract]
      blockNumber).value.bind JsValue.root = some root ∧ lower root = lower proof.root
  dated : Dated t left.timestamp ∧ Dated t right.timestamp
  recipient : FeeRecipientAllowed fees proof.restrictFeeRecipients proof.feeRecipient

/-- The two checks. -/
inductive Check
  | publicMint
  | allowlistMint
  deriving DecidableEq, Repr

/-- A check with its default clock: the instant at which its last read was done, when it accepts. -/
def Check.acceptedAt (codec : MintCodec) (intent : TransactionIntent) (clients : List Client)
    (start : Int) : Check → Option Int
  | .publicMint => assertIndependentPublicAuthority codec intent clients start
  | .allowlistMint => assertIndependentAllowlistAuthority intent clients start

def Check.Stands (codec : MintCodec) (intent : TransactionIntent) (first second : Client) (t : Int) :
    Check → Prop
  | .publicMint => ∃ call blockNumber left right drop fees supply maximum,
      PublicStands codec intent first second t call blockNumber left right drop fees supply maximum
  | .allowlistMint => ∃ proof blockNumber left right fees,
      AllowlistStands intent first second t proof blockNumber left right fees

/-- The blocks that the providers report are not too old at an instant. -/
def Recent (first second : Client) (t : Int) : Prop :=
  ∀ blockNumber ∈ commonBlock first second, ∀ client ∈ [first, second],
    ∀ block ∈ (client.getBlock blockNumber).value, t - block.timestamp * 1000 ≤ maxAgeMs

/-! ## Views -/

section Views

variable {codec : MintCodec} {intent : TransactionIntent} {first second : Client}
variable {rest : List Client} {start t : Int} {chainId now : Int}

theorem mint_of_canonicalMint {mint : Mint} (canonical : canonicalMint codec intent = some mint) :
    ∃ call, codec.decodeFunctionData intent.data = some call ∧
      lower (codec.encodeFunctionData call) = lower intent.data ∧ intent.value = 0 ∧
      mint = ⟨call.nftContract, call.feeRecipient, call.quantity⟩ := by
  simp only [canonicalMint, bind, Option.bind_eq_some_iff] at canonical
  obtain ⟨context, -, nftContract, -, feeRecipient, -, branch⟩ := canonical
  split_ifs at branch with valid
  obtain ⟨call, decoded, branch⟩ := Option.bind_eq_some_iff.mp branch
  split_ifs at branch with callValid
  obtain ⟨-, -, -, -, -, encoded⟩ := callValid
  exact ⟨call, decoded, encoded, valid.2.1, (Option.some.inj branch).symm⟩

/-- What a view of a public drop is made of. -/
structure PublicViewOf (reads : PublicReads) (chainId : Int) (view : PublicView) (block : Block)
    (hash : Text) (fees : List Text) : Prop where
  isChain : reads.chain.value = some chainId
  isBlock : reads.block.value = some block
  isHash : block.hash = some hash
  blockHash : view.blockHash = lower hash
  timestamp : view.timestamp = block.timestamp
  isDrop : reads.dropValue.value.bind publicDrop = some view.drop
  isFees : reads.feesValue.value.bind JsValue.addresses = some fees
  sortedFees : view.fees = sorted (fees.map lower)
  supply : optionalSupply reads.supply = some view.supply
  maximum : optionalSupply reads.maximum = some view.maximum

theorem publicViewOf {reads : PublicReads} {view : PublicView}
    (isView : reads.view chainId = some view) :
    ∃ block hash fees, PublicViewOf reads chainId view block hash fees := by
  simp only [PublicReads.view, bind, Option.bind_eq_some_iff] at isView
  obtain ⟨chain, isChain, block, isBlock, dropValue, isDrop, feesValue, isFees, supply, isSupply,
    maximum, isMaximum, hash, isHash, branch⟩ := isView
  split_ifs at branch with valid
  obtain ⟨fees, readFees, branch⟩ := Option.bind_eq_some_iff.mp branch
  obtain ⟨drop, readDrop, branch⟩ := Option.bind_eq_some_iff.mp branch
  obtain rfl := Option.some.inj branch
  exact ⟨block, hash, fees, valid.1 ▸ isChain, isBlock, isHash, rfl, rfl,
    Option.bind_eq_some_iff.mpr ⟨_, isDrop, readDrop⟩,
    Option.bind_eq_some_iff.mpr ⟨_, isFees, readFees⟩, rfl, isSupply, isMaximum⟩

/-- What a view of an allowlist is made of. -/
structure AllowlistViewOf (reads : AllowlistReads) (chainId now : Int) (view : AllowlistView)
    (block : Block) (hash root : Text) (fees : List Text) : Prop where
  isChain : reads.chain.value = some chainId
  isBlock : reads.block.value = some block
  isHash : block.hash = some hash
  blockHash : view.blockHash = lower hash
  dated : Dated now block.timestamp
  isRoot : reads.rootValue.value.bind JsValue.root = some root
  lowerRoot : view.root = lower root
  isFees : reads.feesValue.value.bind JsValue.addresses = some fees
  sortedFees : view.fees = sorted (fees.map lower)

theorem allowlistViewOf {reads : AllowlistReads} {view : AllowlistView}
    (isView : reads.view chainId now = some view) :
    ∃ block hash root fees, AllowlistViewOf reads chainId now view block hash root fees := by
  simp only [AllowlistReads.view, bind, Option.bind_eq_some_iff] at isView
  obtain ⟨chain, isChain, block, isBlock, rootValue, isRoot, feesValue, isFees, hash, isHash,
    branch⟩ := isView
  split_ifs at branch with valid
  obtain ⟨root, readRoot, branch⟩ := Option.bind_eq_some_iff.mp branch
  obtain ⟨fees, readFees, branch⟩ := Option.bind_eq_some_iff.mp branch
  obtain rfl := Option.some.inj branch
  exact ⟨block, hash, root, fees, valid.1 ▸ isChain, isBlock, isHash, rfl, valid.2.2,
    Option.bind_eq_some_iff.mpr ⟨_, isRoot, readRoot⟩, rfl,
    Option.bind_eq_some_iff.mpr ⟨_, isFees, readFees⟩, rfl⟩

/-! ## Equal texts -/

theorem proper_drop (drop : PublicDrop) : drop.document.Proper := by
  apply proper_object
  · simp only [List.map_cons, List.map_nil]
    decide
  · simp only [List.map_cons, List.map_nil]
    decide
  · simp [integerLeaf, bigintLeaf, textLeaf, Document.Proper.leaf]

theorem proper_supply (supply : Option Int) : (supplyDocument supply).Proper := by
  cases supply with
  | none =>
      apply proper_object
      · decide
      · decide
      · simp [Document.Proper.leaf]
  | some value =>
      apply proper_object
      · simp only [List.map_cons, List.map_nil]
        decide
      · simp only [List.map_cons, List.map_nil]
        decide
      · simp [bigintLeaf, textLeaf, Document.Proper.leaf]

theorem proper_publicView (view : PublicView) : view.document.Proper := by
  apply proper_object
  · simp only [List.map_cons, List.map_nil]
    decide
  · simp only [List.map_cons, List.map_nil]
    decide
  · simp [bigintLeaf, textLeaf, Document.Proper.leaf, proper_drop, proper_supply,
      proper_textsDocument]

theorem proper_allowlistView (view : AllowlistView) : view.document.Proper := by
  apply proper_object
  · simp only [List.map_cons, List.map_nil]
    decide
  · simp only [List.map_cons, List.map_nil]
    decide
  · simp [textLeaf, Document.Proper.leaf, proper_textsDocument]

theorem dropDocument_injective : Function.Injective PublicDrop.document := by
  rintro ⟨price, start, stop, perWallet, bps, restricted⟩ ⟨price', start', stop', perWallet', bps',
    restricted'⟩ same
  simpa [PublicDrop.document, bigintLeaf_injective.eq_iff, integerLeaf_injective.eq_iff] using same

theorem supplyDocument_injective : Function.Injective supplyDocument := by
  intro left right same
  cases left with
  | none =>
      cases right with
      | none => rfl
      | some value => simp [supplyDocument] at same
  | some value =>
      cases right with
      | none => simp [supplyDocument] at same
      | some value' => simpa [supplyDocument, bigintLeaf_injective.eq_iff] using same

theorem publicDocument_injective : Function.Injective PublicView.document := by
  rintro ⟨hash, timestamp, drop, fees, supply, maximum⟩ ⟨hash', timestamp', drop', fees', supply',
    maximum'⟩ same
  simpa [PublicView.document, textLeaf_injective.eq_iff, bigintLeaf_injective.eq_iff,
    dropDocument_injective.eq_iff, textsDocument_injective.eq_iff,
    supplyDocument_injective.eq_iff] using same

theorem allowlistDocument_injective : Function.Injective AllowlistView.document := by
  rintro ⟨hash, root, fees⟩ ⟨hash', root', fees'⟩ same
  simpa [AllowlistView.document, textLeaf_injective.eq_iff, textsDocument_injective.eq_iff]
    using same

/-! ## Accepted checks -/

theorem le_headsAt (first second : Client) (start : Int) : start ≤ headsAt first second start := by
  unfold headsAt
  omega

/-- Two lists of fee recipients that are the same in order. -/
theorem sameFees_of_sorted {nftContract : Text} {blockNumber : Int} {left right : List Text}
    (isLeft : reportedFees first nftContract blockNumber = some left)
    (isRight : reportedFees second nftContract blockNumber = some right)
    (same : sorted (left.map lower) = sorted (right.map lower)) :
    SameFees first second nftContract blockNumber (sorted (left.map lower)) :=
  ⟨left, right, isLeft, isRight, (sorted_perm _).symm, same ▸ (sorted_perm _).symm⟩

/-- What the checks of a public view exclude. -/
theorem publicViewError_eq_none {mint : Mint} {view : PublicView} {nowMs : Int}
    (passed : publicViewError mint view nowMs = none) :
    Dated nowMs view.timestamp ∧ view.drop.mintPrice = 0 ∧
      ¬ StageNotOpen view.drop view.timestamp (nowMs / 1000) ∧
      mint.quantity ≤ view.drop.maxTotalMintableByWallet ∧ ¬ SupplyExceeded view mint.quantity ∧
      FeeRecipientAllowed view.fees view.drop.restrictFeeRecipients mint.recipient := by
  unfold publicViewError at passed
  split_ifs at passed with dated priced closed many exceeded allowed
  exact ⟨dated, not_not.mp priced, closed, not_lt.mp many, exceeded, allowed⟩

/-- A public check stands at the instant at which it accepts. -/
theorem publicStands_of_accepted
    (accepted : assertIndependentPublicAuthority codec intent (first :: second :: rest) start =
      some t) : Check.publicMint.Stands codec intent first second t := by
  simp only [assertIndependentPublicAuthority, bind, Option.bind_eq_some_iff] at accepted
  obtain ⟨mint, canonical, blockNumber, number, left, isLeft, right, isRight, branch⟩ := accepted
  obtain ⟨call, decoded, encoded, free, rfl⟩ := mint_of_canonicalMint canonical
  split_ifs at branch with different passed
  obtain rfl := Option.some.inj branch
  obtain rfl : left = right := publicDocument_injective
    (document_eq_of_text_eq (proper_publicView _) (proper_publicView _) (not_not.mp different))
  obtain ⟨leftBlock, leftHash, leftFees, ofLeft⟩ := publicViewOf isLeft
  obtain ⟨rightBlock, rightHash, rightFees, ofRight⟩ := publicViewOf isRight
  obtain ⟨dated, unpriced, isOpen, few, notExceeded, allowed⟩ := publicViewError_eq_none passed
  have sameTime : leftBlock.timestamp = rightBlock.timestamp :=
    ofLeft.timestamp.symm.trans ofRight.timestamp
  have dates := dated
  rw [ofLeft.timestamp] at dates isOpen
  simp only [StageNotOpen, not_or, not_lt, id_eq] at isOpen
  obtain ⟨-, -, blockStart, blockEnd, wallStart, wallEnd⟩ := isOpen
  refine ⟨call, blockNumber, leftBlock, rightBlock, left.drop, left.fees, left.supply,
    left.maximum, ⟨decoded, encoded⟩, ?_, ?_, ?_, ?_, ?_, ⟨dates, sameTime ▸ dates⟩,
    ⟨unpriced, free⟩, ⟨blockStart, blockEnd⟩, ⟨wallStart, wallEnd⟩, ⟨few, ?_⟩, allowed⟩
  · exact ⟨number, ofLeft.isChain, ofRight.isChain, ofLeft.isBlock, ofRight.isBlock,
      leftHash, ofLeft.isHash, rightHash, ofRight.isHash,
      ofLeft.blockHash.symm.trans ofRight.blockHash⟩
  · rw [ofLeft.sortedFees]
    exact sameFees_of_sorted ofLeft.isFees ofRight.isFees
      (ofLeft.sortedFees.symm.trans ofRight.sortedFees)
  · simpa using ⟨ofLeft.isDrop, ofRight.isDrop⟩
  · simpa using ⟨ofLeft.supply, ofRight.supply⟩
  · simpa using ⟨ofLeft.maximum, ofRight.maximum⟩
  · intro known isKnown limit isLimit
    by_contra exceeded
    exact notExceeded ⟨known, isKnown, limit, isLimit, not_le.mp exceeded⟩

/-- What an accepted allowlist check has read, at the instant of the call. -/
theorem allowlistStands_iff_of_accepted
    (accepted : assertIndependentAllowlistAuthority intent (first :: second :: rest) start = some t) :
    Check.allowlistMint.Stands codec intent first second t ↔ Recent first second t := by
  simp only [assertIndependentAllowlistAuthority, allowlistAuthority, bind,
    Option.bind_eq_some_iff] at accepted
  obtain ⟨context, isContext, proof, isProof, blockNumber, number, left, isLeft, right, isRight,
    branch⟩ := accepted
  split_ifs at branch with different passed
  have afterStart : start ≤ t := by
    rw [← Option.some.inj branch]
    exact (le_headsAt first second start).trans (le_readsAt _ _)
  obtain rfl : left = right := allowlistDocument_injective
    (document_eq_of_text_eq (proper_allowlistView _) (proper_allowlistView _) (not_not.mp different))
  obtain ⟨leftBlock, leftHash, leftRoot, leftFees, ofLeft⟩ := allowlistViewOf isLeft
  obtain ⟨rightBlock, rightHash, rightRoot, rightFees, ofRight⟩ := allowlistViewOf isRight
  constructor
  · rintro ⟨_, otherNumber, otherLeft, otherRight, _, stands⟩ blockNumber isNumber client member
      block isBlock
    obtain rfl : otherNumber = blockNumber :=
      Option.some.inj (stands.block.number.symm.trans isNumber)
    rcases List.mem_pair.mp member with rfl | rfl
    · obtain rfl := Option.some.inj (stands.block.firstBlock.symm.trans isBlock)
      exact stands.dated.1.2
    · obtain rfl := Option.some.inj (stands.block.secondBlock.symm.trans isBlock)
      exact stands.dated.2.2
  · intro recent
    unfold allowlistViewError at passed
    split_ifs at passed with changed allowed
    obtain ⟨sameRoot, sameChain⟩ := not_or.mp changed
    have dated : ∀ block : Block, Dated start block.timestamp →
        t - block.timestamp * 1000 ≤ maxAgeMs → Dated t block.timestamp := by
      intro block atStart young
      exact ⟨by have := atStart.1; omega, young⟩
    refine ⟨proof, blockNumber, leftBlock, rightBlock, left.fees, ⟨context, isContext, isProof⟩,
      not_not.mp sameChain, ?_, ?_, ?_, ⟨?_, ?_⟩, allowed⟩
    · exact ⟨number, ofLeft.isChain, ofRight.isChain, ofLeft.isBlock, ofRight.isBlock,
        leftHash, ofLeft.isHash, rightHash, ofRight.isHash,
        ofLeft.blockHash.symm.trans ofRight.blockHash⟩
    · rw [ofLeft.sortedFees]
      exact sameFees_of_sorted ofLeft.isFees ofRight.isFees
        (ofLeft.sortedFees.symm.trans ofRight.sortedFees)
    · intro client member
      rcases List.mem_pair.mp member with rfl | rfl
      · exact ⟨leftRoot, ofLeft.isRoot, ofLeft.lowerRoot.symm.trans (not_not.mp sameRoot)⟩
      · exact ⟨rightRoot, ofRight.isRoot, ofRight.lowerRoot.symm.trans (not_not.mp sameRoot)⟩
    · exact dated leftBlock ofLeft.dated
        (recent blockNumber number first List.mem_cons_self leftBlock ofLeft.isBlock)
    · exact dated rightBlock ofRight.dated
        (recent blockNumber number second (List.mem_cons_of_mem _ (List.mem_singleton_self _))
          rightBlock ofRight.isBlock)

/-- An accepted check stands at the instant at which it accepts, a public one always, one of an
allowlist exactly when no reported block is too old by then. -/
theorem stands_iff_recent (check : Check)
    (accepted : check.acceptedAt codec intent (first :: second :: rest) start = some t) :
    check.Stands codec intent first second t ↔
      (check = .allowlistMint → Recent first second t) := by
  cases check with
  | publicMint =>
      have returned : assertIndependentPublicAuthority codec intent (first :: second :: rest) start =
        some t := accepted
      exact iff_of_true (publicStands_of_accepted returned) fun other => nomatch other
  | allowlistMint =>
      have returned : assertIndependentAllowlistAuthority intent (first :: second :: rest) start =
        some t := accepted
      rw [allowlistStands_iff_of_accepted returned]
      simp

end Views

/-! ## Slow reads -/

def sampleRoot : Text :=
  ascii "0x4f3a1bb2c7d3e5f60718293a4b5c6d7e8f90a1b2c3d4e5f60718293a4b5c6d7e"

def sampleFee : Text :=
  ascii "0x1111111111111111111111111111111111111111"

/-- A provider that takes five seconds for its head and one for every other read. -/
def sampleClient : Client where
  getBlockNumber := ⟨5000, some 100⟩
  getChainId := ⟨1000, some 1⟩
  getBlock _ := ⟨1000, some ⟨some sampleRoot, 1800000000⟩⟩
  readContract _ read _ _ :=
    ⟨1000, some (if read = .getAllowListMerkleRoot then .text sampleRoot
      else .array [.text sampleFee])⟩

def sampleIntent : TransactionIntent where
  chainId := 1
  value := 0
  to_ := SEADROP_V1_ADDRESS
  from_ := sampleFee
  campaignId := ascii "campaign"
  runId := ascii "run"
  data := ascii "0x"
  familyContext := some
    { nftContract := none
      feeRecipient := none
      allowlistProof := some
        { nftContract := sampleFee
          root := sampleRoot
          chainId := 1
          feeRecipient := sampleFee
          restrictFeeRecipients := true } }

/-- A codec that reads no call. -/
def sampleCodec : MintCodec where
  decodeFunctionData _ := none
  encodeFunctionData _ := []

/-- The block is 299 seconds old when the check begins, and 305 when it accepts. -/
theorem sample_accepted : assertIndependentAllowlistAuthority sampleIntent
    [sampleClient, sampleClient] 1800000299000 = some 1800000305000 := by
  decide +kernel

/-- A check can accept facts of a block that is too old by then. -/
theorem accepted_too_late : ¬ ∀ (check : Check) codec intent first second rest start t,
    check.acceptedAt codec intent (first :: second :: rest) start = some t →
      check.Stands codec intent first second t := by
  intro promised
  have stands := promised .allowlistMint sampleCodec sampleIntent sampleClient sampleClient []
    1800000299000 1800000305000 sample_accepted
  have recent := (allowlistStands_iff_of_accepted sample_accepted).mp stands
  have young := recent 98 rfl sampleClient List.mem_cons_self ⟨some sampleRoot, 1800000000⟩ rfl
  exact absurd young (by decide)

theorem stands_iff_recent_sample :
    Check.allowlistMint.Stands sampleCodec sampleIntent sampleClient sampleClient 1800000305000 ↔
      (Check.allowlistMint = .allowlistMint → Recent sampleClient sampleClient 1800000305000) :=
  stands_iff_recent .allowlistMint sample_accepted

end MintBot.Authority
