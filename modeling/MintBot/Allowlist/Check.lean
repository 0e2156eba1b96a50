import MintBot.Allowlist.PublishedList
import MintBot.Library.Table

/-!
# Allowlist verdicts

`checkAllowlist` tells for each of the owner's wallets whether a published list and the root on
chain prove it eligible, prove it excluded, or prove neither.  A proof of exclusion is about all
proofs of all lengths: it rests on the list that rebuilds the root, and on no two of the byte
strings that were hashed having one hash.
-/

namespace MintBot.Allowlist

open Json Fallible

inductive AllowlistVerdict where
  | eligible
  | notListed
  | unknown
  deriving DecidableEq

/-- What the project's list says an eligible wallet may mint. -/
structure EntryTerms where
  priceWei : String
  maxPerWallet : String
  opensAt : Text
  closesAt : Text
  deriving DecidableEq

structure WalletAllowlistResult where
  wallet : Text
  verdict : AllowlistVerdict
  reason : String
  entry : Option EntryTerms
  deriving DecidableEq

/-- The report; no list kind stands for `none`. -/
structure AllowlistReport where
  contract : Text
  onChainRoot : Option Word
  listKind : Option ListKind
  summary : String
  wallets : List WalletAllowlistResult
  deriving DecidableEq

variable (outside : Outside)

/-- The last instant that a `Date` can have, in seconds. -/
def lastDate : Nat := 8640000000000

/-- A later instant makes `toISOString` throw; up to that one, `Number` is exact. -/
def iso (seconds : Word) : Except Error Text :=
  if seconds = 0 then .ok (ascii "no end")
  else if seconds.val ≤ lastDate then .ok (outside.toISOString (seconds.val * 1000))
  else .error "Invalid time value"

def unknownRow (wallet : Text) (reason : String) : WalletAllowlistResult :=
  { wallet, verdict := .unknown, reason, entry := none }

/-- The value of `byWallet` for a wallet. -/
def entriesFor (entries : List (PublishedEntry outside)) (wallet : Text) :
    List (PublishedEntry outside) :=
  entries.filter fun entry => entry.address.map lowerUnit = wallet.map lowerUnit

/-- The tree of a list that claims to be complete. -/
def treeOf (list : PublishedList outside) : Except Error (Option Tree) :=
  match list.kind with
  | .fullList => do
      let leaves ← list.entries.mapM fun entry =>
        allowlistLeaf outside entry.address entry.mintParams
      .ok (some (buildTree outside.keccak256 leaves))
  | .proofs => .ok none

/-- The first of the entries whose proof verifies. -/
def firstProven (tree : Option Tree) (onChainRoot : Word) :
    List (PublishedEntry outside) → Except Error (Option (PublishedEntry outside))
  | [] => .ok none
  | entry :: rest => do
      let leaf ← allowlistLeaf outside entry.address entry.mintParams
      match entry.proof <|> tree.bind fun tree => tree.proofFor leaf with
      | some proof =>
          if verifyProof outside.keccak256 proof onChainRoot leaf then .ok (some entry)
          else firstProven tree onChainRoot rest
      | none => firstProven tree onChainRoot rest

def eligibleRow (wallet : Text) (params : MintParams) : Except Error WalletAllowlistResult := do
  let opensAt ← iso outside params.startTime
  let closesAt ← iso outside params.endTime
  .ok
    { wallet
      verdict := .eligible
      reason := "The project’s published list includes this wallet and its proof matches the contract’s allowlist."
      entry := some
        { priceWei := toString params.mintPrice.val
          maxPerWallet := toString params.maxTotalMintableByWallet.val
          opensAt
          closesAt } }

/-- The row of a wallet none of whose entries has a proof that verifies. -/
def unprovenRow (list : PublishedList outside) (entries : List (PublishedEntry outside))
    (completeList : Bool) (wallet : Text) : WalletAllowlistResult :=
  if entries ≠ [] then
    unknownRow wallet "The published list includes this wallet, but its proof does not match the contract’s current allowlist. The list may be out of date."
  else if completeList then
    { wallet
      verdict := .notListed
      reason := "The published list matches the contract’s allowlist and does not include this wallet."
      entry := none }
  else
    unknownRow wallet (match list.kind with
      | .proofs => "The project published proofs only for some wallets, and none is for this one. That does not prove it is excluded."
      | .fullList => "The published list does not rebuild into the contract’s allowlist, so it cannot show this wallet is excluded.")

/-- A full list is only trusted as complete when it rebuilds into the root held on chain. -/
def completeList (tree : Option Tree) (onChainRoot : Word) : Bool :=
  tree.any fun tree => tree.root = onChainRoot

def checkWallet (list : PublishedList outside) (tree : Option Tree) (onChainRoot : Word)
    (wallet : Text) : Except Error WalletAllowlistResult :=
  if isAddress outside wallet then do
    match ← firstProven outside tree onChainRoot (entriesFor outside list.entries wallet) with
    | some entry => eligibleRow outside wallet entry.mintParams
    | none =>
        .ok (unprovenRow outside list (entriesFor outside list.entries wallet)
          (completeList tree onChainRoot) wallet)
  else .ok (unknownRow wallet "That is not a valid wallet address.")

def count (results : List WalletAllowlistResult) (verdict : AllowlistVerdict) : String :=
  toString (results.filter fun item => item.verdict = verdict).length

def checkAllowlist (contract : Text) (wallets : List Text) (onChainRoot : Option Word)
    (list : Option (PublishedList outside)) : Except Error AllowlistReport :=
  let unknownAll (reason : String) : Except Error AllowlistReport := .ok
    { contract
      onChainRoot
      listKind := list.map PublishedList.kind
      summary := reason
      wallets := wallets.map fun wallet => unknownRow wallet reason }
  match onChainRoot with
  | none => unknownAll "The contract could not be read, so nothing can be confirmed. Try again shortly."
  | some root =>
      if root = zeroRoot then
        unknownAll "This contract has no allowlist set on chain (root is empty), so there is nothing to be eligible for yet."
      else
        match list with
        | none => unknownAll "No published allowlist or proof file was given. Download the one the project published and pass it in."
        | some list => do
            let tree ← treeOf outside list
            let results ← wallets.mapM (checkWallet outside list tree root)
            .ok
              { contract
                onChainRoot
                listKind := some list.kind
                summary := count results .eligible ++ " of " ++ toString results.length ++
                  " wallet(s) eligible, " ++ count results .notListed ++ " not listed, " ++
                  count results .unknown ++ " unknown."
                wallets := results }

/-! ## The entries of a list -/

/-- The leaf of an entry. -/
def leafOf (entry : PublishedEntry outside) : Word :=
  outside.keccak256 (leafWords entry.address entry.mintParams)

def leavesOf (list : PublishedList outside) : List Word :=
  list.entries.map (leafOf outside)

/-- The tree that `treeOf` gives. -/
def fullTree (list : PublishedList outside) : Option Tree :=
  if list.kind = .fullList then some (buildTree outside.keccak256 (leavesOf outside list))
  else none

/-- The proof of an entry verifies. -/
def proven (tree : Option Tree) (onChainRoot : Word) (entry : PublishedEntry outside) : Bool :=
  (entry.proof <|> tree.bind fun tree => tree.proofFor (leafOf outside entry)).any fun proof =>
    verifyProof outside.keccak256 proof onChainRoot (leafOf outside entry)

/-- The first entry of a wallet whose proof verifies. -/
def provenEntry (list : PublishedList outside) (onChainRoot : Word) (wallet : Text) :
    Option (PublishedEntry outside) :=
  (entriesFor outside list.entries wallet).find? (proven outside (fullTree outside list) onChainRoot)

theorem allowlistLeaf_entry (entry : PublishedEntry outside) :
    allowlistLeaf outside entry.address entry.mintParams = .ok (leafOf outside entry) :=
  allowlistLeaf_eq outside (hasAddressShape_of_isAddress outside entry.valid) entry.mintParams

theorem treeOf_eq (list : PublishedList outside) :
    treeOf outside list = .ok (fullTree outside list) := by
  unfold treeOf fullTree
  cases list.kind with
  | fullList =>
      have leaves : (list.entries.mapM fun entry =>
          allowlistLeaf outside entry.address entry.mintParams) = .ok (leavesOf outside list) := by
        refine mapM_eq_ok.mpr (List.forall₂_map_right_iff.mpr ?_)
        exact List.forall₂_same.mpr fun entry _ => allowlistLeaf_entry outside entry
      rw [leaves]
      rfl
  | proofs => rfl

theorem firstProven_eq (tree : Option Tree) (onChainRoot : Word)
    (entries : List (PublishedEntry outside)) :
    firstProven outside tree onChainRoot entries =
      .ok (entries.find? (proven outside tree onChainRoot)) := by
  induction entries with
  | nil => rfl
  | cons entry rest inductionHypothesis =>
      rw [firstProven, allowlistLeaf_entry, ok_bind, List.find?_cons, proven]
      cases entry.proof <|> tree.bind fun tree => tree.proofFor (leafOf outside entry) with
      | none => exact inductionHypothesis
      | some proof =>
          simp only [Option.any_some, inductionHypothesis]
          cases verifyProof outside.keccak256 proof onChainRoot (leafOf outside entry) with
          | false => rfl
          | true => rfl

/-! ## What the verdicts say -/

/-- No two of the byte strings have one hash. -/
def NoCollision (hashed : List (List Word)) : Prop :=
  ∀ first ∈ hashed, ∀ second ∈ hashed,
    outside.keccak256 first = outside.keccak256 second → first = second

instance (hashed : List (List Word)) : Decidable (NoCollision outside hashed) :=
  inferInstanceAs (Decidable (∀ first ∈ hashed, ∀ second ∈ hashed, _ → _))

/-- The byte strings that are hashed to build a list's tree and to check a proof on it for a
leaf. -/
def hashedFor (list : PublishedList outside) (leaf : List Word) (proof : List Word) :
    List (List Word) :=
  let pair := hashPair outside.keccak256
  (list.entries.map fun entry => leafWords entry.address entry.mintParams) ++
    ((Merkle.treePairs pair (sortLeaves (leavesOf outside list))).map fun nodes =>
      sortedPair nodes.1 nodes.2) ++
    leaf :: (Merkle.walkPairs pair (outside.keccak256 leaf) proof).map fun nodes =>
      sortedPair nodes.1 nodes.2

/-- A verdict on a wallet holds of the list and the root on chain. -/
structure Sound (onChainRoot : Option Word) (list : Option (PublishedList outside))
    (row : WalletAllowlistResult) : Prop where
  /-- A listed leaf of the wallet has a proof that verifies. -/
  eligible : row.verdict = .eligible →
    ∃ root ∈ onChainRoot, ∃ published ∈ list, ∃ entry ∈ published.entries, ∃ leaf proof,
      allowlistLeaf outside row.wallet entry.mintParams = .ok leaf ∧
        verifyProof outside.keccak256 proof root leaf = true
  /-- The list rebuilds the root, and no leaf of the wallet has a proof that verifies. -/
  notListed : row.verdict = .notListed →
    ∃ root ∈ onChainRoot, ∃ published ∈ list,
      (buildTree outside.keccak256 (leavesOf outside published)).root = root ∧
        ∀ params proof leaf, allowlistLeaf outside row.wallet params = .ok leaf →
          NoCollision outside (hashedFor outside published (leafWords row.wallet params) proof) →
          verifyProof outside.keccak256 proof root leaf = false

/-- Both times of an entry are ones that a `Date` can have. -/
def Shown (params : MintParams) : Prop :=
  params.startTime.val ≤ lastDate ∧ params.endTime.val ≤ lastDate

instance (params : MintParams) : Decidable (Shown params) :=
  inferInstanceAs (Decidable (_ ∧ _))

/-- The first entry of each wallet whose proof verifies has times that can be shown. -/
def DatesFit (wallets : List Text) (onChainRoot : Option Word)
    (list : Option (PublishedList outside)) : Prop :=
  ∀ root ∈ onChainRoot, root ≠ zeroRoot → ∀ published ∈ list, ∀ wallet ∈ wallets,
    isAddress outside wallet = true → ∀ entry ∈ provenEntry outside published root wallet,
      Shown entry.mintParams

theorem leafWords_ne_sortedPair (address : Text) (params : MintParams) (left right : Word) :
    leafWords address params ≠ sortedPair left right := by
  intro same
  have lengths := congrArg List.length same
  unfold sortedPair at lengths
  split at lengths <;> simp [leafWords] at lengths

theorem sortedPair_mem {left right first second : Word}
    (same : sortedPair left right = sortedPair first second) : left = first ∨ left = second := by
  have member : left ∈ sortedPair first second := by
    rw [← same, sortedPair]
    split <;> simp
  unfold sortedPair at member
  split at member
  · simpa using member
  · simpa [or_comm] using member

/-- Without a collision, a wallet with a verifying proof against the root of a list is on it. -/
theorem listed_of_verifies {list : PublishedList outside} {wallet : Text} {params : MintParams}
    {proof : List Word} {root : Word} (shape : hasAddressShape wallet = true)
    (built : Merkle.root (hashPair outside.keccak256) (sortLeaves (leavesOf outside list)) =
      some root)
    (noCollision : NoCollision outside (hashedFor outside list (leafWords wallet params) proof))
    (verifies : verifyProof outside.keccak256 proof root
      (outside.keccak256 (leafWords wallet params)) = true) :
    ∃ entry ∈ list.entries, entry.address.map lowerUnit = wallet.map lowerUnit := by
  have ends : Merkle.Node (hashPair outside.keccak256) (sortLeaves (leavesOf outside list))
      (Merkle.walk (hashPair outside.keccak256) (outside.keccak256 (leafWords wallet params))
        proof) := by
    rw [Merkle.walk, of_decide_eq_true verifies]
    exact Merkle.node_of_root _ built
  -- where the hashed byte strings stand in the list of all of them
  have ofEntry : ∀ entry ∈ list.entries, leafWords entry.address entry.mintParams ∈
      hashedFor outside list (leafWords wallet params) proof := fun entry member =>
    List.mem_append_left _ (List.mem_append_left _ (List.mem_map_of_mem member))
  have ofTree : ∀ nodes ∈ Merkle.treePairs (hashPair outside.keccak256)
      (sortLeaves (leavesOf outside list)), sortedPair nodes.1 nodes.2 ∈
        hashedFor outside list (leafWords wallet params) proof := fun nodes member =>
    List.mem_append_left _ (List.mem_append_right _ (List.mem_map_of_mem member))
  have ofWalk : ∀ nodes ∈ Merkle.walkPairs (hashPair outside.keccak256)
      (outside.keccak256 (leafWords wallet params)) proof, sortedPair nodes.1 nodes.2 ∈
        hashedFor outside list (leafWords wallet params) proof := fun nodes member =>
    List.mem_append_right _ (List.mem_cons_of_mem _ (List.mem_map_of_mem member))
  have ofLeaf : leafWords wallet params ∈
      hashedFor outside list (leafWords wallet params) proof :=
    List.mem_append_right _ List.mem_cons_self
  have entryOf : ∀ leaf ∈ sortLeaves (leavesOf outside list), ∃ entry ∈ list.entries,
      leafOf outside entry = leaf := fun leaf member =>
    List.mem_map.mp (mem_sortLeaves.mp member)
  have starts := Merkle.node_of_walk (hashPair outside.keccak256)
    (fun nodes walked member => by
      obtain ⟨entry, listed, same⟩ := entryOf _ member
      exact leafWords_ne_sortedPair _ _ _ _
        (noCollision _ (ofEntry entry listed) _ (ofWalk nodes walked) same))
    (fun nodes walked other hashed same =>
      sortedPair_mem (noCollision _ (ofWalk nodes walked) _ (ofTree other hashed) same)) ends
  rcases starts.origin with member | ⟨nodes, hashed, same⟩
  · obtain ⟨entry, listed, same⟩ := entryOf _ member
    have words : leafWords entry.address entry.mintParams = leafWords wallet params :=
      noCollision _ (ofEntry entry listed) _ ofLeaf same
    exact ⟨entry, listed, addressWord_inj (hasAddressShape_of_isAddress outside entry.valid) shape
      (List.cons.inj words).1⟩
  · exact absurd (noCollision _ ofLeaf _ (ofTree nodes hashed) same)
      (leafWords_ne_sortedPair _ _ _ _)

/-! ## Verdicts -/

theorem iso_ok {seconds : Word} : (∃ text, iso outside seconds = .ok text) ↔
    seconds.val ≤ lastDate := by
  unfold iso
  by_cases none : seconds = 0
  · rw [if_pos none, none]
    exact ⟨fun _ => Nat.zero_le _, fun _ => ⟨_, rfl⟩⟩
  · rw [if_neg none]
    by_cases fits : seconds.val ≤ lastDate
    · simp [fits]
    · simp [fits]

/-- An eligible wallet gets its row exactly when the times of its entry can be shown. -/
theorem eligibleRow_ok {wallet : Text} {params : MintParams} :
    (∃ row, eligibleRow outside wallet params = .ok row) ↔ Shown params := by
  rw [Shown, ← iso_ok outside, ← iso_ok outside]
  simp only [eligibleRow, bind_eq_ok]
  constructor
  · rintro ⟨row, opensAt, opens, closesAt, closes, -⟩
    exact ⟨⟨opensAt, opens⟩, ⟨closesAt, closes⟩⟩
  · rintro ⟨⟨opensAt, opens⟩, ⟨closesAt, closes⟩⟩
    exact ⟨_, opensAt, opens, closesAt, closes, rfl⟩

theorem eligibleRow_fields {wallet : Text} {params : MintParams} {row : WalletAllowlistResult}
    (made : eligibleRow outside wallet params = .ok row) :
    row.wallet = wallet ∧ row.verdict = .eligible := by
  simp only [eligibleRow, bind_eq_ok] at made
  obtain ⟨opensAt, -, closesAt, -, made⟩ := made
  obtain rfl := Except.ok.inj made
  exact ⟨rfl, rfl⟩

/-- What the check of a valid wallet comes to. -/
theorem checkWallet_valid {list : PublishedList outside} {root : Word} {wallet : Text}
    (valid : isAddress outside wallet = true) :
    checkWallet outside list (fullTree outside list) root wallet =
      match provenEntry outside list root wallet with
      | some entry => eligibleRow outside wallet entry.mintParams
      | none =>
          .ok (unprovenRow outside list (entriesFor outside list.entries wallet)
            (completeList (fullTree outside list) root) wallet) := by
  rw [checkWallet, if_pos valid, firstProven_eq, ok_bind]
  rfl

theorem checkWallet_ok {list : PublishedList outside} {root : Word} {wallet : Text} :
    (∃ row, checkWallet outside list (fullTree outside list) root wallet = .ok row) ↔
      (isAddress outside wallet = true → ∀ entry ∈ provenEntry outside list root wallet,
        Shown entry.mintParams) := by
  by_cases valid : isAddress outside wallet = true
  · rw [checkWallet_valid outside valid]
    cases provenEntry outside list root wallet with
    | none => simp
    | some entry => simpa [valid] using eligibleRow_ok outside
  · rw [checkWallet, if_neg valid]
    simp [valid]

theorem proven_verifies {tree : Option Tree} {root : Word} {entry : PublishedEntry outside}
    (verifies : proven outside tree root entry = true) :
    ∃ proof, verifyProof outside.keccak256 proof root (leafOf outside entry) = true := by
  obtain ⟨proof, -, verified⟩ := (Option.any_eq_true _ _).mp verifies
  exact ⟨proof, verified⟩

/-- A complete list rebuilds the root from at least one leaf. -/
theorem completeList_built {list : PublishedList outside} {root : Word} (set : root ≠ zeroRoot)
    (complete : completeList (fullTree outside list) root = true) :
    (buildTree outside.keccak256 (leavesOf outside list)).root = root ∧
      Merkle.root (hashPair outside.keccak256) (sortLeaves (leavesOf outside list)) =
        some root := by
  unfold fullTree at complete
  split at complete
  · have built := of_decide_eq_true complete
    refine ⟨built, ?_⟩
    unfold buildTree at built
    split at built
    · exact absurd built.symm set
    · dsimp only at built
      cases top : Merkle.root (hashPair outside.keccak256) (sortLeaves (leavesOf outside list)) with
      | none => exact absurd ((top ▸ built).symm) set
      | some top' => exact congrArg some (by simpa [top] using built)
  · exact nomatch complete

theorem unprovenRow_sound {list : PublishedList outside} {root : Word} {wallet : Text}
    (set : root ≠ zeroRoot) (shape : hasAddressShape wallet = true) :
    Sound outside (some root) (some list)
      (unprovenRow outside list (entriesFor outside list.entries wallet)
        (completeList (fullTree outside list) root) wallet) := by
  unfold unprovenRow
  split
  · exact ⟨nofun, nofun⟩
  rename_i none
  split
  · rename_i complete
    obtain ⟨rebuilt, built⟩ := completeList_built outside set complete
    refine ⟨nofun, fun _ => ⟨root, rfl, list, rfl, rebuilt, ?_⟩⟩
    intro params proof leaf leafOfWallet noCollision
    rw [allowlistLeaf_eq outside shape params] at leafOfWallet
    obtain rfl := Except.ok.inj leafOfWallet
    refine Bool.eq_false_iff.mpr fun verifies => none ?_
    obtain ⟨entry, listed, same⟩ := listed_of_verifies outside shape built noCollision verifies
    exact List.ne_nil_of_mem (List.mem_filter.mpr ⟨listed, decide_eq_true same⟩)
  · exact ⟨nofun, nofun⟩

theorem unprovenRow_wallet (list : PublishedList outside)
    (entries : List (PublishedEntry outside)) (complete : Bool) (wallet : Text) :
    (unprovenRow outside list entries complete wallet).wallet = wallet := by
  unfold unprovenRow
  split
  · rfl
  split <;> rfl

/-- Every row that a check gives is about its wallet and sound. -/
theorem checkWallet_sound {list : PublishedList outside} {root : Word} {wallet : Text}
    {row : WalletAllowlistResult} (set : root ≠ zeroRoot)
    (checked : checkWallet outside list (fullTree outside list) root wallet = .ok row) :
    row.wallet = wallet ∧ Sound outside (some root) (some list) row := by
  by_cases valid : isAddress outside wallet = true
  · rw [checkWallet_valid outside valid] at checked
    have shape := hasAddressShape_of_isAddress outside valid
    cases found : provenEntry outside list root wallet with
    | some entry =>
        rw [found] at checked
        obtain ⟨rfl, eligible⟩ := eligibleRow_fields outside checked
        obtain ⟨listed, same⟩ := List.mem_filter.mp (List.mem_of_find?_eq_some found)
        obtain ⟨proof, verified⟩ := proven_verifies outside (List.find?_some found)
        have words : leafWords entry.address entry.mintParams =
            leafWords row.wallet entry.mintParams := by
          rw [leafWords, leafWords, addressWord_congr (of_decide_eq_true same)]
        have leaf := allowlistLeaf_eq outside shape entry.mintParams
        rw [← words] at leaf
        refine ⟨rfl, fun _ => ?_, fun notListed => ?_⟩
        · exact ⟨root, rfl, list, rfl, entry, listed, _, proof, leaf, verified⟩
        · cases eligible.symm.trans notListed
    | none =>
        rw [found] at checked
        obtain rfl := Except.ok.inj checked
        have named := unprovenRow_wallet outside list (entriesFor outside list.entries wallet)
          (completeList (fullTree outside list) root) wallet
        exact ⟨named, unprovenRow_sound outside set shape⟩
  · rw [checkWallet, if_neg valid] at checked
    obtain rfl := Except.ok.inj checked
    refine ⟨rfl, fun eligible => ?_, fun notListed => ?_⟩
    · cases eligible
    · cases notListed

theorem unknownRows_sound (wallets : List Text) (reason : String) (onChainRoot : Option Word)
    (list : Option (PublishedList outside)) :
    (wallets.map fun wallet => unknownRow wallet reason).map WalletAllowlistResult.wallet =
        wallets ∧
      ∀ row ∈ wallets.map fun wallet => unknownRow wallet reason,
        Sound outside onChainRoot list row := by
  constructor
  · rw [List.map_map]
    exact List.map_id' _
  · intro row member
    obtain ⟨wallet, -, rfl⟩ := List.mem_map.mp member
    exact ⟨nofun, nofun⟩

def firstWallet : Text := ascii "0x1111111111111111111111111111111111111111"
def secondWallet : Text := ascii "0x2222222222222222222222222222222222222222"
def thirdWallet : Text := ascii "0x3333333333333333333333333333333333333333"

/-- One free mint until the given time. -/
def oneMint (endTime : Word) : MintParams :=
  { mintPrice := 0
    maxTotalMintableByWallet := 1
    startTime := 1
    endTime
    dropStageIndex := 1
    maxTokenSupplyForStage := 100
    feeBps := 0
    restrictFeeRecipients := false }

/-- The largest time that 48 bits hold. -/
def farTime : Word := 281474976710655

/-- The hashes behind the examples: the leaves of the three wallets, the root over the first two,
the third leaf paired with the first, and the first wallet's leaf with the far time. -/
def sampleHashes : List (List Word × Word) :=
  let first := 0xca8677ea10b609638bb14c7f25c7b0390c82a418bea5b6bafa6663aec57fe09a
  let second := 0x390006dceccb3fa6a640b030eadcd1170a31bb38d8ec00338a608743cb8e9ce4
  let third := 0xf313cfb427b8b7524fa29ea7d4a77742993d98f697ee6b111e1c83b1ef365119
  [(leafWords firstWallet (oneMint 2000000000), first),
    (leafWords secondWallet (oneMint 2000000000), second),
    (leafWords thirdWallet (oneMint 2000000000), third),
    ([second, first], 0x9de5d10e0314731ad48367b6324520301a2b6c47d0aaaaa124740a825be0ed65),
    ([first, third], 0x68691a60224532b75444714710284da98c19ea28453e145b4f9cc4d0afec258a),
    (leafWords firstWallet (oneMint farTime),
      0x0832cb6c365ef114e86b3d153f99a1e3ab5c7153554a5cb852361ae6066702b1)]

def sampleOutside : Outside where
  keccak256 := tableHash sampleHashes
  raised _ _ := false
  toISOString ms := ascii (toString ms)

def sampleEntry (address : Text) (valid : isAddress sampleOutside address = true)
    (endTime : Word) : PublishedEntry sampleOutside :=
  { address, mintParams := oneMint endTime, proof := none, valid }

/-- A list of two entries. -/
def sampleList : PublishedList sampleOutside where
  kind := .fullList
  entries := [sampleEntry firstWallet (by decide +kernel) 2000000000,
    sampleEntry secondWallet (by decide +kernel) 2000000000]

example : ((checkAllowlist sampleOutside [] [firstWallet, thirdWallet]
    (some 0x9de5d10e0314731ad48367b6324520301a2b6c47d0aaaaa124740a825be0ed65)
    (some sampleList)).toOption.map fun report => report.wallets.map (·.verdict)) =
    some [.eligible, .notListed] := by decide +kernel

/-- No two byte strings collide that are hashed for the list and for a proof that names the first
leaf, for a wallet that is not on the list. -/
example : NoCollision sampleOutside (hashedFor sampleOutside sampleList
    (leafWords thirdWallet (oneMint 2000000000))
    [0xca8677ea10b609638bb14c7f25c7b0390c82a418bea5b6bafa6663aec57fe09a]) := by
  decide +kernel

end MintBot.Allowlist
