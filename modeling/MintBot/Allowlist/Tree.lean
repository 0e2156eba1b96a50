import Mathlib
import MintBot.Library.Merkle

/-!
# Allowlist trees

The Merkle tree over the leaves of a published list, the proofs taken from it and the check that
the contract makes on a proof.  A 32-byte hexadecimal text is modelled by the word it spells:
the code orders such texts by their numbers and compares them without regard to letter case.
-/

namespace MintBot.Allowlist

/-- A 32-byte word. -/
abbrev Word := Fin (2 ^ 256)

instance neZeroWord : NeZero (2 ^ 256) :=
  inferInstance

def zeroRoot : Word := 0

section Hashing

-- `keccak256` of a byte string that consists of 32-byte words.
variable (keccak256 : List Word → Word)

/-- The words that `hashPair` hashes, the smaller one first. -/
def sortedPair (left right : Word) : List Word :=
  if left ≤ right then [left, right] else [right, left]

def hashPair (left right : Word) : Word :=
  keccak256 (sortedPair left right)

def verifyProof (proof : List Word) (root leaf : Word) : Bool :=
  proof.foldl (hashPair keccak256) leaf = root

/-- What `buildTree` returns. -/
structure Tree where
  root : Word
  proofFor : Word → Option (List Word)

/-- The leaves in rising order. -/
def sortLeaves (leaves : List Word) : List Word :=
  leaves.insertionSort (· ≤ ·)

def buildTree (leaves : List Word) : Tree :=
  if leaves = [] then { root := zeroRoot, proofFor := fun _ => none }
  else
    let sorted := sortLeaves leaves
    { root := (Merkle.root (hashPair keccak256) sorted).getD zeroRoot
      proofFor := fun leaf =>
        (sorted.findIdx? fun item => item = leaf).map
          (Merkle.proofAt (hashPair keccak256) sorted) }

theorem sortedPair_comm (left right : Word) : sortedPair left right = sortedPair right left := by
  unfold sortedPair
  rcases lt_trichotomy left right with below | rfl | above
  · rw [if_pos below.le, if_neg (not_le.mpr below)]
  · rfl
  · rw [if_neg (not_le.mpr above), if_pos above.le]

theorem hashPair_comm (left right : Word) :
    hashPair keccak256 left right = hashPair keccak256 right left :=
  congrArg keccak256 (sortedPair_comm left right)

theorem mem_sortLeaves {leaves : List Word} {leaf : Word} :
    leaf ∈ sortLeaves leaves ↔ leaf ∈ leaves :=
  List.mem_insertionSort _

/-- The proof built for a leaf of the list verifies against the root built from the list. -/
theorem proofFor_verifies {leaves : List Word} {leaf : Word} (listed : leaf ∈ leaves) :
    ∃ proof, (buildTree keccak256 leaves).proofFor leaf = some proof ∧
      verifyProof keccak256 proof (buildTree keccak256 leaves).root leaf = true := by
  have nonempty : leaves ≠ [] := List.ne_nil_of_mem listed
  have sorted : leaf ∈ sortLeaves leaves := mem_sortLeaves.mpr listed
  obtain ⟨index, first⟩ : ∃ index,
      (sortLeaves leaves).findIdx? (fun item => decide (item = leaf)) = some index :=
    Option.isSome_iff_exists.mp (List.findIdx?_isSome.trans
      (List.any_eq_true.mpr ⟨leaf, sorted, decide_eq_true rfl⟩))
  obtain ⟨inside, same, -⟩ := List.findIdx?_eq_some_iff_getElem.mp first
  have found : (sortLeaves leaves)[index]? = some leaf := by
    rw [List.getElem?_eq_getElem inside, of_decide_eq_true same]
  have climbs := Merkle.walk_proofAt (hashPair keccak256) (hashPair_comm keccak256) found
  simp only [buildTree, if_neg nonempty]
  refine ⟨_, congrArg (Option.map _) first, decide_eq_true ?_⟩
  rw [climbs]
  rfl

end Hashing

/-- A hash function of which some values are known. -/
def tableHash (known : List (List Word × Word)) (words : List Word) : Word :=
  ((known.find? fun entry => entry.1 = words).map Prod.snd).getD 0

/-- The hashes of the words 1 and 2, and of 3 with that hash. -/
def smallHashes : List (List Word × Word) :=
  [([1, 2], 0xe90b7bceb6e7df5418fb78d8ee546e97c83a08bbccc01a0644d599ccd2a7c2e0),
    ([3, 0xe90b7bceb6e7df5418fb78d8ee546e97c83a08bbccc01a0644d599ccd2a7c2e0],
      0x9b0225f2c6f59eeaf8302811ea290e95258763189b82dc033158e99a6ef45a87)]

/-- The last leaf of three, which has no neighbour on its level. -/
theorem proofFor_verifies_three :
    ∃ proof, (buildTree (tableHash smallHashes) [3, 1, 2]).proofFor 3 = some proof ∧
      verifyProof (tableHash smallHashes) proof
        (buildTree (tableHash smallHashes) [3, 1, 2]).root 3 = true :=
  proofFor_verifies (tableHash smallHashes) (by decide)

example : (buildTree (tableHash smallHashes) [3, 1, 2]).root =
    0x9b0225f2c6f59eeaf8302811ea290e95258763189b82dc033158e99a6ef45a87 := by decide +kernel

end MintBot.Allowlist
