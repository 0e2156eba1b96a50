import Mathlib.Data.List.Basic
import Mathlib.Tactic.Common

/-!
# Merkle trees whose odd nodes move up

A tree is built level by level from a list of leaves: neighbours are paired, and a last node
without a neighbour moves up unchanged.  A proof lists the neighbours on the way from a leaf to
the root, and the verifier pairs them on without knowing on which side they stood.  A proof taken
from the tree is accepted, when pairing ignores the order; an accepted proof starts in the tree,
when the pairs it went through collide with nothing in the tree.
-/

namespace Merkle

universe u

variable {α : Type u} (pair : α → α → α)

/-- One level up. -/
def nextLevel : List α → List α
  | left :: right :: rest => pair left right :: nextLevel rest
  | [last] => [last]
  | [] => []

theorem nextLevel_length (level : List α) :
    (nextLevel pair level).length = (level.length + 1) / 2 := by
  fun_induction nextLevel with
  | case1 left right rest inductionHypothesis =>
      simp only [List.length_cons, inductionHypothesis]
      omega
  | case2 last => simp
  | case3 => simp

/-- All levels, from the leaves to the root. -/
def levels (level : List α) : List (List α) :=
  if level.length > 1 then level :: levels (nextLevel pair level) else [level]
termination_by level.length
decreasing_by
  rw [nextLevel_length]
  omega

/-- The node on top. -/
def root (leaves : List α) : Option α :=
  (levels pair leaves).getLast?.bind List.head?

/-- The neighbour that a node is paired with. -/
def sibling (index : Nat) : Nat :=
  if index % 2 = 0 then index + 1 else index - 1

/-- The neighbours on the way up through the given levels. -/
def siblings : List (List α) → Nat → List α
  | [], _ => []
  | level :: above, index => level[sibling index]?.toList ++ siblings above (index / 2)

/-- The proof for the leaf at a position: the level of the root contributes nothing. -/
def proofAt (leaves : List α) (index : Nat) : List α :=
  siblings (levels pair leaves).dropLast index

/-- Where a proof leads from a leaf. -/
def walk (leaf : α) (proof : List α) : α :=
  proof.foldl pair leaf

/-! ## Proofs taken from the tree -/

theorem levels_ne_nil (leaves : List α) : levels pair leaves ≠ [] := by
  unfold levels
  split <;> exact List.cons_ne_nil _ _

/-- The node above a position is that position paired with its neighbour, if it has one. -/
theorem nextLevel_getElem? (commutes : ∀ left right, pair left right = pair right left)
    {level : List α} {index : Nat} {node : α} (found : level[index]? = some node) :
    (nextLevel pair level)[index / 2]? =
      some (walk pair node level[sibling index]?.toList) := by
  induction level using nextLevel.induct generalizing index with
  | case1 left right rest inductionHypothesis =>
      match index with
      | 0 =>
          obtain rfl := Option.some.inj found
          rfl
      | 1 =>
          obtain rfl := Option.some.inj found
          exact congrArg some (commutes left right)
      | index + 2 =>
          have above := inductionHypothesis (show rest[index]? = some node from found)
          have half : (index + 2) / 2 = index / 2 + 1 := by omega
          have neighbour : sibling (index + 2) = sibling index + 2 := by
            simp only [sibling]
            split <;> split <;> omega
          rw [half, neighbour]
          exact above
  | case2 last =>
      match index with
      | 0 =>
          obtain rfl := Option.some.inj found
          rfl
      | index + 1 => exact nomatch found
  | case3 => exact nomatch found

/-- A proof taken from the tree leads from its leaf to the root. -/
theorem walk_proofAt (commutes : ∀ left right, pair left right = pair right left)
    {leaves : List α} {index : Nat} {leaf : α} (found : leaves[index]? = some leaf) :
    root pair leaves = some (walk pair leaf (proofAt pair leaves index)) := by
  induction leaves using levels.induct pair generalizing index leaf with
  | case1 level several inductionHypothesis =>
      have split : levels pair level = level :: levels pair (nextLevel pair level) := by
        rw [levels, if_pos several]
      have above := inductionHypothesis (nextLevel_getElem? pair commutes found)
      have nonempty := levels_ne_nil pair (nextLevel pair level)
      rw [root, proofAt, split, List.dropLast_cons_of_ne_nil nonempty,
        List.getLast?_cons_of_ne_nil nonempty, siblings, walk, List.foldl_append]
      exact above
  | case2 level single =>
      have split : levels pair level = [level] := by
        rw [levels, if_neg single]
      match level, index with
      | [], _ => exact nomatch found
      | [only], 0 =>
          obtain rfl := Option.some.inj found
          rw [root, proofAt, split]
          rfl
      | [_], index + 1 => exact nomatch found
      | _ :: _ :: _, _ =>
          simp only [List.length_cons] at single
          omega

/-! ## Proofs from elsewhere -/

/-- The pairs that are hashed for the next level. -/
def levelPairs : List α → List (α × α)
  | left :: right :: rest => (left, right) :: levelPairs rest
  | _ => []

/-- The pairs that are hashed while the tree is built. -/
def treePairs (leaves : List α) : List (α × α) :=
  (levels pair leaves).flatMap levelPairs

/-- The pairs that are hashed while a proof is checked. -/
def walkPairs (leaf : α) : List α → List (α × α)
  | [] => []
  | sibling :: proof => (leaf, sibling) :: walkPairs (pair leaf sibling) proof

/-- A node of the tree on any level. -/
def Node (leaves : List α) (node : α) : Prop :=
  ∃ level ∈ levels pair leaves, node ∈ level

theorem mem_levelPairs {level : List α} {nodes : α × α} (member : nodes ∈ levelPairs level) :
    nodes.1 ∈ level ∧ nodes.2 ∈ level := by
  fun_induction levelPairs with
  | case1 left right rest inductionHypothesis =>
      rcases List.mem_cons.mp member with rfl | later
      · simp
      · obtain ⟨first, second⟩ := inductionHypothesis later
        simp [first, second]
  | case2 => exact nomatch member

theorem mem_nextLevel {level : List α} {node : α} (member : node ∈ nextLevel pair level) :
    node ∈ level ∨ ∃ nodes ∈ levelPairs level, node = pair nodes.1 nodes.2 := by
  fun_induction nextLevel with
  | case1 left right rest inductionHypothesis =>
      rcases List.mem_cons.mp member with paired | later
      · exact .inr ⟨(left, right), List.mem_cons_self, paired⟩
      · rcases inductionHypothesis later with moved | ⟨nodes, within, paired⟩
        · exact .inl (List.mem_cons_of_mem _ (List.mem_cons_of_mem _ moved))
        · exact .inr ⟨nodes, List.mem_cons_of_mem _ within, paired⟩
  | case2 last => exact .inl member
  | case3 => exact nomatch member

/-- A node is a leaf or was hashed from a pair of nodes. -/
theorem Node.origin {leaves : List α} {node : α} (isNode : Node pair leaves node) :
    node ∈ leaves ∨ ∃ nodes ∈ treePairs pair leaves, node = pair nodes.1 nodes.2 := by
  induction leaves using levels.induct pair with
  | case1 level several inductionHypothesis =>
      have split : levels pair level = level :: levels pair (nextLevel pair level) := by
        rw [levels, if_pos several]
      obtain ⟨own, listed, member⟩ := isNode
      rw [split] at listed
      rcases List.mem_cons.mp listed with rfl | above
      · exact .inl member
      rcases inductionHypothesis ⟨own, above, member⟩ with moved | ⟨nodes, within, paired⟩
      · rcases mem_nextLevel pair moved with leaf | ⟨nodes, within, paired⟩
        · exact .inl leaf
        · refine .inr ⟨nodes, ?_, paired⟩
          rw [treePairs, split, List.flatMap_cons]
          exact List.mem_append_left _ within
      · refine .inr ⟨nodes, ?_, paired⟩
        rw [treePairs, split, List.flatMap_cons]
        exact List.mem_append_right _ within
  | case2 level single =>
      obtain ⟨own, listed, member⟩ := isNode
      rw [levels, if_neg single, List.mem_singleton] at listed
      exact .inl (listed ▸ member)

theorem node_of_treePairs {leaves : List α} {nodes : α × α}
    (hashed : nodes ∈ treePairs pair leaves) :
    Node pair leaves nodes.1 ∧ Node pair leaves nodes.2 := by
  obtain ⟨level, listed, member⟩ := List.mem_flatMap.mp hashed
  obtain ⟨first, second⟩ := mem_levelPairs member
  exact ⟨⟨level, listed, first⟩, ⟨level, listed, second⟩⟩

theorem node_of_root {leaves : List α} {top : α} (isRoot : root pair leaves = some top) :
    Node pair leaves top := by
  obtain ⟨level, last, first⟩ := Option.bind_eq_some_iff.mp isRoot
  exact ⟨level, List.mem_of_getLast? last, List.mem_of_head? first⟩

/-- A walk that ends in the tree starts in it, when no pair it hashes collides with a leaf, and
one that collides with a pair of the tree has its first member among that pair. -/
theorem node_of_walk {leaves : List α} {start : α} {proof : List α}
    (fresh : ∀ nodes ∈ walkPairs pair start proof, pair nodes.1 nodes.2 ∉ leaves)
    (agrees : ∀ nodes ∈ walkPairs pair start proof, ∀ other ∈ treePairs pair leaves,
      pair nodes.1 nodes.2 = pair other.1 other.2 → nodes.1 = other.1 ∨ nodes.1 = other.2)
    (ends : Node pair leaves (walk pair start proof)) : Node pair leaves start := by
  induction proof generalizing start with
  | nil => exact ends
  | cons sibling proof inductionHypothesis =>
      have next : Node pair leaves (pair start sibling) :=
        inductionHypothesis (fun nodes later => fresh nodes (List.mem_cons_of_mem _ later))
          (fun nodes later => agrees nodes (List.mem_cons_of_mem _ later)) ends
      rcases next.origin with leaf | ⟨nodes, hashed, paired⟩
      · exact absurd leaf (fresh (start, sibling) List.mem_cons_self)
      · obtain ⟨first, second⟩ := node_of_treePairs pair hashed
        rcases agrees (start, sibling) List.mem_cons_self nodes hashed paired with left | right
        · exact (show start = nodes.1 from left) ▸ first
        · exact (show start = nodes.2 from right) ▸ second

end Merkle
