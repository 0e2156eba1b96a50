import Mathlib.Data.List.Sort
import MintBot.Library.Json.Number

/-!
# JSON documents

Documents over leaves of any type, so that one definition serves the values of a program and the
scalars of JSON.  Every function on documents is a `Document.fold`; `Document.text` is `JSON.stringify`
and `parse` is `JSON.parse`, and a document whose objects are ones JavaScript can hold is read
back from its text.

An object lists its members as property enumeration does: array indices in ascending order,
then the other keys in the order of their creation.
-/

namespace Json

/-- Values with arrays and string-keyed objects over some leaves. -/
inductive Document (α : Type) where
  | leaf (value : α)
  | array (items : List (Document α))
  | object (members : List (Text × Document α))

namespace Document

variable {α β : Type}

/-! ## Folds -/

mutual

/-- Replace the constructors of a document. -/
def fold (leaf : α → β) (array : List β → β) (object : List (Text × β) → β) : Document α → β
  | .leaf value => leaf value
  | .array items => array (foldItems leaf array object items)
  | .object members => object (foldMembers leaf array object members)

def foldItems (leaf : α → β) (array : List β → β) (object : List (Text × β) → β) :
    List (Document α) → List β
  | [] => []
  | item :: items => item.fold leaf array object :: foldItems leaf array object items

def foldMembers (leaf : α → β) (array : List β → β) (object : List (Text × β) → β) :
    List (Text × Document α) → List (Text × β)
  | [] => []
  | (key, value) :: members =>
      (key, value.fold leaf array object) :: foldMembers leaf array object members

end

/-- Apply a function to the value of a member. -/
def onValue (f : Document α → β) (member : Text × Document α) : Text × β :=
  (member.1, f member.2)

section Fold

variable (leaf : α → β) (array : List β → β) (object : List (Text × β) → β)

theorem fold_leaf (value : α) : (Document.leaf value).fold leaf array object = leaf value :=
  rfl

theorem fold_array (items : List (Document α)) :
    (Document.array items).fold leaf array object =
      array (items.map (fold leaf array object)) := by
  have same : foldItems leaf array object items = items.map (fold leaf array object) := by
    induction items with
    | nil => rfl
    | cons item items ih => rw [foldItems, ih, List.map_cons]
  rw [fold, same]

theorem fold_object (members : List (Text × Document α)) :
    (Document.object members).fold leaf array object =
      object (members.map (onValue (fold leaf array object))) := by
  have same : foldMembers leaf array object members =
      members.map (onValue (fold leaf array object)) := by
    induction members with
    | nil => rfl
    | cons member members ih => rw [foldMembers, ih, List.map_cons, onValue]
  rw [fold, same]

end Fold

/-- Induction over documents, with the hypothesis for every item and member. -/
theorem induct {motive : Document α → Prop} (atLeaf : ∀ value, motive (.leaf value))
    (atArray : ∀ items, (∀ item ∈ items, motive item) → motive (.array items))
    (atObject : ∀ members, (∀ member ∈ members, motive member.2) → motive (.object members))
    (t : Document α) : motive t :=
  @Document.rec α motive (fun items => ∀ item ∈ items, motive item)
    (fun members => ∀ member ∈ members, motive member.2) (fun member => motive member.2)
    atLeaf atArray atObject
    (fun _ member => nomatch member) (fun _ _ head tail => List.forall_mem_cons.2 ⟨head, tail⟩)
    (fun _ member => nomatch member) (fun _ _ head tail => List.forall_mem_cons.2 ⟨head, tail⟩)
    (fun _ _ value => value) t

/-- Apply a function to the leaves. -/
def map (f : α → β) : Document α → Document β :=
  fold (fun value => leaf (f value)) array object

/-- The leaves of a document, from left to right. -/
def leaves : Document α → List α :=
  fold (fun value => [value]) List.flatten fun members => (members.map Prod.snd).flatten

/-- The keys of all objects of a document. -/
def keys : Document α → List Text :=
  fold (fun _ => []) List.flatten fun members =>
    (members.map fun member => member.1 :: member.2).flatten

@[simp]
theorem map_leaf (f : α → β) (value : α) : (leaf value).map f = leaf (f value) :=
  rfl

theorem map_array (f : α → β) (items : List (Document α)) :
    (array items).map f = array (items.map (map f)) :=
  fold_array _ _ _ items

theorem map_object (f : α → β) (members : List (Text × Document α)) :
    (object members).map f = object (members.map (onValue (map f))) :=
  fold_object _ _ _ members

@[simp]
theorem leaves_leaf (value : α) : (leaf value).leaves = [value] :=
  rfl

@[simp]
theorem mem_leaves_array {items : List (Document α)} {value : α} :
    value ∈ (array items).leaves ↔ ∃ item ∈ items, value ∈ item.leaves := by
  rw [leaves, fold_array, List.mem_flatten]
  simp

@[simp]
theorem mem_leaves_object {members : List (Text × Document α)} {value : α} :
    value ∈ (object members).leaves ↔ ∃ member ∈ members, value ∈ member.2.leaves := by
  rw [leaves, fold_object, List.mem_flatten]
  simp [onValue]

@[simp]
theorem keys_leaf (value : α) : (leaf value).keys = [] :=
  rfl

@[simp]
theorem mem_keys_array {items : List (Document α)} {key : Text} :
    key ∈ (array items).keys ↔ ∃ item ∈ items, key ∈ item.keys := by
  rw [keys, fold_array, List.mem_flatten]
  simp

@[simp]
theorem mem_keys_object {members : List (Text × Document α)} {key : Text} :
    key ∈ (object members).keys ↔
      ∃ member ∈ members, key = member.1 ∨ key ∈ member.2.keys := by
  rw [keys, fold_object, List.mem_flatten]
  simp [onValue]

/-- Two functions that agree on the leaves of a document map it alike. -/
theorem map_congr {f g : α → β} (t : Document α) (same : ∀ value ∈ t.leaves, f value = g value) :
    t.map f = t.map g := by
  induction t using induct with
  | atLeaf value => rw [map_leaf, map_leaf, same value (by simp)]
  | atArray items ih =>
    rw [map_array, map_array]
    congr 1
    apply List.map_congr_left
    intro item member
    exact ih item member fun value inside =>
      same value (mem_leaves_array.2 ⟨item, member, inside⟩)
  | atObject members ih =>
    rw [map_object, map_object]
    congr 1
    apply List.map_congr_left
    intro m member
    rw [onValue, onValue, ih m member fun value inside =>
      same value (mem_leaves_object.2 ⟨m, member, inside⟩)]

theorem map_map {γ : Type} (f : α → β) (g : β → γ) (t : Document α) :
    (t.map f).map g = t.map (g ∘ f) := by
  induction t using induct with
  | atLeaf value => rfl
  | atArray items ih =>
    rw [map_array, map_array, map_array, List.map_map]
    congr 1
    apply List.map_congr_left
    intro item member
    exact ih item member
  | atObject members ih =>
    rw [map_object, map_object, map_object, List.map_map]
    congr 1
    apply List.map_congr_left
    intro m member
    rw [Function.comp_apply, onValue, onValue, onValue, ih m member]

theorem map_id (t : Document α) : t.map id = t := by
  induction t using induct with
  | atLeaf value => rfl
  | atArray items ih =>
    rw [map_array]
    congr 1
    exact (List.map_congr_left ih).trans (List.map_id _)
  | atObject members ih =>
    rw [map_object]
    congr 1
    refine (List.map_congr_left fun m member => ?_).trans (List.map_id _)
    rw [onValue, ih m member]
    rfl

theorem mem_leaves_map {f : α → β} {t : Document α} {value : β} :
    value ∈ (t.map f).leaves ↔ ∃ original ∈ t.leaves, value = f original := by
  induction t using induct with
  | atLeaf value => simp
  | atArray items ih =>
    rw [map_array, mem_leaves_array]
    constructor
    · rintro ⟨_, mapped, inside⟩
      obtain ⟨item, member, rfl⟩ := List.mem_map.1 mapped
      obtain ⟨original, known, rfl⟩ := (ih item member).1 inside
      exact ⟨original, mem_leaves_array.2 ⟨item, member, known⟩, rfl⟩
    · rintro ⟨original, inside, rfl⟩
      obtain ⟨item, member, known⟩ := mem_leaves_array.1 inside
      exact ⟨_, List.mem_map_of_mem member, (ih item member).2 ⟨original, known, rfl⟩⟩
  | atObject members ih =>
    rw [map_object, mem_leaves_object]
    constructor
    · rintro ⟨_, mapped, inside⟩
      obtain ⟨m, member, rfl⟩ := List.mem_map.1 mapped
      obtain ⟨original, known, rfl⟩ := (ih m member).1 inside
      exact ⟨original, mem_leaves_object.2 ⟨m, member, known⟩, rfl⟩
    · rintro ⟨original, inside, rfl⟩
      obtain ⟨m, member, known⟩ := mem_leaves_object.1 inside
      exact ⟨_, List.mem_map_of_mem member, (ih m member).2 ⟨original, known, rfl⟩⟩

theorem mem_keys_map {f : α → β} {t : Document α} {key : Text} :
    key ∈ (t.map f).keys ↔ key ∈ t.keys := by
  induction t using induct with
  | atLeaf value => simp
  | atArray items ih =>
    simp only [map_array, mem_keys_array, List.mem_map, exists_exists_and_eq_and]
    exact exists_congr fun item => and_congr_right fun member => ih item member
  | atObject members ih =>
    simp only [map_object, mem_keys_object, List.mem_map, exists_exists_and_eq_and]
    refine exists_congr fun m => and_congr_right fun member => ?_
    rw [onValue, ih m member]

end Document

/-! ## Objects -/

/-- The array index a key denotes. -/
def arrayIndex? (key : Text) : Option Nat :=
  let read := readDigits key
  if read.2 = [] ∧ naturalDigits (ofDigits read.1) = read.1 ∧ ofDigits read.1 < 4294967295 then
    some (ofDigits read.1)
  else none

section Objects

variable {α : Type}

/-- The order of members with array indices. -/
def IndexLe (left right : Text × α) : Prop :=
  (arrayIndex? left.1).getD 0 ≤ (arrayIndex? right.1).getD 0

instance : DecidableRel (IndexLe : Text × α → Text × α → Prop) :=
  fun _ _ => inferInstanceAs (Decidable (_ ≤ _))

/-- Property enumeration order: array indices first, by size. -/
def ownOrder (members : List (Text × α)) : List (Text × α) :=
  (members.filter fun member => (arrayIndex? member.1).isSome).insertionSort IndexLe ++
    members.filter fun member => (arrayIndex? member.1).isNone

/-- Assign a property: a known key keeps its place. -/
def setProperty : List (Text × α) → Text × α → List (Text × α)
  | [], entry => [entry]
  | member :: members, entry =>
    if member.1 = entry.1 then entry :: members else member :: setProperty members entry

/-- The members of an object that is built by assigning entries in turn. -/
def fromEntries (entries : List (Text × α)) : List (Text × α) :=
  ownOrder (entries.foldl setProperty [])

/-- Members as an object can hold them. -/
structure OwnMembers (members : List (Text × α)) : Prop where
  distinct : (members.map Prod.fst).Nodup
  ordered : ownOrder members = members

theorem ownOrder_perm (members : List (Text × α)) : (ownOrder members).Perm members := by
  refine ((List.perm_insertionSort _ _).append_right _).trans ?_
  have split := List.filter_append_perm (fun m : Text × α => (arrayIndex? m.1).isSome) members
  simpa [← Option.not_isSome] using split

theorem setProperty_new {members : List (Text × α)} {entry : Text × α}
    (new : entry.1 ∉ members.map Prod.fst) : setProperty members entry = members ++ [entry] := by
  induction members with
  | nil => rfl
  | cons member members ih =>
    simp only [List.map_cons, List.mem_cons, not_or] at new
    rw [setProperty, if_neg (Ne.symm new.1), ih new.2, List.cons_append]

theorem foldl_setProperty {entries members : List (Text × α)}
    (distinct : ((members ++ entries).map Prod.fst).Nodup) :
    entries.foldl setProperty members = members ++ entries := by
  induction entries generalizing members with
  | nil => simp
  | cons entry entries ih =>
    have new : entry.1 ∉ members.map Prod.fst := by
      rw [List.map_append, List.nodup_append'] at distinct
      intro known
      exact distinct.2.2 known (by simp)
    rw [List.foldl_cons, setProperty_new new, ih (by simpa using distinct)]
    simp

/-- Distinct entries give a permutation of themselves. -/
theorem fromEntries_perm {entries : List (Text × α)}
    (distinct : (entries.map Prod.fst).Nodup) : (fromEntries entries).Perm entries := by
  rw [fromEntries, foldl_setProperty (by simpa using distinct)]
  exact ownOrder_perm _

theorem OwnMembers.fromEntries {members : List (Text × α)} (own : OwnMembers members) :
    fromEntries members = members := by
  rw [Json.fromEntries, foldl_setProperty (by simpa using own.distinct), List.nil_append,
    own.ordered]

end Objects

/-- Every object of the document is one that JavaScript can hold. -/
inductive Document.Proper {α : Type} : Document α → Prop where
  | leaf (value : α) : Proper (.leaf value)
  | array (items : List (Document α)) (proper : ∀ item ∈ items, Proper item) :
      Proper (.array items)
  | object (members : List (Text × Document α)) (own : OwnMembers members)
      (proper : ∀ member ∈ members, Proper member.2) : Proper (.object members)

section Mapping

variable {α β : Type} (f : Document α → Document β)

theorem keys_onValue (members : List (Text × Document α)) :
    (members.map (Document.onValue f)).map Prod.fst = members.map Prod.fst := by
  rw [List.map_map]
  rfl

/-- The order of members depends on their keys alone. -/
theorem ownOrder_onValue (members : List (Text × Document α)) :
    ownOrder (members.map (Document.onValue f)) =
      (ownOrder members).map (Document.onValue f) := by
  unfold ownOrder
  rw [List.map_append, List.filter_map, List.filter_map]
  congr 1
  exact (List.map_insertionSort IndexLe IndexLe (Document.onValue f) _
    fun _ _ _ _ => Iff.rfl).symm

theorem OwnMembers.onValue {members : List (Text × Document α)} (own : OwnMembers members) :
    OwnMembers (members.map (Document.onValue f)) where
  distinct := by rw [keys_onValue]; exact own.distinct
  ordered := by rw [ownOrder_onValue, own.ordered]

theorem Document.Proper.map {t : Document α} (proper : t.Proper) (f : α → β) :
    (t.map f).Proper := by
  induction proper with
  | leaf value => exact .leaf (f value)
  | array items _ ih =>
    rw [map_array]
    exact .array _ (List.forall_mem_map.2 ih)
  | object members own _ ih =>
    rw [map_object]
    exact .object _ (own.onValue _) (List.forall_mem_map.2 ih)

end Mapping

end Json
