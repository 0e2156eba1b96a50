import Mathlib
import MintBot.Authority.Reads

/-!
# Untyped values

What a provider answers is not trusted to have a type.  The reads of the verifier of returns check
the value in hand and refuse it otherwise, and `stable` writes a value so that the answers of two
providers can be compared.
-/

namespace MintBot.Treasury

open Json Authority

/-- The leaves of an answer. -/
inductive AnswerLeaf
  | undefined
  | scalar (value : Scalar)
  | bigint (value : Int)
  deriving DecidableEq

/-- An answer as JavaScript can hold it. -/
structure Answer where
  document : Document AnswerLeaf
  proper : document.Proper

/-- The fields of an object. -/
abbrev ObjectValue := List (Text × Document AnswerLeaf)

def requireProof (value : Prop) [Decidable value] : Option Unit :=
  if value then some () else none

theorem requireProof_eq_some {value : Prop} [Decidable value] {result : Unit} :
    requireProof value = some result ↔ value := by
  unfold requireProof
  split <;> simp [*]

/-! ## Reads of a value -/

def undefined : Document AnswerLeaf :=
  .leaf .undefined

def isUndefined : Document AnswerLeaf → Bool
  | .leaf .undefined => true
  | _ => false

/-- `=== null` -/
def isNull : Document AnswerLeaf → Bool
  | .leaf (.scalar .null) => true
  | _ => false

/-- `== null` -/
def isNullish (value : Document AnswerLeaf) : Bool :=
  isNull value || isUndefined value

def bigint? : Document AnswerLeaf → Option Int
  | .leaf (.bigint value) => some value
  | _ => none

def string? : Document AnswerLeaf → Option Text
  | .leaf (.scalar (.string value)) => some value
  | _ => none

/-- The integer that a number is. -/
def integer? : Document AnswerLeaf → Option Int
  | .leaf (.scalar (.number value)) => value.integer?
  | _ => none

def array? : Document AnswerLeaf → Option (List (Document AnswerLeaf))
  | .array items => some items
  | _ => none

def object : Document AnswerLeaf → Option ObjectValue
  | .object members => some members
  | _ => none

/-- A property, undefined when the object has none of the name. -/
def field (name : String) (members : ObjectValue) : Document AnswerLeaf :=
  (property name members).getD undefined

/-- `MAX_UINT256` -/
def MAX_UINT256 : Int := 2 ^ 256 - 1

/-- `amount` of a bigint. -/
def amountOf (value : Int) : Option Nat :=
  if 0 ≤ value ∧ value ≤ MAX_UINT256 then some value.toNat else none

def amount (value : Document AnswerLeaf) : Option Nat :=
  bigint? value >>= amountOf

/-- `nonce` of a number. -/
def nonceOf (value : Int) : Option Nat :=
  if 0 ≤ value ∧ value ≤ maxSafeInteger then some value.toNat else none

def nonce (value : Document AnswerLeaf) : Option Nat :=
  integer? value >>= nonceOf

def lower (value : Document AnswerLeaf) : Option Text :=
  (string? value).map Authority.lower

/-- `hash` of a text. -/
def hashOf (value : Text) : Option Text :=
  if Authority.isHexText 64 (Authority.lower value) then some (Authority.lower value) else none

def hash (value : Document AnswerLeaf) : Option Text :=
  string? value >>= hashOf

/-- `addr` of a text. -/
def addrOf (value : Text) : Option Text :=
  if Authority.isHexText 40 (Authority.lower value) ∧ Authority.lower value ≠ zeroAddress then
    some (Authority.lower value)
  else none

def addr (value : Document AnswerLeaf) : Option Text :=
  string? value >>= addrOf

/-- `/^0x(?:0|[1-9a-f][0-9a-f]{0,63})$/i` -/
def isQuantityText (value : Text) : Bool :=
  let digits := value.drop 2
  (value.take 2).map lowerUnit = ascii "0x" ∧ digits.all isHex ∧ digits.length ≤ 64 ∧
    (digits = ascii "0" ∨ (digits ≠ [] ∧ digits.head? ≠ some 0x30))

/-- `quantity`: a bigint, or a text of hexadecimal digits as raw answers have them. -/
def quantity : Document AnswerLeaf → Option Nat
  | .leaf (.scalar (.string value)) =>
      if isQuantityText value then amountOf (hexValue (value.drop 2)) else none
  | value => amount value

def emptyCode (value : Document AnswerLeaf) : Bool :=
  string? value = some (ascii "0x")

/-- `/fee/i` -/
def mentionsFee (key : Text) : Bool :=
  ascii "fee" <:+: key.map lowerUnit

/-- `String` of a value, and whether `join` leaves it out. -/
def stringParts : Document AnswerLeaf → Text × Bool :=
  Document.fold
    (fun
      | .undefined => (ascii "undefined", true)
      | .scalar .null => (ascii "null", true)
      | .scalar (.boolean value) => ((Scalar.boolean value).text, false)
      | .scalar (.number value) => (value.text, false)
      | .scalar (.string value) => (value, false)
      | .bigint value => (bigintDigits value, false))
    (fun items =>
      (List.intercalate [comma] (items.map fun item => if item.2 then [] else item.1), false))
    fun _ => (ascii "[object Object]", false)

/-- `String` of a value. -/
def stringOf (value : Document AnswerLeaf) : Text :=
  (stringParts value).1

/-! ## Comparable texts -/

/-- What the program takes from the language and its host. -/
structure Host where
  /-- `left.localeCompare(right)` -/
  localeCompare : Text → Text → Int
  /-- `Date.parse`, none for an invalid date. -/
  parseDate : Text → Option Int

variable (host : Host)

/-- Fields in the order of their names. -/
def sortFields {α : Type} (members : List (Text × α)) : List (Text × α) :=
  members.insertionSort fun left right => host.localeCompare left.1 right.1 ≤ 0

/-- The fields whose value is defined. -/
def definedFields {α : Type} (members : List (Text × Option α)) : List (Text × α) :=
  members.filterMap fun member => member.2.map fun value => (member.1, value)

/-- `normalize`: bigints are tagged, undefined fields left out and the others put in order.  None
stands for undefined. -/
def normalize : Document AnswerLeaf → Option (Document Scalar) :=
  Document.fold
    (fun
      | .undefined => none
      | .scalar value => some (.leaf value)
      | .bigint value => some (.object [(ascii "bigint", bigintLeaf value)]))
    (fun items => some (.array (items.map fun item => item.getD (.leaf .null))))
    fun members => some (.object (fromEntries (sortFields host (definedFields members))))

def stable (value : Document AnswerLeaf) : Option Text :=
  (normalize host value).map Document.text

/-- The defined fields of an object, each normalized. -/
def normalFields (members : ObjectValue) : List (Text × Document Scalar) :=
  definedFields (members.map (Document.onValue (normalize host)))

theorem normalize_object (members : ObjectValue) :
    normalize host (.object members) =
      some (.object (fromEntries (sortFields host (normalFields host members)))) :=
  Document.fold_object _ _ _ members

theorem normalize_array (items : List (Document AnswerLeaf)) :
    normalize host (.array items) =
      some (.array (items.map fun item => (normalize host item).getD (.leaf .null))) := by
  unfold normalize
  rw [Document.fold_array, List.map_map]
  rfl

theorem mem_normalFields {members : ObjectValue} {key : Text} {value : Document Scalar} :
    (key, value) ∈ normalFields host members ↔
      ∃ known, (key, known) ∈ members ∧ normalize host known = some value := by
  simp only [normalFields, definedFields, List.mem_filterMap, List.mem_map, Document.onValue,
    Option.map_eq_some_iff, Prod.mk.injEq]
  constructor
  · rintro ⟨member, ⟨known, listed, rfl⟩, found, same, rfl, rfl⟩
    exact ⟨known.2, listed, same⟩
  · rintro ⟨known, listed, same⟩
    exact ⟨(key, normalize host known), ⟨(key, known), listed, rfl⟩, value, same, rfl, rfl⟩

theorem keys_normalFields (members : ObjectValue) :
    ((normalFields host members).map Prod.fst).Sublist (members.map Prod.fst) := by
  unfold normalFields definedFields
  induction members with
  | nil => exact List.Sublist.slnil
  | cons member members ih =>
      simp only [List.map_cons, List.filterMap_cons, Document.onValue]
      cases normalize host member.2 with
      | none => exact ih.cons _
      | some value => exact ih.cons_cons _

theorem sortFields_perm {α : Type} (members : List (Text × α)) :
    (sortFields host members).Perm members :=
  List.perm_insertionSort _ members

section Order

variable {α : Type}

instance : Std.Total (IndexLe : Text × α → Text × α → Prop) where
  total left right := Nat.le_total ((arrayIndex? left.1).getD 0) ((arrayIndex? right.1).getD 0)

instance : IsTrans (Text × α) IndexLe where
  trans first second third := by
    unfold IndexLe
    exact Nat.le_trans

/-- Sorted indices with the names behind them are in their own order. -/
theorem ownOrder_append {indices names : List (Text × α)} (sorted : indices.Pairwise IndexLe)
    (isIndex : ∀ member ∈ indices, (arrayIndex? member.1).isSome = true)
    (isName : ∀ member ∈ names, (arrayIndex? member.1).isNone = true) :
    ownOrder (indices ++ names) = indices ++ names := by
  have noName : indices.filter (fun member => (arrayIndex? member.1).isNone) = [] := by
    rw [List.filter_eq_nil_iff]
    intro member listed
    simpa [Option.isSome_iff_ne_none] using isIndex member listed
  have noIndex : names.filter (fun member => (arrayIndex? member.1).isSome) = [] := by
    rw [List.filter_eq_nil_iff]
    intro member listed
    simpa using isName member listed
  rw [ownOrder, List.filter_append, List.filter_append, noName, noIndex, List.append_nil,
    List.nil_append, List.filter_eq_self.mpr isIndex, List.filter_eq_self.mpr isName,
    sorted.insertionSort_eq]

theorem ownOrder_ownOrder (members : List (Text × α)) :
    ownOrder (ownOrder members) = ownOrder members := by
  apply ownOrder_append (List.pairwise_insertionSort IndexLe _)
  · intro member listed
    exact (List.mem_filter.mp ((List.mem_insertionSort _).mp listed)).2
  · intro member listed
    exact (List.mem_filter.mp listed).2

theorem keys_setProperty (members : List (Text × α)) (entry : Text × α) :
    (setProperty members entry).map Prod.fst = members.map Prod.fst ∨
      entry.1 ∉ members.map Prod.fst ∧
        (setProperty members entry).map Prod.fst = members.map Prod.fst ++ [entry.1] := by
  induction members with
  | nil => exact .inr ⟨List.not_mem_nil, rfl⟩
  | cons member members ih =>
      by_cases here : member.1 = entry.1
      · left
        rw [setProperty, if_pos here, List.map_cons, List.map_cons, here]
      · rw [setProperty, if_neg here]
        rcases ih with known | ⟨new, added⟩
        · left
          rw [List.map_cons, List.map_cons, known]
        · right
          refine ⟨?_, by rw [List.map_cons, List.map_cons, added, List.cons_append]⟩
          rw [List.map_cons, List.mem_cons, not_or]
          exact ⟨Ne.symm here, new⟩

theorem nodup_foldl_setProperty (entries : List (Text × α)) {members : List (Text × α)}
    (distinct : (members.map Prod.fst).Nodup) :
    ((entries.foldl setProperty members).map Prod.fst).Nodup := by
  induction entries generalizing members with
  | nil => exact distinct
  | cons entry entries ih =>
      apply ih
      rcases keys_setProperty members entry with known | ⟨new, added⟩
      · rw [known]
        exact distinct
      · rw [added]
        exact List.nodup_append.mpr ⟨distinct, List.nodup_singleton _, by
          rintro key listed other same rfl
          exact new (List.mem_singleton.mp same ▸ listed)⟩

/-- Whatever entries an object is built from, it is one that can be held. -/
theorem ownMembers_fromEntries (entries : List (Text × α)) : OwnMembers (fromEntries entries) where
  distinct := ((ownOrder_perm _).map Prod.fst).nodup_iff.mpr
    (nodup_foldl_setProperty entries List.nodup_nil)
  ordered := ownOrder_ownOrder _

theorem mem_setProperty {members : List (Text × α)} {entry member : Text × α}
    (listed : member ∈ setProperty members entry) : member ∈ members ∨ member = entry := by
  induction members with
  | nil => exact .inr (List.mem_singleton.mp listed)
  | cons first members ih =>
      rw [setProperty] at listed
      split at listed
      · rcases List.mem_cons.mp listed with rfl | later
        · exact .inr rfl
        · exact .inl (List.mem_cons_of_mem _ later)
      · rcases List.mem_cons.mp listed with rfl | later
        · exact .inl List.mem_cons_self
        · exact (ih later).imp_left (List.mem_cons_of_mem _)

theorem mem_fromEntries {entries : List (Text × α)} {member : Text × α}
    (listed : member ∈ fromEntries entries) : member ∈ entries := by
  have folded : ∀ (entries members : List (Text × α)), member ∈ entries.foldl setProperty members →
      member ∈ members ∨ member ∈ entries := by
    intro entries
    induction entries with
    | nil => exact fun _ known => .inl known
    | cons entry entries ih =>
        intro members known
        rcases ih _ known with before | later
        · rcases mem_setProperty before with known | rfl
          · exact .inl known
          · exact .inr List.mem_cons_self
        · exact .inr (List.mem_cons_of_mem _ later)
  exact (folded entries [] ((ownOrder_perm _).mem_iff.mp listed)).resolve_left List.not_mem_nil

end Order

/-! ## Values with one text -/

theorem proper_normalize (value : Document AnswerLeaf) {normal : Document Scalar}
    (normalized : normalize host value = some normal) : normal.Proper := by
  induction value using Document.induct generalizing normal with
  | atLeaf leaf =>
      cases leaf with
      | undefined => cases normalized
      | scalar value =>
          obtain rfl := Option.some.inj normalized
          exact .leaf _
      | bigint value =>
          obtain rfl := Option.some.inj normalized
          refine proper_object (List.nodup_singleton _) ?_ ?_
          · intro key listed
            obtain rfl := List.mem_singleton.mp listed
            rfl
          · exact List.forall_mem_singleton.mpr (.leaf _)
  | atArray items ih =>
      rw [normalize_array] at normalized
      obtain rfl := Option.some.inj normalized
      refine .array _ fun item listed => ?_
      obtain ⟨known, member, rfl⟩ := List.mem_map.mp listed
      cases normal : normalize host known with
      | none => exact .leaf _
      | some value => exact ih known member normal
  | atObject members ih =>
      rw [normalize_object] at normalized
      obtain rfl := Option.some.inj normalized
      refine .object _ (ownMembers_fromEntries _) fun member listed => ?_
      have known := (sortFields_perm host _).mem_iff.mp (mem_fromEntries listed)
      obtain ⟨value, held, normal⟩ := (mem_normalFields host).mp known
      exact ih _ held normal

/-- Values that are written as one text are the same after `normalize`. -/
theorem normalize_eq_of_stable_eq {left right : Document AnswerLeaf}
    (defined : normalize host left ≠ none) (same : stable host left = stable host right) :
    normalize host left = normalize host right := by
  unfold stable at same
  cases first : normalize host left with
  | none => exact absurd first defined
  | some known =>
      cases second : normalize host right with
      | none =>
          rw [first, second] at same
          cases same
      | some other =>
          rw [first, second] at same
          rw [document_eq_of_text_eq (proper_normalize host left first)
            (proper_normalize host right second) (Option.some.inj same)]

theorem nodup_sortFields {members : ObjectValue} (distinct : (members.map Prod.fst).Nodup) :
    ((sortFields host (normalFields host members)).map Prod.fst).Nodup :=
  ((sortFields_perm host _).map Prod.fst).nodup_iff.mpr
    (distinct.sublist (keys_normalFields host members))

/-- A field of one of two objects that are the same after `normalize` is one of the other. -/
theorem field_of_normalize_eq {left right : ObjectValue} (distinct : (left.map Prod.fst).Nodup)
    (distinctRight : (right.map Prod.fst).Nodup)
    (same : normalize host (.object left) = normalize host (.object right)) {key : Text}
    {known : Document AnswerLeaf} (listed : (key, known) ∈ left) {value : Document Scalar}
    (normal : normalize host known = some value) :
    ∃ other, (key, other) ∈ right ∧ normalize host other = some value := by
  rw [normalize_object, normalize_object, Option.some.injEq, Document.object.injEq] at same
  have permLeft := (fromEntries_perm (nodup_sortFields host distinct)).trans
    (sortFields_perm host _)
  have permRight := (fromEntries_perm (nodup_sortFields host distinctRight)).trans
    (sortFields_perm host _)
  rw [same] at permLeft
  have member := (mem_normalFields host).mpr ⟨known, listed, normal⟩
  exact (mem_normalFields host).mp (permRight.mem_iff.mp (permLeft.mem_iff.mpr member))

/-- Objects with the same field names are the same after `normalize` only when each field is. -/
theorem fields_of_normalize_eq {left right : ObjectValue} (distinct : (left.map Prod.fst).Nodup)
    (names : left.map Prod.fst = right.map Prod.fst)
    (same : normalize host (.object left) = normalize host (.object right)) :
    left.map (Document.onValue (normalize host)) =
      right.map (Document.onValue (normalize host)) := by
  have distinctRight : (right.map Prod.fst).Nodup := names ▸ distinct
  have lengths : left.length = right.length := by simpa using congrArg List.length names
  apply List.ext_getElem (by simpa using lengths)
  intro i inLeft inRight
  rw [List.length_map] at inLeft inRight
  have key : left[i].1 = right[i].1 := by
    have named := List.getElem_of_eq names (i := i) (by simpa using inLeft)
    simpa using named
  have atLeft : left[i] ∈ left := List.getElem_mem inLeft
  have atRight : right[i] ∈ right := List.getElem_mem inRight
  rw [List.getElem_map, List.getElem_map, Document.onValue, Document.onValue, key]
  congr 1
  cases first : normalize host left[i].2 with
  | some value =>
      obtain ⟨other, listed, normal⟩ := field_of_normalize_eq host distinct distinctRight same
        atLeft first
      have here := List.inj_on_of_nodup_map distinctRight listed atRight key
      rw [← here, normal]
  | none =>
      cases second : normalize host right[i].2 with
      | none => rfl
      | some value =>
          obtain ⟨other, listed, normal⟩ := field_of_normalize_eq host distinctRight distinct
            same.symm atRight second
          have here := List.inj_on_of_nodup_map distinct listed atLeft key.symm
          rw [← here, normal] at first
          cases first

end MintBot.Treasury
