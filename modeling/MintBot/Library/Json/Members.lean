import MintBot.Library.Json.Document

/-!
# Objects with named members

The members of a record: required ones, and optional ones that are left out when their value
is undefined.  `property` reads a member by its name.
-/

namespace Json

variable {α : Type}

/-- A member that is left out when its value is undefined. -/
def optionalMember (name : String) (value : Option (Document α)) : List (Text × Document α) :=
  (value.map fun value => (ascii name, value)).toList

/-- The members of an object; other values have none. -/
def membersOf : Document α → List (Text × Document α)
  | .object members => members
  | _ => []

/-- A property of an object, or undefined. -/
def property (name : String) (members : List (Text × Document α)) : Option (Document α) :=
  (members.find? fun member => member.1 = ascii name).map Prod.snd

theorem property_head (name : String) (value : Document α) (rest : List (Text × Document α)) :
    property name ((ascii name, value) :: rest) = some value := by
  simp [property]

theorem property_tail {name other : String} (different : ascii other ≠ ascii name)
    (value : Document α) (rest : List (Text × Document α)) :
    property name ((ascii other, value) :: rest) = property name rest := by
  simp [property, different]

theorem mem_optionalMember {name : String} {value : Option (Document α)}
    {member : Text × Document α} (listed : member ∈ optionalMember name value) :
    member.2 ∈ value.toList := by
  obtain ⟨known, same, rfl⟩ : ∃ known, value = some known ∧ (ascii name, known) = member := by
    simpa [optionalMember] using listed
  rw [same]
  exact List.mem_singleton_self known

theorem optionalMember_sublist (name : String) (value : Option (Document α)) :
    ((optionalMember name value).map Prod.fst).Sublist [ascii name] := by
  cases value with
  | none => exact List.nil_sublist _
  | some value => exact List.Sublist.refl _

/-- An object whose keys are distinct and no array indices holds its members as listed. -/
theorem ownMembers_of_sublist {members : List (Text × α)} {keys : List Text}
    (sublist : (members.map Prod.fst).Sublist keys) (distinct : keys.Nodup)
    (names : ∀ key ∈ keys, arrayIndex? key = none) : OwnMembers members where
  distinct := sublist.nodup distinct
  ordered := by
    have name (member) (known : member ∈ members) : arrayIndex? member.1 = none :=
      names _ (sublist.subset (List.mem_map_of_mem known))
    have noIndex : (members.filter fun member => (arrayIndex? member.1).isSome) = [] := by
      refine List.filter_eq_nil_iff.2 fun member known => ?_
      rw [name member known]
      exact Bool.false_ne_true
    have allNames : (members.filter fun member => (arrayIndex? member.1).isNone) = members := by
      refine List.filter_eq_self.2 fun member known => ?_
      rw [name member known]
      rfl
    rw [ownOrder, noIndex, allNames]
    rfl

end Json
