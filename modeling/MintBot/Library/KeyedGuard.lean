import Mathlib.Logic.Function.Basic
import Mathlib.Tactic.Common

/-!
# A guard with keys

Holders take a key before they begin and give it back when they end.  The guard is the list of
the keys that are taken.
-/

namespace KeyedGuard

universe u v

/-- The guard lists exactly the keys that are held, and no key is held twice. -/
structure Guarded {ι : Type u} {κ : Type v} (holder : ι → Option κ) (taken : List κ) : Prop where
  taken_iff : ∀ key, key ∈ taken ↔ ∃ index, holder index = some key
  alone : ∀ index other key, holder index = some key → holder other = some key → index = other

namespace Guarded

variable {ι : Type u} {κ : Type v} {holder : ι → Option κ} {taken : List κ}

theorem empty : Guarded (fun _ : ι => (none : Option κ)) [] where
  taken_iff key := by simp
  alone _ _ _ held := by cases held

variable [DecidableEq ι] {index : ι} {key : κ}

theorem update_eq_some {value : Option κ} {other : ι} {held : κ} :
    Function.update holder index value other = some held ↔
      (other = index ∧ value = some held) ∨ (other ≠ index ∧ holder other = some held) := by
  by_cases same : other = index
  · subst same
    simp
  · simp [same]

/-- A key that nobody holds may be taken. -/
theorem acquire (guarded : Guarded holder taken) (idle : holder index = none)
    (fresh : key ∉ taken) : Guarded (Function.update holder index (some key)) (key :: taken) where
  taken_iff other := by
    simp only [List.mem_cons, update_eq_some, guarded.taken_iff]
    constructor
    · rintro (rfl | ⟨owner, held⟩)
      · exact ⟨index, .inl ⟨rfl, rfl⟩⟩
      · refine ⟨owner, .inr ⟨?_, held⟩⟩
        rintro rfl
        rw [idle] at held
        cases held
    · rintro ⟨owner, (⟨-, same⟩ | ⟨-, held⟩)⟩
      · exact .inl (Option.some.inj same).symm
      · exact .inr ⟨owner, held⟩
  alone first second other heldFirst heldSecond := by
    have notHeld : ∀ owner, holder owner ≠ some key := fun owner held =>
      fresh ((guarded.taken_iff key).mpr ⟨owner, held⟩)
    rcases update_eq_some.mp heldFirst with ⟨rfl, same⟩ | ⟨-, held⟩
    · obtain rfl := Option.some.inj same
      rcases update_eq_some.mp heldSecond with ⟨rfl, -⟩ | ⟨-, held⟩
      · rfl
      · exact absurd held (notHeld second)
    · rcases update_eq_some.mp heldSecond with ⟨rfl, same⟩ | ⟨-, heldToo⟩
      · obtain rfl := Option.some.inj same
        exact absurd held (notHeld first)
      · exact guarded.alone first second other held heldToo

/-- A holder gives its key back. -/
theorem release [DecidableEq κ] (guarded : Guarded holder taken) (held : holder index = some key) :
    Guarded (Function.update holder index none) (taken.filter fun other => other ≠ key) where
  taken_iff other := by
    simp only [List.mem_filter, decide_eq_true_eq, guarded.taken_iff, update_eq_some]
    constructor
    · rintro ⟨⟨owner, heldOther⟩, different⟩
      refine ⟨owner, .inr ⟨?_, heldOther⟩⟩
      rintro rfl
      rw [held] at heldOther
      exact different (Option.some.inj heldOther).symm
    · rintro ⟨owner, (⟨-, none⟩ | ⟨different, heldOther⟩)⟩
      · cases none
      · refine ⟨⟨owner, heldOther⟩, ?_⟩
        rintro rfl
        exact different (guarded.alone owner index other heldOther held)
  alone first second other heldFirst heldSecond := by
    rcases update_eq_some.mp heldFirst with ⟨-, none⟩ | ⟨-, heldFirst⟩
    · cases none
    rcases update_eq_some.mp heldSecond with ⟨-, none⟩ | ⟨-, heldSecond⟩
    · cases none
    exact guarded.alone first second other heldFirst heldSecond

/-- A holder without a key that still has none changes nothing. -/
theorem keep (guarded : Guarded holder taken) {value : Option κ} (same : holder index = value) :
    Guarded (Function.update holder index value) taken := by
  rwa [← same, Function.update_eq_self]

end Guarded

end KeyedGuard
