import Mathlib.Data.List.Forall2

/-!
# Computations that may fail

Rules for reading a successful `Except` computation backwards: what a bind, a
refused condition, an optional value or a fold of fallible steps must have done
for the whole to succeed.
-/

namespace Fallible

universe u v w

variable {ε : Type u} {α β σ : Type v}

/-- A bind succeeds exactly when both of its computations do. -/
theorem bind_eq_ok {first : Except ε α} {next : α → Except ε β} {result : β} :
    (first >>= next) = .ok result ↔
      ∃ value, first = .ok value ∧ next value = .ok result := by
  cases first with
  | error failure => simp [bind, Except.bind]
  | ok value => simp [bind, Except.bind]

/-- A successful step is followed by the next one. -/
theorem ok_bind (value : α) (next : α → Except ε β) :
    ((Except.ok value : Except ε α) >>= next) = next value := rfl

theorem pure_eq_ok {value result : α} :
    (pure value : Except ε α) = .ok result ↔ value = result := by
  simp [pure, Except.pure]

/-- Fail with `failure` when `bad` holds. -/
def refuse (bad : Prop) [Decidable bad] (failure : ε) : Except ε PUnit.{v + 1} :=
  if bad then .error failure else .ok ⟨⟩

theorem refuse_eq_ok {bad : Prop} [Decidable bad] {failure : ε} {result : PUnit} :
    refuse bad failure = .ok result ↔ ¬ bad := by
  by_cases holds : bad <;> simp [refuse, holds]

/-- Make a check only under a condition. -/
def onlyIf (condition : Prop) [Decidable condition] (check : Except ε PUnit.{v + 1}) :
    Except ε PUnit.{v + 1} :=
  if condition then check else .ok ⟨⟩

theorem onlyIf_eq_ok {condition : Prop} [Decidable condition]
    {check : Except ε PUnit.{v + 1}} {result : PUnit} :
    onlyIf condition check = .ok result ↔ (condition → check = .ok result) := by
  by_cases holds : condition <;> simp [onlyIf, holds]

/-- The value of an option, or a failure when there is none. -/
def require (value : Option α) (failure : ε) : Except ε α :=
  match value with
  | some found => .ok found
  | none => .error failure

theorem require_eq_ok {value : Option α} {failure : ε} {result : α} :
    require value failure = .ok result ↔ value = some result := by
  cases value <;> simp [require]

theorem mem_toOption {computation : Except ε α} {value : α} :
    value ∈ computation.toOption ↔ computation = .ok value := by
  cases computation <;> simp [Except.toOption]

/-- A fallible map succeeds exactly when each of its items does. -/
theorem mapM_eq_ok {f : α → Except ε β} {items : List α} {results : List β} :
    items.mapM f = .ok results ↔
      List.Forall₂ (fun item result => f item = .ok result) items results := by
  induction items generalizing results with
  | nil =>
      rw [List.mapM_nil, pure_eq_ok, List.forall₂_nil_left_iff]
      exact eq_comm
  | cons item rest inductionHypothesis =>
      rw [List.mapM_cons]
      simp only [bind_eq_ok, pure_eq_ok, inductionHypothesis]
      constructor
      · rintro ⟨result, first, others, mapped, rfl⟩
        exact .cons first mapped
      · rintro (_ | ⟨first, mapped⟩)
        exact ⟨_, first, _, mapped, rfl⟩

/-- A fallible map succeeds when its function does on every item. -/
theorem mapM_succeeds {f : α → Except ε β} {items : List α} :
    (∃ results, items.mapM f = .ok results) ↔ ∀ item ∈ items, ∃ result, f item = .ok result := by
  simp only [mapM_eq_ok]
  induction items with
  | nil => exact ⟨fun _ => nofun, fun _ => ⟨[], .nil⟩⟩
  | cons item rest inductionHypothesis =>
      rw [List.forall_mem_cons, ← inductionHypothesis]
      constructor
      · rintro ⟨_, _ | ⟨first, others⟩⟩
        exact ⟨⟨_, first⟩, ⟨_, others⟩⟩
      · rintro ⟨⟨result, first⟩, ⟨results, others⟩⟩
        exact ⟨result :: results, .cons first others⟩

/-- An invariant of one fallible step is an invariant of the fold. -/
theorem foldlM_invariant {I : σ → Prop} {step : σ → β → Except ε σ} {items : List β}
    (preserved : ∀ state, ∀ item ∈ items, ∀ next, I state →
      step state item = .ok next → I next)
    {state final : σ} (start : I state) (success : items.foldlM step state = .ok final) :
    I final := by
  induction items generalizing state with
  | nil =>
      rw [List.foldlM_nil, pure_eq_ok] at success
      exact success ▸ start
  | cons item rest inductionHypothesis =>
      rw [List.foldlM_cons, bind_eq_ok] at success
      rcases success with ⟨next, stepped, folded⟩
      refine inductionHypothesis ?_ (preserved state item (by simp) next start stepped) folded
      exact fun middle other member => preserved middle other (by simp [member])

/-- In a fold that succeeds, every item was taken in a state that the invariant
describes. -/
theorem foldlM_mem {I : σ → Prop} {step : σ → β → Except ε σ} {items : List β}
    (preserved : ∀ state, ∀ item ∈ items, ∀ next, I state →
      step state item = .ok next → I next)
    {state final : σ} (start : I state) (success : items.foldlM step state = .ok final)
    {item : β} (member : item ∈ items) : ∃ before after, I before ∧ step before item = .ok after := by
  induction items generalizing state with
  | nil => cases member
  | cons first rest inductionHypothesis =>
      rw [List.foldlM_cons, bind_eq_ok] at success
      obtain ⟨next, stepped, folded⟩ := success
      rcases List.mem_cons.mp member with rfl | later
      · exact ⟨state, next, start, stepped⟩
      · refine inductionHypothesis ?_ (preserved state first (by simp) next start stepped) folded later
        exact fun middle other inRest => preserved middle other (by simp [inRest])

/-- What the step of an item establishes, and other steps keep, holds of every item
at the end of the fold. -/
theorem foldlM_establishes {P : β → σ → Prop} {step : σ → β → Except ε σ} {items : List β}
    (established : ∀ state item next, step state item = .ok next → P item next)
    (kept : ∀ item state other next, P item state → step state other = .ok next → P item next)
    {state final : σ} (success : items.foldlM step state = .ok final) :
    ∀ item ∈ items, P item final := by
  induction items generalizing state with
  | nil => simp
  | cons first rest inductionHypothesis =>
      rw [List.foldlM_cons, bind_eq_ok] at success
      obtain ⟨next, stepped, folded⟩ := success
      refine List.forall_mem_cons.mpr ⟨?_, inductionHypothesis folded⟩
      exact foldlM_invariant (fun middle other _ after => kept first middle other after)
        (established state first next stepped) folded

/-- A relation from the start that each fallible step extends relates the two
ends of the fold. -/
theorem foldlM_related {R : σ → σ → Prop} {step : σ → β → Except ε σ} {items : List β}
    (extended : ∀ first state, ∀ item ∈ items, ∀ next, R first state →
      step state item = .ok next → R first next)
    {state final : σ} (start : R state state)
    (success : items.foldlM step state = .ok final) :
    R state final :=
  foldlM_invariant (extended state) start success

end Fallible
