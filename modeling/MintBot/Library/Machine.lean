import Mathlib.Tactic.Common
import MintBot.Library.Fallible

/-!
# Machines whose commands may fail

A command is applied to a state and either succeeds with a new state or fails.
A failed command leaves the state as it was, in the way a rolled back database
transaction does.  `Reaches` collects the finite runs whose every command meets
a guard that may read the state before it.
-/

namespace Machine

universe u v w

variable {σ : Type u} {ω : Type v} {ε : Type w}

/-- The state after a command: the new state on success, the old one on
failure. -/
def apply (step : ω → σ → Except ε σ) (state : σ) (command : ω) : σ :=
  match step command state with
  | .ok next => next
  | .error _ => state

@[simp]
theorem apply_ok {step : ω → σ → Except ε σ} {state next : σ} {command : ω}
    (success : step command state = .ok next) :
    apply step state command = next := by
  simp [apply, success]

@[simp]
theorem apply_error {step : ω → σ → Except ε σ} {state : σ} {command : ω}
    {failure : ε} (failed : step command state = .error failure) :
    apply step state command = state := by
  simp [apply, failed]

/-- `target` is reached from `source` by finitely many commands, each of which
met `guard` in the state it was applied to. -/
inductive Reaches (step : ω → σ → Except ε σ) (guard : σ → ω → Prop) :
    σ → σ → Prop
  | refl (state : σ) : Reaches step guard state state
  | tail {source middle : σ} (run : Reaches step guard source middle)
      (command : ω) (allowed : guard middle command) :
      Reaches step guard source (apply step middle command)

variable {step : ω → σ → Except ε σ} {guard : σ → ω → Prop}

/-- A property that every successful guarded command preserves holds along
every run that starts in it. -/
theorem Reaches.invariant {I : σ → Prop} {source target : σ}
    (run : Reaches step guard source target) (start : I source)
    (preserved : ∀ state command next, I state → guard state command →
      step command state = .ok next → I next) :
    I target := by
  induction run with
  | refl => exact start
  | @tail middle _ command allowed inductionHypothesis =>
      cases outcome : step command middle with
      | error failure =>
          rw [apply_error outcome]
          exact inductionHypothesis
      | ok next =>
          rw [apply_ok outcome]
          exact preserved middle command next inductionHypothesis allowed outcome

/-- Runs under a stronger guard are runs under a weaker one. -/
theorem Reaches.weaken {guard' : σ → ω → Prop} {source target : σ}
    (run : Reaches step guard source target)
    (weaker : ∀ state command, guard state command → guard' state command) :
    Reaches step guard' source target := by
  induction run with
  | refl => exact .refl source
  | tail _ command allowed inductionHypothesis =>
      exact .tail inductionHypothesis command (weaker _ _ allowed)

/-- The state after a list of commands, applied in order. -/
def applyAll (step : ω → σ → Except ε σ) (state : σ) (commands : List ω) : σ :=
  commands.foldl (apply step) state

/-- Every command of the list meets the guard when its turn comes. -/
def Allowed (step : ω → σ → Except ε σ) (guard : σ → ω → Prop) : σ → List ω → Prop
  | _, [] => True
  | state, command :: rest => guard state command ∧ Allowed step guard (apply step state command) rest

instance Allowed.decidable (step : ω → σ → Except ε σ) (guard : σ → ω → Prop)
    [∀ state command, Decidable (guard state command)] (state : σ) (commands : List ω) :
    Decidable (Allowed step guard state commands) :=
  match commands with
  | [] => .isTrue trivial
  | command :: rest =>
      have := Allowed.decidable step guard (apply step state command) rest
      inferInstanceAs (Decidable (guard state command ∧ _))

/-- Without a guard every list of commands is allowed. -/
theorem allowed_true (step : ω → σ → Except ε σ) (state : σ) (commands : List ω) :
    Allowed step (fun _ _ => True) state commands := by
  induction commands generalizing state with
  | nil => trivial
  | cons command rest inductionHypothesis => exact ⟨trivial, inductionHypothesis _⟩

/-- When the guard says exactly which commands succeed, a list of commands
succeeds as a whole exactly when it is allowed. -/
theorem foldlM_succeeds_iff {step : ω → σ → Except ε σ} {guard : σ → ω → Prop}
    (accepts : ∀ state command, (∃ next, step command state = .ok next) ↔ guard state command)
    (commands : List ω) (state : σ) :
    (∃ final, commands.foldlM (fun state command => step command state) state = .ok final) ↔
      Allowed step guard state commands := by
  induction commands generalizing state with
  | nil => exact ⟨fun _ => trivial, fun _ => ⟨state, rfl⟩⟩
  | cons command rest inductionHypothesis =>
      simp only [List.foldlM_cons, Fallible.bind_eq_ok]
      constructor
      · rintro ⟨final, next, stepped, folded⟩
        refine ⟨(accepts state command).mp ⟨next, stepped⟩, ?_⟩
        rw [apply_ok stepped]
        exact (inductionHypothesis next).mp ⟨final, folded⟩
      · rintro ⟨now, later⟩
        obtain ⟨next, stepped⟩ := (accepts state command).mpr now
        rw [apply_ok stepped] at later
        obtain ⟨final, folded⟩ := (inductionHypothesis next).mpr later
        exact ⟨final, next, stepped, folded⟩

/-- A list of allowed commands is a run. -/
theorem Reaches.applyAll {source middle : σ} (run : Reaches step guard source middle)
    {commands : List ω} (allowed : Allowed step guard middle commands) :
    Reaches step guard source (applyAll step middle commands) := by
  induction commands generalizing middle with
  | nil => exact run
  | cons command rest inductionHypothesis =>
      rcases allowed with ⟨now, later⟩
      exact inductionHypothesis (run.tail command now) later

end Machine
