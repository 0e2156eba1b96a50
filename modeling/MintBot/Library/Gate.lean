import MintBot.Library.Machine

/-!
# Gates

A gate is a part of the state that does nothing but refuse commands; unlocking
it takes a state to one in which nothing is refused for its sake.  A gated
command has the same effect behind the closed gate and behind the unlocked one,
and `free` says from which states the closed gate lets it through.  Commands
that follow each other are gated when each of them is, so the states in which a
whole transaction is let through can be read off its writes.
-/

namespace Gate

open Fallible

universe u v w

variable {σ : Type u} {ω : Type v} {ε : Type w}

/-- What succeeds behind the gate has the same effect once the gate is unlocked,
and what succeeds unlocked succeeds behind the gate exactly from free states. -/
structure Gated (unlock : σ → σ) (free : σ → Prop) (command : σ → Except ε σ) : Prop where
  opened : ∀ {state next : σ}, command state = .ok next →
    command (unlock state) = .ok (unlock next)
  free_iff : ∀ {state next : σ}, command (unlock state) = .ok next →
    ((∃ next, command state = .ok next) ↔ free state)

variable {unlock : σ → σ}

theorem map_eq_ok {α β : Type u} {computation : Except ε α} {change : α → β} {result : β} :
    computation.map change = .ok result ↔ ∃ value, computation = .ok value ∧ change value = result := by
  cases computation <;> simp [Except.map]

namespace Gated

/-- A command that does not look at the gate is never held up by it. -/
theorem ungated {command : σ → Except ε σ}
    (blind : ∀ state, command (unlock state) = (command state).map unlock) :
    Gated unlock (fun _ => True) command where
  opened success := by
    rw [blind, success]
    rfl
  free_iff {state next} unlocked := by
    rw [blind, map_eq_ok] at unlocked
    obtain ⟨closed, success, -⟩ := unlocked
    exact iff_of_true ⟨closed, success⟩ trivial

/-- The free states may be described in any way that agrees where the unlocked
command succeeds. -/
theorem congr {free free' : σ → Prop} {command : σ → Except ε σ}
    (gated : Gated unlock free command)
    (same : ∀ {state next}, command (unlock state) = .ok next → (free state ↔ free' state)) :
    Gated unlock free' command where
  opened := gated.opened
  free_iff unlocked := (gated.free_iff unlocked).trans (same unlocked)

/-- Two commands in a row are let through when the first is and the second is in
the state after it. -/
theorem bind {free freeAfter : σ → Prop} {first second : σ → Except ε σ}
    (gatedFirst : Gated unlock free first) (gatedSecond : Gated unlock freeAfter second) :
    Gated unlock
      (fun state => free state ∧ ∀ middle, first state = .ok middle → freeAfter middle)
      (fun state => first state >>= second) where
  opened success := by
    obtain ⟨middle, stepped, finished⟩ := bind_eq_ok.mp success
    exact bind_eq_ok.mpr ⟨_, gatedFirst.opened stepped, gatedSecond.opened finished⟩
  free_iff {state next} unlocked := by
    obtain ⟨unlockedMiddle, stepped, finished⟩ := bind_eq_ok.mp unlocked
    have freeFirst := gatedFirst.free_iff stepped
    -- The unlocked second command starts where the unlocked first one ended.
    have same : ∀ middle, first state = .ok middle → unlock middle = unlockedMiddle :=
      fun middle success => Except.ok.inj ((gatedFirst.opened success).symm.trans stepped)
    constructor
    · rintro ⟨final, success⟩
      obtain ⟨middle, closed, ended⟩ := bind_eq_ok.mp success
      refine ⟨freeFirst.mp ⟨middle, closed⟩, fun other otherClosed => ?_⟩
      obtain rfl := Except.ok.inj (closed.symm.trans otherClosed)
      rw [← same middle closed] at finished
      exact (gatedSecond.free_iff finished).mp ⟨final, ended⟩
    · rintro ⟨now, later⟩
      obtain ⟨middle, closed⟩ := freeFirst.mpr now
      rw [← same middle closed] at finished
      obtain ⟨final, ended⟩ := (gatedSecond.free_iff finished).mpr (later middle closed)
      exact ⟨final, bind_eq_ok.mpr ⟨middle, closed, ended⟩⟩

/-- A list of gated commands is let through when each of them is, in the state
of its turn. -/
theorem foldlM {step : ω → σ → Except ε σ} {free : ω → σ → Prop}
    (gated : ∀ command, Gated unlock (free command) (step command)) (commands : List ω) :
    Gated unlock (fun state => Machine.Allowed step (fun state command => free command state)
        state commands)
      (fun state => commands.foldlM (fun state command => step command state) state) := by
  induction commands with
  | nil => exact ungated fun _ => rfl
  | cons command rest inductionHypothesis =>
      refine congr (bind (gated command) inductionHypothesis) ?_
      intro state next unlocked
      obtain ⟨middle, stepped, -⟩ := bind_eq_ok.mp unlocked
      refine and_congr_right fun now => ?_
      obtain ⟨closed, success⟩ := ((gated command).free_iff stepped).mpr now
      simp only [success, Except.ok.injEq, forall_eq', Machine.apply_ok success]

/-- A gated command after a step that the gate does not touch. -/
theorem after {free : σ → Prop} {first second : σ → Except ε σ}
    (blind : ∀ state, first (unlock state) = (first state).map unlock)
    (gated : Gated unlock free second) :
    Gated unlock (fun state => ∀ middle, first state = .ok middle → free middle)
      (fun state => first state >>= second) :=
  congr (bind (ungated blind) gated) fun _ => by simp

/-- A gated command before a step that the gate does not touch. -/
theorem before {free : σ → Prop} {first second : σ → Except ε σ}
    (gated : Gated unlock free first)
    (blind : ∀ state, second (unlock state) = (second state).map unlock) :
    Gated unlock free (fun state => first state >>= second) :=
  congr (bind gated (ungated blind)) fun _ => by simp

end Gated

/-! ## Blind computations -/

/-- Steps that do not look at the gate, one after the other. -/
theorem blind_foldlM {β : Type v} {step : σ → β → Except ε σ}
    (blind : ∀ item state, step (unlock state) item = (step state item).map unlock)
    (items : List β) (state : σ) :
    items.foldlM step (unlock state) = (items.foldlM step state).map unlock := by
  induction items generalizing state with
  | nil => rfl
  | cons item rest inductionHypothesis =>
      rw [List.foldlM_cons, List.foldlM_cons, blind]
      cases step state item with
      | error failure => rfl
      | ok next => exact inductionHypothesis next

/-- Two steps that do not look at the gate, one after the other. -/
theorem blind_bind (first second : σ → Except ε σ)
    (blindFirst : ∀ state, first (unlock state) = (first state).map unlock)
    (blindSecond : ∀ state, second (unlock state) = (second state).map unlock) (state : σ) :
    first (unlock state) >>= second = (first state >>= second).map unlock := by
  rw [blindFirst]
  cases first state with
  | error failure => rfl
  | ok middle => exact blindSecond middle

theorem map_bind {α β γ : Type u} (computation : Except ε α) (next : α → Except ε β)
    (change : β → γ) :
    (computation >>= next).map change = computation >>= fun value => (next value).map change := by
  cases computation <;> rfl

end Gate
