import Mathlib.Tactic.Common

/-!
# Scripts of statements in a transaction

A script runs statements one after the other on a state.  A statement that fails ends the script,
and what the statements before it wrote stays written: only `immediate`, a transaction around a
script, takes it back.
-/

universe u

/-- Statements that read and write a state and may fail. -/
abbrev Script (ε σ α : Type u) := ExceptT ε (StateM σ) α

namespace Script

variable {ε σ α β : Type u}

/-- What a script answers, and the state it leaves. -/
def attempt (script : Script ε σ α) (state : σ) : Except ε α × σ :=
  script.run.run state

/-- The script succeeds with a value and leaves a state. -/
def Ends (script : Script ε σ α) (state : σ) (value : α) (next : σ) : Prop :=
  attempt script state = (.ok value, next)

/-! ## Statements -/

/-- Read something of the state. -/
def read (view : σ → α) : Script ε σ α :=
  ExceptT.mk fun state => (.ok (view state), state)

/-- Write the state. -/
def write (change : σ → σ) : Script ε σ PUnit :=
  ExceptT.mk fun state => (.ok ⟨⟩, change state)

/-- Fail when the state is bad. -/
def refuse (bad : σ → Prop) [DecidablePred bad] (failure : ε) : Script ε σ PUnit :=
  ExceptT.mk fun state => (if bad state then .error failure else .ok ⟨⟩, state)

/-- The value of an option, or a failure when there is none. -/
def require (view : σ → Option α) (failure : ε) : Script ε σ α :=
  ExceptT.mk fun state =>
    (match view state with
      | some found => .ok found
      | none => .error failure, state)

/-- Run a script only under a condition. -/
def onlyIf (condition : Prop) [Decidable condition] (script : Script ε σ PUnit) :
    Script ε σ PUnit :=
  if condition then script else pure ⟨⟩

/-- Run a script for the value of an option, if there is one. -/
def forSome (value : Option β) (script : β → Script ε σ PUnit) : Script ε σ PUnit :=
  match value with
  | some found => script found
  | none => pure ⟨⟩

/-- A transaction: a script that fails leaves the state as it was. -/
def immediate (script : Script ε σ α) : Script ε σ α :=
  ExceptT.mk fun state =>
    match attempt script state with
    | (.ok value, next) => (.ok value, next)
    | (.error failure, _) => (.error failure, state)

/-! ## Scripts that succeed -/

variable {state next : σ} {value : α}

theorem ends_pure {result : α} :
    Ends (pure result : Script ε σ α) state value next ↔ value = result ∧ next = state := by
  change (Except.ok result, state) = (Except.ok value, next) ↔ _
  simp only [Prod.mk.injEq, Except.ok.injEq]
  exact and_congr eq_comm eq_comm

/-- A failure of the first script is the outcome of the whole. -/
theorem attempt_bind {first : Script ε σ β} {rest : β → Script ε σ α} :
    attempt (first >>= rest) state =
      match attempt first state with
      | (.ok result, middle) => attempt (rest result) middle
      | (.error failure, middle) => (.error failure, middle) := by
  change (match first.run.run state with
    | (outcome, middle) => (ExceptT.bindCont rest outcome).run middle) = _
  unfold attempt
  rcases first.run.run state with ⟨_ | _, middle⟩ <;> rfl

theorem ends_bind {first : Script ε σ β} {rest : β → Script ε σ α} :
    Ends (first >>= rest) state value next ↔
      ∃ result middle, Ends first state result middle ∧ Ends (rest result) middle value next := by
  unfold Ends
  rw [attempt_bind]
  rcases attempt first state with ⟨failure | result, middle⟩
  · simp
  · constructor
    · intro ended
      exact ⟨result, middle, rfl, ended⟩
    · rintro ⟨_, _, ⟨⟩, ended⟩
      exact ended

theorem ends_read {view : σ → α} :
    Ends (read view : Script ε σ α) state value next ↔ value = view state ∧ next = state := by
  change (Except.ok (view state), state) = (Except.ok value, next) ↔ _
  simp only [Prod.mk.injEq, Except.ok.injEq]
  exact and_congr eq_comm eq_comm

theorem ends_write {change : σ → σ} {result : PUnit} :
    Ends (write change : Script ε σ PUnit) state result next ↔ next = change state := by
  change (Except.ok PUnit.unit, change state) = (Except.ok result, next) ↔ _
  simp only [Prod.mk.injEq, true_and]
  exact eq_comm

theorem ends_refuse {bad : σ → Prop} [DecidablePred bad] {failure : ε} {result : PUnit} :
    Ends (refuse bad failure) state result next ↔ ¬ bad state ∧ next = state := by
  change (if bad state then Except.error failure else Except.ok PUnit.unit, state) =
    (Except.ok result, next) ↔ _
  by_cases holds : bad state
  · simp [holds]
  · simp [holds, eq_comm]

theorem ends_require {view : σ → Option α} {failure : ε} :
    Ends (require view failure) state value next ↔ view state = some value ∧ next = state := by
  change ((match view state with
    | some found => Except.ok found
    | none => Except.error failure), state) = (Except.ok value, next) ↔ _
  cases view state with
  | none => simp
  | some found => simp [eq_comm]

theorem ends_onlyIf {condition : Prop} [Decidable condition] {script : Script ε σ PUnit}
    {result : PUnit} :
    Ends (onlyIf condition script) state result next ↔
      condition ∧ Ends script state result next ∨ ¬ condition ∧ next = state := by
  unfold onlyIf
  by_cases holds : condition
  · simp [holds]
  · rw [if_neg holds, ends_pure]
    simp [holds]

theorem ends_forSome {option : Option β} {script : β → Script ε σ PUnit} {result : PUnit} :
    Ends (forSome option script) state result next ↔
      (∃ found, option = some found ∧ Ends (script found) state result next) ∨
        option = none ∧ next = state := by
  cases option with
  | none =>
      change Ends (pure ⟨⟩ : Script ε σ PUnit) state result next ↔ _
      rw [ends_pure]
      simp
  | some found =>
      change Ends (script found) state result next ↔ _
      simp

theorem ends_immediate {script : Script ε σ α} :
    Ends (immediate script) state value next ↔ Ends script state value next := by
  change (match attempt script state with
    | (.ok value, next) => (Except.ok value, next)
    | (.error failure, _) => (Except.error failure, state)) = (Except.ok value, next) ↔ _
  unfold Ends
  rcases attempt script state with ⟨failure | result, middle⟩
  · simp
  · rfl

/-! ## The first statement of a script that succeeds -/

theorem ends_read_bind {view : σ → β} {rest : β → Script ε σ α} :
    Ends (read view >>= rest) state value next ↔ Ends (rest (view state)) state value next := by
  rw [ends_bind]
  constructor
  · rintro ⟨_, _, ran, ended⟩
    obtain ⟨rfl, rfl⟩ := ends_read.mp ran
    exact ended
  · exact fun ended => ⟨_, _, ends_read.mpr ⟨rfl, rfl⟩, ended⟩

theorem ends_write_bind {change : σ → σ} {rest : PUnit → Script ε σ α} :
    Ends (write change >>= rest) state value next ↔ Ends (rest ⟨⟩) (change state) value next := by
  rw [ends_bind]
  constructor
  · rintro ⟨_, _, ran, ended⟩
    obtain rfl := ends_write.mp ran
    exact ended
  · exact fun ended => ⟨_, _, ends_write.mpr rfl, ended⟩

theorem ends_refuse_bind {bad : σ → Prop} [DecidablePred bad] {failure : ε}
    {rest : PUnit → Script ε σ α} :
    Ends (refuse bad failure >>= rest) state value next ↔
      ¬ bad state ∧ Ends (rest ⟨⟩) state value next := by
  rw [ends_bind]
  constructor
  · rintro ⟨_, _, ran, ended⟩
    obtain ⟨good, rfl⟩ := ends_refuse.mp ran
    exact ⟨good, ended⟩
  · exact fun ⟨good, ended⟩ => ⟨_, _, ends_refuse.mpr ⟨good, rfl⟩, ended⟩

theorem ends_require_bind {view : σ → Option β} {failure : ε} {rest : β → Script ε σ α} :
    Ends (require view failure >>= rest) state value next ↔
      ∃ found, view state = some found ∧ Ends (rest found) state value next := by
  rw [ends_bind]
  constructor
  · rintro ⟨found, _, ran, ended⟩
    obtain ⟨present, rfl⟩ := ends_require.mp ran
    exact ⟨found, present, ended⟩
  · exact fun ⟨found, present, ended⟩ => ⟨found, _, ends_require.mpr ⟨present, rfl⟩, ended⟩

/-! ## Scripts that fail -/

/-- A script that fails leaves the state as it was. -/
def Undone (script : Script ε σ α) : Prop :=
  ∀ state failure next, attempt script state = (.error failure, next) → next = state

/-- A script that writes nothing. -/
def Quiet (script : Script ε σ α) : Prop :=
  ∀ state, (attempt script state).2 = state

theorem Quiet.refuse (bad : σ → Prop) [DecidablePred bad] (failure : ε) :
    Quiet (refuse bad failure) :=
  fun _ => rfl

theorem Quiet.undone {script : Script ε σ α} (quiet : Quiet script) : Undone script := by
  intro state failure next failed
  rw [← quiet state, failed]

theorem Undone.immediate (script : Script ε σ α) : Undone (immediate script) := by
  intro state failure next failed
  change (match attempt script state with
    | (.ok value, next) => (Except.ok value, next)
    | (.error failure, _) => (Except.error failure, state)) = (Except.error failure, next) at failed
  rcases ran : attempt script state with ⟨outcome, middle⟩
  rw [ran] at failed
  cases outcome with
  | error _ => exact (Prod.mk.inj failed).2.symm
  | ok _ => cases failed

/-- A script whose answer is dropped. -/
theorem Undone.drop {script : Script ε σ α} (undone : Undone script) {result : β} :
    Undone (script >>= fun _ => pure result) := by
  intro state failure next failed
  rw [attempt_bind] at failed
  rcases ran : attempt script state with ⟨other | _, middle⟩
  · rw [ran] at failed
    obtain ⟨-, rfl⟩ := Prod.mk.inj failed
    exact undone state other middle ran
  · rw [ran] at failed
    cases failed

/-- A script after one that writes nothing. -/
theorem Undone.after {first : Script ε σ β} {rest : β → Script ε σ α} (quiet : Quiet first)
    (undone : ∀ result, Undone (rest result)) : Undone (first >>= rest) := by
  intro state failure next failed
  rw [attempt_bind] at failed
  have same := quiet state
  rcases ran : attempt first state with ⟨_ | result, middle⟩
  · rw [ran] at failed same
    obtain ⟨-, rfl⟩ := Prod.mk.inj failed
    exact same
  · rw [ran] at failed same
    obtain rfl : middle = state := same
    exact undone result middle failure next failed

end Script
