import Mathlib.Data.List.Basic
import Mathlib.Tactic.Common

/-!
# Work for a fixed number of workers

Work waits in the order it came.  A free worker takes the first piece that waits, and a
worker that is done is free again.  Whenever something waits, every worker is busy, and
with each worker that finishes the first of what waits is started.
-/

universe u

/-- What waits, and what the busy workers run in the order it was started. -/
structure WorkQueue (α : Type u) where
  waiting : List α
  running : List α

namespace WorkQueue

variable {α : Type u}

def idle : WorkQueue α := ⟨[], []⟩

/-- Start what waits while a worker is free, with what was started. -/
def start (workers : Nat) : List α → List α → List α × WorkQueue α
  | [], running => ([], ⟨[], running⟩)
  | next :: rest, running =>
      if running.length < workers then
        let later := start workers rest (running ++ [next])
        (next :: later.1, later.2)
      else ([], ⟨next :: rest, running⟩)

/-- Free workers take what waits. -/
def drain (workers : Nat) (queue : WorkQueue α) : List α × WorkQueue α :=
  start workers queue.waiting queue.running

/-- A piece of work joins the end of the queue. -/
def push (queue : WorkQueue α) (work : α) : WorkQueue α :=
  { queue with waiting := queue.waiting ++ [work] }

/-- A busy worker is done. -/
def finish (queue : WorkQueue α) (worker : Nat) : WorkQueue α :=
  { queue with running := queue.running.eraseIdx worker }

/-- A free worker means that nothing waits. -/
def Saturated (workers : Nat) (queue : WorkQueue α) : Prop :=
  queue.waiting = [] ∨ workers ≤ queue.running.length

/-- No more is run than there are workers. -/
def Bounded (workers : Nat) (queue : WorkQueue α) : Prop :=
  queue.running.length ≤ workers

variable {workers : Nat} {queue : WorkQueue α}

theorem start_append (waiting running : List α) :
    (start workers waiting running).1 ++ (start workers waiting running).2.waiting = waiting := by
  induction waiting generalizing running with
  | nil => rfl
  | cons next rest inductionHypothesis =>
      unfold start
      split
      · exact congrArg (next :: ·) (inductionHypothesis (running ++ [next]))
      · rfl

theorem start_saturated (waiting running : List α) :
    (start workers waiting running).2.Saturated workers := by
  induction waiting generalizing running with
  | nil => exact .inl rfl
  | cons next rest inductionHypothesis =>
      unfold start
      split
      · exact inductionHypothesis (running ++ [next])
      · rename_i busy
        exact .inr (Nat.not_lt.mp busy)

theorem start_bounded {running : List α} (bounded : running.length ≤ workers)
    (waiting : List α) : (start workers waiting running).2.Bounded workers := by
  induction waiting generalizing running with
  | nil => exact bounded
  | cons next rest inductionHypothesis =>
      unfold start
      split
      · rename_i free
        apply inductionHypothesis
        rw [List.length_append, List.length_singleton]
        exact free
      · exact bounded

/-- What is started stood before what still waits. -/
theorem drain_append (workers : Nat) (queue : WorkQueue α) :
    (queue.drain workers).1 ++ (queue.drain workers).2.waiting = queue.waiting :=
  start_append _ _

theorem drain_saturated (queue : WorkQueue α) : (queue.drain workers).2.Saturated workers :=
  start_saturated _ _

theorem drain_bounded (bounded : queue.Bounded workers) :
    (queue.drain workers).2.Bounded workers :=
  start_bounded bounded _

/-- What waits is started, or it waits on behind those before it that were not. -/
theorem drain_split (workers : Nat) {work : α} {before after : List α}
    (waits : queue.waiting = before ++ work :: after) :
    work ∈ (queue.drain workers).1 ∨
      ∃ left, (queue.drain workers).2.waiting = left ++ work :: after ∧
        before = (queue.drain workers).1 ++ left := by
  have split := queue.drain_append workers
  rw [waits] at split
  rcases List.append_eq_append_iff.mp split with ⟨left, same, waiting⟩ | ⟨more, same, waiting⟩
  · exact .inr ⟨left, waiting, same⟩
  · cases more with
    | nil =>
        rw [List.append_nil] at same
        exact .inr ⟨[], waiting.symm, by rw [same, List.append_nil]⟩
    | cons first rest =>
        obtain ⟨rfl, -⟩ := List.cons.inj waiting
        exact .inl (by rw [same]; simp)

/-- A free worker starts something when something waits. -/
theorem drain_of_free (waits : queue.waiting ≠ [])
    (free : queue.running.length < workers) : (queue.drain workers).1 ≠ [] := by
  rw [drain]
  cases waiting : queue.waiting with
  | nil => exact absurd waiting waits
  | cons next rest =>
      rw [start, if_pos free]
      exact List.cons_ne_nil _ _

theorem finish_bounded (bounded : queue.Bounded workers) (worker : Nat) :
    (queue.finish worker).Bounded workers :=
  Nat.le_trans (List.length_eraseIdx_le queue.running worker) bounded

/-- A worker that finishes is free. -/
theorem finish_free (bounded : queue.Bounded workers) {worker : Nat}
    (busy : worker < queue.running.length) : (queue.finish worker).running.length < workers := by
  have fewer := List.length_eraseIdx_of_lt busy
  simp only [finish]
  have := bounded
  unfold Bounded at this
  omega

end WorkQueue
