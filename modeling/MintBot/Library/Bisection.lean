import Mathlib.Algebra.Order.Ring.Nat

/-!
# Bisection

A reader gives a value at some places.  `narrow` halves an interval whose first value is at most a
bound and whose last value is above it, a limited number of times, and refuses a value that is not
between the values at the ends.

What it gives still brackets the bound, whatever the reader does.  When the values do not fall and
the interval is no longer than two to the power of the steps, it gives two neighbours, and the
second is the one place where the values first exceed the bound.
-/

namespace Bisection

variable {β : Type} [LinearOrder β] (valueAt : Nat → Option β) (bound : β)

/-- Halve an interval until its ends are neighbours, at most so many times. -/
def narrow : Nat → Nat → Nat → Option (Nat × Nat)
  | 0, low, high => some (low, high)
  | steps + 1, low, high =>
      if low + 1 < high then do
        let middle := (low + high) / 2
        let value ← valueAt middle
        let atLow ← valueAt low
        let atHigh ← valueAt high
        if atLow ≤ value ∧ value ≤ atHigh then
          if bound < value then narrow steps low middle else narrow steps middle high
        else none
      else some (low, high)

/-- The value at the first place is at most the bound, and the value at the last is above it. -/
structure Brackets (low high : Nat) : Prop where
  below : ∃ value, valueAt low = some value ∧ value ≤ bound
  above : ∃ value, valueAt high = some value ∧ bound < value

variable {valueAt bound}

/-- One halving: the middle was read, and it became the end on its side of the bound. -/
theorem narrow_succ {steps low high : Nat} {result : Nat × Nat} (apart : low + 1 < high)
    (narrowed : narrow valueAt bound (steps + 1) low high = some result) :
    ∃ value, valueAt ((low + high) / 2) = some value ∧
      ((bound < value ∧ narrow valueAt bound steps low ((low + high) / 2) = some result) ∨
        (value ≤ bound ∧ narrow valueAt bound steps ((low + high) / 2) high = some result)) := by
  rw [narrow, if_pos apart] at narrowed
  obtain ⟨value, read, narrowed⟩ := Option.bind_eq_some_iff.mp narrowed
  obtain ⟨atLow, -, narrowed⟩ := Option.bind_eq_some_iff.mp narrowed
  obtain ⟨atHigh, -, narrowed⟩ := Option.bind_eq_some_iff.mp narrowed
  refine ⟨value, read, ?_⟩
  split at narrowed
  · split at narrowed
    · exact .inl ⟨‹_›, narrowed⟩
    · exact .inr ⟨not_lt.mp ‹_›, narrowed⟩
  · cases narrowed

/-- The interval only shrinks, and it brackets the bound as long as it did. -/
theorem narrow_brackets {steps low high : Nat} {result : Nat × Nat}
    (narrowed : narrow valueAt bound steps low high = some result)
    (brackets : Brackets valueAt bound low high) (before : low < high) :
    Brackets valueAt bound result.1 result.2 ∧ low ≤ result.1 ∧ result.1 < result.2 ∧
      result.2 ≤ high := by
  induction steps generalizing low high with
  | zero =>
      obtain rfl := Option.some.inj narrowed
      exact ⟨brackets, le_refl _, before, le_refl _⟩
  | succ steps ih =>
      by_cases apart : low + 1 < high
      · obtain ⟨value, read, ⟨above, narrowed⟩ | ⟨below, narrowed⟩⟩ := narrow_succ apart narrowed
        · have kept := ih narrowed ⟨brackets.below, value, read, above⟩ (by omega)
          exact ⟨kept.1, kept.2.1, kept.2.2.1, by omega⟩
        · have kept := ih narrowed ⟨⟨value, read, below⟩, brackets.above⟩ (by omega)
          exact ⟨kept.1, by omega, kept.2.2⟩
      · rw [narrow, if_neg apart, Option.some.injEq] at narrowed
        subst narrowed
        exact ⟨brackets, le_refl _, before, le_refl _⟩

/-- The values that do not fall over an interval. -/
structure Rises (valueAt : Nat → Option β) (values : Nat → β) (low high : Nat) : Prop where
  reads : ∀ place, low ≤ place → place ≤ high → valueAt place = some (values place)
  rises : ∀ first second, low ≤ first → first ≤ second → second ≤ high →
    values first ≤ values second

variable {values : Nat → β}

theorem Rises.sub {low high low' high' : Nat} (rises : Rises valueAt values low high)
    (first : low ≤ low') (last : high' ≤ high) : Rises valueAt values low' high' where
  reads := fun place above below => rises.reads place (first.trans above) (below.trans last)
  rises := fun left right above before below =>
    rises.rises left right (first.trans above) before (below.trans last)

/-- With enough steps a rising reader is narrowed to two neighbours. -/
theorem narrow_meets {steps low high : Nat} (rises : Rises valueAt values low high)
    (before : low < high) (enough : high - low ≤ 2 ^ steps) :
    ∃ place, narrow valueAt bound steps low high = some (place, place + 1) := by
  induction steps generalizing low high with
  | zero =>
      have next : high = low + 1 := by
        rw [Nat.pow_zero] at enough
        omega
      exact ⟨low, by rw [narrow, next]⟩
  | succ steps ih =>
      by_cases apart : low + 1 < high
      · have reads := rises.reads
        have atMiddle := reads ((low + high) / 2) (by omega) (by omega)
        have atLow := reads low (le_refl _) before.le
        have atHigh := reads high before.le (le_refl _)
        have between : values low ≤ values ((low + high) / 2) ∧
            values ((low + high) / 2) ≤ values high :=
          ⟨rises.rises _ _ (le_refl _) (by omega) (by omega),
            rises.rises _ _ (by omega) (by omega) (le_refl _)⟩
        rw [Nat.pow_succ] at enough
        simp only [narrow, if_pos apart, atMiddle, atLow, atHigh, Option.bind_eq_bind,
          Option.bind_some, if_pos between]
        split
        · exact ih (rises.sub (le_refl _) (by omega)) (by omega) (by omega)
        · exact ih (rises.sub (by omega) (le_refl _)) (by omega) (by omega)
      · exact ⟨low, by rw [narrow, if_neg apart, show high = low + 1 by omega]⟩

/-- Over rising values the neighbours that bracket the bound are where it is first exceeded. -/
theorem Brackets.first_above {low high place : Nat} (rises : Rises valueAt values low high)
    (brackets : Brackets valueAt bound place (place + 1)) (first : low ≤ place)
    (last : place + 1 ≤ high) {other : Nat} (above : low ≤ other) (below : other ≤ high) :
    bound < values other ↔ place + 1 ≤ other := by
  obtain ⟨atPlace, readPlace, small⟩ := brackets.below
  obtain ⟨atNext, readNext, large⟩ := brackets.above
  rw [rises.reads _ first (by omega), Option.some.injEq] at readPlace
  rw [rises.reads _ (by omega) last, Option.some.injEq] at readNext
  subst readPlace readNext
  constructor
  · intro exceeds
    by_contra earlier
    exact absurd (rises.rises other place above (by omega) (by omega))
      (not_le.mpr (small.trans_lt exceeds))
  · intro later
    exact large.trans_le (rises.rises _ other (by omega) later below)

end Bisection
