import Mathlib.Data.List.Basic
import Mathlib.Tactic.Linarith
import Mathlib.Tactic.Ring

/-!
# The order of numbers and the order of their digits

Digits of one length are ordered as the numbers they write, and more digits write a greater number
when the first of them is not zero.
-/

namespace DigitOrder

/-- The number that decimal digits write. -/
def value (digits : List Char) : Nat :=
  Nat.ofDigitChars 10 digits 0

def Digits (digits : List Char) : Prop :=
  ∀ char ∈ digits, char.isDigit = true

instance (digits : List Char) : Decidable (Digits digits) :=
  List.decidableBAll (fun char : Char => char.isDigit = true) digits

variable {first second : Char} {digits others : List Char}

theorem Digits.head (all : Digits (first :: digits)) :
    '0'.toNat ≤ first.toNat ∧ first.toNat ≤ '9'.toNat := by
  have digit := all first List.mem_cons_self
  simp only [Char.isDigit, Bool.and_eq_true, decide_eq_true_eq] at digit
  exact ⟨digit.1, digit.2⟩

theorem Digits.tail (all : Digits (first :: digits)) : Digits digits :=
  fun char member => all char (List.mem_cons_of_mem _ member)

theorem value_cons : value (first :: digits) =
    10 ^ digits.length * (first.toNat - '0'.toNat) + value digits := by
  rw [value, Nat.ofDigitChars_cons, Nat.mul_zero, Nat.zero_add,
    Nat.ofDigitChars_eq_ofDigitChars_zero]
  rfl

theorem value_lt (all : Digits digits) : value digits < 10 ^ digits.length := by
  induction digits with
  | nil => exact Nat.one_pos
  | cons first rest inductionHypothesis =>
      have tail := inductionHypothesis all.tail
      have head : first.toNat - '0'.toNat ≤ 9 := by
        have := all.head.2
        change first.toNat ≤ 57 at this
        change first.toNat - 48 ≤ 9
        omega
      calc
        value (first :: rest) = 10 ^ rest.length * (first.toNat - '0'.toNat) + value rest :=
          value_cons
        _ < 10 ^ rest.length * (first.toNat - '0'.toNat) + 10 ^ rest.length :=
          Nat.add_lt_add_left tail _
        _ = 10 ^ rest.length * (first.toNat - '0'.toNat + 1) := by ring
        _ ≤ 10 ^ rest.length * 10 := Nat.mul_le_mul_left _ (Nat.succ_le_succ head)
        _ = 10 ^ (first :: rest).length := by rw [List.length_cons, pow_succ]

theorem char_lt_iff : first < second ↔ first.toNat < second.toNat :=
  Iff.rfl

/-- A smaller first digit writes a smaller number, whatever follows. -/
theorem value_lt_of_head_lt (all : Digits (first :: digits)) (same : digits.length = others.length)
    (less : first.toNat < second.toNat) : value (first :: digits) < value (second :: others) := by
  have tail := value_lt all.tail
  have step : first.toNat - '0'.toNat + 1 ≤ second.toNat - '0'.toNat := by
    have := all.head.1
    omega
  calc
    value (first :: digits) = 10 ^ digits.length * (first.toNat - '0'.toNat) + value digits :=
      value_cons
    _ < 10 ^ digits.length * (first.toNat - '0'.toNat) + 10 ^ digits.length :=
      Nat.add_lt_add_left tail _
    _ = 10 ^ digits.length * (first.toNat - '0'.toNat + 1) := by ring
    _ ≤ 10 ^ digits.length * (second.toNat - '0'.toNat) := Nat.mul_le_mul_left _ step
    _ = 10 ^ others.length * (second.toNat - '0'.toNat) := by rw [same]
    _ ≤ value (second :: others) := by
      rw [value_cons]
      exact Nat.le_add_right _ _

/-- Digits of one length are ordered as the numbers they write. -/
theorem lt_iff_value_lt (all : Digits digits) (allOthers : Digits others)
    (same : digits.length = others.length) : digits < others ↔ value digits < value others := by
  induction digits generalizing others with
  | nil =>
      rw [List.eq_nil_of_length_eq_zero same.symm]
      exact iff_of_false (List.not_lt_nil _) (Nat.lt_irrefl _)
  | cons first rest inductionHypothesis =>
      cases others with
      | nil => cases same
      | cons second others =>
          have sameRest : rest.length = others.length := Nat.succ.inj same
          rw [List.cons_lt_cons_iff, char_lt_iff]
          rcases Nat.lt_trichotomy first.toNat second.toNat with less | equal | more
          · exact iff_of_true (.inl less) (value_lt_of_head_lt all sameRest less)
          · obtain rfl : first = second := Char.toNat_inj.mp equal
            rw [inductionHypothesis all.tail allOthers.tail sameRest, value_cons, value_cons, sameRest]
            simp
          · have greater := value_lt_of_head_lt allOthers sameRest.symm more
            refine iff_of_false ?_ greater.le.not_gt
            rintro (less | ⟨rfl, -⟩)
            · exact less.not_gt more
            · exact lt_irrefl _ more

/-- More digits write a greater number when the first of them is not zero. -/
theorem value_lt_of_length_lt (all : Digits digits) (allOthers : Digits others)
    (leading : others.head? ≠ some '0') (fewer : digits.length < others.length) :
    value digits < value others := by
  cases others with
  | nil => exact absurd fewer (Nat.not_lt_zero _)
  | cons second others =>
      have positive : 1 ≤ second.toNat - '0'.toNat := by
        have low := allOthers.head.1
        have differ : '0'.toNat ≠ second.toNat := by
          intro equal
          exact leading (congrArg some (Char.toNat_inj.mp equal.symm))
        omega
      calc
        value digits < 10 ^ digits.length := value_lt all
        _ ≤ 10 ^ others.length := Nat.pow_le_pow_right (by decide) (Nat.le_of_lt_succ fewer)
        _ ≤ 10 ^ others.length * (second.toNat - '0'.toNat) := Nat.le_mul_of_pos_right _ positive
        _ ≤ value (second :: others) := by
          rw [value_cons]
          exact Nat.le_add_right _ _

/-- Zeros in front do not count. -/
theorem value_dropWhile_zero (digits : List Char) :
    value (digits.dropWhile (· == '0')) = value digits := by
  induction digits with
  | nil => rfl
  | cons first rest inductionHypothesis =>
      by_cases zero : first = '0'
      · rw [List.dropWhile_cons_of_pos (by simpa using zero), inductionHypothesis, value_cons, zero]
        simp
      · rw [List.dropWhile_cons_of_neg (by simpa using zero)]

end DigitOrder
