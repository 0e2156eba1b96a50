import MintBot.Library.DigitOrder

/-!
# The guard on settled amounts

Amounts in wei are texts of digits, and integers of the database do not hold them.  The trigger
`reservation_all_in_amount_guard` compares the texts without the zeros in front, first by their
lengths.
-/

namespace MintBot.AmountGuard

open DigitOrder

/-- `CHECK (length(amount) > 0 AND amount NOT GLOB '*[^0-9]*')` -/
def Accepted (text : String) : Prop :=
  0 < text.length ∧ Digits text.toList

/-- `ltrim(text, '0')` -/
def ltrimZeros (text : String) : String :=
  String.ofList (text.toList.dropWhile (· == '0'))

/-- `CASE WHEN ltrim(text, '0') = '' THEN '0' ELSE ltrim(text, '0') END` -/
def significant (text : String) : String :=
  if ltrimZeros text = "" then "0" else ltrimZeros text

/-- The condition of `reservation_all_in_amount_guard`. -/
def exceeds (amount reserved : String) : Bool :=
  (significant reserved).length < (significant amount).length ∨
    ((significant amount).length = (significant reserved).length ∧
      significant reserved < significant amount)

/-- The number that a text of digits denotes. -/
def amountOf (text : String) : Nat :=
  value text.toList

variable {text : String}

theorem ltrimZeros_eq_empty : ltrimZeros text = "" ↔ text.toList.dropWhile (· == '0') = [] := by
  rw [ltrimZeros, ← String.toList_inj, String.toList_ofList]
  rfl

/-- The compared text denotes the same number. -/
theorem amountOf_significant (text : String) : amountOf (significant text) = amountOf text := by
  unfold significant amountOf
  split
  · rename_i empty
    rw [← value_dropWhile_zero text.toList, ltrimZeros_eq_empty.mp empty]
    rfl
  · rw [ltrimZeros, String.toList_ofList, value_dropWhile_zero]

theorem digits_significant (digits : Digits text.toList) : Digits (significant text).toList := by
  unfold significant
  split
  · decide
  · rw [ltrimZeros, String.toList_ofList]
    exact fun char member => digits char ((List.dropWhile_suffix _).subset member)

/-- It is a single digit, or does not start with a zero. -/
theorem significant_shape (text : String) :
    1 ≤ (significant text).length ∧
      (1 < (significant text).length → (significant text).toList.head? ≠ some '0') := by
  unfold significant
  split
  · exact ⟨Nat.le_refl 1, fun more => absurd more (by decide)⟩
  · rename_i some_left
    rw [ltrimZeros_eq_empty] at some_left
    constructor
    · rw [ltrimZeros, String.length_ofList]
      exact List.length_pos_iff.mpr some_left
    · intro _ zero
      rw [ltrimZeros, String.toList_ofList] at zero
      have head := List.head?_dropWhile_not (· == '0') text.toList
      rw [zero] at head
      simp at head

theorem amountOf_lt_of_shorter {other : String} (digits : Digits text.toList)
    (others : Digits other.toList) (shorter : (significant text).length < (significant other).length) :
    amountOf text < amountOf other := by
  rw [← amountOf_significant text, ← amountOf_significant other]
  have long : 1 < (significant other).length :=
    Nat.lt_of_le_of_lt (significant_shape text).1 shorter
  refine value_lt_of_length_lt (digits_significant digits) (digits_significant others)
    ((significant_shape other).2 long) ?_
  rwa [String.length_toList, String.length_toList]

/-- The guard fires exactly when the amount exceeds the reserved amount. -/
theorem exceeds_iff (amount reserved : String) (amountDigits : Accepted amount)
    (reservedDigits : Accepted reserved) :
    exceeds amount reserved = true ↔ amountOf reserved < amountOf amount := by
  rw [exceeds, decide_eq_true_eq]
  rcases Nat.lt_trichotomy (significant reserved).length (significant amount).length with
    shorter | same | longer
  · exact iff_of_true (.inl shorter) (amountOf_lt_of_shorter reservedDigits.2 amountDigits.2 shorter)
  · have order := lt_iff_value_lt (digits_significant reservedDigits.2)
      (digits_significant amountDigits.2) (by rw [String.length_toList, String.length_toList, same])
    rw [← amountOf_significant reserved, ← amountOf_significant amount]
    constructor
    · rintro (shorter | ⟨-, less⟩)
      · exact absurd same shorter.ne
      · exact order.mp less
    · intro less
      exact .inr ⟨same.symm, order.mpr less⟩
  · have greater := amountOf_lt_of_shorter amountDigits.2 reservedDigits.2 longer
    refine iff_of_false ?_ greater.not_gt
    rintro (shorter | ⟨same, -⟩)
    · exact shorter.not_gt longer
    · exact longer.ne same

/-- The guard decides amounts above the integers of the database, one with zeros in front. -/
theorem exceeds_long :
    amountOf "00999999999999999999999999" < amountOf "1000000000000000000000000" :=
  (exceeds_iff "1000000000000000000000000" "00999999999999999999999999"
    ⟨by decide, by decide +kernel⟩ ⟨by decide, by decide +kernel⟩).mp (by decide +kernel)

end MintBot.AmountGuard
