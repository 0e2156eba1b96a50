import Mathlib.Data.List.DropRight
import Mathlib.Data.Rat.Defs
import Mathlib.Tactic.Ring
import Mathlib.Tactic.FieldSimp
import Mathlib.Tactic.NormNum
import MintBot.Library.IntegerText

/-!
# Decimal numbers in texts

A decimal number is a sign, digits, and digits behind a point.  Zeros at the end
of the digits behind the point do not change its value, and the first of those
digits are the quotient by a power of ten.
-/

namespace DecimalText

open IntegerText

/-- The digits that are not followed by zeros only. -/
def dropZeros (digits : List Char) : List Char :=
  digits.rdropWhile (· == '0')

/-- What digits behind the point are worth. -/
def fraction (digits : List Char) : ℚ :=
  (Nat.ofDigitChars 10 digits 0 : ℚ) / 10 ^ digits.length

/-- The value of a decimal number without a sign. -/
def readUnsigned (chars : List Char) : Option ℚ :=
  let whole := chars.takeWhile (· != '.')
  match chars.dropWhile (· != '.') with
  | [] => (readDigits 10 whole).map fun units : Nat => (units : ℚ)
  | _ :: digits =>
      (readDigits 10 whole).bind fun units =>
        (readDigits 10 digits).map fun parts : Nat =>
          (units : ℚ) + (parts : ℚ) / 10 ^ digits.length

/-- The value of a decimal number. -/
def readDecimal (text : String) : Option ℚ :=
  match text.toList with
  | '-' :: chars => (readUnsigned chars).map fun value => -value
  | chars => readUnsigned chars

/-! ## Digits behind the point -/

theorem exists_zeros (digits : List Char) :
    ∃ zeros, digits = dropZeros digits ++ List.replicate zeros '0' := by
  have trailing : digits.rtakeWhile (· == '0') =
      List.replicate (digits.rtakeWhile (· == '0')).length '0' :=
    List.eq_replicate_of_mem fun char member => by
      simpa using List.mem_rtakeWhile_imp member
  refine ⟨(digits.rtakeWhile (· == '0')).length, ?_⟩
  conv_lhs => rw [← List.rdropWhile_append_rtakeWhile (p := (· == '0')) (l := digits), trailing]
  rfl

theorem fraction_append_zeros (digits : List Char) (zeros : Nat) :
    fraction (digits ++ List.replicate zeros '0') = fraction digits := by
  rw [fraction, fraction, Nat.ofDigitChars_append, Nat.ofDigitChars_replicate_zero,
    List.length_append, List.length_replicate, pow_add]
  push_cast
  field_simp

theorem fraction_dropZeros (digits : List Char) : fraction (dropZeros digits) = fraction digits := by
  obtain ⟨zeros, same⟩ := exists_zeros digits
  conv_rhs => rw [same]
  rw [fraction_append_zeros]

theorem fraction_take_dropZeros (places : Nat) (digits : List Char) :
    fraction ((dropZeros digits).take places) = fraction (digits.take places) := by
  obtain ⟨zeros, same⟩ := exists_zeros digits
  conv_rhs => rw [same]
  rw [List.take_append, List.take_replicate, fraction_append_zeros]

@[simp]
theorem fraction_nil : fraction [] = 0 := by
  simp [fraction]

@[simp]
theorem fraction_zero : fraction ['0'] = 0 := by
  simp [fraction, Nat.ofDigitChars_cons]

theorem ofDigitChars_lt {digits : List Char}
    (digitsOnly : ∀ char ∈ digits, char.isDigit = true) :
    Nat.ofDigitChars 10 digits 0 < 10 ^ digits.length := by
  induction digits with
  | nil => simp
  | cons first rest inductionHypothesis =>
      have bounds := isDigit_bounds (digitsOnly first (by simp))
      have small : first.toNat - '0'.toNat ≤ 9 := by
        change first.toNat - 48 ≤ 9
        omega
      have others := inductionHypothesis fun char member => digitsOnly char (by simp [member])
      have scaled : 10 ^ rest.length * (first.toNat - '0'.toNat) ≤ 10 ^ rest.length * 9 :=
        Nat.mul_le_mul_left _ small
      rw [Nat.ofDigitChars_cons, Nat.ofDigitChars_eq_ofDigitChars_zero, List.length_cons,
        Nat.pow_succ, Nat.mul_zero, Nat.zero_add]
      omega

/-- The first digits are the quotient by the weight of the others. -/
theorem ofDigitChars_take {digits : List Char} (digitsOnly : ∀ char ∈ digits, char.isDigit = true)
    (places : Nat) :
    Nat.ofDigitChars 10 (digits.take places) 0 =
      Nat.ofDigitChars 10 digits 0 / 10 ^ (digits.length - places) := by
  have rest : Nat.ofDigitChars 10 (digits.drop places) 0 < 10 ^ (digits.length - places) := by
    rw [← List.length_drop]
    exact ofDigitChars_lt fun char member => digitsOnly char (List.mem_of_mem_drop member)
  have whole : Nat.ofDigitChars 10 digits 0 =
      10 ^ (digits.length - places) * Nat.ofDigitChars 10 (digits.take places) 0 +
        Nat.ofDigitChars 10 (digits.drop places) 0 := by
    conv_lhs => rw [← List.take_append_drop places digits]
    rw [Nat.ofDigitChars_append, Nat.ofDigitChars_eq_ofDigitChars_zero, List.length_drop]
  rw [whole, Nat.mul_add_div (Nat.pow_pos (by decide)), Nat.div_eq_of_lt rest, Nat.add_zero]

/-- The place of the first digit that is not zero. -/
def firstSignificant (digits : List Char) : Option Nat :=
  digits.findIdx? fun char => '1' ≤ char && char ≤ '9'

theorem firstSignificant_dropZeros (digits : List Char) :
    firstSignificant (dropZeros digits) = firstSignificant digits := by
  obtain ⟨zeros, same⟩ := exists_zeros digits
  have none : (List.replicate zeros '0').findIdx? (fun char => '1' ≤ char && char ≤ '9') = none :=
    List.findIdx?_eq_none_iff.mpr fun char member => by
      rw [(List.mem_replicate.mp member).2]
      rfl
  conv_rhs => rw [firstSignificant, same, List.findIdx?_append, none]
  rw [Option.map_none, Option.or_none]
  rfl

/-- Digits are at least the weight of the first one that is not zero. -/
theorem ofDigitChars_bounds {digits : List Char} (digitsOnly : ∀ char ∈ digits, char.isDigit = true)
    {place : Nat} (first : firstSignificant digits = some place) :
    place < digits.length ∧ 10 ^ (digits.length - place - 1) ≤ Nat.ofDigitChars 10 digits 0 ∧
      Nat.ofDigitChars 10 digits 0 < 10 ^ (digits.length - place) := by
  induction digits generalizing place with
  | nil => cases first
  | cons digit rest inductionHypothesis =>
      have others : ∀ char ∈ rest, char.isDigit = true := fun char member =>
        digitsOnly char (List.mem_cons_of_mem _ member)
      have value : Nat.ofDigitChars 10 (digit :: rest) 0 =
          10 ^ rest.length * (digit.toNat - 48) + Nat.ofDigitChars 10 rest 0 := by
        rw [Nat.ofDigitChars_cons, Nat.ofDigitChars_eq_ofDigitChars_zero, Nat.mul_zero,
          Nat.zero_add]
        rfl
      have bounds := isDigit_bounds (digitsOnly digit List.mem_cons_self)
      rw [firstSignificant, List.findIdx?_cons] at first
      split at first
      · rename_i significant
        obtain rfl := Option.some.inj first
        have atLeast : 1 ≤ digit.toNat - 48 := by
          have code : '1'.toNat ≤ digit.toNat := by
            simp only [Bool.and_eq_true, decide_eq_true_eq] at significant
            exact significant.1
          change 49 ≤ digit.toNat at code
          omega
        have scaled : 10 ^ rest.length * 1 ≤ 10 ^ rest.length * (digit.toNat - 48) :=
          Nat.mul_le_mul_left _ atLeast
        refine ⟨by simp, ?_, ofDigitChars_lt digitsOnly⟩
        rw [value, List.length_cons, Nat.sub_zero, Nat.add_sub_cancel]
        omega
      · rename_i zero
        obtain ⟨later, found, rfl⟩ := Option.map_eq_some_iff.mp first
        obtain ⟨inside, atLeast, below⟩ := inductionHypothesis others found
        have noValue : digit.toNat - 48 = 0 := by
          by_contra positive
          refine zero ?_
          simp only [Bool.and_eq_true, decide_eq_true_eq]
          constructor
          · change '1'.toNat ≤ digit.toNat
            change 49 ≤ digit.toNat
            omega
          · change digit.toNat ≤ 57
            omega
        have shorter : (digit :: rest).length - (later + 1) = rest.length - later := by
          rw [List.length_cons]
          omega
        rw [value, noValue, Nat.mul_zero, Nat.zero_add, shorter, List.length_cons]
        exact ⟨by omega, atLeast, below⟩

/-- Digits of which none counts are worth nothing. -/
theorem ofDigitChars_insignificant {digits : List Char}
    (digitsOnly : ∀ char ∈ digits, char.isDigit = true) (none : firstSignificant digits = none) :
    Nat.ofDigitChars 10 digits 0 = 0 := by
  have zeros : digits = List.replicate digits.length '0' := by
    refine List.eq_replicate_of_mem fun char member => ?_
    have bounds := isDigit_bounds (digitsOnly char member)
    have small := List.findIdx?_eq_none_iff.mp none char member
    rw [Bool.and_eq_false_iff, decide_eq_false_iff_not, decide_eq_false_iff_not] at small
    have notAbove : ¬ 49 ≤ char.toNat := small.resolve_right fun above => above bounds.2
    exact Char.ext (UInt32.toNat_inj.mp (by change char.toNat = 48; omega))
  rw [zeros, Nat.ofDigitChars_replicate_zero, Nat.mul_zero]

/-- The digits of a number, filled up with zeros in front. -/
def padded (width amount : Nat) : List Char :=
  (Nat.toDigits 10 amount).leftpad width '0'

theorem ofDigitChars_padded (width amount : Nat) :
    Nat.ofDigitChars 10 (padded width amount) 0 = amount := by
  rw [padded, List.leftpad, Nat.ofDigitChars_append, Nat.ofDigitChars_replicate_zero, Nat.mul_zero,
    Nat.ofDigitChars_ten_toDigits]

theorem isDigit_padded {width amount : Nat} {char : Char} (member : char ∈ padded width amount) :
    char.isDigit = true := by
  rcases List.mem_append.mp member with zero | digit
  · rw [(List.mem_replicate.mp zero).2]
    rfl
  · exact isDigit_toDigits amount digit

theorem length_padded {width amount : Nat} (fits : amount < 10 ^ width) (positive : 0 < width) :
    (padded width amount).length = width := by
  rw [padded, List.length_leftpad]
  exact Nat.max_eq_left ((Nat.length_toDigits_le_iff (by decide) positive).mpr fits)

/-- The first places behind the point of a number of a fixed count of places. -/
theorem fraction_take_padded {width amount places : Nat} (fits : amount < 10 ^ width)
    (positive : 0 < width) (inside : places ≤ width) :
    fraction ((padded width amount).take places) =
      ((amount / 10 ^ (width - places) : Nat) : ℚ) / 10 ^ places := by
  rw [fraction, ofDigitChars_take (fun char member => isDigit_padded member), ofDigitChars_padded,
    List.length_take, length_padded fits positive, Nat.min_eq_left inside]

/-! ## Reading what was written -/

theorem not_point_of_isDigit {char : Char} (digit : char.isDigit = true) : (char != '.') = true := by
  rw [bne_iff_ne]
  rintro rfl
  exact absurd digit (by decide)

/-- The part before the point, and the part behind it. -/
theorem takeWhile_toDigits (amount : Nat) (digits : List Char) :
    (Nat.toDigits 10 amount ++ '.' :: digits).takeWhile (· != '.') = Nat.toDigits 10 amount ∧
      (Nat.toDigits 10 amount ++ '.' :: digits).dropWhile (· != '.') = '.' :: digits := by
  have whole : ∀ char ∈ Nat.toDigits 10 amount, (char != '.') = true := fun char member =>
    not_point_of_isDigit (isDigit_toDigits amount member)
  rw [List.takeWhile_append_of_pos whole, List.dropWhile_append_of_pos whole]
  simp

/-- Digits without a point are an integer. -/
theorem readUnsigned_whole (amount : Nat) :
    readUnsigned (Nat.toDigits 10 amount) = some (amount : ℚ) := by
  have digits : ∀ char ∈ Nat.toDigits 10 amount, (char != '.') = true := fun char member =>
    not_point_of_isDigit (isDigit_toDigits amount member)
  rw [readUnsigned, List.takeWhile_eq_self_iff.mpr digits, List.dropWhile_eq_nil_iff.mpr digits]
  dsimp only
  rw [readDigits_toDigits, Option.map_some]

/-- Digits, a point and digits. -/
theorem readUnsigned_point (amount : Nat) {digits : List Char} (nonempty : digits ≠ [])
    (digitsOnly : ∀ char ∈ digits, char.isDigit = true) :
    readUnsigned (Nat.toDigits 10 amount ++ '.' :: digits) =
      some ((amount : ℚ) + fraction digits) := by
  rw [readUnsigned, (takeWhile_toDigits amount digits).1, (takeWhile_toDigits amount digits).2]
  dsimp only
  rw [readDigits_toDigits, readDigits, if_neg nonempty, readAfter_ten digitsOnly]
  rfl

theorem readDecimal_negative (chars : List Char) :
    readDecimal (String.ofList ('-' :: chars)) = (readUnsigned chars).map fun value => -value := by
  unfold readDecimal
  rw [String.toList_ofList]
  rfl

/-- A number that begins with a digit has no sign. -/
theorem readDecimal_digits (amount : Nat) (rest : List Char) :
    readDecimal (String.ofList (Nat.toDigits 10 amount ++ rest)) =
      readUnsigned (Nat.toDigits 10 amount ++ rest) := by
  rw [readDecimal, String.toList_ofList]
  cases chars : Nat.toDigits 10 amount with
  | nil => exact absurd chars Nat.toDigits_ne_nil
  | cons first others =>
      have digit : first.isDigit = true := isDigit_toDigits amount (by simp [chars])
      rw [List.cons_append]
      split
      · rename_i signed
        obtain rfl := (List.cons.inj signed).1
        exact absurd digit (by decide)
      · rfl

end DecimalText
