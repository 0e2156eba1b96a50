import Mathlib.Data.List.Basic
import Mathlib.Tactic.Common

/-!
# Integers in texts

The language reads an integer from a text in one of four bases.  Space around
the integer is passed over, an empty text is zero, and only decimal integers
carry a sign.  Every integer is read back from the text it is printed as.
-/

namespace IntegerText

/-- White space and line ends, by their code points. -/
def isSpace (char : Char) : Bool :=
  [9, 10, 11, 12, 13, 32, 160, 5760, 8232, 8233, 8239, 8287, 12288, 65279].contains char.toNat ||
    (8192 ≤ char.toNat && char.toNat ≤ 8202)

/-- The text without the space around it. -/
def trim (chars : List Char) : List Char :=
  ((chars.dropWhile isSpace).reverse.dropWhile isSpace).reverse

/-- The value of a digit, where it is one of the base. -/
def digitValue (base : Nat) (char : Char) : Option Nat :=
  let value :=
    if '0' ≤ char ∧ char ≤ '9' then char.toNat - '0'.toNat
    else if 'a' ≤ char ∧ char ≤ 'z' then char.toNat - 'a'.toNat + 10
    else if 'A' ≤ char ∧ char ≤ 'Z' then char.toNat - 'A'.toNat + 10
    else base
  if value < base then some value else none

/-- The number that digits of a base write after `total`. -/
def readAfter (base : Nat) : Nat → List Char → Option Nat
  | total, [] => some total
  | total, char :: rest =>
      match digitValue base char with
      | some value => readAfter base (base * total + value) rest
      | none => none

/-- The number that digits of a base write; there must be one digit at least. -/
def readDigits (base : Nat) (digits : List Char) : Option Nat :=
  if digits = [] then none else readAfter base 0 digits

/-- `BigInt` of a text, or nothing where it throws. -/
def readInteger (text : String) : Option Int :=
  match trim text.toList with
  | [] => some 0
  | '-' :: digits => (readDigits 10 digits).map fun value : Nat => -(value : Int)
  | '+' :: digits => (readDigits 10 digits).map Int.ofNat
  | '0' :: 'x' :: digits | '0' :: 'X' :: digits => (readDigits 16 digits).map Int.ofNat
  | '0' :: 'o' :: digits | '0' :: 'O' :: digits => (readDigits 8 digits).map Int.ofNat
  | '0' :: 'b' :: digits | '0' :: 'B' :: digits => (readDigits 2 digits).map Int.ofNat
  | digits => (readDigits 10 digits).map Int.ofNat

/-! ## Reading what was printed -/

theorem dropWhile_of_head {chars : List Char} (head : ∀ char ∈ chars.head?, isSpace char = false) :
    chars.dropWhile isSpace = chars := by
  cases chars with
  | nil => rfl
  | cons first rest => simp [head first rfl]

/-- A text without space is trimmed to itself. -/
theorem trim_of_noSpace {chars : List Char} (noSpace : ∀ char ∈ chars, isSpace char = false) :
    trim chars = chars := by
  have start : chars.dropWhile isSpace = chars :=
    dropWhile_of_head fun char head => noSpace char (List.mem_of_mem_head? head)
  have stop : chars.reverse.dropWhile isSpace = chars.reverse :=
    dropWhile_of_head fun char head =>
      noSpace char (List.mem_reverse.mp (List.mem_of_mem_head? head))
  rw [trim, start, stop, List.reverse_reverse]

theorem isDigit_bounds {char : Char} (digit : char.isDigit = true) :
    48 ≤ char.toNat ∧ char.toNat ≤ 57 := by
  simp only [Char.isDigit, Bool.and_eq_true, decide_eq_true_eq] at digit
  exact ⟨digit.1, digit.2⟩

theorem isSpace_of_isDigit {char : Char} (digit : char.isDigit = true) : isSpace char = false := by
  have bounds := isDigit_bounds digit
  simp only [isSpace, Bool.or_eq_false_iff, List.contains_eq_mem, decide_eq_false_iff_not,
    List.mem_cons, List.not_mem_nil, or_false, Bool.and_eq_false_imp, decide_eq_true_eq]
  omega

theorem digitValue_ten {char : Char} (digit : char.isDigit = true) :
    digitValue 10 char = some (char.toNat - '0'.toNat) := by
  have bounds := isDigit_bounds digit
  have low : '0' ≤ char := bounds.1
  have high : char ≤ '9' := bounds.2
  have small : char.toNat - '0'.toNat < 10 := by
    change char.toNat - 48 < 10
    omega
  simp only [digitValue, low, high, and_self, if_true, small]

theorem readAfter_ten {digits : List Char} (digitsOnly : ∀ char ∈ digits, char.isDigit = true)
    (total : Nat) : readAfter 10 total digits = some (Nat.ofDigitChars 10 digits total) := by
  induction digits generalizing total with
  | nil => rfl
  | cons first rest inductionHypothesis =>
      rw [readAfter, digitValue_ten (digitsOnly first (by simp))]
      rw [Nat.ofDigitChars_cons]
      exact inductionHypothesis (fun char member => digitsOnly char (by simp [member])) _

variable (amount : Nat)

theorem isDigit_toDigits {char : Char} (member : char ∈ Nat.toDigits 10 amount) :
    char.isDigit = true :=
  Nat.isDigit_of_mem_toDigits (by decide) (by decide) member

theorem readDigits_toDigits : readDigits 10 (Nat.toDigits 10 amount) = some amount := by
  rw [readDigits, if_neg Nat.toDigits_ne_nil,
    readAfter_ten fun char member => isDigit_toDigits amount member,
    Nat.ofDigitChars_ten_toDigits]

/-- A text of decimal digits has no sign and no mark of another base. -/
theorem readInteger_digits {text : String} {digits : List Char} (chars : text.toList = digits)
    (some_digit : digits ≠ []) (digitsOnly : ∀ char ∈ digits, char.isDigit = true) :
    readInteger text = (readDigits 10 digits).map Int.ofNat := by
  have trimmed : trim text.toList = digits := by
    rw [chars]
    exact trim_of_noSpace fun char member => isSpace_of_isDigit (digitsOnly char member)
  unfold readInteger
  rw [trimmed]
  split
  all_goals first
    | rfl
    | exact absurd rfl some_digit
    | simp at digitsOnly

theorem readInteger_repr : readInteger amount.repr = some (amount : Int) := by
  rw [readInteger_digits Nat.toList_repr Nat.toDigits_ne_nil
    fun char member => isDigit_toDigits amount member, readDigits_toDigits]
  rfl

theorem readInteger_neg_repr : readInteger ("-" ++ amount.repr) = some (-(amount : Int)) := by
  have chars : ("-" ++ amount.repr).toList = '-' :: Nat.toDigits 10 amount := by
    rw [String.toList_append, Nat.toList_repr]
    rfl
  have trimmed : trim ('-' :: Nat.toDigits 10 amount) = '-' :: Nat.toDigits 10 amount := by
    refine trim_of_noSpace ?_
    intro char member
    rcases List.mem_cons.mp member with rfl | digit
    · decide
    · exact isSpace_of_isDigit (isDigit_toDigits amount digit)
  rw [readInteger, chars, trimmed]
  simp only [readDigits_toDigits, Option.map_some]

/-- Integers are read back from the texts they are printed as. -/
theorem readInteger_toString (value : Int) : readInteger (toString value) = some value := by
  cases value with
  | ofNat amount => exact readInteger_repr amount
  | negSucc amount => exact readInteger_neg_repr (amount + 1)

end IntegerText
