import Mathlib.Data.Rat.Floor
import Mathlib.Tactic.Linarith
import MintBot.Library.DecimalText
import MintBot.Types

/-!
# Amounts in texts for the owner

`formatEth` writes an amount of wei as a decimal number of ETH with at most six
places behind the point.  The places after them are cut off, not rounded.
-/

namespace MintBot

open DecimalText IntegerText

/-- `WEI_PER_ETH`. -/
def weiPerEth : Nat := 10 ^ 18

/-- `formatEth`. -/
def formatEth (wei : Wei) : String :=
  let whole := wei.natAbs / weiPerEth
  let fraction := dropZeros (padded 18 (wei.natAbs % weiPerEth))
  let shown := dropZeros (fraction.take 6)
  String.ofList ((if wei < 0 then ['-'] else []) ++ Nat.toDigits 10 whole ++
    if fraction = [] then [] else '.' :: if shown = [] then ['0'] else shown)

/-- The wei that a shown amount stands for: the part below the sixth place is cut off. -/
def shownWei (wei : Wei) : Wei :=
  if wei < 0 then -((wei.natAbs / 10 ^ 12 * 10 ^ 12 : Nat) : Int)
  else (wei.natAbs / 10 ^ 12 * 10 ^ 12 : Nat)

/-- A text read as a decimal number of ETH, in wei. -/
def readEthWei (text : String) : Option ℚ :=
  (readDecimal text).map fun eth => eth * weiPerEth

/-! ## Reading a shown amount -/

theorem isDigit_dropZeros {digits : List Char} (digitsOnly : ∀ char ∈ digits, char.isDigit = true) :
    ∀ char ∈ dropZeros digits, char.isDigit = true := fun char member =>
  digitsOnly char ((List.rdropWhile_prefix _ _).subset member)

/-- The digits behind the point of an amount without a sign. -/
theorem readUnsigned_shown (whole amount : Nat) (below : amount < 10 ^ 18) :
    readUnsigned (Nat.toDigits 10 whole ++
      if dropZeros (padded 18 amount) = [] then []
      else '.' :: if dropZeros ((dropZeros (padded 18 amount)).take 6) = [] then ['0']
        else dropZeros ((dropZeros (padded 18 amount)).take 6)) =
      some ((whole : ℚ) + ((amount / 10 ^ 12 : Nat) : ℚ) / 10 ^ 6) := by
  have worth : fraction ((dropZeros (padded 18 amount)).take 6) =
      ((amount / 10 ^ 12 : Nat) : ℚ) / 10 ^ 6 := by
    rw [fraction_take_dropZeros, fraction_take_padded below (by decide) (by decide)]
  by_cases nothing : dropZeros (padded 18 amount) = []
  · rw [nothing, List.take_nil, fraction_nil] at worth
    rw [if_pos nothing, List.append_nil, readUnsigned_whole, ← worth, add_zero]
  · rw [if_neg nothing]
    have digits : ∀ char ∈ (dropZeros (padded 18 amount)).take 6, char.isDigit = true :=
      fun char member => isDigit_dropZeros (fun char member => isDigit_padded member) char
        (List.mem_of_mem_take member)
    rw [← fraction_dropZeros] at worth
    by_cases cut : dropZeros ((dropZeros (padded 18 amount)).take 6) = []
    · rw [cut, fraction_nil] at worth
      rw [if_pos cut, readUnsigned_point whole (by simp) (List.forall_mem_singleton.mpr (by decide)),
        fraction_zero, ← worth]
    · rw [if_neg cut, readUnsigned_point whole cut (isDigit_dropZeros digits), worth]

/-- Every amount is shown with its first six places. -/
theorem readEthWei_formatEth (wei : Wei) :
    readEthWei (formatEth wei) = some (shownWei wei : ℚ) := by
  have below : wei.natAbs % weiPerEth < 10 ^ 18 := Nat.mod_lt _ (by decide)
  have shown := readUnsigned_shown (wei.natAbs / weiPerEth) (wei.natAbs % weiPerEth) below
  have places : wei.natAbs / weiPerEth * 10 ^ 18 + wei.natAbs % weiPerEth / 10 ^ 12 * 10 ^ 12 =
      wei.natAbs / 10 ^ 12 * 10 ^ 12 := by
    unfold weiPerEth
    omega
  have total : ((wei.natAbs / weiPerEth : Nat) + ((wei.natAbs % weiPerEth / 10 ^ 12 : Nat) : ℚ) /
      10 ^ 6) * weiPerEth = ((wei.natAbs / 10 ^ 12 * 10 ^ 12 : Nat) : ℚ) := by
    rw [← places]
    push_cast [weiPerEth]
    ring
  unfold readEthWei formatEth shownWei
  by_cases negative : wei < 0
  · simp only [if_pos negative, List.cons_append, List.nil_append]
    rw [readDecimal_negative, shown, Option.map_some, Option.map_some, neg_mul, total]
    rw [Int.cast_neg, Int.cast_natCast]
  · simp only [if_neg negative, List.nil_append]
    rw [readDecimal_digits, shown, Option.map_some, total]
    rfl

/-- The shown amount covers the exact one, exactly when nothing is cut off a positive amount. -/
theorem le_shownWei_iff (wei : Int) : wei ≤ shownWei wei ↔ wei ≤ 0 ∨ 10 ^ 12 ∣ wei := by
  unfold shownWei
  by_cases negative : wei < 0
  · rw [if_pos negative]
    omega
  · obtain ⟨amount, rfl⟩ := Int.eq_ofNat_of_zero_le (Int.not_lt.mp negative)
    rw [if_neg negative, Int.natAbs_natCast]
    push_cast
    omega

/-- The amount that a text shows, read in wei, is at least `exact`. -/
def Covers (text : String) (exact : Wei) : Prop :=
  ∃ shown ∈ readEthWei text, (exact : ℚ) ≤ shown

theorem covers_formatEth_iff (wei : Wei) :
    Covers (formatEth wei) wei ↔ wei ≤ 0 ∨ 10 ^ 12 ∣ wei := by
  rw [← le_shownWei_iff, Covers, readEthWei_formatEth]
  simp only [Option.mem_def, Option.some.injEq, exists_eq_left', Int.cast_le]

end MintBot
