import Mathlib.Data.List.Induction
import Mathlib.Tactic.Linarith
import Mathlib.Tactic.Ring

/-!
# Regrouping digits of bits

A writer reads digits of some width and writes digits of another one.  Between them it holds some
pending bits, the low ones of an accumulator of 32 bits whose other bits are never cleared.
Digits that were written from the same bits are the same.
-/

namespace BitGroups

/-- The number that digits of a width write, the greatest first. -/
def number (width : Nat) (digits : List Nat) : Nat :=
  digits.foldl (fun total digit => total * 2 ^ width + digit) 0

def Digits (width : Nat) (digits : List Nat) : Prop :=
  ∀ digit ∈ digits, digit < 2 ^ width

theorem Digits.concat {width digit : Nat} {digits : List Nat} (all : Digits width digits)
    (small : digit < 2 ^ width) : Digits width (digits ++ [digit]) :=
  List.forall_mem_append.mpr ⟨all, List.forall_mem_singleton.mpr small⟩

theorem number_concat (width : Nat) (digits : List Nat) (digit : Nat) :
    number width (digits ++ [digit]) = number width digits * 2 ^ width + digit := by
  rw [number, List.foldl_append]
  rfl

/-- Digits are determined by how many they are and the number they write. -/
theorem number_inj {width : Nat} {digits others : List Nat} (all : Digits width digits)
    (allOthers : Digits width others) (count : digits.length = others.length)
    (same : number width digits = number width others) : digits = others := by
  induction digits using List.reverseRecOn generalizing others with
  | nil => exact (List.eq_nil_of_length_eq_zero count.symm).symm
  | append_singleton digits digit inductionHypothesis =>
      cases others using List.reverseRecOn with
      | nil => simp at count
      | append_singleton others other =>
          rw [number_concat, number_concat] at same
          rw [List.length_append, List.length_append] at count
          obtain ⟨all, small⟩ := List.forall_mem_append.mp all
          obtain ⟨allOthers, smallOther⟩ := List.forall_mem_append.mp allOthers
          rw [List.forall_mem_singleton] at small smallOther
          have low : digit = other := by
            have reduced := congrArg (· % 2 ^ width) same
            simpa [Nat.mod_eq_of_lt small, Nat.mod_eq_of_lt smallOther] using reduced
          have high : number width digits = number width others := by
            have positive : 0 < 2 ^ width := Nat.two_pow_pos width
            rw [low] at same
            exact Nat.eq_of_mul_eq_mul_right positive (Nat.add_right_cancel same)
          rw [low, inductionHypothesis all allOthers (Nat.add_right_cancel count) high]

/-! ## A writer -/

/-- What was read is what was written and the pending bits. -/
structure Regrouped (wide narrow : Nat) (input output : List Nat) (bits pending : Nat) : Prop where
  amount : number wide input = number narrow output * 2 ^ bits + pending
  count : wide * input.length = narrow * output.length + bits
  small : pending < 2 ^ bits
  digits : Digits narrow output

variable {wide narrow bits pending digit : Nat} {input output : List Nat}

theorem Regrouped.empty (wide narrow : Nat) : Regrouped wide narrow [] [] 0 0 where
  amount := rfl
  count := rfl
  small := Nat.one_pos
  digits := fun _ member => absurd member List.not_mem_nil

/-- A digit that is read becomes pending. -/
theorem Regrouped.read (regrouped : Regrouped wide narrow input output bits pending)
    (small : digit < 2 ^ wide) :
    Regrouped wide narrow (input ++ [digit]) output (bits + wide)
      (pending * 2 ^ wide + digit) where
  amount := by
    rw [number_concat, regrouped.amount, pow_add]
    ring
  count := by
    rw [List.length_append, List.length_singleton, Nat.mul_succ, regrouped.count, Nat.add_assoc]
  small := by
    have room : pending + 1 ≤ 2 ^ bits := regrouped.small
    calc
      pending * 2 ^ wide + digit < pending * 2 ^ wide + 2 ^ wide := Nat.add_lt_add_left small _
      _ = (pending + 1) * 2 ^ wide := by ring
      _ ≤ 2 ^ bits * 2 ^ wide := Nat.mul_le_mul_right _ room
      _ = 2 ^ (bits + wide) := (pow_add _ _ _).symm
  digits := regrouped.digits

/-- The first pending bits are written. -/
theorem Regrouped.write (regrouped : Regrouped wide narrow input output (bits + narrow) pending) :
    Regrouped wide narrow input (output ++ [pending / 2 ^ bits]) bits (pending % 2 ^ bits) where
  amount := by
    have split : pending = pending / 2 ^ bits * 2 ^ bits + pending % 2 ^ bits := by
      rw [Nat.mul_comm]
      exact (Nat.div_add_mod pending (2 ^ bits)).symm
    calc
      number wide input = number narrow output * 2 ^ (bits + narrow) + pending := regrouped.amount
      _ = number narrow output * 2 ^ (bits + narrow) +
          (pending / 2 ^ bits * 2 ^ bits + pending % 2 ^ bits) := by rw [← split]
      _ = (number narrow output * 2 ^ narrow + pending / 2 ^ bits) * 2 ^ bits +
          pending % 2 ^ bits := by
        rw [pow_add]
        ring
      _ = number narrow (output ++ [pending / 2 ^ bits]) * 2 ^ bits + pending % 2 ^ bits := by
        rw [number_concat]
  count := by
    rw [List.length_append, List.length_singleton, regrouped.count]
    ring
  small := Nat.mod_lt _ (Nat.two_pow_pos bits)
  digits := by
    refine regrouped.digits.concat ?_
    rw [Nat.div_lt_iff_lt_mul (Nat.two_pow_pos bits), ← pow_add, Nat.add_comm]
    exact regrouped.small

/-- The digits that were read, followed by zero bits, fill the digits that were written. -/
structure Padded (wide narrow : Nat) (input output : List Nat) (padding : Nat) : Prop where
  amount : number narrow output = number wide input * 2 ^ padding
  count : narrow * output.length = wide * input.length + padding
  digits : Digits narrow output

/-- Without pending bits nothing is padded. -/
theorem Regrouped.whole (regrouped : Regrouped wide narrow input output 0 pending) :
    Padded wide narrow input output 0 where
  amount := by
    have none : pending = 0 := Nat.lt_one_iff.mp regrouped.small
    rw [regrouped.amount, none]
    simp
  count := regrouped.count.symm
  digits := regrouped.digits

/-- The pending bits are written as the high bits of a last digit. -/
theorem Regrouped.pad (regrouped : Regrouped wide narrow input output bits pending)
    (fits : bits ≤ narrow) :
    Padded wide narrow input (output ++ [pending * 2 ^ (narrow - bits)]) (narrow - bits) where
  amount := by
    have split : 2 ^ narrow = 2 ^ bits * 2 ^ (narrow - bits) := by
      rw [← pow_add, Nat.add_sub_cancel' fits]
    rw [number_concat, regrouped.amount, split]
    ring
  count := by
    rw [List.length_append, List.length_singleton, Nat.mul_succ, regrouped.count]
    omega
  digits := by
    refine regrouped.digits.concat ?_
    calc
      pending * 2 ^ (narrow - bits) < 2 ^ bits * 2 ^ (narrow - bits) :=
        Nat.mul_lt_mul_of_pos_right regrouped.small (Nat.two_pow_pos _)
      _ = 2 ^ narrow := by rw [← pow_add, Nat.add_sub_cancel' fits]

/-- Regrouping padded digits gives the digits that they were made of. -/
theorem Padded.undo {letters bytes : List Nat} {padding : Nat}
    (padded : Padded wide narrow input letters padding) (all : Digits wide input)
    (fits : padding < wide)
    (regrouped : Regrouped narrow wide letters bytes bits pending) (left : bits < wide) :
    bytes = input := by
  have total : wide * bytes.length + bits = wide * input.length + padding :=
    regrouped.count.symm.trans padded.count
  have positive : 0 < wide := Nat.zero_lt_of_lt fits
  have count : bytes.length = input.length := by
    have divided := congrArg (· / wide) total
    simpa [Nat.mul_add_div positive, Nat.div_eq_of_lt left, Nat.div_eq_of_lt fits] using divided
  have rest : bits = padding := by
    rw [count] at total
    exact Nat.add_left_cancel total
  refine number_inj regrouped.digits all count ?_
  have amount : number wide input * 2 ^ padding = number wide bytes * 2 ^ padding + pending := by
    rw [← padded.amount, regrouped.amount, rest]
  have small : pending < 2 ^ padding := rest ▸ regrouped.small
  have quotient := congrArg (· / 2 ^ padding) amount
  have positive : 0 < 2 ^ padding := Nat.two_pow_pos padding
  simp only [Nat.mul_div_cancel _ positive] at quotient
  rw [quotient, Nat.mul_comm, Nat.mul_add_div positive, Nat.div_eq_of_lt small, Nat.add_zero]

/-! ## The low bits of an accumulator -/

/-- The pending bits of an accumulator. -/
def low (value : BitVec 32) (bits : Nat) : Nat :=
  value.toNat % 2 ^ bits

/-- A digit is shifted into the low bits; what is lost above them does not matter. -/
theorem low_push {value : BitVec 32} {width : Nat} (fits : bits + width ≤ 32)
    (small : digit < 2 ^ width) :
    low ((value <<< width) ||| BitVec.ofNat 32 digit) (bits + width) =
      low value bits * 2 ^ width + digit := by
  have digitSmall : digit < 2 ^ 32 :=
    Nat.lt_of_lt_of_le small (Nat.pow_le_pow_right (by decide) (by omega))
  have shifted : ((value <<< width) ||| BitVec.ofNat 32 digit).toNat =
      (value.toNat * 2 ^ width + digit) % 2 ^ 32 := by
    rw [BitVec.toNat_or, BitVec.toNat_shiftLeft, BitVec.toNat_ofNat, ← Nat.or_mod_two_pow,
      ← Nat.shiftLeft_add_eq_or_of_lt small, Nat.shiftLeft_eq]
  have divides : 2 ^ (bits + width) ∣ 2 ^ 32 := Nat.pow_dvd_pow 2 fits
  rw [low, shifted, Nat.mod_mod_of_dvd _ divides, low, pow_add, Nat.mul_comm (2 ^ bits),
    Nat.mod_mul]
  have lowPart : (value.toNat * 2 ^ width + digit) % 2 ^ width = digit := by
    rw [Nat.mul_comm, Nat.mul_add_mod, Nat.mod_eq_of_lt small]
  have highPart : (value.toNat * 2 ^ width + digit) / 2 ^ width = value.toNat := by
    rw [Nat.mul_comm, Nat.mul_add_div (Nat.two_pow_pos width), Nat.div_eq_of_lt small, Nat.add_zero]
  rw [lowPart, highPart]
  ring

/-- The first pending bits are read with a shift and a mask. -/
theorem first_bits (value : BitVec 32) (bits width : Nat) :
    (value.toNat / 2 ^ bits) % 2 ^ width = low value (bits + width) / 2 ^ bits := by
  rw [low, pow_add, Nat.mod_mul_right_div_self]

theorem low_low (value : BitVec 32) (bits width : Nat) :
    low value (bits + width) % 2 ^ bits = low value bits :=
  Nat.mod_mod_of_dvd _ (Nat.pow_dvd_pow 2 (Nat.le_add_right _ _))

end BitGroups
