import Mathlib.Data.List.DropRight
import Mathlib.Data.Nat.Digits.Lemmas
import MintBot.Library.Json.Text

/-!
# JSON numbers

A finite number is held as the decimal that ECMAScript's `Number::toString` writes for it: a
sign, the significant digits without a zero at either end, and the place of the decimal
point.  The two zeros are one number.  `Number.text` chooses among the four layouts of that
algorithm, `readNumber` reads every JSON number and brings it back to this form.
-/

namespace Json

def minus : CodeUnit := 0x2d
def dot : CodeUnit := 0x2e

/-- The number `± 0.d₁d₂…dₖ · 10 ^ point`. -/
structure Number where
  negative : Bool
  digits : List (Fin 10)
  point : Int
  head_ne_zero : digits.head? ≠ some 0
  last_ne_zero : digits.getLast? ≠ some 0
  zero : digits = [] → negative = false ∧ point = 0
  deriving DecidableEq

def Number.nought : Number where
  negative := false
  digits := []
  point := 0
  head_ne_zero := by simp
  last_ne_zero := by simp
  zero := by simp

def Number.one : Number where
  negative := false
  digits := [1]
  point := 1
  head_ne_zero := by decide
  last_ne_zero := by decide
  zero := by decide

/-- Drop leading zeros, moving the point along. -/
def stripLeading : List (Fin 10) → Int → List (Fin 10) × Int
  | [], point => ([], point)
  | d :: digits, point =>
    if d = 0 then stripLeading digits (point - 1) else (d :: digits, point)

theorem stripLeading_head (digits : List (Fin 10)) (point : Int) :
    (stripLeading digits point).1.head? ≠ some 0 := by
  induction digits generalizing point with
  | nil => simp [stripLeading]
  | cons d digits ih =>
    rw [stripLeading]
    split
    · exact ih _
    · rename_i nonzero
      simpa using nonzero

theorem stripLeading_replicate (zeros : Nat) {digits : List (Fin 10)}
    (head : digits.head? ≠ some 0) (point : Int) :
    stripLeading (List.replicate zeros 0 ++ digits) (point + zeros) = (digits, point) := by
  induction zeros with
  | zero =>
    cases digits with
    | nil => simp [stripLeading]
    | cons d digits =>
      have nonzero : d ≠ 0 := by simpa using head
      simp [stripLeading, nonzero]
  | succ zeros ih =>
    rw [List.replicate_succ, List.cons_append, stripLeading, if_pos rfl, ← ih]
    congr 1
    omega

/-- Drop trailing zeros. -/
def stripTrailing (digits : List (Fin 10)) : List (Fin 10) :=
  digits.rdropWhile (· = 0)

theorem stripTrailing_last (digits : List (Fin 10)) :
    (stripTrailing digits).getLast? ≠ some 0 := by
  intro last
  have nonempty : stripTrailing digits ≠ [] := by
    rintro empty
    simp [empty] at last
  have kept := List.rdropWhile_last_not (· = (0 : Fin 10)) digits nonempty
  rw [List.getLast?_eq_some_getLast nonempty, Option.some.injEq] at last
  simp only [decide_eq_true_eq] at kept
  exact kept last

theorem stripTrailing_replicate (zeros : Nat) {digits : List (Fin 10)}
    (last : digits.getLast? ≠ some 0) :
    stripTrailing (digits ++ List.replicate zeros 0) = digits := by
  induction zeros with
  | zero =>
    rw [List.replicate_zero, List.append_nil, stripTrailing, List.rdropWhile_eq_self_iff]
    intro nonempty
    rw [List.getLast?_eq_some_getLast nonempty, ne_eq, Option.some.injEq] at last
    simpa using last
  | succ zeros ih =>
    rw [List.replicate_succ', ← List.append_assoc, stripTrailing,
      List.rdropWhile_concat_pos _ _ _ (by simp)]
    exact ih

theorem stripTrailing_head {digits : List (Fin 10)} (head : digits.head? ≠ some 0) :
    (stripTrailing digits).head? ≠ some 0 := by
  obtain ⟨rest, joined⟩ : stripTrailing digits <+: digits := List.rdropWhile_prefix _ _
  intro zero
  apply head
  rw [← joined, List.head?_append, zero]
  rfl

/-- The number a digit string with a sign and a point denotes. -/
def normalise (negative : Bool) (digits : List (Fin 10)) (point : Int) : Number :=
  let stripped := stripLeading digits point
  let core := stripTrailing stripped.1
  if empty : core = [] then Number.nought
  else
    { negative
      digits := core
      point := stripped.2
      head_ne_zero := stripTrailing_head (stripLeading_head digits point)
      last_ne_zero := stripTrailing_last _
      zero := fun isEmpty => absurd isEmpty empty }

/-- Zeros around the significant digits do not change the number. -/
theorem normalise_padded (x : Number) (nonzero : x.digits ≠ []) (before after : Nat)
    {digits : List (Fin 10)} {point : Int}
    (padded : digits = List.replicate before 0 ++ (x.digits ++ List.replicate after 0))
    (shifted : point = x.point + before) : normalise x.negative digits point = x := by
  have head : (x.digits ++ List.replicate after 0).head? ≠ some 0 := by
    rw [List.head?_append_of_ne_nil _ nonzero]
    exact x.head_ne_zero
  rw [padded, shifted]
  unfold normalise
  simp only [stripLeading_replicate before head]
  simp only [stripTrailing_replicate after x.last_ne_zero, nonzero, ↓reduceDIte]

/-! ## Writing -/

/-- The parts of a written number: digits before and behind the point, and the exponent. -/
structure Layout where
  whole : List (Fin 10)
  fraction : List (Fin 10)
  exponent : Option Int

def fractionText (fraction : List (Fin 10)) : Text :=
  if fraction = [] then [] else dot :: fraction.map digitUnit

def exponentText : Option Int → Text
  | none => []
  | some e =>
    0x65 :: (if e < 0 then minus else 0x2b) :: (naturalDigits e.natAbs).map digitUnit

def Layout.text (layout : Layout) : Text :=
  layout.whole.map digitUnit ++ (fractionText layout.fraction ++ exponentText layout.exponent)

/-- The layout `Number::toString` chooses, by the length of the digits and the point. -/
def Number.layout (x : Number) : Layout :=
  let length : Int := x.digits.length
  if x.digits = [] then ⟨[0], [], none⟩
  else if length ≤ x.point ∧ x.point ≤ 21 then
    ⟨x.digits ++ List.replicate (x.point - length).toNat 0, [], none⟩
  else if 0 < x.point ∧ x.point ≤ 21 then
    ⟨x.digits.take x.point.toNat, x.digits.drop x.point.toNat, none⟩
  else if -6 < x.point ∧ x.point ≤ 0 then
    ⟨[0], List.replicate (-x.point).toNat 0 ++ x.digits, none⟩
  else ⟨x.digits.take 1, x.digits.drop 1, some (x.point - 1)⟩

def signText (negative : Bool) : Text :=
  if negative then [minus] else []

/-- The text of a number. -/
def Number.text (x : Number) : Text :=
  signText x.negative ++ x.layout.text

/-! ## Reading -/

def readSign : Text → Bool × Text
  | [] => (false, [])
  | c :: rest => if c = minus then (true, rest) else (false, c :: rest)

/-- Digits, of which there must be one. -/
def readDigits₁ (text : Text) : Option (List (Fin 10) × Text) :=
  if (readDigits text).1 = [] then none else some (readDigits text)

def readFraction : Text → Option (List (Fin 10) × Text)
  | [] => some ([], [])
  | c :: rest => if c = dot then readDigits₁ rest else some ([], c :: rest)

def readSignedExponent : Text → Option (Int × Text)
  | [] => none
  | c :: rest =>
    if c = minus then (readDigits₁ rest).map fun read => (-(ofDigits read.1 : Int), read.2)
    else if c = 0x2b then (readDigits₁ rest).map fun read => ((ofDigits read.1 : Int), read.2)
    else (readDigits₁ (c :: rest)).map fun read => ((ofDigits read.1 : Int), read.2)

def readExponent : Text → Option (Int × Text)
  | [] => some (0, [])
  | c :: rest =>
    if c = 0x65 ∨ c = 0x45 then readSignedExponent rest else some (0, c :: rest)

/-- Read a JSON number; a leading zero stands alone before the point. -/
def readNumber (text : Text) : Option (Number × Text) := do
  let signed := readSign text
  let (whole, rest) ← readDigits₁ signed.2
  if whole.head? = some 0 ∧ whole ≠ [0] then none
  else
    let (fraction, rest) ← readFraction rest
    let (exponent, rest) ← readExponent rest
    some (normalise signed.1 (whole ++ fraction) (whole.length + exponent), rest)

/-! ## Reading what was written -/

/-- The text does not go on like a number. -/
def NumberEnd (text : Text) : Prop :=
  ∀ c ∈ text.head?, digit? c = none ∧ c ≠ dot ∧ c ≠ 0x65 ∧ c ≠ 0x45

theorem NumberEnd.noDigitHead {text : Text} (stop : NumberEnd text) : NoDigitHead text :=
  fun c first => (stop c first).1

theorem readDigits₁_append {digits : List (Fin 10)} (nonempty : digits ≠ []) {rest : Text}
    (stop : NoDigitHead rest) :
    readDigits₁ (digits.map digitUnit ++ rest) = some (digits, rest) := by
  rw [readDigits₁, readDigits_append digits stop, if_neg nonempty]

theorem readFraction_text (fraction : List (Fin 10)) {rest : Text}
    (stop : NoDigitHead rest) (noDot : rest.head? ≠ some dot) :
    readFraction (fractionText fraction ++ rest) = some (fraction, rest) := by
  unfold fractionText
  split
  · rename_i empty
    rw [empty, List.nil_append]
    cases rest with
    | nil => rfl
    | cons c rest =>
      have other : c ≠ dot := by simpa using noDot
      simp [readFraction, other]
  · rename_i nonempty
    rw [List.cons_append, readFraction, if_pos rfl, readDigits₁_append nonempty stop]

theorem readExponent_text (exponent : Option Int) {rest : Text} (stop : NumberEnd rest) :
    readExponent (exponentText exponent ++ rest) = some (exponent.getD 0, rest) := by
  cases exponent with
  | none =>
    rw [exponentText, List.nil_append]
    cases rest with
    | nil => rfl
    | cons c rest =>
      obtain ⟨-, -, notE, notCapital⟩ := stop c rfl
      simp [readExponent, notE, notCapital]
  | some e =>
    have digits := readDigits₁_append (naturalDigits_ne_nil e.natAbs) stop.noDigitHead
    simp only [exponentText, List.cons_append, readExponent, Option.getD_some]
    rw [if_pos (Or.inl trivial)]
    by_cases below : e < 0
    · simp only [below, ↓reduceIte, readSignedExponent, digits, Option.map_some,
        ofDigits_naturalDigits]
      congr 2
      omega
    · simp only [below, ↓reduceIte, readSignedExponent, digits, Option.map_some,
        ofDigits_naturalDigits]
      rw [if_neg (by decide)]
      congr 2
      omega

theorem digit?_minus : digit? minus = none := by decide

/-- The head of an exponent part is no digit and no point. -/
theorem exponentText_head (exponent : Option Int) {rest : Text} (stop : NumberEnd rest) :
    NoDigitHead (exponentText exponent ++ rest) ∧
      (exponentText exponent ++ rest).head? ≠ some dot := by
  cases exponent with
  | none =>
    refine ⟨stop.noDigitHead, fun first => ?_⟩
    exact (stop dot first).2.1 rfl
  | some e =>
    constructor
    · rintro c ⟨⟩
      decide
    · simp only [exponentText, List.cons_append, List.head?_cons]
      decide

theorem fractionText_head (fraction : List (Fin 10)) {rest : Text}
    (stop : NoDigitHead rest) : NoDigitHead (fractionText fraction ++ rest) := by
  unfold fractionText
  split
  · exact stop
  · rintro c ⟨⟩
    decide

theorem readSign_text (negative : Bool) {digits : List (Fin 10)} (nonempty : digits ≠ [])
    (rest : Text) :
    readSign (signText negative ++ (digits.map digitUnit ++ rest)) =
      (negative, digits.map digitUnit ++ rest) := by
  cases negative with
  | true => rfl
  | false =>
    cases digits with
    | nil => exact absurd rfl nonempty
    | cons d digits =>
      have notMinus : digitUnit d ≠ minus := by
        intro same
        have read := digit?_digitUnit d
        rw [same, digit?_minus] at read
        exact nomatch read
      simp [signText, readSign, notMinus]

/-- A written layout is read as the number its parts denote. -/
theorem readNumber_layout (negative : Bool) (layout : Layout) (nonempty : layout.whole ≠ [])
    (leading : layout.whole.head? = some 0 → layout.whole = [0]) {rest : Text}
    (stop : NumberEnd rest) :
    readNumber (signText negative ++ (layout.text ++ rest)) =
      some (normalise negative (layout.whole ++ layout.fraction)
        (layout.whole.length + layout.exponent.getD 0), rest) := by
  obtain ⟨noDigit, noDot⟩ := exponentText_head layout.exponent stop
  have wholeEnd := fractionText_head layout.fraction noDigit
  simp only [Layout.text, List.append_assoc]
  rw [readNumber]
  simp only [readSign_text negative nonempty]
  rw [readDigits₁_append nonempty wholeEnd]
  simp only [Option.bind_eq_bind, Option.bind_some]
  rw [if_neg fun bad => bad.2 (leading bad.1), readFraction_text _ noDigit noDot]
  simp only [Option.bind_some]
  rw [readExponent_text _ stop]
  rfl

theorem Number.digits_head (x : Number) {zeros : List (Fin 10)}
    (head : (x.digits ++ zeros).head? = some 0) : x.digits = [] := by
  by_contra nonzero
  rw [List.head?_append_of_ne_nil _ nonzero] at head
  exact x.head_ne_zero head

/-- Each layout has a digit before the point, and a leading zero only alone. -/
theorem Number.layout_whole (x : Number) :
    x.layout.whole ≠ [] ∧ (x.layout.whole.head? = some 0 → x.layout.whole = [0]) := by
  unfold Number.layout
  simp only
  split
  · simp
  · rename_i nonzero
    have taken (n : Nat) (positive : 0 < n) :
        x.digits.take n ≠ [] ∧ ((x.digits.take n).head? = some 0 → x.digits.take n = [0]) := by
      constructor
      · simpa [List.take_eq_nil_iff] using ⟨by omega, nonzero⟩
      · intro head
        rw [List.head?_take, if_neg (by omega)] at head
        exact absurd head x.head_ne_zero
    split
    · constructor
      · simp [nonzero]
      · intro head
        exact absurd (x.digits_head head) nonzero
    · split
      · exact taken _ (by omega)
      · split
        · simp
        · exact taken 1 (by decide)

/-- The parts of the layout of a number denote that number. -/
theorem Number.normalise_layout (x : Number) :
    normalise x.negative (x.layout.whole ++ x.layout.fraction)
      (x.layout.whole.length + x.layout.exponent.getD 0) = x := by
  by_cases isZero : x.digits = []
  · obtain ⟨positive, origin⟩ := x.zero isZero
    obtain ⟨negative, digits, point, _, _, _⟩ := x
    subst positive origin isZero
    rfl
  · have length : 0 < x.digits.length := List.length_pos_iff.2 isZero
    unfold Number.layout
    simp only
    rw [if_neg isZero]
    split
    · exact normalise_padded x isZero 0 (x.point - x.digits.length).toNat (by simp)
        (by simp; omega)
    · split
      · exact normalise_padded x isZero 0 0 (by simp) (by simp; omega)
      · split
        · exact normalise_padded x isZero (1 + (-x.point).toNat) 0
            (by simp [List.replicate_add]) (by simp; omega)
        · exact normalise_padded x isZero 0 0 (by rw [List.take_append_drop]; simp)
            (by simp; omega)

/-- The text of a number is read back, up to what follows it. -/
theorem readNumber_text (x : Number) {rest : Text} (stop : NumberEnd rest) :
    readNumber (x.text ++ rest) = some (x, rest) := by
  obtain ⟨nonempty, leading⟩ := x.layout_whole
  rw [Number.text, List.append_assoc,
    readNumber_layout x.negative x.layout nonempty leading stop, x.normalise_layout]

theorem not_mem_digits {c : CodeUnit} (noDigit : digit? c = none) (digits : List (Fin 10)) :
    c ∉ digits.map digitUnit := by
  intro member
  obtain ⟨d, -, rfl⟩ := List.mem_map.1 member
  rw [digit?_digitUnit] at noDigit
  exact nomatch noDigit

/-- A number is written with digits, signs, the point and the exponent letter. -/
theorem Number.not_mem_text {c : CodeUnit} (noDigit : digit? c = none) (notMinus : c ≠ minus)
    (notPlus : c ≠ 0x2b) (notDot : c ≠ dot) (notE : c ≠ 0x65) (x : Number) : c ∉ x.text := by
  have sign : c ∉ signText x.negative := by
    cases x.negative <;> simp [signText, notMinus]
  have fraction (digits : List (Fin 10)) : c ∉ fractionText digits := by
    unfold fractionText
    split
    · simp
    · simpa [notDot] using not_mem_digits noDigit digits
  have exponent (e : Option Int) : c ∉ exponentText e := by
    cases e with
    | none => simp [exponentText]
    | some e =>
      have digits := not_mem_digits noDigit (naturalDigits e.natAbs)
      by_cases below : e < 0
      · simpa [exponentText, below, notMinus, notE] using digits
      · simpa [exponentText, below, notPlus, notE] using digits
  have whole := not_mem_digits noDigit x.layout.whole
  simp only [text, Layout.text, List.mem_append, not_or]
  exact ⟨sign, whole, fraction _, exponent _⟩

/-! ## Integers -/

theorem naturalDigits_head {n : Nat} (positive : n ≠ 0) :
    (naturalDigits n).head? ≠ some 0 := by
  have last := Nat.getLast_digit_ne_zero 10 positive
  have nonempty : Nat.digits 10 n ≠ [] := Nat.digits_ne_nil_iff_ne_zero.2 positive
  have small := Nat.digits_lt_base (by decide : 1 < 10) (List.getLast_mem nonempty)
  rw [naturalDigits, if_neg positive, List.head?_map, List.head?_reverse,
    List.getLast?_eq_some_getLast nonempty, Option.map_some, ne_eq, Option.some.injEq]
  intro zero
  apply last
  have same := congrArg Fin.val zero
  rwa [Fin.val_ofNat, Nat.mod_eq_of_lt small] at same

theorem stripTrailing_append (digits : List (Fin 10)) :
    ∃ zeros, digits = stripTrailing digits ++ List.replicate zeros 0 := by
  have zeros : digits.rtakeWhile (· = 0) =
      List.replicate (digits.rtakeWhile (· = 0)).length 0 := by
    refine List.eq_replicate_iff.2 ⟨rfl, fun d member => ?_⟩
    exact of_decide_eq_true (@List.mem_rtakeWhile_imp _ (fun d => decide (d = 0)) _ _ member)
  refine ⟨(digits.rtakeWhile (· = 0)).length, ?_⟩
  rw [← zeros, stripTrailing, List.rdropWhile_append_rtakeWhile]

/-- The number of an integer. -/
def Number.ofInteger (value : Int) : Number :=
  normalise (value < 0) (naturalDigits value.natAbs) (naturalDigits value.natAbs).length

/-- The integer a number is, if it is one. -/
def Number.integer? (x : Number) : Option Int :=
  let size : Int := ofDigits (x.digits ++ List.replicate (x.point - x.digits.length).toNat 0)
  if (x.digits.length : Int) ≤ x.point then some (if x.negative then -size else size) else none

@[simp]
theorem Number.integer?_ofInteger (value : Int) : (ofInteger value).integer? = some value := by
  by_cases zero : value = 0
  · rw [zero]
    decide
  have positive : value.natAbs ≠ 0 := Int.natAbs_ne_zero.2 zero
  have stripped : stripLeading (naturalDigits value.natAbs) (naturalDigits value.natAbs).length =
      (naturalDigits value.natAbs, ↑(naturalDigits value.natAbs).length) := by
    have none := stripLeading_replicate 0 (naturalDigits_head positive)
      (naturalDigits value.natAbs).length
    simpa using none
  obtain ⟨zeros, split⟩ := stripTrailing_append (naturalDigits value.natAbs)
  have core : stripTrailing (naturalDigits value.natAbs) ≠ [] := by
    intro empty
    rw [empty, List.nil_append] at split
    cases zeros with
    | zero => exact naturalDigits_ne_nil _ split
    | succ zeros => exact naturalDigits_head positive (by rw [split]; rfl)
  have length := congrArg List.length split
  rw [List.length_append, List.length_replicate] at length
  have fill : ((naturalDigits value.natAbs).length -
      (stripTrailing (naturalDigits value.natAbs)).length : Int).toNat = zeros := by
    omega
  simp only [ofInteger, normalise, stripped, core, ↓reduceDIte, integer?]
  rw [fill, ← split, ofDigits_naturalDigits, if_pos (by omega)]
  congr 1
  by_cases negative : value < 0
  · rw [decide_eq_true negative, if_pos rfl]
    omega
  · rw [decide_eq_false negative, if_neg Bool.false_ne_true]
    omega

end Json
