import Mathlib.Data.Nat.Digits.Defs
import Mathlib.Data.Fin.Basic

/-!
# UTF-16 texts and JSON string literals

A text is a list of UTF-16 code units, so that lone surrogates are texts as well.  The file
holds decimal digits with their maximal-run reader, and the two directions of a JSON string
literal: `quoteBody` writes the escapes of `JSON.stringify` (short escapes, lower-case
`\uXXXX` for the other control characters and for lone surrogates), `readBody` reads every
escape the JSON grammar allows up to the closing quotation mark.
-/

namespace Json

abbrev CodeUnit := UInt16

abbrev Text := List CodeUnit

instance lawfulText : LawfulBEq Text :=
  inferInstance

/-- The digits are numbers below ten, of which there are some. -/
instance neZeroTen : NeZero (10 : Nat) :=
  ⟨Nat.succ_ne_zero 9⟩

/-- The code units of an ASCII string. -/
def ascii (text : String) : Text :=
  text.toList.map fun c => c.toNat.toUInt16

/-! ## Digits -/

def digitUnit (d : Fin 10) : CodeUnit :=
  0x30 + d.val.toUInt16

def digit? (c : CodeUnit) : Option (Fin 10) :=
  if h : 0x30 ≤ c.toNat ∧ c.toNat < 0x3a then some ⟨c.toNat - 0x30, by omega⟩ else none

@[simp]
theorem digit?_digitUnit (d : Fin 10) : digit? (digitUnit d) = some d := by
  revert d
  decide

theorem digitUnit_of_digit? {c : CodeUnit} {d : Fin 10} (read : digit? c = some d) :
    digitUnit d = c := by
  simp only [digit?, Option.dite_none_right_eq_some, Option.some.injEq] at read
  obtain ⟨range, rfl⟩ := read
  apply UInt16.toNat_inj.1
  simp only [digitUnit, UInt16.toNat_add, Nat.toUInt16, UInt16.toNat_ofNat',
    UInt16.toNat_ofNat]
  omega

/-- The text does not go on with a digit. -/
def NoDigitHead (text : Text) : Prop :=
  ∀ c ∈ text.head?, digit? c = none

/-- The longest run of digits at the front, and the text behind it. -/
def readDigits : Text → List (Fin 10) × Text
  | [] => ([], [])
  | c :: rest =>
    match digit? c with
    | some d => (d :: (readDigits rest).1, (readDigits rest).2)
    | none => ([], c :: rest)

theorem readDigits_of_noDigitHead {text : Text} (stop : NoDigitHead text) :
    readDigits text = ([], text) := by
  cases text with
  | nil => rfl
  | cons c rest => simp [readDigits, stop c rfl]

theorem readDigits_append (digits : List (Fin 10)) {rest : Text} (stop : NoDigitHead rest) :
    readDigits (digits.map digitUnit ++ rest) = (digits, rest) := by
  induction digits with
  | nil => exact readDigits_of_noDigitHead stop
  | cons d digits ih => simp [readDigits, ih]

/-- The decimal digits of a natural number, without leading zeros. -/
def naturalDigits (n : Nat) : List (Fin 10) :=
  if n = 0 then [0] else (Nat.digits 10 n).reverse.map (Fin.ofNat 10)

/-- The natural number a digit string denotes. -/
def ofDigits (digits : List (Fin 10)) : Nat :=
  Nat.ofDigits 10 (digits.reverse.map Fin.val)

theorem naturalDigits_ne_nil (n : Nat) : naturalDigits n ≠ [] := by
  unfold naturalDigits
  split
  · exact List.cons_ne_nil _ _
  · rename_i positive
    simpa using Nat.digits_ne_nil_iff_ne_zero.2 positive

@[simp]
theorem ofDigits_naturalDigits (n : Nat) : ofDigits (naturalDigits n) = n := by
  unfold naturalDigits
  split
  · rename_i zero
    rw [zero]
    rfl
  · have same : (Nat.digits 10 n).map (Fin.val ∘ Fin.ofNat 10) = Nat.digits 10 n := by
      conv_rhs => rw [← List.map_id (Nat.digits 10 n)]
      apply List.map_congr_left
      intro d member
      simp [Nat.mod_eq_of_lt (Nat.digits_lt_base (by decide) member)]
    rw [ofDigits, ← List.map_reverse, List.reverse_reverse, List.map_map, same,
      Nat.ofDigits_digits]

/-! ## String literals -/

def quoteMark : CodeUnit := 0x22
def backslash : CodeUnit := 0x5c
def letterU : CodeUnit := 0x75

/-- The units with a short escape, each with the letter of its escape. -/
def shortEscapes : List (CodeUnit × CodeUnit) :=
  [(0x08, 0x62), (0x09, 0x74), (0x0a, 0x6e), (0x0c, 0x66), (0x0d, 0x72),
    (quoteMark, quoteMark), (backslash, backslash)]

def escape? (c : CodeUnit) : Option CodeUnit :=
  (shortEscapes.find? fun entry => entry.1 = c).map Prod.snd

/-- The unit a short escape stands for; the grammar also has an escaped solidus. -/
def unescape? (letter : CodeUnit) : Option CodeUnit :=
  (((0x2f, 0x2f) :: shortEscapes).find? fun entry => entry.2 = letter).map Prod.fst

def isLead (c : CodeUnit) : Bool :=
  0xd800 ≤ c.toNat && c.toNat ≤ 0xdbff

def isTrail (c : CodeUnit) : Bool :=
  0xdc00 ≤ c.toNat && c.toNat ≤ 0xdfff

def hexUnit (h : Fin 16) : CodeUnit :=
  if h.val < 10 then 0x30 + h.val.toUInt16 else 0x57 + h.val.toUInt16

def hex? (c : CodeUnit) : Option (Fin 16) :=
  if h : 0x30 ≤ c.toNat ∧ c.toNat < 0x3a then some ⟨c.toNat - 0x30, by omega⟩
  else if h : 0x61 ≤ c.toNat ∧ c.toNat < 0x67 then some ⟨c.toNat - 0x57, by omega⟩
  else if h : 0x41 ≤ c.toNat ∧ c.toNat < 0x47 then some ⟨c.toNat - 0x37, by omega⟩
  else none

@[simp]
theorem hex?_hexUnit (h : Fin 16) : hex? (hexUnit h) = some h := by
  revert h
  decide

/-- The escape `\uXXXX` of a unit. -/
def unicodeEscape (c : CodeUnit) : Text :=
  [backslash, letterU, hexUnit (Fin.ofNat 16 (c.toNat / 4096)),
    hexUnit (Fin.ofNat 16 (c.toNat / 256)), hexUnit (Fin.ofNat 16 (c.toNat / 16)),
    hexUnit (Fin.ofNat 16 c.toNat)]

def ofHex (a b c d : Fin 16) : CodeUnit :=
  UInt16.ofNat (4096 * a.val + 256 * b.val + 16 * c.val + d.val)

theorem ofHex_parts (c : CodeUnit) :
    ofHex (Fin.ofNat 16 (c.toNat / 4096)) (Fin.ofNat 16 (c.toNat / 256))
      (Fin.ofNat 16 (c.toNat / 16)) (Fin.ofNat 16 c.toNat) = c := by
  apply UInt16.toNat_inj.1
  have bound := c.toNat_lt
  simp only [ofHex, Fin.ofNat_eq_cast, Fin.val_natCast, UInt16.toNat_ofNat']
  omega

/-- A unit of a literal that is no half of a surrogate pair. -/
def quoteUnit (c : CodeUnit) : Text :=
  match escape? c with
  | some letter => [backslash, letter]
  | none => if c.toNat < 0x20 ∨ isLead c ∨ isTrail c then unicodeEscape c else [c]

/-- The text between the quotation marks of a literal. -/
def quoteBody : Text → Text
  | [] => []
  | [c] => quoteUnit c
  | c :: d :: rest =>
    if isLead c ∧ isTrail d then c :: d :: quoteBody rest
    else quoteUnit c ++ quoteBody (d :: rest)

/-- The literal of a text. -/
def quote (text : Text) : Text :=
  quoteMark :: (quoteBody text ++ [quoteMark])

/-- Put a unit in front of a text that was read. -/
def prepend (c : CodeUnit) (read : Option (Text × Text)) : Option (Text × Text) :=
  read.map fun read => (c :: read.1, read.2)

/-- Read a literal behind its opening mark: its text, and what follows the closing mark. -/
def readBody : Text → Option (Text × Text)
  | [] => none
  | c :: rest =>
    if c = quoteMark then some ([], rest)
    else if c.toNat < 0x20 then none
    else if c ≠ backslash then prepend c (readBody rest)
    else
      match rest with
      | [] => none
      | letter :: rest =>
        if letter = letterU then
          match rest with
          | h₁ :: h₂ :: h₃ :: h₄ :: rest =>
            match hex? h₁, hex? h₂, hex? h₃, hex? h₄ with
            | some a, some b, some c, some d => prepend (ofHex a b c d) (readBody rest)
            | _, _, _, _ => none
          | _ => none
        else
          match unescape? letter with
          | some c => prepend c (readBody rest)
          | none => none

theorem readBody_quoteMark (rest : Text) : readBody (quoteMark :: rest) = some ([], rest) := by
  rw [readBody.eq_def]
  rfl

/-- A unit that needs no escape is read as itself. -/
theorem readBody_plain {c : CodeUnit} (noMark : c ≠ quoteMark) (noSlash : c ≠ backslash)
    (printable : 0x20 ≤ c.toNat) (rest : Text) :
    readBody (c :: rest) = prepend c (readBody rest) := by
  rw [readBody.eq_def]
  simp only
  rw [if_neg noMark, if_neg (by omega), if_pos noSlash]

theorem readBody_short {c letter : CodeUnit} (notU : letter ≠ letterU)
    (short : unescape? letter = some c) (rest : Text) :
    readBody (backslash :: letter :: rest) = prepend c (readBody rest) := by
  rw [readBody.eq_def]
  simp only
  rw [if_neg (by decide), if_neg (by decide), if_neg (by simp), if_neg notU, short]

theorem readBody_unicode (c : CodeUnit) (rest : Text) :
    readBody (unicodeEscape c ++ rest) = prepend c (readBody rest) := by
  simp only [unicodeEscape, List.cons_append, List.nil_append]
  rw [readBody.eq_def]
  simp only
  rw [if_neg (by decide), if_neg (by decide), if_neg (by simp), if_pos trivial]
  simp only [hex?_hexUnit]
  rw [ofHex_parts]

theorem escape?_eq_some {c letter : CodeUnit} (short : escape? c = some letter) :
    letter ≠ letterU ∧ unescape? letter = some c := by
  obtain ⟨⟨unit, letter⟩, found, rfl⟩ := Option.map_eq_some_iff.1 short
  have same := List.find?_some found
  obtain rfl := of_decide_eq_true same
  have known : (shortEscapes.all fun entry =>
      decide (entry.2 ≠ letterU ∧ unescape? entry.2 = some entry.1)) = true := by
    decide
  exact of_decide_eq_true (List.all_eq_true.1 known _ (List.mem_of_find?_eq_some found))

theorem escape?_eq_none {c : CodeUnit} (long : escape? c = none) :
    c ≠ quoteMark ∧ c ≠ backslash := by
  constructor
  · rintro rfl
    exact absurd long (by decide)
  · rintro rfl
    exact absurd long (by decide)

/-- A quoted unit is read back, whatever follows it. -/
theorem readBody_quoteUnit (c : CodeUnit) (rest : Text) :
    readBody (quoteUnit c ++ rest) = prepend c (readBody rest) := by
  unfold quoteUnit
  split
  · rename_i letter short
    obtain ⟨notU, back⟩ := escape?_eq_some short
    exact readBody_short notU back rest
  · rename_i long
    obtain ⟨noMark, noSlash⟩ := escape?_eq_none long
    split
    · exact readBody_unicode c rest
    · rename_i printable
      exact readBody_plain noMark noSlash (by omega) rest

/-- The text of a literal is read back, up to its closing mark. -/
theorem readBody_quoteBody (text rest : Text) :
    readBody (quoteBody text ++ quoteMark :: rest) = some (text, rest) := by
  induction text using quoteBody.induct with
  | case1 => exact readBody_quoteMark rest
  | case2 c =>
    rw [quoteBody, readBody_quoteUnit, readBody_quoteMark]
    rfl
  | case3 c d text pair ih =>
    have lead := pair.1
    have trail := pair.2
    simp only [isLead, isTrail, Bool.and_eq_true, decide_eq_true_eq] at lead trail
    rw [quoteBody, if_pos pair, List.cons_append, List.cons_append, readBody_plain, readBody_plain,
      ih]
    · rfl
    · rintro rfl; revert trail; decide
    · rintro rfl; revert trail; decide
    · omega
    · rintro rfl; revert lead; decide
    · rintro rfl; revert lead; decide
    · omega
  | case4 c d text single ih =>
    rw [quoteBody, if_neg single, List.append_assoc, readBody_quoteUnit, ih]
    rfl

/-- Whether a unit stands for itself in a literal. -/
def Plain (c : CodeUnit) : Prop :=
  quoteUnit c = [c] ∧ isLead c = false

instance (c : CodeUnit) : Decidable (Plain c) :=
  inferInstanceAs (Decidable (_ ∧ _))

theorem quoteBody_plain {text : Text} (plain : ∀ c ∈ text, Plain c) :
    quoteBody text = text := by
  induction text using quoteBody.induct with
  | case1 => rfl
  | case2 c => exact (plain c List.mem_cons_self).1
  | case3 c d text pair ih =>
    rw [(plain c List.mem_cons_self).2] at pair
    exact absurd pair.1 (by decide)
  | case4 c d text single ih =>
    rw [quoteBody, if_neg single, (plain c List.mem_cons_self).1,
      ih fun e member => plain e (List.mem_cons_of_mem c member)]
    rfl

end Json
