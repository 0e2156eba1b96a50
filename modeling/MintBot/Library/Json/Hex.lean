import Mathlib.Tactic.Common
import MintBot.Library.Json.Text

/-!
# Hexadecimal texts

The number that a text of hexadecimal digits spells, in either letter case.  Two texts of one
length spell the same number exactly when they are the same up to letter case.
-/

namespace Json

/-- The lower-case and the upper-case form of a unit in the ASCII range. -/
def lowerUnit (c : CodeUnit) : CodeUnit :=
  if 0x41 ≤ c.toNat ∧ c.toNat ≤ 0x5a then c + 0x20 else c

def upperUnit (c : CodeUnit) : CodeUnit :=
  if 0x61 ≤ c.toNat ∧ c.toNat ≤ 0x7a then c - 0x20 else c

/-- The units of `[0-9a-fA-F]`. -/
def isHex (c : CodeUnit) : Bool :=
  (hex? c).isSome

/-- The digits of a text, and the number they spell. -/
def hexDigits (text : Text) : List (Fin 16) :=
  text.filterMap hex?

def hexValue (text : Text) : Nat :=
  Nat.ofDigits 16 ((hexDigits text).reverse.map Fin.val)

/-- The text with the letters at some positions in upper case. -/
def raiseAt (raised : Nat → Bool) (text : Text) : Text :=
  text.mapIdx fun i c => if raised i then upperUnit c else c

/-! ## Letter case -/

theorem lowerUnit_toNat (c : CodeUnit) :
    (lowerUnit c).toNat =
      if 0x41 ≤ c.toNat ∧ c.toNat ≤ 0x5a then c.toNat + 0x20 else c.toNat := by
  unfold lowerUnit
  split
  · rw [UInt16.toNat_add]
    simp only [UInt16.toNat_ofNat]
    omega
  · rfl

theorem upperUnit_toNat (c : CodeUnit) :
    (upperUnit c).toNat =
      if 0x61 ≤ c.toNat ∧ c.toNat ≤ 0x7a then c.toNat - 0x20 else c.toNat := by
  unfold upperUnit
  split
  · rename_i lower
    rw [UInt16.toNat_sub_of_le _ _ (UInt16.le_iff_toNat_le.mpr (by
      simp only [UInt16.toNat_ofNat]; omega))]
    rfl
  · rfl

theorem lowerUnit_upperUnit (c : CodeUnit) : lowerUnit (upperUnit c) = lowerUnit c := by
  apply UInt16.toNat_inj.1
  rw [lowerUnit_toNat, lowerUnit_toNat, upperUnit_toNat]
  split_ifs <;> omega

theorem lowerUnit_lowerUnit (c : CodeUnit) : lowerUnit (lowerUnit c) = lowerUnit c := by
  apply UInt16.toNat_inj.1
  simp only [lowerUnit_toNat]
  split_ifs <;> omega

theorem hex?_lowerUnit (c : CodeUnit) : hex? (lowerUnit c) = hex? c := by
  simp only [hex?, lowerUnit_toNat]
  split_ifs
  all_goals first
    | omega
    | rfl
    | rw [dif_neg (by omega), dif_neg (by omega), dif_pos (by omega)]
      apply congrArg some
      apply Fin.ext
      change c.toNat + 32 - 87 = c.toNat - 55
      omega

/-- A digit in lower case. -/
theorem lowerUnit_of_hex? {c : CodeUnit} {digit : Fin 16} (read : hex? c = some digit) :
    lowerUnit c = hexUnit digit := by
  apply UInt16.toNat_inj.1
  rw [lowerUnit_toNat]
  simp only [hex?] at read
  split_ifs at read
  all_goals
    obtain rfl := Option.some.inj read
    simp only [hexUnit]
    split <;> split <;>
      simp only [UInt16.toNat_add, Nat.toUInt16, UInt16.toNat_ofNat', UInt16.toNat_ofNat] <;> omega

theorem isHex_lowerUnit (c : CodeUnit) : isHex (lowerUnit c) = isHex c :=
  congrArg Option.isSome (hex?_lowerUnit c)

theorem lowerUnit_of_hex {c : CodeUnit} (hex : isHex c = true) :
    ∃ digit, hex? c = some digit ∧ lowerUnit c = hexUnit digit := by
  obtain ⟨digit, read⟩ := Option.isSome_iff_exists.mp hex
  exact ⟨digit, read, lowerUnit_of_hex? read⟩

/-! ## Whole texts -/

theorem length_raiseAt (raised : Nat → Bool) (text : Text) :
    (raiseAt raised text).length = text.length :=
  List.length_mapIdx

theorem lower_raiseAt (raised : Nat → Bool) (text : Text) :
    (raiseAt raised text).map lowerUnit = text.map lowerUnit := by
  refine List.ext_getElem (by simp [length_raiseAt]) fun i inside _ => ?_
  simp only [raiseAt, List.getElem_map, List.getElem_mapIdx]
  split
  · exact lowerUnit_upperUnit _
  · rfl

theorem lower_lower (text : Text) : (text.map lowerUnit).map lowerUnit = text.map lowerUnit := by
  rw [List.map_map]
  exact List.map_congr_left fun c _ => lowerUnit_lowerUnit c

theorem all_isHex_lower (text : Text) : (text.map lowerUnit).all isHex = text.all isHex := by
  rw [List.all_map]
  exact congrArg (fun test => List.all text test) (funext isHex_lowerUnit)

theorem all_isHex_raiseAt (raised : Nat → Bool) (text : Text) :
    (raiseAt raised text).all isHex = text.all isHex := by
  rw [← all_isHex_lower, lower_raiseAt, all_isHex_lower]

theorem hexDigits_lower (text : Text) : hexDigits (text.map lowerUnit) = hexDigits text := by
  rw [hexDigits, List.filterMap_map]
  exact congrArg (fun read => List.filterMap read text) (funext hex?_lowerUnit)

theorem hexValue_lower (text : Text) : hexValue (text.map lowerUnit) = hexValue text := by
  rw [hexValue, hexDigits_lower, hexValue]

/-- A text of digits in lower case. -/
theorem map_lowerUnit_eq {text : Text} (hex : text.all isHex = true) :
    text.map lowerUnit = (hexDigits text).map hexUnit := by
  induction text with
  | nil => rfl
  | cons c text inductionHypothesis =>
      rw [List.all_cons, Bool.and_eq_true] at hex
      obtain ⟨digit, read, lower⟩ := lowerUnit_of_hex hex.1
      have first : hexDigits (c :: text) = digit :: hexDigits text :=
        List.filterMap_cons_some read
      rw [List.map_cons, inductionHypothesis hex.2, lower, first, List.map_cons]

theorem length_hexDigits {text : Text} (hex : text.all isHex = true) :
    (hexDigits text).length = text.length := by
  have lengths := congrArg List.length (map_lowerUnit_eq hex)
  rw [List.length_map, List.length_map] at lengths
  exact lengths.symm

theorem hexValue_lt {text : Text} (hex : text.all isHex = true) :
    hexValue text < 16 ^ text.length := by
  have bound := Nat.ofDigits_lt_base_pow_length (b := 16) (by decide)
    (l := (hexDigits text).reverse.map Fin.val) (by
      intro digit member
      obtain ⟨digit, -, rfl⟩ := List.mem_map.mp member
      exact digit.isLt)
  rwa [List.length_map, List.length_reverse, length_hexDigits hex] at bound

/-- Texts of one length that spell the same number are the same up to letter case. -/
theorem lower_eq_of_hexValue {first second : Text} (firstHex : first.all isHex = true)
    (secondHex : second.all isHex = true) (lengths : first.length = second.length)
    (same : hexValue first = hexValue second) :
    first.map lowerUnit = second.map lowerUnit := by
  have small : ∀ digits : List (Fin 16), ∀ digit ∈ digits.reverse.map Fin.val, digit < 16 := by
    intro digits digit member
    obtain ⟨digit, -, rfl⟩ := List.mem_map.mp member
    exact digit.isLt
  have digits := Nat.ofDigits_inj_of_len_eq (by decide)
    (by simp only [List.length_map, List.length_reverse, length_hexDigits firstHex,
      length_hexDigits secondHex, lengths])
    (small (hexDigits first)) (small (hexDigits second)) same
  have equal : hexDigits first = hexDigits second :=
    List.reverse_inj.mp ((List.map_inj_right fun _ _ sameValue => Fin.ext sameValue).mp digits)
  rw [map_lowerUnit_eq firstHex, map_lowerUnit_eq secondHex, equal]

end Json
