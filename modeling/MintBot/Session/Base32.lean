import MintBot.Library.BitGroups
import MintBot.Library.IntegerText
import MintBot.Types

/-!
# The text of the session secret

The secret of the authenticator is written in base 32 for the owner to type.  Both directions
carry an accumulator of 32 bits, as the language's shifts and its bitwise or make it, and a count
of the bits in it that are still to be written.
-/

namespace MintBot.Base32

open BitGroups

def alphabet : List Char :=
  "ABCDEFGHIJKLMNOPQRSTUVWXYZ234567".toList

/-- `value << count` -/
def shiftLeft (value : BitVec 32) (count : Nat) : BitVec 32 :=
  value <<< (count % 32)

/-- `value >>> count` -/
def shiftRight (value : BitVec 32) (count : Nat) : BitVec 32 :=
  value >>> (count % 32)

/-! ## Encoding -/

/-- The letter of a group of five bits. -/
def letter (group : BitVec 32) : Char :=
  alphabet.getD (group &&& 31).toNat 'A'

/-- The inner loop of `base32Encode`: while there are five bits, their letter is written. -/
def drain (value : BitVec 32) : Nat → List Char → Nat × List Char
  | bits + 5, out => drain value bits (out ++ [letter (shiftRight value bits)])
  | bits, out => (bits, out)

/-- The local variables of both loops. -/
structure Loop (α : Type) where
  bits : Nat := 0
  value : BitVec 32 := 0
  out : List α := []

def encodeByte (loop : Loop Char) (byte : UInt8) : Loop Char :=
  let value := shiftLeft loop.value 8 ||| BitVec.ofNat 32 byte.toNat
  let drained := drain value (loop.bits + 8) loop.out
  { bits := drained.1, value := value, out := drained.2 }

/-- `base32Encode` -/
def base32Encode (bytes : List UInt8) : String :=
  let loop := bytes.foldl encodeByte {}
  String.ofList
    (if 0 < loop.bits then loop.out ++ [letter (shiftLeft loop.value (5 - loop.bits))]
    else loop.out)

/-! ## Decoding -/

/-- The characters that are passed over: white space, `=` and `-`. -/
def isFiller (char : Char) : Bool :=
  IntegerText.isSpace char || char == '=' || char == '-'

/-- `toUpperCase`, as far as its result can be letters of the alphabet. -/
def toUpperCase (char : Char) : List Char :=
  match char with
  | 'ı' => ['I']
  | 'ſ' => ['S']
  | 'ß' => ['S', 'S']
  | 'ﬀ' => ['F', 'F']
  | 'ﬁ' => ['F', 'I']
  | 'ﬂ' => ['F', 'L']
  | 'ﬃ' => ['F', 'F', 'I']
  | 'ﬄ' => ['F', 'F', 'L']
  | 'ﬅ' | 'ﬆ' => ['S', 'T']
  | char => [char.toUpper]

def clean (text : String) : List Char :=
  (text.toList.filter fun char => !isFiller char).flatMap toUpperCase

def decodeChar (loop : Loop UInt8) (char : Char) : Loop UInt8 :=
  let value := shiftLeft loop.value 5 ||| BitVec.ofNat 32 (alphabet.idxOf char)
  let bits := loop.bits + 5
  if 8 ≤ bits then
    { bits := bits - 8
      value := value
      out := loop.out ++ [UInt8.ofNat (shiftRight value (bits - 8) &&& 0xff).toNat] }
  else { bits := bits, value := value, out := loop.out }

instance decidableSome (chars : List Char) (p : Char → Prop) [DecidablePred p] :
    Decidable (∃ char ∈ chars, p char) :=
  List.decidableBEx p chars

/-- `base32Decode` -/
def base32Decode (text : String) : Except Error (List UInt8) :=
  let chars := clean text
  if chars.length = 0 ∨ ∃ char ∈ chars, char ∉ alphabet then .error "TOTP_SECRET_INVALID"
  else .ok (chars.foldl decodeChar {}).out

/-! ## The alphabet -/

/-- The letter of a number below 32. -/
def letterOf (group : Nat) : Char :=
  alphabet.getD group 'A'

theorem letter_eq (group : BitVec 32) : letter group = letterOf (group.toNat % 2 ^ 5) := by
  rw [letter, letterOf, BitVec.toNat_and]
  congr 1
  exact Nat.and_two_pow_sub_one_eq_mod group.toNat 5

theorem idxOf_letterOf : ∀ group < 2 ^ 5, alphabet.idxOf (letterOf group) = group := by
  decide +kernel

theorem letterOf_mem : ∀ group < 2 ^ 5, letterOf group ∈ alphabet := by
  decide +kernel

/-- Neither form of a letter is passed over, and both are read as the letter. -/
theorem alphabet_read : ∀ char ∈ alphabet,
    isFiller char = false ∧ isFiller char.toLower = false ∧
      toUpperCase char = [char] ∧ toUpperCase char.toLower = [char] := by
  refine List.forall_iff_forall_mem.mp ?_
  decide +kernel

/-! ## The loops -/

theorem toNat_shiftRight {value : BitVec 32} {count : Nat} (small : count < 32) :
    (shiftRight value count).toNat = value.toNat / 2 ^ count := by
  rw [shiftRight, Nat.mod_eq_of_lt small, BitVec.toNat_ushiftRight, Nat.shiftRight_eq_div_pow]

/-- What the loop of the encoder has written and what it holds. -/
structure Encoded (bytes : List Nat) (bits : Nat) (value : BitVec 32) (out : List Char) :
    Prop where
  groups : ∃ groups : List Nat, out = groups.map letterOf ∧
    Regrouped 8 5 bytes groups bits (low value bits)

variable {bytes : List Nat} {bits : Nat} {value : BitVec 32} {out : List Char}

theorem Encoded.drain (encoded : Encoded bytes bits value out) (fits : bits ≤ 32) :
    Encoded bytes (drain value bits out).1 value (drain value bits out).2 ∧
      (drain value bits out).1 < 5 := by
  fun_induction Base32.drain value bits out with
  | case1 bits out inductionHypothesis =>
      refine inductionHypothesis ?_ (by omega)
      obtain ⟨groups, rfl, regrouped⟩ := encoded.groups
      have written := regrouped.write
      have kept : low value (bits + 5) % 2 ^ bits = low value bits := low_low value bits 5
      rw [kept] at written
      refine ⟨⟨_, ?_, written⟩⟩
      rw [List.map_append, List.map_singleton, letter_eq, toNat_shiftRight (by omega), first_bits]
  | case2 bits out small =>
      refine ⟨encoded, ?_⟩
      by_contra more
      exact small (bits - 5) (by omega)

theorem encodeByte_encoded {loop : Loop Char} (encoded : Encoded bytes loop.bits loop.value loop.out)
    (small : loop.bits < 5) (byte : UInt8) :
    Encoded (bytes ++ [byte.toNat]) (encodeByte loop byte).bits (encodeByte loop byte).value
      (encodeByte loop byte).out ∧ (encodeByte loop byte).bits < 5 := by
  obtain ⟨groups, isOut, regrouped⟩ := encoded.groups
  have read := regrouped.read byte.toNat_lt
  rw [← low_push (by omega) byte.toNat_lt] at read
  exact Encoded.drain ⟨⟨groups, isOut, read⟩⟩ (by omega)

theorem foldl_encodeByte (bytes : List UInt8) :
    Encoded (bytes.map UInt8.toNat) (bytes.foldl encodeByte {}).bits
      (bytes.foldl encodeByte {}).value (bytes.foldl encodeByte {}).out ∧
      (bytes.foldl encodeByte {}).bits < 5 := by
  induction bytes using List.reverseRecOn with
  | nil => exact ⟨⟨⟨[], rfl, Regrouped.empty 8 5⟩⟩, by decide⟩
  | append_singleton bytes byte inductionHypothesis =>
      rw [List.foldl_append, List.map_append, List.map_singleton]
      exact encodeByte_encoded inductionHypothesis.1 inductionHypothesis.2 byte

/-- Zero bits are shifted in behind the pending ones. -/
theorem low_shiftLeft {width : Nat} (fits : bits + width = 5) :
    (shiftLeft value width).toNat % 2 ^ 5 = low value bits * 2 ^ width := by
  have shifted : low ((value <<< width) ||| BitVec.ofNat 32 0) (bits + width) =
      low value bits * 2 ^ width + 0 := low_push (by omega) (Nat.two_pow_pos width)
  rw [BitVec.or_zero, Nat.add_zero, fits] at shifted
  have plain : shiftLeft value width = value <<< width := by
    rw [shiftLeft, Nat.mod_eq_of_lt (show width < 32 by omega)]
  rw [← shifted, plain, low]

/-- The letters of the encoder are the bytes with some zero bits behind them. -/
theorem base32Encode_padded (bytes : List UInt8) :
    ∃ (groups : List Nat) (padding : Nat), (base32Encode bytes).toList = groups.map letterOf ∧
      padding < 8 ∧ Padded 8 5 (bytes.map UInt8.toNat) groups padding := by
  obtain ⟨encoded, small⟩ := foldl_encodeByte bytes
  unfold base32Encode
  generalize bytes.foldl encodeByte {} = loop at encoded small ⊢
  obtain ⟨groups, isOut, regrouped⟩ := encoded.groups
  dsimp only
  rw [String.toList_ofList]
  split
  · rename_i some_left
    have fits : loop.bits + (5 - loop.bits) = 5 := by omega
    refine ⟨_, 5 - loop.bits, ?_, by omega, regrouped.pad (by omega)⟩
    rw [List.map_append, List.map_singleton, ← isOut, letter_eq, low_shiftLeft fits]
  · rename_i none_left
    have none_left : loop.bits = 0 := by omega
    rw [none_left] at regrouped
    exact ⟨groups, 0, isOut, by decide, regrouped.whole⟩

/-- What the loop of the decoder has read and what it holds. -/
structure Decoded (groups : List Nat) (loop : Loop UInt8) : Prop where
  regrouped : Regrouped 5 8 groups (loop.out.map UInt8.toNat) loop.bits (low loop.value loop.bits)
  small : loop.bits < 8

theorem decodeChar_decoded {groups : List Nat} {loop : Loop UInt8} (decoded : Decoded groups loop)
    {group : Nat} (isGroup : group < 2 ^ 5) :
    Decoded (groups ++ [group]) (decodeChar loop (letterOf group)) := by
  have small := decoded.small
  have read := decoded.regrouped.read isGroup
  have pushed : low (shiftLeft loop.value 5 ||| BitVec.ofNat 32 group) (loop.bits + 5) =
      low loop.value loop.bits * 2 ^ 5 + group := low_push (by omega) isGroup
  rw [← pushed] at read
  unfold decodeChar
  rw [idxOf_letterOf group isGroup]
  dsimp only
  generalize shiftLeft loop.value 5 ||| BitVec.ofNat 32 group = value at read
  split
  · rename_i enough
    obtain ⟨rest, split⟩ : ∃ rest, loop.bits + 5 = rest + 8 := ⟨loop.bits + 5 - 8, by omega⟩
    rw [split] at read ⊢
    have written := read.write
    have byte : (UInt8.ofNat (shiftRight value rest &&& 0xff).toNat).toNat =
        low value (rest + 8) / 2 ^ rest := by
      rw [UInt8.toNat_ofNat', BitVec.toNat_and, toNat_shiftRight (by omega), ← first_bits]
      exact (congrArg (· % 2 ^ 8) (Nat.and_two_pow_sub_one_eq_mod _ 8)).trans (Nat.mod_mod _ _)
    have left : rest < 8 := by omega
    rw [low_low, ← byte] at written
    rw [Nat.add_sub_cancel]
    refine ⟨?_, left⟩
    rw [List.map_append, List.map_singleton]
    exact written
  · rename_i fewer
    have fewer : loop.bits + 5 < 8 := Nat.lt_of_not_le fewer
    exact ⟨read, fewer⟩

theorem foldl_decodeChar {groups : List Nat} (all : Digits 5 groups) :
    Decoded groups ((groups.map letterOf).foldl decodeChar {}) := by
  induction groups using List.reverseRecOn with
  | nil => exact ⟨Regrouped.empty 5 8, by decide⟩
  | append_singleton groups group inductionHypothesis =>
      obtain ⟨all, last⟩ := List.forall_mem_append.mp all
      rw [List.map_append, List.map_singleton, List.foldl_append]
      exact decodeChar_decoded (inductionHypothesis all) (last group (List.mem_singleton_self _))

/-! ## What the owner types -/

/-- A text, with letters in either case and with spaces, `-` and `=` anywhere. -/
inductive Respelled : List Char → List Char → Prop
  | nil : Respelled [] []
  | filler {text typed : List Char} {char : Char} (isFiller : char ∈ [' ', '-', '='])
      (rest : Respelled text typed) : Respelled text (char :: typed)
  | upper {text typed : List Char} (char : Char) (rest : Respelled text typed) :
      Respelled (char :: text) (char :: typed)
  | lower {text typed : List Char} (char : Char) (rest : Respelled text typed) :
      Respelled (char :: text) (char.toLower :: typed)

theorem clean_respelled {text typed : List Char} (respelled : Respelled text typed)
    (letters : ∀ char ∈ text, char ∈ alphabet) :
    (typed.filter fun char => !isFiller char).flatMap toUpperCase = text := by
  induction respelled with
  | nil => rfl
  | @filler text typed char filler _ inductionHypothesis =>
      have passed : ∀ char ∈ [' ', '-', '='], isFiller char = true :=
        List.all_eq_true.mp (by decide)
      rw [List.filter_cons_of_neg (by simp [passed char filler])]
      exact inductionHypothesis letters
  | upper char _ inductionHypothesis =>
      obtain ⟨kept, -, read, -⟩ := alphabet_read char (letters char List.mem_cons_self)
      rw [List.filter_cons_of_pos (by simp [kept]), List.flatMap_cons, read,
        inductionHypothesis fun other member => letters other (List.mem_cons_of_mem _ member)]
      rfl
  | lower char _ inductionHypothesis =>
      obtain ⟨-, kept, -, read⟩ := alphabet_read char (letters char List.mem_cons_self)
      rw [List.filter_cons_of_pos (by simp [kept]), List.flatMap_cons, read,
        inductionHypothesis fun other member => letters other (List.mem_cons_of_mem _ member)]
      rfl

/-- A secret is read back from its text however the owner spells it. -/
theorem base32Decode_respelled (bytes : List UInt8) (typed : String) (some_bytes : bytes ≠ [])
    (respelled : Respelled (base32Encode bytes).toList typed.toList) :
    base32Decode typed = .ok bytes := by
  obtain ⟨groups, padding, text, fits, padded⟩ := base32Encode_padded bytes
  rw [text] at respelled
  have letters : ∀ char ∈ groups.map letterOf, char ∈ alphabet := by
    intro char member
    obtain ⟨group, isGroup, rfl⟩ := List.mem_map.mp member
    exact letterOf_mem group (padded.digits group isGroup)
  have cleaned : clean typed = groups.map letterOf := clean_respelled respelled letters
  have nonempty : (groups.map letterOf).length ≠ 0 := by
    have positive := List.length_pos_iff.mpr some_bytes
    have count := padded.count
    rw [List.length_map] at count ⊢
    omega
  have accepted : ¬ ((groups.map letterOf).length = 0 ∨
      ∃ char ∈ groups.map letterOf, char ∉ alphabet) := by
    rintro (empty | ⟨char, member, unknown⟩)
    · exact nonempty empty
    · exact unknown (letters char member)
  have decoded := foldl_decodeChar padded.digits
  have small : Digits 8 (bytes.map UInt8.toNat) := by
    intro digit member
    obtain ⟨byte, -, rfl⟩ := List.mem_map.mp member
    exact byte.toNat_lt
  have same := padded.undo small fits decoded.regrouped decoded.small
  rw [base32Decode, cleaned, if_neg accepted]
  exact congrArg Except.ok (List.map_injective_iff.mpr (fun _ _ => UInt8.toNat_inj.mp) same)

/-- Two bytes, typed in lower case with spaces and signs of padding. -/
theorem base32Decode_typed : base32Decode "77 7-q=" = .ok [0xff, 0xff] := by
  have text : (base32Encode [0xff, 0xff]).toList = ['7', '7', '7', 'Q'] := by decide +kernel
  refine base32Decode_respelled [0xff, 0xff] "77 7-q=" (by decide) ?_
  rw [text]
  exact .upper '7' (.upper '7' (.filler (by decide) (.upper '7' (.filler (by decide)
    (.lower 'Q' (.filler (by decide) .nil))))))

end MintBot.Base32
