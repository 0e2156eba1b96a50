import MintBot.Library.Json.Search
import MintBot.Library.Json.Spacing
import MintBot.Types

/-!
# Canonical encoding

`encode` and `decode` of the canonical store.  A bigint is written as a string of its digits
with an `n` behind them; the decoder looks in the text for such a string and turns strings
back into bigints only when it finds one.  The encoder refuses a text in which one of the
listed names stands in front of a colon.

A decoded value is the encoded one as long as none of its strings has the form of a written
bigint, and the two ways of the decoder agree on everything the encoder writes.
-/

namespace MintBot

open Json Regex

/-! ## Expressions -/

/-- The lower case of an ASCII letter. -/
def lowerUnit (c : CodeUnit) : CodeUnit :=
  if 0x41 ≤ c.toNat ∧ c.toNat ≤ 0x5a then c + 0x20 else c

def unit (c : CodeUnit) : Regex CodeUnit :=
  set fun d => d = c

/-- A word of lower-case letters under the `i` flag. -/
def word (text : String) : Regex CodeUnit :=
  all ((ascii text).map fun c => set fun d => lowerUnit d = c)

/-- `[_-]?` -/
def wordBreak : Regex CodeUnit :=
  optional (set fun c => c = 0x5f || c = 0x2d)

/-- `\s` -/
def whiteSpace : Regex CodeUnit :=
  set fun c =>
    (0x09 ≤ c.toNat && c.toNat ≤ 0x0d) || c = 0x20 || c = 0xa0 || c = 0x1680 ||
      (0x2000 ≤ c.toNat && c.toNat ≤ 0x200a) || c = 0x2028 || c = 0x2029 || c = 0x202f ||
      c = 0x205f || c = 0x3000 || c = 0xfeff

/-- `\d` -/
def digit : Regex CodeUnit :=
  set fun c => (digit? c).isSome

/-- The listed names of secrets. -/
def secretName : Regex CodeUnit :=
  any [all [word "private", wordBreak, word "key"], word "mnemonic",
    all [word "seed", optional (all [wordBreak, word "phrase"])], word "passphrase",
    word "password", all [word "api", wordBreak, word "key"],
    all [word "access", wordBreak, word "token"], all [word "secret", wordBreak, word "key"],
    all [word "auth", wordBreak, word "token"]]

/-- A name of a secret, white space and a colon. -/
def secretLike : Regex CodeUnit :=
  all [secretName, star whiteSpace, unit colon]

/-- `^-?\d+n$` -/
def bigintLiteral : Regex CodeUnit :=
  all [optional (unit minus), plus digit, unit 0x6e]

/-- `BIGINT_TEXT` -/
def bigintText : Regex CodeUnit :=
  all [unit quoteMark, bigintLiteral, unit quoteMark]

/-! ## Values -/

/-- The leaves of a canonical value. -/
inductive CanonicalLeaf where
  | scalar (value : Scalar)
  | bigint (value : Int)
  deriving DecidableEq

/-- A value of nested arrays and objects that JavaScript can hold. -/
structure CanonicalValue where
  document : Document CanonicalLeaf
  proper : document.Proper

/-- `BigInt.prototype.toString` -/
def bigintDigits (value : Int) : Text :=
  signText (value < 0) ++ (naturalDigits value.natAbs).map digitUnit

/-- `BigInt` of a text of digits with an optional minus. -/
def readBigint (text : Text) : Int :=
  let signed := readSign text
  let size : Int := ofDigits (readDigits signed.2).1
  if signed.1 then -size else size

/-- The replacer of the encoder. -/
def replacer : CanonicalLeaf → Scalar
  | .scalar value => value
  | .bigint value => .string (bigintDigits value ++ [0x6e])

/-- The reviver of the decoder. -/
def reviver : Scalar → CanonicalLeaf
  | .string text =>
    if bigintLiteral.accepts text then .bigint (readBigint text.dropLast)
    else .scalar (.string text)
  | value => .scalar value

/-! ## Encoding and decoding -/

/-- `encode`; an undefined value has no JSON text. -/
def encode (value : Option CanonicalValue) : Except Error Text :=
  match value with
  | none => .error "CANONICAL_JSON_ENCODING_FAILED"
  | some value =>
    let result := (value.document.map replacer).text
    if secretLike.search result then .error "SECRET_LIKE_STATE_REJECTED" else .ok result

/-- `JSON.parse` without a reviver. -/
def parsePlain (text : Text) : Except Error (Document CanonicalLeaf) :=
  match parse text with
  | none => .error "SyntaxError"
  | some value => .ok (value.map .scalar)

/-- `JSON.parse` with the reviver. -/
def parseReviving (text : Text) : Except Error (Document CanonicalLeaf) :=
  match parse text with
  | none => .error "SyntaxError"
  | some value => .ok (value.map reviver)

def decode (value : Option Text) : Except Error (Option (Document CanonicalLeaf)) :=
  match value with
  | none => .ok none
  | some [] => .ok none
  | some text =>
    if bigintText.search text then some <$> parseReviving text else some <$> parsePlain text

/-! ## Round trip -/

theorem mem_all_cons {first : Regex CodeUnit} {parts : List (Regex CodeUnit)} {text : Text} :
    text ∈ (all (first :: parts)).language ↔
      ∃ front ∈ first.language, ∃ back ∈ (all parts).language, front ++ back = text :=
  mem_seq first (all parts) text

theorem mem_unit {c : CodeUnit} {text : Text} : text ∈ (unit c).language ↔ text = [c] := by
  simp [unit]

theorem mem_digit {text : Text} :
    text ∈ digit.language ↔ ∃ d, text = [digitUnit d] := by
  simp only [digit, mem_set, Option.isSome_iff_exists]
  constructor
  · rintro ⟨c, ⟨d, read⟩, rfl⟩
    exact ⟨d, by rw [digitUnit_of_digit? read]⟩
  · rintro ⟨d, rfl⟩
    exact ⟨digitUnit d, ⟨d, digit?_digitUnit d⟩, rfl⟩

theorem mem_star_digit {text : Text} :
    text ∈ (star digit).language ↔ ∃ digits : List (Fin 10), text = digits.map digitUnit := by
  constructor
  · intro accepted
    induction text with
    | nil => exact ⟨[], rfl⟩
    | cons c text ih =>
      obtain ⟨front, back, head, tail, joined⟩ := (cons_mem_star digit c text).1 accepted
      obtain ⟨d, same⟩ := mem_digit.1 head
      obtain ⟨rfl, rfl⟩ := List.cons.inj same
      rw [List.nil_append] at joined
      obtain ⟨digits, rfl⟩ := ih (joined ▸ tail)
      exact ⟨d :: digits, rfl⟩
  · rintro ⟨digits, rfl⟩
    induction digits with
    | nil => exact nil_mem_star digit
    | cons d digits ih =>
      exact (cons_mem_star digit _ _).2 ⟨[], _, mem_digit.2 ⟨d, rfl⟩, ih, rfl⟩

theorem mem_plus_digit {text : Text} :
    text ∈ (plus digit).language ↔
      ∃ digits : List (Fin 10), digits ≠ [] ∧ text = digits.map digitUnit := by
  rw [plus, mem_seq]
  constructor
  · rintro ⟨front, head, back, tail, rfl⟩
    obtain ⟨d, rfl⟩ := mem_digit.1 head
    obtain ⟨digits, rfl⟩ := mem_star_digit.1 tail
    exact ⟨d :: digits, List.cons_ne_nil _ _, rfl⟩
  · rintro ⟨digits, nonempty, rfl⟩
    obtain ⟨d, rest, rfl⟩ := List.exists_cons_of_ne_nil nonempty
    exact ⟨_, mem_digit.2 ⟨d, rfl⟩, _, mem_star_digit.2 ⟨rest, rfl⟩, rfl⟩

theorem mem_optional_minus {text : Text} :
    text ∈ (optional (unit minus)).language ↔ ∃ negative, text = signText negative := by
  rw [Regex.optional, mem_alt, mem_unit, mem_empty]
  constructor
  · rintro (rfl | rfl)
    · exact ⟨true, rfl⟩
    · exact ⟨false, rfl⟩
  · rintro ⟨_ | _, rfl⟩
    · exact Or.inr rfl
    · exact Or.inl rfl

/-- The texts the reviver takes for a bigint. -/
theorem mem_bigintLiteral {text : Text} :
    text ∈ bigintLiteral.language ↔
      ∃ (negative : Bool) (digits : List (Fin 10)), digits ≠ [] ∧
        text = signText negative ++ (digits.map digitUnit ++ [0x6e]) := by
  simp only [bigintLiteral, mem_all_cons, mem_optional_minus, mem_plus_digit, mem_unit]
  constructor
  · rintro ⟨_, ⟨negative, rfl⟩, _, ⟨_, ⟨digits, nonempty, rfl⟩, _, ⟨_, rfl, _, last, rfl⟩, rfl⟩,
      rfl⟩
    obtain rfl := (mem_empty _).1 last
    exact ⟨negative, digits, nonempty, rfl⟩
  · rintro ⟨negative, digits, nonempty, rfl⟩
    exact ⟨_, ⟨negative, rfl⟩, _, ⟨_, ⟨digits, nonempty, rfl⟩, _,
      ⟨_, rfl, [], (mem_empty _).2 rfl, rfl⟩, rfl⟩, rfl⟩

theorem mem_bigintText {text : Text} :
    text ∈ bigintText.language ↔
      ∃ literal ∈ bigintLiteral.language, text = quoteMark :: (literal ++ [quoteMark]) := by
  simp only [bigintText, mem_all_cons, mem_unit]
  constructor
  · rintro ⟨_, rfl, _, ⟨literal, accepted, _, ⟨_, rfl, _, last, rfl⟩, rfl⟩, rfl⟩
    obtain rfl := (mem_empty _).1 last
    exact ⟨literal, accepted, rfl⟩
  · rintro ⟨literal, accepted, rfl⟩
    exact ⟨_, rfl, _, ⟨literal, accepted, _, ⟨_, rfl, [], (mem_empty _).2 rfl, rfl⟩, rfl⟩, rfl⟩

/-- A text that looks like a bigint is written without escapes. -/
theorem quoteBody_bigintLiteral {text : Text} (accepted : text ∈ bigintLiteral.language) :
    quoteBody text = text := by
  obtain ⟨negative, digits, -, rfl⟩ := mem_bigintLiteral.1 accepted
  apply quoteBody_plain
  intro c member
  rcases List.mem_append.1 member with sign | member
  · cases negative with
    | true =>
      rw [List.mem_singleton.1 sign]
      decide
    | false => exact nomatch sign
  rcases List.mem_append.1 member with known | last
  · obtain ⟨d, -, rfl⟩ := List.mem_map.1 known
    have plain : ∀ d : Fin 10, Plain (digitUnit d) := by decide
    exact plain d
  · rw [List.mem_singleton.1 last]
    decide

/-- A text without a written bigint holds no string that looks like one. -/
theorem not_accepts_of_not_search {t : Document Scalar}
    (absent : bigintText.search t.text = false) {text : Text}
    (literal : t.Literal text) : bigintLiteral.accepts text = false := by
  rw [← Bool.not_eq_true] at absent ⊢
  intro looks
  have accepted := (accepts_iff _ _).1 looks
  apply absent
  rw [search_iff]
  refine ⟨quote text, mem_bigintText.2 ⟨text, accepted, ?_⟩, t.quote_infix literal⟩
  rw [quote, quoteBody_bigintLiteral accepted]

/-- Without a written bigint in the text, the reviver changes nothing. -/
theorem parsePlain_eq_parseReviving {t : Document Scalar} (proper : t.Proper)
    (absent : bigintText.search t.text = false) :
    parsePlain t.text = parseReviving t.text := by
  simp only [parsePlain, parseReviving, parse_text proper, Except.ok.injEq]
  apply Document.map_congr
  intro value member
  match value with
  | .null | .boolean _ | .number _ => rfl
  | .string text =>
    rw [reviver, not_accepts_of_not_search absent (Or.inl member)]
    rfl

theorem readBigint_bigintDigits (value : Int) : readBigint (bigintDigits value) = value := by
  have stop : NoDigitHead [] := by rintro c ⟨⟩
  have digits := readDigits_append (naturalDigits value.natAbs) stop
  have sign := readSign_text (decide (value < 0)) (naturalDigits_ne_nil value.natAbs) []
  rw [List.append_nil] at digits sign
  simp only [readBigint, bigintDigits, sign, digits, ofDigits_naturalDigits]
  split
  · rename_i negative
    have := of_decide_eq_true negative
    omega
  · rename_i positive
    simp only [decide_eq_true_eq] at positive
    omega

/-- A written bigint has the form the reviver looks for. -/
theorem accepts_bigintDigits (value : Int) :
    bigintLiteral.accepts (bigintDigits value ++ [0x6e]) = true := by
  rw [accepts_iff, mem_bigintLiteral]
  exact ⟨_, _, naturalDigits_ne_nil value.natAbs, by rw [bigintDigits, List.append_assoc]⟩

/-- The reviver undoes the replacer, unless a string looks like a bigint. -/
theorem reviver_replacer {value : CanonicalLeaf}
    (honest : ∀ text, value = .scalar (.string text) → bigintLiteral.accepts text = false) :
    reviver (replacer value) = value := by
  match value with
  | .scalar (.string text) =>
    rw [replacer, reviver, honest text rfl]
    rfl
  | .scalar .null | .scalar (.boolean _) | .scalar (.number _) => rfl
  | .bigint value =>
    rw [replacer, reviver, accepts_bigintDigits, if_pos rfl, List.dropLast_concat,
      readBigint_bigintDigits]

theorem encode_eq_ok {value : CanonicalValue} {text : Text} :
    encode (some value) = .ok text ↔
      secretLike.search text = false ∧ text = (value.document.map replacer).text := by
  simp only [encode]
  split
  · rename_i secret
    constructor
    · rintro ⟨⟩
    · rintro ⟨clean, rfl⟩
      rw [secret] at clean
      exact nomatch clean
  · rename_i clean
    rw [Bool.not_eq_true] at clean
    constructor
    · rintro ⟨⟩
      exact ⟨clean, rfl⟩
    · rintro ⟨-, rfl⟩
      rfl

theorem text_ne_nil (t : Document Scalar) : t.text ≠ [] := by
  obtain ⟨c, rest, first, -⟩ := t.text_head
  rw [first]
  exact List.cons_ne_nil c rest

/-- On the text of a value the decoder gives what the reviver gives. -/
theorem decode_text {t : Document Scalar} (proper : t.Proper) :
    decode (some t.text) = .ok (some (t.map reviver)) := by
  have revived : parseReviving t.text = .ok (t.map reviver) := by
    rw [parseReviving, parse_text proper]
  obtain ⟨c, rest, first⟩ := List.exists_cons_of_ne_nil (text_ne_nil t)
  have unfolded : decode (some t.text) =
      if bigintText.search t.text then some <$> parseReviving t.text
      else some <$> parsePlain t.text := by
    rw [first]
    rfl
  rw [unfolded]
  split
  · rw [revived]
    rfl
  · rename_i absent
    rw [Bool.not_eq_true] at absent
    rw [parsePlain_eq_parseReviving proper absent, revived]
    rfl

/-- What the encoder writes is decoded to the value it was given, when no string of the value
has the form of a written bigint; and on every text it writes without such a form, the plain
parse gives what the reviving one gives. -/
theorem decode_encode (value : CanonicalValue) (text : Text)
    (encoded : encode (some value) = .ok text) :
    ((∀ imitation, .scalar (.string imitation) ∈ value.document.leaves →
        bigintLiteral.accepts imitation = false) →
      decode (some text) = .ok (some value.document)) ∧
    (bigintText.search text = false → parsePlain text = parseReviving text) := by
  obtain ⟨-, rfl⟩ := encode_eq_ok.1 encoded
  have proper := value.proper.map replacer
  constructor
  · intro honest
    rw [decode_text proper, Document.map_map]
    congr 2
    conv_rhs => rw [← value.document.map_id]
    apply Document.map_congr
    intro leaf member
    exact reviver_replacer fun imitation same => honest imitation (same ▸ member)
  · exact parsePlain_eq_parseReviving proper

/-- `{"amount": 12n, "note": "13 n"}` with an array around it. -/
def sampleValue : CanonicalValue where
  document := .array [.object [(ascii "amount", .leaf (.bigint 12)),
    (ascii "note", .leaf (.scalar (.string (ascii "13 n"))))]]
  proper := by
    refine .array _ (List.forall_mem_singleton.2 (.object _ ⟨by decide, rfl⟩ ?_))
    exact List.forall_mem_cons.2 ⟨.leaf _, List.forall_mem_singleton.2 (.leaf _)⟩

theorem decode_encode_sample :
    decode (some (ascii "[\x7b\x22amount\x22:\x2212n\x22,\x22note\x22:\x2213 n\x22\x7d]")) =
      .ok (some sampleValue.document) := by
  refine (decode_encode sampleValue _ (by decide +kernel)).1 ?_
  intro imitation member
  obtain rfl : imitation = ascii "13 n" := by
    simpa [sampleValue] using member
  decide

end MintBot
