import MintBot.Library.Json.Document

/-!
# JSON texts

`Document.text` writes a document of scalars as `JSON.stringify` does, `parse` reads a text as
`JSON.parse` does, with white space between tokens and repeated keys.  The reader takes fuel,
for which the length of the text is enough.
-/

namespace Json

def comma : CodeUnit := 0x2c
def colon : CodeUnit := 0x3a
def openBracket : CodeUnit := 0x5b
def closeBracket : CodeUnit := 0x5d
def openBrace : CodeUnit := 0x7b
def closeBrace : CodeUnit := 0x7d

/-- The leaves of JSON. -/
inductive Scalar where
  | null
  | boolean (value : Bool)
  | number (value : Number)
  | string (value : Text)
  deriving DecidableEq

/-! ## Writing -/

def Scalar.text : Scalar → Text
  | null => ascii "null"
  | boolean true => ascii "true"
  | boolean false => ascii "false"
  | number value => value.text
  | string value => quote value

/-- What follows an element: the others, each behind a comma, and the closing unit. -/
def tailText (close : CodeUnit) : List Text → Text
  | [] => [close]
  | element :: elements => comma :: (element ++ tailText close elements)

/-- Elements with commas between them, and the closing unit. -/
def separated (close : CodeUnit) : List Text → Text
  | [] => [close]
  | element :: elements => element ++ tailText close elements

def memberText (member : Text × Text) : Text :=
  quote member.1 ++ colon :: member.2

/-- `JSON.stringify`. -/
def Document.text : Document Scalar → Text :=
  fold Scalar.text (fun items => openBracket :: separated closeBracket items)
    fun members => openBrace :: separated closeBrace (members.map memberText)

theorem Document.text_array (items : List (Document Scalar)) :
    (array items).text = openBracket :: separated closeBracket (items.map text) :=
  fold_array _ _ _ items

/-- The text of a member. -/
def entryText (member : Text × Document Scalar) : Text :=
  quote member.1 ++ colon :: member.2.text

theorem Document.text_object (members : List (Text × Document Scalar)) :
    (object members).text =
      openBrace :: separated closeBrace (members.map entryText) := by
  rw [text, fold_object, List.map_map]
  rfl

/-! ## Reading -/

def isSpace (c : CodeUnit) : Bool :=
  c = 0x20 || c = 0x09 || c = 0x0a || c = 0x0d

def skip : Text → Text :=
  List.dropWhile isSpace

/-- Take a word off the front. -/
def expect (word text : Text) : Option Text :=
  if word.isPrefixOf text then some (text.drop word.length) else none

/-- Read a scalar, by its first unit. -/
def readScalar : Text → Option (Scalar × Text)
  | [] => none
  | c :: rest =>
    if c = quoteMark then (readBody rest).map fun read => (.string read.1, read.2)
    else if c = 0x6e then (expect (ascii "ull") rest).map fun rest => (.null, rest)
    else if c = 0x74 then (expect (ascii "rue") rest).map fun rest => (.boolean true, rest)
    else if c = 0x66 then (expect (ascii "alse") rest).map fun rest => (.boolean false, rest)
    else (readNumber (c :: rest)).map fun read => (.number read.1, read.2)

/-- Read a key and the colon behind it. -/
def readKey (text : Text) : Option (Text × Text) :=
  match skip text with
  | [] => none
  | c :: rest =>
    if c = quoteMark then do
      let (key, rest) ← readBody rest
      match skip rest with
      | [] => none
      | d :: rest => if d = colon then some (key, rest) else none
    else none

mutual

/-- Read a value. -/
def readValue : Nat → Text → Option (Document Scalar × Text)
  | 0, _ => none
  | fuel + 1, text =>
    match skip text with
    | [] => none
    | c :: rest =>
      if c = openBracket then
        match skip rest with
        | [] => none
        | d :: more =>
          if d = closeBracket then some (.array [], more)
          else do
            let (item, rest) ← readValue fuel rest
            let (items, rest) ← readItems fuel rest
            some (.array (item :: items), rest)
      else if c = openBrace then
        match skip rest with
        | [] => none
        | d :: more =>
          if d = closeBrace then some (.object [], more)
          else do
            let (key, rest) ← readKey rest
            let (value, rest) ← readValue fuel rest
            let (members, rest) ← readMembers fuel rest
            some (.object (fromEntries ((key, value) :: members)), rest)
      else (readScalar (c :: rest)).map fun read => (.leaf read.1, read.2)

/-- Read the items behind the first one, and the closing bracket. -/
def readItems : Nat → Text → Option (List (Document Scalar) × Text)
  | 0, _ => none
  | fuel + 1, text =>
    match skip text with
    | [] => none
    | c :: rest =>
      if c = closeBracket then some ([], rest)
      else if c = comma then do
        let (item, rest) ← readValue fuel rest
        let (items, rest) ← readItems fuel rest
        some (item :: items, rest)
      else none

/-- Read the members behind the first one, and the closing brace. -/
def readMembers : Nat → Text → Option (List (Text × Document Scalar) × Text)
  | 0, _ => none
  | fuel + 1, text =>
    match skip text with
    | [] => none
    | c :: rest =>
      if c = closeBrace then some ([], rest)
      else if c = comma then do
        let (key, rest) ← readKey rest
        let (value, rest) ← readValue fuel rest
        let (members, rest) ← readMembers fuel rest
        some ((key, value) :: members, rest)
      else none

end

/-- `JSON.parse`; a text that is not JSON has no value. -/
def parse (text : Text) : Option (Document Scalar) := do
  let (value, rest) ← readValue text.length text
  if skip rest = [] then some value else none

/-! ## Reading what was written -/

theorem skip_cons {c : CodeUnit} (visible : isSpace c = false) (rest : Text) :
    skip (c :: rest) = c :: rest := by
  rw [skip, List.dropWhile_cons_of_neg (by simp [visible])]

theorem expect_append (word rest : Text) : expect word (word ++ rest) = some rest := by
  simp [expect]

/-- The first unit of a number is a minus or a digit. -/
def NumberStart (c : CodeUnit) : Prop :=
  c = minus ∨ ∃ d, c = digitUnit d

theorem Number.text_head (x : Number) : ∃ c rest, x.text = c :: rest ∧ NumberStart c := by
  obtain ⟨nonempty, -⟩ := x.layout_whole
  obtain ⟨d, digits, whole⟩ := List.exists_cons_of_ne_nil nonempty
  cases sign : x.negative with
  | true => exact ⟨minus, x.layout.text, by simp [text, sign, signText], Or.inl rfl⟩
  | false =>
    refine ⟨digitUnit d, digits.map digitUnit ++ (fractionText x.layout.fraction ++
      exponentText x.layout.exponent), ?_, Or.inr ⟨d, rfl⟩⟩
    rw [text, sign, signText, Layout.text, whole]
    rfl

/-- No unit with another role in JSON starts a number. -/
theorem NumberStart.ne {c : CodeUnit} (start : NumberStart c) {other : CodeUnit}
    (notMinus : other ≠ minus) (notDigit : digit? other = none) : c ≠ other := by
  rintro rfl
  rcases start with rfl | ⟨d, rfl⟩
  · exact notMinus rfl
  · rw [digit?_digitUnit] at notDigit
    exact nomatch notDigit

theorem NumberStart.visible {c : CodeUnit} (start : NumberStart c) : isSpace c = false := by
  rcases start with rfl | ⟨d, rfl⟩
  · decide
  · revert d
    decide

/-- A written scalar is read back, up to what follows it. -/
theorem readScalar_text (scalar : Scalar) {rest : Text} (stop : NumberEnd rest) :
    readScalar (scalar.text ++ rest) = some (scalar, rest) := by
  match scalar with
  | .null => exact congrArg (Option.map _) (expect_append (ascii "ull") rest)
  | .boolean true => exact congrArg (Option.map _) (expect_append (ascii "rue") rest)
  | .boolean false => exact congrArg (Option.map _) (expect_append (ascii "alse") rest)
  | .string value =>
    have read := readBody_quoteBody value rest
    simp only [Scalar.text, quote, List.cons_append, List.append_assoc, readScalar]
    rw [if_pos trivial, List.nil_append, read]
    rfl
  | .number value =>
    obtain ⟨c, more, first, start⟩ := value.text_head
    have read := readNumber_text value stop
    rw [first, List.cons_append] at read
    rw [Scalar.text, first, List.cons_append, readScalar,
      if_neg (start.ne (by decide) (by decide)), if_neg (start.ne (by decide) (by decide)),
      if_neg (start.ne (by decide) (by decide)), if_neg (start.ne (by decide) (by decide)), read]
    rfl

/-- A scalar starts with a visible unit that opens and closes nothing. -/
theorem Scalar.text_head (scalar : Scalar) :
    ∃ c rest, scalar.text = c :: rest ∧ isSpace c = false ∧ c ≠ openBracket ∧
      c ≠ openBrace ∧ c ≠ closeBracket := by
  match scalar with
  | .null => exact ⟨0x6e, ascii "ull", rfl, by decide⟩
  | .boolean true => exact ⟨0x74, ascii "rue", rfl, by decide⟩
  | .boolean false => exact ⟨0x66, ascii "alse", rfl, by decide⟩
  | .string value => exact ⟨quoteMark, _, rfl, by decide⟩
  | .number value =>
    obtain ⟨c, rest, first, start⟩ := value.text_head
    exact ⟨c, rest, first, start.visible, start.ne (by decide) (by decide),
      start.ne (by decide) (by decide), start.ne (by decide) (by decide)⟩

/-- A value starts with a visible unit that closes nothing. -/
theorem Document.text_head (t : Document Scalar) :
    ∃ c rest, t.text = c :: rest ∧ isSpace c = false ∧ c ≠ closeBracket := by
  match t with
  | .leaf scalar =>
    obtain ⟨c, rest, first, visible, -, -, notClose⟩ := scalar.text_head
    exact ⟨c, rest, first, visible, notClose⟩
  | .array items => exact ⟨openBracket, _, text_array items, by decide⟩
  | .object members => exact ⟨openBrace, _, text_object members, by decide⟩

end Json
