import MintBot.Library.Json.Syntax
import MintBot.Library.Regex

/-!
# Searching a JSON text

An expression that uses no structural unit of JSON, starts no match with a colon and needs
one, is found in the text of a document exactly when it is found between the quotation marks of
one of its literals: of a string or of a key.  The colons of JSON itself always follow a
quotation mark.
-/

namespace Json

open Regex

/-- The texts a document writes as literals: its strings and its keys. -/
def Document.Literal (t : Document Scalar) (text : Text) : Prop :=
  .string text ∈ t.leaves ∨ text ∈ t.keys

theorem Document.literal_array {items : List (Document Scalar)} {text : Text} :
    (array items).Literal text ↔ ∃ item ∈ items, item.Literal text := by
  simp only [Literal, mem_leaves_array, mem_keys_array, ← exists_or, and_or_left]

theorem Document.literal_object {members : List (Text × Document Scalar)} {text : Text} :
    (object members).Literal text ↔
      ∃ member ∈ members, text = member.1 ∨ member.2.Literal text := by
  simp only [Literal, mem_leaves_object, mem_keys_object, ← exists_or, ← and_or_left]
  exact exists_congr fun member => and_congr_right fun _ => or_left_comm

theorem infix_tailText (close : CodeUnit) {element : Text} {elements : List Text}
    (member : element ∈ elements) : element <:+: tailText close elements := by
  induction elements with
  | nil => exact nomatch member
  | cons first elements ih =>
    refine List.IsInfix.trans ?_ (List.suffix_cons comma _).isInfix
    rcases List.mem_cons.1 member with rfl | later
    · exact (List.prefix_append _ _).isInfix
    · exact (ih later).trans (List.suffix_append _ _).isInfix

theorem infix_separated (close : CodeUnit) {element : Text} {elements : List Text}
    (member : element ∈ elements) : element <:+: separated close elements := by
  cases elements with
  | nil => exact nomatch member
  | cons first elements =>
    rcases List.mem_cons.1 member with rfl | later
    · exact (List.prefix_append _ _).isInfix
    · exact (infix_tailText close later).trans (List.suffix_append _ _).isInfix

/-- The text of a document contains each of its literals. -/
theorem Document.quote_infix {t : Document Scalar} {text : Text} (literal : t.Literal text) :
    quote text <:+: t.text := by
  induction t using induct with
  | atLeaf value =>
    simp only [Literal, leaves_leaf, keys_leaf, List.mem_singleton, List.not_mem_nil,
      or_false] at literal
    subst literal
    exact List.infix_rfl
  | atArray items ih =>
    obtain ⟨item, member, inside⟩ := literal_array.1 literal
    rw [text_array]
    exact ((ih item member inside).trans
      (infix_separated _ (List.mem_map_of_mem member))).trans (List.suffix_cons _ _).isInfix
  | atObject members ih =>
    obtain ⟨member, known, inside⟩ := literal_object.1 literal
    have within : quote text <:+: entryText member := by
      rcases inside with rfl | inside
      · exact (List.prefix_append _ _).isInfix
      · exact ((ih member known inside).trans (List.suffix_cons _ _).isInfix).trans
          (List.suffix_append _ _).isInfix
    rw [text_object]
    exact (within.trans (infix_separated _ (List.mem_map_of_mem known))).trans
      (List.suffix_cons _ _).isInfix

/-! ## Expressions that live in literals -/

/-- An expression whose matches hold a colon, do not start with it, and use no other
structural unit. -/
structure InLiterals (r : Regex CodeUnit) : Prop where
  colonNeeded : r.Needs colon
  colonInside : r.mayStart colon = false
  noQuote : r.uses quoteMark = false
  noComma : r.uses comma = false
  noBracket : r.uses openBracket = false ∧ r.uses closeBracket = false
  noBrace : r.uses openBrace = false ∧ r.uses closeBrace = false

/-- A scalar that is no string holds no colon. -/
theorem colon_not_mem_scalar (scalar : Scalar) (noString : ∀ text, scalar ≠ .string text) :
    colon ∉ scalar.text := by
  match scalar with
  | .null => decide
  | .boolean true => decide
  | .boolean false => decide
  | .number value =>
    exact value.not_mem_text (by decide) (by decide) (by decide) (by decide) (by decide)
  | .string text => exact absurd rfl (noString text)

section Search

variable {r : Regex CodeUnit} (inLiterals : InLiterals r)

include inLiterals

theorem not_found_nil : ¬ r.Found [] :=
  not_found_of_needs inLiterals.colonNeeded (by simp)

theorem found_quote (text rest : Text) :
    r.Found (quote text ++ rest) ↔ r.Found (quoteBody text) ∨ r.Found rest := by
  have opening := found_separated inLiterals.noQuote [] (quoteBody text ++ quoteMark :: rest)
  have closing := found_separated inLiterals.noQuote (quoteBody text) rest
  rw [List.nil_append, closing] at opening
  simpa [quote, not_found_nil inLiterals] using opening

/-- The unit behind an element separates it from the others. -/
theorem found_before_tail {close : CodeUnit} (unused : r.uses close = false)
    (element : Text) (elements : List Text) :
    r.Found (element ++ tailText close elements) ↔
      r.Found element ∨ r.Found (tailText close elements) := by
  cases elements with
  | nil =>
    have atEnd := found_separated unused [] []
    have behind := found_separated unused element []
    rw [List.nil_append] at atEnd
    rw [tailText, behind, atEnd, or_self]
  | cons next elements =>
    have atComma := found_separated inLiterals.noComma [] (next ++ tailText close elements)
    have behind := found_separated inLiterals.noComma element (next ++ tailText close elements)
    rw [List.nil_append, or_iff_right (not_found_nil inLiterals)] at atComma
    rw [tailText, behind, atComma]

theorem found_tailText {close : CodeUnit} (unused : r.uses close = false)
    (elements : List Text) :
    r.Found (tailText close elements) ↔ ∃ element ∈ elements, r.Found element := by
  induction elements with
  | nil =>
    have atEnd := found_separated unused [] []
    rw [List.nil_append, or_self] at atEnd
    simpa [tailText, not_found_nil inLiterals] using atEnd
  | cons element elements ih =>
    have atComma :=
      found_separated inLiterals.noComma [] (element ++ tailText close elements)
    rw [List.nil_append, or_iff_right (not_found_nil inLiterals)] at atComma
    rw [tailText, atComma, found_before_tail inLiterals unused, ih]
    simp

theorem found_separated_elements {opening close : CodeUnit} (noOpening : r.uses opening = false)
    (noClose : r.uses close = false) (elements : List Text) :
    r.Found (opening :: separated close elements) ↔ ∃ element ∈ elements, r.Found element := by
  have atOpening := found_separated noOpening [] (separated close elements)
  rw [List.nil_append, or_iff_right (not_found_nil inLiterals)] at atOpening
  rw [atOpening]
  cases elements with
  | nil => exact found_tailText inLiterals noClose []
  | cons element elements =>
    rw [separated, found_before_tail inLiterals noClose,
      found_tailText inLiterals noClose]
    simp

/-- Where an expression of this kind is found in the text of a document. -/
theorem found_text (t : Document Scalar) :
    r.Found t.text ↔ ∃ text, t.Literal text ∧ r.Found (quoteBody text) := by
  induction t using Document.induct with
  | atLeaf scalar =>
    match scalar with
    | .string text =>
      have quoted := found_quote inLiterals text []
      rw [List.append_nil, or_iff_left (not_found_nil inLiterals)] at quoted
      simpa [Document.text, Document.fold_leaf, Scalar.text, Document.Literal] using quoted
    | .null =>
      simpa [Document.text, Document.fold_leaf, Document.Literal] using
        not_found_of_needs inLiterals.colonNeeded (colon_not_mem_scalar .null (by simp))
    | .boolean value =>
      simpa [Document.text, Document.fold_leaf, Document.Literal] using
        not_found_of_needs inLiterals.colonNeeded
          (colon_not_mem_scalar (.boolean value) (by simp))
    | .number value =>
      simpa [Document.text, Document.fold_leaf, Document.Literal] using
        not_found_of_needs inLiterals.colonNeeded
          (colon_not_mem_scalar (.number value) (by simp))
  | atArray items ih =>
    rw [Document.text_array, found_separated_elements inLiterals inLiterals.noBracket.1
      inLiterals.noBracket.2]
    simp only [List.mem_map, exists_exists_and_eq_and, Document.literal_array]
    constructor
    · rintro ⟨item, member, found⟩
      obtain ⟨text, literal, inside⟩ := (ih item member).1 found
      exact ⟨text, ⟨item, member, literal⟩, inside⟩
    · rintro ⟨text, ⟨item, member, literal⟩, inside⟩
      exact ⟨item, member, (ih item member).2 ⟨text, literal, inside⟩⟩
  | atObject members ih =>
    rw [Document.text_object, found_separated_elements inLiterals inLiterals.noBrace.1
      inLiterals.noBrace.2]
    simp only [List.mem_map, exists_exists_and_eq_and, Document.literal_object, entryText,
      found_quote inLiterals, found_cons inLiterals.colonInside]
    constructor
    · rintro ⟨member, known, found | found⟩
      · exact ⟨member.1, ⟨member, known, Or.inl rfl⟩, found⟩
      · obtain ⟨text, literal, inside⟩ := (ih member known).1 found
        exact ⟨text, ⟨member, known, Or.inr literal⟩, inside⟩
    · rintro ⟨text, ⟨member, known, rfl | literal⟩, inside⟩
      · exact ⟨member, known, Or.inl inside⟩
      · exact ⟨member, known, Or.inr ((ih member known).2 ⟨text, literal, inside⟩)⟩

end Search

end Json
