import MintBot.Library.Json.Syntax

/-!
# White space between tokens

`Document.spaced` writes a document with white space in front of the elements and closing
units of arrays and objects and behind colons.  With two spaces for each depth that is
`JSON.stringify(value, null, 2)`, with none it is `Document.text`.  `parse_spaced` says that
a proper document is read back from its text, however it was spaced.
-/

namespace Json

/-- White space for a text: before an element or a closing unit at a depth, and behind a
colon. -/
structure Spacing where
  line : Nat → Text
  gap : Text
  line_space : ∀ depth, ∀ c ∈ line depth, isSpace c = true
  gap_space : ∀ c ∈ gap, isSpace c = true

/-- No white space. -/
def Spacing.none : Spacing where
  line := fun _ => []
  gap := []
  line_space := fun _ _ member => nomatch member
  gap_space := fun _ member => nomatch member

/-- Every element on a line of its own, with two spaces for each depth, and one space behind
a colon. -/
def Spacing.indented : Spacing where
  line := fun depth => 0x0a :: List.replicate (2 * depth) 0x20
  gap := [0x20]
  line_space := by
    intro depth c member
    rcases List.mem_cons.1 member with rfl | space
    · decide
    · rw [List.eq_of_mem_replicate space]
      decide
  gap_space := by
    intro c member
    rw [List.mem_singleton.1 member]
    decide

section Writing

variable (spacing : Spacing)

/-- What follows an element: the others, each behind a comma, and the closing unit. -/
def tailSpaced (close : CodeUnit) (depth : Nat) : List Text → Text
  | [] => spacing.line depth ++ [close]
  | element :: elements =>
      comma :: (spacing.line (depth + 1) ++ (element ++ tailSpaced close depth elements))

/-- The elements of an array or object at a depth, and the closing unit. -/
def separatedSpaced (close : CodeUnit) (depth : Nat) : List Text → Text
  | [] => [close]
  | element :: elements =>
      spacing.line (depth + 1) ++ (element ++ tailSpaced spacing close depth elements)

def memberSpaced (depth : Nat) (member : Text × (Nat → Text)) : Text :=
  quote member.1 ++ colon :: (spacing.gap ++ member.2 (depth + 1))

/-- The text of a document at a depth. -/
def Document.spaced : Document Scalar → Nat → Text :=
  fold (fun scalar _ => scalar.text)
    (fun items depth => openBracket ::
      separatedSpaced spacing closeBracket depth (items.map fun item => item (depth + 1)))
    fun members depth => openBrace ::
      separatedSpaced spacing closeBrace depth (members.map (memberSpaced spacing depth))

/-- The text of a member of an object at a depth. -/
def entrySpaced (depth : Nat) (member : Text × Document Scalar) : Text :=
  quote member.1 ++ colon :: (spacing.gap ++ member.2.spaced spacing (depth + 1))

theorem Document.spaced_leaf (scalar : Scalar) (depth : Nat) :
    (leaf scalar).spaced spacing depth = scalar.text :=
  rfl

theorem Document.spaced_array (items : List (Document Scalar)) (depth : Nat) :
    (array items).spaced spacing depth =
      openBracket :: separatedSpaced spacing closeBracket depth
        (items.map fun item => item.spaced spacing (depth + 1)) := by
  rw [spaced, fold_array, List.map_map]
  rfl

theorem Document.spaced_object (members : List (Text × Document Scalar)) (depth : Nat) :
    (object members).spaced spacing depth =
      openBrace :: separatedSpaced spacing closeBrace depth
        (members.map (entrySpaced spacing depth)) := by
  rw [spaced, fold_object, List.map_map]
  rfl

end Writing

/-! ## Without white space -/

theorem tailSpaced_none (close : CodeUnit) (depth : Nat) (elements : List Text) :
    tailSpaced .none close depth elements = tailText close elements := by
  induction elements with
  | nil => rfl
  | cons element elements ih =>
    rw [tailSpaced, ih]
    rfl

theorem separatedSpaced_none (close : CodeUnit) (depth : Nat) (elements : List Text) :
    separatedSpaced .none close depth elements = separated close elements := by
  cases elements with
  | nil => rfl
  | cons element elements =>
    rw [separatedSpaced, tailSpaced_none]
    rfl

theorem Document.spaced_none (t : Document Scalar) (depth : Nat) :
    t.spaced .none depth = t.text := by
  induction t using induct generalizing depth with
  | atLeaf scalar => rfl
  | atArray items ih =>
    rw [spaced_array, text_array, separatedSpaced_none]
    congr 2
    apply List.map_congr_left
    intro item member
    exact ih item member (depth + 1)
  | atObject members ih =>
    rw [spaced_object, text_object, separatedSpaced_none]
    congr 2
    apply List.map_congr_left
    intro m member
    rw [entrySpaced, ih m member (depth + 1)]
    rfl

/-! ## Reading -/

section Spaces

variable {space : Text} (spaces : ∀ c ∈ space, isSpace c = true)
include spaces

theorem skip_spaces (rest : Text) : skip (space ++ rest) = skip rest :=
  List.dropWhile_append_of_pos spaces

theorem readValue_spaces (fuel : Nat) (rest : Text) :
    readValue fuel (space ++ rest) = readValue fuel rest := by
  cases fuel with
  | zero => rw [readValue, readValue]
  | succ fuel => rw [readValue, readValue, skip_spaces spaces]

theorem readItems_spaces (fuel : Nat) (rest : Text) :
    readItems fuel (space ++ rest) = readItems fuel rest := by
  cases fuel with
  | zero => rw [readItems, readItems]
  | succ fuel => rw [readItems, readItems, skip_spaces spaces]

theorem readMembers_spaces (fuel : Nat) (rest : Text) :
    readMembers fuel (space ++ rest) = readMembers fuel rest := by
  cases fuel with
  | zero => rw [readMembers, readMembers]
  | succ fuel => rw [readMembers, readMembers, skip_spaces spaces]

theorem readKey_spaces (rest : Text) : readKey (space ++ rest) = readKey rest := by
  rw [readKey, readKey, skip_spaces spaces]

/-- White space ends a number. -/
theorem spaces_end {rest : Text} (stop : NumberEnd rest) : NumberEnd (space ++ rest) := by
  cases space with
  | nil => exact stop
  | cons c space =>
    rintro _ ⟨⟩
    have blank : c = 0x20 ∨ c = 0x09 ∨ c = 0x0a ∨ c = 0x0d := by
      simpa [isSpace, or_assoc] using spaces c List.mem_cons_self
    rcases blank with rfl | rfl | rfl | rfl <;> decide

end Spaces

section Reading

variable (spacing : Spacing)

/-- A value starts with a visible unit that closes nothing. -/
theorem Document.spaced_head (t : Document Scalar) (depth : Nat) :
    ∃ c rest, t.spaced spacing depth = c :: rest ∧ isSpace c = false ∧ c ≠ closeBracket := by
  match t with
  | .leaf scalar =>
    obtain ⟨c, rest, first, visible, -, -, notClose⟩ := scalar.text_head
    exact ⟨c, rest, first, visible, notClose⟩
  | .array items => exact ⟨openBracket, _, spaced_array spacing items depth, by decide⟩
  | .object members => exact ⟨openBrace, _, spaced_object spacing members depth, by decide⟩

theorem tailSpaced_end {close : CodeUnit} (other : digit? close = none ∧ close ≠ dot ∧
    close ≠ 0x65 ∧ close ≠ 0x45) (depth : Nat) (elements : List Text) (rest : Text) :
    NumberEnd (tailSpaced spacing close depth elements ++ rest) := by
  cases elements with
  | nil =>
    rw [tailSpaced, List.append_assoc]
    refine spaces_end (spacing.line_space depth) ?_
    rintro c ⟨⟩
    exact other
  | cons element elements =>
    rintro c ⟨⟩
    decide

/-- A value is read back from its text, with the length of the text as fuel. -/
def Document.ReadsBack (t : Document Scalar) : Prop :=
  ∀ depth fuel rest, (t.spaced spacing depth).length ≤ fuel → NumberEnd rest →
    readValue fuel (t.spaced spacing depth ++ rest) = some (t, rest)

variable {spacing}

/-- The items behind the first one are read back. -/
theorem readItems_spaced {items : List (Document Scalar)}
    (reads : ∀ item ∈ items, item.ReadsBack spacing) (depth fuel : Nat)
    (enough : (tailSpaced spacing closeBracket depth
      (items.map fun item => item.spaced spacing (depth + 1))).length ≤ fuel) (rest : Text) :
    readItems fuel (tailSpaced spacing closeBracket depth
      (items.map fun item => item.spaced spacing (depth + 1)) ++ rest) = some (items, rest) := by
  induction items generalizing fuel with
  | nil =>
    cases fuel with
    | zero => simp [tailSpaced] at enough
    | succ fuel =>
      simp only [List.map_nil, tailSpaced, List.append_assoc, List.cons_append, List.nil_append]
      rw [readItems_spaces (spacing.line_space depth), readItems, skip_cons (by decide)]
      rfl
  | cons item items ih =>
    cases fuel with
    | zero => simp [tailSpaced] at enough
    | succ fuel =>
      simp only [List.map_cons, tailSpaced, List.length_cons, List.length_append] at enough
      have first := reads item List.mem_cons_self (depth + 1) fuel
        (tailSpaced spacing closeBracket depth
          (items.map fun item => item.spaced spacing (depth + 1)) ++ rest) (by omega)
        (tailSpaced_end spacing (by decide) depth _ rest)
      have later := ih (fun other member => reads other (List.mem_cons_of_mem _ member))
        fuel (by omega)
      simp only [List.map_cons, tailSpaced, List.cons_append, List.append_assoc]
      rw [readItems, skip_cons (by decide)]
      simp only [Option.bind_eq_bind]
      rw [if_neg (by decide), if_pos trivial, readValue_spaces (spacing.line_space _), first,
        Option.bind_some, later, Option.bind_some]

/-- A key is read back from its literal. -/
theorem readKey_text (key rest : Text) :
    readKey (quote key ++ colon :: rest) = some (key, rest) := by
  simp only [readKey, quote, List.cons_append, List.append_assoc, List.nil_append]
  rw [skip_cons (by decide)]
  simp only [readBody_quoteBody, Option.bind_eq_bind, Option.bind_some]
  rw [skip_cons (by decide)]
  rfl

/-- The members behind the first one are read back. -/
theorem readMembers_spaced {members : List (Text × Document Scalar)}
    (reads : ∀ member ∈ members, member.2.ReadsBack spacing) (depth fuel : Nat)
    (enough : (tailSpaced spacing closeBrace depth
      (members.map (entrySpaced spacing depth))).length ≤ fuel) (rest : Text) :
    readMembers fuel (tailSpaced spacing closeBrace depth
      (members.map (entrySpaced spacing depth)) ++ rest) = some (members, rest) := by
  induction members generalizing fuel with
  | nil =>
    cases fuel with
    | zero => simp [tailSpaced] at enough
    | succ fuel =>
      simp only [List.map_nil, tailSpaced, List.append_assoc, List.cons_append, List.nil_append]
      rw [readMembers_spaces (spacing.line_space depth), readMembers, skip_cons (by decide)]
      rfl
  | cons member members ih =>
    cases fuel with
    | zero => simp [tailSpaced] at enough
    | succ fuel =>
      simp only [List.map_cons, tailSpaced, entrySpaced, List.length_cons, List.length_append]
        at enough
      have first := reads member List.mem_cons_self (depth + 1) fuel
        (tailSpaced spacing closeBrace depth (members.map (entrySpaced spacing depth)) ++ rest)
        (by omega) (tailSpaced_end spacing (by decide) depth _ rest)
      have later := ih (fun other known => reads other (List.mem_cons_of_mem _ known))
        fuel (by omega)
      simp only [List.map_cons, tailSpaced, entrySpaced, List.cons_append, List.append_assoc]
      rw [readMembers, skip_cons (by decide)]
      simp only [Option.bind_eq_bind]
      rw [if_neg (by decide), if_pos trivial, readKey_spaces (spacing.line_space _), readKey_text,
        Option.bind_some, readValue_spaces spacing.gap_space, first, Option.bind_some, later,
        Option.bind_some]

/-- A proper document is read back, up to what follows it. -/
theorem Document.Proper.readsBack {t : Document Scalar} (proper : t.Proper) :
    t.ReadsBack spacing := by
  induction proper with
  | leaf scalar =>
    intro depth fuel rest enough stop
    obtain ⟨c, more, first, visible, notBracket, notBrace, -⟩ := scalar.text_head
    have read := readScalar_text scalar stop
    rw [spaced_leaf] at enough ⊢
    cases fuel with
    | zero => simp [first] at enough
    | succ fuel =>
      rw [first, List.cons_append] at read
      rw [first, List.cons_append, readValue, skip_cons visible]
      simp only
      rw [if_neg notBracket, if_neg notBrace, read]
      rfl
  | array items _ reads =>
    intro depth fuel rest enough stop
    rw [spaced_array] at enough ⊢
    cases fuel with
    | zero => simp at enough
    | succ fuel =>
      cases items with
      | nil =>
        simp only [List.map_nil, separatedSpaced, List.cons_append, List.nil_append]
        rw [readValue, skip_cons (by decide)]
        simp only
        rw [skip_cons (by decide)]
        rfl
      | cons item items =>
        simp only [List.map_cons, separatedSpaced, List.length_cons, List.length_append] at enough
        obtain ⟨c, more, first, visible, notClose⟩ := item.spaced_head spacing (depth + 1)
        have head := reads item List.mem_cons_self (depth + 1) fuel
          (tailSpaced spacing closeBracket depth
            (items.map fun item => item.spaced spacing (depth + 1)) ++ rest) (by omega)
          (tailSpaced_end spacing (by decide) depth _ rest)
        have later := readItems_spaced
          (fun other member => reads other (List.mem_cons_of_mem _ member))
          depth fuel (by omega) rest
        have spaces := spacing.line_space (depth + 1)
        simp only [List.map_cons, separatedSpaced, List.cons_append, List.append_assoc]
        rw [first, List.cons_append] at head ⊢
        rw [readValue, skip_cons (by decide)]
        simp only
        rw [if_pos trivial, skip_spaces spaces, skip_cons visible]
        simp only [Option.bind_eq_bind]
        rw [if_neg notClose, readValue_spaces spaces, head, Option.bind_some, later,
          Option.bind_some]
  | object members own _ reads =>
    intro depth fuel rest enough stop
    rw [spaced_object] at enough ⊢
    cases fuel with
    | zero => simp at enough
    | succ fuel =>
      cases members with
      | nil =>
        simp only [List.map_nil, separatedSpaced, List.cons_append, List.nil_append]
        rw [readValue, skip_cons (by decide)]
        simp only
        rw [if_neg (by decide), if_pos trivial, skip_cons (by decide)]
        rfl
      | cons member members =>
        simp only [List.map_cons, separatedSpaced, entrySpaced, List.length_cons,
          List.length_append] at enough
        have head := reads member List.mem_cons_self (depth + 1) fuel
          (tailSpaced spacing closeBrace depth (members.map (entrySpaced spacing depth)) ++ rest)
          (by omega) (tailSpaced_end spacing (by decide) depth _ rest)
        have later := readMembers_spaced
          (fun other known => reads other (List.mem_cons_of_mem _ known))
          depth fuel (by omega) rest
        have keyed := readKey_text member.1
          (spacing.gap ++ (member.2.spaced spacing (depth + 1) ++
            (tailSpaced spacing closeBrace depth (members.map (entrySpaced spacing depth)) ++
              rest)))
        have spaces := spacing.line_space (depth + 1)
        simp only [List.map_cons, separatedSpaced, entrySpaced, List.cons_append,
          List.append_assoc]
        simp only [quote, List.cons_append, List.append_assoc] at keyed ⊢
        rw [readValue, skip_cons (by decide)]
        simp only
        rw [if_neg (by decide), if_pos trivial, skip_spaces spaces, skip_cons (by decide)]
        simp only [Option.bind_eq_bind]
        rw [if_neg (by decide), readKey_spaces spaces, keyed, Option.bind_some,
          readValue_spaces spacing.gap_space, head, Option.bind_some, later, Option.bind_some,
          own.fromEntries]

/-- `JSON.parse` reads a proper document from its text, however it was spaced and with white
space behind it. -/
theorem parse_spaced (spacing : Spacing) {t : Document Scalar} (proper : t.Proper)
    {after : Text} (spaces : ∀ c ∈ after, isSpace c = true) :
    parse (t.spaced spacing 0 ++ after) = some t := by
  have stop : NumberEnd after := by
    have nothing : NumberEnd [] := by rintro c ⟨⟩
    have ended := spaces_end spaces nothing
    rwa [List.append_nil] at ended
  have blank : skip after = [] := by
    have skipped := skip_spaces spaces []
    rw [List.append_nil] at skipped
    exact skipped
  have read := @Document.Proper.readsBack spacing t proper 0 (t.spaced spacing 0 ++ after).length after
    (by rw [List.length_append]; omega) stop
  rw [parse, read]
  simp only [Option.bind_eq_bind, Option.bind_some]
  rw [if_pos blank]

/-- `JSON.parse` undoes `JSON.stringify` on every value JavaScript can hold. -/
theorem parse_text {t : Document Scalar} (proper : t.Proper) : parse t.text = some t := by
  have read := @parse_spaced .none t proper [] (fun _ member => nomatch member)
  rwa [t.spaced_none, List.append_nil] at read

end Reading

end Json
