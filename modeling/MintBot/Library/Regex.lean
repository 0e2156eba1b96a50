import Mathlib.Computability.Language

/-!
# Regular expressions searched in a text

Expressions over letters that are given by Boolean sets, so that a class such as `[^/]` over
a large alphabet is one node.  Their meaning is a `Language`; `Regex.accepts` decides it by
Brzozowski derivatives, and `Regex.search` decides whether some part of a text is accepted,
as an unanchored expression is tested.

The last part says where a found part can lie: a letter that the expression never uses
separates a search into the two sides, and a letter with which no accepted word starts can be
dropped from the front.
-/

universe u

/-- Regular expressions whose letters are Boolean sets. -/
inductive Regex (α : Type u) where
  | nothing
  | empty
  | set (letters : α → Bool)
  | seq (first second : Regex α)
  | alt (first second : Regex α)
  | star (body : Regex α)

namespace Regex

variable {α : Type u}

/-! ## Meaning -/

/-- The one-letter words with a letter of a set. -/
def letterWords (letters : α → Bool) : Language α :=
  {word | ∃ a, letters a = true ∧ word = [a]}

/-- The words an expression accepts. -/
def language : Regex α → Language α
  | nothing => 0
  | empty => 1
  | set letters => letterWords letters
  | seq first second => first.language * second.language
  | alt first second => first.language + second.language
  | star body => KStar.kstar body.language

/-- The expression `body?`. -/
def optional (body : Regex α) : Regex α :=
  alt body empty

/-- The expression `body+`. -/
def plus (body : Regex α) : Regex α :=
  seq body (star body)

/-- The sequence of several expressions. -/
def all (parts : List (Regex α)) : Regex α :=
  parts.foldr seq empty

/-- The choice between several expressions. -/
def any (choices : List (Regex α)) : Regex α :=
  choices.foldr alt nothing

theorem not_mem_nothing (word : List α) : word ∉ (nothing : Regex α).language :=
  Language.notMem_zero word

@[simp]
theorem mem_empty (word : List α) : word ∈ (empty : Regex α).language ↔ word = [] :=
  Language.mem_one word

@[simp]
theorem mem_set (letters : α → Bool) (word : List α) :
    word ∈ (set letters).language ↔ ∃ a, letters a = true ∧ word = [a] :=
  Iff.rfl

theorem mem_seq (first second : Regex α) (word : List α) :
    word ∈ (seq first second).language ↔
      ∃ front ∈ first.language, ∃ back ∈ second.language, front ++ back = word :=
  Language.mem_mul

theorem mem_alt (first second : Regex α) (word : List α) :
    word ∈ (alt first second).language ↔
      word ∈ first.language ∨ word ∈ second.language :=
  Language.mem_add _ _ word

theorem cons_mem_star (body : Regex α) (a : α) (word : List α) :
    a :: word ∈ (star body).language ↔
      ∃ front back, a :: front ∈ body.language ∧ back ∈ (star body).language ∧
        front ++ back = word := by
  constructor
  · intro accepted
    obtain ⟨parts, joined, known⟩ := Language.mem_kstar_iff_exists_nonempty.1 accepted
    cases parts with
    | nil => simp at joined
    | cons part parts =>
      cases part with
      | nil => exact absurd rfl (known [] List.mem_cons_self).2
      | cons b front =>
        rw [List.flatten_cons, List.cons_append, List.cons.injEq] at joined
        obtain ⟨rfl, rest⟩ := joined
        refine ⟨front, parts.flatten, (known _ List.mem_cons_self).1, ?_, rest.symm⟩
        exact Language.mem_kstar.2 ⟨parts, rfl, fun part member =>
          (known part (List.mem_cons_of_mem _ member)).1⟩
  · rintro ⟨front, back, head, tail, rfl⟩
    obtain ⟨parts, rfl, known⟩ := Language.mem_kstar.1 tail
    refine Language.mem_kstar.2 ⟨(a :: front) :: parts, by simp, ?_⟩
    intro part member
    rcases List.mem_cons.1 member with rfl | later
    · exact head
    · exact known part later

theorem nil_mem_star (body : Regex α) : [] ∈ (star body).language :=
  Language.nil_mem_kstar _

/-! ## Derivatives -/

/-- Whether the empty word is accepted. -/
def nullable : Regex α → Bool
  | nothing => false
  | empty => true
  | set _ => false
  | seq first second => first.nullable && second.nullable
  | alt first second => first.nullable || second.nullable
  | star _ => true

/-- A sequence, which is empty as soon as its first part is. -/
def thenSeq (first second : Regex α) : Regex α :=
  match first with
  | nothing => nothing
  | empty => second
  | first => seq first second

/-- A choice without its empty alternatives. -/
def orElse (first second : Regex α) : Regex α :=
  match first, second with
  | nothing, second => second
  | first, nothing => first
  | first, second => alt first second

/-- The words that continue the letter `a`. -/
def deriv (a : α) : Regex α → Regex α
  | nothing => nothing
  | empty => nothing
  | set letters => if letters a then empty else nothing
  | seq first second =>
      if first.nullable then orElse (thenSeq (first.deriv a) second) (second.deriv a)
      else thenSeq (first.deriv a) second
  | alt first second => orElse (first.deriv a) (second.deriv a)
  | star body => thenSeq (body.deriv a) (star body)

theorem thenSeq_language (first second : Regex α) :
    (thenSeq first second).language = first.language * second.language := by
  cases first <;> simp [thenSeq, language]

theorem orElse_language (first second : Regex α) :
    (orElse first second).language = first.language + second.language := by
  cases first <;> cases second <;> simp [orElse, language]

theorem nullable_iff (r : Regex α) : r.nullable = true ↔ [] ∈ r.language := by
  induction r with
  | nothing => simp [nullable, not_mem_nothing]
  | empty => simp [nullable]
  | set letters => simp [nullable]
  | seq first second firstIh secondIh =>
    rw [nullable, Bool.and_eq_true, firstIh, secondIh, mem_seq]
    constructor
    · rintro ⟨left, right⟩
      exact ⟨[], left, [], right, rfl⟩
    · rintro ⟨front, left, back, right, joined⟩
      obtain ⟨rfl, rfl⟩ := List.append_eq_nil_iff.1 joined
      exact ⟨left, right⟩
  | alt first second firstIh secondIh =>
    rw [nullable, Bool.or_eq_true, firstIh, secondIh, mem_alt]
  | star body ih => simp [nullable, nil_mem_star]

/-- The words of a sequence that start with a letter: it is consumed by the first part, or
the first part is skipped. -/
theorem cons_mem_seq (first second : Regex α) (a : α) (word : List α) :
    a :: word ∈ (seq first second).language ↔
      (∃ front back, a :: front ∈ first.language ∧ back ∈ second.language ∧
        front ++ back = word) ∨
      ([] ∈ first.language ∧ a :: word ∈ second.language) := by
  rw [mem_seq]
  constructor
  · rintro ⟨front, left, back, right, joined⟩
    cases front with
    | nil =>
      right
      rw [List.nil_append] at joined
      exact ⟨left, joined ▸ right⟩
    | cons b front =>
      left
      rw [List.cons_append, List.cons.injEq] at joined
      obtain ⟨rfl, rest⟩ := joined
      exact ⟨front, back, left, right, rest⟩
  · rintro (⟨front, back, left, right, rfl⟩ | ⟨left, right⟩)
    · exact ⟨a :: front, left, back, right, rfl⟩
    · exact ⟨[], left, a :: word, right, rfl⟩

theorem mem_deriv (r : Regex α) (a : α) (word : List α) :
    word ∈ (r.deriv a).language ↔ a :: word ∈ r.language := by
  induction r generalizing word with
  | nothing => simp [deriv, not_mem_nothing]
  | empty => simp [deriv, not_mem_nothing]
  | set letters =>
    rw [deriv, mem_set]
    split
    · rename_i known
      simp [known]
    · rename_i other
      simp only [Bool.not_eq_true] at other
      simp only [not_mem_nothing, List.cons.injEq, false_iff]
      rintro ⟨b, known, rfl, -⟩
      simp [other] at known
  | seq first second firstIh secondIh =>
    have continued : word ∈ (thenSeq (first.deriv a) second).language ↔
        ∃ front back, a :: front ∈ first.language ∧ back ∈ second.language ∧
          front ++ back = word := by
      rw [thenSeq_language, Language.mem_mul]
      constructor
      · rintro ⟨front, left, back, right, joined⟩
        exact ⟨front, back, (firstIh front).1 left, right, joined⟩
      · rintro ⟨front, back, left, right, joined⟩
        exact ⟨front, (firstIh front).2 left, back, right, joined⟩
    rw [deriv, cons_mem_seq, ← nullable_iff]
    split
    · rename_i skips
      rw [orElse_language, Language.mem_add, continued, secondIh]
      simp [skips]
    · rename_i stays
      rw [continued]
      simp [stays]
  | alt first second firstIh secondIh =>
    rw [deriv, orElse_language, Language.mem_add, firstIh, secondIh, mem_alt]
  | star body ih =>
    rw [deriv, thenSeq_language, Language.mem_mul, cons_mem_star]
    constructor
    · rintro ⟨front, left, back, right, joined⟩
      exact ⟨front, back, (ih front).1 left, right, joined⟩
    · rintro ⟨front, back, left, right, joined⟩
      exact ⟨front, (ih front).2 left, back, right, joined⟩

/-! ## Matching -/

/-- Whether the whole text is accepted. -/
def accepts : Regex α → List α → Bool
  | r, [] => r.nullable
  | r, a :: text => accepts (r.deriv a) text

/-- Whether the text starts with an accepted part. -/
def matchesPrefix : Regex α → List α → Bool
  | r, [] => r.nullable
  | r, a :: text => r.nullable || matchesPrefix (r.deriv a) text

/-- Whether some part of the text is accepted. -/
def search (r : Regex α) : List α → Bool
  | [] => r.nullable
  | a :: text => r.matchesPrefix (a :: text) || search r text

/-- Some part of the text is accepted. -/
def Found (r : Regex α) (text : List α) : Prop :=
  ∃ part, part ∈ r.language ∧ part <:+: text

theorem accepts_iff (r : Regex α) (text : List α) :
    r.accepts text = true ↔ text ∈ r.language := by
  induction text generalizing r with
  | nil => rw [accepts, nullable_iff]
  | cons a text ih => rw [accepts, ih, mem_deriv]

theorem matchesPrefix_iff (r : Regex α) (text : List α) :
    r.matchesPrefix text = true ↔ ∃ part, part ∈ r.language ∧ part <+: text := by
  induction text generalizing r with
  | nil => simp [matchesPrefix, nullable_iff]
  | cons a text ih =>
    rw [matchesPrefix, Bool.or_eq_true, ih, nullable_iff]
    constructor
    · rintro (skips | ⟨part, accepted, starts⟩)
      · exact ⟨[], skips, List.nil_prefix⟩
      · exact ⟨a :: part, (mem_deriv r a part).1 accepted,
          (List.prefix_cons_inj a).2 starts⟩
    · rintro ⟨part, accepted, starts⟩
      cases part with
      | nil => exact Or.inl accepted
      | cons b part =>
        obtain ⟨rfl, rest⟩ := List.cons_prefix_cons.1 starts
        exact Or.inr ⟨part, (mem_deriv r b part).2 accepted, rest⟩

theorem search_iff (r : Regex α) (text : List α) : r.search text = true ↔ r.Found text := by
  induction text with
  | nil => simp [search, Found, nullable_iff]
  | cons a text ih =>
    rw [search, Bool.or_eq_true, ih, matchesPrefix_iff]
    constructor
    · rintro (⟨part, accepted, starts⟩ | ⟨part, accepted, inside⟩)
      · exact ⟨part, accepted, starts.isInfix⟩
      · exact ⟨part, accepted, List.infix_cons inside⟩
    · rintro ⟨part, accepted, inside⟩
      rcases List.infix_cons_iff.1 inside with starts | later
      · exact Or.inl ⟨part, accepted, starts⟩
      · exact Or.inr ⟨part, accepted, later⟩

instance (r : Regex α) (text : List α) : Decidable (r.Found text) :=
  decidable_of_iff _ (search_iff r text)

/-! ## Where a match lies -/

theorem Found.mono {r : Regex α} {part text : List α} (found : r.Found part)
    (inside : part <:+: text) : r.Found text := by
  obtain ⟨word, accepted, within⟩ := found
  exact ⟨word, accepted, within.trans inside⟩

/-- Whether an expression can use the letter `a` at all. -/
def uses (a : α) : Regex α → Bool
  | nothing => false
  | empty => false
  | set letters => letters a
  | seq first second => first.uses a || second.uses a
  | alt first second => first.uses a || second.uses a
  | star body => body.uses a

/-- Whether an accepted word can start with the letter `a`. -/
def mayStart (a : α) : Regex α → Bool
  | nothing => false
  | empty => false
  | set letters => letters a
  | seq first second => first.mayStart a || (first.nullable && second.mayStart a)
  | alt first second => first.mayStart a || second.mayStart a
  | star body => body.mayStart a

/-- Every accepted word holds the letter `a`. -/
def Needs (r : Regex α) (a : α) : Prop :=
  ∀ word ∈ r.language, a ∈ word

theorem uses_of_mem {r : Regex α} {word : List α} (accepted : word ∈ r.language) {a : α}
    (member : a ∈ word) : r.uses a = true := by
  induction r generalizing word with
  | nothing => exact absurd accepted (not_mem_nothing word)
  | empty => simp [(mem_empty word).1 accepted] at member
  | set letters =>
    obtain ⟨b, known, rfl⟩ := accepted
    rw [List.mem_singleton.1 member]
    exact known
  | seq first second firstIh secondIh =>
    obtain ⟨front, left, back, right, rfl⟩ := (mem_seq first second word).1 accepted
    rw [uses, Bool.or_eq_true]
    rcases List.mem_append.1 member with inFront | inBack
    · exact Or.inl (firstIh left inFront)
    · exact Or.inr (secondIh right inBack)
  | alt first second firstIh secondIh =>
    rw [uses, Bool.or_eq_true]
    rcases (mem_alt first second word).1 accepted with left | right
    · exact Or.inl (firstIh left member)
    · exact Or.inr (secondIh right member)
  | star body ih =>
    obtain ⟨parts, rfl, known⟩ := Language.mem_kstar.1 accepted
    obtain ⟨part, chosen, inside⟩ := List.mem_flatten.1 member
    exact ih (known part chosen) inside

theorem mayStart_of_cons {r : Regex α} {a : α} {word : List α}
    (accepted : a :: word ∈ r.language) : r.mayStart a = true := by
  induction r generalizing word with
  | nothing => exact absurd accepted (not_mem_nothing _)
  | empty => simp at accepted
  | set letters =>
    obtain ⟨b, known, same⟩ := accepted
    obtain ⟨rfl, -⟩ := List.cons.inj same
    exact known
  | seq first second firstIh secondIh =>
    rw [mayStart, Bool.or_eq_true, Bool.and_eq_true]
    rcases (cons_mem_seq first second a word).1 accepted with
      ⟨front, back, left, -⟩ | ⟨left, right⟩
    · exact Or.inl (firstIh left)
    · exact Or.inr ⟨(nullable_iff first).2 left, secondIh right⟩
  | alt first second firstIh secondIh =>
    rw [mayStart, Bool.or_eq_true]
    rcases (mem_alt first second _).1 accepted with left | right
    · exact Or.inl (firstIh left)
    · exact Or.inr (secondIh right)
  | star body ih =>
    obtain ⟨front, back, left, -⟩ := (cons_mem_star body a word).1 accepted
    exact ih left

/-- A letter that the expression does not use separates the places a match can be at. -/
theorem found_separated {r : Regex α} {separator : α} (unused : r.uses separator = false)
    (front back : List α) :
    r.Found (front ++ separator :: back) ↔ r.Found front ∨ r.Found back := by
  constructor
  · rintro ⟨word, accepted, before, after, place⟩
    have absent : separator ∉ word := fun member => by
      simp [uses_of_mem accepted member] at unused
    rw [List.append_assoc] at place
    rcases List.append_eq_append_iff.1 place with ⟨gap, rfl, rest⟩ | ⟨gap, rfl, rest⟩
    · -- the match starts in the front part, and ends there as it holds no separator
      rcases List.append_eq_append_iff.1 rest with ⟨more, rfl, -⟩ | ⟨more, rfl, tail⟩
      · exact Or.inl ⟨word, accepted, before, more, by simp⟩
      · cases more with
        | nil => exact Or.inl ⟨gap ++ [], accepted, before, [], by simp⟩
        | cons a more =>
          obtain ⟨rfl, -⟩ := List.cons.inj tail
          exact absurd (by simp) absent
    · cases gap with
      | nil =>
        rw [List.nil_append] at rest
        cases word with
        | nil => exact Or.inl ⟨[], accepted, List.nil_infix⟩
        | cons a word =>
          obtain ⟨rfl, -⟩ := List.cons.inj rest
          exact absurd List.mem_cons_self absent
      | cons a gap =>
        obtain ⟨rfl, rfl⟩ := List.cons.inj rest
        exact Or.inr ⟨word, accepted, gap, after, by simp⟩
  · rintro (found | found)
    · exact found.mono (List.prefix_append _ _).isInfix
    · exact found.mono ((List.suffix_cons _ _).trans (List.suffix_append _ _)).isInfix

/-- A letter with which no match starts can be dropped from the front. -/
theorem found_cons {r : Regex α} {a : α} (start : r.mayStart a = false)
    (text : List α) : r.Found (a :: text) ↔ r.Found text := by
  constructor
  · rintro ⟨word, accepted, inside⟩
    rcases List.infix_cons_iff.1 inside with starts | later
    · cases word with
      | nil => exact ⟨[], accepted, List.nil_infix⟩
      | cons b word =>
        obtain ⟨rfl, -⟩ := List.cons_prefix_cons.1 starts
        simp [mayStart_of_cons accepted] at start
    · exact ⟨word, accepted, later⟩
  · intro found
    exact found.mono (List.suffix_cons _ _).isInfix

/-- A text without a needed letter has no match. -/
theorem not_found_of_needs {r : Regex α} {a : α} (needs : r.Needs a) {text : List α}
    (absent : a ∉ text) : ¬ r.Found text := by
  rintro ⟨word, accepted, inside⟩
  exact absent (inside.subset (needs word accepted))

end Regex
