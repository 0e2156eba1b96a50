import Mathlib.Data.List.Nodup
import Mathlib.Tactic.Common

/-!
# Tokens that are spent once

Each token is drawn once, for one holder.  A holder may lose tokens and spends others; a token
that was spent is held by nobody.
-/

universe u v

/-- Nobody holds a token that somebody else holds or that was spent. -/
structure Tokens {ι : Type u} {κ : Type v} (held : ι → List κ) (spent drawn : List κ) :
    Prop where
  each : ∀ holder, (held holder).Nodup
  apart : ∀ holder other token, token ∈ held holder → token ∈ held other → holder = other
  unspent : ∀ holder, ∀ token ∈ held holder, token ∈ drawn ∧ token ∉ spent
  once : spent.Nodup
  known : ∀ token ∈ spent, token ∈ drawn

namespace Tokens

variable {ι : Type u} {κ : Type v} {held held' : ι → List κ} {spent drawn : List κ}

theorem start : Tokens (fun _ : ι => ([] : List κ)) [] [] where
  each _ := List.nodup_nil
  apart _ _ _ member := nomatch member
  unspent _ _ member := nomatch member
  once := List.nodup_nil
  known _ member := nomatch member

/-- Tokens are drawn that nobody gets. -/
theorem widen (tokens : Tokens held spent drawn) (others : List κ) :
    Tokens held spent (drawn ++ others) :=
  { tokens with
    unspent := fun holder token member =>
      ⟨List.mem_append_left _ (tokens.unspent holder token member).1,
        (tokens.unspent holder token member).2⟩
    known := fun token member => List.mem_append_left _ (tokens.known token member) }

/-- Holders lose tokens. -/
theorem lose (tokens : Tokens held spent drawn)
    (less : ∀ holder, (held' holder).Sublist (held holder)) : Tokens held' spent drawn :=
  { tokens with
    each := fun holder => (tokens.each holder).sublist (less holder)
    apart := fun holder other token member memberOther =>
      tokens.apart holder other token ((less holder).subset member)
        ((less other).subset memberOther)
    unspent := fun holder token member => tokens.unspent holder token ((less holder).subset member) }

/-- New tokens take the place of those a holder had. -/
theorem draw (tokens : Tokens held spent drawn) {holder : ι} {fresh : List κ}
    (others : ∀ other, other ≠ holder → held' other = held other) (now : held' holder = fresh)
    (distinct : fresh.Nodup) (unknown : ∀ token ∈ fresh, token ∉ drawn) :
    Tokens held' spent (drawn ++ fresh) where
  each other := by
    by_cases same : other = holder
    · rw [same, now]
      exact distinct
    · rw [others other same]
      exact tokens.each other
  apart first second token memberFirst memberSecond := by
    by_cases sameFirst : first = holder
    · by_cases sameSecond : second = holder
      · rw [sameFirst, sameSecond]
      · rw [sameFirst, now] at memberFirst
        rw [others second sameSecond] at memberSecond
        exact absurd (tokens.unspent second token memberSecond).1 (unknown token memberFirst)
    · rw [others first sameFirst] at memberFirst
      by_cases sameSecond : second = holder
      · rw [sameSecond, now] at memberSecond
        exact absurd (tokens.unspent first token memberFirst).1 (unknown token memberSecond)
      · rw [others second sameSecond] at memberSecond
        exact tokens.apart first second token memberFirst memberSecond
  unspent other token member := by
    by_cases same : other = holder
    · rw [same, now] at member
      exact ⟨List.mem_append_right _ member,
        fun already => unknown token member (tokens.known token already)⟩
    · rw [others other same] at member
      exact ⟨List.mem_append_left _ (tokens.unspent other token member).1,
        (tokens.unspent other token member).2⟩
  once := tokens.once
  known token member := List.mem_append_left _ (tokens.known token member)

/-- A holder spends its first token. -/
theorem spend (tokens : Tokens held spent drawn) {holder : ι} {token : κ} {rest : List κ}
    (others : ∀ other, other ≠ holder → held' other = held other)
    (before : held holder = token :: rest) (after : held' holder = rest) :
    Tokens held' (spent ++ [token]) drawn := by
  have mine : token ∈ held holder := by rw [before]; exact List.mem_cons_self
  have less : ∀ other, (held' other).Sublist (held other) := by
    intro other
    by_cases same : other = holder
    · rw [same, before, after]
      exact List.sublist_cons_self token rest
    · rw [others other same]
  have gone : ∀ other, token ∉ held' other := by
    intro other member
    obtain rfl := tokens.apart other holder token ((less other).subset member) mine
    have distinct := tokens.each other
    rw [before] at distinct
    rw [after] at member
    exact (List.nodup_cons.mp distinct).1 member
  have lost := tokens.lose less
  exact
    { lost with
      unspent := fun other held memberHeld => by
        refine ⟨(lost.unspent other held memberHeld).1, ?_⟩
        rw [List.mem_append, List.mem_singleton, not_or]
        refine ⟨(lost.unspent other held memberHeld).2, ?_⟩
        rintro rfl
        exact gone other memberHeld
      once := by
        rw [List.nodup_append_comm, List.singleton_append, List.nodup_cons]
        exact ⟨(tokens.unspent holder token mine).2, tokens.once⟩
      known := fun other member => by
        rcases List.mem_append.mp member with earlier | now
        · exact tokens.known other earlier
        · rw [List.mem_singleton.mp now]
          exact (tokens.unspent holder token mine).1 }

end Tokens
