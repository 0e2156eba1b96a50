import Mathlib.Data.List.Induction
import Mathlib.Data.Rat.Defs
import Mathlib.Algebra.Order.Field.Rat
import Mathlib.Data.Rat.Cast.Order
import Mathlib.Tactic.Linarith

/-!
# Alarms with a quiet gap

An alarm is looked at from time to time.  It rings when its trouble begins, not again before the
trouble has ended, and not within a gap after it rang.  A trouble that begins within the gap is
remembered as if it had rung.  An alarm that is removed forgets everything.
-/

namespace QuietAlarm

/-- One look at an alarm: when it was taken, whether the trouble is there, where that could be
read, and whether ringing would succeed. -/
structure Look where
  now : Int
  trouble : Option Bool
  rings : Bool
  deriving DecidableEq, Repr

structure Memory where
  trouble : Bool
  lastRing : Option Int
  deriving DecidableEq, Repr

def Memory.blank : Memory where
  trouble := false
  lastRing := none

/-- The alarm rang less than the gap ago. -/
def Quiet (gap : ℚ) (memory : Memory) (now : Int) : Prop :=
  ∃ last ∈ memory.lastRing, ((now - last : Int) : ℚ) < gap

instance (gap : ℚ) (memory : Memory) (now : Int) : Decidable (Quiet gap memory now) := by
  unfold Quiet
  infer_instance

/-- The alarm rings at a look. -/
def Rings (gap : ℚ) (memory : Memory) (look : Look) : Prop :=
  look.trouble = some true ∧ memory.trouble = false ∧ ¬ Quiet gap memory look.now ∧
    look.rings = true

instance (gap : ℚ) (memory : Memory) (look : Look) : Decidable (Rings gap memory look) := by
  unfold Rings
  infer_instance

/-- What is remembered after a look, or after the alarm was removed. -/
def remember (gap : ℚ) (memory : Memory) : Option Look → Memory
  | none => Memory.blank
  | some look =>
      match look.trouble with
      | none => memory
      | some false => { memory with trouble := false }
      | some true =>
          if memory.trouble = true then memory
          else if Quiet gap memory look.now then { memory with trouble := true }
          else if look.rings = true then { trouble := true, lastRing := some look.now }
          else memory

/-- What is remembered after some looks. -/
def after (gap : ℚ) (looks : List (Option Look)) : Memory :=
  looks.foldl (remember gap) Memory.blank

variable {gap : ℚ} {memory : Memory} {look first second : Look}
variable {before middle looks : List (Option Look)}

theorem after_append : after gap (before ++ looks) = looks.foldl (remember gap) (after gap before) :=
  List.foldl_append

theorem after_concat (last : Option Look) :
    after gap (looks ++ [last]) = remember gap (after gap looks) last := by
  rw [after_append]
  rfl

theorem remember_ring (rings : Rings gap memory look) :
    remember gap memory (some look) = { trouble := true, lastRing := some look.now } := by
  obtain ⟨trouble, calm, loud, succeeds⟩ := rings
  simp [remember, trouble, calm, loud, succeeds]

/-! ## Two rings -/

/-- What an alarm that rang at a time remembers while it is not removed: that ring or a later one,
and the trouble, unless its end was seen. -/
structure Rang (start : Int) (seen : List (Option Look)) (memory : Memory) : Prop where
  last : ∃ last ∈ memory.lastRing, last = start ∨ ∃ look, some look ∈ seen ∧ look.now = last
  trouble : memory.trouble = true ∨ ∃ look, some look ∈ seen ∧ look.trouble = some false

theorem Rang.remember {start : Int} {seen : List (Option Look)} (rang : Rang start seen memory) :
    Rang start (seen ++ [some look]) (remember gap memory (some look)) := by
  have new : some look ∈ seen ++ [some look] :=
    List.mem_append_right _ (List.mem_singleton_self _)
  have last : ∃ last ∈ memory.lastRing,
      last = start ∨ ∃ other, some other ∈ seen ++ [some look] ∧ other.now = last := by
    obtain ⟨last, isLast, rung⟩ := rang.last
    exact ⟨last, isLast, rung.imp_right fun ⟨other, member, same⟩ =>
      ⟨other, List.mem_append_left _ member, same⟩⟩
  have kept : memory.trouble = true ∨
      ∃ other, some other ∈ seen ++ [some look] ∧ other.trouble = some false :=
    rang.trouble.imp_right fun ⟨other, member, ended⟩ =>
      ⟨other, List.mem_append_left _ member, ended⟩
  cases read : look.trouble with
  | none =>
      simp only [QuietAlarm.remember, read]
      exact ⟨last, kept⟩
  | some trouble =>
      cases trouble with
      | false =>
          simp only [QuietAlarm.remember, read]
          exact ⟨last, .inr ⟨look, new, read⟩⟩
      | true =>
          simp only [QuietAlarm.remember, read]
          split_ifs
          · exact ⟨last, kept⟩
          · exact ⟨last, .inl rfl⟩
          · exact ⟨⟨_, rfl, .inr ⟨look, new, rfl⟩⟩, .inl rfl⟩
          · exact ⟨last, kept⟩

theorem rang_after (present : none ∉ middle) (rings : Rings gap (after gap before) first) :
    Rang first.now middle (after gap (before ++ some first :: middle)) := by
  induction middle using List.reverseRecOn with
  | nil =>
      rw [after_concat, remember_ring rings]
      exact ⟨⟨_, rfl, .inl rfl⟩, .inl rfl⟩
  | append_singleton middle last inductionHypothesis =>
      obtain ⟨notInMiddle, notLast⟩ := not_or.mp (mt List.mem_append.mpr present)
      obtain ⟨look, rfl⟩ := Option.ne_none_iff_exists'.mp fun removed =>
        notLast (List.mem_singleton.mpr removed.symm)
      rw [← List.cons_append, ← List.append_assoc, after_concat]
      exact (inductionHypothesis notInMiddle).remember

/-- While an alarm is not removed, it remembers a ring from its first one on. -/
theorem last_ring_between (present : none ∉ middle)
    (ordered : ∀ look, some look ∈ middle → first.now ≤ look.now ∧ look.now ≤ second.now)
    (later : first.now ≤ second.now) (rings : Rings gap (after gap before) first) :
    ∃ last ∈ (after gap (before ++ some first :: middle)).lastRing,
      first.now ≤ last ∧ last ≤ second.now := by
  obtain ⟨last, isLast, rfl | ⟨look, member, rfl⟩⟩ := (rang_after present rings).last
  · exact ⟨_, isLast, le_rfl, later⟩
  · exact ⟨_, isLast, ordered look member⟩

/-- While an alarm is not removed, the end of the trouble was read between two rings. -/
theorem ended_between (present : none ∉ middle) (rings : Rings gap (after gap before) first)
    (again : Rings gap (after gap (before ++ some first :: middle)) second) :
    ∃ look, some look ∈ middle ∧ look.trouble = some false := by
  refine (rang_after present rings).trouble.resolve_left fun trouble => ?_
  rw [again.2.1] at trouble
  cases trouble

/-- While an alarm is not removed, two rings are a gap apart. -/
theorem rings_apart (present : none ∉ middle)
    (ordered : ∀ look, some look ∈ middle → first.now ≤ look.now ∧ look.now ≤ second.now)
    (later : first.now ≤ second.now) (rings : Rings gap (after gap before) first)
    (again : Rings gap (after gap (before ++ some first :: middle)) second) :
    gap ≤ ((second.now - first.now : Int) : ℚ) := by
  obtain ⟨last, isLast, notEarlier, -⟩ := last_ring_between present ordered later rings
  obtain ⟨-, -, loud, -⟩ := again
  have late : gap ≤ ((second.now - last : Int) : ℚ) := by
    by_contra early
    exact loud ⟨last, isLast, not_le.mp early⟩
  refine late.trans ?_
  exact_mod_cast Int.sub_le_sub_left notEarlier second.now

/-! ## Troubles that begin -/

/-- The last reading since the alarm was there. -/
def lastReading (looks : List (Option Look)) : Option Bool :=
  looks.foldl (fun reading look =>
    match look with
    | none => none
    | some look => look.trouble.or reading) none

/-- A trouble that is remembered was read last. -/
theorem lastReading_of_trouble (trouble : (after gap looks).trouble = true) :
    lastReading looks = some true := by
  induction looks using List.reverseRecOn with
  | nil => cases trouble
  | append_singleton looks last inductionHypothesis =>
      rw [after_concat] at trouble
      rw [lastReading, List.foldl_append, ← lastReading]
      cases last with
      | none => cases trouble
      | some look =>
          change look.trouble.or (lastReading looks) = some true
          cases read : look.trouble with
          | none =>
              simp only [remember, read] at trouble
              exact inductionHypothesis trouble
          | some reading =>
              cases reading with
              | true => rfl
              | false => simp [remember, read] at trouble

/-- A trouble that begins outside the quiet gap rings at once. -/
theorem rings_of_begins (begins : lastReading before ≠ some true)
    (trouble : look.trouble = some true) (loud : ¬ Quiet gap (after gap before) look.now)
    (succeeds : look.rings = true) : Rings gap (after gap before) look := by
  refine ⟨trouble, ?_, loud, succeeds⟩
  by_contra remembered
  exact begins (lastReading_of_trouble (Bool.not_eq_false _ ▸ remembered))

end QuietAlarm
