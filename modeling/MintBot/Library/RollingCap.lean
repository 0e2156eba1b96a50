import Mathlib.Algebra.Order.BigOperators.Group.List
import Mathlib.Algebra.Order.Group.Defs
import Mathlib.Data.List.Forall2

/-!
# Caps over a rolling window

A ledger is a list of entries, newest first.  An entry is admitted with an
amount while it is pending; later it settles at some instant or is released.
An admission is accepted when the pending amounts, the amounts settled since
one window length ago and the new amount together stay within a cap.

`Bounded` records this test for every entry, evaluated on the ledger as it
stands now.  It survives settlement and release because both only lower an
exposure.  From it follow the two bounds a rolling cap is meant to give: on the
amounts that settled inside any one window, and on the exposure seen by any
observer no earlier than the newest admission.
-/

namespace RollingCap

universe u v

variable {T : Type u} {A : Type v}

/-- What became of an admitted amount. -/
inductive Standing (T : Type u)
  | pending
  | settled (instant : T)
  | released
  deriving DecidableEq, Repr

/-- One admitted amount. -/
structure Entry (T : Type u) (A : Type v) where
  amount : A
  admittedAt : T
  standing : Standing T
  deriving DecidableEq, Repr

/-- The entry counts against a cap with this cutoff: it is pending, or it
settled at or after the cutoff. -/
def Entry.Counts [LE T] (cutoff : T) (entry : Entry T A) : Prop :=
  match entry.standing with
  | .pending => True
  | .settled instant => cutoff ≤ instant
  | .released => False

instance [LE T] [DecidableLE T] (cutoff : T) :
    DecidablePred (Entry.Counts (A := A) cutoff) := fun entry =>
  match h : entry.standing with
  | .pending => .isTrue (by simp [Entry.Counts, h])
  | .settled instant => decidable_of_iff (cutoff ≤ instant) (by simp [Entry.Counts, h])
  | .released => .isFalse (by simp [Entry.Counts, h])

/-- The entry settled between two instants, both included. -/
def Entry.SettledWithin [LE T] (first last : T) (entry : Entry T A) : Prop :=
  ∃ instant, entry.standing = .settled instant ∧ first ≤ instant ∧ instant ≤ last

/-- An entry later in its life: pending entries may settle or be released,
everything else is fixed. -/
def Entry.Later (before after : Entry T A) : Prop :=
  after.amount = before.amount ∧ after.admittedAt = before.admittedAt ∧
    (before.standing = .pending ∨ after.standing = before.standing)

theorem Entry.Later.refl (entry : Entry T A) : Entry.Later entry entry :=
  ⟨rfl, rfl, Or.inr rfl⟩

theorem Entry.Later.counts [LE T] {before after : Entry T A}
    (later : Entry.Later before after) {cutoff : T} (counts : after.Counts cutoff) :
    before.Counts cutoff := by
  rcases later with ⟨-, -, pending | unchanged⟩
  · simp [Entry.Counts, pending]
  · simpa [Entry.Counts, unchanged] using counts

theorem Entry.Counts.anti [Preorder T] {entry : Entry T A} {early late : T}
    (order : early ≤ late) (counts : entry.Counts late) : entry.Counts early := by
  unfold Entry.Counts at counts ⊢
  cases h : entry.standing with
  | pending => simp
  | settled instant =>
      simp only [h] at counts
      exact le_trans order counts
  | released => simp [h] at counts

section Charge

variable [AddCommMonoid A]

/-- The total amount of the entries that satisfy `p`. -/
def charge (p : Entry T A → Prop) [DecidablePred p] (ledger : List (Entry T A)) : A :=
  ((ledger.filter (fun entry => decide (p entry))).map Entry.amount).sum

@[simp]
theorem charge_nil (p : Entry T A → Prop) [DecidablePred p] : charge p [] = 0 := by
  simp [charge]

theorem charge_cons (p : Entry T A → Prop) [DecidablePred p] (entry : Entry T A)
    (ledger : List (Entry T A)) :
    charge p (entry :: ledger) =
      (if p entry then entry.amount else 0) + charge p ledger := by
  by_cases member : p entry <;> simp [charge, member]

variable [PartialOrder A] [IsOrderedAddMonoid A]

/-- Entries that keep their amounts and satisfy a stronger property weigh no
more. -/
theorem charge_le_of_forall₂ {p q : Entry T A → Prop} [DecidablePred p]
    [DecidablePred q] {before after : List (Entry T A)}
    (nonneg : ∀ entry ∈ before, 0 ≤ entry.amount)
    (matched : List.Forall₂ (fun old new => new.amount = old.amount ∧ (q new → p old))
      before after) :
    charge q after ≤ charge p before := by
  induction matched with
  | nil => simp
  | @cons old new before after head tail inductionHypothesis =>
      rcases head with ⟨sameAmount, stronger⟩
      have rest : charge q after ≤ charge p before :=
        inductionHypothesis fun entry member => nonneg entry (by simp [member])
      have first : (if q new then new.amount else 0) ≤ (if p old then old.amount else 0) := by
        by_cases inQ : q new
        · rw [if_pos inQ, if_pos (stronger inQ), sameAmount]
        · rw [if_neg inQ]
          split
          · exact nonneg old (by simp)
          · exact le_rfl
      rw [charge_cons, charge_cons]
      exact add_le_add first rest

/-- A weaker property weighs at least as much. -/
theorem charge_mono {p q : Entry T A → Prop} [DecidablePred p] [DecidablePred q]
    {ledger : List (Entry T A)} (nonneg : ∀ entry ∈ ledger, 0 ≤ entry.amount)
    (weaker : ∀ entry ∈ ledger, q entry → p entry) :
    charge q ledger ≤ charge p ledger := by
  refine charge_le_of_forall₂ nonneg ?_
  exact List.forall₂_same.mpr fun entry member => ⟨rfl, weaker entry member⟩

end Charge

section Bounded

variable [AddCommGroup T] [LinearOrder T] [IsOrderedAddMonoid T]
variable [AddCommMonoid A] [PartialOrder A] [IsOrderedAddMonoid A]

/-- Pending amounts and amounts settled at or after the cutoff. -/
def exposure (cutoff : T) (ledger : List (Entry T A)) : A :=
  charge (Entry.Counts cutoff) ledger

/-- Every entry passed the admission test against the entries below it, and
would still pass it now. -/
def Bounded (window : T) (cap : A) : List (Entry T A) → Prop
  | [] => True
  | entry :: ledger =>
      0 ≤ entry.amount ∧ exposure (entry.admittedAt - window) (entry :: ledger) ≤ cap ∧
        Bounded window cap ledger

variable {window : T} {cap : A} {ledger : List (Entry T A)}

omit [IsOrderedAddMonoid T] [IsOrderedAddMonoid A] in
theorem Bounded.amount_nonneg (bounded : Bounded window cap ledger) :
    ∀ entry ∈ ledger, 0 ≤ entry.amount := by
  induction ledger with
  | nil => simp
  | cons entry ledger inductionHypothesis =>
      rcases bounded with ⟨nonneg, -, rest⟩
      intro other member
      rcases List.mem_cons.mp member with rfl | member
      · exact nonneg
      · exact inductionHypothesis rest other member

omit [IsOrderedAddMonoid T] [IsOrderedAddMonoid A] in
/-- The admission test establishes the bound for the new entry. -/
theorem Bounded.admit (bounded : Bounded window cap ledger) {amount : A} {now : T}
    (nonneg : 0 ≤ amount) (accepted : exposure (now - window) ledger + amount ≤ cap) :
    Bounded window cap (⟨amount, now, .pending⟩ :: ledger) := by
  refine ⟨nonneg, ?_, bounded⟩
  unfold exposure at accepted ⊢
  rw [charge_cons, if_pos (by simp [Entry.Counts]), add_comm]
  exact accepted

omit [IsOrderedAddMonoid T] in
/-- Settlements and releases keep the bound. -/
theorem Bounded.later {after : List (Entry T A)} (bounded : Bounded window cap ledger)
    (later : List.Forall₂ Entry.Later ledger after) : Bounded window cap after := by
  induction later with
  | nil => exact bounded
  | @cons old new before after head tail inductionHypothesis =>
      have nonneg := bounded.amount_nonneg
      rcases bounded with ⟨positive, within, rest⟩
      refine ⟨by rw [head.1]; exact positive, ?_, inductionHypothesis rest⟩
      refine le_trans ?_ within
      rw [head.2.1]
      refine charge_le_of_forall₂ nonneg (.cons ?_ ?_)
      · exact ⟨head.1, head.counts⟩
      · exact tail.imp fun _ _ step => ⟨step.1, step.counts⟩

/-- The exposure seen with a cutoff no earlier than the newest admission's own
is within the cap. -/
theorem Bounded.exposure_le (bounded : Bounded window cap ledger) (capNonneg : 0 ≤ cap)
    {now : T} (current : ∀ entry ∈ ledger.head?, entry.admittedAt ≤ now) :
    exposure (now - window) ledger ≤ cap := by
  cases ledger with
  | nil => simpa [exposure] using capNonneg
  | cons entry ledger =>
      have nonneg := bounded.amount_nonneg
      refine le_trans (charge_mono nonneg fun other _ counts => ?_) bounded.2.1
      exact counts.anti (sub_le_sub_right (current entry (by simp)) window)

/-- What settled inside one window is within the cap, whichever entries these
are: all of them counted when the newest of them was admitted. -/
theorem Bounded.settled_le (bounded : Bounded window cap ledger) (capNonneg : 0 ≤ cap)
    (ordered : ∀ entry ∈ ledger, ∀ instant, entry.standing = .settled instant →
      entry.admittedAt ≤ instant)
    {p : Entry T A → Prop} [DecidablePred p] (first : T)
    (inside : ∀ entry, p entry → entry.SettledWithin first (first + window)) :
    charge p ledger ≤ cap := by
  induction ledger with
  | nil => simpa using capNonneg
  | cons entry ledger inductionHypothesis =>
      have nonneg := bounded.amount_nonneg
      by_cases newest : p entry
      · -- The newest member of the window saw every other member of it.
        refine le_trans (charge_mono nonneg fun other _ member => ?_) bounded.2.1
        rcases inside entry newest with ⟨settledAt, settled, -, notLate⟩
        rcases inside other member with ⟨instant, standing, notEarly, -⟩
        have admitted : entry.admittedAt ≤ settledAt :=
          ordered entry (by simp) settledAt settled
        simp only [Entry.Counts, standing]
        exact le_trans (sub_le_iff_le_add.mpr (le_trans admitted notLate)) notEarly
      · rw [charge_cons, if_neg newest, zero_add]
        exact inductionHypothesis bounded.2.2 fun other member =>
          ordered other (by simp [member])

end Bounded

end RollingCap
