import Mathlib.Algebra.Order.Ring.Int
import MintBot.Library.RollingCap
import MintBot.Store.Operation

/-!
# Reservations as a rolling-cap ledger

The reservation rows of one wallet, or of one chain and mint class, read as the
entries of a ledger with a rolling window of 24 hours.  A later reservation row
is a later entry, an admitted row is an accepted entry, and the sums of the
store are the exposures of the ledger.
-/

namespace MintBot

open RollingCap

namespace SpendReservationRow

/-- What became of the reserved amount. -/
def standing (row : SpendReservationRow) : Standing Time :=
  match row.status, row.settledAt with
  | .reserved, _ => .pending
  | .settled, some instant => .settled instant
  | .settled, none => .pending
  | .released, _ | .expired, _ => .released

/-- The row as an entry of a rolling ledger. -/
def toEntry (row : SpendReservationRow) : Entry Time Wei where
  amount := row.reservedAmountWei
  admittedAt := row.createdAt
  standing := row.standing

theorem toEntry_counts {row : SpendReservationRow} {cutoff : Time} :
    row.toEntry.Counts cutoff ↔ row.CountsSince cutoff := by
  unfold Entry.Counts toEntry standing CountsSince
  cases row.status <;> cases row.settledAt <;> simp

/-- Settlement and closing are steps of a ledger entry. -/
theorem Later.toEntry {before after : SpendReservationRow} (later : Later before after) :
    Entry.Later before.toEntry after.toEntry := by
  cases later with
  | same => exact Entry.Later.refl _
  | settled pending => exact ⟨rfl, rfl, Or.inl (by simp [SpendReservationRow.toEntry, standing, pending])⟩
  | closed pending => exact ⟨rfl, rfl, Or.inl (by simp [SpendReservationRow.toEntry, standing, pending])⟩

/-- The row settled in a window that begins after `start` and lasts 24 hours. -/
def SettledIn (start : Time) (row : SpendReservationRow) : Prop :=
  ∃ instant ∈ row.settledAt, start < instant ∧ instant ≤ start + rollingSpendWindowMs

instance (start : Time) (row : SpendReservationRow) : Decidable (row.SettledIn start) := by
  unfold SettledIn
  infer_instance

/-- Only settled rows carry a settlement instant. -/
def Stamped (row : SpendReservationRow) : Prop :=
  row.settledAt ≠ none → row.status = .settled

/-- The row did not settle before it was admitted. -/
def SettledInOrder (row : SpendReservationRow) : Prop :=
  ∀ instant ∈ row.settledAt, row.createdAt ≤ instant

instance (row : SpendReservationRow) : Decidable row.SettledInOrder := by
  unfold SettledInOrder
  infer_instance

theorem Later.stamped {before after : SpendReservationRow} (later : Later before after)
    (stamped : before.Stamped) : after.Stamped := by
  cases later with
  | same => exact stamped
  | settled pending => exact fun _ => rfl
  | closed pending =>
      intro present
      have settled := stamped present
      simp [pending] at settled

theorem standing_eq_settled {row : SpendReservationRow} (stamped : row.Stamped)
    {instant : Time} : row.standing = .settled instant ↔ row.settledAt = some instant := by
  unfold standing
  unfold Stamped at stamped
  cases present : row.settledAt with
  | none => cases row.status <;> simp
  | some found => simp [stamped (by simp [present])]

end SpendReservationRow

/-! ## Ledgers of selected rows -/

section Ledger

variable {select : SpendReservationRow → Prop} [DecidablePred select]

/-- The entries of the selected rows, newest first. -/
def ledger (select : SpendReservationRow → Prop) [DecidablePred select]
    (rows : List SpendReservationRow) : List (Entry Time Wei) :=
  (rows.filter fun row => decide (select row)).map SpendReservationRow.toEntry

theorem ledger_cons (row : SpendReservationRow) (rows : List SpendReservationRow) :
    ledger select (row :: rows) =
      if select row then row.toEntry :: ledger select rows else ledger select rows := by
  by_cases selected : select row <;> simp [ledger, selected]

/-- A sum over selected rows is the charge of the ledger when the rows and the
entries satisfy corresponding properties. -/
theorem charge_ledger {p : Entry Time Wei → Prop} [DecidablePred p]
    {q : SpendReservationRow → Prop} [DecidablePred q] (rows : List SpendReservationRow)
    (same : ∀ row ∈ rows, q row ↔ select row ∧ p row.toEntry) :
    charge p (ledger select rows) = reservedTotal q rows := by
  induction rows with
  | nil => rfl
  | cons row rows inductionHypothesis =>
      have rest := inductionHypothesis fun other member => same other (by simp [member])
      have head := same row (by simp)
      rw [ledger_cons, reservedTotal_cons, ← rest]
      by_cases selected : select row
      · rw [if_pos selected, charge_cons]
        by_cases charged : p row.toEntry
        · rw [if_pos charged, if_pos (head.mpr ⟨selected, charged⟩)]
          rfl
        · rw [if_neg charged, if_neg fun holds => charged (head.mp holds).2]
      · rw [if_neg selected, if_neg fun holds => selected (head.mp holds).1, zero_add]

/-- The exposure of a ledger is the sum that the store computes. -/
theorem exposure_ledger (cutoff : Time) (rows : List SpendReservationRow) :
    RollingCap.exposure cutoff (ledger select rows) =
      reservedTotal (fun row => select row ∧ row.CountsSince cutoff) rows :=
  charge_ledger rows fun row _ => by rw [SpendReservationRow.toEntry_counts]

/-- Later rows form a later ledger when the selection does not change. -/
theorem ledger_later {before after : List SpendReservationRow}
    (stable : ∀ old new, SpendReservationRow.Later old new → (select new ↔ select old))
    (later : List.Forall₂ SpendReservationRow.Later before after) :
    List.Forall₂ Entry.Later (ledger select before) (ledger select after) := by
  induction later with
  | nil => exact .nil
  | @cons old new before after head tail inductionHypothesis =>
      rw [ledger_cons, ledger_cons]
      by_cases selected : select old
      · rw [if_pos selected, if_pos ((stable old new head).mpr selected)]
        exact .cons head.toEntry inductionHypothesis
      · rw [if_neg selected, if_neg fun now => selected ((stable old new head).mp now)]
        exact inductionHypothesis

end Ledger

end MintBot
