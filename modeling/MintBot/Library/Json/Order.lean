import Mathlib.Data.List.Lex
import Mathlib.Data.List.Sort
import MintBot.Library.Json.Text

/-!
# The order of texts

Texts are compared by their code units.  It is the order in which `sort` puts an array of texts
when it is given no comparison.
-/

namespace Json

/-- `left <= right` of two texts. -/
def TextLe (left right : Text) : Prop :=
  left.map UInt16.toNat ≤ right.map UInt16.toNat

instance : DecidableRel TextLe := fun _ _ => inferInstanceAs (Decidable (_ ≤ _))

theorem TextLe.refl (text : Text) : TextLe text text :=
  le_refl (text.map UInt16.toNat)

theorem TextLe.trans {left middle right : Text} (before : TextLe left middle)
    (behind : TextLe middle right) : TextLe left right :=
  le_trans before behind

theorem TextLe.total (left right : Text) : TextLe left right ∨ TextLe right left :=
  le_total (left.map UInt16.toNat) _

/-- `.sort()` -/
def sorted (texts : List Text) : List Text :=
  texts.insertionSort TextLe

theorem sorted_perm (texts : List Text) : (sorted texts).Perm texts :=
  List.perm_insertionSort _ _

theorem mem_sorted {texts : List Text} {text : Text} : text ∈ sorted texts ↔ text ∈ texts :=
  (sorted_perm texts).mem_iff

/-- Texts that are the same in order are the same, as often. -/
theorem perm_of_sorted {left right : List Text} (same : sorted left = sorted right) :
    left.Perm right :=
  (sorted_perm left).symm.trans (same ▸ sorted_perm right)

end Json
