import Mathlib.Data.List.Sort
import Mathlib.Data.String.Basic
import Linkage.Proofs.Text.Distinct

/-!
Texts in ascending order, each once. Such a list says which texts there are and nothing else: it
rises at every step, and lists with the same members come out the same.
-/
namespace Linkage.Text
variable {xs ys : List String} {x : String}

theorem mem_sortedStrings : x ∈ sortedStrings xs ↔ x ∈ xs := by
  rw [sortedStrings, List.mem_mergeSort]

theorem pairwise_sortedStrings (xs : List String) : (sortedStrings xs).Pairwise (· ≤ ·) := by
  have sorted : (sortedStrings xs).Pairwise fun a b => decide (a ≤ b) = true := by
    refine List.pairwise_mergeSort ?_ ?_ xs
    · intro a b c ab bc
      rw [decide_eq_true_iff] at ab bc ⊢
      exact ab.trans bc
    · intro a b
      rw [Bool.or_eq_true, decide_eq_true_iff, decide_eq_true_iff]
      exact le_total a b
  exact sorted.imp of_decide_eq_true

theorem mem_ascending : x ∈ sortedStrings (distinct xs) ↔ x ∈ xs := by
  rw [mem_sortedStrings, mem_distinct]

/-- The order is strict, since nothing stands twice. -/
theorem pairwise_ascending (xs : List String) :
    (sortedStrings (distinct xs)).Pairwise (· < ·) := by
  have once : (sortedStrings (distinct xs)).Nodup :=
    (List.mergeSort_perm _ _).nodup_iff.mpr (nodup_distinct xs)
  exact ((pairwise_sortedStrings _).and once).imp fun ordered => lt_of_le_of_ne ordered.1 ordered.2

theorem nodup_ascending (xs : List String) : (sortedStrings (distinct xs)).Nodup :=
  (pairwise_ascending xs).imp ne_of_lt

/-- A list that rises at every step is what its members come to when they are sorted. -/
theorem sortedStrings_eq (perm : xs.Perm ys) (rises : ys.Pairwise (· < ·)) :
    sortedStrings xs = ys := by
  refine ((List.mergeSort_perm _ _).trans perm).eq_of_pairwise ?_ (pairwise_sortedStrings xs)
    (rises.imp le_of_lt)
  intro a b _ _ ab ba
  exact le_antisymm ab ba

theorem ascending_congr (same : ∀ x, x ∈ xs ↔ x ∈ ys) :
    sortedStrings (distinct xs) = sortedStrings (distinct ys) := by
  refine sortedStrings_eq ?_ (pairwise_ascending ys)
  rw [List.perm_ext_iff_of_nodup (nodup_distinct xs) (nodup_ascending ys)]
  intro x
  rw [mem_distinct, mem_ascending, same]

end Linkage.Text
