import Mathlib.Data.List.Nodup
import Linkage.Text.Basic

/-!
Keeping the first occurrence of every element: the members stay the same, none stands twice, and
what is kept of the front of a list does not depend on what follows.
-/
namespace Linkage.Text
variable {α : Type} [BEq α] [LawfulBEq α]

theorem mem_distinct {xs : List α} {x : α} : x ∈ distinct xs ↔ x ∈ xs := by
  induction xs with
  | nil => rfl
  | cons y xs ih =>
    rw [distinct, List.mem_cons, List.mem_cons, List.mem_filter, ih]
    by_cases same : x = y
    · simp [same]
    · simp [same]

theorem nodup_distinct (xs : List α) : (distinct xs).Nodup := by
  induction xs with
  | nil => exact .nil
  | cons y xs ih =>
    rw [distinct, List.nodup_cons]
    exact ⟨by simp, ih.filter _⟩

/-- What is kept stands in the order of the first occurrences. -/
theorem pairwise_distinct (xs : List α) :
    (distinct xs).Pairwise fun x y => xs.idxOf x < xs.idxOf y := by
  induction xs with
  | nil => exact .nil
  | cons x xs ih =>
    have later : ∀ y, (!(y == x)) = true → (x :: xs).idxOf y = xs.idxOf y + 1 := by
      intro y other
      rw [Bool.not_eq_true'] at other
      exact List.idxOf_cons_ne _ fun same => by simp [same] at other
    rw [distinct, List.pairwise_cons]
    constructor
    · intro y inside
      rw [List.idxOf_cons_self, later y (List.mem_filter.mp inside).2]
      exact Nat.succ_pos _
    · refine (List.pairwise_filter.mpr (ih.imp ?_))
      intro y z before kept kept'
      rw [later y kept, later z kept']
      exact Nat.succ_lt_succ before

theorem distinct_eq_self {xs : List α} (once : xs.Nodup) : distinct xs = xs := by
  induction xs with
  | nil => rfl
  | cons x xs ih =>
    rw [List.nodup_cons] at once
    have kept : xs.filter (fun y => !(y == x)) = xs := by
      rw [List.filter_eq_self]
      intro y inside
      rw [Bool.not_eq_true', beq_eq_false_iff_ne]
      exact fun same => once.1 (same ▸ inside)
    rw [distinct, ih once.2, kept]

theorem distinct_append (xs ys : List α) :
    distinct (xs ++ ys) = distinct xs ++ (distinct ys).filter fun y => !xs.contains y := by
  induction xs with
  | nil => simp [distinct]
  | cons x xs ih =>
    simp only [List.cons_append, distinct, ih, List.filter_append, List.filter_filter,
      List.contains_cons, Bool.not_or]

theorem distinct_concat_of_mem {xs : List α} {x : α} (known : x ∈ xs) :
    distinct (xs ++ [x]) = distinct xs := by
  simp [distinct_append, distinct, known]

theorem distinct_concat_of_not_mem {xs : List α} {x : α} (new : x ∉ xs) :
    distinct (xs ++ [x]) = distinct xs ++ [x] := by
  simp [distinct_append, distinct, new]

theorem nodup_eraseDups (xs : List α) : xs.eraseDups.Nodup := by
  match xs with
  | [] => exact .nil
  | x :: rest =>
    rw [List.eraseDups_cons, List.nodup_cons]
    exact ⟨by simp [List.mem_eraseDups], nodup_eraseDups _⟩
termination_by xs.length
decreasing_by exact Nat.lt_succ_of_le (List.length_filter_le _ _)

end Linkage.Text
