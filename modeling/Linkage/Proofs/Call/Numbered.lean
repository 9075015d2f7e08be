import Mathlib.Data.List.Nodup
import Linkage.Call.Forwarding
import Linkage.Proofs.Text.Runs

/-!
Names that are told apart by numbers. The first occurrence of a name keeps it, and every later one
gets its number after a separator. No number makes two occurrences alike, but a name with a number
may be a name of its own: that is the only way in which two of the given names can be the same.
-/
namespace Linkage.Call.ForwardingClass

open Text (Unnumbered)

variable {separator name : String} {n : Nat}

/-- The name that the occurrence of a name with a number gets. -/
def occurrence (separator name : String) (n : Nat) : String :=
  if n = 1 then name else name ++ separator ++ toString n

/-- Every name with the number of its occurrence, counted on from those that were seen. -/
def tallied : List String → List String → List (String × Nat)
  | _, [] => []
  | seen, name :: rest => (name, seen.count name + 1) :: tallied (name :: seen) rest

theorem numbered_eq_map (separator : String) (seen names : List String) :
    numbered separator seen names =
      (tallied seen names).map fun x => occurrence separator x.1 x.2 := by
  induction names generalizing seen with
  | nil => rfl
  | cons name rest ih => rw [numbered, tallied, List.map_cons, ih, occurrence]

theorem length_numbered (separator : String) (seen names : List String) :
    (numbered separator seen names).length = names.length := by
  induction names generalizing seen with
  | nil => rfl
  | cons name rest ih => rw [numbered, List.length_cons, ih, List.length_cons]

/-- The occurrences of a name are numbered without a gap. -/
theorem mem_tallied {seen names : List String} : (name, n) ∈ tallied seen names ↔
    seen.count name < n ∧ n ≤ seen.count name + names.count name := by
  induction names generalizing seen with
  | nil =>
    simp only [tallied, List.not_mem_nil, List.count_nil, false_iff]
    omega
  | cons first rest ih =>
    rw [tallied, List.mem_cons, ih, Prod.mk.injEq]
    by_cases same : name = first
    · subst same
      simp only [List.count_cons_self, true_and]
      omega
    · simp only [same, false_and, false_or, List.count_cons_of_ne (Ne.symm same)]

theorem nodup_tallied (seen names : List String) : (tallied seen names).Nodup := by
  induction names generalizing seen with
  | nil => exact .nil
  | cons first rest ih =>
    rw [tallied, List.nodup_cons, mem_tallied, List.count_cons_self]
    exact ⟨by omega, ih _⟩

/-- The given names are distinct unless one of the names is that of a later occurrence. -/
theorem nodup_numbered_iff {names : List String}
    (plain : ∀ name ∈ names, Unnumbered (name ++ separator)) :
    (numbered separator [] names).Nodup ↔
      ∀ name n, 2 ≤ n → n ≤ names.count name → name ++ separator ++ toString n ∉ names := by
  have counted {name : String} {n : Nat} : (name, n) ∈ tallied [] names ↔
      1 ≤ n ∧ n ≤ names.count name := by
    rw [mem_tallied, List.count_nil, Nat.zero_add, Nat.lt_iff_add_one_le]
  have listed {name : String} {n : Nat} (among : (name, n) ∈ tallied [] names) : name ∈ names :=
    List.count_pos_iff.mp (by have := counted.mp among; omega)
  rw [numbered_eq_map, List.nodup_map_iff_inj_on (nodup_tallied [] names)]
  constructor
  · intro distinct name n later few taken
    have first : (name ++ separator ++ toString n, 1) ∈ tallied [] names :=
      counted.mpr ⟨Nat.le_refl 1, List.count_pos_iff.mpr taken⟩
    have same := distinct _ (counted.mpr ⟨by omega, few⟩) _ first
      (by simp [occurrence, show n ≠ 1 by omega])
    have one : n = 1 := congrArg Prod.snd same
    omega
  · rintro free ⟨a, m⟩ left ⟨b, n⟩ right same
    have few := counted.mp left
    have few' := counted.mp right
    simp only [occurrence] at same
    split at same
    next first =>
      split at same
      next first' => rw [same, first, first']
      next later => exact absurd (same ▸ listed left) (free b n (by omega) few'.2)
    next later =>
      split at same
      next first' => exact absurd (same ▸ listed right) (free a m (by omega) few.2)
      next later' =>
        obtain ⟨front, number⟩ :=
          Text.append_toString_inj (plain a (listed left)) (plain b (listed right)) same
        rw [(String.append_left_inj separator).mp front, number]

end Linkage.Call.ForwardingClass
