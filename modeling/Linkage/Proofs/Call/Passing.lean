import Linkage.Call.Overload

/-!
Passing arguments one by one. `Passes` says that every argument reaches the type at its place and
which conversion it takes; `passAll` succeeds exactly with such lists, and what it reports otherwise
are all mismatches between a type and the argument at its place.
-/
namespace Linkage.Call

/-- The arguments reach the types at their places; places are counted from `first` on. -/
inductive Passes (v : ClassView) : Nat → List Ty → List Shape → List Passing → Prop where
  | nil {first : Nat} : Passes v first [] [] []
  | cons {first : Nat} {t : Ty} {s : Shape} {k : Conversion} {types : List Ty}
      {shapes : List Shape} {passings : List Passing} (reaches : classify v s t = .ok k)
      (rest : Passes v (first + 1) types shapes passings) :
      Passes v first (t :: types) (s :: shapes) (⟨first, t, s, k⟩ :: passings)

/-- Some argument does not reach the type at its place. -/
def Mismatched (v : ClassView) (types : List Ty) (shapes : List Shape) (m : Mismatch) : Prop :=
  ∃ t s, (t, s) ∈ types.zip shapes ∧ classify v s t = .error m

namespace Passes
variable {v : ClassView} {first : Nat} {types : List Ty} {shapes : List Shape}
variable {passings : List Passing}

theorem length_types (h : Passes v first types shapes passings) :
    types.length = shapes.length := by
  induction h with
  | nil => rfl
  | cons _ _ ih => simp [ih]

theorem unique {others : List Passing} (h : Passes v first types shapes passings)
    (h' : Passes v first types shapes others) : passings = others := by
  induction h generalizing others with
  | nil => cases h'; rfl
  | cons reaches _ ih =>
    cases h' with
    | cons reaches' rest' =>
      obtain rfl := Except.ok.inj (reaches.symm.trans reaches')
      rw [ih rest']

/-- Every argument of a list that is passed has a conversion. -/
theorem classify_ok (h : Passes v first types shapes passings) {t : Ty} {s : Shape}
    (member : (t, s) ∈ types.zip shapes) : ∃ k, classify v s t = .ok k := by
  induction h with
  | nil => simp at member
  | cons reaches _ ih =>
    rcases List.mem_cons.mp (List.zip_cons_cons ▸ member) with same | member
    · obtain ⟨rfl, rfl⟩ := Prod.mk.inj same
      exact ⟨_, reaches⟩
    · exact ih member

end Passes

section PassAll
variable (v : ClassView)

/-- The outcome for every place, as `passAll` collects them. -/
def outcomesFrom (first : Nat) (types : List Ty) (shapes : List Shape) :
    List (Nat × Ty × Shape × Except Mismatch Conversion) :=
  ((types.zip shapes).zipIdx first).map fun ((t, s), i) => (i, t, s, classify v s t)

def mismatchAt : Nat × Ty × Shape × Except Mismatch Conversion → Option (Nat × Mismatch) :=
  fun (i, _, _, outcome) => match outcome with
    | .error m => some (i, m)
    | .ok _ => none

def passingAt : Nat × Ty × Shape × Except Mismatch Conversion → Option Passing :=
  fun (i, t, s, outcome) => match outcome with
    | .ok k => some ⟨i, t, s, k⟩
    | .error _ => none

theorem passAll_eq (types : List Ty) (shapes : List Shape) :
    passAll v types shapes =
      if ((outcomesFrom v 0 types shapes).filterMap mismatchAt).isEmpty then
        .ok ((outcomesFrom v 0 types shapes).filterMap passingAt)
      else .error ((outcomesFrom v 0 types shapes).filterMap mismatchAt) :=
  rfl

theorem outcomesFrom_cons (first : Nat) (t : Ty) (types : List Ty) (s : Shape)
    (shapes : List Shape) :
    outcomesFrom v first (t :: types) (s :: shapes) =
      (first, t, s, classify v s t) :: outcomesFrom v (first + 1) types shapes := by
  simp [outcomesFrom]

variable {v}

theorem passes_iff_outcomes (first : Nat) {types : List Ty} {shapes : List Shape}
    (lengths : types.length = shapes.length) (passings : List Passing) :
    Passes v first types shapes passings ↔
      (outcomesFrom v first types shapes).filterMap mismatchAt = [] ∧
        (outcomesFrom v first types shapes).filterMap passingAt = passings := by
  induction types generalizing first shapes passings with
  | nil =>
    obtain rfl : shapes = [] := List.length_eq_zero_iff.mp lengths.symm
    constructor
    · intro h
      cases h
      exact ⟨rfl, rfl⟩
    · rintro ⟨_, rfl⟩
      exact .nil
  | cons t types ih =>
    obtain _ | ⟨s, shapes⟩ := shapes
    · simp at lengths
    have rest := ih (first + 1) (Nat.succ.inj lengths)
    rw [outcomesFrom_cons]
    cases outcome : classify v s t with
    | error m =>
      rw [List.filterMap_cons_some (f := mismatchAt) rfl]
      constructor
      · intro h
        cases h with
        | cons reaches _ => rw [outcome] at reaches; cases reaches
      · rintro ⟨clean, _⟩
        cases clean
    | ok k =>
      rw [List.filterMap_cons_none (f := mismatchAt) rfl,
        List.filterMap_cons_some (f := passingAt) rfl]
      constructor
      · intro h
        cases h with
        | cons reaches tail =>
          obtain rfl := Except.ok.inj (outcome.symm.trans reaches)
          obtain ⟨clean, same⟩ := (rest _).mp tail
          exact ⟨clean, by rw [same]⟩
      · rintro ⟨clean, rfl⟩
        exact .cons outcome ((rest _).mpr ⟨clean, rfl⟩)

theorem mem_outcomes_mismatch (first : Nat) (types : List Ty) (shapes : List Shape)
    (m : Mismatch) :
    (∃ i, (i, m) ∈ (outcomesFrom v first types shapes).filterMap mismatchAt) ↔
      Mismatched v types shapes m := by
  induction types generalizing first shapes with
  | nil => simp [outcomesFrom, Mismatched]
  | cons t types ih =>
    obtain _ | ⟨s, shapes⟩ := shapes
    · simp [outcomesFrom, Mismatched]
    have rest := ih (first + 1) shapes
    have split : Mismatched v (t :: types) (s :: shapes) m ↔
        classify v s t = .error m ∨ Mismatched v types shapes m := by
      constructor
      · rintro ⟨t', s', member, outcome⟩
        rcases List.mem_cons.mp (List.zip_cons_cons ▸ member) with same | member
        · obtain ⟨rfl, rfl⟩ := Prod.mk.inj same
          exact Or.inl outcome
        · exact Or.inr ⟨t', s', member, outcome⟩
      · rintro (outcome | ⟨t', s', member, outcome⟩)
        · exact ⟨t, s, by simp, outcome⟩
        · exact ⟨t', s', by simp [member], outcome⟩
    rw [outcomesFrom_cons, split, ← rest]
    cases outcome : classify v s t with
    | error m' =>
      rw [List.filterMap_cons_some (f := mismatchAt) rfl]
      simp [exists_or, eq_comm]
    | ok k =>
      rw [List.filterMap_cons_none (f := mismatchAt) rfl]
      simp

theorem passAll_eq_ok_iff {types : List Ty} {shapes : List Shape}
    (lengths : types.length = shapes.length) (passings : List Passing) :
    passAll v types shapes = .ok passings ↔ Passes v 0 types shapes passings := by
  rw [passes_iff_outcomes 0 lengths, passAll_eq]
  split
  · rename_i clean
    exact ⟨fun h => ⟨List.isEmpty_iff.mp clean, Except.ok.inj h⟩, fun h => by rw [h.2]⟩
  · rename_i unclean
    constructor
    · intro h
      cases h
    · intro h
      exact False.elim (unclean (List.isEmpty_iff.mpr h.1))

/-- A failure reports every mismatch, and there is one. -/
theorem mem_of_passAll_eq_error {types : List Ty} {shapes : List Shape}
    {mismatches : List (Nat × Mismatch)} (failed : passAll v types shapes = .error mismatches) :
    mismatches ≠ [] ∧ ∀ m, (∃ i, (i, m) ∈ mismatches) ↔ Mismatched v types shapes m := by
  rw [passAll_eq] at failed
  split at failed
  · cases failed
  · rename_i unclean
    cases failed
    exact ⟨fun h => unclean (List.isEmpty_iff.mpr h), mem_outcomes_mismatch 0 types shapes⟩

end PassAll

end Linkage.Call
