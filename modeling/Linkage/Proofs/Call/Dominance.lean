import Linkage.Proofs.Call.Choice

/-!
The candidate that dominates all others. Being more specific is asymmetric, whatever the classes of
a view extend, and so no two places of a list can dominate. A search that goes through the list and
gives up at a second one never has to, and what it finds does not depend on the order.
-/
namespace Linkage.Call
variable {v : ClassView} {count : Nat} {several : List Applied}

/-- What a search for the dominating candidate comes to. -/
inductive Contest where
  | nobody
  | winner (a : Applied)
  /-- A second one was met, and the search was given up. -/
  | second

def Contest.winner? : Contest → Option Applied
  | .winner a => some a
  | _ => none

/-- Goes through the candidates one by one; `found` is the dominating one among those before. -/
def seek (dominating : Applied × Nat → Bool) : Option Applied → List (Applied × Nat) → Contest
  | found, [] =>
    match found with
    | none => .nobody
    | some a => .winner a
  | found, x :: rest =>
    if dominating x then
      match found with
      | none => seek dominating (some x.1) rest
      | some _ => .second
    else seek dominating found rest

def contest (v : ClassView) (count : Nat) (several : List Applied) : Contest :=
  seek (dominates v count several) none several.zipIdx

/-- The candidate at a place is more specific than those at all other places. -/
def DominatesAt (v : ClassView) (count : Nat) (several : List Applied) (i : Nat) : Prop :=
  ∃ a, several[i]? = some a ∧ ∀ j b, several[j]? = some b → j ≠ i →
    moreSpecific v (a.argumentTypes count) (b.argumentTypes count) = true

/-- Only the candidates that dominate count for the search. -/
theorem seek_filter (dominating : Applied × Nat → Bool) (found : Option Applied)
    (places : List (Applied × Nat)) :
    seek dominating found places = seek (fun _ => true) found (places.filter dominating) := by
  induction places generalizing found with
  | nil => rfl
  | cons x rest ih =>
    cases top : dominating x with
    | false => simp only [seek, top, Bool.false_eq_true, if_false, List.filter_cons, ih]
    | true => simp only [seek, top, if_true, List.filter_cons, ih]

theorem contest_eq (v : ClassView) (count : Nat) (several : List Applied) :
    contest v count several =
      match several.zipIdx.filter (dominates v count several) with
      | [] => .nobody
      | [x] => .winner x.1
      | _ => .second := by
  rw [contest, seek_filter]
  generalize several.zipIdx.filter (dominates v count several) = places
  match places with
  | [] => rfl
  | [_] => rfl
  | _ :: _ :: _ => rfl

/-- The search that gives up at a second candidate finds what the choice by all places finds. -/
theorem dominant?_eq (v : ClassView) (count : Nat) (several : List Applied) :
    dominant? v count several = (contest v count several).winner? := by
  rw [dominant?, contest_eq]
  unfold dominates
  generalize several.zipIdx.filter _ = places
  rcases places with _ | ⟨x, _ | ⟨y, rest⟩⟩
  · rfl
  · rfl
  · rfl

theorem moreSpecific_asymm (v : ClassView) (left right : List Ty) :
    ¬ (moreSpecific v left right = true ∧ moreSpecific v right left = true) := by
  rw [moreSpecific_iff, moreSpecific_iff]
  exact fun both => both.1.asymm both.2

theorem DominatesAt.unique {i j : Nat} (one : DominatesAt v count several i)
    (other : DominatesAt v count several j) : i = j := by
  obtain ⟨a, isA, top⟩ := one
  obtain ⟨b, isB, top'⟩ := other
  by_contra different
  exact moreSpecific_asymm v _ _
    ⟨top j b isB (Ne.symm different), top' i a isA different⟩

/-- What dominates at a place is all that dominates. -/
theorem DominatesAt.contest_eq {a : Applied} {i : Nat} (place : several[i]? = some a)
    (top : DominatesAt v count several i) : contest v count several = .winner a := by
  obtain ⟨b, isB, more⟩ := top
  obtain rfl := Option.some.inj (place.symm.trans isB)
  have dominating : dominates v count several (a, i) = true :=
    dominates_iff.mpr fun b j found other => moreSpecific_iff.mp (more j b found other)
  rw [Call.contest_eq, filter_dominates_eq_singleton place dominating]

theorem exists_dominatesAt {x : Applied × Nat}
    (inside : x ∈ several.zipIdx.filter (dominates v count several)) :
    several[x.2]? = some x.1 ∧ DominatesAt v count several x.2 := by
  obtain ⟨member, top⟩ := List.mem_filter.mp inside
  have place := List.mk_mem_zipIdx_iff_getElem?.mp member
  exact ⟨place, x.1, place, fun j b found other =>
    moreSpecific_iff.mpr (dominates_iff.mp top b j found other)⟩

/-- Either nobody dominates, or the search ends with who does. -/
theorem contest_cases (v : ClassView) (count : Nat) (several : List Applied) :
    (contest v count several = .nobody ∧ ∀ i, ¬ DominatesAt v count several i) ∨
      ∃ a i, several[i]? = some a ∧ DominatesAt v count several i ∧
        contest v count several = .winner a := by
  by_cases top : ∃ i, DominatesAt v count several i
  · obtain ⟨i, a, place, more⟩ := top
    have top : DominatesAt v count several i := ⟨a, place, more⟩
    exact .inr ⟨a, i, place, top, top.contest_eq place⟩
  · have nobody : several.zipIdx.filter (dominates v count several) = [] := by
      rw [List.eq_nil_iff_forall_not_mem]
      exact fun x inside => top ⟨x.2, (exists_dominatesAt inside).2⟩
    refine .inl ⟨?_, not_exists.mp top⟩
    rw [contest_eq, nobody]

/-- At most one candidate dominates. No list of parameters is both more and less specific than
another; of the places of a list at most one dominates, and it is the winner; the search never
meets a second one; and the winner is the same in any order. -/
theorem dominance_unique (v : ClassView) :
    (∀ left right, ¬ (moreSpecific v left right = true ∧ moreSpecific v right left = true)) ∧
    ∀ count several,
      (∀ i j, DominatesAt v count several i → DominatesAt v count several j → i = j) ∧
      (∀ a, dominant? v count several = some a ↔
        ∃ i, several[i]? = some a ∧ DominatesAt v count several i) ∧
      dominant? v count several = (contest v count several).winner? ∧
      contest v count several ≠ .second ∧
      ∀ others, others.Perm several → dominant? v count others = dominant? v count several := by
  refine ⟨moreSpecific_asymm v, fun count several => ⟨?_, ?_, dominant?_eq .., ?_, ?_⟩⟩
  · exact fun i j => DominatesAt.unique
  · intro a
    rw [dominant?_eq]
    rcases contest_cases v count several with ⟨nobody, none_top⟩ | ⟨b, i, place, top, won⟩
    · rw [nobody]
      exact iff_of_false nofun fun ⟨i, _, top⟩ => none_top i top
    · rw [won]
      constructor
      · rintro same
        obtain rfl := Option.some.inj same
        exact ⟨i, place, top⟩
      · rintro ⟨j, place', top'⟩
        rw [top.unique top'] at place
        exact place.symm.trans place'
  · rcases contest_cases v count several with ⟨nobody, _⟩ | ⟨b, _, _, _, won⟩
    · rw [nobody]
      nofun
    · rw [won]
      nofun
  · intro others perm
    apply Option.ext
    intro a
    rw [dominant?_eq_some_iff, dominant?_eq_some_iff, standsOut_congr_perm perm]

end Linkage.Call
