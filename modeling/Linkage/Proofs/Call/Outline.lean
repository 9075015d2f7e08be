import Linkage.Proofs.Call.Selection
import Linkage.Proofs.View.Outline

/-!
What a choice among candidates sees of classes: distances and the kind of a class from the view, and
of the class that declares a candidate its name and whether it is an interface. So a choice is the
same in a view and in its outline, and it commutes with taking the outlines of the candidates.
-/
namespace Linkage.Call

/-! Views of one outline classify alike. -/

section Views
variable (v : ClassView) (shape : Shape)

theorem classifyClass_outline (className : String) (declared : Ty) :
    classifyClass v.outline shape className declared =
      classifyClass v shape className declared := by
  cases shape <;>
    simp only [classifyClass, ClassView.acceptsBoxed, v.distance_outline, v.isEnum_outline]

mutual

theorem classify_outline : (t : Ty) → classify v.outline shape t = classify v shape t
  | .primitive _ => rfl
  | .reference name args => by
    rw [classify, classify, classifyContent_outline args, classifyClass_outline]
  | .array .. => by cases shape <;> rfl
  | .variable _ => by rw [classify, classify, classifyClass_outline]
  | .void => by rw [classify, classify]

theorem classifyContent_outline :
    (args : List Ty) → classifyContent v.outline shape args = classifyContent v shape args
  | [] => rfl
  | t :: rest => by
    have inner := classify_outline t
    cases t <;> simp only [classifyContent, inner, classifyClass_outline]

end

theorem moreSpecificType_outline (a b : Ty) :
    moreSpecificType v.outline a b = moreSpecificType v a b := by
  cases a <;> cases b <;>
    simp only [moreSpecificType, ClassView.acceptsBoxed, v.distance_outline, v.isSubtype_outline]

theorem select_outline (kind : Binding) (candidates : List Candidate) (shapes : List Shape) :
    select v.outline kind candidates shapes = select v kind candidates shapes := by
  have apply_outline : apply v.outline shapes = apply v shapes := by
    funext c
    simp only [apply, spreadOut, passAll, classify_outline]
  have dominant?_outline : dominant? v.outline = dominant? v := by
    funext count several
    simp only [dominant?, moreSpecific, moreSpecificType_outline]
  simp only [select, apply_outline, dominant?_outline]

end Views

/-! A candidate counts for its member and for the outline of its class. -/

def Candidate.outline (c : Candidate) : Candidate := { c with declaring := c.declaring.outline }

def Applied.outline (a : Applied) : Applied := { a with candidate := a.candidate.outline }

section Candidates
variable (v : ClassView) (kind : Binding) (shapes : List Shape)

theorem spreadOut_outline (c : Candidate) :
    spreadOut v c.outline shapes = (spreadOut v c shapes).map Applied.outline := by
  have same : c.outline.arity = c.arity := rfl
  rw [spreadOut, spreadOut, same]
  split
  · rfl
  · have types : c.outline.spreadParameters shapes.length = c.spreadParameters shapes.length := rfl
    rw [types]
    cases passAll v (c.spreadParameters shapes.length) shapes <;> rfl

theorem apply_outline (c : Candidate) :
    apply v shapes c.outline = (apply v shapes c).map Applied.outline := by
  have arity : c.outline.arity = c.arity := rfl
  have spreads : c.outline.spreads = c.spreads := rfl
  have parameters : c.outline.parameters = c.parameters := rfl
  have signature : c.outline.signature = c.signature := rfl
  simp only [apply, arity, spreads, parameters, signature, spreadOut_outline]
  cases passAll v c.parameters shapes <;> cases spreadOut v c shapes <;>
    cases c.spreads shapes.length <;> split <;> rfl

theorem fitting_map_outline (candidates : List Candidate) :
    fitting (candidates.map Candidate.outline) shapes =
      (fitting candidates shapes).map Candidate.outline := by
  rw [fitting, fitting, List.filter_map]
  rfl

theorem callable_map_outline (candidates : List Candidate) :
    callable kind (candidates.map Candidate.outline) shapes =
      (callable kind candidates shapes).map Candidate.outline := by
  rw [callable, callable, fitting_map_outline, List.filter_map]
  rfl

theorem takers_map_outline (candidates : List Candidate) :
    takers v kind (candidates.map Candidate.outline) shapes =
      (takers v kind candidates shapes).map Applied.outline := by
  simp only [takers, callable_map_outline, List.filterMap_map, List.map_filterMap]
  apply List.filterMap_congr
  intro c _
  simp only [Function.comp_apply, apply_outline]
  cases apply v shapes c <;> rfl

theorem rejections_map_outline (candidates : List Candidate) :
    rejections v kind (candidates.map Candidate.outline) shapes =
      rejections v kind candidates shapes := by
  simp only [rejections, callable_map_outline, List.filterMap_map]
  apply List.filterMap_congr
  intro c _
  simp only [Function.comp_apply, apply_outline]
  cases apply v shapes c <;> rfl

theorem tied_map_outline (applied : List Applied) :
    tied (applied.map Applied.outline) = (tied applied).map Applied.outline := by
  have sorted : (applied.map Applied.outline).mergeSort Applied.le =
      (applied.mergeSort Applied.le).map Applied.outline := by
    symm
    apply List.map_mergeSort
    intro a _ b _
    rfl
  rw [tied, tied, sorted]
  cases applied.mergeSort Applied.le with
  | nil => rfl
  | cons best rest =>
    simp only [List.map_cons]
    rw [← List.map_cons, List.filter_map]
    rfl

theorem dominant?_map_outline (count : Nat) (several : List Applied) :
    dominant? v count (several.map Applied.outline) =
      (dominant? v count several).map Applied.outline := by
  ext b
  rw [dominant?_eq_some_iff, Option.map_eq_some_iff, ← List.filterMap_eq_map, standsOut_filterMap]
  simp only [dominant?_eq_some_iff, Function.comp_apply, Option.some.injEq, forall_eq']
  constructor
  · rintro ⟨a, rfl, top⟩
    exact ⟨a, top, rfl⟩
  · rintro ⟨a, top, rfl⟩
    exact ⟨a, rfl, top⟩

theorem select_map_outline (candidates : List Candidate) :
    select v kind (candidates.map Candidate.outline) shapes =
      (select v kind candidates shapes).map Applied.outline := by
  rw [select_eq, select_eq]
  simp only [fitting_map_outline, callable_map_outline, takers_map_outline, rejections_map_outline,
    tied_map_outline, List.isEmpty_map, List.map_map, List.filterMap_map]
  split
  · rfl
  · split
    · rfl
    · match tied (takers v kind candidates shapes) with
      | [] => rfl
      | [only] => rfl
      | first :: second :: rest =>
        simp only [List.map_cons]
        rw [← List.map_cons, ← List.map_cons, dominant?_map_outline]
        cases dominant? v shapes.length (first :: second :: rest) with
        | none =>
          simp only [Option.map_none, List.map_map]
          rfl
        | some winner => rfl

end Candidates

end Linkage.Call
