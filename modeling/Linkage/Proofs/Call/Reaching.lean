import Linkage.Call.Arguments
import Linkage.Proofs.Outcome

/-!
Which shapes reach which types, without their costs: a widening between primitives, a class above
the own class of the shape, a box. An optional is reached by whatever reaches what it holds.
-/
namespace Linkage

theorem Primitive.ofWrapper?_eq_some_iff {name : String} {p : Primitive} :
    Primitive.ofWrapper? name = some p ↔ name = p.wrapper := by
  constructor
  · intro found
    have same := List.find?_some found
    exact (beq_iff_eq.mp same).symm
  · rintro rfl
    cases p <;> rfl

theorem Primitive.wrapper_inj {p q : Primitive} : p.wrapper = q.wrapper ↔ p = q := by
  rw [← Primitive.ofWrapper?_eq_some_iff, Primitive.ofWrapper?_eq_some_iff.mpr rfl,
    Option.some.injEq]

theorem mem_breadthFirst_of_mem_seen {next : String → List String} {entry : String × Nat}
    (fuel : Nat) {queue seen : List (String × Nat)} (known : entry ∈ seen) :
    entry ∈ breadthFirst next fuel queue seen := by
  induction fuel generalizing queue seen with
  | zero => exact known
  | succ fuel ih =>
    cases queue with
    | nil => exact known
    | cons first queue =>
      rw [breadthFirst]
      split
      · exact ih known
      · exact ih (List.mem_append_left _ known)

namespace ClassView
variable (v : ClassView) (name : String)

theorem mem_ancestry_self : (name, 0) ∈ v.ancestry name := by
  have step : v.ancestry name = breadthFirst v.supertypes (v.searchBound - 1)
      ((v.supertypes name).map fun n => (n, 1)) [(name, 0)] := rfl
  rw [step]
  exact mem_breadthFirst_of_mem_seen _ (by simp)

theorem isSubtype_refl : v.isSubtype name name = true := by
  simp only [isSubtype, distance]
  cases found : (v.ancestry name).find? (·.1 == name) with
  | some entry => rfl
  | none => simpa using List.find?_eq_none.mp found _ (v.mem_ancestry_self name)

theorem isSubtype_objectClass : v.isSubtype name objectClass = true := by
  simp only [isSubtype, distance]
  split <;> simp

end ClassView

namespace Call

open Outcome

def Reaches (v : ClassView) (shape : Shape) (t : Ty) : Prop := ∃ c, classify v shape t = .ok c

/-- A primitive stands where another is expected. -/
def Widens (source target : Primitive) : Prop :=
  source = target ∨ ∃ distance, wideningDistance source target = .ok distance

/-- The classes that a list or a set can stand for. -/
def sequenceClasses : List String :=
  [listClass, setClass, collectionClass, iterableClass, objectClass]

/-- A value of the shape can stand where a class that is no optional is expected. -/
def Assignable (v : ClassView) (name : String) : Shape → Prop
  | .null => True
  | .string => v.isSubtype stringClass name = true ∨ v.isEnum name = true
  | .list | .set => name ∈ sequenceClasses
  | .map => name = mapClass ∨ name = objectClass
  | .object actual => v.isSubtype actual name = true ∨
      ∃ source target, actual = Primitive.wrapper source ∧ name = Primitive.wrapper target ∧
        ∃ distance, wideningDistance source target = .ok distance
  | shape => ∃ source, shape.primitive? = some source ∧
      ((∃ target, name = Primitive.wrapper target ∧ Widens source target) ∨
        ((∀ target, name ≠ Primitive.wrapper target) ∧ v.isSubtype source.wrapper name = true))

theorem assignable_boxed_iff {v : ClassView} {name : String} {shape : Shape} {source : Primitive}
    (starts : shape.primitive? = some source) (plain : ∀ actual, shape ≠ .object actual) :
    Assignable v name shape ↔
      (∃ target, name = Primitive.wrapper target ∧ Widens source target) ∨
        ((∀ target, name ≠ Primitive.wrapper target) ∧ v.isSubtype source.wrapper name = true) := by
  cases shape with
  | object actual => exact absurd rfl (plain actual)
  | null | string | list | set | map => cases starts
  | bool | int | long | double | char => simp [Assignable, starts]

theorem sequenceDistance?_eq_none_iff {own : String} (sequence : own ∈ sequenceClasses)
    (name : String) :
    sequenceDistance? own name = none ↔ name ∉ sequenceClasses := by
  simp only [sequenceClasses, List.mem_cons, List.not_mem_nil, or_false] at sequence ⊢
  unfold sequenceDistance?
  split
  · rename_i same
    simp [same, sequence]
  · split
    · rename_i member
      rcases member with rfl | rfl | rfl <;> simp
    · rename_i others
      rw [not_or, not_or] at others
      split
      · rename_i same
        simp [same]
      · split <;> simp [*]

theorem widens_ok_iff {source target : Primitive} {f : Nat → Conversion} :
    (∃ c, (do
      let distance ← if target = source then pure 0 else wideningDistance source target
      pure (f distance)) = Except.ok c) ↔ Widens source target := by
  by_cases same : target = source
  · simp [same, Widens, pure, Except.pure, Bind.bind, Except.bind]
  · simp only [if_neg same, Widens, Ne.symm same, false_or]
    cases wideningDistance source target <;> simp [pure, Except.pure, Bind.bind, Except.bind]

theorem wrapper_eq_none_iff {name : String} :
    Primitive.ofWrapper? name = none ↔ ∀ target : Primitive, name ≠ target.wrapper := by
  simp [Option.eq_none_iff_forall_ne_some, Primitive.ofWrapper?_eq_some_iff]

/-- A shape that starts from a primitive and is no object goes into the box of a primitive that
it widens to, or into its own where a class above that box is expected. -/
theorem classifyClass_boxed_ok_iff {v : ClassView} {shape : Shape} {name : String} {declared : Ty}
    {source : Primitive} (starts : shape.primitive? = some source)
    (plain : ∀ actual, shape ≠ .object actual) :
    (∃ c, classifyClass v shape name declared = .ok c) ↔ Assignable v name shape := by
  rw [assignable_boxed_iff starts plain]
  cases boxes : Primitive.ofWrapper? name with
  | some target =>
    obtain rfl := Primitive.ofWrapper?_eq_some_iff.mp boxes
    have opened : classifyClass v shape target.wrapper declared = (do
        let distance ← if target = source then pure 0 else wideningDistance source target
        pure (.via .boxing distance)) := by
      cases shape with
      | object actual => exact absurd rfl (plain actual)
      | null | string | list | set | map => cases starts
      | bool | int | long | double | char =>
        cases starts
        simp only [classifyClass, Shape.primitive?, boxes]
    rw [opened, widens_ok_iff]
    simp [Primitive.wrapper_inj]
  | none =>
    have others := wrapper_eq_none_iff.mp boxes
    have opened : classifyClass v shape name declared =
        ((v.acceptsBoxed name source).map (Conversion.via .boxing)).elim
          (.error (.notAssignable shape declared)) .ok := by
      cases shape with
      | object actual => exact absurd rfl (plain actual)
      | null | string | list | set | map => cases starts
      | bool | int | long | double | char =>
        cases starts
        simp only [classifyClass, Shape.primitive?, boxes]
        cases v.acceptsBoxed name _ <;> rfl
    rw [opened]
    simp only [ClassView.acceptsBoxed, ClassView.isSubtype]
    cases v.distance source.wrapper name <;> simp [others]

theorem classifyClass_ok_iff {v : ClassView} {shape : Shape} {name : String} {declared : Ty} :
    (∃ c, classifyClass v shape name declared = .ok c) ↔ Assignable v name shape := by
  cases shape with
  | null => simp [classifyClass, Assignable]
  | string =>
    simp only [classifyClass, Assignable, ClassView.isSubtype]
    cases v.distance stringClass name <;> cases v.isEnum name <;> simp
  | list =>
    simp only [classifyClass, Assignable, if_true]
    have known := @sequenceDistance?_eq_none_iff listClass (by decide) name
    cases outcome : sequenceDistance? listClass name <;> simp_all
  | set =>
    simp only [classifyClass, Assignable]
    have known := @sequenceDistance?_eq_none_iff setClass (by decide) name
    cases outcome : sequenceDistance? setClass name <;> simp_all
  | map =>
    simp only [classifyClass, Assignable]
    split
    · simp [*]
    · split <;> simp [*]
  | object actual =>
    simp only [classifyClass, Assignable, ClassView.isSubtype]
    match v.distance actual name with
    | some 0 => simp
    | some (d + 1) => simp
    | none =>
      cases own : Primitive.ofWrapper? actual with
      | none =>
        have others := wrapper_eq_none_iff.mp own
        simp [others]
      | some source =>
        obtain rfl := Primitive.ofWrapper?_eq_some_iff.mp own
        cases boxes : Primitive.ofWrapper? name with
        | none =>
          have others := wrapper_eq_none_iff.mp boxes
          simp [others]
        | some target =>
          obtain rfl := Primitive.ofWrapper?_eq_some_iff.mp boxes
          cases outcome : wideningDistance source target <;>
            simp [Primitive.wrapper_inj, outcome, pure, Except.pure, Bind.bind, Except.bind]
  | bool | int | long | double | char => exact classifyClass_boxed_ok_iff rfl (by simp)

theorem classifyPrimitive_ok_iff {shape : Shape} {target : Primitive} :
    (∃ c, classifyPrimitive shape target = .ok c) ↔
      ∃ source, shape.primitive? = some source ∧ Widens source target := by
  have flip : ∀ source : Primitive, source = target ↔ target = source := fun _ => eq_comm
  cases shape with
  | null => simp [classifyPrimitive, Shape.primitive?]
  | string | list | set | map => simp [classifyPrimitive, Shape.primitive?]
  | object actual =>
    simp only [classifyPrimitive, Shape.primitive?]
    cases Primitive.ofWrapper? actual with
    | none => simp
    | some source =>
      simp only [flip, widens_ok_iff]
      simp
  | bool | int | long | double | char =>
    simp only [classifyPrimitive, Shape.primitive?, Option.some.injEq, exists_eq_left', Widens]
    split
    · simp [*, pure, Except.pure]
    · rename_i differ
      simp only [differ, false_or]
      cases wideningDistance _ target <;> simp [pure, Except.pure, Bind.bind, Except.bind]

section Reaches
variable {v : ClassView} {shape : Shape}

theorem reaches_primitive_iff {target : Primitive} : Reaches v shape (.primitive target) ↔
    ∃ source, shape.primitive? = some source ∧ Widens source target := by
  rw [Reaches, ← classifyPrimitive_ok_iff]
  simp only [classify]

theorem reaches_reference_iff {name : String} {args : List Ty} (plain : name ≠ optionalClass) :
    Reaches v shape (.reference name args) ↔ Assignable v name shape := by
  rw [Reaches, ← @classifyClass_ok_iff v shape name (.reference name args)]
  simp [classify, plain]

theorem reaches_array_iff {element : Ty} {dimensions : Nat} :
    Reaches v shape (.array element dimensions) ↔
      shape = .null ∨ shape = .list ∨ shape = .set := by
  cases shape <;> simp [Reaches, classify]

theorem not_reaches_void : ¬ Reaches v shape .void := by
  simp [Reaches, classify]

/-- Whatever there is can stand for an object. -/
theorem reaches_object : Reaches v shape .object := by
  rw [Ty.object, Ty.named, reaches_reference_iff (by decide)]
  have unboxed : ∀ target : Primitive, objectClass ≠ target.wrapper := by
    intro target
    cases target <;> decide
  cases shape with
  | list | set => simp [Assignable, sequenceClasses]
  | null | string | map | object => simp [Assignable, ClassView.isSubtype_objectClass]
  | bool | int | long | double | char =>
    simp [Assignable, Shape.primitive?, unboxed, ClassView.isSubtype_objectClass]

end Reaches

/-- A type that is neither an optional nor a variable. -/
def Core : Ty → Prop
  | .reference name _ => name ≠ optionalClass
  | .variable _ => False
  | _ => True

mutual

theorem layers_core : (t : Ty) → Core (layers t).2
  | .reference name args => by
    rw [layers]
    split
    · exact layersWithin_core args
    · assumption
  | .variable _ => by simp [layers, Core, Ty.object, Ty.named, objectClass, optionalClass]
  | .primitive _ => trivial
  | .array _ _ => trivial
  | .void => trivial

theorem layersWithin_core : (args : List Ty) → Core (layersWithin args).2
  | [] => by simp [layersWithin, Core, Ty.object, Ty.named, objectClass, optionalClass]
  | t :: _ => by
    rw [layersWithin]
    exact layers_core t

end

section Layers
variable {v : ClassView} {shape : Shape}

theorem reaches_variable {name : String} : Reaches v shape (.variable name) := by
  have object : Assignable v objectClass shape :=
    (reaches_reference_iff (by decide)).mp reaches_object
  simpa only [Reaches, classify] using classifyClass_ok_iff.mpr object

theorem reaches_of_classifyContent {t : Ty} {rest : List Ty}
    (content : ∃ cost, classifyContent v shape (t :: rest) = .ok cost) : Reaches v shape t := by
  obtain ⟨cost, content⟩ := content
  match t with
  | .variable _ => exact reaches_variable
  | .primitive _ | .reference _ _ | .array _ _ | .void =>
    simp only [classifyContent, map_eq_ok_iff] at content
    obtain ⟨c, reaches, _⟩ := content
    exact ⟨c, reaches⟩

mutual

/-- Nothing and an optional reach an optional by themselves; all else has to reach what is inside
the optionals. -/
theorem Reaches.core {t : Ty} (reaches : Reaches v shape t)
    (inside : (layers t).1 = 0 ∨ (shape ≠ .null ∧ shape ≠ .object optionalClass)) :
    Reaches v shape (layers t).2 := by
  match t with
  | .primitive _ => exact reaches
  | .array _ _ => exact reaches
  | .void => exact reaches
  | .variable _ => exact reaches_object
  | .reference name args =>
    rw [layers] at inside ⊢
    by_cases optional : name = optionalClass
    · simp only [if_pos optional, Nat.succ_ne_zero, false_or] at inside ⊢
      obtain ⟨c, reaches⟩ := reaches
      simp only [classify, optional, inside, ne_eq, not_false_eq_true, and_self, if_true,
        if_false] at reaches
      split at reaches
      · rename_i cost content
        exact content_reaches ⟨cost, content⟩ inside
      · cases reaches
    · rw [if_neg optional]
      exact reaches

theorem content_reaches {args : List Ty} (content : ∃ cost, classifyContent v shape args = .ok cost)
    (inside : shape ≠ .null ∧ shape ≠ .object optionalClass) :
    Reaches v shape (layersWithin args).2 := by
  match args with
  | [] => exact reaches_object
  | _ :: _ => exact (reaches_of_classifyContent content).core (Or.inr inside)

end

end Layers

end Call

end Linkage
