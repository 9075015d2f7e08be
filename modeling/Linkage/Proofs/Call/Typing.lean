import Linkage.Proofs.Call.Agreement

/-!
When adapted arguments are well typed. `Typed` says, at every depth, that a host value can stand
where a type is declared. Resolution looks at the shapes of whole arguments only, so that their
parts are passed on as they are; `Suits` says which values come out typed nevertheless, and
`adapted_typed_iff` that it is exactly these.
-/
namespace Linkage

namespace HostValue

def primitive? : HostValue → Option Primitive
  | .boolean _ => some .boolean
  | .byte _ => some .byte
  | .short _ => some .short
  | .char _ => some .char
  | .int _ => some .int
  | .long _ => some .long
  | .float _ => some .float
  | .double _ => some .double
  | _ => none

/-- The class of an object without parts. -/
def class? : HostValue → Option String
  | .string _ => some stringClass
  | .enum className _ => some className
  | .object className _ => some className
  | .boxed inner => inner.primitive?.map Primitive.wrapper
  | .absent => some Call.optionalClass
  | _ => none

/-- Values that are the same are primitives of one type, or none. -/
theorem same_primitive? {x y : HostValue} (alike : x.same y = true) :
    x.primitive? = y.primitive? := by
  cases x <;> cases y <;> simp [same, primitive?] at alike ⊢

theorem same_class? {x y : HostValue} (alike : x.same y = true) : x.class? = y.class? := by
  cases x <;> cases y <;> simp [same, class?] at alike ⊢
  · rw [same_primitive? alike]
  · exact alike.1
  · exact alike.1

theorem exists_same_of_sameItems {xs ys : List HostValue} (alike : sameItems xs ys = true) :
    ∀ y ∈ ys, ∃ x ∈ xs, x.same y = true := by
  induction xs generalizing ys with
  | nil =>
    cases ys with
    | nil => simp
    | cons y ys => cases alike
  | cons x xs ih =>
    cases ys with
    | nil => cases alike
    | cons y ys =>
      simp only [sameItems, Bool.and_eq_true] at alike
      intro z member
      rcases List.mem_cons.mp member with rfl | member
      · exact ⟨x, List.mem_cons_self, alike.1⟩
      · obtain ⟨w, inside, same⟩ := ih alike.2 z member
        exact ⟨w, List.mem_cons_of_mem _ inside, same⟩

theorem exists_same_of_sameEntries {xs ys : List (HostValue × HostValue)}
    (alike : sameEntries xs ys = true) :
    ∀ e ∈ ys, ∃ d ∈ xs, d.1.same e.1 = true ∧ d.2.same e.2 = true := by
  induction xs generalizing ys with
  | nil =>
    cases ys with
    | nil => simp
    | cons y ys => cases alike
  | cons x xs ih =>
    cases ys with
    | nil => cases alike
    | cons y ys =>
      simp only [sameEntries, Bool.and_eq_true] at alike
      intro z member
      rcases List.mem_cons.mp member with rfl | member
      · exact ⟨x, List.mem_cons_self, alike.1⟩
      · obtain ⟨w, inside, same⟩ := ih alike.2 z member
        exact ⟨w, List.mem_cons_of_mem _ inside, same⟩

/-- A property that same values share holds of all values once it holds of those that are kept. -/
theorem forall_dedup_iff {P : HostValue → Prop} (shared : ∀ x y, x.same y = true → P x → P y)
    (items : List HostValue) : (∀ x ∈ dedup items, P x) ↔ ∀ x ∈ items, P x := by
  have folded : ∀ kept, (∀ x ∈ items.foldl (fun kept x =>
      if kept.any (·.same x) then kept else kept ++ [x]) kept, P x) ↔
        (∀ x ∈ kept, P x) ∧ ∀ x ∈ items, P x := by
    induction items with
    | nil => simp
    | cons item items ih =>
      intro kept
      rw [List.foldl_cons, ih, List.forall_mem_cons]
      split
      · rename_i known
        obtain ⟨k, member, alike⟩ := List.any_eq_true.mp known
        constructor
        · rintro ⟨typed, rest⟩
          exact ⟨typed, shared k item alike (typed k member), rest⟩
        · rintro ⟨typed, _, rest⟩
          exact ⟨typed, rest⟩
      · rw [List.forall_mem_append, List.forall_mem_singleton, and_assoc]
  exact (folded []).trans (by simp)

end HostValue

namespace Call

open Outcome

/-- A host value can stand where the type is declared, and so can its parts. An object of a wrapper
class can also stand where its primitive widens to. -/
inductive Typed (v : ClassView) : HostValue → Ty → Prop where
  | null {t : Ty} (reference : t.isReference = true) : Typed v .null t
  | primitive {x : HostValue} {p : Primitive} (own : x.primitive? = some p) :
      Typed v x (.primitive p)
  | unboxed {className : String} {handle : UInt64} {p : Primitive}
      (reaches : Reaches v (.object className) (.primitive p)) :
      Typed v (.object className handle) (.primitive p)
  | widened {source target : Primitive} {handle : UInt64} {distance : Nat} {args : List Ty}
      (widens : wideningDistance source target = .ok distance) :
      Typed v (.object source.wrapper handle) (.reference target.wrapper args)
  | simple {x : HostValue} {own name : String} {args : List Ty} (kind : x.class? = some own)
      (above : v.isSubtype own name = true) : Typed v x (.reference name args)
  | list {items : List HostValue} {name : String} {args : List Ty}
      (above : v.isSubtype listClass name = true)
      (typed : ∀ x ∈ items, Typed v x (elementType args 0)) :
      Typed v (.list items) (.reference name args)
  | set {items : List HostValue} {name : String} {args : List Ty}
      (above : v.isSubtype setClass name = true)
      (typed : ∀ x ∈ items, Typed v x (elementType args 0)) :
      Typed v (.set items) (.reference name args)
  | map {entries : List (HostValue × HostValue)} {name : String} {args : List Ty}
      (above : v.isSubtype mapClass name = true)
      (keys : ∀ e ∈ entries, Typed v e.1 (elementType args 0))
      (values : ∀ e ∈ entries, Typed v e.2 (elementType args 1)) :
      Typed v (.map entries) (.reference name args)
  | present {x : HostValue} {name : String} {args : List Ty}
      (above : v.isSubtype optionalClass name = true) (typed : Typed v x (elementType args 0)) :
      Typed v (.present x) (.reference name args)
  | array {items : List HostValue} {component element : Ty} {dimensions : Nat}
      (own : component = componentType (.array element dimensions))
      (typed : ∀ x ∈ items, Typed v x component) :
      Typed v (.array component items) (.array element dimensions)
  | object {x : HostValue} {name : String} (typed : Typed v x .object) : Typed v x (.variable name)

/-- What is the same as a typed value is typed. -/
theorem Typed.of_same {v : ClassView} {x y : HostValue} {t : Ty} (typed : Typed v x t)
    (alike : x.same y = true) : Typed v y t := by
  induction typed generalizing y with
  | null reference =>
    cases y <;> simp [HostValue.same] at alike
    exact .null reference
  | primitive own => exact .primitive (HostValue.same_primitive? alike ▸ own)
  | unboxed reaches =>
    cases y <;> simp [HostValue.same] at alike
    obtain ⟨rfl, rfl⟩ := alike
    exact .unboxed reaches
  | widened widens =>
    cases y <;> simp [HostValue.same] at alike
    obtain ⟨rfl, rfl⟩ := alike
    exact .widened widens
  | simple own above => exact .simple (HostValue.same_class? alike ▸ own) above
  | list above _ ih =>
    cases y <;> simp [HostValue.same] at alike
    refine .list above fun z member => ?_
    obtain ⟨x, inside, same⟩ := HostValue.exists_same_of_sameItems alike z member
    exact ih x inside same
  | set above _ ih =>
    cases y <;> simp [HostValue.same] at alike
    refine .set above fun z member => ?_
    obtain ⟨x, inside, same⟩ := HostValue.exists_same_of_sameItems alike z member
    exact ih x inside same
  | map above _ _ keys values =>
    cases y <;> simp [HostValue.same] at alike
    have pairs := HostValue.exists_same_of_sameEntries alike
    refine .map above (fun e member => ?_) (fun e member => ?_)
    · obtain ⟨d, inside, same, _⟩ := pairs e member
      exact keys d inside same
    · obtain ⟨d, inside, _, same⟩ := pairs e member
      exact values d inside same
  | present above _ ih =>
    cases y <;> simp [HostValue.same] at alike
    exact .present above (ih alike)
  | array own _ ih =>
    cases y <;> simp [HostValue.same] at alike
    obtain ⟨rfl, alike⟩ := alike
    refine .array own fun z member => ?_
    obtain ⟨x, inside, same⟩ := HostValue.exists_same_of_sameItems alike z member
    exact ih x inside same
  | object _ ih => exact .object (ih alike)

/-- The type of the items of a list or a set, or of the keys of a map. -/
def itemType : Ty → Ty
  | .reference _ args => elementType args 0
  | t => componentType t

/-- The type of the values of a map. -/
def entryType : Ty → Ty
  | .reference _ args => elementType args 1
  | _ => .object

/-- What a list or a set is made into can stand where the type is expected. -/
def Holds (v : ClassView) (isSet : Bool) : Ty → Prop
  | .reference name _ =>
    v.isSubtype (if name = setClass ∨ (isSet ∧ name ≠ listClass) then setClass else listClass)
      name = true
  | .array .. => True
  | _ => False

/-- A map can stand where the type is expected. -/
def HoldsMap (v : ClassView) : Ty → Prop
  | .reference name _ => v.isSubtype mapClass name = true
  | _ => False

/-- Numbers, characters and truth values are converted where the type is expected. -/
def Converts : Ty → Prop
  | .primitive _ => True
  | .reference name _ => ∃ p : Primitive, name = p.wrapper
  | _ => False

mutual

/-- The value and all its parts can stand where the types at their places are expected, optionals
left aside: objects, and strings and boxes where nothing is converted, have to reach the type. -/
def Suits (v : ClassView) : Value → Ty → Prop
  | .null, _ => True
  | .object className _, t =>
    (0 < (layers t).1 ∧ className = optionalClass) ∨ Reaches v (.object className) (layers t).2
  | .list items, t => Holds v false (layers t).2 ∧ ItemsSuit v items (itemType (layers t).2)
  | .set items, t => Holds v true (layers t).2 ∧ ItemsSuit v items (itemType (layers t).2)
  | .map entries, t => HoldsMap v (layers t).2 ∧
      EntriesSuit v entries (itemType (layers t).2) (entryType (layers t).2)
  | value, t => Converts (layers t).2 ∨ Reaches v value.shape (layers t).2

def ItemsSuit (v : ClassView) : List Value → Ty → Prop
  | [], _ => True
  | item :: rest, element => Suits v item element ∧ ItemsSuit v rest element

def EntriesSuit (v : ClassView) : List (Value × Value) → Ty → Ty → Prop
  | [], _, _ => True
  | (k, item) :: rest, key, element =>
    Suits v k key ∧ Suits v item element ∧ EntriesSuit v rest key element

end

section Inversion
variable {v : ClassView} {name : String} {args : List Ty}

theorem typed_list_iff {items : List HostValue} : Typed v (.list items) (.reference name args) ↔
    v.isSubtype listClass name = true ∧ ∀ x ∈ items, Typed v x (elementType args 0) := by
  constructor
  · intro typed
    cases typed with
    | simple own _ => cases own
    | list above typed => exact ⟨above, typed⟩
  · rintro ⟨above, typed⟩
    exact .list above typed

theorem typed_set_iff {items : List HostValue} : Typed v (.set items) (.reference name args) ↔
    v.isSubtype setClass name = true ∧ ∀ x ∈ items, Typed v x (elementType args 0) := by
  constructor
  · intro typed
    cases typed with
    | simple own _ => cases own
    | set above typed => exact ⟨above, typed⟩
  · rintro ⟨above, typed⟩
    exact .set above typed

theorem typed_map_iff {entries : List (HostValue × HostValue)} :
    Typed v (.map entries) (.reference name args) ↔ v.isSubtype mapClass name = true ∧
      ∀ e ∈ entries, Typed v e.1 (elementType args 0) ∧ Typed v e.2 (elementType args 1) := by
  constructor
  · intro typed
    cases typed with
    | simple own _ => cases own
    | map above keys values => exact ⟨above, fun e member => ⟨keys e member, values e member⟩⟩
  · rintro ⟨above, typed⟩
    exact .map above (fun e member => (typed e member).1) (fun e member => (typed e member).2)

theorem typed_present_iff {x : HostValue} : Typed v (.present x) (.reference name args) ↔
    v.isSubtype optionalClass name = true ∧ Typed v x (elementType args 0) := by
  constructor
  · intro typed
    cases typed with
    | simple own _ => cases own
    | present above typed => exact ⟨above, typed⟩
  · rintro ⟨above, typed⟩
    exact .present above typed

theorem typed_array_iff {items : List HostValue} {component element : Ty} {dimensions : Nat}
    (own : component = componentType (.array element dimensions)) :
    Typed v (.array component items) (.array element dimensions) ↔
      ∀ x ∈ items, Typed v x component := by
  constructor
  · intro typed
    cases typed with
    | array _ typed => exact typed
  · exact .array own

theorem not_typed_array_reference {items : List HostValue} {component : Ty} :
    ¬ Typed v (.array component items) (.reference name args) := by
  intro typed
  cases typed with
  | simple own _ => cases own

theorem typed_simple_iff {x : HostValue} {own : String} (kind : x.class? = some own)
    (plain : ∀ className handle, x ≠ .object className handle) :
    Typed v x (.reference name args) ↔ v.isSubtype own name = true := by
  constructor
  · intro typed
    cases typed with
    | simple own' above =>
      obtain rfl := Option.some.inj (kind.symm.trans own')
      exact above
    | widened => exact absurd rfl (plain _ _)
    | null | list | set | map | present => cases kind
  · exact .simple kind

theorem typed_object_iff {className : String} {handle : UInt64} {t : Ty} (core : Core t) :
    Typed v (.object className handle) t ↔ Reaches v (.object className) t := by
  match t with
  | .primitive p =>
    constructor
    · intro typed
      cases typed with
      | primitive own => cases own
      | unboxed reaches => exact reaches
    · exact .unboxed
  | .reference name args =>
    rw [reaches_reference_iff core]
    constructor
    · intro typed
      cases typed with
      | widened widens => exact Or.inr ⟨_, _, rfl, rfl, _, widens⟩
      | simple own above =>
        obtain rfl := Option.some.inj own
        exact Or.inl above
    · rintro (above | ⟨source, target, rfl, rfl, distance, widens⟩)
      · exact .simple rfl above
      · exact .widened widens
  | .array _ _ =>
    rw [reaches_array_iff]
    constructor
    · intro typed
      cases typed
    · simp
  | .variable _ => exact core.elim
  | .void =>
    constructor
    · intro typed
      cases typed
    · exact fun reaches => absurd reaches not_reaches_void

end Inversion

section Optionals
variable {v : ClassView} {x : HostValue}

theorem typed_variable_iff {name : String} : Typed v x (.variable name) ↔ Typed v x .object := by
  constructor
  · intro typed
    cases typed with
    | null => exact .null rfl
    | object typed => exact typed
  · exact .object

mutual

/-- Optionals around a value are typed as what they hold. -/
theorem typed_wrapped_iff {t : Ty} :
    Typed v (wrapped (layers t).1 x) t ↔ Typed v x (layers t).2 := by
  match t with
  | .primitive _ | .array _ _ | .void => exact Iff.rfl
  | .variable _ => exact typed_variable_iff
  | .reference name args =>
    rw [layers]
    split
    · rename_i optional
      rw [wrapped, typed_present_iff, optional, v.isSubtype_refl, typed_wrapped_within_iff]
      simp
    · exact Iff.rfl

theorem typed_wrapped_within_iff {args : List Ty} :
    Typed v (wrapped (layersWithin args).1 x) (elementType args 0) ↔
      Typed v x (layersWithin args).2 := by
  match args with
  | [] => exact Iff.rfl
  | .variable _ :: _ => exact Iff.rfl
  | .primitive p :: _ => exact typed_wrapped_iff (t := .primitive p)
  | .reference name inner :: _ => exact typed_wrapped_iff (t := .reference name inner)
  | .array element dimensions :: _ => exact typed_wrapped_iff (t := .array element dimensions)
  | .void :: _ => exact typed_wrapped_iff (t := .void)

end

theorem eq_optional_of_layers {t : Ty} (wrapped_type : 0 < (layers t).1) :
    ∃ args, t = .reference optionalClass args := by
  match t with
  | .primitive _ | .array _ _ | .variable _ | .void => cases wrapped_type
  | .reference name args =>
    rw [layers] at wrapped_type
    split at wrapped_type
    · rename_i optional
      exact ⟨args, by rw [optional]⟩
    · cases wrapped_type

/-- An optional that is there already is typed as one, and so is the empty one. -/
theorem typed_optional {t : Ty} (wrapped_type : 0 < (layers t).1)
    (kind : x.class? = some optionalClass) : Typed v x t := by
  obtain ⟨args, rfl⟩ := eq_optional_of_layers wrapped_type
  exact .simple kind (v.isSubtype_refl _)

end Optionals

section Simple
variable {v : ClassView} {value : Value} {t : Ty} {path : String} {x : HostValue}

theorem integral?_primitive? {target : Primitive} {n : Int} (held : integral? target n = some x) :
    x.primitive? = some target := by
  cases target <;> grind [integral?, HostValue.primitive?]

theorem convertNumber_primitive? {number : Binary} {target : Primitive}
    (adapted : convertNumber number target path = .ok x) : x.primitive? = some target := by
  have whole := @integral?_primitive? x target
  cases target <;> grind [convertNumber, HostValue.primitive?]

theorem convertLong_primitive? {n : Int64} {target : Primitive}
    (adapted : convertLong n target path = .ok x) : x.primitive? = some target := by
  have whole := @integral?_primitive? x target
  cases target <;> grind [convertLong, HostValue.primitive?]

theorem convertChar_primitive? {c : Char} {target : Primitive}
    (adapted : convertChar c target path = .ok x) : x.primitive? = some target := by
  cases target <;> grind [convertChar, HostValue.primitive?]

/-- What is converted to a primitive type is of that type; only objects are passed on unopened. -/
theorem adaptPrimitive_primitive? {target : Primitive}
    (adapted : adaptPrimitive value target path = .ok x)
    (plain : ∀ className handle, value ≠ .object className handle) :
    x.primitive? = some target := by
  cases value with
  | null | string | list | set | map => cases adapted
  | object className handle => exact absurd rfl (plain className handle)
  | number => exact convertNumber_primitive? adapted
  | long => exact convertLong_primitive? adapted
  | char => exact convertChar_primitive? adapted
  | bool b =>
    simp only [adaptPrimitive] at adapted
    split at adapted
    · rename_i same
      cases adapted
      rw [same]
      rfl
    · cases adapted

theorem boxNumber_class? (number : Binary) {source : Primitive}
    (starts : number.shape.primitive? = some source) :
    (boxNumber number).class? = some source.wrapper := by
  rcases number.shape_cases with ⟨n, whole, _, shape⟩ | ⟨n, whole, _, shape⟩ | shape
  · rw [shape] at starts
    cases starts
    simp [boxNumber, shape, whole, HostValue.class?, HostValue.primitive?]
  · rw [shape] at starts
    cases starts
    simp [boxNumber, shape, whole, HostValue.class?, HostValue.primitive?]
  · rw [shape] at starts
    cases starts
    simp [boxNumber, shape, HostValue.class?, HostValue.primitive?]

theorem adaptSimple_null_typed (core : Core t) (adapted : adaptSimple v .null t path = .ok x) :
    Typed v x t := by
  match t with
  | .primitive _ => cases adapted
  | .array _ _ =>
    cases adapted
    exact .null rfl
  | .variable _ => exact core.elim
  | .void => cases adapted
  | .reference name args =>
    simp only [adaptSimple] at adapted
    split at adapted <;> cases adapted <;> exact .null rfl

theorem adaptSimple_object_eq {className : String} {handle : UInt64}
    (adapted : adaptSimple v (.object className handle) t path = .ok x) :
    x = .object className handle := by
  match t with
  | .array _ _ => cases adapted
  | .void => cases adapted
  | .variable _ =>
    cases adapted
    rfl
  | .primitive p =>
    simp only [adaptSimple, adaptPrimitive] at adapted
    split at adapted <;> cases adapted
    rfl
  | .reference name args =>
    simp only [adaptSimple] at adapted
    split at adapted <;> cases adapted <;> rfl

/-- In its own box, a value is typed where it reaches the class. -/
theorem typed_boxed_iff {name : String} {args : List Ty} {source : Primitive}
    (core : Core (.reference name args)) (starts : value.shape.primitive? = some source)
    (plain : ∀ actual, value.shape ≠ .object actual)
    (unboxed : ∀ p : Primitive, name ≠ p.wrapper) (kind : x.class? = some source.wrapper)
    (own : ∀ className handle, x ≠ .object className handle) :
    Typed v x (.reference name args) ↔ Reaches v value.shape (.reference name args) := by
  rw [typed_simple_iff kind own, reaches_reference_iff core, assignable_boxed_iff starts plain]
  simp [unboxed]

theorem adaptReference_typed_iff {name : String} {args : List Ty}
    (core : Core (.reference name args)) (unboxed : ∀ p : Primitive, name ≠ p.wrapper)
    (adapted : adaptReference v value name path = .ok x) (given : value ≠ .null)
    (plain : ∀ className handle, value ≠ .object className handle) :
    Typed v x (.reference name args) ↔ Reaches v value.shape (.reference name args) := by
  cases value with
  | null => exact absurd rfl given
  | object className handle => exact absurd rfl (plain className handle)
  | list | set | map => cases adapted
  | bool | long | char =>
    cases adapted
    exact typed_boxed_iff core rfl (by simp [Value.shape]) unboxed rfl (by simp)
  | number number =>
    cases adapted
    obtain ⟨source, starts, plain⟩ := number.shape_starts
    have kind := boxNumber_class? number starts
    refine typed_boxed_iff core starts plain unboxed kind ?_
    intro className handle same
    simp only [boxNumber] at same
    split at same <;> cases same
  | string s =>
    rw [reaches_reference_iff core]
    simp only [adaptReference, adaptEnum] at adapted
    split at adapted
    · rename_i enum
      split at adapted
      · cases adapted
        rw [typed_simple_iff rfl (by simp), v.isSubtype_refl]
        simp [Assignable, Value.shape, enum]
      · cases adapted
    · rename_i other
      cases adapted
      rw [typed_simple_iff rfl (by simp)]
      simp [Assignable, Value.shape, other]

/-- Numbers, characters, truth values and strings come out typed where they are converted and
where they reach the type. -/
theorem adaptSimple_typed_iff (core : Core t) (adapted : adaptSimple v value t path = .ok x)
    (given : value ≠ .null) (plain : ∀ className handle, value ≠ .object className handle) :
    Typed v x t ↔ Converts t ∨ Reaches v value.shape t := by
  match t with
  | .primitive p =>
    have own := adaptPrimitive_primitive? adapted plain
    simp [Converts, Typed.primitive own]
  | .array _ _ =>
    cases value with
    | null => exact absurd rfl given
    | bool | number | long | char | string | list | set | map | object => cases adapted
  | .variable _ => exact core.elim
  | .void => cases adapted
  | .reference name args =>
    simp only [adaptSimple] at adapted
    split at adapted
    · rename_i p boxes
      obtain rfl := Primitive.ofWrapper?_eq_some_iff.mp boxes
      obtain ⟨y, inner, rfl⟩ : ∃ y, adaptPrimitive value p path = .ok y ∧ .boxed y = x := by
        cases value with
        | null => exact absurd rfl given
        | object className handle => exact absurd rfl (plain className handle)
        | bool | number | long | char | string | list | set | map =>
          simpa only [adaptWrapper, map_eq_ok_iff] using adapted
      have own := adaptPrimitive_primitive? inner plain
      have kind : (HostValue.boxed y).class? = some p.wrapper := by
        simp [HostValue.class?, own]
      rw [typed_simple_iff kind (by simp), v.isSubtype_refl]
      simp [Converts, Primitive.wrapper_inj]
    · rename_i boxes
      have unboxed := wrapper_eq_none_iff.mp boxes
      rw [adaptReference_typed_iff core unboxed adapted given plain]
      simp [Converts, unboxed]

end Simple

section Parts
variable {v : ClassView}

theorem sequenceGoal_typed_iff {isSet : Bool} {t element : Ty} {gather : List HostValue → HostValue}
    (goal : sequenceGoal isSet t = .ok (element, gather)) (xs : List HostValue) :
    element = itemType t ∧
      (Typed v (gather xs) t ↔ Holds v isSet t ∧ ∀ x ∈ xs, Typed v x element) := by
  match t with
  | .primitive _ | .variable _ | .void => cases goal
  | .array e d =>
    cases goal
    exact ⟨rfl, by simp [Holds, typed_array_iff rfl]⟩
  | .reference name args =>
    simp only [sequenceGoal] at goal
    split at goal
    · cases goal
    · cases goal
      refine ⟨rfl, ?_⟩
      simp only [Holds]
      split
      · rw [typed_set_iff, HostValue.forall_dedup_iff fun x y alike typed => typed.of_same alike]
      · rw [typed_list_iff]

theorem mapGoal_typed_iff {t key element : Ty} (goal : mapGoal t = .ok (key, element))
    (entries : List (HostValue × HostValue)) :
    key = itemType t ∧ element = entryType t ∧ (Typed v (.map entries) t ↔
      HoldsMap v t ∧ ∀ e ∈ entries, Typed v e.1 key ∧ Typed v e.2 element) := by
  match t with
  | .primitive _ | .variable _ | .void | .array _ _ => cases goal
  | .reference name args =>
    simp only [mapGoal] at goal
    split at goal
    · cases goal
    · split at goal
      · cases goal
        exact ⟨rfl, rfl, typed_map_iff⟩
      · cases goal

mutual

/-- An adapted value is typed exactly where the value suits the type. -/
theorem adapt_typed_iff {value : Value} {t : Ty} {path : String} {x : HostValue}
    (adapted : adapt v value t path = .ok x) : Typed v x t ↔ Suits v value t := by
  have core := layers_core t
  match value with
  | .list items =>
    simp only [adapt] at adapted
    split at adapted
    · cases adapted
    · rename_i goal
      obtain ⟨xs, inner, rfl⟩ := map_eq_ok_iff.mp adapted
      obtain ⟨rfl, gathered⟩ := @sequenceGoal_typed_iff v _ _ _ _ goal xs
      rw [typed_wrapped_iff, gathered, adaptItems_typed_iff inner, Suits]
  | .set items =>
    simp only [adapt] at adapted
    split at adapted
    · cases adapted
    · rename_i goal
      obtain ⟨xs, inner, rfl⟩ := map_eq_ok_iff.mp adapted
      obtain ⟨rfl, gathered⟩ := @sequenceGoal_typed_iff v _ _ _ _ goal xs
      rw [typed_wrapped_iff, gathered, adaptItems_typed_iff inner, Suits]
  | .map entries =>
    simp only [adapt] at adapted
    split at adapted
    · cases adapted
    · rename_i goal
      obtain ⟨xs, inner, rfl⟩ := map_eq_ok_iff.mp adapted
      obtain ⟨rfl, rfl, gathered⟩ := @mapGoal_typed_iff v _ _ _ goal xs
      rw [typed_wrapped_iff, gathered, adaptEntries_typed_iff inner, Suits]
  | .null =>
    simp only [Suits, iff_true]
    simp only [adapt] at adapted
    split at adapted
    · rename_i optional
      cases adapted
      exact typed_optional optional rfl
    · rename_i plain
      have unwrapped := @typed_wrapped_iff v x t
      rw [Nat.eq_zero_of_not_pos plain] at unwrapped
      exact unwrapped.mpr (adaptSimple_null_typed core adapted)
  | .object className handle =>
    simp only [Suits]
    simp only [adapt] at adapted
    split at adapted
    · rename_i optional
      obtain ⟨optional, rfl⟩ := optional
      cases adapted
      exact iff_of_true (typed_optional optional rfl) (Or.inl ⟨optional, rfl⟩)
    · rename_i other
      obtain ⟨y, inner, rfl⟩ := map_eq_ok_iff.mp adapted
      rw [typed_wrapped_iff, adaptSimple_object_eq inner, typed_object_iff core]
      simp [other]
  | .bool _ | .number _ | .long _ | .char _ | .string _ =>
    simp only [adapt] at adapted
    obtain ⟨y, inner, rfl⟩ := map_eq_ok_iff.mp adapted
    rw [typed_wrapped_iff, adaptSimple_typed_iff core inner (by simp) (by simp)]
    simp only [Suits]

theorem adaptItems_typed_iff {items : List Value} {element : Ty} {path : String} {index : Nat}
    {xs : List HostValue} (adapted : adaptItems v items element path index = .ok xs) :
    (∀ x ∈ xs, Typed v x element) ↔ ItemsSuit v items element := by
  match items with
  | [] =>
    cases adapted
    simp [ItemsSuit]
  | item :: items =>
    simp only [adaptItems, bind_eq_ok_iff] at adapted
    obtain ⟨x, first, rest, others, adapted⟩ := adapted
    cases adapted
    rw [List.forall_mem_cons, adapt_typed_iff first, adaptItems_typed_iff others, ItemsSuit]

theorem adaptEntries_typed_iff {entries : List (Value × Value)} {key element : Ty} {path : String}
    {xs : List (HostValue × HostValue)}
    (adapted : adaptEntries v entries key element path = .ok xs) :
    (∀ e ∈ xs, Typed v e.1 key ∧ Typed v e.2 element) ↔ EntriesSuit v entries key element := by
  match entries with
  | [] =>
    cases adapted
    simp [EntriesSuit]
  | (k, item) :: entries =>
    simp only [adaptEntries, bind_eq_ok_iff] at adapted
    obtain ⟨y, first, x, second, rest, others, adapted⟩ := adapted
    cases adapted
    rw [List.forall_mem_cons, adapt_typed_iff first, adapt_typed_iff second,
      adaptEntries_typed_iff others, EntriesSuit, and_assoc]

end

end Parts

section Arguments
variable {v : ClassView}

theorem adaptEach_typed_iff {values : List Value} {types : List Ty} {first : Nat}
    {xs : List HostValue} (adapted : adaptEach v values types first = .ok xs) :
    (∀ p ∈ xs.zip types, Typed v p.1 p.2) ↔ ∀ p ∈ values.zip types, Suits v p.1 p.2 := by
  induction values generalizing types first xs with
  | nil =>
    cases adapted
    simp
  | cons value values ih =>
    cases types with
    | nil => simp
    | cons t types =>
      simp only [adaptEach, bind_eq_ok_iff] at adapted
      obtain ⟨x, head, rest, others, adapted⟩ := adapted
      cases adapted
      simp only [List.zip_cons_cons, List.forall_mem_cons, adapt_typed_iff head, ih others]

theorem forall_zip_replicate {α β : Type} {P : α → β → Prop} (xs : List α) (y : β) :
    (∀ p ∈ xs.zip (List.replicate xs.length y), P p.1 p.2) ↔ ∀ x ∈ xs, P x y := by
  induction xs with
  | nil => simp
  | cons x xs ih =>
    simp only [List.length_cons, List.replicate_succ, List.zip_cons_cons, List.forall_mem_cons, ih]

theorem typed_gathered_iff {items : List HostValue} {t : Ty} :
    Typed v (.array (componentType t) items) t ↔
      (∀ x ∈ items, Typed v x (componentType t)) ∧
        ∃ element dimensions, t = .array element dimensions := by
  match t with
  | .array element dimensions =>
    rw [typed_array_iff rfl]
    simp
  | .primitive _ =>
    refine iff_of_false (fun typed => ?_) (by simp)
    cases typed with
    | primitive own => cases own
  | .reference _ _ => exact iff_of_false not_typed_array_reference (by simp)
  | .variable _ =>
    refine iff_of_false (fun typed => ?_) (by simp)
    exact not_typed_array_reference (typed_variable_iff.mp typed)
  | .void =>
    refine iff_of_false (fun typed => ?_) (by simp)
    cases typed

theorem adaptArguments_spread_ok {init : List Ty} {last : Ty} {arguments : List Value}
    {xs : List HostValue} (adapted : adaptArguments v (init ++ [last]) true arguments = .ok xs) :
    ∃ leading gathered, xs = leading ++ [.array (componentType last) gathered] ∧
      adaptEach v arguments init 0 = .ok leading ∧
      adaptEach v (arguments.drop init.length)
        (List.replicate (arguments.drop init.length).length (componentType last)) init.length =
          .ok gathered := by
  simp only [adaptArguments, Bool.not_true, Bool.false_eq_true, if_false, bind_eq_ok_iff,
    List.length_append, List.length_singleton, Nat.add_sub_cancel, List.take_left,
    List.getLast?_concat, Option.map_some, Option.getD_some] at adapted
  obtain ⟨leading, first, gathered, rest, adapted⟩ := adapted
  cases adapted
  exact ⟨leading, gathered, rfl, first, rest⟩

theorem zip_passedTypes_spread {init : List Ty} {last : Ty} {arguments : List Value}
    (enough : init.length ≤ arguments.length) :
    arguments.zip (passedTypes (init ++ [last]) true arguments.length) =
      arguments.zip init ++ (arguments.drop init.length).zip
        (List.replicate (arguments.drop init.length).length (componentType last)) := by
  have short : (arguments.take init.length).length = init.length := by
    rw [List.length_take]
    omega
  have leading : arguments.zip init = (arguments.take init.length).zip init := by
    rw [List.zip_eq_zip_take_min, Nat.min_eq_right enough, List.take_length]
  rw [leading, ← List.zip_append short, List.take_append_drop]
  simp [passedTypes]

/-- Adapted arguments are typed exactly where the arguments suit the types they are passed as; an
array of gathered arguments is typed where the last parameter is an array. -/
theorem adaptArguments_typed_iff {parameters : List Ty} {spread : Bool} {arguments : List Value}
    {xs : List HostValue} (gathers : Gathers parameters spread arguments.length)
    (adapted : adaptArguments v parameters spread arguments = .ok xs) :
    (∀ p ∈ xs.zip parameters, Typed v p.1 p.2) ↔
      (∀ p ∈ arguments.zip (passedTypes parameters spread arguments.length), Suits v p.1 p.2) ∧
        (spread = true → ∃ element dimensions,
          parameters.getLast? = some (.array element dimensions)) := by
  cases spread with
  | false =>
    rw [adaptEach_typed_iff adapted]
    simp [passedTypes]
  | true =>
    obtain ⟨positive, enough⟩ := gathers rfl
    obtain rfl | ⟨init, last, rfl⟩ := parameters.eq_nil_or_concat'
    · simp at positive
    rw [List.length_append, List.length_singleton] at enough
    obtain ⟨leading, gathered, rfl, first, rest⟩ := adaptArguments_spread_ok adapted
    have count := adaptEach_length first
    have filled := adaptEach_length rest
    rw [List.length_replicate, Nat.min_self] at filled
    rw [zip_passedTypes_spread (by omega), List.zip_append (by omega), List.forall_mem_append,
      List.forall_mem_append, adaptEach_typed_iff first, ← adaptEach_typed_iff rest, ← filled,
      forall_zip_replicate, and_assoc]
    simp [typed_gathered_iff]

end Arguments

/-- What is classified as a whole comes out typed. -/
theorem Reaches.suits {v : ClassView} {value : Value} {t : Ty} (reaches : Reaches v value.shape t)
    (simple : value.Simple) : Suits v value t := by
  match value with
  | .list _ | .set _ | .map _ => exact simple.elim
  | .null => simp only [Suits]
  | .object className handle =>
    simp only [Suits]
    by_cases optional : 0 < (layers t).1 ∧ className = optionalClass
    · exact Or.inl optional
    · exact Or.inr (reaches.core_of_object optional)
  | .bool _ | .number _ | .long _ | .char _ | .string _ =>
    simp only [Suits]
    exact Or.inr (reaches.core_of_plain (by simp) (by simp))

/-- The adapted arguments of a resolved call are typed exactly where the arguments suit their types.
Arguments without parts always do, since resolution has looked at them; the parts of the others are
not looked at before they are passed on. -/
theorem adapted_typed_iff (v : ClassView) (target : Target) (receiver : Option String)
    (arguments : List Value) (r : Resolution) (xs : List HostValue)
    (resolved : resolve v target receiver (arguments.map Value.shape) = .ok r)
    (adapted : adaptArguments v r.parameters r.spread arguments = .ok xs) :
    xs.length = r.parameters.length ∧
    ((∀ p ∈ xs.zip r.parameters, Typed v p.1 p.2) ↔
      (∀ p ∈ arguments.zip (passedTypes r.parameters r.spread arguments.length),
        Suits v p.1 p.2) ∧
      (r.spread = true → ∃ element dimensions,
        r.parameters.getLast? = some (.array element dimensions))) ∧
    ∀ p ∈ arguments.zip (passedTypes r.parameters r.spread arguments.length),
      p.1.Simple → Suits v p.1 p.2 := by
  have takes := resolve_takes resolved
  have gathers := takes.1
  rw [List.length_map] at gathers
  refine ⟨?_, adaptArguments_typed_iff gathers adapted, ?_⟩
  · obtain ⟨_, passings, passes⟩ := takes
    have lengths := passes.length_types
    rw [List.length_map] at lengths
    exact (adaptArguments_ok gathers lengths adapted).1
  · rintro ⟨value, t⟩ member simple
    obtain ⟨i, place⟩ := List.mem_iff_getElem?.mp member
    obtain ⟨argument, expected⟩ := List.getElem?_zip_eq_some.mp place
    exact (takes.reaches argument expected).suits simple

private def join : Member :=
  ⟨"join", .method, ⟨9⟩, "(Ljava/util/List;)V", [.named listClass], .void,
    some ⟨[.reference listClass [.named stringClass]], .void⟩⟩

private def names : ClassStub := ⟨"demo.Names", ⟨1⟩, some objectClass, [], [join], []⟩

private def namesView : ClassView :=
  ⟨.shared, 21, [(names.name, ⟨names.name, default, .base, false, names⟩)], [], [], []⟩

private def joinCall : Resolution :=
  bind ⟨"demo.Names", "join", .staticMethod⟩
    ⟨⟨names, join⟩,
      [⟨0, .reference listClass [.named stringClass], .list, .via .sequence 0⟩], false⟩

private theorem joinCall_resolved : resolve namesView ⟨"demo.Names", "join", .staticMethod⟩ none
    ([.list [.number (.finite false 1 0)]].map Value.shape) = .ok joinCall := by
  decide +kernel

private theorem joinCall_adapted : adaptArguments namesView joinCall.parameters joinCall.spread
    [.list [.number (.finite false 1 0)]] = .ok [.list [.boxed (.int 1)]] := by
  rfl

/-- A number in a list of strings is passed on in its box. -/
theorem number_in_list_of_strings :
    resolve namesView ⟨"demo.Names", "join", .staticMethod⟩ none
        ([.list [.number (.finite false 1 0)]].map Value.shape) = .ok joinCall ∧
      adaptArguments namesView joinCall.parameters joinCall.spread
        [.list [.number (.finite false 1 0)]] = .ok [.list [.boxed (.int 1)]] ∧
      ¬ ∀ p ∈ [HostValue.list [.boxed (.int 1)]].zip joinCall.parameters,
        Typed namesView p.1 p.2 := by
  refine ⟨joinCall_resolved, joinCall_adapted, fun typed => ?_⟩
  have inside : (HostValue.list [.boxed (.int 1)], Ty.reference listClass [.named stringClass]) ∈
      [HostValue.list [.boxed (.int 1)]].zip joinCall.parameters := List.mem_singleton.mpr rfl
  have element := (typed_list_iff.mp (typed _ inside)).2 _ (List.mem_singleton.mpr rfl)
  have below : namesView.isSubtype "java.lang.Integer" stringClass = true :=
    (typed_simple_iff rfl (by simp)).mp element
  revert below
  decide +kernel

/-- The list is typed no more than its element suits a list of strings. -/
theorem adapted_typed_iff_join :
    resolve namesView ⟨"demo.Names", "join", .staticMethod⟩ none
        ([.list [.number (.finite false 1 0)]].map Value.shape) = .ok joinCall ∧
      adaptArguments namesView joinCall.parameters joinCall.spread
        [.list [.number (.finite false 1 0)]] = .ok [.list [.boxed (.int 1)]] ∧
      ((∀ p ∈ [HostValue.list [.boxed (.int 1)]].zip joinCall.parameters,
          Typed namesView p.1 p.2) ↔
        (∀ p ∈ [Value.list [.number (.finite false 1 0)]].zip
            (passedTypes joinCall.parameters joinCall.spread 1), Suits namesView p.1 p.2) ∧
        (joinCall.spread = true → ∃ element dimensions,
          joinCall.parameters.getLast? = some (.array element dimensions))) :=
  ⟨joinCall_resolved, joinCall_adapted,
    (adapted_typed_iff _ _ _ _ _ _ joinCall_resolved joinCall_adapted).2.1⟩

end Call

end Linkage
