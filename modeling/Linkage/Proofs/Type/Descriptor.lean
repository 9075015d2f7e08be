import Linkage.ClassFile.Stub
import Linkage.Proofs.Type.Bytewise

/-!
Descriptors and types are inverse to each other. What is written for a type reads back as its
erasure, and every text of the grammar of descriptors is written for the types that it reads as.

Names are read byte by byte, which is why they are taken to be ASCII here.
-/
namespace Linkage

namespace Descriptor

/-- A class name of ASCII characters that holds none of the given marks. -/
def IsName (marks name : List Char) : Prop :=
  name ≠ [] ∧ ∀ c ∈ name, c.toNat < 128 ∧ c ∉ marks

-- The instance for lists is named, since characters could also be tried one after the other.
instance (marks name : List Char) : Decidable (IsName marks name) :=
  @instDecidableAnd (name ≠ []) _ _ (List.decidableBAll _ name)

/-- The texts for the type of a field, by their number of dimensions. Names are written with
slashes. -/
inductive FieldText : Nat → List Char → Prop where
  | base {letter : Char} (known : letter ∈ ['B', 'C', 'D', 'F', 'I', 'J', 'S', 'Z']) :
      FieldText 0 [letter]
  | object {name : List Char} (named : IsName ['.', ';', '<'] name) :
      FieldText 0 ('L' :: name ++ [';'])
  | array {dimensions : Nat} {component : List Char} (text : FieldText dimensions component) :
      FieldText (dimensions + 1) ('[' :: component)

/-- The texts for the parameters and the result of a method. -/
structure MethodText (parameters : List (List Char)) (result : List Char) : Prop where
  parameters : ∀ p ∈ parameters, ∃ dimensions ≤ 255, FieldText dimensions p
  result : result = ['V'] ∨ ∃ dimensions ≤ 255, FieldText dimensions result

/-- The whole text of a method's descriptor. -/
def methodText (parameters : List (List Char)) (result : List Char) : String :=
  String.ofList ('(' :: parameters.flatten ++ ')' :: result)

end Descriptor

namespace Ty

/-- Neither an array nor void, and a class name can be written. -/
inductive Simple : Ty → Prop where
  | primitive (p : Primitive) : Simple (.primitive p)
  | reference {name : String} (args : List Ty)
      (named : Descriptor.IsName ['/', ';', '<'] name.toList) : Simple (.reference name args)
  | generic (name : String) : Simple (.variable name)

/-- The types that a descriptor can tell. -/
inductive Describable : Ty → Prop where
  | simple {t : Ty} (simple : t.Simple) : Describable t
  | array {element : Ty} {dimensions : Nat} (simple : element.Simple) (positive : 1 ≤ dimensions)
      (counted : dimensions ≤ 255) : Describable (.array element dimensions)

end Ty

open Descriptor

namespace Ty

section Ascii
variable {t : Ty}

theorem Simple.element (simple : t.Simple) : t.Element := by
  cases simple with
  | primitive p => exact .primitive p
  | reference args named => exact .reference args ⟨named.1, fun c member => (named.2 c member).2⟩
  | generic name => exact .generic name

theorem Describable.storable (describable : t.Describable) : t.Storable := by
  cases describable with
  | simple simple => exact .element simple.element
  | array simple positive counted => exact .array simple.element positive counted

theorem Simple.asRead_eq (simple : t.Simple) : t.asRead = t.erasure := by
  cases simple with
  | primitive p => rfl
  | reference args named =>
    exact congrArg Ty.named (bytewise_eq_iff.mpr fun c member => (named.2 c member).1)
  | generic name => rfl

/-- An ASCII name is read as it is. -/
theorem Describable.asRead_eq (describable : t.Describable) : t.asRead = t.erasure := by
  cases describable with
  | simple simple => exact simple.asRead_eq
  | array simple positive counted => rw [asRead, erasure, simple.asRead_eq]

end Ascii

end Ty

namespace Descriptor

section Methods
variable {parameters : List Ty} {result : Ty}

/-- Types that may stand for the result of a method. -/
def IsResult (result : Ty) : Prop := result = .void ∨ result.Describable

theorem IsResult.asRead_eq (isResult : IsResult result) : result.asRead = result.erasure := by
  rcases isResult with rfl | describable
  · rfl
  · exact describable.asRead_eq

/-- The descriptor of a method reads back as the erasures of its types. -/
theorem method_methodDescriptor (describable : ∀ t ∈ parameters, t.Describable)
    (isResult : IsResult result) :
    method (methodDescriptor parameters result) =
      .ok (parameters.map Ty.erasure, result.erasure) := by
  have read := method_written (fun t member => (describable t member).storable)
    (isResult.imp_right Ty.Describable.storable)
  have types : parameters.map Ty.asRead = parameters.map Ty.erasure :=
    List.map_congr_left fun t member => (describable t member).asRead_eq
  rwa [types, isResult.asRead_eq] at read

theorem field_descriptor {t : Ty} (describable : t.Describable) :
    field t.descriptor = .ok t.erasure := by
  have read := field_written describable.storable
  rwa [describable.asRead_eq] at read

end Methods

section Grammar

/-- How a character of a written name is read. -/
def unslash (c : Char) : Char := if c = '/' then '.' else c

theorem slash_unslash {c : Char} (noPoint : c ≠ '.') : slash (unslash c) = c := by
  unfold unslash
  split
  · rename_i isSlash
    rw [isSlash]
    rfl
  · exact if_neg noPoint

/-- The name that a written name is read as. -/
theorem IsName.unslash {name : List Char} (named : IsName ['.', ';', '<'] name) :
    IsName ['/', ';', '<'] (name.map unslash) := by
  refine ⟨by simpa using named.1, ?_⟩
  intro c member
  obtain ⟨d, inside, rfl⟩ := List.mem_map.mp member
  obtain ⟨ascii, unmarked⟩ := named.2 d inside
  unfold Descriptor.unslash
  split
  · decide
  · rename_i noSlash
    simp only [List.mem_cons, List.not_mem_nil, or_false, not_or] at unmarked ⊢
    exact ⟨ascii, noSlash, unmarked.2⟩

theorem exists_letter : ∀ letter ∈ ['B', 'C', 'D', 'F', 'I', 'J', 'S', 'Z'],
    ∃ p ∈ Primitive.all, p.letter = letter := by
  simp only [List.forall_mem_cons, List.not_mem_nil, false_imp_iff, implies_true, and_true]
  decide

/-- A text for a field is brackets in front of what is written for a type that is its own
erasure. -/
theorem FieldText.exists_simple {dimensions : Nat} {text : List Char}
    (isText : FieldText dimensions text) :
    ∃ element : Ty, element.Simple ∧ element.erasure = element ∧
      text = List.replicate dimensions '[' ++ element.descriptorChars := by
  induction isText with
  | @base letter known =>
    obtain ⟨p, _, rfl⟩ := exists_letter letter known
    exact ⟨.primitive p, .primitive p, rfl, rfl⟩
  | @object name named =>
    have written : (name.map unslash).map slash = name := by
      rw [List.map_map]
      refine (List.map_congr_left fun c member => ?_).trans (List.map_id name)
      refine slash_unslash fun point => (named.2 c member).2 ?_
      rw [point]
      exact List.mem_cons_self
    have toList := String.toList_ofList (l := name.map unslash)
    refine ⟨.named (String.ofList (name.map unslash)), .reference [] ?_, rfl, ?_⟩
    · rw [toList]
      exact named.unslash
    · rw [Ty.named, Ty.descriptorChars_reference, toList, written]
      rfl
  | array text ih =>
    obtain ⟨element, simple, erased, chars⟩ := ih
    refine ⟨element, simple, erased, ?_⟩
    rw [chars, List.replicate_succ, List.cons_append]

theorem FieldText.exists_type {dimensions : Nat} {text : List Char}
    (isText : FieldText dimensions text) (counted : dimensions ≤ 255) :
    ∃ t : Ty, t.Describable ∧ t.erasure = t ∧ t.descriptorChars = text := by
  obtain ⟨element, simple, erased, rfl⟩ := isText.exists_simple
  cases dimensions with
  | zero => exact ⟨element, .simple simple, erased, rfl⟩
  | succ more =>
    refine ⟨.array element (more + 1), .array simple (Nat.succ_pos more) counted, ?_, rfl⟩
    rw [Ty.erasure, erased]

theorem exists_types {texts : List (List Char)}
    (fields : ∀ text ∈ texts, ∃ dimensions ≤ 255, FieldText dimensions text) :
    ∃ types : List Ty, (∀ t ∈ types, t.Describable) ∧ types.map Ty.erasure = types ∧
      types.map Ty.descriptorChars = texts := by
  induction texts with
  | nil => exact ⟨[], by simp, rfl, rfl⟩
  | cons text texts ih =>
    obtain ⟨dimensions, counted, isText⟩ := fields text List.mem_cons_self
    obtain ⟨t, describable, erased, written⟩ := isText.exists_type counted
    obtain ⟨types, others, erasures, rest⟩ :=
      ih fun other member => fields other (List.mem_cons_of_mem text member)
    refine ⟨t :: types, ?_, ?_, ?_⟩
    · intro u member
      rcases List.mem_cons.mp member with rfl | member
      · exact describable
      · exact others u member
    · rw [List.map_cons, erased, erasures]
    · rw [List.map_cons, written, rest]

/-- The text of a method's descriptor reads as types that it is written for. -/
theorem MethodText.exists_types {parameters : List (List Char)} {result : List Char}
    (isText : MethodText parameters result) :
    ∃ (types : List Ty) (type : Ty), method (methodText parameters result) = .ok (types, type) ∧
      (∀ t ∈ types, t.Describable) ∧ types.map Ty.erasure = types ∧
      types.map Ty.descriptorChars = parameters ∧
      methodDescriptor types type = methodText parameters result := by
  obtain ⟨types, describable, erasures, written⟩ := Descriptor.exists_types isText.parameters
  have last : ∃ type : Ty, IsResult type ∧ type.erasure = type ∧ type.descriptorChars = result := by
    rcases isText.result with rfl | ⟨dimensions, counted, isText⟩
    · exact ⟨.void, Or.inl rfl, rfl, rfl⟩
    · obtain ⟨type, describable, erased, written⟩ := isText.exists_type counted
      exact ⟨type, Or.inr describable, erased, written⟩
  obtain ⟨type, isResult, erased, rfl⟩ := last
  have same : methodDescriptor types type = methodText parameters type.descriptorChars := by
    rw [methodDescriptor, methodDescriptorChars, methodText, ← written, List.flatMap_def]
  have read := method_methodDescriptor describable isResult
  rw [same, erasures, erased] at read
  exact ⟨types, type, read, describable, erasures, written, same⟩

end Grammar

/-- Types that are their own erasures are told by what is written for them in a row. -/
theorem eq_of_flatMap_eq {types others : List Ty} (describable : ∀ t ∈ types, t.Describable)
    (describable' : ∀ t ∈ others, t.Describable)
    (same : types.flatMap Ty.descriptorChars = others.flatMap Ty.descriptorChars) :
    types.map Ty.erasure = others.map Ty.erasure := by
  have read := method_methodDescriptor describable (show IsResult .void from Or.inl rfl)
  have read' := method_methodDescriptor describable' (show IsResult .void from Or.inl rfl)
  rw [methodDescriptor, methodDescriptorChars, same] at read
  rw [methodDescriptor, methodDescriptorChars, read] at read'
  exact (Prod.mk.inj (Except.ok.inj read')).1

/-- The key of a method is its name with its parameters as they are written. -/
theorem erasedKey_eq_iff {a b : Member} (method : a.kind ≠ .field) (method' : b.kind ≠ .field)
    (name : a.name = b.name) : a.erasedKey = b.erasedKey ↔
      a.parameters.flatMap Ty.descriptorChars = b.parameters.flatMap Ty.descriptorChars := by
  have key : ∀ {m : Member}, m.kind ≠ .field → m.erasedKey =
      m.name ++ String.ofList ('(' :: m.parameters.flatMap Ty.descriptorChars ++ [')']) := by
    intro m method
    unfold Member.erasedKey
    split
    · rename_i field
      exact absurd field method
    · rfl
  rw [key method, key method', name, String.append_right_inj, String.ofList_inj]
  simp

/-- Descriptors and types are inverse to each other. The descriptor of a method and of a field reads
back as the erasure of what it was written for; a text of the grammar of descriptors reads as types
that it is written for; and two methods of one name have the same key exactly when their parameters
have the same descriptors. -/
theorem descriptors_inverse :
    (∀ (parameters : List Ty) (result : Ty), (∀ t ∈ parameters, t.Describable) →
      (result = .void ∨ result.Describable) →
      method (methodDescriptor parameters result) =
        .ok (parameters.map Ty.erasure, result.erasure)) ∧
    (∀ t : Ty, t.Describable → field t.descriptor = .ok t.erasure) ∧
    (∀ (parameters : List (List Char)) (result : List Char), MethodText parameters result →
      ∃ types type, method (methodText parameters result) = .ok (types, type) ∧
        methodDescriptor types type = methodText parameters result) ∧
    (∀ (a b : Member) (parameters others : List (List Char)) (result other : List Char),
      a.kind ≠ .field → b.kind ≠ .field → a.name = b.name →
      MethodText parameters result → a.descriptor = methodText parameters result →
      method a.descriptor = .ok (a.parameters, a.result) →
      MethodText others other → b.descriptor = methodText others other →
      method b.descriptor = .ok (b.parameters, b.result) →
      (a.erasedKey = b.erasedKey ↔ parameters = others)) := by
  refine ⟨fun _ _ => method_methodDescriptor, fun _ => field_descriptor, ?_, ?_⟩
  · intro parameters result isText
    obtain ⟨types, type, read, _, _, _, written⟩ := isText.exists_types
    exact ⟨types, type, read, written⟩
  · intro a b parameters others result other isMethod isMethod' name isText text read isText' text'
      read'
    obtain ⟨types, type, known, describable, erasures, rfl, _⟩ := isText.exists_types
    obtain ⟨types', type', known', describable', erasures', rfl, _⟩ := isText'.exists_types
    rw [text, known] at read
    rw [text', known'] at read'
    obtain ⟨rfl, _⟩ := Prod.mk.inj (Except.ok.inj read)
    obtain ⟨rfl, _⟩ := Prod.mk.inj (Except.ok.inj read')
    rw [erasedKey_eq_iff isMethod isMethod' name]
    constructor
    · intro same
      have types := eq_of_flatMap_eq describable describable' same
      rw [← erasures, ← erasures', types]
    · intro same
      rw [List.flatMap_def, List.flatMap_def, same]

private def fill : Member :=
  ⟨"fill", .method, ⟨9⟩, "([[ILjava/util/List;)V",
    [.array (.primitive .int) 2, .named "java.util.List"], .void, none⟩

private def fillCounted : Member :=
  ⟨"fill", .method, ⟨9⟩, "([[ILjava/util/List;)J",
    [.array (.primitive .int) 2, .named "java.util.List"], .primitive .long, none⟩

/-- A list of a type variable next to an array, as a type and as a text. -/
theorem descriptors_inverse_fill :
    method (methodDescriptor
      [.array (.primitive .int) 2, .reference "java.util.List" [.variable "T"]] .void) =
        .ok ([.array (.primitive .int) 2, .named "java.util.List"], .void) ∧
      field (Ty.array (.variable "T") 255).descriptor = .ok (.array .object 255) ∧
      (∃ types type,
        method (methodText [['[', '[', 'I'], "Ljava/util/List;".toList] ['V']) =
          .ok (types, type) ∧
        methodDescriptor types type =
          methodText [['[', '[', 'I'], "Ljava/util/List;".toList] ['V']) ∧
      (fill.erasedKey = fillCounted.erasedKey ↔
        [['[', '[', 'I'], "Ljava/util/List;".toList] =
          [['[', '[', 'I'], "Ljava/util/List;".toList]) := by
  have ints : FieldText 2 ['[', '[', 'I'] := .array (.array (.base (by decide)))
  have named : IsName ['.', ';', '<'] "java/util/List".toList := by decide +kernel
  have list : FieldText 0 "Ljava/util/List;".toList := .object named
  have both : ∀ p ∈ [['[', '[', 'I'], "Ljava/util/List;".toList],
      ∃ dimensions ≤ 255, FieldText dimensions p := by
    simp only [List.forall_mem_cons, List.not_mem_nil, false_imp_iff, implies_true, and_true]
    exact ⟨⟨2, by decide, ints⟩, ⟨0, by decide, list⟩⟩
  refine ⟨descriptors_inverse.1 _ _ ?_ (Or.inl rfl), descriptors_inverse.2.1 _ ?_,
    descriptors_inverse.2.2.1 _ _ ⟨both, Or.inl rfl⟩,
    descriptors_inverse.2.2.2 fill fillCounted _ _ ['V'] ['J'] (by decide) (by decide) rfl
      ⟨both, Or.inl rfl⟩ (by decide +kernel) rfl
      ⟨both, Or.inr ⟨0, by decide, .base (by decide)⟩⟩ (by decide +kernel) rfl⟩
  · simp only [List.forall_mem_cons, List.not_mem_nil, false_imp_iff, implies_true, and_true]
    exact ⟨.array (.primitive .int) (by decide) (by decide),
      .simple (.reference _ (by decide +kernel))⟩
  · exact .array (.generic "T") (by decide) (by decide)

end Descriptor

end Linkage
