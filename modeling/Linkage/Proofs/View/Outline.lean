import Linkage.Proofs.View.Ancestry

/-!
Classes without their members. The outline of a view has the same supertypes, distances and lookup
orders as the view: these ask for names, superclasses and interfaces only. Two views are rearranged
where they have one outline and every class has the same members, in whatever order.
-/
namespace Linkage

open Classpath (Record)

def ClassStub.outline (c : ClassStub) : ClassStub := { c with members := [] }

def Classpath.Record.outline (r : Record) : Record := { r with stub := r.stub.outline }

namespace ClassView

def outline (v : ClassView) : ClassView :=
  { v with
    library := v.library.map fun e => (e.1, e.2.outline)
    program := v.program.map fun e => (e.1, e.2.outline) }

variable (v : ClassView)

theorem find_outline (table : List (String × Record)) (name : String) :
    find (table.map fun e => (e.1, e.2.outline)) name = (find table name).map Record.outline := by
  simp only [find, List.find?_map, Option.map_map]
  rfl

theorem lookup_outline (name : String) :
    v.outline.lookup name = (v.lookup name).map Record.outline := by
  simp only [lookup, outline, find_outline]
  cases find v.library name <;> rfl

theorem stubOf?_outline (name : String) :
    v.outline.stubOf? name = (v.stubOf? name).map ClassStub.outline := by
  simp only [stubOf?, lookup_outline, Option.map_map]
  rfl

theorem supertypes_outline : v.outline.supertypes = v.supertypes := by
  funext name
  rw [supertypes, supertypes, stubOf?_outline]
  cases v.stubOf? name <;> rfl

theorem interfacesOf_outline : v.outline.interfacesOf = v.interfacesOf := by
  funext name
  rw [interfacesOf, interfacesOf, stubOf?_outline]
  cases v.stubOf? name <;> rfl

theorem isEnum_outline : v.outline.isEnum = v.isEnum := by
  funext name
  rw [isEnum, isEnum, stubOf?_outline]
  cases v.stubOf? name <;> rfl

theorem stubs_outline : v.outline.stubs = v.stubs.map ClassStub.outline := by
  simp only [stubs, outline, ← List.map_append, List.map_map]
  rfl

theorem searchBound_outline : v.outline.searchBound = v.searchBound := by
  simp only [searchBound, stubs_outline, List.map_map]
  rfl

theorem distance_outline : v.outline.distance = v.distance := by
  funext sub sup
  simp only [distance, ancestry, supertypes_outline, searchBound_outline]

theorem isSubtype_outline : v.outline.isSubtype = v.isSubtype := by
  funext sub sup
  rw [isSubtype, isSubtype, distance_outline]

theorem superclassChain_outline (fuel : Nat) (chain : List String) (name : String) :
    v.outline.superclassChain fuel chain name = v.superclassChain fuel chain name := by
  induction fuel generalizing chain name with
  | zero => rfl
  | succ fuel ih =>
    simp only [superclassChain, stubOf?_outline, ih]
    cases v.stubOf? name <;> rfl

theorem lookupOrder_outline : v.outline.lookupOrder = v.lookupOrder := by
  funext name
  simp only [lookupOrder, superclassChain_outline, interfacesOf_outline, searchBound_outline,
    stubs_outline, List.length_map]

/-- One outline, and in every class the same members. -/
structure Rearranged (v w : ClassView) : Prop where
  outline : v.outline = w.outline
  members : List.Forall₂ (fun c d => c.members.Perm d.members) v.stubs w.stubs

section Related
variable {v w : ClassView} {R : ClassStub → ClassStub → Prop}

/-- What two tables of one outline hold under a name. -/
theorem find_related {table other : List (String × Record)}
    (outlines : (table.map fun e => (e.1, e.2.outline)) = other.map fun e => (e.1, e.2.outline))
    (related : List.Forall₂ R (table.map (·.2.stub)) (other.map (·.2.stub))) (name : String) :
    Option.Rel (fun e f => e.2.outline = f.2.outline ∧ R e.2.stub f.2.stub)
      (table.find? (·.1 == name)) (other.find? (·.1 == name)) := by
  induction table generalizing other with
  | nil =>
    cases other with
    | nil => exact .none
    | cons => cases outlines
  | cons e table ih =>
    cases other with
    | nil => cases outlines
    | cons f other =>
      obtain ⟨head, tail⟩ := List.cons.inj outlines
      obtain ⟨same, outline⟩ := Prod.mk.inj head
      obtain ⟨first, rest⟩ := List.forall₂_cons.mp related
      rw [List.find?_cons, List.find?_cons, same]
      cases f.1 == name with
      | true => exact .some ⟨outline, first⟩
      | false => exact ih tail rest

theorem lookup_related (outlines : v.outline = w.outline)
    (related : List.Forall₂ R v.stubs w.stubs) (name : String) :
    Option.Rel (fun r s => r.outline = s.outline ∧ R r.stub s.stub) (v.lookup name)
      (w.lookup name) := by
  have tables : ((v.library ++ v.program).map fun e => (e.1, e.2.outline)) =
      (w.library ++ w.program).map fun e => (e.1, e.2.outline) := by
    rw [List.map_append, List.map_append]
    exact congrArg₂ _ (congrArg library outlines) (congrArg program outlines)
  rw [v.lookup_eq_find, w.lookup_eq_find]
  have found := find_related tables related name
  generalize (v.library ++ v.program).find? (·.1 == name) = held at found ⊢
  generalize (w.library ++ w.program).find? (·.1 == name) = other at found ⊢
  cases found with
  | none => exact .none
  | some both => exact .some both

end Related

end ClassView

end Linkage
