import Linkage.Proofs.Call.Nearness
import Linkage.Proofs.Call.Overriding
import Linkage.Proofs.Call.Resolved

/-!
Generic parameters and the erased ones that they stand for. Whatever reaches a type with type
arguments reaches the erased type, and so does whatever reaches an array; a parameter that is a bare
type variable is taken as its erased type. So the arguments of a resolved call reach the erased
parameters too, but for one case: where arguments are gathered in an array of a type variable, they
are passed as that variable, whose bound is not looked at.
-/
namespace Linkage

namespace Ty

/-- An array over a type; arrays over an array make one array. -/
def arrayOver : Ty → Nat → Ty
  | .array element inner, outer => .array element (inner + outer)
  | t, outer => .array t outer

/-- A type of a generic signature stands for the type that a descriptor has in its place: its
erasure, but that a type variable can stand for any reference type. -/
inductive StandsFor : Ty → Ty → Prop where
  | primitive (p : Primitive) : StandsFor (.primitive p) (.primitive p)
  | reference (name : String) (args : List Ty) : StandsFor (.reference name args) (.named name)
  | bounded (name : String) {erased : Ty} (reference : erased.isReference = true) :
      StandsFor (.variable name) erased
  | array {element inner : Ty} {dimensions : Nat} (some : 0 < dimensions)
      (stands : StandsFor element inner) :
      StandsFor (.array element dimensions) (inner.arrayOver dimensions)
  | void : StandsFor .void .void

theorem exists_arrayOver (t : Ty) (outer : Nat) :
    ∃ element dimensions, t.arrayOver outer = .array element dimensions ∧ outer ≤ dimensions := by
  match t with
  | .array element inner => exact ⟨element, inner + outer, rfl, by omega⟩
  | .primitive _ | .reference _ _ | .variable _ | .void => exact ⟨_, outer, rfl, le_rfl⟩

end Ty

/-- The generic signatures of all members stand for their descriptors, as far as they count. -/
def ClassView.SignaturesErase (v : ClassView) : Prop :=
  ∀ c ∈ v.stubs, ∀ m ∈ c.members, ∀ g, m.generic = some g →
    g.parameters.length = m.parameters.length →
    List.Forall₂ Ty.StandsFor g.parameters m.parameters

namespace Call

open Outcome

/-- A declared parameter is the erased one itself, or more than a variable that stands for it. -/
inductive Details : Ty → Ty → Prop where
  | same (t : Ty) : Details t t
  | stands {declared erased : Ty} (stands : declared.StandsFor erased)
      (plain : ∀ name, declared ≠ .variable name) : Details declared erased

section Types
variable {v : ClassView} {shape : Shape} {declared erased : Ty}

theorem details_parameterType_self (t : Ty) : Details (Candidate.parameterType t t) t := by
  cases t <;> exact .same _

theorem details_parameterType (stands : declared.StandsFor erased) :
    Details (Candidate.parameterType declared erased) erased := by
  match declared with
  | .variable _ => exact .same erased
  | .primitive _ | .reference _ _ | .array _ _ | .void => exact .stands stands nofun

/-- An optional of unknown content takes everything. -/
theorem reaches_optional : Reaches v shape (.named optionalClass) := by
  rw [Reaches, Ty.named, classify]
  by_cases itself : shape = .object optionalClass
  · rw [if_neg (by simp [itself])]
    refine classifyClass_ok_iff.mpr ?_
    rw [itself]
    exact .inl (v.isSubtype_refl optionalClass)
  · rw [if_pos ⟨rfl, itself⟩]
    split <;> simp [classifyContent]

theorem Reaches.of_details (reaches : Reaches v shape declared)
    (details : Details declared erased) : Reaches v shape erased := by
  cases details with
  | same => exact reaches
  | stands stands plain =>
    cases stands with
    | primitive | void => exact reaches
    | bounded name => exact absurd rfl (plain name)
    | reference name args =>
      by_cases optional : name = optionalClass
      · subst optional
        exact reaches_optional
      · rw [reaches_reference_iff optional] at reaches
        exact (reaches_reference_iff optional).mpr reaches
    | @array element inner dimensions =>
      obtain ⟨_, _, same, _⟩ := inner.exists_arrayOver dimensions
      rw [reaches_array_iff] at reaches
      rwa [same, reaches_array_iff]

/-- An item of an array reaches the items of the erased array, unless it is passed as a variable. -/
theorem Reaches.component_of_details (reaches : Reaches v shape (componentType declared))
    (details : Details declared erased) :
    Reaches v shape (componentType erased) ∨ ∃ name, componentType declared = .variable name := by
  cases details with
  | same => exact .inl reaches
  | stands stands plain =>
    cases stands with
    | primitive | reference | void => exact .inl reaches
    | bounded name => exact absurd rfl (plain name)
    | @array element inner dimensions some stands =>
      obtain ⟨innermost, total, same, more⟩ := inner.exists_arrayOver dimensions
      by_cases several : 1 < dimensions
      · have outer : componentType (inner.arrayOver dimensions) = .array innermost (total - 1) := by
          rw [same, componentType, if_pos (by omega)]
        rw [componentType, if_pos several, reaches_array_iff] at reaches
        rw [outer, reaches_array_iff]
        exact .inl reaches
      · obtain rfl : dimensions = 1 := by omega
        have items : componentType (.array element 1) = element := rfl
        rw [items] at reaches ⊢
        by_cases bare : ∃ name, element = .variable name
        · exact .inr bare
        · rw [not_exists] at bare
          have held := reaches.of_details (.stands stands bare)
          have whole : componentType (inner.arrayOver 1) = inner := by
            cases stands with
            | primitive | reference | void => rfl
            | bounded name => exact absurd rfl (bare name)
            | @array element inner dimensions some =>
              obtain ⟨element', depth, same, more⟩ := inner.exists_arrayOver dimensions
              rw [same, Ty.arrayOver, componentType, if_pos (by omega), Nat.add_sub_cancel]
          rw [whole]
          exact .inl held

end Types

theorem details_zipWith {generic erased : List Ty}
    (each : List.Forall₂ (fun g e => Details (Candidate.parameterType g e) e) generic erased) :
    List.Forall₂ Details (List.zipWith Candidate.parameterType generic erased) erased := by
  induction each with
  | nil => exact .nil
  | cons details _ ih => exact .cons details ih

/-- The parameters of a candidate detail the erased ones. -/
theorem details_parameters {v : ClassView} (erase : v.SignaturesErase) {c : Candidate}
    (held : c.declaring ∈ v.stubs) (member : c.member ∈ c.declaring.members) :
    List.Forall₂ Details c.parameters c.member.parameters := by
  have own : List.Forall₂ (fun g e => Details (Candidate.parameterType g e) e) c.member.parameters
      c.member.parameters := List.forall₂_same.mpr fun t _ => details_parameterType_self t
  rw [Candidate.parameters, Member.genericParameters]
  refine details_zipWith ?_
  cases signature : c.member.generic with
  | none => exact own
  | some g =>
    dsimp only
    split
    · rename_i lengths
      exact (erase _ held _ member g signature lengths).imp fun _ _ => details_parameterType
    · exact own

/-! The type at each place. -/

/-- Where an argument is passed: at its own parameter, or among those that are gathered. -/
theorem passedTypes_cases {parameters : List Ty} {spread : Bool} {count i : Nat} {t : Ty}
    (gathers : Gathers parameters spread count)
    (at_place : (passedTypes parameters spread count)[i]? = some t) :
    (parameters[i]? = some t ∧ (spread = true → i + 1 < parameters.length)) ∨
      spread = true ∧ parameters.length ≤ i + 1 ∧
        ∃ last, parameters.getLast? = some last ∧ t = componentType last := by
  rw [passedTypes] at at_place
  split at at_place
  · rename_i spreads
    obtain ⟨positive, enough⟩ := gathers spreads
    rw [List.getElem?_append, List.length_dropLast] at at_place
    split at at_place
    · rename_i front
      rw [List.getElem?_dropLast, if_pos front] at at_place
      exact .inl ⟨at_place, fun _ => by omega⟩
    · rename_i behind
      have gathered := List.mem_of_getElem? at_place
      cases ends : parameters.getLast? with
      | none => simp [List.getLast?_eq_none_iff.mp ends] at positive
      | some last =>
        rw [ends] at gathered
        exact .inr ⟨spreads, by omega, last, rfl, List.eq_of_mem_replicate gathered⟩
  · rename_i fixed
    exact .inl ⟨at_place, fun spreads => absurd spreads fixed⟩

section Places
variable {parameters erasures : List Ty} {spread : Bool} {count i : Nat}

theorem length_passedTypes_congr (spread : Bool) (count : Nat)
    (lengths : parameters.length = erasures.length) :
    (passedTypes parameters spread count).length = (passedTypes erasures spread count).length := by
  rw [passedTypes, passedTypes]
  split
  · simp [lengths]
  · exact lengths

theorem details_at (details : List.Forall₂ Details parameters erasures) {declared erased : Ty}
    (first : parameters[i]? = some declared) (second : erasures[i]? = some erased) :
    Details declared erased := by
  refine (List.forall₂_iff_zip.mp details).2 (List.mem_of_getElem? (i := i) ?_)
  exact List.getElem?_zip_eq_some.mpr ⟨first, second⟩

/-- An argument that reaches its declared type reaches the erased one, unless it is gathered as a
type variable. -/
theorem reaches_erased {v : ClassView} {shape : Shape} {declared erased : Ty}
    (details : List.Forall₂ Details parameters erasures) (gathers : Gathers parameters spread count)
    (first : (passedTypes parameters spread count)[i]? = some declared)
    (second : (passedTypes erasures spread count)[i]? = some erased)
    (reaches : Reaches v shape declared) : Reaches v shape erased ∨
      spread = true ∧ parameters.length ≤ i + 1 ∧
        ∃ last name, parameters.getLast? = some last ∧ componentType last = .variable name := by
  have lengths := details.length_eq
  have gathers' : Gathers erasures spread count := by rwa [Gathers, ← lengths]
  rcases passedTypes_cases gathers first with ⟨own, within⟩ | ⟨spreads, behind, last, ends, rfl⟩
  · rcases passedTypes_cases gathers' second with ⟨own', _⟩ | ⟨spreads, behind, _⟩
    · exact .inl (reaches.of_details (details_at details own own'))
    · have front := within spreads
      omega
  · rcases passedTypes_cases gathers' second with ⟨_, within⟩ | ⟨_, _, last', ends', rfl⟩
    · have front := within spreads
      omega
    · have detail : Details last last' := by
        rw [List.getLast?_eq_getElem?] at ends ends'
        exact details_at details ends (lengths ▸ ends')
      rcases reaches.component_of_details detail with reaches | ⟨name, bare⟩
      · exact .inl reaches
      · exact .inr ⟨spreads, behind, last, name, ends, bare⟩

end Places

/-! What a target is bound to. -/

section Bound
variable {v : ClassView} {t : Target} {shapes : List Shape} {r : Resolution}

/-- A candidate of a class that the view holds takes the arguments and is bound. -/
def BoundTo (v : ClassView) (t : Target) (shapes : List Shape) (r : Resolution) (c : Candidate) :
    Prop :=
  c.declaring ∈ v.stubs ∧ c.member ∈ c.declaring.members ∧ ∃ a, Applies v shapes c a ∧ r = bind t a

theorem exists_boundTo_of_bindOne {candidates : List Candidate} {missing : Cause}
    (declared : ∀ c ∈ candidates, c.declaring ∈ v.stubs ∧ c.member ∈ c.declaring.members)
    (answer : bindOne v t shapes candidates missing = .ok r) : ∃ c, BoundTo v t shapes r c := by
  obtain ⟨c, among, a, applies, bound⟩ := exists_of_bindOne answer
  obtain ⟨held, member⟩ := declared c among
  exact ⟨c, held, member, a, applies, bound⟩

theorem exists_boundTo {receiver : Option String} (callable : t.kind.isField = false)
    (answer : resolve v t receiver shapes = .ok r) : ∃ c, BoundTo v t shapes r c := by
  by_cases constructor : t.kind = .constructor
  · rw [resolve_constructor_eq v shapes constructor, mapError_eq_ok_iff] at answer
    obtain ⟨owner, found, answer⟩ := bind_eq_ok_iff.mp answer
    rw [resolveConstructor_eq] at answer
    split at answer
    · cases answer
    · refine exists_boundTo_of_bindOne ?_ answer
      intro c inside
      obtain ⟨m, among, rfl⟩ := List.mem_map.mp inside
      have listed : m ∈ owner.stub.members := List.mem_of_mem_filter among
      exact ⟨mem_stubs_of_lookup ((classOf_eq_ok_iff v).mp found), listed⟩
  · rw [resolve_method_eq v shapes callable constructor, mapError_eq_ok_iff] at answer
    obtain ⟨start, _, answer⟩ := bind_eq_ok_iff.mp answer
    rw [resolveMethod_eq] at answer
    refine exists_boundTo_of_bindOne ?_ answer
    intro c inside
    obtain ⟨_, own, _, _, declared, _⟩ := exists_first inside
    obtain ⟨held, named⟩ := mem_declaredIn.mp declared
    obtain ⟨found, lookup, stub⟩ := Option.map_eq_some_iff.mp held
    refine ⟨stub ▸ mem_stubs_of_lookup lookup, ?_⟩
    exact List.mem_of_mem_filter (List.mem_of_mem_filter named)

theorem BoundTo.bindsTo {c : Candidate} (bound : BoundTo v t shapes r c) : r.BindsTo c := by
  obtain ⟨_, _, a, applies, rfl⟩ := bound
  cases applies <;> exact ⟨rfl, rfl, rfl, rfl⟩

theorem BoundTo.takes {c : Candidate} (bound : BoundTo v t shapes r c) : r.Takes v shapes := by
  obtain ⟨_, _, a, applies, rfl⟩ := bound
  exact applies.takes

end Bound

/-- An argument is gathered in an array whose items have a type variable for their type. -/
def GatheredAsVariable (r : Resolution) (i : Nat) : Prop :=
  r.spread = true ∧ r.parameters.length ≤ i + 1 ∧
    ∃ last name, r.parameters.getLast? = some last ∧ componentType last = .variable name

/-- The arguments reach the erased types of the member that is bound, unless they are gathered in an
array of a type variable. -/
def Resolution.TakesErased (v : ClassView) (r : Resolution) (shapes : List Shape) : Prop :=
  ∃ c ∈ v.stubs, ∃ m ∈ c.members, r.BindsTo ⟨c, m⟩ ∧
    (passedTypes m.parameters r.spread shapes.length).length = shapes.length ∧
    ∀ i shape erased, shapes[i]? = some shape →
      (passedTypes m.parameters r.spread shapes.length)[i]? = some erased →
      ¬ GatheredAsVariable r i → Reaches v shape erased

/-- A generic signature admits no argument that the erased parameters refuse, but where arguments
are gathered in an array of a type variable. -/
theorem erased_parameters_take (v : ClassView) (t : Target) (receiver : Option String)
    (shapes : List Shape) (r : Resolution) (erase : v.SignaturesErase)
    (callable : t.kind.isField = false) (answer : resolve v t receiver shapes = .ok r) :
    r.TakesErased v shapes := by
  obtain ⟨c, bound⟩ := exists_boundTo callable answer
  have binds := bound.bindsTo
  obtain ⟨gathers, passings, passes⟩ := bound.takes
  have details : List.Forall₂ Details r.parameters c.member.parameters := by
    rw [binds.2.2.2]
    exact details_parameters erase bound.1 bound.2.1
  have whole : (passedTypes r.parameters r.spread shapes.length).length = shapes.length :=
    passes.length_types
  have lengths := length_passedTypes_congr r.spread shapes.length details.length_eq
  refine ⟨c.declaring, bound.1, c.member, bound.2.1, binds, lengths.symm.trans whole, ?_⟩
  intro i shape erased argument expected ungathered
  have inside : i < (passedTypes r.parameters r.spread shapes.length).length := by
    rw [whole]
    exact (List.getElem?_eq_some_iff.mp argument).1
  have declared := List.getElem?_eq_getElem inside
  have reaches := passes.classify_ok
    (List.mem_of_getElem? (List.getElem?_zip_eq_some.mpr ⟨declared, argument⟩))
  rcases reaches_erased details gathers declared expected reaches with reaches | gathered
  · exact reaches
  · exact absurd gathered ungathered

private def summing (generic : Ty) : Member :=
  ⟨"sum", .method, ⟨0x89⟩, "(Ljava/util/Optional;[Ljava/lang/Number;)V",
    [.named optionalClass, .array (.named "java.lang.Number") 1], .void,
    some ⟨[.reference optionalClass [.variable "T"], .array generic 1], .void⟩⟩

private def summary (generic : Ty) : ClassView :=
  ⟨.shared, 21, [("demo.Stats", ⟨"demo.Stats", default, .base, false,
    ⟨"demo.Stats", ⟨1⟩, some objectClass, [], [summing generic], []⟩⟩)], [], [], []⟩

private def sumTarget : Target := ⟨"demo.Stats", "sum", .staticMethod⟩

private theorem summary_erase {generic : Ty}
    (stands : generic.StandsFor (.named "java.lang.Number")) :
    (summary generic).SignaturesErase := by
  intro c held m member g signature _
  obtain rfl := List.mem_singleton.mp held
  obtain rfl := List.mem_singleton.mp member
  obtain rfl := Option.some.inj signature
  exact .cons (.reference _ _) (.cons (.array Nat.one_pos stands) .nil)

/-- Numbers are gathered in an array of numbers. -/
theorem erased_parameters_take_numbers :
    (summary (.named "java.lang.Number")).SignaturesErase ∧ sumTarget.kind.isField = false ∧
      ∃ r, resolve (summary (.named "java.lang.Number")) sumTarget none [.string, .int, .double] =
          .ok r ∧
        r.TakesErased (summary (.named "java.lang.Number")) [.string, .int, .double] := by
  have erase : (summary (.named "java.lang.Number")).SignaturesErase :=
    summary_erase (.reference _ _)
  cases answer : resolve (summary (.named "java.lang.Number")) sumTarget none
      [.string, .int, .double] with
  | error failure =>
    have resolves : (resolve (summary (.named "java.lang.Number")) sumTarget none
        [.string, .int, .double]).toOption.isSome = true := by decide +kernel
    rw [answer] at resolves
    cases resolves
  | ok r => exact ⟨erase, rfl, r, rfl, erased_parameters_take _ _ _ _ _ erase rfl answer⟩

/-- A string is gathered in an array of a type variable that stands for a number. -/
theorem variable_bound_lost :
    ¬ ∀ (v : ClassView) (t : Target) (receiver : Option String) (shapes : List Shape)
      (r : Resolution), v.SignaturesErase → t.kind.isField = false →
      resolve v t receiver shapes = .ok r →
      ∃ c ∈ v.stubs, ∃ m ∈ c.members, r.BindsTo ⟨c, m⟩ ∧
        ∀ (i : Nat) (shape : Shape) (erased : Ty), shapes[i]? = some shape →
          (passedTypes m.parameters r.spread shapes.length)[i]? = some erased →
          Reaches v shape erased := by
  intro always
  have erase : (summary (.variable "T")).SignaturesErase := summary_erase (.bounded _ rfl)
  have spreads : (resolve (summary (.variable "T")) sumTarget none [.null, .string]).toOption.map
      (·.spread) = some true := by decide +kernel
  cases answer : resolve (summary (.variable "T")) sumTarget none [.null, .string] with
  | error failure =>
    rw [answer] at spreads
    cases spreads
  | ok r =>
    rw [answer] at spreads
    have spread : r.spread = true := Option.some.inj spreads
    obtain ⟨c, held, m, member, _, reaches⟩ := always _ _ _ _ _ erase rfl answer
    obtain rfl := List.mem_singleton.mp held
    obtain rfl := List.mem_singleton.mp member
    obtain ⟨conversion, reached⟩ := reaches 1 .string (.named "java.lang.Number") rfl
      (by rw [spread]; rfl)
    have refused : (classify (summary (.variable "T")) .string
        (.named "java.lang.Number")).toOption = none := by decide +kernel
    rw [reached] at refused
    cases refused

end Call

end Linkage
