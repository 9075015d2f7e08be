import Linkage.Proofs.Call.MemberOrder
import Linkage.Proofs.View.Hierarchy

/-!
Which methods hide which. Of the methods with the same parameters, the one of the first class in the
lookup order is kept. The superclasses come first in that order, each behind its subclasses, and the
interfaces follow by the number of steps that lead to them. So a superclass never stands for a
subclass that overrides it, an interface never for a class, and never for a nearer interface that
redeclares the method; in particular not for one through which alone it is inherited. An interface
that is listed beside its own subinterface is no farther than that, and may stand for it.
-/
namespace Linkage

section Detours
variable {next : String → List String} {start name avoided : String} {count : Nat}

/-- Steps that do not lead to one name. -/
def around (next : String → List String) (avoided : String) : String → List String :=
  fun name => (next name).filter (· ≠ avoided)

/-- A chain of steps leads around a name, or comes to it. -/
theorem Steps.around_or_through (avoided : String) (steps : Steps next start name count) :
    Steps (around next avoided) start name count ∨
      ∃ earlier ≤ count, Steps next start avoided earlier ∧ (name = avoided ∨ earlier < count) := by
  induction steps with
  | start => exact .inl .start
  | @onward name above count steps step ih =>
    rcases ih with detour | ⟨earlier, within, through, _⟩
    · by_cases same : above = avoided
      · subst same
        exact .inr ⟨count + 1, le_rfl, .onward steps step, .inl rfl⟩
      · exact .inl (.onward detour (List.mem_filter.mpr ⟨step, by simpa using same⟩))
    · exact .inr ⟨earlier, by omega, through, .inr (by omega)⟩

end Detours

namespace ClassView
variable (v : ClassView) (className : String)

/-- A subtype that is no supertype at the same time. -/
def ProperSubtype (sub sup : String) : Prop :=
  v.isSubtype sub sup = true ∧ v.isSubtype sup sub = false

/-- Fewer steps lead to one interface than to another, from a class and its superclasses. -/
def NearerInterface (near far : String) : Prop :=
  ∃ count, StepsFrom v.interfacesOf (v.superclasses className) near count ∧
    ∀ other, StepsFrom v.interfacesOf (v.superclasses className) far other → count < other

/-- A class inherits one interface through another only. -/
def InheritsThrough (through inherited : String) : Prop :=
  ∀ count, ¬ StepsFrom (around v.interfacesOf through) (v.superclasses className) inherited count

variable {v className} {before after : List String} {sub sup : String}

theorem ProperSubtype.ne (proper : v.ProperSubtype sub sup) : sub ≠ sup := by
  rintro rfl
  exact absurd proper.1 (by simp [proper.2])

/-- In a chain of superclasses the later ones are supertypes of the earlier ones. -/
theorem isSubtype_of_linked {chain : List String}
    (linked : (sub :: chain).IsChain fun a b => v.superclass? a = some b) (inside : sup ∈ chain) :
    v.isSubtype sub sup = true := by
  refine v.isSubtype_iff.mpr (.inl ?_)
  induction chain generalizing sub with
  | nil => cases inside
  | cons above chain ih =>
    obtain ⟨up, rest⟩ := List.isChain_cons_cons.mp linked
    have step : above ∈ v.supertypes sub := by
      obtain ⟨c, held, up⟩ := Option.bind_eq_some_iff.mp up
      simp [supertypes, held, up]
    have one : Steps v.supertypes sub above 1 := .onward .start step
    rcases List.mem_cons.mp inside with rfl | inside
    · exact ⟨1, one⟩
    · obtain ⟨count, steps⟩ := ih rest inside
      exact ⟨_, one.trans steps⟩

/-- A class of the lookup order comes behind all superclasses, or is one of them itself. -/
theorem superclasses_cases (order : v.lookupOrder className = before ++ sup :: after) :
    v.superclasses className ⊆ before ∨
      ∃ behind, v.superclasses className = before ++ sup :: behind := by
  obtain ⟨interfaces, parted⟩ := v.superclasses_first className
  rw [order] at parted
  rcases List.append_eq_append_iff.mp parted with ⟨between, rfl, _⟩ | ⟨behind, chain, rest⟩
  · exact .inl (List.subset_append_left _ _)
  · cases behind with
    | nil =>
      rw [List.append_nil] at chain
      exact .inl fun _ inside => chain ▸ inside
    | cons first behind =>
      obtain ⟨rfl, _⟩ := List.cons.inj rest
      exact .inr ⟨behind, chain⟩

theorem nodup_of_lookupOrder (order : v.lookupOrder className = before ++ sup :: after) :
    sup ∉ before ∧ sup ∉ after ∧ before.Disjoint after := by
  have once := (v.lookupOrder_isLookupOrder className).once
  rw [order, List.nodup_append, List.nodup_cons] at once
  refine ⟨?_, once.2.1.1, ?_⟩
  · intro inside
    exact once.2.2 sup inside sup List.mem_cons_self rfl
  · intro name inside inside'
    exact once.2.2 name inside name (List.mem_cons_of_mem _ inside') rfl

/-- Among superclasses, proper subtypes come first. -/
theorem mem_before_of_proper (order : v.lookupOrder className = before ++ sup :: after)
    (own : sup ∈ v.superclasses className) (inside : sub ∈ v.superclasses className)
    (proper : v.ProperSubtype sub sup) : sub ∈ before := by
  rcases superclasses_cases order with front | ⟨behind, chain⟩
  · exact absurd (front own) (nodup_of_lookupOrder order).1
  · have linked := (v.superclasses_isSuperclassChain className).linked
    rw [chain] at linked inside
    rcases List.mem_append.mp inside with inside | inside
    · exact inside
    · rcases List.mem_cons.mp inside with rfl | inside
      · exact absurd rfl proper.ne
      · have above := isSubtype_of_linked (List.isChain_append.mp linked).2.1 inside
        exact absurd above (by simp [proper.2])

/-- Interfaces come after all superclasses. -/
theorem mem_before_of_superclass (order : v.lookupOrder className = before ++ sup :: after)
    (other : sup ∉ v.superclasses className) (inside : sub ∈ v.superclasses className) :
    sub ∈ before := by
  rcases superclasses_cases order with front | ⟨behind, chain⟩
  · exact front inside
  · exact absurd (by simp [chain]) other

/-- Nearer interfaces come first. -/
theorem mem_before_of_nearer (order : v.lookupOrder className = before ++ sup :: after)
    (inside : sub ∈ v.lookupOrder className) (nearer : v.NearerInterface className sub sup) :
    sub ∈ before := by
  obtain ⟨count, steps, ahead⟩ := nearer
  have sorted := v.lookupOrder_sorted className
  have reached : ∃ other, StepsFrom v.interfacesOf (v.superclasses className) sup other := by
    refine (v.searched_sweep className).mem_iff.mp ?_
    rw [← v.lookupOrder_eq, order]
    exact List.mem_append_right _ List.mem_cons_self
  obtain ⟨near, least⟩ := steps.exists_shortest
  obtain ⟨other, steps'⟩ := reached
  obtain ⟨far, least'⟩ := steps'.exists_shortest
  have within : near ≤ count := least.2 steps
  have beyond : count < far := ahead far least'.1
  rw [order] at sorted inside
  rcases List.mem_append.mp inside with inside | inside
  · exact inside
  · rcases List.mem_cons.mp inside with rfl | inside
    · have same := least.unique least'
      omega
    · have behind := (List.pairwise_cons.mp (List.pairwise_append.mp sorted).2.1).1 sub inside far
        near least' least
      omega

/-- What alone leads to an interface is nearer than the interface. -/
theorem InheritsThrough.nearer (through : v.InheritsThrough className sub sup) (differ : sub ≠ sup)
    (inside : sub ∈ v.lookupOrder className) : v.NearerInterface className sub sup := by
  rw [v.lookupOrder_eq, (v.searched_sweep className).mem_iff] at inside
  obtain ⟨count, steps⟩ := inside
  obtain ⟨near, least⟩ := steps.exists_shortest
  refine ⟨near, least.1, ?_⟩
  rintro other ⟨start, own, steps⟩
  rcases steps.around_or_through sub with detour | ⟨earlier, _, met, same | sooner⟩
  · exact absurd ⟨start, own, detour⟩ (through other)
  · exact absurd same.symm differ
  · exact (least.2 ⟨start, own, met⟩).trans_lt sooner

end ClassView

namespace Call
variable {v : ClassView} {className name : String} {c : Candidate}

/-- A class declares a method of a name with parameters of these descriptors. -/
def Declares (v : ClassView) (name : String) (parameters : List String) (typeName : String) :
    Prop :=
  ∃ c, v.stubOf? typeName = some c ∧
    ∃ m ∈ methodsNamed c name, m.parameters.map Ty.descriptor = parameters

/-- The first class of the lookup order that declares a method stands for all that declare it. -/
theorem exists_first (kept : c ∈ methodsOf v className name) : ∃ before own after,
    v.lookupOrder className = before ++ own :: after ∧ c ∈ declaredIn v name own ∧
      ∀ other ∈ before, ∀ d ∈ declaredIn v name other,
        d.member.erasedKey ≠ c.member.erasedKey := by
  have visible : c ∈ withoutOverridden ((v.lookupOrder className).flatMap (declaredIn v name)) := by
    rw [methodsOf_eq, regulars] at kept
    split at kept
    · exact kept
    · exact (List.mem_filter.mp kept).1
  rw [mem_withoutOverridden, List.find?_flatMap, List.findSome?_eq_some_iff] at visible
  obtain ⟨before, own, after, order, found, unfound⟩ := visible
  refine ⟨before, own, after, order, List.mem_of_find?_eq_some found, ?_⟩
  intro other inside d declared same
  exact List.find?_eq_none.mp (unfound other inside) d declared (by simpa using same)

theorem mem_declaredIn {typeName : String} : c ∈ declaredIn v name typeName ↔
    v.stubOf? typeName = some c.declaring ∧ c.member ∈ methodsNamed c.declaring name := by
  rw [declaredIn]
  cases v.stubOf? typeName with
  | none => simp
  | some stub =>
    simp only [List.mem_map, Option.some.injEq]
    constructor
    · rintro ⟨m, inside, rfl⟩
      exact ⟨rfl, inside⟩
    · rintro ⟨rfl, inside⟩
      exact ⟨c.member, inside, rfl⟩

theorem erasedKey_congr {stub other : ClassStub} {m n : Member} (first : m ∈ methodsNamed stub name)
    (second : n ∈ methodsNamed other name)
    (same : m.parameters.map Ty.descriptor = n.parameters.map Ty.descriptor) :
    m.erasedKey = n.erasedKey := by
  have kinds : m.kind = .method ∧ n.kind = .method := by
    simp only [methodsNamed, List.mem_filter, beq_iff_eq] at first second
    exact ⟨first.2, second.2⟩
  have letters : ∀ types : List Ty, types.flatMap Ty.descriptorChars =
      (types.map Ty.descriptor).flatMap String.toList := by
    intro types
    simp [List.flatMap_map, Ty.descriptor]
  simp only [Member.erasedKey, kinds, letters, same, name_of_mem_methodsNamed first,
    name_of_mem_methodsNamed second]

/-- What the class of a method that is seen from a class hides. -/
structure Prevails (v : ClassView) (className name : String) (c : Candidate) (own : String) :
    Prop where
  declares : v.stubOf? own = some c.declaring ∧ c.member ∈ methodsNamed c.declaring name
  /-- No class before its own in the lookup order declares the method. -/
  foremost : ∃ before after, v.lookupOrder className = before ++ own :: after ∧
    ∀ sub ∈ before, ¬ Declares v name (c.member.parameters.map Ty.descriptor) sub
  /-- No subclass among the superclasses overrides the method. -/
  amongClasses : own ∈ v.superclasses className → ∀ sub ∈ v.superclasses className,
    v.ProperSubtype sub own → ¬ Declares v name (c.member.parameters.map Ty.descriptor) sub
  /-- A method of an interface stands for no method of a class. -/
  behindClasses : own ∉ v.superclasses className → ∀ sub ∈ v.superclasses className,
    ¬ Declares v name (c.member.parameters.map Ty.descriptor) sub
  /-- No nearer interface redeclares the method. -/
  amongInterfaces : own ∉ v.superclasses className → ∀ sub ∈ v.lookupOrder className,
    v.ProperSubtype sub own → v.NearerInterface className sub own →
    ¬ Declares v name (c.member.parameters.map Ty.descriptor) sub
  /-- Nor does an interface through which alone its own is inherited. -/
  amongHeirs : own ∉ v.superclasses className → ∀ sub ∈ v.lookupOrder className,
    v.ProperSubtype sub own → v.InheritsThrough className sub own →
    ¬ Declares v name (c.member.parameters.map Ty.descriptor) sub

/-- Every method that is seen from a class hides what it overrides. -/
theorem overriding_prevails (v : ClassView) (className name : String) (c : Candidate)
    (kept : c ∈ methodsOf v className name) : ∃ own, Prevails v className name c own := by
  obtain ⟨before, own, after, order, declared, first⟩ := exists_first kept
  have declares := mem_declaredIn.mp declared
  have hidden : ∀ sub ∈ before,
      ¬ Declares v name (c.member.parameters.map Ty.descriptor) sub := by
    rintro sub inside ⟨stub, held, m, method, same⟩
    exact first sub inside ⟨stub, m⟩ (mem_declaredIn.mpr ⟨held, method⟩)
      (erasedKey_congr method declares.2 same)
  refine ⟨own, declares, ⟨before, after, order, hidden⟩, ?_, ?_, ?_, ?_⟩
  · intro inside sub inside' proper
    exact hidden sub (ClassView.mem_before_of_proper order inside inside' proper)
  · intro outside sub inside
    exact hidden sub (ClassView.mem_before_of_superclass order outside inside)
  · intro _ sub inside _ nearer
    exact hidden sub (ClassView.mem_before_of_nearer order inside nearer)
  · intro _ sub inside proper through
    exact hidden sub
      (ClassView.mem_before_of_nearer order inside (through.nearer proper.ne inside))

/-- No proper subtype that is searched redeclares a method of a class. -/
def Unoverridden (v : ClassView) (className name : String) (parameters : List String)
    (own : String) : Prop :=
  ∀ sub ∈ v.lookupOrder className, v.ProperSubtype sub own → ¬ Declares v name parameters sub

/-- An interface overrides a method and is searched behind it, as interfaces are behind all classes
and may be behind an interface that is as near. -/
structure Belated (v : ClassView) (className name : String) (parameters : List String)
    (own sub : String) : Prop where
  listed : sub ∈ v.lookupOrder className
  interface : sub ∉ v.superclasses className
  late : own ∈ v.superclasses className ∨ ¬ v.NearerInterface className sub own
  proper : v.ProperSubtype sub own
  redeclares : Declares v name parameters sub

/-- What may override the method of a class is an interface that comes too late. -/
theorem Prevails.belated {own sub : String} (prevails : Prevails v className name c own)
    (listed : sub ∈ v.lookupOrder className) (proper : v.ProperSubtype sub own)
    (redeclares : Declares v name (c.member.parameters.map Ty.descriptor) sub) :
    Belated v className name (c.member.parameters.map Ty.descriptor) own sub := by
  by_cases ofClass : own ∈ v.superclasses className
  · have interface : sub ∉ v.superclasses className := fun inside =>
      prevails.amongClasses ofClass sub inside proper redeclares
    exact ⟨listed, interface, .inl ofClass, proper, redeclares⟩
  · have interface : sub ∉ v.superclasses className := fun inside =>
      prevails.behindClasses ofClass sub inside redeclares
    have late : ¬ v.NearerInterface className sub own := fun nearer =>
      prevails.amongInterfaces ofClass sub listed proper nearer redeclares
    exact ⟨listed, interface, .inr late, proper, redeclares⟩

/-- Every method that is seen from a class hides what it overrides, and it is not overridden itself
if and only if no interface that comes too late does. -/
theorem unoverridden_iff (v : ClassView) (className name : String) (c : Candidate)
    (kept : c ∈ methodsOf v className name) : ∃ own, Prevails v className name c own ∧
      (Unoverridden v className name (c.member.parameters.map Ty.descriptor) own ↔
        ∀ sub, ¬ Belated v className name (c.member.parameters.map Ty.descriptor) own sub) := by
  obtain ⟨own, prevails⟩ := overriding_prevails v className name c kept
  refine ⟨own, prevails, ?_, ?_⟩
  · intro unoverridden sub belated
    exact unoverridden sub belated.listed belated.proper belated.redeclares
  · intro punctual sub listed proper redeclares
    exact punctual sub (prevails.belated listed proper redeclares)

private def typed (name : String) (access : Nat) (interfaces : List String)
    (members : List Member) : ClassStub :=
  ⟨name, ⟨access⟩, some objectClass, interfaces, members, []⟩

private def viewing (stubs : List ClassStub) : ClassView :=
  ⟨.shared, 21, stubs.map fun c => (c.name, ⟨c.name, default, .base, false, c⟩), [], [], []⟩

private def closing : Member := ⟨"close", .method, ⟨1⟩, "()V", [], .void, none⟩

private def sourceStub : ClassStub := typed "demo.Source" 0x601 [] [closing]

/-- An interface that redeclares the method of its superinterface. -/
private def fileStub : ClassStub := typed "demo.File" 0x601 ["demo.Source"] [closing]

/-- A class that inherits an interface through its subinterface. -/
private def plainLog : ClassView :=
  viewing [sourceStub, fileStub, typed "demo.Log" 1 ["demo.File"] []]

theorem unoverridden_iff_plain :
    (⟨fileStub, closing⟩ : Candidate) ∈ methodsOf plainLog "demo.Log" "close" ∧
      ∃ own, Prevails plainLog "demo.Log" "close" ⟨fileStub, closing⟩ own ∧
        Unoverridden plainLog "demo.Log" "close" [] own := by
  have kept : (⟨fileStub, closing⟩ : Candidate) ∈ methodsOf plainLog "demo.Log" "close" := by
    decide +kernel
  obtain ⟨own, prevails, unoverridden⟩ := unoverridden_iff _ _ _ _ kept
  refine ⟨kept, own, prevails, unoverridden.mpr fun sub belated => ?_⟩
  have only : ∀ name ∈ plainLog.lookupOrder "demo.Log", plainLog.stubOf? name = some fileStub →
      name = "demo.File" := by decide +kernel
  obtain ⟨before, after, order, _⟩ := prevails.foremost
  obtain rfl := only own (order ▸ List.mem_append_right _ List.mem_cons_self) prevails.declares.1
  have none : ∀ name ∈ plainLog.lookupOrder "demo.Log", plainLog.isSubtype name "demo.File" = true →
      plainLog.isSubtype "demo.File" name = true ∨ name = "demo.Log" := by decide +kernel
  rcases none sub belated.listed belated.proper.1 with back | rfl
  · exact absurd back (by simp [belated.proper.2])
  · exact belated.interface (by decide +kernel)

/-- A class that lists an interface beside its subinterface. -/
private def twiceLog : ClassView :=
  viewing [sourceStub, fileStub, typed "demo.Log" 1 ["demo.Source", "demo.File"] []]

/-- Supertypes first; all other classes come behind. -/
private def logUpwards : List String :=
  [objectClass, "java.lang.CharSequence", "java.lang.Comparable", "java.io.Serializable",
    "java.lang.Number", iterableClass, collectionClass, listClass, setClass, mapClass,
    "demo.Source", "demo.File"]

private theorem twiceLog_acyclic : twiceLog.Acyclic := by
  have declared : ∀ e ∈ twiceLog.library ++ twiceLog.program,
      ∀ above ∈ e.2.stub.superClass.toList ++ e.2.stub.interfaces,
        logUpwards.idxOf above < logUpwards.idxOf e.1 := by decide +kernel
  have known : ∀ e ∈ platformSupertypes, ∀ above ∈ e.2,
      logUpwards.idxOf above < logUpwards.idxOf e.1 := by decide +kernel
  refine twiceLog.acyclic_of_rank logUpwards.idxOf ?_
  intro name above step
  rcases twiceLog.mem_supertypes step with ⟨e, inside, rfl, listed⟩ | ⟨e, inside, rfl, listed⟩
  · exact declared e inside above listed
  · exact known e inside above listed

/-- A default method that a subinterface redeclares is still represented by the superinterface. -/
theorem redeclared_default_kept :
    ¬ ∀ (v : ClassView) (className name : String) (c : Candidate), v.Acyclic →
      c ∈ methodsOf v className name →
      ∃ own ∈ v.lookupOrder className, v.stubOf? own = some c.declaring ∧
        Unoverridden v className name (c.member.parameters.map Ty.descriptor) own := by
  intro always
  obtain ⟨own, inside, declares, unoverridden⟩ := always twiceLog "demo.Log" "close"
    ⟨sourceStub, closing⟩ twiceLog_acyclic (by decide +kernel)
  have only : ∀ name ∈ twiceLog.lookupOrder "demo.Log",
      twiceLog.stubOf? name = some sourceStub → name = "demo.Source" := by decide +kernel
  obtain rfl := only own inside declares
  have listed : "demo.File" ∈ twiceLog.lookupOrder "demo.Log" := by decide +kernel
  have proper : twiceLog.ProperSubtype "demo.File" "demo.Source" :=
    ⟨by decide +kernel, by decide +kernel⟩
  exact unoverridden "demo.File" listed proper ⟨fileStub, rfl, closing, by decide +kernel, rfl⟩

end Call

end Linkage
