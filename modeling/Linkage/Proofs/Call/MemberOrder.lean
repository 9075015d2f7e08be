import Linkage.Proofs.Arrangement
import Linkage.Proofs.Call.Outline
import Linkage.Proofs.Call.Stages

/-!
The order in which classes list their members. A choice among candidates looks at them one by one
and sorts what it keeps, so it gives the same answer for lists that differ in places only. The one
step that asks who came first is hiding: of methods of a class that have the same parameters, the
first hides the others, also where it is a bridge and would itself be left out. Hence resolution
does not depend on the order of members as long as every class keeps its first method for each list
of parameters, and for constructors it never does.
-/
namespace Linkage.Call

/-! Candidates in another order. -/

theorem sortedStrings_eq_of_perm {texts texts' : List String} (perm : texts.Perm texts') :
    Text.sortedStrings texts = Text.sortedStrings texts' :=
  (AlikeBy.of_perm_self perm).mergeSort_eq fun _ _ => decide_eq_true_iff

/-- What the sort of candidates looks at last. -/
def Candidate.place (c : Candidate) : String ×ₗ String :=
  toLex (c.member.descriptor, c.declaring.name)

section Alike
variable {v : ClassView} {kind : Binding} {shapes : List Shape} {candidates others : List Candidate}
variable {c : Candidate}

theorem candidate_of_takes? {a : Applied} (taken : takes? v kind shapes c = some a) :
    a.candidate = c := by
  cases (takes?_eq_some_iff.mp taken).2 <;> rfl

theorem signature_of_apply {r : Rejection} (answer : apply v shapes c = .error r) :
    r.signature = c.signature := by
  simp only [apply] at answer
  split at answer
  · split at answer
    · cases answer
    · split at answer
      · cases answer
      · cases answer
        rfl
  · split at answer
    · split at answer
      · cases answer
      · cases answer
        rfl
    · cases answer
      rfl

theorem refusal_eq_of_alike {rejected rejected' : List Rejection}
    (alike : AlikeBy Rejection.signature rejected rejected') :
    refusal shapes rejected = refusal shapes rejected' := by
  rw [refusal, refusal, alike.mergeSort_eq fun _ _ => decide_eq_true_iff]

theorem tied_eq_of_alike {applied applied' : List Applied}
    (alike : AlikeBy (fun a => a.candidate.place) applied applied') :
    tied applied = tied applied' := by
  have sorted : applied.mergeSort Applied.le = applied'.mergeSort Applied.le :=
    (alike.finer (fun key => key.2) fun _ => rfl).mergeSort_eq Applied.le_iff_sortKey
  rw [tied, tied, sorted]

/-- A choice does not depend on the order of the candidates, but for those that no sort can tell
apart. -/
theorem select_eq_of_alike (places : AlikeBy Candidate.place candidates others)
    (signatures : AlikeBy Candidate.signature candidates others) :
    select v kind candidates shapes = select v kind others shapes := by
  have fits : (fitting candidates shapes).Perm (fitting others shapes) := places.perm.filter _
  have called : AlikeBy Candidate.signature (callable kind candidates shapes)
      (callable kind others shapes) := (signatures.filter _).filter _
  have taken : tied (takers v kind candidates shapes) = tied (takers v kind others shapes) := by
    rw [takers_eq, takers_eq]
    refine tied_eq_of_alike (places.filterMap ?_)
    intro c a taken
    rw [candidate_of_takes? taken]
  have refused : refusal shapes (rejections v kind candidates shapes) =
      refusal shapes (rejections v kind others shapes) := by
    rw [rejections, rejections, List.filterMap_map, List.filterMap_map]
    refine refusal_eq_of_alike (called.filterMap ?_)
    intro c r rejected
    rw [Function.comp_apply] at rejected
    split at rejected
    · rename_i answer
      cases rejected
      exact signature_of_apply answer
    · cases rejected
  rw [select_eq, select_eq, fits.isEmpty_eq, called.perm.isEmpty_eq, taken, refused,
    sortedStrings_eq_of_perm (places.perm.map _), sortedStrings_eq_of_perm (fits.filterMap _)]

end Alike

/-! Hiding: which candidates of a list come first. -/

section Hiding

theorem withoutOverridden_sublist (l : List Candidate) : (withoutOverridden l).Sublist l := by
  induction l with
  | nil => exact .slnil
  | cons c l ih => exact .cons_cons c (List.filter_sublist.trans ih)

/-- A candidate is kept when it is the first with its erased signature. -/
theorem mem_withoutOverridden {l : List Candidate} {c : Candidate} :
    c ∈ withoutOverridden l ↔
      l.find? (·.member.erasedKey == c.member.erasedKey) = some c := by
  induction l with
  | nil => simp [withoutOverridden]
  | cons d l ih =>
    rw [withoutOverridden, List.mem_cons, List.mem_filter, ih, List.find?_cons]
    by_cases same : d.member.erasedKey = c.member.erasedKey
    · simp [same, eq_comm]
    · have differ : c ≠ d := by
        rintro rfl
        exact same rfl
      have other : (d.member.erasedKey == c.member.erasedKey) = false := by simpa using same
      simp [other, differ, Ne.symm same]

theorem nodup_withoutOverridden (l : List Candidate) : (withoutOverridden l).Nodup := by
  induction l with
  | nil => exact .nil
  | cons c l ih =>
    rw [withoutOverridden, List.nodup_cons]
    exact ⟨by simp, ih.filter _⟩

theorem withoutOverridden_append (l r : List Candidate) :
    withoutOverridden (l ++ r) = withoutOverridden l ++ (withoutOverridden r).filter fun d =>
      (l.find? (·.member.erasedKey == d.member.erasedKey)).isNone := by
  induction l with
  | nil => simp [withoutOverridden]
  | cons c l ih =>
    rw [List.cons_append, withoutOverridden, withoutOverridden, ih, List.filter_append,
      List.filter_filter, List.cons_append]
    congr 2
    apply List.filter_congr
    intro d _
    rw [List.find?_cons]
    by_cases same : c.member.erasedKey = d.member.erasedKey
    · simp [same]
    · have other : (c.member.erasedKey == d.member.erasedKey) = false := by simpa using same
      simp [other, Ne.symm same]

/-- For every erased signature the same candidate comes first. -/
def SameFirsts (l l' : List Candidate) : Prop :=
  ∀ key, l.find? (·.member.erasedKey == key) = l'.find? (·.member.erasedKey == key)

/-- Hiding class by class, where every class has the same first candidates. -/
theorem withoutOverridden_flatMap_alike {κ : Type} {key : Candidate → κ}
    {block block' : String → List Candidate} (firsts : ∀ a, SameFirsts (block a) (block' a))
    (distinct : ∀ a, ((block a).map key).Nodup) (order : List String) :
    AlikeBy key (withoutOverridden (order.flatMap block))
      (withoutOverridden (order.flatMap block')) := by
  induction order with
  | nil => exact .refl key []
  | cons a order ih =>
    have kept : (withoutOverridden (block a)).Perm (withoutOverridden (block' a)) := by
      refine (List.perm_ext_iff_of_nodup (nodup_withoutOverridden _)
        (nodup_withoutOverridden _)).mpr ?_
      intro c
      rw [mem_withoutOverridden, mem_withoutOverridden, firsts]
    have keys : ((withoutOverridden (block a)).map key).Nodup :=
      (distinct a).sublist ((withoutOverridden_sublist _).map key)
    rw [List.flatMap_cons, List.flatMap_cons, withoutOverridden_append, withoutOverridden_append]
    simp only [firsts a _]
    exact (AlikeBy.of_perm kept keys).append (ih.filter _)

theorem withoutOverridden_map_outline (l : List Candidate) :
    withoutOverridden (l.map Candidate.outline) = (withoutOverridden l).map Candidate.outline := by
  induction l with
  | nil => rfl
  | cons c l ih =>
    rw [List.map_cons, withoutOverridden, withoutOverridden, ih, List.filter_map]
    rfl

/-- Synthetic candidates only count where there are no others. -/
def regulars (visible : List Candidate) : List Candidate :=
  let regular := visible.filter (!·.member.isBridgeOrSynthetic)
  if regular.isEmpty then visible else regular

theorem regulars_map_outline (l : List Candidate) :
    regulars (l.map Candidate.outline) = (regulars l).map Candidate.outline := by
  have regular : (l.map Candidate.outline).filter (!·.member.isBridgeOrSynthetic) =
      (l.filter (!·.member.isBridgeOrSynthetic)).map Candidate.outline := List.filter_map ..
  simp only [regulars, regular, List.isEmpty_map]
  split <;> rfl

theorem regulars_alike {κ : Type} {key : Candidate → κ} {l l' : List Candidate}
    (alike : AlikeBy key l l') : AlikeBy key (regulars l) (regulars l') := by
  have regular := alike.filter (!·.member.isBridgeOrSynthetic)
  simp only [regulars, regular.perm.isEmpty_eq]
  split
  · exact alike
  · exact regular

end Hiding

/-! What classes list. -/

/-- The methods of a name in the order of the class. -/
def methodsNamed (c : ClassStub) (name : String) : List Member :=
  (c.membersNamed name).filter (·.kind == .method)

/-- No two methods of a class have one name and one descriptor. A constructor is a method with the
fixed name. -/
structure Distinct (c : ClassStub) : Prop where
  methods : ((c.members.filter (·.kind == .method)).map fun m => (m.name, m.descriptor)).Nodup
  constructors : (c.constructors.map fun m => (m.name, m.descriptor)).Nodup
  named : ∀ m ∈ c.constructors, m.name = constructorName

/-- Of the methods of a name, two classes have the same first one for each list of parameters. -/
def KeepsFirsts (name : String) (c d : ClassStub) : Prop :=
  ∀ key, (methodsNamed c name).find? (·.erasedKey == key) =
    (methodsNamed d name).find? (·.erasedKey == key)

/-- The methods of a name in one of the classes that are searched. -/
def declaredIn (v : ClassView) (name ancestor : String) : List Candidate :=
  match v.stubOf? ancestor with
  | some c => (methodsNamed c name).map fun m => ⟨c, m⟩
  | none => []

theorem methodsOf_eq (v : ClassView) (className name : String) : methodsOf v className name =
    regulars (withoutOverridden ((v.lookupOrder className).flatMap (declaredIn v name))) :=
  rfl

section Classes
variable {κ : Type} {key : Candidate → κ} {c d : ClassStub} {name : String} {members : List Member}

/-- The key tells candidates of one class and one name apart by their descriptors. -/
def Telling (key : Candidate → κ) : Prop :=
  ∀ {c : ClassStub} {m n : Member}, m.name = n.name → key ⟨c, m⟩ = key ⟨c, n⟩ →
    m.descriptor = n.descriptor

theorem telling_place : Telling Candidate.place := by
  intro c m n _ same
  exact (Prod.mk.inj (toLex.injective same)).1

theorem telling_signature : Telling Candidate.signature := by
  intro c m n name same
  rw [Candidate.signature, Candidate.signature, name] at same
  exact String.append_right_inj _ |>.mp same

/-- Candidates for distinct methods of one name have distinct keys. -/
theorem nodup_keys (telling : Telling key) (named : ∀ m ∈ members, m.name = name)
    (distinct : (members.map fun m => (m.name, m.descriptor)).Nodup) (c : ClassStub) :
    ((members.map fun m => (⟨c, m⟩ : Candidate)).map key).Nodup := by
  rw [List.map_map]
  refine List.pairwise_map.mpr ((List.pairwise_map.mp distinct).imp_of_mem ?_)
  intro m n inside inside' differ same
  have alike : m.name = n.name := (named m inside).trans (named n inside').symm
  exact differ (Prod.ext alike (telling alike same))

theorem Distinct.methodsNamed (distinct : Distinct c) (name : String) :
    ((methodsNamed c name).map fun m => (m.name, m.descriptor)).Nodup := by
  rw [Call.methodsNamed, ClassStub.membersNamed, List.filter_comm]
  exact distinct.methods.sublist (List.filter_sublist.map _)

theorem name_of_mem_methodsNamed {m : Member} (inside : m ∈ methodsNamed c name) :
    m.name = name := by
  simp only [methodsNamed, ClassStub.membersNamed, List.mem_filter, beq_iff_eq] at inside
  exact inside.1.2

/-- Where no two methods of a name have the same parameters, all are first. -/
theorem keepsFirsts_of_perm (perm : c.members.Perm d.members)
    (single : ((methodsNamed c name).map (·.erasedKey)).Nodup) : KeepsFirsts name c d := by
  intro key
  have same : (methodsNamed c name).Perm (methodsNamed d name) := (perm.filter _).filter _
  have alike : AlikeBy Member.erasedKey (methodsNamed c name) (methodsNamed d name) :=
    .of_perm same single
  rw [find?_eq_head?_ofKey, find?_eq_head?_ofKey, alike key]

end Classes

section Views
variable {v w : ClassView} {κ : Type} {key : Candidate → κ} {name : String}

theorem stubOf?_related {R : ClassStub → ClassStub → Prop} (outlines : v.outline = w.outline)
    (related : List.Forall₂ R v.stubs w.stubs) (ancestor : String) :
    Option.Rel (fun c d => c.outline = d.outline ∧ R c d) (v.stubOf? ancestor)
      (w.stubOf? ancestor) := by
  rw [ClassView.stubOf?, ClassView.stubOf?]
  have found := ClassView.lookup_related outlines related ancestor
  generalize v.lookup ancestor = held at found ⊢
  generalize w.lookup ancestor = other at found ⊢
  cases found with
  | none => exact .none
  | some both => exact .some ⟨congrArg Classpath.Record.stub both.1, both.2⟩

theorem declaredIn_firsts (outlines : v.outline = w.outline)
    (kept : List.Forall₂ (KeepsFirsts name) v.stubs w.stubs) (ancestor : String) :
    SameFirsts ((declaredIn v name ancestor).map Candidate.outline)
      ((declaredIn w name ancestor).map Candidate.outline) := by
  intro key
  have found := stubOf?_related outlines kept ancestor
  rw [declaredIn, declaredIn]
  generalize v.stubOf? ancestor = held at found ⊢
  generalize w.stubOf? ancestor = other at found ⊢
  cases found with
  | none => rfl
  | @some c d both =>
    have first : ∀ c : ClassStub, (((methodsNamed c name).map fun m => (⟨c, m⟩ : Candidate)).map
        Candidate.outline).find? (·.member.erasedKey == key) =
          ((methodsNamed c name).find? (·.erasedKey == key)).map fun m => ⟨c.outline, m⟩ := by
      intro c
      rw [List.map_map, List.find?_map]
      rfl
    simp only [first, both.1, both.2 key]

theorem mem_stubs_of_lookup {r : Classpath.Record} (held : v.lookup name = some r) :
    r.stub ∈ v.stubs := by
  rw [v.lookup_eq_find, Option.map_eq_some_iff] at held
  obtain ⟨e, found, rfl⟩ := held
  exact List.mem_map.mpr ⟨e, List.mem_of_find?_eq_some found, rfl⟩

theorem declaredIn_nodup (telling : Telling key) (distinct : ∀ c ∈ v.stubs, Distinct c)
    (name ancestor : String) :
    (((declaredIn v name ancestor).map Candidate.outline).map key).Nodup := by
  rw [declaredIn]
  cases held : v.stubOf? ancestor with
  | none => exact .nil
  | some c =>
    obtain ⟨r, lookup, rfl⟩ := Option.map_eq_some_iff.mp held
    rw [List.map_map (g := Candidate.outline)]
    exact nodup_keys telling (fun _ => name_of_mem_methodsNamed)
      ((distinct _ (mem_stubs_of_lookup lookup)).methodsNamed name) r.stub.outline

/-- The methods that are seen from a class, up to their order. -/
theorem methodsOf_alike (telling : Telling key) (distinct : ∀ c ∈ v.stubs, Distinct c)
    (outlines : v.outline = w.outline)
    (kept : List.Forall₂ (KeepsFirsts name) v.stubs w.stubs) (className : String) :
    AlikeBy key ((methodsOf v className name).map Candidate.outline)
      ((methodsOf w className name).map Candidate.outline) := by
  have order : v.lookupOrder = w.lookupOrder := by
    rw [← v.lookupOrder_outline, outlines, w.lookupOrder_outline]
  rw [methodsOf_eq, methodsOf_eq, ← regulars_map_outline, ← regulars_map_outline,
    ← withoutOverridden_map_outline, ← withoutOverridden_map_outline, List.map_flatMap,
    List.map_flatMap, order]
  exact regulars_alike (withoutOverridden_flatMap_alike (declaredIn_firsts outlines kept)
    (declaredIn_nodup telling distinct name) _)

/-- A binding does not depend on the order of the candidates, nor on what else their classes
declare. -/
theorem bindOne_congr {candidates others : List Candidate} (outlines : v.outline = w.outline)
    (alike : ∀ {κ : Type} {key : Candidate → κ}, Telling key →
      AlikeBy key (candidates.map Candidate.outline) (others.map Candidate.outline)) (t : Target)
    (shapes : List Shape) (missing : Cause) :
    bindOne v t shapes candidates missing = bindOne w t shapes others missing := by
  have empty : candidates.isEmpty = others.isEmpty := by
    rw [← List.isEmpty_map, (alike telling_place).perm.isEmpty_eq, List.isEmpty_map]
  have forget : ∀ x : Except Cause Applied,
      x.map (bind t) = (x.map Applied.outline).map (bind t) := by
    intro x
    cases x <;> rfl
  rw [bindOne, bindOne, empty, forget, forget (select w t.kind others shapes),
    ← select_map_outline, ← select_map_outline, ← select_outline v, outlines, select_outline w,
    select_eq_of_alike (alike telling_place) (alike telling_signature)]

theorem resolveMethod_congr {t : Target} {start start' : Classpath.Record}
    (distinct : ∀ c ∈ v.stubs, Distinct c) (outlines : v.outline = w.outline)
    (kept : List.Forall₂ (KeepsFirsts t.member) v.stubs w.stubs)
    (same : start.outline = start'.outline) (shapes : List Shape) :
    resolveMethod v t start shapes = resolveMethod w t start' shapes := by
  have named : start.name = start'.name := (Classpath.Record.mk.inj same).1
  rw [resolveMethod_eq, resolveMethod_eq, named]
  exact bindOne_congr outlines
    (fun telling => methodsOf_alike telling distinct outlines kept start'.name) t shapes _

theorem constructorsOf_alike {c d : ClassStub} (distinct : Distinct c)
    (outlines : c.outline = d.outline) (members : c.members.Perm d.members)
    (telling : Telling key) :
    AlikeBy key ((constructorsOf c).map Candidate.outline)
      ((constructorsOf d).map Candidate.outline) := by
  have forget : ∀ c : ClassStub, (constructorsOf c).map Candidate.outline =
      c.constructors.map fun m => ⟨c.outline, m⟩ := fun _ => List.map_map ..
  have perm : c.constructors.Perm d.constructors := members.filter _
  rw [forget, forget, ← outlines]
  exact .of_perm (perm.map _) (nodup_keys telling distinct.named distinct.constructors _)

theorem resolveConstructor_congr {t : Target} {owner owner' : Classpath.Record}
    (distinct : Distinct owner.stub) (outlines : v.outline = w.outline)
    (same : owner.outline = owner'.outline)
    (members : owner.stub.members.Perm owner'.stub.members) (shapes : List Shape) :
    resolveConstructor v t owner shapes = resolveConstructor w t owner' shapes := by
  have stub : owner.stub.outline = owner'.stub.outline := congrArg Classpath.Record.stub same
  obtain ⟨name, access, -⟩ := ClassStub.mk.inj stub
  rw [resolveConstructor_eq, resolveConstructor_eq, ClassStub.isInterface, ClassStub.isInterface,
    name, access, bindOne_congr outlines
      (fun telling => constructorsOf_alike distinct stub members telling) t shapes]

end Views

section Owners
variable (v : ClassView)

theorem classOf_outline (name : String) :
    classOf v.outline name = (classOf v name).map Classpath.Record.outline := by
  have reason : v.outline.explainMissing name = v.explainMissing name := rfl
  rw [classOf, classOf, v.lookup_outline, reason]
  cases v.lookup name with
  | some r => rfl
  | none => cases v.explainMissing name <;> rfl

theorem startOf_outline (owner : Classpath.Record) (receiver : Option String) :
    startOf v.outline owner.outline receiver =
      (startOf v owner receiver).map Classpath.Record.outline := by
  have named : owner.outline.name = owner.name := rfl
  cases receiver with
  | none => rfl
  | some name =>
    simp only [startOf, named, v.lookup_outline, v.isSubtype_outline]
    by_cases same : name = owner.name
    · rw [if_pos same, if_pos same]
      rfl
    · rw [if_neg same, if_neg same]
      cases v.lookup name with
      | none => rfl
      | some r =>
        simp only [Option.map_some]
        cases v.isSubtype name owner.name <;> rfl

theorem searchStart_outline (t : Target) (receiver : Option String) :
    searchStart v.outline t receiver =
      (searchStart v t receiver).map Classpath.Record.outline := by
  rw [searchStart, searchStart, classOf_outline]
  cases classOf v t.owner with
  | error cause => rfl
  | ok owner => exact startOf_outline v owner _

end Owners

section Targets
variable {v w : ClassView} {t : Target}

theorem resolve_eq_of_keepsFirsts (callable : t.kind.isField = false)
    (method : t.kind ≠ .constructor) (distinct : ∀ c ∈ v.stubs, Distinct c)
    (outlines : v.outline = w.outline)
    (kept : List.Forall₂ (KeepsFirsts t.member) v.stubs w.stubs) (receiver : Option String)
    (shapes : List Shape) : resolve v t receiver shapes = resolve w t receiver shapes := by
  have starts : (searchStart v t receiver).map Classpath.Record.outline =
      (searchStart w t receiver).map Classpath.Record.outline := by
    rw [← searchStart_outline, outlines, searchStart_outline]
  rw [resolve_method_eq v shapes callable method, resolve_method_eq w shapes callable method]
  refine congrArg _ (Outcome.bind_eq_of_map_eq starts ?_)
  intro start start' _ _ same
  exact resolveMethod_congr distinct outlines kept same shapes

theorem resolve_eq_of_constructor (constructor : t.kind = .constructor)
    (distinct : ∀ c ∈ v.stubs, Distinct c) (rearranged : v.Rearranged w)
    (receiver : Option String) (shapes : List Shape) :
    resolve v t receiver shapes = resolve w t receiver shapes := by
  have owners : (classOf v t.owner).map Classpath.Record.outline =
      (classOf w t.owner).map Classpath.Record.outline := by
    rw [← classOf_outline, rearranged.outline, classOf_outline]
  rw [resolve_constructor_eq v shapes constructor, resolve_constructor_eq w shapes constructor]
  refine congrArg _ (Outcome.bind_eq_of_map_eq owners ?_)
  intro owner owner' held held' same
  rw [classOf_eq_ok_iff] at held held'
  have related := ClassView.lookup_related rearranged.outline rearranged.members t.owner
  rw [held, held'] at related
  cases related with
  | some both =>
    exact resolveConstructor_congr (distinct _ (mem_stubs_of_lookup held)) rearranged.outline same
      both.2 shapes

end Targets

/-- What a call or a constructor resolves to when classes list their members in another order. It
stays the same where every class keeps its first method for each list of parameters, so in
particular where no class declares two methods of the name with the same parameters. For
constructors it always stays the same. -/
theorem resolve_rearranged (v w : ClassView) (t : Target) (receiver : Option String)
    (shapes : List Shape) (rearranged : v.Rearranged w) (distinct : ∀ c ∈ v.stubs, Distinct c)
    (callable : t.kind.isField = false) :
    (t.kind = .constructor → resolve v t receiver shapes = resolve w t receiver shapes) ∧
    (List.Forall₂ (KeepsFirsts t.member) v.stubs w.stubs →
      resolve v t receiver shapes = resolve w t receiver shapes) ∧
    ((∀ c ∈ v.stubs, ((methodsNamed c t.member).map (·.erasedKey)).Nodup) →
      resolve v t receiver shapes = resolve w t receiver shapes) := by
  have same : List.Forall₂ (KeepsFirsts t.member) v.stubs w.stubs →
      resolve v t receiver shapes = resolve w t receiver shapes := by
    intro kept
    by_cases constructor : t.kind = .constructor
    · exact resolve_eq_of_constructor constructor distinct rearranged receiver shapes
    · exact resolve_eq_of_keepsFirsts callable constructor distinct rearranged.outline kept receiver
        shapes
  refine ⟨fun constructor =>
    resolve_eq_of_constructor constructor distinct rearranged receiver shapes, same, ?_⟩
  intro single
  apply same
  have both := (List.forall₂_and_left v.stubs w.stubs).mpr ⟨single, rearranged.members⟩
  exact both.imp fun _ _ ⟨once, perm⟩ => keepsFirsts_of_perm perm once

private def getString : Member :=
  ⟨"get", .method, ⟨1⟩, "()Ljava/lang/String;", [], .named stringClass, none⟩

/-- The bridge to a method with a narrower result. -/
private def getObject : Member :=
  ⟨"get", .method, ⟨0x1041⟩, "()Ljava/lang/Object;", [], .object, none⟩

private def getAt : Member :=
  ⟨"get", .method, ⟨1⟩, "(I)Ljava/lang/String;", [.primitive .int], .named stringClass, none⟩

private def boxed (members : List Member) : ClassView :=
  ⟨.shared, 21, [("demo.Box", ⟨"demo.Box", default, .base, false,
    ⟨"demo.Box", ⟨1⟩, some objectClass, [], members, []⟩⟩)], [], [], []⟩

private def getTarget : Target := ⟨"demo.Box", "get", .instanceMethod⟩

private theorem boxed_rearranged {members others : List Member} (perm : members.Perm others) :
    (boxed members).Rearranged (boxed others) :=
  ⟨rfl, .cons perm .nil⟩

/-- Another overload in front leaves the method first and its bridge hidden. -/
theorem resolve_rearranged_overload :
    (boxed [getString, getObject, getAt]).Rearranged (boxed [getAt, getString, getObject]) ∧
      (∀ c ∈ (boxed [getString, getObject, getAt]).stubs, Distinct c) ∧
      getTarget.kind.isField = false ∧
      resolve (boxed [getString, getObject, getAt]) getTarget none [] =
        resolve (boxed [getAt, getString, getObject]) getTarget none [] := by
  have rearranged := boxed_rearranged
    (show [getString, getObject, getAt].Perm [getAt, getString, getObject] by decide)
  have distinct : ∀ c ∈ (boxed [getString, getObject, getAt]).stubs, Distinct c := by
    intro c inside
    obtain rfl := List.mem_singleton.mp inside
    exact ⟨by decide +kernel, by decide +kernel, by decide +kernel⟩
  refine ⟨rearranged, distinct, rfl, ?_⟩
  refine (resolve_rearranged _ _ getTarget none [] rearranged distinct rfl).2.1 (.cons ?_ .nil)
  intro key
  change [getString, getObject, getAt].find? (·.erasedKey == key) =
    [getAt, getString, getObject].find? (·.erasedKey == key)
  have apart : getString.erasedKey ≠ getAt.erasedKey ∧ getObject.erasedKey ≠ getAt.erasedKey := by
    decide +kernel
  by_cases own : getAt.erasedKey = key
  · simp [← own, apart]
  · have front : [getString, getObject, getAt] = [getString, getObject] ++ [getAt] := rfl
    rw [front, List.find?_append]
    simp [own]

/-- A bridge that is listed first hides the method that it leads to. -/
theorem bridge_listed_first :
    ¬ ∀ (v w : ClassView) (t : Target) (receiver : Option String) (shapes : List Shape),
      v.Rearranged w → (∀ c ∈ v.stubs, Distinct c) → t.kind.isField = false →
      resolve v t receiver shapes = resolve w t receiver shapes := by
  intro always
  have same := always (boxed [getObject, getString]) (boxed [getString, getObject]) getTarget none
    [] (boxed_rearranged (.swap _ _ _)) ?_ rfl
  · have bound := congrArg (fun x => x.toOption.map (·.descriptor)) same
    revert bound
    decide +kernel
  · intro c inside
    obtain rfl := List.mem_singleton.mp inside
    exact ⟨by decide +kernel, by decide +kernel, by decide +kernel⟩

end Linkage.Call
