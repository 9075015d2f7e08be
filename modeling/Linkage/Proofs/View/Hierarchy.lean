import Linkage.Proofs.View.Searches

/-!
What the queries on a hierarchy answer, whatever its classes declare. Everything above a class is
listed once, what is nearer first; the distance of two classes is the length of the shortest chain
between them; a member is looked for in the superclasses and then in the interfaces that lead on
from them. All searches end, on cyclic declarations too, and subtyping is reflexive and transitive.
-/
namespace Linkage

namespace ClassView
variable (v : ClassView)

def superclass? (name : String) : Option String := (v.stubOf? name).bind (·.superClass)

/-- A run from a class to its superclasses, one after the other, behind those found before. -/
inductive Climbs : List String → String → List String → Prop where
  | cut {chain : List String} {name : String} (known : name ∈ chain) : Climbs chain name chain
  | topped {chain : List String} {name : String} (new : name ∉ chain)
      (top : v.superclass? name = none) : Climbs chain name (chain ++ [name])
  | onward {chain found : List String} {name above : String} (new : name ∉ chain)
      (up : v.superclass? name = some above) (rest : Climbs (chain ++ [name]) above found) :
      Climbs chain name found

/-- The superclasses of a class in order, the class itself first. None stands twice, and none is
left out. -/
structure IsSuperclassChain (className : String) (chain : List String) : Prop where
  head : chain.head? = some className
  linked : chain.IsChain fun a b => v.superclass? a = some b
  once : chain.Nodup
  closed : ∀ a ∈ chain, ∀ b, v.superclass? a = some b → b ∈ chain

/-- A class and its superclasses, as a member is looked for in them. -/
def superclasses (className : String) : List String :=
  v.superclassChain (v.stubs.length + 2) [] className

/-- The classes in which a member is looked for, each with its depth in the search. -/
def searched (className : String) : List (String × Nat) :=
  breadthFirst v.interfacesOf v.searchBound
    (((v.superclasses className).flatMap v.interfacesOf).map (·, 0))
    ((v.superclasses className).map (·, 0))

theorem lookupOrder_eq (className : String) :
    v.lookupOrder className = (v.searched className).map (·.1) :=
  rfl

/-! The superclasses. -/

/-- Classes that have a superclass are held by the view. -/
theorem length_le_stubs {names : List String} (once : names.Nodup)
    (below : ∀ name ∈ names, (v.superclass? name).isSome = true) :
    names.length ≤ v.stubs.length := by
  have held : names ⊆ (v.library ++ v.program).map (·.1) := by
    intro name inside
    have found := below name inside
    rw [superclass?, stubOf?, lookup_eq_find] at found
    cases entry : (v.library ++ v.program).find? (·.1 == name) with
    | none => simp [entry] at found
    | some e =>
      have same : e.1 = name := by simpa using List.find?_some entry
      exact List.mem_map.mpr ⟨e, List.mem_of_find?_eq_some entry, same⟩
  have fewer := (once.subperm held).length_le
  rw [List.length_map] at fewer
  rwa [stubs, List.length_map]

theorem superclassChain_climbs (fuel : Nat) {chain : List String} {name : String}
    (once : chain.Nodup) (below : ∀ a ∈ chain, (v.superclass? a).isSome = true)
    (enough : v.stubs.length < fuel + chain.length) :
    v.Climbs chain name (v.superclassChain fuel chain name) := by
  induction fuel generalizing chain name with
  | zero =>
    have fewer := v.length_le_stubs once below
    omega
  | succ fuel ih =>
    rw [superclassChain]
    split
    · rename_i known
      exact .cut (by simpa using known)
    · rename_i fresh
      have new : name ∉ chain := by simpa using fresh
      split
      · rename_i above up
        refine .onward new up (ih (nodup_snoc new once) ?_ ?_)
        · intro a inside
          rcases List.mem_append.mp inside with inside | last
          · exact below a inside
          · rw [List.mem_singleton.mp last, superclass?, up]
            rfl
        · rw [List.length_append, List.length_singleton]
          omega
      · rename_i top
        exact .topped new top

theorem superclasses_climb (className : String) :
    v.Climbs [] className (v.superclasses className) :=
  v.superclassChain_climbs _ List.nodup_nil (by simp) (by simp)

variable {v}

/-- In a chain everything but its end has its superclass behind it. -/
theorem superclass_mem {chain : List String} {name a b : String}
    (linked : (chain ++ [name]).IsChain fun a b => v.superclass? a = some b) (inside : a ∈ chain)
    (up : v.superclass? a = some b) : b ∈ chain ++ [name] := by
  obtain ⟨front, back, rfl⟩ := List.append_of_mem inside
  rw [List.append_assoc, List.cons_append] at linked
  have tail := (List.isChain_append.mp linked).2.1
  cases back with
  | nil =>
    obtain rfl := Option.some.inj (up.symm.trans (List.isChain_cons_cons.mp tail).1)
    simp
  | cons above back =>
    obtain rfl := Option.some.inj (up.symm.trans (List.isChain_cons_cons.mp tail).1)
    simp

theorem Climbs.isSuperclassChain {chain found : List String} {className name : String}
    (climbs : v.Climbs chain name found) (once : chain.Nodup)
    (head : (chain ++ [name]).head? = some className)
    (linked : (chain ++ [name]).IsChain fun a b => v.superclass? a = some b) :
    v.IsSuperclassChain className found := by
  induction climbs with
  | @cut chain name known =>
    constructor
    · rwa [List.head?_append_of_ne_nil _ (List.ne_nil_of_mem known)] at head
    · exact (List.isChain_append.mp linked).1
    · exact once
    · intro a inside b up
      rcases List.mem_append.mp (superclass_mem linked inside up) with inside | last
      · exact inside
      · rwa [List.mem_singleton.mp last]
  | @topped chain name new top =>
    refine ⟨head, linked, nodup_snoc new once, ?_⟩
    intro a inside b up
    rcases List.mem_append.mp inside with inside | last
    · exact superclass_mem linked inside up
    · rw [List.mem_singleton.mp last, top] at up
      cases up
  | @onward chain found name above new up rest ih =>
    refine ih (nodup_snoc new once) ?_ ?_
    · rwa [List.head?_append_of_ne_nil _ (by simp)]
    · refine linked.append (List.isChain_singleton _) ?_
      simpa using up

variable (v)

theorem superclasses_isSuperclassChain (className : String) :
    v.IsSuperclassChain className (v.superclasses className) :=
  (v.superclasses_climb className).isSuperclassChain List.nodup_nil rfl (List.isChain_singleton _)

/-! The searches of a view. -/

theorem ancestry_searches (className : String) :
    Searches v.supertypes [(className, 0)] [] (v.ancestry className) := by
  refine breadthFirst_searches (v.searchBound - 1) ?_ List.nodup_nil ?_
  · intro names distinct
    exact Nat.le_sub_one_of_lt (v.leads_supertypes_lt distinct)
  · have some : 0 < v.searchBound := v.leads_supertypes_lt List.nodup_nil
    rw [List.length_singleton]
    omega

theorem leads_interfacesOf_le (names : List String) :
    leads v.interfacesOf names ≤ leads v.supertypes names := by
  refine List.sum_le_sum fun name _ => ?_
  rw [interfacesOf, supertypes]
  cases v.stubOf? name with
  | none => exact Nat.zero_le _
  | some c => simp

theorem searched_searches (className : String) :
    Searches v.interfacesOf (((v.superclasses className).flatMap v.interfacesOf).map (·, 0))
      ((v.superclasses className).map (·, 0)) (v.searched className) := by
  have names : ((v.superclasses className).map (·, 0)).map (·.1) = v.superclasses className := by
    simp [Function.comp_def]
  refine breadthFirst_searches v.searchBound ?_ ?_ ?_
  · intro names distinct
    exact (v.leads_interfacesOf_le names).trans (v.leads_supertypes_lt distinct).le
  · rw [names]
    exact (v.superclasses_isSuperclassChain className).once
  -- What is queued at the start is what the superclasses have paid for.
  · rw [names, leads, List.length_map, List.length_flatMap, Nat.add_comm]

theorem searched_sweep (className : String) :
    Sweep v.interfacesOf (v.superclasses className) [] (v.searched className) :=
  (v.searched_searches className).keeps Sweep.dropped Sweep.followed
    (.begin (v.superclasses_isSuperclassChain className).once)

/-- Where a class stands in the lookup order, no class behind it is nearer to the superclasses. -/
theorem lookupOrder_sorted (className : String) : (v.lookupOrder className).Pairwise fun a b =>
    ∀ near far, IsLeast {count | StepsFrom v.interfacesOf (v.superclasses className) a count} near →
      IsLeast {count | StepsFrom v.interfacesOf (v.superclasses className) b count} far →
      near ≤ far := by
  have sweep := v.searched_sweep className
  refine List.pairwise_map.mpr (sweep.sorted.imp_of_mem ?_)
  intro a b first second sorted near far least least'
  rwa [least.unique (sweep.isLeast_level first), least'.unique (sweep.isLeast_level second)]

theorem superclasses_first (className : String) :
    v.superclasses className <+: v.lookupOrder className := by
  have front := (v.searched_searches className).isPrefix.map (·.1)
  rw [List.map_map] at front
  simpa [Function.comp_def, lookupOrder_eq] using front

/-! What the queries answer. -/

/-- The least number of steps from a class up to another. -/
def Shortest (sub sup : String) (depth : Nat) : Prop :=
  IsLeast {count | Steps v.supertypes sub sup count} depth

/-- Everything above a class, the class first, nothing twice, and nothing before what is nearer. -/
structure IsLinearization (className : String) (order : List String) : Prop where
  head : order.head? = some className
  once : order.Nodup
  complete : ∀ name, name ∈ order ↔ ∃ count, Steps v.supertypes className name count
  ordered : order.Pairwise fun a b => ∃ near far, v.distance className a = some near ∧
    v.distance className b = some far ∧ near ≤ far

theorem linearize_isLinearization (className : String) :
    v.IsLinearization className (v.linearize className) := by
  have run := v.ancestry_searches className
  obtain ⟨search, sorted⟩ := run.of_start
  have away : ∀ e ∈ v.ancestry className, v.distance className e.1 = some e.2 := by
    intro e listed
    exact v.distance_of_shortest (v.mem_ancestry_iff.mp listed)
  constructor
  · -- The first step follows the class itself.
    cases run with
    | dropped known => simp at known
    | followed _ rest =>
      obtain ⟨others, found⟩ := rest.isPrefix
      rw [linearize, ← found]
      rfl
  · exact search.once
  · intro name
    rw [linearize, List.mem_map]
    constructor
    · rintro ⟨e, listed, rfl⟩
      exact ⟨e.2, (v.mem_ancestry_iff.mp listed).1⟩
    · rintro ⟨count, steps⟩
      obtain ⟨depth, shortest⟩ := steps.exists_shortest
      exact ⟨_, v.mem_ancestry_iff.mpr shortest, rfl⟩
  · refine List.pairwise_map.mpr (sorted.imp_of_mem ?_)
    intro a b first second near
    exact ⟨a.2, b.2, away a first, away b second, near⟩

/-- What the outcome of a search for a class says about its distance. The root class lies beyond
everything that the search has followed. -/
def distanceOf (sup : String) : Nat ⊕ Nat → Option Nat
  | .inl depth => some depth
  | .inr deepest => if sup = objectClass then some (deepest + 1) else none

theorem distance_seeks (sub sup : String) :
    ∃ outcome, Seeks v.supertypes sup [(sub, 0)] [] 0 outcome ∧
      v.distance sub sup = distanceOf sup outcome := by
  refine ⟨_, (v.ancestry_searches sub).seeks (by simp), ?_⟩
  rw [distance]
  cases (v.ancestry sub).find? (·.1 == sup) <;> rfl

theorem deepest_isGreatest (className : String) :
    IsGreatest {depth | ∃ name, v.Shortest className name depth} (v.deepest className) := by
  constructor
  · have own : (className, 0) ∈ v.ancestry className :=
      v.mem_ancestry_iff.mpr ⟨.start, fun _ _ => Nat.zero_le _⟩
    have depths : v.deepest className = furthest (v.ancestry className) := rfl
    rw [depths]
    rcases furthest_cases (v.ancestry className) with none | ⟨e, listed, same⟩
    · rw [none]
      exact ⟨className, v.mem_ancestry_iff.mp own⟩
    · rw [← same]
      exact ⟨e.1, v.mem_ancestry_iff.mp listed⟩
  · rintro depth ⟨name, shortest⟩
    exact v.le_deepest (v.mem_ancestry_iff.mpr shortest)

theorem isSubtype_trans (rootless : v.supertypes objectClass = []) {a b c : String}
    (first : v.isSubtype a b = true) (second : v.isSubtype b c = true) :
    v.isSubtype a c = true := by
  rw [isSubtype_iff] at first second ⊢
  rcases second with ⟨further, onward⟩ | rfl
  · rcases first with ⟨count, steps⟩ | rfl
    · exact .inl ⟨_, steps.trans onward⟩
    · -- Nothing is above the root class but itself.
      exact .inr (onward.eq_of_none rootless)
  · exact .inr rfl

/-- The classes in which a member is looked for: the superclasses, then what the interfaces of
classes lead to from them. -/
structure IsLookupOrder (className : String) (order : List String) : Prop where
  once : order.Nodup
  parted : ∃ chain interfaces, order = chain ++ interfaces ∧ v.IsSuperclassChain className chain ∧
    ∀ name, name ∈ interfaces ↔
      name ∉ chain ∧ ∃ count, StepsFrom v.interfacesOf chain name count

theorem lookupOrder_isLookupOrder (className : String) :
    v.IsLookupOrder className (v.lookupOrder className) := by
  have sweep := v.searched_sweep className
  refine ⟨sweep.once, ?_⟩
  obtain ⟨interfaces, order⟩ := v.superclasses_first className
  refine ⟨_, interfaces, order.symm, v.superclasses_isSuperclassChain className, ?_⟩
  intro name
  have once := sweep.once
  rw [← lookupOrder_eq, ← order] at once
  have reached := @Sweep.mem_iff _ _ _ sweep name
  rw [← lookupOrder_eq, ← order, List.mem_append] at reached
  rw [← reached]
  have apart := (List.nodup_append.mp once).2.2
  constructor
  · intro inside
    exact ⟨fun own => apart _ own _ inside rfl, .inr inside⟩
  · rintro ⟨outside, own | inside⟩
    · exact absurd own outside
    · exact inside

/-- Every query ends and answers rightly, on cyclic hierarchies too. -/
theorem queries_answered (v : ClassView) :
    (∀ className, Searches v.supertypes [(className, 0)] [] (v.ancestry className) ∧
      v.linearize className = (v.ancestry className).map (·.1) ∧
      v.IsLinearization className (v.linearize className)) ∧
    (∀ sub sup, (∃ outcome, Seeks v.supertypes sup [(sub, 0)] [] 0 outcome ∧
        v.distance sub sup = distanceOf sup outcome) ∧
      (∀ depth, v.Shortest sub sup depth → v.distance sub sup = some depth) ∧
      ((∀ count, ¬ Steps v.supertypes sub sup count) →
        (sup = objectClass → ∃ greatest, v.distance sub sup = some (greatest + 1) ∧
          IsGreatest {depth | ∃ name, v.Shortest sub name depth} greatest) ∧
        (sup ≠ objectClass → v.distance sub sup = none))) ∧
    (∀ className, ∃ chain found, v.Climbs [] className chain ∧
      Searches v.interfacesOf ((chain.flatMap v.interfacesOf).map (·, 0)) (chain.map (·, 0)) found ∧
      v.lookupOrder className = found.map (·.1) ∧
      v.IsLookupOrder className (v.lookupOrder className)) ∧
    (∀ a, v.isSubtype a a = true) ∧
    (v.supertypes objectClass = [] → ∀ a b c, v.isSubtype a b = true → v.isSubtype b c = true →
      v.isSubtype a c = true) := by
  refine ⟨?_, ?_, ?_, ?_, ?_⟩
  · intro className
    exact ⟨v.ancestry_searches className, rfl, v.linearize_isLinearization className⟩
  · intro sub sup
    refine ⟨v.distance_seeks sub sup, fun depth => v.distance_of_shortest, ?_⟩
    intro unreached
    have answer := v.distance_of_unreached unreached
    constructor
    · intro root
      exact ⟨_, by rw [answer, if_pos root], v.deepest_isGreatest sub⟩
    · intro other
      rw [answer, if_neg other]
  · intro className
    exact ⟨_, _, v.superclasses_climb className, v.searched_searches className, rfl,
      v.lookupOrder_isLookupOrder className⟩
  · intro a
    exact v.isSubtype_iff.mpr (.inl ⟨0, .start⟩)
  · intro rootless a b c
    exact v.isSubtype_trans rootless

private def ringed (name above : String) : String × Classpath.Record :=
  (name, ⟨name, default, .base, false, ⟨name, ⟨1⟩, some above, [], [], []⟩⟩)

/-- Three classes, each the superclass of the one before it. -/
private def ring : ClassView :=
  ⟨.shared, 21, [ringed "demo.A" "demo.B", ringed "demo.B" "demo.C", ringed "demo.C" "demo.A"],
    [], [], []⟩

theorem queries_answered_in_ring :
    ring.supertypes objectClass = [] ∧ ring.isSubtype "demo.A" "demo.B" = true ∧
      ring.isSubtype "demo.B" "demo.C" = true ∧ ring.isSubtype "demo.A" "demo.C" = true ∧
      ring.IsLinearization "demo.A" ["demo.A", "demo.B", "demo.C"] := by
  obtain ⟨linearized, _, _, _, transitive⟩ := queries_answered ring
  have rootless : ring.supertypes objectClass = [] := by decide +kernel
  have first : ring.isSubtype "demo.A" "demo.B" = true := by decide +kernel
  have second : ring.isSubtype "demo.B" "demo.C" = true := by decide +kernel
  have order : ring.linearize "demo.A" = ["demo.A", "demo.B", "demo.C"] := by decide +kernel
  exact ⟨rootless, first, second, transitive rootless _ _ _ first second,
    order ▸ (linearized "demo.A").2.2⟩

end ClassView

end Linkage
