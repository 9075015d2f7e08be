import Linkage.Proofs.Call.Generated
import Linkage.Proofs.Call.Places

/-!
What is generated for a set of targets. Every class that is called has one forwarding class, with a
name and a file of its own, and in it one method for every binding. The names of classes end in a
word, so a number behind one is never taken for a part of it; the names of methods may end in a
number themselves, and then two methods of a class can have the same name.
-/
namespace Linkage.Call.ForwardingClass

open Text (Unnumbered)

variable {package : String} {targets : List Target} {c : ForwardingClass}

section Classes

theorem unnumbered_baseName (owner : String) : Unnumbered (baseName owner) := by
  have word : Unnumbered "Bridge" := by
    intro c last
    obtain rfl : 'e' = c := by simpa using last
    decide
  exact Text.unnumbered_append (by decide) word

/-- No two classes have the same name: a name with a number is none that was made of an owner. -/
theorem nodup_classNames (targets : List Target) : (classNames targets).Nodup := by
  have plain : ∀ name ∈ (ownersOf targets).map baseName, Unnumbered name := by
    intro name among
    obtain ⟨owner, _, rfl⟩ := List.mem_map.mp among
    exact unnumbered_baseName owner
  refine (nodup_numbered_iff fun name among => ?_).mpr fun name n _ _ taken => ?_
  · rw [String.append_empty]
    exact plain name among
  · exact Text.not_unnumbered_append_toString _ n (plain _ taken)

/-- The files of the classes are told apart by their last components. -/
theorem nodup_components (package : String) (targets : List Target) :
    ((generate package targets).map fun c => Path.components c.path).Nodup := by
  have files : ((generate package targets).map fun c => Path.components c.path).map List.getLast? =
      (classNames targets).map fun name => some (name ++ ".java") := by
    rw [← map_className_generate package, List.map_map, List.map_map]
    refine List.map_congr_left fun c among => ?_
    have placed : c.path = pathOf package c.className :=
      congrArg ForwardingClass.path (eq_classFor among)
    have named : c.className ∈ classNames targets := by
      rw [← map_className_generate package]
      exact List.mem_map_of_mem among
    rw [Function.comp_apply, Function.comp_apply, placed,
      components_pathOf package (slash_not_mem_className _ _ named)]
  refine .of_map List.getLast? ?_
  rw [files]
  refine (nodup_classNames targets).map fun name other same => ?_
  exact (String.append_left_inj ".java").mp (Option.some.inj same)

end Classes

/-- What is generated is complete, and nothing in it stands twice. It depends on nothing but which
bindings are called on which owners; there is one class for each owner, in ascending order of these;
no two classes share their name or their file; and the source of a class can be read in one way
only, as one method for each binding of its owner, in ascending order of these, which hands on the
owner and the binding. -/
theorem generated_complete (package : String) (targets : List Target) :
    (∀ others : List Target,
      (∀ owner binding, Bound targets owner binding ↔ Bound others owner binding) →
        generate package targets = generate package others) ∧
    ((generate package targets).map (·.owner)).Pairwise (· < ·) ∧
    (∀ owner, owner ∈ (generate package targets).map (·.owner) ↔
      ∃ binding, Bound targets owner binding) ∧
    ((generate package targets).map (·.className)).Nodup ∧
    ((generate package targets).map fun c => Path.components c.path).Nodup ∧
    ∀ c ∈ generate package targets, ∃ ms : List Method,
      (∀ others, c.Declares package others ↔ others = ms) ∧
      (∀ m ∈ ms, m.owner = c.owner) ∧
      (ms.map (·.binding)).Pairwise (· < ·) ∧
      ∀ binding, binding ∈ ms.map (·.binding) ↔ Bound targets c.owner binding := by
  rw [map_owner_generate, map_className_generate]
  refine ⟨fun others => generate_congr, Text.pairwise_ascending _, fun owner => mem_ownersOf,
    nodup_classNames targets, nodup_components package targets, fun c among => ?_⟩
  refine ⟨methodsFor targets c.owner, fun others => declares_iff among,
    fun m member => owner_of_mem_methodsFor member, ?_⟩
  rw [map_binding_methodsFor]
  exact ⟨Text.pairwise_ascending _, fun binding => mem_bindingsOf⟩

section Methods

/-- The bindings of an owner whose methods are to be named alike. -/
def sharing (targets : List Target) (owner name : String) : List String :=
  (bindingsOf targets owner).filter (identifier · == name)

/-- A name that so many bindings share that one of them is numbered, while another binding has the
numbered name for its own. -/
structure Clash (targets : List Target) (owner name : String) (n : Nat) : Prop where
  later : 2 ≤ n
  shared : n ≤ (sharing targets owner name).length
  taken : sharing targets owner (name ++ "_" ++ toString n) ≠ []

theorem count_identifiers (targets : List Target) (owner name : String) :
    ((bindingsOf targets owner).map identifier).count name =
      (sharing targets owner name).length := by
  rw [List.count, List.countP_map, List.countP_eq_length_filter]
  rfl

theorem mem_identifiers {owner name : String} :
    name ∈ (bindingsOf targets owner).map identifier ↔ sharing targets owner name ≠ [] := by
  rw [← List.count_pos_iff, count_identifiers, List.length_pos_iff]

theorem nodup_methodNames_iff (targets : List Target) (owner : String) :
    (methodNames (bindingsOf targets owner)).Nodup ↔ ∀ name n, ¬ Clash targets owner name n := by
  have plain (name : String) : Unnumbered (name ++ "_") := by
    refine Text.unnumbered_append (by decide) fun c last => ?_
    obtain rfl : '_' = c := by simpa using last
    decide
  rw [methodNames, nodup_numbered_iff fun name _ => plain name]
  simp only [count_identifiers, mem_identifiers]
  constructor
  · intro free name n clash
    exact free name n clash.later clash.shared clash.taken
  · intro apart name n later shared taken
    exact apart name n ⟨later, shared, taken⟩

end Methods

/-- The methods of a generated class have names of their own exactly when no binding has for its
own name one that another gets with a number. -/
theorem methods_distinct_iff {ms : List Method} (among : c ∈ generate package targets)
    (declares : c.Declares package ms) :
    (ms.map (·.name)).Nodup ↔ ∀ name n, ¬ Clash targets c.owner name n := by
  rw [(declares_iff among).mp declares, map_name_methodsFor]
  exact nodup_methodNames_iff targets c.owner

/-- Targets of one owner come to one class, whose name has no number. -/
theorem mem_generate_of_ownersOf {owner : String} (package : String)
    (owners : ownersOf targets = [owner]) :
    classFor package targets owner (baseName owner) ∈ generate package targets := by
  rw [generate_eq, classNames, owners]
  exact List.mem_singleton.mpr rfl

/-- An instance method and a static one, named so that their methods would be named alike. -/
def twins : List Target :=
  [⟨"demo.Calls", "run", .instanceMethod⟩, ⟨"demo.Calls", "_instance_run", .staticMethod⟩]

theorem methods_distinct_twins : ∃ c ∈ generate "demo.calls" twins, ∃ ms : List Method,
    c.Declares "demo.calls" ms ∧ ms.map (·.name) = ["_instance_run", "_instance_run_2"] ∧
      ∀ name n, ¬ Clash twins c.owner name n := by
  have owners : ownersOf twins = ["demo.Calls"] := Text.sortedStrings_eq (by decide) (by decide)
  have bindings : bindingsOf twins "demo.Calls" = ["$instance$run", "_instance_run"] :=
    Text.sortedStrings_eq (by decide +kernel) (by decide)
  have among := mem_generate_of_ownersOf "demo.calls" owners
  have names : (methodsFor twins "demo.Calls").map (·.name) =
      ["_instance_run", "_instance_run_2"] := by
    rw [map_name_methodsFor, bindings]
    decide +kernel
  have declares := (declares_iff among).mpr rfl
  refine ⟨_, among, methodsFor twins "demo.Calls", declares, names, ?_⟩
  refine (methods_distinct_iff among declares).mp ?_
  have apart : ["_instance_run", "_instance_run_2"].Nodup := by decide
  exact names ▸ apart

/-- With a third one that is named as the second of them is numbered. -/
def triplets : List Target := ⟨"demo.Calls", "_instance_run_2", .staticMethod⟩ :: twins

/-- Two methods of a generated class can have the same name. -/
theorem method_declared_twice : ∃ c ∈ generate "demo.calls" triplets, ∃ ms : List Method,
    c.Declares "demo.calls" ms ∧ ¬ (ms.map (·.name)).Nodup := by
  have owners : ownersOf triplets = ["demo.Calls"] := Text.sortedStrings_eq (by decide) (by decide)
  have bindings : bindingsOf triplets "demo.Calls" =
      ["$instance$run", "_instance_run", "_instance_run_2"] :=
    Text.sortedStrings_eq (by decide +kernel) (by decide)
  have among := mem_generate_of_ownersOf "demo.calls" owners
  have names : (methodsFor triplets "demo.Calls").map (·.name) =
      ["_instance_run", "_instance_run_2", "_instance_run_2"] := by
    rw [map_name_methodsFor, bindings]
    decide +kernel
  refine ⟨_, among, methodsFor triplets "demo.Calls", (declares_iff among).mpr rfl, ?_⟩
  have twice : ¬ ["_instance_run", "_instance_run_2", "_instance_run_2"].Nodup := by decide
  exact names ▸ twice

end Linkage.Call.ForwardingClass
