import Linkage.Proofs.Classpath.Release
import Linkage.Proofs.Mediation.Winners
import Linkage.View.Assemble

/-!
An assembled view, name by name. The tables of a view go through all names of the index; what they
say of one name depends only on the records of that name that count at the release and that the
mediation shows.
-/
namespace Linkage

open Classpath (Index Owner Record)
open View (Namespace Place)

namespace Classpath.Index
variable {ix : Index} {name : String}

theorem mem_names : name ∈ ix.names ↔ ∃ r ∈ ix.records, r.name = name := by
  rw [names, Text.sortedStrings, List.mem_mergeSort, Text.mem_distinct, List.mem_map]

theorem nodup_names (ix : Index) : ix.names.Nodup :=
  (List.mergeSort_perm _ _).nodup_iff.mpr (Text.nodup_distinct _)

theorem mem_names_of_recordsOf {r : Record} (inside : r ∈ ix.recordsOf name) : name ∈ ix.names := by
  obtain ⟨member, same⟩ := List.mem_filter.mp inside
  exact mem_names.mpr ⟨r, member, beq_iff_eq.mp same⟩

theorem name_of_recordsOf {r : Record} (inside : r ∈ ix.recordsOf name) : r.name = name :=
  beq_iff_eq.mp (List.mem_filter.mp inside).2

/-- Names of which nothing is chosen may be gone through as well. -/
theorem flatMap_select {δ : Type} (release : Nat) {give : String × List Record → List δ}
    (nothing : ∀ name, give (name, []) = []) :
    (ix.select release).symbols.flatMap give =
      ix.names.flatMap fun name => give (name, winnersOf release (ix.recordsOf name)) := by
  simp only [select, symbols]
  induction ix.names with
  | nil => rfl
  | cons name rest ih =>
    rw [List.map_cons, List.map_cons, List.filter_cons, List.flatMap_cons, ← ih]
    cases chosen : winnersOf release (ix.recordsOf name) with
    | nil => simp [nothing]
    | cons w more => simp

end Classpath.Index

namespace ClassView
variable {mode : Isolation} {release : Nat} {program : Namespace} {ix : Index}
  {o : Mediation.Outcome} {owner : Owner} {v : ClassView} {name : String}

/-- The records of a class that count at a release, of mediated entries of an owner. -/
def shown (ix : Index) (o : Mediation.Outcome) (release : Nat) (owner : Owner) (name : String) :
    List Record :=
  visible o owner (Classpath.winnersOf release (ix.recordsOf name))

theorem mem_shown {r : Record} : r ∈ shown ix o release owner name ↔
    r ∈ Classpath.winnersOf release (ix.recordsOf name) ∧ r.origin.owner = owner ∧
      o.isMediated r.origin.entry = true := by
  simp only [shown, visible, List.mem_filter, Bool.and_eq_true, beq_iff_eq]

/-- The index has a name of which something is shown. -/
theorem mem_names_of_shown {r : Record} (inside : r ∈ shown ix o release owner name) :
    name ∈ ix.names :=
  Index.mem_names_of_recordsOf (Classpath.winnersOf_suits (mem_shown.mp inside).1).1

theorem table_select (o : Mediation.Outcome) (owner : Owner) (release : Nat) (ix : Index) :
    table o owner (ix.select release).symbols =
      ix.names.filterMap fun name =>
        (shown ix o release owner name).head?.map fun r => (name, r) := by
  simp only [table, List.filterMap_eq_flatMap_toList]
  exact Index.flatMap_select release fun _ => rfl

/-- A list that goes through names, with what each is given, has for a name what it is given. -/
theorem find?_filterMap_name {β : Type} (names : List String) (give : String → Option β)
    (name : String) :
    ((names.filterMap fun n => (give n).map fun b => (n, b)).find? (·.1 == name)).map (·.2) =
      if name ∈ names then give name else none := by
  induction names with
  | nil => rfl
  | cons n rest ih =>
    by_cases same : n = name
    · subst same
      cases given : give n with
      | none => simpa [given] using ih
      | some b => simp [given]
    · have differ : name ≠ n := Ne.symm same
      cases given : give n with
      | none => simpa [given, differ] using ih
      | some b => simpa [given, same, differ] using ih

/-- A table has the first record that is shown of every name. -/
theorem find_table (o : Mediation.Outcome) (owner : Owner) (release : Nat) (ix : Index)
    (name : String) :
    find (table o owner (ix.select release).symbols) name =
      (shown ix o release owner name).head? := by
  rw [find, table_select, find?_filterMap_name]
  split
  · rfl
  · rename_i absent
    cases first : (shown ix o release owner name).head? with
    | none => rfl
    | some r => exact absurd (mem_names_of_shown (List.mem_of_mem_head? first)) absent

/-- The duplicates within the class path. -/
def hidden (mode : Isolation) (release : Nat) (ix : Index) (o : Mediation.Outcome) :
    List Duplicate :=
  ix.names.flatMap fun name =>
    shadowedBy mode name (shown ix o release .library name) ++
      shadowedBy mode name (shown ix o release .program name)

/-- The program names that the libraries take, each with its place and the library class. -/
def clashes (release : Nat) (program : Namespace) (ix : Index) (o : Mediation.Outcome) :
    List (String × Place × Record) :=
  program.classes.filterMap fun (name, place) =>
    (shown ix o release .library name).head?.map fun r => (name, place, r)

/-- The duplicates of program names that a library takes. -/
def taken (mode : Isolation) (release : Nat) (program : Namespace) (ix : Index)
    (o : Mediation.Outcome) : List Duplicate :=
  (clashes release program ix o).map fun (name, place, r) =>
    ⟨name, mode, .mediatedOrder, .ofRecord r, place⟩

theorem collisions_eq :
    collisions (table o .library (ix.select release).symbols) program =
      clashes release program ix o := by
  simp only [collisions, find_table]
  rfl

theorem hidden_eq :
    ((ix.select release).symbols.flatMap fun (name, records) =>
      shadowedBy mode name (visible o .library records) ++
        shadowedBy mode name (visible o .program records)) = hidden mode release ix o :=
  Index.flatMap_select release fun _ => rfl

/-- What a view that could be assembled is made of. -/
structure Assembled (mode : Isolation) (release : Nat) (program : Namespace) (ix : Index)
    (o : Mediation.Outcome) (v : ClassView) : Prop where
  libraries : v.library = table o .library (ix.select release).symbols
  programs : v.program = table o .program (ix.select release).symbols
  duplicates : v.duplicates =
    (hidden mode release ix o ++ taken mode release program ix o).mergeSort Duplicate.le
  unavailable : v.unavailable = v.causes ix o (ix.select release).mismatches

theorem assemble_cases (mode : Isolation) (release : Nat) (program : Namespace) (ix : Index)
    (o : Mediation.Outcome) :
    (∃ name place r more, mode = .appIsolated ∧
      clashes release program ix o = (name, place, r) :: more ∧
      assemble mode release program ix o = .error ⟨name, place, .ofRecord r, mode⟩) ∨
    ((mode = .appIsolated → clashes release program ix o = []) ∧
      ∃ v, assemble mode release program ix o = .ok v ∧
        Assembled mode release program ix o v) := by
  unfold assemble
  simp only [collisions_eq, hidden_eq]
  split
  · rename_i name place r more found
    exact .inl ⟨name, place, r, more, rfl, found, rfl⟩
  · rename_i fine
    refine .inr ⟨?_, _, rfl, rfl, rfl, rfl, rfl⟩
    intro isolated
    cases found : clashes release program ix o with
    | nil => rfl
    | cons clash more => exact (fine _ _ _ _ isolated found).elim

theorem assembled_of_ok (done : assemble mode release program ix o = .ok v) :
    Assembled mode release program ix o v := by
  rcases assemble_cases mode release program ix o with ⟨_, _, _, _, _, _, failed⟩ | ⟨_, _, made, is⟩
  · rw [failed] at done
    cases done
  · rw [made] at done
    obtain rfl := Except.ok.inj done
    exact is

/-- The first record of the libraries, or the first of the program when they have none. -/
theorem Assembled.lookup (is : Assembled mode release program ix o v) (name : String) :
    v.lookup name =
      ((shown ix o release .library name).head? <|> (shown ix o release .program name).head?) := by
  rw [ClassView.lookup, is.libraries, is.programs, find_table, find_table]

/-- A class is found under its own name. -/
theorem Assembled.name_of_lookup (is : Assembled mode release program ix o v) {r : Record}
    (found : v.lookup name = some r) : r.name = name := by
  have named : ∀ {owner : Owner}, r ∈ shown ix o release owner name → r.name = name :=
    fun inside => Index.name_of_recordsOf (Classpath.winnersOf_suits (mem_shown.mp inside).1).1
  rw [is.lookup, Option.orElse_eq_some] at found
  rcases found with found | ⟨_, found⟩
  · exact named (List.mem_of_mem_head? found)
  · exact named (List.mem_of_mem_head? found)

end ClassView

end Linkage
