import Linkage.View.Basic

/-!
Putting a class view together from an index, the choice of libraries and the program's names.
-/
namespace Linkage

open Classpath (Index Owner Record)
open View (Namespace Place)

/-- A name of the program that a visible library also has, in isolated mode. -/
structure IsolationConflict where
  name : String
  programOrigin : Place
  libraryOrigin : Place
  mode : Isolation
  deriving Repr, DecidableEq, Inhabited

namespace IsolationConflict

def message (c : IsolationConflict) : String :=
  "classloader isolation conflict under mode `" ++ c.mode.text ++ "`: class `" ++ c.name ++
    "` exists in both program output `" ++ c.programOrigin.text ++ "` and library `" ++
    c.libraryOrigin.text ++ "`"

def diagnostic (c : IsolationConflict) : Diagnostic :=
  (Diagnostic.error Diagnostic.Code.isolationConflict c.message)
    |>.withContext "qualifiedName" c.name
    |>.withContext "programOrigin" c.programOrigin.text
    |>.withContext "libraryOrigin" c.libraryOrigin.text
    |>.withContext "mode" c.mode.text
    |>.withRemedy "rename the program class or run with classloader isolation `shared`"

end IsolationConflict

namespace ClassView

/-- The mediated records of an owner among those of one name. -/
def visible (o : Mediation.Outcome) (owner : Owner) (records : List Record) : List Record :=
  records.filter fun r => r.origin.owner == owner && o.isMediated r.origin.entry

/-- The first visible record of every name. -/
def table (o : Mediation.Outcome) (owner : Owner) (symbols : List (String × List Record)) :
    List (String × Record) :=
  symbols.filterMap fun (name, records) =>
    (visible o owner records).head?.map fun r => (name, r)

/-- The records that the first of a list hides. -/
def shadowedBy (mode : Isolation) (name : String) : List Record → List Duplicate
  | [] => []
  | winner :: rest =>
    rest.map fun r => ⟨name, mode, .classpathOrder, .ofRecord winner, .ofRecord r⟩

/-- The program names that a library also has, each with the library class. -/
def collisions (library : List (String × Record)) (program : Namespace) :
    List (String × Place × Record) :=
  program.classes.filterMap fun (name, place) =>
    (find library name).map fun r => (name, place, r)

/-- Why names cannot be used: first excluded scopes, then unreadable members, then releases. -/
def causes (v : ClassView) (ix : Index) (o : Mediation.Outcome)
    (mismatches : List Classpath.ReleaseMismatch) : List (String × Unavailable) :=
  let excluded := ix.names.filterMap fun name =>
    if v.contains name then none
    else (o.excludedHolder? ix name).map fun x => (name, Unavailable.scopeExcluded ⟨name, x⟩)
  let skipped := ix.skipped.filterMap fun s =>
    s.name.bind fun name =>
      if v.contains name || !o.isMediated s.entry then none else some (name, Unavailable.skipped s)
  let mismatched := mismatches.filterMap fun m =>
    if v.contains m.name || !o.isMediated m.entry then none
    else some (m.name, Unavailable.releaseMismatch m)
  excluded ++ skipped ++ mismatched

/-- The view of a class path, or the least name on which program and libraries collide. -/
def assemble (mode : Isolation) (release : Nat) (program : Namespace) (ix : Index)
    (o : Mediation.Outcome) : Except IsolationConflict ClassView :=
  let selected := ix.select release
  let library := table o .library selected.symbols
  let own := table o .program selected.symbols
  let clashes := collisions library program
  match mode, clashes with
  | .appIsolated, (name, place, r) :: _ => .error ⟨name, place, .ofRecord r, mode⟩
  | _, _ =>
    let hidden := selected.symbols.flatMap fun (name, records) =>
      shadowedBy mode name (visible o .library records) ++
        shadowedBy mode name (visible o .program records)
    let taken := clashes.map fun (name, place, r) =>
      (⟨name, mode, .mediatedOrder, .ofRecord r, place⟩ : Duplicate)
    let v : ClassView := {
      mode, release, library
      program := own
      duplicates := (hidden ++ taken).mergeSort Duplicate.le }
    .ok { v with unavailable := v.causes ix o selected.mismatches }

end ClassView

end Linkage
