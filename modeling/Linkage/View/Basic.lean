import Linkage.Classpath.Release
import Linkage.FileTree.Action
import Linkage.Mediation.Outcome
import Linkage.View.Mode
import Linkage.View.Namespace

/-!
Class views: one class for every visible name. A view also keeps what it hides, and why a name
that the class path holds cannot be used.
-/
namespace Linkage

open Classpath (Record ReleaseMismatch Skipped)
open View (Place)

/-- By which order one class hides another. -/
inductive DuplicateRule where
  | mediatedOrder
  | classpathOrder
  deriving Repr, DecidableEq, Inhabited

def DuplicateRule.text : DuplicateRule → String
  | .mediatedOrder => "mediated-order"
  | .classpathOrder => "classpath-order"

structure Duplicate where
  name : String
  mode : Isolation
  rule : DuplicateRule
  winner : Place
  shadowed : Place
  deriving Repr, DecidableEq, Inhabited

namespace Duplicate

def toJson (d : Duplicate) : Json :=
  .object [("qualifiedName", .string d.name), ("mode", .string d.mode.text),
    ("rule", .string d.rule.text), ("winner", d.winner.toJson), ("shadowed", d.shadowed.toJson)]

def key (d : Duplicate) : String × String × String :=
  (d.name, d.shadowed.location, d.shadowed.member)

/-- The order of duplicates: by name, then by the place of what is hidden. -/
def le (a b : Duplicate) : Bool :=
  let (a1, a2, a3) := a.key
  let (b1, b2, b3) := b.key
  decide (a1 < b1) || (a1 == b1 && (decide (a2 < b2) || (a2 == b2 && decide (a3 ≤ b3))))

end Duplicate

/-- Why a name that the class path holds cannot be used. -/
inductive Unavailable where
  | scopeExcluded (v : Mediation.ScopeViolation)
  | skipped (s : Skipped)
  | releaseMismatch (m : ReleaseMismatch)
  deriving Repr, DecidableEq, Inhabited

def Unavailable.diagnostic : Unavailable → Diagnostic
  | .scopeExcluded v => v.diagnostic
  | .skipped s =>
    (Diagnostic.error Diagnostic.Code.unreadableSymbol
      ("interop target class `" ++ s.name.getD s.member ++ "` could not be read from `" ++
        s.location ++ "`: " ++ s.reason))
      |>.withContext "entry" s.location
      |>.withContext "member" s.member
      |>.withContext "reason" s.reason
  | .releaseMismatch m =>
    (Diagnostic.error Diagnostic.Code.releaseMismatch
      ("interop target class `" ++ m.name ++ "` requires release " ++ toString m.lowest ++
        " but the target release is " ++ toString m.target))
      |>.withContext "qualifiedName" m.name
      |>.withContext "entry" m.location
      |>.withContext "lowestRelease" (toString m.lowest)
      |>.withContext "targetRelease" (toString m.target)

/-- Where a name stands more than once among the unavailable ones, its first cause counts. -/
structure ClassView where
  mode : Isolation
  release : Nat
  library : List (String × Record) := []
  program : List (String × Record) := []
  duplicates : List Duplicate := []
  unavailable : List (String × Unavailable) := []
  deriving Repr, DecidableEq, Inhabited

namespace ClassView

def find (table : List (String × Record)) (name : String) : Option Record :=
  (table.find? (·.1 == name)).map (·.2)

/-- The class of a name; a library class comes before a program class. -/
def lookup (v : ClassView) (name : String) : Option Record :=
  find v.library name <|> find v.program name

def contains (v : ClassView) (name : String) : Bool := (v.lookup name).isSome

def explainMissing (v : ClassView) (name : String) : Option Unavailable :=
  (v.unavailable.find? (·.1 == name)).map (·.2)

/-- The visible classes in the order of their names. -/
def symbols (v : ClassView) : List Record :=
  let hidden := v.program.filter fun (n, _) => (find v.library n).isNone
  ((v.library ++ hidden).mergeSort fun a b => decide (a.1 ≤ b.1)).map (·.2)

/-- How many visible classes come from archives with forms for several releases. -/
structure ReleaseStats where
  winners : Nat
  baseWinners : Nat
  versionedWinners : Nat
  deriving Repr, DecidableEq, Inhabited

def ReleaseStats.toJson (s : ReleaseStats) : Json :=
  .object [("mrJarWinnerCount", .ofNat s.winners), ("mrJarBaseWinnerCount", .ofNat s.baseWinners),
    ("mrJarVersionedWinnerCount", .ofNat s.versionedWinners)]

def releaseStats (v : ClassView) : ReleaseStats :=
  let records := v.symbols.filter (·.multiRelease)
  let base := records.filter (·.variant == .base)
  ⟨records.length, base.length, records.length - base.length⟩

def indexFileName : String := "class-index.json"

/-- The class index as it is written out at the end of a run. -/
def toJson (v : ClassView) : Json :=
  let symbols := v.symbols
  .object [("formatVersion", .string "0.1"), ("isolationMode", .string v.mode.text),
    ("targetRelease", .ofNat v.release), ("symbolCount", .ofNat symbols.length),
    ("duplicateCount", .ofNat v.duplicates.length), ("release", v.releaseStats.toJson),
    ("symbols", .list (fun r => .object [("qualifiedName", .string r.name),
      ("variant", .string (match r.variant with
        | .base => "base"
        | .versioned n => toString n)),
      ("origin", (Place.ofRecord r).toJson)]) symbols),
    ("duplicates", .list Duplicate.toJson v.duplicates)]

end ClassView

end Linkage
