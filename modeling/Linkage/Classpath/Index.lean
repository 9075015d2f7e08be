import Linkage.Classpath.Record
import Linkage.Diagnostic.Basic
import Linkage.Library.Coordinate

/-!
The index of a class path. It is descriptive: every occurrence of a class is kept, the entries in
the order of the path, and nothing is chosen yet. What could not be read is kept as a report and
turns into a warning.
-/
namespace Linkage.Classpath

/-- What was learnt about one entry. -/
structure Report where
  entry : Entry
  metadata : Option Metadata
  multiRelease : Bool
  module : Option String
  classCount : Nat
  deriving Repr, DecidableEq, Inhabited

def Report.toJson (r : Report) : Json :=
  .object [("entry", r.entry.toJson), ("metadata", .ofOption Metadata.toJson r.metadata),
    ("multi_release", .bool r.multiRelease), ("module", .ofString? r.module),
    ("class_count", .ofNat r.classCount)]

/-- A member that could not be read. -/
structure Skipped where
  entry : Nat
  location : String
  member : String
  name : Option String
  reason : String
  deriving Repr, DecidableEq, Inhabited

namespace Skipped

def toJson (s : Skipped) : Json :=
  .object [("entry", .ofNat s.entry), ("location", .string s.location),
    ("member", .string s.member), ("qualified_name", .ofString? s.name),
    ("reason", .string s.reason)]

def diagnostic (s : Skipped) : Diagnostic :=
  (Diagnostic.warning Diagnostic.Code.memberSkipped
    ("Skipped unreadable member `" ++ s.member ++ "`: " ++ s.reason))
    |>.withContext "entry" s.location
    |>.withContext "member" s.member
    |>.withContext "reason" s.reason

end Skipped

/-- An entry that could not be read at all. -/
structure Unreadable where
  entry : Nat
  location : String
  reason : String
  deriving Repr, DecidableEq, Inhabited

namespace Unreadable

def toJson (u : Unreadable) : Json :=
  .object [("entry", .ofNat u.entry), ("location", .string u.location),
    ("reason", .string u.reason)]

def diagnostic (u : Unreadable) : Diagnostic :=
  (Diagnostic.warning Diagnostic.Code.entryUnreadable
    ("Classpath entry `" ++ u.location ++ "` could not be read: " ++ u.reason))
    |>.withContext "entry" u.location
    |>.withContext "reason" u.reason

end Unreadable

structure Index where
  reports : List Report := []
  records : List Record := []
  skipped : List Skipped := []
  unreadable : List Unreadable := []
  deriving Repr, DecidableEq, Inhabited

namespace Index

/-- Every name once, in ascending order. -/
def names (ix : Index) : List String :=
  Text.sortedStrings (Text.distinct (ix.records.map (·.name)))

/-- The occurrences of a class, in the order of the class path. -/
def recordsOf (ix : Index) (name : String) : List Record := ix.records.filter (·.name == name)

def symbols (ix : Index) : List (String × List Record) :=
  ix.names.map fun n => (n, ix.recordsOf n)

def report? (ix : Index) (ordinal : Nat) : Option Report :=
  ix.reports.find? (·.entry.ordinal == ordinal)

def skippedFor? (ix : Index) (name : String) : Option Skipped :=
  ix.skipped.find? (·.name == some name)

/-- The warnings in the order of the entries; of one entry its own warning comes first. -/
def diagnostics (ix : Index) : List Diagnostic :=
  let all := ix.unreadable.map (fun u => (u.entry, u.diagnostic)) ++
    ix.skipped.map (fun s => (s.entry, s.diagnostic))
  (all.mergeSort fun a b => a.1 ≤ b.1).map (·.2)

def toJson (ix : Index) : Json :=
  .object [("entries", .list Report.toJson ix.reports),
    ("symbols", .object (ix.symbols.map fun (n, rs) => (n, .list Record.toJson rs))),
    ("skipped", .list Skipped.toJson ix.skipped),
    ("unreadable", .list Unreadable.toJson ix.unreadable)]

end Index

end Linkage.Classpath
