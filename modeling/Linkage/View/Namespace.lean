import Linkage.Classpath.Index

/-!
The names that a program takes: classes of its own entries and classes that are still to be
generated. Every name stands once, in ascending order, with the place that it comes from.
-/
namespace Linkage.View

open Classpath (Index Origin Record)

/-- Where a class comes from, as it is shown in a class index. -/
structure Place where
  owner : String
  source : String
  location : String
  member : String
  module : String
  package : String
  deriving Repr, DecidableEq, Inhabited

namespace Place

def ofOrigin (o : Origin) : Place :=
  ⟨o.owner.text, o.source, o.location, o.member, o.module.getD "", o.package⟩

def ofRecord (r : Record) : Place := ofOrigin r.origin

/-- A class that the program is going to generate. -/
def generated (name location : String) : Place :=
  ⟨"program", "generated", location, Text.replaceChar '.' '/' name ++ ".class", "",
    Text.beforeLastPoint name⟩

def text (p : Place) : String := p.location ++ "!" ++ p.member

def toJson (p : Place) : Json :=
  .object [("owner", .string p.owner), ("sourceKind", .string p.source),
    ("location", .string p.location), ("entry", .string p.member),
    ("moduleName", .string p.module), ("packageName", .string p.package)]

end Place

structure Namespace where
  classes : List (String × Place) := []
  deriving Repr, DecidableEq, Inhabited

namespace Namespace

/-- Puts a name in its place in the order, unless it is there already. -/
def insertSorted (name : String) (place : Place) : List (String × Place) → List (String × Place)
  | [] => [(name, place)]
  | (n, p) :: rest =>
    if name = n then (n, p) :: rest
    else if name < n then (name, place) :: (n, p) :: rest
    else (n, p) :: insertSorted name place rest

def insert (ns : Namespace) (name : String) (place : Place) : Namespace :=
  ⟨insertSorted name place ns.classes⟩

/-- The program's own classes, each at its first place. -/
def ofIndex (ix : Index) : Namespace :=
  ix.records.foldl (fun ns r =>
    if r.origin.owner = .program then ns.insert r.name (.ofRecord r) else ns) {}

/-- Classes to be generated at a location. -/
def ofNames (names : List String) (location : String) : Namespace :=
  names.foldl (fun ns n => ns.insert n (.generated n location)) {}

/-- Names that are there already keep their place. -/
def extend (ns other : Namespace) : Namespace :=
  other.classes.foldl (fun ns (n, p) => ns.insert n p) ns

def origin? (ns : Namespace) (name : String) : Option Place :=
  (ns.classes.find? (·.1 == name)).map (·.2)

end Namespace

end Linkage.View
