import Linkage.Json.Basic

/-!
Libraries by name: a coordinate is a group with an artifact. An archive may say which library it
is and which others it depends on.
-/
namespace Linkage

structure Coordinate where
  group : String
  artifact : String
  deriving Repr, DecidableEq, Inhabited

namespace Coordinate

def text (c : Coordinate) : String := c.group ++ ":" ++ c.artifact

def toJson (c : Coordinate) : Json :=
  .object [("group", .string c.group), ("artifact", .string c.artifact)]

end Coordinate

/-- A dependency as an archive declares it. -/
structure Dependency where
  coordinate : Coordinate
  version : Option String
  scope : Option String
  isOptional : Bool
  deriving Repr, DecidableEq, Inhabited

def Dependency.toJson (d : Dependency) : Json :=
  .object [("coordinate", d.coordinate.toJson), ("version", .ofString? d.version),
    ("scope", .ofString? d.scope), ("optional", .bool d.isOptional)]

/-- What an archive says about itself. -/
structure Metadata where
  coordinate : Coordinate
  version : String
  dependencies : List Dependency
  deriving Repr, DecidableEq, Inhabited

def Metadata.toJson (m : Metadata) : Json :=
  .object [("coordinate", m.coordinate.toJson), ("version", .string m.version),
    ("dependencies", .list Dependency.toJson m.dependencies)]

end Linkage
