import Linkage.ClassFile.Stub
import Linkage.Classpath.Entry

/-!
Records: one for every class member found on the class path, with the place where it was found and
the release of the platform that it is meant for.
-/
namespace Linkage.Classpath

structure Origin where
  entry : Nat
  owner : Owner
  source : String
  location : String
  member : String
  module : Option String
  package : String
  deriving Repr, DecidableEq, Inhabited

namespace Origin

def text (o : Origin) : String := o.owner.text ++ ":" ++ o.location ++ "!/" ++ o.member

def toJson (o : Origin) : Json :=
  .object [("entry", .ofNat o.entry), ("owner", .string o.owner.text),
    ("sourceKind", .string o.source), ("location", .string o.location),
    ("member", .string o.member), ("module", .ofString? o.module), ("package", .string o.package)]

end Origin

/-- The unversioned form of a class, or the form for a release and those after it. -/
inductive Variant where
  | base
  | versioned (release : Nat)
  deriving Repr, DecidableEq, Inhabited

namespace Variant

def release? : Variant → Option Nat
  | .base => none
  | .versioned r => some r

/-- The base form comes before all releases. -/
def rank : Variant → Nat
  | .base => 0
  | .versioned r => r + 1

def toJson : Variant → Json
  | .base => .string "base"
  | .versioned r => .object [("versioned", .ofNat r)]

end Variant

structure Record where
  name : String
  origin : Origin
  variant : Variant
  multiRelease : Bool
  stub : ClassStub
  deriving Repr, DecidableEq, Inhabited

namespace Record

def toJson (r : Record) : Json :=
  .object [("qualifiedName", .string r.name), ("origin", r.origin.toJson),
    ("variant", r.variant.toJson), ("multiRelease", .bool r.multiRelease),
    ("class", r.stub.toJson)]

/-- The order of the records of one entry: by name, and the forms of one class by release. -/
def le (a b : Record) : Bool :=
  decide (a.name < b.name) || (a.name == b.name && a.variant.rank ≤ b.variant.rank)

end Record

end Linkage.Classpath
