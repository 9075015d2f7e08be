import Linkage.Number.Natural
import Linkage.View.Basic

/-!
Supertypes over a class view. A class that the view holds says itself what it extends; of the
classes of the platform that a view may lack, the direct supertypes are known. Searches go breadth
first and see every class once, so that they end on cyclic declarations too.
-/
namespace Linkage

/-- Direct supertypes of platform classes. -/
def platformSupertypes : List (String × List String) :=
  let number := ["java.lang.Number", "java.lang.Comparable"]
  [("java.lang.Object", []),
    ("java.lang.String", ["java.lang.CharSequence", "java.lang.Comparable", "java.io.Serializable"]),
    ("java.lang.CharSequence", []), ("java.lang.Comparable", []), ("java.io.Serializable", []),
    ("java.lang.Number", ["java.io.Serializable"]),
    ("java.lang.Boolean", ["java.io.Serializable", "java.lang.Comparable"]),
    ("java.lang.Character", ["java.io.Serializable", "java.lang.Comparable"]),
    ("java.lang.Byte", number), ("java.lang.Short", number), ("java.lang.Integer", number),
    ("java.lang.Long", number), ("java.lang.Float", number), ("java.lang.Double", number),
    ("java.lang.Enum", ["java.lang.Comparable", "java.io.Serializable"]),
    ("java.lang.Iterable", []), ("java.util.Collection", ["java.lang.Iterable"]),
    ("java.util.List", ["java.util.Collection"]), ("java.util.Set", ["java.util.Collection"]),
    ("java.util.Map", []), ("java.util.Optional", []), ("java.util.ArrayList", ["java.util.List"]),
    ("java.util.LinkedHashSet", ["java.util.Set"]), ("java.util.LinkedHashMap", ["java.util.Map"])]

/-- Visits the queue first in, first out; what a visit leads to goes to its end, one step deeper.
The result lists what was seen before and after it every name when it is first met, with its depth.
The fuel bounds the number of names taken from the queue. -/
def breadthFirst (next : String → List String) :
    Nat → List (String × Nat) → List (String × Nat) → List (String × Nat)
  | 0, _, seen => seen
  | _ + 1, [], seen => seen
  | fuel + 1, (name, depth) :: queue, seen =>
    if seen.any (·.1 == name) then breadthFirst next fuel queue seen
    else
      breadthFirst next fuel (queue ++ (next name).map fun n => (n, depth + 1))
        (seen ++ [(name, depth)])

namespace ClassView

def stubOf? (v : ClassView) (name : String) : Option ClassStub := (v.lookup name).map (·.stub)

/-- The superclass, then the interfaces, in the order of their declaration. -/
def supertypes (v : ClassView) (name : String) : List String :=
  match v.stubOf? name with
  | some c => c.superClass.toList ++ c.interfaces
  | none => ((platformSupertypes.find? (·.1 == name)).map (·.2)).getD []

def interfacesOf (v : ClassView) (name : String) : List String :=
  ((v.stubOf? name).map (·.interfaces)).getD []

/-- All classes of a view, hidden ones too. -/
def stubs (v : ClassView) : List ClassStub := (v.library ++ v.program).map (·.2.stub)

/-- At least as many as the direct supertypes of all classes together, and one for the start. -/
def searchBound (v : ClassView) : Nat :=
  total (v.stubs.map fun c => c.interfaces.length + 1) +
    total (platformSupertypes.map (·.2.length)) + 2

/-- Everything above a class with its least distance, the class itself first. -/
def ancestry (v : ClassView) (name : String) : List (String × Nat) :=
  breadthFirst v.supertypes v.searchBound [(name, 0)] []

def linearize (v : ClassView) (name : String) : List String := (v.ancestry name).map (·.1)

/-- The number of steps from a class up to another. The root class is above every class; where no
declared step leads to it, it lies one step beyond everything else. -/
def distance (v : ClassView) (sub sup : String) : Option Nat :=
  let above := v.ancestry sub
  match above.find? (·.1 == sup) with
  | some (_, depth) => some depth
  | none => if sup = objectClass then some ((above.map (·.2)).foldl max 0 + 1) else none

def isSubtype (v : ClassView) (sub sup : String) : Bool := (v.distance sub sup).isSome

/-- A class and its superclasses, as far as the view holds them; a cycle is cut. -/
def superclassChain (v : ClassView) : Nat → List String → String → List String
  | 0, chain, _ => chain
  | fuel + 1, chain, name =>
    if chain.contains name then chain
    else match (v.stubOf? name).bind (·.superClass) with
      | some up => v.superclassChain fuel (chain ++ [name]) up
      | none => chain ++ [name]

/-- The classes in which a member is looked for: the superclasses, then all their interfaces. -/
def lookupOrder (v : ClassView) (name : String) : List String :=
  let chain := v.superclassChain (v.stubs.length + 2) [] name
  let queue := chain.flatMap v.interfacesOf
  (breadthFirst v.interfacesOf v.searchBound (queue.map (·, 0)) (chain.map (·, 0))).map (·.1)

def isEnum (v : ClassView) (name : String) : Bool := ((v.stubOf? name).map (·.isEnum)).getD false

def enumConstants (v : ClassView) (name : String) : List String :=
  ((v.stubOf? name).map (·.enumConstants)).getD []

/-- How far above the wrapper of a primitive a class stands, if it does. -/
def acceptsBoxed (v : ClassView) (className : String) (p : Primitive) : Option Nat :=
  v.distance p.wrapper className

end ClassView

end Linkage
