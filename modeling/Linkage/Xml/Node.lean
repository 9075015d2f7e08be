/-!
XML documents as far as a reader of data needs them: elements with the local part of their name,
runs of text, and markers for comments and processing instructions, which keep two runs of text
apart. Namespaces are checked while reading and then forgotten.
-/
namespace Linkage.Xml

inductive Node where
  | element (name : String) (children : List Node)
  | text (value : String)
  | marker
  deriving Repr, Inhabited

namespace Node

def name? : Node → Option String
  | .element name _ => some name
  | _ => none

def children : Node → List Node
  | .element _ cs => cs
  | _ => []

def childrenNamed (n : Node) (name : String) : List Node :=
  n.children.filter (·.name? == some name)

def child? (n : Node) (name : String) : Option Node :=
  n.children.find? (·.name? == some name)

/-- The text of an element is its first child, when that is a run of text. -/
def text? (n : Node) : Option String :=
  match n.children with
  | .text s :: _ => some s
  | _ => none

mutual

/-- The first element of that name, an element coming before what it holds. -/
def find? (name : String) : Node → Option Node
  | .element n cs => if n = name then some (.element n cs) else findAmong? name cs
  | _ => none

def findAmong? (name : String) : List Node → Option Node
  | [] => none
  | n :: rest =>
    match find? name n with
    | some found => some found
    | none => findAmong? name rest

end

end Node

end Linkage.Xml
