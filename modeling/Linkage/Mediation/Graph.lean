import Linkage.Classpath.Index
import Linkage.Mediation.Scope

/-!
The graph of libraries on a class path. Nodes are the library entries that say which library they
are; an edge leads to every node that a declared dependency matches, whatever its scope. Entries
that are no nodes are exempt: nothing is chosen among them.
-/
namespace Linkage.Mediation

open Classpath (Entry Index Report)

structure Node where
  entry : Entry
  coordinate : Coordinate
  version : String
  deriving Repr, DecidableEq, Inhabited

def Node.toJson (n : Node) : Json :=
  .object [("entry", n.entry.toJson), ("coordinate", n.coordinate.toJson),
    ("version", .string n.version)]

structure Edge where
  source : Nat
  target : Nat
  scope : Scope
  declaration : Nat
  deriving Repr, DecidableEq, Inhabited

def Edge.toJson (e : Edge) : Json :=
  .object [("from", .ofNat e.source), ("to", .ofNat e.target), ("scope", e.scope.toJson),
    ("declaration_order", .ofNat e.declaration)]

/-- Edges are kept by the node that they start from; roots are places in the list of nodes. -/
structure Graph where
  usage : Usage
  nodes : List Node
  edges : List (List Edge)
  roots : List Nat
  exempt : List Entry
  deriving Repr, DecidableEq, Inhabited

namespace Graph

def edgesFrom (g : Graph) (node : Nat) : List Edge := (g.edges[node]?).getD []

def toJson (g : Graph) : Json :=
  .object [("usage", .string g.usage.text), ("nodes", .list Node.toJson g.nodes),
    ("edges", .list (.list Edge.toJson) g.edges), ("roots", .list .ofNat g.roots),
    ("exempt", .list Entry.toJson g.exempt)]

end Graph

/-- The library that an entry takes part as, if it does. -/
def nodeOf? (r : Report) : Option (Node × List Dependency) :=
  match r.metadata, r.entry.owner with
  | some m, .library => some (⟨r.entry, m.coordinate, m.version⟩, m.dependencies)
  | _, _ => none

/-- The nodes that a declared dependency matches, in the order of their paths. -/
def matching (nodes : List Node) (d : Dependency) : List Nat :=
  let fits := nodes.zipIdx.filter fun (n, _) =>
    n.coordinate == d.coordinate && (d.version.isNone || d.version == some n.version)
  (fits.mergeSort fun a b => decide (a.1.entry.path ≤ b.1.entry.path)).map (·.2)

def edgesOf (nodes : List Node) (source : Nat) (dependencies : List Dependency) : List Edge :=
  dependencies.zipIdx.flatMap fun (d, declaration) =>
    (matching nodes d).map fun target => ⟨source, target, .ofText? d.scope, declaration⟩

/-- Roots are the nodes that nothing leads to, or all nodes when there is no such node. -/
def rootsOf (count : Nat) (edges : List (List Edge)) : List Nat :=
  let reached := edges.flatten.map (·.target)
  let free := (List.range count).filter (!reached.contains ·)
  if free.isEmpty then List.range count else free

def Graph.ofIndex (ix : Index) (usage : Usage) : Graph :=
  let found := ix.reports.filterMap nodeOf?
  let nodes := found.map (·.1)
  let edges := found.zipIdx.map fun ((_, dependencies), source) => edgesOf nodes source dependencies
  { usage, nodes, edges
    roots := rootsOf nodes.length edges
    exempt := (ix.reports.filter fun r => (nodeOf? r).isNone).map (·.entry) }

end Linkage.Mediation
