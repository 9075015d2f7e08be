import Linkage.Mediation.Graph
import Linkage.Number.Natural

/-!
Choosing one version of every library. The graph is walked breadth first from all roots at once;
of the nodes that have one coordinate the nearest wins, then the one from the earlier root, then
the one found first. Dependencies whose scope is not visible are not followed but noted.
-/
namespace Linkage.Mediation

open Classpath (Entry Index)

/-- What told a winner from a rejected version. -/
inductive Rule where
  | nearest
  | rootOrder
  | discoveryOrder
  | deterministic
  deriving Repr, DecidableEq, Inhabited

def Rule.text : Rule → String
  | .nearest => "nearest"
  | .rootOrder => "root-order"
  | .discoveryOrder => "discovery-order"
  | .deterministic => "deterministic"

/-- A node as it was reached from one root. -/
structure Candidate where
  node : Nat
  coordinate : Coordinate
  version : String
  entry : Nat
  location : String
  scope : Scope
  depth : Nat
  root : Nat
  order : Nat
  deriving Repr, DecidableEq, Inhabited

namespace Candidate

def toJson (c : Candidate) : Json :=
  .object [("coordinate", c.coordinate.toJson), ("version", .string c.version),
    ("entry", .ofNat c.entry), ("location", .string c.location), ("scope", c.scope.toJson),
    ("depth", .ofNat c.depth), ("rootIndex", .ofNat c.root), ("discoveryOrder", .ofNat c.order)]

/-- Nearer, then earlier root, then earlier found, then by location. -/
def before (a b : Candidate) : Bool :=
  a.depth < b.depth || (a.depth == b.depth &&
    (a.root < b.root || (a.root == b.root &&
      (a.order < b.order || (a.order == b.order && decide (a.location < b.location))))))

/-- The rule by which `a` came before `b`. -/
def ruleOver (a b : Candidate) : Rule :=
  if a.depth < b.depth then .nearest
  else if a.root < b.root then .rootOrder
  else if a.order < b.order then .discoveryOrder
  else .deterministic

end Candidate

structure Decision where
  coordinate : Coordinate
  selectedVersion : String
  selectedEntry : Nat
  selectedLocation : String
  rejectedVersion : String
  rejectedEntry : Nat
  rejectedLocation : String
  rule : Rule
  deriving Repr, DecidableEq, Inhabited

def Decision.toJson (d : Decision) : Json :=
  .object [("coordinate", d.coordinate.toJson), ("selectedVersion", .string d.selectedVersion),
    ("selectedEntry", .ofNat d.selectedEntry), ("selectedLocation", .string d.selectedLocation),
    ("rejected", .object [("version", .string d.rejectedVersion), ("entry", .ofNat d.rejectedEntry),
      ("location", .string d.rejectedLocation)]), ("rule", .string d.rule.text)]

/-- A dependency that was not followed because its scope is not visible. -/
structure Exclusion where
  ownerCoordinate : Coordinate
  ownerVersion : String
  coordinate : Coordinate
  version : String
  scope : Scope
  usage : Usage
  entry : Nat
  location : String
  deriving Repr, DecidableEq, Inhabited

def Exclusion.toJson (x : Exclusion) : Json :=
  .object [("ownerCoordinate", x.ownerCoordinate.toJson), ("ownerVersion", .string x.ownerVersion),
    ("dependencyCoordinate", x.coordinate.toJson), ("dependencyVersion", .string x.version),
    ("scope", x.scope.toJson), ("usage", .string x.usage.text), ("excludedEntry", .ofNat x.entry),
    ("excludedLocation", .string x.location)]

structure Outcome where
  usage : Usage
  mediated : List Entry
  decisions : List Decision
  exclusions : List Exclusion
  candidates : List Candidate
  deriving Repr, DecidableEq, Inhabited

def Outcome.toJson (o : Outcome) : Json :=
  .object [("usage", .string o.usage.text), ("mediated", .list Entry.toJson o.mediated),
    ("decisions", .list Decision.toJson o.decisions),
    ("exclusions", .list Exclusion.toJson o.exclusions),
    ("candidates", .list Candidate.toJson o.candidates)]

/-- A node that waits to be visited. -/
structure Visit where
  node : Nat
  root : Nat
  depth : Nat
  scope : Scope
  deriving Repr, DecidableEq, Inhabited

/-- An exclusion is noted once for an owner entry and a node. -/
abbrev Noted := List ((Nat × Coordinate × Nat) × Exclusion)

structure Walk where
  queue : List Visit
  candidates : List Candidate := []
  noted : Noted := []
  deriving Repr, DecidableEq, Inhabited

namespace Walk

/-- Whether a node was reached from that root at no greater depth. -/
def reached (w : Walk) (v : Visit) : Bool :=
  w.candidates.any fun c => c.root == v.root && c.node == v.node && c.depth ≤ v.depth

def note (noted : Noted) (key : Nat × Coordinate × Nat) (x : Exclusion) : Noted :=
  if noted.any (·.1 == key) then noted else noted ++ [(key, x)]

/-- An edge that leads on is queued, any other is noted. -/
def follow (g : Graph) (n : Node) (v : Visit) (w : Walk) (e : Edge) : Walk :=
  if g.usage.allows e.scope then
    { w with queue := w.queue ++ [⟨e.target, v.root, v.depth + 1, e.scope⟩] }
  else match g.nodes[e.target]? with
    | none => w
    | some t =>
      let x : Exclusion := ⟨n.coordinate, n.version, t.coordinate, t.version, e.scope, g.usage,
        t.entry.ordinal, t.entry.location⟩
      { w with noted := note w.noted (n.entry.ordinal, t.coordinate, e.target) x }

/-- Visits the first node of the queue. -/
def step (g : Graph) (w : Walk) (v : Visit) (rest : List Visit) : Walk :=
  let w := { w with queue := rest }
  if w.reached v then w
  else match g.nodes[v.node]? with
    | none => w
    | some n =>
      let c : Candidate := ⟨v.node, n.coordinate, n.version, n.entry.ordinal, n.entry.location,
        v.scope, v.depth, v.root, w.candidates.length⟩
      (g.edgesFrom v.node).foldl (follow g n v) { w with candidates := w.candidates ++ [c] }

/-- Visits until the queue is empty; the fuel bounds the visits. -/
def run (g : Graph) : Nat → Walk → Walk
  | 0, w => w
  | fuel + 1, w =>
    match w.queue with
    | [] => w
    | v :: rest => run g fuel (step g w v rest)

end Walk

/-- Every root is queued once, and every edge at most once for every root. -/
def Graph.visitBound (g : Graph) : Nat :=
  g.roots.length + g.roots.length * total (g.edges.map List.length)

def Graph.walk (g : Graph) : Walk :=
  Walk.run g (g.visitBound + 1)
    { queue := g.roots.zipIdx.map fun (node, root) => ⟨node, root, 0, .compile⟩ }

/-- The candidate that comes before all others. -/
def best? : List Candidate → Option Candidate
  | [] => none
  | c :: rest =>
    match best? rest with
    | some b => if b.before c then some b else some c
    | none => some c

/-- The candidates of one coordinate. -/
def rivals (candidates : List Candidate) (coordinate : Coordinate) : List Candidate :=
  candidates.filter (·.coordinate == coordinate)

def coordinates (candidates : List Candidate) : List Coordinate :=
  Text.distinct (candidates.map (·.coordinate))

/-- One decision for every version that was reached and did not win, in the order found. -/
def decisionsAmong (winner : Candidate) (group : List Candidate) : List Decision :=
  (Text.distinct (group.map (·.version))).filterMap fun version =>
    if version = winner.version then none
    else (best? (group.filter (·.version == version))).map fun r =>
      ⟨winner.coordinate, winner.version, winner.entry, winner.location, r.version, r.entry,
        r.location, winner.ruleOver r⟩

def Graph.mediate (g : Graph) : Outcome :=
  let w := g.walk
  let groups := (coordinates w.candidates).map (rivals w.candidates)
  let winners := groups.filterMap best?
  let chosen := winners.map (·.entry)
  let kept := (g.nodes.filter fun n => chosen.contains n.entry.ordinal).map (·.entry)
  { usage := g.usage
    mediated := (g.exempt ++ kept).mergeSort fun a b => a.ordinal ≤ b.ordinal
    decisions := groups.flatMap fun group =>
      match best? group with
      | some winner => decisionsAmong winner group
      | none => []
    exclusions := w.noted.map (·.2)
    candidates := w.candidates }

def mediate (ix : Index) (usage : Usage) : Outcome := (Graph.ofIndex ix usage).mediate

/-- A class that only an excluded entry holds. -/
structure ScopeViolation where
  className : String
  exclusion : Exclusion
  deriving Repr, DecidableEq, Inhabited

namespace ScopeViolation

def message (v : ScopeViolation) : String :=
  "interop target class `" ++ v.className ++ "` is reachable only through dependency scope `" ++
    v.exclusion.scope.text ++ "`, which is excluded for `" ++ v.exclusion.usage.text ++
    "` classpath resolution"

def diagnostic (v : ScopeViolation) : Diagnostic :=
  (Diagnostic.error Diagnostic.Code.scopeViolation v.message)
    |>.withContext "targetClass" v.className
    |>.withContext "scope" v.exclusion.scope.text
    |>.withContext "usage" v.exclusion.usage.text
    |>.withContext "excludedEntry" v.exclusion.location
    |>.withContext "ownerCoordinate" v.exclusion.ownerCoordinate.text
    |>.withRemedy (((Diagnostic.describe? Diagnostic.Code.scopeViolation).map (·.help)).getD "")

end ScopeViolation

namespace Outcome

def isMediated (o : Outcome) (ordinal : Nat) : Bool := o.mediated.any (·.ordinal == ordinal)

/-- The first exclusion whose entry holds a class and is not on the mediated class path. -/
def excludedHolder? (o : Outcome) (ix : Index) (name : String) : Option Exclusion :=
  let records := ix.recordsOf name
  o.exclusions.find? fun x =>
    !o.isMediated x.entry && records.any (·.origin.entry == x.entry)

/-- A class violates the scopes when no mediated entry holds it and an excluded one does. -/
def violation? (o : Outcome) (ix : Index) (name : String) : Option ScopeViolation :=
  if (ix.recordsOf name).any fun r => o.isMediated r.origin.entry then none
  else (o.excludedHolder? ix name).map fun x => ⟨name, x⟩

/-- The first violation among the classes that are called. -/
def checkScope (o : Outcome) (ix : Index) (classes : List String) : Except ScopeViolation Unit :=
  match classes.findSome? (o.violation? ix) with
  | some v => .error v
  | none => .ok ()

end Outcome

end Linkage.Mediation
