import Linkage.Proofs.Mediation.Nearest

/-!
The libraries of a class path, and which of them require which, said of the reports themselves. The
graph is only a numbering of these: its nodes are the libraries, its edges the requirements, and its
trails the ways along visible requirements from the libraries that nothing requires. So the
candidates of a mediation are the libraries that are reached.
-/
namespace Linkage.Mediation

open Classpath (Entry Index Report)
open Relation (ReflTransGen)

theorem nodeOf?_entry {r : Report} {p : Node × List Dependency} (found : nodeOf? r = some p) :
    p.1.entry = r.entry := by
  unfold nodeOf? at found
  split at found
  · rw [← Option.some.inj found]
  · cases found

theorem mem_matching {nodes : List Node} {d : Dependency} {place : Nat} :
    place ∈ matching nodes d ↔ ∃ n, nodes[place]? = some n ∧ n.coordinate = d.coordinate ∧
      (d.version = none ∨ d.version = some n.version) := by
  simp only [matching, List.mem_map, List.mem_mergeSort, List.mem_filter, Prod.exists,
    List.mem_zipIdx_iff_getElem?, Bool.and_eq_true, Bool.or_eq_true, beq_iff_eq,
    Option.isNone_iff_eq_none]
  constructor
  · rintro ⟨n, _, ⟨found, fits⟩, rfl⟩
    exact ⟨n, found, fits⟩
  · rintro ⟨n, found, fits⟩
    exact ⟨n, place, ⟨found, fits⟩, rfl⟩

/-- A library on a class path: an entry of a library that says which one it is. -/
structure Library (ix : Index) where
  report : Report
  metadata : Metadata
  listed : report ∈ ix.reports
  owned : report.entry.owner = .library
  known : report.metadata = some metadata

namespace Library
variable {ix : Index} {usage : Usage} {a b : Library ix}

def entry (l : Library ix) : Entry := l.report.entry

def coordinate (l : Library ix) : Coordinate := l.metadata.coordinate

def version (l : Library ix) : String := l.metadata.version

/-- Whether a declared dependency is on this library. -/
def Meets (l : Library ix) (d : Dependency) : Prop :=
  d.coordinate = l.coordinate ∧ (d.version = none ∨ d.version = some l.version)

/-- A library declares a dependency on another, in whatever scope. -/
def Requires (a b : Library ix) : Prop := ∃ d ∈ a.metadata.dependencies, b.Meets d

/-- It does so in a scope that is visible. -/
def Sees (usage : Usage) (a b : Library ix) : Prop :=
  ∃ d ∈ a.metadata.dependencies, b.Meets d ∧ usage.allows (.ofText? d.scope) = true

/-- It does so in a scope that is not visible. -/
def Hides (usage : Usage) (a b : Library ix) : Prop :=
  ∃ d ∈ a.metadata.dependencies, b.Meets d ∧ usage.allows (.ofText? d.scope) = false

/-- No library declares a dependency on this one, its own declarations included. -/
def IsFree (l : Library ix) : Prop := ∀ a : Library ix, ¬ a.Requires l

/-- Where a mediation starts: at the libraries that nothing requires, or at all of them when each
one is required. -/
def IsRoot (l : Library ix) : Prop := l.IsFree ∨ ∀ b : Library ix, ¬ b.IsFree

/-- Visible requirements lead to a library from a root. -/
def Reached (usage : Usage) (l : Library ix) : Prop :=
  ∃ root : Library ix, root.IsRoot ∧ ReflTransGen (Sees usage) root l

theorem Sees.requires (sees : a.Sees usage b) : a.Requires b := by
  obtain ⟨d, declared, meets, _⟩ := sees
  exact ⟨d, declared, meets⟩

theorem Hides.requires (hides : a.Hides usage b) : a.Requires b := by
  obtain ⟨d, declared, meets, _⟩ := hides
  exact ⟨d, declared, meets⟩

theorem Requires.sees_or_hides (requires : a.Requires b) (usage : Usage) :
    a.Sees usage b ∨ a.Hides usage b := by
  obtain ⟨d, declared, meets⟩ := requires
  cases visible : usage.allows (.ofText? d.scope) with
  | true => exact Or.inl ⟨d, declared, meets, visible⟩
  | false => exact Or.inr ⟨d, declared, meets, visible⟩

theorem eq_of_report (same : a.report = b.report) : a = b := by
  obtain ⟨report, metadata, _, _, known⟩ := a
  obtain ⟨report', metadata', _, _, known'⟩ := b
  obtain rfl : report = report' := same
  obtain rfl := Option.some.inj (known.symm.trans known')
  rfl

/-- Entries that have distinct ordinals tell libraries apart. -/
theorem eq_of_ordinal (distinct : (ix.reports.map (·.entry.ordinal)).Nodup)
    (same : a.entry.ordinal = b.entry.ordinal) : a = b :=
  eq_of_report (List.inj_on_of_nodup_map distinct a.listed b.listed same)

section Places

def node (l : Library ix) : Node := ⟨l.entry, l.coordinate, l.version⟩

/-- The place of a library among the nodes. -/
def At (l : Library ix) (place : Nat) : Prop :=
  (ix.reports.filterMap nodeOf?)[place]? = some (l.node, l.metadata.dependencies)

theorem nodeOf?_report (l : Library ix) :
    nodeOf? l.report = some (l.node, l.metadata.dependencies) := by
  simp only [nodeOf?, l.known, l.owned]
  rfl

theorem nodeOf?_eq_some {r : Report} (listed : r ∈ ix.reports) {p : Node × List Dependency}
    (found : nodeOf? r = some p) :
    ∃ l : Library ix, l.report = r ∧ p = (l.node, l.metadata.dependencies) := by
  unfold nodeOf? at found
  split at found
  · rename_i m known owned
    exact ⟨⟨r, m, listed, owned, known⟩, rfl, (Option.some.inj found).symm⟩
  · cases found

theorem exists_at (l : Library ix) : ∃ place, l.At place :=
  List.mem_iff_getElem?.mp (List.mem_filterMap.mpr ⟨l.report, l.listed, l.nodeOf?_report⟩)

theorem exists_of_lt {place : Nat} (inside : place < (Graph.ofIndex ix usage).nodes.length) :
    ∃ l : Library ix, l.At place := by
  have inside' : place < (ix.reports.filterMap nodeOf?).length := by
    simpa [Graph.ofIndex] using inside
  obtain ⟨r, listed, found⟩ := List.mem_filterMap.mp (List.getElem_mem inside')
  obtain ⟨l, _, same⟩ := nodeOf?_eq_some listed found
  exact ⟨l, by rw [At, List.getElem?_eq_getElem inside', same]⟩

variable {place other : Nat}

theorem At.nodes_getElem? (stands : a.At place) (usage : Usage) :
    (Graph.ofIndex ix usage).nodes[place]? = some a.node := by
  have found : (ix.reports.filterMap nodeOf?)[place]? = _ := stands
  simp only [Graph.ofIndex, List.getElem?_map, found, Option.map_some]

theorem At.lt_length (stands : a.At place) (usage : Usage) :
    place < (Graph.ofIndex ix usage).nodes.length :=
  (List.getElem?_eq_some_iff.mp (stands.nodes_getElem? usage)).1

theorem exists_of_node {n : Node} (found : (Graph.ofIndex ix usage).nodes[place]? = some n) :
    ∃ l : Library ix, l.At place ∧ n = l.node := by
  obtain ⟨l, stands⟩ := exists_of_lt (List.getElem?_eq_some_iff.mp found).1
  exact ⟨l, stands, Option.some.inj (found.symm.trans (stands.nodes_getElem? usage))⟩

section Distinct
variable (distinct : (ix.reports.map (·.entry.ordinal)).Nodup)
include distinct

theorem At.unique (stands : a.At place) (stands' : b.At place) : a = b := by
  have same : a.node = b.node := (Prod.mk.inj (Option.some.inj (stands.symm.trans stands'))).1
  exact eq_of_ordinal distinct (congrArg (·.entry.ordinal) same)

theorem At.place_unique (stands : a.At place) (stands' : a.At other) : place = other := by
  have places : (ix.reports.filterMap nodeOf?).Nodup := by
    rw [List.Nodup, List.pairwise_map] at distinct
    rw [List.Nodup, List.pairwise_filterMap]
    refine distinct.imp fun {r r'} differ p found p' found' same => differ ?_
    rw [← nodeOf?_entry found, ← nodeOf?_entry found', same]
  obtain ⟨inside, _⟩ := List.getElem?_eq_some_iff.mp stands
  exact (List.getElem?_inj inside places).mp (stands.trans stands'.symm)

end Distinct

end Places

section Edges
variable {place other : Nat}

theorem At.edgesFrom (stands : a.At place) (usage : Usage) :
    (Graph.ofIndex ix usage).edgesFrom place =
      edgesOf (Graph.ofIndex ix usage).nodes place a.metadata.dependencies := by
  have found : (ix.reports.filterMap nodeOf?)[place]? = _ := stands
  simp only [Graph.edgesFrom, Graph.ofIndex, List.getElem?_map, List.getElem?_zipIdx, found,
    Option.map_some, Option.getD_some, Nat.zero_add]

/-- An edge leads to a library that a dependency declared there is on. -/
theorem At.exists_target (stands : a.At place) {e : Edge}
    (edge : e ∈ (Graph.ofIndex ix usage).edgesFrom place) :
    ∃ b : Library ix, b.At e.target ∧ ∃ d ∈ a.metadata.dependencies, b.Meets d ∧
      e.scope = .ofText? d.scope := by
  simp only [stands.edgesFrom usage, edgesOf, List.mem_flatMap, List.mem_map, Prod.exists] at edge
  obtain ⟨d, declaration, declared, target, fits, rfl⟩ := edge
  obtain ⟨n, found, coordinate, version⟩ := mem_matching.mp fits
  obtain ⟨b, there, rfl⟩ := exists_of_node found
  exact ⟨b, there, d, List.fst_mem_of_mem_zipIdx declared, ⟨coordinate.symm, version⟩,
    by dsimp only⟩

theorem At.exists_edge (stands : a.At place) (there : b.At other) {d : Dependency}
    (declared : d ∈ a.metadata.dependencies) (meets : b.Meets d) (usage : Usage) :
    ∃ e ∈ (Graph.ofIndex ix usage).edgesFrom place, e.target = other ∧
      e.scope = .ofText? d.scope := by
  obtain ⟨declaration, found⟩ := List.mem_iff_getElem?.mp declared
  refine ⟨⟨place, other, .ofText? d.scope, declaration⟩, ?_, rfl, by dsimp only⟩
  simp only [stands.edgesFrom usage, edgesOf, List.mem_flatMap, List.mem_map, Prod.exists]
  exact ⟨d, declaration, List.mem_zipIdx_iff_getElem?.mpr found, other,
    mem_matching.mpr ⟨_, there.nodes_getElem? usage, meets.1.symm, meets.2⟩, rfl⟩

section Distinct
variable (distinct : (ix.reports.map (·.entry.ordinal)).Nodup)
include distinct

/-- Some edge leads to a place if and only if the library there is required. -/
theorem At.mem_targets (stands : b.At place) (usage : Usage) :
    place ∈ (Graph.ofIndex ix usage).edges.flatten.map (·.target) ↔ ¬ b.IsFree := by
  simp only [List.mem_map, List.mem_flatten, IsFree, not_forall, not_not]
  constructor
  · rintro ⟨e, ⟨edges, row, edge⟩, rfl⟩
    obtain ⟨source, found⟩ := List.mem_iff_getElem?.mp row
    have inside : source < (Graph.ofIndex ix usage).nodes.length := by
      have := (List.getElem?_eq_some_iff.mp found).1
      simpa [Graph.ofIndex] using this
    obtain ⟨a, start⟩ := exists_of_lt inside
    have leaving : e ∈ (Graph.ofIndex ix usage).edgesFrom source := by
      rwa [Graph.edgesFrom, found]
    obtain ⟨b', there, d, declared, meets, _⟩ := start.exists_target leaving
    exact ⟨a, d, declared, stands.unique distinct there ▸ meets⟩
  · rintro ⟨a, d, declared, meets⟩
    obtain ⟨source, start⟩ := a.exists_at
    obtain ⟨e, leaving, target, _⟩ := start.exists_edge stands declared meets usage
    rw [Graph.edgesFrom] at leaving
    cases found : (Graph.ofIndex ix usage).edges[source]? with
    | none =>
      rw [found] at leaving
      cases leaving
    | some row =>
      rw [found] at leaving
      exact ⟨e, ⟨row, List.mem_iff_getElem?.mpr ⟨source, found⟩, leaving⟩, target⟩

theorem At.mem_roots (stands : b.At place) (usage : Usage) :
    place ∈ (Graph.ofIndex ix usage).roots ↔ b.IsRoot := by
  have roots : (Graph.ofIndex ix usage).roots =
    rootsOf (Graph.ofIndex ix usage).nodes.length (Graph.ofIndex ix usage).edges := rfl
  have free : ∀ {place : Nat} {l : Library ix}, l.At place →
      (place ∈ (List.range (Graph.ofIndex ix usage).nodes.length).filter
        (!((Graph.ofIndex ix usage).edges.flatten.map (·.target)).contains ·) ↔ l.IsFree) := by
    intro place l stands
    rw [List.mem_filter, List.mem_range, Bool.not_eq_true', ← Bool.not_eq_true,
      List.contains_iff_mem, stands.mem_targets distinct usage, not_not]
    exact and_iff_right (stands.lt_length usage)
  rw [roots, rootsOf, IsRoot]
  split
  · rename_i empty
    rw [List.isEmpty_iff] at empty
    have none : ∀ l : Library ix, ¬ l.IsFree := by
      intro l isFree
      obtain ⟨there, stands⟩ := l.exists_at
      have member := (free stands).mpr isFree
      rw [empty] at member
      cases member
    exact iff_of_true (List.mem_range.mpr (stands.lt_length usage)) (Or.inr none)
  · rename_i some
    rw [free stands]
    refine ⟨Or.inl, ?_⟩
    rintro (isFree | none)
    · exact isFree
    · refine absurd ?_ some
      rw [List.isEmpty_iff, List.eq_nil_iff_forall_not_mem]
      intro there member
      obtain ⟨l, stands⟩ := exists_of_lt (List.mem_range.mp (List.mem_filter.mp member).1)
      exact none l ((free stands).mp member)

/-- Trails are the ways along visible requirements that start at a root. -/
theorem At.reached_iff (stands : b.At place) (usage : Usage) :
    b.Reached usage ↔ ∃ root depth, (Graph.ofIndex ix usage).Trail root place depth := by
  constructor
  · rintro ⟨first, isRoot, way⟩
    induction way generalizing place with
    | refl =>
      have listed := (stands.mem_roots distinct usage).mpr isRoot
      obtain ⟨root, found⟩ := List.mem_iff_getElem?.mp listed
      exact ⟨root, 0, .start found⟩
    | @tail middle last _ sees ih =>
      obtain ⟨between, there⟩ := middle.exists_at
      obtain ⟨root, depth, trail⟩ := ih there
      obtain ⟨d, declared, meets, visible⟩ := sees
      obtain ⟨e, edge, rfl, scope⟩ := there.exists_edge stands declared meets usage
      exact ⟨root, depth + 1, trail.onward (there.lt_length usage) edge (scope ▸ visible)⟩
  -- The library at a place is found again at every step, since trails only know places.
  · rintro ⟨root, depth, trail⟩
    induction trail generalizing b with
    | start found =>
      have isRoot := (stands.mem_roots distinct usage).mp (List.mem_of_getElem? found)
      exact ⟨b, isRoot, .refl⟩
    | onward _ inside edge visible ih =>
      obtain ⟨a, there⟩ := exists_of_lt inside
      obtain ⟨first, isRoot, way⟩ := ih there
      obtain ⟨b', stands', d, declared, meets, scope⟩ := there.exists_target edge
      obtain rfl := stands.unique distinct stands'
      exact ⟨first, isRoot, way.tail ⟨d, declared, meets, scope ▸ visible⟩⟩

end Distinct

end Edges

section Candidates

/-- The candidate stands for the library. -/
structure Is (l : Library ix) (c : Candidate) : Prop where
  place : l.At c.node
  coordinate : c.coordinate = l.coordinate
  version : c.version = l.version
  entry : c.entry = l.entry.ordinal

variable (distinct : (ix.reports.map (·.entry.ordinal)).Nodup)
include distinct

theorem exists_of_candidate {c : Candidate} (member : c ∈ (mediate ix usage).candidates) :
    ∃ l : Library ix, l.Reached usage ∧ l.Is c := by
  obtain ⟨trail, n, found, coordinate, version, entry⟩ :=
    Graph.walk_inv.sound.candidates c member
  obtain ⟨l, stands, rfl⟩ := exists_of_node found
  exact ⟨l, (stands.reached_iff distinct usage).mpr ⟨_, _, trail⟩,
    ⟨stands, coordinate, version, entry⟩⟩

theorem Reached.exists_candidate {l : Library ix} (reached : l.Reached usage) :
    ∃ c ∈ (mediate ix usage).candidates, l.Is c := by
  obtain ⟨place, stands⟩ := l.exists_at
  obtain ⟨root, depth, trail⟩ := (stands.reached_iff distinct usage).mp reached
  obtain ⟨c, member, _, rfl, _⟩ := Graph.exists_candidate trail (stands.lt_length usage)
  obtain ⟨l', _, is⟩ := exists_of_candidate distinct member
  obtain rfl := stands.unique distinct is.place
  exact ⟨c, member, is⟩

end Candidates

end Library

/-- The report of a library that stands in a jar of its own. -/
def jar (ordinal : Nat) (artifact version : String) (dependencies : List Dependency) : Report :=
  ⟨⟨ordinal, .archive, artifact ++ "-" ++ version ++ ".jar", .library⟩,
    some ⟨⟨"org.c", artifact⟩, version, dependencies⟩, false, none, 0⟩

end Linkage.Mediation
