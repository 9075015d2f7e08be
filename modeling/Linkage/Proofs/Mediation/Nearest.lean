import Linkage.Proofs.Mediation.Walk
import Linkage.Proofs.Text.Distinct

/-!
The nearest version wins. Candidates come in the order in which they are preferred, so that the
winner of a coordinate is the first that was found for it; the rule of a decision names what the
winner and the rejected version first differ in.
-/
namespace Linkage.Mediation

/-- Strictly before in depth, then root, then order of discovery. -/
def Candidate.Precedes (a b : Candidate) : Prop :=
  a.depth < b.depth ∨
    (a.depth = b.depth ∧ (a.root < b.root ∨ (a.root = b.root ∧ a.order < b.order)))

/-- The first of depth, root and order of discovery that two candidates differ in. -/
inductive Candidate.Differ (a b : Candidate) : Rule → Prop where
  | nearest (nearer : a.depth < b.depth) : Differ a b .nearest
  | rootOrder (depth : a.depth = b.depth) (earlier : a.root < b.root) : Differ a b .rootOrder
  | discoveryOrder (depth : a.depth = b.depth) (root : a.root = b.root)
      (earlier : a.order < b.order) : Differ a b .discoveryOrder

section Candidates
variable {a b : Candidate}

theorem Candidate.Precedes.not_before (precedes : a.Precedes b) : b.before a = false := by
  rw [Bool.eq_false_iff]
  intro before
  simp only [Candidate.before, Bool.or_eq_true, Bool.and_eq_true, decide_eq_true_eq,
    beq_iff_eq] at before
  unfold Candidate.Precedes at precedes
  omega

theorem Candidate.Precedes.differ (precedes : a.Precedes b) : a.Differ b (a.ruleOver b) := by
  unfold Candidate.Precedes at precedes
  simp only [Candidate.ruleOver]
  split
  · exact .nearest ‹_›
  split
  · exact .rootOrder (by omega) ‹_›
  split
  · exact .discoveryOrder (by omega) (by omega) ‹_›
  · omega

theorem Candidate.Differ.ne_deterministic {rule : Rule} (differ : a.Differ b rule) :
    rule ≠ .deterministic := by
  cases differ <;> simp

/-- In a list that is in order, the best comes first. -/
theorem best?_eq_head? {candidates : List Candidate}
    (sorted : candidates.Pairwise Candidate.Precedes) : best? candidates = candidates.head? := by
  induction candidates with
  | nil => rfl
  | cons c rest ih =>
    obtain ⟨first, others⟩ := List.pairwise_cons.mp sorted
    rw [best?, ih others]
    cases rest with
    | nil => rfl
    | cons d rest =>
      have after := (first d List.mem_cons_self).not_before
      simp [after]

theorem mem_of_best? {candidates : List Candidate} {c : Candidate}
    (best : best? candidates = some c) : c ∈ candidates := by
  induction candidates generalizing c with
  | nil => cases best
  | cons first rest ih =>
    rw [best?] at best
    split at best
    · rename_i b found
      split at best
      · obtain rfl := Option.some.inj best
        exact List.mem_cons_of_mem _ (ih found)
      · obtain rfl := Option.some.inj best
        exact List.mem_cons_self
    · obtain rfl := Option.some.inj best
      exact List.mem_cons_self

/-- The best among those of one coordinate, or of one version, is one of them. -/
theorem of_best?_filter {κ : Type} [BEq κ] [LawfulBEq κ] {key : Candidate → κ} {k : κ}
    {candidates : List Candidate} {c : Candidate}
    (best : best? (candidates.filter fun c => key c == k) = some c) :
    c ∈ candidates ∧ key c = k := by
  obtain ⟨inside, same⟩ := List.mem_filter.mp (mem_of_best? best)
  exact ⟨inside, beq_iff_eq.mp same⟩

/-- A decision tells the winner from the best candidate of another version. -/
theorem exists_rejected {winner : Candidate} {group : List Candidate} {d : Decision}
    (member : d ∈ decisionsAmong winner group) :
    ∃ rejected, best? (group.filter (·.version == rejected.version)) = some rejected ∧
      rejected.version ≠ winner.version ∧
      d = ⟨winner.coordinate, winner.version, winner.entry, winner.location, rejected.version,
        rejected.entry, rejected.location, winner.ruleOver rejected⟩ := by
  obtain ⟨version, _, decided⟩ := List.mem_filterMap.mp member
  split at decided
  · cases decided
  · rename_i other
    obtain ⟨rejected, best, rfl⟩ := Option.map_eq_some_iff.mp decided
    obtain ⟨_, rfl⟩ := of_best?_filter best
    exact ⟨rejected, best, other, rfl⟩

end Candidates

namespace Graph
variable {g : Graph}

theorem candidates_sorted : g.mediate.candidates.Pairwise Candidate.Precedes := by
  refine walk_inv.layered.sorted.imp fun {a b} ⟨behind, order⟩ => ?_
  unfold Walk.Behind at behind
  unfold Candidate.Precedes
  omega

theorem rivals_sorted (coordinate : Coordinate) :
    (rivals g.mediate.candidates coordinate).Pairwise Candidate.Precedes :=
  candidates_sorted.filter _

theorem candidate_unique {c d : Candidate} (member : c ∈ g.mediate.candidates)
    (other : d ∈ g.mediate.candidates) (root : d.root = c.root) (node : d.node = c.node) :
    d = c :=
  List.inj_on_of_nodup_map walk_inv.layered.nodup_pairs other member (Prod.ext root node)

/-- A reachable node has one candidate for its root, at the length of the shortest trail. -/
theorem exists_candidate {root node depth : Nat} (trail : g.Trail root node depth)
    (inside : node < g.nodes.length) :
    ∃ c ∈ g.mediate.candidates, c.root = root ∧ c.node = node ∧
      IsLeast {depth | g.Trail root node depth} c.depth := by
  have covered : ∀ {depth}, g.Trail root node depth →
      ∃ c ∈ g.walk.candidates, c.root = root ∧ c.node = node ∧ c.depth ≤ depth := by
    intro depth trail
    exact walk_inv.closed.covered walk_ends.1 trail inside
  obtain ⟨c, member, rfl, rfl, _⟩ := covered trail
  refine ⟨c, member, rfl, rfl, (walk_inv.sound.candidates c member).1, ?_⟩
  intro depth shorter
  obtain ⟨d, other, root, node, near⟩ := covered shorter
  rwa [candidate_unique member other root node] at near

/-- The winner of a coordinate is the first candidate that was found for it, and no reachable node
of that coordinate is nearer. -/
theorem exists_winner {root node depth : Nat} {n : Node} (trail : g.Trail root node depth)
    (found : g.nodes[node]? = some n) :
    ∃ winner, best? (rivals g.mediate.candidates n.coordinate) = some winner ∧
      (rivals g.mediate.candidates n.coordinate).head? = some winner ∧ winner.depth ≤ depth := by
  have inside := (List.getElem?_eq_some_iff.mp found).1
  obtain ⟨c, member, rfl, rfl, least⟩ := exists_candidate trail inside
  obtain ⟨_, m, found', same, _⟩ := walk_inv.sound.candidates c member
  obtain rfl := Option.some.inj (found.symm.trans found')
  have rival : c ∈ rivals g.mediate.candidates n.coordinate := by
    simp [rivals, member, same]
  rw [best?_eq_head? (rivals_sorted _)]
  have sorted := rivals_sorted (g := g) n.coordinate
  cases order : rivals g.mediate.candidates n.coordinate with
  | nil => simp [order] at rival
  | cons winner others =>
    rw [order] at sorted rival
    refine ⟨winner, rfl, rfl, le_trans ?_ (least.2 trail)⟩
    rcases List.mem_cons.mp rival with rfl | rival
    · exact le_rfl
    · have precedes := (List.pairwise_cons.mp sorted).1 c rival
      unfold Candidate.Precedes at precedes
      omega

/-- The best candidate of each coordinate. -/
def winners (g : Graph) : List Candidate :=
  ((coordinates g.mediate.candidates).map (rivals g.mediate.candidates)).filterMap best?

theorem mem_winners {c : Candidate} :
    c ∈ g.winners ↔ best? (rivals g.mediate.candidates c.coordinate) = some c := by
  simp only [winners, List.mem_filterMap, List.mem_map, exists_exists_and_eq_and]
  constructor
  · rintro ⟨coordinate, _, best⟩
    rwa [(of_best?_filter best).2]
  · intro best
    have inside := (of_best?_filter best).1
    exact ⟨c.coordinate, Text.mem_distinct.mpr (List.mem_map_of_mem inside), best⟩

/-- The library that wins its coordinate is kept. -/
theorem exists_mediated {winner : Candidate} {coordinate : Coordinate}
    (best : best? (rivals g.mediate.candidates coordinate) = some winner) :
    ∃ won, g.nodes[winner.node]? = some won ∧ won.entry ∈ g.mediate.mediated := by
  obtain ⟨inside, rfl⟩ := of_best?_filter best
  obtain ⟨_, won, found, _, _, entry⟩ := walk_inv.sound.candidates winner inside
  have chosen : won.entry.ordinal ∈ g.winners.map (·.entry) :=
    entry ▸ List.mem_map_of_mem (mem_winners.mpr best)
  refine ⟨won, found, List.mem_mergeSort.mpr (List.mem_append_right _ ?_)⟩
  refine List.mem_map_of_mem (List.mem_filter.mpr ⟨List.mem_of_getElem? found, ?_⟩)
  exact List.contains_iff_mem.mpr chosen

theorem exists_differ {d : Decision} (member : d ∈ g.mediate.decisions) :
    ∃ winner rejected,
      best? (rivals g.mediate.candidates d.coordinate) = some winner ∧
      best? ((rivals g.mediate.candidates d.coordinate).filter
        (·.version == d.rejectedVersion)) = some rejected ∧
      d = ⟨winner.coordinate, winner.version, winner.entry, winner.location, rejected.version,
        rejected.entry, rejected.location, d.rule⟩ ∧
      winner.Differ rejected d.rule := by
  simp only [mediate, List.mem_flatMap, List.mem_map] at member
  obtain ⟨_, ⟨coordinate, _, rfl⟩, decided⟩ := member
  split at decided
  · rename_i winner best
    obtain ⟨rejected, found, other, rfl⟩ := exists_rejected decided
    obtain ⟨_, rfl⟩ := of_best?_filter best
    refine ⟨winner, rejected, best, found, rfl, ?_⟩
    have sorted := rivals_sorted (g := g) winner.coordinate
    have rival := (of_best?_filter found).1
    have first := (best?_eq_head? sorted).symm.trans best
    obtain ⟨others, order⟩ := List.head?_eq_some_iff.mp first
    change rejected ∈ rivals g.mediate.candidates winner.coordinate at rival
    rw [order] at sorted rival
    rcases List.mem_cons.mp rival with rfl | rival
    · exact absurd rfl other
    · exact ((List.pairwise_cons.mp sorted).1 rejected rival).differ
  · cases decided

end Graph

/-- Mediation prefers what is nearest. The walk ends. Its candidates are exactly the nodes that
visible dependencies lead to, one for each root, at the length of the shortest trail, and they are
in order of depth, root and discovery. So the winner of a coordinate, whose entry is kept, is the
first candidate found for it and the nearest, and the rule of a decision names the first of these
three that the winner and the rejected candidate differ in. -/
theorem nearest_wins (g : Graph) :
    (g.walk.queue = [] ∧ ∀ fuel, g.visitBound ≤ fuel → Walk.run g fuel g.start = g.walk) ∧
    (∀ root node, node < g.nodes.length → (∃ depth, g.Trail root node depth) →
      ∃ c ∈ g.mediate.candidates, c.root = root ∧ c.node = node ∧
        IsLeast {depth | g.Trail root node depth} c.depth ∧
        ∀ d ∈ g.mediate.candidates, d.root = root → d.node = node → d = c) ∧
    (∀ c ∈ g.mediate.candidates, g.Trail c.root c.node c.depth ∧
      ∃ n, g.nodes[c.node]? = some n ∧ c.coordinate = n.coordinate ∧ c.version = n.version ∧
        c.entry = n.entry.ordinal) ∧
    g.mediate.candidates.Pairwise Candidate.Precedes ∧
    (∀ root node depth n, g.Trail root node depth → g.nodes[node]? = some n →
      ∃ winner, best? (rivals g.mediate.candidates n.coordinate) = some winner ∧
        (rivals g.mediate.candidates n.coordinate).head? = some winner ∧ winner.depth ≤ depth ∧
        ∃ won, g.nodes[winner.node]? = some won ∧ won.entry ∈ g.mediate.mediated) ∧
    (∀ d ∈ g.mediate.decisions, d.rule ≠ .deterministic ∧ ∃ winner rejected,
      best? (rivals g.mediate.candidates d.coordinate) = some winner ∧
      best? ((rivals g.mediate.candidates d.coordinate).filter
        (·.version == d.rejectedVersion)) = some rejected ∧
      d = ⟨winner.coordinate, winner.version, winner.entry, winner.location, rejected.version,
        rejected.entry, rejected.location, d.rule⟩ ∧
      winner.Differ rejected d.rule) := by
  refine ⟨Graph.walk_ends, ?_, Graph.walk_inv.sound.candidates, Graph.candidates_sorted, ?_, ?_⟩
  · rintro root node inside ⟨depth, trail⟩
    obtain ⟨c, member, rfl, rfl, least⟩ := Graph.exists_candidate trail inside
    exact ⟨c, member, rfl, rfl, least, fun d other => Graph.candidate_unique member other⟩
  · intro root node depth n trail found
    obtain ⟨winner, best, first, near⟩ := Graph.exists_winner trail found
    exact ⟨winner, best, first, near, Graph.exists_mediated best⟩
  · intro d member
    obtain ⟨winner, rejected, best, found, shown, differ⟩ := Graph.exists_differ member
    exact ⟨differ.ne_deterministic, winner, rejected, best, found, shown, differ⟩

end Linkage.Mediation
