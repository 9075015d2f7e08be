import Mathlib.Algebra.GroupWithZero.Nat
import Mathlib.Algebra.Order.BigOperators.Group.Finset
import Linkage.Mediation.Outcome

/-!
The walk from all roots at once. One visit either drops the first of the queue or turns it into a
candidate and queues what it leads to. What every visit preserves is said in three parts: the queue
holds at most two layers, in order, behind all candidates; everything in it was really reached; and
nothing that can be reached next is missing. Every walk ends, since a candidate pays for the visits
that it queues.
-/
namespace Linkage.Mediation

/-- A trail of visible dependencies leads from the root at a place to a node, in so many steps. -/
inductive Graph.Trail (g : Graph) : Nat → Nat → Nat → Prop where
  | start {root node : Nat} (first : g.roots[root]? = some node) : Trail g root node 0
  | onward {root node depth : Nat} {e : Edge} (trail : Trail g root node depth)
      (inside : node < g.nodes.length) (edge : e ∈ g.edgesFrom node)
      (visible : g.usage.allows e.scope = true) : Trail g root e.target (depth + 1)

theorem Graph.Trail.root_lt {g : Graph} {root node depth : Nat} (trail : g.Trail root node depth) :
    root < g.roots.length := by
  induction trail with
  | start first => exact (List.getElem?_eq_some_iff.mp first).1
  | onward _ _ _ _ ih => exact ih

/-- The candidate that a visit makes of its node. -/
def Visit.candidate (v : Visit) (n : Node) (order : Nat) : Candidate :=
  ⟨v.node, n.coordinate, n.version, n.entry.ordinal, n.entry.location, v.scope, v.depth, v.root,
    order⟩

/-- What a visit queues. -/
def Visit.next (g : Graph) (v : Visit) : List Visit :=
  ((g.edgesFrom v.node).filter fun e => g.usage.allows e.scope).map fun e =>
    ⟨e.target, v.root, v.depth + 1, e.scope⟩

namespace Walk
variable {g : Graph} {w : Walk} {v : Visit} {rest : List Visit}

theorem foldl_follow (n : Node) (edges : List Edge) (w : Walk) :
    (edges.foldl (follow g n v) w).candidates = w.candidates ∧
      (edges.foldl (follow g n v) w).queue = w.queue ++
        (edges.filter fun e => g.usage.allows e.scope).map fun e =>
          ⟨e.target, v.root, v.depth + 1, e.scope⟩ := by
  induction edges generalizing w with
  | nil => simp
  | cons e edges ih =>
    rw [List.foldl_cons]
    obtain ⟨candidates, queue⟩ := ih (follow g n v w e)
    rw [candidates, queue]
    cases visible : g.usage.allows e.scope with
    | true => simp [follow, visible]
    | false =>
      simp only [follow, visible, Bool.false_eq_true, if_false, List.filter_cons_of_neg,
        not_false_eq_true]
      split <;> exact ⟨rfl, rfl⟩

/-- The node was reached before, or there is no such node. -/
def Dropped (g : Graph) (w : Walk) (v : Visit) : Prop :=
  g.nodes.length ≤ v.node ∨
    ∃ c ∈ w.candidates, c.root = v.root ∧ c.node = v.node ∧ c.depth ≤ v.depth

/-- One visit drops the first of the queue, or it adds a candidate at the end and follows the edges
of the node. -/
theorem step_eq (g : Graph) (w : Walk) (v : Visit) (rest : List Visit) :
    (Dropped g w v ∧ step g w v rest = { w with queue := rest }) ∨
    (¬ Dropped g w v ∧ ∃ n, g.nodes[v.node]? = some n ∧
      step g w v rest = (g.edgesFrom v.node).foldl (follow g n v)
        ⟨rest, w.candidates ++ [v.candidate n w.candidates.length], w.noted⟩) := by
  have known : ({ w with queue := rest } : Walk).reached v = true ↔
      ∃ c ∈ w.candidates, c.root = v.root ∧ c.node = v.node ∧ c.depth ≤ v.depth := by
    simp [reached, and_assoc]
  simp only [step]
  by_cases reached_before : ({ w with queue := rest } : Walk).reached v = true
  · rw [if_pos reached_before]
    exact Or.inl ⟨Or.inr (known.mp reached_before), rfl⟩
  rw [if_neg reached_before]
  cases found : g.nodes[v.node]? with
  | none => exact Or.inl ⟨Or.inl (List.getElem?_eq_none_iff.mp found), rfl⟩
  | some n =>
    refine Or.inr ⟨?_, n, rfl, rfl⟩
    rintro (outside | before)
    · have inside := (List.getElem?_eq_some_iff.mp found).1
      omega
    · exact reached_before (known.mpr before)

/-- What becomes of the queue and the candidates. -/
theorem step_cases (g : Graph) (w : Walk) (v : Visit) (rest : List Visit) :
    (Dropped g w v ∧ (step g w v rest).queue = rest ∧
      (step g w v rest).candidates = w.candidates) ∨
    (¬ Dropped g w v ∧ ∃ n, g.nodes[v.node]? = some n ∧
      (step g w v rest).queue = rest ++ v.next g ∧
      (step g w v rest).candidates = w.candidates ++ [v.candidate n w.candidates.length]) := by
  rcases step_eq g w v rest with ⟨dropped, stepped⟩ | ⟨fresh, n, found, stepped⟩
  · rw [stepped]
    exact Or.inl ⟨dropped, rfl, rfl⟩
  · rw [stepped]
    obtain ⟨candidates, queue⟩ := foldl_follow n (g.edgesFrom v.node) _
    exact Or.inr ⟨fresh, n, found, queue, candidates⟩

/-- What every visit preserves holds at the end of a run. -/
theorem run_invariant {P : Walk → Prop}
    (visited : ∀ w v rest, w.queue = v :: rest → P w → P (step g w v rest)) (fuel : Nat)
    (holds : P w) : P (run g fuel w) := by
  induction fuel generalizing w with
  | zero => exact holds
  | succ fuel ih =>
    rw [run]
    split
    · exact holds
    · rename_i v rest queue
      exact ih (visited w v rest queue holds)

/-- A visit that stands earlier in the queue than another: both are at one depth and their roots
are in order, or the other is one step deeper and its root comes no later. -/
def Ahead (u v : Visit) : Prop :=
  (u.depth = v.depth ∧ u.root ≤ v.root) ∨ (v.depth = u.depth + 1 ∧ v.root ≤ u.root)

/-- Nearer, or as near and from no later root. -/
def Behind (c : Candidate) (depth root : Nat) : Prop :=
  c.depth < depth ∨ (c.depth = depth ∧ c.root ≤ root)

/-- The queue holds at most two layers, in order, behind all candidates; the candidates are in
order and numbered, and every node is one for a root at most once. -/
structure Layered (w : Walk) : Prop where
  queue : w.queue.Pairwise Ahead
  behind : ∀ c ∈ w.candidates, ∀ v ∈ w.queue, Behind c v.depth v.root
  numbered : ∀ c ∈ w.candidates, c.order < w.candidates.length
  sorted : w.candidates.Pairwise fun a b => Behind a b.depth b.root ∧ a.order < b.order
  once : w.candidates.Pairwise fun a b => ¬ (a.root = b.root ∧ a.node = b.node)

theorem Layered.nodup_pairs (layered : Layered w) :
    (w.candidates.map fun c => (c.root, c.node)).Nodup := by
  rw [List.Nodup, List.pairwise_map]
  exact layered.once.imp fun differ same => differ (Prod.mk.inj same)

theorem mem_next {u : Visit} (member : u ∈ v.next g) :
    u.depth = v.depth + 1 ∧ u.root = v.root ∧
      ∃ e ∈ g.edgesFrom v.node, g.usage.allows e.scope = true ∧ u.node = e.target := by
  simp only [Visit.next, List.mem_map, List.mem_filter] at member
  obtain ⟨e, ⟨edge, visible⟩, rfl⟩ := member
  exact ⟨rfl, rfl, e, edge, visible, rfl⟩

theorem Layered.step (layered : Layered w) (queue : w.queue = v :: rest) :
    Layered (step g w v rest) := by
  have ahead := queue ▸ layered.queue
  obtain ⟨first, others⟩ := List.pairwise_cons.mp ahead
  have behind_first : ∀ c ∈ w.candidates, Behind c v.depth v.root := by
    intro c member
    exact layered.behind c member v (queue ▸ List.mem_cons_self)
  have behind_rest : ∀ c ∈ w.candidates, ∀ u ∈ rest, Behind c u.depth u.root := by
    intro c member u inside
    exact layered.behind c member u (queue ▸ List.mem_cons_of_mem v inside)
  rcases step_cases g w v rest with ⟨_, queue', candidates'⟩ | ⟨fresh, n, _, queue', candidates'⟩
  · constructor
    · rw [queue']
      exact others
    · rw [queue', candidates']
      exact behind_rest
    · rw [candidates']
      exact layered.numbered
    · rw [candidates']
      exact layered.sorted
    · rw [candidates']
      exact layered.once
  · constructor
    · rw [queue', List.pairwise_append]
      refine ⟨others, List.pairwise_of_forall_mem_list ?_, ?_⟩
      · intro u member u' member'
        obtain ⟨depth, root, _⟩ := mem_next member
        obtain ⟨depth', root', _⟩ := mem_next member'
        unfold Ahead
        omega
      · intro u inside u' member
        have near := first u inside
        obtain ⟨depth, root, _⟩ := mem_next member
        unfold Ahead at *
        omega
    · rw [queue', candidates']
      intro c member u inside
      have reached : Behind c v.depth v.root := by
        rcases List.mem_append.mp member with member | member
        · exact behind_first c member
        · rw [List.mem_singleton.mp member]
          exact Or.inr ⟨rfl, le_rfl⟩
      rcases List.mem_append.mp inside with inside | inside
      · have near := first u inside
        unfold Ahead Behind at *
        omega
      · obtain ⟨depth, root, _⟩ := mem_next inside
        unfold Behind at *
        omega
    · rw [candidates', List.length_append, List.length_singleton]
      intro c member
      rcases List.mem_append.mp member with member | member
      · have := layered.numbered c member
        omega
      · rw [List.mem_singleton.mp member]
        exact Nat.lt_succ_self _
    · rw [candidates', List.pairwise_append]
      refine ⟨layered.sorted, List.pairwise_singleton _ _, ?_⟩
      intro c member c' last
      rw [List.mem_singleton.mp last]
      exact ⟨behind_first c member, layered.numbered c member⟩
    · rw [candidates', List.pairwise_append]
      refine ⟨layered.once, List.pairwise_singleton _ _, ?_⟩
      intro c member c' last
      rw [List.mem_singleton.mp last]
      rintro ⟨root, node⟩
      -- Whatever was found before is no deeper, so that the node would have been dropped.
      have before := behind_first c member
      have depth : c.depth ≤ v.depth := by
        unfold Behind at before
        omega
      exact fresh (Or.inr ⟨c, member, root, node, depth⟩)

/-- Everything in the walk was reached by a trail, and candidates describe their nodes. -/
structure Sound (g : Graph) (w : Walk) : Prop where
  queue : ∀ v ∈ w.queue, g.Trail v.root v.node v.depth
  candidates : ∀ c ∈ w.candidates, g.Trail c.root c.node c.depth ∧
    ∃ n, g.nodes[c.node]? = some n ∧ c.coordinate = n.coordinate ∧ c.version = n.version ∧
      c.entry = n.entry.ordinal

theorem Sound.step (sound : Sound g w) (queue : w.queue = v :: rest) :
    Sound g (step g w v rest) := by
  have first := sound.queue v (queue ▸ List.mem_cons_self)
  have others : ∀ u ∈ rest, g.Trail u.root u.node u.depth := by
    intro u inside
    exact sound.queue u (queue ▸ List.mem_cons_of_mem v inside)
  rcases step_cases g w v rest with ⟨_, queue', candidates'⟩ | ⟨_, n, found, queue', candidates'⟩
  · constructor
    · rw [queue']
      exact others
    · rw [candidates']
      exact sound.candidates
  · constructor
    · rw [queue']
      intro u inside
      rcases List.mem_append.mp inside with inside | inside
      · exact others u inside
      · obtain ⟨depth, root, e, edge, visible, node⟩ := mem_next inside
        have there := (List.getElem?_eq_some_iff.mp found).1
        rw [depth, root, node]
        exact first.onward there edge visible
    · rw [candidates']
      intro c member
      rcases List.mem_append.mp member with member | member
      · exact sound.candidates c member
      · rw [List.mem_singleton.mp member]
        exact ⟨first, n, found, rfl, rfl, rfl⟩

/-- The node is not there, or it waits or was visited for the root at that depth or before. -/
def Covers (g : Graph) (w : Walk) (root node depth : Nat) : Prop :=
  g.nodes.length ≤ node ∨
    (∃ v ∈ w.queue, v.root = root ∧ v.node = node ∧ v.depth ≤ depth) ∨
    ∃ c ∈ w.candidates, c.root = root ∧ c.node = node ∧ c.depth ≤ depth

/-- Nothing that can be reached in one step more is missing. -/
structure Closed (g : Graph) (w : Walk) : Prop where
  roots : ∀ root node, g.roots[root]? = some node → w.Covers g root node 0
  edges : ∀ c ∈ w.candidates, ∀ e ∈ g.edgesFrom c.node, g.usage.allows e.scope = true →
    w.Covers g c.root e.target (c.depth + 1)

theorem Covers.step {root node depth : Nat} (covers : w.Covers g root node depth)
    (queue : w.queue = v :: rest) : (step g w v rest).Covers g root node depth := by
  rcases step_cases g w v rest with
    ⟨dropped, queue', candidates'⟩ | ⟨_, n, _, queue', candidates'⟩
  · rcases covers with outside | ⟨u, member, rfl, rfl, near⟩ | known
    · exact Or.inl outside
    · rcases List.mem_cons.mp (queue ▸ member) with rfl | member
      · rcases dropped with outside | ⟨c, member, root, node, nearer⟩
        · exact Or.inl outside
        · exact Or.inr (Or.inr ⟨c, candidates' ▸ member, root, node, nearer.trans near⟩)
      · exact Or.inr (Or.inl ⟨u, by rwa [queue'], rfl, rfl, near⟩)
    · exact Or.inr (Or.inr (candidates' ▸ known))
  · rcases covers with outside | ⟨u, member, rfl, rfl, near⟩ | ⟨c, member, known⟩
    · exact Or.inl outside
    · rcases List.mem_cons.mp (queue ▸ member) with rfl | member
      · refine Or.inr (Or.inr ⟨u.candidate n w.candidates.length, ?_, rfl, rfl, near⟩)
        rw [candidates']
        exact List.mem_append_right _ List.mem_cons_self
      · exact Or.inr (Or.inl ⟨u, queue' ▸ List.mem_append_left _ member, rfl, rfl, near⟩)
    · exact Or.inr (Or.inr ⟨c, candidates' ▸ List.mem_append_left _ member, known⟩)

theorem Closed.step (closed : Closed g w) (queue : w.queue = v :: rest) :
    Closed g (step g w v rest) := by
  constructor
  · intro root node first
    exact (closed.roots root node first).step queue
  · rcases step_cases g w v rest with ⟨_, _, candidates'⟩ | ⟨_, n, _, queue', candidates'⟩
    · rw [candidates']
      intro c member e edge visible
      exact (closed.edges c member e edge visible).step queue
    · intro c member e edge visible
      rcases List.mem_append.mp (candidates' ▸ member) with member | member
      · exact (closed.edges c member e edge visible).step queue
      · obtain rfl := List.mem_singleton.mp member
        refine Or.inr (Or.inl ⟨⟨e.target, v.root, v.depth + 1, e.scope⟩, ?_, rfl, rfl, le_rfl⟩)
        rw [queue']
        apply List.mem_append_right
        exact List.mem_map.mpr ⟨e, List.mem_filter.mpr ⟨edge, visible⟩, rfl⟩

/-- The invariant of the walk. -/
structure Inv (g : Graph) (w : Walk) : Prop where
  layered : Layered w
  sound : Sound g w
  closed : Closed g w

theorem Inv.step (inv : Inv g w) (queue : w.queue = v :: rest) : Inv g (step g w v rest) :=
  ⟨inv.layered.step queue, inv.sound.step queue, inv.closed.step queue⟩

section Ending

/-- The dependencies of the candidates, each counted for its root. -/
def spent (g : Graph) (w : Walk) : Nat :=
  (w.candidates.map fun c => (g.edgesFrom c.node).length).sum

/-- As many dependencies as there can be, each counted for every root. -/
def budget (g : Graph) : Nat := g.roots.length * total (g.edges.map List.length)

theorem sum_edgesFrom (edges : List (List Edge)) :
    ∑ node ∈ Finset.range edges.length, ((edges[node]?).getD []).length =
      total (edges.map List.length) := by
  induction edges with
  | nil => rfl
  | cons first edges ih =>
    rw [List.length_cons, Finset.sum_range_succ']
    simp only [List.getElem?_cons_succ, List.getElem?_cons_zero, Option.getD_some, ih]
    rw [Nat.add_comm]
    rfl

/-- Each pair of a root and a node is a candidate at most once, so that the candidates do not have
more dependencies than there are. -/
theorem spent_le_budget (layered : Layered w)
    (rooted : ∀ c ∈ w.candidates, c.root < g.roots.length) : w.spent g ≤ budget g := by
  have pairs := layered.nodup_pairs
  have counted : w.spent g = ∑ p ∈ (w.candidates.map fun c => (c.root, c.node)).toFinset,
      (g.edgesFrom p.2).length := by
    rw [List.sum_toFinset _ pairs, List.map_map]
    rfl
  calc w.spent g
      ≤ ∑ p ∈ Finset.range g.roots.length ×ˢ Finset.range g.edges.length,
          (g.edgesFrom p.2).length := by
        rw [counted]
        apply Finset.sum_le_sum_of_ne_zero
        rintro ⟨root, node⟩ member nonzero
        obtain ⟨c, inside, same⟩ := List.mem_map.mp (List.mem_toFinset.mp member)
        obtain ⟨rfl, rfl⟩ := Prod.mk.inj same
        have declared : c.node < g.edges.length := by
          by_contra outside
          apply nonzero
          simp [Graph.edgesFrom, List.getElem?_eq_none (Nat.le_of_not_lt outside)]
        simp [rooted c inside, declared]
    _ = budget g := by
        rw [Finset.sum_product]
        simp only [Graph.edgesFrom, sum_edgesFrom, Finset.sum_const_nat fun _ _ => rfl,
          Finset.card_range]
        rfl

theorem Inv.spent_le (inv : Inv g w) : w.spent g ≤ budget g :=
  spent_le_budget inv.layered fun c member => (inv.sound.candidates c member).1.root_lt

/-- The visits that are still to come, at most. -/
def remaining (g : Graph) (w : Walk) : Nat := w.queue.length + (budget g - w.spent g)

theorem length_next_le (g : Graph) (v : Visit) :
    (v.next g).length ≤ (g.edgesFrom v.node).length := by
  rw [Visit.next, List.length_map]
  exact List.length_filter_le _ _

theorem Inv.remaining_step (inv : Inv g w) (queue : w.queue = v :: rest) :
    (Walk.step g w v rest).remaining g < w.remaining g := by
  have within := (inv.step queue).spent_le
  have length : w.queue.length = rest.length + 1 := by rw [queue, List.length_cons]
  unfold remaining
  rcases step_cases g w v rest with ⟨_, queue', candidates'⟩ | ⟨_, n, _, queue', candidates'⟩
  · have same : (Walk.step g w v rest).spent g = w.spent g := by rw [spent, candidates', spent]
    rw [queue', same, length]
    omega
  · have paid : (Walk.step g w v rest).spent g = w.spent g + (g.edgesFrom v.node).length := by
      rw [spent, candidates', List.map_append, List.sum_append]
      simp [spent, Visit.candidate]
    have queued := length_next_le g v
    rw [queue', List.length_append]
    omega

/-- A run with fuel for all that remains ends with an empty queue. -/
theorem Inv.run_queue (inv : Inv g w) {fuel : Nat} (enough : w.remaining g ≤ fuel) :
    (run g fuel w).queue = [] := by
  induction fuel generalizing w with
  | zero =>
    apply List.eq_nil_of_length_eq_zero
    unfold remaining at enough
    rw [run]
    omega
  | succ fuel ih =>
    rw [run]
    split
    · assumption
    · rename_i v rest queue
      have less := inv.remaining_step queue
      exact ih (inv.step queue) (by omega)

/-- Once the queue is empty, more fuel changes nothing. -/
theorem run_add_of_queue {fuel : Nat} (ended : (run g fuel w).queue = []) (extra : Nat) :
    run g (fuel + extra) w = run g fuel w := by
  induction fuel generalizing w with
  | zero =>
    rw [run] at ended
    cases extra with
    | zero => rfl
    | succ extra => simp only [run, ended]
  | succ fuel ih =>
    rw [Nat.succ_add, run, run]
    rw [run] at ended
    split
    · rfl
    · rename_i v rest queue
      rw [queue] at ended
      exact ih ended

end Ending

/-- When the queue is empty, every trail ends at a candidate that is no deeper. -/
theorem Closed.covered (closed : Closed g w) (ended : w.queue = []) {root node depth : Nat}
    (trail : g.Trail root node depth) (inside : node < g.nodes.length) :
    ∃ c ∈ w.candidates, c.root = root ∧ c.node = node ∧ c.depth ≤ depth := by
  have settled : ∀ {root node depth}, w.Covers g root node depth → node < g.nodes.length →
      ∃ c ∈ w.candidates, c.root = root ∧ c.node = node ∧ c.depth ≤ depth := by
    rintro root node depth (outside | ⟨v, waiting, _⟩ | known) inside
    · omega
    · rw [ended] at waiting
      cases waiting
    · exact known
  induction trail with
  | start first => exact settled (closed.roots _ _ first) inside
  | onward _ before edge visible ih =>
    obtain ⟨c, member, rfl, rfl, nearer⟩ := ih before
    obtain ⟨d, found, root, node, near⟩ := settled (closed.edges c member _ edge visible) inside
    exact ⟨d, found, root, node, by omega⟩

end Walk

namespace Graph
variable (g : Graph)

/-- Every root waits at depth zero. -/
def start : Walk := { queue := g.roots.zipIdx.map fun (node, root) => ⟨node, root, 0, .compile⟩ }

variable {g}

theorem mem_start {v : Visit} :
    v ∈ g.start.queue ↔ g.roots[v.root]? = some v.node ∧ v.depth = 0 ∧ v.scope = .compile := by
  simp only [start, List.mem_map, Prod.exists, List.mem_zipIdx_iff_getElem?]
  constructor
  · rintro ⟨node, root, first, rfl⟩
    exact ⟨first, rfl, rfl⟩
  · obtain ⟨node, root, depth, scope⟩ := v
    rintro ⟨first, rfl, rfl⟩
    exact ⟨node, root, first, rfl⟩

theorem start_ahead : g.start.queue.Pairwise Walk.Ahead := by
  have increasing : g.roots.zipIdx.Pairwise fun a b => a.2 < b.2 := by
    have places : (List.range' 0 g.roots.length).Pairwise (· < ·) := List.pairwise_lt_range'
    rw [← List.zipIdx_map_snd 0 g.roots, List.pairwise_map] at places
    exact places
  rw [start, List.pairwise_map]
  exact increasing.imp fun less => Or.inl ⟨rfl, less.le⟩

theorem start_inv : Walk.Inv g g.start := by
  refine ⟨⟨start_ahead, nofun, nofun, .nil, .nil⟩, ⟨?_, nofun⟩, ⟨?_, nofun⟩⟩
  · intro v waiting
    obtain ⟨first, depth, _⟩ := mem_start.mp waiting
    rw [depth]
    exact .start first
  · intro root node first
    exact Or.inr (Or.inl ⟨⟨node, root, 0, .compile⟩, mem_start.mpr ⟨first, rfl, rfl⟩, rfl, rfl,
      le_rfl⟩)

theorem remaining_start : g.start.remaining g = g.visitBound := by
  simp [Walk.remaining, Walk.spent, Walk.budget, start, visitBound]

theorem walk_inv : Walk.Inv g g.walk :=
  Walk.run_invariant (fun _ _ _ queue inv => inv.step queue) _ start_inv

/-- The walk ends, and no bound on the visits beyond its own changes what it finds. -/
theorem walk_ends : g.walk.queue = [] ∧
    ∀ fuel, g.visitBound ≤ fuel → Walk.run g fuel g.start = g.walk := by
  have ended := start_inv.run_queue (g := g) remaining_start.le
  have same : ∀ fuel, g.visitBound ≤ fuel →
      Walk.run g fuel g.start = Walk.run g g.visitBound g.start := by
    intro fuel enough
    obtain ⟨extra, rfl⟩ := Nat.exists_eq_add_of_le enough
    exact Walk.run_add_of_queue ended extra
  have walked : g.walk = Walk.run g g.visitBound g.start := same _ (Nat.le_succ _)
  rw [walked]
  exact ⟨ended, same⟩

end Graph

end Linkage.Mediation
