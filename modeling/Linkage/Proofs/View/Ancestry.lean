import Mathlib.Algebra.BigOperators.Group.Finset.Piecewise
import Mathlib.Algebra.GroupWithZero.Nat
import Mathlib.Algebra.Order.BigOperators.Group.List
import Mathlib.Data.List.Fold
import Mathlib.Data.List.MinMax
import Mathlib.Data.String.Basic
import Mathlib.Order.Lattice.Nat
import Linkage.View.Ancestry

/-!
Searches upwards. A breadth-first search takes names from a queue; it drops those that it has seen
and queues what the others lead to. With enough fuel the queue runs empty, since a name is followed
once and all names together lead to no more than a bound. What the search has seen by then are the
names that a chain of steps leads to, each with the length of its shortest chain. So the distance of
two classes is the length of the shortest chain of direct supertypes between them; the root class
lies above every class, beyond all others where no chain leads to it.
-/
namespace Linkage

/-- So many steps lead from one name to another. -/
inductive Steps (next : String → List String) (start : String) : String → Nat → Prop where
  | start : Steps next start start 0
  | onward {name above : String} {count : Nat} (steps : Steps next start name count)
      (step : above ∈ next name) : Steps next start above (count + 1)

section Steps
variable {next : String → List String} {start name above : String} {count : Nat}

theorem Steps.trans {onward : Nat} (steps : Steps next start name count)
    (further : Steps next name above onward) : Steps next start above (count + onward) := by
  induction further with
  | start => exact steps
  | onward _ step ih => exact .onward ih step

theorem Steps.exists_shortest (steps : Steps next start name count) :
    ∃ shortest, IsLeast {count | Steps next start name count} shortest :=
  ⟨_, Nat.sInf_mem ⟨count, steps⟩, fun _ => Nat.sInf_le⟩

/-- Where every step goes down, so do chains of steps. -/
theorem Steps.falls {rank : String → Nat}
    (falls : ∀ name, ∀ above ∈ next name, rank above < rank name)
    (steps : Steps next start name count) : rank name + count ≤ rank start := by
  induction steps with
  | start => exact le_rfl
  | onward _ step ih =>
    have fallen := falls _ _ step
    omega

end Steps

section Search
variable {next : String → List String} {start : String}

/-- How many names the given ones lead to, counted with repetition. -/
def leads (next : String → List String) (names : List String) : Nat :=
  (names.map fun name => (next name).length).sum

/-- What one name taken from the queue does to queue and seen names holds to the end, where enough
fuel is there to empty the queue: a name that is followed pays for those that it queues. -/
theorem breadthFirst_ends {P : List (String × Nat) → List (String × Nat) → Prop} {bound : Nat}
    (bounded : ∀ names : List String, names.Nodup → leads next names ≤ bound)
    (dropped : ∀ {first queue seen}, first.1 ∈ seen.map (·.1) → P (first :: queue) seen →
      P queue seen)
    (followed : ∀ {first queue seen}, first.1 ∉ seen.map (·.1) → P (first :: queue) seen →
      P (queue ++ (next first.1).map fun n => (n, first.2 + 1)) (seen ++ [first]))
    (fuel : Nat) {queue seen : List (String × Nat)} (once : (seen.map (·.1)).Nodup)
    (enough : queue.length + bound ≤ fuel + leads next (seen.map (·.1))) (holds : P queue seen) :
    P [] (breadthFirst next fuel queue seen) := by
  induction fuel generalizing queue seen with
  | zero =>
    have spent := bounded _ once
    have empty : queue = [] := List.eq_nil_of_length_eq_zero (by omega)
    rw [breadthFirst]
    exact empty ▸ holds
  | succ fuel ih =>
    cases queue with
    | nil => exact holds
    | cons first queue =>
      rw [List.length_cons] at enough
      have known : seen.any (·.1 == first.1) = true ↔ first.1 ∈ seen.map (·.1) := by
        simp [List.any_eq_true]
      rw [breadthFirst]
      split
      · rename_i before
        exact ih once (by omega) (dropped (known.mp before) holds)
      · rename_i fresh
        have new : first.1 ∉ seen.map (·.1) := fun before => fresh (known.mpr before)
        refine ih ?_ ?_ (followed new holds)
        · rw [List.map_append, List.nodup_append_comm]
          exact List.nodup_cons.mpr ⟨new, once⟩
        · simp only [List.length_append, List.length_map, List.map_append, List.map_cons,
            List.map_nil, leads, List.sum_append, List.sum_cons, List.sum_nil] at enough ⊢
          omega

/-- A search from one name. What stands in it was reached by steps, and what can be reached next is
not missing; the queue holds at most two layers, in order, behind all that was seen. -/
structure Search (next : String → List String) (start : String)
    (queue seen : List (String × Nat)) : Prop where
  sound : ∀ e ∈ seen ++ queue, Steps next start e.1 e.2
  begun : (start, 0) ∈ seen ++ queue
  closed : ∀ e ∈ seen, ∀ above ∈ next e.1, ∃ depth ≤ e.2 + 1, (above, depth) ∈ seen ++ queue
  layered : queue.Pairwise fun a b => a.2 ≤ b.2 ∧ b.2 ≤ a.2 + 1
  behind : ∀ e ∈ seen, ∀ q ∈ queue, e.2 ≤ q.2
  once : (seen.map (·.1)).Nodup

variable {first : String × Nat} {queue seen : List (String × Nat)}

/-- A name that was seen before was seen at no greater depth. -/
theorem Search.dropped (known : first.1 ∈ seen.map (·.1))
    (search : Search next start (first :: queue) seen) : Search next start queue seen := by
  obtain ⟨before, listed, same⟩ := List.mem_map.mp known
  have nearer : before.2 ≤ first.2 := search.behind before listed first List.mem_cons_self
  -- Whatever the head of the queue stood for, the entry seen before stands for it too.
  have kept : ∀ {name depth}, (name, depth) ∈ seen ++ first :: queue →
      ∃ depth' ≤ depth, (name, depth') ∈ seen ++ queue := by
    intro name depth among
    rcases List.mem_append.mp among with inside | inside
    · exact ⟨depth, le_rfl, List.mem_append_left _ inside⟩
    · rcases List.mem_cons.mp inside with rfl | inside
      · have named : before.1 = name := same
        exact ⟨before.2, nearer, List.mem_append_left _ (named ▸ listed)⟩
      · exact ⟨depth, le_rfl, List.mem_append_right _ inside⟩
  constructor
  · intro e among
    refine search.sound e ?_
    rcases List.mem_append.mp among with inside | inside
    · exact List.mem_append_left _ inside
    · exact List.mem_append_right _ (List.mem_cons_of_mem _ inside)
  · obtain ⟨depth, none, among⟩ := kept search.begun
    rwa [Nat.le_zero.mp none] at among
  · intro e inside above step
    obtain ⟨depth, near, among⟩ := search.closed e inside above step
    obtain ⟨depth', nearer', among'⟩ := kept among
    exact ⟨depth', nearer'.trans near, among'⟩
  · exact (List.pairwise_cons.mp search.layered).2
  · intro e inside q waiting
    exact search.behind e inside q (List.mem_cons_of_mem _ waiting)
  · exact search.once

theorem Search.followed (new : first.1 ∉ seen.map (·.1))
    (search : Search next start (first :: queue) seen) :
    Search next start (queue ++ (next first.1).map fun n => (n, first.2 + 1))
      (seen ++ [first]) := by
  obtain ⟨ahead, others⟩ := List.pairwise_cons.mp search.layered
  have moved : ∀ {e}, e ∈ seen ++ first :: queue →
      e ∈ (seen ++ [first]) ++ (queue ++ (next first.1).map fun n => (n, first.2 + 1)) := by
    intro e among
    simp only [List.mem_append, List.mem_cons, List.not_mem_nil, or_false] at among ⊢
    tauto
  constructor
  · intro e among
    rw [List.append_assoc, ← List.append_assoc [first], List.singleton_append,
      ← List.append_assoc, List.mem_append] at among
    rcases among with among | queued
    · exact search.sound e among
    · obtain ⟨above, step, rfl⟩ := List.mem_map.mp queued
      exact .onward (search.sound first (by simp)) step
  · exact moved search.begun
  · intro e inside above step
    rcases List.mem_append.mp inside with inside | last
    · obtain ⟨depth, near, among⟩ := search.closed e inside above step
      exact ⟨depth, near, moved among⟩
    · obtain rfl := List.mem_singleton.mp last
      have queued : (above, e.2 + 1) ∈ (next e.1).map fun n => (n, e.2 + 1) :=
        List.mem_map.mpr ⟨above, step, rfl⟩
      exact ⟨e.2 + 1, le_rfl, List.mem_append_right _ (List.mem_append_right _ queued)⟩
  · rw [List.pairwise_append]
    refine ⟨others, List.pairwise_map.mpr (List.pairwise_of_forall fun _ _ => by simp), ?_⟩
    intro q waiting e queued
    obtain ⟨above, _, rfl⟩ := List.mem_map.mp queued
    have near := ahead q waiting
    dsimp only
    omega
  · intro e inside q among
    have reached : e.2 ≤ first.2 := by
      rcases List.mem_append.mp inside with inside | last
      · exact search.behind e inside first List.mem_cons_self
      · rw [List.mem_singleton.mp last]
    rcases List.mem_append.mp among with waiting | queued
    · exact reached.trans (ahead q waiting).1
    · obtain ⟨above, _, rfl⟩ := List.mem_map.mp queued
      exact Nat.le_succ_of_le reached
  · rw [List.map_append, List.nodup_append_comm]
    exact List.nodup_cons.mpr ⟨new, search.once⟩

/-- When the queue is empty, everything that steps lead to was seen, at no greater depth. -/
theorem Search.covered (search : Search next start [] seen) {name : String} {count : Nat}
    (steps : Steps next start name count) : ∃ depth ≤ count, (name, depth) ∈ seen := by
  induction steps with
  | start => exact ⟨0, le_rfl, by simpa using search.begun⟩
  | onward _ step ih =>
    obtain ⟨depth, near, listed⟩ := ih
    obtain ⟨depth', near', among⟩ := search.closed _ listed _ step
    exact ⟨depth', near'.trans (Nat.add_le_add_right near 1), by simpa using among⟩

theorem Search.mem_iff (search : Search next start [] seen) {name : String} {depth : Nat} :
    (name, depth) ∈ seen ↔ IsLeast {count | Steps next start name count} depth := by
  have least : ∀ {depth}, (name, depth) ∈ seen →
      IsLeast {count | Steps next start name count} depth := by
    intro depth listed
    refine ⟨search.sound _ (List.mem_append_left _ listed), ?_⟩
    intro count steps
    obtain ⟨depth', near, listed'⟩ := search.covered steps
    have same := List.inj_on_of_nodup_map search.once listed listed' rfl
    rwa [(Prod.mk.inj same).2]
  refine ⟨least, ?_⟩
  intro shortest
  obtain ⟨depth', near, listed⟩ := search.covered shortest.1
  rwa [(least listed).unique shortest] at listed

theorem Search.begin : Search next start [(start, 0)] [] := by
  constructor
  · intro e among
    obtain rfl := List.mem_singleton.mp among
    exact .start
  all_goals simp

/-- A search from one name that has enough fuel finds the shortest chains. -/
theorem mem_breadthFirst_iff {fuel : Nat}
    (enough : ∀ names : List String, names.Nodup → leads next names < fuel) {name : String}
    {depth : Nat} :
    (name, depth) ∈ breadthFirst next fuel [(start, 0)] [] ↔
      IsLeast {count | Steps next start name count} depth := by
  have begin : Search next start [(start, 0)] [] := .begin
  have some : 0 < fuel := enough [] List.nodup_nil
  have fuelled : [(start, 0)].length + (fuel - 1) ≤ fuel + leads next [] := by
    simp only [leads, List.length_singleton, List.map_nil, List.sum_nil]
    omega
  have ends : Search next start [] (breadthFirst next fuel [(start, 0)] []) :=
    breadthFirst_ends (fun names distinct => Nat.le_sub_one_of_lt (enough names distinct))
      Search.dropped Search.followed fuel begin.once fuelled begin
  exact ends.mem_iff

end Search

/-- What a table says of a name, as a number; nothing of a name that it lacks. -/
def weight {α : Type} (table : List (String × α)) (size : α → Nat) (name : String) : Nat :=
  ((table.find? (·.1 == name)).map fun e => size e.2).getD 0

/-- Different names weigh no more than the whole table: each entry counts for one name at most. -/
theorem sum_weight_le {α : Type} (table : List (String × α)) (size : α → Nat) {names : List String}
    (distinct : names.Nodup) :
    (names.map (weight table size)).sum ≤ (table.map fun e => size e.2).sum := by
  induction table with
  | nil =>
    have none : weight ([] : List (String × α)) size = fun _ => 0 := rfl
    simp [none]
  | cons e table ih =>
    have split : ∀ name ∈ names, weight (e :: table) size name ≤
        (if name = e.1 then size e.2 else 0) + weight table size name := by
      intro name _
      simp only [weight, List.find?_cons]
      by_cases same : e.1 = name
      · simp [same]
      · have differ : (e.1 == name) = false := by simpa using same
        simp [differ]
    have single : (names.map fun name => if name = e.1 then size e.2 else 0).sum ≤ size e.2 := by
      rw [← List.sum_toFinset _ distinct, Finset.sum_ite_eq']
      split <;> simp
    calc (names.map (weight (e :: table) size)).sum
        ≤ (names.map fun name =>
            (if name = e.1 then size e.2 else 0) + weight table size name).sum :=
          List.sum_le_sum split
      _ = (names.map fun name => if name = e.1 then size e.2 else 0).sum +
            (names.map (weight table size)).sum := List.sum_map_add
      _ ≤ size e.2 + (table.map fun e => size e.2).sum := Nat.add_le_add single ih

namespace ClassView
variable (v : ClassView) {start name : String} {depth : Nat}

theorem lookup_eq_find (name : String) :
    v.lookup name = ((v.library ++ v.program).find? (·.1 == name)).map (·.2) := by
  rw [lookup, find, find, List.find?_append, Option.orElse_eq_orElse, Option.orElse_eq_or,
    Option.map_or]

/-- The superclass and the interfaces of a class that the view holds, or what is known of it. -/
theorem length_supertypes_le (name : String) : (v.supertypes name).length ≤
    weight (v.library ++ v.program) (fun r => r.stub.interfaces.length + 1) name +
      weight platformSupertypes List.length name := by
  rw [supertypes, stubOf?, lookup_eq_find]
  cases held : (v.library ++ v.program).find? (·.1 == name) with
  | some e =>
    have own : (e.2.stub.superClass.toList ++ e.2.stub.interfaces).length ≤
        e.2.stub.interfaces.length + 1 := by
      cases e.2.stub.superClass <;> simp
    simp only [weight, held, Option.map_some, Option.getD_some]
    omega
  | none =>
    cases known : platformSupertypes.find? (·.1 == name) <;> simp [weight, held, known]

theorem leads_supertypes_lt {names : List String} (distinct : names.Nodup) :
    leads v.supertypes names < v.searchBound := by
  have classes := sum_weight_le (v.library ++ v.program) (fun r => r.stub.interfaces.length + 1)
    distinct
  have platform := sum_weight_le platformSupertypes List.length distinct
  have stubs : total (v.stubs.map fun c => c.interfaces.length + 1) =
      ((v.library ++ v.program).map fun e => e.2.stub.interfaces.length + 1).sum := by
    rw [ClassView.stubs, List.map_map]
    rfl
  calc leads v.supertypes names
      ≤ (names.map fun name =>
          weight (v.library ++ v.program) (fun r => r.stub.interfaces.length + 1) name +
            weight platformSupertypes List.length name).sum :=
        List.sum_le_sum fun name _ => v.length_supertypes_le name
    _ ≤ total (v.stubs.map fun c => c.interfaces.length + 1) +
          total (platformSupertypes.map (·.2.length)) := by
        rw [List.sum_map_add, stubs]
        exact Nat.add_le_add classes platform
    _ < v.searchBound := Nat.lt_add_of_pos_right Nat.two_pos

/-- The ancestry of a class lists the classes that chains of direct supertypes lead to. -/
theorem mem_ancestry_iff : (name, depth) ∈ v.ancestry start ↔
    IsLeast {count | Steps v.supertypes start name count} depth :=
  mem_breadthFirst_iff fun _ distinct => v.leads_supertypes_lt distinct

/-- How far the furthest class above a class lies. -/
def deepest (start : String) : Nat := ((v.ancestry start).map (·.2)).foldl max 0

theorem le_deepest (listed : (name, depth) ∈ v.ancestry start) : depth ≤ v.deepest start := by
  have present : depth ∈ (v.ancestry start).map (·.2) := List.mem_map_of_mem listed
  rw [deepest, List.foldl_eq_foldr]
  exact List.le_max_of_le present le_rfl

theorem find_ancestry {e : String × Nat} (found : (v.ancestry start).find? (·.1 == name) = some e) :
    IsLeast {count | Steps v.supertypes start name count} e.2 := by
  have same : e.1 = name := by simpa using List.find?_some found
  have listed : (e.1, e.2) ∈ v.ancestry start := List.mem_of_find?_eq_some found
  exact v.mem_ancestry_iff.mp (same ▸ listed)

theorem distance_of_shortest
    (shortest : IsLeast {count | Steps v.supertypes start name count} depth) :
    v.distance start name = some depth := by
  rw [distance]
  cases found : (v.ancestry start).find? (·.1 == name) with
  | some e => exact congrArg some ((v.find_ancestry found).unique shortest)
  | none => simpa using List.find?_eq_none.mp found _ (v.mem_ancestry_iff.mpr shortest)

/-- A chain is no shorter than the distance. -/
theorem distance_le {count : Nat} (steps : Steps v.supertypes start name count)
    (away : v.distance start name = some depth) : depth ≤ count := by
  obtain ⟨least, shortest⟩ := steps.exists_shortest
  obtain rfl := Option.some.inj ((v.distance_of_shortest shortest).symm.trans away)
  exact shortest.2 steps

theorem distance_of_unreached (unreached : ∀ count, ¬ Steps v.supertypes start name count) :
    v.distance start name = if name = objectClass then some (v.deepest start + 1) else none := by
  rw [distance]
  cases found : (v.ancestry start).find? (·.1 == name) with
  | some e => exact absurd (v.find_ancestry found).1 (unreached e.2)
  | none => rfl

theorem isSubtype_iff : v.isSubtype start name = true ↔
    (∃ count, Steps v.supertypes start name count) ∨ name = objectClass := by
  by_cases reached : ∃ count, Steps v.supertypes start name count
  · obtain ⟨count, steps⟩ := reached
    obtain ⟨depth, shortest⟩ := steps.exists_shortest
    rw [isSubtype, v.distance_of_shortest shortest]
    exact iff_of_true rfl (.inl ⟨count, steps⟩)
  · rw [isSubtype, v.distance_of_unreached (not_exists.mp reached), or_iff_right reached]
    by_cases root : name = objectClass
    · simp [root]
    · simp [root]

/-- No chain of supertypes comes back to where it started. -/
def Acyclic : Prop := ∀ name count, ¬ Steps v.supertypes name name (count + 1)

theorem acyclic_of_rank (rank : String → Nat)
    (falls : ∀ name, ∀ above ∈ v.supertypes name, rank above < rank name) : v.Acyclic := by
  intro name count round
  have fallen := round.falls falls
  omega

/-- A direct supertype is declared by a class of the view, or known of the platform. -/
theorem mem_supertypes {above : String} (step : above ∈ v.supertypes name) :
    (∃ e ∈ v.library ++ v.program, e.1 = name ∧
        above ∈ e.2.stub.superClass.toList ++ e.2.stub.interfaces) ∨
      ∃ e ∈ platformSupertypes, e.1 = name ∧ above ∈ e.2 := by
  rw [supertypes, stubOf?, lookup_eq_find] at step
  cases held : (v.library ++ v.program).find? (·.1 == name) with
  | some e =>
    rw [held] at step
    exact .inl ⟨e, List.mem_of_find?_eq_some held, by simpa using List.find?_some held, step⟩
  | none =>
    rw [held] at step
    cases known : platformSupertypes.find? (·.1 == name) with
    | some e =>
      simp only [known, Option.map_some, Option.getD_some, Option.map_none] at step
      exact .inr ⟨e, List.mem_of_find?_eq_some known, by simpa using List.find?_some known, step⟩
    | none => simp [known] at step

end ClassView

end Linkage
