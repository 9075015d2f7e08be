import Linkage.Proofs.View.Ancestry

/-!
Runs of searches. A run takes one name after the other until its queue is empty; that there is a run
is what the end of a search means, and what one step keeps holds at the end. A search for a goal
stops where the whole search lists the goal. A search that goes on from names seen before it finds
what steps lead to from them, by the number of steps.
-/
namespace Linkage

theorem nodup_snoc {names : List String} {name : String} (new : name ∉ names)
    (once : names.Nodup) : (names ++ [name]).Nodup := by
  rw [← List.concat_eq_append]
  exact once.concat new

theorem Steps.eq_of_none {next : String → List String} {start name : String} {count : Nat}
    (steps : Steps next start name count) (none : next start = []) : name = start := by
  induction steps with
  | start => rfl
  | onward _ step ih =>
    rw [ih, none] at step
    cases step

/-- A run of a breadth-first search from a queue and the names seen so far to an empty queue. -/
inductive Searches (next : String → List String) :
    List (String × Nat) → List (String × Nat) → List (String × Nat) → Prop where
  | ended {seen : List (String × Nat)} : Searches next [] seen seen
  | dropped {first : String × Nat} {queue seen found : List (String × Nat)}
      (known : first.1 ∈ seen.map (·.1)) (rest : Searches next queue seen found) :
      Searches next (first :: queue) seen found
  | followed {first : String × Nat} {queue seen found : List (String × Nat)}
      (new : first.1 ∉ seen.map (·.1))
      (rest : Searches next (queue ++ (next first.1).map fun n => (n, first.2 + 1))
        (seen ++ [first]) found) :
      Searches next (first :: queue) seen found

/-- A run of a search for one name. It stops at the goal and gives its depth; where the queue runs
empty before, it gives the greatest depth of a name that it has followed. -/
inductive Seeks (next : String → List String) (goal : String) :
    List (String × Nat) → List String → Nat → Nat ⊕ Nat → Prop where
  | exhausted {seen : List String} {deepest : Nat} : Seeks next goal [] seen deepest (.inr deepest)
  | met {depth deepest : Nat} {queue : List (String × Nat)} {seen : List String} :
      Seeks next goal ((goal, depth) :: queue) seen deepest (.inl depth)
  | dropped {first : String × Nat} {queue : List (String × Nat)} {seen : List String}
      {deepest : Nat} {outcome : Nat ⊕ Nat} (other : first.1 ≠ goal) (known : first.1 ∈ seen)
      (rest : Seeks next goal queue seen deepest outcome) :
      Seeks next goal (first :: queue) seen deepest outcome
  | followed {first : String × Nat} {queue : List (String × Nat)} {seen : List String}
      {deepest : Nat} {outcome : Nat ⊕ Nat} (other : first.1 ≠ goal) (new : first.1 ∉ seen)
      (rest : Seeks next goal (queue ++ (next first.1).map fun n => (n, first.2 + 1))
        (seen ++ [first.1]) (max deepest first.2) outcome) :
      Seeks next goal (first :: queue) seen deepest outcome

/-- The greatest depth in a list. -/
def furthest (entries : List (String × Nat)) : Nat := (entries.map (·.2)).foldl max 0

theorem furthest_cases (entries : List (String × Nat)) :
    furthest entries = 0 ∨ ∃ e ∈ entries, e.2 = furthest entries := by
  rw [furthest, List.foldl_eq_foldr]
  induction entries with
  | nil => exact .inl rfl
  | cons e entries ih =>
    rw [List.map_cons, List.foldr_cons]
    rcases le_total ((entries.map (·.2)).foldr max 0) e.2 with nearer | further
    · exact .inr ⟨e, List.mem_cons_self, (max_eq_left nearer).symm⟩
    · rw [max_eq_right further]
      refine ih.imp_right ?_
      rintro ⟨e', inside, same⟩
      exact ⟨e', List.mem_cons_of_mem _ inside, same⟩

section Runs
variable {next : String → List String} {queue seen found : List (String × Nat)}

/-- With enough fuel the queue runs empty. -/
theorem breadthFirst_searches (bound : Nat) {fuel : Nat}
    (bounded : ∀ names : List String, names.Nodup → leads next names ≤ bound)
    (once : (seen.map (·.1)).Nodup)
    (enough : queue.length + bound ≤ fuel + leads next (seen.map (·.1))) :
    Searches next queue seen (breadthFirst next fuel queue seen) := by
  -- The run is put together from its end: a run from here is the rest of one from the start.
  refine breadthFirst_ends
    (P := fun rest known => ∀ found, Searches next rest known found →
      Searches next queue seen found)
    bounded ?_ ?_ fuel once enough (fun _ run => run) _ .ended
  · intro first rest known before back found run
    exact back found (.dropped before run)
  · intro first rest known new back found run
    exact back found (.followed new run)

/-- What every step keeps holds at the end of a run. -/
theorem Searches.keeps {P : List (String × Nat) → List (String × Nat) → Prop}
    (dropped : ∀ {first queue seen}, first.1 ∈ seen.map (·.1) → P (first :: queue) seen →
      P queue seen)
    (followed : ∀ {first queue seen}, first.1 ∉ seen.map (·.1) → P (first :: queue) seen →
      P (queue ++ (next first.1).map fun n => (n, first.2 + 1)) (seen ++ [first]))
    (run : Searches next queue seen found) (holds : P queue seen) : P [] found := by
  induction run with
  | ended => exact holds
  | dropped known _ ih => exact ih (dropped known holds)
  | followed new _ ih => exact ih (followed new holds)

theorem Searches.isPrefix (run : Searches next queue seen found) : seen <+: found := by
  induction run with
  | ended => exact List.prefix_rfl
  | dropped _ _ ih => exact ih
  | followed _ _ ih => exact (List.prefix_append _ _).trans ih

/-- A search for a goal that was not seen yet stops where the whole search lists it. -/
theorem Searches.seeks {goal : String} (run : Searches next queue seen found)
    (unmet : goal ∉ seen.map (·.1)) :
    Seeks next goal queue (seen.map (·.1)) (furthest seen)
      (match found.find? (·.1 == goal) with
        | some e => .inl e.2
        | none => .inr (furthest found)) := by
  have missed : ∀ {entries : List (String × Nat)}, goal ∉ entries.map (·.1) →
      entries.find? (·.1 == goal) = none := by
    intro entries unmet
    refine List.find?_eq_none.mpr fun e inside same => unmet ?_
    exact List.mem_map.mpr ⟨e, inside, by simpa using same⟩
  induction run with
  | ended =>
    rw [missed unmet]
    exact .exhausted
  | dropped known _ ih =>
    refine .dropped ?_ known (ih unmet)
    rintro rfl
    exact unmet known
  | @followed first queue seen found new rest ih =>
    by_cases same : first.1 = goal
    · obtain ⟨others, rfl⟩ := rest.isPrefix
      rw [List.append_assoc, List.find?_append, missed unmet, Option.none_or, List.singleton_append,
        List.find?_cons_of_pos (by simpa using same)]
      subst same
      exact .met
    · refine .followed same new ?_
      have later := ih (by simpa [Ne.symm same] using unmet)
      have deeper : furthest (seen ++ [first]) = max (furthest seen) first.2 := by
        simp [furthest]
      rwa [List.map_append, deeper] at later

/-- A search from one name, and what it has seen in order of depth. -/
theorem Searches.of_start {start : String} (run : Searches next [(start, 0)] [] found) :
    Search next start [] found ∧ found.Pairwise fun a b => a.2 ≤ b.2 := by
  refine run.keeps
    (P := fun queue seen => Search next start queue seen ∧ seen.Pairwise fun a b => a.2 ≤ b.2)
    ?_ ?_ ⟨.begin, .nil⟩
  · rintro first queue seen known ⟨search, sorted⟩
    exact ⟨search.dropped known, sorted⟩
  · rintro first queue seen new ⟨search, sorted⟩
    refine ⟨search.followed new, List.pairwise_append.mpr ⟨sorted, List.pairwise_singleton _ _, ?_⟩⟩
    intro e inside last only
    obtain rfl := List.mem_singleton.mp only
    exact search.behind e inside last List.mem_cons_self

end Runs

/-! A search that goes on from names that were seen before it. -/

section Sweep
variable {next : String → List String} {starts : List String}

/-- So many steps lead to a name from one of several. -/
def StepsFrom (next : String → List String) (starts : List String) (name : String)
    (count : Nat) : Prop :=
  ∃ start ∈ starts, Steps next start name count

theorem StepsFrom.exists_shortest {name : String} {count : Nat}
    (steps : StepsFrom next starts name count) :
    ∃ shortest, IsLeast {count | StepsFrom next starts name count} shortest :=
  ⟨_, Nat.sInf_mem ⟨count, steps⟩, fun _ => Nat.sInf_le⟩

/-- How many steps from the starts an entry stands for: the search begins one step above them. -/
def level (starts : List String) (e : String × Nat) : Nat := if e.1 ∈ starts then 0 else e.2 + 1

theorem level_mono {first before : String × Nat} (same : before.1 = first.1)
    (nearer : before.2 ≤ first.2) : level starts before ≤ level starts first := by
  rw [level, level, same]
  split
  · exact le_rfl
  · omega

/-- A search behind names that were seen before it. What stands in it is reached from them by as
many steps as its level says, and what can be reached next is not missing. -/
structure Sweep (next : String → List String) (starts : List String)
    (queue seen : List (String × Nat)) : Prop where
  sound : ∀ e ∈ seen ++ queue, StepsFrom next starts e.1 (level starts e)
  begun : ∀ start ∈ starts, start ∈ seen.map (·.1)
  closed : ∀ e ∈ seen, ∀ above ∈ next e.1, ∃ depth,
    level starts (above, depth) ≤ level starts e + 1 ∧ (above, depth) ∈ seen ++ queue
  layered : queue.Pairwise fun a b => a.2 ≤ b.2 ∧ b.2 ≤ a.2 + 1
  behind : ∀ e ∈ seen, ∀ q ∈ queue, e.2 ≤ q.2
  sorted : seen.Pairwise fun a b => level starts a ≤ level starts b
  once : (seen.map (·.1)).Nodup

variable {first : String × Nat} {queue seen : List (String × Nat)}

theorem Sweep.begin (once : starts.Nodup) :
    Sweep next starts ((starts.flatMap next).map (·, 0)) (starts.map (·, 0)) := by
  constructor
  · intro e among
    rcases List.mem_append.mp among with inside | queued
    · obtain ⟨start, own, rfl⟩ := List.mem_map.mp inside
      rw [level, if_pos own]
      exact ⟨start, own, .start⟩
    · obtain ⟨above, led, rfl⟩ := List.mem_map.mp queued
      obtain ⟨start, inside, step⟩ := List.mem_flatMap.mp led
      rw [level]
      split
      · rename_i itself
        exact ⟨above, itself, .start⟩
      · exact ⟨start, inside, .onward .start step⟩
  · intro start inside
    simpa using inside
  · intro e among above step
    obtain ⟨start, inside, rfl⟩ := List.mem_map.mp among
    have led : above ∈ starts.flatMap next := List.mem_flatMap.mpr ⟨start, inside, step⟩
    refine ⟨0, ?_, List.mem_append_right _ (List.mem_map.mpr ⟨above, led, rfl⟩)⟩
    rw [level, level, if_pos inside]
    split <;> omega
  · exact List.pairwise_map.mpr (List.pairwise_of_forall fun _ _ => by simp)
  · intro e among q _
    obtain ⟨start, _, rfl⟩ := List.mem_map.mp among
    exact Nat.zero_le _
  · refine List.pairwise_map.mpr (List.pairwise_of_forall_mem_list ?_)
    intro start inside other _
    simp [level, inside]
  · simpa [Function.comp_def] using once

theorem Sweep.dropped (known : first.1 ∈ seen.map (·.1))
    (sweep : Sweep next starts (first :: queue) seen) : Sweep next starts queue seen := by
  obtain ⟨before, listed, same⟩ := List.mem_map.mp known
  have nearer : before.2 ≤ first.2 := sweep.behind before listed first List.mem_cons_self
  constructor
  · intro e among
    refine sweep.sound e ?_
    rcases List.mem_append.mp among with inside | inside
    · exact List.mem_append_left _ inside
    · exact List.mem_append_right _ (List.mem_cons_of_mem _ inside)
  · exact sweep.begun
  · intro e inside above step
    obtain ⟨depth, near, among⟩ := sweep.closed e inside above step
    rcases List.mem_append.mp among with held | waiting
    · exact ⟨depth, near, List.mem_append_left _ held⟩
    · rcases List.mem_cons.mp waiting with rfl | waiting
      -- The entry seen before stands for the one that is dropped.
      · have named : before.1 = above := same
        subst named
        exact ⟨before.2, (level_mono same nearer).trans near, List.mem_append_left _ listed⟩
      · exact ⟨depth, near, List.mem_append_right _ waiting⟩
  · exact (List.pairwise_cons.mp sweep.layered).2
  · intro e inside q waiting
    exact sweep.behind e inside q (List.mem_cons_of_mem _ waiting)
  · exact sweep.sorted
  · exact sweep.once

theorem Sweep.followed (new : first.1 ∉ seen.map (·.1))
    (sweep : Sweep next starts (first :: queue) seen) :
    Sweep next starts (queue ++ (next first.1).map fun n => (n, first.2 + 1))
      (seen ++ [first]) := by
  obtain ⟨ahead, others⟩ := List.pairwise_cons.mp sweep.layered
  have outside : first.1 ∉ starts := fun inside => new (sweep.begun _ inside)
  have own : level starts first = first.2 + 1 := if_neg outside
  have moved : ∀ {e}, e ∈ seen ++ first :: queue →
      e ∈ (seen ++ [first]) ++ (queue ++ (next first.1).map fun n => (n, first.2 + 1)) := by
    intro e among
    simp only [List.mem_append, List.mem_cons, List.not_mem_nil, or_false] at among ⊢
    tauto
  constructor
  · intro e among
    rw [List.append_assoc, ← List.append_assoc [first], List.singleton_append,
      ← List.append_assoc, List.mem_append] at among
    rcases among with among | queued
    · exact sweep.sound e among
    · obtain ⟨above, step, rfl⟩ := List.mem_map.mp queued
      obtain ⟨start, inside, steps⟩ := sweep.sound first (by simp)
      rw [level]
      split
      · rename_i itself
        exact ⟨above, itself, .start⟩
      · exact ⟨start, inside, .onward (own ▸ steps) step⟩
  · intro start inside
    rw [List.map_append]
    exact List.mem_append_left _ (sweep.begun start inside)
  · intro e inside above step
    rcases List.mem_append.mp inside with inside | last
    · obtain ⟨depth, near, among⟩ := sweep.closed e inside above step
      exact ⟨depth, near, moved among⟩
    · obtain rfl := List.mem_singleton.mp last
      have queued : (above, e.2 + 1) ∈ (next e.1).map fun n => (n, e.2 + 1) :=
        List.mem_map.mpr ⟨above, step, rfl⟩
      refine ⟨e.2 + 1, ?_, List.mem_append_right _ (List.mem_append_right _ queued)⟩
      rw [own, level]
      split <;> omega
  · rw [List.pairwise_append]
    refine ⟨others, List.pairwise_map.mpr (List.pairwise_of_forall fun _ _ => by simp), ?_⟩
    intro q waiting e queued
    obtain ⟨above, _, rfl⟩ := List.mem_map.mp queued
    have near := ahead q waiting
    dsimp only
    omega
  · intro e inside q among
    have reached : e.2 ≤ first.2 := by
      rcases List.mem_append.mp inside with inside | last
      · exact sweep.behind e inside first List.mem_cons_self
      · rw [List.mem_singleton.mp last]
    rcases List.mem_append.mp among with waiting | queued
    · exact reached.trans (ahead q waiting).1
    · obtain ⟨above, _, rfl⟩ := List.mem_map.mp queued
      exact Nat.le_succ_of_le reached
  · refine List.pairwise_append.mpr ⟨sweep.sorted, List.pairwise_singleton _ _, ?_⟩
    intro e inside last only
    rw [List.mem_singleton.mp only, own, level]
    have reached := sweep.behind e inside first List.mem_cons_self
    split <;> omega
  · rw [List.map_append]
    exact nodup_snoc new sweep.once

/-- When the queue is empty, everything that steps lead to from the starts was seen, at no higher
level. -/
theorem Sweep.covered (sweep : Sweep next starts [] seen) {name : String} {count : Nat}
    (steps : StepsFrom next starts name count) :
    ∃ depth, level starts (name, depth) ≤ count ∧ (name, depth) ∈ seen := by
  obtain ⟨start, inside, steps⟩ := steps
  induction steps with
  | start =>
    obtain ⟨e, listed, same⟩ := List.mem_map.mp (sweep.begun start inside)
    subst same
    exact ⟨e.2, by simp [level, inside], listed⟩
  | onward _ step ih =>
    obtain ⟨depth, near, listed⟩ := ih
    obtain ⟨depth', near', among⟩ := sweep.closed _ listed _ step
    exact ⟨depth', near'.trans (Nat.add_le_add_right near 1), by simpa using among⟩

/-- The level of what was seen is the least number of steps that lead there. -/
theorem Sweep.isLeast_level (sweep : Sweep next starts [] seen) {e : String × Nat}
    (listed : e ∈ seen) : IsLeast {count | StepsFrom next starts e.1 count} (level starts e) := by
  refine ⟨sweep.sound e (List.mem_append_left _ listed), ?_⟩
  intro count steps
  obtain ⟨depth, near, listed'⟩ := sweep.covered steps
  have same : e = (e.1, depth) := List.inj_on_of_nodup_map sweep.once listed listed' rfl
  rwa [same]

theorem Sweep.mem_iff (sweep : Sweep next starts [] seen) {name : String} :
    name ∈ seen.map (·.1) ↔ ∃ count, StepsFrom next starts name count := by
  constructor
  · intro inside
    obtain ⟨e, listed, rfl⟩ := List.mem_map.mp inside
    exact ⟨_, sweep.sound e (List.mem_append_left _ listed)⟩
  · rintro ⟨count, steps⟩
    obtain ⟨depth, _, listed⟩ := sweep.covered steps
    exact List.mem_map.mpr ⟨_, listed, rfl⟩

end Sweep

end Linkage
