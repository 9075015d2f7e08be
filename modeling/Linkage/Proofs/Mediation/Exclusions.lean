import Linkage.Proofs.Mediation.Libraries

/-!
What a mediation notes as excluded. Visiting a node notes every hidden edge that leaves it, once for
an owner and a target. So the exclusions are, one by one, the pairs of a library that is reached and
one that it hides.
-/
namespace Linkage.Mediation

open Classpath (Entry Index Report)

/-- What is noted for an edge that leaves a node and is not visible. -/
def Notes (g : Graph) (n : Node) (e : Edge) (p : (Nat × Coordinate × Nat) × Exclusion) : Prop :=
  g.usage.allows e.scope = false ∧ ∃ t, g.nodes[e.target]? = some t ∧
    p = ((n.entry.ordinal, t.coordinate, e.target), ⟨n.coordinate, n.version, t.coordinate,
      t.version, e.scope, g.usage, t.entry.ordinal, t.entry.location⟩)

/-- After some edges everything is noted that was noted before, and what belongs to the edges,
under keys that differ. -/
structure Gathers (g : Graph) (n : Node) (edges : List Edge) (before after : Noted) : Prop where
  kept : ∀ p ∈ before, p ∈ after
  once : (before.map (·.1)).Nodup → (after.map (·.1)).Nodup
  sound : ∀ p ∈ after, p ∈ before ∨ ∃ e ∈ edges, Notes g n e p
  complete : ∀ e ∈ edges, ∀ p, Notes g n e p → p.1 ∈ after.map (·.1)

namespace Walk
variable {g : Graph} {w : Walk} {v : Visit} {rest : List Visit} {n : Node}

theorem mem_keys_note (noted : Noted) (key : Nat × Coordinate × Nat) (x : Exclusion) :
    key ∈ (note noted key x).map (·.1) := by
  unfold note
  split
  · rename_i known
    obtain ⟨p, member, same⟩ := List.any_eq_true.mp known
    exact List.mem_map.mpr ⟨p, member, beq_iff_eq.mp same⟩
  · simp

theorem nodup_note {noted : Noted} (once : (noted.map (·.1)).Nodup)
    (key : Nat × Coordinate × Nat) (x : Exclusion) : ((note noted key x).map (·.1)).Nodup := by
  unfold note
  split
  · exact once
  · rename_i new
    rw [List.map_append, List.map_singleton, List.nodup_append_comm, List.singleton_append,
      List.nodup_cons]
    refine ⟨?_, once⟩
    rintro known
    obtain ⟨p, member, same⟩ := List.mem_map.mp known
    exact new (List.any_eq_true.mpr ⟨p, member, beq_iff_eq.mpr same⟩)

theorem mem_note {noted : Noted} {key : Nat × Coordinate × Nat} {x : Exclusion}
    {p : (Nat × Coordinate × Nat) × Exclusion} (member : p ∈ note noted key x) :
    p ∈ noted ∨ p = (key, x) := by
  unfold note at member
  split at member
  · exact Or.inl member
  · rwa [List.mem_append, List.mem_singleton] at member

theorem mem_note_of_mem {noted : Noted} {p : (Nat × Coordinate × Nat) × Exclusion}
    (member : p ∈ noted) (key : Nat × Coordinate × Nat) (x : Exclusion) :
    p ∈ note noted key x := by
  unfold note
  split
  · exact member
  · exact List.mem_append_left _ member

theorem follow_gathers (g : Graph) (n : Node) (v : Visit) (w : Walk) (e : Edge) :
    Gathers g n [e] w.noted (follow g n v w e).noted := by
  unfold follow
  split
  · rename_i visible
    refine ⟨fun p => id, id, fun p => Or.inl, ?_⟩
    intro e' member p notes
    rw [List.mem_singleton.mp member, Notes, visible] at notes
    cases notes.1
  rename_i hidden
  split
  · rename_i none
    refine ⟨fun p => id, id, fun p => Or.inl, ?_⟩
    intro e' member p ⟨_, t, found, _⟩
    rw [List.mem_singleton.mp member, none] at found
    cases found
  · rename_i t found
    constructor
    · intro p member
      exact mem_note_of_mem member _ _
    · intro once
      exact nodup_note once _ _
    · intro p member
      rcases mem_note member with member | rfl
      · exact Or.inl member
      · exact Or.inr ⟨e, List.mem_singleton_self e, Bool.eq_false_iff.mpr hidden, t, found, rfl⟩
    · intro e' member p ⟨_, t', found', same⟩
      rw [List.mem_singleton.mp member, found] at found'
      obtain rfl := Option.some.inj found'
      rw [same, List.mem_singleton.mp member]
      exact mem_keys_note _ _ _

theorem foldl_gathers (g : Graph) (n : Node) (v : Visit) (edges : List Edge) (w : Walk) :
    Gathers g n edges w.noted (edges.foldl (follow g n v) w).noted := by
  induction edges generalizing w with
  | nil => exact ⟨fun p => id, id, fun p => Or.inl, nofun⟩
  | cons e edges ih =>
    have first := follow_gathers g n v w e
    have others := ih (follow g n v w e)
    rw [List.foldl_cons]
    constructor
    · intro p member
      exact others.kept p (first.kept p member)
    · intro once
      exact others.once (first.once once)
    · intro p member
      rcases others.sound p member with member | ⟨e', inside, notes⟩
      · rcases first.sound p member with member | ⟨e', inside, notes⟩
        · exact Or.inl member
        · rw [List.mem_singleton.mp inside] at notes
          exact Or.inr ⟨e, List.mem_cons_self, notes⟩
      · exact Or.inr ⟨e', List.mem_cons_of_mem e inside, notes⟩
    · intro e' member p notes
      rcases List.mem_cons.mp member with rfl | inside
      · obtain ⟨q, found, same⟩ :=
          List.mem_map.mp (first.complete e' (List.mem_singleton_self e') p notes)
        exact List.mem_map.mpr ⟨q, others.kept q found, same⟩
      · exact others.complete e' inside p notes

/-- What is noted belongs to candidates, and nothing of theirs is missing. -/
structure Noting (g : Graph) (w : Walk) : Prop where
  once : (w.noted.map (·.1)).Nodup
  sound : ∀ p ∈ w.noted, ∃ c ∈ w.candidates, ∃ n, g.nodes[c.node]? = some n ∧
    ∃ e ∈ g.edgesFrom c.node, Notes g n e p
  complete : ∀ c ∈ w.candidates, ∀ n, g.nodes[c.node]? = some n →
    ∀ e ∈ g.edgesFrom c.node, ∀ p, Notes g n e p → p.1 ∈ w.noted.map (·.1)

theorem Noting.step (noting : Noting g w) (v : Visit) (rest : List Visit) :
    Noting g (step g w v rest) := by
  rcases step_eq g w v rest with ⟨_, stepped⟩ | ⟨_, n, found, stepped⟩
  · rw [stepped]
    exact ⟨noting.once, noting.sound, noting.complete⟩
  rw [stepped]
  have gathers := foldl_gathers g n v (g.edgesFrom v.node)
    ⟨rest, w.candidates ++ [v.candidate n w.candidates.length], w.noted⟩
  have candidates := (foldl_follow (g := g) (v := v) n (g.edgesFrom v.node)
    ⟨rest, w.candidates ++ [v.candidate n w.candidates.length], w.noted⟩).1
  constructor
  · exact gathers.once noting.once
  · intro p member
    rw [candidates]
    rcases gathers.sound p member with member | ⟨e, edge, notes⟩
    · obtain ⟨c, known, rest⟩ := noting.sound p member
      exact ⟨c, List.mem_append_left _ known, rest⟩
    · exact ⟨_, List.mem_append_right _ List.mem_cons_self, n, found, e, edge, notes⟩
  · rw [candidates]
    intro c member m found' e edge p notes
    rcases List.mem_append.mp member with member | member
    · obtain ⟨q, known, same⟩ := List.mem_map.mp (noting.complete c member m found' e edge p notes)
      exact List.mem_map.mpr ⟨q, gathers.kept q known, same⟩
    · rw [List.mem_singleton.mp member] at found' edge
      obtain rfl := Option.some.inj (found.symm.trans found')
      exact gathers.complete e edge p notes

end Walk

theorem Graph.walk_noting (g : Graph) : Walk.Noting g g.walk :=
  Walk.run_invariant (fun _ v rest _ noting => noting.step v rest) _ ⟨.nil, nofun, nofun⟩

namespace Library
variable {ix : Index} {usage : Usage} {a b : Library ix}

/-- What is recorded for a library that hides another. -/
structure Records (usage : Usage) (a b : Library ix) (x : Exclusion) : Prop where
  owner : x.ownerCoordinate = a.coordinate ∧ x.ownerVersion = a.version
  dependency : x.coordinate = b.coordinate ∧ x.version = b.version
  entry : x.entry = b.entry.ordinal ∧ x.location = b.entry.location
  used : x.usage = usage
  scope : ∃ d ∈ a.metadata.dependencies, b.Meets d ∧ x.scope = .ofText? d.scope ∧
    usage.allows x.scope = false

theorem Records.hides {x : Exclusion} (records : a.Records usage b x) : a.Hides usage b := by
  obtain ⟨d, declared, meets, scope, hidden⟩ := records.scope
  exact ⟨d, declared, meets, scope ▸ hidden⟩

/-- The key under which the exclusion of a library is noted for an owner. -/
def IsKey (a b : Library ix) (key : Nat × Coordinate × Nat) : Prop :=
  key.1 = a.entry.ordinal ∧ key.2.1 = b.coordinate ∧ b.At key.2.2

section Distinct
variable (distinct : (ix.reports.map (·.entry.ordinal)).Nodup)
include distinct

theorem IsKey.unique {key key' : Nat × Coordinate × Nat} (isKey : a.IsKey b key)
    (isKey' : a.IsKey b key') : key = key' := by
  obtain ⟨owner, coordinate, place⟩ := isKey
  obtain ⟨owner', coordinate', place'⟩ := isKey'
  exact Prod.ext (owner.trans owner'.symm)
    (Prod.ext (coordinate.trans coordinate'.symm) (place.place_unique distinct place'))

theorem IsKey.pair_unique {a' b' : Library ix} {key : Nat × Coordinate × Nat}
    (isKey : a.IsKey b key) (isKey' : a'.IsKey b' key) : a = a' ∧ b = b' :=
  ⟨eq_of_ordinal distinct (isKey.1.symm.trans isKey'.1), isKey.2.2.unique distinct isKey'.2.2⟩

theorem exists_of_noted {p : (Nat × Coordinate × Nat) × Exclusion}
    (member : p ∈ (Graph.ofIndex ix usage).walk.noted) :
    ∃ a b : Library ix, a.Reached usage ∧ a.Records usage b p.2 ∧ a.IsKey b p.1 := by
  obtain ⟨c, known, n, found, e, edge, hidden, t, found', rfl⟩ :=
    (Graph.walk_noting _).sound p member
  obtain ⟨a, reached, is⟩ := exists_of_candidate distinct known
  obtain ⟨a', stands, rfl⟩ := exists_of_node found
  obtain rfl := is.place.unique distinct stands
  obtain ⟨b, there, d, declared, meets, scope⟩ := stands.exists_target edge
  obtain ⟨b', there', rfl⟩ := exists_of_node found'
  obtain rfl := there.unique distinct there'
  refine ⟨a, b, reached, ?_, rfl, rfl, there⟩
  exact ⟨⟨rfl, rfl⟩, ⟨rfl, rfl⟩, ⟨rfl, rfl⟩, rfl, d, declared, meets, scope, hidden⟩

theorem Hides.exists_noted (hides : a.Hides usage b) (reached : a.Reached usage) :
    ∃ p ∈ (Graph.ofIndex ix usage).walk.noted, a.IsKey b p.1 := by
  obtain ⟨c, known, is⟩ := reached.exists_candidate distinct
  obtain ⟨place, there⟩ := b.exists_at
  obtain ⟨d, declared, meets, hidden⟩ := hides
  obtain ⟨e, edge, rfl, scope⟩ := is.place.exists_edge there declared meets usage
  have noted := (Graph.walk_noting _).complete c known _ (is.place.nodes_getElem? usage) e edge _
    ⟨scope ▸ hidden, _, there.nodes_getElem? usage, rfl⟩
  obtain ⟨p, member, same⟩ := List.mem_map.mp noted
  have isKey : a.IsKey b p.1 := by
    rw [same]
    exact ⟨rfl, rfl, there⟩
  exact ⟨p, member, isKey⟩

/-- The exclusions are, one by one, the pairs of a library that is reached and one that it hides. -/
theorem exists_pairs (usage : Usage) :
    ∃ pairs : List (Library ix × Library ix), pairs.Nodup ∧
      (∀ a b, (a, b) ∈ pairs ↔ a.Reached usage ∧ a.Hides usage b) ∧
      List.Forall₂ (fun pair x => pair.1.Records usage pair.2 x) pairs
        (mediate ix usage).exclusions := by
  have each : ∀ p : {p // p ∈ (Graph.ofIndex ix usage).walk.noted},
      ∃ pair : Library ix × Library ix, pair.1.Reached usage ∧
        pair.1.Records usage pair.2 p.1.2 ∧ pair.1.IsKey pair.2 p.1.1 := by
    intro p
    obtain ⟨a, b, known⟩ := exists_of_noted distinct p.2
    exact ⟨(a, b), known⟩
  choose pair reached records isKey using each
  have keys : ((Graph.ofIndex ix usage).walk.noted.attach.map fun p => p.1.1).Nodup := by
    rw [List.attach_map_val (f := Prod.fst)]
    exact (Graph.walk_noting _).once
  have exclusions : (mediate ix usage).exclusions =
      (Graph.ofIndex ix usage).walk.noted.attach.map fun p => p.1.2 :=
    (List.attach_map_val (f := Prod.snd)).symm
  refine ⟨(Graph.ofIndex ix usage).walk.noted.attach.map pair, ?_, ?_, ?_⟩
  -- A pair has one key, so that what is noted under different keys is about different pairs.
  · rw [List.Nodup, List.pairwise_map] at keys ⊢
    refine keys.imp fun {p q} differ same => differ ?_
    exact (isKey p).unique distinct (same ▸ isKey q)
  · intro a b
    rw [List.mem_map]
    constructor
    · rintro ⟨p, _, same⟩
      obtain rfl : (pair p).1 = a := congrArg Prod.fst same
      obtain rfl : (pair p).2 = b := congrArg Prod.snd same
      exact ⟨reached p, (records p).hides⟩
    · rintro ⟨reached, hides⟩
      obtain ⟨p, member, key⟩ := hides.exists_noted distinct reached
      obtain ⟨owner, target⟩ := (isKey ⟨p, member⟩).pair_unique distinct key
      exact ⟨⟨p, member⟩, List.mem_attach _ _, Prod.ext owner target⟩
  · rw [exclusions, List.forall₂_map_left_iff, List.forall₂_map_right_iff, List.forall₂_same]
    exact fun p _ => records p

end Distinct

end Library

end Linkage.Mediation
