import Linkage.Proofs.Mediation.Libraries
import Linkage.Proofs.Text.Distinct

/-!
What a mediation keeps and what it decides. Every coordinate that is reached has one winner, the
entries kept are the winners and all that is no library, and a coordinate has one decision for each
version that is reached beside the winner's.
-/
namespace Linkage

namespace Mediation

open Classpath (Entry Index Report)

theorem best?_eq_none {candidates : List Candidate} (none : best? candidates = none) :
    candidates = [] := by
  cases candidates with
  | nil => rfl
  | cons c rest =>
    rw [best?] at none
    split at none
    · split at none <;> cases none
    · cases none

/-- What each of several keys gives is found again by its key. -/
theorem filter_key_flatMap {κ δ : Type} [BEq κ] [LawfulBEq κ] {keys : List κ} {key : δ → κ}
    {f : κ → List δ} (own : ∀ k, ∀ d ∈ f k, key d = k) (once : keys.Nodup) {k : κ}
    (listed : k ∈ keys) : (keys.flatMap f).filter (fun d => key d == k) = f k := by
  have mine : (f k).filter (fun d => key d == k) = f k := by
    rw [List.filter_eq_self]
    intro d member
    exact beq_iff_eq.mpr (own k d member)
  have apart : ∀ k', k' ≠ k → (f k').filter (fun d => key d == k) = [] := by
    intro k' differ
    rw [List.filter_eq_nil_iff]
    intro d member same
    exact differ ((own k' d member).symm.trans (beq_iff_eq.mp same))
  rw [List.filter_flatMap]
  induction keys with
  | nil => cases listed
  | cons k' keys ih =>
    obtain ⟨new, once⟩ := List.nodup_cons.mp once
    rw [List.flatMap_cons]
    by_cases same : k' = k
    · subst same
      have rest : keys.flatMap (fun k => (f k).filter fun d => key d == k') = [] := by
        rw [List.flatMap_eq_nil_iff]
        intro k member
        exact apart k fun same => new (same ▸ member)
      rw [mine, rest, List.append_nil]
    · have listed : k ∈ keys := (List.mem_cons.mp listed).resolve_left (Ne.symm same)
      rw [apart k' same, List.nil_append, ih once listed]

/-- The versions that the decisions of a group reject. -/
theorem rejectedVersions_eq (winner : Candidate) (group : List Candidate) :
    (decisionsAmong winner group).map (·.rejectedVersion) =
      (Text.distinct (group.map (·.version))).filter (· ≠ winner.version) := by
  have reached : ∀ version ∈ Text.distinct (group.map (·.version)), ∃ r,
      best? (group.filter (·.version == version)) = some r ∧ r.version = version := by
    intro version member
    obtain ⟨c, inside, same⟩ := List.mem_map.mp (Text.mem_distinct.mp member)
    cases best : best? (group.filter (·.version == version)) with
    | none =>
      have empty := best?_eq_none best
      rw [List.filter_eq_nil_iff] at empty
      exact absurd (beq_iff_eq.mpr same) (empty c inside)
    | some r =>
      exact ⟨r, rfl, (of_best?_filter best).2⟩
  unfold decisionsAmong
  generalize Text.distinct (group.map (·.version)) = versions at reached
  induction versions with
  | nil => rfl
  | cons version versions ih =>
    have onward := ih fun v member => reached v (List.mem_cons_of_mem _ member)
    obtain ⟨r, best, same⟩ := reached version List.mem_cons_self
    rw [List.filterMap_cons, List.filter_cons]
    by_cases won : version = winner.version
    · simpa [won] using onward
    · simpa [won, best, same] using onward

namespace Graph
variable {g : Graph}

/-- The decisions of one coordinate. -/
def decisionsFor (g : Graph) (coordinate : Coordinate) : List Decision :=
  match best? (rivals g.mediate.candidates coordinate) with
  | some winner => decisionsAmong winner (rivals g.mediate.candidates coordinate)
  | none => []

theorem decisionsFor_coordinate {coordinate : Coordinate} {d : Decision}
    (member : d ∈ g.decisionsFor coordinate) : d.coordinate = coordinate := by
  unfold decisionsFor at member
  split at member
  · rename_i winner best
    obtain ⟨rejected, _, _, rfl⟩ := exists_rejected member
    exact (of_best?_filter best).2
  · cases member

theorem decisions_eq :
    g.mediate.decisions = (coordinates g.mediate.candidates).flatMap g.decisionsFor :=
  List.flatMap_map ..

theorem decisions_filter {winner : Candidate} {coordinate : Coordinate}
    (best : best? (rivals g.mediate.candidates coordinate) = some winner) :
    g.mediate.decisions.filter (fun d => d.coordinate == coordinate) =
      decisionsAmong winner (rivals g.mediate.candidates coordinate) := by
  have listed : coordinate ∈ coordinates g.mediate.candidates := by
    obtain ⟨inside, rfl⟩ := of_best?_filter best
    exact Text.mem_distinct.mpr (List.mem_map_of_mem inside)
  have once : (coordinates g.mediate.candidates).Nodup := Text.nodup_distinct _
  rw [decisions_eq, filter_key_flatMap (fun _ _ => decisionsFor_coordinate) once listed]
  simp only [decisionsFor, best]

end Graph

section Keeping

theorem exempt_append_perm (reports : List Report) (chosen : List Nat) :
    ((reports.filter fun r => (nodeOf? r).isNone).map (·.entry) ++
      (((reports.filterMap nodeOf?).map (·.1)).filter
        fun n => chosen.contains n.entry.ordinal).map (·.entry)).Perm
      ((reports.filter fun r =>
        (nodeOf? r).isNone || chosen.contains r.entry.ordinal).map (·.entry)) := by
  induction reports with
  | nil => exact .nil
  | cons r reports ih =>
    cases found : nodeOf? r with
    | none => simpa [found] using ih
    | some p =>
      have entry := nodeOf?_entry found
      by_cases kept : r.entry.ordinal ∈ chosen
      · simp only [List.filter_cons, List.filterMap_cons, found, Option.isNone_some, entry, kept,
          List.map_cons, List.contains_eq_mem, decide_true, Bool.false_eq_true, if_false, if_true,
          Bool.false_or]
        refine List.perm_middle.trans (List.Perm.cons _ ?_)
        simpa using ih
      · simpa [found, entry, kept] using ih

/-- Whether the entry of a report is kept: it is no library, or it won. -/
def keeps (ix : Index) (usage : Usage) (r : Report) : Bool :=
  (nodeOf? r).isNone ||
    ((Graph.ofIndex ix usage).winners.map (·.entry)).contains r.entry.ordinal

theorem mediated_perm (ix : Index) (usage : Usage) :
    (mediate ix usage).mediated.Perm ((ix.reports.filter (keeps ix usage)).map (·.entry)) :=
  (List.mergeSort_perm _ _).trans (exempt_append_perm ix.reports _)

theorem mem_mediated_iff {ix : Index} {usage : Usage} {e : Entry} :
    e ∈ (mediate ix usage).mediated ↔
      ∃ r ∈ ix.reports, keeps ix usage r = true ∧ r.entry = e := by
  rw [(mediated_perm ix usage).mem_iff]
  simp only [List.mem_map, List.mem_filter, and_assoc]

/-- Entries in order stay in order. -/
theorem mediated_eq {ix : Index}
    (increasing : (ix.reports.map (·.entry.ordinal)).Pairwise (· < ·)) (usage : Usage) :
    (mediate ix usage).mediated = (ix.reports.filter (keeps ix usage)).map (·.entry) := by
  have distinct : (ix.reports.map (·.entry.ordinal)).Nodup := increasing.imp Nat.ne_of_lt
  have ordered : ((ix.reports.filter (keeps ix usage)).map (·.entry)).Pairwise
      fun a b => a.ordinal ≤ b.ordinal := by
    rw [List.pairwise_map] at increasing ⊢
    exact (increasing.filter _).imp Nat.le_of_lt
  have sorted : (mediate ix usage).mediated.Pairwise
      fun a b => decide (a.ordinal ≤ b.ordinal) = true := by
    apply List.pairwise_mergeSort
    · intro a b c ab bc
      rw [decide_eq_true_eq] at ab bc ⊢
      exact ab.trans bc
    · intro a b
      rw [Bool.or_eq_true, decide_eq_true_eq, decide_eq_true_eq]
      exact Nat.le_total _ _
  replace sorted := sorted.imp of_decide_eq_true
  refine (mediated_perm ix usage).eq_of_pairwise ?_ sorted ordered
  intro a b member member' le le'
  obtain ⟨r, listed, _, rfl⟩ := mem_mediated_iff.mp member
  obtain ⟨r', inside, rfl⟩ := List.mem_map.mp member'
  have same := List.inj_on_of_nodup_map distinct listed (List.mem_filter.mp inside).1
    (Nat.le_antisymm le le')
  rw [same]

end Keeping

namespace Library
variable {ix : Index} {usage : Usage} {a b l : Library ix}

/-- The library is the one that is chosen for its coordinate. -/
def Wins (usage : Usage) (l : Library ix) : Prop :=
  ∃ c, best? (rivals (mediate ix usage).candidates l.coordinate) = some c ∧ l.Is c

section Distinct
variable (distinct : (ix.reports.map (·.entry.ordinal)).Nodup)
include distinct

theorem Is.unique {c : Candidate} (is : a.Is c) (is' : b.Is c) : a = b :=
  is.place.unique distinct is'.place

theorem Wins.unique (wins : a.Wins usage) (wins' : b.Wins usage)
    (same : a.coordinate = b.coordinate) : a = b := by
  obtain ⟨c, best, is⟩ := wins
  obtain ⟨c', best', is'⟩ := wins'
  rw [same, best'] at best
  obtain rfl := Option.some.inj best
  exact is.unique distinct is'

theorem Wins.reached (wins : l.Wins usage) : l.Reached usage := by
  obtain ⟨c, best, is⟩ := wins
  have inside := (of_best?_filter best).1
  obtain ⟨l', reached, is'⟩ := exists_of_candidate distinct inside
  rwa [is.unique distinct is']

theorem exists_wins {c : Candidate} {coordinate : Coordinate}
    (best : best? (rivals (mediate ix usage).candidates coordinate) = some c) :
    ∃ w : Library ix, w.Wins usage ∧ w.Is c ∧ w.coordinate = coordinate := by
  obtain ⟨inside, rfl⟩ := of_best?_filter best
  obtain ⟨w, _, is⟩ := exists_of_candidate distinct inside
  exact ⟨w, ⟨c, is.coordinate ▸ best, is⟩, is, is.coordinate.symm⟩

theorem Reached.exists_wins (reached : l.Reached usage) :
    ∃ w : Library ix, w.Wins usage ∧ w.coordinate = l.coordinate := by
  obtain ⟨place, stands⟩ := l.exists_at
  obtain ⟨root, depth, trail⟩ := (stands.reached_iff distinct usage).mp reached
  obtain ⟨c, best, _⟩ := Graph.exists_winner trail (stands.nodes_getElem? usage)
  obtain ⟨w, wins, _, same⟩ := Library.exists_wins distinct best
  exact ⟨w, wins, same⟩

theorem keeps_report (l : Library ix) (usage : Usage) :
    keeps ix usage l.report = true ↔ l.Wins usage := by
  rw [keeps, l.nodeOf?_report, Option.isNone_some, Bool.false_or, List.contains_iff_mem,
    List.mem_map]
  constructor
  · rintro ⟨c, chosen, same⟩
    obtain ⟨w, wins, is, _⟩ := exists_wins distinct (Graph.mem_winners.mp chosen)
    have ordinals : w.entry.ordinal = l.entry.ordinal := is.entry.symm.trans same
    rwa [← eq_of_ordinal distinct ordinals]
  · rintro ⟨c, best, is⟩
    exact ⟨c, Graph.mem_winners.mpr (is.coordinate ▸ best), is.entry⟩

theorem isMediated_iff (l : Library ix) (usage : Usage) :
    (mediate ix usage).isMediated l.entry.ordinal = true ↔ l.Wins usage := by
  rw [← keeps_report distinct, Outcome.isMediated, List.any_eq_true]
  constructor
  · rintro ⟨e, member, same⟩
    obtain ⟨r, listed, kept, rfl⟩ := mem_mediated_iff.mp member
    rwa [← List.inj_on_of_nodup_map distinct listed l.listed (beq_iff_eq.mp same)]
  · intro kept
    exact ⟨l.entry, mem_mediated_iff.mpr ⟨l.report, l.listed, kept, rfl⟩, beq_self_eq_true _⟩

theorem mem_mediated (l : Library ix) (usage : Usage) :
    l.entry ∈ (mediate ix usage).mediated ↔ l.Wins usage := by
  constructor
  · intro member
    rw [← isMediated_iff distinct]
    exact List.any_eq_true.mpr ⟨l.entry, member, beq_self_eq_true _⟩
  · intro wins
    exact mem_mediated_iff.mpr ⟨l.report, l.listed, (keeps_report distinct l usage).mpr wins, rfl⟩

end Distinct

end Library

end Mediation

end Linkage
