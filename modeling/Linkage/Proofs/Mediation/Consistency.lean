import Linkage.Proofs.Mediation.Exclusions
import Linkage.Proofs.Mediation.Winners

/-!
The outcome of a mediation agrees with itself. The class path that is kept, the decisions and the
exclusions are computed apart, from the same candidates; here they are told from the libraries that
are reached, so that none of them contradicts another.
-/
namespace Linkage.Mediation

open Classpath (Entry Index Report)

namespace Library
variable {ix : Index} {usage : Usage} {w : Library ix}

section Distinct
variable (distinct : (ix.reports.map (·.entry.ordinal)).Nodup)
include distinct

/-- The versions of a coordinate among its candidates are those that are reached. -/
theorem mem_versions (coordinate : Coordinate) (version : String) :
    version ∈ (rivals (mediate ix usage).candidates coordinate).map (·.version) ↔
      ∃ l : Library ix, l.Reached usage ∧ l.coordinate = coordinate ∧ l.version = version := by
  rw [List.mem_map]
  constructor
  · rintro ⟨c, member, rfl⟩
    obtain ⟨inside, own⟩ := List.mem_filter.mp member
    obtain ⟨l, reached, is⟩ := exists_of_candidate distinct inside
    exact ⟨l, reached, is.coordinate.symm.trans (beq_iff_eq.mp own), is.version.symm⟩
  · rintro ⟨l, reached, rfl, rfl⟩
    obtain ⟨c, inside, is⟩ := reached.exists_candidate distinct
    exact ⟨c, List.mem_filter.mpr ⟨inside, beq_iff_eq.mpr is.coordinate⟩, is.version⟩

/-- Where a library won, one decision rejects each other version that is reached. -/
theorem Wins.rejectedVersions (wins : w.Wins usage) :
    (((mediate ix usage).decisions.filter (·.coordinate == w.coordinate)).map
      (·.rejectedVersion)).Nodup ∧
    ∀ version, version ∈ ((mediate ix usage).decisions.filter
        (·.coordinate == w.coordinate)).map (·.rejectedVersion) ↔
      version ≠ w.version ∧
        ∃ l : Library ix, l.Reached usage ∧ l.coordinate = w.coordinate ∧ l.version = version := by
  obtain ⟨c, best, is⟩ := wins
  have versions := congrArg (List.map Decision.rejectedVersion) (Graph.decisions_filter best)
  rw [rejectedVersions_eq, is.version] at versions
  have filtered : ((mediate ix usage).decisions.filter (·.coordinate == w.coordinate)).map
      (·.rejectedVersion) = _ := versions
  rw [filtered]
  refine ⟨(Text.nodup_distinct _).filter _, ?_⟩
  intro version
  rw [List.mem_filter, Text.mem_distinct, ← mem_versions distinct, decide_eq_true_eq, and_comm]
  rfl

/-- A decision is between the winner of a coordinate and a library that is reached. -/
theorem exists_of_decision {d : Decision} (member : d ∈ (mediate ix usage).decisions) :
    ∃ w r : Library ix, w.Wins usage ∧ r.Reached usage ∧ d.coordinate = w.coordinate ∧
      r.coordinate = w.coordinate ∧ r.version ≠ w.version ∧
      d.selectedVersion = w.version ∧ d.selectedEntry = w.entry.ordinal ∧
      d.rejectedVersion = r.version ∧ d.rejectedEntry = r.entry.ordinal := by
  obtain ⟨winner, rejected, best, found, shown, _⟩ := Graph.exists_differ member
  obtain ⟨w, wins, is, own⟩ := exists_wins distinct best
  obtain ⟨inside, same⟩ := List.mem_filter.mp (of_best?_filter found).1
  obtain ⟨r, reached, is'⟩ := exists_of_candidate distinct inside
  have coordinate : r.coordinate = d.coordinate := is'.coordinate.symm.trans (beq_iff_eq.mp same)
  have version : d.rejectedVersion = r.version :=
    (congrArg (·.rejectedVersion) shown).trans is'.version
  have differ : d.rejectedVersion ≠ w.version := by
    have listed : d ∈ (mediate ix usage).decisions.filter (·.coordinate == w.coordinate) :=
      List.mem_filter.mpr ⟨member, beq_iff_eq.mpr own.symm⟩
    exact (((wins.rejectedVersions distinct).2 _).mp (List.mem_map_of_mem listed)).1
  refine ⟨w, r, wins, reached, own.symm, coordinate.trans own.symm, version ▸ differ, ?_, ?_,
    version, ?_⟩
  · exact (congrArg (·.selectedVersion) shown).trans is.version
  · exact (congrArg (·.selectedEntry) shown).trans is.entry
  · exact (congrArg (·.rejectedEntry) shown).trans is'.entry

end Distinct

end Library

/-- The mediated class path agrees with its explanation, where the entries of a class path are in
order. What is kept is in that order, with all that is no library. Just the coordinates that are
reached have a library that is kept, and they have one; one decision rejects each other version that
is reached, for an entry that is kept and against one that is not. The exclusions are, one by one,
the pairs of a library that is reached and one that it declares in a scope that is not visible. -/
theorem mediation_consistent (ix : Index) (usage : Usage)
    (increasing : (ix.reports.map (·.entry.ordinal)).Pairwise (· < ·)) :
    (mediate ix usage).mediated.Sublist (ix.reports.map (·.entry)) ∧
    (∀ r ∈ ix.reports, r.entry.owner = .program ∨ r.metadata = none →
      r.entry ∈ (mediate ix usage).mediated) ∧
    (∀ a b : Library ix, a.entry ∈ (mediate ix usage).mediated →
      b.entry ∈ (mediate ix usage).mediated → a.coordinate = b.coordinate → a = b) ∧
    (∀ coordinate,
      (∃ w : Library ix, w.entry ∈ (mediate ix usage).mediated ∧ w.coordinate = coordinate) ↔
        ∃ l : Library ix, l.Reached usage ∧ l.coordinate = coordinate) ∧
    (∀ w : Library ix, w.entry ∈ (mediate ix usage).mediated →
      (((mediate ix usage).decisions.filter (·.coordinate == w.coordinate)).map
        (·.rejectedVersion)).Nodup ∧
      ∀ version, version ∈ ((mediate ix usage).decisions.filter
          (·.coordinate == w.coordinate)).map (·.rejectedVersion) ↔
        version ≠ w.version ∧
          ∃ l : Library ix, l.Reached usage ∧ l.coordinate = w.coordinate ∧
            l.version = version) ∧
    (∀ d ∈ (mediate ix usage).decisions, ∃ w r : Library ix,
      d.coordinate = w.coordinate ∧ d.selectedVersion = w.version ∧
      d.selectedEntry = w.entry.ordinal ∧
      (mediate ix usage).isMediated d.selectedEntry = true ∧
      r.Reached usage ∧ r.coordinate = w.coordinate ∧ d.rejectedVersion = r.version ∧
      d.rejectedEntry = r.entry.ordinal ∧
      (mediate ix usage).isMediated d.rejectedEntry = false) ∧
    ∃ pairs : List (Library ix × Library ix), pairs.Nodup ∧
      (∀ a b, (a, b) ∈ pairs ↔ a.Reached usage ∧ a.Hides usage b) ∧
      List.Forall₂ (fun pair x => pair.1.Records usage pair.2 x) pairs
        (mediate ix usage).exclusions := by
  have distinct : (ix.reports.map (·.entry.ordinal)).Nodup := increasing.imp Nat.ne_of_lt
  refine ⟨?_, ?_, ?_, ?_, ?_, ?_, Library.exists_pairs distinct usage⟩
  · rw [mediated_eq increasing]
    exact List.filter_sublist.map _
  · intro r listed exempt
    have none : nodeOf? r = none := by
      unfold nodeOf?
      rcases exempt with program | unknown
      · simp [program]
      · simp [unknown]
    exact mem_mediated_iff.mpr ⟨r, listed, by simp [keeps, none], rfl⟩
  · intro a b kept kept' same
    rw [a.mem_mediated distinct usage] at kept
    rw [b.mem_mediated distinct usage] at kept'
    exact kept.unique distinct kept' same
  · intro coordinate
    constructor
    · rintro ⟨w, kept, same⟩
      rw [w.mem_mediated distinct usage] at kept
      exact ⟨w, kept.reached distinct, same⟩
    · rintro ⟨l, reached, rfl⟩
      obtain ⟨w, wins, same⟩ := reached.exists_wins distinct
      exact ⟨w, (w.mem_mediated distinct usage).mpr wins, same⟩
  · intro w kept
    exact ((w.mem_mediated distinct usage).mp kept).rejectedVersions distinct
  · intro d member
    obtain ⟨w, r, wins, reached, own, same, differ, selected, entry, rejected, entry'⟩ :=
      Library.exists_of_decision distinct member
    refine ⟨w, r, own, selected, entry, ?_, reached, same, rejected, entry', ?_⟩
    · rw [entry, w.isMediated_iff distinct]
      exact wins
    · rw [entry', Bool.eq_false_iff, ne_eq, r.isMediated_iff distinct]
      intro wins'
      exact differ (congrArg Library.version (wins'.unique distinct wins same))

/-- A program, a library, two versions of one that it requires, and one that only its tests do. -/
def shelf : Index where
  reports := [⟨⟨0, .directory, "classes", .program⟩, none, false, none, 1⟩,
    jar 1 "app" "1.0" [⟨⟨"org.c", "lib"⟩, some "1.0", none, false⟩,
      ⟨⟨"org.c", "lib"⟩, some "2.0", none, false⟩, ⟨⟨"org.c", "tool"⟩, none, some "test", false⟩],
    jar 2 "lib" "1.0" [], jar 3 "lib" "2.0" [], jar 4 "tool" "1.0" []]

def libOfShelf : Library shelf where
  report := jar 2 "lib" "1.0" []
  metadata := ⟨⟨"org.c", "lib"⟩, "1.0", []⟩
  listed := List.mem_cons_of_mem _ (List.mem_cons_of_mem _ List.mem_cons_self)
  owned := rfl
  known := rfl

theorem mediation_consistent_shelf :
    (shelf.reports.map (·.entry.ordinal)).Pairwise (· < ·) ∧
    (∀ version, version = "2.0" ↔ version ≠ "1.0" ∧ ∃ l : Library shelf, l.Reached .runtime ∧
      l.coordinate = libOfShelf.coordinate ∧ l.version = version) ∧
    ∃ a b : Library shelf, b.entry.ordinal = 4 ∧
      ∀ a' b' : Library shelf, a'.Reached .runtime ∧ a'.Hides .runtime b' ↔ a' = a ∧ b' = b := by
  have increasing : (shelf.reports.map (·.entry.ordinal)).Pairwise (· < ·) := by decide
  have outcome : keeps shelf .runtime libOfShelf.report = true ∧
      ((mediate shelf .runtime).decisions.filter (·.coordinate == libOfShelf.coordinate)).map
        (·.rejectedVersion) = ["2.0"] ∧
      (mediate shelf .runtime).exclusions.map (·.entry) = [4] := by
    decide +kernel
  obtain ⟨keeps, rejected, excluded⟩ := outcome
  have kept : libOfShelf.entry ∈ (mediate shelf .runtime).mediated :=
    mem_mediated_iff.mpr ⟨libOfShelf.report, libOfShelf.listed, keeps, rfl⟩
  obtain ⟨_, _, _, _, decided, _, pairs, _, exact, recorded⟩ :=
    mediation_consistent shelf .runtime increasing
  refine ⟨increasing, ?_, ?_⟩
  · intro version
    have only := (decided libOfShelf kept).2 version
    rwa [rejected, List.mem_singleton] at only
  · obtain ⟨x, one, same⟩ := List.map_eq_singleton_iff.mp excluded
    rw [one] at recorded
    obtain ⟨pair, _, records, none, rfl⟩ := List.forall₂_cons_right_iff.mp recorded
    obtain rfl := List.forall₂_nil_right_iff.mp none
    refine ⟨pair.1, pair.2, records.entry.1.symm.trans same, ?_⟩
    intro a b
    rw [← exact a b, List.mem_singleton, Prod.ext_iff]

end Linkage.Mediation
