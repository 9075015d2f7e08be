import Mathlib.Data.Set.Finite.Basic
import Linkage.Proofs.Mediation.Exclusions
import Linkage.Proofs.Mediation.Winners

/-!
What becomes of the libraries that a mediation leaves out. A library to which requirements lead from
a root is kept, or gives way to another version, or stands behind an exclusion. The others are left
out in silence: they stand behind requirements in a circle, and the mediation starts elsewhere.
-/
namespace Linkage.Mediation

open Classpath (Entry Index Report)
open Relation (ReflTransGen TransGen)

namespace Library
variable {ix : Index} {usage : Usage} {a b l : Library ix}

/-- Some library is required by none, so that the mediation starts at such libraries only, and none
of them leads to this one. -/
def Stranded (l : Library ix) : Prop :=
  (∃ root : Library ix, root.IsFree) ∧
    ∀ a : Library ix, ReflTransGen Requires a l → ¬ a.IsFree

theorem Reached.leads (reached : l.Reached usage) :
    ∃ root : Library ix, root.IsRoot ∧ ReflTransGen Requires root l := by
  obtain ⟨root, isRoot, way⟩ := reached
  have sees : ∀ a b : Library ix, a.Sees usage b → a.Requires b := fun _ _ => Sees.requires
  exact ⟨root, isRoot, ReflTransGen.mono sees _ _ way⟩

/-- Along requirements from a root everything is reached until something is hidden. -/
theorem IsRoot.reached_or_hidden (isRoot : a.IsRoot) (way : ReflTransGen Requires a l)
    (usage : Usage) : l.Reached usage ∨ ∃ owner b : Library ix, owner.Reached usage ∧
      owner.Hides usage b ∧ ReflTransGen Requires b l := by
  induction way with
  | refl => exact Or.inl ⟨a, isRoot, .refl⟩
  | @tail middle last _ requires ih =>
    rcases ih with reached | ⟨owner, b, reached, hides, way⟩
    · rcases requires.sees_or_hides usage with sees | hides
      · obtain ⟨root, isRoot, way⟩ := reached
        exact Or.inl ⟨root, isRoot, way.tail sees⟩
      · exact Or.inr ⟨middle, last, reached, hides, .refl⟩
    · exact Or.inr ⟨owner, b, reached, hides, way.tail requires⟩

/-- A library to which no root leads is stranded. -/
theorem stranded_of_no_root
    (none : ∀ a : Library ix, ReflTransGen Requires a l → ¬ a.IsRoot) : l.Stranded := by
  have notRoot := none l .refl
  rw [IsRoot, not_or] at notRoot
  obtain ⟨_, some⟩ := notRoot
  push Not at some
  exact ⟨some, fun a way free => none a way (Or.inl free)⟩

/-- No root leads to a library that is stranded. -/
theorem Stranded.not_root (stranded : l.Stranded) (way : ReflTransGen Requires a l) :
    ¬ a.IsRoot := by
  obtain ⟨⟨root, free⟩, none⟩ := stranded
  rintro (isFree | all)
  · exact none a way isFree
  · exact all root free

instance : Finite (Library ix) := by
  have listed : Finite {r // r ∈ ix.reports} := ix.reports.finite_toSet
  refine Finite.of_injective
    (fun l : Library ix => (⟨l.report, l.listed⟩ : {r // r ∈ ix.reports})) ?_
  intro a b same
  exact eq_of_report (congrArg Subtype.val same)

/-- Requirements lead from one library to another on the way to a third. -/
def Precedes (l a b : Library ix) : Prop := TransGen Requires a b ∧ ReflTransGen Requires b l

/-- Going back along requirements from a library that is stranded never ends, so that it comes back
to where it was. -/
theorem Stranded.exists_circle (stranded : l.Stranded) :
    ∃ a : Library ix, TransGen Requires a a ∧ ReflTransGen Requires a l := by
  by_contra none
  push Not at none
  have trans : IsTrans (Library ix) l.Precedes := by
    refine ⟨?_⟩
    rintro a b c ⟨first, _⟩ ⟨second, way⟩
    exact ⟨first.trans second, way⟩
  have irrefl : Std.Irrefl l.Precedes := by
    refine ⟨?_⟩
    rintro a ⟨circle, way⟩
    exact none a circle way
  -- Circles elsewhere do not matter, which is why the order is that of the ways to `l`.
  have wellFounded := Finite.wellFounded_of_trans_of_irrefl l.Precedes
  obtain ⟨first, way, least⟩ := wellFounded.has_min {a | ReflTransGen Requires a l} ⟨l, .refl⟩
  refine stranded.2 first way ?_
  intro b requires
  exact least b (ReflTransGen.head requires way) ⟨.single requires, way⟩

section Distinct
variable (distinct : (ix.reports.map (·.entry.ordinal)).Nodup)
include distinct

theorem Stranded.not_wins (stranded : l.Stranded) : ¬ l.Wins usage := by
  intro wins
  obtain ⟨root, isRoot, way⟩ := (wins.reached distinct).leads
  exact stranded.not_root way isRoot

theorem Hides.exists_exclusion (hides : a.Hides usage b) (reached : a.Reached usage) :
    ∃ x ∈ (mediate ix usage).exclusions, x.entry = b.entry.ordinal := by
  obtain ⟨p, member, isKey⟩ := hides.exists_noted distinct reached
  obtain ⟨a', b', _, records, isKey'⟩ := exists_of_noted distinct member
  obtain ⟨_, rfl⟩ := isKey.pair_unique distinct isKey'
  exact ⟨p.2, List.mem_map_of_mem member, records.entry.1⟩

theorem Stranded.not_behind (stranded : l.Stranded) {x : Exclusion}
    (member : x ∈ (mediate ix usage).exclusions) (excluded : x.entry = b.entry.ordinal) :
    ¬ ReflTransGen Requires b l := by
  intro way
  obtain ⟨p, noted, rfl⟩ := List.mem_map.mp member
  obtain ⟨owner, b', reached, records, _⟩ := exists_of_noted distinct noted
  obtain rfl := eq_of_ordinal distinct (excluded.symm.trans records.entry.1)
  obtain ⟨root, isRoot, onward⟩ := reached.leads
  exact stranded.not_root (onward.trans (ReflTransGen.head records.hides.requires way)) isRoot

end Distinct

end Library

/-- No library to which a root leads is left out without an explanation. On a class path whose
entries have distinct ordinals, every library is kept, or another of its coordinate is, or
requirements lead to it from an entry that is recorded as excluded, or it is stranded. One that is
stranded is neither kept nor behind an exclusion, and requirements in a circle lead to it. -/
theorem libraries_explained (ix : Index) (usage : Usage)
    (distinct : (ix.reports.map (·.entry.ordinal)).Nodup) :
    (∀ l : Library ix, l.entry ∈ (mediate ix usage).mediated ∨
      (∃ w : Library ix, w.entry ∈ (mediate ix usage).mediated ∧ w.coordinate = l.coordinate) ∨
      (∃ x ∈ (mediate ix usage).exclusions, ∃ b : Library ix, x.entry = b.entry.ordinal ∧
        ReflTransGen Library.Requires b l) ∨
      l.Stranded) ∧
    ∀ l : Library ix, l.Stranded → l.entry ∉ (mediate ix usage).mediated ∧
      (∀ x ∈ (mediate ix usage).exclusions, ∀ b : Library ix, x.entry = b.entry.ordinal →
        ¬ ReflTransGen Library.Requires b l) ∧
      ∃ a : Library ix, TransGen Library.Requires a a ∧ ReflTransGen Library.Requires a l := by
  constructor
  · intro l
    by_cases led : ∃ a : Library ix, ReflTransGen Library.Requires a l ∧ a.IsRoot
    · obtain ⟨a, way, isRoot⟩ := led
      right
      rcases isRoot.reached_or_hidden way usage with reached | ⟨owner, b, reached, hides, onward⟩
      · obtain ⟨w, wins, same⟩ := reached.exists_wins distinct
        exact Or.inl ⟨w, (w.mem_mediated distinct usage).mpr wins, same⟩
      · obtain ⟨x, member, excluded⟩ := hides.exists_exclusion distinct reached
        exact Or.inr (Or.inl ⟨x, member, b, excluded, onward⟩)
    · push Not at led
      exact Or.inr (Or.inr (Or.inr (Library.stranded_of_no_root led)))
  · intro l stranded
    refine ⟨?_, ?_, stranded.exists_circle⟩
    · rw [l.mem_mediated distinct usage]
      exact stranded.not_wins distinct
    · intro x member b excluded
      exact stranded.not_behind distinct member excluded

/-- Two libraries that require each other, beside one that nothing requires. -/
def circle : Index where
  reports := [jar 0 "app" "1.0" [],
    jar 1 "left" "1.0" [⟨⟨"org.c", "right"⟩, none, none, false⟩],
    jar 2 "right" "1.0" [⟨⟨"org.c", "left"⟩, none, none, false⟩]]

def leftOfCircle : Library circle where
  report := jar 1 "left" "1.0" [⟨⟨"org.c", "right"⟩, none, none, false⟩]
  metadata := ⟨⟨"org.c", "left"⟩, "1.0", [⟨⟨"org.c", "right"⟩, none, none, false⟩]⟩
  listed := List.mem_cons_of_mem _ List.mem_cons_self
  owned := rfl
  known := rfl

theorem circle_outcome :
    (∀ r ∈ circle.reports, r.entry ∈ (mediate circle .compile).mediated →
      ∀ m ∈ r.metadata, m.coordinate ≠ ⟨"org.c", "left"⟩) ∧
    (mediate circle .compile).exclusions = [] := by
  decide +kernel

/-- A library in a circle is left out in silence when the mediation starts elsewhere. -/
theorem left_unexplained :
    (circle.reports.map (·.entry.ordinal)).Nodup ∧
    ¬ (leftOfCircle.entry ∈ (mediate circle .compile).mediated ∨
      (∃ r ∈ circle.reports, r.entry ∈ (mediate circle .compile).mediated ∧
        ∃ m ∈ r.metadata, m.coordinate = leftOfCircle.coordinate) ∨
      ∃ x ∈ (mediate circle .compile).exclusions, ∃ b : Library circle,
        x.entry = b.entry.ordinal ∧ ReflTransGen Library.Requires b leftOfCircle) := by
  refine ⟨by decide, ?_⟩
  obtain ⟨others, none⟩ := circle_outcome
  rintro (kept | ⟨r, listed, kept, m, known, same⟩ | ⟨x, member, _⟩)
  · exact others _ leftOfCircle.listed kept _ leftOfCircle.known rfl
  · exact others r listed kept m known same
  · rw [none] at member
    cases member

theorem libraries_explained_circle :
    (circle.reports.map (·.entry.ordinal)).Nodup ∧ leftOfCircle.Stranded ∧
      ∃ a : Library circle, TransGen Library.Requires a a ∧
        ReflTransGen Library.Requires a leftOfCircle := by
  have distinct : (circle.reports.map (·.entry.ordinal)).Nodup := by decide
  obtain ⟨explained, silent⟩ := libraries_explained circle .compile distinct
  obtain ⟨others, none⟩ := circle_outcome
  have stranded : leftOfCircle.Stranded := by
    rcases explained leftOfCircle with kept | ⟨w, kept, same⟩ | ⟨x, member, _⟩ | stranded
    · exact absurd rfl (others _ leftOfCircle.listed kept _ leftOfCircle.known)
    · exact absurd same (others _ w.listed kept _ w.known)
    · rw [none] at member
      cases member
    · exact stranded
  exact ⟨distinct, stranded, (silent leftOfCircle stranded).2.2⟩

end Linkage.Mediation
