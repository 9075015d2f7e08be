import Linkage.Proofs.Mediation.Winners

/-!
One class path under two usages. Both mediations number the same libraries, declare the same edges
and start at the same roots; they differ in the scopes that they follow. What is visible at run time
is visible while compiling too, so that every trail of the first is a trail of the second. The
winner of a coordinate may be another version there, but it is never deeper.
-/
namespace Linkage

/-- Compiling sees every scope that any usage sees. -/
theorem Usage.allows_compile {usage : Usage} {scope : Scope} (visible : usage.allows scope = true) :
    Usage.compile.allows scope = true := by
  cases scope with
  | compile | runtime | provided | other => rfl
  | test => exact visible

namespace Mediation

open Classpath (Entry Index Report)

variable {ix : Index} {usage wider : Usage}

/-- Where more scopes are visible, a trail is still there. -/
theorem Graph.Trail.widen {root node depth : Nat}
    (sees : ∀ scope, usage.allows scope = true → wider.allows scope = true)
    (trail : (Graph.ofIndex ix usage).Trail root node depth) :
    (Graph.ofIndex ix wider).Trail root node depth := by
  induction trail with
  | start first => exact .start first
  | onward _ inside edge visible ih => exact .onward ih inside edge (sees _ visible)

/-- What is no library is kept under every usage. -/
theorem mem_mediated_of_exempt {r : Report} (listed : r ∈ ix.reports) (exempt : nodeOf? r = none)
    (usage : Usage) : r.entry ∈ (mediate ix usage).mediated :=
  mem_mediated_iff.mpr ⟨r, listed, by simp [keeps, exempt], rfl⟩

namespace Library
variable {l : Library ix} {depth : Nat}

/-- The library is chosen for its coordinate, and the mediation found it at this depth. -/
def WinsAt (usage : Usage) (l : Library ix) (depth : Nat) : Prop :=
  ∃ c, best? (rivals (mediate ix usage).candidates l.coordinate) = some c ∧ l.Is c ∧
    c.depth = depth

theorem Wins.exists_depth (wins : l.Wins usage) : ∃ depth, l.WinsAt usage depth := by
  obtain ⟨c, best, is⟩ := wins
  exact ⟨c.depth, c, best, is, rfl⟩

theorem WinsAt.wins (wins : l.WinsAt usage depth) : l.Wins usage := by
  obtain ⟨c, best, is, _⟩ := wins
  exact ⟨c, best, is⟩

/-- A winner was found at the end of a trail of its depth. -/
theorem WinsAt.exists_trail (wins : l.WinsAt usage depth) :
    ∃ root place, l.At place ∧ (Graph.ofIndex ix usage).Trail root place depth := by
  obtain ⟨c, best, is, rfl⟩ := wins
  have inside := (of_best?_filter best).1
  exact ⟨c.root, c.node, is.place, (Graph.walk_inv.sound.candidates c inside).1⟩

variable (distinct : (ix.reports.map (·.entry.ordinal)).Nodup)
include distinct

/-- Where more scopes are visible, the winner of a coordinate is no deeper. -/
theorem WinsAt.widen (sees : ∀ scope, usage.allows scope = true → wider.allows scope = true)
    (wins : l.WinsAt usage depth) :
    ∃ (w : Library ix) (nearer : Nat), w.WinsAt wider nearer ∧ w.coordinate = l.coordinate ∧
      nearer ≤ depth := by
  obtain ⟨root, place, stands, trail⟩ := wins.exists_trail
  obtain ⟨c, found, _, near⟩ :=
    Graph.exists_winner (trail.widen sees) (stands.nodes_getElem? wider)
  have best : best? (rivals (mediate ix wider).candidates l.coordinate) = some c := found
  -- The winner under the wider usage may be another library, so it is found by its candidate.
  obtain ⟨w, _, is, same⟩ := exists_wins distinct best
  exact ⟨w, c.depth, ⟨c, same ▸ best, is, rfl⟩, same, near⟩

end Library

/-- A program sees no more libraries at run time than while it is compiled. On a class path whose
entries have distinct ordinals, each coordinate of which an entry is kept at run time has an entry
that is kept while compiling, found at no greater depth; and the entries that say nothing about
libraries are kept both times. -/
theorem runtime_within_compile (ix : Index)
    (distinct : (ix.reports.map (·.entry.ordinal)).Nodup) :
    (∀ l : Library ix, l.entry ∈ (mediate ix .runtime).mediated →
      ∃ w : Library ix, w.entry ∈ (mediate ix .compile).mediated ∧ w.coordinate = l.coordinate ∧
        ∃ depth nearer, l.WinsAt .runtime depth ∧ w.WinsAt .compile nearer ∧ nearer ≤ depth) ∧
    ∀ r ∈ ix.reports, r.metadata = none →
      r.entry ∈ (mediate ix .runtime).mediated ∧ r.entry ∈ (mediate ix .compile).mediated := by
  constructor
  · intro l kept
    obtain ⟨depth, wins⟩ := ((l.mem_mediated distinct .runtime).mp kept).exists_depth
    obtain ⟨w, nearer, wins', same, near⟩ :=
      wins.widen distinct fun _ visible => Usage.allows_compile visible
    exact ⟨w, (w.mem_mediated distinct .compile).mpr wins'.wins, same, depth, nearer, wins, wins',
      near⟩
  · intro r listed unknown
    have exempt : nodeOf? r = none := by simp [nodeOf?, unknown]
    exact ⟨mem_mediated_of_exempt listed exempt .runtime,
      mem_mediated_of_exempt listed exempt .compile⟩

/-- A library that compiles against one version of another and finds a second one, two steps away,
at run time. -/
def twofold : Index where
  reports := [⟨⟨0, .archive, "plain.jar", .library⟩, none, false, none, 0⟩,
    jar 1 "app" "1.0" [⟨⟨"org.c", "mid"⟩, none, none, false⟩,
      ⟨⟨"org.c", "lib"⟩, some "2.0", some "provided", false⟩],
    jar 2 "mid" "1.0" [⟨⟨"org.c", "lib"⟩, some "1.0", none, false⟩],
    jar 3 "lib" "1.0" [], jar 4 "lib" "2.0" []]

def farOfTwofold : Library twofold where
  report := jar 3 "lib" "1.0" []
  metadata := ⟨⟨"org.c", "lib"⟩, "1.0", []⟩
  listed := by simp [twofold]
  owned := rfl
  known := rfl

theorem runtime_within_compile_twofold :
    (twofold.reports.map (·.entry.ordinal)).Nodup ∧
    farOfTwofold.entry ∈ (mediate twofold .runtime).mediated ∧
    farOfTwofold.entry ∉ (mediate twofold .compile).mediated ∧
    ∃ w : Library twofold, w.entry ∈ (mediate twofold .compile).mediated ∧
      w.coordinate = farOfTwofold.coordinate ∧
      ∃ depth nearer, farOfTwofold.WinsAt .runtime depth ∧ w.WinsAt .compile nearer ∧
        nearer ≤ depth := by
  have distinct : (twofold.reports.map (·.entry.ordinal)).Nodup := by decide
  have outcome : keeps twofold .runtime farOfTwofold.report = true ∧
      keeps twofold .compile farOfTwofold.report = false := by
    decide +kernel
  have kept : farOfTwofold.entry ∈ (mediate twofold .runtime).mediated :=
    mem_mediated_iff.mpr ⟨farOfTwofold.report, farOfTwofold.listed, outcome.1, rfl⟩
  have dropped : farOfTwofold.entry ∉ (mediate twofold .compile).mediated := by
    rw [farOfTwofold.mem_mediated distinct, ← farOfTwofold.keeps_report distinct, outcome.2]
    exact Bool.false_ne_true
  exact ⟨distinct, kept, dropped, (runtime_within_compile twofold distinct).1 farOfTwofold kept⟩

end Mediation

end Linkage
