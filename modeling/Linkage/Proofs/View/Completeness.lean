import Mathlib.Data.Prod.Lex
import Mathlib.Data.String.Basic
import Linkage.ClassFile.Writer
import Linkage.Proofs.Classpath.Entries
import Linkage.Proofs.View.Assembly

/-!
A view loses nothing. What the mediated entries offer of a class is the one that is looked up and
those that it hides, each counted once; the names that the program takes from under a library are
either told of or refused.
-/
namespace Linkage

open Classpath (Entry Index Owner Record)
open View (Namespace Place)

namespace View.Namespace
variable {ns : Namespace}

/-- Every name stands once, in ascending order. It does so however a namespace is made: from an
index, from names, or by extending one that is ordered. -/
def Ordered (ns : Namespace) : Prop := (ns.classes.map (·.1)).Pairwise (· < ·)

theorem ordered_empty : ({} : Namespace).Ordered := .nil

theorem mem_insertSorted {name : String} {place : Place} {classes : List (String × Place)}
    {c : String × Place} (member : c ∈ insertSorted name place classes) :
    c = (name, place) ∨ c ∈ classes := by
  fun_induction insertSorted name place classes with
  | case1 => exact .inl (List.mem_singleton.mp member)
  | case2 => exact .inr member
  | case3 => exact List.mem_cons.mp member
  | case4 n p rest _ _ ih =>
    rcases List.mem_cons.mp member with rfl | member
    · exact .inr List.mem_cons_self
    · rcases ih member with new | old
      · exact .inl new
      · exact .inr (List.mem_cons_of_mem _ old)

theorem Ordered.insert (ordered : ns.Ordered) (name : String) (place : Place) :
    (ns.insert name place).Ordered := by
  obtain ⟨classes⟩ := ns
  unfold Ordered Namespace.insert at *
  rw [List.pairwise_map] at *
  simp only at *
  fun_induction insertSorted name place classes with
  | case1 => exact List.pairwise_singleton _ _
  | case2 => exact ordered
  | case3 n p rest _ less =>
    refine ordered.cons ?_
    intro c member
    rcases List.mem_cons.mp member with rfl | member
    · exact less
    · exact less.trans ((List.pairwise_cons.mp ordered).1 c member)
  | case4 n p rest differ above ih =>
    obtain ⟨below, ordered⟩ := List.pairwise_cons.mp ordered
    refine (ih ordered).cons ?_
    intro c member
    rcases mem_insertSorted member with rfl | member
    · exact lt_of_le_of_ne (not_lt.mp above) (Ne.symm differ)
    · exact below c member

theorem Ordered.foldl {α : Type} {step : Namespace → α → Namespace}
    (keeps : ∀ ns a, ns.Ordered → (step ns a).Ordered) (ordered : ns.Ordered) (xs : List α) :
    (xs.foldl step ns).Ordered := by
  induction xs generalizing ns with
  | nil => exact ordered
  | cons a rest ih => exact ih (keeps ns a ordered)

theorem ordered_ofIndex (ix : Index) : (ofIndex ix).Ordered := by
  refine ordered_empty.foldl ?_ ix.records
  intro ns r ordered
  split
  · exact ordered.insert ..
  · exact ordered

theorem Ordered.extend (ordered : ns.Ordered) (other : Namespace) : (ns.extend other).Ordered :=
  ordered.foldl (fun _ _ ordered => ordered.insert ..) other.classes

/-- A name has one place. -/
theorem Ordered.filter_name (ordered : ns.Ordered) (name : String) :
    ns.classes.filter (·.1 == name) =
      ((ns.origin? name).map fun place => (name, place)).toList := by
  obtain ⟨classes⟩ := ns
  unfold Ordered at ordered
  unfold origin?
  simp only at *
  induction classes with
  | nil => rfl
  | cons c rest ih =>
    obtain ⟨below, ordered⟩ := List.pairwise_cons.mp ordered
    by_cases same : c.1 = name
    · have others : rest.filter (·.1 == name) = [] := by
        rw [List.filter_eq_nil_iff]
        intro d member twice
        have less : c.1 < d.1 := below d.1 (List.mem_map_of_mem member)
        exact less.ne (same.trans (beq_iff_eq.mp twice).symm)
      obtain ⟨n, place⟩ := c
      obtain rfl : n = name := same
      simp [others]
    · simpa [same] using ih ordered

theorem Ordered.origin?_of_mem (ordered : ns.Ordered) {name : String} {place : Place}
    (member : (name, place) ∈ ns.classes) : ns.origin? name = some place := by
  have inside : (name, place) ∈ ns.classes.filter (·.1 == name) :=
    List.mem_filter.mpr ⟨member, beq_self_eq_true _⟩
  rw [ordered.filter_name, Option.mem_toList] at inside
  obtain ⟨_, known, same⟩ := Option.map_eq_some_iff.mp inside
  obtain ⟨_, rfl⟩ := Prod.mk.inj same
  exact known

end View.Namespace

namespace Duplicate

/-- By name, then by the place of what is hidden. -/
def Precedes (a b : Duplicate) : Prop :=
  a.name < b.name ∨ a.name = b.name ∧ (a.shadowed.location < b.shadowed.location ∨
    a.shadowed.location = b.shadowed.location ∧ a.shadowed.member ≤ b.shadowed.member)

def rank (d : Duplicate) : String ×ₗ String ×ₗ String :=
  toLex (d.name, toLex (d.shadowed.location, d.shadowed.member))

theorem precedes_iff {a b : Duplicate} : a.Precedes b ↔ a.rank ≤ b.rank := by
  simp only [Precedes, rank, Prod.Lex.toLex_le_toLex]

theorem le_iff {a b : Duplicate} : a.le b = true ↔ a.Precedes b := by
  simp only [le, key, Precedes, Bool.or_eq_true, Bool.and_eq_true, beq_iff_eq]
  refine or_congr decide_eq_true_iff (and_congr_right' ?_)
  exact or_congr decide_eq_true_iff (and_congr_right' decide_eq_true_iff)

theorem pairwise_mergeSort (duplicates : List Duplicate) :
    (duplicates.mergeSort le).Pairwise Precedes := by
  refine (List.pairwise_mergeSort ?_ ?_ duplicates).imp le_iff.mp
  · intro a b c ab bc
    rw [le_iff, precedes_iff] at *
    exact ab.trans bc
  · intro a b
    rw [Bool.or_eq_true, le_iff, le_iff, precedes_iff, precedes_iff]
    exact le_total _ _

end Duplicate

namespace ClassView
variable {mode : Isolation} {release : Nat} {program : Namespace} {ix : Index}
  {o : Mediation.Outcome} {v : ClassView} {d : Duplicate} {name : String} {records : List Record}

section Duplicates

/-- A duplicate of a name by a rule. -/
def isOf (name : String) (rule : DuplicateRule) (d : Duplicate) : Bool :=
  d.name == name && d.rule == rule

theorem mem_shadowedBy (member : d ∈ shadowedBy mode name records) :
    d.name = name ∧ d.rule = .classpathOrder ∧ ∃ winner more, records = winner :: more ∧
      d.winner = .ofRecord winner ∧ ∃ r ∈ more, d.shadowed = .ofRecord r := by
  cases records with
  | nil => cases member
  | cons winner more =>
    obtain ⟨r, inside, rfl⟩ := List.mem_map.mp member
    exact ⟨rfl, rfl, winner, more, rfl, rfl, r, inside, rfl⟩

theorem map_shadowed_shadowedBy (mode : Isolation) (name : String) (records : List Record) :
    (shadowedBy mode name records).map (·.shadowed) = records.tail.map Place.ofRecord := by
  cases records with
  | nil => rfl
  | cons winner more =>
    rw [shadowedBy, List.map_map]
    rfl

theorem mem_hidden (member : d ∈ hidden mode release ix o) :
    d.rule = .classpathOrder ∧
      ∃ owner winner more, shown ix o release owner d.name = winner :: more ∧
        d.winner = .ofRecord winner ∧ ∃ r ∈ more, d.shadowed = .ofRecord r := by
  obtain ⟨name, _, member⟩ := List.mem_flatMap.mp member
  rcases List.mem_append.mp member with member | member
  · obtain ⟨rfl, rule, hides⟩ := mem_shadowedBy member
    exact ⟨rule, .library, hides⟩
  · obtain ⟨rfl, rule, hides⟩ := mem_shadowedBy member
    exact ⟨rule, .program, hides⟩

/-- The duplicates of a name within the class path are what its winners hide. -/
theorem hidden_filter (mode : Isolation) (release : Nat) (ix : Index) (o : Mediation.Outcome)
    (name : String) :
    (hidden mode release ix o).filter (isOf name .classpathOrder) =
      shadowedBy mode name (shown ix o release .library name) ++
        shadowedBy mode name (shown ix o release .program name) := by
  have byName : (hidden mode release ix o).filter (isOf name .classpathOrder) =
      (hidden mode release ix o).filter (fun d => d.name == name) := by
    apply List.filter_congr
    intro d member
    rw [isOf, (mem_hidden member).1, beq_self_eq_true, Bool.and_true]
  rw [byName]
  by_cases listed : name ∈ ix.names
  · refine Mediation.filter_key_flatMap ?_ ix.nodup_names listed
    intro name d member
    rcases List.mem_append.mp member with member | member
    · exact (mem_shadowedBy member).1
    · exact (mem_shadowedBy member).1
  · -- Of a name that the index does not have nothing is shown, and so nothing is hidden.
    have nothing (owner : Owner) : shown ix o release owner name = [] := by
      rw [List.eq_nil_iff_forall_not_mem]
      intro r inside
      exact listed (mem_names_of_shown inside)
    rw [nothing, nothing, shadowedBy, List.append_nil, List.filter_eq_nil_iff]
    intro d member same
    obtain ⟨_, owner, winner, more, records, _⟩ := mem_hidden member
    rw [beq_iff_eq.mp same, nothing] at records
    cases records

theorem taken_rule (member : d ∈ taken mode release program ix o) : d.rule = .mediatedOrder := by
  obtain ⟨clash, _, rfl⟩ := List.mem_map.mp member
  rfl

/-- A program name that a library takes is told of once. -/
theorem taken_filter (ordered : program.Ordered) (mode : Isolation) (release : Nat) (ix : Index)
    (o : Mediation.Outcome) (name : String) :
    (taken mode release program ix o).filter (isOf name .mediatedOrder) =
      ((program.origin? name).bind fun place =>
        (shown ix o release .library name).head?.map fun r =>
          (⟨name, mode, .mediatedOrder, .ofRecord r, place⟩ : Duplicate)).toList := by
  have byName : (taken mode release program ix o).filter (isOf name .mediatedOrder) =
      (program.classes.filter (·.1 == name)).filterMap fun c =>
        (shown ix o release .library c.1).head?.map fun r =>
          (⟨c.1, mode, .mediatedOrder, .ofRecord r, c.2⟩ : Duplicate) := by
    rw [taken, clashes, List.map_filterMap, List.filter_filterMap, List.filterMap_filter]
    apply List.filterMap_congr
    rintro ⟨n, place⟩ _
    by_cases same : n = name
    · subst same
      cases first : (shown ix o release .library n).head? <;> simp [first, isOf]
    · cases first : (shown ix o release .library n).head? <;> simp [first, isOf, same]
  rw [byName, ordered.filter_name]
  cases program.origin? name with
  | none => rfl
  | some place => cases first : (shown ix o release .library name).head? <;> simp [first]

namespace Assembled
variable (is : Assembled mode release program ix o v)
include is

theorem duplicates_sorted : v.duplicates.Pairwise Duplicate.Precedes := by
  rw [is.duplicates]
  exact Duplicate.pairwise_mergeSort _

theorem filter_duplicates (p : Duplicate → Bool) :
    (v.duplicates.filter p).Perm
      ((hidden mode release ix o).filter p ++ (taken mode release program ix o).filter p) := by
  rw [is.duplicates, ← List.filter_append]
  exact (List.mergeSort_perm _ _).filter p

theorem classpathOrder_perm (name : String) :
    (v.duplicates.filter (isOf name .classpathOrder)).Perm
      (shadowedBy mode name (shown ix o release .library name) ++
        shadowedBy mode name (shown ix o release .program name)) := by
  have none : (taken mode release program ix o).filter (isOf name .classpathOrder) = [] := by
    rw [List.filter_eq_nil_iff]
    intro d member same
    rw [isOf, taken_rule member] at same
    simp at same
  have both := is.filter_duplicates (isOf name .classpathOrder)
  rwa [none, List.append_nil, hidden_filter] at both

/-- What a name hides within the class path is all but the first of each owner. -/
theorem shadowed_perm (name : String) :
    ((v.duplicates.filter (isOf name .classpathOrder)).map (·.shadowed)).Perm
      (((shown ix o release .library name).tail ++
        (shown ix o release .program name).tail).map Place.ofRecord) := by
  have shadowed := (is.classpathOrder_perm name).map (·.shadowed)
  rwa [List.map_append, map_shadowed_shadowedBy, map_shadowed_shadowedBy, ← List.map_append]
    at shadowed

theorem exists_winner (member : d ∈ v.duplicates) (rule : d.rule = .classpathOrder) :
    ∃ owner winner more, shown ix o release owner d.name = winner :: more ∧
      d.winner = .ofRecord winner ∧ ∃ r ∈ more, d.shadowed = .ofRecord r := by
  rw [is.duplicates, List.mem_mergeSort, List.mem_append] at member
  rcases member with member | member
  · exact (mem_hidden member).2
  · rw [taken_rule member] at rule
    cases rule

theorem mediatedOrder_eq (ordered : program.Ordered) (name : String) :
    v.duplicates.filter (isOf name .mediatedOrder) =
      ((program.origin? name).bind fun place =>
        (shown ix o release .library name).head?.map fun r =>
          (⟨name, mode, .mediatedOrder, .ofRecord r, place⟩ : Duplicate)).toList := by
  have none : (hidden mode release ix o).filter (isOf name .mediatedOrder) = [] := by
    rw [List.filter_eq_nil_iff]
    intro d member same
    rw [isOf, (mem_hidden member).1] at same
    simp at same
  have both := is.filter_duplicates (isOf name .mediatedOrder)
  rw [none, List.nil_append, taken_filter ordered] at both
  -- There is at most one, so that sorting cannot have moved it.
  generalize (program.origin? name).bind _ = told at both ⊢
  cases told with
  | none => exact List.perm_nil.mp both
  | some d => exact List.perm_singleton.mp both

end Assembled

end Duplicates

section Clashes

theorem mem_clashes {clash : String × Place × Record} :
    clash ∈ clashes release program ix o ↔ (clash.1, clash.2.1) ∈ program.classes ∧
      (shown ix o release .library clash.1).head? = some clash.2.2 := by
  obtain ⟨name, place, r⟩ := clash
  simp only [clashes, List.mem_filterMap, Option.map_eq_some_iff]
  constructor
  · rintro ⟨⟨n, p⟩, member, w, first, same⟩
    obtain ⟨rfl, rfl, rfl⟩ := same
    exact ⟨member, first⟩
  · rintro ⟨member, first⟩
    exact ⟨(name, place), member, r, first, rfl⟩

theorem exists_clash (taken : name ∈ program.classes.map (·.1))
    (offered : shown ix o release .library name ≠ []) :
    ∃ clash ∈ clashes release program ix o, clash.1 = name := by
  obtain ⟨⟨n, place⟩, member, rfl⟩ := List.mem_map.mp taken
  obtain ⟨r, more, records⟩ := List.exists_cons_of_ne_nil offered
  refine ⟨(n, place, r), mem_clashes.mpr ⟨member, ?_⟩, rfl⟩
  rw [records]
  rfl

/-- Clashes come in the order of the names. -/
theorem clashes_sorted (ordered : program.Ordered) (release : Nat) (ix : Index)
    (o : Mediation.Outcome) :
    (clashes release program ix o).Pairwise fun a b => a.1 < b.1 := by
  unfold Namespace.Ordered at ordered
  rw [List.pairwise_map] at ordered
  refine ordered.filterMap _ ?_
  rintro ⟨n, place⟩ ⟨n', place'⟩ less clash found clash' found'
  obtain ⟨_, _, rfl⟩ := Option.map_eq_some_iff.mp found
  obtain ⟨_, _, rfl⟩ := Option.map_eq_some_iff.mp found'
  exact less

/-- Isolation is refused just when a library has a name of the program. -/
theorem isolated_fails_iff :
    (∃ c, assemble .appIsolated release program ix o = .error c) ↔
      ∃ name ∈ program.classes.map (·.1), shown ix o release .library name ≠ [] := by
  constructor
  · rintro ⟨c, failed⟩
    rcases assemble_cases .appIsolated release program ix o with
      ⟨name, place, r, more, _, found, _⟩ | ⟨_, v, made, _⟩
    · have first : (name, place, r) ∈ clashes release program ix o := found ▸ List.mem_cons_self
      obtain ⟨member, shows⟩ := mem_clashes.mp first
      exact ⟨name, List.mem_map_of_mem member, List.ne_nil_of_mem (List.mem_of_mem_head? shows)⟩
    · rw [made] at failed
      cases failed
  · rintro ⟨name, taken, offered⟩
    rcases assemble_cases .appIsolated release program ix o with
      ⟨_, _, _, _, _, _, failed⟩ | ⟨none, _⟩
    · exact ⟨_, failed⟩
    · obtain ⟨clash, member, _⟩ := exists_clash taken offered
      rw [none rfl] at member
      cases member

/-- It is refused for the least of these names. -/
theorem isolated_least (ordered : program.Ordered) {c : IsolationConflict}
    (failed : assemble .appIsolated release program ix o = .error c) :
    program.origin? c.name = some c.programOrigin ∧
    (shown ix o release .library c.name).head?.map Place.ofRecord = some c.libraryOrigin ∧
    ∀ name ∈ program.classes.map (·.1), shown ix o release .library name ≠ [] → c.name ≤ name := by
  rcases assemble_cases .appIsolated release program ix o with
    ⟨name, place, r, more, _, found, failed'⟩ | ⟨_, v, made, _⟩
  · rw [failed'] at failed
    obtain rfl := Except.error.inj failed
    have first : (name, place, r) ∈ clashes release program ix o := found ▸ List.mem_cons_self
    obtain ⟨member, shows⟩ := mem_clashes.mp first
    refine ⟨ordered.origin?_of_mem member, by rw [shows]; rfl, ?_⟩
    intro name' taken offered
    obtain ⟨clash, member, rfl⟩ := exists_clash taken offered
    have sorted := clashes_sorted ordered release ix o
    rw [found] at member sorted
    rcases List.mem_cons.mp member with rfl | member
    · exact le_refl _
    · exact ((List.pairwise_cons.mp sorted).1 clash member).le
  · rw [made] at failed
    cases failed

end Clashes

/-- What the mediated entries of an owner offer of a class, in the order of the class path. -/
def offers (entries : List Entry) (ix : Index) (o : Mediation.Outcome) (release : Nat)
    (owner : Owner) (name : String) : List Record :=
  (entries.filter fun e => e.owner == owner && o.isMediated e.ordinal).filterMap
    (ix.offered release name)

theorem shown_build {tree : FileTree} {image : Option String} {entries : List Entry}
    (distinct : (entries.map (·.ordinal)).Nodup) (o : Mediation.Outcome) (release : Nat)
    (owner : Owner) (name : String) :
    shown (Index.build tree image entries) o release owner name =
      offers entries (Index.build tree image entries) o release owner name := by
  rw [shown, Index.build, Index.winnersOf_gather distinct, visible, offers, List.filter_filterMap,
    List.filterMap_filter]
  apply List.filterMap_congr
  intro e listed
  cases found : (Index.gather (Classpath.openEntry tree image) entries).offered release name e with
  | none => simp
  | some r =>
    obtain ⟨entry, owned⟩ := Index.offered_gather distinct listed found
    simp [Option.filter_some, entry, owned]

/-- A view loses nothing. In shared mode there is always one. In a view, the class of a name is the
first that a mediated library offers or, when none does, the first that a mediated program entry
offers; the classes that it hides in the order of the class path are all but the first of each of
the two, once each, and each with the first of its owner as its winner; a name of the program that a
library offers is told of once, and no other; and all these are in order. In isolated mode there is
no view just when a library offers a name of the program, and the least such name is told. -/
theorem view_complete (tree : FileTree) (image : Option String) {entries : List Entry}
    (distinct : (entries.map (·.ordinal)).Nodup) (o : Mediation.Outcome) (release : Nat)
    {program : Namespace} (ordered : program.Ordered) :
    let ix := Index.build tree image entries
    let offers := offers entries ix o release
    (∃ v, assemble .shared release program ix o = .ok v) ∧
    (∀ mode v, assemble mode release program ix o = .ok v →
      (∀ name,
        v.lookup name = ((offers .library name).head? <|> (offers .program name).head?) ∧
        (v.duplicates.filter (isOf name .classpathOrder)).length =
          ((offers .library name).length - 1) + ((offers .program name).length - 1) ∧
        ((v.duplicates.filter (isOf name .classpathOrder)).map (·.shadowed)).Perm
          (((offers .library name).tail ++ (offers .program name).tail).map Place.ofRecord) ∧
        v.duplicates.filter (isOf name .mediatedOrder) =
          ((program.origin? name).bind fun place => (offers .library name).head?.map fun r =>
            (⟨name, mode, .mediatedOrder, .ofRecord r, place⟩ : Duplicate)).toList) ∧
      (∀ d ∈ v.duplicates, d.rule = .classpathOrder →
        ∃ owner winner more, offers owner d.name = winner :: more ∧
          d.winner = .ofRecord winner ∧ ∃ r ∈ more, d.shadowed = .ofRecord r) ∧
      v.duplicates.Pairwise Duplicate.Precedes) ∧
    ((∃ c, assemble .appIsolated release program ix o = .error c) ↔
      ∃ name ∈ program.classes.map (·.1), offers .library name ≠ []) ∧
    ∀ c, assemble .appIsolated release program ix o = .error c →
      program.origin? c.name = some c.programOrigin ∧
      (offers .library c.name).head?.map Place.ofRecord = some c.libraryOrigin ∧
      ∀ name ∈ program.classes.map (·.1), offers .library name ≠ [] → c.name ≤ name := by
  intro ix offers
  have shows (owner : Owner) (name : String) : shown ix o release owner name = offers owner name :=
    shown_build distinct o release owner name
  simp only [← shows]
  refine ⟨?_, ?_, isolated_fails_iff, fun c failed => isolated_least ordered failed⟩
  · rcases assemble_cases .shared release program ix o with
      ⟨_, _, _, _, impossible, _⟩ | ⟨_, v, done, _⟩
    · cases impossible
    · exact ⟨v, done⟩
  · intro mode v done
    have is := assembled_of_ok done
    refine ⟨?_, fun d => is.exists_winner, is.duplicates_sorted⟩
    intro name
    refine ⟨is.lookup name, ?_, is.shadowed_perm name, is.mediatedOrder_eq ordered name⟩
    have count := (is.shadowed_perm name).length_eq
    rwa [List.length_map, List.length_map, List.length_append, List.length_tail, List.length_tail]
      at count

/-- Three directories that each hold a class of one name: the program's and two of libraries. -/
def crowded : FileTree where
  nodes := ["out", "left", "right"].flatMap fun directory =>
    [([directory], .directory 0),
      ([directory, "Main.class"], .file (ClassFile.ClassSpec.encode { name := "Main" }) 0)]

def crowd : List Entry :=
  [⟨0, .directory, "out", .program⟩, ⟨1, .directory, "left", .library⟩,
    ⟨2, .directory, "right", .library⟩]

abbrev crowdIndex : Index := Index.build crowded none crowd

def crowdNames : Namespace := (Namespace.ofIndex crowdIndex).extend (.ofNames ["Spare"] "build")

theorem crowd_mediated :
    ∀ e ∈ crowd, (Mediation.mediate crowdIndex .runtime).isMediated e.ordinal = true := by
  have kept : ∀ e ∈ crowd, ∃ r ∈ crowdIndex.reports,
      Mediation.keeps crowdIndex .runtime r = true ∧ r.entry = e := by
    decide +kernel
  intro e listed
  have member := Mediation.mem_mediated_iff.mpr (kept e listed)
  exact List.any_eq_true.mpr ⟨e, member, beq_self_eq_true _⟩

theorem crowd_offers :
    let offers := offers crowd crowdIndex (Mediation.mediate crowdIndex .runtime) 17
    (offers .library "Main").map (·.origin.location) = ["left", "right"] ∧
    (offers .program "Main").map (·.origin.location) = ["out"] := by
  have all (owner : Owner) : (crowd.filter fun e =>
      e.owner == owner && (Mediation.mediate crowdIndex .runtime).isMediated e.ordinal) =
      crowd.filter (·.owner == owner) := by
    apply List.filter_congr
    intro e listed
    rw [crowd_mediated e listed, Bool.and_true]
  simp only [offers, all]
  decide +kernel

theorem view_complete_crowd :
    (crowd.map (·.ordinal)).Nodup ∧ crowdNames.Ordered ∧
    (∃ v,
      assemble .shared 17 crowdNames crowdIndex (Mediation.mediate crowdIndex .runtime) = .ok v ∧
      (v.lookup "Main").map (·.origin.location) = some "left" ∧
      (v.duplicates.filter (isOf "Main" .classpathOrder)).map (·.shadowed.location) = ["right"] ∧
      (v.duplicates.filter (isOf "Main" .mediatedOrder)).map (·.shadowed.location) = ["out"]) ∧
    ∃ c, assemble .appIsolated 17 crowdNames crowdIndex (Mediation.mediate crowdIndex .runtime) =
      .error c ∧ c.name ≤ "Main" := by
  have distinct : (crowd.map (·.ordinal)).Nodup := by decide
  have ordered : crowdNames.Ordered := (View.Namespace.ordered_ofIndex crowdIndex).extend _
  obtain ⟨libraries, programs⟩ := crowd_offers
  obtain ⟨⟨v, done⟩, views, fails, least⟩ :=
    view_complete crowded none distinct (Mediation.mediate crowdIndex .runtime) 17 ordered
  obtain ⟨names, _⟩ := views .shared v done
  obtain ⟨looked, _, hides, takes⟩ := names "Main"
  obtain ⟨left, rest, library, atLeft, more⟩ := List.map_eq_cons_iff.mp libraries
  obtain ⟨right, rfl, atRight⟩ := List.map_eq_singleton_iff.mp more
  obtain ⟨out, program, atOut⟩ := List.map_eq_singleton_iff.mp programs
  have known : (crowdNames.origin? "Main").map (·.location) = some "out" := by decide +kernel
  obtain ⟨place, origin, atPlace⟩ := Option.map_eq_some_iff.mp known
  refine ⟨distinct, ordered, ⟨v, done, ?_, ?_, ?_⟩, ?_⟩
  · rw [looked, library]
    exact congrArg some atLeft
  · rw [library, program] at hides
    have one := List.perm_singleton.mp hides
    have shadowed := congrArg (List.map Place.location) one
    rw [List.map_map] at shadowed
    exact shadowed.trans (congrArg (fun location => [location]) atRight)
  · rw [takes, library, origin]
    exact congrArg (fun location => [location]) atPlace
  · have taken : "Main" ∈ crowdNames.classes.map (·.1) := by decide +kernel
    have offered : offers crowd crowdIndex (Mediation.mediate crowdIndex .runtime) 17 .library
        "Main" ≠ [] := by
      rw [library]
      exact List.cons_ne_nil _ _
    obtain ⟨c, failed⟩ := fails.mpr ⟨"Main", taken, offered⟩
    exact ⟨c, failed, (least c failed).2.2 "Main" taken offered⟩

end ClassView

end Linkage
