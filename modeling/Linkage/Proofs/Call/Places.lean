import Linkage.Call.Forwarding
import Linkage.Proofs.FileTree.Paths
import Linkage.Proofs.Text.Runs

/-!
Where forwarding classes stand. The name of a class holds no slash: it is made of letters, digits
and underscores, and neither upper case nor a number brings one in. A part of a package holds no
point. So no piece of the path of a forwarding class leads up.
-/
namespace Linkage

open Text (splitAll)

namespace Text

theorem ofNat_ne_slash {n : Nat} (other : n ≠ 47) : Char.ofNat n ≠ '/' := by
  intro same
  by_cases valid : n.isValidChar
  · rw [Char.ofNat, dif_pos valid] at same
    exact other (congrArg Char.toNat same)
  · rw [Char.ofNat, dif_neg valid] at same
    exact absurd same (by decide)

theorem slash_not_mem_caseSequences {n : Nat} {ms : List Nat} (among : (n, ms) ∈ caseSequences) :
    47 ∉ ms := by
  have all : ∀ entry ∈ caseSequences, 47 ∉ entry.2 := by decide +kernel
  exact all _ among

theorem lt_of_mem_caseRuns {r : CaseRun} (among : r ∈ caseRuns) :
    47 < (r.first : Int) + r.shift := by
  have all : ∀ r ∈ caseRuns, 47 < (r.first : Int) + r.shift := by decide +kernel
  exact all _ among

/-- Upper case brings no slash in. -/
theorem slash_not_mem_upper {c : Char} (other : c ≠ '/') : '/' ∉ upper c := by
  unfold upper
  simp only
  split
  next ascii =>
    have all : ∀ n, n < 128 → Char.ofNat n ≠ '/' → (Char.ofNat n).toUpper ≠ '/' := by decide
    have single := all c.toNat ascii
    rw [Char.ofNat_toNat] at single
    simpa [eq_comm] using single other
  next =>
    split
    next n ms found =>
      have none := slash_not_mem_caseSequences (List.mem_of_find?_eq_some found)
      intro slash
      obtain ⟨m, among, same⟩ := List.mem_map.mp slash
      have code : m ≠ 47 := fun code => none (code ▸ among)
      exact ofNat_ne_slash code same
    next r _ found =>
      have above := lt_of_mem_caseRuns (List.mem_of_find?_eq_some found)
      have covered := List.find?_some found
      simp only [CaseRun.covers, Bool.and_eq_true, decide_eq_true_eq] at covered
      have code : ((c.toNat : Int) + r.shift).toNat ≠ 47 := by omega
      simpa [eq_comm] using ofNat_ne_slash code
    next => simpa [eq_comm] using other

end Text

namespace Call.ForwardingClass

theorem slash_not_mem_identifier (raw : String) : '/' ∉ (identifier raw).toList := by
  have plain : '/' ∉ raw.toList.map fun c => if Text.isWordChar c || c == '_' then c else '_' := by
    intro slash
    obtain ⟨c, _, same⟩ := List.mem_map.mp slash
    split at same
    next kept =>
      subst same
      exact absurd kept (by decide)
    next => exact absurd same (by decide)
  unfold identifier
  simp only
  split
  next => decide
  next c rest cut =>
    rw [cut] at plain
    rw [String.toList_ofList]
    split
    next => simpa using plain
    next => exact plain

theorem slash_not_mem_capitalized {s : String} (plain : '/' ∉ s.toList) :
    '/' ∉ (capitalized s).toList := by
  unfold capitalized
  split
  next => decide
  next c rest cut =>
    rw [cut, List.mem_cons, not_or] at plain
    rw [String.toList_ofList, List.mem_append, not_or]
    exact ⟨Text.slash_not_mem_upper (Ne.symm plain.1), plain.2⟩

theorem slash_not_mem_baseName (owner : String) : '/' ∉ (baseName owner).toList := by
  have name : '/' ∉ (String.join
      ((nameParts owner).map fun part => capitalized (identifier part))).toList := by
    rw [String.toList_join]
    intro slash
    obtain ⟨part, among, inside⟩ := List.mem_flatMap.mp slash
    obtain ⟨raw, _, rfl⟩ := List.mem_map.mp among
    exact slash_not_mem_capitalized (slash_not_mem_identifier raw) inside
  unfold baseName
  simp only
  rw [String.toList_append, List.mem_append, not_or]
  refine ⟨?_, by decide⟩
  split
  · decide
  · exact name

theorem slash_not_mem_numbered {separator : String} {names : List String}
    (separated : '/' ∉ separator.toList) (plain : ∀ name ∈ names, '/' ∉ name.toList)
    (seen : List String) : ∀ name ∈ numbered separator seen names, '/' ∉ name.toList := by
  induction names generalizing seen with
  | nil =>
    intro name among
    cases among
  | cons first names ih =>
    intro name among
    have given := plain first List.mem_cons_self
    rcases List.mem_cons.mp among with rfl | among
    · split
      · exact given
      · simp only [String.toList_append, List.mem_append, not_or]
        exact ⟨⟨given, separated⟩, Text.not_mem_toString (by decide)⟩
    · exact ih (fun name among => plain name (List.mem_cons_of_mem _ among)) _ name among

theorem slash_not_mem_className (owners : List String) :
    ∀ name ∈ numbered "" [] (owners.map baseName), '/' ∉ name.toList := by
  refine slash_not_mem_numbered (by decide) (fun name among => ?_) []
  obtain ⟨owner, _, rfl⟩ := List.mem_map.mp among
  exact slash_not_mem_baseName owner

/-- Joining paths brings no piece in that leads up. -/
theorem not_mem_splitAll_join {base path : String} (low : ".." ∉ splitAll '/' base)
    (down : ".." ∉ splitAll '/' path) : ".." ∉ splitAll '/' (Path.join base path) := by
  cases absolute : Path.isAbsolute path with
  | true => simpa [Path.join, absolute] using down
  | false =>
    rw [Path.splitAll_join absolute, List.mem_append, not_or]
    exact ⟨fun up => low (Path.mem_splitAll_of_mem_lead up), down⟩

theorem not_mem_splitAll_of_point {s : String} (plain : '.' ∉ s.toList) :
    ".." ∉ splitAll '/' s := by
  intro up
  exact plain (Text.mem_of_mem_splitAll up (by decide : '.' ∈ "..".toList)).1

theorem not_mem_splitAll_pathOf (package : String) {className : String}
    (plain : '/' ∉ className.toList) : ".." ∉ splitAll '/' (pathOf package className) := by
  have folders : ∀ folders : List String, (∀ folder ∈ folders, '.' ∉ folder.toList) →
      ∀ base, ".." ∉ splitAll '/' base → ".." ∉ splitAll '/' (folders.foldl Path.join base) := by
    intro folders
    induction folders with
    | nil => exact fun _ base low => low
    | cons folder folders ih =>
      intro plain base low
      refine ih (fun other among => plain other (List.mem_cons_of_mem _ among)) _ ?_
      exact not_mem_splitAll_join low
        (not_mem_splitAll_of_point (plain folder List.mem_cons_self))
  refine not_mem_splitAll_join (folders _ (fun folder among point => ?_) "" (by decide)) ?_
  · exact (Text.mem_of_mem_splitAll (List.mem_filter.mp among).1 point).2 rfl
  · rw [Text.splitAll_of_not_mem (by simpa using plain), List.mem_singleton]
    intro same
    have size := congrArg String.length same
    rw [String.length_append] at size
    have short : ".java".length = 5 := by decide
    have two : "..".length = 2 := by decide
    omega

/-- The path of a class ends in the file that is named for it. -/
theorem components_pathOf (package : String) {className : String}
    (plain : '/' ∉ className.toList) :
    (Path.components (pathOf package className)).getLast? = some (className ++ ".java") := by
  have size : 5 ≤ (className ++ ".java").length := by
    rw [String.length_append]
    exact Nat.le_add_left 5 _
  have named : Path.saysNothing (className ++ ".java") = false := by
    rw [Path.saysNothing, Bool.or_eq_false_iff, beq_eq_false_iff_ne, beq_eq_false_iff_ne]
    constructor
    · intro same
      exact absurd (same ▸ size) (by decide)
    · intro same
      exact absurd (same ▸ size) (by decide)
  exact Path.components_join_getLast? (by simpa using plain) named

/-- No forwarding class stands above the directory of its sources. -/
theorem not_mem_splitAll_path {package : String} {targets : List Target} {f : ForwardingClass}
    (among : f ∈ generate package targets) : ".." ∉ splitAll '/' f.path := by
  unfold generate at among
  simp only at among
  rw [← List.map_uncurry_zip_eq_zipWith] at among
  obtain ⟨⟨owner, className⟩, pair, rfl⟩ := List.mem_map.mp among
  exact not_mem_splitAll_pathOf package
    (slash_not_mem_className _ className (List.of_mem_zip pair).2)

end Call.ForwardingClass

end Linkage
