import Linkage.Proofs.View.Assembly

/-!
Every name has one status: it can be used, or it is said why not, or no entry that counts has
anything to do with it. Three computations decide on it, the choice for a release, the mediation and
the exclusions, and here they are put side by side.
-/
namespace Linkage.ClassView

open Classpath (Index Owner Record ReleaseMismatch Skipped)
open Mediation (Exclusion Outcome)
open View (Namespace)

variable {mode : Isolation} {release : Nat} {program : Namespace} {ix : Index}
  {o : Outcome} {v : ClassView} {name : String}

/-- An exclusion whose entry holds the class and is not mediated for another reason. -/
def Excludes (ix : Index) (o : Outcome) (name : String) (x : Exclusion) : Prop :=
  x ∈ o.exclusions ∧ o.isMediated x.entry = false ∧
    ∃ r ∈ ix.recordsOf name, r.origin.entry = x.entry

/-- A member of a mediated entry that was to hold the class and was skipped. -/
def Skips (ix : Index) (o : Outcome) (name : String) (s : Skipped) : Prop :=
  s ∈ ix.skipped ∧ s.name = some name ∧ o.isMediated s.entry = true

/-- A mediated entry that has the class, but not for the release. -/
def Mismatches (ix : Index) (o : Outcome) (release : Nat) (name : String)
    (m : ReleaseMismatch) : Prop :=
  m ∈ (ix.select release).mismatches ∧ m.name = name ∧ o.isMediated m.entry = true

/-- What is to be said of a class that cannot be used, the stronger reasons first; nothing only
where no entry that holds it is mediated or excluded. -/
inductive Explains (ix : Index) (o : Outcome) (release : Nat) (name : String) :
    Option Unavailable → Prop
  | excluded {x : Exclusion} (excludes : Excludes ix o name x) :
      Explains ix o release name (some (.scopeExcluded ⟨name, x⟩))
  | skipped {s : Skipped} (visible : ∀ x, ¬ Excludes ix o name x) (skips : Skips ix o name s) :
      Explains ix o release name (some (.skipped s))
  | mismatched {m : ReleaseMismatch} (visible : ∀ x, ¬ Excludes ix o name x)
      (readable : ∀ s, ¬ Skips ix o name s) (mismatches : Mismatches ix o release name m) :
      Explains ix o release name (some (.releaseMismatch m))
  | unheld (visible : ∀ x, ¬ Excludes ix o name x) (readable : ∀ s, ¬ Skips ix o name s)
      (apart : ∀ r ∈ ix.recordsOf name, o.isMediated r.origin.entry = false ∧
        ∀ x ∈ o.exclusions, x.entry ≠ r.origin.entry) :
      Explains ix o release name none

/-- A class can be used just when a mediated entry has a form of it that suits the release. -/
theorem Assembled.lookup_isSome_iff (is : Assembled mode release program ix o v) (name : String) :
    (v.lookup name).isSome ↔ ∃ r ∈ ix.recordsOf name,
      o.isMediated r.origin.entry = true ∧ r.variant.Suits release := by
  have present : (v.lookup name).isSome ↔ ∃ owner, shown ix o release owner name ≠ [] := by
    rw [is.lookup, Option.orElse_eq_orElse, Option.orElse_eq_or, Option.isSome_or, Bool.or_eq_true]
    simp only [List.isSome_head?]
    constructor
    · rintro (there | there)
      · exact ⟨.library, there⟩
      · exact ⟨.program, there⟩
    · rintro ⟨_ | _, there⟩
      · exact .inr there
      · exact .inl there
  rw [present]
  constructor
  · rintro ⟨owner, some⟩
    obtain ⟨w, inside⟩ := List.exists_mem_of_ne_nil _ some
    obtain ⟨chosen, _, mediated⟩ := mem_shown.mp inside
    obtain ⟨member, suits⟩ := Classpath.winnersOf_suits chosen
    exact ⟨w, member, mediated, suits⟩
  · rintro ⟨r, member, mediated, suits⟩
    obtain ⟨w, chosen, same⟩ := Classpath.exists_winner member suits
    exact ⟨w.origin.owner,
      List.ne_nil_of_mem (mem_shown.mpr ⟨chosen, rfl, same ▸ mediated⟩)⟩

section Causes

theorem excludes_of_holder {x : Exclusion} (found : o.excludedHolder? ix name = some x) :
    Excludes ix o name x := by
  have holds := List.find?_some found
  rw [Bool.and_eq_true, Bool.not_eq_true', List.any_eq_true] at holds
  obtain ⟨apart, r, inside, same⟩ := holds
  exact ⟨List.mem_of_find?_eq_some found, apart, r, inside, beq_iff_eq.mp same⟩

theorem not_excludes_of_none (none : o.excludedHolder? ix name = none) (x : Exclusion) :
    ¬ Excludes ix o name x := by
  rintro ⟨member, apart, r, inside, same⟩
  refine List.find?_eq_none.mp none x member ?_
  rw [Bool.and_eq_true, Bool.not_eq_true', List.any_eq_true]
  exact ⟨apart, r, inside, beq_iff_eq.mpr same⟩

/-- The cause that counts: the first that is about the name. -/
def firstCause (causes : List (String × Unavailable)) (name : String) : Option Unavailable :=
  (causes.find? (·.1 == name)).map (·.2)

theorem firstCause_append (causes more : List (String × Unavailable)) (name : String) :
    firstCause (causes ++ more) name = (firstCause causes name <|> firstCause more name) := by
  simp only [firstCause, List.find?_append]
  cases causes.find? (·.1 == name) <;> rfl

/-- The causes that lie in the scopes. -/
def scopeCauses (v : ClassView) (ix : Index) (o : Outcome) : List (String × Unavailable) :=
  ix.names.filterMap fun name =>
    (if v.contains name then none else o.excludedHolder? ix name).map fun x =>
      (name, .scopeExcluded ⟨name, x⟩)

/-- The causes that lie in what could not be read. -/
def skipCauses (v : ClassView) (ix : Index) (o : Outcome) : List (String × Unavailable) :=
  ix.skipped.filterMap fun s =>
    s.name.bind fun name =>
      if v.contains name || !o.isMediated s.entry then none else some (name, .skipped s)

/-- The causes that lie in the release. -/
def releaseCauses (v : ClassView) (o : Outcome) (mismatches : List ReleaseMismatch) :
    List (String × Unavailable) :=
  mismatches.filterMap fun m =>
    if v.contains m.name || !o.isMediated m.entry then none else some (m.name, .releaseMismatch m)

theorem causes_eq (v : ClassView) (ix : Index) (o : Outcome) (mismatches : List ReleaseMismatch) :
    v.causes ix o mismatches =
      scopeCauses v ix o ++ skipCauses v ix o ++ releaseCauses v o mismatches := by
  have scopes : scopeCauses v ix o = ix.names.filterMap fun name =>
      if v.contains name then none
      else (o.excludedHolder? ix name).map fun x => (name, .scopeExcluded ⟨name, x⟩) := by
    apply List.filterMap_congr
    intro name _
    split <;> rfl
  rw [scopes]
  rfl

/-- Nothing is said of a name that can be used. -/
theorem not_contains_of_cause {mismatches : List ReleaseMismatch} {p : String × Unavailable}
    (member : p ∈ v.causes ix o mismatches) : v.contains p.1 = false := by
  rw [causes_eq, List.mem_append, List.mem_append] at member
  rcases member with (member | member) | member
  · obtain ⟨name, _, given⟩ := List.mem_filterMap.mp member
    split at given
    · cases given
    · rename_i apart
      obtain ⟨x, _, rfl⟩ := Option.map_eq_some_iff.mp given
      exact Bool.eq_false_iff.mpr apart
  · obtain ⟨s, _, given⟩ := List.mem_filterMap.mp member
    obtain ⟨name, _, given⟩ := Option.bind_eq_some_iff.mp given
    split at given
    · cases given
    · rename_i apart
      obtain rfl := Option.some.inj given
      exact (Bool.or_eq_false_iff.mp (Bool.eq_false_iff.mpr apart)).1
  · obtain ⟨m, _, given⟩ := List.mem_filterMap.mp member
    split at given
    · cases given
    · rename_i apart
      obtain rfl := Option.some.inj given
      exact (Bool.or_eq_false_iff.mp (Bool.eq_false_iff.mpr apart)).1

theorem firstCause_scopes (absent : v.contains name = false) :
    firstCause (scopeCauses v ix o) name =
      (o.excludedHolder? ix name).map fun x => .scopeExcluded ⟨name, x⟩ := by
  have listed := find?_filterMap_name ix.names (fun n =>
    (if v.contains n then none else o.excludedHolder? ix n).map fun x =>
      Unavailable.scopeExcluded ⟨n, x⟩) name
  simp only [Option.map_map, absent] at listed
  refine Eq.trans listed ?_
  split
  · rfl
  · rename_i unknown
    cases found : o.excludedHolder? ix name with
    | none => rfl
    | some x =>
      obtain ⟨_, _, r, inside, _⟩ := excludes_of_holder found
      exact absurd (Index.mem_names_of_recordsOf inside) unknown

/-- Where each of a list gives at most one cause, the first counts that gives one about the name. -/
theorem firstCause_filterMap {α : Type} {f : α → Option (String × Unavailable)} {about : α → Bool}
    {cause : α → Unavailable} (hit : ∀ a, about a = true → f a = some (name, cause a))
    (miss : ∀ a, about a = false → ∀ p, f a = some p → p.1 ≠ name) (xs : List α) :
    firstCause (xs.filterMap f) name = (xs.find? about).map cause := by
  unfold firstCause
  induction xs with
  | nil => rfl
  | cons a rest ih =>
    cases is : about a with
    | true => simp [hit a is, is]
    | false =>
      cases given : f a with
      | none => simpa [given, is] using ih
      | some p => simpa [given, is, miss a is p given] using ih

theorem firstCause_skipped (absent : v.contains name = false) :
    firstCause (skipCauses v ix o) name =
      (ix.skipped.find? fun s => s.name == some name && o.isMediated s.entry).map .skipped := by
  refine firstCause_filterMap ?_ ?_ ix.skipped
  · intro s about
    rw [Bool.and_eq_true, beq_iff_eq] at about
    simp [about.1, about.2, absent]
  · rintro s apart p given rfl
    obtain ⟨n, named, given⟩ := Option.bind_eq_some_iff.mp given
    split at given
    · cases given
    · obtain rfl := Option.some.inj given
      simp_all

theorem firstCause_released (absent : v.contains name = false)
    (mismatches : List ReleaseMismatch) :
    firstCause (releaseCauses v o mismatches) name =
      (mismatches.find? fun m => m.name == name && o.isMediated m.entry).map
        .releaseMismatch := by
  refine firstCause_filterMap ?_ ?_ mismatches
  · intro m about
    rw [Bool.and_eq_true, beq_iff_eq] at about
    simp [about.1, about.2, absent]
  · rintro m apart p given rfl
    split at given
    · cases given
    · obtain rfl := Option.some.inj given
      simp_all

/-- What is said of a name that cannot be used. -/
theorem Assembled.explainMissing (is : Assembled mode release program ix o v)
    (absent : v.lookup name = none) :
    v.explainMissing name =
      (((o.excludedHolder? ix name).map fun x => .scopeExcluded ⟨name, x⟩) <|>
        (ix.skipped.find? fun s => s.name == some name && o.isMediated s.entry).map .skipped <|>
          ((ix.select release).mismatches.find? fun m =>
            m.name == name && o.isMediated m.entry).map .releaseMismatch) := by
  have absent : v.contains name = false := by rw [contains, absent]; rfl
  have first : v.explainMissing name = firstCause v.unavailable name := rfl
  rw [first, is.unavailable, causes_eq, List.append_assoc, firstCause_append, firstCause_append,
    firstCause_scopes absent, firstCause_skipped absent, firstCause_released absent]

theorem Assembled.explainMissing_of_present (is : Assembled mode release program ix o v)
    (present : (v.lookup name).isSome) : v.explainMissing name = none := by
  rw [ClassView.explainMissing, is.unavailable, Option.map_eq_none_iff, List.find?_eq_none]
  intro p member same
  have absent := not_contains_of_cause member
  rw [beq_iff_eq.mp same, contains, present] at absent
  cases absent

theorem skips_of_found {s : Skipped}
    (found : ix.skipped.find? (fun s => s.name == some name && o.isMediated s.entry) = some s) :
    Skips ix o name s := by
  have about := List.find?_some found
  rw [Bool.and_eq_true, beq_iff_eq] at about
  exact ⟨List.mem_of_find?_eq_some found, about⟩

theorem not_skips_of_none
    (none : ix.skipped.find? (fun s => s.name == some name && o.isMediated s.entry) = none)
    (s : Skipped) : ¬ Skips ix o name s := by
  rintro ⟨member, about⟩
  refine List.find?_eq_none.mp none s member ?_
  rwa [Bool.and_eq_true, beq_iff_eq]

theorem mismatches_of_found {m : ReleaseMismatch}
    (found : (ix.select release).mismatches.find?
      (fun m => m.name == name && o.isMediated m.entry) = some m) :
    Mismatches ix o release name m := by
  have about := List.find?_some found
  rw [Bool.and_eq_true, beq_iff_eq] at about
  exact ⟨List.mem_of_find?_eq_some found, about⟩

theorem not_mismatches_of_none
    (none : (ix.select release).mismatches.find?
      (fun m => m.name == name && o.isMediated m.entry) = none) (m : ReleaseMismatch) :
    ¬ Mismatches ix o release name m := by
  rintro ⟨member, about⟩
  refine List.find?_eq_none.mp none m member ?_
  rwa [Bool.and_eq_true, beq_iff_eq]

/-- A mediated entry that has a class which cannot be used has it for other releases only. -/
theorem Assembled.exists_mismatches (is : Assembled mode release program ix o v)
    (absent : v.lookup name = none) {r : Record} (inside : r ∈ ix.recordsOf name)
    (mediated : o.isMediated r.origin.entry = true) : ∃ m, Mismatches ix o release name m := by
  -- Whatever was chosen of that entry would make the class usable.
  have unsuited : ∀ w ∈ Classpath.winnersOf release (ix.recordsOf name),
      w.origin.entry ≠ r.origin.entry := by
    intro w chosen same
    obtain ⟨member, suits⟩ := Classpath.winnersOf_suits chosen
    have present := (is.lookup_isSome_iff name).mpr ⟨w, member, same ▸ mediated, suits⟩
    rw [absent] at present
    cases present
  obtain ⟨m, found, same⟩ := Classpath.exists_mismatch inside unsuited
  obtain ⟨r', inside', named, _⟩ := Classpath.exists_of_mismatch found
  refine ⟨m, ?_, named.trans (Index.name_of_recordsOf inside'), same ▸ mediated⟩
  refine List.mem_flatMap.mpr ⟨(name, ix.recordsOf name), ?_, found⟩
  exact List.mem_map_of_mem (Index.mem_names_of_recordsOf inside)

theorem Assembled.explains (is : Assembled mode release program ix o v)
    (absent : v.lookup name = none) : Explains ix o release name (v.explainMissing name) := by
  rw [is.explainMissing absent]
  cases excluded : o.excludedHolder? ix name with
  | some x => exact .excluded (excludes_of_holder excluded)
  | none =>
    have visible := not_excludes_of_none excluded
    cases skipped : ix.skipped.find? fun s => s.name == some name && o.isMediated s.entry with
    | some s => exact .skipped visible (skips_of_found skipped)
    | none =>
      have readable := not_skips_of_none skipped
      cases mismatched : (ix.select release).mismatches.find? fun m =>
          m.name == name && o.isMediated m.entry with
      | some m => exact .mismatched visible readable (mismatches_of_found mismatched)
      | none =>
        refine .unheld visible readable ?_
        intro r inside
        have apart : o.isMediated r.origin.entry = false := by
          rw [Bool.eq_false_iff]
          intro mediated
          obtain ⟨m, mismatches⟩ := is.exists_mismatches absent inside mediated
          exact not_mismatches_of_none mismatched m mismatches
        refine ⟨apart, ?_⟩
        intro x member same
        exact visible x ⟨member, same ▸ apart, r, inside, same.symm⟩

/-- A class that violates the scopes is in no mediated entry, and an exclusion holds it. -/
theorem excludedHolder?_of_violation {classes : List String} {x : Mediation.ScopeViolation}
    (violates : o.checkScope ix classes = .error x) :
    (∀ r ∈ ix.recordsOf x.className, o.isMediated r.origin.entry = false) ∧
      o.excludedHolder? ix x.className = some x.exclusion := by
  unfold Outcome.checkScope at violates
  split at violates
  · rename_i found
    obtain rfl := Except.error.inj violates
    obtain ⟨name, _, violation⟩ := List.exists_of_findSome?_eq_some found
    unfold Outcome.violation? at violation
    split at violation
    · cases violation
    · rename_i apart
      obtain ⟨x, holder, rfl⟩ := Option.map_eq_some_iff.mp violation
      refine ⟨?_, holder⟩
      simpa using apart
  · cases violates

end Causes

/-- Every name has one status. A class can be used just when a mediated entry has a form of it that
suits the release, and then nothing is said against it. Of any other class it is said that its scope
is excluded if an excluded entry holds it that is not mediated; else that a member was skipped if
that is so in a mediated entry; else that the release does not match if a mediated entry holds it.
Nothing is said only where no entry that holds it is mediated or excluded. And where the scopes of
called classes are checked, a violation is the one that the view tells of. -/
theorem name_status (done : assemble mode release program ix o = .ok v) :
    (∀ name,
      ((v.lookup name).isSome ↔ ∃ r ∈ ix.recordsOf name,
        o.isMediated r.origin.entry = true ∧ r.variant.Suits release) ∧
      ((v.lookup name).isSome → v.explainMissing name = none) ∧
      (v.lookup name = none → Explains ix o release name (v.explainMissing name))) ∧
    ∀ classes x, o.checkScope ix classes = .error x →
      v.explainMissing x.className = some (.scopeExcluded x) := by
  have is := assembled_of_ok done
  refine ⟨?_, ?_⟩
  · intro name
    exact ⟨is.lookup_isSome_iff name, is.explainMissing_of_present, is.explains⟩
  · intro classes x violates
    obtain ⟨apart, holder⟩ := excludedHolder?_of_violation violates
    have absent : v.lookup x.className = none := by
      rw [← Option.not_isSome_iff_eq_none, is.lookup_isSome_iff]
      rintro ⟨r, inside, mediated, _⟩
      rw [apart r inside] at mediated
      cases mediated
    rw [is.explainMissing absent, holder]
    rfl

/-- A class as it stands in a jar or a directory. -/
private def standing (name : String) (entry : Nat) (owner : Owner) (form : Classpath.Variant) :
    Record :=
  ⟨name, ⟨entry, owner, "archive", "", "", none, ""⟩, form, false, default⟩

/-- A program, a library, and a tool that only the library's tests require. Of two classes the
library has a form for a later release only; one of these the tool has too. -/
def toolbox : Index where
  reports := [⟨⟨0, .directory, "classes", .program⟩, none, false, none, 1⟩,
    Mediation.jar 1 "app" "1.0" [⟨⟨"org.c", "tool"⟩, none, some "test", false⟩],
    Mediation.jar 2 "tool" "1.0" []]
  records := [standing "Main" 0 .program .base, standing "Late" 1 .library (.versioned 21),
    standing "Saw" 1 .library (.versioned 21), standing "Main" 2 .library .base,
    standing "Saw" 2 .library .base]

theorem toolbox_outcome :
    (∀ n, (Mediation.mediate toolbox .runtime).isMediated n = true ↔ n ∈ [0, 1]) ∧
    (Mediation.mediate toolbox .runtime).exclusions.map (·.entry) = [2] := by
  have kept : ((toolbox.reports.filter (Mediation.keeps toolbox .runtime)).map (·.entry)).map
      (·.ordinal) = [0, 1] := by decide +kernel
  refine ⟨?_, by decide +kernel⟩
  intro n
  rw [← kept, ← ((Mediation.mediated_perm toolbox .runtime).map _).mem_iff, Outcome.isMediated,
    List.any_eq_true, List.mem_map]
  simp only [beq_iff_eq]

theorem name_status_toolbox :
    ∃ v, assemble .shared 17 {} toolbox (Mediation.mediate toolbox .runtime) = .ok v ∧
      (v.lookup "Main").isSome ∧ v.explainMissing "Main" = none ∧
      (∃ x, v.explainMissing "Saw" = some (.scopeExcluded ⟨"Saw", x⟩)) ∧
      ∃ m, v.explainMissing "Late" = some (.releaseMismatch m) := by
  obtain ⟨mediated, excluded⟩ := toolbox_outcome
  obtain ⟨x, only, tool⟩ := List.map_eq_singleton_iff.mp excluded
  rcases assemble_cases .shared 17 {} toolbox (Mediation.mediate toolbox .runtime) with
    ⟨_, _, _, _, impossible, _⟩ | ⟨_, v, done, _⟩
  · cases impossible
  · obtain ⟨statuses, _⟩ := name_status done
    simp only [mediated] at statuses
    have present := (statuses "Main").1.mpr (by decide)
    refine ⟨v, done, present, (statuses "Main").2.1 present, ?_, ?_⟩
    · have absent : v.lookup "Saw" = none := by
        rw [← Option.not_isSome_iff_eq_none, (statuses "Saw").1]
        decide
      have excludes : Excludes toolbox (Mediation.mediate toolbox .runtime) "Saw" x := by
        refine ⟨by simp [only], ?_, by rw [tool]; decide⟩
        rw [tool, Bool.eq_false_iff, ne_eq, mediated]
        decide
      have explains := (statuses "Saw").2.2 absent
      generalize v.explainMissing "Saw" = said at explains
      cases explains with
      | excluded _ => exact ⟨_, rfl⟩
      | skipped visible _ => exact absurd excludes (visible x)
      | mismatched visible _ _ => exact absurd excludes (visible x)
      | unheld visible _ _ => exact absurd excludes (visible x)
    · have absent : v.lookup "Late" = none := by
        rw [← Option.not_isSome_iff_eq_none, (statuses "Late").1]
        decide
      have explains := (statuses "Late").2.2 absent
      generalize v.explainMissing "Late" = said at explains
      cases explains with
      | excluded excludes =>
        obtain ⟨member, _, held⟩ := excludes
        rw [only, List.mem_singleton] at member
        rw [member, tool] at held
        exact absurd held (by decide)
      | skipped _ skips => exact absurd skips.1 List.not_mem_nil
      | mismatched _ _ _ => exact ⟨_, rfl⟩
      | unheld _ _ apart =>
        have held : ∃ r ∈ toolbox.recordsOf "Late", r.origin.entry ∈ [0, 1] := by decide
        obtain ⟨r, inside, within⟩ := held
        rw [← mediated, (apart r inside).1] at within
        cases within

end Linkage.ClassView
