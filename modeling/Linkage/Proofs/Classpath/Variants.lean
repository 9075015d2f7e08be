import Linkage.Proofs.Classpath.Accounting

/-!
What counts at a release, for each class and each entry that has it: one record, of the greatest
release that is not too late or else the first base form, or one report that all of the forms are
too late. Moving on to a later release never takes a class away, nor gives an earlier form of it.
-/
namespace Linkage.Classpath

section Choice
variable {target : Nat} {records : List Record} {o : Offer} {r w : Record}

/-- What an offer holds once all of the records have been gone through. -/
structure Offer.Best (target : Nat) (records : List Record) (o : Offer) : Prop where
  base : o.base = records.find? (·.variant == .base)
  fits : ∀ release w, o.versioned = some (release, w) →
    w ∈ records ∧ w.variant = .versioned release ∧ release ≤ target
  greatest : ∀ r ∈ records, ∀ n, r.variant = .versioned n → n ≤ target →
    ∃ release w, o.versioned = some (release, w) ∧ n ≤ release
  late : ∀ n, o.above = some n → target < n ∧ ∃ r ∈ records, r.variant = .versioned n
  least : ∀ r ∈ records, ∀ n, r.variant = .versioned n → target < n →
    ∃ low, o.above = some low ∧ low ≤ n

namespace Offer.Best

theorem start (target : Nat) : Best target [] {} :=
  ⟨rfl, by simp, by simp, by simp, by simp⟩

/-- A base form only counts if it is the first. -/
theorem add_base (best : Best target records o) (form : r.variant = .base) :
    Best target (records ++ [r]) (o.add target r) := by
  obtain ⟨base, fits, greatest, late, least⟩ := best
  simp only [Offer.add, form]
  constructor
  case base => simp [List.find?_append, base, form]
  -- The releases are as they were, and the new record has none.
  all_goals grind

/-- A form that is not too late counts if it is later than what was there. -/
theorem add_fits (best : Best target records o) {n : Nat} (form : r.variant = .versioned n)
    (fit : n ≤ target) : Best target (records ++ [r]) (o.add target r) := by
  obtain ⟨base, fits, greatest, late, least⟩ := best
  simp only [Offer.add, form, if_pos fit]
  constructor
  case base =>
    simp only [List.find?_append, List.find?_singleton, form]
    grind
  -- What was there stays if it is as late, and then it is as late for the new record too.
  all_goals grind

/-- A form that is too late only lowers the least release above. -/
theorem add_late (best : Best target records o) {n : Nat} (form : r.variant = .versioned n)
    (beyond : target < n) : Best target (records ++ [r]) (o.add target r) := by
  obtain ⟨base, fits, greatest, late, least⟩ := best
  simp only [Offer.add, form, if_neg (Nat.not_le.mpr beyond)]
  constructor
  case base => simp [List.find?_append, form, base]
  all_goals grind

theorem add (best : Best target records o) (r : Record) :
    Best target (records ++ [r]) (o.add target r) := by
  cases form : r.variant with
  | base => exact best.add_base form
  | versioned n =>
    by_cases fit : n ≤ target
    · exact best.add_fits form fit
    · exact best.add_late form (Nat.lt_of_not_le fit)

theorem foldl {more : List Record} (best : Best target records o) :
    Best target (records ++ more) (more.foldl (Offer.add target) o) := by
  induction more generalizing records o with
  | nil => simpa using best
  | cons r rest ih =>
    have later := ih (best.add r)
    rwa [List.append_assoc, List.singleton_append] at later

theorem all (target : Nat) (records : List Record) :
    Best target records (records.foldl (Offer.add target) {}) :=
  foldl (start target)

end Offer.Best

/-- The record that counts: a form of the greatest release that is not too late or, if every one
is, the first base form. -/
def Counts (target : Nat) (records : List Record) (w : Record) : Prop :=
  (∃ n, w ∈ records ∧ w.variant = .versioned n ∧ n ≤ target ∧
    ∀ r ∈ records, ∀ m, r.variant = .versioned m → m ≤ target → m ≤ n) ∨
  ((∀ r ∈ records, ∀ m, r.variant = .versioned m → target < m) ∧
    records.find? (·.variant == .base) = some w)

/-- All forms are for releases that are too late, the earliest for a certain one. -/
def Late (target : Nat) (records : List Record) (lowest : Nat) : Prop :=
  (∃ r ∈ records, r.variant = .versioned lowest) ∧
    ∀ r ∈ records, ∃ n, r.variant = .versioned n ∧ target < n ∧ lowest ≤ n

theorem selectVariant_spec (target : Nat) (some : records ≠ []) :
    (∃ w, selectVariant target records = .ok w ∧ Counts target records w) ∨
    ∃ m, selectVariant target records = .error m ∧ Late target records m.lowest := by
  have best := Offer.Best.all target records
  unfold selectVariant
  simp only
  cases versioned : (records.foldl (Offer.add target) {}).versioned with
  | some found =>
    obtain ⟨n, w⟩ := found
    refine .inl ⟨w, rfl, .inl ⟨n, ?_⟩⟩
    obtain ⟨inside, form, fit⟩ := best.fits n w versioned
    refine ⟨inside, form, fit, ?_⟩
    intro r listed m other fits
    obtain ⟨_, _, same, le⟩ := best.greatest r listed m other fits
    rw [versioned] at same
    obtain ⟨rfl, _⟩ := Prod.mk.inj (Option.some.inj same)
    exact le
  | none =>
    have late : ∀ r ∈ records, ∀ m, r.variant = .versioned m → target < m := by
      intro r listed m form
      by_contra fit
      obtain ⟨_, _, same, _⟩ := best.greatest r listed m form (Nat.le_of_not_lt fit)
      rw [versioned] at same
      cases same
    cases base : (records.foldl (Offer.add target) {}).base with
    | some w => exact .inl ⟨w, rfl, .inr ⟨late, best.base ▸ base⟩⟩
    | none =>
      refine .inr ⟨_, rfl, ?_⟩
      rw [best.base, List.find?_eq_none] at base
      have forms : ∀ r ∈ records, ∃ n, r.variant = .versioned n := by
        intro r listed
        cases form : r.variant with
        | base => exact absurd (beq_iff_eq.mpr form) (base r listed)
        | versioned n => exact ⟨n, rfl⟩
      obtain ⟨r, listed⟩ := List.exists_mem_of_ne_nil records some
      obtain ⟨n, form⟩ := forms r listed
      obtain ⟨low, above, _⟩ := best.least r listed n form (late r listed n form)
      simp only [above, Option.getD_some]
      refine ⟨(best.late low above).2, ?_⟩
      intro q inside
      obtain ⟨n, form⟩ := forms q inside
      obtain ⟨_, same, le⟩ := best.least q inside n form (late q inside n form)
      rw [above] at same
      obtain rfl := Option.some.inj same
      exact ⟨n, form, late q inside n form, le⟩

theorem Variant.not_suits_iff {form : Variant} :
    ¬ form.Suits target ↔ ∃ n, form = .versioned n ∧ target < n := by
  cases form <;> simp [Variant.Suits]

theorem Counts.suits (counts : Counts target records w) :
    w ∈ records ∧ w.variant.Suits target := by
  rcases counts with ⟨n, inside, form, fit, _⟩ | ⟨_, first⟩
  · rw [form]
    exact ⟨inside, fit⟩
  · have base := List.find?_some first
    rw [beq_iff_eq] at base
    rw [base]
    exact ⟨List.mem_of_find?_eq_some first, trivial⟩

theorem Late.not_suits {lowest : Nat} (late : Late target records lowest) (inside : r ∈ records) :
    ¬ r.variant.Suits target := by
  obtain ⟨n, form, beyond, _⟩ := late.2 r inside
  exact Variant.not_suits_iff.mpr ⟨n, form, beyond⟩

/-- A form that suits a release suits the later ones. -/
theorem Variant.Suits.mono {form : Variant} {later : Nat} (suits : form.Suits target)
    (le : target ≤ later) : form.Suits later := by
  cases form with
  | base => trivial
  | versioned n => exact Nat.le_trans suits le

/-- What counts at a later release is no earlier form. -/
theorem Counts.rank_le {later : Nat} {w' : Record} (counts : Counts target records w)
    (counts' : Counts later records w') (le : target ≤ later) :
    w.variant.rank ≤ w'.variant.rank := by
  rcases counts with ⟨n, inside, form, fit, _⟩ | ⟨_, first⟩
  · rcases counts' with ⟨n', _, form', _, greatest⟩ | ⟨late, _⟩
    · have := greatest w inside n form (fit.trans le)
      rw [form, form', Variant.rank, Variant.rank]
      omega
    · have := late w inside n form
      omega
  · have base := List.find?_some first
    rw [beq_iff_eq] at base
    rw [base]
    exact Nat.zero_le _

end Choice

/-- The records that count of a class in an entry. -/
def Selection.winnersAt (s : Selection) (name : String) (e : Entry) : List Record :=
  s.symbols.flatMap fun (n, winners) =>
    if n = name then winners.filter (·.origin.entry == e.ordinal) else []

/-- The reports that no form of a class in an entry counts. -/
def Selection.mismatchesAt (s : Selection) (name : String) (e : Entry) : List ReleaseMismatch :=
  s.mismatches.filter fun m => m.name == name && m.entry == e.ordinal

/-- Going through names of which one alone gives anything comes down to that one. -/
theorem flatMap_only {α : Type} {names : List String} (nodup : names.Nodup) (name : String)
    {give : String → List α} (only : ∀ n ∈ names, n ≠ name → give n = [])
    (absent : name ∉ names → give name = []) : names.flatMap give = give name := by
  induction names with
  | nil => exact (absent List.not_mem_nil).symm
  | cons n rest ih =>
    obtain ⟨new, nodup⟩ := List.nodup_cons.mp nodup
    have others : ∀ m ∈ rest, m ≠ name → give m = [] :=
      fun m listed => only m (List.mem_cons_of_mem _ listed)
    rw [List.flatMap_cons]
    by_cases same : n = name
    · subst same
      have nothing : rest.flatMap give = [] := by
        rw [List.flatMap_eq_nil_iff]
        intro m listed
        exact others m listed (by rintro rfl; exact new listed)
      rw [nothing, List.append_nil]
    · rw [only n List.mem_cons_self same, List.nil_append]
      refine ih nodup others ?_
      intro unlisted
      exact absent (by simp [Ne.symm same, unlisted])

namespace Index
variable {ix : Index} {release : Nat} {name : String} {e : Entry}

theorem recordsOf_eq_nil (absent : name ∉ ix.names) : ix.recordsOf name = [] := by
  rw [List.eq_nil_iff_forall_not_mem]
  intro r inside
  exact absent (mem_names_of_recordsOf inside)

theorem winnersAt_select : (ix.select release).winnersAt name e =
    (winnersOf release (ix.recordsOf name)).filter (·.origin.entry == e.ordinal) := by
  rw [Selection.winnersAt, flatMap_select release (by simp),
    flatMap_only ix.nodup_names name]
  · simp
  · intro n _ other
    simp [other]
  · intro absent
    simp [recordsOf_eq_nil absent, winnersOf, byEntry]

theorem mismatches_select : (ix.select release).mismatches =
    ix.names.flatMap fun n => mismatchesOf release (ix.recordsOf n) := by
  simp only [select, symbols, List.flatMap_map]

theorem mismatchesAt_select : (ix.select release).mismatchesAt name e =
    (mismatchesOf release (ix.recordsOf name)).filter (·.entry == e.ordinal) := by
  have named {n : String} {m : ReleaseMismatch}
      (inside : m ∈ mismatchesOf release (ix.recordsOf n)) : m.name = n := by
    obtain ⟨r, found, name, _⟩ := exists_of_mismatch inside
    exact name.trans (name_of_recordsOf found)
  rw [Selection.mismatchesAt, mismatches_select, List.filter_flatMap,
    flatMap_only ix.nodup_names name]
  · apply List.filter_congr
    intro m inside
    simp [named inside]
  · intro n _ other
    rw [List.filter_eq_nil_iff]
    intro m inside
    simp [named inside, other]
  · intro absent
    simp [recordsOf_eq_nil absent, mismatchesOf, byEntry]

/-- The report on a class in an entry that has it, if none of the forms counts. -/
def refused (ix : Index) (release : Nat) (name : String) (e : Entry) : Option ReleaseMismatch :=
  if ix.recordsIn name e = [] then none
  else match selectVariant release (ix.recordsIn name e) with
    | .error m => some m
    | .ok _ => none

theorem entry_of_offered {w : Record} (offers : w ∈ ix.offered release name e) :
    w ∈ ix.recordsIn name e ∧ w.origin.entry = e.ordinal := by
  cases chosen : selectVariant release (ix.recordsIn name e) with
  | error m => simp [offered, chosen, Except.toOption] at offers
  | ok r =>
    obtain rfl : r = w := by simpa [offered, chosen, Except.toOption] using offers
    have inside := (selectVariant_suits chosen).1
    exact ⟨inside, beq_iff_eq.mp (List.mem_filter.mp inside).2⟩

theorem entry_of_refused {m : ReleaseMismatch} (refuses : m ∈ ix.refused release name e) :
    m.name = name ∧ m.entry = e.ordinal := by
  unfold refused at refuses
  split at refuses
  · cases refuses
  rename_i some
  obtain ⟨r, more, records⟩ := List.exists_cons_of_ne_nil some
  have inside : r ∈ ix.recordsIn name e := by simp [records]
  obtain ⟨known, own⟩ := List.mem_filter.mp inside
  split at refuses
  · rename_i failed
    obtain rfl := Option.some.inj refuses
    rw [records] at failed
    obtain ⟨sameName, sameEntry⟩ := selectVariant_mismatch failed
    exact ⟨sameName.trans (name_of_recordsOf known), sameEntry.trans (beq_iff_eq.mp own)⟩
  · cases refuses

section Gather
variable {holding : Entry → Except String Holding} {entries : List Entry}
  (distinct : (entries.map (·.ordinal)).Nodup)
include distinct

/-- The reports on a class are those of the entries, in the order of the class path. -/
theorem mismatchesOf_gather (release : Nat) (name : String) :
    mismatchesOf release ((gather holding entries).recordsOf name) =
      entries.filterMap ((gather holding entries).refused release name) := by
  rw [mismatchesOf, byEntry_gather distinct, List.filterMap_filter, List.filterMap_map]
  apply List.filterMap_congr
  intro e _
  cases inside : (gather holding entries).recordsIn name e with
  | nil => simp [refused, inside]
  | cons r more =>
    cases chosen : selectVariant release (r :: more) <;> simp [refused, inside, chosen]

theorem winnersAt_gather (release : Nat) (name : String) (listed : e ∈ entries) :
    ((gather holding entries).select release).winnersAt name e =
      ((gather holding entries).offered release name e).toList := by
  rw [winnersAt_select, winnersOf_gather distinct, List.filterMap_eq_flatMap_toList]
  refine filter_flatMap_ordinal ?_ distinct listed
  intro e w inside
  exact (entry_of_offered (Option.mem_toList.mp inside)).2

theorem mismatchesAt_gather (release : Nat) (name : String) (listed : e ∈ entries) :
    ((gather holding entries).select release).mismatchesAt name e =
      ((gather holding entries).refused release name e).toList := by
  rw [mismatchesAt_select, mismatchesOf_gather distinct, List.filterMap_eq_flatMap_toList]
  refine filter_flatMap_ordinal ?_ distinct listed
  intro e m inside
  exact (entry_of_refused (Option.mem_toList.mp inside)).2

/-- At a release, a class of an entry has one record that counts or one report. -/
theorem selected_at (release : Nat) (name : String) (listed : e ∈ entries)
    (has : (gather holding entries).recordsIn name e ≠ []) :
    (∃ w, ((gather holding entries).select release).winnersAt name e = [w] ∧
      ((gather holding entries).select release).mismatchesAt name e = [] ∧
      Counts release ((gather holding entries).recordsIn name e) w) ∨
    (∃ m, ((gather holding entries).select release).winnersAt name e = [] ∧
      ((gather holding entries).select release).mismatchesAt name e = [m] ∧
      Late release ((gather holding entries).recordsIn name e) m.lowest) := by
  rw [winnersAt_gather distinct release name listed,
    mismatchesAt_gather distinct release name listed]
  rcases selectVariant_spec release has with ⟨w, chosen, counts⟩ | ⟨m, failed, late⟩
  · exact .inl ⟨w, by simp [offered, chosen, Except.toOption], by simp [refused, chosen], counts⟩
  · refine .inr ⟨m, by simp [offered, failed, Except.toOption], ?_, late⟩
    simp [refused, failed, has]

/-- There is a report just when every form is for a later release. -/
theorem mismatchesAt_ne_nil_iff (release : Nat) (name : String) (listed : e ∈ entries)
    (has : (gather holding entries).recordsIn name e ≠ []) :
    ((gather holding entries).select release).mismatchesAt name e ≠ [] ↔
      ∀ r ∈ (gather holding entries).recordsIn name e,
        ∃ n, r.variant = .versioned n ∧ release < n := by
  rcases selected_at distinct release name listed has with ⟨w, _, none, counts⟩ | ⟨m, _, one, late⟩
  · rw [none]
    obtain ⟨inside, suits⟩ := counts.suits
    refine iff_of_false (by simp) ?_
    intro all
    exact Variant.not_suits_iff.mpr (all w inside) suits
  · rw [one]
    refine iff_of_true (by simp) ?_
    intro r inside
    exact Variant.not_suits_iff.mp (late.not_suits inside)

/-- The records that count of a class stand in the order of the entries, which have it. -/
theorem selected_in_order {winners : List Record}
    (symbol : (name, winners) ∈ ((gather holding entries).select release).symbols) :
    winners.Pairwise (place entries · < place entries ·) ∧
      ∀ w ∈ winners, ∃ e ∈ entries, w ∈ (gather holding entries).recordsIn name e := by
  obtain ⟨⟨_, records⟩, known, same⟩ := List.mem_map.mp (List.mem_of_mem_filter symbol)
  obtain ⟨rfl, rfl⟩ := Prod.mk.inj same
  obtain ⟨_, rfl⟩ := mem_symbols.mp known
  rw [winnersOf_gather distinct]
  constructor
  · rw [List.pairwise_filterMap, List.pairwise_iff_getElem]
    intro i j hi hj before a first b second
    rw [place_of_entry distinct hi (entry_of_offered first).2,
      place_of_entry distinct hj (entry_of_offered second).2]
    exact before
  · intro w inside
    obtain ⟨e, listed, offers⟩ := List.mem_filterMap.mp inside
    exact ⟨e, listed, (entry_of_offered offers).1⟩

theorem mismatch_listed {m : ReleaseMismatch}
    (inside : m ∈ ((gather holding entries).select release).mismatches) :
    ∃ e ∈ entries, m.entry = e.ordinal ∧ (gather holding entries).recordsIn m.name e ≠ [] := by
  rw [mismatches_select] at inside
  obtain ⟨name, _, inside⟩ := List.mem_flatMap.mp inside
  rw [mismatchesOf_gather distinct] at inside
  obtain ⟨e, listed, refuses⟩ := List.mem_filterMap.mp inside
  obtain ⟨rfl, own⟩ := entry_of_refused refuses
  refine ⟨e, listed, own, ?_⟩
  intro empty
  simp [refused, empty] at refuses

theorem selected_later {release later : Nat} (le : release ≤ later) {w : Record}
    (listed : e ∈ entries)
    (wins : ((gather holding entries).select release).winnersAt name e = [w]) :
    ∃ w', ((gather holding entries).select later).winnersAt name e = [w'] ∧
      w.variant.rank ≤ w'.variant.rank := by
  have inside : w ∈ (gather holding entries).offered release name e := by
    rw [winnersAt_gather distinct release name listed] at wins
    exact Option.mem_toList.mp (wins ▸ List.mem_singleton_self w)
  have has := List.ne_nil_of_mem (entry_of_offered inside).1
  rcases selected_at distinct release name listed has with ⟨w₁, one, _, counts⟩ | ⟨_, none, _⟩
  · obtain rfl : w₁ = w := by simpa [wins] using one.symm
    rcases selected_at distinct later name listed has with
      ⟨w', wins', _, counts'⟩ | ⟨m, _, _, late⟩
    · exact ⟨w', wins', counts.rank_le counts' le⟩
    · obtain ⟨there, suits⟩ := counts.suits
      exact absurd (suits.mono le) (late.not_suits there)
  · rw [wins] at none
    cases none

end Gather

/-- What an index of entries with ordinals of their own chooses, at all releases. -/
theorem variants_selected (holding : Entry → Except String Holding) (entries : List Entry)
    (distinct : (entries.map (·.ordinal)).Nodup) :
    let ix := gather holding entries
    (∀ release name, ∀ e ∈ entries, ix.recordsIn name e ≠ [] →
      ((∃ w, (ix.select release).winnersAt name e = [w] ∧
          (ix.select release).mismatchesAt name e = [] ∧
          Counts release (ix.recordsIn name e) w) ∨
        (∃ m, (ix.select release).winnersAt name e = [] ∧
          (ix.select release).mismatchesAt name e = [m] ∧
          Late release (ix.recordsIn name e) m.lowest)) ∧
      ((ix.select release).mismatchesAt name e ≠ [] ↔
        ∀ r ∈ ix.recordsIn name e, ∃ n, r.variant = .versioned n ∧ release < n)) ∧
    (∀ release name winners, (name, winners) ∈ (ix.select release).symbols →
      winners.Pairwise (place entries · < place entries ·) ∧
      ∀ w ∈ winners, ∃ e ∈ entries, w ∈ ix.recordsIn name e) ∧
    (∀ release, ∀ m ∈ (ix.select release).mismatches, ∃ e ∈ entries,
      m.entry = e.ordinal ∧ ix.recordsIn m.name e ≠ []) ∧
    ∀ release later, release ≤ later → ∀ name, ∀ e ∈ entries, ∀ w,
      (ix.select release).winnersAt name e = [w] →
      ∃ w', (ix.select later).winnersAt name e = [w'] ∧ w.variant.rank ≤ w'.variant.rank := by
  intro ix
  refine ⟨?_, ?_, ?_, ?_⟩
  · intro release name e listed has
    exact ⟨selected_at distinct release name listed has,
      mismatchesAt_ne_nil_iff distinct release name listed has⟩
  · intro release name winners symbol
    exact selected_in_order distinct symbol
  · intro release m inside
    exact mismatch_listed distinct inside
  · intro release later le name e listed w wins
    exact selected_later distinct le listed wins

/-- An archive that has a class for two releases only. -/
def twoForms : Holding := .archive false {
  names := [manifestMember, "META-INF/versions/11/Main.class", "META-INF/versions/17/Main.class"]
  read := fun member =>
    if member = manifestMember then .ok (Text.encodeUtf8 "Multi-Release: true")
    else .ok (ClassFile.ClassSpec.encode { name := "Main" }) }

def formsEntry : Entry := ⟨0, .archive, "forms.jar", .library⟩

abbrev formsIndex : Index := gather (fun _ => .ok twoForms) [formsEntry]

theorem mem_twoForms {form : Variant} :
    (∃ r ∈ formsIndex.recordsIn "Main" formsEntry, r.variant = form) ↔
      form = .versioned 11 ∨ form = .versioned 17 := by
  have forms : ((scanEntry formsEntry (.ok twoForms)).records.filter (·.name == "Main")).map
      (·.variant) = [.versioned 11, .versioned 17] := by
    decide +kernel
  have sorted : ((formsIndex.recordsIn "Main" formsEntry).map (·.variant)).Perm
      [.versioned 11, .versioned 17] := by
    rw [recordsIn_gather (by decide) (List.mem_singleton_self _), found, ← forms]
    exact ((List.mergeSort_perm _ _).filter _).map _
  rw [← List.mem_map, sorted.mem_iff]
  simp

theorem variants_selected_twoForms :
    ([formsEntry].map (·.ordinal)).Nodup ∧
    (∃ m, (formsIndex.select 8).mismatchesAt "Main" formsEntry = [m] ∧ m.lowest = 11) ∧
    ∃ w w', (formsIndex.select 12).winnersAt "Main" formsEntry = [w] ∧
      w.variant = .versioned 11 ∧ (formsIndex.select 21).winnersAt "Main" formsEntry = [w'] ∧
      w.variant.rank ≤ w'.variant.rank := by
  have distinct : ([formsEntry].map (·.ordinal)).Nodup := by decide
  have listed : formsEntry ∈ [formsEntry] := List.mem_singleton_self _
  obtain ⟨r, inside, eleven⟩ := mem_twoForms.mpr (.inl rfl)
  have has : formsIndex.recordsIn "Main" formsEntry ≠ [] := List.ne_nil_of_mem inside
  obtain ⟨selected, _, _, later⟩ := variants_selected (fun _ => .ok twoForms) _ distinct
  refine ⟨distinct, ?_, ?_⟩
  · rcases (selected 8 "Main" formsEntry listed has).1 with
      ⟨w, _, _, counts⟩ | ⟨m, _, one, ⟨least, there, form⟩, all⟩
    · obtain ⟨there, suits⟩ := counts.suits
      rcases mem_twoForms.mp ⟨w, there, rfl⟩ with form | form <;> rw [form] at suits <;>
        exact absurd suits (by decide)
    · refine ⟨m, one, ?_⟩
      obtain ⟨n, same, _, le⟩ := all r inside
      rcases mem_twoForms.mp ⟨least, there, form⟩ with same' | same' <;> simp_all
  · rcases (selected 12 "Main" formsEntry listed has).1 with
      ⟨w, one, _, counts⟩ | ⟨m, _, _, late⟩
    · obtain ⟨w', one', le⟩ := later 12 21 (by decide) "Main" formsEntry listed w one
      refine ⟨w, w', one, ?_, one', le⟩
      obtain ⟨there, suits⟩ := counts.suits
      rcases mem_twoForms.mp ⟨w, there, rfl⟩ with form | form
      · exact form
      · rw [form] at suits
        exact absurd suits (by decide)
    · have unsuited := late.not_suits inside
      rw [eleven] at unsuited
      exact absurd (by decide) unsuited

end Index

end Linkage.Classpath
