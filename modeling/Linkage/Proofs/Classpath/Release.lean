import Linkage.Classpath.Release
import Mathlib.Data.List.Basic

/-!
What is chosen for a release, told without the search for it: an entry has something to offer just
when one of its forms suits the release, and what it offers is one of these. The records of a class
are taken apart by their entries first, which keeps them all and mixes none.
-/
namespace Linkage.Classpath

/-- A form that may be used at a release: the base form, or one for a release not above it. -/
def Variant.Suits (target : Nat) : Variant → Prop
  | .base => True
  | .versioned release => release ≤ target

instance (target : Nat) (form : Variant) : Decidable (form.Suits target) :=
  match form with
  | .base => .isTrue trivial
  | .versioned release => inferInstanceAs (Decidable (release ≤ target))

section Offer
variable {target : Nat} {o : Offer} {r w : Record} {records : List Record}

/-- The record that an offer comes down to. -/
def Offer.pick? (o : Offer) : Option Record :=
  match o.versioned with
  | some (_, r) => some r
  | none => o.base

/-- A record that does not suit changes nothing; one that does is taken, or one was there before. -/
theorem Offer.add_pick? (target : Nat) (o : Offer) (r : Record) :
    (¬ r.variant.Suits target ∧ (o.add target r).pick? = o.pick?) ∨
    (r.variant.Suits target ∧
      ((o.add target r).pick? = some r ∨
        ((o.add target r).pick? = o.pick? ∧ o.pick? ≠ none))) := by
  cases form : r.variant with
  | base =>
    refine .inr ⟨trivial, ?_⟩
    cases versioned : o.versioned with
    | some p => simp [Offer.add, Offer.pick?, form, versioned]
    | none => cases base : o.base <;> simp [Offer.add, Offer.pick?, form, versioned, base]
  | versioned release =>
    by_cases fits : release ≤ target
    · refine .inr ⟨fits, ?_⟩
      cases versioned : o.versioned with
      | none => simp [Offer.add, Offer.pick?, form, fits, versioned]
      | some p =>
        by_cases higher : p.1 < release
        · simp [Offer.add, Offer.pick?, form, fits, versioned, higher]
        · simp [Offer.add, Offer.pick?, form, fits, versioned, higher]
    · exact .inl ⟨fits, by simp [Offer.add, Offer.pick?, form, fits]⟩

theorem Offer.pick?_foldl (records : List Record) (o : Offer) :
    (∀ w, (records.foldl (Offer.add target) o).pick? = some w →
      o.pick? = some w ∨ (w ∈ records ∧ w.variant.Suits target)) ∧
    ((records.foldl (Offer.add target) o).pick? = none →
      o.pick? = none ∧ ∀ r ∈ records, ¬ r.variant.Suits target) := by
  induction records generalizing o with
  | nil => simp
  | cons r rest ih =>
    obtain ⟨sound, complete⟩ := ih (o.add target r)
    rw [List.foldl_cons]
    constructor
    · intro w found
      rcases sound w found with early | ⟨member, suits⟩
      · rcases o.add_pick? target r with ⟨_, same⟩ | ⟨suits, new | ⟨same, _⟩⟩
        · exact .inl (same.symm.trans early)
        · obtain rfl := Option.some.inj (new.symm.trans early)
          exact .inr ⟨List.mem_cons_self, suits⟩
        · exact .inl (same.symm.trans early)
      · exact .inr ⟨List.mem_cons_of_mem _ member, suits⟩
    · intro none
      obtain ⟨early, others⟩ := complete none
      rcases o.add_pick? target r with ⟨unsuited, same⟩ | ⟨_, new | ⟨same, some⟩⟩
      · exact ⟨same.symm.trans early, List.forall_mem_cons.mpr ⟨unsuited, others⟩⟩
      · rw [new] at early
        cases early
      · exact absurd (same.symm.trans early) some

theorem selectVariant_eq_ok_iff :
    selectVariant target records = .ok w ↔
      (records.foldl (Offer.add target) {}).pick? = some w := by
  unfold selectVariant Offer.pick?
  simp only
  rcases (records.foldl (Offer.add target) {}).versioned with _ | ⟨release, r⟩
  · cases (records.foldl (Offer.add target) {}).base <;> simp
  · simp

/-- What an entry offers at a release is one of its records, in a form that suits. -/
theorem selectVariant_suits (chosen : selectVariant target records = .ok w) :
    w ∈ records ∧ w.variant.Suits target := by
  rw [selectVariant_eq_ok_iff] at chosen
  rcases (Offer.pick?_foldl records {}).1 w chosen with none | found
  · cases none
  · exact found

/-- An entry that has a form that suits does offer one. -/
theorem exists_selectVariant (member : r ∈ records) (suits : r.variant.Suits target) :
    ∃ w, selectVariant target records = .ok w := by
  cases picked : (records.foldl (Offer.add target) {}).pick? with
  | none => exact absurd suits (((Offer.pick?_foldl records {}).2 picked).2 r member)
  | some w => exact ⟨w, selectVariant_eq_ok_iff.mpr picked⟩

/-- A mismatch names the class and the entry of the records that none suits of. -/
theorem selectVariant_mismatch {m : ReleaseMismatch}
    (failed : selectVariant target (r :: records) = .error m) :
    m.name = r.name ∧ m.entry = r.origin.entry := by
  unfold selectVariant at failed
  simp only at failed
  split at failed
  · cases failed
  · cases failed
  · obtain rfl := Except.error.inj failed
    exact ⟨rfl, rfl⟩

end Offer

section ByEntry
variable {target : Nat} {r w : Record} {records group : List Record}

theorem byEntry_cons (r : Record) (records : List Record) :
    ∃ more others, byEntry (r :: records) = (r :: more) :: others := by
  rw [byEntry]
  split
  · split
    · exact ⟨_, _, rfl⟩
    · exact ⟨_, _, rfl⟩
  · exact ⟨_, _, rfl⟩

/-- The groups hold what there is, in its order. -/
theorem flatten_byEntry (records : List Record) : (byEntry records).flatten = records := by
  induction records with
  | nil => rfl
  | cons r rest ih =>
    rw [byEntry]
    split
    · rename_i next more others shape
      rw [shape] at ih
      split
      · rw [List.flatten_cons, List.cons_append, ← List.flatten_cons, ih]
      · rw [List.flatten_cons, ih, List.singleton_append]
    · rw [List.flatten_cons, ih, List.singleton_append]

/-- No group is empty, and each is of one entry. -/
theorem mem_byEntry (member : group ∈ byEntry records) :
    ∃ r more, group = r :: more ∧ ∀ q ∈ group, q.origin.entry = r.origin.entry := by
  induction records generalizing group with
  | nil => cases member
  | cons r rest ih =>
    rw [byEntry] at member
    split at member
    · rename_i next more others shape
      rw [shape] at ih
      split at member
      · rename_i same
        rcases List.mem_cons.mp member with rfl | member
        · refine ⟨r, next :: more, rfl, ?_⟩
          obtain ⟨first, _, rfl', all⟩ := ih List.mem_cons_self
          obtain ⟨rfl, _⟩ := List.cons.inj rfl'
          intro q inside
          rcases List.mem_cons.mp inside with rfl | inside
          · rfl
          · exact (all q inside).trans same
        · exact ih (List.mem_cons_of_mem _ member)
      · rcases List.mem_cons.mp member with rfl | member
        · exact ⟨r, [], rfl, by simp⟩
        · exact ih member
    · rcases List.mem_cons.mp member with rfl | member
      · exact ⟨r, [], rfl, by simp⟩
      · exact ih member

theorem exists_group (member : r ∈ records) : ∃ group ∈ byEntry records, r ∈ group := by
  rw [← flatten_byEntry records] at member
  exact List.mem_flatten.mp member

theorem mem_winnersOf :
    w ∈ winnersOf target records ↔
      ∃ group ∈ byEntry records, selectVariant target group = .ok w := by
  simp only [winnersOf, List.mem_filterMap]
  constructor
  · rintro ⟨group, inside, chosen⟩
    refine ⟨group, inside, ?_⟩
    cases result : selectVariant target group with
    | error m => simp [result, Except.toOption] at chosen
    | ok r => simpa [result, Except.toOption] using chosen
  · rintro ⟨group, inside, chosen⟩
    exact ⟨group, inside, by rw [chosen]; rfl⟩

theorem mem_mismatchesOf {m : ReleaseMismatch} :
    m ∈ mismatchesOf target records ↔
      ∃ group ∈ byEntry records, selectVariant target group = .error m := by
  simp only [mismatchesOf, List.mem_filterMap]
  constructor
  · rintro ⟨group, inside, failed⟩
    refine ⟨group, inside, ?_⟩
    cases result : selectVariant target group with
    | error m => simpa [result] using failed
    | ok r => simp [result] at failed
  · rintro ⟨group, inside, failed⟩
    exact ⟨group, inside, by rw [failed]⟩

/-- What is chosen is one of the records, in a form that suits. -/
theorem winnersOf_suits (chosen : w ∈ winnersOf target records) :
    w ∈ records ∧ w.variant.Suits target := by
  obtain ⟨group, inside, chosen⟩ := mem_winnersOf.mp chosen
  obtain ⟨member, suits⟩ := selectVariant_suits chosen
  rw [← flatten_byEntry records]
  exact ⟨List.mem_flatten_of_mem inside member, suits⟩

/-- Where a record suits, one of its entry is chosen. -/
theorem exists_winner (member : r ∈ records) (suits : r.variant.Suits target) :
    ∃ w ∈ winnersOf target records, w.origin.entry = r.origin.entry := by
  obtain ⟨group, inside, own⟩ := exists_group member
  obtain ⟨w, chosen⟩ := exists_selectVariant own suits
  obtain ⟨first, _, _, same⟩ := mem_byEntry inside
  have there := (selectVariant_suits chosen).1
  exact ⟨w, mem_winnersOf.mpr ⟨group, inside, chosen⟩, (same w there).trans (same r own).symm⟩

/-- A record of an entry at which nothing is chosen is accounted for by a mismatch. -/
theorem exists_mismatch (member : r ∈ records)
    (none : ∀ w ∈ winnersOf target records, w.origin.entry ≠ r.origin.entry) :
    ∃ m ∈ mismatchesOf target records, m.entry = r.origin.entry := by
  obtain ⟨group, inside, own⟩ := exists_group member
  obtain ⟨first, more, rfl, same⟩ := mem_byEntry inside
  cases result : selectVariant target (first :: more) with
  | ok w =>
    have there := (selectVariant_suits result).1
    exact absurd ((same w there).trans (same r own).symm)
      (none w (mem_winnersOf.mpr ⟨_, inside, result⟩))
  | error m =>
    exact ⟨m, mem_mismatchesOf.mpr ⟨_, inside, result⟩,
      (selectVariant_mismatch result).2.trans (same r own).symm⟩

/-- A mismatch is about a record that is there. -/
theorem exists_of_mismatch {m : ReleaseMismatch} (member : m ∈ mismatchesOf target records) :
    ∃ r ∈ records, m.name = r.name ∧ m.entry = r.origin.entry := by
  obtain ⟨group, inside, failed⟩ := mem_mismatchesOf.mp member
  obtain ⟨first, more, rfl, _⟩ := mem_byEntry inside
  refine ⟨first, ?_, selectVariant_mismatch failed⟩
  rw [← flatten_byEntry records]
  exact List.mem_flatten_of_mem inside List.mem_cons_self

/-- Records of one entry in front of records of others are a group of their own. -/
theorem byEntry_append {front : List Record} {ordinal : Nat} (some : front ≠ [])
    (own : ∀ q ∈ front, q.origin.entry = ordinal)
    (apart : ∀ q ∈ records, q.origin.entry ≠ ordinal) :
    byEntry (front ++ records) = front :: byEntry records := by
  induction front with
  | nil => exact absurd rfl some
  | cons r rest ih =>
    rw [List.cons_append, byEntry]
    cases rest with
    | nil =>
      rw [List.nil_append]
      cases records with
      | nil => rfl
      | cons q qs =>
        obtain ⟨more, others, shape⟩ := byEntry_cons q qs
        have differ : q.origin.entry ≠ r.origin.entry := by
          rw [own r List.mem_cons_self]
          exact apart q List.mem_cons_self
        simp only [shape, if_neg differ]
    | cons q qs =>
      have same : q.origin.entry = r.origin.entry := by
        rw [own r List.mem_cons_self, own q (List.mem_cons_of_mem _ List.mem_cons_self)]
      rw [ih (List.cons_ne_nil _ _) fun p member => own p (List.mem_cons_of_mem _ member)]
      simp only [if_pos same]

end ByEntry

end Linkage.Classpath
