import Linkage.Classpath.Scan
import Linkage.Proofs.Classpath.Release

/-!
An index by its entries. Whatever scanning an entry finds is marked as its own, so that the records
of a class, taken apart by entry, are those of each entry in the order of the class path, and each
entry has at most one record to offer at a release.
-/
namespace Linkage.Classpath

/-- What scanning has gathered is all from one entry. -/
structure Scan.Of (e : Entry) (s : Scan) : Prop where
  entry : s.report.entry = e
  records : ∀ r ∈ s.records, r.origin.entry = e.ordinal ∧ r.origin.owner = e.owner
  skipped : ∀ k ∈ s.skipped, k.entry = e.ordinal
  unreadable : ∀ u ∈ s.unreadable, u.entry = e.ordinal

namespace Scan.Of
variable {e : Entry} {s : Scan}

theorem start (e : Entry) : Of e (.start e) :=
  ⟨rfl, by simp [Scan.start], by simp [Scan.start], by simp [Scan.start]⟩

theorem skip (of : Of e s) (member : String) (name : Option String) (reason : String) :
    Of e (s.skip member name reason) := by
  refine ⟨of.entry, of.records, ?_, of.unreadable⟩
  intro k inside
  rcases List.mem_append.mp inside with old | new
  · exact of.skipped k old
  · rw [List.mem_singleton.mp new, of.entry]

theorem add (of : Of e s) (member : String) (variant : Variant) (stub : ClassStub) :
    Of e (s.add member variant stub) := by
  refine ⟨of.entry, ?_, of.skipped, of.unreadable⟩
  intro r inside
  rcases List.mem_append.mp inside with old | new
  · exact of.records r old
  · rw [List.mem_singleton.mp new, of.entry]
    exact ⟨rfl, rfl⟩

theorem addMember (of : Of e s) (member name : String) (variant : Variant)
    (content : Except String Text.Bytes) : Of e (s.addMember member name variant content) := by
  unfold Scan.addMember
  split
  · exact of.skip ..
  · split
    · exact of.add ..
    · exact of.skip ..

theorem addModule (of : Of e s) (member : String) (content : Except String Text.Bytes) :
    Of e (s.addModule member content) := by
  unfold Scan.addModule
  split
  · exact of.skip ..
  · split
    · exact ⟨of.entry, of.records, of.skipped, of.unreadable⟩
    · exact of.skip ..

theorem foldl {names : List String} {step : Scan → String → Scan}
    (keeps : ∀ s name, Of e s → Of e (step s name)) (of : Of e s) : Of e (names.foldl step s) := by
  induction names generalizing s with
  | nil => exact of
  | cons name rest ih => exact ih (keeps s name of)

theorem scanMetadata (of : Of e s) (m : Members) : Of e (scanMetadata s m).1 := by
  unfold Classpath.scanMetadata
  split
  · exact of
  · simp only
    split
    · exact of.skip ..
    · split
      · split
        · exact of
        · exact of.skip ..
      · exact of

theorem scanDirectory (of : Of e s) {m : Members} {t : Scan} (done : scanDirectory s m = .ok t) :
    Of e t := by
  unfold Classpath.scanDirectory at done
  split at done
  · split at done
    · cases done
    · obtain rfl := Except.ok.inj done
      refine foldl ?_ (of.addModule ..)
      intro s name of
      split
      · exact of.addMember ..
      · exact of
  · obtain rfl := Except.ok.inj done
    refine foldl ?_ of
    intro s name of
    split
    · exact of.addMember ..
    · exact of

theorem scanArchive (of : Of e s) (platform : Bool) (m : Members) :
    Of e (scanArchive s platform m) := by
  unfold Classpath.scanArchive
  simp only
  refine foldl ?_ ?_
  · intro s name of
    split
    · exact of
    · split
      · exact of.addMember ..
      · exact of
  · -- Only other fields of the report change around the metadata.
    have known {t : Scan} (of : Of e t) (metadata : Option Metadata) :
        Of e { t with report := { t.report with metadata } } :=
      ⟨of.entry, of.records, of.skipped, of.unreadable⟩
    split
    · refine Scan.Of.addModule (known (Scan.Of.scanMetadata ?_ m) _) ..
      exact ⟨of.entry, of.records, of.skipped, of.unreadable⟩
    · refine known (Scan.Of.scanMetadata ?_ m) _
      exact ⟨of.entry, of.records, of.skipped, of.unreadable⟩

theorem scan (of : Of e s) {h : Holding} {t : Scan} (done : h.scan s = .ok t) : Of e t := by
  cases h with
  | directory m => exact of.scanDirectory done
  | archive platform m =>
    obtain rfl := Except.ok.inj done
    exact of.scanArchive platform m

theorem scanEntry (e : Entry) (holding : Except String Holding) : Of e (scanEntry e holding) := by
  unfold Classpath.scanEntry
  split
  · rename_i t done
    cases holding with
    | error reason => cases done
    | ok h => exact (start e).scan done
  · refine ⟨(start e).entry, (start e).records, (start e).skipped, ?_⟩
    rintro u ⟨⟩
    rfl

end Scan.Of

namespace Index

theorem foldl_push (scans : List Scan) (ix : Index) :
    scans.foldl push ix = {
      reports := ix.reports ++ scans.map fun s => { s.report with classCount := s.records.length }
      records := ix.records ++ scans.flatMap fun s => s.records.mergeSort Record.le
      skipped := ix.skipped ++ scans.flatMap (·.skipped)
      unreadable := ix.unreadable ++ scans.flatMap (·.unreadable.toList) } := by
  induction scans generalizing ix with
  | nil => simp
  | cons s rest ih => simp [ih, push, List.length_mergeSort]

/-- An index holds what the scans of its entries found, entry by entry. -/
theorem gather_eq (holding : Entry → Except String Holding) (entries : List Entry) :
    gather holding entries = {
      reports := entries.map fun e =>
        { (scanEntry e (holding e)).report with
          classCount := (scanEntry e (holding e)).records.length }
      records := entries.flatMap fun e => (scanEntry e (holding e)).records.mergeSort Record.le
      skipped := entries.flatMap fun e => (scanEntry e (holding e)).skipped
      unreadable := entries.flatMap fun e => (scanEntry e (holding e)).unreadable.toList } := by
  simp only [gather, foldl_push, List.map_map, List.flatMap_map, List.nil_append]
  rfl

/-- The records of a class in one entry, in the order in which the index keeps them. -/
def recordsIn (ix : Index) (name : String) (e : Entry) : List Record :=
  (ix.recordsOf name).filter (·.origin.entry == e.ordinal)

/-- The record of a class that an entry offers at a release. -/
def offered (ix : Index) (release : Nat) (name : String) (e : Entry) : Option Record :=
  (selectVariant release (ix.recordsIn name e)).toOption

section Parts
variable {α : Type} {key : α → Nat} {entries : List Entry} {part : Entry → List α}
  (own : ∀ e, ∀ x ∈ part e, key x = e.ordinal)
  (distinct : (entries.map (·.ordinal)).Nodup)
include own distinct

theorem filter_flatMap_ordinal {e : Entry} (listed : e ∈ entries) :
    (entries.flatMap part).filter (key · == e.ordinal) = part e := by
  induction entries with
  | nil => cases listed
  | cons first rest ih =>
    obtain ⟨new, distinct⟩ := List.nodup_cons.mp distinct
    rw [List.flatMap_cons, List.filter_append]
    rcases List.mem_cons.mp listed with rfl | listed
    · have mine : (part e).filter (key · == e.ordinal) = part e := by
        rw [List.filter_eq_self]
        intro x inside
        exact beq_iff_eq.mpr (own e x inside)
      have apart : (rest.flatMap part).filter (key · == e.ordinal) = [] := by
        rw [List.filter_eq_nil_iff]
        intro x inside same
        obtain ⟨other, later, inside⟩ := List.mem_flatMap.mp inside
        have ordinals := (own other x inside).symm.trans (beq_iff_eq.mp same)
        exact new (List.mem_map.mpr ⟨other, later, ordinals⟩)
      rw [mine, apart, List.append_nil]
    · have apart : (part first).filter (key · == e.ordinal) = [] := by
        rw [List.filter_eq_nil_iff]
        intro x inside same
        have ordinals := (beq_iff_eq.mp same).symm.trans (own first x inside)
        exact new (List.mem_map.mpr ⟨e, listed, ordinals⟩)
      rw [apart, List.nil_append, ih distinct listed]

end Parts

/-- Where each entry has its part, the parts are the runs of one entry; empty parts leave none. -/
theorem byEntry_flatMap {entries : List Entry} {part : Entry → List Record}
    (own : ∀ e, ∀ r ∈ part e, r.origin.entry = e.ordinal)
    (distinct : (entries.map (·.ordinal)).Nodup) :
    byEntry (entries.flatMap part) = (entries.map part).filter (!·.isEmpty) := by
  induction entries with
  | nil => rfl
  | cons e rest ih =>
    obtain ⟨new, distinct⟩ := List.nodup_cons.mp distinct
    rw [List.flatMap_cons, List.map_cons, List.filter_cons, ← ih distinct]
    by_cases empty : part e = []
    · rw [empty]
      rfl
    · have apart : ∀ r ∈ rest.flatMap part, r.origin.entry ≠ e.ordinal := by
        intro r inside same
        obtain ⟨other, later, inside⟩ := List.mem_flatMap.mp inside
        exact new (List.mem_map.mpr ⟨other, later, (own other r inside).symm.trans same⟩)
      rw [byEntry_append empty (own e) apart, if_pos (by simpa using empty)]

section Gather
variable {holding : Entry → Except String Holding} {entries : List Entry}

/-- What scanning an entry finds of a class. -/
def found (holding : Entry → Except String Holding) (name : String) (e : Entry) : List Record :=
  ((scanEntry e (holding e)).records.mergeSort Record.le).filter (·.name == name)

theorem mem_found {name : String} {e : Entry} {r : Record} (inside : r ∈ found holding name e) :
    r.origin.entry = e.ordinal ∧ r.origin.owner = e.owner :=
  (Scan.Of.scanEntry e (holding e)).records r
    (List.mem_mergeSort.mp (List.mem_filter.mp inside).1)

theorem recordsOf_gather (holding : Entry → Except String Holding) (entries : List Entry)
    (name : String) :
    (gather holding entries).recordsOf name = entries.flatMap (found holding name) := by
  rw [recordsOf, gather_eq, List.filter_flatMap]
  rfl

variable (distinct : (entries.map (·.ordinal)).Nodup)
include distinct

theorem recordsIn_gather {name : String} {e : Entry} (listed : e ∈ entries) :
    (gather holding entries).recordsIn name e = found holding name e := by
  rw [recordsIn, recordsOf_gather]
  exact filter_flatMap_ordinal (fun _ _ inside => (mem_found inside).1) distinct listed

/-- The records of a class, taken apart by entry, are those of the entries that have it. -/
theorem byEntry_gather (name : String) :
    byEntry ((gather holding entries).recordsOf name) =
      (entries.map ((gather holding entries).recordsIn name)).filter (!·.isEmpty) := by
  rw [recordsOf_gather, byEntry_flatMap (fun _ _ inside => (mem_found inside).1) distinct]
  congr 1
  apply List.map_congr_left
  intro e listed
  exact (recordsIn_gather distinct listed).symm

/-- What is chosen of a class is what the entries offer, in the order of the class path. -/
theorem winnersOf_gather (release : Nat) (name : String) :
    winnersOf release ((gather holding entries).recordsOf name) =
      entries.filterMap ((gather holding entries).offered release name) := by
  rw [winnersOf, byEntry_gather distinct, List.filterMap_filter, List.filterMap_map]
  apply List.filterMap_congr
  intro e _
  -- An entry without the class has nothing to offer.
  cases inside : (gather holding entries).recordsIn name e with
  | nil => simp [offered, inside, selectVariant, Except.toOption]
  | cons r more => simp [offered, inside]

theorem offered_gather {release : Nat} {name : String} {e : Entry} {r : Record}
    (listed : e ∈ entries) (offers : (gather holding entries).offered release name e = some r) :
    r.origin.entry = e.ordinal ∧ r.origin.owner = e.owner := by
  rw [offered, recordsIn_gather distinct listed] at offers
  cases chosen : selectVariant release (found holding name e) with
  | error m => simp [chosen, Except.toOption] at offers
  | ok w =>
    rw [chosen] at offers
    obtain rfl := Option.some.inj offers
    exact mem_found (selectVariant_suits chosen).1

end Gather

end Index

end Linkage.Classpath
