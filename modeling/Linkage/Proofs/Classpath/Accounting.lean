import Mathlib.Algebra.GroupWithZero.Nat
import Mathlib.Data.Prod.Lex
import Mathlib.Data.String.Basic
import Linkage.ClassFile.Writer
import Linkage.Proofs.Classpath.Members
import Linkage.Proofs.Classpath.Opening
import Linkage.Proofs.View.Assembly

/-!
An index leaves no class of its entries out. Every entry that can be read is there with all of its
members that stand for a class, each under one record or one report; the counts agree with the
records; and the records of a class stand in the order of the entries, those of one entry together
and in the order of their forms.
-/
namespace Linkage.Classpath

/-- An entry that cannot be read: it does not open, or it is a directory with the declaration of a
module that does not. -/
def Unread : Except String Holding → Prop
  | .error _ => True
  | .ok (.directory m) => moduleMember ∈ m.names ∧ ∃ reason, m.read moduleMember = .error reason
  | .ok (.archive ..) => False

theorem unread_iff (holding : Except String Holding) (s : Scan) :
    Unread holding ↔ ∃ reason, holding >>= Holding.scan s = .error reason := by
  rcases holding with reason | ⟨m⟩ | ⟨platform, m⟩
  · simp [Unread, bind, Except.bind]
  · by_cases listed : moduleMember ∈ m.names
    · cases read : m.read moduleMember <;>
        simp [Unread, Holding.scan, scanDirectory, listed, read, bind, Except.bind, pure,
          Except.pure, throw, throwThe, MonadExceptOf.throw]
    · simp [Unread, Holding.scan, scanDirectory, listed, bind, Except.bind, pure, Except.pure]
  · simp [Unread, Holding.scan, bind, Except.bind]

/-- An entry is read and scanned, or it leaves a report only. -/
theorem scanEntry_cases (e : Entry) (holding : Except String Holding) :
    (¬ Unread holding ∧ ∃ h, holding = .ok h ∧ h.scan (.start e) = .ok (scanEntry e holding)) ∨
    (Unread holding ∧ ∃ reason, scanEntry e holding =
      { Scan.start e with unreadable := some ⟨e.ordinal, e.location, reason⟩ }) := by
  rw [unread_iff holding (.start e), scanEntry]
  cases scanned : holding >>= Holding.scan (.start e) with
  | error reason => exact .inr ⟨⟨reason, rfl⟩, reason, rfl⟩
  | ok s =>
    refine .inl ⟨by simp, ?_⟩
    cases holding with
    | error reason => cases scanned
    | ok h => exact ⟨h, rfl, scanned⟩

namespace Record

theorem le_iff {a b : Record} : a.le b = true ↔
    toLex (a.name, a.variant.rank) ≤ toLex (b.name, b.variant.rank) := by
  simp [le, Prod.Lex.toLex_le_toLex]

theorem le_trans (a b c : Record) (one : a.le b = true) (two : b.le c = true) : a.le c = true := by
  rw [le_iff] at one two ⊢
  exact one.trans two

theorem le_total (a b : Record) : (a.le b || b.le a) = true := by
  rw [Bool.or_eq_true, le_iff, le_iff]
  exact Std.le_total

end Record

namespace Index

/-- The place on the class path of the entry that a record is from. -/
def place (entries : List Entry) (r : Record) : Nat :=
  (entries.map (·.ordinal)).idxOf r.origin.entry

/-- A record stands before another: its entry comes first, or both are of one entry and its form is
not for a later release. -/
def Precedes (entries : List Entry) (a b : Record) : Prop :=
  place entries a < place entries b ∨
    a.origin.entry = b.origin.entry ∧ a.variant.rank ≤ b.variant.rank

/-- Records in the order of their entries, those of one entry together and in the order of their
forms. -/
structure InOrder (entries : List Entry) (records : List Record) : Prop where
  sorted : records.Pairwise (Precedes entries)
  together : ∀ a b c, [a, b, c].Sublist records → a.origin.entry = c.origin.entry →
    b.origin.entry = a.origin.entry

/-- An index accounts for what an entry holds: every member that stands for a class is settled, and
there is no record of any other. -/
structure Accounts (ix : Index) (e : Entry) (h : Holding) : Prop where
  settled : ∀ member ∈ h.members.names, ∀ name form, h.denoted? member = some (name, form) →
    Settled (h.members.read member) member name form
      (ix.records.filter (·.origin.entry == e.ordinal))
      (ix.skipped.filter (·.entry == e.ordinal))
  others : ∀ r ∈ ix.records, r.origin.entry = e.ordinal →
    r.origin.member ∈ h.members.names ∧ ∃ name, h.denoted? r.origin.member = some (name, r.variant)

theorem mem_symbols {ix : Index} {name : String} {records : List Record} :
    (name, records) ∈ ix.symbols ↔ name ∈ ix.names ∧ records = ix.recordsOf name := by
  simp only [symbols, List.mem_map, Prod.mk.injEq]
  constructor
  · rintro ⟨_, known, rfl, rfl⟩
    exact ⟨known, rfl⟩
  · rintro ⟨known, rfl⟩
    exact ⟨name, known, rfl, rfl⟩

/-- The number of the records under all names. -/
def recordCount (ix : Index) : Nat := (ix.symbols.map (·.2.length)).sum

/-- Every record stands under one name. -/
theorem recordCount_eq (ix : Index) : ix.recordCount = ix.records.length := by
  have same : ix.names.Perm (ix.records.map (·.name)).dedup := by
    rw [List.perm_ext_iff_of_nodup ix.nodup_names (List.nodup_dedup _)]
    intro name
    rw [mem_names, List.mem_dedup, List.mem_map]
  have counts : ix.names.map (fun name => (ix.recordsOf name).length) =
      ix.names.map fun name => (ix.records.map (·.name)).count name := by
    apply List.map_congr_left
    intro name _
    rw [recordsOf, List.count_eq_countP, List.countP_map, ← List.countP_eq_length_filter]
    rfl
  calc ix.recordCount
      = (ix.names.map fun name => (ix.recordsOf name).length).sum := by
        rw [recordCount, symbols, List.map_map]
        rfl
    _ = ((ix.records.map (·.name)).dedup.map fun name =>
          (ix.records.map (·.name)).count name).sum := by
        rw [counts, (same.map _).sum_eq]
    _ = ix.records.length := by
        rw [List.sum_map_count_dedup_eq_length, List.length_map]

section Gather
variable {holding : Entry → Except String Holding} {entries : List Entry}

theorem mem_records_gather {r : Record} : r ∈ (gather holding entries).records ↔
    ∃ e ∈ entries, r ∈ (scanEntry e (holding e)).records := by
  rw [gather_eq]
  simp only [List.mem_flatMap, List.mem_mergeSort]

/-- The reports count the records. -/
theorem sum_classCount (holding : Entry → Except String Holding) (entries : List Entry) :
    ((gather holding entries).reports.map (·.classCount)).sum =
      (gather holding entries).records.length := by
  rw [gather_eq]
  simp only [List.map_map, List.length_flatMap, List.length_mergeSort]
  rfl

/-- Of one class, sorting an entry orders the forms. -/
theorem found_sorted (name : String) (e : Entry) :
    (found holding name e).Pairwise fun a b => a.variant.rank ≤ b.variant.rank := by
  have sorted := (List.pairwise_mergeSort Record.le_trans Record.le_total
    (scanEntry e (holding e)).records).filter (·.name == name)
  refine sorted.imp_of_mem ?_
  intro a b first second le
  have same : a.name = b.name := by
    rw [beq_iff_eq.mp (List.mem_filter.mp first).2, beq_iff_eq.mp (List.mem_filter.mp second).2]
  simpa [Record.le, same] using le

theorem of_mem_gather {r : Record} (inside : r ∈ (gather holding entries).records) :
    ∃ e ∈ entries, r.origin.entry = e.ordinal := by
  obtain ⟨e, listed, found⟩ := mem_records_gather.mp inside
  exact ⟨e, listed, ((Scan.Of.scanEntry e (holding e)).records r found).1⟩

variable (distinct : (entries.map (·.ordinal)).Nodup)
include distinct

theorem filter_records_gather {e : Entry} (listed : e ∈ entries) :
    (gather holding entries).records.filter (·.origin.entry == e.ordinal) =
      (scanEntry e (holding e)).records.mergeSort Record.le := by
  rw [gather_eq]
  refine filter_flatMap_ordinal ?_ distinct listed
  intro e r inside
  exact ((Scan.Of.scanEntry e (holding e)).records r (List.mem_mergeSort.mp inside)).1

theorem filter_skipped_gather {e : Entry} (listed : e ∈ entries) :
    (gather holding entries).skipped.filter (·.entry == e.ordinal) =
      (scanEntry e (holding e)).skipped := by
  rw [gather_eq]
  exact filter_flatMap_ordinal
    (fun e => (Scan.Of.scanEntry e (holding e)).skipped) distinct listed

theorem filter_unreadable_gather {e : Entry} (listed : e ∈ entries) :
    (gather holding entries).unreadable.filter (·.entry == e.ordinal) =
      (scanEntry e (holding e)).unreadable.toList := by
  rw [gather_eq]
  refine filter_flatMap_ordinal ?_ distinct listed
  intro e u inside
  exact (Scan.Of.scanEntry e (holding e)).unreadable u (Option.mem_toList.mp inside)

theorem place_of_entry {r : Record} {i : Nat} (inside : i < entries.length)
    (own : r.origin.entry = entries[i].ordinal) : place entries r = i := by
  have here : i < (entries.map (·.ordinal)).length := by
    rw [List.length_map]
    exact inside
  have listed : r.origin.entry = (entries.map (·.ordinal))[i] := by
    rw [List.getElem_map]
    exact own
  rw [place, listed, distinct.idxOf_getElem i here]

/-- The records of a class stand in the order of the entries, and of the forms in each. -/
theorem pairwise_precedes (name : String) :
    ((gather holding entries).recordsOf name).Pairwise (Precedes entries) := by
  rw [recordsOf_gather, List.pairwise_flatMap, List.pairwise_iff_getElem]
  constructor
  · intro e _
    refine (found_sorted name e).imp_of_mem ?_
    intro a b first second le
    exact .inr ⟨(mem_found first).1.trans (mem_found second).1.symm, le⟩
  · intro i j hi hj before a first b second
    refine .inl ?_
    rw [place_of_entry distinct hi (mem_found first).1,
      place_of_entry distinct hj (mem_found second).1]
    exact before

theorem inOrder_recordsOf (name : String) :
    InOrder entries ((gather holding entries).recordsOf name) where
  sorted := pairwise_precedes distinct name
  together a b c part same := by
    have inside : a ∈ (gather holding entries).records :=
      List.mem_of_mem_filter (part.subset List.mem_cons_self)
    obtain ⟨e, listed, own⟩ := of_mem_gather inside
    have known : a.origin.entry ∈ entries.map (·.ordinal) :=
      List.mem_map.mpr ⟨e, listed, own.symm⟩
    have places : place entries a = place entries c := by rw [place, place, same]
    have order : [a, b, c].Pairwise (Precedes entries) :=
      (pairwise_precedes distinct name).sublist part
    simp only [List.pairwise_cons, List.mem_cons, List.not_mem_nil, or_false] at order
    rcases order.1 b (.inl rfl) with before | ⟨together, _⟩
    · rcases order.2.1 c rfl with after | ⟨together, _⟩
      · omega
      · exact together.trans same.symm
    · exact together.symm

section Members
variable (once : ∀ e ∈ entries, ∀ h, holding e = .ok h → h.members.names.Nodup)
include once

/-- An entry that is read is accounted for; the other ones are reported and have no record. -/
theorem entry_accounted {e : Entry} (listed : e ∈ entries) :
    (Unread (holding e) ∧ (∃ u ∈ (gather holding entries).unreadable, u.entry = e.ordinal) ∧
      ∀ r ∈ (gather holding entries).records, r.origin.entry ≠ e.ordinal) ∨
    (¬ Unread (holding e) ∧ (∀ u ∈ (gather holding entries).unreadable, u.entry ≠ e.ordinal) ∧
      ∃ h, holding e = .ok h ∧ (gather holding entries).Accounts e h) := by
  have records {r : Record} (inside : r ∈ (gather holding entries).records)
      (own : r.origin.entry = e.ordinal) : r ∈ (scanEntry e (holding e)).records := by
    rw [← List.mem_mergeSort, ← filter_records_gather distinct listed, List.mem_filter]
    exact ⟨inside, beq_iff_eq.mpr own⟩
  have unreadable : (gather holding entries).unreadable.filter (·.entry == e.ordinal) = _ :=
    filter_unreadable_gather distinct listed
  rcases scanEntry_cases e (holding e) with ⟨read, h, opened, scanned⟩ | ⟨unread, reason, left⟩
  · have covers := Scan.covers_of_scan (once e listed h opened) scanned
    rw [covers.readable, Option.toList_none, List.filter_eq_nil_iff] at unreadable
    refine .inr ⟨read, by simpa using unreadable, h, opened, ?_, ?_⟩
    · intro member inside name form denoted
      rw [filter_records_gather distinct listed, filter_skipped_gather distinct listed]
      exact (covers.settled member inside name form denoted).perm (List.mergeSort_perm _ _)
    · intro r inside own
      obtain ⟨known, _, denoted⟩ := covers.recorded r (records inside own)
      exact ⟨known, denoted⟩
  · rw [left, Option.toList_some] at unreadable
    refine .inl ⟨unread, ?_, ?_⟩
    · have one := List.mem_filter.mp (unreadable ▸ List.mem_singleton_self _)
      exact ⟨_, one.1, rfl⟩
    · intro r inside own
      have mine := records inside own
      rw [left] at mine
      cases mine

omit distinct in
/-- A record stands under the name that the class itself has. -/
theorem name_eq_stub {r : Record} (inside : r ∈ (gather holding entries).records) :
    r.name = r.stub.name := by
  obtain ⟨e, listed, found⟩ := mem_records_gather.mp inside
  rcases scanEntry_cases e (holding e) with ⟨_, h, opened, scanned⟩ | ⟨_, reason, left⟩
  · exact ((Scan.covers_of_scan (once e listed h opened) scanned).recorded r found).2.1
  · rw [left] at found
    cases found

end Members

end Gather

/-- What an index of entries with ordinals of their own says of them, whatever they hold. -/
theorem members_accounted (holding : Entry → Except String Holding) (entries : List Entry)
    (distinct : (entries.map (·.ordinal)).Nodup)
    (once : ∀ e ∈ entries, ∀ h, holding e = .ok h → h.members.names.Nodup) :
    let ix := gather holding entries
    (∀ e ∈ entries,
      (Unread (holding e) ∧ (∃ u ∈ ix.unreadable, u.entry = e.ordinal) ∧
        ∀ r ∈ ix.records, r.origin.entry ≠ e.ordinal) ∨
      (¬ Unread (holding e) ∧ (∀ u ∈ ix.unreadable, u.entry ≠ e.ordinal) ∧
        ∃ h, holding e = .ok h ∧ ix.Accounts e h)) ∧
    (∀ r ∈ ix.records, ∃ e ∈ entries, r.origin.entry = e.ordinal) ∧
    ix.recordCount = (ix.reports.map (·.classCount)).sum ∧
    (∀ r ∈ ix.records, ∃ rs, (r.stub.name, rs) ∈ ix.symbols ∧ r ∈ rs) ∧
    ∀ name rs, (name, rs) ∈ ix.symbols →
      (∀ r ∈ rs, r ∈ ix.records ∧ r.name = name ∧ r.stub.name = name) ∧ InOrder entries rs := by
  intro ix
  refine ⟨fun e listed => entry_accounted distinct once listed, fun r => of_mem_gather, ?_, ?_, ?_⟩
  · rw [recordCount_eq, sum_classCount]
  · intro r inside
    have name := name_eq_stub once inside
    refine ⟨ix.recordsOf r.stub.name, ?_, ?_⟩
    · exact mem_symbols.mpr ⟨mem_names.mpr ⟨r, inside, name⟩, rfl⟩
    · exact List.mem_filter.mpr ⟨inside, beq_iff_eq.mpr name⟩
  · intro name rs symbol
    obtain ⟨_, rfl⟩ := mem_symbols.mp symbol
    refine ⟨?_, inOrder_recordsOf distinct _⟩
    intro r inside
    have name := name_of_recordsOf inside
    have known := List.mem_of_mem_filter inside
    exact ⟨known, name, (name_eq_stub once known).symm.trans name⟩

/-- A directory with a class and with a file that is only named like one. -/
def shelf : FileTree where
  nodes := [(["out"], .directory 0), (["out", "Broken.class"], .file [0] 0),
    (["out", "Main.class"], .file (ClassFile.ClassSpec.encode { name := "Main" }) 0)]

/-- The directory, and an archive that is not there. -/
def shelfEntries : List Entry :=
  [⟨0, .directory, "out", .program⟩, ⟨1, .archive, "lost.jar", .library⟩]

theorem shelf_opens : ∃ h, openEntry shelf none ⟨0, .directory, "out", .program⟩ = .ok h ∧
    ¬ Unread (.ok h) ∧ h.members.names.Perm ["Broken.class", "Main.class"] ∧
    (h.denoted? "Broken.class", h.members.read "Broken.class") =
      (some ("Broken", .base), .ok [0]) ∧
    (h.denoted? "Main.class", h.members.read "Main.class") =
      (some ("Main", .base), .ok (ClassFile.ClassSpec.encode { name := "Main" })) := by
  refine ⟨_, rfl, ?_, List.mergeSort_perm _ _, by decide +kernel, by decide +kernel⟩
  rintro ⟨listed, _⟩
  have inside := (List.mergeSort_perm _ _).mem_iff.mp listed
  revert inside
  decide

theorem members_accounted_shelf :
    (shelfEntries.map (·.ordinal)).Nodup ∧ shelf.Proper ∧
    let ix := build shelf none shelfEntries
    (∃ r ∈ ix.records, r.origin.member = "Main.class" ∧ r.variant = .base ∧
      ∃ rs, ("Main", rs) ∈ ix.symbols ∧ r ∈ rs) ∧
    (∃ k ∈ ix.skipped, k.member = "Broken.class" ∧ k.name = some "Broken") ∧
    ∃ u ∈ ix.unreadable, u.entry = 1 := by
  have distinct : (shelfEntries.map (·.ordinal)).Nodup := by decide
  have proper : shelf.Proper := ⟨by decide, by decide⟩
  have once : ∀ e ∈ shelfEntries, ∀ h, openEntry shelf none e = .ok h → h.members.names.Nodup :=
    fun _ _ _ opened => nodup_of_openEntry proper opened
  obtain ⟨entries, _, _, under, _⟩ := members_accounted _ _ distinct once
  obtain ⟨h, opens, readable, names, broken, main⟩ := shelf_opens
  obtain ⟨brokenName, brokenBytes⟩ := Prod.mk.inj broken
  obtain ⟨mainName, mainBytes⟩ := Prod.mk.inj main
  have accounts : (build shelf none shelfEntries).Accounts ⟨0, .directory, "out", .program⟩ h := by
    rcases entries ⟨0, .directory, "out", .program⟩ (by decide) with
      ⟨unread, _⟩ | ⟨_, _, _, same, rest⟩
    · rw [opens] at unread
      exact absurd unread readable
    · rw [opens] at same
      obtain rfl := Except.ok.inj same
      exact rest
  refine ⟨distinct, proper, ?_, ?_, ?_⟩
  · have parses : (ClassFile.parse (ClassFile.ClassSpec.encode { name := "Main" })).map (·.name) =
        .ok "Main" := by
      decide +kernel
    rcases accounts.settled "Main.class" (names.mem_iff.mpr (by decide)) _ _ mainName with
      ⟨r, one, _, form, bytes, read, parsed⟩ | ⟨_, _, _, _, fails⟩
    · obtain ⟨inside, member⟩ := List.mem_filter.mp (one ▸ List.mem_singleton_self r)
      have known := (List.mem_filter.mp inside).1
      rw [mainBytes] at read
      obtain rfl := Except.ok.inj read
      rw [parsed] at parses
      have name : r.stub.name = "Main" := Except.ok.inj parses
      exact ⟨r, known, beq_iff_eq.mp member, form, name ▸ under r known⟩
    · cases parsed : ClassFile.parse (ClassFile.ClassSpec.encode { name := "Main" }) with
      | ok stub => exact absurd parsed (fails _ stub mainBytes)
      | error fault =>
        rw [parsed] at parses
        cases parses
  · rcases accounts.settled "Broken.class" (names.mem_iff.mpr (by decide)) _ _ brokenName with
      ⟨_, _, _, _, bytes, read, parsed⟩ | ⟨k, one, _, name, _⟩
    · rw [brokenBytes] at read
      obtain rfl := Except.ok.inj read
      cases parsed
    · obtain ⟨inside, member⟩ := List.mem_filter.mp (one ▸ List.mem_singleton_self k)
      exact ⟨k, (List.mem_filter.mp inside).1, beq_iff_eq.mp member, name⟩
  · rcases entries ⟨1, .archive, "lost.jar", .library⟩ (by decide) with
      ⟨_, reported, _⟩ | ⟨read, _⟩
    · exact reported
    · exact absurd trivial read

end Index

end Linkage.Classpath
