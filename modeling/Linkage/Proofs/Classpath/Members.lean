import Mathlib.Data.List.Nodup
import Linkage.Proofs.Classpath.Entries
import Linkage.Proofs.Text.Trimming

/-!
What becomes of the members of one entry. A member stands for a class when its name says so; such a
member ends up in one record or, when it cannot be read, in one report that it was skipped. The
declarations that an entry is searched for beforehand are no classes, so that a report on one of
them is never taken for a report on a class.
-/
namespace Linkage.Classpath

open Text (Bytes stripStart? startsWith)

/-- Whether the members hold a manifest that declares forms for releases. -/
def Members.multiRelease (m : Members) : Bool :=
  m.names.contains manifestMember &&
    (match readText m manifestMember with
      | .ok text => declaresMultiRelease text
      | .error _ => false)

/-- The class that a member stands for, and the form of it. -/
def Holding.denoted? : Holding → String → Option (String × Variant)
  | .directory _, member => (classNameOf? member).map fun name => (name, .base)
  | .archive platform m, member =>
    (versionedPath? m.multiRelease platform member).bind fun (path, form) =>
      (classNameOf? path).map fun name => (name, form)

section Names
variable {m : Members} {platform multiRelease : Bool} {member path name : String} {form : Variant}

theorem of_classNameOf? (named : classNameOf? path = some name) :
    ∃ stem, path = stem ++ ".class" := by
  unfold classNameOf? at named
  split at named
  · cases named
  · rename_i stem cut
    exact ⟨stem, Text.of_stripEnd? cut⟩

theorem archivePath_cases (platform : Bool) (member : String) :
    member = archivePath platform member ∨ member = "classes/" ++ archivePath platform member := by
  unfold archivePath
  split
  · cases cut : stripStart? "classes/" member with
    | none => exact .inl rfl
    | some rest => exact .inr (Text.stripStart?_eq_some_iff.mp cut)
  · exact .inl rfl

/-- The path of a class is the end of the name of its member. -/
theorem of_versionedPath? (found : versionedPath? multiRelease platform member = some (path, form)) :
    ∃ front, member = front ++ path := by
  unfold versionedPath? at found
  split at found
  · rename_i rest cut
    split at found
    · cases found
    split at found
    · cases found
    rename_i release below split
    obtain ⟨⟨c, _, shape⟩, _⟩ := Text.of_splitFirstWhere? split
    split at found
    · cases found
    split at found
    · cases found
    obtain ⟨rfl, _⟩ := Prod.mk.inj (Option.some.inj found)
    refine ⟨versionsFolder ++ (release ++ String.singleton c), ?_⟩
    rw [Text.stripStart?_eq_some_iff.mp cut, shape, ← String.append_assoc]
  · split at found
    · cases found
    obtain ⟨rfl, _⟩ := Prod.mk.inj (Option.some.inj found)
    rcases archivePath_cases platform member with same | inner
    · exact ⟨"", by rw [String.empty_append]; exact same⟩
    · exact ⟨"classes/", inner⟩

/-- Only what is named like a class file stands for a class. -/
theorem denoted?_eq_none {h : Holding} (other : ∀ stem, member ≠ stem ++ ".class") :
    h.denoted? member = none := by
  rw [Option.eq_none_iff_forall_ne_some]
  rintro ⟨name, form⟩ denoted
  cases h with
  | directory m =>
    obtain ⟨_, named, _⟩ := Option.map_eq_some_iff.mp denoted
    obtain ⟨stem, shape⟩ := of_classNameOf? named
    exact other stem shape
  | archive platform m =>
    obtain ⟨⟨path, _⟩, found, rest⟩ := Option.bind_eq_some_iff.mp denoted
    obtain ⟨_, named, _⟩ := Option.map_eq_some_iff.mp rest
    obtain ⟨stem, shape⟩ := of_classNameOf? named
    obtain ⟨front, whole⟩ := of_versionedPath? found
    exact other (front ++ stem) (by rw [whole, shape, String.append_assoc])

/-- A name with another ending is not that of a class file. -/
theorem denoted?_of_ending {h : Holding} {tail : String} (one : Text.endsWith tail ".class" = false)
    (two : Text.endsWith ".class" tail = false) (front : String) :
    h.denoted? (front ++ tail) = none := by
  apply denoted?_eq_none
  intro stem same
  have left : tail.toList <:+ (front ++ tail).toList := by simp
  have right : ".class".toList <:+ (front ++ tail).toList := by simp [same]
  rcases List.suffix_or_suffix_of_suffix left right with short | short
  · rw [Text.endsWith, List.isSuffixOf_iff_suffix.mpr short] at one
    cases one
  · rw [Text.endsWith, List.isSuffixOf_iff_suffix.mpr short] at two
    cases two

theorem classNameOf?_module : classNameOf? moduleMember = none := by decide

/-- The declaration of a module is no class, wherever an archive has it. -/
theorem denoted?_module (found : archivePath platform member = moduleMember) :
    (Holding.archive platform m).denoted? member = none := by
  have path : versionedPath? m.multiRelease platform member = some (moduleMember, .base) := by
    have outside : stripStart? versionsFolder member = none ∧
        startsWith "META-INF/" member = false := by
      rcases archivePath_cases platform member with same | inner
      · rw [same, found]
        decide
      · rw [inner, found]
        decide
    simp [versionedPath?, outside, found]
  simp [Holding.denoted?, path, classNameOf?_module]

end Names

/-- A member that stands for a class has one record of what it holds and was not skipped, or it has
no record and there is one report that it was skipped, under the name of the class. -/
def Settled (content : Except String Bytes) (member name : String) (form : Variant)
    (records : List Record) (skipped : List Skipped) : Prop :=
  (∃ r, records.filter (·.origin.member == member) = [r] ∧
    skipped.filter (·.member == member) = [] ∧ r.variant = form ∧
    ∃ bytes, content = .ok bytes ∧ ClassFile.parse bytes = .ok r.stub) ∨
  (∃ k, skipped.filter (·.member == member) = [k] ∧
    records.filter (·.origin.member == member) = [] ∧ k.name = some name ∧
    ∀ bytes stub, content = .ok bytes → ClassFile.parse bytes ≠ .ok stub)

namespace Settled
variable {content : Except String Bytes} {member name : String} {form : Variant}
  {records : List Record} {skipped : List Skipped}

theorem append_record (settled : Settled content member name form records skipped) {r : Record}
    (other : r.origin.member ≠ member) :
    Settled content member name form (records ++ [r]) skipped := by
  simpa [Settled, List.filter_append, other] using settled

theorem append_skipped (settled : Settled content member name form records skipped) {k : Skipped}
    (other : k.member ≠ member) :
    Settled content member name form records (skipped ++ [k]) := by
  simpa [Settled, List.filter_append, other] using settled

/-- The order of the records does not matter. -/
theorem perm (settled : Settled content member name form records skipped)
    {sorted : List Record} (same : sorted.Perm records) :
    Settled content member name form sorted skipped := by
  have filtered := same.filter (·.origin.member == member)
  rcases settled with ⟨r, one, rest⟩ | ⟨k, one, none, rest⟩
  · rw [one] at filtered
    exact .inl ⟨r, List.perm_singleton.mp filtered, rest⟩
  · rw [none] at filtered
    exact .inr ⟨k, one, List.perm_nil.mp filtered, rest⟩

end Settled

namespace Scan
variable {h : Holding} {e : Entry} {s : Scan} {done names : List String}
  {member name : String} {form : Variant} {content : Except String Bytes}

/-- Adding a member adds one record or one report. -/
theorem addMember_cases (s : Scan) (member name : String) (form : Variant)
    (content : Except String Bytes) :
    (∃ r, s.addMember member name form content = { s with records := s.records ++ [r] } ∧
      r.origin.member = member ∧ r.variant = form ∧ r.name = r.stub.name ∧
      ∃ bytes, content = .ok bytes ∧ ClassFile.parse bytes = .ok r.stub) ∨
    (∃ k, s.addMember member name form content = { s with skipped := s.skipped ++ [k] } ∧
      k.member = member ∧ k.name = some name ∧
      ∀ bytes stub, content = .ok bytes → ClassFile.parse bytes ≠ .ok stub) := by
  unfold addMember
  split
  · rename_i reason
    refine .inr ⟨_, rfl, rfl, rfl, ?_⟩
    intro bytes stub read
    cases read
  · rename_i bytes
    split
    · rename_i stub parsed
      exact .inl ⟨_, rfl, rfl, rfl, rfl, bytes, rfl, parsed⟩
    · rename_i fault failed
      refine .inr ⟨_, rfl, rfl, rfl, ?_⟩
      intro again stub same parsed
      obtain rfl := Except.ok.inj same
      rw [failed] at parsed
      cases parsed

/-- What a scan has gathered once the members `done` have been gone through. -/
structure Covers (h : Holding) (done : List String) (s : Scan) : Prop where
  readable : s.unreadable = none
  recorded : ∀ r ∈ s.records, r.origin.member ∈ done ∧ r.name = r.stub.name ∧
    ∃ name, h.denoted? r.origin.member = some (name, r.variant)
  skipped : ∀ k ∈ s.skipped, k.member ∈ done ∨ h.denoted? k.member = none
  settled : ∀ member ∈ done, ∀ name form, h.denoted? member = some (name, form) →
    Settled (h.members.read member) member name form s.records s.skipped

/-- Going through one member. -/
def step (h : Holding) (s : Scan) (member : String) : Scan :=
  match h.denoted? member with
  | some (name, form) => s.addMember member name form (h.members.read member)
  | none => s

namespace Covers

theorem fresh_records (covers : Covers h done s) (new : member ∉ done) :
    s.records.filter (·.origin.member == member) = [] := by
  rw [List.filter_eq_nil_iff]
  intro r inside same
  exact new (beq_iff_eq.mp same ▸ (covers.recorded r inside).1)

theorem fresh_skipped (covers : Covers h done s) (new : member ∉ done)
    (denoted : h.denoted? member = some (name, form)) :
    s.skipped.filter (·.member == member) = [] := by
  rw [List.filter_eq_nil_iff]
  intro k inside same
  rw [← beq_iff_eq.mp same] at new denoted
  rcases covers.skipped k inside with old | none
  · exact new old
  · rw [none] at denoted
    cases denoted

theorem recorded_append (covers : Covers h done s) (member : String) : ∀ r ∈ s.records,
    r.origin.member ∈ done ++ [member] ∧ r.name = r.stub.name ∧
      ∃ name, h.denoted? r.origin.member = some (name, r.variant) := by
  intro r inside
  obtain ⟨old, rest⟩ := covers.recorded r inside
  exact ⟨List.mem_append_left _ old, rest⟩

theorem skipped_append (covers : Covers h done s) (member : String) : ∀ k ∈ s.skipped,
    k.member ∈ done ++ [member] ∨ h.denoted? k.member = none := by
  intro k inside
  exact (covers.skipped k inside).imp_left (List.mem_append_left _)

/-- A member that stands for no class changes nothing. -/
theorem pass (covers : Covers h done s) (none : h.denoted? member = none) :
    Covers h (done ++ [member]) s := by
  refine ⟨covers.readable, covers.recorded_append member, covers.skipped_append member, ?_⟩
  intro other listed name form denoted
  rcases List.mem_append.mp listed with old | last
  · exact covers.settled other old name form denoted
  · rw [List.mem_singleton.mp last, none] at denoted
    cases denoted

theorem step (covers : Covers h done s) (new : member ∉ done) :
    Covers h (done ++ [member]) (s.step h member) := by
  unfold Scan.step
  split
  · rename_i name form denoted
    have noRecord := covers.fresh_records new
    have noReport := covers.fresh_skipped new denoted
    have old {other : String} (listed : other ∈ done) : member ≠ other := by
      rintro rfl
      exact new listed
    rcases s.addMember_cases member name form (h.members.read member) with
      ⟨r, added, rfl, rfl, named, parsed⟩ | ⟨k, added, rfl, carries, failed⟩
    · rw [added]
      refine ⟨covers.readable, ?_, covers.skipped_append _, ?_⟩
      · intro q inside
        rcases List.mem_append.mp inside with before | last
        · exact covers.recorded_append _ q before
        · rw [List.mem_singleton.mp last]
          exact ⟨by simp, named, name, denoted⟩
      · intro other listed name' form' denoted'
        rcases List.mem_append.mp listed with before | last
        · exact (covers.settled other before name' form' denoted').append_record (old before)
        · obtain rfl := List.mem_singleton.mp last
          rw [denoted] at denoted'
          obtain ⟨rfl, rfl⟩ := Prod.mk.inj (Option.some.inj denoted')
          exact .inl ⟨r, by simp [noRecord], noReport, rfl, parsed⟩
    · rw [added]
      refine ⟨covers.readable, covers.recorded_append _, ?_, ?_⟩
      · intro q inside
        rcases List.mem_append.mp inside with before | last
        · exact covers.skipped_append _ q before
        · rw [List.mem_singleton.mp last]
          exact .inl (by simp)
      · intro other listed name' form' denoted'
        rcases List.mem_append.mp listed with before | last
        · exact (covers.settled other before name' form' denoted').append_skipped (old before)
        · obtain rfl := List.mem_singleton.mp last
          rw [denoted] at denoted'
          obtain ⟨rfl, rfl⟩ := Prod.mk.inj (Option.some.inj denoted')
          exact .inr ⟨k, by simp [noReport], noRecord, carries, failed⟩
  · rename_i none
    exact covers.pass none

theorem foldl (done : List String) {next : Scan → String → Scan}
    (steps : ∀ s member, next s member = s.step h member) (covers : Covers h done s)
    (nodup : (done ++ names).Nodup) :
    Covers h (done ++ names) (names.foldl next s) := by
  induction names generalizing done s with
  | nil => simpa using covers
  | cons member rest ih =>
    have new : member ∉ done := by
      intro old
      exact List.disjoint_of_nodup_append nodup old List.mem_cons_self
    have later := ih (done ++ [member]) (covers.step new) (by simpa using nodup)
    rw [← steps] at later
    simpa using later

theorem start (h : Holding) (e : Entry) : Covers h [] (.start e) :=
  ⟨rfl, by simp [Scan.start], by simp [Scan.start], by simp⟩

/-- A report on a member that stands for no class touches no class. -/
theorem skip (covers : Covers h done s) (none : h.denoted? member = none) (name : Option String)
    (reason : String) : Covers h done (s.skip member name reason) where
  readable := covers.readable
  recorded := covers.recorded
  skipped k inside := by
    rcases List.mem_append.mp inside with old | last
    · exact covers.skipped k old
    · rw [List.mem_singleton.mp last]
      exact .inr none
  settled other listed name form denoted := by
    refine (covers.settled other listed name form denoted).append_skipped ?_
    rintro rfl
    rw [none] at denoted
    cases denoted

theorem addModule (covers : Covers h done s) (none : h.denoted? member = none)
    (content : Except String Bytes) : Covers h done (s.addModule member content) := by
  unfold Scan.addModule
  split
  · exact covers.skip none _ _
  · split
    · exact ⟨covers.readable, covers.recorded, covers.skipped, covers.settled⟩
    · exact covers.skip none _ _

theorem scanMetadata (covers : Covers h done s) (m : Members) :
    Covers h done (scanMetadata s m).1 := by
  unfold Classpath.scanMetadata
  split
  · exact covers
  · rename_i properties found
    have none : h.denoted? properties = none := by
      have ending := List.find?_some found
      simp only [Bool.and_eq_true] at ending
      obtain ⟨front, shape⟩ := Text.endsWith_iff.mp ending.2
      rw [shape]
      exact denoted?_of_ending (by decide) (by decide) front
    simp only
    split
    · exact covers.skip none _ _
    · split
      · split
        · exact covers
        · exact covers.skip (denoted?_of_ending (by decide) (by decide) _) _ _
      · exact covers

theorem scanDirectory {m : Members} (nodup : m.names.Nodup)
    (scanned : scanDirectory (.start e) m = .ok s) : Covers (.directory m) m.names s := by
  have none : (Holding.directory m).denoted? moduleMember = none := by
    simp [Holding.denoted?, classNameOf?_module]
  have begun := start (.directory m) e
  unfold Classpath.scanDirectory at scanned
  split at scanned
  · split at scanned
    · cases scanned
    · obtain rfl := Except.ok.inj scanned
      refine foldl [] ?_ (begun.addModule none _) nodup
      intro s member
      cases named : classNameOf? member <;>
        simp [Scan.step, Holding.denoted?, Holding.members, named]
  · obtain rfl := Except.ok.inj scanned
    refine foldl [] ?_ begun nodup
    intro s member
    cases named : classNameOf? member <;>
      simp [Scan.step, Holding.denoted?, Holding.members, named]

theorem scanArchive {m : Members} (nodup : m.names.Nodup) (platform : Bool) (e : Entry) :
    Covers (.archive platform m) m.names (scanArchive (.start e) platform m) := by
  -- Only other fields of the report change around the metadata.
  have known {s : Scan} (covers : Covers (.archive platform m) [] s)
      (metadata : Option Metadata) :
      Covers (.archive platform m) [] { s with report := { s.report with metadata } } :=
    ⟨covers.readable, covers.recorded, covers.skipped, covers.settled⟩
  have begun := start (.archive platform m) e
  unfold Classpath.scanArchive
  simp only
  refine foldl [] ?_ ?_ nodup
  · intro s member
    split
    · rename_i absent
      have found : versionedPath? m.multiRelease platform member = none := absent
      simp [Scan.step, Holding.denoted?, found]
    · rename_i path form present
      have found : versionedPath? m.multiRelease platform member = some (path, form) := present
      cases named : classNameOf? path <;>
        simp [Scan.step, Holding.denoted?, Holding.members, found, named]
  · split
    · rename_i member found
      have path := List.find?_some found
      rw [beq_iff_eq] at path
      have none := denoted?_module (m := m) path
      refine Covers.addModule (known (Covers.scanMetadata ?_ m) _) none _
      exact ⟨begun.readable, begun.recorded, begun.skipped, begun.settled⟩
    · refine known (Covers.scanMetadata ?_ m) _
      exact ⟨begun.readable, begun.recorded, begun.skipped, begun.settled⟩

end Covers

/-- Scanning an entry accounts for all of its members. -/
theorem covers_of_scan (nodup : h.members.names.Nodup) (scanned : h.scan (.start e) = .ok s) :
    Covers h h.members.names s := by
  cases h with
  | directory m => exact Covers.scanDirectory nodup scanned
  | archive platform m =>
    obtain rfl := Except.ok.inj scanned
    exact Covers.scanArchive nodup platform e

end Scan

end Linkage.Classpath
