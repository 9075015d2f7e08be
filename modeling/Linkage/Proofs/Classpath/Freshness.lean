import Linkage.Classpath.Scan
import Linkage.Classpath.Store
import Linkage.Library.Bundle
import Linkage.Proofs.FileTree.Changes

/-!
What a fingerprint watches. The index of a class path comes from the files that its scan opens, and
the fingerprint notes the state of each entry's path. For an archive these are one file. A module of
the runtime image is opened inside the image, while the path of its entry is the reference to it,
where there is nothing; so the archives of an image are not watched.
-/
namespace Linkage.Classpath

section Stamps
variable {tree before after : FileTree} {path : String}

theorem isFile_iff :
    tree.isFile path = true ↔ ∃ bytes modified, tree.stat path = .ok (.file bytes modified) := by
  unfold FileTree.isFile
  split
  · rename_i bytes modified found
    simp [found]
  · rename_i other
    simp only [Bool.false_eq_true, false_iff, not_exists]
    exact other

theorem pathState_eq_file_iff {size : Nat} {second : Option Nat} :
    pathState tree path = .file size second ↔ ∃ bytes modified,
      tree.stat path = .ok (.file bytes modified) ∧ bytes.length = size ∧
        modified.toNat? = second := by
  unfold pathState FileTree.stat
  cases tree.locate path with
  | error e => simp
  | ok key =>
    cases found : tree.node? key with
    | none => simp [found]
    | some node => cases node <;> simp [found, directoryState]

/-- A file stands at the path both times, of one length and last changed in one second. Times
before 1970 are not told apart. -/
def SameStamp (before after : FileTree) (path : String) : Prop :=
  ∃ bytes modified bytes' modified', before.stat path = .ok (.file bytes modified) ∧
    after.stat path = .ok (.file bytes' modified') ∧ bytes.length = bytes'.length ∧
    (modified = modified' ∨ (modified < 0 ∧ modified' < 0))

theorem toNat?_eq_iff {a b : Int} : a.toNat? = b.toNat? ↔ a = b ∨ (a < 0 ∧ b < 0) := by
  cases a with
  | ofNat m =>
    cases b with
    | ofNat n =>
      simp only [Int.toNat?, Option.some.injEq, Int.ofNat_eq_natCast]
      omega
    | negSucc n => simp [Int.toNat?]
  | negSucc m => cases b <;> simp [Int.toNat?, Int.negSucc_lt_zero]

theorem sameStamp_of_pathState (same : pathState before path = pathState after path)
    (file : before.isFile path = true ∨ after.isFile path = true) :
    SameStamp before after path := by
  have noted : ∃ size second, pathState before path = .file size second := by
    rcases file with file | file
    · obtain ⟨bytes, modified, found⟩ := isFile_iff.mp file
      exact ⟨_, _, pathState_eq_file_iff.mpr ⟨bytes, modified, found, rfl, rfl⟩⟩
    · obtain ⟨bytes, modified, found⟩ := isFile_iff.mp file
      exact ⟨_, _, same.trans (pathState_eq_file_iff.mpr ⟨bytes, modified, found, rfl, rfl⟩)⟩
  obtain ⟨size, second, state⟩ := noted
  obtain ⟨bytes, modified, found, size_eq, second_eq⟩ := pathState_eq_file_iff.mp state
  obtain ⟨bytes', modified', found', size_eq', second_eq'⟩ :=
    pathState_eq_file_iff.mp (same.symm.trans state)
  exact ⟨bytes, modified, bytes', modified', found, found', size_eq.trans size_eq'.symm,
    toNat?_eq_iff.mp (second_eq.trans second_eq'.symm)⟩

theorem SameStamp.pathState_eq (same : SameStamp before after path) :
    pathState before path = pathState after path := by
  obtain ⟨bytes, modified, bytes', modified', found, found', length, second⟩ := same
  rw [pathState_eq_file_iff.mpr ⟨bytes, modified, found, rfl, rfl⟩]
  exact (pathState_eq_file_iff.mpr
    ⟨bytes', modified', found', length.symm, (toNat?_eq_iff.mpr second).symm⟩).symm

end Stamps

section Opening
variable {tree : FileTree} {image : Option String} {e : Entry} {path : String}

/-- Where the runtime image keeps the archive of a module. -/
def moduleArchive (home name : String) : String :=
  Path.join (Path.join home "jmods") (name ++ ".jmod")

/-- The scan of an entry opens the file at a path as an archive. -/
inductive Opens (tree : FileTree) (image : Option String) (e : Entry) : String → Prop where
  | archive (kind : e.kind = .archive) (file : tree.isFile e.path = true) :
      Opens tree image e e.path
  | module {home name : String} (kind : e.kind = .runtimeModule name) (inside : image = some home)
      (file : tree.isFile (moduleArchive home name) = true) :
      Opens tree image e (moduleArchive home name)

theorem Opens.isFile (opens : Opens tree image e path) : tree.isFile path = true := by
  cases opens with
  | archive _ file => exact file
  | module _ _ file => exact file

theorem Opens.openEntry_eq (opens : Opens tree image e path) :
    openEntry tree image e = openArchive tree path := by
  cases opens with
  | archive kind => simp only [openEntry, kind]
  | module kind inside file =>
    rw [moduleArchive] at file ⊢
    simp only [openEntry, openModule, kind, inside, file, if_true]

theorem openArchive_isFile {holding : Holding} (opened : openArchive tree path = .ok holding) :
    tree.isFile path = true := by
  unfold openArchive FileTree.read FileTree.readAt at opened
  rw [isFile_iff]
  unfold FileTree.stat
  cases located : tree.locate path with
  | error fault =>
    rw [located] at opened
    cases fault <;> cases opened
  | ok key =>
    rw [located] at opened
    cases found : tree.node? key with
    | none =>
      simp only [found] at opened
      cases opened
    | some node =>
      cases node with
      | file bytes modified => exact ⟨bytes, modified, by simp only [found]⟩
      | directory modified =>
        simp only [found] at opened
        cases opened

/-- Whatever archive the scan of an entry reads, it reads from a file that it opens. -/
theorem exists_opens {platform : Bool} {members : Members}
    (opened : openEntry tree image e = .ok (.archive platform members)) :
    ∃ path, Opens tree image e path ∧ openEntry tree image e = openArchive tree path := by
  have directory {root : String} : openDirectory tree root ≠ .ok (.archive platform members) := by
    unfold openDirectory
    repeat' split
    all_goals simp
  suffices ∃ path, Opens tree image e path by
    obtain ⟨path, opens⟩ := this
    exact ⟨path, opens, opens.openEntry_eq⟩
  cases kind : e.kind with
  | directory =>
    simp only [openEntry, kind] at opened
    exact absurd opened directory
  | archive =>
    simp only [openEntry, kind] at opened
    exact ⟨e.path, .archive kind (openArchive_isFile opened)⟩
  | runtimeModule name =>
    simp only [openEntry, kind, openModule] at opened
    cases inside : image with
    | none =>
      rw [inside] at opened
      cases opened
    | some home =>
      simp only [inside] at opened
      split at opened
      · rename_i file
        exact ⟨_, .module kind rfl file⟩
      · split at opened
        · exact absurd opened directory
        · cases opened

end Opening

namespace Fingerprint
variable {before after : FileTree} {image : Option String} {entries : List Entry}

/-- Fingerprints of one class path agree where the states of its paths do. -/
theorem same_capture_iff :
    (capture before image entries).same (capture after image entries) = true ↔
      ∀ e ∈ entries, pathState before e.path = pathState after e.path := by
  simp only [same, capture, List.length_map, beq_self_eq_true, Bool.true_and, List.zip_map',
    List.all_map, List.all_eq_true, Function.comp_apply, EntryPrint.same, beq_iff_eq]

end Fingerprint

/-- The directory that a reference to a module would lie in. -/
def schemeFolder : String := "jrt:"

theorem splitAll_reference (name : String) :
    Text.splitAll '/' (moduleScheme ++ name) = schemeFolder :: Text.splitAll '/' name := by
  have cut : moduleScheme ++ name = schemeFolder ++ String.singleton '/' ++ name := by
    rw [show moduleScheme = schemeFolder ++ String.singleton '/' by decide]
  rw [cut, Text.splitAll_append_cut, Text.splitAll_of_not_mem (by decide), List.singleton_append]

/-- Whatever reaches a reference to a module enters the folder of its scheme. -/
theorem mem_wayOf_reference (name : String) :
    [schemeFolder] ∈ FileTree.wayOf (moduleScheme ++ name) := by
  obtain ⟨piece, rest, more⟩ := List.exists_cons_of_ne_nil (Text.splitAll_ne_nil (c := '/') name)
  have relative : Path.isAbsolute (moduleScheme ++ name) = false := by
    rw [Path.isAbsolute, Text.startsWith, String.toList_append]
    rfl
  have stepped : FileTree.stepTo [] schemeFolder = [schemeFolder] := by decide
  simp [FileTree.wayOf, FileTree.startOf, relative, splitAll_reference, more, FileTree.way, stepped]

/-- Nothing is noted of a module where nothing stands under the scheme of its reference. -/
theorem pathState_reference {tree : FileTree} (free : tree.node? [schemeFolder] = none)
    (name : String) : pathState tree (moduleScheme ++ name) = .missing := by
  cases located : tree.locate (moduleScheme ++ name) with
  | error fault => simp only [pathState, located]
  | ok key =>
    obtain ⟨⟨_, along⟩, _⟩ := FileTree.locate_eq_ok_iff.mp located
    have dir : tree.occupant? [schemeFolder] = some .directory := along _ (mem_wayOf_reference name)
    rw [FileTree.occupant?, free] at dir
    cases dir

namespace Store

/-- The store answers a fingerprint with an index that is filed under another one. -/
def Answers (store : FileTree) (root : String) (filed asked : Fingerprint) (ix : Index) : Prop :=
  load store root asked = .ok (some ix) ∧
    ∃ place bytes rest, placeFor store root asked = .ok place ∧ store.readAt place = .ok bytes ∧
      file.decode bytes = some ((formatVersion, filed, ix), rest)

/-- Only an index that is filed under the same fingerprint is an answer. -/
theorem Answers.same {store : FileTree} {root : String} {filed asked : Fingerprint} {ix : Index}
    (answers : Answers store root filed asked ix) : filed.same asked = true := by
  obtain ⟨loaded, place, bytes, rest, placed, read, decoded⟩ := answers
  simp only [load, placed, read, unpack, decoded, ne_eq, not_true_eq_false, if_false] at loaded
  split at loaded
  · cases loaded
  · cases same : filed.same asked with
    | true => rfl
    | false =>
      rw [same] at loaded
      cases loaded

end Store

/-- Every archive that the scan opens for an entry of that kind, before or after, is a file of one
length and one second of change. -/
def ArchivesKept (image : Option String) (entries : List Entry) (before after : FileTree) : Prop :=
  ∀ e ∈ entries, e.kind = .archive → ∀ path,
    Opens before image e path ∨ Opens after image e path → SameStamp before after path

/-- A fingerprint watches archives and nothing else. Of two states of a file tree with one
fingerprint, every archive on the class path has kept its length and its second of change, and so
has it when a store answers in the second state with what was filed in the first. Modules of the
runtime image play no part: where nothing stands under the scheme of their references, the
fingerprints agree if and only if the states of the archives do, whatever became of the image. What
a scan reads as an archive it reads from a file that it opens. -/
theorem fingerprint_watches_archives (image : Option String) (entries : List Entry)
    (before after : FileTree) :
    let filed := Fingerprint.capture before image entries
    let asked := Fingerprint.capture after image entries
    (filed.same asked = true → ArchivesKept image entries before after) ∧
    (∀ store root ix, Store.Answers store root filed asked ix →
      ArchivesKept image entries before after) ∧
    (before.node? [schemeFolder] = none → after.node? [schemeFolder] = none →
      (∀ e ∈ entries, e.kind = .archive ∨
        ∃ name, e.kind = .runtimeModule name ∧ e.path = moduleScheme ++ name) →
      (filed.same asked = true ↔ ∀ e ∈ entries, e.kind = .archive →
        pathState before e.path = pathState after e.path)) ∧
    ∀ tree e platform members, openEntry tree image e = .ok (.archive platform members) →
      ∃ path, Opens tree image e path ∧ openEntry tree image e = openArchive tree path := by
  intro filed asked
  have kept : filed.same asked = true → ArchivesKept image entries before after := by
    intro same e listed kind path opens
    have state := Fingerprint.same_capture_iff.mp same e listed
    have own : path = e.path := by
      rcases opens with opens | opens
      all_goals
        cases opens with
        | archive => rfl
        | module other => cases kind.symm.trans other
    subst own
    exact sameStamp_of_pathState state (opens.imp Opens.isFile Opens.isFile)
  refine ⟨kept, fun _ _ _ answers => kept answers.same, ?_, fun _ _ _ _ => exists_opens⟩
  intro free free' formed
  rw [Fingerprint.same_capture_iff]
  constructor
  · intro states e listed _
    exact states e listed
  · intro states e listed
    rcases formed e listed with archive | ⟨name, _, reference⟩
    · exact states e listed archive
    · rw [reference, pathState_reference free, pathState_reference free']

/-- A library beside a runtime image with one module, whose archive holds some classes. -/
private def platformTree (library : Text.Bytes) (classes : List String) : FileTree where
  nodes := [(["lib.jar"], .file library 0), (["jdk"], .directory 0),
    (["jdk", "jmods"], .directory 0),
    (["jdk", "jmods", "java.base.jmod"],
      .file (Library.bundle (classes.map fun name => .classFile { name } none)) 0)]

private def libraryEntry : Entry := ⟨0, .archive, "lib.jar", .library⟩

private def moduleEntry : Entry := .runtimeModule 1 "java.base" .library

theorem fingerprint_watches_archives_replaced :
    let before := platformTree [1] ["demo.Early"]
    let after := platformTree [1, 2] ["demo.Early"]
    let entries := [libraryEntry, moduleEntry]
    Opens before (some "jdk") libraryEntry "lib.jar" ∧
    (Fingerprint.capture before (some "jdk") entries).same
      (Fingerprint.capture after (some "jdk") entries) = false ∧
    ∀ store root ix, ¬ Store.Answers store root (Fingerprint.capture before (some "jdk") entries)
      (Fingerprint.capture after (some "jdk") entries) ix := by
  intro before after entries
  have opens : Opens before (some "jdk") libraryEntry "lib.jar" := .archive rfl (by decide +kernel)
  have replaced : ¬ ArchivesKept (some "jdk") entries before after := by
    intro kept
    have longer : pathState before "lib.jar" ≠ pathState after "lib.jar" := by decide +kernel
    exact longer (kept libraryEntry List.mem_cons_self rfl "lib.jar" (Or.inl opens)).pathState_eq
  obtain ⟨kept, answered, _⟩ := fingerprint_watches_archives (some "jdk") entries before after
  refine ⟨opens, ?_, fun store root ix answers => replaced (answered store root ix answers)⟩
  rw [Bool.eq_false_iff]
  exact fun same => replaced (kept same)

/-- The archive of a module is replaced by a longer one, and the fingerprint stays the same. -/
theorem module_archive_unwatched :
    let before := platformTree [1] ["demo.Early"]
    let after := platformTree [1] ["demo.Early", "demo.Late"]
    (Fingerprint.capture before (some "jdk") [moduleEntry]).same
      (Fingerprint.capture after (some "jdk") [moduleEntry]) = true ∧
    Opens before (some "jdk") moduleEntry "jdk/jmods/java.base.jmod" ∧
    Opens after (some "jdk") moduleEntry "jdk/jmods/java.base.jmod" ∧
    ¬ SameStamp before after "jdk/jmods/java.base.jmod" := by
  intro before after
  have place : moduleArchive "jdk" "java.base" = "jdk/jmods/java.base.jmod" := by decide
  refine ⟨by decide +kernel, place ▸ .module rfl rfl (by decide +kernel),
    place ▸ .module rfl rfl (by decide +kernel), ?_⟩
  have longer : pathState before "jdk/jmods/java.base.jmod" ≠
      pathState after "jdk/jmods/java.base.jmod" := by
    decide +kernel
  exact fun same => longer same.pathState_eq

end Linkage.Classpath
