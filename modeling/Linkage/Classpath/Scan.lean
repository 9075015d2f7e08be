import Linkage.Archive.Zip
import Linkage.ClassFile.Reader
import Linkage.Classpath.Index
import Linkage.Library.Project

/-!
Scanning entries into an index. Whatever an entry is, it is seen as `Members`: names in ascending
order and a way to read each. A member that names a class turns into a record or, when it cannot
be read, into a report on what was skipped.
-/
namespace Linkage.Classpath

open Text (Bytes)

/-- The files of a directory or of an archive. Reading one gives its bytes or the reason why not. -/
structure Members where
  names : List String
  read : String → Except String Bytes

/-- What scanning one entry has gathered. -/
structure Scan where
  report : Report
  records : List Record := []
  skipped : List Skipped := []
  unreadable : Option Unreadable := none
  deriving Repr, DecidableEq, Inhabited

namespace Scan

def start (e : Entry) : Scan := { report := ⟨e, none, false, e.module?, 0⟩ }

def skip (s : Scan) (member : String) (name : Option String) (reason : String) : Scan :=
  let e := s.report.entry
  { s with skipped := s.skipped ++ [⟨e.ordinal, e.location, member, name, reason⟩] }

def add (s : Scan) (member : String) (variant : Variant) (stub : ClassStub) : Scan :=
  let e := s.report.entry
  let origin : Origin :=
    ⟨e.ordinal, e.owner, e.kind.source, e.location, member, s.report.module, stub.package⟩
  { s with records := s.records ++ [⟨stub.name, origin, variant, s.report.multiRelease, stub⟩] }

/-- A member that names a class. -/
def addMember (s : Scan) (member name : String) (variant : Variant)
    (content : Except String Bytes) : Scan :=
  match content with
  | .error reason => s.skip member (some name) reason
  | .ok bytes =>
    match ClassFile.parse bytes with
    | .ok stub => s.add member variant stub
    | .error fault => s.skip member (some name) fault.message

/-- The declaration of the module that an entry holds. -/
def addModule (s : Scan) (member : String) (content : Except String Bytes) : Scan :=
  match content with
  | .error reason => s.skip member none reason
  | .ok bytes =>
    match ClassFile.parseModule bytes with
    | .ok info => { s with report := { s.report with module := some info.name } }
    | .error fault => s.skip member none fault.message

end Scan

/-- The class that a member of that name is meant to hold. -/
def classNameOf? (member : String) : Option String :=
  match Text.stripEnd? ".class" member with
  | none => none
  | some stem =>
    let simple := match Text.splitLast? '/' stem with
      | some (_, s) => s
      | none => stem
    if simple = "module-info" ∨ simple = "package-info" then none
    else some (Text.replaceChar '/' '.' stem)

def moduleMember : String := "module-info.class"

/-- A directory; it cannot be read when its module declaration cannot. -/
def scanDirectory (s : Scan) (m : Members) : Except String Scan := do
  let s ← if m.names.contains moduleMember then
      match m.read moduleMember with
      | .error reason => throw reason
      | .ok bytes => pure (s.addModule moduleMember (.ok bytes))
    else pure s
  pure (m.names.foldl (fun s name =>
    match classNameOf? name with
    | some className => s.addMember name className .base (m.read name)
    | none => s) s)

def manifestMember : String := "META-INF/MANIFEST.MF"

def versionsFolder : String := "META-INF/versions/"

/-- The first release that may have a form of its own. -/
def leastRelease : Nat := 9

def declaresMultiRelease (manifest : String) : Bool :=
  (Text.lines manifest).any fun line =>
    match Text.splitFirst? ':' line with
    | some (key, value) =>
      Text.sameIgnoringCase (Text.trim key) "Multi-Release" &&
        Text.sameIgnoringCase (Text.trim value) "true"
    | none => false

/-- The path of a member as a class; only platform modules keep their classes in a folder. -/
def archivePath (platform : Bool) (name : String) : String :=
  if platform then (Text.stripStart? "classes/" name).getD name else name

/-- The path and the release of a member that may hold a class. -/
def versionedPath? (multiRelease platform : Bool) (name : String) : Option (String × Variant) :=
  match Text.stripStart? versionsFolder name with
  | some rest =>
    if !multiRelease then none
    else match Text.splitFirst? '/' rest with
      | none => none
      | some (release, path) =>
        match Text.numeral? 65535 release with
        | none => none
        | some r => if r < leastRelease then none else some (path, .versioned r)
  | none =>
    if Text.startsWith "META-INF/" name then none else some (archivePath platform name, .base)

def libraryFolder : String := "META-INF/maven/"

def propertiesTail : String := "/pom.properties"

/-- Drops a tail as often as the text ends with it. -/
def dropTails (tail : String) : Nat → String → String
  | 0, s => s
  | fuel + 1, s =>
    match Text.stripEnd? tail s with
    | some rest => dropTails tail fuel rest
    | none => s

/-- Member text is decoded leniently. -/
def readText (m : Members) (name : String) : Except String String :=
  (m.read name).map Text.decodeUtf8Lenient

/-- The library that an archive says it is, from the first properties member that it holds. -/
def scanMetadata (s : Scan) (m : Members) : Scan × Option Metadata :=
  match m.names.find? fun n =>
      Text.startsWith libraryFolder n && Text.endsWith propertiesTail n with
  | none => (s, none)
  | some propertiesName =>
    let parsed := do
      let text ← readText m propertiesName
      (Project.coordinate text).mapError Project.Fault.message
    match parsed with
    | .error reason => (s.skip propertiesName none reason, none)
    | .ok (coordinate, version) =>
      let projectName := dropTails propertiesTail propertiesName.length propertiesName ++ "/pom.xml"
      if m.names.contains projectName then
        let parsed := do
          let text ← readText m projectName
          (Project.dependencies text).mapError Project.Fault.message
        match parsed with
        | .ok dependencies => (s, some ⟨coordinate, version, dependencies⟩)
        | .error reason => (s.skip projectName none reason, some ⟨coordinate, version, []⟩)
      else (s, some ⟨coordinate, version, []⟩)

/-- An archive; `platform` says whether it is a module of the platform. -/
def scanArchive (s : Scan) (platform : Bool) (m : Members) : Scan :=
  let multiRelease := m.names.contains manifestMember &&
    (match readText m manifestMember with
      | .ok text => declaresMultiRelease text
      | .error _ => false)
  let s := { s with report := { s.report with multiRelease } }
  let (s, metadata) := scanMetadata s m
  let s := { s with report := { s.report with metadata } }
  let s := match m.names.find? (archivePath platform · == moduleMember) with
    | some name => s.addModule name (m.read name)
    | none => s
  m.names.foldl (fun s name =>
    match versionedPath? multiRelease platform name with
    | none => s
    | some (path, variant) =>
      match classNameOf? path with
      | some className => s.addMember name className variant (m.read name)
      | none => s) s

/-- The files below a directory, named by the way to them. -/
def directoryMembers (tree : FileTree) (root : String) : Except OsError Members :=
  match tree.locate root with
  | .error e => .error e
  | .ok key =>
    let files := (tree.below key).filterMap fun (k, node) =>
      match node with
      | .file bytes _ => some (String.intercalate "/" k, bytes)
      | .directory _ => none
    .ok ⟨Text.sortedStrings (files.map (·.1)), fun name =>
      match files.find? (·.1 == name) with
      | some (_, bytes) => .ok bytes
      | none => .error ("IO error while scanning " ++ name ++ ": " ++ OsError.notFound.message)⟩

/-- The members of an archive without its folders. -/
def archiveMembers (zip : Archive.Zip) : Members :=
  ⟨zip.names.filter (!Text.endsWith "/" ·), fun name =>
    match zip.read name with
    | .ok bytes => .ok bytes
    | .refused fault => .error ("ZIP error while scanning " ++ name ++ ": " ++ fault.message)
    | .unreadable reason => .error ("IO error while scanning " ++ name ++ ": " ++ reason)⟩

/-- What an entry holds once it is open: a directory, or an archive, which may be a module of the
platform. -/
inductive Holding where
  | directory (members : Members)
  | archive (platform : Bool) (members : Members)

namespace Holding

def members : Holding → Members
  | .directory m => m
  | .archive _ m => m

def scan (s : Scan) : Holding → Except String Scan
  | .directory m => scanDirectory s m
  | .archive platform m => .ok (scanArchive s platform m)

end Holding

def openDirectory (tree : FileTree) (root : String) : Except String Holding :=
  if tree.isDirectory root then
    match directoryMembers tree root with
    | .ok members => .ok (.directory members)
    | .error e => .error ("IO error while scanning " ++ root ++ ": " ++ e.message)
  else .error ("IO error while scanning " ++ root ++ ": directory does not exist")

def openArchive (tree : FileTree) (path : String) : Except String Holding :=
  match tree.read path with
  | .error .isDirectory =>
    .error ("ZIP error while scanning " ++ path ++ ": " ++ OsError.isDirectory.message)
  | .error e => .error ("IO error while scanning " ++ path ++ ": " ++ e.message)
  | .ok bytes =>
    match Archive.Zip.open bytes with
    | .error fault => .error ("ZIP error while scanning " ++ path ++ ": " ++ fault.message)
    | .ok zip => .ok (.archive (Path.extension? path == some "jmod") (archiveMembers zip))

/-- A module of the runtime image: an archive of its own, or a directory of the image. -/
def openModule (tree : FileTree) (image : Option String) (name : String) :
    Except String Holding :=
  let missing := .error ("runtime module `" ++ name ++ "` not found (runtime image: " ++
    image.getD "<none>" ++ ")")
  match image with
  | none => missing
  | some home =>
    let packed := Path.join (Path.join home "jmods") (name ++ ".jmod")
    let exploded := Path.join (Path.join home "modules") name
    if tree.isFile packed then openArchive tree packed
    else if tree.isDirectory exploded then openDirectory tree exploded
    else missing

def openEntry (tree : FileTree) (image : Option String) (e : Entry) : Except String Holding :=
  match e.kind with
  | .directory => openDirectory tree e.path
  | .archive => openArchive tree e.path
  | .runtimeModule name => openModule tree image name

/-- The scan of an entry; one that cannot be opened or read leaves a report only. -/
def scanEntry (e : Entry) (holding : Except String Holding) : Scan :=
  match holding >>= Holding.scan (.start e) with
  | .ok s => s
  | .error reason => { Scan.start e with unreadable := some ⟨e.ordinal, e.location, reason⟩ }

/-- Adds a scan behind the entries that are there. -/
def Index.push (ix : Index) (s : Scan) : Index :=
  let records := s.records.mergeSort Record.le
  { reports := ix.reports ++ [{ s.report with classCount := records.length }]
    records := ix.records ++ records
    skipped := ix.skipped ++ s.skipped
    unreadable := ix.unreadable ++ s.unreadable.toList }

/-- The index of entries in their order, from what each of them holds. -/
def Index.gather (holding : Entry → Except String Holding) (entries : List Entry) : Index :=
  (entries.map fun e => scanEntry e (holding e)).foldl Index.push {}

/-- The index of the entries of a class path. -/
def Index.build (tree : FileTree) (image : Option String) (entries : List Entry) : Index :=
  Index.gather (openEntry tree image) entries

end Linkage.Classpath
