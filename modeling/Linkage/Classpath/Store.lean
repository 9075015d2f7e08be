import Linkage.Classpath.Fingerprint
import Linkage.Classpath.Index
import Linkage.Codec
import Linkage.FileTree.Action
import Linkage.Text.Hex

/-!
Stored indexes. An index is filed under the fingerprint of the class path that it was built from,
in a file that repeats the fingerprint, so that a file in the wrong place is noticed.
-/
namespace Linkage.Classpath.Store

open Text (Bytes)

def primitive : Codec Primitive := .oneOf Primitive.all

mutual

def encodeTy : Ty → Bytes
  | .primitive p => Codec.u32.encode 0 ++ primitive.encode p
  | .reference name args =>
    Codec.u32.encode 1 ++ Codec.string.encode name ++ Codec.u64.encode args.length ++ encodeTys args
  | .array element dimensions =>
    Codec.u32.encode 2 ++ encodeTy element ++ Codec.u8.encode dimensions
  | .variable name => Codec.u32.encode 3 ++ Codec.string.encode name
  | .void => Codec.u32.encode 4

def encodeTys : List Ty → Bytes
  | [] => []
  | t :: rest => encodeTy t ++ encodeTys rest

end

mutual

def decodeTy : Nat → Bytes → Option (Ty × Bytes)
  | 0, _ => none
  | fuel + 1, bytes =>
    match Codec.u32.decode bytes with
    | some (0, rest) => (primitive.decode rest).map fun (p, rest) => (.primitive p, rest)
    | some (1, rest) => do
      let (name, rest) ← Codec.string.decode rest
      let (count, rest) ← Codec.u64.decode rest
      let (args, rest) ← if rest.length < count then none else decodeTys fuel count rest
      pure (.reference name args, rest)
    | some (2, rest) => do
      let (element, rest) ← decodeTy fuel rest
      let (dimensions, rest) ← Codec.u8.decode rest
      pure (.array element dimensions, rest)
    | some (3, rest) => (Codec.string.decode rest).map fun (n, rest) => (.variable n, rest)
    | some (4, rest) => some (.void, rest)
    | _ => none

def decodeTys : Nat → Nat → Bytes → Option (List Ty × Bytes)
  | 0, _, _ => none
  | _ + 1, 0, bytes => some ([], bytes)
  | fuel + 1, count + 1, bytes => do
    let (t, rest) ← decodeTy fuel bytes
    let (ts, rest) ← decodeTys fuel count rest
    pure (t :: ts, rest)

end

def ty : Codec Ty := ⟨encodeTy, fun bytes => decodeTy (2 * bytes.length + 2) bytes⟩

def owner : Codec Owner := .oneOf [.program, .library]

def kind : Codec EntryKind where
  encode
    | .directory => Codec.u32.encode 0
    | .archive => Codec.u32.encode 1
    | .runtimeModule name => Codec.u32.encode 2 ++ Codec.string.encode name
  decode bytes :=
    match Codec.u32.decode bytes with
    | some (0, rest) => some (.directory, rest)
    | some (1, rest) => some (.archive, rest)
    | some (2, rest) => (Codec.string.decode rest).map fun (n, rest) => (.runtimeModule n, rest)
    | _ => none

def entry : Codec Entry :=
  ((Codec.u64.pair kind).pair (Codec.string.pair owner)).map
    (fun ((o, k), p, w) => ⟨o, k, p, w⟩) (fun e => ((e.ordinal, e.kind), e.path, e.owner))

def state : Codec PathState where
  encode
    | .missing => Codec.u32.encode 0
    | .file size modified =>
      Codec.u32.encode 1 ++ Codec.u64.encode size ++ Codec.u64.option.encode modified
    | .directory count size latest =>
      Codec.u32.encode 2 ++ Codec.u64.encode count ++ Codec.u64.encode size ++
        Codec.u64.option.encode latest
  decode bytes :=
    match Codec.u32.decode bytes with
    | some (0, rest) => some (.missing, rest)
    | some (1, rest) => do
      let (size, rest) ← Codec.u64.decode rest
      let (modified, rest) ← Codec.u64.option.decode rest
      pure (.file size modified, rest)
    | some (2, rest) => do
      let (count, rest) ← Codec.u64.decode rest
      let (size, rest) ← Codec.u64.decode rest
      let (latest, rest) ← Codec.u64.option.decode rest
      pure (.directory count size latest, rest)
    | _ => none

/-- The version of the fingerprint stands in front of it. -/
def fingerprint : Codec Fingerprint :=
  (Codec.u32.pair ((Codec.string.option).pair (Codec.list ((entry.pair state).map
    (fun (e, s) => EntryPrint.mk e s) (fun p => (p.entry, p.state)))))).mapSome
    (fun (v, image, entries) => if v = 1 then some ⟨image, entries⟩ else none)
    (fun f => (1, f.image, f.entries))

def coordinate : Codec Coordinate :=
  (Codec.string.pair Codec.string).map (fun (g, a) => ⟨g, a⟩) (fun c => (c.group, c.artifact))

def dependency : Codec Dependency :=
  ((coordinate.pair Codec.string.option).pair (Codec.string.option.pair Codec.bool)).map
    (fun ((c, v), s, o) => ⟨c, v, s, o⟩) (fun d => ((d.coordinate, d.version), d.scope, d.isOptional))

def metadata : Codec Metadata :=
  ((coordinate.pair Codec.string).pair dependency.list).map
    (fun ((c, v), ds) => ⟨c, v, ds⟩) (fun m => ((m.coordinate, m.version), m.dependencies))

def report : Codec Report :=
  (((entry.pair metadata.option).pair (Codec.bool.pair Codec.string.option)).pair Codec.u64).map
    (fun (((e, m), r, n), c) => ⟨e, m, r, n, c⟩)
    (fun r => (((r.entry, r.metadata), r.multiRelease, r.module), r.classCount))

def source : Codec String := .oneOf ["directory", "archive", "runtime-module"]

def origin : Codec Origin :=
  (((Codec.u64.pair owner).pair (source.pair Codec.string)).pair
    ((Codec.string.pair Codec.string.option).pair Codec.string)).map
    (fun (((e, w), s, l), (m, n), p) => ⟨e, w, s, l, m, n, p⟩)
    (fun o => (((o.entry, o.owner), o.source, o.location), (o.member, o.module), o.package))

def variant : Codec Variant where
  encode
    | .base => Codec.u32.encode 0
    | .versioned r => Codec.u32.encode 1 ++ Codec.u16.encode r
  decode bytes :=
    match Codec.u32.decode bytes with
    | some (0, rest) => some (.base, rest)
    | some (1, rest) => (Codec.u16.decode rest).map fun (r, rest) => (.versioned r, rest)
    | _ => none

def generic : Codec GenericSignature :=
  (ty.list.pair ty).map (fun (ps, r) => ⟨ps, r⟩) (fun g => (g.parameters, g.result))

def access : Codec Access := Codec.u16.map Access.mk Access.bits

def member : Codec Member :=
  (((Codec.string.pair (.oneOf [.method, .constructor, .field])).pair (access.pair Codec.string)).pair
    ((ty.list.pair ty).pair generic.option)).map
    (fun (((n, k), a, d), (ps, r), g) => ⟨n, k, a, d, ps, r, g⟩)
    (fun m => (((m.name, m.kind), m.access, m.descriptor), (m.parameters, m.result), m.generic))

def stub : Codec ClassStub :=
  (((Codec.string.pair access).pair (Codec.string.option.pair Codec.string.list)).pair
    (member.list.pair Codec.string.list)).map
    (fun (((n, a), s, i), ms, cs) => ⟨n, a, s, i, ms, cs⟩)
    (fun c => (((c.name, c.access), c.superClass, c.interfaces), c.members, c.enumConstants))

def record : Codec Record :=
  (((Codec.string.pair origin).pair (variant.pair Codec.bool)).pair stub).map
    (fun (((n, o), v, m), c) => ⟨n, o, v, m, c⟩)
    (fun r => (((r.name, r.origin), r.variant, r.multiRelease), r.stub))

def skipped : Codec Skipped :=
  (((Codec.u64.pair Codec.string).pair (Codec.string.pair Codec.string.option)).pair Codec.string).map
    (fun (((e, l), m, n), r) => ⟨e, l, m, n, r⟩)
    (fun s => (((s.entry, s.location), s.member, s.name), s.reason))

def unreadable : Codec Unreadable :=
  ((Codec.u64.pair Codec.string).pair Codec.string).map
    (fun ((e, l), r) => ⟨e, l, r⟩) (fun u => ((u.entry, u.location), u.reason))

/-- An index is written with its records gathered by name. -/
def index : Codec Index :=
  ((report.list.pair (Codec.string.pair record.list).list).pair
    (skipped.list.pair unreadable.list)).map
    (fun ((rs, ss), sk, us) => ⟨rs, ss.flatMap (·.2), sk, us⟩)
    (fun ix => ((ix.reports, ix.symbols), ix.skipped, ix.unreadable))

/-- The version of the file format. -/
def formatVersion : Nat := 1

/-- A stored file: format version, fingerprint, index. -/
def file : Codec (Nat × Fingerprint × Index) := Codec.u32.pair (fingerprint.pair index)

inductive Fault where
  | io (e : OsError)
  | malformed
  | version (found : Nat)
  | otherFingerprint
  deriving Repr, DecidableEq

def Fault.message : Fault → String
  | .io e => "cache IO error: " ++ e.message
  | .malformed => "cache encoding error"
  | .version found =>
    s!"cache version mismatch (expected {formatVersion}, found {found})"
  | .otherFingerprint => "cache fingerprint mismatch"

/-- A fingerprint's key: its written form in hexadecimal digits. -/
def key (f : Fingerprint) : String :=
  Text.hex (fingerprint.encode f)

/-- The directory of a store, which has to be there. -/
def holder (tree : FileTree) (root : String) : Except OsError FileKey := do
  let directory ← if root.isEmpty then pure [] else tree.locate root
  tree.enter directory
  pure directory

/-- The place of the stored file of a fingerprint. The key stands for a digest of it, so that no
name is too long. -/
def placeFor (tree : FileTree) (root : String) (f : Fingerprint) : Except OsError FileKey :=
  (holder tree root).map (· ++ ["classpath-index-" ++ key f ++ ".bin"])

/-- What stands in a stored file, if it stands there for this fingerprint. -/
def unpack (f : Fingerprint) (bytes : Bytes) : Except Fault Index :=
  match file.decode bytes with
  | none => .error .malformed
  | some ((version, found, ix), _) =>
    if version ≠ formatVersion then .error (.version version)
    else if !found.same f then .error .otherFingerprint
    else .ok ix

/-- The stored index of a fingerprint, if there is one. -/
def load (tree : FileTree) (root : String) (f : Fingerprint) : Except Fault (Option Index) :=
  match placeFor tree root f with
  | .error _ => .ok none
  | .ok place =>
    if (tree.node? place).isNone then .ok none
    else match tree.readAt place with
      | .error e => .error (.io e)
      | .ok bytes => (unpack f bytes).map some

def save (root : String) (f : Fingerprint) (ix : Index) : FileTree.Action Unit := do
  FileTree.Action.createAll root
  let place ← FileTree.Action.lift fun t => placeFor t root f
  FileTree.Action.putAt place fun _ => file.encode (formatVersion, f, ix)

end Linkage.Classpath.Store
