import Linkage.Classpath.Entry
import Linkage.Number.Natural

/-!
Fingerprints of a class path: every entry with the state of the file or directory at its path. Two
fingerprints are the same when no entry, length, count or time stamp tells them apart; paths are
compared piece by piece.
-/
namespace Linkage.Classpath

/-- What is noted of the file or directory at a path. A time before 1970 is not noted. -/
inductive PathState where
  | missing
  | file (size : Nat) (modified : Option Nat)
  | directory (count size : Nat) (latest : Option Nat)
  deriving Repr, DecidableEq, Inhabited

/-- The number of files below a directory, their size, and the latest change in it. -/
def directoryState (tree : FileTree) (key : FileKey) (own : Int) : PathState :=
  let nodes := (tree.below key).map (·.2)
  let sizes := nodes.filterMap fun n =>
    match n with
    | .file bytes _ => some bytes.length
    | .directory _ => none
  .directory sizes.length (total sizes) ((nodes.map (·.modified.toNat?)).foldl max own.toNat?)

def pathState (tree : FileTree) (path : String) : PathState :=
  match tree.locate path with
  | .error _ => .missing
  | .ok key =>
    match tree.node? key with
    | none => .missing
    | some (.file bytes modified) => .file bytes.length modified.toNat?
    | some (.directory modified) => directoryState tree key modified

/-- An entry and the state of its path. -/
structure EntryPrint where
  entry : Entry
  state : PathState
  deriving Repr, DecidableEq, Inhabited

/-- Equal up to the way in which the path is written. -/
def EntryPrint.same (a b : EntryPrint) : Bool :=
  a.entry.ordinal == b.entry.ordinal && a.entry.kind == b.entry.kind &&
    Path.components a.entry.path == Path.components b.entry.path &&
    a.entry.owner == b.entry.owner && a.state == b.state

structure Fingerprint where
  image : Option String
  entries : List EntryPrint
  deriving Repr, DecidableEq, Inhabited

namespace Fingerprint

def capture (tree : FileTree) (image : Option String) (entries : List Entry) : Fingerprint :=
  ⟨image, entries.map fun e => ⟨e, pathState tree e.path⟩⟩

/-- Equal up to the way in which paths are written. -/
def same (a b : Fingerprint) : Bool :=
  a.image == b.image && a.entries.length == b.entries.length &&
    (a.entries.zip b.entries).all fun (x, y) => x.same y

end Fingerprint

end Linkage.Classpath
