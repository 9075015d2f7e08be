import Linkage.Archive.Checksum
import Linkage.Archive.Inflate
import Linkage.Archive.Row

/-!
Archives of members. The table of members stands at the end of the file and is found from there,
so that bytes in front of the archive do no harm; the end record itself is found by searching
backwards, so that bytes after it do none either. Numbers that do not fit into the end record stand
in a wider one, which a locator in front of it leads to. Where one name stands twice in the table,
the later member counts.
-/
namespace Linkage.Archive

open Text (Bytes)

structure Zip where
  bytes : Bytes
  rows : List Row
  deriving Repr, DecidableEq

def endSignature : Nat := 0x06054b50

def memberSignature : Nat := 0x04034b50

def endSize : Nat := 22

/-- The last place, not after `limit`, where the end record's signature stands. -/
def lastEnd (limit : Nat) : Nat → Bytes → Option Nat → Option Nat
  | _, [], found => found
  | place, b :: rest, found =>
    if limit < place then found
    else
      let here := b = 0x50 ∧ rest.take 3 = [0x4b, 0x05, 0x06]
      lastEnd limit (place + 1) rest (if here then some place else found)

/-- Where the end record starts. No more bytes may stand after it than a comment can have. -/
def endPlace? (bytes : Bytes) : Option Nat :=
  (lastEnd (bytes.length - endSize) 0 bytes none).filter fun place =>
    bytes.length ≤ place + endSize + shortLimit

structure EndRecord where
  disk : Nat
  tableDisk : Nat
  countHere : Nat
  count : Nat
  tableSize : Nat
  tableStart : Nat
  commentLength : Nat
  deriving Repr, DecidableEq

def EndRecord.read (tail : Bytes) : Except Fault EndRecord := do
  let disk ← field tail 4 2
  let tableDisk ← field tail 6 2
  let countHere ← field tail 8 2
  let count ← field tail 10 2
  let tableSize ← field tail 12 4
  let tableStart ← field tail 16 4
  let commentLength ← field tail 20 2
  if tail.length < endSize + commentLength then throw .cutShort
  pure { disk, tableDisk, countHere, count, tableSize, tableStart, commentLength }

/-- Whether some number of the record is only the sign that a wider record has it. -/
def EndRecord.isTooSmall (e : EndRecord) : Bool :=
  [e.disk, e.tableDisk, e.countHere, e.count].contains shortLimit ||
    [e.tableSize, e.tableStart].contains narrowLimit

/-- Leads to the wider end record. -/
structure Locator where
  disk : Nat
  place : Nat
  deriving Repr, DecidableEq

def locatorSignature : Nat := 0x07064b50

def locatorSize : Nat := 20

/-- The locator, if one ends where the end record would start that has its comment at the end of
the file. -/
def Locator.find? (bytes : Bytes) (e : EndRecord) : Option Locator :=
  let afterStart := locatorSize + endSize + e.commentLength
  let record := bytes.drop (bytes.length - afterStart)
  if bytes.length < afterStart ∨ little (record.take 4) ≠ locatorSignature then none
  else some ⟨little ((record.drop 4).take 4), little ((record.drop 8).take 8)⟩

def wideSignature : Bytes := [0x50, 0x4b, 0x06, 0x06]

/-- The first place with the signature of the wider end record, in so many steps from a place on. -/
def firstWide : Nat → Nat → Bytes → Option Nat
  | 0, _, _ => none
  | steps + 1, place, bytes =>
    if bytes.take 4 = wideSignature then some place else firstWide steps (place + 1) (bytes.drop 1)

/-- Where the table starts, how many rows it has, and how far all offsets are off. -/
structure Layout where
  tableStart : Nat
  count : Nat
  shift : Nat
  deriving Repr, DecidableEq

def multiDisk : Fault := .unsupported "Support for multi-disk files is not implemented"

def badTable : Fault := .invalid "Invalid central directory size or offset"

/-- The wider end record has to start so far in front of the other one. -/
def wideRoom : Nat := 60

def Layout.ofLocator (bytes : Bytes) (place : Nat) (e : EndRecord) (l : Locator) :
    Except Fault Layout := do
  if !e.isTooSmall && e.disk != l.disk then throw multiDisk
  if place < wideRoom then throw (.invalid "File cannot contain ZIP64 central directory end")
  let last := place - wideRoom
  match firstWide (last + 1 - l.place) l.place (bytes.drop l.place) with
  | none => throw (.invalid "Could not find ZIP64 central directory end")
  | some found => do
    let record := bytes.drop found
    let disk ← field record 16 4
    let tableDisk ← field record 20 4
    let count ← field record 32 8
    let tableStart ← field record 48 8
    if disk ≠ tableDisk then throw multiDisk
    let shift := found - l.place
    if wideLimit ≤ tableStart + shift then throw badTable
    pure ⟨tableStart + shift, count, shift⟩

def Layout.ofEnd (place : Nat) (e : EndRecord) : Except Fault Layout :=
  if place < e.tableSize + e.tableStart then throw badTable
  else
    let shift := place - e.tableSize - e.tableStart
    pure ⟨e.tableStart + shift, e.countHere, shift⟩

def Layout.read (bytes : Bytes) (place : Nat) : Except Fault Layout := do
  let e ← EndRecord.read (bytes.drop place)
  if !e.isTooSmall && e.disk != e.tableDisk then throw multiDisk
  match Locator.find? bytes e with
  | some l => Layout.ofLocator bytes place e l
  | none => Layout.ofEnd place e

/-- Reads the table of members. -/
def Zip.open (bytes : Bytes) : Except Fault Zip := do
  if bytes.length < endSize then throw (.invalid "Invalid zip header")
  match endPlace? bytes with
  | none => throw (.invalid "Could not find central directory end")
  | some place => do
    let layout ← Layout.read bytes place
    if reach ≤ layout.tableStart then
      throw (.invalid "Could not seek to start of central directory")
    let rows ← readRows layout.shift layout.count (bytes.drop layout.tableStart)
    pure ⟨bytes, rows⟩

/-- The names of all members, in ascending order. -/
def Zip.names (z : Zip) : List String :=
  (z.rows.map (·.name)).mergeSort (fun a b => decide (a ≤ b)) |>.eraseDups

/-- The content of a member, as it comes out of its compression. -/
inductive Content where
  | ok (bytes : Bytes)
  | refused (fault : Fault)
  | unreadable (reason : String)
  deriving Repr, DecidableEq

def unpack (row : Row) (raw : Bytes) : Content :=
  let checked (bytes : Bytes) : Content :=
    if checksum bytes = row.checksum then .ok bytes else .unreadable "Invalid checksum"
  if row.method = 0 then checked raw
  else match Inflate.run raw with
    | .ok bytes => checked bytes
    | .error .cut => .unreadable "incomplete deflate stream"
    | .error .corrupt => .unreadable "corrupt deflate stream"

def Zip.readRow (z : Zip) (row : Row) : Content :=
  if row.encrypted then .refused (.unsupported "Password required to decrypt file")
  else if reach ≤ row.start then .refused .outOfReach
  else
    let member := z.bytes.drop row.start
    match field member 0 4, field member 26 2, field member 28 2 with
    | .error e, _, _ => .refused e
    | .ok signature, nameLength, extraLength =>
      if signature ≠ memberSignature then .refused (.invalid "Invalid local file header")
      else match nameLength, extraLength with
        | .ok n, .ok x =>
          if row.method ≠ 0 ∧ row.method ≠ 8 then
            .refused (.unsupported "Compression method not supported")
          else unpack row ((member.drop (30 + n + x)).take row.size)
        | _, _ => .refused .cutShort

/-- The content of the member of that name; the last row of the table wins. -/
def Zip.read (z : Zip) (name : String) : Content :=
  match z.rows.reverse.find? (·.name == name) with
  | some row => z.readRow row
  | none => .refused .noSuchMember

end Linkage.Archive
