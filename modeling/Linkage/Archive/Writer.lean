import Linkage.Archive.Zip

/-!
Writing archives whose members are stored without compression, each with a header in front of its
content and a row in the table at the end.
-/
namespace Linkage.Archive

open Text (Bytes)

/-- A number in so many bytes, the lowest first. -/
def littleBytes : Nat → Nat → Bytes
  | 0, _ => []
  | size + 1, n => n.toUInt8 :: littleBytes size (n / 256)

structure MemberFile where
  name : String
  content : Bytes
  deriving Repr, DecidableEq

/-- The fields that a member's header and its row have in common. -/
def MemberFile.fields (m : MemberFile) (name : Bytes) : Bytes :=
  let flags := if m.name.toList.all (·.toNat < 128) then 0 else 2048
  littleBytes 2 flags ++ littleBytes 2 0 ++ littleBytes 2 0 ++ littleBytes 2 0x21 ++
    littleBytes 4 (checksum m.content) ++ littleBytes 4 m.content.length ++
    littleBytes 4 m.content.length ++ littleBytes 2 name.length ++ littleBytes 2 0

def MemberFile.header (m : MemberFile) : Bytes :=
  let name := Text.encodeUtf8 m.name
  littleBytes 4 memberSignature ++ littleBytes 2 10 ++ m.fields name ++ name ++ m.content

def MemberFile.row (m : MemberFile) (start : Nat) : Bytes :=
  let name := Text.encodeUtf8 m.name
  littleBytes 4 rowSignature ++ littleBytes 2 46 ++ littleBytes 2 10 ++ m.fields name ++
    littleBytes 2 0 ++ littleBytes 2 0 ++ littleBytes 2 0 ++ littleBytes 4 0 ++
    littleBytes 4 start ++ name

/-- The rows of the table for members that follow each other from an offset on. -/
def tableOf : Nat → List MemberFile → Bytes
  | _, [] => []
  | start, m :: rest => m.row start ++ tableOf (start + m.header.length) rest

def write (members : List MemberFile) : Bytes :=
  let body := members.flatMap MemberFile.header
  let table := tableOf 0 members
  body ++ table ++ littleBytes 4 endSignature ++ littleBytes 2 0 ++ littleBytes 2 0 ++
    littleBytes 2 members.length ++ littleBytes 2 members.length ++ littleBytes 4 table.length ++
    littleBytes 4 body.length ++ littleBytes 2 0

end Linkage.Archive
