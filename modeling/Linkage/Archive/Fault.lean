import Linkage.Number.Natural
import Linkage.Text.Utf8

/-!
Numbers in the bytes of an archive, and why an archive or a member of it cannot be read.
-/
namespace Linkage.Archive

open Text (Bytes)

inductive Fault where
  | invalid (reason : String)
  | unsupported (reason : String)
  | cutShort
  | outOfReach
  | noSuchMember
  deriving Repr, DecidableEq

def Fault.message : Fault → String
  | .invalid reason => "invalid Zip archive: " ++ reason
  | .unsupported reason => "unsupported Zip archive: " ++ reason
  | .cutShort => "failed to fill whole buffer"
  | .outOfReach => "Invalid argument (os error 22)"
  | .noSuchMember => "specified file not found in archive"

/-- A number with the lowest byte first. -/
def little : Bytes → Nat
  | [] => 0
  | b :: rest => b.toNat + 256 * little rest

/-- The number in the `size` bytes at an offset. -/
def field (bytes : Bytes) (offset size : Nat) : Except Fault Nat :=
  let part := (bytes.drop offset).take size
  if part.length = size then .ok (little part) else .error .cutShort

/-- Offsets from here on are not offsets of a file. -/
def reach : Nat := twoTo 63

/-- The first number that eight bytes do not hold. -/
def wideLimit : Nat := twoTo 64

/-- What stands in four bytes for a number that needs eight. -/
def narrowLimit : Nat := 0xFFFFFFFF

/-- What stands in two bytes for a number that needs more. -/
def shortLimit : Nat := 0xFFFF

end Linkage.Archive
