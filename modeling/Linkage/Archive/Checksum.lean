import Linkage.Text.Utf8

/-!
The checksum of archive members: the cyclic redundancy check of 32 bits with the reversed
polynomial `EDB88320`, ones in at the start and inverted at the end.
-/
namespace Linkage.Archive

open Text (Bytes)

def checksumRounds : Nat → UInt32 → UInt32
  | 0, c => c
  | n + 1, c => checksumRounds n (if c &&& 1 = 1 then (c >>> 1) ^^^ 0xEDB88320 else c >>> 1)

def checksumStep (c : UInt32) (b : UInt8) : UInt32 := checksumRounds 8 (c ^^^ b.toUInt32)

def checksum (bytes : Bytes) : Nat := ((bytes.foldl checksumStep 0xFFFFFFFF) ^^^ 0xFFFFFFFF).toNat

end Linkage.Archive
