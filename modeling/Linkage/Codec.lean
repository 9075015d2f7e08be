import Linkage.Archive.Writer

/-!
Binary codecs put together from small ones. A codec writes a value as bytes and reads it back from
the front of a byte list; numbers have a fixed width with the lowest byte first, and lists and
texts have their length in front.
-/
namespace Linkage

open Text (Bytes)

structure Codec (α : Type) where
  encode : α → Bytes
  decode : Bytes → Option (α × Bytes)

namespace Codec

/-- A natural number in so many bytes. -/
def fixed (size : Nat) : Codec Nat where
  encode n := Archive.littleBytes size n
  decode bytes :=
    let part := bytes.take size
    if part.length = size then some (Archive.little part, bytes.drop size) else none

def u8 : Codec Nat := fixed 1

def u16 : Codec Nat := fixed 2

def u32 : Codec Nat := fixed 4

def u64 : Codec Nat := fixed 8

/-- Two values behind each other. -/
def pair {α β : Type} (a : Codec α) (b : Codec β) : Codec (α × β) where
  encode p := a.encode p.1 ++ b.encode p.2
  decode bytes := do
    let (x, rest) ← a.decode bytes
    let (y, rest) ← b.decode rest
    pure ((x, y), rest)

/-- The same bytes, read as values of another type. -/
def map {α β : Type} (c : Codec α) (forth : α → β) (back : β → α) : Codec β where
  encode b := c.encode (back b)
  decode bytes := (c.decode bytes).map fun (a, rest) => (forth a, rest)

/-- As `map`, where only some of the read values stand for one of the other type. -/
def mapSome {α β : Type} (c : Codec α) (forth : α → Option β) (back : β → α) : Codec β where
  encode b := c.encode (back b)
  decode bytes := do
    let (a, rest) ← c.decode bytes
    let b ← forth a
    pure (b, rest)

def bool : Codec Bool := u8.mapSome (fun n => if n = 0 then some false else if n = 1 then some true else none)
  (fun b => if b then 1 else 0)

def decodeTimes {α : Type} (c : Codec α) : Nat → Bytes → Option (List α × Bytes)
  | 0, bytes => some ([], bytes)
  | n + 1, bytes => do
    let (a, rest) ← c.decode bytes
    let (as, rest) ← decodeTimes c n rest
    pure (a :: as, rest)

/-- A list with its length in front. No element takes less than a byte, so that a length beyond
the bytes that are left is refused at once. -/
def list {α : Type} (c : Codec α) : Codec (List α) where
  encode xs := u64.encode xs.length ++ xs.flatMap c.encode
  decode bytes := do
    let (n, rest) ← u64.decode bytes
    if rest.length < n then none else decodeTimes c n rest

def bytes : Codec Bytes where
  encode b := u64.encode b.length ++ b
  decode input := do
    let (n, rest) ← u64.decode input
    if rest.length < n then none else some (rest.take n, rest.drop n)

def string : Codec String :=
  bytes.mapSome (fun b => (Text.decodeUtf8 b).toOption) Text.encodeUtf8

def option {α : Type} (c : Codec α) : Codec (Option α) where
  encode
    | none => [0]
    | some a => 1 :: c.encode a
  decode
    | 0 :: rest => some (none, rest)
    | 1 :: rest => (c.decode rest).map fun (a, rest) => (some a, rest)
    | _ => none

/-- A value out of a fixed list, written as its place in it. -/
def oneOf {α : Type} [BEq α] (all : List α) : Codec α :=
  u32.mapSome (fun n => all[n]?) (fun a => all.findIdx (· == a))

end Codec

end Linkage
