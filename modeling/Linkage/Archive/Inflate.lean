import Linkage.Text.Utf8

/-!
Decompression of deflated data. The input is a stream of bits, the lowest bit of every byte first.
Reading stops at the end of the last block, and whatever stands after it does not count; a stream
that is cut off before that end is told apart from a corrupt one.
-/
namespace Linkage.Archive.Inflate

open Text (Bytes)

inductive Stop where
  | cut
  | corrupt
  deriving Repr, DecidableEq

structure Stream where
  bits : List Bool
  output : Array UInt8 := #[]

abbrev Step := ExceptT Stop (StateM Stream)

def bitsOfByte (b : UInt8) : List Bool := (List.range 8).map fun i => b.toNat.testBit i

def bit : Step Nat := do
  let s ← get
  match s.bits with
  | [] => throw .cut
  | b :: rest =>
    set { s with bits := rest }
    pure (if b then 1 else 0)

/-- A number of so many bits, the lowest first. -/
def bits : Nat → Step Nat
  | 0 => pure 0
  | n + 1 => do
    let low ← bit
    let high ← bits n
    pure (low + 2 * high)

def emit (b : UInt8) : Step Unit := modify fun s => { s with output := s.output.push b }

/-- A prefix code: how many codes there are of every length, and the symbols by code. -/
structure Code where
  counts : List Nat
  symbols : Array Nat

def maxLength : Nat := 15

/-- The code in which the symbol `i` has a code of the length given at `i`; zero means none. -/
def codeOf (lengths : List Nat) : Code :=
  let indexed := lengths.zipIdx
  ⟨(List.range maxLength).map fun l => lengths.count (l + 1),
    ((List.range maxLength).flatMap fun l =>
      (indexed.filter fun p => p.1 == l + 1).map (·.2)).toArray⟩

/-- How many codes of the greatest length are left over; nothing when more codes are given out than
there are. -/
def Code.left? (c : Code) : Option Nat :=
  c.counts.foldl (fun (left : Option Nat) count =>
    left.bind fun l => if count ≤ 2 * l then some (2 * l - count) else none) (some 1)

/-- Whether every sequence of bits starts with a code. -/
def Code.isComplete (c : Code) : Bool := c.left? == some 0

/-- Whether there is no code at all, or only one of a single bit. -/
def Code.isSparse (c : Code) : Bool :=
  c.counts.head?.any (· ≤ 1) && (c.counts.drop 1).all (· == 0)

/-- Follows the stream bit by bit until a code of some length is complete. -/
def symbolFrom (c : Code) : List Nat → Nat → Nat → Nat → Step Nat
  | [], _, _, _ => throw .corrupt
  | count :: counts, code, first, index => do
    let b ← bit
    let code := code + b
    if code < first + count then
      match c.symbols[index + (code - first)]? with
      | some s => pure s
      | none => throw .corrupt
    else symbolFrom c counts (2 * code) (2 * (first + count)) (index + count)

/-- The symbol whose code comes next. In a sparse code the first bit already tells whether there is
one. -/
def symbol (c : Code) : Step Nat :=
  symbolFrom c (if c.isSparse then c.counts.take 1 else c.counts) 0 0 0

def lengthBase : List Nat :=
  [3, 4, 5, 6, 7, 8, 9, 10, 11, 13, 15, 17, 19, 23, 27, 31, 35, 43, 51, 59, 67, 83, 99, 115, 131,
    163, 195, 227, 258]

def lengthExtra : List Nat :=
  [0, 0, 0, 0, 0, 0, 0, 0, 1, 1, 1, 1, 2, 2, 2, 2, 3, 3, 3, 3, 4, 4, 4, 4, 5, 5, 5, 5, 0]

def distanceBase : List Nat :=
  [1, 2, 3, 4, 5, 7, 9, 13, 17, 25, 33, 49, 65, 97, 129, 193, 257, 385, 513, 769, 1025, 1537, 2049,
    3073, 4097, 6145, 8193, 12289, 16385, 24577]

def distanceExtra : List Nat :=
  [0, 0, 0, 0, 1, 1, 2, 2, 3, 3, 4, 4, 5, 5, 6, 6, 7, 7, 8, 8, 9, 9, 10, 10, 11, 11, 12, 12, 13, 13]

/-- A number that a table gives the least value and the count of further bits of. -/
def extended (base extra : List Nat) (i : Nat) : Step Nat :=
  match base[i]?, extra[i]? with
  | some least, some count => do
    let more ← bits count
    pure (least + more)
  | _, _ => throw .corrupt

/-- Copies bytes that were written before, one by one; those before the first one are zero. -/
def copy (distance : Nat) : Nat → Step Unit
  | 0 => pure ()
  | n + 1 => do
    let s ← get
    emit (if distance ≤ s.output.size then s.output.getD (s.output.size - distance) 0 else 0)
    copy distance n

/-- The symbols of a compressed block; the fuel is the number of bits left. -/
def block (literals distances : Code) : Nat → Step Unit
  | 0 => throw .cut
  | fuel + 1 => do
    let s ← symbol literals
    if s < 256 then do
      emit s.toUInt8
      block literals distances fuel
    else if s = 256 then pure ()
    else do
      let length ← extended lengthBase lengthExtra (s - 257)
      let d ← symbol distances
      let distance ← extended distanceBase distanceExtra d
      copy distance length
      block literals distances fuel

def fixedLiterals : Code :=
  codeOf (List.replicate 144 8 ++ List.replicate 112 9 ++ List.replicate 24 7 ++ List.replicate 8 8)

def fixedDistances : Code := codeOf (List.replicate 32 5)

def codeLengthOrder : List Nat := [16, 17, 18, 0, 8, 7, 9, 6, 10, 5, 11, 4, 12, 3, 13, 2, 14, 1, 15]

/-- The code lengths of both codes, gathered backwards until there are enough. -/
def codeLengths (c : Code) (total : Nat) : Nat → List Nat → Step (List Nat)
  | 0, _ => throw .corrupt
  | fuel + 1, acc => do
    if total ≤ acc.length then
      if acc.length = total then pure acc.reverse else throw .corrupt
    else
      let s ← symbol c
      if s < 16 then codeLengths c total fuel (s :: acc)
      else if s = 16 then
        match acc with
        | [] => throw .corrupt
        | last :: _ => do
          let n ← bits 2
          codeLengths c total fuel (List.replicate (3 + n) last ++ acc)
      else if s = 17 then do
        let n ← bits 3
        codeLengths c total fuel (List.replicate (3 + n) 0 ++ acc)
      else do
        let n ← bits 7
        codeLengths c total fuel (List.replicate (11 + n) 0 ++ acc)

/-- The codes that open a block with codes of its own. -/
def dynamicCodes : Step (Code × Code) := do
  let literalCount := 257 + (← bits 5)
  let distanceCount := 1 + (← bits 5)
  let lengthCount := 4 + (← bits 4)
  if 286 < literalCount ∨ 30 < distanceCount then throw .corrupt
  let given ← (codeLengthOrder.take lengthCount).mapM fun i => do
    let n ← bits 3
    pure (i, n)
  let lengths := (List.range 19).map fun i => ((given.find? (·.1 == i)).map (·.2)).getD 0
  let c := codeOf lengths
  if !c.isComplete then throw .corrupt
  let total := literalCount + distanceCount
  let all ← codeLengths c total (total + 1) []
  let literals := codeOf (all.take literalCount)
  let distances := codeOf (all.drop literalCount)
  if [literals, distances].any fun c => !c.isComplete && !c.isSparse then throw .corrupt
  pure (literals, distances)

/-- Skips to the next byte; a stored block starts there. -/
def alignToByte : Step Unit := modify fun s => { s with bits := s.bits.drop (s.bits.length % 8) }

def storedBytes : Nat → Step Unit
  | 0 => pure ()
  | n + 1 => do
    let b ← bits 8
    emit b.toUInt8
    storedBytes n

def stored : Step Unit := do
  alignToByte
  let length ← bits 16
  let complement ← bits 16
  if length + complement != 65535 then throw .corrupt
  storedBytes length

/-- Blocks up to the last one. -/
def blocks : Nat → Step Unit
  | 0 => throw .cut
  | fuel + 1 => do
    let last ← bit
    let kind ← bits 2
    let room := (← get).bits.length + 1
    if kind = 0 then stored
    else if kind = 1 then block fixedLiterals fixedDistances room
    else if kind = 2 then do
      let (literals, distances) ← dynamicCodes
      block literals distances room
    else throw .corrupt
    if last = 1 then pure () else blocks fuel

/-- The inflated bytes. -/
def run (bytes : Bytes) : Except Stop Bytes :=
  let input := bytes.flatMap bitsOfByte
  match (blocks (input.length + 1)).run.run { bits := input } with
  | (.error stop, _) => .error stop
  | (.ok (), s) => .ok s.output.toList

end Linkage.Archive.Inflate
