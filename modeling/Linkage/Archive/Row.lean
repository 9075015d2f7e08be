import Linkage.Archive.Fault

/-!
Rows of the table of members. A row may end in extra fields, of which two count: one with the
numbers that need eight bytes, and one that tells how a member is encrypted and what its
compression is behind that.
-/
namespace Linkage.Archive

open Text (Bytes)

/-- A row of the table. -/
structure Row where
  name : String
  encrypted : Bool
  method : Nat
  checksum : Nat
  size : Nat
  start : Nat
  deriving Repr, DecidableEq

def rowSignature : Nat := 0x02014b50

/-- Names without the flag for Unicode are written in the code page of the first archivers. -/
def codePage : List Char := (
  "ÇüéâäàåçêëèïîìÄÅÉæÆôöòûùÿÖÜ¢£¥₧ƒáíóúñÑªº¿⌐¬½¼¡«»░▒▓│┤╡╢╖╕╣║╗╝╜╛┐└┴┬├─┼╞╟╚╔╩╦╠═╬╧╨╤╥╙╘╒╓╫╪┘┌█▄▌▐▀" ++
  "αßΓπΣσµτΦΘΩδ∞φε∩≡±≥≤⌠⌡÷≈°∙·√ⁿ²■\u00a0").toList

def codePageChar (b : UInt8) : Char :=
  if b.toNat < 128 then Char.ofNat b.toNat else codePage[b.toNat - 128]?.getD ' '

def decodeName (unicode : Bool) (raw : Bytes) : String :=
  if unicode then Text.decodeUtf8Lenient raw else String.ofList (raw.map codePageChar)

/-- What extra fields can change about a member. -/
structure Facts where
  method : Nat
  fullSize : Nat
  size : Nat
  start : Nat
  hasCipher : Bool := false
  deriving Repr, DecidableEq

/-- Eight bytes replace a number that four could not hold; nothing when they are not there. -/
def widen (n : Nat) (bytes : Bytes) : Option (Nat × Bytes) :=
  if n ≠ narrowLimit then some (n, bytes)
  else if (bytes.take 8).length = 8 then some (little (bytes.take 8), bytes.drop 8)
  else none

/-- Widens the sizes and the start one after another, and tells what is left; nothing is left when
the bytes run out. -/
def Facts.widened (f : Facts) (bytes : Bytes) : Facts × Option Bytes :=
  match widen f.fullSize bytes with
  | none => (f, none)
  | some (fullSize, bytes) =>
    let f := { f with fullSize }
    match widen f.size bytes with
    | none => (f, none)
    | some (size, bytes) =>
      let f := { f with size }
      match widen f.start bytes with
      | none => (f, none)
      | some (start, bytes) => ({ f with start }, some bytes)

/-- The size of an extra field on encryption. -/
def cipherSize : Nat := 7

/-- The facts with an extra field on encryption, which is complete. -/
def Facts.ciphered (f : Facts) (body : Bytes) : Except Fault Facts := do
  let version := little (body.take 2)
  let vendor := little ((body.drop 2).take 2)
  let strength := little ((body.drop 4).take 1)
  let method := little ((body.drop 5).take 2)
  if vendor ≠ 0x4541 then throw (.invalid "Invalid AES vendor")
  if version ≠ 1 ∧ version ≠ 2 then throw (.invalid "Invalid AES vendor version")
  if strength < 1 ∨ 3 < strength then throw (.invalid "Invalid AES encryption strength")
  pure { f with method, hasCipher := true }

/-- Reads extra fields. Where they are cut short, those before count. Behind a field on encryption
as many bytes again are passed over. -/
def readExtra : Nat → Facts → Bytes → Except Fault Facts
  | 0, f, _ => pure f
  | fuel + 1, f, bytes =>
    let kind := little (bytes.take 2)
    let size := little ((bytes.drop 2).take 2)
    let body := bytes.drop 4
    if bytes.length < 4 then pure f
    else if kind = 0x0001 then
      match f.widened body with
      | (f, none) => pure f
      | (f, some rest) => readExtra fuel f (rest.drop (size - (body.length - rest.length)))
    else if kind = 0x9901 then
      if size ≠ cipherSize then
        throw (.unsupported "AES extra data field has an unsupported length")
      else if body.length < cipherSize then pure f
      else do
        let f ← f.ciphered body
        readExtra fuel f (body.drop (2 * cipherSize))
    else readExtra fuel f (body.drop size)

/-- The method of encrypted members, whose compression another field tells. -/
def cipherMethod : Nat := 99

/-- A row of the table and the bytes after it. `shift` is how far all offsets are off. -/
def readRow (shift : Nat) (table : Bytes) : Except Fault (Row × Bytes) := do
  let signature ← field table 0 4
  if signature ≠ rowSignature then throw (.invalid "Invalid Central Directory header")
  let flags ← field table 8 2
  let method ← field table 10 2
  let checksum ← field table 16 4
  let size ← field table 20 4
  let fullSize ← field table 24 4
  let nameLength ← field table 28 2
  let extraLength ← field table 30 2
  let commentLength ← field table 32 2
  let start ← field table 42 4
  let total := 46 + nameLength + extraLength + commentLength
  if table.length < total then throw .cutShort
  let name := decodeName (flags.testBit 11) ((table.drop 46).take nameLength)
  let extra := (table.drop (46 + nameLength)).take extraLength
  let facts ← readExtra extra.length { method, fullSize, size, start } extra
  if facts.method = cipherMethod ∧ !facts.hasCipher then
    throw (.invalid "AES encryption without AES extra data field")
  if wideLimit ≤ facts.start + shift then throw (.invalid "Archive header is too large")
  pure (⟨name, flags.testBit 0, facts.method, checksum, facts.size, facts.start + shift⟩,
    table.drop total)

def readRows (shift : Nat) : Nat → Bytes → Except Fault (List Row)
  | 0, _ => pure []
  | count + 1, table => do
    let (row, rest) ← readRow shift table
    let rows ← readRows shift count rest
    pure (row :: rows)

end Linkage.Archive
