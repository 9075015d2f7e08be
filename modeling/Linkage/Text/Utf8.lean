/-!
UTF-8: strict decoding, which names the place and the kind of the first fault, and lenient
decoding, which puts U+FFFD for every maximal run of bytes that starts a character and cannot
finish it. Both are driven by one step, `scalar`, that reads the character at the front.
-/
namespace Linkage.Text

abbrev Bytes := List UInt8

/-- The front of a byte list: a whole character and how many bytes it takes, a fault that a given
number of bytes make up, or a character that the end of the list cuts short. -/
inductive Scalar where
  | char (c : Char) (size : Nat)
  | faulty (size : Nat)
  | cut
  deriving Repr, DecidableEq

/-- A byte that continues a character. -/
def isContinuation (b : UInt8) : Bool := 0x80 ≤ b.toNat && b.toNat ≤ 0xBF

/-- The bounds of the second byte of a character that starts with `lead`. -/
def secondBounds (lead : Nat) : Nat × Nat :=
  if lead = 0xE0 then (0xA0, 0xBF)
  else if lead = 0xED then (0x80, 0x9F)
  else if lead = 0xF0 then (0x90, 0xBF)
  else if lead = 0xF4 then (0x80, 0x8F)
  else (0x80, 0xBF)

def secondFits (lead : Nat) (b : UInt8) : Bool :=
  (secondBounds lead).1 ≤ b.toNat && b.toNat ≤ (secondBounds lead).2

/-- The bytes after the lead byte of a character of three or four bytes, once the second byte is
known to fit. -/
def scalarTail (acc : Nat) (size : Nat) : Nat → Bytes → Scalar
  | 0, _ => .char (Char.ofNat acc) size
  | _ + 1, [] => .cut
  | missing + 1, b :: rest =>
    if isContinuation b then scalarTail (acc * 64 + b.toNat % 64) (size + 1) missing rest
    else .faulty size

/-- Reads the character at the front of a non-empty list; of an empty one nothing can be read. -/
def scalar : Bytes → Scalar
  | [] => .cut
  | b :: rest =>
    let n := b.toNat
    if n < 0x80 then .char (Char.ofNat n) 1
    else if n < 0xC2 || 0xF4 < n then .faulty 1
    else match rest with
      | [] => .cut
      | second :: more =>
        if n < 0xE0 then
          if isContinuation second then .char (Char.ofNat (n % 32 * 64 + second.toNat % 64)) 2
          else .faulty 1
        else if !secondFits n second then .faulty 1
        else if n < 0xF0 then scalarTail (n % 16 * 64 + second.toNat % 64) 2 1 more
        else scalarTail (n % 8 * 64 + second.toNat % 64) 2 2 more

/-- Why a byte list is no UTF-8 text. -/
inductive Utf8Fault where
  | invalid (size index : Nat)
  | incomplete (index : Nat)
  deriving Repr, DecidableEq

def Utf8Fault.message : Utf8Fault → String
  | .invalid size index => s!"invalid utf-8 sequence of {size} bytes from index {index}"
  | .incomplete index => s!"incomplete utf-8 byte sequence from index {index}"

/-- Strict decoding. The fuel is the number of bytes, which every character lowers. -/
def decodeFrom : Nat → Nat → Bytes → List Char → Except Utf8Fault (List Char)
  | _, _, [], acc => .ok acc.reverse
  | 0, _, _ :: _, acc => .ok acc.reverse
  | fuel + 1, index, bytes, acc =>
    match scalar bytes with
    | .char c size => decodeFrom fuel (index + size) (bytes.drop size) (c :: acc)
    | .faulty size => .error (.invalid size index)
    | .cut => .error (.incomplete index)

def decodeUtf8 (bytes : Bytes) : Except Utf8Fault String :=
  (decodeFrom bytes.length 0 bytes []).map String.ofList

/-- Lenient decoding: a fault becomes one U+FFFD, and reading goes on behind it. -/
def decodeLenientFrom : Nat → Bytes → List Char → List Char
  | _, [], acc => acc.reverse
  | 0, _ :: _, acc => acc.reverse
  | fuel + 1, bytes, acc =>
    match scalar bytes with
    | .char c size => decodeLenientFrom fuel (bytes.drop size) (c :: acc)
    | .faulty size => decodeLenientFrom fuel (bytes.drop size) ('\uFFFD' :: acc)
    | .cut => ('\uFFFD' :: acc).reverse

def decodeUtf8Lenient (bytes : Bytes) : String :=
  String.ofList (decodeLenientFrom bytes.length bytes [])

/-- The bytes of one character. -/
def charBytes (c : Char) : Bytes :=
  let n := c.toNat
  if n < 0x80 then [n.toUInt8]
  else if n < 0x800 then [(0xC0 + n / 64).toUInt8, (0x80 + n % 64).toUInt8]
  else if n < 0x10000 then
    [(0xE0 + n / 4096).toUInt8, (0x80 + n / 64 % 64).toUInt8, (0x80 + n % 64).toUInt8]
  else
    [(0xF0 + n / 262144).toUInt8, (0x80 + n / 4096 % 64).toUInt8, (0x80 + n / 64 % 64).toUInt8,
      (0x80 + n % 64).toUInt8]

def encodeUtf8 (s : String) : Bytes := s.toList.flatMap charBytes

end Linkage.Text
