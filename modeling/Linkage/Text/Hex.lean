import Linkage.Json.Basic
import Linkage.Json.Reader
import Linkage.Text.Utf8

/-!
Bytes and numbers in hexadecimal digits, always in lower case.
-/
namespace Linkage.Text

/-- The last digits of a number, as many as are asked for. -/
def hexOfNat : Nat → Nat → List Char
  | 0, _ => []
  | width + 1, n => hexOfNat width (n / 16) ++ [Json.hexDigit (n % 16)]

/-- Bytes as two digits each. -/
def hex (bytes : Bytes) : String :=
  String.ofList (bytes.flatMap fun b => hexOfNat 2 b.toNat)

/-- The bytes of pairs of digits, up to the first pair that is none. -/
def unhex : List Char → Bytes
  | a :: b :: rest =>
    match Json.Reader.hexValue? a, Json.Reader.hexValue? b with
    | some x, some y => (16 * x + y).toUInt8 :: unhex rest
    | _, _ => []
  | _ => []

end Linkage.Text
