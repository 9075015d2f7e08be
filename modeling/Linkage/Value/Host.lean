import Linkage.Type.Basic
import Linkage.Value.Basic

/-!
Values on the host's side of a call, and the way back to the program's side. Going back forgets
widths, boxes and the class of an enum constant.
-/
namespace Linkage

inductive HostValue where
  | null
  | boolean (value : Bool)
  | byte (value : Int8)
  | short (value : Int16)
  | char (value : Char)
  | int (value : Int32)
  | long (value : Int64)
  | float (value : Binary)
  | double (value : Binary)
  | boxed (inner : HostValue)
  | string (value : String)
  | enum (className constant : String)
  | list (items : List HostValue)
  | set (items : List HostValue)
  | map (entries : List (HostValue × HostValue))
  /-- The empty optional. -/
  | absent
  /-- An optional that holds a value. -/
  | present (inner : HostValue)
  | array (component : Ty) (items : List HostValue)
  | object (className : String) (handle : UInt64)
  deriving Repr, Inhabited

namespace HostValue

mutual

/-- Equality of values; numbers are compared numerically. -/
def same : HostValue → HostValue → Bool
  | .null, .null => true
  | .boolean a, .boolean b => a == b
  | .byte a, .byte b => a == b
  | .short a, .short b => a == b
  | .char a, .char b => a == b
  | .int a, .int b => a == b
  | .long a, .long b => a == b
  | .float a, .float b => a.same b
  | .double a, .double b => a.same b
  | .boxed a, .boxed b => same a b
  | .string a, .string b => a == b
  | .enum c a, .enum d b => c == d && a == b
  | .list xs, .list ys => sameItems xs ys
  | .set xs, .set ys => sameItems xs ys
  | .map xs, .map ys => sameEntries xs ys
  | .absent, .absent => true
  | .present a, .present b => same a b
  | .array c xs, .array d ys => c == d && sameItems xs ys
  | .object c h, .object d k => c == d && h == k
  | _, _ => false

def sameItems : List HostValue → List HostValue → Bool
  | [], [] => true
  | x :: xs, y :: ys => same x y && sameItems xs ys
  | _, _ => false

def sameEntries : List (HostValue × HostValue) → List (HostValue × HostValue) → Bool
  | [], [] => true
  | (k, x) :: xs, (l, y) :: ys => same k l && same x y && sameEntries xs ys
  | _, _ => false

end

/-- Keeps the first of equal values. -/
def dedup (items : List HostValue) : List HostValue :=
  items.foldl (fun kept x => if kept.any (·.same x) then kept else kept ++ [x]) []

mutual

/-- The value as the program sees it. -/
def toValue : HostValue → Value
  | .null => .null
  | .boolean b => .bool b
  | .byte n => .number (.ofInt .double n.toInt)
  | .short n => .number (.ofInt .double n.toInt)
  | .char c => .char c
  | .int n => .number (.ofInt .double n.toInt)
  | .long n => .long n
  | .float x => .number (x.convert .double)
  | .double x => .number x
  | .boxed inner => toValue inner
  | .string s => .string s
  | .enum _ constant => .string constant
  | .list items => .list (toValues items)
  | .set items => .set (toValues items)
  | .map entries => .map (toEntries entries)
  | .absent => .null
  | .present inner => toValue inner
  | .array _ items => .list (toValues items)
  | .object className handle => .object className handle

def toValues : List HostValue → List Value
  | [] => []
  | x :: rest => toValue x :: toValues rest

def toEntries : List (HostValue × HostValue) → List (Value × Value)
  | [] => []
  | (k, x) :: rest => (toValue k, toValue x) :: toEntries rest

end

end HostValue

end Linkage
