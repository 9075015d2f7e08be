import Linkage.Json.Basic
import Linkage.Number.Decimal
import Linkage.Type.Primitive

/-!
Values on the program's side of a call, and their shapes. The shape is all that the choice of an
overload depends on: an integral number has the shape of the narrowest of `int` and `long` that
holds it, and every other number that of `double`.
-/
namespace Linkage

inductive Value where
  | null
  | bool (value : Bool)
  | number (value : Binary)
  | long (value : Int64)
  | char (value : Char)
  | string (value : String)
  | list (items : List Value)
  | set (items : List Value)
  | map (entries : List (Value × Value))
  | object (className : String) (handle : UInt64)
  deriving Repr, Inhabited

inductive Shape where
  | null
  | bool
  | int
  | long
  | double
  | char
  | string
  | list
  | set
  | map
  | object (className : String)
  deriving Repr, DecidableEq, Inhabited

namespace Shape

def text : Shape → String
  | .null => "null"
  | .bool => "boolean"
  | .int => "int"
  | .long => "long"
  | .double => "double"
  | .char => "char"
  | .string => "string"
  | .list => "list"
  | .set => "set"
  | .map => "map"
  | .object className => className

/-- The shape's name in JSON. -/
def toJson : Shape → Json
  | .bool => .string "bool"
  | .object className => .object [("object", .string className)]
  | shape => .string shape.text

def ofName? (s : String) : Option Shape :=
  if s = "bool" then some .bool
  else [Shape.null, .int, .long, .double, .char, .string, .list, .set, .map].find? (·.text == s)

/-- The primitive type that a value of this shape starts from. -/
def primitive? : Shape → Option Primitive
  | .bool => some .boolean
  | .int => some .int
  | .long => some .long
  | .double => some .double
  | .char => some .char
  | .object className => Primitive.ofWrapper? className
  | _ => none

/-- The shapes of an argument list. -/
def listText (shapes : List Shape) : String :=
  "(" ++ String.intercalate ", " (shapes.map text) ++ ")"

end Shape

def Binary.shape (x : Binary) : Shape :=
  match x.toInt? with
  | some n => if fitsBits 32 n then .int else if fitsBits 64 n then .long else .double
  | none => .double

namespace Value

def shape : Value → Shape
  | .null => .null
  | .bool _ => .bool
  | .number x => x.shape
  | .long _ => .long
  | .char _ => .char
  | .string _ => .string
  | .list _ => .list
  | .set _ => .set
  | .map _ => .map
  | .object className _ => .object className

/-- A short form for messages. -/
def describe : Value → String
  | .null => "null"
  | .bool b => toString b
  | .number x => x.text .double
  | .long n => toString n.toInt ++ "L"
  | .char c => "'" ++ String.singleton c ++ "'"
  | .string s => "\"" ++ s ++ "\""
  | .list items => "list[" ++ toString items.length ++ "]"
  | .set items => "set[" ++ toString items.length ++ "]"
  | .map entries => "map[" ++ toString entries.length ++ "]"
  | .object className handle => className ++ "@" ++ toString handle.toNat

end Value

end Linkage
