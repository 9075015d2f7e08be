import Linkage.Json.Basic
import Linkage.Text.Basic
import Linkage.Type.Primitive

/-!
Types of members: primitives, class references with type arguments, arrays, type variables and
void. Type arguments and variables come from generic signatures only; `erasure` forgets them, and
`descriptor` writes the erased type in the form that class files use.
-/
namespace Linkage

def objectClass : String := "java.lang.Object"

def stringClass : String := "java.lang.String"

inductive Ty where
  | primitive (p : Primitive)
  | reference (name : String) (args : List Ty)
  | array (element : Ty) (dimensions : Nat)
  | variable (name : String)
  | void
  deriving Repr, Inhabited

namespace Ty

mutual

def decideEq : (a b : Ty) → Decidable (a = b)
  | .primitive p, .primitive q =>
    if h : p = q then isTrue (by rw [h]) else isFalse fun e => h (Ty.primitive.inj e)
  | .reference n xs, .reference m ys =>
    if h : n = m then
      match decideEqList xs ys with
      | isTrue e => isTrue (by rw [h, e])
      | isFalse ne => isFalse fun e => ne (Ty.reference.inj e).2
    else isFalse fun e => h (Ty.reference.inj e).1
  | .array a d, .array b c =>
    if h : d = c then
      match decideEq a b with
      | isTrue e => isTrue (by rw [h, e])
      | isFalse ne => isFalse fun e => ne (Ty.array.inj e).1
    else isFalse fun e => h (Ty.array.inj e).2
  | .variable n, .variable m =>
    if h : n = m then isTrue (by rw [h]) else isFalse fun e => h (Ty.variable.inj e)
  | .void, .void => isTrue rfl
  | .primitive _, .reference _ _ => isFalse nofun
  | .primitive _, .array _ _ => isFalse nofun
  | .primitive _, .variable _ => isFalse nofun
  | .primitive _, .void => isFalse nofun
  | .reference _ _, .primitive _ => isFalse nofun
  | .reference _ _, .array _ _ => isFalse nofun
  | .reference _ _, .variable _ => isFalse nofun
  | .reference _ _, .void => isFalse nofun
  | .array _ _, .primitive _ => isFalse nofun
  | .array _ _, .reference _ _ => isFalse nofun
  | .array _ _, .variable _ => isFalse nofun
  | .array _ _, .void => isFalse nofun
  | .variable _, .primitive _ => isFalse nofun
  | .variable _, .reference _ _ => isFalse nofun
  | .variable _, .array _ _ => isFalse nofun
  | .variable _, .void => isFalse nofun
  | .void, .primitive _ => isFalse nofun
  | .void, .reference _ _ => isFalse nofun
  | .void, .array _ _ => isFalse nofun
  | .void, .variable _ => isFalse nofun

def decideEqList : (xs ys : List Ty) → Decidable (xs = ys)
  | [], [] => isTrue rfl
  | [], _ :: _ => isFalse nofun
  | _ :: _, [] => isFalse nofun
  | x :: xs, y :: ys =>
    match decideEq x y with
    | isFalse ne => isFalse fun e => ne (List.cons.inj e).1
    | isTrue h =>
      match decideEqList xs ys with
      | isTrue e => isTrue (by rw [h, e])
      | isFalse ne => isFalse fun e => ne (List.cons.inj e).2

end

instance : DecidableEq Ty := decideEq

/-- A reference without type arguments. -/
def named (name : String) : Ty := .reference name []

def object : Ty := named objectClass

def primitive? : Ty → Option Primitive
  | .primitive p => some p
  | _ => none

def className? : Ty → Option String
  | .reference name _ => some name
  | _ => none

def arguments : Ty → List Ty
  | .reference _ args => args
  | _ => []

def isReference : Ty → Bool
  | .reference .. => true
  | .array .. => true
  | .variable _ => true
  | _ => false

/-- Forgets type arguments; a type variable becomes the root class. -/
def erasure : Ty → Ty
  | .reference name _ => named name
  | .array element dimensions => .array element.erasure dimensions
  | .variable _ => object
  | t => t

def descriptorChars : Ty → List Char
  | .primitive p => [p.letter]
  | .reference name _ => 'L' :: (name.toList.map fun c => if c = '.' then '/' else c) ++ [';']
  | .array element dimensions => List.replicate dimensions '[' ++ element.descriptorChars
  | .variable _ => "Ljava/lang/Object;".toList
  | .void => ['V']

/-- The descriptor of the erased type. -/
def descriptor (t : Ty) : String := String.ofList t.descriptorChars

mutual

/-- The type as it is shown to people. -/
def text : Ty → String
  | .primitive p => p.name
  | .reference name [] => name
  | .reference name (a :: rest) => name ++ "<" ++ text a ++ textTail rest ++ ">"
  | .array element dimensions =>
    text element ++ String.ofList ((List.replicate dimensions ['[', ']']).flatten)
  | .variable name => name
  | .void => "void"

def textTail : List Ty → String
  | [] => ""
  | a :: rest => ", " ++ text a ++ textTail rest

end

mutual

def toJson : Ty → Json
  | .primitive p => .object [("Primitive", .string p.name)]
  | .reference name args =>
    .object [("Reference", .object [("name", .string name), ("type_args", .array (toJsons args))])]
  | .array element dimensions =>
    .object [("Array", .object [("element", toJson element), ("dimensions", .ofNat dimensions)])]
  | .variable name => .object [("TypeVariable", .string name)]
  | .void => .string "Void"

def toJsons : List Ty → List Json
  | [] => []
  | t :: rest => toJson t :: toJsons rest

end

end Ty

def methodDescriptorChars (parameters : List Ty) (result : Ty) : List Char :=
  '(' :: parameters.flatMap Ty.descriptorChars ++ ')' :: result.descriptorChars

/-- The descriptor of a method with these parameters and this result. -/
def methodDescriptor (parameters : List Ty) (result : Ty) : String :=
  String.ofList (methodDescriptorChars parameters result)

end Linkage
