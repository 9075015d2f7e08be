/-!
The primitive types: their names, the letter of each in a descriptor, their place in the numeric
widening order, and the class that wraps each as an object.
-/
namespace Linkage

inductive Primitive where
  | boolean
  | byte
  | short
  | char
  | int
  | long
  | float
  | double
  deriving Repr, DecidableEq, Inhabited

namespace Primitive

def all : List Primitive := [.boolean, .byte, .short, .char, .int, .long, .float, .double]

def name : Primitive → String
  | .boolean => "boolean"
  | .byte => "byte"
  | .short => "short"
  | .char => "char"
  | .int => "int"
  | .long => "long"
  | .float => "float"
  | .double => "double"

def letter : Primitive → Char
  | .boolean => 'Z'
  | .byte => 'B'
  | .short => 'S'
  | .char => 'C'
  | .int => 'I'
  | .long => 'J'
  | .float => 'F'
  | .double => 'D'

/-- The primitive type whose descriptor letter has this code. -/
def ofTag? (tag : Nat) : Option Primitive := all.find? (·.letter.toNat == tag)

/-- Place in the widening order `byte`, `short` and `char`, `int`, `long`, `float`, `double`. -/
def rank? : Primitive → Option Nat
  | .byte => some 0
  | .short => some 1
  | .char => some 1
  | .int => some 2
  | .long => some 3
  | .float => some 4
  | .double => some 5
  | .boolean => none

def isIntegral : Primitive → Bool
  | .byte | .short | .char | .int | .long => true
  | _ => false

def isFloating : Primitive → Bool
  | .float | .double => true
  | _ => false

def wrapper : Primitive → String
  | .boolean => "java.lang.Boolean"
  | .byte => "java.lang.Byte"
  | .short => "java.lang.Short"
  | .char => "java.lang.Character"
  | .int => "java.lang.Integer"
  | .long => "java.lang.Long"
  | .float => "java.lang.Float"
  | .double => "java.lang.Double"

def ofWrapper? (className : String) : Option Primitive := all.find? (·.wrapper == className)

def ofName? (name : String) : Option Primitive := all.find? (·.name == name)

end Primitive

end Linkage
