import Linkage.Text.Utf8
import Linkage.Type.Basic

/-!
Reading descriptors and generic signatures. The text is read byte by byte, and every byte of a
class name stands for one character of it; only the name of a type variable is decoded as UTF-8.
Generic signatures are a superset of descriptors: they add type arguments, type variables and the
names of inner classes.

A reader takes the bytes that are left and gives back what it read with the bytes after it. The
fuel of the recursive readers is taken from the length of the text, of which every round uses up
a byte.
-/
namespace Linkage.Descriptor

open Text (Bytes)

inductive Fault where
  | malformed
  | encoding (fault : Text.Utf8Fault)
  deriving Repr, DecidableEq

def code (c : Char) : UInt8 := c.toNat.toUInt8

/-- The bytes before the first `stop`, and the bytes after it. -/
def readUntil (stop : UInt8) (bytes : Bytes) : Except Fault (String × Bytes) :=
  match bytes.span (· != stop) with
  | (_, []) => .error .malformed
  | (before, _ :: after) =>
    match Text.decodeUtf8 before with
    | .ok s => .ok (s, after)
    | .error f => .error (.encoding f)

/-- More than this many dimensions are not counted. -/
def maxDimensions : Nat := 255

mutual

def readType : Nat → Bytes → Except Fault (Ty × Bytes)
  | 0, _ => .error .malformed
  | _, [] => .error .malformed
  | fuel + 1, b :: rest =>
    match Primitive.ofTag? b.toNat with
    | some p => .ok (.primitive p, rest)
    | none =>
      if b = code 'L' then readReference fuel [] [] rest
      else if b = code '[' then
        let depth := 1 + (rest.takeWhile (· == code '[')).length
        match readType fuel (rest.dropWhile (· == code '[')) with
        | .ok (element, rest) => .ok (.array element (min depth maxDimensions), rest)
        | .error f => .error f
      else if b = code 'T' then
        match readUntil (code ';') rest with
        | .ok (name, rest) => .ok (.variable name, rest)
        | .error f => .error f
      else .error .malformed

/-- A class reference after its leading `L`. The name is gathered backwards; what follows a point
is an inner class, whose own type arguments are the ones that count. -/
def readReference : Nat → List Char → List Ty → Bytes → Except Fault (Ty × Bytes)
  | 0, _, _, _ => .error .malformed
  | _, _, _, [] => .error .malformed
  | fuel + 1, name, args, b :: rest =>
    if b = code ';' then
      if name.isEmpty then .error .malformed
      else .ok (.reference (String.ofList name.reverse) args, rest)
    else if b = code '<' then
      match readArguments fuel [] rest with
      | .ok (args, rest) => readReference fuel name args rest
      | .error f => .error f
    else if b = code '.' then readReference fuel ('$' :: name) [] rest
    else if b = code '/' then readReference fuel ('.' :: name) args rest
    else readReference fuel (Char.ofNat b.toNat :: name) args rest

/-- Type arguments after their `<`. A wildcard stands for the root class, a bounded wildcard for
its bound. -/
def readArguments : Nat → List Ty → Bytes → Except Fault (List Ty × Bytes)
  | 0, _, _ => .error .malformed
  | _, _, [] => .error .malformed
  | fuel + 1, args, b :: rest =>
    if b = code '>' then .ok (args.reverse, rest)
    else if b = code '*' then readArguments fuel (.object :: args) rest
    else
      match readType fuel (if b = code '+' ∨ b = code '-' then rest else b :: rest) with
      | .ok (t, rest) => readArguments fuel (t :: args) rest
      | .error f => .error f

end

/-- Fuel for a text: a round that hands its byte on is followed by one that uses it up. -/
def fuelFor (bytes : Bytes) : Nat := 2 * bytes.length + 2

def readParameters : Nat → List Ty → Bytes → Except Fault (List Ty × Bytes)
  | 0, _, _ => .error .malformed
  | _, _, [] => .error .malformed
  | fuel + 1, params, b :: rest =>
    if b = code ')' then .ok (params.reverse, rest)
    else
      match readType (fuelFor (b :: rest)) (b :: rest) with
      | .ok (t, rest) => readParameters fuel (t :: params) rest
      | .error f => .error f

def readResult : Bytes → Except Fault (Ty × Bytes)
  | [] => .error .malformed
  | b :: rest =>
    if b = code 'V' then .ok (.void, rest) else readType (fuelFor (b :: rest)) (b :: rest)

/-- Parameters and result; a clause of thrown types is passed over to the end of the text. -/
def readMethod : Bytes → Except Fault (List Ty × Ty × Bytes)
  | [] => .error .malformed
  | b :: rest =>
    if b = code '(' then
      match readParameters (rest.length + 1) [] rest with
      | .error f => .error f
      | .ok (params, rest) =>
        match readResult rest with
        | .error f => .error f
        | .ok (result, rest) =>
          .ok (params, result, if rest.head? = some (code '^') then [] else rest)
    else .error .malformed

/-- Passes over bytes until as many `>` as `<` were met. -/
def skipNested : Nat → Bytes → Except Fault Bytes
  | _, [] => .error .malformed
  | depth, b :: rest =>
    if b = code '<' then skipNested (depth + 1) rest
    else if b = code '>' then
      if depth ≤ 1 then .ok rest else skipNested (depth - 1) rest
    else skipNested depth rest

/-- The formal type parameters that may open a method's generic signature. -/
def skipTypeParameters (bytes : Bytes) : Except Fault Bytes :=
  if bytes.head? = some (code '<') then skipNested 0 bytes else .ok bytes

/-- The type that a whole text describes. -/
def field (text : String) : Except Fault Ty :=
  let bytes := Text.encodeUtf8 text
  match readType (fuelFor bytes) bytes with
  | .ok (t, []) => .ok t
  | .ok (_, _ :: _) => .error .malformed
  | .error f => .error f

/-- The parameters and the result that a whole text describes. -/
def method (text : String) : Except Fault (List Ty × Ty) :=
  match readMethod (Text.encodeUtf8 text) with
  | .ok (params, result, []) => .ok (params, result)
  | .ok (_, _, _ :: _) => .error .malformed
  | .error f => .error f

/-- The parameters and the result of a method's generic signature; what follows them does not
matter. -/
def methodSignature (text : String) : Except Fault (List Ty × Ty) :=
  match skipTypeParameters (Text.encodeUtf8 text) with
  | .error f => .error f
  | .ok bytes =>
    match readMethod bytes with
    | .ok (params, result, _) => .ok (params, result)
    | .error f => .error f

end Linkage.Descriptor
