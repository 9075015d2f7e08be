import Linkage.Text.Utf8

/-!
The bytes of a class file as a stream, and the constant pool that opens it. A reader consumes
bytes from the front or fails with a cause; numbers are written with the highest byte first.

A pool is kept slot by slot: a constant of eight bytes takes two slots, the second of which holds
nothing, so that a slot's place in the list is its index.
-/
namespace Linkage.ClassFile

open Text (Bytes)

/-- Why a class file is refused. -/
inductive Fault where
  | unexpectedEnd
  | invalidMagic
  | unsupportedConstant (tag : Nat)
  | invalidConstantIndex (index : Nat)
  | encoding (fault : Text.Utf8Fault)
  | invalidDescriptor (text : String)
  deriving Repr, DecidableEq

def Fault.message : Fault → String
  | .unexpectedEnd => "unexpected end of class file"
  | .invalidMagic => "invalid class file magic header"
  | .unsupportedConstant tag => s!"unsupported constant pool tag {tag}"
  | .invalidConstantIndex index => s!"invalid constant pool index {index}"
  | .encoding fault => "invalid UTF-8 string in constant pool: " ++ fault.message
  | .invalidDescriptor text => "malformed descriptor: " ++ text

abbrev Reader (α : Type) := StateT Bytes (Except Fault) α

namespace Reader

/-- Exactly `count` bytes. -/
def bytes (count : Nat) : Reader Bytes := fun input =>
  if count ≤ input.length then .ok (input.take count, input.drop count)
  else .error .unexpectedEnd

def byte : Reader Nat := fun input =>
  match input with
  | [] => .error .unexpectedEnd
  | b :: rest => .ok (b.toNat, rest)

def u2 : Reader Nat := fun input =>
  match input with
  | a :: b :: rest => .ok (256 * a.toNat + b.toNat, rest)
  | _ => .error .unexpectedEnd

def u4 : Reader Nat := fun input =>
  match input with
  | a :: b :: c :: d :: rest =>
    .ok (256 * (256 * (256 * a.toNat + b.toNat) + c.toNat) + d.toNat, rest)
  | _ => .error .unexpectedEnd

def skip (count : Nat) : Reader Unit := do
  let _ ← bytes count

def fail {α : Type} (fault : Fault) : Reader α := fun _ => .error fault

/-- The outcome of a computation that reads nothing. -/
def lift {α : Type} (r : Except Fault α) : Reader α := fun input => r.map fun a => (a, input)

/-- Runs a reader `count` times. -/
def times {α : Type} (r : Reader α) : Nat → Reader (List α)
  | 0 => pure []
  | count + 1 => do
    let a ← r
    let rest ← times r count
    pure (a :: rest)

end Reader

/-- What a slot of the pool holds. A constant that nothing here refers to keeps its tag and its
bytes; `vacant` is index zero and the second slot of a wide constant. -/
inductive Constant where
  | utf8 (text : String)
  | classRef (name : Nat)
  | moduleRef (name : Nat)
  | packageRef (name : Nat)
  | plain (tag : Nat) (payload : Bytes)
  | vacant
  deriving Repr, DecidableEq

/-- How many bytes follow the tag of a constant that is kept as it is. -/
def plainSize? (tag : Nat) : Option Nat :=
  if tag ∈ [3, 4, 9, 10, 11, 12, 17, 18] then some 4
  else if tag ∈ [5, 6] then some 8
  else if tag ∈ [8, 16] then some 2
  else if tag = 15 then some 3
  else none

def isWide (tag : Nat) : Bool := tag == 5 || tag == 6

/-- The slots that a constant fills. -/
def Constant.slots (c : Constant) : List Constant :=
  match c with
  | .plain tag _ => if isWide tag then [c, .vacant] else [c]
  | _ => [c]

def readConstant : Reader Constant := do
  let tag ← Reader.byte
  if tag = 1 then
    let length ← Reader.u2
    let raw ← Reader.bytes length
    match Text.decodeUtf8 raw with
    | .ok text => pure (.utf8 text)
    | .error fault => Reader.fail (.encoding fault)
  else if tag = 7 then
    let name ← Reader.u2
    pure (.classRef name)
  else if tag = 19 then
    let name ← Reader.u2
    pure (.moduleRef name)
  else if tag = 20 then
    let name ← Reader.u2
    pure (.packageRef name)
  else
    match plainSize? tag with
    | some size => do
      let payload ← Reader.bytes size
      pure (.plain tag payload)
    | none => Reader.fail (.unsupportedConstant tag)

/-- Constants until the given number of slots is filled; a wide one may fill one slot more. -/
def readSlots : Nat → Reader (List Constant)
  | 0 => pure []
  | 1 => do
    let c ← readConstant
    pure c.slots
  | slots + 2 => do
    let c ← readConstant
    let rest ← if c.slots.length = 2 then readSlots slots else readSlots (slots + 1)
    pure (c.slots ++ rest)

structure Pool where
  slots : List Constant
  deriving Repr, DecidableEq

namespace Pool

/-- The pool: a count that is one more than the number of slots, then the constants. -/
def read : Reader Pool := do
  let count ← Reader.u2
  let slots ← readSlots (count - 1)
  pure ⟨.vacant :: slots⟩

def utf8 (p : Pool) (index : Nat) : Except Fault String :=
  match p.slots[index]? with
  | some (.utf8 text) => .ok text
  | _ => .error (.invalidConstantIndex index)

def className (p : Pool) (index : Nat) : Except Fault String :=
  match p.slots[index]? with
  | some (.classRef name) => p.utf8 name
  | _ => .error (.invalidConstantIndex index)

/-- The name of a package; a class constant may stand in for a package constant. -/
def packageName (p : Pool) (index : Nat) : Except Fault String :=
  match p.slots[index]? with
  | some (.packageRef name) => p.utf8 name
  | some (.classRef name) => p.utf8 name
  | _ => .error (.invalidConstantIndex index)

def moduleName (p : Pool) (index : Nat) : Except Fault String :=
  match p.slots[index]? with
  | some (.moduleRef name) => p.utf8 name
  | _ => .error (.invalidConstantIndex index)

end Pool

end Linkage.ClassFile
