import Linkage.ClassFile.Reader

/-!
Writing class files and module declarations with just the constants and attributes that reading
them needs. A text is stored once in the pool; every reference to it is a constant of its own.
-/
namespace Linkage.ClassFile

open Text (Bytes)

/-- A number of two bytes; what does not fit is cut off at the top. -/
def bytes2 (n : Nat) : Bytes := [(n / 256).toUInt8, n.toUInt8]

def bytes4 (n : Nat) : Bytes := bytes2 (n / 65536) ++ bytes2 n

structure MemberSpec where
  access : Access
  name : String
  descriptor : String
  signature : Option String := none
  deriving Repr, DecidableEq, Inhabited

/-- A class to be written; names are dotted. -/
structure ClassSpec where
  name : String
  access : Access := ⟨1⟩
  superClass : Option String := some objectClass
  interfaces : List String := []
  fields : List MemberSpec := []
  methods : List MemberSpec := []
  deriving Repr, DecidableEq, Inhabited

def slashed (name : String) : String := Text.replaceChar '.' '/' name

/-- An enum constant of the class itself. -/
def ClassSpec.enumConstant (c : ClassSpec) (name : String) : MemberSpec :=
  ⟨.enumConstant, name, "L" ++ slashed c.name ++ ";", none⟩

/-- Where the class stands inside an archive or a directory. -/
def ClassSpec.memberPath (c : ClassSpec) : String := slashed c.name ++ ".class"

/-- A constant in its written form. -/
def Constant.encode : Constant → Bytes
  | .utf8 text =>
    let raw := Text.encodeUtf8 text
    1 :: bytes2 raw.length ++ raw
  | .classRef name => 7 :: bytes2 name
  | .moduleRef name => 19 :: bytes2 name
  | .packageRef name => 20 :: bytes2 name
  | .plain tag payload => tag.toUInt8 :: payload
  | .vacant => []

/-- The constants written so far; the first has index one. -/
abbrev Build := StateM (List Constant)

namespace Build

def append (c : Constant) : Build Nat := do
  let cs ← get
  set (cs ++ [c])
  pure (cs.length + 1)

def utf8 (text : String) : Build Nat := do
  let cs ← get
  match cs.findIdx? (· == .utf8 text) with
  | some i => pure (i + 1)
  | none => append (.utf8 text)

def classRef (name : String) : Build Nat := do
  let index ← utf8 (slashed name)
  append (.classRef index)

def moduleRef (name : String) : Build Nat := do
  let index ← utf8 name
  append (.moduleRef index)

def packageRef (name : String) : Build Nat := do
  let index ← utf8 (slashed name)
  append (.packageRef index)

/-- A member with its attributes, once its texts have their indices. -/
def member (m : MemberSpec) : Build Bytes := do
  let name ← utf8 m.name
  let descriptor ← utf8 m.descriptor
  let attributes ← match m.signature with
    | some signature => do
      let label ← utf8 "Signature"
      let value ← utf8 signature
      pure (bytes2 1 ++ bytes2 label ++ bytes4 2 ++ bytes2 value)
    | none => pure (bytes2 0)
  pure (bytes2 m.access.bits ++ bytes2 name ++ bytes2 descriptor ++ attributes)

end Build

/-- The bytes in front of the access flags. -/
def header (constants : List Constant) : Bytes :=
  bytes4 magic ++ bytes2 0 ++ bytes2 61 ++ bytes2 (constants.length + 1) ++
    constants.flatMap Constant.encode

def ClassSpec.body (c : ClassSpec) : Build Bytes := do
  let thisClass ← Build.classRef c.name
  let superClass ← match c.superClass with
    | some name => Build.classRef name
    | none => pure 0
  let interfaces ← c.interfaces.mapM Build.classRef
  let fields ← c.fields.mapM Build.member
  let methods ← c.methods.mapM Build.member
  pure (bytes2 c.access.bits ++ bytes2 thisClass ++ bytes2 superClass ++
    bytes2 interfaces.length ++ interfaces.flatMap bytes2 ++
    bytes2 fields.length ++ fields.flatten ++ bytes2 methods.length ++ methods.flatten ++ bytes2 0)

def ClassSpec.encode (c : ClassSpec) : Bytes :=
  let (body, constants) := c.body.run []
  header constants ++ body

/-- The declaration of a module that exports the given packages. -/
def moduleBody (name : String) (exports : List String) : Build Bytes := do
  let thisClass ← Build.classRef "module-info"
  let label ← Build.utf8 "Module"
  let module ← Build.moduleRef name
  let packages ← exports.mapM Build.packageRef
  let body := bytes2 module ++ bytes2 0 ++ bytes2 0 ++ bytes2 0 ++ bytes2 packages.length ++
    packages.flatMap (fun p => bytes2 p ++ bytes2 0 ++ bytes2 0) ++ bytes2 0 ++ bytes2 0 ++ bytes2 0
  pure (bytes2 0x8000 ++ bytes2 thisClass ++ bytes2 0 ++ bytes2 0 ++ bytes2 0 ++ bytes2 0 ++
    bytes2 1 ++ bytes2 label ++ bytes4 body.length ++ body)

def encodeModule (name : String) (exports : List String) : Bytes :=
  let (body, constants) := (moduleBody name exports).run []
  header constants ++ body

end Linkage.ClassFile
