import Linkage.ClassFile.Pool
import Linkage.ClassFile.Stub
import Linkage.Type.Descriptor

/-!
Reading class files and module declarations. Faults arise in the order of the bytes: the names of
interfaces are looked up while they are read, the name of the class and of its superclass after
them, and a member's name and descriptor after its attributes.
-/
namespace Linkage.ClassFile

open Text (Bytes)

/-- The fault that a descriptor's own fault amounts to in a class file. -/
def ofDescriptorFault (text : String) : Descriptor.Fault → Fault
  | .malformed => .invalidDescriptor text
  | .encoding fault => .encoding fault

def fieldType (text : String) : Except Fault Ty :=
  (Descriptor.field text).mapError (ofDescriptorFault text)

def methodType (text : String) : Except Fault (List Ty × Ty) :=
  (Descriptor.method text).mapError (ofDescriptorFault text)

/-- Class names inside a file are written with slashes. -/
def dotted (name : String) : String := Text.replaceChar '/' '.' name

def magic : Nat := 0xCAFEBABE

/-- Everything in front of the access flags. -/
def readHeader : Reader Pool := do
  let found ← Reader.u4
  if found != magic then Reader.fail .invalidMagic
  let _minor ← Reader.u2
  let _major ← Reader.u2
  Pool.read

def skipAttribute : Reader Unit := do
  let _name ← Reader.u2
  let length ← Reader.u4
  Reader.skip length

def skipAttributes : Reader Unit := do
  let count ← Reader.u2
  let _ ← Reader.times skipAttribute count

/-- A member before its descriptor is read. -/
structure RawMember where
  access : Access
  name : String
  descriptor : String
  signature : Option String

/-- One attribute of a member: the text of a signature, or nothing of interest. -/
def readMemberAttribute (pool : Pool) : Reader (Option String) := do
  let name ← Reader.u2
  let length ← Reader.u4
  let label ← Reader.lift (pool.utf8 name)
  if label = "Signature" ∧ length = 2 then
    let index ← Reader.u2
    let text ← Reader.lift (pool.utf8 index)
    pure (some text)
  else
    Reader.skip length
    pure none

def readMember (pool : Pool) : Reader RawMember := do
  let access ← Reader.u2
  let name ← Reader.u2
  let descriptor ← Reader.u2
  let count ← Reader.u2
  let attributes ← Reader.times (readMemberAttribute pool) count
  let name ← Reader.lift (pool.utf8 name)
  let descriptor ← Reader.lift (pool.utf8 descriptor)
  pure ⟨⟨access⟩, name, descriptor, (attributes.filterMap id).getLast?⟩

/-- A field; a generic signature that cannot be read only loses detail. -/
def RawMember.toField (m : RawMember) : Except Fault Member := do
  let type ← fieldType m.descriptor
  let generic := m.signature.bind fun s =>
    (Descriptor.field s).toOption.map fun t => ⟨[], t⟩
  pure ⟨m.name, .field, m.access, m.descriptor, [], type, generic⟩

/-- A method or a constructor; class initialisers are left out. -/
def RawMember.toMethod? (m : RawMember) : Except Fault (Option Member) :=
  if m.name = "<clinit>" then pure none
  else do
    let (parameters, result) ← methodType m.descriptor
    let generic := m.signature.bind fun s =>
      (Descriptor.methodSignature s).toOption.map fun (ps, r) => ⟨ps, r⟩
    let kind := if m.name = "<init>" then MemberKind.constructor else .method
    pure (some ⟨m.name, kind, m.access, m.descriptor, parameters, result, generic⟩)

def readField (pool : Pool) : Reader Member := do
  let raw ← readMember pool
  Reader.lift raw.toField

def readMethod (pool : Pool) : Reader (Option Member) := do
  let raw ← readMember pool
  Reader.lift raw.toMethod?

def readInterface (pool : Pool) : Reader String := do
  let index ← Reader.u2
  let name ← Reader.lift (pool.className index)
  pure (dotted name)

/-- Whether a field is a constant of its enum class. -/
def isEnumConstant (m : Member) : Bool := m.access.isEnum && m.access.isStatic

def readClass : Reader ClassStub := do
  let pool ← readHeader
  let access ← Reader.u2
  let thisClass ← Reader.u2
  let superClass ← Reader.u2
  let interfaceCount ← Reader.u2
  let interfaces ← Reader.times (readInterface pool) interfaceCount
  let name ← Reader.lift (pool.className thisClass)
  let superName ← Reader.lift
    (if superClass = 0 then pure none else (pool.className superClass).map some)
  let fieldCount ← Reader.u2
  let fields ← Reader.times (readField pool) fieldCount
  let methodCount ← Reader.u2
  let methods ← Reader.times (readMethod pool) methodCount
  skipAttributes
  pure {
    name := dotted name
    access := ⟨access⟩
    superClass := superName.map dotted
    interfaces := interfaces
    members := fields ++ methods.filterMap id
    enumConstants := (fields.filter isEnumConstant).map (·.name) }

/-- The stub of a class file. Bytes after the class do not matter. -/
def parse (bytes : Bytes) : Except Fault ClassStub := (readClass.run bytes).map (·.1)

/-- The declaration of a module: its name and the packages that it exports, in order. -/
structure ModuleInfo where
  name : String
  exports : List String
  deriving Repr, DecidableEq, Inhabited

def ModuleInfo.toJson (m : ModuleInfo) : Json :=
  .object [("name", .string m.name), ("exports", .strings m.exports)]

def skipMember : Reader Unit := do
  Reader.skip 6
  skipAttributes

def readExport (pool : Pool) : Reader String := do
  let index ← Reader.u2
  let _flags ← Reader.u2
  let count ← Reader.u2
  Reader.skip (2 * count)
  let package ← Reader.lift (pool.packageName index)
  pure (dotted package)

/-- The content of a module attribute up to its exports. -/
def readModuleBody (pool : Pool) : Reader ModuleInfo := do
  let name ← Reader.u2
  let _flags ← Reader.u2
  let _version ← Reader.u2
  let requires ← Reader.u2
  Reader.skip (6 * requires)
  let count ← Reader.u2
  let exports ← Reader.times (readExport pool) count
  let name ← Reader.lift (pool.moduleName name)
  pure ⟨name, Text.sortedStrings (Text.distinct exports)⟩

/-- The first module attribute among the given number of attributes. -/
def readModuleAttribute (pool : Pool) : Nat → Reader ModuleInfo
  | 0 => Reader.fail (.invalidDescriptor "module-info missing Module attribute")
  | count + 1 => do
    let name ← Reader.u2
    let length ← Reader.u4
    let label ← Reader.lift (pool.utf8 name)
    if label = "Module" then
      let body ← Reader.bytes length
      Reader.lift (((readModuleBody pool).run body).map (·.1))
    else
      Reader.skip length
      readModuleAttribute pool count

def readModule : Reader ModuleInfo := do
  let pool ← readHeader
  Reader.skip 6
  let interfaceCount ← Reader.u2
  Reader.skip (2 * interfaceCount)
  let fieldCount ← Reader.u2
  let _ ← Reader.times skipMember fieldCount
  let methodCount ← Reader.u2
  let _ ← Reader.times skipMember methodCount
  let count ← Reader.u2
  readModuleAttribute pool count

def parseModule (bytes : Bytes) : Except Fault ModuleInfo := (readModule.run bytes).map (·.1)

end Linkage.ClassFile
