import Linkage.Proofs.ClassFile.Pool

/-!
A class that is written reads back as it was specified. Everything that the bytes refer to stands in
the pool, and what every part promises about the pool that is read in the end is that its own bytes
read back.
-/
namespace Linkage.ClassFile

open Text (Bytes)

/-- What is kept of a member: its name, its flags and its descriptor with the types in it, and the
types of its signature exactly when the signature can be read. -/
structure MemberSpec.Kept (kind : MemberKind) (described signed : String → Option (List Ty × Ty))
    (m : MemberSpec) (kept : Member) : Prop where
  name : kept.name = m.name
  kind : kept.kind = kind
  access : kept.access = m.access
  descriptor : kept.descriptor = m.descriptor
  types : described m.descriptor = some (kept.parameters, kept.result)
  generic : ∀ g, kept.generic = some g ↔
    ∃ text, m.signature = some text ∧ signed text = some (g.parameters, g.result)

/-- The type of a field; a field has no parameters. -/
def fieldTypes (text : String) : Option (List Ty × Ty) :=
  (Descriptor.field text).toOption.map fun t => ([], t)

def methodTypes (text : String) : Option (List Ty × Ty) := (Descriptor.method text).toOption

def signatureTypes (text : String) : Option (List Ty × Ty) :=
  (Descriptor.methodSignature text).toOption

namespace MemberSpec

def KeptField (m : MemberSpec) (kept : Member) : Prop := m.Kept .field fieldTypes fieldTypes kept

def KeptMethod (m : MemberSpec) (kept : Member) : Prop :=
  m.Kept (if m.name = "<init>" then .constructor else .method) methodTypes signatureTypes kept

/-- The texts that a member refers to. -/
def texts (m : MemberSpec) : List String := m.name :: m.descriptor :: m.signature.toList

end MemberSpec

namespace ClassSpec

/-- The classes that a class refers to by name, itself included. -/
def classNames (c : ClassSpec) : List String := c.name :: c.superClass.toList ++ c.interfaces

/-- Names and descriptors that can be read, and lengths and numbers of two bytes. The number that is
written for the constants is one more than there are. -/
structure Writable (c : ClassSpec) : Prop where
  names : ∀ name ∈ c.classNames, '/' ∉ name.toList
  fields : ∀ m ∈ c.fields, (fieldTypes m.descriptor).isSome
  methods : ∀ m ∈ c.methods, m.name ≠ "<clinit>" → (methodTypes m.descriptor).isSome
  nameLengths : ∀ name ∈ c.classNames, (Text.encodeUtf8 name).length < 65536
  textLengths : ∀ m ∈ c.fields ++ c.methods, ∀ text ∈ m.texts,
    (Text.encodeUtf8 text).length < 65536
  access : c.access.bits < 65536
  memberAccess : ∀ m ∈ c.fields ++ c.methods, m.access.bits < 65536
  interfaceCount : c.interfaces.length < 65536
  fieldCount : c.fields.length < 65536
  methodCount : c.methods.length < 65536
  constantCount : (c.body.run []).2.length + 1 < 65536

/-- What is kept of a class: all that it specifies but its class initialisers, with the names of the
fields that are flagged both static and enum. -/
structure Kept (c : ClassSpec) (kept : ClassStub) : Prop where
  name : kept.name = c.name
  access : kept.access = c.access
  superClass : kept.superClass = c.superClass
  interfaces : kept.interfaces = c.interfaces
  members : ∃ fields methods, kept.members = fields ++ methods ∧
    List.Forall₂ MemberSpec.KeptField c.fields fields ∧
    List.Forall₂ MemberSpec.KeptMethod (c.methods.filter (·.name ≠ "<clinit>")) methods
  enumConstants : kept.enumConstants =
    (c.fields.filter fun m => m.access.isStatic && m.access.isEnum).map (·.name)

end ClassSpec

section Names

theorem dotted_slashed {name : String} (noSlash : '/' ∉ name.toList) :
    dotted (slashed name) = name := by
  have same : (name.toList.map fun c => if c = '.' then '/' else c).map
      (fun c => if c = '/' then '.' else c) = name.toList := by
    rw [List.map_map]
    refine (List.map_congr_left fun c member => ?_).trans (List.map_id _)
    have other : c ≠ '/' := fun isSlash => noSlash (isSlash ▸ member)
    by_cases point : c = '.' <;> simp [point, other]
  rw [dotted, slashed, Text.replaceChar, Text.replaceChar, String.toList_ofList, same,
    String.ofList_toList]

/-- Points and slashes have one byte each. -/
theorem length_slashed (name : String) :
    (Text.encodeUtf8 (slashed name)).length = (Text.encodeUtf8 name).length := by
  rw [slashed, Text.replaceChar, Text.encodeUtf8, Text.encodeUtf8, String.toList_ofList]
  induction name.toList with
  | nil => rfl
  | cons c cs ih =>
    have first : (Text.charBytes (if c = '.' then '/' else c)).length =
        (Text.charBytes c).length := by
      split
      · rename_i point
        rw [point]
        rfl
      · rfl
    rw [List.map_cons, List.flatMap_cons, List.flatMap_cons, List.length_append,
      List.length_append, first, ih]

end Names

section Parts
variable {final : List Constant}

theorem classRef_builds {name : String} (short : (Text.encodeUtf8 name).length < 65536) :
    Builds (Build.classRef name) fun final index =>
      final.length + 1 < 65536 →
        index < 65536 ∧ index ≠ 0 ∧ (poolOf final).className index = .ok (slashed name) := by
  have fits : (Text.encodeUtf8 (slashed name)).length < 65536 := by rwa [length_slashed]
  refine (reference_builds fits .classRef id).imp fun final index => ?_
  rintro ⟨at', held, named⟩ small
  refine ⟨index_lt held small, ?_, className_eq held named⟩
  rintro rfl
  cases held

theorem readInterface_reads {index : Nat} {name : String} (small : index < 65536)
    (noSlash : '/' ∉ name.toList) (held : (poolOf final).className index = .ok (slashed name)) :
    Reads (readInterface (poolOf final)) (bytes2 index) name := by
  refine (Reads.u2 small).bind_nil (Reads.then_lift held ?_)
  rw [dotted_slashed noSlash]
  exact Reads.pure name

theorem readMemberAttribute_reads {label value : Nat} {text : String}
    (small : final.length + 1 < 65536)
    (labelled : (poolOf final).slots[label]? = some (.utf8 "Signature"))
    (held : (poolOf final).slots[value]? = some (.utf8 text)) :
    Reads (readMemberAttribute (poolOf final)) (bytes2 label ++ bytes4 2 ++ bytes2 value)
      (some text) := by
  rw [List.append_assoc]
  refine (Reads.u2 (index_lt labelled small)).bind ?_
  refine (Reads.u4 (by decide)).bind ?_
  refine Reads.then_lift (utf8_eq labelled) ?_
  refine (Reads.u2 (index_lt held small)).bind_nil ?_
  exact Reads.then_lift (utf8_eq held) (Reads.pure _)

theorem readMember_reads {access nameIndex descriptorIndex count : Nat} {name descriptor : String}
    {attributes : Bytes} {read : List (Option String)} (small : final.length + 1 < 65536)
    (flags : access < 65536) (named : (poolOf final).slots[nameIndex]? = some (.utf8 name))
    (described : (poolOf final).slots[descriptorIndex]? = some (.utf8 descriptor))
    (few : count < 65536)
    (reads : Reads (Reader.times (readMemberAttribute (poolOf final)) count) attributes read) :
    Reads (readMember (poolOf final))
      (bytes2 access ++ bytes2 nameIndex ++ bytes2 descriptorIndex ++ (bytes2 count ++ attributes))
      ⟨⟨access⟩, name, descriptor, (read.filterMap id).getLast?⟩ := by
  rw [List.append_assoc, List.append_assoc]
  refine (Reads.u2 flags).bind ?_
  refine (Reads.u2 (index_lt named small)).bind ?_
  refine (Reads.u2 (index_lt described small)).bind ?_
  refine (Reads.u2 few).bind (reads.bind_nil ?_)
  exact Reads.then_lift (utf8_eq named) (Reads.then_lift (utf8_eq described) (Reads.pure _))

/-- The bytes of a member read back as the member. -/
theorem member_builds {m : MemberSpec}
    (short : ∀ text ∈ m.texts, (Text.encodeUtf8 text).length < 65536)
    (flags : m.access.bits < 65536) :
    Builds (Build.member m) fun final bytes =>
      final.length + 1 < 65536 →
        Reads (readMember (poolOf final)) bytes ⟨m.access, m.name, m.descriptor, m.signature⟩ := by
  obtain ⟨access, name, descriptor, signature⟩ := m
  have shortName := short name (by simp [MemberSpec.texts])
  have shortDescriptor := short descriptor (by simp [MemberSpec.texts])
  refine (utf8_builds shortName).bind fun nameIndex => ?_
  refine (utf8_builds shortDescriptor).bind fun descriptorIndex => ?_
  cases signature with
  | none =>
    refine Builds.pure fun final described named small => ?_
    have none : Reads (Reader.times (readMemberAttribute (poolOf final)) 0) [] [] := Reads.pure []
    exact readMember_reads small flags named described (by decide) none
  | some text =>
    have shortText := short text (by simp [MemberSpec.texts])
    refine (utf8_builds (by decide +kernel)).bind fun label => ?_
    refine (utf8_builds shortText).bind fun value => ?_
    refine Builds.pure fun final held labelled described named small => ?_
    have one : Reads (Reader.times (readMemberAttribute (poolOf final)) 1)
        (bytes2 label ++ bytes4 2 ++ bytes2 value) [some text] :=
      (readMemberAttribute_reads small labelled held).bind_nil (Reads.pure _)
    have whole := readMember_reads small flags named described (by decide) one
    simp only [List.append_assoc] at whole ⊢
    exact whole

end Parts

section Members
variable {m : MemberSpec}

/-- A member as it is read before its types are. -/
def MemberSpec.raw (m : MemberSpec) : RawMember := ⟨m.access, m.name, m.descriptor, m.signature⟩

theorem toField_kept (described : (fieldTypes m.descriptor).isSome) :
    ∃ kept, m.raw.toField = .ok kept ∧ m.KeptField kept := by
  cases read : Descriptor.field m.descriptor with
  | error fault => simp [fieldTypes, read, Except.toOption] at described
  | ok type =>
    have own : fieldType m.descriptor = .ok type := by simp [fieldType, read, Except.mapError]
    refine ⟨⟨m.name, .field, m.access, m.descriptor, [], type, m.signature.bind fun s =>
      (Descriptor.field s).toOption.map fun t => ⟨[], t⟩⟩, ?_, rfl, rfl, rfl, rfl, ?_, ?_⟩
    · simp only [RawMember.toField, MemberSpec.raw, own]
      rfl
    · simp [fieldTypes, read, Except.toOption]
    · rintro ⟨parameters, result⟩
      simp [fieldTypes, Option.bind_eq_some_iff, Option.map_eq_some_iff]

/-- A class initialiser is left out, and any other method is kept. -/
def MemberSpec.KeptMethod? (m : MemberSpec) (kept : Option Member) : Prop :=
  if m.name = "<clinit>" then kept = none else ∃ method, kept = some method ∧ m.KeptMethod method

theorem toMethod?_kept
    (described : m.name ≠ "<clinit>" → (methodTypes m.descriptor).isSome) :
    ∃ kept, m.raw.toMethod? = .ok kept ∧ m.KeptMethod? kept := by
  by_cases initialiser : m.name = "<clinit>"
  · exact ⟨none, if_pos initialiser, (if_pos initialiser).mpr rfl⟩
  cases read : Descriptor.method m.descriptor with
  | error fault =>
    have accepted := described initialiser
    simp [methodTypes, read, Except.toOption] at accepted
  | ok types =>
    obtain ⟨parameters, result⟩ := types
    have own : methodType m.descriptor = .ok (parameters, result) := by
      simp [methodType, read, Except.mapError]
    have kept : m.KeptMethod ⟨m.name, if m.name = "<init>" then .constructor else .method,
        m.access, m.descriptor, parameters, result, m.signature.bind fun s =>
          (Descriptor.methodSignature s).toOption.map fun types => ⟨types.1, types.2⟩⟩ := by
      refine ⟨rfl, rfl, rfl, rfl, ?_, ?_⟩
      · simp [methodTypes, read, Except.toOption]
      · rintro ⟨parameters, result⟩
        simp [signatureTypes, Option.bind_eq_some_iff, Option.map_eq_some_iff]
    refine ⟨some _, ?_, (if_neg initialiser).mpr ⟨_, rfl, kept⟩⟩
    simp only [RawMember.toMethod?, MemberSpec.raw, own]
    rw [if_neg initialiser]
    rfl

/-- What is kept of the methods is what is kept of those that are no class initialisers. -/
theorem filterMap_kept {methods : List MemberSpec} {read : List (Option Member)}
    (each : List.Forall₂ MemberSpec.KeptMethod? methods read) :
    List.Forall₂ MemberSpec.KeptMethod (methods.filter (·.name ≠ "<clinit>"))
      (read.filterMap id) := by
  induction each with
  | nil => exact .nil
  | @cons m kept methods read first _ ih =>
    unfold MemberSpec.KeptMethod? at first
    by_cases initialiser : m.name = "<clinit>"
    · rw [if_pos initialiser] at first
      rw [first, List.filter_cons_of_neg (by simpa using initialiser), List.filterMap_cons_none rfl]
      exact ih
    · rw [if_neg initialiser] at first
      obtain ⟨method, rfl, kept⟩ := first
      rw [List.filter_cons_of_pos (by simpa using initialiser),
        List.filterMap_cons_some (f := id) rfl]
      exact .cons kept ih

/-- The constants among the fields that are kept. -/
theorem enumConstants_kept {fields : List MemberSpec} {read : List Member}
    (each : List.Forall₂ MemberSpec.KeptField fields read) :
    (read.filter isEnumConstant).map (·.name) =
      (fields.filter fun m => m.access.isStatic && m.access.isEnum).map (·.name) := by
  induction each with
  | nil => rfl
  | @cons m kept fields read first _ ih =>
    have flags : isEnumConstant kept = (m.access.isStatic && m.access.isEnum) := by
      rw [isEnumConstant, first.access, Bool.and_comm]
    rw [List.filter_cons, List.filter_cons, flags]
    split
    · rw [List.map_cons, List.map_cons, first.name, ih]
    · exact ih

end Members

namespace ClassSpec
variable {c : ClassSpec}

/-- The index of the class above, or zero. -/
def superIndex : Option String → Build Nat
  | some name => Build.classRef name
  | none => pure 0

theorem body_eq (c : ClassSpec) : c.body = (do
    let thisClass ← Build.classRef c.name
    let above ← superIndex c.superClass
    let interfaces ← c.interfaces.mapM Build.classRef
    let fields ← c.fields.mapM Build.member
    let methods ← c.methods.mapM Build.member
    pure (bytes2 c.access.bits ++ bytes2 thisClass ++ bytes2 above ++
      bytes2 interfaces.length ++ interfaces.flatMap bytes2 ++ bytes2 fields.length ++
      fields.flatten ++ bytes2 methods.length ++ methods.flatten ++ bytes2 0)) := by
  unfold ClassSpec.body
  cases c.superClass with
  | none => rfl
  | some name => rfl

theorem superIndex_builds {superClass : Option String}
    (short : ∀ name ∈ superClass, (Text.encodeUtf8 name).length < 65536) :
    Builds (superIndex superClass) fun final index =>
      final.length + 1 < 65536 → index < 65536 ∧
        (if index = 0 then pure none else ((poolOf final).className index).map some) =
          Except.ok (superClass.map slashed) := by
  cases superClass with
  | none => exact Builds.pure fun final small => ⟨by decide, rfl⟩
  | some name =>
    refine (classRef_builds (short name rfl)).imp fun final index known small => ?_
    obtain ⟨fits, nonzero, named⟩ := known small
    rw [if_neg nonzero, named]
    exact ⟨fits, rfl⟩

theorem interfaces_builds (writable : c.Writable) :
    Builds (c.interfaces.mapM Build.classRef) fun final indices =>
      final.length + 1 < 65536 → indices.length = c.interfaces.length ∧
        Reads (Reader.times (readInterface (poolOf final)) c.interfaces.length)
          (indices.flatMap bytes2) c.interfaces := by
  have known : ∀ name ∈ c.interfaces, name ∈ c.classNames := by
    intro name member
    exact List.mem_append_right _ member
  refine (Builds.mapM c.interfaces fun name member =>
    (classRef_builds (writable.nameLengths name (known name member))).imp
      (Q := fun final index => final.length + 1 < 65536 →
        Reads (readInterface (poolOf final)) (bytes2 index) name) ?_).imp ?_
  · intro final index held small
    obtain ⟨fits, _, named⟩ := held small
    exact readInterface_reads fits (writable.names name (known name member)) named
  · intro final indices each small
    refine ⟨each.length_eq.symm, ?_⟩
    have texts : List.Forall₂ (fun name text => ∃ a, name = a ∧
        Reads (readInterface (poolOf final)) text a) c.interfaces (indices.map bytes2) := by
      rw [List.forall₂_map_right_iff]
      exact each.imp fun name index reads => ⟨name, rfl, reads small⟩
    obtain ⟨read, same, reads⟩ := Reads.times texts
    rw [List.forall₂_eq_eq_eq] at same
    rw [List.flatMap_def]
    rwa [← same] at reads

theorem members_builds {α : Type} {members : List MemberSpec} {readOne : Pool → Reader α}
    {R : MemberSpec → α → Prop}
    (short : ∀ m ∈ members, ∀ text ∈ m.texts, (Text.encodeUtf8 text).length < 65536)
    (flags : ∀ m ∈ members, m.access.bits < 65536)
    (reads : ∀ m ∈ members, ∀ final bytes, Reads (readMember (poolOf final)) bytes m.raw →
      ∃ a, R m a ∧ Reads (readOne (poolOf final)) bytes a) :
    Builds (members.mapM Build.member) fun final texts =>
      final.length + 1 < 65536 → texts.length = members.length ∧
        ∃ read, List.Forall₂ R members read ∧
          Reads (Reader.times (readOne (poolOf final)) members.length) texts.flatten read := by
  refine (Builds.mapM members fun m member =>
    (member_builds (short m member) (flags m member)).imp
      (Q := fun final bytes => final.length + 1 < 65536 →
        ∃ a, R m a ∧ Reads (readOne (poolOf final)) bytes a) ?_).imp ?_
  · intro final bytes read small
    exact reads m member final bytes (read small)
  · intro final texts each small
    exact ⟨each.length_eq.symm, Reads.times (each.imp fun m bytes found => found small)⟩

theorem fields_builds (writable : c.Writable) :
    Builds (c.fields.mapM Build.member) fun final texts =>
      final.length + 1 < 65536 → texts.length = c.fields.length ∧
        ∃ read, List.Forall₂ MemberSpec.KeptField c.fields read ∧
          Reads (Reader.times (readField (poolOf final)) c.fields.length) texts.flatten read := by
  refine members_builds (fun m member => writable.textLengths m (List.mem_append_left _ member))
    (fun m member => writable.memberAccess m (List.mem_append_left _ member)) ?_
  intro m member final bytes read
  obtain ⟨kept, typed, fits⟩ := toField_kept (writable.fields m member)
  exact ⟨kept, fits, read.bind_nil (Reads.lift typed)⟩

theorem methods_builds (writable : c.Writable) :
    Builds (c.methods.mapM Build.member) fun final texts =>
      final.length + 1 < 65536 → texts.length = c.methods.length ∧
        ∃ read, List.Forall₂ MemberSpec.KeptMethod? c.methods read ∧
          Reads (Reader.times (readMethod (poolOf final)) c.methods.length) texts.flatten read := by
  refine members_builds (fun m member => writable.textLengths m (List.mem_append_right _ member))
    (fun m member => writable.memberAccess m (List.mem_append_right _ member)) ?_
  intro m member final bytes read
  obtain ⟨kept, typed, fits⟩ := toMethod?_kept (writable.methods m member)
  exact ⟨kept, fits, read.bind_nil (Reads.lift typed)⟩

theorem skipAttributes_reads : Reads skipAttributes (bytes2 0) () := by
  have none : Reads (Reader.times skipAttribute 0) [] [] := Reads.pure []
  exact (Reads.u2 (by decide)).bind (none.bind (Reads.pure ()))

/-- Behind a header for the pool that was built, the body reads back as the class. -/
theorem body_builds (writable : c.Writable) :
    Builds c.body fun final body => final.length + 1 < 65536 →
      ∃ kept, c.Kept kept ∧ ∀ head, Reads readHeader head (poolOf final) →
        Reads readClass (head ++ body) kept := by
  have ownName : c.name ∈ c.classNames := List.mem_cons_self
  have aboveName : ∀ name ∈ c.superClass, name ∈ c.classNames := by
    intro name member
    exact List.mem_append_left _ (List.mem_cons_of_mem _ (Option.mem_toList.mpr member))
  rw [body_eq]
  refine (classRef_builds (writable.nameLengths _ ownName)).bind fun thisClass => ?_
  refine (superIndex_builds fun name member =>
    writable.nameLengths name (aboveName name member)).bind fun above => ?_
  refine (interfaces_builds writable).bind fun interfaces => ?_
  refine (fields_builds writable).bind fun fields => ?_
  refine (methods_builds writable).bind fun methods => ?_
  refine Builds.pure fun final methodsRead fieldsRead interfacesRead aboveRead thisRead small => ?_
  obtain ⟨methodCount, readMethods, keptMethods, methodsRead⟩ := methodsRead small
  obtain ⟨fieldCount, readFields, keptFields, fieldsRead⟩ := fieldsRead small
  obtain ⟨interfaceCount, interfacesRead⟩ := interfacesRead small
  obtain ⟨aboveFits, aboveRead⟩ := aboveRead small
  obtain ⟨thisFits, _, thisRead⟩ := thisRead small
  refine ⟨{
    name := dotted (slashed c.name)
    access := c.access
    superClass := (c.superClass.map slashed).map dotted
    interfaces := c.interfaces
    members := readFields ++ readMethods.filterMap id
    enumConstants := (readFields.filter isEnumConstant).map (·.name) }, ?_, ?_⟩
  · refine ⟨dotted_slashed (writable.names _ ownName), rfl, ?_, rfl,
      ⟨readFields, _, rfl, keptFields, filterMap_kept keptMethods⟩, enumConstants_kept keptFields⟩
    cases above : c.superClass with
    | none => rfl
    | some name => exact congrArg some (dotted_slashed (writable.names _ (aboveName name above)))
  · intro head header
    rw [interfaceCount, fieldCount, methodCount]
    simp only [List.append_assoc]
    refine header.bind ((Reads.u2 writable.access).bind ?_)
    refine (Reads.u2 thisFits).bind ((Reads.u2 aboveFits).bind ?_)
    refine (Reads.u2 writable.interfaceCount).bind (interfacesRead.bind ?_)
    refine Reads.then_lift thisRead (Reads.then_lift aboveRead ?_)
    refine (Reads.u2 writable.fieldCount).bind (fieldsRead.bind ?_)
    refine (Reads.u2 writable.methodCount).bind (methodsRead.bind ?_)
    exact skipAttributes_reads.bind_nil (Reads.pure _)

end ClassSpec

/-- A class that can be written reads back as it was specified: with its name, its flags, the class
above it and its interfaces in order; with its fields and then its methods in order, class
initialisers left out, each with its name, flags, descriptor, types, and the types of its signature
exactly when the signature can be read; and with the constants of an enum class. -/
theorem parse_encode (c : ClassSpec) (writable : c.Writable) :
    ∃ kept, parse c.encode = .ok kept ∧ c.Kept kept := by
  obtain ⟨grows, right⟩ := ClassSpec.body_builds writable []
  obtain ⟨kept, isKept, reads⟩ := right _ List.prefix_rfl writable.constantCount
  have fits := grows.fits (by simp)
  have read := reads _ (readHeader_reads fits writable.constantCount) []
  rw [List.append_nil] at read
  refine ⟨kept, ?_, isKept⟩
  have run : readClass.run c.encode = .ok (kept, []) := read
  rw [parse, run]
  rfl

private def color : ClassSpec :=
  let plain : ClassSpec := {
    name := "demo.Color", access := ⟨0x4031⟩, superClass := some "java.lang.Enum"
    interfaces := ["demo.Named"] }
  { plain with
    fields := [⟨⟨2⟩, "names", "Ljava/util/List;", some "Ljava/util/List<Ljava/lang/String;>;"⟩,
      plain.enumConstant "RED"]
    methods := [⟨⟨8⟩, "<clinit>", "()V", none⟩,
      ⟨⟨2⟩, "<init>", "(Ljava/lang/String;I)V", some "()V"⟩,
      ⟨⟨9⟩, "mixed", "(Ldemo/Color;)Ldemo/Color;", some "(TT"⟩] }

private theorem color_writable : color.Writable where
  names := by decide +kernel
  fields := by decide +kernel
  methods := by decide +kernel
  nameLengths := by decide +kernel
  textLengths := by decide +kernel
  access := by decide
  memberAccess := by decide
  interfaceCount := by decide
  fieldCount := by decide
  methodCount := by decide
  constantCount := by decide +kernel

/-- An enum class with an initialiser, a generic field and a signature that cannot be read. -/
theorem parse_encode_color :
    color.Writable ∧ ∃ kept, parse color.encode = .ok kept ∧ color.Kept kept :=
  ⟨color_writable, parse_encode color color_writable⟩

end Linkage.ClassFile
