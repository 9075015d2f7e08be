import Linkage.Proofs.ClassFile.Declared
import Linkage.Proofs.Type.Bytewise
import Linkage.Proofs.View.Assembly

/-!
One class by two names. The name that a class gives itself is decoded from the pool, and the names
in descriptors are read byte by byte, so that a class that its own members refer to is met under
another name there unless its name is ASCII.
-/
namespace Linkage

open Text (Bytes)

namespace Ty

/-- The class that a type names, itself or as what its array holds. -/
def target? : Ty → Option String
  | .reference name _ => some name
  | .array element _ => element.target?
  | _ => none

theorem target?_asRead : ∀ {t : Ty} {name : String}, t.target? = some name →
    t.asRead.target? = some (Descriptor.bytewise name)
  | .reference _ _, _, known => congrArg (Option.map Descriptor.bytewise) known
  | .array element _, _, known => target?_asRead (t := element) known

end Ty

/-- The types of a member in the order of its descriptor. -/
def Member.types (m : Member) : List Ty := m.parameters ++ [m.result]

namespace ClassFile

/-- The descriptor of a member of this kind is written for these types. -/
inductive WrittenFor : MemberKind → String → List Ty → Prop where
  | field {t : Ty} (storable : t.Storable) : WrittenFor .field t.descriptor [t]
  | method {kind : MemberKind} {parameters : List Ty} {result : Ty} (callable : kind ≠ .field)
      (storable : ∀ t ∈ parameters, t.Storable) (isResult : result = .void ∨ result.Storable) :
      WrittenFor kind (methodDescriptor parameters result) (parameters ++ [result])

section Members
variable {raw : RawMember} {m : Member} {kind : MemberKind} {text : String} {written : List Ty}

theorem fieldType_written (is : WrittenFor .field text written) :
    ∃ t, written = [t] ∧ fieldType text = .ok t.asRead := by
  cases is with
  | @field t storable =>
    refine ⟨t, rfl, ?_⟩
    rw [fieldType, Descriptor.field_written storable]
    rfl
  | method callable => exact absurd rfl callable

theorem methodType_written (callable : kind ≠ .field) (is : WrittenFor kind text written) :
    ∃ parameters result, written = parameters ++ [result] ∧
      methodType text = .ok (parameters.map Ty.asRead, result.asRead) := by
  cases is with
  | field => exact absurd rfl callable
  | @method _ parameters result _ storable isResult =>
    refine ⟨parameters, result, rfl, ?_⟩
    rw [methodType, Descriptor.method_written storable isResult]
    rfl

/-- What a descriptor is written for is read from it type by type. -/
theorem Described.types_eq (described : Described m)
    (is : WrittenFor m.kind m.descriptor written) : m.types = written.map Ty.asRead := by
  by_cases field : m.kind = .field
  · rw [field] at is
    obtain ⟨t, rfl, known⟩ := fieldType_written is
    rw [Described, field] at described
    obtain ⟨none, read⟩ := described
    rw [known] at read
    rw [Member.types, none, ← Except.ok.inj read]
    rfl
  · obtain ⟨parameters, result, rfl, known⟩ := methodType_written field is
    have read := (described_of_callable field).mp described
    rw [known] at read
    obtain ⟨same, same'⟩ := Prod.mk.inj (Except.ok.inj read)
    rw [Member.types, ← same, ← same', List.map_append, List.map_singleton]

/-- No field is refused for the names in its descriptor. -/
theorem exists_toField (is : WrittenFor .field raw.descriptor written) :
    ∃ m, raw.toField = .ok m := by
  obtain ⟨t, _, known⟩ := fieldType_written is
  exact ⟨_, Outcome.bind_eq_ok_iff.mpr ⟨_, known, rfl⟩⟩

theorem exists_toMethod? (callable : kind ≠ .field)
    (is : WrittenFor kind raw.descriptor written) : ∃ m, raw.toMethod? = .ok m := by
  obtain ⟨parameters, result, _, known⟩ := methodType_written callable is
  unfold RawMember.toMethod?
  split
  · exact ⟨none, rfl⟩
  · exact ⟨_, Outcome.bind_eq_ok_iff.mpr ⟨_, known, rfl⟩⟩

end Members

/-- What is read where a class is referred to by a type: the class that the name in the pool gives,
and that a view finds, exactly when the name is ASCII. -/
structure Recognises (stub : ClassStub) (t read : Ty) : Prop where
  type : read = t.asRead
  name : t.target? = some stub.name →
    (read.target? = some stub.name ↔ Descriptor.IsAscii stub.name)
  found : t.target? = some stub.name → ∀ {mode release program ix o v r},
    ClassView.assemble mode release program ix o = .ok v → v.lookup stub.name = some r →
    ((∃ name, read.target? = some name ∧ v.lookup name = some r) ↔ Descriptor.IsAscii stub.name)

theorem recognises_asRead (stub : ClassStub) (t : Ty) : Recognises stub t t.asRead where
  type := rfl
  name named := by
    rw [Ty.target?_asRead named, Option.some_inj]
    exact Descriptor.bytewise_eq_iff
  found named {mode release program ix o v r} done own := by
    have is := ClassView.assembled_of_ok done
    rw [Ty.target?_asRead named, ← Descriptor.bytewise_eq_iff]
    constructor
    · rintro ⟨name, known, found⟩
      rw [Option.some.inj known, ← is.name_of_lookup found, is.name_of_lookup own]
    · intro same
      exact ⟨_, rfl, same.symm ▸ own⟩

/-- No member is refused for the class names in its descriptor, and a class that can be read has the
name that it gives itself. Every parameter, result and field whose descriptor names the class is
read as the class of that name, which is also the one that a view finds, exactly when the name is
ASCII; otherwise it is read as the class whose name has the bytes of that name for characters. -/
theorem names_agree_iff (bytes : Bytes) :
    (∀ (raw : RawMember) (written : List Ty), WrittenFor .field raw.descriptor written →
      ∃ m, raw.toField = .ok m) ∧
    (∀ (raw : RawMember) (kind : MemberKind) (written : List Ty), kind ≠ .field →
      WrittenFor kind raw.descriptor written → ∃ m, raw.toMethod? = .ok m) ∧
    ∀ stub, parse bytes = .ok stub →
      (∃ pool access index more text,
        readHeader bytes = .ok (pool, bytes2 access ++ (bytes2 index ++ more)) ∧
        pool.className index = .ok text ∧ stub.name = dotted text) ∧
      ∀ m ∈ stub.members, ∀ written, WrittenFor m.kind m.descriptor written →
        List.Forall₂ (Recognises stub) written m.types := by
  refine ⟨fun raw written => exists_toField, fun raw kind written => exists_toMethod?, ?_⟩
  intro stub read
  obtain ⟨pool, body, rest, header, ⟨access, index, more, text, rfl, known, named⟩, members⟩ :=
    parse_declares read
  refine ⟨⟨pool, access, index, more ++ rest, text, ?_, known, named⟩, ?_⟩
  · rw [header, List.append_assoc, List.append_assoc]
  · intro m member written is
    rw [(members m member).types_eq is, List.forall₂_map_right_iff, List.forall₂_same]
    exact fun t _ => recognises_asRead stub t

private def node : ClassSpec :=
  { name := "demo.Node", methods := [⟨⟨1⟩, "links", "(Ldemo/Node;)[Ldemo/Node;", none⟩] }

private def links : Member :=
  ⟨"links", .method, ⟨1⟩, "(Ldemo/Node;)[Ldemo/Node;", [.named "demo.Node"],
    .array (.named "demo.Node") 1, none⟩

private def nodeStub : ClassStub := ⟨"demo.Node", ⟨1⟩, some objectClass, [], [links], []⟩

private theorem parse_node : parse node.encode = .ok nodeStub := by decide +kernel

private theorem node_storable : Ty.Storable (.named "demo.Node") ∧
    Ty.Storable (.array (.named "demo.Node") 1) := by
  have unmarked : Descriptor.Unmarked "demo.Node".toList := by decide +kernel
  exact ⟨.element (.reference [] unmarked),
    .array (.reference [] unmarked) (by decide) (by decide)⟩

private theorem links_written : WrittenFor links.kind links.descriptor
    [.named "demo.Node", .array (.named "demo.Node") 1] := by
  have text : links.descriptor = methodDescriptor [.named "demo.Node"]
      (.array (.named "demo.Node") 1) := by decide +kernel
  rw [text]
  exact .method (by decide) (List.forall_mem_singleton.mpr node_storable.1) (.inr node_storable.2)

private def nodeRecord : Classpath.Record :=
  ⟨"demo.Node", ⟨0, .program, "directory", "classes", "", none, "demo"⟩, .base, false, nodeStub⟩

private def nodeIndex : Classpath.Index where
  reports := []
  records := [nodeRecord]

private def nodeOutcome : Mediation.Outcome :=
  ⟨.runtime, [⟨0, .directory, "classes", .program⟩], [], [], []⟩

/-- A class that takes and gives instances of itself, as a view of its program finds it. -/
theorem names_agree_iff_node :
    (∃ m, RawMember.toField ⟨⟨1⟩, "first", Ty.descriptor (.named "demo.Node"), none⟩ = .ok m) ∧
    (∃ m, RawMember.toMethod? ⟨⟨1⟩, "links", links.descriptor, none⟩ = .ok m) ∧
    parse node.encode = .ok nodeStub ∧ links ∈ nodeStub.members ∧
    List.Forall₂ (Recognises nodeStub) [.named "demo.Node", .array (.named "demo.Node") 1]
      links.types ∧
    ∃ v, ClassView.assemble .shared 17 {} nodeIndex nodeOutcome = .ok v ∧
      v.lookup nodeStub.name = some nodeRecord ∧
      ∃ name, links.result.target? = some name ∧ v.lookup name = some nodeRecord := by
  have inside : links ∈ nodeStub.members := List.mem_singleton.mpr rfl
  obtain ⟨fields, methods, agrees⟩ := names_agree_iff node.encode
  have recognised := (agrees nodeStub parse_node).2 links inside _ links_written
  refine ⟨fields _ _ (.field node_storable.1), methods _ _ _ (by decide) links_written, parse_node,
    inside, recognised, ?_⟩
  rcases ClassView.assemble_cases .shared 17 {} nodeIndex nodeOutcome with
    ⟨_, _, _, _, impossible, _⟩ | ⟨_, v, done, is⟩
  · cases impossible
  · have own : v.lookup nodeStub.name = some nodeRecord := by
      rw [is.lookup]
      decide +kernel
    refine ⟨v, done, own, ?_⟩
    obtain _ | ⟨_, _ | ⟨result, _⟩⟩ := recognised
    exact (result.found rfl done own).mpr (by decide +kernel)

private def cafe : ClassSpec :=
  { name := "demo.Café", methods := [⟨⟨1⟩, "next", "(Ldemo/Café;)Ldemo/Café;", none⟩] }

/-- A class with an accent in its name does not take itself. -/
theorem accent_lost : ∃ stub m, parse cafe.encode = .ok stub ∧ stub.name = "demo.Café" ∧
    m ∈ stub.members ∧ m.descriptor = methodDescriptor [.named stub.name] (.named stub.name) ∧
    m.parameters ≠ [.named stub.name] ∧ m.result ≠ .named stub.name := by
  refine ⟨⟨"demo.Café", ⟨1⟩, some objectClass, [],
    [⟨"next", .method, ⟨1⟩, "(Ldemo/Café;)Ldemo/Café;", [.named "demo.CafÃ©"],
      .named "demo.CafÃ©", none⟩], []⟩, _, ?_, rfl, List.mem_singleton.mpr rfl, ?_⟩
  · decide +kernel
  · decide +kernel

end ClassFile

end Linkage
