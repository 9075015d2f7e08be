import Linkage.Proofs.ClassFile.Extent

/-!
What a class that is read declares: the name that its pool holds for it, and members whose types are
those of their own descriptors, whatever else the class file holds.
-/
namespace Linkage.ClassFile

open Text (Bytes)

/-- A member has the types of its descriptor. -/
def Described (m : Member) : Prop :=
  match m.kind with
  | .field => m.parameters = [] ∧ fieldType m.descriptor = .ok m.result
  | .method | .constructor => methodType m.descriptor = .ok (m.parameters, m.result)

section Members
variable {raw : RawMember} {m : Member}

theorem described_of_callable (callable : m.kind ≠ .field) :
    Described m ↔ methodType m.descriptor = .ok (m.parameters, m.result) := by
  unfold Described
  split
  · rename_i isField
    exact absurd isField callable
  · rfl
  · rfl

theorem toField_described (kept : raw.toField = .ok m) : Described m := by
  obtain ⟨type, read, made⟩ := Outcome.bind_eq_ok_iff.mp kept
  obtain rfl := Except.ok.inj made
  exact ⟨rfl, read⟩

theorem toMethod?_described (kept : raw.toMethod? = .ok (some m)) : Described m := by
  unfold RawMember.toMethod? at kept
  split at kept
  · cases kept
  · obtain ⟨⟨parameters, result⟩, read, made⟩ := Outcome.bind_eq_ok_iff.mp kept
    obtain rfl := Option.some.inj (Except.ok.inj made)
    refine (described_of_callable ?_).mpr read
    dsimp only
    split <;> decide

end Members

section Reading
variable {pool : Pool}

theorem readField_takes : Takes (readField pool) fun _ m => Described m :=
  Takes.bind (readMember_repeats (.refl pool)) fun _ _ _ => Takes.lift fun _ => toField_described

theorem readMethod_takes :
    Takes (readMethod pool) fun _ read => ∀ m, read = some m → Described m := by
  refine Takes.bind (readMember_repeats (.refl pool)) fun _ raw _ => ?_
  refine Takes.lift fun read kept m is => ?_
  rw [is] at kept
  exact toMethod?_described kept

/-- A class has the name of the class constant that its second number refers to, and members with
the types of their own descriptors. -/
structure Declares (pool : Pool) (bytes : Bytes) (stub : ClassStub) : Prop where
  name : ∃ access index more text, bytes = bytes2 access ++ (bytes2 index ++ more) ∧
    pool.className index = .ok text ∧ stub.name = dotted text
  members : ∀ m ∈ stub.members, Described m

theorem readBody_takes : Takes (readBody pool) (Declares pool) := by
  refine Takes.u2.bind fun _ access flags => Takes.u2.bind fun _ thisClass this => ?_
  refine Takes.u2.bind fun _ superClass _ => Takes.u2.bind fun _ interfaceCount _ => ?_
  refine Takes.bind ((readInterface_repeats (.refl pool)).times interfaceCount) fun _ _ _ => ?_
  refine (Takes.lift (P := fun taken name => taken = [] ∧ pool.className thisClass = .ok name)
    fun name known => ⟨rfl, known⟩).bind fun _ name named => ?_
  refine Takes.bind (Repeats.lift fun _ => superName_kept (.refl pool)) fun _ _ _ => ?_
  refine Takes.u2.bind fun _ fieldCount _ => ?_
  refine (readField_takes.times fieldCount).bind fun _ fields ofFields => ?_
  refine Takes.u2.bind fun _ methodCount _ => ?_
  refine (readMethod_takes.times methodCount).bind fun _ methods ofMethods => ?_
  refine Takes.bind skipAttributes_repeats fun _ _ _ => Takes.pure ⟨?_, ?_⟩
  · exact ⟨access, thisClass, _, name, by rw [flags.2, this.2], named.2, rfl⟩
  · intro m member
    rcases List.mem_append.mp member with member | member
    · exact ofFields m member
    · obtain ⟨read, inside, is⟩ := List.mem_filterMap.mp member
      exact ofMethods read inside m is

theorem parse_declares {bytes : Bytes} {stub : ClassStub} (read : parse bytes = .ok stub) :
    ∃ pool body rest, readHeader bytes = .ok (pool, body ++ rest) ∧ Declares pool body stub := by
  obtain ⟨rest, read⟩ := parse_eq_ok_iff.mp read
  rw [readClass_eq] at read
  obtain ⟨⟨pool, input⟩, header, read⟩ := Outcome.bind_eq_ok_iff.mp read
  obtain ⟨body, rfl, declares⟩ := readBody_takes read
  exact ⟨pool, body, rest, header, declares⟩

end Reading

end Linkage.ClassFile
