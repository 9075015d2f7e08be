import Linkage.Proofs.ClassFile.Pool

/-!
How far a class file is looked at. Bytes are taken from the front and nothing looks ahead, so what
is read depends on the bytes that are taken and on no others. As long as all of them are there no
fault can arise that did not arise before; as soon as one of them is missing, the read that would
take it is the first to fail.

The readers of a class get the pool as an argument. They are compared under two pools, of which the
second holds all that the first does, since a larger pool does not change what a class is read as.
-/
namespace Linkage.ClassFile

open Text (Bytes)

/-- The reader takes these bytes for this value, and cut short anywhere they end too early. -/
structure Needs {α : Type} (r : Reader α) (bytes : Bytes) (a : α) : Prop where
  reads : Reads r bytes a
  cut : ∀ k < bytes.length, r (bytes.take k) = .error .unexpectedEnd

namespace Needs
variable {α β : Type}

theorem pure (a : α) : Needs (pure a) [] a := ⟨.pure a, nofun⟩

theorem bind {r : Reader α} {f : α → Reader β} {bytes more : Bytes} {a : α} {b : β}
    (first : Needs r bytes a) (second : Needs (f a) more b) :
    Needs (r >>= f) (bytes ++ more) b := by
  refine ⟨first.reads.bind second.reads, fun k inside => ?_⟩
  change (r ((bytes ++ more).take k) >>= fun p => f p.1 p.2) = _
  rw [List.length_append] at inside
  by_cases early : k < bytes.length
  · rw [List.take_append_of_le_length (Nat.le_of_lt early), first.cut k early]
    rfl
  · have whole : bytes.take k = bytes := List.take_of_length_le (Nat.le_of_not_lt early)
    rw [List.take_append, whole, first.reads]
    exact second.cut _ (by omega)

end Needs

/-- What the first reader makes of an input the second makes of the bytes that were taken, of which
it needs every one. -/
def Repeats {α : Type} (r s : Reader α) : Prop := Takes r (Needs s)

namespace Repeats
variable {α β : Type} {r s : Reader α}

theorem pure (a : α) : Repeats (pure a) (pure a) := Takes.pure (Needs.pure a)

theorem bind {f g : α → Reader β} (first : Repeats r s) (second : ∀ a, Repeats (f a) (g a)) :
    Repeats (r >>= f) (s >>= g) :=
  Takes.bind first fun _ a needs => (second a).imp fun _ _ needs' => needs.bind needs'

theorem ite {c : Prop} [Decidable c] {r' s' : Reader α} (yes : Repeats r s)
    (no : Repeats r' s') : Repeats (if c then r else r') (if c then s else s') := by
  refine Takes.ite (fun holds => ?_) fun fails => ?_
  · rwa [if_pos holds]
  · rwa [if_neg fails]

/-- What is known before is known after. -/
theorem lift {x y : Except Fault α} (kept : ∀ a, x = .ok a → y = .ok a) :
    Repeats (Reader.lift x) (Reader.lift y) :=
  Takes.lift fun a known => ⟨Reads.lift (kept a known), nofun⟩

theorem fail (fault : Fault) : Repeats (Reader.fail fault : Reader α) s := Takes.fail fault

theorem bytes (count : Nat) : Repeats (Reader.bytes count) (Reader.bytes count) := by
  refine (Takes.bytes count).imp fun taken raw => ?_
  rintro ⟨rfl, rfl⟩
  refine ⟨Reads.bytes taken, fun k inside => if_neg ?_⟩
  rw [List.length_take]
  omega

theorem skip (count : Nat) : Repeats (Reader.skip count) (Reader.skip count) :=
  (bytes count).bind fun _ => pure ()

theorem byte : Repeats Reader.byte Reader.byte := by
  refine Takes.byte.imp fun taken n => ?_
  rintro ⟨small, rfl⟩
  refine ⟨?_, fun k inside => ?_⟩
  · have reads := Reads.byte n.toUInt8
    rwa [Text.toNat_toUInt8 small] at reads
  · obtain rfl : k = 0 := Nat.lt_one_iff.mp inside
    rfl

theorem u2 : Repeats Reader.u2 Reader.u2 := by
  refine Takes.u2.imp fun taken n => ?_
  rintro ⟨small, rfl⟩
  refine ⟨Reads.u2 small, fun k inside => ?_⟩
  match k, inside with
  | 0, _ => rfl
  | 1, _ => rfl

theorem u4 : Repeats Reader.u4 Reader.u4 := by
  refine Takes.u4.imp fun taken n => ?_
  rintro ⟨small, rfl⟩
  refine ⟨Reads.u4 small, fun k inside => ?_⟩
  match k, inside with
  | 0, _ => rfl
  | 1, _ => rfl
  | 2, _ => rfl
  | 3, _ => rfl

theorem times (each : Repeats r s) (count : Nat) :
    Repeats (Reader.times r count) (Reader.times s count) := by
  induction count with
  | zero => exact pure []
  | succ count ih => exact each.bind fun a => ih.bind fun others => pure (a :: others)

end Repeats

section Pool

theorem readConstant_repeats : Repeats readConstant readConstant := by
  refine Repeats.byte.bind fun tag => .ite (Repeats.u2.bind fun length => ?_) ?_
  · refine (Repeats.bytes length).bind fun raw => ?_
    cases Text.decodeUtf8 raw with
    | ok text => exact .pure _
    | error fault => exact .fail _
  refine .ite (Repeats.u2.bind fun _ => .pure _) ?_
  refine .ite (Repeats.u2.bind fun _ => .pure _) ?_
  refine .ite (Repeats.u2.bind fun _ => .pure _) ?_
  cases plainSize? tag with
  | some size => exact (Repeats.bytes size).bind fun _ => .pure _
  | none => exact .fail _

theorem readSlots_repeats (slots : Nat) : Repeats (readSlots slots) (readSlots slots) := by
  induction slots using readSlots.induct with
  | case1 => exact .pure []
  | case2 => exact readConstant_repeats.bind fun c => .pure c.slots
  | case3 slots wide narrow =>
    refine readConstant_repeats.bind fun c => ?_
    by_cases two : c.slots.length = 2
    · simp only [if_pos two]
      exact wide.bind fun rest => .pure (c.slots ++ rest)
    · simp only [if_neg two]
      exact narrow.bind fun rest => .pure (c.slots ++ rest)

theorem readPool_repeats : Repeats Pool.read Pool.read :=
  Repeats.u2.bind fun count => (readSlots_repeats (count - 1)).bind fun slots =>
    Repeats.pure (Pool.mk (.vacant :: slots))

theorem readHeader_repeats : Repeats readHeader readHeader := by
  have onward := Repeats.u2.bind fun _ => Repeats.u2.bind fun _ => readPool_repeats
  exact Repeats.u4.bind fun found => .ite ((Repeats.fail _).bind fun _ => onward) onward

end Pool

/-- The part of a class behind the pool. -/
def readBody (pool : Pool) : Reader ClassStub := do
  let access ← Reader.u2
  let thisClass ← Reader.u2
  let superClass ← Reader.u2
  let interfaceCount ← Reader.u2
  let interfaces ← Reader.times (readInterface pool) interfaceCount
  let name ← Reader.lift (pool.className thisClass)
  let superName ← Reader.lift
    (if superClass = 0 then pure none else (pool.className superClass).map some)
  let fieldCount ← Reader.u2
  let fields ← Reader.times (readField pool) fieldCount
  let methodCount ← Reader.u2
  let methods ← Reader.times (readMethod pool) methodCount
  skipAttributes
  pure {
    name := dotted name
    access := ⟨access⟩
    superClass := superName.map dotted
    interfaces := interfaces
    members := fields ++ methods.filterMap id
    enumConstants := (fields.filter isEnumConstant).map (·.name) }

theorem readClass_eq : readClass = readHeader >>= readBody := rfl

section Body
variable {p q : Pool}

theorem skipAttributes_repeats : Repeats skipAttributes skipAttributes := by
  have one : Repeats skipAttribute skipAttribute :=
    Repeats.u2.bind fun _ => Repeats.u4.bind Repeats.skip
  exact Repeats.u2.bind fun count => (one.times count).bind fun _ => .pure ()

theorem readInterface_repeats (within : p.Within q) :
    Repeats (readInterface p) (readInterface q) :=
  Repeats.u2.bind fun _ => (Repeats.lift fun _ => within.className).bind fun name =>
    .pure (dotted name)

theorem readMemberAttribute_repeats (within : p.Within q) :
    Repeats (readMemberAttribute p) (readMemberAttribute q) := by
  refine Repeats.u2.bind fun name => Repeats.u4.bind fun length => ?_
  refine (Repeats.lift fun _ => within.utf8).bind fun label => .ite ?_ ?_
  · exact Repeats.u2.bind fun _ => (Repeats.lift fun _ => within.utf8).bind fun _ => .pure _
  · exact (Repeats.skip length).bind fun _ => .pure none

theorem readMember_repeats (within : p.Within q) : Repeats (readMember p) (readMember q) := by
  refine Repeats.u2.bind fun access => Repeats.u2.bind fun name => Repeats.u2.bind fun _ => ?_
  refine Repeats.u2.bind fun count => ?_
  refine ((readMemberAttribute_repeats within).times count).bind fun attributes => ?_
  refine (Repeats.lift fun _ => within.utf8).bind fun name => ?_
  exact (Repeats.lift fun _ => within.utf8).bind fun descriptor => .pure _

theorem readField_repeats (within : p.Within q) : Repeats (readField p) (readField q) :=
  (readMember_repeats within).bind fun _ => .lift fun _ => id

theorem readMethod_repeats (within : p.Within q) : Repeats (readMethod p) (readMethod q) :=
  (readMember_repeats within).bind fun _ => .lift fun _ => id

theorem superName_kept (within : p.Within q) {index : Nat} {name : Option String}
    (known : (if index = 0 then pure none else (p.className index).map some) = .ok name) :
    (if index = 0 then pure none else (q.className index).map some) =
      (.ok name : Except Fault (Option String)) := by
  split at known
  · rename_i zero
    rwa [if_pos zero]
  · rename_i nonzero
    obtain ⟨text, found, rfl⟩ := Outcome.map_eq_ok_iff.mp known
    rw [if_neg nonzero, within.className found]
    rfl

/-- A class is read alike with every pool that holds what its own pool does. -/
theorem readBody_repeats (within : p.Within q) : Repeats (readBody p) (readBody q) := by
  refine Repeats.u2.bind fun access => Repeats.u2.bind fun thisClass => ?_
  refine Repeats.u2.bind fun superClass => Repeats.u2.bind fun interfaceCount => ?_
  refine ((readInterface_repeats within).times interfaceCount).bind fun interfaces => ?_
  refine (Repeats.lift fun _ => within.className).bind fun name => ?_
  refine (Repeats.lift fun _ => superName_kept within).bind fun superName => ?_
  refine Repeats.u2.bind fun fieldCount => ?_
  refine ((readField_repeats within).times fieldCount).bind fun fields => ?_
  refine Repeats.u2.bind fun methodCount => ?_
  refine ((readMethod_repeats within).times methodCount).bind fun methods => ?_
  exact skipAttributes_repeats.bind fun _ => .pure _

theorem readClass_repeats : Repeats readClass readClass :=
  readHeader_repeats.bind fun pool => readBody_repeats (.refl pool)

end Body

theorem parse_eq_ok_iff {bytes : Bytes} {stub : ClassStub} :
    parse bytes = .ok stub ↔ ∃ rest, readClass bytes = .ok (stub, rest) := by
  refine Outcome.map_eq_ok_iff.trans ?_
  constructor
  · rintro ⟨⟨_, rest⟩, read, rfl⟩
    exact ⟨rest, read⟩
  · rintro ⟨rest, read⟩
    exact ⟨_, read, rfl⟩

/-- A class file that can be read has a length, that of the bytes which are taken, such that
whatever agrees with it that far is read as the same class, and cut short anywhere before it ends
too early. -/
theorem parse_extent {bytes : Bytes} {stub : ClassStub} (read : parse bytes = .ok stub) :
    ∃ n ≤ bytes.length, readClass bytes = .ok (stub, bytes.drop n) ∧
      (∀ other : Bytes, other.take n = bytes.take n → parse other = .ok stub) ∧
      ∀ k < n, parse (bytes.take k) = .error .unexpectedEnd := by
  obtain ⟨rest, read⟩ := parse_eq_ok_iff.mp read
  obtain ⟨taken, rfl, needs⟩ := readClass_repeats read
  refine ⟨taken.length, by simp, by rwa [List.drop_left], fun other agrees => ?_,
    fun k inside => ?_⟩
  · rw [List.take_left] at agrees
    rw [← List.take_append_drop taken.length other, agrees]
    exact parse_eq_ok_iff.mpr ⟨_, needs.reads _⟩
  · rw [List.take_append_of_le_length (Nat.le_of_lt inside)]
    exact Outcome.map_eq_error_iff.mpr (needs.cut k inside)

private def counter : ClassSpec := { name := "A", methods := [⟨⟨9⟩, "f", "()I", none⟩] }

private def counterStub : ClassStub :=
  ⟨"A", ⟨1⟩, some objectClass, [],
    [⟨"f", .method, ⟨9⟩, "()I", [], .primitive .int, none⟩], []⟩

private theorem parse_counter : parse (counter.encode ++ [0, 1]) = .ok counterStub := by
  decide +kernel

/-- A class with a method, and two bytes behind it. -/
theorem parse_extent_counter :
    parse (counter.encode ++ [0, 1]) = .ok counterStub ∧
      ∃ n ≤ (counter.encode ++ [0, 1]).length,
        readClass (counter.encode ++ [0, 1]) =
          .ok (counterStub, (counter.encode ++ [0, 1]).drop n) ∧
        (∀ other : Bytes, other.take n = (counter.encode ++ [0, 1]).take n →
          parse other = .ok counterStub) ∧
        ∀ k < n, parse ((counter.encode ++ [0, 1]).take k) = .error .unexpectedEnd :=
  ⟨parse_counter, parse_extent parse_counter⟩

end Linkage.ClassFile
