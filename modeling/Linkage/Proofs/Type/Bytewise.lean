import Linkage.Proofs.Text.Utf8
import Linkage.Type.Descriptor

/-!
What is read for a descriptor. A class name is read byte by byte, and each byte is taken for a
character of its own, so that the name comes back as it is exactly when it is ASCII. No byte of a
longer character is one of the marks of the grammar, and so everything else about a type comes back
whatever its names are made of: descriptors can be strung together without anything between them,
and none of them is refused.
-/
namespace Linkage

namespace Descriptor

open Text (Bytes charBytes)

/-- The character that a byte of a name is taken for. -/
def byteChar (b : UInt8) : Char := Char.ofNat b.toNat

/-- What is read for a name. -/
def bytewise (name : String) : String := String.ofList ((Text.encodeUtf8 name).map byteChar)

def IsAscii (name : String) : Prop := ∀ c ∈ name.toList, c.toNat < 128

instance (name : String) : Decidable (IsAscii name) := List.decidableBAll _ name.toList

/-- A class name that a descriptor can hold, with points in it. -/
def Unmarked (name : List Char) : Prop := name ≠ [] ∧ ∀ c ∈ name, c ∉ ['/', ';', '<']

instance (name : List Char) : Decidable (Unmarked name) :=
  @instDecidableAnd (name ≠ []) _ _ (List.decidableBAll _ name)

/-- How a character of a name is written. -/
def slash (c : Char) : Char := if c = '.' then '/' else c

section Bytes
variable {c : Char} {b : UInt8}

theorem code_toNat (ascii : c.toNat < 128) : (code c).toNat = c.toNat :=
  Text.toNat_toUInt8 (Nat.lt_trans ascii (by decide))

theorem byteChar_code (ascii : c.toNat < 128) : byteChar (code c) = c := by
  rw [byteChar, code_toNat ascii, Char.ofNat_toNat]

theorem charBytes_ascii (ascii : c.toNat < 128) : charBytes c = [code c] := if_pos ascii

/-- The bytes of a longer character are no ASCII. -/
theorem high_of_mem_charBytes (long : 128 ≤ c.toNat) (member : b ∈ charBytes c) :
    128 ≤ b.toNat := by
  have valid := Text.toNat_valid c
  have high : ∀ {n : Nat}, 128 ≤ n → n < 256 → b = n.toUInt8 → 128 ≤ b.toNat := by
    rintro n low small rfl
    rwa [Text.toNat_toUInt8 small]
  simp only [charBytes, if_neg (Nat.not_lt.mpr long)] at member
  split at member
  · simp only [List.mem_cons, List.not_mem_nil, or_false] at member
    rcases member with same | same <;> exact high (by omega) (by omega) same
  split at member
  · simp only [List.mem_cons, List.not_mem_nil, or_false] at member
    rcases member with same | same | same <;> exact high (by omega) (by omega) same
  · simp only [List.mem_cons, List.not_mem_nil, or_false] at member
    rcases member with same | same | same | same <;> exact high (by omega) (by omega) same

theorem one_lt_length_charBytes (long : 128 ≤ c.toNat) : 1 < (charBytes c).length := by
  simp only [charBytes, if_neg (Nat.not_lt.mpr long)]
  split
  · exact Nat.lt_add_one 1
  split
  · exact Nat.lt_add_left 1 Nat.one_lt_two
  · exact Nat.lt_add_left 2 Nat.one_lt_two

/-- Text that has one byte for every character is ASCII. -/
theorem ascii_of_length {cs : List Char} (short : (cs.flatMap charBytes).length ≤ cs.length) :
    ∀ c ∈ cs, c.toNat < 128 := by
  induction cs with
  | nil => exact fun c member => (List.not_mem_nil member).elim
  | cons c cs ih =>
    have others := Text.length_le_flatMap_charBytes cs
    rw [List.flatMap_cons, List.length_append, List.length_cons] at short
    have first : c.toNat < 128 := by
      refine Nat.lt_of_not_le fun long => ?_
      have := one_lt_length_charBytes long
      omega
    rw [charBytes_ascii first, List.length_singleton] at short
    exact List.forall_mem_cons.mpr ⟨first, ih (by omega)⟩

/-- A name is read as it is exactly when it is ASCII. -/
theorem bytewise_eq_iff {name : String} : bytewise name = name ↔ IsAscii name := by
  constructor
  · intro same
    have lengths := congrArg (fun s => s.toList.length) same
    simp only [bytewise, String.toList_ofList, List.length_map] at lengths
    exact ascii_of_length (Nat.le_of_eq lengths)
  · intro ascii
    have chars : name.toList.map (fun c => (charBytes c).map byteChar) =
        name.toList.map fun c => [c] := by
      refine List.map_congr_left fun c member => ?_
      rw [charBytes_ascii (ascii c member), List.map_singleton, byteChar_code (ascii c member)]
    rw [bytewise, Text.encodeUtf8, List.map_flatMap, List.flatMap_def, chars, ← List.flatMap_def,
      List.flatMap_singleton', String.ofList_toList]

end Bytes

section Reading
variable {fuel : Nat} {before : List Char} {args : List Ty}

theorem readType_primitive (p : Primitive) (fuel : Nat) (rest : Bytes) :
    readType (fuel + 1) (code p.letter :: rest) = .ok (.primitive p, rest) := by
  have found : Primitive.ofTag? (code p.letter).toNat = some p := by cases p <;> decide
  simp only [readType, found]

theorem readType_class (fuel : Nat) (rest : Bytes) :
    readType (fuel + 1) (code 'L' :: rest) = readReference fuel [] [] rest := by
  have none : Primitive.ofTag? (code 'L').toNat = none := by decide
  simp only [readType, none, if_true]

theorem readType_bracket (fuel : Nat) (rest : Bytes) :
    readType (fuel + 1) (code '[' :: rest) =
      (readType fuel (rest.dropWhile (· == code '['))).map fun (element, after) =>
        (.array element (min (1 + (rest.takeWhile (· == code '[')).length) maxDimensions),
          after) := by
  have none : Primitive.ofTag? (code '[').toNat = none := by decide
  have other : code '[' ≠ code 'L' := by decide
  simp only [readType, none, if_neg other, if_true]
  cases readType fuel (rest.dropWhile (· == code '[')) with
  | error f => rfl
  | ok read => rfl

/-- Bytes that mark nothing become characters, one after the other. -/
theorem readReference_bytes {bytes : Bytes}
    (plain : ∀ b ∈ bytes, b ∉ [code ';', code '<', code '.', code '/']) (rest : Bytes) :
    readReference (fuel + bytes.length) before args (bytes ++ rest) =
      readReference fuel ((bytes.map byteChar).reverse ++ before) args rest := by
  induction bytes generalizing before with
  | nil => rfl
  | cons b bytes ih =>
    obtain ⟨noMark, others⟩ := List.forall_mem_cons.mp plain
    simp only [List.mem_cons, List.not_mem_nil, or_false, not_or] at noMark
    obtain ⟨noEnd, noArguments, noPoint, noSlash⟩ := noMark
    rw [List.cons_append, List.length_cons, ← Nat.add_assoc, readReference, if_neg noEnd,
      if_neg noArguments, if_neg noPoint, if_neg noSlash, ih others, List.map_cons,
      List.reverse_cons, List.append_assoc]
    rfl

/-- A character of a name is read as its bytes, and the slash in place of a point as the point. -/
theorem readReference_char {c : Char} (unmarked : c ∉ ['/', ';', '<']) (rest : Bytes) :
    readReference (fuel + (charBytes (slash c)).length) before args
        (charBytes (slash c) ++ rest) =
      readReference fuel (((charBytes c).map byteChar).reverse ++ before) args rest := by
  by_cases point : c = '.'
  · subst point
    rfl
  · rw [slash, if_neg point]
    refine readReference_bytes (fun b member isMark => ?_) rest
    simp only [List.mem_cons, List.not_mem_nil, or_false, not_or] at unmarked isMark
    obtain ⟨noSlash, noEnd, noArguments⟩ := unmarked
    by_cases ascii : c.toNat < 128
    · -- A mark that is the byte of a character is the character.
      rw [charBytes_ascii ascii, List.mem_singleton] at member
      have other : ∀ {d : Char}, d.toNat < 128 → c ≠ d → b ≠ code d := by
        rintro d ascii' differs rfl
        refine differs ?_
        rw [← byteChar_code ascii, ← byteChar_code ascii', member]
      rcases isMark with isMark | isMark | isMark | isMark
      · exact other (by decide) noEnd isMark
      · exact other (by decide) noArguments isMark
      · exact other (by decide) point isMark
      · exact other (by decide) noSlash isMark
    · have high := high_of_mem_charBytes (Nat.le_of_not_lt ascii) member
      rcases isMark with rfl | rfl | rfl | rfl <;> exact absurd high (by decide)

/-- A name is read up to the mark behind it. -/
theorem readReference_name {name : List Char} (unmarked : ∀ c ∈ name, c ∉ ['/', ';', '<'])
    (rest : Bytes) :
    readReference (fuel + ((name.map slash).flatMap charBytes).length) before args
        ((name.map slash).flatMap charBytes ++ rest) =
      readReference fuel (((name.flatMap charBytes).map byteChar).reverse ++ before) args rest := by
  induction name generalizing before with
  | nil => rfl
  | cons c name ih =>
    obtain ⟨first, others⟩ := List.forall_mem_cons.mp unmarked
    rw [List.map_cons, List.flatMap_cons, List.length_append, List.append_assoc, Nat.add_comm
      (charBytes (slash c)).length, ← Nat.add_assoc, readReference_char first, ih others,
      List.flatMap_cons, List.map_append, List.reverse_append, List.append_assoc]

end Reading

end Descriptor

open Descriptor
open Text (Bytes charBytes)

namespace Ty

/-- What is read for what is written for a type: the type without what only signatures tell, its
class names taken byte by byte. -/
def asRead : Ty → Ty
  | .reference name _ => named (bytewise name)
  | .array element dimensions => .array element.asRead dimensions
  | .variable _ => object
  | t => t

/-- Neither an array nor void, and a class name can be written. -/
inductive Element : Ty → Prop where
  | primitive (p : Primitive) : Element (.primitive p)
  | reference {name : String} (args : List Ty) (unmarked : Unmarked name.toList) :
      Element (.reference name args)
  | generic (name : String) : Element (.variable name)

/-- The types of fields and of parameters, whatever characters their names are made of. -/
inductive Storable : Ty → Prop where
  | element {t : Ty} (element : t.Element) : Storable t
  | array {element : Ty} {dimensions : Nat} (is : element.Element) (positive : 1 ≤ dimensions)
      (counted : dimensions ≤ 255) : Storable (.array element dimensions)

/-- The bytes of a descriptor. -/
def descriptorBytes (t : Ty) : Bytes := t.descriptorChars.flatMap charBytes

section Written
variable (t : Ty) (p : Primitive) (name : String) (args : List Ty) (dimensions : Nat)

@[simp]
theorem descriptorChars_reference :
    (reference name args).descriptorChars = 'L' :: name.toList.map slash ++ [';'] := rfl

@[simp]
theorem descriptorChars_array :
    (array t dimensions).descriptorChars = List.replicate dimensions '[' ++ t.descriptorChars := rfl

theorem descriptorBytes_primitive : (primitive p).descriptorBytes = [code p.letter] := by
  cases p <;> rfl

theorem descriptorBytes_reference : (reference name args).descriptorBytes =
    code 'L' :: ((name.toList.map slash).flatMap charBytes ++ [code ';']) := by
  rw [descriptorBytes, descriptorChars_reference, List.cons_append, List.flatMap_cons,
    List.flatMap_append]
  rfl

theorem descriptorBytes_array : (array t dimensions).descriptorBytes =
    List.replicate dimensions (code '[') ++ t.descriptorBytes := by
  have bracket : charBytes '[' = [code '['] := rfl
  rw [descriptorBytes, descriptorChars_array, List.flatMap_append, List.flatMap_replicate, bracket,
    List.flatten_replicate_singleton, ← descriptorBytes]

theorem encodeUtf8_descriptor : Text.encodeUtf8 t.descriptor = t.descriptorBytes := by
  rw [descriptor, Text.encodeUtf8, String.toList_ofList]
  rfl

end Written

/-- A type variable is written like the root class, which has a name. -/
theorem objectClass_unmarked : Unmarked objectClass.toList := by decide +kernel

theorem object_asRead : object.asRead = object := by decide +kernel

/-- What is written for a type is not empty, and what it starts with tells it from what may stand in
its place. -/
theorem Element.starts {t : Ty} (element : t.Element) : ∃ b bytes, t.descriptorBytes = b :: bytes ∧
    b ≠ code '[' ∧ b ≠ code ')' ∧ b ≠ code 'V' := by
  cases element with
  | primitive p =>
    refine ⟨code p.letter, [], descriptorBytes_primitive p, ?_⟩
    cases p <;> decide
  | reference args unmarked => exact ⟨_, _, descriptorBytes_reference _ _, by decide⟩
  | generic name => exact ⟨_, _, descriptorBytes_reference objectClass [], by decide⟩

theorem Storable.starts {t : Ty} (storable : t.Storable) :
    ∃ b bytes, t.descriptorBytes = b :: bytes ∧ b ≠ code ')' ∧ b ≠ code 'V' := by
  cases storable with
  | element element =>
    obtain ⟨b, bytes, starts, _, others⟩ := element.starts
    exact ⟨b, bytes, starts, others⟩
  | @array element dimensions is positive counted =>
    obtain ⟨more, rfl⟩ := Nat.exists_eq_succ_of_ne_zero (Nat.ne_of_gt positive)
    refine ⟨code '[', List.replicate more (code '[') ++ element.descriptorBytes, ?_, by decide⟩
    rw [descriptorBytes_array, List.replicate_succ, List.cons_append]

section Reading
variable {t : Ty} {fuel : Nat}

theorem readType_reference {name : String} (args : List Ty) (unmarked : Unmarked name.toList)
    (rest : Bytes) (enough : (reference name args).descriptorBytes.length ≤ fuel) :
    readType fuel ((reference name args).descriptorBytes ++ rest) =
      .ok (named (bytewise name), rest) := by
  have nonempty : name.toList.flatMap charBytes ≠ [] := by
    have shorter := Text.length_le_flatMap_charBytes name.toList
    have positive := List.length_pos_iff.mpr unmarked.1
    exact List.ne_nil_of_length_pos (Nat.lt_of_lt_of_le positive shorter)
  rw [descriptorBytes_reference, List.length_cons, List.length_append, List.length_singleton]
    at enough
  obtain ⟨more, rfl⟩ := Nat.exists_eq_add_of_le enough
  rw [descriptorBytes_reference, List.cons_append, List.append_assoc]
  have spent : ((name.toList.map slash).flatMap charBytes).length + 1 + 1 + more =
      more + 1 + ((name.toList.map slash).flatMap charBytes).length + 1 := by omega
  rw [spent, readType_class, readReference_name unmarked.2, List.singleton_append, readReference,
    if_pos rfl, List.append_nil, List.reverse_reverse]
  simp [nonempty, named, bytewise, Text.encodeUtf8]

theorem Element.readType_eq (element : t.Element) (rest : Bytes)
    (enough : t.descriptorBytes.length ≤ fuel) :
    readType fuel (t.descriptorBytes ++ rest) = .ok (t.asRead, rest) := by
  cases element with
  | primitive p =>
    rw [descriptorBytes_primitive] at enough ⊢
    obtain ⟨fuel, rfl⟩ := Nat.exists_eq_succ_of_ne_zero (Nat.ne_of_gt enough)
    exact readType_primitive p fuel rest
  | reference args unmarked => exact readType_reference args unmarked rest enough
  | generic name =>
    refine (readType_reference [] objectClass_unmarked rest enough).trans ?_
    exact congrArg (fun t => Except.ok (t, rest)) object_asRead

/-- What is written for a type is read to its end, whatever follows. -/
theorem Storable.readType_eq (storable : t.Storable) (rest : Bytes)
    (enough : t.descriptorBytes.length ≤ fuel) :
    readType fuel (t.descriptorBytes ++ rest) = .ok (t.asRead, rest) := by
  cases storable with
  | element element => exact element.readType_eq rest enough
  | @array element dimensions is positive counted =>
    obtain ⟨more, rfl⟩ := Nat.exists_eq_succ_of_ne_zero (Nat.ne_of_gt positive)
    obtain ⟨b, bytes, starts, noBracket, _⟩ := is.starts
    rw [descriptorBytes_array, List.length_append, List.length_replicate] at enough
    obtain ⟨fuel, rfl⟩ := Nat.exists_eq_succ_of_ne_zero (show fuel ≠ 0 by omega)
    have inner := is.readType_eq rest (show element.descriptorBytes.length ≤ fuel by omega)
    rw [descriptorBytes_array, List.replicate_succ, List.cons_append, List.cons_append,
      readType_bracket, List.append_assoc, starts, List.cons_append]
    rw [List.takeWhile_append_of_pos (by simp), List.dropWhile_append_of_pos (by simp),
      List.takeWhile_cons_of_neg (by simpa using noBracket),
      List.dropWhile_cons_of_neg (by simpa using noBracket),
      List.append_nil, List.length_replicate, ← List.cons_append, ← starts, inner]
    have all : min (1 + more) maxDimensions = more + 1 := by
      unfold maxDimensions
      omega
    simp only [Except.map, all, asRead]

end Reading

end Ty

namespace Descriptor

section Methods
variable {parameters : List Ty} {result : Ty}

theorem readResult_eq (isResult : result = .void ∨ result.Storable) (rest : Bytes) :
    readResult (result.descriptorBytes ++ rest) = .ok (result.asRead, rest) := by
  rcases isResult with rfl | storable
  · rfl
  · obtain ⟨b, bytes, starts, _, noVoid⟩ := storable.starts
    have enough : result.descriptorBytes.length ≤ fuelFor (result.descriptorBytes ++ rest) := by
      simp only [fuelFor, List.length_append]
      omega
    have read := storable.readType_eq rest enough
    rw [starts, List.cons_append] at read ⊢
    rw [readResult, if_neg noVoid]
    exact read

theorem readParameters_eq (storable : ∀ t ∈ parameters, t.Storable) (before : List Ty)
    (rest : Bytes) {fuel : Nat} (enough : parameters.length < fuel) :
    readParameters fuel before.reverse
      (parameters.flatMap Ty.descriptorBytes ++ code ')' :: rest) =
      .ok (before ++ parameters.map Ty.asRead, rest) := by
  induction parameters generalizing before fuel with
  | nil =>
    obtain ⟨fuel, rfl⟩ := Nat.exists_eq_succ_of_ne_zero (Nat.ne_of_gt enough)
    simp [readParameters]
  | cons t parameters ih =>
    rw [List.length_cons] at enough
    obtain ⟨fuel, rfl⟩ := Nat.exists_eq_succ_of_ne_zero (Nat.ne_of_gt (Nat.zero_lt_of_lt enough))
    obtain ⟨own, others⟩ := List.forall_mem_cons.mp storable
    obtain ⟨b, bytes, starts, noEnd, _⟩ := own.starts
    have onward := ih others (before ++ [t.asRead]) (Nat.lt_of_succ_lt_succ enough)
    rw [List.reverse_append, List.reverse_singleton, List.singleton_append, List.append_assoc,
      List.singleton_append] at onward
    have fits : t.descriptorBytes.length ≤ fuelFor (t.descriptorBytes ++
        (parameters.flatMap Ty.descriptorBytes ++ code ')' :: rest)) := by
      simp only [fuelFor, List.length_append]
      omega
    have read := own.readType_eq (parameters.flatMap Ty.descriptorBytes ++ code ')' :: rest) fits
    rw [List.flatMap_cons, List.append_assoc, List.map_cons]
    rw [starts, List.cons_append] at read ⊢
    rw [readParameters, if_neg noEnd, read]
    exact onward

theorem length_le_flatMap (storable : ∀ t ∈ parameters, t.Storable) :
    parameters.length ≤ (parameters.flatMap Ty.descriptorBytes).length := by
  induction parameters with
  | nil => exact Nat.le_refl 0
  | cons t parameters ih =>
    obtain ⟨own, others⟩ := List.forall_mem_cons.mp storable
    obtain ⟨b, bytes, starts, _⟩ := own.starts
    have shorter := ih others
    rw [List.flatMap_cons, starts, List.length_append, List.length_cons, List.length_cons]
    omega

/-- The descriptor of a method is read type by type. -/
theorem method_written (storable : ∀ t ∈ parameters, t.Storable)
    (isResult : result = .void ∨ result.Storable) :
    method (methodDescriptor parameters result) =
      .ok (parameters.map Ty.asRead, result.asRead) := by
  have bytes : Text.encodeUtf8 (methodDescriptor parameters result) =
      code '(' :: (parameters.flatMap Ty.descriptorBytes ++
        code ')' :: result.descriptorBytes) := by
    rw [methodDescriptor, Text.encodeUtf8, String.toList_ofList, methodDescriptorChars,
      List.flatMap_append, List.flatMap_cons, List.flatMap_cons, List.flatMap_assoc]
    rfl
  have some := length_le_flatMap storable
  have enough : parameters.length < (parameters.flatMap Ty.descriptorBytes ++
      code ')' :: result.descriptorBytes).length + 1 := by
    rw [List.length_append]
    omega
  have first := readParameters_eq storable [] result.descriptorBytes enough
  have second := readResult_eq isResult []
  rw [List.append_nil] at second
  rw [List.reverse_nil, List.nil_append] at first
  simp only [method, bytes, readMethod, if_true, first, second]
  rfl

theorem field_written {t : Ty} (storable : t.Storable) : field t.descriptor = .ok t.asRead := by
  have enough : t.descriptorBytes.length ≤ fuelFor t.descriptorBytes := by
    simp only [fuelFor]
    omega
  have read := storable.readType_eq [] enough
  rw [List.append_nil] at read
  simp only [field, Ty.encodeUtf8_descriptor, read]

end Methods

end Descriptor

end Linkage
