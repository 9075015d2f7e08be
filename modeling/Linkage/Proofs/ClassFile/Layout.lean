import Linkage.Proofs.ClassFile.Declared
import Linkage.Proofs.ClassFile.Numbering
import Linkage.Proofs.Text.ModifiedUtf8

/-!
A class file with its constants laid out, and what a text does that is added behind the last of
them. Nothing refers to the new constant, and a class is read alike with a larger pool, so the class
stays what it is, provided that the text can be read at all. All texts of a pool are decoded, wanted
or not, as UTF-8, and a text that holds a zero or a surrogate is written otherwise.
-/
namespace Linkage.ClassFile

open Text (Bytes)

/-- What stands in front of a class: the two numbers of its version, the number that is given for
its constants, and the constants. -/
structure Head where
  minor : Nat
  major : Nat
  count : Nat
  entries : List Entry

namespace Head

def bytes (h : Head) : Bytes :=
  bytes4 magic ++ (bytes2 h.minor ++ (bytes2 h.major ++
    (bytes2 h.count ++ h.entries.flatMap Entry.encode)))

/-- Numbers of two bytes and constants that fit. -/
structure Sized (h : Head) : Prop where
  minor : h.minor < 65536
  major : h.major < 65536
  count : h.count < 65536
  entries : ∀ e ∈ h.entries, e.Fits

/-- The number that is given is one more than the constants take up. -/
def Counted (h : Head) : Prop := h.count = slotCount h.entries + 1

/-- The last constant is a wide one for whose second number there is no room. -/
def Overhangs (h : Head) : Prop :=
  ∃ front kind payload, h.entries = front ++ [.other kind payload] ∧ kind.width = 2 ∧
    h.count = slotCount h.entries

/-- Another text behind the last constant. -/
def addText (h : Head) (raw : Bytes) : Head :=
  { h with count := h.count + 1, entries := h.entries ++ [.utf8 raw] }

end Head

section Taking

theorem exists_kind {tag size : Nat} (known : plainSize? tag = some size) :
    ∃ kind : Kind, kind.tag = tag ∧ kind.size = size := by
  have four : ∀ tag ∈ [3, 4, 9, 10, 11, 12, 17, 18],
      ∃ kind : Kind, kind.tag = tag ∧ kind.size = 4 := by
    simp only [List.forall_mem_cons, List.not_mem_nil, false_imp_iff, implies_true, and_true]
    exact ⟨⟨.integer, rfl, rfl⟩, ⟨.float, rfl, rfl⟩, ⟨.field, rfl, rfl⟩, ⟨.method, rfl, rfl⟩,
      ⟨.interfaceMethod, rfl, rfl⟩, ⟨.nameAndType, rfl, rfl⟩, ⟨.dynamic, rfl, rfl⟩,
      ⟨.invokeDynamic, rfl, rfl⟩⟩
  have eight : ∀ tag ∈ [5, 6], ∃ kind : Kind, kind.tag = tag ∧ kind.size = 8 := by
    simp only [List.forall_mem_cons, List.not_mem_nil, false_imp_iff, implies_true, and_true]
    exact ⟨⟨.long, rfl, rfl⟩, ⟨.double, rfl, rfl⟩⟩
  have two : ∀ tag ∈ [8, 16], ∃ kind : Kind, kind.tag = tag ∧ kind.size = 2 := by
    simp only [List.forall_mem_cons, List.not_mem_nil, false_imp_iff, implies_true, and_true]
    exact ⟨⟨.string, rfl, rfl⟩, ⟨.methodType, rfl, rfl⟩⟩
  unfold plainSize? at known
  split at known
  · obtain rfl := Option.some.inj known
    exact four tag ‹_›
  split at known
  · obtain rfl := Option.some.inj known
    exact eight tag ‹_›
  split at known
  · obtain rfl := Option.some.inj known
    exact two tag ‹_›
  split at known
  · obtain rfl := Option.some.inj known
    exact ⟨.methodHandle, Eq.symm ‹_›, rfl⟩
  · cases known

/-- What is read as a constant is a constant in its written form. -/
theorem readConstant_takes : Takes readConstant fun bytes c =>
    ∃ e : Entry, e.Fits ∧ e.constant = .ok c ∧ bytes = e.encode := by
  refine Takes.byte.bind ?_
  rintro _ tag ⟨small, rfl⟩
  refine .ite ?_ fun _ => .ite ?_ fun _ => .ite ?_ fun _ => .ite ?_ fun _ => ?_
  · rintro rfl
    refine Takes.u2.bind ?_
    rintro _ length ⟨short, rfl⟩
    refine (Takes.bytes length).bind ?_
    rintro raw _ ⟨rfl, rfl⟩
    cases decoded : Text.decodeUtf8 raw with
    | error fault => exact .fail _
    | ok text =>
      refine .pure ⟨.utf8 raw, short, ?_, by simp [Entry.encode]⟩
      simp only [Entry.constant, textConstant, decoded]
  · rintro rfl
    refine Takes.u2.bind ?_
    rintro _ name ⟨small, rfl⟩
    exact .pure ⟨.classRef name, small, rfl, by simp [Entry.encode]⟩
  · rintro rfl
    refine Takes.u2.bind ?_
    rintro _ name ⟨small, rfl⟩
    exact .pure ⟨.moduleRef name, small, rfl, by simp [Entry.encode]⟩
  · rintro rfl
    refine Takes.u2.bind ?_
    rintro _ name ⟨small, rfl⟩
    exact .pure ⟨.packageRef name, small, rfl, by simp [Entry.encode]⟩
  · cases known : plainSize? tag with
    | none => exact .fail _
    | some size =>
      obtain ⟨kind, rfl, rfl⟩ := exists_kind known
      refine (Takes.bytes kind.size).bind ?_
      rintro payload _ ⟨rfl, sized⟩
      exact .pure ⟨.other kind payload, sized, rfl, by simp [Entry.encode]⟩

theorem Entry.exists_kind_of_width {e : Entry} (wide : e.width = 2) :
    ∃ kind payload, e = .other kind payload ∧ kind.width = 2 := by
  cases e with
  | other kind payload => exact ⟨kind, payload, rfl, wide⟩
  | _ => cases wide

theorem eq_nil_of_slotCount {entries : List Entry} (none : slotCount entries = 0) :
    entries = [] := by
  cases entries with
  | nil => rfl
  | cons e entries =>
    have := e.width_cases
    rw [slotCount_cons] at none
    omega

/-- As many numbers are taken up as are wanted, but that the last constant may be a wide one with
room for its first number only. -/
def Fills (count : Nat) (entries : List Entry) : Prop :=
  slotCount entries = count ∨ ∃ front kind payload, entries = front ++ [.other kind payload] ∧
    kind.width = 2 ∧ slotCount front + 1 = count

theorem Fills.cons {e : Entry} {entries : List Entry} {count : Nat}
    (fills : Fills (count + 1 - e.width) entries) : Fills (count + 1) (e :: entries) := by
  have widths := e.width_cases
  rcases fills with full | ⟨front, kind, payload, rfl, wide, room⟩
  · by_cases room : e.width ≤ count + 1
    · refine Or.inl ?_
      rw [slotCount_cons]
      omega
    · have none : slotCount entries = 0 := by omega
      obtain rfl := eq_nil_of_slotCount none
      obtain ⟨kind, payload, rfl, wide⟩ := Entry.exists_kind_of_width (show e.width = 2 by omega)
      refine Or.inr ⟨[], kind, payload, rfl, wide, ?_⟩
      rw [slotCount_nil]
      omega
  · refine Or.inr ⟨e :: front, kind, payload, rfl, wide, ?_⟩
    rw [slotCount_cons]
    omega

theorem readSlots_takes (count : Nat) : Takes (readSlots count) fun bytes slots =>
    ∃ (entries : List Entry) (constants : List Constant), (∀ e ∈ entries, e.Fits) ∧
      Keeps entries constants ∧ Fills count entries ∧ bytes = entries.flatMap Entry.encode ∧
      slots = constants.flatMap Constant.slots := by
  -- A constant uses up one number or two, and the last may use up one more than there is.
  induction count using Nat.strongRecOn with
  | _ count ih =>
  cases count with
  | zero => exact .pure ⟨[], [], by simp, .nil, Or.inl rfl, rfl, rfl⟩
  | succ count =>
    rw [readSlots_succ]
    refine readConstant_takes.bind ?_
    rintro _ c ⟨e, fits, kept, rfl⟩
    have widths := e.width_cases
    rw [Entry.length_slots kept]
    refine (ih (count + 1 - e.width) (by omega)).bind ?_
    rintro _ _ ⟨entries, constants, others, keeps, fills, rfl, rfl⟩
    refine .pure ⟨e :: entries, c :: constants, ?_, .cons kept keeps, fills.cons, ?_, rfl⟩
    · exact List.forall_mem_cons.mpr ⟨fits, others⟩
    · rw [List.append_nil, List.flatMap_cons]

theorem readHeader_takes : Takes readHeader fun bytes pool =>
    ∃ (h : Head) (constants : List Constant), h.Sized ∧ Keeps h.entries constants ∧
      Fills (h.count - 1) h.entries ∧ pool = poolOf (constants.flatMap Constant.slots) ∧
      bytes = h.bytes := by
  refine Takes.u4.bind ?_
  rintro _ found ⟨_, rfl⟩
  refine .ite (fun _ => (Takes.fail (P := fun _ _ => False) _).bind nofun) fun known => ?_
  obtain rfl : found = magic := by simpa using known
  refine Takes.u2.bind ?_
  rintro _ minor ⟨minorFits, rfl⟩
  refine Takes.u2.bind ?_
  rintro _ major ⟨majorFits, rfl⟩
  refine Takes.u2.bind ?_
  rintro _ count ⟨countFits, rfl⟩
  refine (readSlots_takes (count - 1)).bind ?_
  rintro _ _ ⟨entries, constants, fits, keeps, fills, rfl, rfl⟩
  refine .pure ⟨⟨minor, major, count, entries⟩, constants, ⟨minorFits, majorFits, countFits, fits⟩,
    keeps, fills, rfl, ?_⟩
  rw [List.append_nil]
  rfl

/-- Every class file that can be read is laid out so. -/
theorem exists_head {bytes : Bytes} {stub : ClassStub} (read : parse bytes = .ok stub) :
    ∃ (h : Head) (body : Bytes), bytes = h.bytes ++ body ∧ h.Sized ∧ (h.Counted ∨ h.Overhangs) := by
  obtain ⟨rest, read⟩ := parse_eq_ok_iff.mp read
  obtain ⟨⟨pool, body⟩, header, onward⟩ := Outcome.bind_eq_ok_iff.mp read
  obtain ⟨_, rfl, h, constants, sized, keeps, fills, rfl, rfl⟩ := readHeader_takes header
  refine ⟨h, body, rfl, sized, ?_⟩
  -- Without constants there is no name for the class.
  have some : h.count ≠ 0 := by
    intro zero
    obtain ⟨_, _, declares⟩ := readBody_takes onward
    obtain ⟨_, index, _, name, _, known, _⟩ := declares.name
    rw [zero] at fills
    have none : h.entries = [] := by
      rcases fills with full | ⟨_, _, _, _, _, room⟩
      · exact eq_nil_of_slotCount full
      · cases room
    rw [none] at keeps
    cases keeps
    cases index <;> cases known
  rcases fills with full | ⟨front, kind, payload, last, wide, room⟩
  · refine Or.inl ?_
    rw [Head.Counted]
    omega
  · refine Or.inr ⟨front, kind, payload, last, wide, ?_⟩
    rw [last, slotCount_append, slotCount_cons, slotCount_nil, Entry.width]
    omega

end Taking

namespace Head
variable {h : Head}

theorem Counted.addText (counted : h.Counted) (raw : Bytes) : (h.addText raw).Counted := by
  rw [Counted] at counted ⊢
  rw [Head.addText, counted, slotCount_append]
  rfl

theorem Sized.addText (sized : h.Sized) (room : h.count + 1 < 65536) {raw : Bytes}
    (short : raw.length < 65536) : (h.addText raw).Sized where
  minor := sized.minor
  major := sized.major
  count := room
  entries e member := by
    rcases List.mem_append.mp member with member | member
    · exact sized.entries e member
    · rw [List.mem_singleton.mp member]
      exact short

/-- The header is read whole, or the first text that is no UTF-8 is refused. -/
theorem Sized.readHeader_bytes (sized : h.Sized) (counted : h.Counted) (body : Bytes) :
    readHeader (h.bytes ++ body) = (h.entries.mapM Entry.constant).map fun constants =>
      (poolOf (constants.flatMap Constant.slots), body) := by
  have slots := readSlots_encode sized.entries body
  have pool : Pool.read (bytes2 h.count ++ (h.entries.flatMap Entry.encode ++ body)) =
      (h.entries.mapM Entry.constant).map fun constants =>
        (poolOf (constants.flatMap Constant.slots), body) := by
    refine ((Reads.u2 sized.count).onward _ _).trans ?_
    change (readSlots _ _ >>= fun read => _) = _
    rw [counted, Nat.add_sub_cancel, slots]
    cases h.entries.mapM Entry.constant with
    | error fault => rfl
    | ok constants => rfl
  simp only [Head.bytes, List.append_assoc]
  refine ((Reads.u4 (n := magic) (by decide)).onward _ _).trans ?_
  refine Eq.trans ?_ pool
  refine ((Reads.u2 sized.minor).onward _ _).trans ?_
  exact (Reads.u2 sized.major).onward _ _

theorem Sized.parse_eq_ok_iff (sized : h.Sized) (counted : h.Counted) {body : Bytes}
    {stub : ClassStub} : parse (h.bytes ++ body) = .ok stub ↔
      ∃ constants rest, h.entries.mapM Entry.constant = .ok constants ∧
        readBody (poolOf (constants.flatMap Constant.slots)) body = .ok (stub, rest) := by
  have header := sized.readHeader_bytes counted body
  rw [ClassFile.parse_eq_ok_iff, readClass_eq]
  change (∃ rest, (readHeader (h.bytes ++ body) >>= fun read => readBody read.1 read.2) = _) ↔ _
  rw [header]
  cases h.entries.mapM Entry.constant with
  | error fault => simp [Except.map, bind, Except.bind]
  | ok constants => simp [Except.map, bind, Except.bind]

/-- The class stays what it is, or the text is refused. -/
theorem Sized.parse_addText (sized : h.Sized) (counted : h.Counted) {body : Bytes}
    {stub : ClassStub} (read : parse (h.bytes ++ body) = .ok stub) (room : h.count + 1 < 65536)
    {raw : Bytes} (short : raw.length < 65536) :
    parse ((h.addText raw).bytes ++ body) = (textConstant raw).map fun _ => stub := by
  obtain ⟨constants, rest, kept, read⟩ := (sized.parse_eq_ok_iff counted).mp read
  have sized' := sized.addText room short
  have counted' := counted.addText raw
  have all : (h.addText raw).entries.mapM Entry.constant =
      (textConstant raw).map fun c => constants ++ [c] := by
    rw [Head.addText, List.mapM_append, kept, List.mapM_cons, List.mapM_nil]
    change (Except.ok constants >>= fun front =>
      (textConstant raw >>= fun c => Except.ok [c]) >>= fun back => Except.ok (front ++ back)) = _
    cases textConstant raw with
    | error fault => rfl
    | ok c => rfl
  cases known : textConstant raw with
  | error fault =>
    rw [known] at all
    have header := sized'.readHeader_bytes counted' body
    rw [all] at header
    change ((readHeader _ >>= fun read => _) : Except _ _).map _ = _
    rw [header]
    rfl
  | ok c =>
    rw [known] at all
    have within : (poolOf (constants.flatMap Constant.slots)).Within
        (poolOf ((constants ++ [c]).flatMap Constant.slots)) := by
      rw [List.flatMap_append]
      exact List.prefix_cons_inj _ |>.mpr (List.prefix_append _ _)
    obtain ⟨taken, split, needs⟩ := readBody_repeats within read
    refine (sized'.parse_eq_ok_iff counted').mpr ⟨_, rest, all, ?_⟩
    have onward := needs.reads rest
    rwa [← split] at onward

end Head

/-- Every class file that can be read is laid out as a head and a class, where the number that is
given for the constants is one more than they take up, unless the last is a wide one that overhangs.
If it is, then with another text behind its constants, in the encoding of class files, it is read as
the same class exactly when the text holds no zero and no surrogate; and otherwise it is refused at
the first of them, whatever the class is. -/
theorem text_added {bytes : Bytes} {stub : ClassStub} (read : parse bytes = .ok stub) :
    (∃ (h : Head) (body : Bytes), bytes = h.bytes ++ body ∧ h.Sized ∧ (h.Counted ∨ h.Overhangs)) ∧
    ∀ (h : Head) (body : Bytes) (units : List UInt16), bytes = h.bytes ++ body →
      h.Sized → h.Counted → h.count + 1 < 65536 → (Text.modifiedUtf8 units).length < 65536 →
      (parse ((h.addText (Text.modifiedUtf8 units)).bytes ++ body) = .ok stub ↔
        ∀ u ∈ units, Text.IsPlainUnit u) ∧
      ∀ front u back, units = front ++ u :: back → (∀ v ∈ front, Text.IsPlainUnit v) →
        ¬ Text.IsPlainUnit u →
        parse ((h.addText (Text.modifiedUtf8 units)).bytes ++ body) =
          .error (.encoding (.invalid 1 (Text.modifiedUtf8 front).length)) := by
  refine ⟨exists_head read, ?_⟩
  rintro h body units rfl sized counted room short
  have added := sized.parse_addText counted read room short
  have refused : ∀ front u back, units = front ++ u :: back → (∀ v ∈ front, Text.IsPlainUnit v) →
      ¬ Text.IsPlainUnit u →
      parse ((h.addText (Text.modifiedUtf8 units)).bytes ++ body) =
        .error (.encoding (.invalid 1 (Text.modifiedUtf8 front).length)) := by
    rintro front u back rfl plain special
    rw [added, textConstant, Text.decodeUtf8_special plain special]
    rfl
  refine ⟨⟨fun same => ?_, fun plain => ?_⟩, refused⟩
  · by_contra special
    obtain ⟨front, u, back, split, plain, special⟩ := Text.exists_special special
    rw [refused front u back split plain special] at same
    cases same
  · rw [added, textConstant, Text.decodeUtf8_plain plain]
    rfl

private def bare : Head := ⟨0, 61, 3, [.utf8 [65], .classRef 1]⟩

private def bareBody : Bytes := [0, 1, 0, 2, 0, 0, 0, 0, 0, 0, 0, 0, 0, 0]

private def bareStub : ClassStub := ⟨"A", ⟨1⟩, none, [], [], []⟩

private theorem parse_bare : parse (bare.bytes ++ bareBody) = .ok bareStub := by decide +kernel

private theorem bare_sized : bare.Sized := by
  refine ⟨by decide, by decide, by decide, ?_⟩
  simp [bare, Entry.Fits]

private def smile : List UInt16 := [0x61, 0xD83D, 0xDE0A]

/-- A class to which a text with a supplementary character is added. -/
theorem text_added_smile :
    parse (bare.bytes ++ bareBody) = .ok bareStub ∧
      (∃ (h : Head) (body : Bytes), bare.bytes ++ bareBody = h.bytes ++ body ∧ h.Sized ∧
        (h.Counted ∨ h.Overhangs)) ∧
      bare.Sized ∧ bare.Counted ∧ bare.count + 1 < 65536 ∧
      (Text.modifiedUtf8 smile).length < 65536 ∧
      (parse ((bare.addText (Text.modifiedUtf8 smile)).bytes ++ bareBody) = .ok bareStub ↔
        ∀ u ∈ smile, Text.IsPlainUnit u) ∧
      parse ((bare.addText (Text.modifiedUtf8 smile)).bytes ++ bareBody) =
        .error (.encoding (.invalid 1 1)) := by
  have short : (Text.modifiedUtf8 smile).length < 65536 := by decide +kernel
  obtain ⟨laidOut, added⟩ := text_added parse_bare
  have smiling := added bare bareBody smile rfl bare_sized rfl (by decide) short
  refine ⟨parse_bare, laidOut, bare_sized, rfl, by decide, short, smiling.1, ?_⟩
  refine smiling.2 [0x61] 0xD83D [0xDE0A] rfl ?_ ?_
  · simp [Text.IsPlainUnit]
  · simp [Text.IsPlainUnit]

/-- A text of a zero, which nothing refers to, makes a class unreadable. -/
theorem zero_refused :
    parse (bare.bytes ++ bareBody) = .ok bareStub ∧
      parse ((bare.addText (Text.modifiedUtf8 [0])).bytes ++ bareBody) ≠ .ok bareStub := by
  decide +kernel

end Linkage.ClassFile
