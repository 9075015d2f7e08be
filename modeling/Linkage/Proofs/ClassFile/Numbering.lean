import Mathlib.Algebra.GroupWithZero.Nat
import Linkage.Proofs.ClassFile.Pool

/-!
The constants of a class file as its format lists them, and the numbers that they are referred to
by. The first constant has the number one and every other the next free one, where a constant of
eight bytes takes up two. What a pool holds at a number is the constant with that number, in any
sequence of constants, and at all other numbers there is nothing.

Reading is told by one equation for every sequence of constants: the first text that is no UTF-8 is
the fault, and without one the constants are kept in order.
-/
namespace Linkage.ClassFile

open Text (Bytes)

/-- The kinds of constants of which nothing here asks what they hold. -/
inductive Kind where
  | integer
  | float
  | long
  | double
  | string
  | field
  | method
  | interfaceMethod
  | nameAndType
  | methodHandle
  | methodType
  | dynamic
  | invokeDynamic
  deriving Repr, DecidableEq

namespace Kind

def tag : Kind → Nat
  | .integer => 3
  | .float => 4
  | .long => 5
  | .double => 6
  | .string => 8
  | .field => 9
  | .method => 10
  | .interfaceMethod => 11
  | .nameAndType => 12
  | .methodHandle => 15
  | .methodType => 16
  | .dynamic => 17
  | .invokeDynamic => 18

/-- How many bytes follow the tag: a value of four or eight bytes, one index, two indices, or a kind
of reference and an index. -/
def size : Kind → Nat
  | .integer | .float => 4
  | .long | .double => 8
  | .string | .methodType => 2
  | .field | .method | .interfaceMethod | .nameAndType | .dynamic | .invokeDynamic => 4
  | .methodHandle => 3

/-- How many numbers a constant takes up. -/
def width : Kind → Nat
  | .long | .double => 2
  | _ => 1

end Kind

/-- What a pool keeps of a text. -/
def textConstant (raw : Bytes) : Except Fault Constant :=
  match Text.decodeUtf8 raw with
  | .ok text => .ok (.utf8 text)
  | .error fault => .error (.encoding fault)

/-- A constant as it stands in a file. -/
inductive Entry where
  | utf8 (raw : Bytes)
  | classRef (name : Nat)
  | moduleRef (name : Nat)
  | packageRef (name : Nat)
  | other (kind : Kind) (payload : Bytes)
  deriving Repr, DecidableEq

namespace Entry

/-- Lengths and numbers of two bytes, and as many bytes as the kind has. -/
def Fits : Entry → Prop
  | .utf8 raw => raw.length < 65536
  | .classRef name | .moduleRef name | .packageRef name => name < 65536
  | .other kind payload => payload.length = kind.size

/-- If it is a text then it is one in UTF-8. -/
def Legible : Entry → Prop
  | .utf8 raw => ∃ text, raw = Text.encodeUtf8 text
  | _ => True

def encode : Entry → Bytes
  | .utf8 raw => 1 :: bytes2 raw.length ++ raw
  | .classRef name => 7 :: bytes2 name
  | .moduleRef name => 19 :: bytes2 name
  | .packageRef name => 20 :: bytes2 name
  | .other kind payload => kind.tag.toUInt8 :: payload

def width : Entry → Nat
  | .other kind _ => kind.width
  | _ => 1

/-- What a pool keeps of a constant. -/
def constant : Entry → Except Fault Constant
  | .utf8 raw => textConstant raw
  | .classRef name => .ok (.classRef name)
  | .moduleRef name => .ok (.moduleRef name)
  | .packageRef name => .ok (.packageRef name)
  | .other kind payload => .ok (.plain kind.tag payload)

end Entry

/-- How many numbers the constants take up. -/
def slotCount (entries : List Entry) : Nat := (entries.map Entry.width).sum

theorem slotCount_nil : slotCount [] = 0 := rfl

theorem slotCount_cons (e : Entry) (entries : List Entry) :
    slotCount (e :: entries) = e.width + slotCount entries := by
  simp [slotCount]

theorem slotCount_append (front back : List Entry) :
    slotCount (front ++ back) = slotCount front + slotCount back := by
  simp [slotCount]

/-- Where the first constant has the number `start`, this constant has that number. -/
inductive Stands (e : Entry) : Nat → List Entry → Nat → Prop where
  | first (start : Nat) (others : List Entry) : Stands e start (e :: others) start
  | later {start index : Nat} {d : Entry} {others : List Entry}
      (stands : Stands e (start + d.width) others index) : Stands e start (d :: others) index

section Reading
variable {e : Entry} {entries : List Entry} {constants : List Constant}

theorem Entry.constant_utf8 (text : String) :
    (Entry.utf8 (Text.encodeUtf8 text)).constant = .ok (.utf8 text) := by
  rw [Entry.constant, textConstant, Text.decodeUtf8_encodeUtf8]

theorem Entry.Legible.exists_constant (legible : e.Legible) : ∃ c, e.constant = .ok c := by
  cases e with
  | utf8 raw =>
    obtain ⟨text, rfl⟩ := legible
    exact ⟨_, constant_utf8 text⟩
  | _ => exact ⟨_, rfl⟩

theorem exists_text {raw : Bytes} {c : Constant} (kept : textConstant raw = .ok c) :
    ∃ text, c = .utf8 text := by
  unfold textConstant at kept
  split at kept
  · exact ⟨_, (Except.ok.inj kept).symm⟩
  · cases kept

theorem Kind.width_cases (kind : Kind) : kind.width = 1 ∨ kind.width = 2 := by
  cases kind <;> decide

theorem Entry.width_cases (e : Entry) : e.width = 1 ∨ e.width = 2 := by
  cases e with
  | other kind payload => exact kind.width_cases
  | _ => exact Or.inl rfl

/-- A constant has a slot for each of its numbers, and only the first holds anything. -/
theorem Entry.slots_constant {c : Constant} (kept : e.constant = .ok c) :
    c.slots = c :: List.replicate (e.width - 1) .vacant := by
  cases e with
  | utf8 raw =>
    obtain ⟨text, rfl⟩ := exists_text kept
    rfl
  | other kind payload =>
    obtain rfl := Except.ok.inj kept
    cases kind <;> rfl
  | _ =>
    obtain rfl := Except.ok.inj kept
    rfl

theorem Entry.length_slots {c : Constant} (kept : e.constant = .ok c) :
    c.slots.length = e.width := by
  have := e.width_cases
  rw [slots_constant kept, List.length_cons, List.length_replicate]
  omega

theorem Kind.reads {kind : Kind} {payload : Bytes} (sized : payload.length = kind.size) :
    Reads readConstant (kind.tag.toUInt8 :: payload) (.plain kind.tag payload) := by
  have tagged : kind.tag.toUInt8.toNat = kind.tag := by cases kind <;> rfl
  have known : plainSize? kind.tag = some kind.size := by cases kind <;> rfl
  have others : kind.tag ≠ 1 ∧ kind.tag ≠ 7 ∧ kind.tag ≠ 19 ∧ kind.tag ≠ 20 := by
    cases kind <;> decide
  rw [← List.singleton_append]
  refine (Reads.byte kind.tag.toUInt8).bind ?_
  have content := (Reads.bytes payload).map (Constant.plain kind.tag)
  rw [sized] at content
  simpa only [tagged, known, if_neg others.1, if_neg others.2.1, if_neg others.2.2.1,
    if_neg others.2.2.2] using content

/-- A constant is read whole from its own bytes, or the text that it holds is refused. -/
theorem readConstant_encode (fits : e.Fits) (rest : Bytes) :
    readConstant (e.encode ++ rest) = e.constant.map fun c => (c, rest) := by
  cases e with
  | utf8 raw =>
    have front : readConstant (Entry.encode (.utf8 raw) ++ rest) =
        (match Text.decodeUtf8 raw with
          | .ok text => pure (.utf8 text)
          | .error fault => Reader.fail (.encoding fault) : Reader Constant) rest := by
      rw [Entry.encode, List.append_assoc]
      refine ((Reads.byte 1).onward _ _).trans ?_
      exact ((Reads.u2 fits).onward _ _).trans ((Reads.bytes raw).onward _ rest)
    rw [front, Entry.constant, textConstant]
    cases Text.decodeUtf8 raw with
    | ok text => rfl
    | error fault => rfl
  | classRef name =>
    exact (Reads.byte 7).bind ((Reads.u2 fits).map Constant.classRef) rest
  | moduleRef name =>
    exact (Reads.byte 19).bind ((Reads.u2 fits).map Constant.moduleRef) rest
  | packageRef name =>
    exact (Reads.byte 20).bind ((Reads.u2 fits).map Constant.packageRef) rest
  | other kind payload => exact Kind.reads fits rest

theorem Constant.length_slots (c : Constant) : c.slots.length = 1 ∨ c.slots.length = 2 := by
  cases c with
  | plain tag payload =>
    cases wide : isWide tag with
    | true => simp [slots, wide]
    | false => simp [slots, wide]
  | _ => exact Or.inl rfl

/-- Slots are filled constant by constant. -/
theorem readSlots_succ (count : Nat) : readSlots (count + 1) = readConstant >>= fun c =>
    readSlots (count + 1 - c.slots.length) >>= fun others => pure (c.slots ++ others) := by
  cases count with
  | zero =>
    refine congrArg (readConstant >>= ·) (funext fun c => ?_)
    have full : 0 + 1 - c.slots.length = 0 := by
      have := c.length_slots
      omega
    simp [full, readSlots]
  | succ count =>
    refine congrArg (readConstant >>= ·) (funext fun c => ?_)
    rcases c.length_slots with one | two
    · have other : ¬ c.slots.length = 2 := by omega
      rw [if_neg other, one]
      rfl
    · rw [if_pos two, two]
      rfl

/-- The constants are kept in order, if every text among them can be read. -/
theorem readSlots_encode (fits : ∀ e ∈ entries, e.Fits) (rest : Bytes) :
    readSlots (slotCount entries) (entries.flatMap Entry.encode ++ rest) =
      (entries.mapM Entry.constant).map fun constants =>
        (constants.flatMap Constant.slots, rest) := by
  induction entries with
  | nil => rfl
  | cons e entries ih =>
    have others := ih fun d member => fits d (List.mem_cons_of_mem e member)
    have own := readConstant_encode (fits e List.mem_cons_self)
      (entries.flatMap Entry.encode ++ rest)
    have positive : slotCount (e :: entries) = slotCount entries + (e.width - 1) + 1 := by
      have := e.width_cases
      rw [slotCount_cons]
      omega
    rw [positive, readSlots_succ, List.flatMap_cons, List.append_assoc, List.mapM_cons]
    change (readConstant _ >>= fun read => _) = _
    rw [own]
    cases kept : e.constant with
    | error fault => rfl
    | ok c =>
      have left : slotCount entries + (e.width - 1) + 1 - c.slots.length = slotCount entries := by
        have := e.width_cases
        rw [Entry.length_slots kept]
        omega
      change (readSlots _ _ >>= fun read => _) = _
      rw [left, others]
      cases entries.mapM Entry.constant with
      | error fault => rfl
      | ok constants => rfl

end Reading

section Numbers
variable {e d : Entry} {entries : List Entry} {start index : Nat}

theorem Stands.le (stands : Stands e start entries index) : start ≤ index := by
  induction stands with
  | first => exact Nat.le_refl _
  | later _ ih => exact Nat.le_trans (Nat.le_add_right _ _) ih

/-- The numbers of a constant belong to no other. -/
theorem Stands.gap (stands : Stands e start entries index) {next : Nat}
    (stands' : Stands d start entries next) (before : index < next) :
    index + e.width ≤ next := by
  induction stands with
  | first =>
    cases stands' with
    | first => exact absurd before (Nat.lt_irrefl _)
    | later stands' => exact stands'.le
  | later stands ih =>
    cases stands' with
    | first =>
      have := stands.le
      omega
    | later stands' => exact ih stands' before

theorem Stands.unique (stands : Stands e start entries index)
    (stands' : Stands d start entries index) : e = d := by
  induction stands with
  | @first start _ =>
    cases stands' with
    | first => rfl
    | later stands' =>
      have := stands'.le
      have := e.width_cases
      omega
  | @later start _ c _ stands ih =>
    cases stands' with
    | first =>
      have := stands.le
      have := d.width_cases
      omega
    | later stands' => exact ih stands'

/-- The constants that a pool keeps of these. -/
def Keeps (entries : List Entry) (constants : List Constant) : Prop :=
  List.Forall₂ (fun e c => e.constant = .ok c) entries constants

theorem exists_keeps (legible : ∀ e ∈ entries, e.Legible) :
    ∃ constants, Keeps entries constants := by
  induction entries with
  | nil => exact ⟨[], .nil⟩
  | cons e entries ih =>
    obtain ⟨c, own⟩ := (legible e List.mem_cons_self).exists_constant
    obtain ⟨constants, kept⟩ := ih fun d member => legible d (List.mem_cons_of_mem e member)
    exact ⟨c :: constants, .cons own kept⟩

variable {constants : List Constant}

theorem Stands.held (stands : Stands e start entries index) (kept : Keeps entries constants) :
    ∃ c k, e.constant = .ok c ∧ index = start + k ∧
      (constants.flatMap Constant.slots)[k]? = some c := by
  induction stands generalizing constants with
  | first =>
    obtain ⟨c, others, own, _, rfl⟩ := List.forall₂_cons_left_iff.mp kept
    exact ⟨c, 0, own, rfl, by rw [List.flatMap_cons, Entry.slots_constant own]; rfl⟩
  | @later start _ d _ _ ih =>
    obtain ⟨c', others, own, rest, rfl⟩ := List.forall₂_cons_left_iff.mp kept
    obtain ⟨c, k, known, rfl, found⟩ := ih rest
    refine ⟨c, d.width + k, known, Nat.add_assoc .., ?_⟩
    rw [List.flatMap_cons, ← Entry.length_slots own,
      List.getElem?_append_right (Nat.le_add_right ..), Nat.add_sub_cancel_left]
    exact found

/-- A slot is vacant or holds the constant of its number. -/
theorem Keeps.stands (kept : Keeps entries constants) (start : Nat) {k : Nat} {c : Constant}
    (found : (constants.flatMap Constant.slots)[k]? = some c) :
    c = .vacant ∨ ∃ e, Stands e start entries (start + k) ∧ e.constant = .ok c := by
  induction kept generalizing start k with
  | nil => cases found
  | @cons e c' entries others own _ ih =>
    rw [List.flatMap_cons] at found
    by_cases later : c'.slots.length ≤ k
    · rw [List.getElem?_append_right later] at found
      refine (ih (start + e.width) found).imp_right ?_
      rintro ⟨d, stands, known⟩
      refine ⟨d, .later ?_, known⟩
      rw [Entry.length_slots own] at later stands
      have same : start + e.width + (k - e.width) = start + k := by omega
      rwa [same] at stands
    · rw [List.getElem?_append_left (Nat.lt_of_not_le later), Entry.slots_constant own] at found
      cases k with
      | zero =>
        obtain rfl := Option.some.inj found
        exact Or.inr ⟨e, .first start entries, own⟩
      | succ k =>
        rw [List.getElem?_cons_succ] at found
        exact Or.inl (List.eq_of_mem_replicate (List.mem_of_getElem? found))

end Numbers

/-- Nothing is named at this number. -/
structure Pool.Refuses (p : Pool) (index : Nat) : Prop where
  utf8 : p.utf8 index = .error (.invalidConstantIndex index)
  className : p.className index = .error (.invalidConstantIndex index)
  packageName : p.packageName index = .error (.invalidConstantIndex index)
  moduleName : p.moduleName index = .error (.invalidConstantIndex index)

/-- What the pool of these constants tells at their numbers. A package may be named by a class
constant. -/
structure Pool.Tells (p : Pool) (entries : List Entry) : Prop where
  held : ∀ e index, Stands e 1 entries index →
    ∃ c, e.constant = .ok c ∧ p.slots[index]? = some c
  utf8 : ∀ text index, Stands (.utf8 (Text.encodeUtf8 text)) 1 entries index →
    p.utf8 index = .ok text
  className : ∀ name index, Stands (.classRef name) 1 entries index →
    p.className index = p.utf8 name
  packageName : ∀ name index,
    Stands (.packageRef name) 1 entries index ∨ Stands (.classRef name) 1 entries index →
    p.packageName index = p.utf8 name
  moduleName : ∀ name index, Stands (.moduleRef name) 1 entries index →
    p.moduleName index = p.utf8 name
  noUtf8 : ∀ index, (∀ raw, ¬ Stands (.utf8 raw) 1 entries index) →
    p.utf8 index = .error (.invalidConstantIndex index)
  noClassName : ∀ index, (∀ name, ¬ Stands (.classRef name) 1 entries index) →
    p.className index = .error (.invalidConstantIndex index)
  noPackageName : ∀ index, (∀ name, ¬ Stands (.packageRef name) 1 entries index ∧
      ¬ Stands (.classRef name) 1 entries index) →
    p.packageName index = .error (.invalidConstantIndex index)
  noModuleName : ∀ index, (∀ name, ¬ Stands (.moduleRef name) 1 entries index) →
    p.moduleName index = .error (.invalidConstantIndex index)

section Lookup
variable {entries : List Entry} {constants : List Constant} {e : Entry} {index : Nat} {c : Constant}

theorem Stands.poolOf_held (stands : Stands e 1 entries index) (kept : Keeps entries constants) :
    ∃ c, e.constant = .ok c ∧
      (poolOf (constants.flatMap Constant.slots)).slots[index]? = some c := by
  obtain ⟨c, k, known, rfl, found⟩ := stands.held kept
  refine ⟨c, known, ?_⟩
  rwa [poolOf, Nat.add_comm, List.getElem?_cons_succ]

theorem Keeps.poolOf_stands (kept : Keeps entries constants)
    (found : (poolOf (constants.flatMap Constant.slots)).slots[index]? = some c) :
    c = .vacant ∨ ∃ e, Stands e 1 entries index ∧ e.constant = .ok c := by
  cases index with
  | zero => exact Or.inl (Option.some.inj found).symm
  | succ index =>
    rw [poolOf, List.getElem?_cons_succ] at found
    rw [Nat.add_comm index 1]
    exact kept.stands 1 found

/-- What a constant is kept as tells which it was, up to the bytes of a text. -/
theorem Entry.of_constant (known : e.constant = .ok c) : match c with
    | .utf8 _ => ∃ raw, e = .utf8 raw
    | .classRef name => e = .classRef name
    | .moduleRef name => e = .moduleRef name
    | .packageRef name => e = .packageRef name
    | _ => ∃ kind payload, e = .other kind payload := by
  cases e with
  | utf8 raw =>
    obtain ⟨text, rfl⟩ := exists_text known
    exact ⟨raw, rfl⟩
  | other kind payload =>
    obtain rfl := Except.ok.inj known
    exact ⟨kind, payload, rfl⟩
  | _ =>
    obtain rfl := Except.ok.inj known
    rfl

/-- A number at which something is held that is not vacant is the number of a constant. -/
theorem Keeps.exists_stands (kept : Keeps entries constants)
    (found : (poolOf (constants.flatMap Constant.slots)).slots[index]? = some c)
    (some : c ≠ .vacant) : ∃ e, Stands e 1 entries index ∧ e.constant = .ok c :=
  (kept.poolOf_stands found).resolve_left some

theorem Keeps.tells (kept : Keeps entries constants) :
    (poolOf (constants.flatMap Constant.slots)).Tells entries where
  held e index stands := stands.poolOf_held kept
  utf8 text index stands := by
    obtain ⟨c, known, found⟩ := stands.poolOf_held kept
    rw [Entry.constant_utf8] at known
    obtain rfl := Except.ok.inj known
    exact utf8_eq found
  className name index stands := by
    obtain ⟨c, known, found⟩ := stands.poolOf_held kept
    obtain rfl := Except.ok.inj known
    simp only [Pool.className, found]
  packageName name index stands := by
    rcases stands with stands | stands <;>
    · obtain ⟨c, known, found⟩ := stands.poolOf_held kept
      obtain rfl := Except.ok.inj known
      simp only [Pool.packageName, found]
  moduleName name index stands := by
    obtain ⟨c, known, found⟩ := stands.poolOf_held kept
    obtain rfl := Except.ok.inj known
    simp only [Pool.moduleName, found]
  noUtf8 index none := by
    unfold Pool.utf8
    split
    · rename_i found
      obtain ⟨e, stands, known⟩ := kept.exists_stands found (by simp)
      obtain ⟨raw, rfl⟩ := Entry.of_constant known
      exact absurd stands (none raw)
    · rfl
  noClassName index none := by
    unfold Pool.className
    split
    · rename_i found
      obtain ⟨e, stands, known⟩ := kept.exists_stands found (by simp)
      have same : e = .classRef _ := Entry.of_constant known
      exact absurd (same ▸ stands) (none _)
    · rfl
  noPackageName index none := by
    unfold Pool.packageName
    split
    · rename_i found
      obtain ⟨e, stands, known⟩ := kept.exists_stands found (by simp)
      have same : e = .packageRef _ := Entry.of_constant known
      exact absurd (same ▸ stands) (none _).1
    · rename_i found
      obtain ⟨e, stands, known⟩ := kept.exists_stands found (by simp)
      have same : e = .classRef _ := Entry.of_constant known
      exact absurd (same ▸ stands) (none _).2
    · rfl
  noModuleName index none := by
    unfold Pool.moduleName
    split
    · rename_i found
      obtain ⟨e, stands, known⟩ := kept.exists_stands found (by simp)
      have same : e = .moduleRef _ := Entry.of_constant known
      exact absurd (same ▸ stands) (none _)
    · rfl

/-- Where no text, class, module or package stands nothing is named. -/
theorem Pool.Tells.refuses {p : Pool} (tells : p.Tells entries)
    (none : ∀ e, Stands e 1 entries index → ∃ kind payload, e = .other kind payload) :
    p.Refuses index where
  utf8 := tells.noUtf8 index fun raw stands => by simpa using none _ stands
  className := tells.noClassName index fun name stands => by simpa using none _ stands
  packageName := tells.noPackageName index fun name =>
    ⟨fun stands => by simpa using none _ stands, fun stands => by simpa using none _ stands⟩
  moduleName := tells.noModuleName index fun name stands => by simpa using none _ stands

end Lookup

/-- In any sequence of constants that fits, in which all texts are UTF-8, the pool takes exactly the
bytes of its number and of the constants. It holds every constant at its own number, however many
numbers the constants before it take up; a text, a class, a module and a package are told there and
nowhere else; and at every other number nothing is named, in particular at zero, at the numbers of
all other constants, and at the second number of a wide one. -/
theorem pool_numbered {entries : List Entry} (fits : ∀ e ∈ entries, e.Fits)
    (legible : ∀ e ∈ entries, e.Legible) (small : slotCount entries + 1 < 65536) :
    ∃ p : Pool,
      (∀ rest, Pool.read (bytes2 (slotCount entries + 1) ++ entries.flatMap Entry.encode ++ rest) =
        .ok (p, rest)) ∧
      p.Tells entries ∧
      p.Refuses 0 ∧
      (∀ index kind payload, Stands (.other kind payload) 1 entries index →
        p.Refuses index ∧ (kind.width = 2 → p.Refuses (index + 1))) ∧
      ∀ index, (∀ e, ¬ Stands e 1 entries index) → p.Refuses index := by
  obtain ⟨constants, kept⟩ := exists_keeps legible
  have tells := kept.tells
  have empty : ∀ index, (∀ e, ¬ Stands e 1 entries index) →
      (poolOf (constants.flatMap Constant.slots)).Refuses index := by
    intro index none
    exact tells.refuses fun e stands => absurd stands (none e)
  refine ⟨_, fun rest => ?_, tells, empty 0 fun e stands => ?_, ?_, empty⟩
  · have slots := readSlots_encode fits rest
    rw [Outcome.mapM_eq_ok_iff.mpr kept] at slots
    rw [List.append_assoc]
    refine ((Reads.u2 small).onward _ _).trans ?_
    change (readSlots _ _ >>= fun read => _) = _
    rw [Nat.add_sub_cancel, slots]
    rfl
  · exact absurd stands.le (by decide)
  · intro index kind payload stands
    refine ⟨tells.refuses fun e stands' => ⟨kind, payload, stands'.unique stands⟩, fun wide => ?_⟩
    refine empty _ fun e stands' => ?_
    have := stands.gap stands' (Nat.lt_succ_self index)
    rw [Entry.width, wide] at this
    omega

private def wideFirst : List Entry :=
  [.other .long [0, 0, 0, 0, 0, 0, 0, 7], .utf8 [65], .other .double [64, 0, 0, 0, 0, 0, 0, 0],
    .classRef 3, .other .methodHandle [1, 0, 9]]

private theorem wideFirst_fits : ∀ e ∈ wideFirst, e.Fits := by
  simp [wideFirst, Entry.Fits, Kind.size]

private theorem wideFirst_legible : ∀ e ∈ wideFirst, e.Legible := by
  have letter : [65] = Text.encodeUtf8 "A" := by decide +kernel
  simp only [wideFirst, List.forall_mem_cons, List.not_mem_nil, false_imp_iff, implies_true,
    and_true]
  exact ⟨trivial, ⟨"A", letter⟩, trivial, trivial, trivial⟩

/-- A text and a class behind constants that take up two numbers each. -/
theorem pool_numbered_wide :
    (∀ e ∈ wideFirst, e.Fits) ∧ (∀ e ∈ wideFirst, e.Legible) ∧ slotCount wideFirst + 1 < 65536 ∧
      ∃ p, Pool.read (bytes2 8 ++ wideFirst.flatMap Entry.encode ++ [0, 33]) = .ok (p, [0, 33]) ∧
        p.utf8 3 = .ok "A" ∧ p.className 6 = .ok "A" ∧
        p.Refuses 0 ∧ p.Refuses 2 ∧ p.Refuses 5 ∧ p.Refuses 7 := by
  obtain ⟨p, reads, tells, zero, others, _⟩ :=
    pool_numbered wideFirst_fits wideFirst_legible (by decide)
  have letter : p.utf8 3 = .ok "A" := tells.utf8 "A" 3 (.later (.first 3 _))
  have named : p.className 6 = p.utf8 3 :=
    tells.className 3 6 (.later (.later (.later (.first 6 _))))
  refine ⟨wideFirst_fits, wideFirst_legible, by decide, p, reads [0, 33], letter,
    named.trans letter, zero, ?_, ?_, ?_⟩
  · exact (others 1 .long _ (.first 1 _)).2 rfl
  · exact (others 4 .double _ (.later (.later (.first 4 _)))).2 rfl
  · exact (others 7 .methodHandle _ (.later (.later (.later (.later (.first 7 _)))))).1

end Linkage.ClassFile
