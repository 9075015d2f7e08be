import Linkage.ClassFile.Writer
import Linkage.Proofs.Outcome
import Linkage.Proofs.Text.Utf8

/-!
What is written reads back. A reader reads a piece of text when it takes exactly those bytes,
whatever follows them, so that readings can be put in a row like the bytes themselves.

The pool grows while the rest is built, and it only grows at its end: an index that was handed out
once names the same constant in every later pool. What a step of building promises is therefore
said about every pool that extends the one it left behind.
-/
namespace Linkage.ClassFile

open Text (Bytes)

/-- The reader takes these bytes, and no more, for this value. -/
def Reads {α : Type} (r : Reader α) (bytes : Bytes) (a : α) : Prop :=
  ∀ rest, r (bytes ++ rest) = .ok (a, rest)

namespace Reads
variable {α β : Type}

theorem pure (a : α) : Reads (pure a) [] a := fun _ => rfl

/-- What comes next starts behind the bytes that were read. -/
theorem onward {r : Reader α} {bytes : Bytes} {a : α} (reads : Reads r bytes a)
    (f : α → Reader β) (rest : Bytes) : (r >>= f) (bytes ++ rest) = f a rest := by
  change (r (bytes ++ rest) >>= fun p => f p.1 p.2) = _
  rw [reads]
  rfl

theorem bind {r : Reader α} {f : α → Reader β} {bytes more : Bytes} {a : α} {b : β}
    (first : Reads r bytes a) (second : Reads (f a) more b) :
    Reads (r >>= f) (bytes ++ more) b := by
  intro rest
  rw [List.append_assoc, first.onward]
  exact second rest

/-- Nothing more is taken once the bytes are read. -/
theorem bind_nil {r : Reader α} {f : α → Reader β} {bytes : Bytes} {a : α} {b : β}
    (first : Reads r bytes a) (second : Reads (f a) [] b) : Reads (r >>= f) bytes b := by
  have both := first.bind second
  rwa [List.append_nil] at both

theorem map {r : Reader α} {bytes : Bytes} {a : α} (reads : Reads r bytes a) (f : α → β) :
    Reads (r >>= fun x => Pure.pure (f x)) bytes (f a) :=
  reads.bind_nil (pure (f a))

theorem lift {x : Except Fault α} {a : α} (known : x = .ok a) : Reads (Reader.lift x) [] a := by
  subst known
  exact fun _ => rfl

/-- A step that takes nothing. -/
theorem then_lift {x : Except Fault α} {f : α → Reader β} {bytes : Bytes} {a : α} {b : β}
    (known : x = .ok a) (second : Reads (f a) bytes b) :
    Reads (Reader.lift x >>= f) bytes b := by
  have lifted := (lift known).bind second
  rwa [List.nil_append] at lifted

theorem byte (b : UInt8) : Reads Reader.byte [b] b.toNat := fun _ => rfl

theorem bytes (text : Bytes) : Reads (Reader.bytes text.length) text text := by
  intro rest
  simp [Reader.bytes]

theorem u2 {n : Nat} (small : n < 65536) : Reads Reader.u2 (bytes2 n) n := by
  intro rest
  have high : (n / 256).toUInt8.toNat = n / 256 := Text.toNat_toUInt8 (by omega)
  have low : n.toUInt8.toNat = n % 256 := by rw [Nat.toUInt8, UInt8.toNat_ofNat']
  simp only [bytes2, List.cons_append, List.nil_append, Reader.u2, high, low]
  congr 2
  omega

theorem u4 {n : Nat} (small : n < 4294967296) : Reads Reader.u4 (bytes4 n) n := by
  intro rest
  have first : (n / 65536 / 256).toUInt8.toNat = n / 65536 / 256 := Text.toNat_toUInt8 (by omega)
  have second : (n / 65536).toUInt8.toNat = n / 65536 % 256 := by
    rw [Nat.toUInt8, UInt8.toNat_ofNat']
  have third : (n / 256).toUInt8.toNat = n / 256 % 256 := by rw [Nat.toUInt8, UInt8.toNat_ofNat']
  have fourth : n.toUInt8.toNat = n % 256 := by rw [Nat.toUInt8, UInt8.toNat_ofNat']
  simp only [bytes4, bytes2, List.cons_append, List.nil_append, Reader.u4, first, second, third,
    fourth]
  congr 2
  omega

/-- A list is read item by item. -/
theorem times {γ : Type} {r : Reader α} {R : γ → α → Prop} {items : List γ} {texts : List Bytes}
    (each : List.Forall₂ (fun item text => ∃ a, R item a ∧ Reads r text a) items texts) :
    ∃ read, List.Forall₂ R items read ∧
      Reads (Reader.times r items.length) texts.flatten read := by
  induction each with
  | nil => exact ⟨[], .nil, pure []⟩
  | cons first _ ih =>
    obtain ⟨a, related, reads⟩ := first
    obtain ⟨others, relateds, rest⟩ := ih
    refine ⟨a :: others, .cons related relateds, ?_⟩
    rw [List.flatten_cons]
    exact reads.bind (rest.map (a :: ·))

end Reads

/-- What the reader takes is the front of its input, and stands in this relation to what it makes of
it. -/
def Takes {α : Type} (r : Reader α) (P : Bytes → α → Prop) : Prop :=
  ∀ ⦃input a rest⦄, r input = .ok (a, rest) → ∃ taken, input = taken ++ rest ∧ P taken a

namespace Takes
variable {α β : Type} {r s : Reader α} {P Q : Bytes → α → Prop}

theorem pure {a : α} (known : P [] a) : Takes (pure a) P := by
  intro input b rest read
  obtain ⟨rfl, rfl⟩ := Prod.mk.inj (Except.ok.inj read)
  exact ⟨[], rfl, known⟩

theorem imp (takes : Takes r P) (weaker : ∀ bytes a, P bytes a → Q bytes a) : Takes r Q := by
  intro input a rest read
  obtain ⟨taken, split, known⟩ := takes read
  exact ⟨taken, split, weaker taken a known⟩

theorem bind {f : α → Reader β} {R : Bytes → β → Prop} (first : Takes r P)
    (second : ∀ bytes a, P bytes a → Takes (f a) fun more b => R (bytes ++ more) b) :
    Takes (r >>= f) R := by
  intro input b rest read
  obtain ⟨⟨a, middle⟩, read, onward⟩ := Outcome.bind_eq_ok_iff.mp read
  obtain ⟨taken, rfl, known⟩ := first read
  obtain ⟨more, rfl, known'⟩ := second taken a known onward
  exact ⟨taken ++ more, (List.append_assoc ..).symm, known'⟩

theorem ite {c : Prop} [Decidable c] (yes : c → Takes r P) (no : ¬ c → Takes s P) :
    Takes (if c then r else s) P := by
  by_cases holds : c
  · rw [if_pos holds]
    exact yes holds
  · rw [if_neg holds]
    exact no holds

theorem fail (fault : Fault) : Takes (Reader.fail fault) P := nofun

theorem lift {x : Except Fault α} (known : ∀ a, x = .ok a → P [] a) : Takes (Reader.lift x) P := by
  intro input a rest read
  obtain ⟨b, result, same⟩ := Outcome.map_eq_ok_iff.mp read
  obtain ⟨rfl, rfl⟩ := Prod.mk.inj same
  exact ⟨[], rfl, known b result⟩

/-- Each item of a list is what its own reading makes of it. -/
theorem times {R : α → Prop} (each : Takes r fun _ a => R a) (count : Nat) :
    Takes (Reader.times r count) fun _ items => ∀ a ∈ items, R a := by
  induction count with
  | zero => exact pure (List.forall_mem_nil R)
  | succ count ih =>
    refine each.bind fun _ a first => ih.bind fun _ items others => pure ?_
    exact List.forall_mem_cons.mpr ⟨first, others⟩

theorem bytes (count : Nat) :
    Takes (Reader.bytes count) fun taken raw => taken = raw ∧ raw.length = count := by
  intro input raw rest read
  unfold Reader.bytes at read
  split at read
  · rename_i enough
    obtain ⟨rfl, rfl⟩ := Prod.mk.inj (Except.ok.inj read)
    exact ⟨_, (List.take_append_drop count input).symm, rfl, List.length_take_of_le enough⟩
  · cases read

theorem byte : Takes Reader.byte fun taken n => n < 256 ∧ taken = [n.toUInt8] := by
  intro input n rest read
  cases input with
  | nil => cases read
  | cons b input =>
    obtain ⟨rfl, rfl⟩ := Prod.mk.inj (Except.ok.inj read)
    refine ⟨[b], rfl, b.toNat_lt, ?_⟩
    rw [Nat.toUInt8, UInt8.ofNat_toNat]

theorem toUInt8_of_mul (k : Nat) (b : UInt8) : (256 * k + b.toNat).toUInt8 = b := by
  apply UInt8.toNat_inj.mp
  have := b.toNat_lt
  rw [Nat.toUInt8, UInt8.toNat_ofNat']
  omega

theorem u2 : Takes Reader.u2 fun taken n => n < 65536 ∧ taken = bytes2 n := by
  intro input n rest read
  match input, read with
  | a :: b :: more, read =>
    obtain ⟨rfl, rfl⟩ := Prod.mk.inj (Except.ok.inj read)
    have first := a.toNat_lt
    have second := b.toNat_lt
    have high : (256 * a.toNat + b.toNat) / 256 = a.toNat := by omega
    refine ⟨[a, b], rfl, by omega, ?_⟩
    rw [bytes2, high, toUInt8_of_mul, Nat.toUInt8, UInt8.ofNat_toNat]

theorem u4 : Takes Reader.u4 fun taken n => n < 4294967296 ∧ taken = bytes4 n := by
  intro input n rest read
  match input, read with
  | a :: b :: c :: d :: more, read =>
    obtain ⟨rfl, rfl⟩ := Prod.mk.inj (Except.ok.inj read)
    have first := a.toNat_lt
    have second := b.toNat_lt
    have third := c.toNat_lt
    have fourth := d.toNat_lt
    generalize whole : 256 * (256 * (256 * a.toNat + b.toNat) + c.toNat) + d.toNat = n
    have upper : n / 256 = 256 * (256 * a.toNat + b.toNat) + c.toNat := by omega
    have high : n / 65536 = 256 * a.toNat + b.toNat := by omega
    have highest : (256 * a.toNat + b.toNat) / 256 = a.toNat := by omega
    refine ⟨[a, b, c, d], rfl, by omega, ?_⟩
    rw [bytes4, bytes2, bytes2, upper, high, highest, ← whole, toUInt8_of_mul, toUInt8_of_mul,
      toUInt8_of_mul, Nat.toUInt8, UInt8.ofNat_toNat]
    rfl

end Takes

/-- Constants that can be written, in a pool of the given size. -/
def Constant.Fits (count : Nat) : Constant → Prop
  | .utf8 text => (Text.encodeUtf8 text).length < 65536
  | .classRef name | .moduleRef name | .packageRef name => name ≤ count
  | .plain .. | .vacant => False

namespace Constant
variable {c : Constant} {count : Nat}

theorem Fits.mono {more : Nat} (fits : c.Fits count) (le : count ≤ more) : c.Fits more := by
  cases c with
  | utf8 => exact fits
  | classRef | moduleRef | packageRef => exact Nat.le_trans fits le
  | plain | vacant => exact fits.elim

theorem Fits.slots (fits : c.Fits count) : c.slots = [c] := by
  cases c with
  | plain => exact fits.elim
  | _ => rfl

theorem Fits.reads (fits : c.Fits count) (small : count < 65536) :
    Reads readConstant c.encode c := by
  cases c with
  | utf8 text =>
    refine (Reads.byte 1).bind ((Reads.u2 fits).bind ((Reads.bytes _).bind_nil ?_))
    rw [Text.decodeUtf8_encodeUtf8]
    exact Reads.pure _
  | classRef name =>
    exact (Reads.byte 7).bind ((Reads.u2 (Nat.lt_of_le_of_lt fits small)).map classRef)
  | moduleRef name =>
    exact (Reads.byte 19).bind ((Reads.u2 (Nat.lt_of_le_of_lt fits small)).map moduleRef)
  | packageRef name =>
    exact (Reads.byte 20).bind ((Reads.u2 (Nat.lt_of_le_of_lt fits small)).map packageRef)
  | plain | vacant => exact fits.elim

end Constant

theorem readSlots_reads {constants : List Constant} {count : Nat}
    (fits : ∀ c ∈ constants, c.Fits count) (small : count < 65536) :
    Reads (readSlots constants.length) (constants.flatMap Constant.encode) constants := by
  induction constants with
  | nil => exact Reads.pure []
  | cons c others ih =>
    have own := fits c List.mem_cons_self
    have slots := own.slots
    have first := own.reads small
    have rest := ih fun d member => fits d (List.mem_cons_of_mem c member)
    rw [List.flatMap_cons]
    -- The last slot is read by a round of its own.
    cases others with
    | nil =>
      refine first.bind ?_
      rw [slots]
      exact Reads.pure [c]
    | cons d others =>
      refine first.bind ?_
      rw [slots]
      exact rest.map ([c] ++ ·)

/-- The pool that is read for these constants. -/
def poolOf (constants : List Constant) : Pool := ⟨.vacant :: constants⟩

theorem readHeader_reads {constants : List Constant}
    (fits : ∀ c ∈ constants, c.Fits constants.length) (small : constants.length + 1 < 65536) :
    Reads readHeader (header constants) (poolOf constants) := by
  have slots := readSlots_reads fits (Nat.lt_of_succ_lt small)
  have pool : Reads Pool.read
      (bytes2 (constants.length + 1) ++ constants.flatMap Constant.encode) (poolOf constants) :=
    (Reads.u2 small).bind (slots.map poolOf)
  simp only [header, List.append_assoc]
  exact (Reads.u4 (by decide)).bind
    ((Reads.u2 (by decide)).bind ((Reads.u2 (by decide)).bind pool))

/-- A pool that was extended at its end, in which all constants can be written if they could be
before. -/
structure Grows (before after : List Constant) : Prop where
  kept : before <+: after
  fits : (∀ c ∈ before, c.Fits before.length) → ∀ c ∈ after, c.Fits after.length

theorem Grows.refl (constants : List Constant) : Grows constants constants :=
  ⟨List.prefix_rfl, id⟩

theorem Grows.trans {a b c : List Constant} (first : Grows a b) (second : Grows b c) :
    Grows a c :=
  ⟨first.kept.trans second.kept, second.fits ∘ first.fits⟩

theorem Grows.append {constants : List Constant} {c : Constant}
    (fits : c.Fits (constants.length + 1)) : Grows constants (constants ++ [c]) := by
  refine ⟨List.prefix_append _ _, fun before d member => ?_⟩
  rw [List.length_append, List.length_singleton]
  rcases List.mem_append.mp member with member | member
  · exact (before d member).mono (Nat.le_succ _)
  · rwa [List.mem_singleton.mp member]

/-- Whatever pool a step starts from, the pool grows, and what the step gives is right in every pool
that extends the one it leaves. -/
def Builds {α : Type} (b : Build α) (P : List Constant → α → Prop) : Prop :=
  ∀ constants, Grows constants (b.run constants).2 ∧
    ∀ final, (b.run constants).2 <+: final → P final (b.run constants).1

namespace Builds
variable {α β : Type} {b : Build α} {P Q : List Constant → α → Prop}

theorem pure {a : α} (known : ∀ final, P final a) : Builds (pure a) P :=
  fun constants => ⟨.refl constants, fun final _ => known final⟩

theorem imp (builds : Builds b P) (weaker : ∀ final a, P final a → Q final a) : Builds b Q :=
  fun constants => ⟨(builds constants).1,
    fun final later => weaker final _ ((builds constants).2 final later)⟩

theorem bind {f : α → Build β} {R : List Constant → β → Prop} (first : Builds b P)
    (second : ∀ a, Builds (f a) fun final x => P final a → R final x) :
    Builds (b >>= f) R := by
  intro constants
  obtain ⟨grows, right⟩ := first constants
  obtain ⟨grows', right'⟩ := second (b.run constants).1 (b.run constants).2
  refine ⟨grows.trans grows', fun final later => ?_⟩
  exact right' final later (right final (grows'.kept.trans later))

/-- A list is built item by item. -/
theorem mapM {γ : Type} {f : γ → Build α} {R : γ → List Constant → α → Prop} (items : List γ)
    (each : ∀ item ∈ items, Builds (f item) (R item)) :
    Builds (items.mapM f) fun final built =>
      List.Forall₂ (fun item a => R item final a) items built := by
  induction items with
  | nil => exact pure fun _ => .nil
  | cons item items ih =>
    rw [List.mapM_cons]
    refine bind (each item List.mem_cons_self) fun a => ?_
    have others := ih fun other member => each other (List.mem_cons_of_mem item member)
    refine others.bind fun built => ?_
    exact pure fun final others first => .cons first others

end Builds

/-- Another pool goes on where a pool ends. -/
def Pool.Within (p q : Pool) : Prop := p.slots <+: q.slots

namespace Pool.Within
variable {p q : Pool} {index : Nat} {c : Constant} {text : String}

theorem refl (p : Pool) : p.Within p := List.prefix_rfl

theorem held (within : p.Within q) (found : p.slots[index]? = some c) :
    q.slots[index]? = some c := by
  obtain ⟨inside, rfl⟩ := List.getElem?_eq_some_iff.mp found
  exact List.prefix_iff_getElem?.mp within index inside

theorem utf8 (within : p.Within q) (known : p.utf8 index = .ok text) : q.utf8 index = .ok text := by
  unfold Pool.utf8 at known
  split at known
  · rename_i found
    obtain rfl := Except.ok.inj known
    simp only [Pool.utf8, within.held found]
  · cases known

theorem className (within : p.Within q) (known : p.className index = .ok text) :
    q.className index = .ok text := by
  unfold Pool.className at known
  split at known
  · rename_i found
    simp only [Pool.className, within.held found]
    exact within.utf8 known
  · cases known

end Pool.Within

/-- What a pool holds at an index it holds there however it is extended. -/
theorem poolOf_getElem? {constants final : List Constant} {index : Nat} {c : Constant}
    (later : constants <+: final) (held : (poolOf constants).slots[index]? = some c) :
    (poolOf final).slots[index]? = some c := by
  have longer : (poolOf constants).Within (poolOf final) := List.prefix_cons_inj _ |>.mpr later
  exact longer.held held

theorem utf8_run (text : String) (constants : List Constant) :
    (Build.utf8 text).run constants =
      match constants.findIdx? (· == .utf8 text) with
      | some i => (i + 1, constants)
      | none => (constants.length + 1, constants ++ [.utf8 text]) := by
  change ((match constants.findIdx? (· == .utf8 text) with
    | some i => pure (i + 1)
    | none => Build.append (.utf8 text) : Build Nat)).run constants = _
  cases constants.findIdx? (· == .utf8 text) with
  | some i => rfl
  | none => rfl

/-- A text is handed out at an index where every later pool holds it. -/
theorem utf8_builds {text : String} (fits : (Text.encodeUtf8 text).length < 65536) :
    Builds (Build.utf8 text) fun final index =>
      (poolOf final).slots[index]? = some (.utf8 text) := by
  intro constants
  rw [utf8_run]
  cases found : constants.findIdx? (· == .utf8 text) with
  | some i =>
    refine ⟨.refl constants, fun final later => poolOf_getElem? later ?_⟩
    obtain ⟨inside, same, _⟩ := List.findIdx?_eq_some_iff_getElem.mp found
    rw [beq_iff_eq] at same
    simp [poolOf, inside, same]
  | none =>
    refine ⟨.append fits, fun final later => poolOf_getElem? later ?_⟩
    simp [poolOf]

/-- A reference to a text is a constant of its own, behind the text. -/
theorem reference_builds {text : String} (fits : (Text.encodeUtf8 text).length < 65536)
    (make : Nat → Constant)
    (made : ∀ {index count : Nat}, index ≤ count → (make index).Fits count) :
    Builds (Build.utf8 text >>= fun index => Build.append (make index)) fun final index =>
      ∃ name, (poolOf final).slots[index]? = some (make name) ∧
        (poolOf final).slots[name]? = some (.utf8 text) := by
  intro constants
  obtain ⟨grows, held⟩ := utf8_builds fits constants
  have known := held _ List.prefix_rfl
  generalize run : (Build.utf8 text).run constants = r at grows held known
  obtain ⟨name, middle⟩ := r
  have run' : (Build.utf8 text >>= fun index => Build.append (make index)).run constants =
      (middle.length + 1, middle ++ [make name]) := by
    rw [StateT.run_bind, run]
    rfl
  have inside : name ≤ middle.length := by
    have := (List.getElem?_eq_some_iff.mp known).1
    simpa [poolOf, Nat.lt_succ_iff] using this
  rw [run']
  have further := grows.trans (.append (made (Nat.le_succ_of_le inside)))
  refine ⟨further, fun final later => ⟨name, ?_, ?_⟩⟩
  · exact poolOf_getElem? later (by simp [poolOf])
  · exact held final ((List.prefix_append _ _).trans later)

/-- What the pool that is read at last holds at an index is written as an index of two bytes. -/
theorem index_lt {final : List Constant} {index : Nat} {c : Constant}
    (held : (poolOf final).slots[index]? = some c) (small : final.length + 1 < 65536) :
    index < 65536 := by
  have inside := (List.getElem?_eq_some_iff.mp held).1
  simp only [poolOf, List.length_cons] at inside
  omega

theorem utf8_eq {final : List Constant} {index : Nat} {text : String}
    (held : (poolOf final).slots[index]? = some (.utf8 text)) :
    (poolOf final).utf8 index = .ok text := by
  simp only [Pool.utf8, held]

theorem className_eq {final : List Constant} {index name : Nat} {text : String}
    (held : (poolOf final).slots[index]? = some (.classRef name))
    (named : (poolOf final).slots[name]? = some (.utf8 text)) :
    (poolOf final).className index = .ok text := by
  simp only [Pool.className, held, utf8_eq named]

end Linkage.ClassFile
