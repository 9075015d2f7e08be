import Mathlib.Data.List.Infix
import Linkage.Proofs.Type.Runs

/-!
Where the readers stand in a text. A reader that succeeds stands behind the place it began at, and
not behind the end. In the bytes of a text the marks of the grammar are characters of their own, so
that the name of a type variable, which stands between two marks, can always be decoded. And the
count of the brackets that are open around type parameters is never lowered from zero.
-/
namespace Linkage.Descriptor

open Text (Bytes charBytes)

/-! The bytes of a text. -/

/-- What is left of a text. -/
def EndOfText (bytes : Bytes) : Prop := ∃ cs : List Char, bytes <:+ cs.flatMap charBytes

theorem EndOfText.of_suffix {bytes more : Bytes} (text : EndOfText more) (suffix : bytes <:+ more) :
    EndOfText bytes :=
  text.imp fun _ => suffix.trans

theorem EndOfText.tail {b : UInt8} {rest : Bytes} (text : EndOfText (b :: rest)) :
    EndOfText rest :=
  text.of_suffix (List.suffix_cons b rest)

/-- Behind an ASCII byte of a text there begins a text. -/
theorem EndOfText.behind {b : UInt8} {rest : Bytes} (text : EndOfText (b :: rest))
    (ascii : b.toNat < 128) : ∃ cs : List Char, rest = cs.flatMap charBytes := by
  obtain ⟨cs, before, whole⟩ := text
  induction cs generalizing before with
  | nil => simp at whole
  | cons c cs ih =>
    rw [List.flatMap_cons, List.append_eq_append_iff] at whole
    rcases whole with ⟨others, own, shared⟩ | ⟨others, own, shared⟩
    · cases others with
      | nil => exact ih [] shared
      | cons d others =>
        obtain ⟨rfl, behind⟩ := List.cons.inj shared
        -- The byte is part of the first character, which is then ASCII.
        have inside : b ∈ charBytes c := by simp [own]
        have short : c.toNat < 128 :=
          Nat.lt_of_not_le fun long => Nat.not_le_of_lt ascii (high_of_mem_charBytes long inside)
        rw [charBytes_ascii short] at own
        have alone : others = [] := by
          have lengths := congrArg List.length own
          simp only [List.length_append, List.length_cons, List.length_nil] at lengths
          exact List.eq_nil_of_length_eq_zero (by omega)
        exact ⟨cs, by rw [behind, alone]; rfl⟩
    · exact ih others shared.symm

/-- A text is cut at the first of its characters whose byte it is cut at. -/
theorem takeWhile_flatMap_charBytes {stop : Char} (ascii : stop.toNat < 128) (cs : List Char) :
    (cs.flatMap charBytes).takeWhile (· != code stop) =
      (cs.takeWhile (· != stop)).flatMap charBytes := by
  induction cs with
  | nil => rfl
  | cons c cs ih =>
    by_cases same : c = stop
    · subst same
      rw [List.flatMap_cons, charBytes_ascii ascii]
      simp
    · have others : ∀ b ∈ charBytes c, (b != code stop) = true := by
        intro b inside
        rw [bne_iff_ne]
        rintro rfl
        by_cases short : c.toNat < 128
        · rw [charBytes_ascii short, List.mem_singleton] at inside
          rw [← byteChar_code short, ← inside, byteChar_code ascii] at same
          exact same rfl
        · have high := high_of_mem_charBytes (Nat.le_of_not_lt short) inside
          rw [code_toNat ascii] at high
          exact Nat.not_le_of_lt ascii high
      rw [List.flatMap_cons, List.takeWhile_append_of_pos others, ih,
        List.takeWhile_cons_of_pos (by simpa using same), List.flatMap_cons]

/-! No name of a type variable is cut within a character. -/

/-- Reading did not stop at a name that cannot be decoded. -/
def Decoded {α : Type} (answer : Except Fault α) : Prop := ∀ f, answer ≠ .error (.encoding f)

section Decoded
variable {α β : Type}

theorem decoded_ok (x : α) : Decoded (.ok x) := fun _ same => nomatch same

theorem decoded_malformed : Decoded (.error .malformed : Except Fault α) :=
  fun _ same => nomatch same

theorem Decoded.map {answer : Except Fault α} (decoded : Decoded answer) (f : α → β) :
    Decoded (answer.map f) := by
  cases answer with
  | error g =>
    intro h same
    exact decoded h (congrArg Except.error (Except.error.inj same))
  | ok x => exact decoded_ok _

theorem Decoded.fault {f : Fault} (decoded : Decoded (.error f : Except Fault α)) :
    Decoded (.error f : Except Fault β) :=
  fun g same => decoded g (congrArg Except.error (Except.error.inj same))

/-- Up to a mark a text is a text. -/
theorem readUntil_decoded {stop : Char} (ascii : stop.toNat < 128) (cs : List Char) :
    Decoded (readUntil (code stop) (cs.flatMap charBytes)) := by
  have name := Text.decodeUtf8_encodeUtf8 (String.ofList (cs.takeWhile (· != stop)))
  rw [Text.encodeUtf8, String.toList_ofList] at name
  rw [readUntil, List.span_eq_takeWhile_dropWhile, takeWhile_flatMap_charBytes ascii]
  split
  · exact decoded_malformed
  · rename_i shape
    obtain ⟨rfl, _⟩ := Prod.mk.inj shape
    rw [name]
    exact decoded_ok _

end Decoded

mutual

theorem TypeRun.decoded : ∀ {bytes : Bytes} {answer : Answer Ty},
    TypeRun bytes answer → EndOfText bytes → Decoded answer
  | _, _, .ended, _ => decoded_malformed
  | _, _, .primitive _, _ => decoded_ok _
  | _, _, .reference _ run, text => run.decoded text
  | _, _, .array _ run, text => run.decoded text
  | _, _, .generic mark, text => by
    obtain ⟨cs, rfl⟩ := text.behind (by rw [mark]; decide)
    exact (readUntil_decoded (by decide) cs).map _
  | _, _, .unknown _ _, _ => decoded_malformed

theorem ReferenceRun.decoded : ∀ {bytes : Bytes} {answer : Answer Ty},
    ReferenceRun bytes answer → EndOfText bytes → Decoded answer
  | _, _, .misplaced _, _ => decoded_malformed
  | _, _, .named _ run, text => run.decoded text.tail

theorem NameRun.decoded : ∀ {name : List Char} {args : List Ty} {bytes : Bytes}
    {answer : Answer Ty}, NameRun name args bytes answer → EndOfText bytes → Decoded answer
  | _, _, _, _, .ended, _ => decoded_malformed
  | _, _, _, _, .unnamed _, _ => decoded_malformed
  | _, _, _, _, .finished _ _, _ => decoded_ok _
  | _, _, _, _, .arguments _ run onward, text =>
    onward.decoded (text.of_suffix (run.advances.cons _).1)
  | _, _, _, _, .argumentsFault _ run, text => (run.decoded text.tail).fault
  | _, _, _, _, .inner _ onward, text => onward.decoded text.tail
  | _, _, _, _, .package _ onward, text => onward.decoded text.tail
  | _, _, _, _, .byte _ onward, text => onward.decoded text.tail

theorem ArgumentsRun.decoded : ∀ {args : List Ty} {bytes : Bytes} {answer : Answer (List Ty)},
    ArgumentsRun args bytes answer → EndOfText bytes → Decoded answer
  | _, _, _, .ended, _ => decoded_malformed
  | _, _, _, .finished _, _ => decoded_ok _
  | _, _, _, .wildcard _ onward, text => onward.decoded text.tail
  | _, _, _, .argument _ run onward, text =>
    onward.decoded (text.of_suffix (run.advances.of_suffix (unsigned_suffix ..)).1)
  | _, _, _, .argumentFault _ run, text =>
    (run.decoded (text.of_suffix (unsigned_suffix ..))).fault

theorem ArrayRun.decoded : ∀ {bytes : Bytes} {answer : Answer Ty},
    ArrayRun bytes answer → EndOfText bytes → Decoded answer
  | _, _, .element run, text => (run.decoded (text.of_suffix (List.dropWhile_suffix _))).map _

end

theorem ParametersRun.decoded {params : List Ty} {bytes : Bytes} {answer : Answer (List Ty)}
    (run : ParametersRun params bytes answer) (text : EndOfText bytes) : Decoded answer := by
  induction run with
  | ended => exact decoded_malformed
  | finished => exact decoded_ok _
  | parameter _ run _ ih => exact ih (text.of_suffix run.advances.1)
  | parameterFault _ run => exact (run.decoded text).fault

theorem ResultRun.decoded {bytes : Bytes} {answer : Answer Ty} (run : ResultRun bytes answer)
    (text : EndOfText bytes) : Decoded answer := by
  cases run with
  | void => exact decoded_ok _
  | type _ run => exact run.decoded text

theorem MethodRun.decoded {bytes : Bytes} {answer : Except Fault (List Ty × Ty × Bytes)}
    (run : MethodRun bytes answer) (text : EndOfText bytes) : Decoded answer := by
  cases run with
  | misplaced => exact decoded_malformed
  | parametersFault _ run => exact (run.decoded text.tail).fault
  | resultFault _ run last => exact (last.decoded (text.of_suffix (run.advances.cons _).1)).fault
  | complete => exact decoded_ok _

/-! The brackets around type parameters. -/

/-- The states of the count of open brackets, each with the bytes that are left: from the first
bracket on, and up to the one that closes it. -/
inductive Nested (bytes : Bytes) : Nat → Bytes → Prop where
  | start (opened : bytes.head? = some (code '<')) : Nested bytes 0 bytes
  | opens {depth : Nat} {b : UInt8} {rest : Bytes} (before : Nested bytes depth (b :: rest))
      (mark : b = code '<') : Nested bytes (depth + 1) rest
  | closes {depth : Nat} {b : UInt8} {rest : Bytes} (before : Nested bytes depth (b :: rest))
      (mark : b = code '>') (others : depth ≠ 1) : Nested bytes (depth - 1) rest
  | passes {depth : Nat} {b : UInt8} {rest : Bytes} (before : Nested bytes depth (b :: rest))
      (unmarked : b ∉ [code '<', code '>']) : Nested bytes depth rest

namespace Nested
variable {bytes rest left : Bytes} {depth : Nat}

/-- Nothing is open only in front of the first bracket. -/
theorem at_start (nested : Nested bytes depth rest) (none : depth = 0) :
    rest.head? = some (code '<') := by
  induction nested with
  | start opened => exact opened
  | opens => exact absurd none (Nat.succ_ne_zero _)
  | closes before mark others ih =>
    have opened := ih (by omega)
    rw [List.head?_cons, mark] at opened
    exact absurd opened (by decide)
  | passes before unmarked ih =>
    have opened := Option.some.inj (ih none)
    simp [opened] at unmarked

theorem pos_of_close (nested : Nested bytes depth (code '>' :: rest)) : 0 < depth := by
  refine Nat.pos_of_ne_zero fun none => ?_
  exact absurd (Option.some.inj (nested.at_start none)) (by decide)

theorem suffix (nested : Nested bytes depth rest) : rest <:+ bytes := by
  induction nested with
  | start => exact List.suffix_refl _
  | opens _ _ ih | closes _ _ _ ih | passes _ _ ih => exact (List.suffix_cons ..).trans ih

/-- From any of the states on, the count goes through what is left as it does from the start. -/
theorem skip_eq (nested : Nested bytes depth rest) :
    skipTypeParameters bytes = skipNested depth rest := by
  induction nested with
  | start opened => rw [skipTypeParameters, if_pos opened]
  | opens before mark ih => rw [ih, skipNested, if_pos mark]
  | @closes depth b rest before mark others ih =>
    subst mark
    have positive := before.pos_of_close
    rw [ih, skipNested, if_neg (by decide), if_pos rfl, if_neg (by omega)]
  | passes before unmarked ih =>
    simp only [List.mem_cons, List.not_mem_nil, or_false, not_or] at unmarked
    rw [ih, skipNested, if_neg unmarked.1, if_neg unmarked.2]

/-- What is left over begins behind a bracket that closes the only open one. -/
theorem close_of_skip (nested : Nested bytes depth rest)
    (skipped : skipNested depth rest = .ok left) : Nested bytes 1 (code '>' :: left) := by
  induction rest generalizing depth with
  | nil => cases skipped
  | cons b rest ih =>
    by_cases opens : b = code '<'
    · rw [skipNested, if_pos opens] at skipped
      exact ih (nested.opens opens) skipped
    by_cases closes : b = code '>'
    · subst closes
      have positive := nested.pos_of_close
      rw [skipNested, if_neg opens, if_pos rfl] at skipped
      by_cases last : depth = 1
      · subst last
        obtain rfl : rest = left := Except.ok.inj skipped
        exact nested
      · rw [if_neg (by omega)] at skipped
        exact ih (nested.closes rfl last) skipped
    · rw [skipNested, if_neg opens, if_neg closes] at skipped
      exact ih (nested.passes (by simp [opens, closes])) skipped

end Nested

section Skipping
variable {bytes left : Bytes}

theorem skipTypeParameters_eq_ok_iff : skipTypeParameters bytes = .ok left ↔
    bytes.head? ≠ some (code '<') ∧ left = bytes ∨ Nested bytes 1 (code '>' :: left) := by
  constructor
  · intro skipped
    by_cases opened : bytes.head? = some (code '<')
    · have start := Nested.start opened
      exact .inr (start.close_of_skip (start.skip_eq.symm.trans skipped))
    · rw [skipTypeParameters, if_neg opened] at skipped
      exact .inl ⟨opened, (Except.ok.inj skipped).symm⟩
  · rintro (⟨unopened, rfl⟩ | nested)
    · rw [skipTypeParameters, if_neg unopened]
    · rw [nested.skip_eq]
      rfl

theorem skipTypeParameters_suffix (skipped : skipTypeParameters bytes = .ok left) :
    left <:+ bytes := by
  rcases skipTypeParameters_eq_ok_iff.mp skipped with ⟨_, rfl⟩ | nested
  · exact List.suffix_refl _
  · exact (List.suffix_cons ..).trans nested.suffix

theorem skipNested_decoded (depth : Nat) (bytes : Bytes) : Decoded (skipNested depth bytes) := by
  induction bytes generalizing depth with
  | nil => exact decoded_malformed
  | cons b rest ih =>
    rw [skipNested]
    split
    · exact ih _
    split
    · split
      · exact decoded_ok _
      · exact ih _
    · exact ih _

theorem skipTypeParameters_decoded (bytes : Bytes) : Decoded (skipTypeParameters bytes) := by
  unfold skipTypeParameters
  split
  · exact skipNested_decoded 0 bytes
  · exact decoded_ok _

end Skipping

section Texts
variable (text : String)

theorem endOfText_encodeUtf8 : EndOfText (Text.encodeUtf8 text) := ⟨text.toList, List.suffix_refl _⟩

theorem field_decoded : Decoded (field text) := by
  have run : TypeRun (Text.encodeUtf8 text) _ := (typeRun_iff _).mpr rfl
  have decoded := run.decoded (endOfText_encodeUtf8 text)
  simp only [field]
  split
  · exact decoded_ok _
  · exact decoded_malformed
  · rename_i f read
    rw [read] at decoded
    exact decoded.fault

theorem readMethod_decoded {bytes : Bytes} (isEnd : EndOfText bytes) : Decoded (readMethod bytes) :=
  ((methodRun_iff _).mpr rfl).decoded isEnd

theorem method_decoded : Decoded (method text) := by
  have decoded := readMethod_decoded (endOfText_encodeUtf8 text)
  simp only [method]
  split
  · exact decoded_ok _
  · exact decoded_malformed
  · rename_i f read
    rw [read] at decoded
    exact decoded.fault

theorem methodSignature_decoded : Decoded (methodSignature text) := by
  simp only [methodSignature]
  split
  · rename_i f skipped
    have decoded := skipTypeParameters_decoded (Text.encodeUtf8 text)
    rw [skipped] at decoded
    exact decoded.fault
  · rename_i left skipped
    have isEnd := (endOfText_encodeUtf8 text).of_suffix (skipTypeParameters_suffix skipped)
    have decoded := readMethod_decoded isEnd
    split
    · exact decoded_ok _
    · rename_i f read
      rw [read] at decoded
      exact decoded.fault

end Texts

/-! Positions in a text. -/

/-- The bytes of a text from a position on. -/
def bytesFrom (text : String) (position : Nat) : Bytes := (Text.encodeUtf8 text).drop position

/-- A reader that began at `start` and succeeded stands behind that place, and not behind the end of
the text. -/
def Forward {α : Type} (text : String) (start : Nat) (answer : Answer α) : Prop :=
  ∀ x rest, answer = .ok (x, rest) →
    ∃ stop, start < stop ∧ stop ≤ (Text.encodeUtf8 text).length ∧ rest = bytesFrom text stop

section Positions
variable (text : String) (start : Nat)

theorem Advances.forward {α : Type} {text : String} {start : Nat} {answer : Answer α}
    (advances : Advances (bytesFrom text start) answer) : Forward text start answer := by
  rintro x rest rfl
  obtain ⟨suffix, less⟩ := advances
  rw [bytesFrom, List.length_drop] at less
  refine ⟨(Text.encodeUtf8 text).length - rest.length, by omega, Nat.sub_le _ _, ?_⟩
  exact List.suffix_iff_eq_drop.mp (suffix.trans (List.drop_suffix start _))

/-- The readers at a position of a text, step by step: what they answer when they succeed, that what
they answer is what their one finite run answers, and how they count brackets and decode names. -/
theorem cursor_advances :
    let bytes := bytesFrom text start
    let fuel := fuelFor bytes
    (Forward text start (readType fuel bytes) ∧
      (∀ answer, ReferenceRun bytes answer → Forward text start answer) ∧
      (∀ answer, ArrayRun bytes answer → Forward text start answer) ∧
      (∀ args, Forward text start (readArguments fuel args bytes)) ∧
      ∀ stop, Forward text start (readUntil stop bytes)) ∧
    ((∀ answer, TypeRun bytes answer ↔ readType fuel bytes = answer) ∧
      (∀ answer, bytes.head? = some (code 'L') →
        (ReferenceRun bytes answer ↔ readType fuel bytes = answer)) ∧
      (∀ answer, bytes.head? = some (code '[') →
        (ArrayRun bytes answer ↔ readType fuel bytes = answer)) ∧
      (∀ name args answer,
        NameRun name args bytes answer ↔ readReference fuel name args bytes = answer) ∧
      (∀ args answer, ArgumentsRun args bytes answer ↔ readArguments fuel args bytes = answer) ∧
      ∀ answer, MethodRun bytes answer ↔ readMethod bytes = answer) ∧
    ((∀ depth rest, Nested bytes depth (code '>' :: rest) → 0 < depth) ∧
      ∀ left, skipTypeParameters bytes = .ok left ↔
        bytes.head? ≠ some (code '<') ∧ left = bytes ∨ Nested bytes 1 (code '>' :: left)) ∧
    Decoded (field text) ∧ Decoded (method text) ∧ Decoded (methodSignature text) := by
  intro bytes fuel
  refine ⟨⟨?_, ?_, ?_, ?_, ?_⟩,
    ⟨typeRun_iff, ?_, ?_, nameRun_iff, argumentsRun_iff, methodRun_iff⟩, ⟨?_, ?_⟩,
    field_decoded text, method_decoded text, methodSignature_decoded text⟩
  · exact ((typeRun_iff _).mpr rfl).advances.forward
  · exact fun _ run => run.advances.forward
  · exact fun _ run => run.advances.forward
  · exact fun args => ((argumentsRun_iff args _).mpr rfl).advances.forward
  · exact fun stop => (readUntil_advances stop _).forward
  · exact fun answer starts => referenceRun_iff starts answer
  · exact fun answer starts => arrayRun_iff starts answer
  · exact fun _ _ nested => nested.pos_of_close
  · exact fun _ => skipTypeParameters_eq_ok_iff

end Positions

end Linkage.Descriptor
