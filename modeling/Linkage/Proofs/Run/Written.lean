import Linkage.Proofs.Text.Properties
import Linkage.Run.Artifact

/-!
The text of an artifact. Below a first line that is always the same each record has a line of its
own. A backslash stands in front of whatever would end the line, or would end the key before its
time, and in front of itself, so the record is found again from left to right, and no two artifacts
are written alike.
-/
namespace Linkage.Run

open Text (OneLine)

namespace Artifact

section Escape

/-- A character that is not written as itself. -/
def special (c : Char) : Bool := c == '\\' || c == '\n' || c == '\r' || c == '\t'

/-- What a character stands for behind a backslash. -/
def meant (c : Char) : Char :=
  if c = 'n' then '\n' else if c = 'r' then '\r' else if c = 't' then '\t' else c

/-- The ways in which a character is written: bare, where it is not special and no equals sign of a
key, or as a backslash and a character of the same line that stands for it. -/
inductive WrittenAs (isKey : Bool) (c : Char) : List Char → Prop
  | bare (plain : special c = false) (uncut : isKey = true → c ≠ '=') : WrittenAs isKey c [c]
  | marked (d : Char) (stands : meant d = c) (onLine : d ≠ '\n' ∧ d ≠ '\r') :
    WrittenAs isKey c ['\\', d]

theorem escapeChar_writtenAs (isKey : Bool) (c : Char) :
    WrittenAs isKey c (escapeChar isKey c) := by
  unfold escapeChar
  split_ifs with back feed ret tab separator
  · exact .marked '\\' back.symm (by decide)
  · exact .marked 'n' feed.symm (by decide)
  · exact .marked 'r' ret.symm (by decide)
  · exact .marked 't' tab.symm (by decide)
  · have separates : (c = '=' ∨ c = ':') ∨ c = ' ' := by
      simpa using (Bool.and_eq_true_iff.mp separator).2
    rcases separates with (rfl | rfl) | rfl
    · exact .marked '=' (by decide) (by decide)
    · exact .marked ':' (by decide) (by decide)
    · exact .marked ' ' (by decide) (by decide)
  · refine .bare (by simp [special, back, feed, ret, tab]) ?_
    rintro rfl rfl
    simp at separator

theorem ne_of_plain {c : Char} (plain : special c = false) : c ≠ '\\' ∧ c ≠ '\n' ∧ c ≠ '\r' := by
  simp only [special, Bool.or_eq_false_iff, beq_eq_false_iff_ne] at plain
  exact ⟨plain.1.1.1, plain.1.1.2, plain.1.2⟩

theorem WrittenAs.oneLine {isKey : Bool} {c : Char} {word : List Char}
    (written : WrittenAs isKey c word) : ∀ d ∈ word, d ≠ '\n' ∧ d ≠ '\r' := by
  cases written with
  | bare plain => simpa using (ne_of_plain plain).2
  | marked d _ onLine => simpa using onLine

theorem oneLine_escape (isKey : Bool) (s : String) : OneLine (escape isKey s) := by
  intro d inside
  rw [escape, String.toList_ofList] at inside
  obtain ⟨c, _, inside⟩ := List.mem_flatMap.mp inside
  exact (escapeChar_writtenAs isKey c).oneLine d inside

end Escape

section Read

/-- A key up to the bare equals sign behind it, and what follows that. -/
def readKey : List Char → List Char × List Char
  | [] => ([], [])
  | '\\' :: d :: rest => (meant d :: (readKey rest).1, (readKey rest).2)
  | c :: rest => if c = '=' then ([], rest) else (c :: (readKey rest).1, (readKey rest).2)

def readValue : List Char → List Char
  | [] => []
  | '\\' :: d :: rest => meant d :: readValue rest
  | c :: rest => c :: readValue rest

theorem readKey_bare {c : Char} (unmarked : c ≠ '\\') (uncut : c ≠ '=') (rest : List Char) :
    readKey (c :: rest) = (c :: (readKey rest).1, (readKey rest).2) := by
  rw [readKey, if_neg uncut]
  rintro d more rfl
  exact absurd rfl unmarked

theorem readValue_bare {c : Char} (unmarked : c ≠ '\\') (rest : List Char) :
    readValue (c :: rest) = c :: readValue rest := by
  rw [readValue]
  rintro d more rfl
  exact absurd rfl unmarked

/-- The first bare equals sign is the one behind the key. -/
theorem readKey_escape (cs rest : List Char) :
    readKey (cs.flatMap (escapeChar true) ++ '=' :: rest) = (cs, rest) := by
  induction cs with
  | nil => simp [readKey]
  | cons c cs ih =>
    rw [List.flatMap_cons, List.append_assoc]
    have written := escapeChar_writtenAs true c
    generalize escapeChar true c = word at written
    cases written with
    | bare plain uncut =>
      rw [List.singleton_append, readKey_bare (ne_of_plain plain).1 (uncut rfl), ih]
    | marked d stands =>
      rw [List.cons_append, List.singleton_append, readKey, ih, stands]

theorem readValue_escape (cs : List Char) : readValue (cs.flatMap (escapeChar false)) = cs := by
  induction cs with
  | nil => rfl
  | cons c cs ih =>
    rw [List.flatMap_cons]
    have written := escapeChar_writtenAs false c
    generalize escapeChar false c = word at written
    cases written with
    | bare plain => rw [List.singleton_append, readValue_bare (ne_of_plain plain).1, ih]
    | marked d stands => rw [List.cons_append, List.singleton_append, readValue, ih, stands]

end Read

section Lines

/-- The first line of an artifact's text. -/
def headline : String := "#jv interop run"

/-- The line of a record. -/
def recordText (r : String × String) : String := escape true r.1 ++ "=" ++ escape false r.2

/-- The record that a line tells. -/
def recordOf (line : String) : String × String :=
  let (key, value) := readKey line.toList
  (String.ofList key, String.ofList (readValue value))

theorem recordOf_recordText (r : String × String) : recordOf (recordText r) = r := by
  have chars : (recordText r).toList = r.1.toList.flatMap (escapeChar true) ++
      '=' :: r.2.toList.flatMap (escapeChar false) := by
    simp [recordText, escape]
  simp only [recordOf, chars, readKey_escape, readValue_escape, String.ofList_toList]

theorem oneLine_recordText (r : String × String) : OneLine (recordText r) := by
  intro c inside
  simp only [recordText, String.toList_append, List.mem_append] at inside
  rcases inside with (key | mid) | value
  · exact oneLine_escape true r.1 c key
  · obtain rfl : c = '=' := by simpa using mid
    decide
  · exact oneLine_escape false r.2 c value

theorem oneLine_lines (a : Artifact) :
    ∀ line ∈ headline :: a.records.map recordText, OneLine line := by
  rw [List.forall_mem_cons, List.forall_mem_map]
  exact ⟨by decide, fun r _ => oneLine_recordText r⟩

theorem text_eq_join (a : Artifact) :
    a.text = String.join ((headline :: a.records.map recordText).map (· ++ "\n")) := by
  have top : header = headline ++ "\n" := by decide
  rw [text, top, List.map_cons, String.join_cons, List.map_map]
  rfl

theorem lines_text (a : Artifact) : Text.lines a.text = headline :: a.records.map recordText := by
  rw [text_eq_join, Text.lines_join (oneLine_lines a)]

/-- The records that a text tells, line by line below the first. -/
def recordsOf (text : String) : List (String × String) := (Text.lines text).tail.map recordOf

theorem recordsOf_text (a : Artifact) : recordsOf a.text = a.records := by
  rw [recordsOf, lines_text, List.tail_cons, List.map_map, List.map_congr_left, List.map_id]
  intro r _
  exact recordOf_recordText r

end Lines

/-- The text of an artifact tells its records, in their order, whatever stands in their keys and
values: artifacts that are written alike hold the same. It is the first line and one line for each
record, and nowhere else does a line end. -/
theorem text_unambiguous (a b : Artifact) :
    (a.text = b.text ↔ a.records = b.records) ∧
    a.text = String.join ((headline :: a.records.map recordText).map (· ++ "\n")) ∧
    (∀ line ∈ headline :: a.records.map recordText, OneLine line) ∧
    Text.lines a.text = headline :: a.records.map recordText := by
  refine ⟨⟨fun same => ?_, fun same => ?_⟩, text_eq_join a, oneLine_lines a, lines_text a⟩
  · rw [← recordsOf_text a, same, recordsOf_text b]
  · rw [text, text, same]

end Artifact

end Linkage.Run
