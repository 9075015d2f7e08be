import Mathlib.Data.List.Nodup
import Linkage.Proofs.Text.Trimming
import Linkage.Text.Properties

/-!
Reading properties text that was written line by line. A line is read on its own: the key is what
stands before the separator, and of the value the blanks around it are lost. Where no key stands
twice, the properties are the lines in their order.
-/
namespace Linkage.Text

section Lines

/-- A line by itself: it holds no character that ends one. -/
def OneLine (s : String) : Prop := ∀ c ∈ s.toList, c ≠ '\n' ∧ c ≠ '\r'

instance (s : String) : Decidable (OneLine s) := List.decidableBAll _ s.toList

theorem linesOf_append {cs : List Char} (one : ∀ c ∈ cs, c ≠ '\n' ∧ c ≠ '\r') (rest : List Char) :
    linesOf (cs ++ '\n' :: rest) = cs :: linesOf rest := by
  induction cs with
  | nil => rw [List.nil_append, linesOf]
  | cons c cs ih =>
    obtain ⟨⟨feed, back⟩, others⟩ := List.forall_mem_cons.mp one
    rw [List.cons_append, linesOf, ih others]
    · exact feed
    · rintro rest rfl
      exact absurd rfl back

theorem lines_append {line : String} (one : OneLine line) (rest : String) :
    lines (line ++ "\n" ++ rest) = line :: lines rest := by
  have text : (line ++ "\n" ++ rest).toList = line.toList ++ '\n' :: rest.toList := by simp
  rw [lines, text, linesOf_append one]
  simp [lines]

/-- Lines that were written one after another are read as they are. -/
theorem lines_join {ls : List String} (one : ∀ line ∈ ls, OneLine line) :
    lines (String.join (ls.map (· ++ "\n"))) = ls := by
  induction ls with
  | nil => rfl
  | cons line rest ih =>
    obtain ⟨first, others⟩ := List.forall_mem_cons.mp one
    rw [List.map_cons, String.join_cons, lines_append first, ih others]

end Lines

/-- A text that a line can have as its key: it is not empty, stands clear, holds no separator and
does not make the line a comment. -/
structure IsKey (s : String) : Prop where
  written : s ≠ ""
  clear : Clear s
  uncut : ∀ c ∈ s.toList, (c == '=' || c == ':') = false
  counts : ∀ c ∈ s.toList.head?, c ≠ '#' ∧ c ≠ '!'

section Line
variable {key : String}

/-- Before the separator is looked for, a line only loses the blanks at its end. -/
theorem trim_line (isKey : IsKey key) (value : String) :
    ∃ rest, trim (key ++ "=" ++ value) = key ++ "=" ++ rest ∧ trim rest = trim value := by
  obtain ⟨before, after, ahead, behind, around⟩ := exists_around value
  have front (rest : String) : ClearAhead (key ++ "=" ++ rest) := by
    rw [String.append_assoc, clearAhead_append_iff isKey.written]
    exact isKey.clear.1
  by_cases empty : trim value = ""
  · refine ⟨"", ?_, by rw [empty]; rfl⟩
    have blanks : ∀ c ∈ value.toList, isBlank c = true := by
      intro c inside
      rw [around, empty, String.toList_empty, List.append_nil] at inside
      exact (List.mem_append.mp inside).elim (ahead c) (behind c)
    have clear : Clear (key ++ "=" ++ "") := by
      refine ⟨front "", ?_⟩
      rw [String.append_empty, clearBehind_append_iff (by decide)]
      decide
    exact trim_of_around (by simp) blanks clear (by simp : _ = [] ++ _ ++ value.toList)
  · have back : ClearBehind (key ++ "=" ++ (String.ofList before ++ trim value)) := by
      rw [← String.append_assoc, clearBehind_append_iff empty]
      exact (clear_trim value).2
    refine ⟨String.ofList before ++ trim value, ?_, ?_⟩
    · refine trim_of_around (by simp) behind ⟨front _, back⟩ (?_ : _ = [] ++ _ ++ after)
      simp [around]
    · exact trim_of_around ahead (by simp) (clear_trim value) (by simp : _ = before ++ _ ++ [])

theorem propertyOf?_line (isKey : IsKey key) (value : String) :
    propertyOf? (key ++ "=" ++ value) = some (key, trim value) := by
  obtain ⟨rest, trimmed, same⟩ := trim_line isKey value
  obtain ⟨c, cs, chars⟩ :=
    List.exists_cons_of_ne_nil (mt String.toList_eq_nil_iff.mp isKey.written)
  obtain ⟨hash, mark⟩ := isKey.counts c (by simp [chars])
  have filled : (key ++ "=" ++ rest).isEmpty = false := by
    simp [isKey.written]
  have noComment : startsWith "#" (key ++ "=" ++ rest) = false ∧
      startsWith "!" (key ++ "=" ++ rest) = false := by
    simp [startsWith, chars, List.isPrefixOf, hash.symm, mark.symm]
  have cut : splitFirstWhere? (fun c => c == '=' || c == ':') (key ++ "=" ++ rest) =
      some (key, rest) := by
    have separator : "=" = String.singleton '=' := by decide
    rw [separator]
    exact splitFirstWhere?_append isKey.uncut rfl rest
  simp only [propertyOf?, trimmed, filled, noComment, cut, trim_eq_self isKey.clear, same,
    Bool.or_self, Bool.false_eq_true, if_false]

end Line

section Put
variable {key value : String} {entries : List (String × String)}

theorem putProperty_of_new (new : key ∉ entries.map (·.1)) :
    putProperty key value entries = entries ++ [(key, value)] := by
  induction entries with
  | nil => rfl
  | cons entry rest ih =>
    obtain ⟨k, v⟩ := entry
    rw [List.map_cons, List.mem_cons, not_or] at new
    rw [putProperty, if_neg (Ne.symm new.1), ih new.2, List.cons_append]

/-- Putting a value under a key changes the value only, or adds both at the end. -/
theorem map_putProperty (key value : String) (entries : List (String × String)) :
    (putProperty key value entries).map (·.1) =
      if key ∈ entries.map (·.1) then entries.map (·.1) else entries.map (·.1) ++ [key] := by
  induction entries with
  | nil => rfl
  | cons entry rest ih =>
    obtain ⟨k, v⟩ := entry
    by_cases same : k = key
    · simp [putProperty, same]
    · rw [putProperty, if_neg same, List.map_cons, ih, List.map_cons]
      by_cases known : key ∈ rest.map (·.1)
      · rw [if_pos known, if_pos (List.mem_cons_of_mem _ known)]
      · rw [if_neg known, if_neg (by simpa [Ne.symm same] using known), List.cons_append]

theorem find?_putProperty (key value : String) (entries : List (String × String)) (k : String) :
    ((putProperty key value entries).find? (·.1 == k)).map (·.2) =
      if key = k then some value else (entries.find? (·.1 == k)).map (·.2) := by
  induction entries with
  | nil => by_cases asked : key = k <;> simp [putProperty, asked]
  | cons entry rest ih =>
    obtain ⟨old, v⟩ := entry
    by_cases known : old = key
    · subst known
      by_cases asked : old = k <;> simp [putProperty, asked]
    · rw [putProperty, if_neg known]
      by_cases asked : old = k
      · simp [asked, Ne.symm (asked ▸ known)]
      · simpa [asked] using ih

theorem foldl_putProperty (entries more : List (String × String))
    (distinct : ((entries ++ more).map (·.1)).Nodup) :
    more.foldl (fun entries entry => putProperty entry.1 entry.2 entries) entries =
      entries ++ more := by
  induction more generalizing entries with
  | nil => simp
  | cons entry rest ih =>
    have new : entry.1 ∉ entries.map (·.1) := by
      intro old
      rw [List.map_append] at distinct
      exact List.disjoint_of_nodup_append distinct old List.mem_cons_self
    rw [List.append_cons] at distinct ⊢
    rw [List.foldl_cons, putProperty_of_new new, ih _ distinct]

/-- The properties of a text are those of its lines, put in one after another. -/
theorem properties_eq_foldl (text : String) :
    properties text = ((lines text).filterMap propertyOf?).foldl
      (fun entries entry => putProperty entry.1 entry.2 entries) [] := by
  rw [List.foldl_filterMap, properties]
  refine congrArg (fun step => (lines text).foldl step []) (funext₂ fun entries line => ?_)
  cases propertyOf? line <;> rfl

/-- If no key stands twice, they are the lines in their order. -/
theorem properties_eq {text : String}
    (distinct : (((lines text).filterMap propertyOf?).map (·.1)).Nodup) :
    properties text = (lines text).filterMap propertyOf? := by
  rw [properties_eq_foldl, foldl_putProperty [] _ distinct, List.nil_append]

end Put

end Linkage.Text
