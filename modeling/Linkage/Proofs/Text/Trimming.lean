import Mathlib.Data.List.DropRight
import Mathlib.Data.List.TakeDrop
import Linkage.Text.Basic
import Linkage.Text.Blank

/-!
Dropping blanks around a text, cutting a text once, and taking a lead off it. Trimming leaves the
one text that is clear of blanks at both ends and gives the original with blanks around it; a cut
and a lead are described by putting the parts together again.
-/
namespace Linkage.Text

/-- No blank stands at the start of the text. -/
def ClearAhead (s : String) : Prop := ∀ c ∈ s.toList.head?, isBlank c = false

/-- No blank stands at the end of the text. -/
def ClearBehind (s : String) : Prop := ∀ c ∈ s.toList.getLast?, isBlank c = false

/-- No blank stands around the text. -/
def Clear (s : String) : Prop := ClearAhead s ∧ ClearBehind s

instance (s : String) : Decidable (ClearAhead s) :=
  Option.decidableForallMem (o := s.toList.head?)

instance (s : String) : Decidable (ClearBehind s) :=
  Option.decidableForallMem (o := s.toList.getLast?)

instance (s : String) : Decidable (Clear s) := inferInstanceAs (Decidable (_ ∧ _))

section Trim
variable {s t : String}

theorem toList_trim (s : String) :
    (trim s).toList = (s.toList.dropWhile isBlank).rdropWhile isBlank := by
  simp [trim, List.rdropWhile]

theorem clear_trim (s : String) : Clear (trim s) := by
  have front := List.head?_dropWhile_not isBlank s.toList
  have back := List.head?_dropWhile_not isBlank (s.toList.dropWhile isBlank).reverse
  constructor
  · intro c first
    rw [toList_trim] at first
    rw [← List.rdropWhile_append_rtakeWhile (p := isBlank) (l := s.toList.dropWhile isBlank),
      List.head?_append, Option.mem_def.mp first] at front
    exact front
  · intro c last
    rw [toList_trim, List.rdropWhile, List.getLast?_reverse] at last
    simpa [Option.mem_def.mp last] using back

/-- Only blanks are dropped. -/
theorem exists_around (s : String) : ∃ before after : List Char,
    (∀ c ∈ before, isBlank c = true) ∧ (∀ c ∈ after, isBlank c = true) ∧
      s.toList = before ++ (trim s).toList ++ after := by
  refine ⟨s.toList.takeWhile isBlank, (s.toList.dropWhile isBlank).rtakeWhile isBlank,
    fun c inside => List.mem_takeWhile_imp inside, fun c inside => List.mem_rtakeWhile_imp inside,
    ?_⟩
  rw [toList_trim, List.append_assoc, List.rdropWhile_append_rtakeWhile,
    List.takeWhile_append_dropWhile]

theorem dropWhile_blanks {before cs : List Char} (blanks : ∀ c ∈ before, isBlank c = true)
    (clear : ∀ c ∈ cs.head?, isBlank c = false) : (before ++ cs).dropWhile isBlank = cs := by
  rw [List.dropWhile_append, List.dropWhile_eq_nil_iff.mpr blanks]
  cases cs with
  | nil => rfl
  | cons c cs => simp [clear c rfl]

/-- A text that is clear at both ends is what trimming leaves of it with blanks around it. -/
theorem trim_of_around {before after : List Char} (ahead : ∀ c ∈ before, isBlank c = true)
    (behind : ∀ c ∈ after, isBlank c = true) (clear : Clear t)
    (around : s.toList = before ++ t.toList ++ after) : trim s = t := by
  rw [← String.toList_inj, toList_trim, around]
  by_cases empty : t.toList = []
  · have blank : (before ++ t.toList ++ after).dropWhile isBlank = [] := by
      rw [List.dropWhile_eq_nil_iff, empty, List.append_nil]
      intro c inside
      exact (List.mem_append.mp inside).elim (ahead c) (behind c)
    rw [blank, empty, List.rdropWhile_nil]
  · have first : (t.toList ++ after).head? = t.toList.head? := by
      obtain ⟨c, cs, shape⟩ := List.exists_cons_of_ne_nil empty
      rw [shape]
      rfl
    rw [List.append_assoc, dropWhile_blanks ahead (first ▸ clear.1), List.rdropWhile,
      List.reverse_append, dropWhile_blanks, List.reverse_reverse]
    · simpa using behind
    · rw [List.head?_reverse]
      exact clear.2

theorem trim_eq_self (clear : Clear s) : trim s = s :=
  trim_of_around (by simp) (by simp) clear (by simp : s.toList = [] ++ s.toList ++ [])

theorem mem_of_mem_trim {c : Char} (inside : c ∈ (trim s).toList) : c ∈ s.toList := by
  obtain ⟨before, after, _, _, around⟩ := exists_around s
  rw [around]
  simp [inside]

theorem clear_replaceChar {a b : Char} (plain : isBlank b = false) (clear : Clear s) :
    Clear (replaceChar a b s) := by
  have kept : ∀ c, isBlank c = false → isBlank (if c = a then b else c) = false := by
    intro c clear
    split
    · exact plain
    · exact clear
  constructor
  · intro c first
    rw [replaceChar, String.toList_ofList, List.head?_map] at first
    obtain ⟨d, start, rfl⟩ := Option.map_eq_some_iff.mp first
    exact kept d (clear.1 d start)
  · intro c last
    rw [replaceChar, String.toList_ofList, List.getLast?_map] at last
    obtain ⟨d, stop, rfl⟩ := Option.map_eq_some_iff.mp last
    exact kept d (clear.2 d stop)

theorem clearAhead_append_iff (front : s ≠ "") : ClearAhead (s ++ t) ↔ ClearAhead s := by
  obtain ⟨c, cs, shape⟩ := List.exists_cons_of_ne_nil (mt String.toList_eq_nil_iff.mp front)
  simp only [ClearAhead, String.toList_append, shape, List.cons_append, List.head?_cons]

theorem clearBehind_append_iff (back : t ≠ "") : ClearBehind (s ++ t) ↔ ClearBehind t := by
  rw [ClearBehind, String.toList_append,
    List.getLast?_append_of_ne_nil _ (mt String.toList_eq_nil_iff.mp back), ClearBehind]

end Trim

section Cut
variable {p : Char → Bool} {s before after : String}

theorem splitFirstWhere?_append {c : Char} (uncut : ∀ x ∈ before.toList, p x = false)
    (cut : p c = true) (after : String) :
    splitFirstWhere? p (before ++ String.singleton c ++ after) = some (before, after) := by
  have text : (before ++ String.singleton c ++ after).toList =
      before.toList ++ c :: after.toList := by simp
  have front : (before.toList ++ c :: after.toList).takeWhile (fun x => !p x) = before.toList := by
    rw [List.takeWhile_append_of_pos (by simpa using uncut)]
    simp [cut]
  have back : (before.toList ++ c :: after.toList).dropWhile (fun x => !p x) =
      c :: after.toList := by
    rw [List.dropWhile_append_of_pos (by simpa using uncut)]
    simp [cut]
  rw [splitFirstWhere?, text, List.span_eq_takeWhile_dropWhile, front, back]
  simp

theorem of_splitFirstWhere? (cut : splitFirstWhere? p s = some (before, after)) :
    (∃ c, p c = true ∧ s = before ++ String.singleton c ++ after) ∧
      ∀ x ∈ before.toList, p x = false := by
  rw [splitFirstWhere?, List.span_eq_takeWhile_dropWhile] at cut
  have whole := List.takeWhile_append_dropWhile (p := fun x => !p x) (l := s.toList)
  have first := List.head?_dropWhile_not (fun x => !p x) s.toList
  split at cut
  · cases cut
  · rename_i front c back shape
    obtain ⟨rfl, rest⟩ := Prod.mk.inj shape
    obtain ⟨rfl, rfl⟩ := Prod.mk.inj (Option.some.inj cut)
    rw [rest] at whole first
    refine ⟨⟨c, by simpa using first, ?_⟩, ?_⟩
    · rw [← String.toList_inj]
      simpa using whole.symm
    · intro x inside
      rw [String.toList_ofList] at inside
      simpa using List.mem_takeWhile_imp inside

end Cut

section Lead
variable {lead rest s : String}

theorem stripStart?_eq_some_iff : stripStart? lead s = some rest ↔ s = lead ++ rest := by
  simp only [stripStart?, Option.map_eq_some_iff, List.isPrefixOf?_eq_some_iff_append_eq]
  constructor
  · rintro ⟨cs, whole, rfl⟩
    rw [← String.toList_inj, ← whole]
    simp
  · rintro rfl
    exact ⟨rest.toList, by simp, by simp⟩

theorem stripStart?_eq_none_iff : stripStart? lead s = none ↔ ∀ rest, s ≠ lead ++ rest := by
  rw [Option.eq_none_iff_forall_ne_some]
  exact forall_congr' fun rest => not_congr stripStart?_eq_some_iff

theorem stripStart?_append_append (front lead rest : String) :
    stripStart? (front ++ lead) (front ++ rest) = stripStart? lead rest := by
  apply Option.ext
  intro tail
  rw [stripStart?_eq_some_iff, stripStart?_eq_some_iff, String.append_assoc]
  exact String.append_right_inj front

theorem startsWith_iff : startsWith lead s = true ↔ ∃ rest, s = lead ++ rest := by
  simp only [startsWith, List.isPrefixOf_iff_prefix]
  constructor
  · rintro ⟨cs, whole⟩
    exact ⟨String.ofList cs, by rw [← String.toList_inj, ← whole]; simp⟩
  · rintro ⟨rest, rfl⟩
    exact ⟨rest.toList, by simp⟩

theorem startsWith_eq_false_iff : startsWith lead s = false ↔ stripStart? lead s = none := by
  rw [stripStart?_eq_none_iff, ← Bool.not_eq_true, startsWith_iff, not_exists]

/-- Leads that part somewhere are not mistaken for each other. -/
theorem stripStart?_of_parted {other : String} (one : startsWith lead other = false)
    (two : startsWith other lead = false) (rest : String) :
    stripStart? lead (other ++ rest) = none := by
  rw [stripStart?_eq_none_iff]
  intro tail whole
  have left : lead.toList <+: (other ++ rest).toList := by simp [whole]
  have right : other.toList <+: (other ++ rest).toList := by simp
  rcases List.prefix_or_prefix_of_prefix left right with short | short
  · simp [startsWith, List.isPrefixOf_iff_prefix.mpr short] at one
  · simp [startsWith, List.isPrefixOf_iff_prefix.mpr short] at two

theorem endsWith_iff {tail : String} : endsWith tail s = true ↔ ∃ rest, s = rest ++ tail := by
  simp only [endsWith, List.isSuffixOf_iff_suffix]
  constructor
  · rintro ⟨cs, whole⟩
    exact ⟨String.ofList cs, by rw [← String.toList_inj, ← whole]; simp⟩
  · rintro ⟨rest, rfl⟩
    exact ⟨rest.toList, by simp⟩

theorem of_stripEnd? {tail : String} (cut : stripEnd? tail s = some rest) : s = rest ++ tail := by
  obtain ⟨cs, stripped, rfl⟩ := Option.map_eq_some_iff.mp cut
  have whole := congrArg List.reverse (List.isPrefixOf?_eq_some_iff_append_eq.mp stripped)
  rw [← String.toList_inj]
  simpa using whole.symm

end Lead

end Linkage.Text
