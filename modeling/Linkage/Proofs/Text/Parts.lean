import Linkage.Proofs.Text.Pieces
import Linkage.Proofs.Text.Trimming

/-!
The parts of a text that is cut at a character: its pieces, trimmed, the blank ones left out. Blanks
around a text do not change its parts, a part has itself for its only part, and parts that are put
together with cuts between them come back.
-/
namespace Linkage.Text
variable {c : Char} {s : String}

/-- The pieces of a text, each without the blanks around it, as far as something is left of them. -/
def parts (c : Char) (s : String) : List String :=
  ((splitAll c s).map trim).filter (!·.isEmpty)

/-- A text that can be a part. -/
structure IsPart (c : Char) (s : String) : Prop where
  nonempty : s ≠ ""
  clear : Clear s
  uncut : c ∉ s.toList

section Ends
variable {ends : List Char}

/-- What stands in front of a text belongs to its first piece. -/
theorem pieces_append_left (uncut : c ∉ ends) (cs : List Char) : ∃ first others,
    pieces c cs = first :: others ∧ pieces c (ends ++ cs) = (ends ++ first) :: others := by
  induction ends with
  | nil =>
    obtain ⟨first, others, split⟩ := List.exists_cons_of_ne_nil (pieces_ne_nil (c := c) cs)
    exact ⟨first, others, split, split⟩
  | cons x ends ih =>
    rw [List.mem_cons, not_or] at uncut
    obtain ⟨first, others, split, longer⟩ := ih uncut.2
    refine ⟨first, others, split, ?_⟩
    simp [pieces, Ne.symm uncut.1, longer]

/-- What stands behind a text belongs to its last piece. -/
theorem pieces_append_right (uncut : c ∉ ends) (cs : List Char) : ∃ front last,
    pieces c cs = front ++ [last] ∧ pieces c (cs ++ ends) = front ++ [last ++ ends] := by
  induction cs with
  | nil => exact ⟨[], [], rfl, pieces_of_not_mem uncut⟩
  | cons x cs ih =>
    obtain ⟨front, last, split, longer⟩ := ih
    by_cases cut : x = c
    · exact ⟨[] :: front, last, by simp [pieces, cut, split], by simp [pieces, cut, longer]⟩
    · cases front with
      | nil =>
        rw [List.nil_append] at split longer
        exact ⟨[], x :: last, by simp [pieces, cut, split], by simp [pieces, cut, longer]⟩
      | cons first front =>
        rw [List.cons_append] at split longer
        exact ⟨(x :: first) :: front, last, by simp [pieces, cut, split],
          by simp [pieces, cut, longer]⟩

theorem trim_blanks_append (blanks : ∀ x ∈ ends, isBlank x = true) (s : String) :
    trim (String.ofList ends ++ s) = trim s := by
  obtain ⟨before, after, ahead, behind, around⟩ := exists_around s
  refine trim_of_around (?_ : ∀ x ∈ ends ++ before, isBlank x = true) behind (clear_trim s) ?_
  · exact fun x inside => (List.mem_append.mp inside).elim (blanks x) (ahead x)
  · rw [String.toList_append, String.toList_ofList, around, List.append_assoc, List.append_assoc,
      List.append_assoc]

theorem trim_append_blanks (blanks : ∀ x ∈ ends, isBlank x = true) (s : String) :
    trim (s ++ String.ofList ends) = trim s := by
  obtain ⟨before, after, ahead, behind, around⟩ := exists_around s
  refine trim_of_around ahead (?_ : ∀ x ∈ after ++ ends, isBlank x = true) (clear_trim s) ?_
  · exact fun x inside => (List.mem_append.mp inside).elim (behind x) (blanks x)
  · rw [String.toList_append, String.toList_ofList, around, List.append_assoc]

theorem not_mem_of_blanks (plain : isBlank c = false) (blanks : ∀ x ∈ ends, isBlank x = true) :
    c ∉ ends := by
  intro inside
  rw [blanks c inside] at plain
  cases plain

end Ends

/-- Blanks around a text do not change its parts. -/
theorem parts_trim (plain : isBlank c = false) (s : String) : parts c (trim s) = parts c s := by
  obtain ⟨before, after, ahead, behind, around⟩ := exists_around s
  obtain ⟨first, others, split, longer⟩ :=
    pieces_append_left (not_mem_of_blanks plain ahead) ((trim s).toList ++ after)
  obtain ⟨front, last, split', longer'⟩ :=
    pieces_append_right (not_mem_of_blanks plain behind) (trim s).toList
  have same : (splitAll c (trim s)).map trim = (splitAll c s).map trim := by
    have ahead' := trim_blanks_append ahead (String.ofList first)
    have behind' := trim_append_blanks behind (String.ofList last)
    calc (splitAll c (trim s)).map trim
        = ((front ++ [last]).map String.ofList).map trim := by rw [splitAll, split']
      _ = ((front ++ [last ++ after]).map String.ofList).map trim := by simp [behind']
      _ = ((first :: others).map String.ofList).map trim := by rw [← longer', split]
      _ = (((before ++ first) :: others).map String.ofList).map trim := by simp [ahead']
      _ = (splitAll c s).map trim := by rw [← longer, splitAll, around, List.append_assoc]
  rw [parts, same, parts]

theorem mem_parts_iff {part : String} :
    part ∈ parts c s ↔ part ≠ "" ∧ ∃ piece ∈ splitAll c s, trim piece = part := by
  simp only [parts, List.mem_filter, List.mem_map, Bool.not_eq_true', String.isEmpty_eq_false_iff]
  exact and_comm

theorem isPart_of_mem {part : String} (inside : part ∈ parts c s) : IsPart c part := by
  obtain ⟨nonempty, piece, among, rfl⟩ := mem_parts_iff.mp inside
  exact ⟨nonempty, clear_trim piece,
    fun cut => (mem_of_mem_splitAll among (mem_of_mem_trim cut)).2 rfl⟩

/-- Parts stay as they are. -/
theorem filter_trim_eq_self {ps : List String} (all : ∀ p ∈ ps, IsPart c p) :
    (ps.map trim).filter (!·.isEmpty) = ps := by
  have kept : ps.map trim = ps :=
    (List.map_congr_left fun p among => trim_eq_self (all p among).clear).trans (List.map_id ps)
  rw [kept, List.filter_eq_self]
  intro p among
  simpa using (all p among).nonempty

theorem parts_of_isPart (part : IsPart c s) : parts c s = [s] := by
  rw [parts, splitAll_of_not_mem part.uncut]
  exact filter_trim_eq_self (c := c) (by simpa using part)

/-- Parts that are put together with cuts between them come back. -/
theorem parts_intercalate {ps : List String} (all : ∀ p ∈ ps, IsPart c p) :
    parts c (String.intercalate (String.singleton c) ps) = ps := by
  by_cases empty : ps = []
  · rw [empty]
    rfl
  · rw [parts, splitAll_intercalate empty fun p among => (all p among).uncut]
    exact filter_trim_eq_self all

end Linkage.Text
