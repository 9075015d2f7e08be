import Mathlib.Data.List.Basic
import Linkage.Text.Basic

/-!
Cutting a text at a character and putting the pieces together again. A piece never holds the
character at which it was cut, a cut in the middle of a text splits the pieces there, and pieces
that hold no cut are the ones that come back.
-/
namespace Linkage.Text
variable {c : Char}

theorem pieces_ne_nil (cs : List Char) : pieces c cs ≠ [] := by
  cases cs with
  | nil => simp [pieces]
  | cons x rest =>
    rw [pieces]
    split
    · simp
    · split <;> simp

theorem pieces_cons_cut (rest : List Char) : pieces c (c :: rest) = [] :: pieces c rest := by
  simp [pieces]

theorem pieces_append_cut (before after : List Char) :
    pieces c (before ++ c :: after) = pieces c before ++ pieces c after := by
  induction before with
  | nil => simp [pieces]
  | cons x before ih =>
    by_cases cut : x = c
    · simp [pieces, cut, ih]
    · cases split : pieces c before with
      | nil => exact absurd split (pieces_ne_nil before)
      | cons first others => simp [pieces, cut, ih, split]

theorem pieces_of_not_mem {cs : List Char} (uncut : c ∉ cs) : pieces c cs = [cs] := by
  induction cs with
  | nil => rfl
  | cons x cs ih =>
    rw [List.mem_cons, not_or] at uncut
    simp [pieces, Ne.symm uncut.1, ih uncut.2]

/-- A piece is made of characters of the text, the cut apart. -/
theorem mem_of_mem_pieces {cs piece : List Char} (among : piece ∈ pieces c cs) {x : Char}
    (inside : x ∈ piece) : x ∈ cs ∧ x ≠ c := by
  induction cs generalizing piece with
  | nil => simp_all [pieces]
  | cons y cs ih =>
    by_cases cut : y = c
    · rw [cut, pieces_cons_cut, List.mem_cons] at among
      rcases among with rfl | among
      · cases inside
      · exact ⟨List.mem_cons_of_mem _ (ih among inside).1, (ih among inside).2⟩
    · cases split : pieces c cs with
      | nil => exact absurd split (pieces_ne_nil cs)
      | cons first others =>
        simp only [pieces, cut, if_false, split, List.mem_cons] at among
        rw [split] at ih
        rcases among with rfl | among
        · rcases List.mem_cons.mp inside with rfl | inside
          · exact ⟨List.mem_cons_self, cut⟩
          · have found := ih List.mem_cons_self inside
            exact ⟨List.mem_cons_of_mem _ found.1, found.2⟩
        · have found := ih (List.mem_cons_of_mem _ among) inside
          exact ⟨List.mem_cons_of_mem _ found.1, found.2⟩

theorem pieces_intercalate {ps : List (List Char)} (nonempty : ps ≠ []) (uncut : ∀ p ∈ ps, c ∉ p) :
    pieces c ([c].intercalate ps) = ps := by
  induction ps with
  | nil => exact absurd rfl nonempty
  | cons p ps ih =>
    have first := pieces_of_not_mem (uncut p List.mem_cons_self)
    cases ps with
    | nil => simpa [List.intercalate] using first
    | cons q ps =>
      have others := ih (by simp) fun r among => uncut r (List.mem_cons_of_mem _ among)
      have cut : [c].intercalate (p :: q :: ps) = p ++ c :: [c].intercalate (q :: ps) := by
        simp [List.intercalate]
      rw [cut, pieces_append_cut, first, others]
      rfl

theorem splitAll_ne_nil (s : String) : splitAll c s ≠ [] := by
  simpa [splitAll] using pieces_ne_nil s.toList

theorem splitAll_append_cut (before after : String) :
    splitAll c (before ++ String.singleton c ++ after) = splitAll c before ++ splitAll c after := by
  simp [splitAll, pieces_append_cut]

theorem splitAll_concat_cut (before : String) :
    splitAll c (before ++ String.singleton c) = splitAll c before ++ [""] := by
  simp [splitAll, pieces_append_cut, pieces]

theorem splitAll_of_not_mem {s : String} (uncut : c ∉ s.toList) : splitAll c s = [s] := by
  simp [splitAll, pieces_of_not_mem uncut]

theorem mem_of_mem_splitAll {s piece : String} (among : piece ∈ splitAll c s) {x : Char}
    (inside : x ∈ piece.toList) : x ∈ s.toList ∧ x ≠ c := by
  obtain ⟨cs, cut, rfl⟩ := List.mem_map.mp among
  exact mem_of_mem_pieces cut (by simpa using inside)

theorem splitAll_intercalate {ps : List String} (nonempty : ps ≠ [])
    (uncut : ∀ p ∈ ps, c ∉ p.toList) :
    splitAll c (String.intercalate (String.singleton c) ps) = ps := by
  have chars : pieces c ([c].intercalate (ps.map String.toList)) = ps.map String.toList :=
    pieces_intercalate (by simpa using nonempty) (by simpa using uncut)
  rw [splitAll, String.toList_intercalate, String.toList_singleton, chars]
  simp

end Linkage.Text
