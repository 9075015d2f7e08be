import Linkage.Classpath.Entry
import Linkage.Proofs.Text.Parts

/-!
Expanding a class path. What comes out are elements that stand for themselves, so that expanding
them again changes nothing, and every element is expanded for itself. Blanks around an element do
not matter either, with one exception: a reference to a module is known by what it starts with, and
one with blanks in front of it is taken for several paths.
-/
namespace Linkage.Classpath

open Text (trim startsWith parts)

/-- An element that stands for itself: a reference to a module, or a single path. -/
structure Single (element : String) : Prop where
  nonempty : element ≠ ""
  clear : Text.Clear element
  whole : startsWith moduleScheme element = true ∨ ':' ∉ element.toList

/-- A reference to a module with blanks in front of it. -/
structure Indented (element : String) : Prop where
  hidden : startsWith moduleScheme element = false
  reference : startsWith moduleScheme (trim element) = true

section Reference
variable {lead rest element : String}

/-- Trimming leaves alone what a text starts with, where that is clear of blanks. -/
theorem exists_trim_append (clear : Text.Clear lead) (named : lead ≠ "") (rest : String) :
    ∃ tail, trim (lead ++ rest) = lead ++ tail := by
  have blanks : ∀ c ∈ rest.toList.rtakeWhile Text.isBlank, Text.isBlank c = true :=
    fun c inside => List.mem_rtakeWhile_imp inside
  have whole : rest = String.ofList (rest.toList.rdropWhile Text.isBlank) ++
      String.ofList (rest.toList.rtakeWhile Text.isBlank) := by
    rw [← String.ofList_append, List.rdropWhile_append_rtakeWhile, String.ofList_toList]
  refine ⟨String.ofList (rest.toList.rdropWhile Text.isBlank), ?_⟩
  conv_lhs => rw [whole, ← String.append_assoc, Text.trim_append_blanks blanks]
  apply Text.trim_eq_self
  by_cases blank : rest.toList.rdropWhile Text.isBlank = []
  · rwa [blank, String.ofList_nil, String.append_empty]
  · refine ⟨(Text.clearAhead_append_iff named).mpr clear.1,
      (Text.clearBehind_append_iff (by simpa using blank)).mpr ?_⟩
    intro c last
    rw [String.toList_ofList, List.getLast?_eq_getLast_of_ne_nil blank] at last
    obtain rfl := Option.some.inj last
    simpa using List.rdropWhile_last_not Text.isBlank rest.toList blank

theorem startsWith_trim (reference : startsWith moduleScheme element = true) :
    startsWith moduleScheme (trim element) = true := by
  obtain ⟨rest, rfl⟩ := Text.startsWith_iff.mp reference
  obtain ⟨tail, trimmed⟩ :=
    exists_trim_append (by decide +kernel) (by decide +kernel : moduleScheme ≠ "") rest
  exact Text.startsWith_iff.mpr ⟨tail, trimmed⟩

theorem colon_mem (reference : startsWith moduleScheme element = true) : ':' ∈ element.toList := by
  obtain ⟨rest, rfl⟩ := Text.startsWith_iff.mp reference
  rw [String.toList_append]
  exact List.mem_append_left _ (by decide +kernel)

theorem ne_empty (reference : startsWith moduleScheme element = true) : element ≠ "" := by
  rintro rfl
  cases colon_mem reference

end Reference

section Element
variable {element part : String}

/-- A reference is one element, and all else is cut at its colons. -/
theorem expandElement_eq (element : String) : expandElement element =
    if startsWith moduleScheme element = true then [trim element] else parts ':' element := by
  rw [expandElement]
  by_cases blank : trim element = ""
  · have plain : ¬ startsWith moduleScheme element = true :=
      fun reference => ne_empty (startsWith_trim reference) blank
    rw [if_pos (by simp [blank]), if_neg plain, ← Text.parts_trim (by decide), blank]
    rfl
  · rw [if_neg (by simpa using blank)]
    rfl

theorem single_of_mem (inside : part ∈ expandElement element) : Single part := by
  rw [expandElement_eq] at inside
  split at inside
  · rename_i reference
    obtain rfl := List.mem_singleton.mp inside
    have kept := startsWith_trim reference
    exact ⟨ne_empty kept, Text.clear_trim element, .inl kept⟩
  · have isPart := Text.isPart_of_mem inside
    exact ⟨isPart.nonempty, isPart.clear, .inr isPart.uncut⟩

theorem Single.expandElement_eq (single : Single element) : expandElement element = [element] := by
  rw [Classpath.expandElement_eq]
  split
  · rw [Text.trim_eq_self single.clear]
  · rename_i plain
    exact Text.parts_of_isPart ⟨single.nonempty, single.clear, single.whole.resolve_left plain⟩

/-- An indented reference is cut at its colons, which none of its parts holds, and without the
blanks it is kept. Any other element is expanded as without the blanks. -/
theorem expandElement_trim_iff :
    expandElement (trim element) = expandElement element ↔ ¬ Indented element := by
  rw [expandElement_eq, expandElement_eq]
  by_cases reference : startsWith moduleScheme (trim element) = true
  · rw [if_pos reference, Text.trim_eq_self (Text.clear_trim element)]
    by_cases known : startsWith moduleScheme element = true
    · rw [if_pos known]
      exact iff_of_true rfl fun indented => Bool.false_ne_true (indented.hidden.symm.trans known)
    · rw [if_neg known]
      refine iff_of_false ?_ (not_not.mpr ⟨Bool.eq_false_iff.mpr known, reference⟩)
      intro same
      have inside : trim element ∈ parts ':' element := same ▸ List.mem_singleton_self _
      exact (Text.isPart_of_mem inside).uncut (colon_mem reference)
  · have plain : ¬ startsWith moduleScheme element = true := mt startsWith_trim reference
    rw [if_neg reference, if_neg plain, Text.parts_trim (by decide)]
    exact iff_of_true rfl fun indented => reference indented.reference

end Element

theorem expand_append (elements others : List String) :
    expand (elements ++ others) = expand elements ++ expand others :=
  List.flatMap_append

theorem expand_eq_self {elements : List String} (single : ∀ e ∈ elements, Single e) :
    expand elements = elements := by
  have kept : elements.map expandElement = elements.map fun e => [e] :=
    List.map_congr_left fun e inside => (single e inside).expandElement_eq
  rw [expand, List.flatMap_def, kept, ← List.flatMap_def, List.flatMap_singleton']

theorem single_of_mem_expand {elements : List String} {part : String}
    (inside : part ∈ expand elements) : Single part := by
  obtain ⟨element, _, among⟩ := List.mem_flatMap.mp inside
  exact single_of_mem among

/-- Expansion is stable: what it gives it leaves alone, the elements of two lists are expanded as
those of one, and trimming an element changes the outcome if and only if it uncovers a reference to
a module. -/
theorem expansion_stable (elements others before after : List String) (element : String) :
    expand (expand elements) = expand elements ∧
    expand (elements ++ others) = expand elements ++ expand others ∧
    (expand (before ++ trim element :: after) = expand (before ++ element :: after) ↔
      ¬ Indented element) := by
  refine ⟨expand_eq_self fun part => single_of_mem_expand, expand_append .., ?_⟩
  rw [expand_append, expand_append, List.append_cancel_left_eq, expand, expand, List.flatMap_cons,
    List.flatMap_cons, List.append_cancel_right_eq, expandElement_trim_iff]

/-- With a blank in front of it a reference falls apart at its colon. -/
theorem indented_reference_cut :
    trim " jrt:/java.base" = "jrt:/java.base" ∧
      expand ["jrt:/java.base"] = ["jrt:/java.base"] ∧
      expand [" jrt:/java.base"] = ["jrt", "/java.base"] := by
  decide +kernel

end Linkage.Classpath
