import Linkage.Proofs.Call.TargetText
import Linkage.Proofs.Policy.Monotone
import Linkage.Proofs.Text.Runs

/-!
Patterns that name a class. The text of a target shows its owner, since no number sign stands in
front of the one that ends it. So the pattern that is just a name covers the targets of the class of
that name, whatever their members and kinds, and leaves those of every other class alone, also of
one whose name begins alike.
-/
namespace Linkage.Policy

open Call (Target)

/-- A name that is no other kind of pattern and stands without blanks around it. -/
structure BareName (name : String) : Prop where
  unmarked : '#' ∉ name.toList
  unstarred : Text.endsWith "*" name = false
  clear : Text.Clear name

namespace Pattern
variable {name target : String} {t : Target}

theorem covers_owner_iff : (owner name).covers target = true ↔
    target = name ∨ ∃ rest, target = name ++ "#" ++ rest := by
  have behind : ((Text.stripStart? name target).map (Text.startsWith "#")).getD false = true ↔
      ∃ rest, target = name ++ "#" ++ rest := by
    cases stripped : Text.stripStart? name target with
    | none =>
      rw [Text.stripStart?_eq_none_iff] at stripped
      simp [String.append_assoc, stripped]
    | some tail =>
      obtain rfl := Text.stripStart?_eq_some_iff.mp stripped
      simp only [Option.map_some, Option.getD_some, Text.startsWith_iff, String.append_assoc,
        String.append_right_inj]
  rw [covers, Bool.or_eq_true, beq_iff_eq, behind]

/-- In the text of a target the first number sign ends the owner. -/
theorem covers_text_iff (formed : t.WellFormed) (unmarked : '#' ∉ name.toList) :
    (owner name).covers t.text = true ↔ t.owner = name := by
  have marked : '#' ∈ t.text.toList := by simp [Target.text]
  rw [covers_owner_iff]
  constructor
  · rintro (whole | ⟨rest, whole⟩)
    · exact absurd (whole ▸ marked) unmarked
    · have plain {s : String} (unmarked : '#' ∉ s.toList) :
          ∀ c ∈ s.toList, (c != '#') = true := by
        intro c inside
        rw [bne_iff_ne]
        exact fun mark => unmarked (mark ▸ inside)
      have chars := congrArg String.toList whole
      simp only [Target.text, String.toList_append, List.append_assoc] at chars
      have same := (Text.run_append_inj (plain formed.owner_unmarked) (plain unmarked)
        (by simp) (by simp) chars).1
      exact String.toList_inj.mp same
  · rintro rfl
    exact .inr ⟨t.binding, rfl⟩

theorem read?_bareName (bare : BareName name) (named : name ≠ "") :
    read? name = some (owner name) := by
  have unstarred : Text.stripEnd? "*" name = none := by
    rw [Option.eq_none_iff_forall_ne_some]
    intro start cut
    have starred := Text.endsWith_iff.mpr ⟨start, Text.of_stripEnd? cut⟩
    rw [bare.unstarred] at starred
    cases starred
  have unmarked : Text.holdsChar '#' name = false := by
    simpa [Text.holdsChar] using bare.unmarked
  simp only [read?, Text.trim_eq_self bare.clear, unstarred, unmarked, Bool.false_eq_true, if_false]
  rw [if_neg (mt String.isEmpty_iff.mp named)]

/-- The empty name is no pattern, and no class has it. -/
theorem anyCovers_bareName_iff (formed : t.WellFormed) (bare : BareName name) :
    anyCovers [name] t.text = true ↔ t.owner = name := by
  simp only [anyCovers_iff, List.mem_singleton, exists_eq_left]
  by_cases named : name = ""
  · have unread : read? "" = none := by decide
    simp [named, unread, formed.owner_nonempty]
  · simp [read?_bareName bare named, covers_text_iff formed bare.unmarked]

/-- A pattern that does not cover a target is not looked at for it. -/
theorem firstCovering?_filter (xs : List String) (uncovered : anyCovers [name] target = false) :
    firstCovering? (readAll (xs.filter (· ≠ name))) target = firstCovering? (readAll xs) target := by
  have passed {p : Pattern} (isPattern : read? name = some p) : p.covers target = false := by
    by_contra covers
    rw [Bool.not_eq_false] at covers
    rw [anyCovers_iff.mpr ⟨name, List.mem_singleton_self name, p, isPattern, covers⟩] at uncovered
    cases uncovered
  induction xs with
  | nil => rfl
  | cons x xs ih =>
    simp only [firstCovering?, readAll] at ih ⊢
    by_cases same : x = name
    · subst same
      rw [List.filter_cons_of_neg (by simp), ih, List.filterMap_cons]
      cases isPattern : read? x with
      | none => rfl
      | some p => rw [List.find?_cons_of_neg (by simp [passed isPattern])]
    · rw [List.filter_cons_of_pos (by simpa using same), List.filterMap_cons, List.filterMap_cons]
      cases read? x with
      | none => exact ih
      | some p => simp only [List.find?_cons, ih]

end Pattern

namespace Effective
variable {p : Effective} {name target : String}

/-- What is on the denylist is denied as such, whatever else the policy says. -/
theorem code_of_denylisted (covered : Pattern.anyCovers [name] target = true)
    (listed : name ∈ p.denylist) (a : Actor) :
    (p.denial? target a).map Denial.code = some Diagnostic.Code.denylisted := by
  have more : [name] ⊆ p.denylist := by simpa using listed
  rw [map_code_denial?, if_pos (Pattern.anyCovers_mono more covered)]

theorem denial?_without (uncovered : Pattern.anyCovers [name] target = false) (a : Actor) :
    { p with denylist := p.denylist.filter (· ≠ name) }.denial? target a = p.denial? target a := by
  unfold denial?
  simp only [Pattern.firstCovering?_filter p.denylist uncovered]
  rfl

end Effective

/-- A bare name covers exactly the targets of its class, in whatever way these were spelled. On a
denylist it keeps every gate from allowing one of them, and for the targets of other classes it
might as well not be there. -/
theorem bareName_covers_owned {name raw : String} {t : Target} (bare : BareName name)
    (read : Target.read raw = .ok t) :
    (Pattern.anyCovers [name] t.text = true ↔ t.owner = name) ∧
    (t.owner = name → ∀ {σ : Type} (sinks : Journal → Sinks σ) (stamp : String) (g : Gate)
      (a : Actor) (w : σ), name ∈ g.policy.denylist →
        (g.policy.denial? t.text a).map Denial.code = some Diagnostic.Code.denylisted ∧
        ¬ g.Allows sinks stamp t.text a w) ∧
    (t.owner ≠ name → ∀ (p : Effective) (a : Actor),
      { p with denylist := p.denylist.filter (· ≠ name) }.denial? t.text a =
        p.denial? t.text a) := by
  have owned_iff := Pattern.anyCovers_bareName_iff (Target.wellFormed_of_read read) bare
  refine ⟨owned_iff, ?_, ?_⟩
  · intro owned σ sinks stamp g a w listed
    have denied := Effective.code_of_denylisted (owned_iff.mpr owned) listed a
    refine ⟨denied, fun allows => ?_⟩
    rw [allows.denial?] at denied
    cases denied
  · intro other p a
    have uncovered : Pattern.anyCovers [name] t.text = false := by
      rw [← Bool.not_eq_true, owned_iff]
      exact other
    exact Effective.denial?_without uncovered a

/-- A policy that allows all but one nested class. -/
def sealedInner : Effective :=
  { (default : Effective) with mode := .broad, ackRisk := true, denylist := ["demo.Outer$Inner"] }

/-- The nested class is denied under an odd spelling of one of its fields; a class whose name goes
on from there is not. -/
theorem bareName_covers_owned_nested :
    let field : Target := ⟨"demo.Outer$Inner", "x", .instanceSet⟩
    let other : Target := ⟨"demo.Outer$InnerMost", "<init>", .constructor⟩
    BareName "demo.Outer$Inner" ∧
    Target.read " demo/Outer$Inner # $instance$set$x\t" = .ok field ∧
    "demo.Outer$Inner" ∈ sealedInner.denylist ∧
    (sealedInner.denial? field.text default).map Denial.code =
      some Diagnostic.Code.denylisted ∧
    Target.read "demo.Outer$InnerMost#$new" = .ok other ∧
    sealedInner.denial? other.text default = none := by
  intro field other
  have bare : BareName "demo.Outer$Inner" := ⟨by decide, by decide, by decide⟩
  have read : Target.read " demo/Outer$Inner # $instance$set$x\t" = .ok field := by decide
  have read' : Target.read "demo.Outer$InnerMost#$new" = .ok other := by decide
  have listed : "demo.Outer$Inner" ∈ sealedInner.denylist := by decide
  have denied := (bareName_covers_owned bare read).2.1 rfl (fun _ => ⟨fun _ s => (.ok (), s),
    fun _ s => (.ok (), s)⟩) "" ⟨sealedInner, none, []⟩ default () listed
  have unaffected := (bareName_covers_owned bare read').2.2 (by decide) sealedInner default
  have undenied : { sealedInner with
      denylist := sealedInner.denylist.filter (· ≠ "demo.Outer$Inner") }.denial? other.text default =
        none := by
    decide +kernel
  exact ⟨bare, read, listed, denied.1, read', unaffected ▸ undenied⟩

end Linkage.Policy
