import Linkage.Policy.Gate
import Linkage.Proofs.Policy.Merge

/-!
The policy of the project and that of all projects are worth the same to the gate. With the two
files in each other's place a merge fails over the same setting; where it does not fail, a list may
come out in another order or with other repetitions, and nothing that the gate does with a list
looks at either.
-/
namespace Linkage.Policy

namespace SettingValue

theorem Same.refl (a : SettingValue) : a.Same a := by
  cases a with
  | names xs => exact fun x => Iff.rfl
  | _ => rfl

theorem Same.symm {a b : SettingValue} (same : a.Same b) : b.Same a := by
  cases a with
  | names xs =>
    cases b with
    | names ys => exact fun x => (same x).symm
    | _ => exact Eq.symm same
  | _ => cases b <;> exact Eq.symm same

end SettingValue

namespace Stated

/-- The same values with the two files in each other's place. -/
def exchanged (x : Stated) : Stated := { x with project := x.global, global := x.project }

theorem Settled.exchanged {x : Stated} (settled : x.Settled) : x.exchanged.Settled := by
  rcases settled with stated | one | other | ⟨a, b, one, other, same⟩
  · exact .inl stated
  · exact .inr (.inr (.inl one))
  · exact .inr (.inl other)
  · exact .inr (.inr (.inr ⟨b, a, other, one, same.symm⟩))

theorem settled_exchanged_iff (x : Stated) : x.exchanged.Settled ↔ x.Settled :=
  ⟨Settled.exchanged, Settled.exchanged⟩

/-- Where nothing is left open, the value is the same whichever file is asked first. -/
theorem Settled.outcome_same {x : Stated} (settled : x.Settled) (k : Setting) :
    Option.Rel SettingValue.Same (x.outcome k).1 (x.exchanged.outcome k).1 := by
  have refl (v : Option SettingValue) : Option.Rel SettingValue.Same v v := by
    cases v with
    | none => exact .none
    | some a => exact .some (.refl a)
  obtain ⟨override, project, global⟩ := x
  cases override with
  | some a => exact refl _
  | none =>
    cases project with
    | none => cases global <;> exact refl _
    | some a =>
      cases global with
      | none => exact refl _
      | some b =>
        have same : a.Same b := by simpa [Settled] using settled
        exact .some same

end Stated

namespace Sources

/-- The same sources with the two files in each other's place. -/
def exchanged (s : Sources) : Sources := { s with project := s.global, global := s.project }

theorem stated_exchanged (s : Sources) (k : Setting) :
    s.exchanged.stated k = (s.stated k).exchanged := rfl

end Sources

namespace Pattern

theorem anyCovers_iff {raw : List String} {target : String} :
    anyCovers raw target = true ↔
      ∃ text ∈ raw, ∃ p, read? text = some p ∧ p.covers target = true := by
  simp only [anyCovers, firstCovering?, readAll, List.find?_isSome, List.mem_filterMap]
  constructor
  · rintro ⟨p, ⟨text, member, isPattern⟩, covers⟩
    exact ⟨text, member, p, isPattern, covers⟩
  · rintro ⟨text, member, p, isPattern, covers⟩
    exact ⟨p, ⟨text, member, isPattern⟩, covers⟩

/-- What is covered depends on which patterns there are, not on their order. -/
theorem anyCovers_congr {xs ys : List String} (same : ∀ x, x ∈ xs ↔ x ∈ ys) (target : String) :
    anyCovers xs target = anyCovers ys target := by
  rw [Bool.eq_iff_iff, anyCovers_iff, anyCovers_iff]
  simp only [same]

theorem readAll_isEmpty_iff {raw : List String} :
    (readAll raw).isEmpty = true ↔ ∀ text ∈ raw, read? text = none := by
  rw [List.isEmpty_iff, readAll, List.filterMap_eq_nil_iff]

theorem readAll_isEmpty_congr {xs ys : List String} (same : ∀ x, x ∈ xs ↔ x ∈ ys) :
    (readAll xs).isEmpty = (readAll ys).isEmpty := by
  rw [Bool.eq_iff_iff, readAll_isEmpty_iff, readAll_isEmpty_iff]
  simp only [same]

end Pattern

theorem Actor.hasAny_iff {a : Actor} {required : List String} :
    a.hasAny required = true ↔
      ∃ role ∈ required, ∃ own ∈ a.roles, Text.sameIgnoringCase role own = true := by
  simp only [hasAny, List.any_eq_true]

theorem Actor.hasAny_congr {a b : Actor} {xs ys : List String}
    (roles : ∀ x, x ∈ a.roles ↔ x ∈ b.roles) (same : ∀ x, x ∈ xs ↔ x ∈ ys) :
    a.hasAny xs = b.hasAny ys := by
  rw [Bool.eq_iff_iff, hasAny_iff, hasAny_iff]
  simp only [roles, same]

theorem isEmpty_congr {xs ys : List String} (same : ∀ x, x ∈ xs ↔ x ∈ ys) :
    xs.isEmpty = ys.isEmpty := by
  rw [Bool.eq_iff_iff, List.isEmpty_iff, List.isEmpty_iff, List.eq_nil_iff_forall_not_mem,
    List.eq_nil_iff_forall_not_mem]
  simp only [same]

namespace Effective

/-- The code of the reason for which a target is denied, by the steps of the gate alone. -/
theorem map_code_denial? (p : Effective) (target : String) (a : Actor) :
    (p.denial? target a).map Denial.code =
      if Pattern.anyCovers p.denylist target then some Diagnostic.Code.denylisted
      else if p.mode = .strict ∧ !Pattern.anyCovers p.allowlist target then
        some Diagnostic.Code.strictUndeclared
      else if p.mode = .broad ∧ !p.ackRisk then some Diagnostic.Code.riskNotAcknowledged
      else if !p.requiredRoles.isEmpty && !a.hasAny p.requiredRoles then
        some Diagnostic.Code.rbacDenied
      else if p.isSensitive target && !p.sensitiveRequiredRoles.isEmpty &&
          !a.hasAny p.sensitiveRequiredRoles then
        some Diagnostic.Code.rbacDenied
      else if p.needsApproval target && !p.approves a then some Diagnostic.Code.approvalRequired
      else none := by
  unfold denial?
  cases found : Pattern.firstCovering? (Pattern.readAll p.denylist) target with
  | some pattern => simp [Pattern.anyCovers, found, Denial.code]
  | none =>
    have uncovered : Pattern.anyCovers p.denylist target = false := by
      simp [Pattern.anyCovers, found]
    simp only [uncovered, Bool.false_eq_true, if_false, apply_ite (Option.map Denial.code),
      Option.map_some, Option.map_none, Denial.code]

/-- Two policies that say the same in every setting, for the same shown approval. -/
structure Alike (p q : Effective) : Prop where
  settings : ∀ k, Option.Rel SettingValue.Same (p.value? k) (q.value? k)
  approval : p.providedApproval = q.providedApproval

namespace Alike
variable {p q : Effective}

section Fields
variable (alike : p.Alike q)
include alike

theorem mode : p.mode = q.mode := by
  simpa [value?, SettingValue.Same] using alike.settings .mode

theorem ackRisk : p.ackRisk = q.ackRisk := by
  simpa [value?, SettingValue.Same] using alike.settings .ackRisk

theorem approvalRequired : p.approvalRequired = q.approvalRequired := by
  simpa [value?, SettingValue.Same] using alike.settings .approvalRequired

theorem approvalToken : p.approvalToken = q.approvalToken := by
  have same := alike.settings .approvalToken
  simp only [value?] at same
  cases one : p.approvalToken <;> cases other : q.approvalToken <;>
    simp_all [SettingValue.Same]

/-- The lists of two such policies have the same members. -/
theorem names {k : Setting} {xs ys : List String} (one : p.value? k = some (.names xs))
    (other : q.value? k = some (.names ys)) (x : String) : x ∈ xs ↔ x ∈ ys := by
  have same := alike.settings k
  rw [one, other] at same
  exact Option.rel_some_some.mp same x

theorem isSensitive (target : String) : p.isSensitive target = q.isSensitive target :=
  Pattern.anyCovers_congr (alike.names (k := .sensitiveTargets) rfl rfl) target

theorem needsApproval (target : String) : p.needsApproval target = q.needsApproval target := by
  have targets := alike.names (k := .approvalTargets) rfl rfl
  simp only [Effective.needsApproval, alike.approvalRequired, alike.isSensitive,
    Pattern.readAll_isEmpty_congr targets, Pattern.anyCovers_congr targets]

theorem approves : p.approves (.ofPolicy p) = q.approves (.ofPolicy q) := by
  simp only [Effective.approves, Actor.ofPolicy, alike.approval, alike.approvalToken]

theorem hasAny {k : Setting} {xs ys : List String} (one : p.value? k = some (.names xs))
    (other : q.value? k = some (.names ys)) :
    (Actor.ofPolicy p).hasAny xs = (Actor.ofPolicy q).hasAny ys :=
  Actor.hasAny_congr (alike.names (k := .actorRoles) rfl rfl) (alike.names one other)

/-- Each step of the gate comes out the same. -/
theorem map_code_denial? (target : String) :
    (p.denial? target (.ofPolicy p)).map Denial.code =
      (q.denial? target (.ofPolicy q)).map Denial.code := by
  have denied := Pattern.anyCovers_congr (alike.names (k := .denylist) rfl rfl) target
  have declared := Pattern.anyCovers_congr (alike.names (k := .allowlist) rfl rfl) target
  have general := alike.hasAny (k := .requiredRoles) rfl rfl
  have stricter := alike.hasAny (k := .sensitiveRequiredRoles) rfl rfl
  have anyGeneral := isEmpty_congr (alike.names (k := .requiredRoles) rfl rfl)
  have anyStricter := isEmpty_congr (alike.names (k := .sensitiveRequiredRoles) rfl rfl)
  simp only [Effective.map_code_denial?, denied, declared, general, stricter, anyGeneral,
    anyStricter, alike.mode, alike.ackRisk, alike.isSensitive, alike.needsApproval, alike.approves]

end Fields

/-- A merge and the merge with the two files in each other's place give such policies. -/
theorem of_merge {s : Sources} (one : s.merge = .ok p) (other : s.exchanged.merge = .ok q) :
    p.Alike q := by
  have settled := Sources.exists_merge_iff.mp ⟨p, one⟩
  constructor
  · intro k
    have first := congrArg Prod.fst (Sources.outcome_of_merge one k)
    have second := congrArg Prod.fst (Sources.outcome_of_merge other k)
    rw [Sources.stated_exchanged] at second
    simp only at first second
    rw [first, second]
    exact (settled k).outcome_same k
  · rw [Sources.providedApproval_of_merge one, Sources.providedApproval_of_merge other]
    rfl

end Alike

end Effective

/-- The verdict is told by whether there is a reason. -/
theorem Ruling.isAllowed_eq (r : Ruling) : r.isAllowed = r.reason?.isNone := by
  rw [isAllowed, reason?, Option.isNone_map]

namespace Gate

/-- What an answer of the gate says: the verdict and the code of its reason, unless the ruling could
not be written down. -/
def said? : Except GateFault Ruling → Option (String × Option String)
  | .ok r => some (r.verdict, r.reason?)
  | .error (.denied _ denial) => some ("deny", some denial.code)
  | .error (.unwritten _) => none

theorem said?_answer (r : Ruling) : said? (answer r) = some (r.verdict, r.reason?) := by
  cases found : r.denial with
  | none => simp only [answer, found, said?]
  | some denial => simp [answer, found, said?, Ruling.verdict, Ruling.isAllowed, Ruling.reason?]

end Gate

/-- The two policy files are worth the same. With each in the other's place a merge fails over the
same setting or not at all; and for every target the gates of the two effective policies give, to
the actors that these name, the same verdict for the same reason. -/
theorem sources_exchange (s : Sources) :
    (∀ k, (∃ c, s.merge = .error c ∧ c.setting = k) ↔
      ∃ c, s.exchanged.merge = .error c ∧ c.setting = k) ∧
    ∀ p q, s.merge = .ok p → s.exchanged.merge = .ok q →
      ∀ {σ : Type} (sinks : Journal → Sinks σ) (stamp target : String) (w : σ), ∃ verdict reason,
        Gate.said? (Gate.authorize sinks stamp { policy := p } target (.ofPolicy p) w).1 =
          some (verdict, reason) ∧
        Gate.said? (Gate.authorize sinks stamp { policy := q } target (.ofPolicy q) w).1 =
          some (verdict, reason) := by
  constructor
  · intro k
    simp only [Sources.exists_error_over_iff, Sources.stated_exchanged,
      Stated.settled_exchanged_iff]
  · intro p q one other σ sinks stamp target w
    have same : (q.rule stamp target (.ofPolicy q)).reason? =
        (p.rule stamp target (.ofPolicy p)).reason? :=
      ((Effective.Alike.of_merge one other).map_code_denial? target).symm
    have verdict : (q.rule stamp target (.ofPolicy q)).verdict =
        (p.rule stamp target (.ofPolicy p)).verdict := by
      simp only [Ruling.verdict, Ruling.isAllowed_eq, same]
    refine ⟨_, _, Gate.said?_answer _, ?_⟩
    rw [← verdict, ← same]
    exact Gate.said?_answer _

end Linkage.Policy
