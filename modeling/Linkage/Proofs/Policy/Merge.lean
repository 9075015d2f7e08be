import Mathlib.Data.List.Basic
import Linkage.Policy.Effective

/-!
Every setting is decided on its own. A setting is looked at through the three values that the run,
the project and all projects state for it; whether there is a conflict over it, which value it gets
and where that value comes from are read off these three, and no other setting is asked.
-/
namespace Linkage.Policy

namespace SettingValue

/-- Two values say the same: lists hold the same names, and other values are equal. -/
def Same : SettingValue → SettingValue → Prop
  | .names xs, .names ys => ∀ x, x ∈ xs ↔ x ∈ ys
  | a, b => a = b

theorem agrees_iff (a b : SettingValue) : a.agrees b = true ↔ a.Same b := by
  cases a with
  | names xs =>
    cases b with
    | names ys =>
      simp only [agrees, Same, Bool.and_eq_true, List.all_eq_true, List.contains_iff_mem]
      constructor
      · intro both x
        exact ⟨both.1 x, both.2 x⟩
      · intro same
        exact ⟨fun x => (same x).1, fun x => (same x).2⟩
    | _ => simp [agrees, Same]
  | _ => cases b <;> simp [agrees, Same]

end SettingValue

namespace Setting

theorem mem_all (k : Setting) : k ∈ all := by
  cases k <;> decide

/-- The value that a setting has when nobody states it; some have none. -/
def fallback : Setting → Option SettingValue
  | .mode => some (.mode .strict)
  | .ackRisk | .approvalRequired => some (.flag false)
  | .approvalToken | .isolation | .scope => none
  | _ => some (.names [])

end Setting

/-- What is stated for one setting: for the run, by the project, and by all projects. -/
structure Stated where
  override : Option SettingValue
  project : Option SettingValue
  global : Option SettingValue
  deriving DecidableEq

namespace Stated

/-- Nothing is left open: the run states the setting, or at most one of the two files does, or they
say the same. -/
def Settled (x : Stated) : Prop :=
  x.override.isSome ∨ x.project = none ∨ x.global = none ∨
    ∃ a b, x.project = some a ∧ x.global = some b ∧ a.Same b

/-- The value and its origin; the value that is stated first counts. -/
def outcome (k : Setting) : Stated → Option SettingValue × Origin
  | ⟨some a, _, _⟩ => (some a, .override)
  | ⟨none, some a, _⟩ => (some a, .project)
  | ⟨none, none, some a⟩ => (some a, .global)
  | ⟨none, none, none⟩ => (k.fallback, .default)

end Stated

namespace Effective

/-- The value of a setting in an effective policy. -/
def value? (p : Effective) : Setting → Option SettingValue
  | .mode => some (.mode p.mode)
  | .ackRisk => some (.flag p.ackRisk)
  | .actorRoles => some (.names p.actorRoles)
  | .requiredRoles => some (.names p.requiredRoles)
  | .sensitiveTargets => some (.names p.sensitiveTargets)
  | .sensitiveRequiredRoles => some (.names p.sensitiveRequiredRoles)
  | .approvalRequired => some (.flag p.approvalRequired)
  | .approvalTargets => some (.names p.approvalTargets)
  | .approvalToken => p.approvalToken.map .token
  | .isolation => p.isolation.map .isolation
  | .scope => p.scope.map .usage
  | .denylist => some (.names p.denylist)
  | .allowlist => some (.names p.allowlist)

/-- Where the value of a setting comes from. -/
def origin (p : Effective) (k : Setting) : Origin :=
  ((p.origins.find? (·.1 == k)).map (·.2)).getD .default

end Effective

namespace Sources
variable (s : Sources)

def stated (k : Setting) : Stated where
  override := s.overrides.settings.get? k
  project := s.project.bind (·.settings.get? k)
  global := s.global.bind (·.settings.get? k)

theorem map_pick {α β : Type} (f : α → β) (read : Settings → Option α) :
    (s.pick read).map f = s.pick fun x => (read x).map f := by
  simp only [pick, Option.orElse_eq_orElse, Option.orElse_eq_or, Option.map_or, Option.map_bind,
    Function.comp_def]

/-- A field with a default in an effective policy, seen as the value of its setting. -/
theorem some_getD_pick {α : Type} (f : α → SettingValue) (read : Settings → Option α) (a : α) :
    some (f ((s.pick read).getD a)) = (s.pick fun x => (read x).map f).or (some (f a)) := by
  rw [← map_pick]
  cases s.pick read with
  | none => rfl
  | some b => rfl

theorem outcome_stated (k : Setting) :
    (s.stated k).outcome k = ((s.pick (·.get? k)).or k.fallback, s.originOf k) := by
  simp only [stated, pick, originOf]
  cases s.overrides.settings.get? k with
  | some a => rfl
  | none =>
    cases s.project.bind (·.settings.get? k) with
    | some a => rfl
    | none =>
      cases s.global.bind (·.settings.get? k) with
      | some a => rfl
      | none => rfl

section Conflicts
variable {s} {k : Setting}

theorem conflictOver?_eq_some_iff {c : Conflict} :
    s.conflictOver? k = some c ↔
      s.overrides.settings.get? k = none ∧ ∃ project global a b,
        s.project = some project ∧ s.global = some global ∧
        project.settings.get? k = some a ∧ global.settings.get? k = some b ∧
        ¬ a.Same b ∧ c = ⟨k, a.text, project.path, b.text, global.path⟩ := by
  unfold conflictOver?
  cases s.overrides.settings.get? k with
  | some a => simp
  | none =>
    simp only [Option.isSome_none, Bool.false_eq_true, if_false, Option.bind_eq_bind,
      Option.bind_eq_some_iff, true_and, ← SettingValue.agrees_iff]
    constructor
    · rintro ⟨project, one, global, other, a, first, b, second, found⟩
      split at found
      · cases found
      · rename_i differ
        exact ⟨project, global, a, b, one, other, first, second, differ,
          (Option.some.inj found).symm⟩
    · rintro ⟨project, global, a, b, one, other, first, second, differ, rfl⟩
      exact ⟨project, one, global, other, a, first, b, second, if_neg differ⟩

theorem conflictOver?_eq_none_iff : s.conflictOver? k = none ↔ (s.stated k).Settled := by
  rw [Option.eq_none_iff_forall_ne_some]
  constructor
  · intro clear
    by_contra unsettled
    simp only [Stated.Settled, stated, not_or, not_exists, not_and] at unsettled
    obtain ⟨unstated, one, other, differ⟩ := unsettled
    obtain ⟨a, first⟩ := Option.ne_none_iff_exists'.mp one
    obtain ⟨b, second⟩ := Option.ne_none_iff_exists'.mp other
    obtain ⟨project, isProject, isA⟩ := Option.bind_eq_some_iff.mp first
    obtain ⟨global, isGlobal, isB⟩ := Option.bind_eq_some_iff.mp second
    exact clear _ (conflictOver?_eq_some_iff.mpr ⟨by simpa using unstated, project, global, a, b,
      isProject, isGlobal, isA, isB, differ a b first second, rfl⟩)
  · intro settled c found
    obtain ⟨unstated, project, global, a, b, isProject, isGlobal, isA, isB, differ, -⟩ :=
      conflictOver?_eq_some_iff.mp found
    have first : s.project.bind (·.settings.get? k) = some a := by rw [isProject]; exact isA
    have second : s.global.bind (·.settings.get? k) = some b := by rw [isGlobal]; exact isB
    simp [Stated.Settled, stated, unstated, first, second, differ] at settled

end Conflicts

section Merge
variable {s} {p : Effective}

theorem merge_eq_error_iff {c : Conflict} :
    s.merge = .error c ↔ Setting.all.findSome? s.conflictOver? = some c := by
  unfold merge
  cases Setting.all.findSome? s.conflictOver? with
  | some d => simp
  | none => simp

theorem exists_merge_iff : (∃ p, s.merge = .ok p) ↔ ∀ k, (s.stated k).Settled := by
  have none_iff : Setting.all.findSome? s.conflictOver? = none ↔ ∀ k, (s.stated k).Settled := by
    simp only [List.findSome?_eq_none_iff, conflictOver?_eq_none_iff, Setting.mem_all, true_imp_iff]
  rw [← none_iff]
  unfold merge
  cases Setting.all.findSome? s.conflictOver? with
  | some d => simp
  | none => simp

/-- The setting that a failed merge names is the first in their order that is left open. -/
theorem exists_error_over_iff (k : Setting) :
    (∃ c, s.merge = .error c ∧ c.setting = k) ↔
      ∃ before after, Setting.all = before ++ k :: after ∧ (∀ j ∈ before, (s.stated j).Settled) ∧
        ¬ (s.stated k).Settled := by
  simp only [merge_eq_error_iff, List.findSome?_eq_some_iff, conflictOver?_eq_none_iff]
  constructor
  · rintro ⟨c, ⟨before, j, after, order, found, settled⟩, rfl⟩
    have unsettled : ¬ (s.stated j).Settled := by
      rw [← conflictOver?_eq_none_iff, found]
      exact Option.some_ne_none c
    obtain ⟨-, _, _, _, _, -, -, -, -, -, rfl⟩ := conflictOver?_eq_some_iff.mp found
    exact ⟨before, after, order, settled, unsettled⟩
  · rintro ⟨before, after, order, settled, unsettled⟩
    rw [← conflictOver?_eq_none_iff] at unsettled
    obtain ⟨c, found⟩ := Option.ne_none_iff_exists'.mp unsettled
    refine ⟨c, ⟨before, k, after, order, found, settled⟩, ?_⟩
    obtain ⟨-, _, _, _, _, -, -, -, -, -, rfl⟩ := conflictOver?_eq_some_iff.mp found
    rfl

theorem value?_of_merge (merged : s.merge = .ok p) (k : Setting) :
    p.value? k = (s.pick (·.get? k)).or k.fallback := by
  unfold merge at merged
  split at merged
  · cases merged
  obtain rfl := Except.ok.inj merged
  cases k <;>
    simp only [Effective.value?, Setting.fallback, Settings.get?, some_getD_pick, map_pick,
      Option.or_none]

theorem origin_of_merge (merged : s.merge = .ok p) (k : Setting) : p.origin k = s.originOf k := by
  unfold merge at merged
  split at merged
  · cases merged
  obtain rfl := Except.ok.inj merged
  cases k <;> rfl

theorem providedApproval_of_merge (merged : s.merge = .ok p) :
    p.providedApproval = shownApproval s.overrides := by
  unfold merge at merged
  split at merged
  · cases merged
  obtain rfl := Except.ok.inj merged
  rfl

theorem outcome_of_merge (merged : s.merge = .ok p) (k : Setting) :
    (p.value? k, p.origin k) = (s.stated k).outcome k := by
  rw [outcome_stated, value?_of_merge merged, origin_of_merge merged]

end Merge

end Sources

/-- Merging decides every setting on its own. It succeeds just when no setting is left open; every
setting then has the value that is stated first and its origin, which stay what they are as long as
the three values of that setting do; and if it fails, then over the first setting in their order
that is left open, with the two values and where they stand. -/
theorem merge_decides (s : Sources) :
    ((∃ p, s.merge = .ok p) ↔ ∀ k, (s.stated k).Settled) ∧
    (∀ p, s.merge = .ok p → ∀ k, (p.value? k, p.origin k) = (s.stated k).outcome k) ∧
    (∀ p, s.merge = .ok p → ∀ t q, Sources.merge t = .ok q → ∀ k, t.stated k = s.stated k →
      q.value? k = p.value? k ∧ q.origin k = p.origin k) ∧
    ∀ c, s.merge = .error c ↔
      ∃ before k after project global a b,
        Setting.all = before ++ k :: after ∧ (∀ j ∈ before, (s.stated j).Settled) ∧
        s.overrides.settings.get? k = none ∧ s.project = some project ∧ s.global = some global ∧
        project.settings.get? k = some a ∧ global.settings.get? k = some b ∧ ¬ a.Same b ∧
        c = ⟨k, a.text, project.path, b.text, global.path⟩ := by
  refine ⟨Sources.exists_merge_iff, fun p => Sources.outcome_of_merge, ?_, ?_⟩
  · intro p merged t q other k same
    have first := Sources.outcome_of_merge merged k
    have second := Sources.outcome_of_merge other k
    rw [same, ← first] at second
    exact ⟨congrArg Prod.fst second, congrArg Prod.snd second⟩
  · intro c
    rw [Sources.merge_eq_error_iff, List.findSome?_eq_some_iff]
    simp only [Sources.conflictOver?_eq_some_iff, Sources.conflictOver?_eq_none_iff]
    constructor
    · rintro ⟨before, k, after, order, ⟨unstated, project, global, a, b, found⟩, settled⟩
      obtain ⟨isProject, isGlobal, isA, isB, differ, rfl⟩ := found
      exact ⟨before, k, after, project, global, a, b, order, settled, unstated, isProject, isGlobal,
        isA, isB, differ, rfl⟩
    · rintro ⟨before, k, after, project, global, a, b, order, settled, unstated, found⟩
      exact ⟨before, k, after, order, ⟨unstated, project, global, a, b, found⟩, settled⟩

end Linkage.Policy
