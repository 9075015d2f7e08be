import Linkage.Proofs.Policy.Audit
import Linkage.Proofs.Policy.Exchange

/-!
Rights only grow with what grants them. A target may be called when it passes every step of the
gate, and each list is looked at in one direction: more roles and more patterns on the allowlist
cannot make a step fail that was passed, more patterns on the denylist or among the sensitive
targets cannot make one pass that failed.
-/
namespace Linkage.Policy

namespace Pattern

/-- What is covered by some patterns is covered by more of them. -/
theorem anyCovers_mono {xs ys : List String} {target : String} (more : xs ⊆ ys)
    (covered : anyCovers xs target = true) : anyCovers ys target = true := by
  obtain ⟨text, member, p, isPattern, covers⟩ := anyCovers_iff.mp covered
  exact anyCovers_iff.mpr ⟨text, more member, p, isPattern, covers⟩

end Pattern

namespace Actor

/-- The actor has one of the roles, unless none is asked for. -/
def Clears (a : Actor) (required : List String) : Prop := required = [] ∨ a.hasAny required = true

theorem Clears.mono {a : Actor} {required roles : List String} (clears : a.Clears required)
    (more : a.roles ⊆ roles) : { a with roles }.Clears required := by
  refine clears.imp_right fun has => ?_
  obtain ⟨role, asked, own, held, same⟩ := hasAny_iff.mp has
  exact hasAny_iff.mpr ⟨role, asked, own, more held, same⟩

end Actor

namespace Effective
variable {p : Effective} {target : String} {a : Actor}

/-- A target passes every step of the gate. -/
structure Passes (p : Effective) (target : String) (a : Actor) : Prop where
  undenied : ¬ Pattern.anyCovers p.denylist target = true
  declared : p.mode = .strict → Pattern.anyCovers p.allowlist target = true
  acknowledged : p.mode = .broad → p.ackRisk = true
  general : a.Clears p.requiredRoles
  stricter : p.isSensitive target = true → a.Clears p.sensitiveRequiredRoles
  approved : p.needsApproval target = true → p.approves a = true

/-- The steps are taken one after another, and each may find a reason. -/
theorem reason_eq_none_iff {c : Prop} [Decidable c] {code : String} {later : Option String} :
    (if c then some code else later) = none ↔ ¬ c ∧ later = none := by
  by_cases found : c
  · simp [found]
  · simp [found]

/-- There is no reason to deny a target exactly when it passes every step. -/
theorem denial?_eq_none_iff : p.denial? target a = none ↔ p.Passes target a := by
  rw [← Option.map_eq_none_iff (f := Denial.code), map_code_denial?]
  simp only [reason_eq_none_iff, and_true]
  constructor
  · rintro ⟨undenied, declared, acknowledged, general, stricter, approved⟩
    exact {
      undenied
      declared := by simpa using declared
      acknowledged := by simpa using acknowledged
      general := by simpa [Actor.Clears, or_iff_not_imp_left] using general
      stricter := by simpa [Actor.Clears, or_iff_not_imp_left] using stricter
      approved := by simpa using approved }
  · intro passes
    have general := passes.general
    have stricter := passes.stricter
    refine ⟨passes.undenied, by simpa using passes.declared, by simpa using passes.acknowledged,
      ?_, ?_, by simpa using passes.approved⟩
    · simpa [Actor.Clears, or_iff_not_imp_left] using general
    · simpa [Actor.Clears, or_iff_not_imp_left] using stricter

/-- Fewer denied and fewer sensitive targets, more allowed ones and more roles keep a pass. -/
theorem Passes.relaxed (passes : p.Passes target a)
    {denylist allowlist sensitiveTargets roles : List String} (fewerDenied : denylist ⊆ p.denylist)
    (moreAllowed : p.allowlist ⊆ allowlist) (fewerSensitive : sensitiveTargets ⊆ p.sensitiveTargets)
    (moreRoles : a.roles ⊆ roles) :
    { p with denylist, allowlist, sensitiveTargets }.Passes target { a with roles } where
  undenied covered := passes.undenied (Pattern.anyCovers_mono fewerDenied covered)
  declared strict := Pattern.anyCovers_mono moreAllowed (passes.declared strict)
  acknowledged := passes.acknowledged
  general := passes.general.mono moreRoles
  stricter sensitive :=
    (passes.stricter (Pattern.anyCovers_mono fewerSensitive sensitive)).mono moreRoles
  approved needed := by
    -- Whether an approval is needed looks at the sensitive targets, whether it counts does not.
    simp only [needsApproval, Bool.and_eq_true, isSensitive] at needed
    refine passes.approved ?_
    simp only [needsApproval, Bool.and_eq_true, isSensitive]
    exact ⟨⟨needed.1.1, Pattern.anyCovers_mono fewerSensitive needed.1.2⟩, needed.2⟩

end Effective

namespace Gate
variable {σ : Type}

/-- The gate lets a target through. -/
def Allows (sinks : Journal → Sinks σ) (stamp : String) (g : Gate) (target : String) (a : Actor)
    (w : σ) : Prop :=
  ∃ r, (g.authorize sinks stamp target a w).1 = .ok r

/-- The gate gives a reason against a target. A ruling that is not written down is none. -/
def Denies (sinks : Journal → Sinks σ) (stamp : String) (g : Gate) (target : String) (a : Actor)
    (w : σ) : Prop :=
  ∃ denial, (g.authorize sinks stamp target a w).1 = .error (.denied target denial)

variable {sinks : Journal → Sinks σ} {stamp target : String} {g : Gate} {a : Actor} {w : σ}

theorem Allows.denial? (allows : g.Allows sinks stamp target a w) :
    g.policy.denial? target a = none := by
  obtain ⟨r, answered⟩ := allows
  rcases g.authorize_cases sinks stamp target a w with ⟨fault, t, result, _⟩ | ⟨journal, t, result⟩
  · rw [result] at answered
    cases answered
  · rw [result, answer] at answered
    split at answered
    next ruled => exact ruled
    next => cases answered

theorem Denies.denial? (denies : g.Denies sinks stamp target a w) :
    g.policy.denial? target a ≠ none := by
  obtain ⟨denial, answered⟩ := denies
  rcases g.authorize_cases sinks stamp target a w with ⟨fault, t, result, _⟩ | ⟨journal, t, result⟩
  · rw [result] at answered
    cases answered
  · rw [result, answer] at answered
    split at answered
    next => cases answered
    next found ruled =>
      have denied : g.policy.denial? target a = some found := ruled
      rw [denied]
      exact Option.some_ne_none found

end Gate

/-- Authorization is monotone. With more roles and a longer allowlist a target that is allowed stays
allowed, and with a longer denylist and more sensitive targets one that is denied stays denied. So
no gate turns an allow into a deny or a deny into an allow, whatever its journal does. -/
theorem authorization_monotone (p : Effective) (target : String) (a : Actor)
    {roles allowlist denylist sensitiveTargets : List String} (moreRoles : a.roles ⊆ roles)
    (moreAllowed : p.allowlist ⊆ allowlist) (moreDenied : p.denylist ⊆ denylist)
    (moreSensitive : p.sensitiveTargets ⊆ sensitiveTargets) :
    let eased : Effective := { p with allowlist }
    let tightened : Effective := { p with denylist, sensitiveTargets }
    (p.denial? target a = none → eased.denial? target { a with roles } = none) ∧
    (p.denial? target a ≠ none → tightened.denial? target a ≠ none) ∧
    ∀ {σ : Type} (sinks : Journal → Sinks σ) (stamp : String) (g h : Gate) (v w : σ),
      g.policy = p →
      (g.Allows sinks stamp target a v → h.policy = eased →
        ¬ h.Denies sinks stamp target { a with roles } w) ∧
      (g.Denies sinks stamp target a v → h.policy = tightened →
        ¬ h.Allows sinks stamp target a w) := by
  intro eased tightened
  have allow (allowed : p.denial? target a = none) :
      eased.denial? target { a with roles } = none := by
    rw [Effective.denial?_eq_none_iff] at allowed ⊢
    exact allowed.relaxed (List.Subset.refl _) moreAllowed (List.Subset.refl _) moreRoles
  have deny (denied : p.denial? target a ≠ none) : tightened.denial? target a ≠ none := by
    -- What passes the tightened policy passes the given one, which relaxes it.
    refine mt (fun passed => ?_) denied
    rw [Effective.denial?_eq_none_iff] at passed ⊢
    exact passed.relaxed moreDenied (List.Subset.refl _) moreSensitive (List.Subset.refl _)
  refine ⟨allow, deny, fun sinks stamp g h v w governed => ⟨?_, ?_⟩⟩
  · intro allows same denies
    have allowed := allows.denial?
    rw [governed] at allowed
    exact denies.denial? (same ▸ allow allowed)
  · intro denies same allows
    have denied := denies.denial?
    rw [governed] at denied
    exact deny denied (same ▸ allows.denial?)

/-- A policy with a step of every kind. -/
def bank : Effective :=
  { (default : Effective) with
    mode := .strict
    requiredRoles := ["dev"]
    sensitiveTargets := ["demo.Bank"]
    sensitiveRequiredRoles := ["auditor", "teller"]
    approvalRequired := true
    approvalToken := some "ticket"
    denylist := ["demo.Bank#close"]
    allowlist := ["demo.Bank"] }

def teller : Actor := ⟨["DEV", "teller"], some "ticket"⟩

theorem authorization_monotone_bank :
    bank.denial? "demo.Bank#pay" teller = none ∧
    { bank with allowlist := ["demo.Till*", "demo.Bank"] }.denial? "demo.Bank#pay"
      { teller with roles := ["guest", "teller", "DEV"] } = none ∧
    bank.denial? "demo.Bank#close" teller ≠ none ∧
    { bank with
      denylist := [" ", "demo.Bank#close"]
      sensitiveTargets := ["demo.*", "demo.Bank"] }.denial? "demo.Bank#close" teller ≠ none := by
  have moreRoles : teller.roles ⊆ ["guest", "teller", "DEV"] := by decide
  have moreAllowed : bank.allowlist ⊆ ["demo.Till*", "demo.Bank"] := by decide
  have moreDenied : bank.denylist ⊆ [" ", "demo.Bank#close"] := by decide
  have moreSensitive : bank.sensitiveTargets ⊆ ["demo.*", "demo.Bank"] := by decide
  have allowed : bank.denial? "demo.Bank#pay" teller = none := by decide +kernel
  have denied : bank.denial? "demo.Bank#close" teller ≠ none := by decide +kernel
  obtain ⟨allow, _, _⟩ := authorization_monotone bank "demo.Bank#pay" teller moreRoles moreAllowed
    moreDenied moreSensitive
  obtain ⟨_, deny, _⟩ := authorization_monotone bank "demo.Bank#close" teller moreRoles moreAllowed
    moreDenied moreSensitive
  exact ⟨allowed, allow allowed, denied, deny denied⟩

end Linkage.Policy
