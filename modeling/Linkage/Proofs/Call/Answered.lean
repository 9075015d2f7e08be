import Linkage.Proofs.Call.Overriding
import Linkage.Proofs.Call.Resolved

/-!
What a resolution keeps of the target that it answers. The target stands in it, the kind of binding
is known by the instruction, and unless a constructor is bound the member has the name that the
target gives. So the target's text tells, with the name and the instruction, which target was
resolved, also among targets that are written alike.
-/
namespace Linkage.Call

open Outcome

/-- The kind of binding that an instruction carries out. -/
def Instruction.kind : Instruction → Binding
  | .invokeStatic => .staticMethod
  | .invokeSpecial => .constructor
  | .invokeVirtual | .invokeInterface => .instanceMethod
  | .getStatic => .staticGet
  | .putStatic => .staticSet
  | .getField => .instanceGet
  | .putField => .instanceSet

theorem Instruction.text_inj {a b : Instruction} : a.text = b.text ↔ a = b := by
  constructor
  · cases a <;> cases b <;> decide
  · exact congrArg Instruction.text

theorem fieldInstruction_kind {kind : Binding} (field : kind.isField = true) :
    (fieldInstruction kind).kind = kind := by
  cases kind with
  | staticGet | staticSet | instanceGet | instanceSet => rfl
  | staticMethod | constructor | instanceMethod => cases field

/-- A resolution shows which target it is for. -/
structure Resolution.Answers (r : Resolution) (t : Target) : Prop where
  target : r.target = t
  kind : r.instruction.kind = t.kind
  name : t.kind ≠ .constructor → r.name = t.member

section Resolve
variable {v : ClassView} {t : Target} {shapes : List Shape} {r : Resolution}

theorem Applies.candidate_eq {c : Candidate} {a : Applied} (applies : Applies v shapes c a) :
    a.candidate = c := by
  cases applies <;> rfl

theorem bind_answers {a : Applied} (callable : t.kind.isField = false)
    (named : t.kind ≠ .constructor → a.candidate.member.name = t.member) :
    (bind t a).Answers t where
  target := rfl
  name := named
  kind := by
    unfold bind
    cases kind : t.kind with
    | staticMethod | constructor => rfl
    | instanceMethod =>
      dsimp only
      split <;> rfl
    | staticGet | staticSet | instanceGet | instanceSet =>
      rw [kind] at callable
      cases callable

theorem bindOne_answers {candidates : List Candidate} {missing : Cause}
    (callable : t.kind.isField = false)
    (named : ∀ c ∈ candidates, t.kind ≠ .constructor → c.member.name = t.member)
    (answer : bindOne v t shapes candidates missing = .ok r) : r.Answers t := by
  obtain ⟨c, among, a, applies, rfl⟩ := exists_of_bindOne answer
  have own : a.candidate = c := applies.candidate_eq
  exact bind_answers callable (own ▸ named c among)

theorem name_of_mem_methodsOf {c : Candidate} {className name : String}
    (among : c ∈ methodsOf v className name) : c.member.name = name := by
  obtain ⟨_, _, _, _, declared, _⟩ := exists_first among
  have named := List.mem_of_mem_filter (mem_declaredIn.mp declared).2
  simpa using (List.mem_filter.mp named).2

theorem name_of_fieldOf? {c : Candidate} {className name : String}
    (found : fieldOf? v className name = some c) : c.member.name = name := by
  obtain ⟨ancestor, _, declared⟩ := List.exists_of_findSome?_eq_some found
  obtain ⟨stub, _, field⟩ := Option.bind_eq_some_iff.mp declared
  obtain ⟨m, first, rfl⟩ := Option.map_eq_some_iff.mp field
  simpa using (List.mem_filter.mp (List.mem_of_find?_eq_some first)).2

theorem resolveField_answers {start : Classpath.Record} (field : t.kind.isField = true)
    (answer : resolveField v t start shapes = .ok r) : r.Answers t := by
  simp only [resolveField] at answer
  split at answer
  · rename_i m found
    have named : m.name = t.member := name_of_fieldOf? found
    split at answer
    · cases answer
    split at answer
    · cases answer
    split at answer
    · obtain rfl := Except.ok.inj answer
      exact ⟨rfl, fieldInstruction_kind field, fun _ => named⟩
    · cases answer
    · cases answer
  · cases answer

theorem resolve_answers {receiver : Option String} (answer : resolve v t receiver shapes = .ok r) :
    r.Answers t := by
  by_cases field : t.kind.isField = true
  · simp only [resolve, field, if_true, mapError_eq_ok_iff] at answer
    obtain ⟨_, _, answer⟩ := bind_eq_ok_iff.mp answer
    obtain ⟨_, _, answer⟩ := bind_eq_ok_iff.mp answer
    exact resolveField_answers field answer
  have callable : t.kind.isField = false := Bool.eq_false_of_not_eq_true field
  by_cases constructs : t.kind = .constructor
  · rw [resolve_constructor_eq v shapes constructs, mapError_eq_ok_iff] at answer
    obtain ⟨_, _, answer⟩ := bind_eq_ok_iff.mp answer
    rw [resolveConstructor_eq] at answer
    split at answer
    · cases answer
    · exact bindOne_answers callable (fun _ _ other => absurd constructs other) answer
  · rw [resolve_method_eq v shapes callable constructs, mapError_eq_ok_iff] at answer
    obtain ⟨_, _, answer⟩ := bind_eq_ok_iff.mp answer
    rw [resolveMethod_eq] at answer
    exact bindOne_answers callable (fun _ among _ => name_of_mem_methodsOf among) answer

end Resolve

/-- What came of resolving a target on some view. -/
def Resolution.Given (r : Resolution) : Prop :=
  ∃ (v : ClassView) (owner member : String) (kind : Binding) (receiver : Option String)
    (shapes : List Shape), resolve v (.make owner member kind) receiver shapes = .ok r

namespace Resolution.Given
variable {r s : Resolution}

theorem kind_eq (given : r.Given) : r.instruction.kind = r.target.kind := by
  obtain ⟨v, owner, member, kind, receiver, shapes, answer⟩ := given
  have answers := resolve_answers answer
  rw [answers.target, answers.kind]

/-- The member of the target is known by the kind and the name. -/
theorem member_eq (given : r.Given) : r.target.member =
    if r.target.kind = .constructor then constructorName else r.name := by
  obtain ⟨v, owner, member, kind, receiver, shapes, answer⟩ := given
  have answers := resolve_answers answer
  rw [answers.target]
  split
  next constructs => exact if_pos constructs
  next other => exact (answers.name other).symm

theorem target_eq (given : r.Given) (other : s.Given) (text : r.target.text = s.target.text)
    (name : r.name = s.name) (instruction : r.instruction = s.instruction) :
    r.target = s.target := by
  have kind : r.target.kind = s.target.kind := by
    rw [← given.kind_eq, ← other.kind_eq, instruction]
  have member : r.target.member = s.target.member := by
    rw [given.member_eq, other.member_eq, kind, name]
  have binding : r.target.binding = s.target.binding := by
    rw [Target.binding, Target.binding, kind, member]
  have owner : r.target.owner = s.target.owner := by
    rw [Target.text, Target.text, binding] at text
    exact (String.append_left_inj _).mp ((String.append_left_inj _).mp text)
  calc
    r.target = ⟨r.target.owner, r.target.member, r.target.kind⟩ := rfl
    _ = ⟨s.target.owner, s.target.member, s.target.kind⟩ := by rw [owner, member, kind]
    _ = s.target := rfl

end Resolution.Given

end Linkage.Call
