import Linkage.Proofs.Call.Reaching
import Linkage.Proofs.Call.Selection
import Linkage.Proofs.Call.Stages
import Linkage.Proofs.View.Ancestry

/-!
Two overloads that take one object each, where the class of one lies below that of the other. An
object costs as many steps as lead from its class up to the parameter's, and the cost decides before
specificity does. So the narrower overload is chosen unless a shorter chain leads to the wider
class; only at equal costs it is chosen for being the narrower one. An optional is never cheaper
than a class above the object, since an object has to be wrapped for it.
-/
namespace Linkage.Call

open Outcome

/-- A public static method with one parameter, which has a class. -/
structure TakesClass (c : Candidate) (className : String) : Prop where
  isPublic : c.member.isPublic = true
  isStatic : c.member.isStatic = true
  parameter : ∃ args, c.parameters = [.reference className args]

/-- A target is bound to a candidate. -/
def Resolution.BindsTo (r : Resolution) (c : Candidate) : Prop :=
  r.owner = c.declaring.name ∧ r.name = c.member.name ∧ r.descriptor = c.member.descriptor ∧
    r.parameters = c.parameters

/-- The rank of one argument that is passed as it is, so many steps up. -/
def stepsRank (count : Nat) : ℕ ×ₗ ℕ ×ₗ Bool := toLex (0, toLex (count, false))

theorem stepsRank_le {count other : Nat} : stepsRank count ≤ stepsRank other ↔ count ≤ other := by
  simp [stepsRank, Prod.Lex.toLex_lt_toLex, le_iff_lt_or_eq]

theorem phase_le_latestPhase {passings : List Passing} {p : Passing} (inside : p ∈ passings) :
    p.conversion.cost.phase ≤ latestPhase passings :=
  List.le_max_of_le (List.mem_map_of_mem inside) le_rfl

section Candidates
variable {v : ClassView} {actual className : String} {c : Candidate} {a : Applied}

/-- An object reaches a class above its own at the cost of their distance. -/
theorem classify_object (args : List Ty) {depth : Nat}
    (above : v.distance actual className = some depth) (plain : className ≠ optionalClass) :
    ∃ rule, classify v (.object actual) (.reference className args) = .ok ⟨rule, ⟨0, depth⟩⟩ := by
  rw [classify, if_neg fun wrapped => plain wrapped.1, classifyClass]
  cases depth with
  | zero => exact ⟨.identity, by simp only [above]; rfl⟩
  | succ depth =>
    refine ⟨.referenceWidening, ?_⟩
    simp only [above, Conversion.via, Rule.phase, Rule.baseCost, Nat.add_comm]

theorem classify_optional {args : List Ty} {conversion : Conversion}
    (other : actual ≠ optionalClass)
    (reaches : classify v (.object actual) (.reference optionalClass args) = .ok conversion) :
    conversion.cost.phase = 2 := by
  rw [classify, if_pos ⟨rfl, by simpa using other⟩, if_neg (by simp)] at reaches
  split at reaches
  · cases reaches
    rfl
  · cases reaches

theorem TakesClass.callable (takes : TakesClass c className) : Callable .staticMethod 1 c := by
  obtain ⟨args, parameters⟩ := takes.parameter
  refine ⟨.inl ?_, takes.isPublic, fun _ => takes.isStatic⟩
  rw [← c.length_parameters, parameters, List.length_singleton]

/-- What a candidate makes of an object below the class of its parameter. -/
theorem TakesClass.taken (takes : TakesClass c className) {depth : Nat}
    (above : v.distance actual className = some depth) (plain : className ≠ optionalClass) :
    ∃ a, Taken v .staticMethod [.object actual] c a ∧ a.candidate = c ∧ a.rank = stepsRank depth ∧
      a.argumentTypes 1 = c.parameters := by
  obtain ⟨args, parameters⟩ := takes.parameter
  obtain ⟨rule, reaches⟩ := classify_object args above plain
  have passes : Passes v 0 c.parameters [.object actual]
      [⟨0, .reference className args, .object actual, ⟨rule, ⟨0, depth⟩⟩⟩] := by
    rw [parameters]
    exact .cons reaches .nil
  refine ⟨_, ⟨takes.callable, .fixed passes⟩, rfl, ?_, rfl⟩
  simp [Applied.rank, latestPhase, summedAmount, stepsRank]

/-- An object is wrapped for an optional, whether it is spread or not. -/
theorem TakesClass.later_of_optional (takes : TakesClass c optionalClass)
    (other : actual ≠ optionalClass) (taken : Taken v .staticMethod [.object actual] c a)
    (count : Nat) : stepsRank count < a.rank := by
  have late : ∃ p ∈ a.passings, p.conversion.cost.phase = 2 := by
    obtain ⟨args, parameters⟩ := takes.parameter
    cases taken.2 with
    | fixed passes =>
      rw [parameters] at passes
      cases passes with
      | cons reaches _ => exact ⟨_, List.mem_cons_self, classify_optional other reaches⟩
    | spread => exact ⟨gathering c, by simp, rfl⟩
  obtain ⟨p, inside, wrapped⟩ := late
  have behind := phase_le_latestPhase inside
  exact Prod.Lex.toLex_lt_toLex.mpr (.inl (by dsimp only; omega))

theorem sharper_of_below {below above : String} {args args' : List Ty}
    (under : v.isSubtype below above = true) (proper : v.isSubtype above below = false) :
    Sharper v [.reference below args] [.reference above args'] := by
  have differ : below ≠ above := by
    rintro rfl
    rw [v.isSubtype_refl] at proper
    cases proper
  have more : moreSpecificType v (.reference below args) (.reference above args') = true := by
    simp [moreSpecificType, differ, under, proper]
  refine ⟨.cons (.inr more) .nil, _, _, List.mem_singleton.mpr rfl, ?_, more⟩
  simpa [Ty.erasure, Ty.named] using differ

/-- One of two candidates is chosen when the other ranks behind it or is less specific. -/
theorem chosen_of_pair {kind : Binding} {candidates : List Candidate} {shapes : List Shape}
    {other : Candidate} (pair : candidates.Perm [c, other]) (taken : Taken v kind shapes c a)
    (rival : ∀ b, Taken v kind shapes other b → a.rank ≤ b.rank ∧ (a.rank = b.rank →
      Sharper v (a.argumentTypes shapes.length) (b.argumentTypes shapes.length))) :
    Chosen v kind candidates shapes a := by
  refine ⟨c, taken, standsOut_iff_perm.mpr ⟨[other], pair, ?_⟩⟩
  intro b among
  obtain rfl := List.mem_singleton.mp among
  exact rival

/-- A call of a static method is bound to the candidate that is chosen. -/
theorem resolve_of_chosen {t : Target} {owner : Classpath.Record} {shapes : List Shape}
    (static : t.kind = .staticMethod) (held : v.lookup t.owner = some owner)
    (chosen : Chosen v .staticMethod (methodsOf v owner.name t.member) shapes a)
    (receiver : Option String) : resolve v t receiver shapes = .ok (bind t a) := by
  obtain ⟨c, -, place⟩ := id chosen
  have some : (methodsOf v owner.name t.member).isEmpty = false := by
    simpa using List.ne_nil_of_mem place.mem
  have bound : resolveMethod v t owner shapes = .ok (bind t a) := by
    rw [resolveMethod_eq, bindOne, some, static, select_of_chosen chosen]
    rfl
  have start : searchStart v t receiver = .ok owner := by
    rw [searchStart, (classOf_eq_ok_iff v).mpr held, static]
    rfl
  rw [resolve_method_eq v shapes (by rw [static]; rfl) (by rw [static]; decide), start]
  exact mapError_eq_ok_iff.mpr bound

end Candidates

/-- A chain of supertypes leads from a class to another and is shorter than all that lead to a
third. -/
def Nearer (v : ClassView) (actual wide narrow : String) : Prop :=
  ∃ count, Steps v.supertypes actual wide count ∧
    ∀ other, Steps v.supertypes actual narrow other → count < other

/-- A class above one that is reached lies at some distance too, and at a lesser one only where it
is nearer: the root class without a chain to it lies behind everything that is reached. -/
theorem distance_above {v : ClassView} {actual narrow wide : String} {depth : Nat}
    (shortest : IsLeast {count | Steps v.supertypes actual narrow count} depth)
    (under : v.isSubtype narrow wide = true) :
    ∃ depth', v.distance actual wide = some depth' ∧
      (depth' < depth ↔ Nearer v actual wide narrow) := by
  by_cases reached : ∃ count, Steps v.supertypes actual wide count
  · obtain ⟨depth', shortest'⟩ := reached.choose_spec.exists_shortest
    refine ⟨depth', v.distance_of_shortest shortest', ?_⟩
    constructor
    · intro less
      exact ⟨depth', shortest'.1, fun other steps => less.trans_le (shortest.2 steps)⟩
    · rintro ⟨count, steps, ahead⟩
      exact (shortest'.2 steps).trans_lt (ahead depth shortest.1)
  · have root : wide = objectClass := by
      refine (v.isSubtype_iff.mp under).resolve_left ?_
      rintro ⟨count, steps⟩
      exact reached ⟨_, shortest.1.trans steps⟩
    refine ⟨v.deepest actual + 1, ?_, ?_⟩
    · rw [v.distance_of_unreached (not_exists.mp reached), if_pos root]
    · have behind := v.le_deepest (v.mem_ancestry_iff.mpr shortest)
      refine iff_of_false (by omega) ?_
      rintro ⟨count, steps, _⟩
      exact reached ⟨count, steps⟩

/-- A static target that has two overloads with one class each, one below the other. -/
structure Overloaded (v : ClassView) (t : Target) (narrow wide : Candidate)
    (below above : String) : Prop where
  static : t.kind = .staticMethod
  candidates : ∃ owner, v.lookup t.owner = some owner ∧
    (methodsOf v owner.name t.member).Perm [narrow, wide]
  narrowTakes : TakesClass narrow below
  wideTakes : TakesClass wide above
  under : v.isSubtype below above = true
  proper : v.isSubtype above below = false

section Overloaded
variable {v : ClassView} {t : Target} {narrow wide : Candidate} {actual below above : String}

/-- The root class is below no other, so a chain leads to the narrower class. -/
theorem Overloaded.shortest (two : Overloaded v t narrow wide below above)
    (inside : v.isSubtype actual below = true) :
    ∃ depth, IsLeast {count | Steps v.supertypes actual below count} depth := by
  have chain : ∃ count, Steps v.supertypes actual below count := by
    refine (v.isSubtype_iff.mp inside).resolve_right ?_
    rintro rfl
    have root := v.isSubtype_objectClass above
    rw [two.proper] at root
    cases root
  obtain ⟨count, steps⟩ := chain
  exact steps.exists_shortest

theorem Overloaded.binds_wide (two : Overloaded v t narrow wide below above)
    (inside : v.isSubtype actual below = true) (plain : below ≠ optionalClass)
    (plain' : above ≠ optionalClass) (nearer : Nearer v actual above below)
    (receiver : Option String) :
    ∃ r, resolve v t receiver [.object actual] = .ok r ∧ r.BindsTo wide := by
  obtain ⟨owner, held, pair⟩ := two.candidates
  obtain ⟨depth, shortest⟩ := two.shortest inside
  obtain ⟨depth', distance', less⟩ := distance_above shortest two.under
  obtain ⟨a, taken, -, rank, -⟩ := two.narrowTakes.taken (v.distance_of_shortest shortest) plain
  obtain ⟨b, taken', is_wide, rank', -⟩ := two.wideTakes.taken distance' plain'
  have ahead : b.rank < a.rank := by
    rw [rank, rank', lt_iff_not_ge, stepsRank_le, not_le]
    exact less.mpr nearer
  have chosen : Chosen v .staticMethod (methodsOf v owner.name t.member) [.object actual] b := by
    refine chosen_of_pair (pair.trans (.swap _ _ _)) taken' ?_
    intro rival takes
    obtain rfl := takes.2.unique taken.2
    exact ⟨ahead.le, fun same => absurd same ahead.ne⟩
  refine ⟨bind t b, resolve_of_chosen two.static held chosen receiver, ?_⟩
  rw [← is_wide]
  exact ⟨rfl, rfl, rfl, rfl⟩

theorem Overloaded.binds_narrow (two : Overloaded v t narrow wide below above)
    (inside : v.isSubtype actual below = true) (plain : below ≠ optionalClass)
    (other : ¬ (above ≠ optionalClass ∧ Nearer v actual above below)) (receiver : Option String) :
    ∃ r, resolve v t receiver [.object actual] = .ok r ∧ r.BindsTo narrow := by
  obtain ⟨owner, held, pair⟩ := two.candidates
  obtain ⟨depth, shortest⟩ := two.shortest inside
  obtain ⟨a, taken, is_narrow, rank, types⟩ :=
    two.narrowTakes.taken (v.distance_of_shortest shortest) plain
  have chosen : Chosen v .staticMethod (methodsOf v owner.name t.member) [.object actual] a := by
    refine chosen_of_pair pair taken ?_
    intro rival takes
    by_cases wrapped : above = optionalClass
    · have differ : actual ≠ optionalClass := by
        rintro rfl
        have back := two.proper
        rw [wrapped, inside] at back
        cases back
      have behind := (wrapped ▸ two.wideTakes).later_of_optional differ takes depth
      rw [← rank] at behind
      exact ⟨behind.le, fun same => absurd same behind.ne⟩
    · obtain ⟨depth', distance', less⟩ := distance_above shortest two.under
      obtain ⟨b, taken', -, rank', types'⟩ := two.wideTakes.taken distance' wrapped
      obtain rfl := takes.2.unique taken'.2
      obtain ⟨args, parameters⟩ := two.narrowTakes.parameter
      obtain ⟨args', parameters'⟩ := two.wideTakes.parameter
      constructor
      · rw [rank, rank', stepsRank_le, ← not_lt, less]
        exact fun nearer => other ⟨wrapped, nearer⟩
      · intro _
        rw [List.length_singleton, types, types', parameters, parameters']
        exact sharper_of_below two.under two.proper
  refine ⟨bind t a, resolve_of_chosen two.static held chosen receiver, ?_⟩
  rw [← is_narrow]
  exact ⟨rfl, rfl, rfl, rfl⟩

end Overloaded

/-- Of two static overloads for an object, one with a class below the other's, the wider one is
bound where its class is nearer to the object's own and is no optional; else the narrower one is. -/
theorem overload_by_steps (v : ClassView) (t : Target) (receiver : Option String)
    (narrow wide : Candidate) (actual below above : String)
    (two : Overloaded v t narrow wide below above) (inside : v.isSubtype actual below = true)
    (plain : below ≠ optionalClass) :
    (above ≠ optionalClass ∧ Nearer v actual above below →
      ∃ r, resolve v t receiver [.object actual] = .ok r ∧ r.BindsTo wide) ∧
    (¬ (above ≠ optionalClass ∧ Nearer v actual above below) →
      ∃ r, resolve v t receiver [.object actual] = .ok r ∧ r.BindsTo narrow) :=
  ⟨fun nearer => two.binds_wide inside plain nearer.1 nearer.2 receiver,
    fun other => two.binds_narrow inside plain other receiver⟩

/-! Two hierarchies: in one the wider class is declared again next to the narrower one, in the other
it is the superclass, which is nearer than an interface behind an interface. -/

private def declared (name : String) (flags : Nat) (interfaces : List String)
    (members : List Member) : String × Classpath.Record :=
  (name, ⟨name, default, .base, false,
    ⟨name, ⟨flags⟩, some objectClass, interfaces, members, []⟩⟩)

private def taking (className descriptor : String) : Member :=
  ⟨"take", .method, ⟨9⟩, descriptor, [.named className], .void, none⟩

private def takeShape : Member := taking "demo.Shape" "(Ldemo/Shape;)V"

private def takeThing : Member := taking "demo.Thing" "(Ldemo/Thing;)V"

private def takeObject : Member := taking objectClass "(Ljava/lang/Object;)V"

private def takersWith (wide : Member) : String × Classpath.Record :=
  declared "demo.Takers" 1 [] [takeShape, wide]

private def overload (wide m : Member) : Candidate := ⟨(takersWith wide).2.stub, m⟩

private def takeTarget : Target := ⟨"demo.Takers", "take", .staticMethod⟩

private def drawn : ClassView :=
  ⟨.shared, 21, [declared "demo.Thing" 0x601 [] [], declared "demo.Shape" 0x601 ["demo.Thing"] [],
    declared "demo.Circle" 1 ["demo.Shape", "demo.Thing"] [], takersWith takeThing], [], [], []⟩

private def rounded : ClassView :=
  ⟨.shared, 21, [declared "demo.Shape" 0x601 [] [], declared "demo.Round" 0x601 ["demo.Shape"] [],
    declared "demo.Circle" 1 ["demo.Round"] [], takersWith takeObject], [], [], []⟩

private theorem drawn_overloaded : Overloaded drawn takeTarget (overload takeThing takeShape)
    (overload takeThing takeThing) "demo.Shape" "demo.Thing" where
  static := rfl
  candidates := ⟨_, rfl, by decide +kernel⟩
  narrowTakes := ⟨rfl, rfl, _, rfl⟩
  wideTakes := ⟨rfl, rfl, _, rfl⟩
  under := by decide +kernel
  proper := by decide +kernel

/-- A class that is one step away on both ways is taken as the narrower one. -/
theorem overload_by_steps_tied :
    Overloaded drawn takeTarget (overload takeThing takeShape) (overload takeThing takeThing)
        "demo.Shape" "demo.Thing" ∧
      drawn.isSubtype "demo.Circle" "demo.Shape" = true ∧ "demo.Shape" ≠ optionalClass ∧
      ¬ Nearer drawn "demo.Circle" "demo.Thing" "demo.Shape" ∧
      ∃ r, resolve drawn takeTarget none [.object "demo.Circle"] = .ok r ∧
        r.BindsTo (overload takeThing takeShape) := by
  have inside : drawn.isSubtype "demo.Circle" "demo.Shape" = true := by decide +kernel
  have plain : "demo.Shape" ≠ optionalClass := by decide
  have tied : ¬ Nearer drawn "demo.Circle" "demo.Thing" "demo.Shape" := by
    rintro ⟨count, steps, ahead⟩
    have one : 1 ≤ count := drawn.distance_le steps (by decide +kernel)
    have less : count < 1 := ahead 1 (.onward .start (by decide +kernel))
    omega
  exact ⟨drawn_overloaded, inside, plain, tied,
    (overload_by_steps _ _ none _ _ _ _ _ drawn_overloaded inside plain).2
      fun nearer => tied nearer.2⟩

private theorem rounded_overloaded : Overloaded rounded takeTarget (overload takeObject takeShape)
    (overload takeObject takeObject) "demo.Shape" objectClass where
  static := rfl
  candidates := ⟨_, rfl, by decide +kernel⟩
  narrowTakes := ⟨rfl, rfl, _, rfl⟩
  wideTakes := ⟨rfl, rfl, _, rfl⟩
  under := by decide +kernel
  proper := by decide +kernel

/-- The classes of the hierarchy and of the platform, supertypes first; all others come behind. -/
private def upwards : List String :=
  [objectClass, "java.lang.CharSequence", "java.lang.Comparable", "java.io.Serializable",
    "java.lang.Number", iterableClass, collectionClass, listClass, setClass, mapClass,
    "demo.Shape", "demo.Round"]

private theorem rounded_acyclic : rounded.Acyclic := by
  have declared : ∀ e ∈ rounded.library ++ rounded.program,
      ∀ above ∈ e.2.stub.superClass.toList ++ e.2.stub.interfaces,
        upwards.idxOf above < upwards.idxOf e.1 := by decide +kernel
  have known : ∀ e ∈ platformSupertypes, ∀ above ∈ e.2,
      upwards.idxOf above < upwards.idxOf e.1 := by decide +kernel
  refine rounded.acyclic_of_rank upwards.idxOf ?_
  intro name above step
  rcases rounded.mem_supertypes step with ⟨e, inside, rfl, listed⟩ | ⟨e, inside, rfl, listed⟩
  · exact declared e inside above listed
  · exact known e inside above listed

/-- The superclass is one step away and the interface two: the wider overload is bound, though the
hierarchy has no cycle. -/
theorem wider_overload_bound :
    ¬ ∀ (v : ClassView) (t : Target) (receiver : Option String) (narrow wide : Candidate)
      (actual below above : String), v.Acyclic → Overloaded v t narrow wide below above →
      v.isSubtype actual below = true → below ≠ optionalClass →
      ∃ r, resolve v t receiver [.object actual] = .ok r ∧ r.BindsTo narrow := by
  intro always
  have inside : rounded.isSubtype "demo.Circle" "demo.Shape" = true := by decide +kernel
  have plain : "demo.Shape" ≠ optionalClass := by decide
  have nearer : Nearer rounded "demo.Circle" objectClass "demo.Shape" := by
    refine ⟨1, .onward .start (by decide +kernel), ?_⟩
    intro other steps
    exact rounded.distance_le steps (by decide +kernel)
  obtain ⟨r, answer, -, -, narrow, -⟩ :=
    always _ _ none _ _ "demo.Circle" _ _ rounded_acyclic rounded_overloaded inside plain
  obtain ⟨r', answer', -, -, wide, -⟩ :=
    rounded_overloaded.binds_wide inside plain (by decide) nearer none
  obtain rfl := Except.ok.inj (answer.symm.trans answer')
  exact absurd (narrow.symm.trans wide) (by decide)

end Linkage.Call
