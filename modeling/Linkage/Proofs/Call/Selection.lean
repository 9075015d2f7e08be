import Linkage.Proofs.Call.Choice

/-!
What the choice of an overload comes to. Candidates are described by what they declare, without the
steps of the search: which fit the number of arguments, which may be bound, how one takes the
arguments, and which of those that do is chosen. `select_outcome` says for each of these situations
what `select` answers.
-/
namespace Linkage.Call

namespace Candidate

/-- Where arguments can be spread, there is a parameter to spread them over. -/
def Declared (c : Candidate) : Prop := c.member.isVarargs = true → 0 < c.arity

/-- The number of arguments fits, one to one or with some of them spread. -/
def Fits (c : Candidate) (count : Nat) : Prop :=
  c.arity = count ∨ (c.member.isVarargs = true ∧ c.arity ≤ count + 1)

theorem fitsArity_iff (c : Candidate) (count : Nat) : c.fitsArity count = true ↔ c.Fits count := by
  simp [fitsArity, spreads, Fits]

theorem length_parameters (c : Candidate) : c.parameters.length = c.arity := by
  have same : c.member.genericParameters.length = c.member.parameters.length := by
    rw [Member.genericParameters]
    split
    · split
      · assumption
      · rfl
    · rfl
  rw [parameters, List.length_zipWith, same, Nat.min_self, arity]

theorem length_spreadParameters {c : Candidate} {count : Nat} (enough : c.arity ≤ count + 1) :
    (c.spreadParameters count).length = count := by
  simp only [spreadParameters, List.length_append, List.length_replicate, List.length_dropLast,
    length_parameters]
  omega

/-- The types that a refusal is about: the declared ones where their number fits, else those of
the spread. -/
def attempted (c : Candidate) (count : Nat) : List Ty :=
  if c.arity = count then c.parameters else c.spreadParameters count

end Candidate

/-- A member may be bound when it is public and static or not as the binding has it; a constructor
is neither. -/
def Bindable (kind : Binding) (m : Member) : Prop :=
  m.isPublic = true ∧ (kind ≠ .constructor → m.isStatic = kind.isStatic)

theorem defect?_eq_none_iff (kind : Binding) (m : Member) :
    defect? kind m = none ↔ Bindable kind m := by
  cases visible : m.isPublic with
  | false => simp [defect?, Bindable, visible]
  | true =>
    cases kind <;> cases static : m.isStatic <;>
      simp [defect?, Bindable, visible, static, Binding.isStatic]

/-- A candidate that fits the number of arguments and may be bound. -/
def Callable (kind : Binding) (count : Nat) (c : Candidate) : Prop :=
  c.Fits count ∧ Bindable kind c.member

/-- How a candidate takes the arguments: one to one where they all convert, else spread over its
last parameter. -/
inductive Applies (v : ClassView) (shapes : List Shape) (c : Candidate) : Applied → Prop where
  | fixed {passings : List Passing} (passes : Passes v 0 c.parameters shapes passings) :
      Applies v shapes c ⟨c, passings, false⟩
  | spread {passings : List Passing} (varargs : c.member.isVarargs = true)
      (positive : 0 < c.arity) (enough : c.arity ≤ shapes.length + 1)
      (unfixed : ∀ passings, ¬ Passes v 0 c.parameters shapes passings)
      (passes : Passes v 0 (c.spreadParameters shapes.length) shapes passings) :
      Applies v shapes c ⟨c, passings ++ [gathering c], true⟩

theorem Applies.unique {v : ClassView} {shapes : List Shape} {c : Candidate} {a b : Applied}
    (ha : Applies v shapes c a) (hb : Applies v shapes c b) : a = b := by
  cases ha with
  | fixed passes =>
    cases hb with
    | fixed passes' => rw [passes.unique passes']
    | spread _ _ _ unfixed _ => exact False.elim (unfixed _ passes)
  | spread _ _ _ unfixed passes =>
    cases hb with
    | fixed passes' => exact False.elim (unfixed _ passes')
    | spread _ _ _ _ passes' => rw [passes.unique passes']

section Apply
variable {v : ClassView} {shapes : List Shape} {c : Candidate}

theorem passAll_parameters_eq_ok_iff (same : c.arity = shapes.length) (passings : List Passing) :
    passAll v c.parameters shapes = .ok passings ↔ Passes v 0 c.parameters shapes passings :=
  passAll_eq_ok_iff (c.length_parameters.trans same) passings

theorem spreadOut_eq_ok_iff (enough : c.arity ≤ shapes.length + 1) (a : Applied) :
    spreadOut v c shapes = .ok a ↔ 0 < c.arity ∧ ∃ passings,
      Passes v 0 (c.spreadParameters shapes.length) shapes passings ∧
        a = ⟨c, passings ++ [gathering c], true⟩ := by
  have passed := passAll_eq_ok_iff (v := v) (Candidate.length_spreadParameters enough)
  rw [spreadOut]
  by_cases none_declared : c.arity = 0
  · simp [none_declared]
  rw [if_neg none_declared]
  cases outcome : passAll v (c.spreadParameters shapes.length) shapes with
  | error mismatches =>
    have refused : ∀ passings,
        ¬ Passes v 0 (c.spreadParameters shapes.length) shapes passings := by
      intro passings h
      rw [← passed, outcome] at h
      cases h
    simp [Except.map, refused]
  | ok passings =>
    have passes := (passed passings).mp outcome
    constructor
    · intro h
      exact ⟨by omega, passings, passes, (Except.ok.inj h).symm⟩
    · rintro ⟨_, others, h, rfl⟩
      rw [passes.unique h]
      rfl

theorem spreadOut_eq_error_iff (positive : 0 < c.arity) (mismatches : List (Nat × Mismatch)) :
    spreadOut v c shapes = .error mismatches ↔
      passAll v (c.spreadParameters shapes.length) shapes = .error mismatches := by
  rw [spreadOut, if_neg (by omega)]
  cases passAll v (c.spreadParameters shapes.length) shapes <;> simp [Except.map]

/-- The outcome of trying a candidate: how it takes the arguments, or the mismatches that it is
rejected for. -/
def Tried (v : ClassView) (shapes : List Shape) (c : Candidate) : Except Rejection Applied → Prop
  | .ok a => Applies v shapes c a
  | .error r => (∀ a, ¬ Applies v shapes c a) ∧ (c.Declared → r.mismatches ≠ [] ∧
      ∀ m, (∃ i, (i, m) ∈ r.mismatches) ↔ Mismatched v (c.attempted shapes.length) shapes m)

theorem tried_apply_fixed (same : c.arity = shapes.length) :
    Tried v shapes c (apply v shapes c) := by
  have enough : c.arity ≤ shapes.length + 1 := by omega
  have passed := passAll_parameters_eq_ok_iff (v := v) same
  simp only [apply, if_pos same]
  cases first : passAll v c.parameters shapes with
  | ok passings => exact .fixed ((passed passings).mp first)
  | error mismatches =>
    have unfixed : ∀ passings, ¬ Passes v 0 c.parameters shapes passings := by
      intro passings h
      rw [← passed, first] at h
      cases h
    have rejected : (∀ a, ¬ Applies v shapes c a) →
        Tried v shapes c (.error ⟨c.signature, mismatches⟩) := by
      intro refused
      refine ⟨refused, fun _ => ?_⟩
      rw [Candidate.attempted, if_pos same]
      exact mem_of_passAll_eq_error first
    cases varargs : c.member.isVarargs with
    | false =>
      have narrow : c.spreads shapes.length = false := by simp [Candidate.spreads, varargs]
      rw [narrow]
      apply rejected
      rintro a (passes | ⟨varargs', _, _, _, _⟩)
      · exact unfixed _ passes
      · rw [varargs] at varargs'
        cases varargs'
    | true =>
      have wide : c.spreads shapes.length = true := by simp [Candidate.spreads, varargs, enough]
      rw [wide]
      cases second : spreadOut v c shapes with
      | ok a =>
        obtain ⟨positive, passings, passes, rfl⟩ := (spreadOut_eq_ok_iff enough a).mp second
        exact .spread varargs positive enough unfixed passes
      | error _ =>
        apply rejected
        rintro a (passes | ⟨_, positive, _, _, passes⟩)
        · exact unfixed _ passes
        · rw [(spreadOut_eq_ok_iff enough _).mpr ⟨positive, _, passes, rfl⟩] at second
          cases second

theorem tried_apply_spread (differ : c.arity ≠ shapes.length) (varargs : c.member.isVarargs = true)
    (enough : c.arity ≤ shapes.length + 1) : Tried v shapes c (apply v shapes c) := by
  have unfixed : ∀ passings, ¬ Passes v 0 c.parameters shapes passings := by
    intro passings h
    exact differ (c.length_parameters.symm.trans h.length_types)
  have wide : c.spreads shapes.length = true := by simp [Candidate.spreads, varargs, enough]
  simp only [apply, if_neg differ, wide, if_true]
  cases second : spreadOut v c shapes with
  | ok a =>
    obtain ⟨positive, passings, passes, rfl⟩ := (spreadOut_eq_ok_iff enough a).mp second
    exact .spread varargs positive enough unfixed passes
  | error mismatches =>
    refine ⟨?_, fun declared => ?_⟩
    · rintro a (passes | ⟨_, positive, _, _, passes⟩)
      · exact unfixed _ passes
      · rw [(spreadOut_eq_ok_iff enough _).mpr ⟨positive, _, passes, rfl⟩] at second
        cases second
    · rw [Candidate.attempted, if_neg differ]
      exact mem_of_passAll_eq_error
        ((spreadOut_eq_error_iff (declared varargs) mismatches).mp second)

theorem tried_apply (fits : c.Fits shapes.length) : Tried v shapes c (apply v shapes c) := by
  by_cases same : c.arity = shapes.length
  · exact tried_apply_fixed same
  · obtain ⟨varargs, enough⟩ := fits.resolve_left same
    exact tried_apply_spread same varargs enough

theorem apply_eq_ok_iff (fits : c.Fits shapes.length) (a : Applied) :
    apply v shapes c = .ok a ↔ Applies v shapes c a := by
  have tried := tried_apply (v := v) fits
  constructor
  · intro h
    rw [h] at tried
    exact tried
  · intro h
    cases outcome : apply v shapes c with
    | ok b =>
      rw [outcome] at tried
      rw [h.unique tried]
    | error r =>
      rw [outcome] at tried
      exact False.elim (tried.1 a h)

end Apply

/-- The candidate is callable, and `a` is how it takes the arguments. -/
def Taken (v : ClassView) (kind : Binding) (shapes : List Shape) (c : Candidate) (a : Applied) :
    Prop :=
  Callable kind shapes.length c ∧ Applies v shapes c a

/-- `a` is how one of the candidates takes the arguments; no other candidate takes them at a lower
rank, and `a` is more specific than what the others of its rank make of them. -/
def Chosen (v : ClassView) (kind : Binding) (candidates : List Candidate) (shapes : List Shape)
    (a : Applied) : Prop :=
  ∃ c, Taken v kind shapes c a ∧ StandsOut candidates c fun other =>
    ∀ b, Taken v kind shapes other b → a.rank ≤ b.rank ∧ (a.rank = b.rank →
      Sharper v (a.argumentTypes shapes.length) (b.argumentTypes shapes.length))

theorem standsOut_tied_iff {v : ClassView} {count : Nat} {applied : List Applied} {a : Applied} :
    StandsOut (tied applied) a
        (fun b => Sharper v (a.argumentTypes count) (b.argumentTypes count)) ↔
      StandsOut applied a fun b => a.rank ≤ b.rank ∧
        (a.rank = b.rank → Sharper v (a.argumentTypes count) (b.argumentTypes count)) := by
  rw [standsOut_congr_perm (tied_perm applied), leastRanked, standsOut_filter]
  simp only [decide_eq_true_iff]
  constructor
  · rintro ⟨least, others⟩
    refine others.imp fun b member h => ⟨least b member, fun same => h ?_⟩
    intro c inside
    exact same.symm.trans_le (least c inside)
  · intro h
    have least : ∀ b ∈ applied, a.rank ≤ b.rank := by
      obtain ⟨before, after, rfl, others⟩ := h
      intro b member
      rcases List.mem_append.mp member with member | member
      · exact (others b (List.mem_append_left _ member)).1
      · rcases List.mem_cons.mp member with rfl | member
        · exact le_rfl
        · exact (others b (List.mem_append_right _ member)).1
    refine ⟨least, h.imp fun b _ rival lowest => rival.2 ?_⟩
    exact (least b ‹_›).antisymm (lowest a h.mem)

theorem tied_eq_nil_iff {applied : List Applied} : tied applied = [] ↔ applied = [] := by
  have perm := List.mergeSort_perm applied Applied.le
  simp only [tied]
  cases order : applied.mergeSort Applied.le with
  | nil =>
    rw [order] at perm
    simp [List.nil_perm.mp perm]
  | cons best rest =>
    rw [order] at perm
    have inside : best ∈ applied := perm.mem_iff.mp List.mem_cons_self
    simp [List.ne_nil_of_mem inside]

theorem refusal_of_narrowing (shapes : List Shape) {rejections : List Rejection}
    (narrowing : ∀ r ∈ rejections, r.isNarrowing = true) :
    ∃ source target described, refusal shapes rejections = .narrowing source target described := by
  have perm := List.mergeSort_perm rejections fun a b => decide (a.signature ≤ b.signature)
  have all : (rejections.mergeSort fun a b => decide (a.signature ≤ b.signature)).all
      Rejection.isNarrowing = true :=
    List.all_eq_true.mpr fun r member => narrowing r (perm.mem_iff.mp member)
  simp only [refusal, all, if_true]
  split <;> exact ⟨_, _, _, rfl⟩

theorem refusal_of_not_narrowing (shapes : List Shape) {rejections : List Rejection}
    {r : Rejection} (member : r ∈ rejections) (other : r.isNarrowing = false) :
    ∃ failures, refusal shapes rejections = .notApplicable (Shape.listText shapes) failures := by
  have perm := List.mergeSort_perm rejections fun a b => decide (a.signature ≤ b.signature)
  have some_other : (rejections.mergeSort fun a b => decide (a.signature ≤ b.signature)).all
      Rejection.isNarrowing = false :=
    List.all_eq_false.mpr ⟨r, perm.mem_iff.mpr member, by simp [other]⟩
  simp only [refusal, some_other, Bool.false_eq_true, if_false]
  exact ⟨_, rfl⟩

theorem isNarrowing_iff {r : Rejection} (nonempty : r.mismatches ≠ []) :
    r.isNarrowing = true ↔ ∀ m, (∃ i, (i, m) ∈ r.mismatches) → m.isNarrowing = true := by
  simp only [Rejection.isNarrowing, Bool.and_eq_true, Bool.not_eq_true', List.isEmpty_eq_false_iff,
    nonempty, ne_eq, not_false_eq_true, true_and, List.all_eq_true, Prod.forall]
  constructor
  · rintro h m ⟨i, member⟩
    exact h i m member
  · intro h i m member
    exact h m ⟨i, member⟩

section Select
variable (v : ClassView) (kind : Binding) (candidates : List Candidate) (shapes : List Shape)

def fitting : List Candidate := candidates.filter (·.fitsArity shapes.length)

def callable : List Candidate :=
  (fitting candidates shapes).filter fun c => (defect? kind c.member).isNone

def takers : List Applied :=
  ((callable kind candidates shapes).map (apply v shapes)).filterMap Except.toOption

def rejections : List Rejection :=
  ((callable kind candidates shapes).map (apply v shapes)).filterMap fun o =>
    match o with
    | .error r => some r
    | .ok _ => none

variable {v kind candidates shapes}

theorem mem_fitting {c : Candidate} :
    c ∈ fitting candidates shapes ↔ c ∈ candidates ∧ c.Fits shapes.length := by
  simp [fitting, Candidate.fitsArity_iff]

theorem mem_callable {c : Candidate} :
    c ∈ callable kind candidates shapes ↔ c ∈ candidates ∧ Callable kind shapes.length c := by
  simp [callable, mem_fitting, Callable, defect?_eq_none_iff, and_assoc]

/-- What a candidate contributes to the list of those that take the arguments. -/
def takes? (v : ClassView) (kind : Binding) (shapes : List Shape) (c : Candidate) :
    Option Applied :=
  if c.fitsArity shapes.length then
    if (defect? kind c.member).isNone then (apply v shapes c).toOption else none
  else none

theorem takes?_eq_some_iff {c : Candidate} {a : Applied} :
    takes? v kind shapes c = some a ↔ Taken v kind shapes c a := by
  simp only [takes?, Taken, Callable]
  by_cases fits : c.Fits shapes.length
  · rw [if_pos ((c.fitsArity_iff _).mpr fits), ← defect?_eq_none_iff, ← apply_eq_ok_iff fits]
    by_cases sound : defect? kind c.member = none
    · cases apply v shapes c <;> simp [sound, fits, Except.toOption]
    · simp [sound, fits]
  · rw [if_neg (mt (c.fitsArity_iff _).mp fits)]
    simp [fits]

theorem takers_eq :
    takers v kind candidates shapes = candidates.filterMap (takes? v kind shapes) := by
  simp only [takers, callable, fitting, List.filterMap_map, List.filterMap_filter]
  rfl

theorem standsOut_takers_iff {a : Applied} :
    StandsOut (tied (takers v kind candidates shapes)) a (fun b =>
        Sharper v (a.argumentTypes shapes.length) (b.argumentTypes shapes.length)) ↔
      Chosen v kind candidates shapes a := by
  rw [standsOut_tied_iff, takers_eq, standsOut_filterMap]
  simp only [takes?_eq_some_iff]
  rfl

theorem tied_takers_eq_nil_iff :
    tied (takers v kind candidates shapes) = [] ↔
      ¬ ∃ c ∈ candidates, ∃ a, Taken v kind shapes c a := by
  rw [tied_eq_nil_iff, takers_eq, List.filterMap_eq_nil_iff]
  simp [Option.eq_none_iff_forall_ne_some, takes?_eq_some_iff]

theorem select_eq : select v kind candidates shapes =
    if (fitting candidates shapes).isEmpty then
      .error (.notApplicable (Shape.listText shapes)
        (Text.sortedStrings (candidates.map fun c => wrongArity c shapes.length)))
    else if (callable kind candidates shapes).isEmpty then
      .error (.invalid (joined (Text.sortedStrings ((fitting candidates shapes).filterMap fun c =>
        (defect? kind c.member).map fun d => "`" ++ c.signature ++ "` " ++ d))))
    else match tied (takers v kind candidates shapes) with
      | [] => .error (refusal shapes (rejections v kind candidates shapes))
      | [only] => .ok only
      | several =>
        match dominant? v shapes.length several with
        | some winner => .ok winner
        | none => .error (.ambiguous (Shape.listText shapes) (several.map tieText)) :=
  rfl

theorem mem_rejections {r : Rejection} :
    r ∈ rejections v kind candidates shapes ↔
      ∃ c ∈ candidates, Callable kind shapes.length c ∧ apply v shapes c = .error r := by
  simp only [rejections, List.mem_filterMap, List.mem_map, mem_callable]
  constructor
  · rintro ⟨_, ⟨c, ⟨member, called⟩, rfl⟩, found⟩
    refine ⟨c, member, called, ?_⟩
    split at found
    · rename_i outcome
      rw [outcome, Option.some.inj found]
    · cases found
  · rintro ⟨c, member, called, failed⟩
    exact ⟨_, ⟨c, ⟨member, called⟩, failed⟩, rfl⟩

/-- The mismatches of the callable candidates, each in the form that it is rejected for, are all
narrowings. -/
def OnlyNarrowing (v : ClassView) (kind : Binding) (candidates : List Candidate)
    (shapes : List Shape) : Prop :=
  ∀ c ∈ candidates, Callable kind shapes.length c →
    ∀ m, Mismatched v (c.attempted shapes.length) shapes m → m.isNarrowing = true

theorem rejections_narrowing_iff (declared : ∀ c ∈ candidates, c.Declared)
    (untaken : ¬ ∃ c ∈ candidates, ∃ a, Taken v kind shapes c a) :
    (∀ r ∈ rejections v kind candidates shapes, r.isNarrowing = true) ↔
      OnlyNarrowing v kind candidates shapes := by
  have failed : ∀ c ∈ candidates, Callable kind shapes.length c →
      ∃ r, apply v shapes c = .error r := by
    intro c member called
    cases outcome : apply v shapes c with
    | error r => exact ⟨r, rfl⟩
    | ok a =>
      have takes := (apply_eq_ok_iff called.1 a).mp outcome
      exact False.elim (untaken ⟨c, member, a, called, takes⟩)
  constructor
  · intro h c member called m mismatched
    obtain ⟨r, outcome⟩ := failed c member called
    have tried := tried_apply (v := v) called.1
    rw [outcome] at tried
    obtain ⟨nonempty, reported⟩ := tried.2 (declared c member)
    have narrow := h r (mem_rejections.mpr ⟨c, member, called, outcome⟩)
    exact (isNarrowing_iff nonempty).mp narrow m ((reported m).mpr mismatched)
  · intro h r member
    obtain ⟨c, inside, called, outcome⟩ := mem_rejections.mp member
    have tried := tried_apply (v := v) called.1
    rw [outcome] at tried
    obtain ⟨nonempty, reported⟩ := tried.2 (declared c inside)
    apply (isNarrowing_iff nonempty).mpr
    intro m mismatched
    exact h c inside called m ((reported m).mp mismatched)

theorem select_of_none_fits (unfit : ¬ ∃ c ∈ candidates, c.Fits shapes.length) :
    ∃ arguments failures,
      select v kind candidates shapes = .error (.notApplicable arguments failures) := by
  have empty : (fitting candidates shapes).isEmpty = true := by
    rw [List.isEmpty_iff, List.eq_nil_iff_forall_not_mem]
    intro c member
    exact unfit ⟨c, mem_fitting.mp member⟩
  rw [select_eq, if_pos empty]
  exact ⟨_, _, rfl⟩

theorem fitting_isEmpty_eq_false {c : Candidate} (member : c ∈ candidates)
    (fits : c.Fits shapes.length) : (fitting candidates shapes).isEmpty = false :=
  List.isEmpty_eq_false_iff.mpr (List.ne_nil_of_mem (mem_fitting.mpr ⟨member, fits⟩))

theorem select_of_none_callable (fits : ∃ c ∈ candidates, c.Fits shapes.length)
    (unbound : ¬ ∃ c ∈ candidates, Callable kind shapes.length c) :
    ∃ reason, select v kind candidates shapes = .error (.invalid reason) := by
  have empty : (callable kind candidates shapes).isEmpty = true := by
    rw [List.isEmpty_iff, List.eq_nil_iff_forall_not_mem]
    intro c member
    exact unbound ⟨c, mem_callable.mp member⟩
  obtain ⟨c, member, fits⟩ := fits
  rw [select_eq, fitting_isEmpty_eq_false member fits, empty]
  exact ⟨_, rfl⟩

/-- Where some candidate is callable, the answer depends on those of the least rank alone. -/
theorem select_eq_of_callable {c : Candidate} (member : c ∈ candidates)
    (called : Callable kind shapes.length c) :
    select v kind candidates shapes =
      match tied (takers v kind candidates shapes) with
      | [] => .error (refusal shapes (rejections v kind candidates shapes))
      | [only] => .ok only
      | several =>
        match dominant? v shapes.length several with
        | some winner => .ok winner
        | none => .error (.ambiguous (Shape.listText shapes) (several.map tieText)) := by
  have nonempty : (callable kind candidates shapes).isEmpty = false :=
    List.isEmpty_eq_false_iff.mpr (List.ne_nil_of_mem (mem_callable.mpr ⟨member, called⟩))
  rw [select_eq, fitting_isEmpty_eq_false member called.1, nonempty]
  rfl

theorem select_of_none_takes (called : ∃ c ∈ candidates, Callable kind shapes.length c)
    (untaken : ¬ ∃ c ∈ candidates, ∃ a, Taken v kind shapes c a) :
    select v kind candidates shapes =
      .error (refusal shapes (rejections v kind candidates shapes)) := by
  obtain ⟨c, member, called⟩ := called
  rw [select_eq_of_callable member called, tied_takers_eq_nil_iff.mpr untaken]

theorem select_of_only_narrowing (declared : ∀ c ∈ candidates, c.Declared)
    (called : ∃ c ∈ candidates, Callable kind shapes.length c)
    (untaken : ¬ ∃ c ∈ candidates, ∃ a, Taken v kind shapes c a)
    (narrowing : OnlyNarrowing v kind candidates shapes) :
    ∃ source target described,
      select v kind candidates shapes = .error (.narrowing source target described) := by
  rw [select_of_none_takes called untaken]
  obtain ⟨source, target, described, answer⟩ :=
    refusal_of_narrowing shapes ((rejections_narrowing_iff declared untaken).mpr narrowing)
  exact ⟨source, target, described, by rw [answer]⟩

theorem select_of_other_mismatch (declared : ∀ c ∈ candidates, c.Declared)
    (called : ∃ c ∈ candidates, Callable kind shapes.length c)
    (untaken : ¬ ∃ c ∈ candidates, ∃ a, Taken v kind shapes c a)
    (other : ¬ OnlyNarrowing v kind candidates shapes) :
    ∃ arguments failures,
      select v kind candidates shapes = .error (.notApplicable arguments failures) := by
  rw [select_of_none_takes called untaken]
  rw [← rejections_narrowing_iff declared untaken, not_forall] at other
  obtain ⟨r, other⟩ := other
  obtain ⟨member, other⟩ := Classical.not_imp.mp other
  obtain ⟨failures, answer⟩ :=
    refusal_of_not_narrowing shapes member (Bool.eq_false_iff.mpr other)
  exact ⟨_, failures, by rw [answer]⟩

theorem select_of_chosen {a : Applied} (chosen : Chosen v kind candidates shapes a) :
    select v kind candidates shapes = .ok a := by
  have top := standsOut_takers_iff.mpr chosen
  obtain ⟨c, ⟨called, _⟩, place⟩ := chosen
  rw [select_eq_of_callable place.mem called]
  match order : tied (takers v kind candidates shapes), top with
  | [], top => simpa using top.mem
  | [only], top => rw [List.mem_singleton.mp top.mem]
  | first :: second :: rest, top =>
    simp only [dominant?_eq_some_iff.mpr top]

theorem select_of_none_chosen (taken : ∃ c ∈ candidates, ∃ a, Taken v kind shapes c a)
    (unchosen : ¬ ∃ a, Chosen v kind candidates shapes a) :
    ∃ arguments rivals,
      select v kind candidates shapes = .error (.ambiguous arguments rivals) := by
  obtain ⟨c, member, a, takes⟩ := taken
  rw [select_eq_of_callable member takes.1]
  match order : tied (takers v kind candidates shapes) with
  | [] => exact False.elim (tied_takers_eq_nil_iff.mp order ⟨c, member, a, takes⟩)
  | [only] =>
    refine False.elim (unchosen ⟨only, standsOut_takers_iff.mp ?_⟩)
    rw [order]
    exact ⟨[], [], rfl, by simp⟩
  | first :: second :: rest =>
    cases dominating : dominant? v shapes.length (first :: second :: rest) with
    | none =>
      simp only [dominating]
      exact ⟨_, _, rfl⟩
    | some winner =>
      refine False.elim (unchosen ⟨winner, standsOut_takers_iff.mp ?_⟩)
      rw [order]
      exact dominant?_eq_some_iff.mp dominating

theorem select_eq_ok_iff {a : Applied} :
    select v kind candidates shapes = .ok a ↔ Chosen v kind candidates shapes a := by
  refine ⟨fun answer => ?_, select_of_chosen⟩
  by_cases chosen : ∃ b, Chosen v kind candidates shapes b
  · obtain ⟨b, top⟩ := chosen
    obtain rfl := Except.ok.inj (answer.symm.trans (select_of_chosen top))
    exact top
  by_cases taken : ∃ c ∈ candidates, ∃ b, Taken v kind shapes c b
  · obtain ⟨_, _, refused⟩ := select_of_none_chosen taken chosen
    cases answer.symm.trans refused
  by_cases called : ∃ c ∈ candidates, Callable kind shapes.length c
  · cases answer.symm.trans (select_of_none_takes called taken)
  by_cases fits : ∃ c ∈ candidates, c.Fits shapes.length
  · obtain ⟨_, refused⟩ := select_of_none_callable (v := v) fits called
    cases answer.symm.trans refused
  · obtain ⟨_, _, refused⟩ : ∃ arguments failures,
        select v kind candidates shapes = .error (.notApplicable arguments failures) :=
      select_of_none_fits fits
    cases answer.symm.trans refused

end Select

/-- The answer of `select` in every situation. Nothing fits the number of arguments, or callable
candidates all refuse and not only for narrowing: no candidate is applicable. Some fit, and none of
these may be bound: the target is invalid. Callable candidates all refuse, for narrowing only: a
numeric conversion is missing. One candidate is chosen: it is the answer. Candidates take the
arguments and none is chosen: the call is ambiguous. -/
theorem select_outcome (v : ClassView) (kind : Binding) (candidates : List Candidate)
    (shapes : List Shape) (declared : ∀ c ∈ candidates, c.Declared) :
    ((∃ arguments failures,
        select v kind candidates shapes = .error (.notApplicable arguments failures)) ↔
      ¬ (∃ c ∈ candidates, c.Fits shapes.length) ∨
      ((∃ c ∈ candidates, Callable kind shapes.length c) ∧
        ¬ (∃ c ∈ candidates, ∃ a, Taken v kind shapes c a) ∧
        ¬ OnlyNarrowing v kind candidates shapes)) ∧
    ((∃ reason, select v kind candidates shapes = .error (.invalid reason)) ↔
      (∃ c ∈ candidates, c.Fits shapes.length) ∧
        ¬ ∃ c ∈ candidates, Callable kind shapes.length c) ∧
    ((∃ source target described,
        select v kind candidates shapes = .error (.narrowing source target described)) ↔
      (∃ c ∈ candidates, Callable kind shapes.length c) ∧
        ¬ (∃ c ∈ candidates, ∃ a, Taken v kind shapes c a) ∧
        OnlyNarrowing v kind candidates shapes) ∧
    (∀ a, select v kind candidates shapes = .ok a ↔ Chosen v kind candidates shapes a) ∧
    ((∃ arguments rivals,
        select v kind candidates shapes = .error (.ambiguous arguments rivals)) ↔
      (∃ c ∈ candidates, ∃ a, Taken v kind shapes c a) ∧
        ¬ ∃ a, Chosen v kind candidates shapes a) := by
  have fits_of_called : (∃ c ∈ candidates, Callable kind shapes.length c) →
      ∃ c ∈ candidates, c.Fits shapes.length := by
    rintro ⟨c, member, called⟩
    exact ⟨c, member, called.1⟩
  have called_of_taken : (∃ c ∈ candidates, ∃ a, Taken v kind shapes c a) →
      ∃ c ∈ candidates, Callable kind shapes.length c := by
    rintro ⟨c, member, a, taken⟩
    exact ⟨c, member, taken.1⟩
  have taken_of_chosen : (∃ a, Chosen v kind candidates shapes a) →
      ∃ c ∈ candidates, ∃ a, Taken v kind shapes c a := by
    rintro ⟨a, c, taken, place⟩
    exact ⟨c, place.mem, a, taken⟩
  -- The situations exclude each other, and each one determines the answer.
  by_cases called : ∃ c ∈ candidates, Callable kind shapes.length c
  · have fits := fits_of_called called
    by_cases taken : ∃ c ∈ candidates, ∃ a, Taken v kind shapes c a
    · by_cases chosen : ∃ a, Chosen v kind candidates shapes a
      · obtain ⟨a, top⟩ := chosen
        have answer := select_of_chosen top
        have only : ∀ b, a = b ↔ Chosen v kind candidates shapes b := by
          intro b
          rw [← select_eq_ok_iff, answer, Except.ok.injEq]
        have chosen : ∃ a, Chosen v kind candidates shapes a := ⟨a, top⟩
        simp only [answer, fits, called, taken, chosen]
        simpa using only
      · obtain ⟨_, _, answer⟩ := select_of_none_chosen taken chosen
        simp only [answer, fits, called, taken, chosen]
        simpa using chosen
    · have chosen := mt taken_of_chosen taken
      by_cases narrowing : OnlyNarrowing v kind candidates shapes
      · obtain ⟨_, _, _, answer⟩ := select_of_only_narrowing declared called taken narrowing
        simp only [answer, fits, called, taken, chosen, narrowing]
        simpa using chosen
      · obtain ⟨_, _, answer⟩ := select_of_other_mismatch declared called taken narrowing
        simp only [answer, fits, called, taken, chosen, narrowing]
        simpa using chosen
  · have taken := mt called_of_taken called
    have chosen := mt taken_of_chosen taken
    by_cases fits : ∃ c ∈ candidates, c.Fits shapes.length
    · obtain ⟨_, answer⟩ := select_of_none_callable (v := v) fits called
      simp only [answer, fits, called, taken, chosen]
      simpa using chosen
    · obtain ⟨_, _, answer⟩ : ∃ arguments failures,
          select v kind candidates shapes = .error (.notApplicable arguments failures) :=
        select_of_none_fits fits
      simp only [answer, fits, called, taken, chosen]
      simpa using chosen

private def sumOf (flags : Nat) (descriptor : String) (parameter : Ty) : Candidate :=
  ⟨⟨"app.Maths", ⟨1⟩, some objectClass, [], [], []⟩,
    ⟨"sum", .method, ⟨flags⟩, descriptor, [parameter], .primitive .long, none⟩⟩

private def gatheredSum : Candidate := sumOf 0x89 "([I)J" (.array (.primitive .int) 1)

private def longSum : Candidate := sumOf 0x9 "(J)J" (.primitive .long)

/-- An `int` argument is widened to `long` rather than gathered in an array. -/
theorem select_outcome_widened :
    (∀ c ∈ [gatheredSum, longSum], c.Declared) ∧
      Chosen ⟨.shared, 21, [], [], [], []⟩ .staticMethod [gatheredSum, longSum] [.int]
        ⟨longSum, [⟨0, .primitive .long, .int, .via .primitiveWidening 1⟩], false⟩ := by
  have declared : ∀ c ∈ [gatheredSum, longSum], c.Declared := by
    simp [gatheredSum, longSum, sumOf, Candidate.Declared, Candidate.arity]
  refine ⟨declared, ?_⟩
  let applied := takers ⟨.shared, 21, [], [], [], []⟩ .staticMethod [gatheredSum, longSum] [.int]
  have least : leastRanked applied =
      [⟨longSum, [⟨0, .primitive .long, .int, .via .primitiveWidening 1⟩], false⟩] := by
    decide +kernel
  have best := tied_perm applied
  rw [least, List.perm_singleton] at best
  apply ((select_outcome _ _ _ _ declared).2.2.2.1 _).mp
  rw [select_eq, if_neg (by decide +kernel), if_neg (by decide +kernel), best]

end Linkage.Call
