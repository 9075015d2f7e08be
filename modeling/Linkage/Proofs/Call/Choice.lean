import Mathlib.Algebra.GroupWithZero.Nat
import Mathlib.Data.Prod.Lex
import Mathlib.Data.String.Basic
import Mathlib.Order.Lattice.Nat
import Linkage.Proofs.Call.Passing

/-!
The choice among applied candidates. `Applied.rank` orders them by the latest phase, the summed
amount and the spread; `tied` finds those of the least rank, in whatever order its sort leaves them.
`StandsOut` speaks about one place of a list against all other places, so that equal candidates
still count as rivals of each other.
-/
namespace Linkage.Call

section StandsOut
variable {α β : Type}

/-- One place of the list holds `a`, and whatever the other places hold satisfies `Q`. -/
def StandsOut (l : List α) (a : α) (Q : α → Prop) : Prop :=
  ∃ before after, l = before ++ a :: after ∧ ∀ b ∈ before ++ after, Q b

theorem StandsOut.mem {l : List α} {a : α} {Q : α → Prop} (h : StandsOut l a Q) : a ∈ l := by
  obtain ⟨before, after, rfl, _⟩ := h
  simp

theorem StandsOut.imp {l : List α} {a : α} {P Q : α → Prop} (weaker : ∀ b ∈ l, P b → Q b)
    (h : StandsOut l a P) : StandsOut l a Q := by
  obtain ⟨before, after, rfl, others⟩ := h
  refine ⟨before, after, rfl, fun b member => weaker b ?_ (others b member)⟩
  rcases List.mem_append.mp member with h | h
  · exact List.mem_append_left _ h
  · exact List.mem_append_right _ (List.mem_cons_of_mem _ h)

/-- Only the places count, not their order. -/
theorem standsOut_iff_perm {l : List α} {a : α} {Q : α → Prop} :
    StandsOut l a Q ↔ ∃ others, l.Perm (a :: others) ∧ ∀ b ∈ others, Q b := by
  constructor
  · rintro ⟨before, after, rfl, others⟩
    exact ⟨before ++ after, List.perm_middle, others⟩
  · rintro ⟨others, perm, rest⟩
    obtain ⟨before, after, rfl⟩ := List.append_of_mem (perm.mem_iff.mpr List.mem_cons_self)
    have same : (before ++ after).Perm others :=
      (List.perm_cons a).mp (List.perm_middle.symm.trans perm)
    exact ⟨before, after, rfl, fun b member => rest b (same.mem_iff.mp member)⟩

theorem standsOut_congr_perm {l l' : List α} (perm : l.Perm l') {a : α} {Q : α → Prop} :
    StandsOut l a Q ↔ StandsOut l' a Q := by
  rw [standsOut_iff_perm, standsOut_iff_perm]
  constructor
  · rintro ⟨others, h, rest⟩
    exact ⟨others, perm.symm.trans h, rest⟩
  · rintro ⟨others, h, rest⟩
    exact ⟨others, perm.trans h, rest⟩

theorem standsOut_filterMap {f : α → Option β} {l : List α} {b : β} {Q : β → Prop} :
    StandsOut (l.filterMap f) b Q ↔
      ∃ a, f a = some b ∧ StandsOut l a fun other => ∀ c, f other = some c → Q c := by
  constructor
  · rintro ⟨before, after, split, others⟩
    obtain ⟨front, back, rfl, rfl, tail⟩ := List.filterMap_eq_append_iff.mp split
    obtain ⟨skipped, a, rest, rfl, unused, image, rfl⟩ := List.filterMap_eq_cons_iff.mp tail
    refine ⟨a, image, front ++ skipped, rest, by simp, ?_⟩
    intro other member c found
    rcases List.mem_append.mp member with h | h
    · rcases List.mem_append.mp h with h | h
      · exact others c (List.mem_append_left _ (List.mem_filterMap.mpr ⟨other, h, found⟩))
      · rw [unused other h] at found
        cases found
    · exact others c (List.mem_append_right _ (List.mem_filterMap.mpr ⟨other, h, found⟩))
  · rintro ⟨a, image, before, after, rfl, others⟩
    refine ⟨before.filterMap f, after.filterMap f, by simp [image], ?_⟩
    intro c member
    rw [← List.filterMap_append] at member
    obtain ⟨other, h, found⟩ := List.mem_filterMap.mp member
    exact others other h c found

theorem standsOut_filter {p : α → Bool} {l : List α} {a : α} {Q : α → Prop} :
    StandsOut (l.filter p) a Q ↔ p a = true ∧ StandsOut l a fun b => p b = true → Q b := by
  rw [← List.filterMap_eq_filter, standsOut_filterMap]
  constructor
  · rintro ⟨x, kept, rest⟩
    obtain ⟨rfl, holds⟩ := Option.guard_eq_some_iff.mp kept
    refine ⟨holds, rest.imp fun b _ h pb => h b ?_⟩
    exact Option.guard_eq_some_iff.mpr ⟨rfl, pb⟩
  · rintro ⟨holds, rest⟩
    refine ⟨a, Option.guard_eq_some_iff.mpr ⟨rfl, holds⟩, rest.imp fun b _ h c kept => ?_⟩
    obtain ⟨rfl, pb⟩ := Option.guard_eq_some_iff.mp kept
    exact h pb

end StandsOut

/-! What a list of passings costs. -/

def latestPhase (passings : List Passing) : Nat :=
  (passings.map (·.conversion.cost.phase)).foldr max 0

def summedAmount (passings : List Passing) : Nat := (passings.map (·.conversion.cost.amount)).sum

theorem foldl_combine (passings : List Passing) (start : Cost) :
    passings.foldl (fun total p => total.combine p.conversion.cost) start =
      ⟨max start.phase (latestPhase passings), start.amount + summedAmount passings⟩ := by
  induction passings generalizing start with
  | nil => simp [latestPhase, summedAmount]
  | cons p rest ih =>
    rw [List.foldl_cons, ih]
    simp only [Cost.combine, latestPhase, summedAmount, List.map_cons, List.foldr_cons,
      List.sum_cons, Nat.max_assoc, Nat.add_assoc]

theorem totalCost_eq (passings : List Passing) :
    totalCost passings = ⟨latestPhase passings, summedAmount passings⟩ := by
  simp [totalCost, foldl_combine]

namespace Applied

/-- Candidates compete by the latest phase of their conversions, then by the summed amounts, then
by whether arguments are spread. -/
def rank (a : Applied) : ℕ ×ₗ ℕ ×ₗ Bool :=
  toLex (latestPhase a.passings, toLex (summedAmount a.passings, a.spread))

/-- The rank with what orders equal ranks for the reader of a message. -/
def sortKey (a : Applied) : (ℕ ×ₗ ℕ ×ₗ Bool) ×ₗ String ×ₗ String :=
  toLex (a.rank, toLex (a.candidate.member.descriptor, a.candidate.declaring.name))

theorem cost_eq (a : Applied) : a.cost = ⟨latestPhase a.passings, summedAmount a.passings⟩ :=
  totalCost_eq a.passings

theorem cost_spread_eq_iff (a b : Applied) :
    (a.cost == b.cost && a.spread == b.spread) = true ↔ a.rank = b.rank := by
  rw [cost_eq, cost_eq]
  simp [rank, and_assoc]

theorem le_iff_sortKey (a b : Applied) : a.le b = true ↔ a.sortKey ≤ b.sortKey := by
  simp only [le, cost_eq, Cost.before, sortKey, rank, Prod.Lex.toLex_le_toLex,
    Prod.Lex.toLex_lt_toLex]
  generalize latestPhase a.passings = p, latestPhase b.passings = q
  generalize summedAmount a.passings = m, summedAmount b.passings = n
  generalize a.candidate.member.descriptor = d, b.candidate.member.descriptor = e
  rcases lt_trichotomy p q with h | rfl | h
  · simp [h]
  · rcases lt_trichotomy m n with h | rfl | h
    · simp [h]
    · cases a.spread <;> cases b.spread <;> by_cases h : d = e <;> simp [h]
    · simp [h, h.not_gt, h.ne']
  · simp [h, h.not_gt, h.ne']

theorem rank_le_of_le {a b : Applied} (h : a.le b = true) : a.rank ≤ b.rank := by
  have key := (le_iff_sortKey a b).mp h
  rcases Prod.Lex.toLex_le_toLex.mp key with less | ⟨same, _⟩
  · exact less.le
  · exact same.le

theorem sort_pairwise (applied : List Applied) :
    (applied.mergeSort le).Pairwise fun a b => a.rank ≤ b.rank := by
  have sorted : (applied.mergeSort le).Pairwise fun a b => a.le b = true := by
    apply List.pairwise_mergeSort
    · intro a b c ab bc
      rw [le_iff_sortKey] at ab bc ⊢
      exact ab.trans bc
    · intro a b
      rw [Bool.or_eq_true, le_iff_sortKey, le_iff_sortKey]
      exact le_total _ _
  exact sorted.imp rank_le_of_le

end Applied

/-- The members of a list that no other member ranks below. -/
def leastRanked (applied : List Applied) : List Applied :=
  applied.filter fun a => decide (∀ b ∈ applied, a.rank ≤ b.rank)

theorem tied_perm (applied : List Applied) : (tied applied).Perm (leastRanked applied) := by
  have perm := List.mergeSort_perm applied Applied.le
  have sorted := Applied.sort_pairwise applied
  simp only [tied]
  cases order : applied.mergeSort Applied.le with
  | nil =>
    rw [order] at perm
    rw [List.nil_perm.mp perm]
    rfl
  | cons best rest =>
    rw [order] at perm sorted
    have least : ∀ b ∈ applied, best.rank ≤ b.rank := by
      intro b member
      rcases List.mem_cons.mp (perm.mem_iff.mpr member) with rfl | later
      · exact le_rfl
      · exact List.rel_of_pairwise_cons sorted later
    have inside : best ∈ applied := perm.mem_iff.mp List.mem_cons_self
    refine (List.Perm.of_eq ?_).trans (perm.filter _)
    apply List.filter_congr
    intro a member
    rw [Bool.eq_iff_iff, Applied.cost_spread_eq_iff, decide_eq_true_iff]
    constructor
    · intro same b h
      exact same.trans_le (least b h)
    · intro lowest
      exact (lowest best inside).antisymm (least a (perm.mem_iff.mp member))

/-! Being more specific. -/

theorem moreSpecificType_asymm {v : ClassView} {a b : Ty} (h : moreSpecificType v a b = true) :
    moreSpecificType v b a = false := by
  cases a <;> cases b <;> simp_all only [moreSpecificType, Bool.false_eq_true]
  · rename_i p q
    cases hp : p.rank? <;> cases hq : q.rank? <;> simp_all [le_of_lt]
  · simp_all

/-- Nowhere less specific, and somewhere more; types are told apart by their erasures. -/
def Sharper (v : ClassView) (left right : List Ty) : Prop :=
  List.Forall₂ (fun l r => l.erasure = r.erasure ∨ moreSpecificType v l r = true) left right ∧
    ∃ l r, (l, r) ∈ left.zip right ∧ l.erasure ≠ r.erasure ∧ moreSpecificType v l r = true

theorem moreSpecific_iff {v : ClassView} {left right : List Ty} :
    moreSpecific v left right = true ↔ Sharper v left right := by
  simp only [moreSpecific, Sharper, Bool.and_eq_true, beq_iff_eq, List.all_eq_true,
    List.any_eq_true, Bool.or_eq_true, bne_iff_ne, List.forall₂_iff_zip, Prod.forall, Prod.exists]

theorem Sharper.asymm {v : ClassView} {left right : List Ty} (h : Sharper v left right) :
    ¬ Sharper v right left := by
  rintro ⟨back, _⟩
  obtain ⟨_, l, r, member, differ, more⟩ := h
  have swapped : (r, l) ∈ right.zip left := by
    rw [← List.zip_swap]
    exact List.mem_map.mpr ⟨(l, r), member, rfl⟩
  rcases (List.forall₂_iff_zip.mp back).2 swapped with same | less
  · exact differ same.symm
  · rw [moreSpecificType_asymm more] at less
    cases less

/-- Whether the candidate at a place is more specific than those at all other places. -/
def dominates (v : ClassView) (count : Nat) (several : List Applied) : Applied × Nat → Bool :=
  fun (a, i) => several.zipIdx.all fun (b, j) =>
    i == j || moreSpecific v (a.argumentTypes count) (b.argumentTypes count)

theorem dominates_iff {v : ClassView} {count : Nat} {several : List Applied} {a : Applied}
    {i : Nat} :
    dominates v count several (a, i) = true ↔ ∀ b j, several[j]? = some b → j ≠ i →
      Sharper v (a.argumentTypes count) (b.argumentTypes count) := by
  simp only [dominates, List.all_eq_true, Prod.forall, List.mk_mem_zipIdx_iff_getElem?,
    Bool.or_eq_true, beq_iff_eq, moreSpecific_iff]
  constructor
  · intro h b j found other
    exact (h b j found).resolve_left (Ne.symm other)
  · intro h b j found
    exact (eq_or_ne i j).imp_right fun other => h b j found other.symm

theorem dominates_iff_split {v : ClassView} {count : Nat} {before after : List Applied}
    {a : Applied} :
    dominates v count (before ++ a :: after) (a, before.length) = true ↔
      ∀ b ∈ before ++ after, Sharper v (a.argumentTypes count) (b.argumentTypes count) := by
  rw [dominates_iff]
  constructor
  · intro h b member
    rcases List.mem_append.mp member with member | member
    · obtain ⟨j, bound, rfl⟩ := List.mem_iff_getElem.mp member
      refine h _ j ?_ (by omega)
      rw [List.getElem?_append_left bound, List.getElem?_eq_getElem bound]
    · obtain ⟨j, bound, rfl⟩ := List.mem_iff_getElem.mp member
      refine h _ (before.length + (j + 1)) ?_ (by omega)
      rw [List.getElem?_append_right (by omega)]
      simp [bound]
  · intro h b j found other
    apply h
    rcases Nat.lt_or_ge j before.length with low | high
    · rw [List.getElem?_append_left low] at found
      exact List.mem_append_left _ (List.mem_of_getElem? found)
    · rw [List.getElem?_append_right high] at found
      obtain ⟨k, shift⟩ : ∃ k, j - before.length = k + 1 := ⟨j - before.length - 1, by omega⟩
      rw [shift, List.getElem?_cons_succ] at found
      exact List.mem_append_right _ (List.mem_of_getElem? found)

/-- There is at most one place whose candidate dominates, since being more specific is
asymmetric. -/
theorem filter_dominates_eq_singleton {v : ClassView} {count : Nat} {several : List Applied}
    {a : Applied} {i : Nat} (found : several[i]? = some a)
    (top : dominates v count several (a, i) = true) :
    several.zipIdx.filter (dominates v count several) = [(a, i)] := by
  have distinct : (several.zipIdx.filter (dominates v count several)).Nodup := by
    have places : several.zipIdx.Nodup := by
      apply List.Nodup.of_map Prod.snd
      rw [List.zipIdx_map_snd]
      exact List.nodup_range'
    exact places.sublist List.filter_sublist
  have member : (a, i) ∈ several.zipIdx.filter (dominates v count several) :=
    List.mem_filter.mpr ⟨List.mk_mem_zipIdx_iff_getElem?.mpr found, top⟩
  have only : ∀ x ∈ several.zipIdx.filter (dominates v count several), x = (a, i) := by
    rintro ⟨b, j⟩ inside
    obtain ⟨place, also⟩ := List.mem_filter.mp inside
    have place := List.mk_mem_zipIdx_iff_getElem?.mp place
    by_cases same : j = i
    · subst same
      rw [Option.some.inj (place.symm.trans found)]
    · have forth := dominates_iff.mp top b j place same
      have back := dominates_iff.mp also a i found (Ne.symm same)
      exact False.elim (forth.asymm back)
  generalize several.zipIdx.filter (dominates v count several) = l at distinct member only
  match l, distinct, member, only with
  | [x], _, _, only => rw [only x List.mem_cons_self]
  | x :: y :: rest, distinct, _, only =>
    have same : x = y := (only x (by simp)).trans (only y (by simp)).symm
    exact False.elim ((List.nodup_cons.mp distinct).1 (by simp [same]))

theorem dominant?_eq_some_iff {v : ClassView} {count : Nat} {several : List Applied}
    {a : Applied} :
    dominant? v count several = some a ↔
      StandsOut several a fun b => Sharper v (a.argumentTypes count) (b.argumentTypes count) := by
  constructor
  · intro h
    simp only [dominant?] at h
    split at h
    · rename_i b i single
      obtain rfl := Option.some.inj h
      have member : (b, i) ∈ several.zipIdx.filter (dominates v count several) :=
        single ▸ List.mem_singleton_self _
      obtain ⟨place, top⟩ := List.mem_filter.mp member
      obtain ⟨bound, rfl⟩ := List.getElem?_eq_some_iff.mp (List.mk_mem_zipIdx_iff_getElem?.mp place)
      have split : several = several.take i ++ several[i] :: several.drop (i + 1) := by simp
      have length : (several.take i).length = i := by simp; omega
      refine ⟨several.take i, several.drop (i + 1), split, ?_⟩
      apply dominates_iff_split.mp
      rw [length, ← split]
      exact top
    · cases h
  · rintro ⟨before, after, rfl, others⟩
    have only := filter_dominates_eq_singleton (by simp) (dominates_iff_split.mpr others)
    simp only [dominant?]
    split
    · rename_i b i single
      have same := List.singleton_inj.mp (single.symm.trans only)
      rw [(Prod.mk.inj same).1]
    · rename_i several
      exact absurd only (several _ _)

end Linkage.Call
