import Mathlib.Data.List.Basic
import Mathlib.Order.Lattice

/-!
Lists that hold the same elements in possibly different orders. `AlikeBy` a key lets elements of
different keys change places and keeps those of one key in their order. It is kept by whatever looks
at elements one by one, and a stable sort by the key forgets the difference.
-/
namespace Linkage
variable {α β κ : Type}

open Classical in
/-- The elements of one key, in their order. -/
noncomputable def ofKey (key : α → κ) (k : κ) (l : List α) : List α :=
  l.filter fun a => decide (key a = k)

section OfKey
variable {key : α → κ} {k : κ} {l l' : List α} {a : α}

theorem mem_ofKey : a ∈ ofKey key k l ↔ a ∈ l ∧ key a = k := by
  simp [ofKey]

theorem ofKey_append : ofKey key k (l ++ l') = ofKey key k l ++ ofKey key k l' :=
  List.filter_append ..

theorem ofKey_cons_of_eq (own : key a = k) : ofKey key k (a :: l) = a :: ofKey key k l :=
  List.filter_cons_of_pos (by simpa using own)

theorem ofKey_cons_of_ne (other : key a ≠ k) : ofKey key k (a :: l) = ofKey key k l :=
  List.filter_cons_of_neg (by simpa using other)

theorem ofKey_of_forall (own : ∀ a ∈ l, key a = k) : ofKey key k l = l :=
  List.filter_eq_self.mpr (by simpa using own)

theorem ofKey_sublist : (ofKey key k l).Sublist l := List.filter_sublist

theorem find?_eq_head?_ofKey [BEq κ] [LawfulBEq κ] :
    l.find? (key · == k) = (ofKey key k l).head? := by
  rw [ofKey, List.head?_filter]
  congr 1
  funext a
  by_cases own : key a = k
  · simp [own]
  · simp [own]

end OfKey

/-- Of every key the lists hold the same elements, in the same order. -/
def AlikeBy (key : α → κ) (l l' : List α) : Prop := ∀ k, ofKey key k l = ofKey key k l'

namespace AlikeBy
variable {key : α → κ} {l l' r r' : List α}

theorem refl (key : α → κ) (l : List α) : AlikeBy key l l := fun _ => rfl

theorem symm (alike : AlikeBy key l l') : AlikeBy key l' l := fun k => (alike k).symm

theorem trans (alike : AlikeBy key l l') (alike' : AlikeBy key l' r) : AlikeBy key l r :=
  fun k => (alike k).trans (alike' k)

theorem append (front : AlikeBy key l l') (back : AlikeBy key r r') :
    AlikeBy key (l ++ r) (l' ++ r') := by
  intro k
  rw [ofKey_append, ofKey_append, front k, back k]

theorem filter (alike : AlikeBy key l l') (p : α → Bool) :
    AlikeBy key (l.filter p) (l'.filter p) := by
  intro k
  have inner : ∀ l : List α, ofKey key k (l.filter p) = (ofKey key k l).filter p :=
    fun _ => List.filter_comm ..
  rw [inner, inner, alike k]

theorem filterMap {f : α → Option β} {image : β → κ}
    (kept : ∀ {a b}, f a = some b → image b = key a) (alike : AlikeBy key l l') :
    AlikeBy image (l.filterMap f) (l'.filterMap f) := by
  intro k
  have inner : ∀ l : List α, ofKey image k (l.filterMap f) = (ofKey key k l).filterMap f := by
    intro l
    rw [ofKey, ofKey, List.filter_filterMap, List.filterMap_filter]
    apply List.filterMap_congr
    intro a _
    cases found : f a with
    | none => simp
    | some b =>
      rw [Option.filter_some, kept found]
  rw [inner, inner, alike k]

/-- Under a finer key still more elements may change places. -/
theorem finer {κ' : Type} {fine : α → κ'} (coarse : κ' → κ) (factors : ∀ a, key a = coarse (fine a))
    (alike : AlikeBy key l l') : AlikeBy fine l l' := by
  intro k
  have within : ∀ l : List α, ofKey fine k l = ofKey fine k (ofKey key (coarse k) l) := by
    intro l
    rw [ofKey, ofKey, ofKey, List.filter_filter]
    apply List.filter_congr
    intro a _
    by_cases same : fine a = k
    · simp [same, factors]
    · simp [same]
  rw [within l, alike (coarse k), ← within l']

theorem perm (alike : AlikeBy key l l') : l.Perm l' := by
  classical
  rw [List.perm_iff_count]
  intro a
  have counted : ∀ l : List α, l.count a = (ofKey key (key a) l).count a :=
    fun l => (List.count_filter (by simp)).symm
  rw [counted l, counted l', alike (key a)]

/-- Where no key stands twice, every order is as good as another. -/
theorem of_perm (perm : l.Perm l') (distinct : (l.map key).Nodup) : AlikeBy key l l' := by
  intro k
  have same : (ofKey key k l).Perm (ofKey key k l') := perm.filter _
  have few : (ofKey key k l).length ≤ 1 := by
    have constant : (ofKey key k l).map key = List.replicate (ofKey key k l).length k := by
      rw [← List.map_const']
      exact List.map_congr_left fun a inside => (mem_ofKey.mp inside).2
    have once : ((ofKey key k l).map key).Nodup := distinct.sublist (ofKey_sublist.map key)
    rwa [constant, List.nodup_replicate] at once
  match held : ofKey key k l, few with
  | [], _ => exact (List.nil_perm.mp (held ▸ same)).symm
  | [a], _ => exact (List.perm_singleton.mp (held ▸ same).symm).symm

/-- Elements that are their own keys can be told apart by nothing. -/
theorem of_perm_self (perm : l.Perm l') : AlikeBy id l l' := by
  intro k
  have constant : ∀ l : List α, ofKey id k l = List.replicate (ofKey id k l).length k :=
    fun _ => List.eq_replicate_iff.mpr ⟨rfl, fun _ inside => (mem_ofKey.mp inside).2⟩
  have size : (ofKey id k l).length = (ofKey id k l').length := (perm.filter _).length_eq
  rw [constant l, constant l', size]

section Sorting
variable [LinearOrder κ] {le : α → α → Bool}

/-- A list in the order of the keys is determined by what it holds of every key. -/
theorem eq_of_sorted (alike : AlikeBy key l l') (sorted : l.Pairwise fun a b => key a ≤ key b)
    (sorted' : l'.Pairwise fun a b => key a ≤ key b) : l = l' := by
  induction l generalizing l' with
  | nil => exact (List.nil_perm.mp alike.perm).symm
  | cons a l ih =>
    cases l' with
    | nil => exact List.perm_nil.mp alike.perm
    | cons b l' =>
      obtain ⟨least, rest⟩ := List.pairwise_cons.mp sorted
      obtain ⟨least', rest'⟩ := List.pairwise_cons.mp sorted'
      have lowest : key a ≤ key b := by
        rcases List.mem_cons.mp (alike.perm.mem_iff.mpr List.mem_cons_self) with rfl | inside
        · exact le_rfl
        · exact least b inside
      have lowest' : key b ≤ key a := by
        rcases List.mem_cons.mp (alike.perm.mem_iff.mp List.mem_cons_self) with rfl | inside
        · exact le_rfl
        · exact least' a inside
      -- Both heads have the least key, and each is the first element of that key.
      have heads := alike (key a)
      rw [ofKey_cons_of_eq rfl, ofKey_cons_of_eq (le_antisymm lowest' lowest)] at heads
      obtain rfl := (List.cons.inj heads).1
      refine congrArg (a :: ·) (ih ?_ rest rest')
      intro k
      have whole := alike k
      by_cases own : key a = k
      · rw [ofKey_cons_of_eq own, ofKey_cons_of_eq own] at whole
        exact (List.cons.inj whole).2
      · rwa [ofKey_cons_of_ne own, ofKey_cons_of_ne own] at whole

theorem le_trans_of_key (by_key : ∀ a b, le a b = true ↔ key a ≤ key b) (a b c : α)
    (ab : le a b = true) (bc : le b c = true) : le a c = true := by
  rw [by_key] at ab bc ⊢
  exact ab.trans bc

theorem le_total_of_key (by_key : ∀ a b, le a b = true ↔ key a ≤ key b) (a b : α) :
    (le a b || le b a) = true := by
  rw [Bool.or_eq_true, by_key, by_key]
  exact le_total _ _

/-- A stable sort leaves elements of one key in their order. -/
theorem mergeSort_self (by_key : ∀ a b, le a b = true ↔ key a ≤ key b) (l : List α) :
    AlikeBy key (l.mergeSort le) l := by
  intro k
  have ordered : (ofKey key k l).Pairwise fun a b => le a b = true := by
    refine List.pairwise_of_forall_mem_list ?_
    intro a inside b inside'
    rw [by_key, (mem_ofKey.mp inside).2, (mem_ofKey.mp inside').2]
  have among : (ofKey key k (ofKey key k l)).Sublist (ofKey key k (l.mergeSort le)) :=
    (List.sublist_mergeSort (le_trans_of_key by_key) (le_total_of_key by_key) ordered
      ofKey_sublist).filter _
  rw [ofKey_of_forall fun a inside => (mem_ofKey.mp inside).2] at among
  have size : (ofKey key k (l.mergeSort le)).length = (ofKey key k l).length :=
    ((List.mergeSort_perm l le).filter _).length_eq
  exact (among.eq_of_length size.symm).symm

theorem mergeSort_eq (by_key : ∀ a b, le a b = true ↔ key a ≤ key b) (alike : AlikeBy key l l') :
    l.mergeSort le = l'.mergeSort le := by
  have sorted : ∀ l : List α, (l.mergeSort le).Pairwise fun a b => key a ≤ key b := by
    intro l
    exact (List.pairwise_mergeSort (le_trans_of_key by_key) (le_total_of_key by_key) l).imp
      fun ordered => (by_key _ _).mp ordered
  exact (((mergeSort_self by_key l).trans alike).trans (mergeSort_self by_key l').symm).eq_of_sorted
    (sorted l) (sorted l')

end Sorting

end AlikeBy

end Linkage
