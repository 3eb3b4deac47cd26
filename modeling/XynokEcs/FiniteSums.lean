import Mathlib

/-!
# Sums that follow a change

What a sum becomes when one of its terms changes: an entry of a list replaced, a
hole in a range filled with the last term, and a function overlaid with another
on some of the indices. Everything is stated without subtraction, the old terms
standing on the other side.
-/

namespace XynokEcs.FiniteSums

open Finset

variable {α ι M : Type} [AddCommMonoid M]

/-- Replacing an entry of a list exchanges its term. -/
theorem sum_set (f : α → M) {l : List α} {i : ℕ} {a : α} (h : l[i]?=some a) (b : α) :
    ((l.set i b).map f).sum+f a=(l.map f).sum+f b := by
  induction l generalizing i with
  | nil => simp at h
  | cons x l ih =>
    cases i with
    | zero =>
      simp only [List.getElem?_cons_zero,Option.some.injEq] at h
      simp only [List.set_cons_zero,List.map_cons,List.sum_cons,h]
      abel
    | succ i =>
      simp only [List.getElem?_cons_succ] at h
      have hrest := ih h
      simp only [List.set_cons_succ,List.map_cons,List.sum_cons,add_assoc,hrest]

/-- A list that grew by entries without a term has the sum it had. -/
theorem sum_grown (f : α → M) {l l' : List α} (h : ∀ (i : ℕ) a,l[i]?=some a → l'[i]?=some a)
    (hn : ∀ (i : ℕ) a,l'[i]?=some a → l[i]?=none → f a=0) : (l'.map f).sum=(l.map f).sum := by
  induction l generalizing l' with
  | nil =>
    refine List.sum_eq_zero fun x hx => ?_
    obtain ⟨a,ha,rfl⟩ := List.mem_map.mp hx
    obtain ⟨i,hi⟩ := List.mem_iff_getElem?.mp ha
    exact hn i a hi rfl
  | cons x l ih =>
    cases l' with
    | nil => cases h 0 x rfl
    | cons y l' =>
      have hxy : y=x := Option.some.inj (h 0 x rfl)
      have hrest := ih (fun i a => h (i+1) a) fun i a => hn (i+1) a
      rw [List.map_cons,List.map_cons,List.sum_cons,List.sum_cons,hxy,hrest]

/-- Changing a function at one entry of a list without repetition. -/
theorem sum_update [DecidableEq α] (f : α → M) {l : List α} (hl : l.Nodup) {a : α} (ha : a∈l) (b : M) :
    (l.map (Function.update f a b)).sum+f a=(l.map f).sum+b := by
  induction l with
  | nil => cases ha
  | cons x l ih =>
    rw [List.nodup_cons] at hl
    rw [List.map_cons,List.map_cons,List.sum_cons,List.sum_cons]
    by_cases hx : a=x
    · subst hx
      have hsame : l.map (Function.update f a b)=l.map f := by
        refine List.map_congr_left fun y hy => Function.update_of_ne ?_ _ _
        intro he
        rw [he] at hy
        exact hl.1 hy
      rw [hsame,Function.update_self]
      abel
    · have hrest := ih hl.2 ((List.mem_cons.mp ha).resolve_left hx)
      rw [Function.update_of_ne (Ne.symm hx),add_assoc,hrest,add_assoc]

/-- Filling a hole with the last term takes out the term that was there. -/
theorem sum_range_fill (f : ℕ → M) {i n : ℕ} (h : i≤n) :
    ∑ r∈range n,(if r=i then f n else f r)+f i=∑ r∈range (n+1),f r := by
  rw [sum_range_succ]
  by_cases hi : i=n
  · subst hi
    have hsame : ∑ r∈range i,(if r=i then f i else f r)=∑ r∈range i,f r := by
      refine sum_congr rfl fun r hr => if_neg ?_
      have hlt := mem_range.mp hr
      omega
    rw [hsame]
  · have hmem : i∈range n := mem_range.mpr (by omega)
    have hrest : ∑ r∈(range n).erase i,(if r=i then f n else f r)=∑ r∈(range n).erase i,f r :=
      sum_congr rfl fun r hr => if_neg (ne_of_mem_erase hr)
    rw [←sum_erase_add _ _ hmem,hrest,if_pos rfl,←sum_erase_add (range n) f hmem]
    exact add_right_comm _ _ _

/-- Single values summed over a range are the list of them. -/
theorem sum_range_singleton {β : Type} (g : ℕ → β) (n : ℕ) :
    ∑ r∈range n,({g r} : Multiset β)=((List.range n).map g : Multiset β) := by
  induction n with
  | zero => rfl
  | succ n ih =>
    rw [sum_range_succ,ih,List.range_succ,List.map_append,←Multiset.coe_add]
    rfl

/-- A sum over the positions of a list is one over the list. -/
theorem sum_range_get {f : ℕ → M} {g : α → M} {l : List α} (h : ∀ i a,l[i]?=some a → f i=g a) :
    ((List.range l.length).map f).sum=(l.map g).sum := by
  refine congrArg List.sum (List.ext_getElem ?_ fun i hi hj => ?_)
  · rw [List.length_map,List.length_range,List.length_map]
  · rw [List.length_map] at hj
    rw [List.getElem_map,List.getElem_range,List.getElem_map]
    exact h i _ (List.getElem?_eq_getElem hj)

/-- A list of lists is summed list by list. -/
theorem sum_flatMap (f : ι → List α) (g : α → M) (l : List ι) :
    ((l.flatMap f).map g).sum=(l.map fun i => ((f i).map g).sum).sum := by
  induction l with
  | nil => rfl
  | cons i l ih =>
    rw [List.flatMap_cons,List.map_append,List.sum_append,ih,List.map_cons,List.sum_cons]

/-- What is in a sum without repetition is in one of its terms only. -/
theorem term_unique {β : Type} {s : Finset ι} {f : ι → Multiset β} (h : (∑ i∈s,f i).Nodup) {i j : ι}
    (hi : i∈s) (hj : j∈s) {x : β} (hx : x∈f i) (hx' : x∈f j) : i=j := by
  classical
  by_contra hne
  have hrest : f j≤∑ k∈s.erase i,f k :=
    single_le_sum (f:=f) (fun k _ => Multiset.zero_le (f k)) (mem_erase.mpr ⟨Ne.symm hne,hj⟩)
  rw [←add_sum_erase s f hi] at h
  exact Multiset.disjoint_left.mp (Multiset.nodup_add.mp h).2.2 hx (Multiset.mem_of_le hrest hx')

/-- The first parts of pairs are summed apart. -/
theorem sum_fst (f : α → M×M) (l : List α) : (l.map f).sum.1=(l.map fun a => (f a).1).sum := by
  induction l with
  | nil => rfl
  | cons a l ih => rw [List.map_cons,List.sum_cons,List.map_cons,List.sum_cons,Prod.fst_add,ih]

variable [DecidableEq ι]

/-- A function overlaid with another on some indices leaves out, of its own
terms there, what was among the indices before. -/
theorem sum_overlay (f g : ι → M) (s t : Finset ι) :
    ∑ i∈s∪t,(if i∈t then g i else f i)+∑ i∈s∩t,f i=∑ i∈s,f i+∑ i∈t,g i := by
  have hnew : ∑ i∈s∪t,(if i∈t then g i else f i)=∑ i∈s\t,f i+∑ i∈t,g i := by
    rw [←sum_sdiff (subset_union_right : t⊆s∪t),union_sdiff_right]
    congr 1
    · exact sum_congr rfl fun i hi => if_neg (mem_sdiff.mp hi).2
    · exact sum_congr rfl fun i hi => if_pos hi
  rw [hnew,←sum_sdiff (inter_subset_left : s∩t⊆s),sdiff_inter_self_left]
  exact add_right_comm _ _ _

/-- Single values summed over distinct keys are the list of them. -/
theorem sum_keys {β : Type} {l : List α} {key : α → ι} (hn : (l.map key).Nodup) {F : ι → Multiset β}
    {g : α → β} (hF : ∀ a∈l,F (key a)={g a}) :
    ∑ k∈(l.map key).toFinset,F k=(l.map g : Multiset β) := by
  rw [List.sum_toFinset _ hn,List.map_map]
  clear hn
  induction l with
  | nil => rfl
  | cons a l ih =>
    have hrest := ih fun b hb => hF b (List.mem_cons_of_mem a hb)
    have hhead : (F ∘ key) a={g a} := hF a List.mem_cons_self
    rw [List.map_cons,List.map_cons,List.sum_cons,hrest,hhead,←Multiset.cons_coe,
      Multiset.singleton_add]

end XynokEcs.FiniteSums
