import XynokEcs.ComponentBits
import Mathlib.Data.Set.Basic
import Mathlib.Tactic.Ring

/-!
# Component bit sets as sets of ids

The words of a bit set denote the set of ids whose bit is set. Every operation
on words is the operation on sets of that name, whatever zero words a history
left at the end, and the iterator yields the members in increasing order.
-/

namespace XynokEcs.ComponentIds

open ComponentBits

section LowestBit

/-- A number with no bit below a set bit is an odd multiple of its power of two. -/
theorem eq_of_lowestBit {n b : ℕ} (hlow : ∀ i < b,n.testBit i=false) (hb : n.testBit b=true) :
    ∃ r,n=2^(b+1)*r+2^b := by
  have hmod : n%2^b=0 := by
    refine Nat.eq_of_testBit_eq fun i => ?_
    rw [Nat.testBit_mod_two_pow,Nat.zero_testBit]
    by_cases hi : i < b
    · rw [hlow i hi,Bool.and_false]
    · rw [decide_eq_false hi,Bool.false_and]
  have hodd : n/2^b%2=1 := by
    rw [Nat.testBit_eq_decide_div_mod_eq] at hb
    exact of_decide_eq_true hb
  refine ⟨n/2^b/2,?_⟩
  have hn := Nat.div_add_mod n (2^b)
  have hq := Nat.div_add_mod (n/2^b) 2
  rw [hmod,Nat.add_zero] at hn
  rw [hodd] at hq
  calc n=2^b*(n/2^b) := hn.symm
    _=2^b*(2*(n/2^b/2)+1) := by rw [hq]
    _=2^(b+1)*(n/2^b/2)+2^b := by ring

/-- `n & (n-1)` clears the lowest bit and no other. -/
theorem testBit_and_pred {n b : ℕ} (hlow : ∀ i < b,n.testBit i=false) (hb : n.testBit b=true)
    (i : ℕ) : (n &&& (n-1)).testBit i=(n.testBit i && decide (i≠b)) := by
  obtain ⟨r,rfl⟩ := eq_of_lowestBit hlow hb
  have hpos : 0 < 2^b := Nat.two_pow_pos b
  have hlt : 2^b<2^(b+1) := Nat.pow_lt_pow_right (by decide) (Nat.lt_succ_self b)
  have hpred : 2^(b+1)*r+2^b-1=2^(b+1)*r+(2^b-1) := by omega
  rw [hpred,Nat.testBit_and,Nat.testBit_two_pow_mul_add _ hlt,
    Nat.testBit_two_pow_mul_add _ (by omega)]
  by_cases hi : i < b+1
  · rw [if_pos hi,if_pos hi,Nat.testBit_two_pow,Nat.testBit_two_pow_sub_one]
    by_cases hib : b=i
    · simp [hib]
    · simp [hib]
  · have hne : i≠b := by omega
    rw [if_neg hi,if_neg hi,Bool.and_self,decide_eq_true hne,Bool.and_true]

/-- Clearing the lowest bit of a word. -/
theorem getLsbD_clearLowest {w : BitVec 64} (hw : w≠0) (k : ℕ) :
    (w &&& (w-1)).getLsbD k=(w.getLsbD k && decide (k≠w.ctz.toNat)) := by
  have hpos : 1 ≤ w.toNat := by
    have : w.toNat≠0 := fun h => hw (BitVec.eq_of_toNat_eq h)
    omega
  have hsub : (w-1).toNat=w.toNat-1 := BitVec.toNat_sub_of_le (BitVec.le_def.mpr hpos)
  rw [BitVec.getLsbD,BitVec.toNat_and,hsub]
  exact testBit_and_pred (fun i hi => BitVec.getLsbD_false_of_lt_ctz hi)
    (BitVec.getLsbD_true_ctz_of_ne_zero hw) k

/-- The word gets smaller. -/
theorem clearLowest_lt {w : BitVec 64} (hw : w≠0) : (w &&& (w-1)).toNat<w.toNat := by
  have hpos : 1 ≤ w.toNat := by
    have : w.toNat≠0 := fun h => hw (BitVec.eq_of_toNat_eq h)
    omega
  have hsub : (w-1).toNat=w.toNat-1 := BitVec.toNat_sub_of_le (BitVec.le_def.mpr hpos)
  have hle := Nat.and_le_right (n:=w.toNat) (m:=w.toNat-1)
  rw [BitVec.toNat_and,hsub]
  omega

end LowestBit

namespace ComponentBitSet

variable {s t : ComponentBitSet}

/-- The ids a bit set stands for. -/
def ids (s : ComponentBitSet) : Set ℕ := { i | (s.words.getD (i/64) 0).getLsbD (i%64)=true }

/-- `contains` says what the set contains. -/
theorem contains_iff (s : ComponentBitSet) (i : ℕ) : s.contains i=true ↔ i∈ids s := by
  rw [ComponentBitSet.contains_eq]
  rfl

/-- The empty set has no id. -/
theorem ids_empty : ids .empty=∅ := by
  refine Set.eq_empty_iff_forall_notMem.mpr fun i hi => ?_
  rw [←contains_iff,ComponentBitSet.contains_empty] at hi
  cases hi

/-- A cleared set has none. -/
theorem ids_clear (s : ComponentBitSet) : ids s.clear=∅ := ids_empty

/-- `insert` adds one id. -/
theorem ids_insert (s : ComponentBitSet) (i : ℕ) : ids (s.insert i)=Insert.insert i (ids s) := by
  ext j
  rw [←contains_iff,ComponentBitSet.contains_insert,Bool.or_eq_true,decide_eq_true_eq,contains_iff,
    Set.mem_insert_iff]

/-- `remove` takes one id away. -/
theorem ids_remove (s : ComponentBitSet) (i : ℕ) : ids (s.remove i)=ids s \ {i} := by
  ext j
  rw [←contains_iff,ComponentBitSet.contains_remove,Bool.and_eq_true,decide_eq_true_eq,
    contains_iff,Set.mem_sdiff,Set.mem_singleton_iff]
  exact and_comm

/-- `union_with` is the union. -/
theorem ids_unionWith (s t : ComponentBitSet) : ids (s.unionWith t)=ids s ∪ ids t := by
  ext j
  rw [←contains_iff,ComponentBitSet.contains_unionWith,Bool.or_eq_true,contains_iff,contains_iff]
  rfl

/-- `copy_from` is a copy. -/
theorem ids_copyFrom (s t : ComponentBitSet) : ids (s.copyFrom t)=ids t := rfl

/-- `is_empty` tells whether there is an id. -/
theorem isEmpty_iff_ids (s : ComponentBitSet) : s.isEmpty=true ↔ ids s=∅ := by
  rw [ComponentBitSet.isEmpty_iff,Set.eq_empty_iff_forall_notMem]
  refine forall_congr' fun i => ?_
  rw [←contains_iff,Bool.not_eq_true]

/-- `is_disjoint` tells whether sets have no id in common. -/
theorem isDisjoint_iff_ids (s t : ComponentBitSet) : s.isDisjoint t=true ↔ Disjoint (ids s) (ids t) := by
  rw [ComponentBitSet.isDisjoint_iff,Set.disjoint_left]
  refine forall_congr' fun i => ?_
  rw [contains_iff,contains_iff,not_and]

/-- `intersects` tells whether they have one in common. -/
theorem intersects_iff_ids (s t : ComponentBitSet) :
    s.intersects t=true ↔ (ids s ∩ ids t).Nonempty := by
  rw [ComponentBitSet.intersects_iff]
  refine exists_congr fun i => ?_
  rw [contains_iff,contains_iff]
  rfl

/-- `contains_all` is inclusion. -/
theorem containsAll_iff_ids (s t : ComponentBitSet) : s.containsAll t=true ↔ ids t ⊆ ids s := by
  rw [ComponentBitSet.containsAll_iff]
  refine forall_congr' fun i => ?_
  rw [contains_iff,contains_iff]

/-- The operations that change a set. -/
inductive Change
  | insert (id : ℕ)
  | remove (id : ℕ)
  | clear
  | unionWith (other : ComponentBitSet)
  | copyFrom (src : ComponentBitSet)

/-- What a change does to the words. -/
def Change.onWords (s : ComponentBitSet) : Change → ComponentBitSet
  | .insert id => s.insert id
  | .remove id => s.remove id
  | .clear => s.clear
  | .unionWith other => s.unionWith other
  | .copyFrom src => s.copyFrom src

/-- What a change does to the set. -/
def Change.onIds (x : Set ℕ) : Change → Set ℕ
  | .insert id => Insert.insert id x
  | .remove id => x \ {id}
  | .clear => ∅
  | .unionWith other => x ∪ ids other
  | .copyFrom src => ids src

/-- Changing the words changes the set. -/
theorem Change.ids_onWords (c : Change) (s : ComponentBitSet) :
    ids (c.onWords s)=c.onIds (ids s) := by
  cases c with
  | insert id => exact ids_insert s id
  | remove id => exact ids_remove s id
  | clear => exact ids_clear s
  | unionWith other => exact ids_unionWith s other
  | copyFrom src => exact ids_copyFrom s src

/-- The words follow the set through every history. -/
theorem ids_run (cs : List Change) (s : ComponentBitSet) :
    ids (cs.foldl Change.onWords s)=cs.foldl Change.onIds (ids s) := by
  induction cs generalizing s with
  | nil => rfl
  | cons c cs ih =>
    rw [List.foldl_cons,List.foldl_cons,←c.ids_onWords]
    exact ih _

end ComponentBitSet

section Iterator

/-- The place an iteration has come to. -/
structure ComponentBitSetIter where
  /-- The words of the set. -/
  words : List (BitVec 64)
  /-- Which word is being read. -/
  wordIdx : ℕ
  /-- What is left of the word at that index. -/
  current : BitVec 64

/-- `iter`. -/
def ComponentBitSet.iter (s : ComponentBitSet) : ComponentBitSetIter :=
  ⟨s.words,0,(s.words[0]?).getD 0⟩

/-- `next`: the id yielded, if there is one, and the place after it. -/
def ComponentBitSetIter.next (it : ComponentBitSetIter) : Option ℕ×ComponentBitSetIter :=
  if it.current≠0 then
    (some (it.wordIdx*bitsPerWord+it.current.ctz.toNat),
      { it with current := it.current &&& (it.current-1) })
  else match _h : it.words[it.wordIdx+1]? with
    | none => (none,{ it with wordIdx := it.wordIdx+1 })
    | some w => ComponentBitSetIter.next { it with wordIdx := it.wordIdx+1,current := w }
termination_by it.words.length-it.wordIdx
decreasing_by
  have := (List.getElem?_eq_some_iff.mp _h).1
  omega

/-- What is yielded until the iterator ends. -/
inductive Yields : ComponentBitSetIter → List ℕ → Prop
  | done {it : ComponentBitSetIter} : it.next.1=none → Yields it []
  | step {it : ComponentBitSetIter} {i : ℕ} {l : List ℕ} :
    it.next.1=some i → Yields it.next.2 l → Yields it (i::l)

/-- The ids still ahead. -/
def ComponentBitSetIter.ahead (it : ComponentBitSetIter) : Set ℕ :=
  { i | i/64=it.wordIdx ∧ it.current.getLsbD (i%64)=true ∨
    it.wordIdx < i/64 ∧ (it.words.getD (i/64) 0).getLsbD (i%64)=true }

/-- The words left and the bits left in the current one. -/
def ComponentBitSetIter.work (it : ComponentBitSetIter) : ℕ :=
  (it.words.length-it.wordIdx)*2^64+it.current.toNat

/-- At its start an iteration has all ids ahead. -/
theorem ahead_iter (s : ComponentBitSet) : (ComponentBitSet.iter s).ahead=ComponentBitSet.ids s := by
  ext i
  change i/64=0 ∧ ((s.words[0]?).getD 0).getLsbD (i%64)=true ∨
    0 < i/64 ∧ (s.words.getD (i/64) 0).getLsbD (i%64)=true ↔
      (s.words.getD (i/64) 0).getLsbD (i%64)=true
  by_cases hi : i/64=0
  · rw [hi,List.getD_eq_getElem?_getD]
    simp
  · simp [hi,Nat.pos_of_ne_zero hi]

/-- The ids ahead are in the rest of the word and in the words after it. -/
theorem mem_ahead {it : ComponentBitSetIter} {i : ℕ} :
    i∈it.ahead ↔ i/64=it.wordIdx ∧ it.current.getLsbD (i%64)=true ∨
      it.wordIdx < i/64 ∧ (it.words.getD (i/64) 0).getLsbD (i%64)=true := Iff.rfl

/-- Taking the lowest bit of the current word. -/
theorem next_take {it : ComponentBitSetIter} (hw : it.current≠0) :
    it.next=(some (it.wordIdx*64+it.current.ctz.toNat),
      { it with current := it.current &&& (it.current-1) }) := by
  rw [ComponentBitSetIter.next,if_pos hw]
  rfl

/-- The iteration ends after the last word. -/
theorem next_end {it : ComponentBitSetIter} (hw : it.current=0)
    (hn : it.words[it.wordIdx+1]?=none) : it.next.1=none := by
  rw [ComponentBitSetIter.next,if_neg (not_not.mpr hw)]
  split
  · rfl
  · rename_i h
    rw [hn] at h
    cases h

/-- A word that is used up gives way to the next. -/
theorem next_cross {it : ComponentBitSetIter} {w : BitVec 64} (hw : it.current=0)
    (hn : it.words[it.wordIdx+1]?=some w) :
    it.next=({ it with wordIdx := it.wordIdx+1,current := w } : ComponentBitSetIter).next := by
  rw [ComponentBitSetIter.next,if_neg (not_not.mpr hw)]
  split
  · rename_i h
    rw [hn] at h
    cases h
  · rename_i h
    rw [hn] at h
    cases h
    rfl

/-- Nothing is ahead in an empty last word. -/
theorem ahead_end {it : ComponentBitSetIter} (hw : it.current=0)
    (hn : it.words[it.wordIdx+1]?=none) : it.ahead=∅ := by
  refine Set.eq_empty_iff_forall_notMem.mpr fun i hi => ?_
  have hlen := List.getElem?_eq_none_iff.mp hn
  obtain ⟨-,hb⟩ | ⟨hi,hb⟩ := mem_ahead.mp hi
  · rw [hw] at hb
    exact Bool.false_ne_true (BitVec.getLsbD_zero.symm.trans hb)
  · rw [List.getD_eq_getElem?_getD,List.getElem?_eq_none (by omega)] at hb
    exact Bool.false_ne_true (BitVec.getLsbD_zero.symm.trans hb)

/-- Crossing an empty word loses nothing. -/
theorem ahead_cross {it : ComponentBitSetIter} {w : BitVec 64} (hw : it.current=0)
    (hn : it.words[it.wordIdx+1]?=some w) :
    ({ it with wordIdx := it.wordIdx+1,current := w } : ComponentBitSetIter).ahead=it.ahead := by
  have hword : it.words.getD (it.wordIdx+1) 0=w := by rw [List.getD_eq_getElem?_getD,hn]; rfl
  ext i
  rw [mem_ahead,mem_ahead,hw]
  dsimp only
  constructor
  · rintro (⟨hi,hb⟩ | ⟨hi,hb⟩)
    · refine .inr ⟨by omega,?_⟩
      rwa [hi,hword]
    · exact .inr ⟨by omega,hb⟩
  · rintro (⟨-,hb⟩ | ⟨hi,hb⟩)
    · exact absurd (BitVec.getLsbD_zero.symm.trans hb) Bool.false_ne_true
    · by_cases he : i/64=it.wordIdx+1
      · refine .inl ⟨he,?_⟩
        rwa [he,hword] at hb
      · exact .inr ⟨by omega,hb⟩

/-- What one call of `next` does. -/
theorem next_spec (it : ComponentBitSetIter) :
    (it.next.1=none ∧ it.ahead=∅) ∨ ∃ i,it.next.1=some i ∧ i∈it.ahead ∧
      it.next.2.ahead=it.ahead \ {i} ∧ (∀ j∈it.ahead,i ≤ j) ∧ it.next.2.work < it.work := by
  induction it using ComponentBitSetIter.next.induct with
  | case1 it hw =>
    have hlt : it.current.ctz.toNat<64 := BitVec.lt_def.mp (BitVec.ctz_lt_iff_ne_zero.mpr hw)
    have hbit := BitVec.getLsbD_true_ctz_of_ne_zero hw
    have hdiv : (it.wordIdx*64+it.current.ctz.toNat)/64=it.wordIdx := by omega
    have hmod : (it.wordIdx*64+it.current.ctz.toNat)%64=it.current.ctz.toNat := by omega
    rw [next_take hw]
    refine .inr ⟨_,rfl,.inl ⟨hdiv,?_⟩,?_,?_,?_⟩
    · rw [hmod]
      exact hbit
    · ext j
      rw [mem_ahead,Set.mem_sdiff,Set.mem_singleton_iff,mem_ahead,getLsbD_clearLowest hw,
        Bool.and_eq_true,decide_eq_true_eq]
      dsimp only
      constructor
      · rintro (⟨hj,hb,hne⟩ | ⟨hj,hb⟩)
        · exact ⟨.inl ⟨hj,hb⟩,by omega⟩
        · exact ⟨.inr ⟨hj,hb⟩,by omega⟩
      · rintro ⟨⟨hj,hb⟩ | ⟨hj,hb⟩,hne⟩
        · exact .inl ⟨hj,hb,by omega⟩
        · exact .inr ⟨hj,hb⟩
    · intro j hj
      obtain ⟨hj,hb⟩ | ⟨hj,-⟩ := mem_ahead.mp hj
      · by_contra hlt
        have hlow := BitVec.getLsbD_false_of_lt_ctz (x:=it.current) (i:=j%64) (by omega)
        rw [hlow] at hb
        cases hb
      · omega
    · exact Nat.add_lt_add_left (clearLowest_lt hw) _
  | case2 it hw hnone =>
    have hw := not_not.mp hw
    exact .inl ⟨next_end hw hnone,ahead_end hw hnone⟩
  | case3 it hw w hsome ih =>
    have hw := not_not.mp hw
    have hlen := (List.getElem?_eq_some_iff.mp hsome).1
    rw [ahead_cross hw hsome] at ih
    rw [next_cross hw hsome]
    obtain h | ⟨i,hi,hmem,hahead,hmin,hwork⟩ := ih
    · exact .inl h
    · refine .inr ⟨i,hi,hmem,hahead,hmin,hwork.trans ?_⟩
      have hlt := w.isLt
      rw [ComponentBitSetIter.work,ComponentBitSetIter.work]
      dsimp only
      omega

/-- The iteration ends, and yields every id ahead once, in increasing order. -/
theorem yields_ahead (it : ComponentBitSetIter) :
    ∃ l,Yields it l ∧ l.Pairwise (·<·) ∧ ∀ i,i∈l ↔ i∈it.ahead := by
  generalize hn : it.work=n
  induction n using Nat.strong_induction_on generalizing it with
  | h n ih =>
    obtain ⟨hnone,hempty⟩ | ⟨i,hsome,hi,hahead,hmin,hwork⟩ := next_spec it
    · refine ⟨[],.done hnone,List.Pairwise.nil,fun i => ?_⟩
      rw [hempty]
      exact iff_of_false List.not_mem_nil (Set.notMem_empty i)
    · obtain ⟨l,hl,hsorted,hmem⟩ := ih _ (hn ▸ hwork) it.next.2 rfl
      refine ⟨i::l,.step hsome hl,List.pairwise_cons.mpr ⟨fun j hj => ?_,hsorted⟩,fun j => ?_⟩
      · have hj := (hmem j).mp hj
        rw [hahead] at hj
        have hle := hmin j hj.1
        have hne : j≠i := hj.2
        omega
      · rw [List.mem_cons,hmem,hahead,Set.mem_sdiff,Set.mem_singleton_iff]
        by_cases hji : j=i
        · subst hji
          exact iff_of_true (.inl rfl) hi
        · exact ⟨fun h => (h.resolve_left hji).1,fun h => .inr ⟨h,hji⟩⟩

end Iterator

/-- Bit sets are finite sets of ids: every history leaves the expected set, every
question is answered as on the sets, and iterating ends with the members in
increasing order. -/
theorem componentBitSet_refines :
    (∀ (cs : List ComponentBitSet.Change) (s : ComponentBitSet),
      ComponentBitSet.ids (cs.foldl ComponentBitSet.Change.onWords s)=
        cs.foldl ComponentBitSet.Change.onIds (ComponentBitSet.ids s)) ∧
    ComponentBitSet.ids .empty=∅ ∧
    (∀ s : ComponentBitSet,(∀ i,s.contains i=true ↔ i∈ComponentBitSet.ids s) ∧
      (s.isEmpty=true ↔ ComponentBitSet.ids s=∅) ∧
      ∃ l,Yields (ComponentBitSet.iter s) l ∧ l.Pairwise (·<·) ∧
        ∀ i,i∈l ↔ i∈ComponentBitSet.ids s) ∧
    ∀ s t : ComponentBitSet,
      (s.isDisjoint t=true ↔ Disjoint (ComponentBitSet.ids s) (ComponentBitSet.ids t)) ∧
      (s.intersects t=true ↔ (ComponentBitSet.ids s ∩ ComponentBitSet.ids t).Nonempty) ∧
      (s.containsAll t=true ↔ ComponentBitSet.ids t ⊆ ComponentBitSet.ids s) := by
  refine ⟨ComponentBitSet.ids_run,ComponentBitSet.ids_empty,fun s => ?_,fun s t => ?_⟩
  · refine ⟨ComponentBitSet.contains_iff s,ComponentBitSet.isEmpty_iff_ids s,?_⟩
    have hyields := yields_ahead (ComponentBitSet.iter s)
    rwa [ahead_iter] at hyields
  · exact ⟨ComponentBitSet.isDisjoint_iff_ids s t,ComponentBitSet.intersects_iff_ids s t,
      ComponentBitSet.containsAll_iff_ids s t⟩

end XynokEcs.ComponentIds
