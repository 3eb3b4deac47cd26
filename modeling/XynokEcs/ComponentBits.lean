import Mathlib

/-!
# Sets of component ids as words of bits

Component `id` is bit `id%64` of word `id/64`; words past the end of the list
count as zero. Each operation is characterised by the ids it contains, whatever
trailing zero words a set carries.
-/

namespace XynokEcs.ComponentBits

/-- How many component ids fit in one word of the set. -/
def bitsPerWord : ℕ := 64

/-- A set of component ids. -/
structure ComponentBitSet where
  /-- The words, lowest ids first. -/
  words : List (BitVec 64)
deriving DecidableEq

namespace ComponentBitSet

/-- The set with no words. -/
def empty : ComponentBitSet := ⟨[]⟩

/-- `clear`: drop every word. -/
def clear (_s : ComponentBitSet) : ComponentBitSet := ⟨[]⟩

/-- No word has a bit. -/
def isEmpty (s : ComponentBitSet) : Bool := s.words.all (fun w => w=0)

/-- Pad with zero words up to a length. -/
def resize (words : List (BitVec 64)) (n : ℕ) : List (BitVec 64) :=
  words++List.replicate (n-words.length) 0

/-- Set the bit of an id, growing the words when they are too few. -/
def insert (s : ComponentBitSet) (id : ℕ) : ComponentBitSet :=
  let word := id/bitsPerWord
  let bit := id%bitsPerWord
  let words := if s.words.length≤word then resize s.words (word+1) else s.words
  ⟨words.modify word (fun w => w ||| (1#64<<<bit))⟩

/-- Clear the bit of an id. -/
def remove (s : ComponentBitSet) (id : ℕ) : ComponentBitSet :=
  let word := id/bitsPerWord
  let bit := id%bitsPerWord
  ⟨s.words.modify word (fun w => w &&& ~~~(1#64<<<bit))⟩

/-- Whether the bit of an id is set. -/
def contains (s : ComponentBitSet) (id : ℕ) : Bool :=
  let word := id/bitsPerWord
  let bit := id%bitsPerWord
  (s.words[word]?).any (fun w => w &&& (1#64<<<bit)≠0)

/-- No bit in common; `zip` stops at the shorter list. -/
def isDisjoint (s other : ComponentBitSet) : Bool :=
  (s.words.zip other.words).all (fun p => p.1 &&& p.2=0)

/-- Some bit in common. -/
def intersects (s other : ComponentBitSet) : Bool := !s.isDisjoint other

/-- Every bit of `other` is set here too. -/
def containsAll (s other : ComponentBitSet) : Bool :=
  (other.words.zipIdx).all (fun p => p.1 &&& ~~~(s.words.getD p.2 0)=0)

/-- Take over the words of another set. -/
def copyFrom (_s src : ComponentBitSet) : ComponentBitSet := ⟨src.words⟩

/-- Set every bit of another set, growing the words when they are fewer. -/
def unionWith (s other : ComponentBitSet) : ComponentBitSet :=
  let words := if s.words.length<other.words.length then resize s.words other.words.length
    else s.words
  ⟨words.zipWith (fun a b => a ||| b) (resize other.words words.length)⟩

/-- The word at an index, zero past the end. -/
def wordAt (s : ComponentBitSet) (i : ℕ) : BitVec 64 := s.words.getD i 0

/-- The mask of a bit has that bit alone. -/
theorem getLsbD_mask {b : ℕ} (hb : b<64) (k : ℕ) : (1#64<<<b).getLsbD k=decide (b=k) := by
  rw [show (1#64<<<b)=BitVec.twoPow 64 b from rfl,BitVec.getLsbD_twoPow]
  simp only [hb,decide_true,Bool.true_and]

/-- The bit test on a word. -/
theorem and_shift_ne_zero (w : BitVec 64) {b : ℕ} (hb : b<64) :
    w &&& (1#64<<<b)≠0 ↔ w.getLsbD b=true := by
  have h : w &&& (1#64<<<b)=if w.getLsbD b then BitVec.twoPow 64 b else 0#64 := by
    rw [←BitVec.and_twoPow]
    rfl
  rw [h]
  constructor
  · intro hne
    by_contra hf
    exact hne (if_neg hf)
  · intro ht hz
    rw [if_pos ht] at hz
    have := congrArg (fun v => v.getLsbD b) hz
    simp [hb] at this

/-- An id is contained when its bit of its word is set. -/
theorem contains_eq (s : ComponentBitSet) (id : ℕ) :
    s.contains id=(s.wordAt (id/64)).getLsbD (id%64) := by
  have hb : id%64<64 := Nat.mod_lt _ (by decide)
  rw [Bool.eq_iff_iff,contains,wordAt,bitsPerWord,List.getD_eq_getElem?_getD]
  cases s.words[id/64]? with
  | none => simp
  | some w =>
    simp only [Option.any_some,Option.getD_some,decide_eq_true_eq]
    exact and_shift_ne_zero w hb

@[simp] theorem contains_empty (id : ℕ) : empty.contains id=false := rfl

@[simp] theorem contains_clear (s : ComponentBitSet) (id : ℕ) : s.clear.contains id=false := rfl

theorem wordAt_resize (s : ComponentBitSet) (n i : ℕ) :
    (ComponentBitSet.mk (resize s.words n)).wordAt i=s.wordAt i := by
  simp only [wordAt,resize,List.getD_eq_getElem?_getD,List.getElem?_append,List.getElem?_replicate]
  split
  · rfl
  · rename_i h
    rw [List.getElem?_eq_none (Nat.le_of_not_lt h)]
    split <;> rfl

/-- Inserting an id adds it and nothing else. -/
@[simp] theorem contains_insert (s : ComponentBitSet) (i j : ℕ) :
    (s.insert i).contains j=(decide (j=i) || s.contains j) := by
  let t : ComponentBitSet :=
    ⟨if s.words.length ≤ i/64 then resize s.words (i/64+1) else s.words⟩
  have hw : ∀ k,t.wordAt k=s.wordAt k := by
    intro k
    by_cases h : s.words.length ≤ i/64
    · simp only [t,if_pos h]
      exact wordAt_resize s _ k
    · simp only [t,if_neg h]
  have hl : i/64<t.words.length := by
    by_cases h : s.words.length ≤ i/64
    · simp only [t,if_pos h,resize,List.length_append,List.length_replicate]
      omega
    · simp only [t,if_neg h]
      omega
  have hi : s.insert i=⟨t.words.modify (i/64) (fun w => w ||| (1#64<<<(i%64)))⟩ := rfl
  rw [hi,contains_eq,contains_eq,←hw]
  simp only [wordAt,List.getD_eq_getElem?_getD]
  by_cases hk : i/64=j/64
  · rw [←hk,List.getElem?_modify_eq,List.getElem?_eq_getElem hl]
    have hb := getLsbD_mask (Nat.mod_lt i (by decide)) (j%64)
    have hji : decide (i%64=j%64)=decide (j=i) := decide_eq_decide.mpr (by omega)
    simp only [Option.map_eq_map,Option.map_some,Option.getD_some,BitVec.getLsbD_or,hb,hji,
      Bool.or_comm]
  · have hne : j≠i := by omega
    rw [List.getElem?_modify_ne _ _ hk]
    simp only [hne,decide_false,Bool.false_or]

/-- Removing an id takes it out and nothing else. -/
@[simp] theorem contains_remove (s : ComponentBitSet) (i j : ℕ) :
    (s.remove i).contains j=(decide (j≠i) && s.contains j) := by
  have hi : s.remove i=⟨s.words.modify (i/64) (fun w => w &&& ~~~(1#64<<<(i%64)))⟩ := rfl
  rw [hi,contains_eq,contains_eq]
  simp only [wordAt,List.getD_eq_getElem?_getD]
  by_cases hk : i/64=j/64
  · rw [hk,List.getElem?_modify_eq]
    have hj : j%64<64 := Nat.mod_lt _ (by decide)
    have hb : (~~~(1#64<<<(i%64))).getLsbD (j%64)=decide (i%64≠j%64) := by
      rw [BitVec.getLsbD_not,getLsbD_mask (Nat.mod_lt i (by decide))]
      simp only [hj,decide_true,Bool.true_and,decide_not,ne_eq]
    have hji : (i%64≠j%64) ↔ j≠i := by omega
    cases s.words[j/64]? with
    | none => simp
    | some w =>
      simp only [Option.map_eq_map,Option.map_some,Option.getD_some,BitVec.getLsbD_and,hb,hji,
        Bool.and_comm]
  · have hne : j≠i := by omega
    rw [List.getElem?_modify_ne _ _ hk]
    simp only [ne_eq,hne,not_false_eq_true,decide_true,Bool.true_and]

/-- Two words share no bit exactly when their conjunction is zero. -/
theorem and_eq_zero_iff (a b : BitVec 64) :
    a &&& b=0 ↔ ∀ k<64,¬(a.getLsbD k=true ∧ b.getLsbD k=true) := by
  constructor
  · intro h k _ hk
    have := congrArg (fun v => v.getLsbD k) h
    simp [hk.1,hk.2] at this
  · intro h
    apply BitVec.eq_of_getLsbD_eq
    intro k hk
    have := h k hk
    simp only [BitVec.getLsbD_and]
    cases ha : a.getLsbD k <;> cases hb : b.getLsbD k <;> simp_all

/-- Disjoint sets have no common id, whatever their lengths. -/
theorem isDisjoint_iff (s t : ComponentBitSet) :
    s.isDisjoint t=true ↔ ∀ i,¬(s.contains i=true ∧ t.contains i=true) := by
  rw [isDisjoint,List.all_eq_true]
  constructor
  · intro h i
    rw [contains_eq,contains_eq]
    rintro ⟨hs,ht⟩
    simp only [wordAt,List.getD_eq_getElem?_getD] at hs ht
    cases hw : s.words[i/64]? with
    | none => simp [hw] at hs
    | some a =>
      cases hw' : t.words[i/64]? with
      | none => simp [hw'] at ht
      | some b =>
        rw [hw,Option.getD_some] at hs
        rw [hw',Option.getD_some] at ht
        have hz : (s.words.zip t.words)[i/64]?=some (a,b) := by
          rw [List.getElem?_zip_eq_some]
          exact ⟨hw,hw'⟩
        have := h (a,b) (List.mem_of_getElem? hz)
        rw [decide_eq_true_eq,and_eq_zero_iff] at this
        exact this (i%64) (Nat.mod_lt _ (by decide)) ⟨hs,ht⟩
  · intro h p hp
    obtain ⟨k,hk⟩ := List.mem_iff_getElem?.mp hp
    obtain ⟨ha,hb⟩ := List.getElem?_zip_eq_some.mp hk
    rw [decide_eq_true_eq,and_eq_zero_iff]
    intro b hb64 hc
    have hd : (k*64+b)/64=k := by omega
    have hm : (k*64+b)%64=b := by omega
    refine h (k*64+b) ⟨?_,?_⟩
    · rw [contains_eq,hd,hm,wordAt,List.getD_eq_getElem?_getD,ha]
      exact hc.1
    · rw [contains_eq,hd,hm,wordAt,List.getD_eq_getElem?_getD,hb]
      exact hc.2

/-- Intersecting sets have a common id. -/
theorem intersects_iff (s t : ComponentBitSet) :
    s.intersects t=true ↔ ∃ i,s.contains i=true ∧ t.contains i=true := by
  rw [intersects,Bool.not_eq_true',←Bool.not_eq_true,isDisjoint_iff]
  push Not
  rfl

/-- Containment is the inclusion of the ids, whatever the lengths. -/
theorem containsAll_iff (s t : ComponentBitSet) :
    s.containsAll t=true ↔ ∀ i,t.contains i=true → s.contains i=true := by
  rw [containsAll,List.all_eq_true]
  have hword : ∀ a b : BitVec 64,a &&& ~~~b=0 ↔ ∀ k<64,a.getLsbD k=true → b.getLsbD k=true := by
    intro a b
    rw [and_eq_zero_iff]
    refine forall₂_congr fun k hk => ?_
    simp only [BitVec.getLsbD_not,hk,decide_true,Bool.true_and,Bool.not_eq_true',not_and,
      Bool.not_eq_false]
  constructor
  · intro h i ht
    rw [contains_eq] at ht ⊢
    simp only [wordAt,List.getD_eq_getElem?_getD] at ht ⊢
    cases hw : t.words[i/64]? with
    | none => simp [hw] at ht
    | some a =>
      rw [hw,Option.getD_some] at ht
      have hz : (a,i/64)∈t.words.zipIdx := List.mem_zipIdx_iff_getElem?.mpr hw
      have := h (a,i/64) hz
      rw [decide_eq_true_eq,hword] at this
      have hb := this (i%64) (Nat.mod_lt _ (by decide)) ht
      rwa [List.getD_eq_getElem?_getD] at hb
  · rintro h ⟨a,k⟩ hp
    have hk := List.mem_zipIdx_iff_getElem?.mp hp
    simp only at hk
    rw [decide_eq_true_eq,hword]
    intro b hb64 hc
    have hd : (k*64+b)/64=k := by omega
    have hm : (k*64+b)%64=b := by omega
    have := h (k*64+b)
    rw [contains_eq,contains_eq,hd,hm,wordAt,List.getD_eq_getElem?_getD,hk,wordAt] at this
    exact this hc

/-- The union contains what either set contains. -/
@[simp] theorem contains_unionWith (s t : ComponentBitSet) (i : ℕ) :
    (s.unionWith t).contains i=(s.contains i || t.contains i) := by
  let u : ComponentBitSet :=
    ⟨if s.words.length<t.words.length then resize s.words t.words.length else s.words⟩
  have hu : ∀ k,u.wordAt k=s.wordAt k := by
    intro k
    by_cases h : s.words.length<t.words.length
    · simp only [u,if_pos h]
      exact wordAt_resize s _ k
    · simp only [u,if_neg h]
  have hl : t.words.length≤u.words.length := by
    by_cases h : s.words.length<t.words.length
    · simp only [u,if_pos h,resize,List.length_append,List.length_replicate]
      omega
    · simp only [u,if_neg h]
      omega
  have he : s.unionWith t=⟨u.words.zipWith (fun a b => a ||| b) (resize t.words u.words.length)⟩ := rfl
  have hr := wordAt_resize t u.words.length (i/64)
  have hlr : (resize t.words u.words.length).length=u.words.length := by
    simp only [resize,List.length_append,List.length_replicate]
    omega
  rw [contains_eq,contains_eq,contains_eq,←hu,←hr,he]
  simp only [wordAt,List.getD_eq_getElem?_getD,List.getElem?_zipWith]
  by_cases hi : i/64<u.words.length
  · rw [List.getElem?_eq_getElem hi,List.getElem?_eq_getElem (by omega)]
    simp only [Option.getD_some,BitVec.getLsbD_or]
  · rw [List.getElem?_eq_none (by omega),List.getElem?_eq_none (by omega)]
    simp

/-- A set is empty when it contains no id. -/
theorem isEmpty_iff (s : ComponentBitSet) : s.isEmpty=true ↔ ∀ i,s.contains i=false := by
  rw [isEmpty,List.all_eq_true]
  constructor
  · intro h i
    rw [contains_eq,wordAt,List.getD_eq_getElem?_getD]
    cases hw : s.words[i/64]? with
    | none => simp
    | some a =>
      have := of_decide_eq_true (h a (List.mem_of_getElem? hw))
      simp [this]
  · intro h a ha
    obtain ⟨k,hk⟩ := List.mem_iff_getElem?.mp ha
    rw [decide_eq_true_eq]
    apply BitVec.eq_of_getLsbD_eq
    intro b hb
    have hd : (k*64+b)/64=k := by omega
    have hm : (k*64+b)%64=b := by omega
    have := h (k*64+b)
    rw [contains_eq,hd,hm,wordAt,List.getD_eq_getElem?_getD,hk] at this
    simpa using this

end ComponentBitSet

end XynokEcs.ComponentBits
