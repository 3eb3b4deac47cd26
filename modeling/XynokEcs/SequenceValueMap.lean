import Mathlib.Data.List.AList
import Mathlib.Data.List.Infix

/-!
# Append-only maps with dense values

Every key keeps the index its value was stored at, for as long as the map
lives. A position of the entry list is that index, so the hash table from keys
to positions is the position of the key itself.
-/

namespace XynokEcs.SequenceValueMap

/-- A hash map; only lookups, insertions and the set of keys matter. -/
abbrev HashMap (K V : Type) := AList (fun _ : K => V)

/-- An append-only map: keys and values in insertion order, no key twice. -/
structure SequenceValueHashMap (K V : Type) where
  /-- The keys next to their values, in insertion order. -/
  entries : List (K×V)
  /-- No key is entered twice. -/
  keys_nodup : (entries.map Prod.fst).Nodup

namespace SequenceValueHashMap

variable {K V : Type}

/-- The empty map. -/
def empty : SequenceValueHashMap K V := ⟨[],List.nodup_nil⟩

/-- The number of values. -/
def len (m : SequenceValueHashMap K V) : ℕ := m.entries.length

/-- The keys in insertion order. -/
def keys (m : SequenceValueHashMap K V) : List K := m.entries.map Prod.fst

/-- The values in insertion order. -/
def values (m : SequenceValueHashMap K V) : List V := m.entries.map Prod.snd

/-- The value stored at an index. -/
def valueAt (m : SequenceValueHashMap K V) (i : ℕ) : Option V := m.entries[i]?.map Prod.snd

/-- The key stored at an index. -/
def keyAt (m : SequenceValueHashMap K V) (i : ℕ) : Option K := m.entries[i]?.map Prod.fst

/-- Rewrite the value at an index, when there is one. -/
def modifyAt (m : SequenceValueHashMap K V) (i : ℕ) (f : V → V) : SequenceValueHashMap K V where
  entries := m.entries.modify i (Prod.map id f)
  keys_nodup := by
    have hk : (m.entries.modify i (Prod.map id f)).map Prod.fst=m.entries.map Prod.fst := by
      apply List.ext_getElem?
      intro j
      rw [List.getElem?_map,List.getElem?_map,List.getElem?_modify]
      split <;> cases m.entries[j]? <;> rfl
    rw [hk]
    exact m.keys_nodup

/-- The empty map has no entry. -/
@[simp] theorem len_empty : (empty : SequenceValueHashMap K V).len=0 := rfl

/-- It has no value at any index. -/
@[simp] theorem valueAt_empty (i : ℕ) : (empty : SequenceValueHashMap K V).valueAt i=none := rfl

/-- Rewriting an entry keeps their number. -/
@[simp] theorem len_modifyAt (m : SequenceValueHashMap K V) (i : ℕ) (f : V → V) :
    (m.modifyAt i f).len=m.len := by
  simp only [len,modifyAt,List.length_modify]

/-- Rewriting an entry keeps the keys. -/
theorem keyAt_modifyAt (m : SequenceValueHashMap K V) (i j : ℕ) (f : V → V) :
    (m.modifyAt i f).keyAt j=m.keyAt j := by
  simp only [keyAt,modifyAt,List.getElem?_modify]
  split <;> cases m.entries[j]? <;> rfl

/-- Rewriting an entry rewrites the value at its index. -/
theorem valueAt_modifyAt (m : SequenceValueHashMap K V) (i j : ℕ) (f : V → V) :
    (m.modifyAt i f).valueAt j=if i=j then (m.valueAt j).map f else m.valueAt j := by
  simp only [valueAt,modifyAt,List.getElem?_modify]
  split <;> cases m.entries[j]? <;> rfl

/-- Only the value that is there matters to a change of it. -/
theorem modifyAt_congr {m : SequenceValueHashMap K V} {i : ℕ} {v : V} {f g : V → V}
    (h : m.valueAt i=some v) (hfg : f v=g v) : m.modifyAt i f=m.modifyAt i g := by
  have he : m.entries.modify i (Prod.map id f)=m.entries.modify i (Prod.map id g) := by
    apply List.ext_getElem?
    intro j
    rw [List.getElem?_modify,List.getElem?_modify]
    split
    · rename_i hij
      subst hij
      obtain ⟨p,hp,rfl⟩ := Option.map_eq_some_iff.mp h
      rw [hp]
      exact congrArg some (Prod.ext rfl hfg)
    · rfl
  simp only [modifyAt,he]

/-- Rewriting a value with itself changes nothing. -/
theorem modifyAt_self {m : SequenceValueHashMap K V} {i : ℕ} {v : V} {f : V → V}
    (h : m.valueAt i=some v) (hf : f v=v) : m.modifyAt i f=m := by
  have he : m.entries.modify i (Prod.map id f)=m.entries := by
    apply List.ext_getElem?
    intro j
    rw [List.getElem?_modify]
    split
    · rename_i hij
      subst hij
      obtain ⟨p,hp,rfl⟩ := Option.map_eq_some_iff.mp h
      rw [hp]
      exact congrArg some (Prod.ext rfl hf)
    · exact Option.map_id'
  cases m
  simp only [modifyAt,he]

variable [DecidableEq K]

/-- The index of a key. -/
def indexOf (m : SequenceValueHashMap K V) (k : K) : Option ℕ :=
  m.entries.findIdx? (fun p => p.1=k)

/-- Whether a key is present. -/
def containsKey (m : SequenceValueHashMap K V) (k : K) : Bool := (m.indexOf k).isSome

/-- The value of a key. -/
def get (m : SequenceValueHashMap K V) (k : K) : Option V := (m.indexOf k).bind m.valueAt

/-- A key without an index is no key. -/
theorem indexOf_none {m : SequenceValueHashMap K V} {k : K} :
    m.indexOf k=none ↔ k∉m.keys := by
  simp only [indexOf,List.findIdx?_eq_none_iff,keys,List.mem_map,not_exists,not_and,
    decide_eq_false_iff_not]

/-- Append a key that is not present yet. -/
def push (m : SequenceValueHashMap K V) (k : K) (v : V) (h : m.indexOf k=none) :
    SequenceValueHashMap K V where
  entries := m.entries++[(k,v)]
  keys_nodup := by
    rw [List.map_append,List.nodup_append]
    refine ⟨m.keys_nodup,List.nodup_singleton k,?_⟩
    intro a ha b hb
    rw [List.map_cons,List.map_nil,List.mem_singleton] at hb
    rintro rfl
    subst hb
    exact indexOf_none.mp h ha

/-- Store a value under a key: an existing key keeps its index and loses its
old value, a new one is appended. The index comes with the map. -/
def insert (m : SequenceValueHashMap K V) (k : K) (v : V) : SequenceValueHashMap K V×ℕ :=
  match h : m.indexOf k with
  | some i => (m.modifyAt i (fun _ => v),i)
  | none => (m.push k v h,m.len)

/-- The index of a key, appending a value when it is missing. -/
def getOrInsertWith (m : SequenceValueHashMap K V) (k : K) (v : V) :
    SequenceValueHashMap K V×ℕ :=
  match h : m.indexOf k with
  | some i => (m,i)
  | none => (m.push k v h,m.len)

/-- `get_mut`: rewrite the value of a key, when it is present. -/
def modify (m : SequenceValueHashMap K V) (k : K) (f : V → V) : SequenceValueHashMap K V :=
  match m.indexOf k with
  | some i => m.modifyAt i f
  | none => m

/-- Indices are below the number of entries. -/
theorem indexOf_lt {m : SequenceValueHashMap K V} {k : K} {i : ℕ} (h : m.indexOf k=some i) :
    i < m.len := by
  obtain ⟨hi,-⟩ := List.findIdx?_eq_some_iff_getElem.mp h
  exact hi

/-- At the index of a key stands the key. -/
theorem keyAt_of_indexOf {m : SequenceValueHashMap K V} {k : K} {i : ℕ} (h : m.indexOf k=some i) :
    m.keyAt i=some k := by
  obtain ⟨hi,hk,-⟩ := List.findIdx?_eq_some_iff_getElem.mp h
  simp only [keyAt,List.getElem?_eq_getElem hi,Option.map_some,of_decide_eq_true hk]

/-- The index of a key is the one position that stores it. -/
theorem indexOf_eq_some_iff {m : SequenceValueHashMap K V} {k : K} {i : ℕ} :
    m.indexOf k=some i ↔ m.keyAt i=some k := by
  constructor
  · exact keyAt_of_indexOf
  · intro h
    have hm : k∈m.keys := by
      simp only [keyAt,Option.map_eq_some_iff] at h
      obtain ⟨p,hp,rfl⟩ := h
      exact List.mem_map_of_mem (List.mem_of_getElem? hp)
    cases hj : m.indexOf k with
    | none => exact absurd hm (indexOf_none.mp hj)
    | some j =>
      have hkj := keyAt_of_indexOf hj
      have hi : m.keys[i]?=some k := by simpa only [keys,List.getElem?_map,keyAt] using h
      have hj' : m.keys[j]?=some k := by simpa only [keys,List.getElem?_map,keyAt] using hkj
      obtain ⟨hil,hie⟩ := List.getElem?_eq_some_iff.mp hi
      obtain ⟨hjl,hje⟩ := List.getElem?_eq_some_iff.mp hj'
      have := (List.Nodup.getElem_inj_iff m.keys_nodup).mp (hje.trans hie.symm)
      rw [this]

/-- Two keys at one index are the same key. -/
theorem indexOf_inj {m : SequenceValueHashMap K V} {k k' : K} {i : ℕ}
    (h : m.indexOf k=some i) (h' : m.indexOf k'=some i) : k=k' := by
  have := (keyAt_of_indexOf h).symm.trans (keyAt_of_indexOf h')
  exact Option.some.inj this

/-- Keys are what has an index. -/
theorem indexOf_isSome {m : SequenceValueHashMap K V} {k : K} :
    (m.indexOf k).isSome ↔ k∈m.keys := by
  rw [←not_iff_not,Bool.not_eq_true,Option.isSome_eq_false_iff,Option.isNone_iff_eq_none,
    indexOf_none]

/-- The empty map has no index. -/
@[simp] theorem indexOf_empty (k : K) : (empty : SequenceValueHashMap K V).indexOf k=none := rfl

/-- A new entry adds one. -/
@[simp] theorem len_push (m : SequenceValueHashMap K V) (k : K) (v : V) (h : m.indexOf k=none) :
    (m.push k v h).len=m.len+1 := by
  simp only [len,push,List.length_append,List.length_cons,List.length_nil]

/-- Its key comes last. -/
@[simp] theorem keys_push (m : SequenceValueHashMap K V) (k : K) (v : V) (h : m.indexOf k=none) :
    (m.push k v h).keys=m.keys++[k] := by
  simp only [keys,push,List.map_append,List.map_cons,List.map_nil]

/-- Its value is at the index after the others. -/
theorem valueAt_push (m : SequenceValueHashMap K V) (k : K) (v : V) (h : m.indexOf k=none)
    (i : ℕ) : (m.push k v h).valueAt i=if i=m.len then some v else m.valueAt i := by
  by_cases hi : i=m.len
  · subst hi
    simp only [valueAt,push,len,List.getElem?_concat_length,Option.map_some,if_true]
  · rw [if_neg hi]
    simp only [valueAt,push]
    rcases Nat.lt_or_gt_of_ne hi with hlt | hgt
    · rw [List.getElem?_append_left hlt]
    · rw [List.getElem?_eq_none (by simp only [List.length_append,List.length_singleton]; exact hgt),
        List.getElem?_eq_none (Nat.le_of_lt hgt)]

/-- Its key is at that index too. -/
theorem keyAt_push (m : SequenceValueHashMap K V) (k : K) (v : V) (h : m.indexOf k=none)
    (i : ℕ) : (m.push k v h).keyAt i=if i=m.len then some k else m.keyAt i := by
  by_cases hi : i=m.len
  · subst hi
    simp only [keyAt,push,len,List.getElem?_concat_length,Option.map_some,if_true]
  · rw [if_neg hi]
    simp only [keyAt,push]
    rcases Nat.lt_or_gt_of_ne hi with hlt | hgt
    · rw [List.getElem?_append_left hlt]
    · rw [List.getElem?_eq_none (by simp only [List.length_append,List.length_singleton]; exact hgt),
        List.getElem?_eq_none (Nat.le_of_lt hgt)]

/-- Appending a key gives it the next index and leaves the others. -/
theorem indexOf_push (m : SequenceValueHashMap K V) (k : K) (v : V) (h : m.indexOf k=none)
    (k' : K) : (m.push k v h).indexOf k'=if k'=k then some m.len else m.indexOf k' := by
  split
  · rename_i hk
    subst hk
    rw [indexOf_eq_some_iff,keyAt_push,if_pos rfl]
  · rename_i hk
    cases hj : m.indexOf k' with
    | none =>
      rw [indexOf_none] at hj ⊢
      rw [keys_push,List.mem_append,List.mem_singleton]
      exact fun hc => hc.elim hj hk
    | some j =>
      rw [indexOf_eq_some_iff,keyAt_push,if_neg (Nat.ne_of_lt (indexOf_lt hj))]
      exact keyAt_of_indexOf hj

/-- Rewriting a value moves no key. -/
@[simp] theorem indexOf_modifyAt (m : SequenceValueHashMap K V) (i : ℕ) (f : V → V) (k : K) :
    (m.modifyAt i f).indexOf k=m.indexOf k := by
  apply Option.ext
  intro j
  rw [indexOf_eq_some_iff,indexOf_eq_some_iff,keyAt_modifyAt]

/-- `getOrInsertWith` returns the index the map it leaves has for the key. -/
theorem getOrInsertWith_index (m : SequenceValueHashMap K V) (k : K) (v : V) :
    (m.getOrInsertWith k v).1.indexOf k=some (m.getOrInsertWith k v).2 := by
  unfold getOrInsertWith
  split
  · assumption
  · rw [indexOf_push,if_pos rfl]

/-- `getOrInsertWith` keeps the index of every key that had one. -/
theorem getOrInsertWith_indexOf {m : SequenceValueHashMap K V} {k k' : K} {i : ℕ} (v : V)
    (h : m.indexOf k'=some i) : (m.getOrInsertWith k v).1.indexOf k'=some i := by
  unfold getOrInsertWith
  split
  · exact h
  · rename_i hk
    rw [indexOf_push,if_neg]
    · exact h
    · rintro rfl
      rw [hk] at h
      cases h

omit [DecidableEq K] in
/-- There is a value exactly below the length. -/
theorem valueAt_isSome {m : SequenceValueHashMap K V} {i : ℕ} :
    (m.valueAt i).isSome ↔ i < m.len := by
  rw [valueAt,Option.isSome_map,len]
  by_cases h : i < m.entries.length
  · simp only [List.getElem?_eq_getElem h,Option.isSome_some,h]
  · simp only [List.getElem?_eq_none (Nat.le_of_not_lt h),Option.isSome_none,h,Bool.false_eq_true]

omit [DecidableEq K] in
/-- An index without a value is out of bounds. -/
theorem valueAt_none {m : SequenceValueHashMap K V} {i : ℕ} : m.valueAt i=none ↔ m.len ≤ i := by
  rw [←Option.not_isSome_iff_eq_none,valueAt_isSome,Nat.not_lt]

/-- A key has a value exactly when it has an index. -/
theorem get_of_indexOf {m : SequenceValueHashMap K V} {k : K} {i : ℕ} (h : m.indexOf k=some i) :
    m.get k=m.valueAt i := by
  rw [get,h,Option.bind_some]

/-- Keys are what has a value. -/
theorem get_isSome {m : SequenceValueHashMap K V} {k : K} :
    (m.get k).isSome=(m.indexOf k).isSome := by
  cases h : m.indexOf k with
  | none => rw [get,h]; rfl
  | some i => rw [get_of_indexOf h,Option.isSome_some,valueAt_isSome.mpr (indexOf_lt h)]

/-- Storing under a new key appends it. -/
theorem insert_new {m : SequenceValueHashMap K V} {k : K} (h : m.indexOf k=none) (v : V) :
    m.insert k v=(m.push k v h,m.len) := by
  unfold insert
  split
  · rename_i i hi
    rw [h] at hi
    cases hi
  · rfl

/-- `getOrInsertWith` leaves a value stored before or the given one under its
key. -/
theorem get_getOrInsertWith (m : SequenceValueHashMap K V) (k k' : K) (v : V) :
    (m.getOrInsertWith k v).1.get k'=
      if k'=k then some ((m.get k).getD v) else m.get k' := by
  unfold getOrInsertWith
  split
  · rename_i i hi
    dsimp only
    split
    · rename_i hk
      subst hk
      have hs : (m.get k').isSome := by rw [get_isSome,hi]; rfl
      obtain ⟨u,hu⟩ := Option.isSome_iff_exists.mp hs
      rw [hu,Option.getD_some]
    · rfl
  · rename_i hi
    dsimp only
    rw [get,indexOf_push]
    split
    · rw [Option.bind_some,valueAt_push,if_pos rfl,get,hi,Option.bind_none,Option.getD_none]
    · cases hj : m.indexOf k' with
      | none => rw [get,hj]; rfl
      | some j =>
        rw [Option.bind_some,valueAt_push,if_neg (Nat.ne_of_lt (indexOf_lt hj)),get_of_indexOf hj]

end SequenceValueHashMap

end XynokEcs.SequenceValueMap
