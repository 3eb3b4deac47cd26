import Mathlib.Logic.Function.Basic
import Mathlib.Data.List.Nodup

/-!
# Directories of rows

A directory says where every key is kept and what every place holds. It is
consistent when the two agree: a key is kept at a place exactly when the place
holds the key. Inserting, replacing and removing with the last row moved into
the hole keep a directory consistent, and act on the map from keys to data as
one update. The folds at the end rewrite one column after the other.
-/

namespace XynokEcs.RowDirectory

/-- Where every key is kept, and the key and data every place holds. -/
structure Directory (K L D : Type) where
  /-- The place of a key. -/
  locate : K → Option L
  /-- The key and the data at a place. -/
  rows : L → Option (K×D)

namespace Directory

variable {K L D : Type}

/-- A key is kept at a place exactly when the place holds the key. -/
def Consistent (d : Directory K L D) : Prop :=
  ∀ k l,d.locate k=some l ↔ ∃ x,d.rows l=some (k,x)

/-- The map a directory stands for. -/
def contents (d : Directory K L D) (k : K) : Option D :=
  (d.locate k).bind fun l => (d.rows l).map Prod.snd

variable {d : Directory K L D} {k : K} {l m : L} {x : D}

/-- The place of a key keeps the key. -/
theorem Consistent.row (h : d.Consistent) (hl : d.locate k=some l) : ∃ x,d.rows l=some (k,x) :=
  (h k l).mp hl

/-- A key that is kept is found where it is kept. -/
theorem Consistent.locate (h : d.Consistent) (hr : d.rows l=some (k,x)) : d.locate k=some l :=
  (h k l).mpr ⟨x,hr⟩

/-- Two keys of a consistent directory are never kept at one place. -/
theorem Consistent.key_unique {k' : K} (h : d.Consistent) (hk : d.locate k=some l)
    (hk' : d.locate k'=some l) : k=k' := by
  obtain ⟨x,hx⟩ := h.row hk
  obtain ⟨x',hx'⟩ := h.row hk'
  rw [hx] at hx'
  exact congrArg Prod.fst (Option.some.inj hx')

/-- The data of a key are those kept with it. -/
theorem Consistent.contents_of_row (h : d.Consistent) (hr : d.rows l=some (k,x)) :
    d.contents k=some x := by
  rw [contents,h.locate hr,Option.bind_some,hr,Option.map_some]

/-- An empty directory. -/
def empty : Directory K L D := ⟨fun _ => none,fun _ => none⟩

/-- The empty directory is consistent. -/
theorem empty_consistent : (empty : Directory K L D).Consistent := by
  intro k l
  simp only [empty,reduceCtorEq,exists_false]

variable [DecidableEq L]

/-- Replace what a key holds where it is kept. -/
def replace (d : Directory K L D) (k : K) (l : L) (x : D) : Directory K L D where
  locate := d.locate
  rows := Function.update d.rows l (some (k,x))

/-- Replacing the data of a key keeps consistency. -/
theorem Consistent.replace (h : d.Consistent) (hk : d.locate k=some l) (x : D) :
    (d.replace k l x).Consistent := by
  intro k' l'
  simp only [Directory.replace,Function.update_apply]
  by_cases hll : l'=l
  · subst hll
    rw [if_pos rfl]
    constructor
    · intro hloc
      have := h.key_unique hloc hk
      subst this
      exact ⟨x,rfl⟩
    · rintro ⟨y,hy⟩
      have hkk : k=k' := congrArg Prod.fst (Option.some.inj hy)
      rw [←hkk]
      exact hk
  · rw [if_neg hll]
    exact h k' l'

variable [DecidableEq K]

/-- Keep a new key at a free place. -/
def insert (d : Directory K L D) (k : K) (l : L) (x : D) : Directory K L D where
  locate := Function.update d.locate k (some l)
  rows := Function.update d.rows l (some (k,x))

/-- Take out the key kept at `l` and move the row at `m` into the hole. -/
def remove (d : Directory K L D) (k : K) (l m : L) : Directory K L D where
  locate := Function.update (match d.rows m with
    | some (k',_) => Function.update d.locate k' (some l)
    | none => d.locate) k none
  rows := Function.update (Function.update d.rows l (d.rows m)) m none

/-- Keeping a new key at a free place keeps consistency. -/
theorem Consistent.insert (h : d.Consistent) (hk : d.locate k=none) (hl : d.rows l=none) (x : D) :
    (d.insert k l x).Consistent := by
  intro k' l'
  simp only [Directory.insert,Function.update_apply]
  by_cases hkk : k'=k
  · subst hkk
    rw [if_pos rfl]
    constructor
    · rintro ⟨⟩
      exact ⟨x,by rw [if_pos rfl]⟩
    · rintro ⟨y,hy⟩
      split at hy
      · rename_i hll
        rw [hll]
      · rw [h.locate hy] at hk
        cases hk
  · rw [if_neg hkk]
    by_cases hll : l'=l
    · subst hll
      rw [if_pos rfl]
      constructor
      · intro hloc
        obtain ⟨y,hy⟩ := h.row hloc
        rw [hl] at hy
        cases hy
      · rintro ⟨y,hy⟩
        exact absurd (congrArg Prod.fst (Option.some.inj hy)).symm hkk
    · rw [if_neg hll]
      exact h k' l'

/-- Removing a key and filling its place with another keeps consistency. -/
theorem Consistent.remove (h : d.Consistent) (hk : d.locate k=some l) {k' : K} {x' : D}
    (hm : d.rows m=some (k',x')) : (d.remove k l m).Consistent := by
  obtain ⟨x,hx⟩ := h.row hk
  intro k₂ l₂
  simp only [Directory.remove,hm,Function.update_apply]
  by_cases hlm : l=m
  · subst hlm
    have hkk : k'=k := h.key_unique (h.locate hm) hk
    subst hkk
    by_cases h1 : k₂=k'
    · subst h1
      simp only [if_true,reduceCtorEq,false_iff,not_exists]
      intro y hy
      split at hy
      · cases hy
      · rename_i hne
        exact hne (Option.some.inj ((h.locate hy).symm.trans hk))
    · rw [if_neg h1,if_neg h1]
      by_cases h2 : l₂=l
      · subst h2
        simp only [if_true,reduceCtorEq,exists_false,iff_false]
        intro hloc
        exact h1 (h.key_unique hloc hk)
      · rw [if_neg h2,if_neg h2]
        exact h k₂ l₂
  · have hkk : k'≠k := by
      rintro rfl
      exact hlm (Option.some.inj (hk.symm.trans (h.locate hm)))
    by_cases h1 : k₂=k
    · subst h1
      simp only [if_true,reduceCtorEq,false_iff,not_exists]
      intro y hy
      split at hy
      · cases hy
      · split at hy
        · exact hkk (congrArg Prod.fst (Option.some.inj hy))
        · rename_i hne
          exact hne (Option.some.inj ((h.locate hy).symm.trans hk))
    · rw [if_neg h1]
      by_cases h2 : k₂=k'
      · subst h2
        rw [if_pos rfl]
        constructor
        · rintro ⟨⟩
          exact ⟨x',by rw [if_neg hlm,if_pos rfl]⟩
        · rintro ⟨y,hy⟩
          split at hy
          · cases hy
          · split at hy
            · rename_i hll
              rw [hll]
            · rename_i hne _
              exact absurd (Option.some.inj ((h.locate hy).symm.trans (h.locate hm))) hne
      · rw [if_neg h2,h k₂ l₂]
        constructor
        · rintro ⟨y,hy⟩
          have hm2 : l₂≠m := by
            rintro rfl
            rw [hm] at hy
            exact h2 (congrArg Prod.fst (Option.some.inj hy)).symm
          have hl2 : l₂≠l := by
            rintro rfl
            rw [hx] at hy
            exact h1 (congrArg Prod.fst (Option.some.inj hy)).symm
          exact ⟨y,by rw [if_neg hm2,if_neg hl2,hy]⟩
        · rintro ⟨y,hy⟩
          split at hy
          · cases hy
          · split at hy
            · exact absurd (congrArg Prod.fst (Option.some.inj hy)).symm h2
            · exact ⟨y,hy⟩

/-- Inserting a key gives it its data and changes no other key. -/
theorem contents_insert (h : d.Consistent) (hl : d.rows l=none) (x : D) :
    (d.insert k l x).contents=Function.update d.contents k (some x) := by
  funext k'
  simp only [contents,Directory.insert,Function.update_apply]
  by_cases hkk : k'=k
  · rw [if_pos hkk,if_pos hkk,Option.bind_some,if_pos rfl,Option.map_some]
  · rw [if_neg hkk,if_neg hkk]
    cases hloc : d.locate k' with
    | none => rfl
    | some l' =>
      obtain ⟨y,hy⟩ := h.row hloc
      have hne : l'≠l := by
        rintro rfl
        rw [hl] at hy
        cases hy
      rw [Option.bind_some,Option.bind_some,if_neg hne]

/-- Replacing the data of a key changes no other key. -/
theorem contents_replace (h : d.Consistent) (hk : d.locate k=some l) (x : D) :
    (d.replace k l x).contents=Function.update d.contents k (some x) := by
  funext k'
  simp only [contents,Directory.replace,Function.update_apply]
  by_cases hkk : k'=k
  · rw [if_pos hkk,hkk,hk,Option.bind_some,if_pos rfl,Option.map_some]
  · rw [if_neg hkk]
    cases hloc : d.locate k' with
    | none => rfl
    | some l' =>
      have hne : l'≠l := by
        rintro rfl
        exact hkk (h.key_unique hloc hk)
      rw [Option.bind_some,Option.bind_some,if_neg hne]

/-- Removing a key takes it out and changes no other key, the moved one
included. -/
theorem contents_remove (h : d.Consistent) (hk : d.locate k=some l) {k' : K} {x' : D}
    (hm : d.rows m=some (k',x')) :
    (d.remove k l m).contents=Function.update d.contents k none := by
  have hc := h.remove hk hm
  funext k₂
  rw [Function.update_apply]
  split
  · rename_i hkk
    subst hkk
    simp only [contents,Directory.remove,Function.update_self,Option.bind_none]
  · rename_i hkk
    cases hloc : d.locate k₂ with
    | none =>
      have hne : k₂≠k' := by
        rintro rfl
        rw [h.locate hm] at hloc
        cases hloc
      simp only [contents,Directory.remove,hm,Function.update_apply,if_neg hkk,if_neg hne,hloc]
      rfl
    | some l₂ =>
      obtain ⟨y,hy⟩ := h.row hloc
      rw [h.contents_of_row hy]
      have hl2 : l₂≠l := by
        rintro rfl
        exact hkk (h.key_unique hloc hk)
      by_cases hm2 : l₂=m
      · subst hm2
        apply hc.contents_of_row (l:=l)
        simp only [Directory.remove,Function.update_apply,if_neg (Ne.symm hl2),if_true]
        exact hy
      · apply hc.contents_of_row (l:=l₂)
        simp only [Directory.remove,Function.update_apply,if_neg hm2,if_neg hl2]
        exact hy

end Directory

section Folds

variable {S A K C B : Type}

/-- One step of a fold rewrites the column of its own key and no other. -/
structure ColumnStep (col : S → K → C) (key : A → K) (f : S → A → S) (g : A → C → C) : Prop where
  /-- The column of the key is rewritten. -/
  own : ∀ s a,col (f s a) (key a)=g a (col s (key a))
  /-- Other columns stay. -/
  other : ∀ s a k,k≠key a → col (f s a) k=col s k

variable {col : S → K → C} {key : A → K} {f : S → A → S} {g : A → C → C}

/-- A column no key names keeps its contents. -/
theorem ColumnStep.foldl_notMem (h : ColumnStep col key f g) {as : List A} {k : K}
    (hk : k∉as.map key) (s : S) : col (as.foldl f s) k=col s k := by
  induction as generalizing s with
  | nil => rfl
  | cons a as ih =>
    rw [List.map_cons,List.mem_cons,not_or] at hk
    rw [List.foldl_cons,ih hk.2,h.other s a k hk.1]

/-- Over distinct keys each column is rewritten once, from its first contents. -/
theorem ColumnStep.foldl_mem (h : ColumnStep col key f g) {as : List A}
    (hn : (as.map key).Nodup) {a : A} (ha : a∈as) (s : S) :
    col (as.foldl f s) (key a)=g a (col s (key a)) := by
  induction as generalizing s with
  | nil => exact absurd ha List.not_mem_nil
  | cons b as ih =>
    rw [List.map_cons,List.nodup_cons] at hn
    rw [List.foldl_cons]
    rcases List.mem_cons.mp ha with rfl | hm
    · rw [h.foldl_notMem hn.1,h.own]
    · have hne : key a≠key b := by
        intro he
        exact hn.1 (he ▸ List.mem_map_of_mem hm)
      rw [ih hn.2 hm,h.other s b _ hne]

/-- What no step changes, the fold does not change. -/
theorem foldl_unchanged (part : S → B) (h : ∀ s a,part (f s a)=part s) (as : List A) (s : S) :
    part (as.foldl f s)=part s := by
  induction as generalizing s with
  | nil => rfl
  | cons a as ih => rw [List.foldl_cons,ih,h]

end Folds

end XynokEcs.RowDirectory
