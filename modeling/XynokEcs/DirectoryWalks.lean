import XynokEcs.RowDirectory

/-!
# Walks over a directory that changes

A walk goes through the places of a directory part by part. It counts the places of
a part when it enters it, and still comes to those that are counted and to whatever
it finds in the parts it has not opened. Between two steps of the walk keys may be
inserted, moved and removed, the last row of a part filling the hole. The conditions
under which the walk hands out no key twice, no key that was inserted meanwhile and
misses none that it has to hand out are kept by each of these steps.
-/

namespace XynokEcs.DirectoryWalks

open RowDirectory

/-- Where a walk stands. -/
structure Front (L : Type) where
  /-- The places counted on entering their part, and not come to yet. -/
  counted : L → Prop
  /-- The places of the parts that were not entered yet. -/
  unopened : L → Prop

/-- What is written down along a walk. -/
structure Record (K : Type) where
  /-- The keys handed out. -/
  handed : List K
  /-- The keys inserted since the walk began. -/
  inserted : List K
  /-- The keys the walk may miss. -/
  excused : List K

variable {K L X : Type}

/-- The places a walk still comes to. -/
def Front.Ahead (f : Front L) (l : L) : Prop := f.counted l ∨ f.unopened l

/-- A key that was neither handed out nor inserted meanwhile. -/
def Record.New (r : Record K) (k : K) : Prop := k∉r.handed ∧ k∉r.inserted

/-- A key the walk has still to hand out. -/
def Record.Due (wanted : K → Prop) (r : Record K) (k : K) : Prop := wanted k ∧ k∉r.excused ∧ k∉r.handed

/-- The walk is right so far, and will be if nothing changes. -/
structure Right (wanted : K → Prop) (passes : X → Prop) (d : Directory K L X) (f : Front L)
    (r : Record K) : Prop where
  /-- Keys are where the directory says. -/
  consistent : d.Consistent
  /-- What was counted is still in use. -/
  used : ∀ l,f.counted l → (d.rows l).isSome=true
  /-- What was counted is not counted again. -/
  apart : ∀ l,f.counted l → ¬f.unopened l
  /-- Only new keys will be let through. -/
  new : ∀ l k x,f.Ahead l → d.rows l=some (k,x) → passes x → r.New k
  /-- Every key that is due is ahead, and will be let through. -/
  due : ∀ k,r.Due wanted k → ∃ l x,f.Ahead l ∧ d.rows l=some (k,x) ∧ passes x

variable {wanted : K → Prop} {passes : X → Prop} {d : Directory K L X} {f f' : Front L} {r : Record K}
  {k k' : K} {l m : L} {x x' : X}

/-- The key at a place ahead is at no other place. -/
theorem Right.place_unique (h : Right wanted passes d f r) (hl : d.rows l=some (k,x))
    (hm : d.rows m=some (k,x')) : l=m :=
  Option.some.inj ((h.consistent.locate hl).symm.trans (h.consistent.locate hm))

/-- More may be excused. -/
theorem Right.excuse (h : Right wanted passes d f r) (k : K) :
    Right wanted passes d f { r with excused := k::r.excused } where
  consistent := h.consistent
  used := h.used
  apart := h.apart
  new := h.new
  due := fun k' hk' => h.due k' ⟨hk'.1,fun hm => hk'.2.1 (List.mem_cons_of_mem _ hm),hk'.2.2⟩

/-- A key that is not due, or is ahead and will be let through, needs no excuse. -/
theorem Right.unexcuse (h : Right wanted passes d f { r with excused := k::r.excused })
    (hk : r.Due wanted k → ∃ l x,f.Ahead l ∧ d.rows l=some (k,x) ∧ passes x) :
    Right wanted passes d f r where
  consistent := h.consistent
  used := h.used
  apart := h.apart
  new := h.new
  due := by
    intro k' hk'
    by_cases he : k'=k
    · rw [he]
      exact hk (he ▸ hk')
    · exact h.due k' ⟨hk'.1,fun hm => (List.mem_cons.mp hm).elim he hk'.2.1,hk'.2.2⟩

/-- A key may be written down as inserted if the walk will not hand it out. -/
theorem Right.insertedAt (h : Right wanted passes d f r) (hl : d.rows l=some (k,x))
    (hf : f.Ahead l → ¬passes x) :
    Right wanted passes d f { r with inserted := r.inserted++[k] } where
  consistent := h.consistent
  used := h.used
  apart := h.apart
  new := by
    intro m k' x' hm hrow hpass
    obtain ⟨hhanded,hins⟩ := h.new m k' x' hm hrow hpass
    refine ⟨hhanded,fun hin => ?_⟩
    cases List.mem_append.mp hin with
    | inl hin => exact hins hin
    | inr hin =>
      rw [List.mem_singleton.mp hin] at hrow
      have hlm : l=m := h.place_unique hl hrow
      rw [←hlm] at hm hrow
      rw [hl] at hrow
      cases hrow
      exact hf hm hpass
  due := h.due

variable [DecidableEq K] [DecidableEq L]

/-- A key that was nowhere comes to a free place. The walk hands it out there only if it
is new. -/
theorem Right.insert (h : Right wanted passes d f r) (hk : d.locate k=none) (hl : d.rows l=none)
    (hnew : f.unopened l → passes x → r.New k) : Right wanted passes (d.insert k l x) f r where
  consistent := h.consistent.insert hk hl x
  used := by
    intro m hm
    change (Function.update d.rows l (some (k,x)) m).isSome=true
    rw [Function.update_apply]
    split
    · rfl
    · exact h.used m hm
  apart := h.apart
  new := by
    intro m k' x' hm hrow hpass
    change Function.update d.rows l (some (k,x)) m=some (k',x') at hrow
    rw [Function.update_apply] at hrow
    split at hrow
    · rename_i he
      rw [he] at hm
      cases hrow
      -- no counted place is free
      refine hnew (hm.resolve_left fun hc => ?_) hpass
      have hsome := h.used l hc
      rw [hl] at hsome
      cases hsome
    · exact h.new m k' x' hm hrow hpass
  due := by
    intro k' hk'
    obtain ⟨m,y,hm,hrow,hy⟩ := h.due k' hk'
    refine ⟨m,y,hm,?_,hy⟩
    change Function.update d.rows l (some (k,x)) m=some (k',y)
    rw [Function.update_of_ne]
    · exact hrow
    · intro he
      rw [he,hl] at hrow
      cases hrow

/-- A key is taken out and the last row of its part fills the hole. The last place must
not be one the walk has counted, and what fills a counted hole must be new or not be
let through. -/
theorem Right.remove (h : Right wanted passes d f r) (hk : d.locate k=some l)
    (hm : d.rows m=some (k',x')) (hpart : f.unopened l ↔ f.unopened m) (hlast : ¬f.counted m)
    (hfill : f.counted l → passes x' → r.New k') :
    Right wanted passes (d.remove k l m) f { r with excused := k::r.excused } where
  consistent := h.consistent.remove hk hm
  used := by
    intro n hn
    change (Function.update (Function.update d.rows l (d.rows m)) m none n).isSome=true
    have hne : n≠m := by
      rintro rfl
      exact hlast hn
    rw [Function.update_of_ne hne,Function.update_apply]
    split
    · rw [hm]
      rfl
    · exact h.used n hn
  apart := h.apart
  new := by
    intro n k₂ x₂ hn hrow hpass
    change Function.update (Function.update d.rows l (d.rows m)) m none n=some (k₂,x₂) at hrow
    rw [Function.update_apply] at hrow
    split at hrow
    · cases hrow
    · rw [Function.update_apply] at hrow
      split at hrow
      · rename_i he
        rw [he] at hn
        cases hn with
        | inl hc =>
          rw [hm] at hrow
          cases hrow
          exact hfill hc hpass
        | inr hu => exact h.new m k₂ x₂ (.inr (hpart.mp hu)) hrow hpass
      · exact h.new n k₂ x₂ hn hrow hpass
  due := by
    intro k₂ hk₂
    obtain ⟨n,y,hn,hrow,hy⟩ := h.due k₂ ⟨hk₂.1,fun hm => hk₂.2.1 (List.mem_cons_of_mem _ hm),hk₂.2.2⟩
    have hne : k₂≠k := by
      rintro rfl
      exact hk₂.2.1 List.mem_cons_self
    have hnl : n≠l := by
      rintro rfl
      obtain ⟨z,hz⟩ := h.consistent.row hk
      rw [hrow] at hz
      exact hne (congrArg Prod.fst (Option.some.inj hz))
    by_cases hnm : n=m
    · -- the row that fills the hole
      have hu : f.unopened m := by
        rw [hnm] at hn
        exact hn.resolve_left hlast
      refine ⟨l,y,.inr (hpart.mpr hu),?_,hy⟩
      change Function.update (Function.update d.rows l (d.rows m)) m none l=some (k₂,y)
      have hlm : l≠m := fun he => hnl (hnm.trans he.symm)
      rw [Function.update_of_ne hlm,Function.update_self,←hnm]
      exact hrow
    · refine ⟨n,y,hn,?_,hy⟩
      change Function.update (Function.update d.rows l (d.rows m)) m none n=some (k₂,y)
      rw [Function.update_of_ne hnm,Function.update_of_ne hnl]
      exact hrow

omit [DecidableEq K] [DecidableEq L] in
/-- The walk passes over rows that are not let through. -/
theorem Right.skip (h : Right wanted passes d f r) (skipped : L → Prop)
    (hahead : ∀ l,(d.rows l).isSome=true → (f.Ahead l ↔ skipped l ∨ f'.Ahead l))
    (hskipped : ∀ l k x,skipped l → d.rows l=some (k,x) → ¬passes x)
    (hused : ∀ l,f'.counted l → (d.rows l).isSome=true) (hapart : ∀ l,f'.counted l → ¬f'.unopened l) :
    Right wanted passes d f' r where
  consistent := h.consistent
  used := hused
  apart := hapart
  new := fun l k x hl hrow hpass => h.new l k x ((hahead l (by rw [hrow]; rfl)).mpr (.inr hl)) hrow hpass
  due := by
    intro k hk
    obtain ⟨l,x,hl,hrow,hx⟩ := h.due k hk
    cases (hahead l (by rw [hrow]; rfl)).mp hl with
    | inl hs => exact absurd hx (hskipped l k x hs hrow)
    | inr hl => exact ⟨l,x,hl,hrow,hx⟩

omit [DecidableEq K] [DecidableEq L] in
/-- The walk hands out the key at the first place it comes to that is let through. -/
theorem Right.hand (h : Right wanted passes d f r) (skipped : L → Prop)
    (hahead : ∀ m,(d.rows m).isSome=true → (f.Ahead m ↔ skipped m ∨ m=l ∨ f'.Ahead m))
    (hskipped : ∀ l k x,skipped l → d.rows l=some (k,x) → ¬passes x) (hl : ¬f'.Ahead l)
    (hrow : d.rows l=some (k,x)) (hused : ∀ l,f'.counted l → (d.rows l).isSome=true)
    (hapart : ∀ l,f'.counted l → ¬f'.unopened l) :
    Right wanted passes d f' { r with handed := r.handed++[k] } where
  consistent := h.consistent
  used := hused
  apart := hapart
  new := by
    intro m k' x' hm hrow' hpass
    obtain ⟨hhanded,hins⟩ := h.new m k' x' ((hahead m (by rw [hrow']; rfl)).mpr (.inr (.inr hm))) hrow' hpass
    refine ⟨fun hin => ?_,hins⟩
    cases List.mem_append.mp hin with
    | inl hin => exact hhanded hin
    | inr hin =>
      rw [List.mem_singleton.mp hin] at hrow'
      exact hl (h.place_unique hrow' hrow ▸ hm)
  due := by
    intro k' hk'
    have hnot : k'∉r.handed ∧ k'≠k := by
      refine ⟨fun hin => hk'.2.2 (List.mem_append_left _ hin),fun he => hk'.2.2 ?_⟩
      rw [he]
      exact List.mem_append_right _ List.mem_cons_self
    obtain ⟨m,y,hm,hrow',hy⟩ := h.due k' ⟨hk'.1,hk'.2.1,hnot.1⟩
    cases (hahead m (by rw [hrow']; rfl)).mp hm with
    | inl hs => exact absurd hy (hskipped m k' y hs hrow')
    | inr hm =>
      cases hm with
      | inl he =>
        rw [he,hrow] at hrow'
        exact absurd (congrArg Prod.fst (Option.some.inj hrow')).symm hnot.2
      | inr hm => exact ⟨m,y,hm,hrow',hy⟩

end XynokEcs.DirectoryWalks
