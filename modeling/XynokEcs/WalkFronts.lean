import XynokEcs.DirectoryWalks
import XynokEcs.QueryWalks

/-!
# Where a walk through a query stands

The rows left of the chunk a walk is in were counted when it came to the chunk. The
chunks after it and the archetypes still to come were not looked at yet. A walk goes
through every matched archetype once, so that no row it has counted is among those.
-/

namespace XynokEcs.WalkFronts

open ComponentTypes ChunkRows ArchetypeStore ChunkLayouts QueryShapes EntityAllocation WorldState
  StoreInvariants QueryAccess QuerySources QueryWalks DirectoryWalks

variable {V : Type} {q : QueryShape Component} {w : World V} {it it' : QueryIter} {l : RowLoc}

section Fronts

/-- What a walk has counted, and what it has not looked at. -/
def QueryIter.front (it : QueryIter) : Front RowLoc where
  counted l := ∃ fetch,it.fetch=some fetch ∧ l.archId=fetch.archId ∧ l.indices.chunkIdx=fetch.chunkIdx ∧
    it.row ≤ l.indices.idxInChunk ∧ l.indices.idxInChunk < it.endRow
  unopened l := (∃ a,it.cursor.arch=some a ∧ l.archId=a.1 ∧ it.cursor.chunkIdx ≤ l.indices.chunkIdx) ∨
    l.archId∈it.cursor.archIndices

/-- The archetype a cursor is in, and those still to come. -/
def ChunkCursor.ids (arch : Option (ℕ×ArchState)) (archIndices : List ℕ) : List ℕ :=
  (arch.map Prod.fst).toList++archIndices

/-- A walk comes to each archetype once, and is past the chunk whose rows it counted. -/
structure QueryIter.Ordered (it : QueryIter) : Prop where
  /-- No archetype comes twice. -/
  nodup : (ChunkCursor.ids it.cursor.arch it.cursor.archIndices).Nodup
  /-- The chunk being walked lies before the chunks to come. -/
  entered : ∀ fetch,it.fetch=some fetch → it.row < it.endRow →
    ∃ a,it.cursor.arch=some a ∧ a.1=fetch.archId ∧ fetch.chunkIdx < it.cursor.chunkIdx

/-- No row that was counted is one not looked at. -/
theorem QueryIter.Ordered.apart (h : QueryIter.Ordered it) (hc : (QueryIter.front it).counted l) :
    ¬(QueryIter.front it).unopened l := by
  obtain ⟨fetch,hf,hi,hk,hrow,hlt⟩ := hc
  obtain ⟨a,ha,hid,hbefore⟩ := h.entered fetch hf (Nat.lt_of_le_of_lt hrow hlt)
  intro hu
  cases hu with
  | inl hu =>
    obtain ⟨b,hb,-,hle⟩ := hu
    rw [hk] at hle
    exact absurd hle (Nat.not_le.mpr hbefore)
  | inr hu =>
    have hn := h.nodup
    rw [ChunkCursor.ids,ha] at hn
    refine (List.nodup_cons.mp hn).1 ?_
    rw [hid,←hi]
    exact hu

/-- The rows of an archetype from a chunk on. -/
theorem mem_archPlaces_from {i k : ℕ} : l∈World.archPlaces w i k ↔
    l.archId=i ∧ k ≤ l.indices.chunkIdx ∧ (World.row w l).isSome=true := by
  have hall := mem_archPlaces (w:=w) (l:=l) (i:=i)
  rw [World.archPlaces,List.mem_flatMap] at hall ⊢
  constructor
  · intro hm
    obtain ⟨j,hj,hl⟩ := hm
    have hj' := List.mem_range'_1.mp hj
    obtain ⟨hi,hsome⟩ := hall.mp ⟨j,List.mem_range'_1.mpr ⟨Nat.zero_le _,by omega⟩,hl⟩
    refine ⟨hi,?_,hsome⟩
    rw [(mem_rowPlaces.mp hl).2.1]
    exact hj'.1
  · intro hm
    obtain ⟨hi,hk,hsome⟩ := hm
    obtain ⟨j,hj,hl⟩ := hall.mpr ⟨hi,hsome⟩
    have hj' := List.mem_range'_1.mp hj
    have hjk : l.indices.chunkIdx=j := (mem_rowPlaces.mp hl).2.1
    exact ⟨j,List.mem_range'_1.mpr ⟨by omega,by omega⟩,hl⟩

/-- A row in use is to come when it was counted or not looked at yet. -/
theorem mem_upcoming_iff (hl : (World.row w l).isSome=true) :
    l∈QueryIter.upcoming w it ↔ (QueryIter.front it).Ahead l := by
  have hcursor : l∈ChunkCursor.upcoming w it.cursor.archIndices it.cursor.arch it.cursor.chunkIdx ↔
      (QueryIter.front it).unopened l := by
    unfold ChunkCursor.upcoming
    rw [List.mem_append,List.mem_flatMap]
    refine or_congr ?_ ⟨fun hm => ?_,fun hm => ⟨_,hm,mem_archPlaces.mpr ⟨rfl,hl⟩⟩⟩
    · cases it.cursor.arch with
      | none => exact iff_of_false List.not_mem_nil fun hc => by obtain ⟨a,ha,-⟩ := hc; cases ha
      | some a =>
        rw [mem_archPlaces_from]
        constructor
        · intro hm
          exact ⟨a,rfl,hm.1,hm.2.1⟩
        · intro hm
          obtain ⟨b,hb,hi,hk⟩ := hm
          cases hb
          exact ⟨hi,hk,hl⟩
    · obtain ⟨i,hi,hm⟩ := hm
      rw [←(mem_archPlaces.mp hm).1] at hi
      exact hi
  unfold QueryIter.upcoming
  rw [List.mem_append]
  refine or_congr ?_ hcursor
  cases hf : it.fetch with
  | none =>
    refine iff_of_false List.not_mem_nil fun hc => ?_
    obtain ⟨fetch,hfetch,-⟩ := hc
    rw [hf] at hfetch
    cases hfetch
  | some fetch =>
    rw [mem_rowPlaces]
    constructor
    · intro hm
      exact ⟨fetch,hf,hm.1,hm.2.1,hm.2.2.1,by omega⟩
    · intro hc
      obtain ⟨fetch',hfetch,hi,hk,hrow,hlt⟩ := hc
      rw [hf] at hfetch
      cases hfetch
      exact ⟨hi,hk,hrow,by omega⟩

/-- Where nothing is in use there is nothing to come, but what was counted. -/
theorem row_of_upcoming (h : ∀ l,(QueryIter.front it).counted l → (World.row w l).isSome=true)
    (hm : l∈QueryIter.upcoming w it) : (World.row w l).isSome=true := by
  unfold QueryIter.upcoming at hm
  cases List.mem_append.mp hm with
  | inl hm =>
    cases hf : it.fetch with
    | none =>
      rw [hf] at hm
      cases hm
    | some fetch =>
      rw [hf] at hm
      obtain ⟨hi,hk,hrow,hlt⟩ := mem_rowPlaces.mp hm
      exact h l ⟨fetch,hf,hi,hk,hrow,by omega⟩
  | inr hm =>
    unfold ChunkCursor.upcoming at hm
    cases List.mem_append.mp hm with
    | inl hm =>
      cases ha : it.cursor.arch with
      | none =>
        rw [ha] at hm
        cases hm
      | some a =>
        rw [ha] at hm
        exact (mem_archPlaces_from.mp hm).2.2
    | inr hm =>
      obtain ⟨i,-,hm⟩ := List.mem_flatMap.mp hm
      exact (mem_archPlaces.mp hm).2

/-- A row that was counted is to come. -/
theorem upcoming_of_counted (hc : (QueryIter.front it).counted l) : l∈QueryIter.upcoming w it := by
  obtain ⟨fetch,hf,hi,hk,hrow,hlt⟩ := hc
  unfold QueryIter.upcoming
  refine List.mem_append_left _ ?_
  rw [hf]
  exact mem_rowPlaces.mpr ⟨hi,hk,hrow,by omega⟩

/-- Every row that is to come lies in an archetype the walk is in or still comes to. -/
theorem QueryIter.Ordered.archId (h : QueryIter.Ordered it) (ha : (QueryIter.front it).Ahead l) :
    l.archId∈ChunkCursor.ids it.cursor.arch it.cursor.archIndices := by
  unfold ChunkCursor.ids
  cases ha with
  | inl hc =>
    obtain ⟨fetch,hf,hi,hk,hrow,hlt⟩ := hc
    obtain ⟨a,ha,hid,-⟩ := h.entered fetch hf (Nat.lt_of_le_of_lt hrow hlt)
    rw [ha,hi,←hid]
    exact List.mem_cons_self
  | inr hu =>
    cases hu with
    | inl hu =>
      obtain ⟨a,ha,hi,-⟩ := hu
      rw [ha,hi]
      exact List.mem_cons_self
    | inr hu => exact List.mem_append_right _ hu

/-- No row is to come twice. -/
theorem QueryIter.Ordered.nodup_upcoming (h : QueryIter.Ordered it) :
    (QueryIter.upcoming w it).Nodup := by
  have hrows : ∀ i k row count,(rowPlaces i k row count).Nodup := by
    intro i k row count
    refine List.Nodup.map (fun a b hab => ?_) List.nodup_range'
    cases hab
    rfl
  have harch : ∀ i k,(World.archPlaces w i k).Nodup := by
    intro i k
    refine List.nodup_flatMap.mpr ⟨fun j _ => hrows i j 0 _,?_⟩
    have hrange : (List.range' k ((World.chunks w i).length-k)).Nodup := List.nodup_range'
    refine hrange.imp fun {a b} hab l ha hb => hab ?_
    exact (mem_rowPlaces.mp ha).2.1.symm.trans (mem_rowPlaces.mp hb).2.1
  have hids : ∀ {ids : List ℕ},ids.Nodup → (ids.flatMap fun i => World.archPlaces w i 0).Nodup := by
    intro ids hn
    refine List.nodup_flatMap.mpr ⟨fun i _ => harch i 0,hn.imp fun {a b} hab l ha hb => hab ?_⟩
    exact (mem_archPlaces.mp ha).1.symm.trans (mem_archPlaces.mp hb).1
  have hnodup := h.nodup
  have hcursor : (ChunkCursor.upcoming w it.cursor.archIndices it.cursor.arch it.cursor.chunkIdx).Nodup := by
    unfold ChunkCursor.upcoming
    unfold ChunkCursor.ids at hnodup
    cases ha : it.cursor.arch with
    | none =>
      rw [ha] at hnodup
      exact hids hnodup
    | some a =>
      rw [ha] at hnodup
      obtain ⟨hnot,hrest⟩ := List.nodup_cons.mp hnodup
      refine List.nodup_append'.mpr ⟨harch a.1 _,hids hrest,fun l hl hl' => ?_⟩
      obtain ⟨i,hi,hm⟩ := List.mem_flatMap.mp hl'
      refine hnot ?_
      rw [←(mem_archPlaces_from.mp hl).1,(mem_archPlaces.mp hm).1]
      exact hi
  unfold QueryIter.upcoming
  refine List.nodup_append'.mpr ⟨?_,hcursor,fun l hl hl' => ?_⟩
  · cases it.fetch with
    | none => exact List.nodup_nil
    | some fetch => exact hrows _ _ _ _
  · -- a row counted is in use, so among those not looked at it would count as such
    cases hf : it.fetch with
    | none =>
      rw [hf] at hl
      cases hl
    | some fetch =>
      rw [hf] at hl
      obtain ⟨hi,hk,hrow,hlt⟩ := mem_rowPlaces.mp hl
      have hc : (QueryIter.front it).counted l := ⟨fetch,hf,hi,hk,hrow,by omega⟩
      refine h.apart hc ?_
      unfold ChunkCursor.upcoming at hl'
      cases List.mem_append.mp hl' with
      | inl hl' =>
        cases ha : it.cursor.arch with
        | none =>
          rw [ha] at hl'
          cases hl'
        | some a =>
          rw [ha] at hl'
          obtain ⟨hid,hle,-⟩ := mem_archPlaces_from.mp hl'
          exact .inl ⟨a,ha,hid,hle⟩
      | inr hl' =>
        obtain ⟨i,hmem,hm⟩ := List.mem_flatMap.mp hl'
        refine .inr ?_
        rw [(mem_archPlaces.mp hm).1]
        exact hmem

end Fronts

section Next

/-- A cursor goes forward through the archetypes, and past the chunk it found. -/
theorem nextChunk_forward {archIndices : List ℕ} {arch : Option (ℕ×ArchState)} {chunkIdx : ℕ}
    {found : Option Fetch} {cursor : ChunkCursor}
    (h : ChunkCursor.nextChunk q w archIndices arch chunkIdx=.ok (found,cursor)) :
    ChunkCursor.ids cursor.arch cursor.archIndices <:+ ChunkCursor.ids arch archIndices ∧
      cursor.archIndices <:+ archIndices ∧ ∀ fetch,found=some fetch → cursor.chunkIdx=fetch.chunkIdx+1 := by
  induction archIndices generalizing arch chunkIdx with
  | nil =>
    unfold ChunkCursor.nextChunk at h
    cases hs : ChunkCursor.scan w arch chunkIdx with
    | some fetch =>
      rw [hs] at h
      cases h
      exact ⟨List.suffix_rfl,List.suffix_rfl,fun fetch' he => by cases he; rfl⟩
    | none =>
      rw [hs] at h
      cases h
      exact ⟨List.suffix_rfl,List.suffix_rfl,fun fetch' he => by cases he⟩
  | cons i rest ih =>
    unfold ChunkCursor.nextChunk at h
    cases hs : ChunkCursor.scan w arch chunkIdx with
    | some fetch =>
      rw [hs] at h
      cases h
      exact ⟨List.suffix_rfl,List.suffix_rfl,fun fetch' he => by cases he; rfl⟩
    | none =>
      rw [hs] at h
      dsimp only at h
      cases he : enterArch q w i with
      | error e =>
        rw [he] at h
        cases h
      | ok entered =>
        rw [he] at h
        obtain ⟨hids,hidx,hfound⟩ := ih h
        have hi : ChunkCursor.ids (some entered) rest=i::rest := by
          rw [ChunkCursor.ids,Option.map_some,enterArch_fst he]
          rfl
        rw [hi] at hids
        exact ⟨hids.trans (List.suffix_append _ _),hidx.trans (List.suffix_cons _ _),hfound⟩

/-- `next` keeps the order. -/
theorem next_ordered {found : Option QueryItem} (h : QueryIter.Ordered it)
    (hn : QueryIter.next q w it=.ok (found,it')) : QueryIter.Ordered it' ∧
      ChunkCursor.ids it'.cursor.arch it'.cursor.archIndices <:+
        ChunkCursor.ids it.cursor.arch it.cursor.archIndices := by
  fun_induction QueryIter.next q w it with
  | case1 it item it₁ hs =>
    cases hn
    unfold QueryIter.scanRows at hs
    cases hf : it.fetch with
    | none =>
      rw [hf] at hs
      cases hs
    | some fetch =>
      rw [hf] at hs
      obtain ⟨row,hrow,he⟩ := Option.map_eq_some_iff.mp hs
      cases he
      have hle := (find?_range' hrow).2.2.1
      refine ⟨⟨h.nodup,fun fetch' hf' hlt => h.entered fetch' (hf.trans hf') ?_⟩,List.suffix_rfl⟩
      exact Nat.lt_of_le_of_lt hle (Nat.lt_of_succ_lt hlt)
  | case2 it hs e hc => cases hn
  | case3 it hs cursor hc =>
    cases hn
    have hids := (nextChunk_forward hc).1
    refine ⟨⟨h.nodup.sublist hids.sublist,fun fetch hf hlt => ?_⟩,hids⟩
    have hle : it.endRow ≤ max it.row it.endRow := Nat.le_max_right _ _
    exact absurd hlt (Nat.not_lt.mpr hle)
  | case4 it hs fetch cursor hc ih =>
    obtain ⟨hids,-,hidx⟩ := nextChunk_forward hc
    obtain ⟨harch,-⟩ := nextChunk_spec hc
    obtain ⟨hord,hsuf⟩ := ih ⟨h.nodup.sublist hids.sublist,fun fetch' hf _ => by
      cases hf
      exact ⟨_,harch,rfl,by rw [hidx fetch rfl]; exact Nat.lt_succ_self _⟩⟩ hn
    exact ⟨hord,hsuf.trans hids⟩

/-- Only an archetype still to come that lacks what the shape needs makes `next` panic. -/
theorem next_error {e : Fault} (hn : QueryIter.next q w it=.error e) :
    ∃ i∈it.cursor.archIndices,enterArch q w i=.error e := by
  fun_induction QueryIter.next q w it with
  | case1 it item it₁ hs => cases hn
  | case2 it hs e' hc =>
    cases hn
    exact nextChunk_error hc
  | case3 it hs cursor hc => cases hn
  | case4 it hs fetch cursor hc ih =>
    obtain ⟨i,hi,he⟩ := ih hn
    exact ⟨i,(nextChunk_forward hc).2.1.subset hi,he⟩

end Next

end XynokEcs.WalkFronts
