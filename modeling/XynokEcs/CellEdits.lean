import XynokEcs.ItemEffects

/-!
# Rewriting one cell

A write through an item rewrites one cell of the row at its place, and nothing
where there is none. Such rewrites commute when their cells differ, and what is
read from any other cell stays as it was.
-/

namespace XynokEcs.CellEdits

open ComponentTypes EntityHandle SequenceValueMap ChunkLayouts FaultingState ChunkRows RowWrites
  ArchetypeStore EntityAllocation WorldState WorldCalls RegistryInvariants StoreInvariants StoreSteps
  ItemWrites ItemEffects

variable {V : Type} {w : World V} {l l' : RowLoc} {t t' : StorageType} {tick tick' : ChangedTick}
  {write write' : ItemWrite V} {f g : Cell V → Cell V}

/-- Rewrite a cell of a row in use. -/
def Chunk.editCell (layout : ChunkLayout) (row : ℕ) (t : StorageType) (tick : ChangedTick)
    (write : ItemWrite V) (c : Chunk V) : Chunk V :=
  if row<c.len ∧ write.reaches layout t=true then c.modifyCell t row (write.apply tick) else c

/-- Rewrite a cell in the chunk it is in. -/
def ArchetypeSpec.editCell (ix : EntityInChunkIndices) (t : StorageType) (tick : ChangedTick)
    (write : ItemWrite V) (spec : ArchetypeSpec V) : ArchetypeSpec V :=
  { spec with arch := { spec.arch with
      chunks := spec.arch.chunks.modify ix.chunkIdx
        (Chunk.editCell spec.layout ix.idxInChunk t tick write) } }

/-- Rewrite the cell at a place, if the write reaches it. -/
def World.editCell (w : World V) (l : RowLoc) (t : StorageType) (tick : ChangedTick)
    (write : ItemWrite V) : World V :=
  { w with archetypes := w.archetypes.modifyAt l.archId (ArchetypeSpec.editCell l.indices t tick write) }

section Lists

variable {α : Type} {xs : List α} {i j : ℕ} {h k : α → α}

/-- Only the element that is there matters to a change of it. -/
theorem modify_congr (he : ∀ x,xs[i]?=some x → h x=k x) : xs.modify i h=xs.modify i k := by
  apply List.ext_getElem?
  intro j
  by_cases hj : i=j
  · subst hj
    rw [List.getElem?_modify_eq,List.getElem?_modify_eq]
    cases hx : xs[i]? with
    | none => rfl
    | some x => exact congrArg some (he x hx)
  · rw [List.getElem?_modify_ne _ _ hj,List.getElem?_modify_ne _ _ hj]

theorem modify_id (he : ∀ x,xs[i]?=some x → h x=x) : xs.modify i h=xs := by
  have hid : xs.modify i h=xs.modify i id := modify_congr he
  rw [hid,List.modify_id]

/-- Two changes of a list, of one element only when they commute there. -/
theorem modify_comm (hc : i=j → ∀ x,h (k x)=k (h x)) :
    (xs.modify j k).modify i h=(xs.modify i h).modify j k := by
  by_cases hij : i=j
  · subst hij
    rw [List.modify_modify_eq,List.modify_modify_eq]
    exact congrArg (xs.modify i) (funext (hc rfl))
  · exact List.modify_modify_ne k h xs (Ne.symm hij)

/-- Changes of values of a map, lifted from changes of a list. -/
theorem modifyAt_congr {K : Type} {m : SequenceValueHashMap K α} (he : ∀ x,m.valueAt i=some x → h x=k x) :
    m.modifyAt i h=m.modifyAt i k := by
  have hentries : m.entries.modify i (Prod.map id h)=m.entries.modify i (Prod.map id k) := by
    refine modify_congr fun p hp => Prod.ext rfl (he p.2 ?_)
    rw [SequenceValueHashMap.valueAt,hp]
    rfl
  simp only [SequenceValueHashMap.modifyAt,hentries]

theorem modifyAt_id {K : Type} {m : SequenceValueHashMap K α} (he : ∀ x,m.valueAt i=some x → h x=x) :
    m.modifyAt i h=m := by
  have hentries : m.entries.modify i (Prod.map id h)=m.entries := by
    refine modify_id fun p hp => Prod.ext rfl (he p.2 ?_)
    rw [SequenceValueHashMap.valueAt,hp]
    rfl
  cases m
  simp only [SequenceValueHashMap.modifyAt] at hentries ⊢
  simp only [hentries]

theorem modifyAt_comm {K : Type} {m : SequenceValueHashMap K α} (hc : i=j → ∀ x,h (k x)=k (h x)) :
    (m.modifyAt j k).modifyAt i h=(m.modifyAt i h).modifyAt j k := by
  have hentries : (m.entries.modify j (Prod.map id k)).modify i (Prod.map id h)=
      (m.entries.modify i (Prod.map id h)).modify j (Prod.map id k) :=
    modify_comm fun hij p => Prod.ext rfl (hc hij p.2)
  simp only [SequenceValueHashMap.modifyAt,hentries]

end Lists

section Writes

/-- A cell that is reached is rewritten in its chunk. -/
theorem editCell_reached {spec : ArchetypeSpec V} {c : Chunk V} (h : Reached w l t write spec c) :
    World.editCell w l t tick write=World.setCell w l t spec c (write.apply tick) := by
  have hchunks : spec.arch.chunks.modify l.indices.chunkIdx
      (Chunk.editCell spec.layout l.indices.idxInChunk t tick write)=
        spec.arch.chunks.set l.indices.chunkIdx
          (c.modifyCell t l.indices.idxInChunk (write.apply tick)) := by
    rw [List.set_eq_modify]
    refine modify_congr fun c' hc' => ?_
    cases h.chunk.symm.trans hc'
    exact if_pos ⟨h.row,h.reaches⟩
  unfold World.editCell World.setCell World.setArch
  rw [modifyAt_congr fun spec' hv' => ?_]
  cases h.archetype.symm.trans hv'
  rw [ArchetypeSpec.editCell,hchunks]

/-- Where no cell is reached nothing changes. -/
theorem editCell_missing (h : ∀ spec c,¬Reached w l t write spec c) :
    World.editCell w l t tick write=w := by
  have hspec : ∀ spec,w.archetypes.valueAt l.archId=some spec →
      ArchetypeSpec.editCell l.indices t tick write spec=spec := by
    intro spec hv
    have hchunks : spec.arch.chunks.modify l.indices.chunkIdx
        (Chunk.editCell spec.layout l.indices.idxInChunk t tick write)=spec.arch.chunks :=
      modify_id fun c hc => if_neg fun hok => h spec c ⟨hv,hc,hok.1,hok.2⟩
    rw [ArchetypeSpec.editCell,hchunks]
  unfold World.editCell
  rw [modifyAt_id hspec]

/-- What a write through an item does to the world. -/
theorem writeItem_edits {D : Prop} (h : RegistryInv D w) (write : ItemWrite V) :
    (writeItem l t write w).2=World.editCell w l t w.tick write := by
  refine wp_state (x:=writeThrough l t w.tick write) (I:=fun w' => w'=World.editCell w l t w.tick write) ?_
  refine wp_mono (writeThrough_spec h l t w.tick write) ?_ ?_
  · intro _ w' hw
    obtain ⟨spec,c,hr,hw⟩ := hw
    rw [hw,editCell_reached hr]
  · intro _ w' hw
    rw [hw.1,editCell_missing hw.2]

end Writes

section Commuting

theorem place_ext (ha : l.archId=l'.archId) (hk : l.indices.chunkIdx=l'.indices.chunkIdx)
    (hr : l.indices.idxInChunk=l'.indices.idxInChunk) : l=l' := by
  cases l with
  | mk a ix => cases ix with
    | mk k r =>
      dsimp only at ha hk hr
      rw [ha,hk,hr]

/-- Rewriting two cells of one chunk. -/
theorem modifyCell_comm {c : Chunk V} {row row' : ℕ} (h : t=t' → row≠row') :
    (c.modifyCell t' row' g).modifyCell t row f=(c.modifyCell t row f).modifyCell t' row' g := by
  have hcells : ∀ t₀ r₀,((c.modifyCell t' row' g).modifyCell t row f).cells t₀ r₀=
      ((c.modifyCell t row f).modifyCell t' row' g).cells t₀ r₀ := by
    intro t₀ r₀
    simp only [Chunk.modifyCell]
    by_cases h₁ : t₀=t ∧ r₀=row
    · obtain ⟨rfl,rfl⟩ := h₁
      have hne : ¬(t₀=t' ∧ r₀=row') := fun he => h he.1 he.2
      simp [hne]
    · simp [h₁]
  have hcells' := funext fun t₀ => funext fun r₀ => hcells t₀ r₀
  exact congrArg (fun cells => { c with cells := cells }) hcells'

theorem chunk_editCell_comm {layout : ChunkLayout} {row row' : ℕ} (h : t=t' → row≠row') (c : Chunk V) :
    Chunk.editCell layout row t tick write (Chunk.editCell layout row' t' tick' write' c)=
      Chunk.editCell layout row' t' tick' write' (Chunk.editCell layout row t tick write c) := by
  unfold Chunk.editCell
  by_cases h₁ : row<c.len ∧ write.reaches layout t=true
  · by_cases h₂ : row'<c.len ∧ write'.reaches layout t'=true
    · simp only [h₁,h₂,and_self,if_true,len_modifyCell]
      exact modifyCell_comm h
    · simp only [h₁,h₂,and_self,if_true,if_false,len_modifyCell]
  · simp only [h₁,if_false]
    by_cases h₂ : row'<c.len ∧ write'.reaches layout t'=true
    · simp only [h₂,and_self,if_true,len_modifyCell,h₁,if_false]
    · simp only [h₂,if_false,h₁]

/-- Rewrites of different cells commute. -/
theorem editCell_comm (h : l=l' → t≠t') :
    World.editCell (World.editCell w l' t' tick' write') l t tick write=
      World.editCell (World.editCell w l t tick write) l' t' tick' write' := by
  have hspec : l.archId=l'.archId → ∀ spec : ArchetypeSpec V,
      ArchetypeSpec.editCell l.indices t tick write (ArchetypeSpec.editCell l'.indices t' tick' write' spec)=
        ArchetypeSpec.editCell l'.indices t' tick' write' (ArchetypeSpec.editCell l.indices t tick write spec) := by
    intro ha spec
    have hchunks : (spec.arch.chunks.modify l'.indices.chunkIdx
        (Chunk.editCell spec.layout l'.indices.idxInChunk t' tick' write')).modify l.indices.chunkIdx
          (Chunk.editCell spec.layout l.indices.idxInChunk t tick write)=
        (spec.arch.chunks.modify l.indices.chunkIdx
          (Chunk.editCell spec.layout l.indices.idxInChunk t tick write)).modify l'.indices.chunkIdx
            (Chunk.editCell spec.layout l'.indices.idxInChunk t' tick' write') := by
      exact modify_comm fun hk c => chunk_editCell_comm (fun ht hrow => h (place_ext ha hk hrow) ht) c
    unfold ArchetypeSpec.editCell
    dsimp only
    rw [hchunks]
  unfold World.editCell
  dsimp only
  rw [modifyAt_comm hspec]

end Commuting

section Reading

theorem row_modifyCell_other {layout : ChunkLayout} {c : Chunk V} {row row' : ℕ}
    (h : row=row' → t≠t') : (c.modifyCell t' row' g).rowData layout row t=c.rowData layout row t := by
  have hcell : (c.modifyCell t' row' g).cells t row=c.cells t row :=
    if_neg fun he => h he.2 he.1
  rw [Chunk.rowData,Chunk.rowData,hcell]

/-- What a chunk holds in one cell, when another one is rewritten. -/
theorem chunk_editCell_read {layout : ChunkLayout} {c : Chunk V} {row row' : ℕ}
    (h : row=row' → t≠t') :
    (((Chunk.editCell layout row' t' tick' write' c).row layout row).bind fun x => x.2 t)=
      (c.row layout row).bind fun x => x.2 t := by
  unfold Chunk.editCell
  split
  · unfold Chunk.row
    by_cases hlt : row<c.len
    · rw [if_pos hlt,if_pos (show row<(c.modifyCell t' row' _).len from hlt)]
      exact row_modifyCell_other h
    · rw [if_neg hlt,if_neg (show ¬row<(c.modifyCell t' row' _).len from hlt)]
  · rfl

/-- A component is read as before when another cell is rewritten. -/
theorem componentAt_editCell (h : l=l' → t≠t') :
    World.componentAt (World.editCell w l' t' tick' write') l t=World.componentAt w l t := by
  unfold World.componentAt World.row World.editCell
  dsimp only
  rw [SequenceValueHashMap.valueAt_modifyAt]
  by_cases ha : l'.archId=l.archId
  · rw [if_pos ha]
    cases w.archetypes.valueAt l.archId with
    | none => rfl
    | some spec =>
      rw [Option.map_some,Option.bind_some,Option.bind_some]
      unfold Archetype.row ArchetypeSpec.editCell
      dsimp only
      by_cases hk : l'.indices.chunkIdx=l.indices.chunkIdx
      · rw [hk,List.getElem?_modify_eq]
        cases spec.arch.chunks[l.indices.chunkIdx]? with
        | none => rfl
        | some c => exact chunk_editCell_read fun hrow => h (place_ext ha.symm hk.symm hrow)
      · rw [List.getElem?_modify_ne _ _ hk]
  · rw [if_neg ha]

end Reading

end XynokEcs.CellEdits
