import XynokEcs.StoreSteps

/-!
# Writing through the items of a query

A query hands out the column of a row. Going through a `Mut` stamps the row's
change with the tick of the run, by a pointer to the changed region of the
column, a plain reference does not, and a detail column sets the enable bit.
Each is a change of one component of one live entity.
-/

namespace XynokEcs.ItemWrites

open ComponentTypes EntityHandle SequenceValueMap ChunkLayouts FaultingState RowDirectory ChunkRows
  RowWrites ArchetypeStore EntityAllocation SlotInvariants WorldState WorldCalls RegistryInvariants
  StoreInvariants StoreSteps

variable {V : Type}

/-- What a system does through the item of a column it holds mutably. -/
inductive ItemWrite (V : Type)
  /-- Through the `DerefMut` of a `Mut`. -/
  | assign (v : V)
  /-- Through a plain reference: the item of a component that does not track
  changes, or what `bypass_change_detection` makes of a `Mut`. -/
  | bypass (v : V)
  /-- `mark_changed` of a `Mut`. -/
  | markChanged
  /-- `set_enabled` of a detail item. -/
  | setEnabled (value : Bool)

/-- The value that a write stores. -/
def ItemWrite.stores : ItemWrite V → Option V
  | .assign v => some v
  | .bypass v => some v
  | .markChanged => none
  | .setEnabled _ => none

/-- Does the write go through `mark_changed`? -/
def ItemWrite.stamps : ItemWrite V → Bool
  | .assign _ => true
  | .bypass _ => false
  | .markChanged => true
  | .setEnabled _ => false

/-- The state a write sets the enable bit to. -/
def ItemWrite.enables : ItemWrite V → Option Bool
  | .assign _ => none
  | .bypass _ => none
  | .markChanged => none
  | .setEnabled value => some value

/-- The cell after a write. -/
def ItemWrite.apply (tick : ChangedTick) : ItemWrite V → Cell V → Cell V
  | .assign v,cell => { cell with value := v, changed := tick }
  | .bypass v,cell => { cell with value := v }
  | .markChanged,cell => { cell with changed := tick }
  | .setEnabled value,cell => { cell with enable := value }

/-- The data of a component after a write. -/
def ItemWrite.data (tick : ChangedTick) (write : ItemWrite V) (x : ComponentData V) :
    ComponentData V where
  value := write.stores.getD x.value
  enabled := x.enabled.map fun b => write.enables.getD b
  added := x.added
  changed := x.changed.map fun old => if write.stamps then tick else old

/-- Do the pointers of a write lead anywhere? There is a column, and a changed
region where the write stamps. A chunk without that region has a null pointer for it. -/
def ItemWrite.reaches (write : ItemWrite V) (layout : ChunkLayout) (t : StorageType) : Bool :=
  (layout.componentColDescriptors.lookup t).any fun o =>
    !write.stamps || o.stateOffset.changedOffset.isSome

/-- Write to one column of one row in use. A stamp without a changed region goes
through the null pointer. -/
def writeCell (layout : ChunkLayout) (row : ℕ) (t : StorageType) (tick : ChangedTick)
    (write : ItemWrite V) : Faulting (Chunk V) Fault Unit := fun c =>
  if row<c.len ∧ write.reaches layout t=true then (.ok (),c.modifyCell t row (write.apply tick))
  else (.error .undefinedBehaviour,c)

/-- Write through an item of the row at a place, handed out with the tick of its query. -/
def writeThrough (l : RowLoc) (t : StorageType) (tick : ChangedTick) (write : ItemWrite V) : Call V Unit :=
  onArchetype l.archId fun layout =>
    onChunk l.indices.chunkIdx (writeCell layout l.indices.idxInChunk t tick write)

/-- Write through an item of a query that was made at the tick of the world. -/
def writeItem (l : RowLoc) (t : StorageType) (write : ItemWrite V) : Call V Unit := do
  let w ← getState
  writeThrough l t w.tick write

section Cells

variable {layout : ChunkLayout} {t : StorageType} {write : ItemWrite V}

/-- A write reaches a column, and its changed region where it stamps. -/
theorem reaches_iff : write.reaches layout t=true ↔ ∃ o,layout.componentColDescriptors.lookup t=some o ∧
    (write.stamps=true → o.stateOffset.changedOffset.isSome=true) := by
  unfold ItemWrite.reaches
  rw [Option.any_eq_true]
  refine exists_congr fun o => and_congr_right fun _ => ?_
  cases write.stamps <;> simp

theorem mem_of_reaches (h : write.reaches layout t=true) : t∈layout.componentColDescriptors := by
  obtain ⟨o,ho,-⟩ := reaches_iff.mp h
  exact AList.lookup_isSome.mp (Option.isSome_iff_exists.mpr ⟨o,ho⟩)

/-- The row of a chunk after one cell was rewritten. -/
theorem row_modifyCell {c : Chunk V} {row : ℕ} {o : ColumnDescriptor}
    (hl : row<c.len) (ht : layout.componentColDescriptors.lookup t=some o) (f : Cell V → Cell V) :
    (c.modifyCell t row f).row layout=Function.update (c.row layout) row
      (some (c.entities row,Function.update (c.rowData layout row) t
        (some (readCell o.stateOffset (f (c.cells t row)))))) := by
  funext r
  rw [Function.update_apply]
  by_cases hr : r=row
  · subst hr
    rw [if_pos rfl]
    refine (if_pos hl).trans (congrArg (fun d => some (c.entities r,d)) ?_)
    funext t'
    rw [Function.update_apply,Chunk.rowData]
    by_cases ht' : t'=t
    · subst ht'
      rw [if_pos rfl,ht,Option.map_some]
      simp only [Chunk.modifyCell,and_self,if_true]
    · rw [if_neg ht',Chunk.rowData]
      simp only [Chunk.modifyCell,ht',false_and,if_false]
  · have hdata : (c.modifyCell t row f).rowData layout r=c.rowData layout r := by
      funext t'
      simp only [Chunk.rowData,Chunk.modifyCell,hr,and_false,if_false]
    rw [if_neg hr,Chunk.row,Chunk.row,hdata]
    rfl

/-- What is read after a write to a cell. -/
theorem readCell_apply (write : ItemWrite V) (tick : ChangedTick) (o : StateOffset) (cell : Cell V) :
    readCell o (write.apply tick cell)=write.data tick (readCell o cell) := by
  obtain ⟨enableOffset,addedOffset,changedOffset⟩ := o
  cases write <;> cases enableOffset <;> cases changedOffset <;> rfl

end Cells

section Places

variable {D : Prop} {w : World V} {l : RowLoc} {t : StorageType} {tick : ChangedTick}
  {write : ItemWrite V} {spec : ArchetypeSpec V} {c : Chunk V}

/-- One component of the row at a place. -/
def World.componentAt (w : World V) (l : RowLoc) (t : StorageType) : Option (ComponentData V) :=
  (World.row w l).bind fun x => x.2 t

/-- The chunk that a write through an item of the row at a place goes to. -/
structure Reached (w : World V) (l : RowLoc) (t : StorageType) (write : ItemWrite V)
    (spec : ArchetypeSpec V) (c : Chunk V) : Prop where
  /-- The archetype is registered. -/
  archetype : w.archetypes.valueAt l.archId=some spec
  /-- The chunk is there. -/
  chunk : spec.arch.chunks[l.indices.chunkIdx]?=some c
  /-- The row is in use. -/
  row : l.indices.idxInChunk<c.len
  /-- The layout has the regions that the write goes to. -/
  reaches : write.reaches spec.layout t=true

/-- The world with one cell rewritten. -/
def World.setCell (w : World V) (l : RowLoc) (t : StorageType) (spec : ArchetypeSpec V) (c : Chunk V)
    (f : Cell V → Cell V) : World V :=
  World.setArch w l.archId { spec.arch with
    chunks := spec.arch.chunks.set l.indices.chunkIdx (c.modifyCell t l.indices.idxInChunk f) }

theorem onArchetype_error (h : RegistryInv D w) {i : ℕ} (hv : w.archetypes.valueAt i=some spec)
    {x : ChunkLayout → Faulting (Archetype V) Fault Unit} {e : Fault}
    (hx : x spec.layout spec.arch=(.error e,spec.arch)) : onArchetype i x w=(.error e,w) := by
  rw [onArchetype_eq h hv hx,setArch_self hv]

theorem onChunk_error {k : ℕ} {a : Archetype V} (hc : a.chunks[k]?=some c)
    {x : Faulting (Chunk V) Fault Unit} {e : Fault} (hx : x c=(.error e,c)) :
    onChunk k x a=(.error e,a) := by
  have hset : a.chunks.set k c=a.chunks := by
    obtain ⟨hk,rfl⟩ := List.getElem?_eq_some_iff.mp hc
    exact List.set_getElem_self hk
  rw [onChunk_eq hc hx,hset]

/-- A write that reaches its cell rewrites it. -/
theorem writeThrough_reached (h : RegistryInv D w) (hr : Reached w l t write spec c) (tick : ChangedTick) :
    writeThrough l t tick write w=(.ok (),World.setCell w l t spec c (write.apply tick)) := by
  have hcell : writeCell spec.layout l.indices.idxInChunk t tick write c=
      (.ok (),c.modifyCell t l.indices.idxInChunk (write.apply tick)) := if_pos ⟨hr.row,hr.reaches⟩
  exact onArchetype_eq h hr.archetype (onChunk_eq hr.chunk hcell)

/-- A write that reaches nothing changes nothing. -/
theorem writeThrough_missing (h : RegistryInv D w) (hn : ∀ spec c,¬Reached w l t write spec c)
    (tick : ChangedTick) : ∃ e,writeThrough l t tick write w=(.error e,w) := by
  unfold writeThrough
  cases hv : w.archetypes.valueAt l.archId with
  | none =>
    have hrun : getArchetype l.archId w=(.error (.panic .unwrapFailed),w) := by
      unfold getArchetype
      rw [getState_bind,h.get_eq,hv]
      rfl
    unfold onArchetype
    exact ⟨_,bind_error hrun⟩
  | some spec =>
    cases hc : spec.arch.chunks[l.indices.chunkIdx]? with
    | none =>
      have hmissing : onChunk l.indices.chunkIdx (writeCell spec.layout l.indices.idxInChunk t tick write)
          spec.arch=(.error .undefinedBehaviour,spec.arch) := focus_missing hc
      exact ⟨_,onArchetype_error h hv hmissing⟩
    | some c =>
      have hcell : writeCell spec.layout l.indices.idxInChunk t tick write c=
          (.error .undefinedBehaviour,c) := if_neg fun hok => hn spec c ⟨hv,hc,hok.1,hok.2⟩
      exact ⟨_,onArchetype_error h hv (onChunk_error hc hcell)⟩

/-- A write through an item rewrites the cell that it reaches, or nothing. -/
theorem writeThrough_spec (h : RegistryInv D w) (l : RowLoc) (t : StorageType) (tick : ChangedTick)
    (write : ItemWrite V) : wp (writeThrough l t tick write)
    (fun _ w' => ∃ spec c,Reached w l t write spec c ∧
      w'=World.setCell w l t spec c (write.apply tick))
    (fun _ w' => w'=w ∧ ∀ spec c,¬Reached w l t write spec c) w := by
  unfold wp
  by_cases hr : ∃ spec c,Reached w l t write spec c
  · obtain ⟨spec,c,hr⟩ := hr
    rw [writeThrough_reached h hr]
    exact ⟨spec,c,hr,rfl⟩
  · have hn : ∀ spec c,¬Reached w l t write spec c := fun spec c hc => hr ⟨spec,c,hc⟩
    obtain ⟨e,he⟩ := writeThrough_missing h hn tick
    rw [he]
    exact ⟨rfl,hn⟩

end Places

section Contents

variable {D : Prop} {reserved : List Entity} {w w' : World V} {t : StorageType}

/-- What a write does to one component of one entity. -/
def Written (e : Entity) (t : StorageType) (write : ItemWrite V) (w w' : World V) : Prop :=
  w'.entityAllocator=w.entityAllocator ∧ Evolves w w' ∧ ∃ x d,World.contents w e=some x ∧ x t=some d ∧
    (write.stamps=true → d.changed.isSome=true) ∧
    World.contents w'=Function.update (World.contents w) e
      (some (Function.update x t (some (write.data w.tick d))))

/-- Writing to a row in use changes one component of the entity there; a write
that reaches nothing changes nothing. -/
theorem writeItem_spec (h : StoreInv D reserved w) (l : RowLoc) (t : StorageType)
    (write : ItemWrite V) :
    wp (writeItem l t write) (fun _ w' => StoreInv D reserved w' ∧
        ∃ e,w.entityAllocator.locate e=some l ∧ Written e t write w w')
      (fun _ w' => w'=w) w := by
  unfold writeItem
  rw [wp_bind,wp_getState]
  refine wp_mono (writeThrough_spec h.registry l t w.tick write) (fun _ w' hw => ?_) fun _ _ hw => hw.1
  obtain ⟨spec,c,hr,rfl⟩ := hw
  obtain ⟨o,ho,hregion⟩ := reaches_iff.mp hr.reaches
  let e := c.entities l.indices.idxInChunk
  have hloc : w.entityAllocator.locate e=some l :=
    h.consistent.locate (d:=World.directory w) (row_of_chunk hr.archetype hr.chunk hr.row)
  obtain ⟨slot,spec',c',hf⟩ := StoreInv.found h hloc
  have hslot : slot.loc=l := Option.some.inj (hf.locate.symm.trans hloc)
  subst hslot
  have hspec : spec'=spec := Option.some.inj (hf.archetype.symm.trans hr.archetype)
  subst hspec
  have hchunk : c'=c := Option.some.inj (hf.chunk.symm.trans hr.chunk)
  subst hchunk
  have hrow := row_modifyCell hr.row ho (write.apply w.tick)
  have hle := (h.sound _ _ hr.archetype).len_le _ _ hr.chunk
  have hsound : Sound spec'.layout { spec'.arch with
      chunks := spec'.arch.chunks.set slot.chunkIdx
        (c'.modifyCell t slot.idxInChunk (write.apply w.tick)) } none := by
    refine sound_set (h.sound _ _ hr.archetype) hr.chunk rfl hle ?_ (fun _ _ => Iff.rfl)
    rw [(h.sound _ _ hr.archetype).free_iff]
    have hc' : spec'.arch.chunks[slot.chunkIdx]?=some c' := hr.chunk
    rw [hc']
    simp only [Option.some.injEq,exists_eq_left']
    rfl
  obtain ⟨hinv,hev,hcon⟩ := StoreInv.rewritten h hf hsound rfl (row_set_update hr.chunk hrow)
  rw [readCell_apply] at hcon
  refine ⟨hinv,e,hloc,rfl,hev,_,readCell o.stateOffset (c'.cells t slot.idxInChunk),hf.contents h,
    ?_,fun hs => ?_,hcon⟩
  · rw [Chunk.rowData,ho,Option.map_some]
  · unfold readCell
    dsimp only
    rw [if_pos (hregion hs)]
    rfl

end Contents

end XynokEcs.ItemWrites
