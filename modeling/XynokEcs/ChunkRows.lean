import XynokEcs.ChunkLayouts
import XynokEcs.EntityHandle
import XynokEcs.FaultingState
import XynokEcs.RowDirectory

/-!
# Rows of a chunk

A column keeps the values of one component next to the regions of its states; a
cell gathers what they hold for one row. Each operation on a row is the loop of
the source over the columns it touches. Below the operations stands what they
do to the table of rows: a row is written at the end, replaced, taken out with
the last row moved into the hole, or copied to a chunk of another layout.
-/

namespace XynokEcs.ChunkRows

open ComponentTypes EntityHandle SequenceValueMap ChunkLayouts FaultingState RowDirectory

/-- `ChangedTick`. -/
abbrev ChangedTick := UInt32

/-- The value and the states of one component in one row. A state whose region
the layout does not have is never read. -/
structure Cell (V : Type) where
  /-- The component. -/
  value : V
  /-- The enable bit. -/
  enable : Bool
  /-- The tick of insertion. -/
  added : ChangedTick
  /-- The tick of the last change. -/
  changed : ChangedTick

/-- A row that was moved into a hole. -/
structure SwappedRow where
  /-- The entity of the row. -/
  e : Entity
  /-- Where the row was. -/
  fromRow : ℕ
  /-- Where the row is now. -/
  toRow : ℕ
deriving DecidableEq

/-- A chunk. Its layout gives every column its own regions, so a cell is named
by the storage type of its column and its row. -/
structure Chunk (V : Type) where
  /-- The number of rows in use. -/
  len : ℕ
  /-- How many rows there is room for. -/
  maxLen : ℕ
  /-- The handle stored with each row. -/
  entities : ℕ → Entity
  /-- The cell of each column and row. -/
  cells : StorageType → ℕ → Cell V
  /-- The values dropped in place, in order. -/
  dropped : List (StorageType×V)

variable {V : Type}

/-- A new chunk: the header is zeroed, no value is written yet. -/
def Chunk.new [Inhabited V] (layout : ChunkLayout) : Chunk V :=
  ⟨0,layout.maxLen,fun _ => .null,fun _ _ => ⟨default,false,0,0⟩,[]⟩

/-- No room for another row. -/
def Chunk.isFull (c : Chunk V) : Bool := c.len≥c.maxLen

/-- Rewrite the cell of one row in one column. -/
def Chunk.modifyCell (c : Chunk V) (t : StorageType) (row : ℕ) (f : Cell V → Cell V) : Chunk V :=
  { c with cells := fun t' r => if t'=t ∧ r=row then f (c.cells t' r) else c.cells t' r }

/-- `get_entity_uncheck_mut`, written through. -/
def Chunk.setEntity (c : Chunk V) (row : ℕ) (e : Entity) : Chunk V :=
  { c with entities := Function.update c.entities row e }

/-- `fn_drop` on the value of a cell. -/
def Chunk.dropCell (c : Chunk V) (t : StorageType) (row : ℕ) : Chunk V :=
  { c with dropped := c.dropped++[(t,(c.cells t row).value)] }

/-- `increase_len`. -/
def Chunk.increaseLen (c : Chunk V) : Chunk V := { c with len := c.len+1 }

/-- `decrease_len`. -/
def Chunk.decreaseLen (c : Chunk V) : Chunk V := { c with len := c.len-1 }

/-- Copy to `b` each state of `a` that both layouts keep a region for. -/
def carryState (src dst : StateOffset) (a b : Cell V) : Cell V :=
  { b with
    enable := if src.enableOffset.isSome && dst.enableOffset.isSome then a.enable else b.enable
    added := if src.addedOffset.isSome && dst.addedOffset.isSome then a.added else b.added
    changed := if src.changedOffset.isSome && dst.changedOffset.isSome then a.changed
      else b.changed }

/-- `move_state_within`: one row's state to another row of the same column. -/
def moveStateWithin (c : Chunk V) (state : StateOffset) (t : StorageType) (fromRow toRow : ℕ) :
    Chunk V :=
  c.modifyCell t toRow (carryState state state (c.cells t fromRow))

/-- `copy_nonoverlapping` of one value inside a column. -/
def copyValueWithin (c : Chunk V) (t : StorageType) (fromRow toRow : ℕ) : Chunk V :=
  c.modifyCell t toRow (fun cell => { cell with value := (c.cells t fromRow).value })

/-- `copy_state_across`: one row's state to a row of a chunk of another layout. -/
def copyStateAcross (src : Chunk V) (srcState : StateOffset) (t : StorageType) (srcRow : ℕ)
    (dst : Chunk V) (dstState : StateOffset) (dstRow : ℕ) : Chunk V :=
  dst.modifyCell t dstRow (carryState srcState dstState (src.cells t srcRow))

/-- Where a column sits in the source chunk, and how big one element of it is. -/
structure ColumnInSrc where
  /-- The component whose column this is. -/
  storageTypeId : StorageType
  /-- Where its values start. -/
  offset : ℕ
  /-- How many bytes a value takes. -/
  byteSize : ℕ
  /-- Where its states start. -/
  stateOffset : StateOffset
deriving DecidableEq

/-- What happens to one column of the source archetype when an entity moves. -/
inductive ComponentMigration
  /-- The destination carries this column too. -/
  | move (src : ColumnInSrc) (dstOffset : ℕ) (dstStateOffset : StateOffset)
  /-- The destination has no such column. -/
  | abandon (src : ColumnInSrc)
deriving DecidableEq

/-- The source-side position. -/
def ComponentMigration.src : ComponentMigration → ColumnInSrc
  | .move src _ _ => src
  | .abandon src => src

/-- What to do with every column of a source layout. -/
structure MigrationPlan where
  /-- One entry for each column. -/
  components : List ComponentMigration
deriving DecidableEq

/-- The plan between two layouts: a column the destination also has is moved,
the others are abandoned. -/
def MigrationPlan.new (srcLayout dstLayout : ChunkLayout) : MigrationPlan where
  components := srcLayout.columns.map fun srcCol =>
    let src : ColumnInSrc :=
      ⟨srcCol.storageTypeId,srcCol.offset,srcCol.byteSize,srcCol.stateOffset⟩
    match dstLayout.componentColDescriptors.lookup srcCol.storageTypeId with
    | some dst => .move src dst.offset dst.stateOffset
    | none => .abandon src

/-- `backfill_last_row`: value and state of the last row move into the hole. -/
def backfillLastRow (c : Chunk V) (src : ColumnInSrc) (last toRow : ℕ) : Chunk V :=
  moveStateWithin (copyValueWithin c src.storageTypeId last toRow) src.stateOffset
    src.storageTypeId last toRow

/-- One column of `take_from`, on the destination and the source chunk. -/
def takeColumn (fromRow toRow last : ℕ) (chunks : Chunk V×Chunk V) (mig : ComponentMigration) :
    Chunk V×Chunk V :=
  let dst := match mig with
    | .move src _ dstState =>
      let t := src.storageTypeId
      copyStateAcross chunks.2 src.stateOffset t fromRow
        (chunks.1.modifyCell t toRow
          (fun cell => { cell with value := (chunks.2.cells t fromRow).value })) dstState toRow
    | .abandon _ => chunks.1
  (dst,if fromRow=last then chunks.2 else backfillLastRow chunks.2 mig.src last fromRow)

/-- `take_from`: move a row of `src` to the row `toRow` of `dst` and fill the
hole with the last row. Neither length changes here. -/
def takeFrom (dst src : Chunk V) (fromRow toRow : ℕ) (migration : MigrationPlan) :
    Option SwappedRow×Chunk V×Chunk V :=
  let last := src.len-1
  let chunks := migration.components.foldl (takeColumn fromRow toRow last) (dst,src)
  let movedE := chunks.2.entities fromRow
  let newSrcE := if fromRow=last then Entity.null else chunks.2.entities last
  let dst := chunks.1.setEntity toRow movedE
  let src := chunks.2.setEntity fromRow newSrcE
  (if fromRow=last then none else some ⟨src.entities fromRow,last,fromRow⟩,dst,src)

/-- One column of `swap_remove_at`. -/
def removeColumn (idx last : ℕ) (c : Chunk V) (col : ColumnEntry) : Chunk V :=
  let c := c.dropCell col.storageTypeId idx
  if idx=last then c
  else moveStateWithin (copyValueWithin c col.storageTypeId last idx) col.stateOffset
    col.storageTypeId last idx

/-- `swap_remove_at`: drop a row in place and move the last row into the hole. -/
def swapRemoveAt (layout : ChunkLayout) (idx : ℕ) : Faulting (Chunk V) Fault (Option SwappedRow) :=
  fun c =>
    if idx≥c.len then (.error (.err (.idxIsOutOfChunkLen idx c.len)),c)
    else
      let last := c.len-1
      let c := layout.columns.foldl (removeColumn idx last) c
      let newSrcE := if idx=last then Entity.null else c.entities last
      let c := c.setEntity idx newSrcE
      (.ok (if idx=last then none else some ⟨c.entities last,last,idx⟩),c)

/-- Leave through an error of the crate when the outcome is one. -/
def orErr {σ α : Type} (r : Except XynokEcsError α) : Faulting σ Fault α :=
  ofExcept (r.mapError .err)

/-- `validate_column_present`, `components_ptr` and `state_offset`: the one
lookup of a component's column. -/
def validateColumnPresent (c : Component) (layout : ChunkLayout) :
    Except XynokEcsError ColumnDescriptor :=
  match layout.componentColDescriptors.lookup c.storageType with
  | some des => .ok des
  | none => .error (.chunkDoesNotContainComponent c.queryType c.storageType)

/-- A state region, or the error that names it. -/
def stateRegion (c : Component) (offset : Option ℕ) (name : String) : Except XynokEcsError ℕ :=
  match offset with
  | some o => .ok o
  | none => .error (.componentStateNotAvailable c.storageType name)

/-- `validate_writable` of one component. -/
def validateWritable (c : Component) (layout : ChunkLayout) : Except XynokEcsError Unit := do
  let colDes ← validateColumnPresent c layout
  if c.stateDetection.needsEnable then
    let _ ← stateRegion c colDes.stateOffset.enableOffset "enable"
  if c.stateDetection.needsChange then
    let _ ← stateRegion c colDes.stateOffset.addedOffset "added"
    let _ ← stateRegion c colDes.stateOffset.changedOffset "changed"

/-- `validate_takeable` of one component. -/
def validateTakeable (c : Component) (layout : ChunkLayout) : Except XynokEcsError Unit := do
  let _ ← validateColumnPresent c layout

/-- A checked write of one state of a row. -/
def setState (c : Component) (layout : ChunkLayout) (row : ℕ) (offset : StateOffset → Option ℕ)
    (name : String) (f : Cell V → Cell V) : Faulting (Chunk V) Fault Unit := do
  let colDes ← orErr (validateColumnPresent c layout)
  let _ ← orErr (stateRegion c (offset colDes.stateOffset) name)
  modifyState (fun chunk => chunk.modifyCell c.storageType row f)

/-- `set_enable_bit`. -/
def setEnableBit (c : Component) (layout : ChunkLayout) (row : ℕ) (value : Bool) :
    Faulting (Chunk V) Fault Unit :=
  setState c layout row StateOffset.enableOffset "enable" (fun cell => { cell with enable := value })

/-- `set_added_tick`. -/
def setAddedTick (c : Component) (layout : ChunkLayout) (row : ℕ) (tick : ChangedTick) :
    Faulting (Chunk V) Fault Unit :=
  setState c layout row StateOffset.addedOffset "added" (fun cell => { cell with added := tick })

/-- `set_changed_tick`. -/
def setChangedTick (c : Component) (layout : ChunkLayout) (row : ℕ) (tick : ChangedTick) :
    Faulting (Chunk V) Fault Unit :=
  setState c layout row StateOffset.changedOffset "changed"
    (fun cell => { cell with changed := tick })

/-- `write_at`: a component that is new in this row. -/
def writeAt (layout : ChunkLayout) (row : ℕ) (tick : ChangedTick) (c : Component) (value : V) :
    Faulting (Chunk V) Fault Unit := do
  let _ ← orErr (validateColumnPresent c layout)
  modifyState (fun chunk => chunk.modifyCell c.storageType row
    (fun cell => { cell with value := value }))
  onlyIf c.stateDetection.needsEnable (setEnableBit c layout row c.enableValue)
  onlyIf c.stateDetection.needsChange (do
    setAddedTick c layout row tick
    setChangedTick c layout row tick)

/-- `replace_at`: drop the old value, assign the new one. -/
def replaceAt (layout : ChunkLayout) (row : ℕ) (tick : ChangedTick) (c : Component) (value : V) :
    Faulting (Chunk V) Fault Unit := do
  let _ ← orErr (validateColumnPresent c layout)
  modifyState (fun chunk => (chunk.dropCell c.storageType row).modifyCell c.storageType row
    (fun cell => { cell with value := value }))
  onlyIf c.stateDetection.needsChange (setChangedTick c layout row tick)

/-- `write_or_replace_at`: an overwrite where the source row already had the
component, a fresh write otherwise. -/
def writeOrReplaceAt (srcLayout dstLayout : ChunkLayout) (row : ℕ) (tick : ChangedTick)
    (c : Component) (value : V) : Faulting (Chunk V) Fault Unit :=
  if c.storageType∈srcLayout.componentColDescriptors then replaceAt dstLayout row tick c value
  else writeAt dstLayout row tick c value

/-- `take_at`: the value of one component, read out bitwise. -/
def takeAt (layout : ChunkLayout) (row : ℕ) (c : Component) : Faulting (Chunk V) Fault V := do
  let _ ← orErr (validateColumnPresent c layout)
  let chunk ← getState
  return (chunk.cells c.storageType row).value

/-- One check for each component of an archetype type, in order. -/
def forComponents (f : Component → Except XynokEcsError Unit) :
    List Component → Except XynokEcsError Unit
  | [] => .ok ()
  | c::rest => match f c with
    | .ok () => forComponents f rest
    | .error e => .error e

/-- `TArchetype::validate_writable`. -/
def validateArchetypeWritable (T : TArchetype) (layout : ChunkLayout) : Except XynokEcsError Unit :=
  forComponents (fun c => validateWritable c layout) T.components

/-- `TArchetype::validate_takeable`. -/
def validateArchetypeTakeable (T : TArchetype) (layout : ChunkLayout) : Except XynokEcsError Unit :=
  forComponents (fun c => validateTakeable c layout) T.components

/-- One step for each component of a bundle with its value, in order. -/
def forItems {σ : Type} (f : Component → V → Faulting σ Fault Unit) :
    List (Component×V) → Faulting σ Fault Unit
  | [] => return ()
  | p::rest => do
    f p.1 p.2
    forItems f rest

/-- The values of several components of one row, in order. -/
def takeItems (layout : ChunkLayout) (row : ℕ) :
    List Component → Faulting (Chunk V) Fault (List (Component×V))
  | [] => return []
  | c::rest => do
    let v ← takeAt layout row c
    let vs ← takeItems layout row rest
    return (c,v)::vs

/-- `TArchetype::take_from`: the value of an archetype type, read out of a row. -/
def takeBundle (layout : ChunkLayout) (row : ℕ) :
    TArchetype → Faulting (Chunk V) Fault (Bundle V)
  | .single c => do
    let v ← takeAt layout row c
    return .single c v
  | .tuple c cs => do
    let v ← takeAt layout row c
    let vs ← takeItems layout row cs
    return .tuple (c,v) vs

/-- What a layout lets be read of one component in one row. -/
structure ComponentData (V : Type) where
  /-- The component. -/
  value : V
  /-- The enable bit, if the layout keeps one. -/
  enabled : Option Bool
  /-- The tick of insertion, if the layout keeps one. -/
  added : Option ChangedTick
  /-- The tick of the last change, if the layout keeps one. -/
  changed : Option ChangedTick
deriving DecidableEq

/-- The components of one row. -/
abbrev RowData (V : Type) := StorageType → Option (ComponentData V)

/-- Read a cell through the state regions of its column. -/
def readCell (o : StateOffset) (cell : Cell V) : ComponentData V where
  value := cell.value
  enabled := if o.enableOffset.isSome then some cell.enable else none
  added := if o.addedOffset.isSome then some cell.added else none
  changed := if o.changedOffset.isSome then some cell.changed else none

/-- The components a layout places in a row. -/
def Chunk.rowData (layout : ChunkLayout) (c : Chunk V) (row : ℕ) : RowData V := fun t =>
  (layout.componentColDescriptors.lookup t).map fun d => readCell d.stateOffset (c.cells t row)

/-- The table a chunk stands for: handle and components of every row in use. -/
def Chunk.row (layout : ChunkLayout) (c : Chunk V) (r : ℕ) : Option (Entity×RowData V) :=
  if r<c.len then some (c.entities r,c.rowData layout r) else none

/-- What the row operations need to know of a layout: its columns are distinct
and are the ones the lookup by storage type finds. -/
structure WellFormed (l : ChunkLayout) : Prop where
  /-- No storage type has two columns. -/
  nodup : (l.columns.map ColumnEntry.storageTypeId).Nodup
  /-- A column is found by its storage type. -/
  lookup_column : ∀ col∈l.columns,
    l.componentColDescriptors.lookup col.storageTypeId=some ⟨col.offset,col.stateOffset⟩
  /-- Nothing else is found. -/
  mem_keys : ∀ t,t∈l.componentColDescriptors ↔ t∈l.columns.map ColumnEntry.storageTypeId
  /-- There is room for a row. -/
  maxLen_pos : 0<l.maxLen

theorem wellFormed_of {specs : ComponentSpecs} {components : List ComponentDescriptor}
    {l : ChunkLayout} (h : l.Of specs components) : WellFormed l where
  nodup := by
    rw [h.columns_types]
    exact h.nodup
  lookup_column := h.lookup_column
  mem_keys := by
    intro t
    rw [h.columns_types]
    exact h.mem_keys t
  maxLen_pos := h.maxLen_pos

/-- A component of a well-formed layout has a column, with the descriptor the
lookup finds. -/
theorem WellFormed.column {l : ChunkLayout} (h : WellFormed l) {t : StorageType}
    {d : ColumnDescriptor} (hd : l.componentColDescriptors.lookup t=some d) :
    ∃ col∈l.columns,col.storageTypeId=t ∧ col.stateOffset=d.stateOffset := by
  have hk : t∈l.componentColDescriptors := by
    rw [←AList.lookup_isSome,hd]
    rfl
  obtain ⟨col,hc,rfl⟩ := List.mem_map.mp ((h.mem_keys t).mp hk)
  have := h.lookup_column col hc
  rw [hd] at this
  cases this
  exact ⟨col,hc,rfl,rfl⟩

section Cells

variable (c : Chunk V) (t : StorageType) (row : ℕ) (f : Cell V → Cell V)

@[simp] theorem len_modifyCell : (c.modifyCell t row f).len=c.len := rfl

@[simp] theorem maxLen_modifyCell : (c.modifyCell t row f).maxLen=c.maxLen := rfl

@[simp] theorem entities_modifyCell : (c.modifyCell t row f).entities=c.entities := rfl

@[simp] theorem len_dropCell : (c.dropCell t row).len=c.len := rfl

@[simp] theorem cells_dropCell : (c.dropCell t row).cells=c.cells := rfl

@[simp] theorem cells_setEntity (e : Entity) : (c.setEntity row e).cells=c.cells := rfl

/-- Rewriting a cell updates its own column at its row. -/
theorem cells_modifyCell :
    (c.modifyCell t row f).cells t=Function.update (c.cells t) row (f (c.cells t row)) := by
  funext r
  simp only [Chunk.modifyCell,true_and,Function.update_apply]
  split
  · rename_i h
    rw [h]
  · rfl

/-- Rewriting a cell leaves the other columns alone. -/
theorem cells_modifyCell_ne {t' : StorageType} (h : t'≠t) :
    (c.modifyCell t row f).cells t'=c.cells t' := by
  funext r
  simp only [Chunk.modifyCell,h,false_and,if_false]

end Cells

/-- The cell that results when value and states of `a` arrive at `b`. -/
def fillCell (src dst : StateOffset) (a b : Cell V) : Cell V :=
  { carryState src dst a b with value := a.value }

/-- Inside one layout a filled cell reads like the cell it was filled from. -/
@[simp] theorem readCell_fillCell (o : StateOffset) (a b : Cell V) :
    readCell o (fillCell o o a b)=readCell o a := by
  simp only [readCell,fillCell,carryState,Bool.and_self]
  cases o.enableOffset <;> cases o.addedOffset <;> cases o.changedOffset <;> rfl

/-- Value first, then states: the two copies together fill the cell. -/
theorem move_after_copy (c : Chunk V) (o : StateOffset) (t : StorageType) {fromRow toRow : ℕ}
    (h : fromRow≠toRow) :
    moveStateWithin (copyValueWithin c t fromRow toRow) o t fromRow toRow=
      c.modifyCell t toRow (fillCell o o (c.cells t fromRow)) := by
  have hfrom : (copyValueWithin c t fromRow toRow).cells t fromRow=c.cells t fromRow := by
    rw [copyValueWithin,cells_modifyCell,Function.update_of_ne h]
  rw [moveStateWithin,hfrom]
  unfold copyValueWithin Chunk.modifyCell
  congr 1
  funext t' r
  dsimp only
  split
  · rename_i h'
    rw [h'.1,h'.2]
    rfl
  · rfl

section SwapRemove

variable {layout : ChunkLayout} {c : Chunk V} {idx : ℕ}

theorem removeColumn_step {last : ℕ} (h : idx≠last) :
    ColumnStep Chunk.cells ColumnEntry.storageTypeId (removeColumn (V:=V) idx last)
      (fun col cells => Function.update cells idx
        (fillCell col.stateOffset col.stateOffset (cells last) (cells idx))) where
  own := by
    intro s a
    simp only [removeColumn,if_neg h]
    rw [move_after_copy _ _ _ (Ne.symm h),cells_modifyCell]
    rfl
  other := by
    intro s a t ht
    simp only [removeColumn,if_neg h]
    rw [move_after_copy _ _ _ (Ne.symm h),cells_modifyCell_ne _ _ _ _ ht]
    rfl

variable (idx) in
theorem removeColumn_last (s : Chunk V) (a : ColumnEntry) :
    (removeColumn idx idx s a).cells=s.cells := by
  simp only [removeColumn,if_true]
  rfl

end SwapRemove

/-- The last row has been moved into the hole at `idx`: handle, values and the
states the layout keeps. Nothing else differs, the length included. -/
structure HoleFilled (layout : ChunkLayout) (c c' : Chunk V) (idx : ℕ) : Prop where
  /-- The length stays. -/
  len : c'.len=c.len
  /-- The capacity stays. -/
  maxLen : c'.maxLen=c.maxLen
  /-- The hole gets the last handle, and no handle if it was last itself. -/
  entities : c'.entities=Function.update c.entities idx
    (if idx=c.len-1 then Entity.null else c.entities (c.len-1))
  /-- A hole before the end gets the values and states of the last row. -/
  filled : idx≠c.len-1 → ∀ t d,layout.componentColDescriptors.lookup t=some d →
    c'.cells t idx=fillCell d.stateOffset d.stateOffset (c.cells t (c.len-1)) (c.cells t idx)
  /-- Other rows stay. -/
  others : ∀ t r,r≠idx → c'.cells t r=c.cells t r

/-- On the table, filling the hole moves the last row there and shortens the
chunk by one row. -/
theorem HoleFilled.row {layout : ChunkLayout} {c c' : Chunk V} {idx : ℕ}
    (h : HoleFilled layout c c' idx) (hi : idx<c.len) :
    c'.decreaseLen.row layout=
      Function.update (Function.update (c.row layout) idx (c.row layout (c.len-1))) (c.len-1) none := by
  funext r
  have hlen : c'.decreaseLen.len=c.len-1 := by rw [Chunk.decreaseLen,h.len]
  have hlast : c.len-1<c.len := by omega
  rw [Function.update_apply,Function.update_apply,Chunk.row,hlen]
  by_cases hr : r=c.len-1
  · rw [if_pos hr,if_neg (by omega)]
  · rw [if_neg hr]
    by_cases hri : r=idx
    · subst hri
      rw [if_pos rfl,if_pos (by omega),Chunk.row,if_pos hlast]
      have he : c'.decreaseLen.entities r=c.entities (c.len-1) := by
        change c'.entities r=_
        rw [h.entities,Function.update_self,if_neg hr]
      have hd : c'.decreaseLen.rowData layout r=c.rowData layout (c.len-1) := by
        funext t
        simp only [Chunk.rowData]
        cases hl : layout.componentColDescriptors.lookup t with
        | none => rfl
        | some d =>
          change some (readCell d.stateOffset (c'.cells t r))=_
          rw [h.filled hr t d hl,readCell_fillCell]
          rfl
      rw [he,hd]
    · rw [if_neg hri,Chunk.row]
      have he : c'.decreaseLen.entities r=c.entities r := by
        change c'.entities r=_
        rw [h.entities,Function.update_of_ne hri]
      have hd : c'.decreaseLen.rowData layout r=c.rowData layout r := by
        funext t
        simp only [Chunk.rowData]
        change Option.map (fun d : ColumnDescriptor => readCell d.stateOffset (c'.cells t r)) _=_
        rw [h.others t r hri]
      rw [he,hd]
      by_cases hlt : r<c.len
      · rw [if_pos hlt,if_pos (by omega)]
      · rw [if_neg hlt,if_neg (by omega)]

/-- `swap_remove_at` on a row in use fills the hole and names the moved row. -/
theorem swapRemoveAt_spec {layout : ChunkLayout} {c : Chunk V} {idx : ℕ}
    (hw : WellFormed layout) (hi : idx<c.len) : ∃ c',
    swapRemoveAt layout idx c=(.ok (if idx=c.len-1 then none
      else some ⟨c.entities (c.len-1),c.len-1,idx⟩),c') ∧ HoleFilled layout c c' idx := by
  have hlen : (layout.columns.foldl (removeColumn idx (c.len-1)) c).len=c.len :=
    foldl_unchanged Chunk.len (fun s a => by unfold removeColumn; dsimp only; split <;> rfl) _ _
  have hmax : (layout.columns.foldl (removeColumn idx (c.len-1)) c).maxLen=c.maxLen :=
    foldl_unchanged Chunk.maxLen (fun s a => by unfold removeColumn; dsimp only; split <;> rfl) _ _
  have hent : (layout.columns.foldl (removeColumn idx (c.len-1)) c).entities=c.entities :=
    foldl_unchanged Chunk.entities (fun s a => by unfold removeColumn; dsimp only; split <;> rfl) _ _
  refine ⟨(layout.columns.foldl (removeColumn idx (c.len-1)) c).setEntity idx
    (if idx=c.len-1 then Entity.null else c.entities (c.len-1)),?_,?_⟩
  · unfold swapRemoveAt
    rw [if_neg (by omega)]
    dsimp only
    rw [hent]
    split
    · rfl
    · rename_i hne
      have he : ((layout.columns.foldl (removeColumn idx (c.len-1)) c).setEntity idx
          (c.entities (c.len-1))).entities (c.len-1)=c.entities (c.len-1) := by
        change Function.update _ idx _ (c.len-1)=_
        rw [Function.update_of_ne (Ne.symm hne),hent]
      rw [he]
  · refine ⟨hlen,hmax,?_,?_,?_⟩
    · change Function.update _ idx _=_
      rw [hent]
    · intro hne t d hd
      obtain ⟨col,hc,rfl,hs⟩ := hw.column hd
      rw [cells_setEntity,(removeColumn_step hne).foldl_mem hw.nodup hc,Function.update_self,hs]
    · intro t r hr
      rw [cells_setEntity]
      by_cases hne : idx=c.len-1
      · have := foldl_unchanged Chunk.cells (removeColumn_last idx) layout.columns c
        rw [←hne,this]
      · by_cases hm : t∈layout.columns.map ColumnEntry.storageTypeId
        · obtain ⟨col,hc,rfl⟩ := List.mem_map.mp hm
          rw [(removeColumn_step hne).foldl_mem hw.nodup hc,Function.update_of_ne hr]
        · rw [(removeColumn_step hne).foldl_notMem hm]

/-- A row of a chunk of another layout has arrived at `toRow`: its handle, and
value and states of each component both layouts have. Nothing else differs. -/
structure RowArrived (srcLayout dstLayout : ChunkLayout) (src : Chunk V) (fromRow : ℕ)
    (dst dst' : Chunk V) (toRow : ℕ) : Prop where
  /-- The length stays. -/
  len : dst'.len=dst.len
  /-- The capacity stays. -/
  maxLen : dst'.maxLen=dst.maxLen
  /-- The row gets the handle of the row it came from. -/
  entities : dst'.entities=Function.update dst.entities toRow (src.entities fromRow)
  /-- Each component both layouts have brings its value and its states. -/
  moved : ∀ t d d',srcLayout.componentColDescriptors.lookup t=some d →
    dstLayout.componentColDescriptors.lookup t=some d' →
    dst'.cells t toRow=fillCell d.stateOffset d'.stateOffset (src.cells t fromRow) (dst.cells t toRow)
  /-- Other rows stay. -/
  others : ∀ t r,r≠toRow → dst'.cells t r=dst.cells t r

/-- Value first, then the states across: together they fill the cell. -/
theorem move_across (src dst : Chunk V) (o o' : StateOffset) (t : StorageType) (fromRow toRow : ℕ) :
    copyStateAcross src o t fromRow (dst.modifyCell t toRow
      (fun cell => { cell with value := (src.cells t fromRow).value })) o' toRow=
    dst.modifyCell t toRow (fillCell o o' (src.cells t fromRow)) := by
  unfold copyStateAcross Chunk.modifyCell
  congr 1
  funext t' r
  dsimp only
  split
  · rfl
  · rfl

section TakeFrom

variable {srcLayout dstLayout : ChunkLayout} {dst src : Chunk V} {fromRow toRow : ℕ}

/-- What a migration does to one column on both sides. -/
def columnTaken (fromRow toRow last : ℕ) (mig : ComponentMigration)
    (cols : (ℕ → Cell V)×(ℕ → Cell V)) : (ℕ → Cell V)×(ℕ → Cell V) :=
  (match mig with
    | .move m _ dstState => Function.update cols.1 toRow
      (fillCell m.stateOffset dstState (cols.2 fromRow) (cols.1 toRow))
    | .abandon _ => cols.1,
  if fromRow=last then cols.2 else Function.update cols.2 fromRow
    (fillCell mig.src.stateOffset mig.src.stateOffset (cols.2 last) (cols.2 fromRow)))

variable (fromRow toRow) in
theorem takeColumn_step (last : ℕ) :
    ColumnStep (fun (s : Chunk V×Chunk V) t => (s.1.cells t,s.2.cells t))
      (fun mig => mig.src.storageTypeId) (takeColumn fromRow toRow last)
      (columnTaken fromRow toRow last) where
  own := by
    intro s mig
    have hsrc : (if fromRow=last then s.2 else backfillLastRow s.2 mig.src last fromRow).cells
        mig.src.storageTypeId=if fromRow=last then s.2.cells mig.src.storageTypeId
          else Function.update (s.2.cells mig.src.storageTypeId) fromRow
            (fillCell mig.src.stateOffset mig.src.stateOffset
              (s.2.cells mig.src.storageTypeId last) (s.2.cells mig.src.storageTypeId fromRow)) := by
      split
      · rfl
      · rename_i hne
        rw [backfillLastRow,move_after_copy _ _ _ (Ne.symm hne),cells_modifyCell]
    simp only [takeColumn,columnTaken,hsrc]
    cases mig with
    | move m offset state =>
      simp only [ComponentMigration.src]
      rw [move_across,cells_modifyCell]
    | abandon m => rfl
  other := by
    intro s mig t ht
    have hsrc : (if fromRow=last then s.2 else backfillLastRow s.2 mig.src last fromRow).cells
        t=s.2.cells t := by
      split
      · rfl
      · rename_i hne
        rw [backfillLastRow,move_after_copy _ _ _ (Ne.symm hne),cells_modifyCell_ne _ _ _ _ ht]
    simp only [takeColumn,hsrc]
    cases mig with
    | move m offset state =>
      dsimp only
      rw [move_across,cells_modifyCell_ne _ _ _ _ (by exact ht)]
    | abandon m => rfl

/-- A plan has one entry for each source column, in their order. -/
theorem MigrationPlan.new_types (srcLayout dstLayout : ChunkLayout) :
    (MigrationPlan.new srcLayout dstLayout).components.map (fun mig => mig.src.storageTypeId)=
      srcLayout.columns.map ColumnEntry.storageTypeId := by
  rw [MigrationPlan.new,List.map_map]
  apply List.map_congr_left
  intro col _
  dsimp only [Function.comp]
  split <;> rfl

/-- The entry of a source column: moved when the destination has it too. -/
theorem MigrationPlan.new_entry {t : StorageType} {d : ColumnDescriptor} (hs : WellFormed srcLayout)
    (hd : srcLayout.componentColDescriptors.lookup t=some d) :
    ∃ mig∈(MigrationPlan.new srcLayout dstLayout).components,mig.src.storageTypeId=t ∧
      mig.src.stateOffset=d.stateOffset ∧
      ∀ d',dstLayout.componentColDescriptors.lookup t=some d' →
        mig=.move mig.src d'.offset d'.stateOffset := by
  obtain ⟨col,hc,rfl,ho⟩ := hs.column hd
  refine ⟨_,List.mem_map_of_mem hc,?_,?_,?_⟩
  · dsimp only
    split <;> rfl
  · dsimp only
    split <;> exact ho
  · intro d' hd'
    simp only [hd']
    rfl

/-- `take_from` along the plan of two layouts delivers the row on one side and
fills the hole on the other. -/
theorem takeFrom_spec (hs : WellFormed srcLayout) :
    (takeFrom dst src fromRow toRow (MigrationPlan.new srcLayout dstLayout)).1=
      (if fromRow=src.len-1 then none
        else some ⟨src.entities (src.len-1),src.len-1,fromRow⟩) ∧
    RowArrived srcLayout dstLayout src fromRow dst
      (takeFrom dst src fromRow toRow (MigrationPlan.new srcLayout dstLayout)).2.1 toRow ∧
    HoleFilled srcLayout src
      (takeFrom dst src fromRow toRow (MigrationPlan.new srcLayout dstLayout)).2.2 fromRow := by
  let plan := MigrationPlan.new srcLayout dstLayout
  let out := plan.components.foldl (takeColumn fromRow toRow (src.len-1)) (dst,src)
  have hn : (plan.components.map (fun mig => mig.src.storageTypeId)).Nodup := by
    rw [MigrationPlan.new_types]
    exact hs.nodup
  have hkeep : (out.1.len,out.1.maxLen,out.1.entities,out.2.len,out.2.maxLen,out.2.entities)=
      (dst.len,dst.maxLen,dst.entities,src.len,src.maxLen,src.entities) := by
    refine foldl_unchanged (fun s : Chunk V×Chunk V =>
      (s.1.len,s.1.maxLen,s.1.entities,s.2.len,s.2.maxLen,s.2.entities)) ?_ _ _
    intro s mig
    cases mig <;> unfold takeColumn <;> dsimp only <;> split <;> rfl
  simp only [Prod.mk.injEq] at hkeep
  obtain ⟨h1,h2,h3,h4,h5,h6⟩ := hkeep
  have hcol : ∀ t d,srcLayout.componentColDescriptors.lookup t=some d →
      ∃ mig,mig.src.stateOffset=d.stateOffset ∧
        (∀ d',dstLayout.componentColDescriptors.lookup t=some d' →
          mig=.move mig.src d'.offset d'.stateOffset) ∧
        out.1.cells t=(columnTaken fromRow toRow (src.len-1) mig (dst.cells t,src.cells t)).1 ∧
        out.2.cells t=(columnTaken fromRow toRow (src.len-1) mig (dst.cells t,src.cells t)).2 := by
    intro t d hd
    obtain ⟨mig,hm,rfl,ho,hmove⟩ := MigrationPlan.new_entry hs hd
    have hf := (takeColumn_step fromRow toRow (src.len-1)).foldl_mem hn hm
      (dst,src)
    exact ⟨mig,ho,hmove,congrArg Prod.fst hf,congrArg Prod.snd hf⟩
  have hother : ∀ t,srcLayout.componentColDescriptors.lookup t=none →
      out.1.cells t=dst.cells t ∧ out.2.cells t=src.cells t := by
    intro t ht
    have hk : t∉plan.components.map (fun mig => mig.src.storageTypeId) := by
      rw [MigrationPlan.new_types,←hs.mem_keys,←AList.lookup_eq_none]
      exact ht
    have hf := (takeColumn_step fromRow toRow (src.len-1)).foldl_notMem hk
      (dst,src)
    exact ⟨congrArg Prod.fst hf,congrArg Prod.snd hf⟩
  have hsrc : ((takeFrom dst src fromRow toRow plan).2.2).entities=
      Function.update src.entities fromRow
        (if fromRow=src.len-1 then Entity.null else src.entities (src.len-1)) := by
    change Function.update out.2.entities fromRow (if fromRow=src.len-1 then Entity.null
      else out.2.entities (src.len-1))=_
    rw [h6]
  refine ⟨?_,RowArrived.mk h1 h2 ?_ ?_ ?_,HoleFilled.mk h4 h5 hsrc ?_ ?_⟩
  · change (if fromRow=src.len-1 then none
      else some (SwappedRow.mk ((takeFrom dst src fromRow toRow plan).2.2.entities fromRow)
        (src.len-1) fromRow))=_
    rw [hsrc,Function.update_self]
    split <;> rfl
  · change Function.update out.1.entities toRow (out.2.entities fromRow)=_
    rw [h3,h6]
  · intro t d d' hd hd'
    obtain ⟨mig,ho,hmove,hc,-⟩ := hcol t d hd
    rw [hmove d' hd'] at hc
    dsimp only [columnTaken] at hc
    change out.1.cells t toRow=_
    rw [hc,Function.update_self,ho]
  · intro t r hr
    change out.1.cells t r=_
    cases hd : srcLayout.componentColDescriptors.lookup t with
    | none => rw [(hother t hd).1]
    | some d =>
      obtain ⟨mig,ho,-,hc,-⟩ := hcol t d hd
      rw [hc]
      cases mig with
      | move m offset state => exact Function.update_of_ne hr _ _
      | abandon m => rfl
  · intro hne t d hd
    obtain ⟨mig,ho,-,-,hc⟩ := hcol t d hd
    dsimp only [columnTaken] at hc
    rw [if_neg hne] at hc
    change out.2.cells t fromRow=_
    rw [hc,Function.update_self,ho]
  · intro t r hr
    change out.2.cells t r=_
    cases hd : srcLayout.componentColDescriptors.lookup t with
    | none => rw [(hother t hd).2]
    | some d =>
      obtain ⟨mig,ho,-,-,hc⟩ := hcol t d hd
      rw [hc]
      dsimp only [columnTaken]
      split
      · rfl
      · exact Function.update_of_ne hr _ _

end TakeFrom

end XynokEcs.ChunkRows
