import XynokEcs.ByteMigration
import XynokEcs.WrittenCells

/-!
# The row operations on bytes

Each operation of a chunk finds its column through the layout and touches the bytes
there: it writes or drops a value in place, sets a bit or a tick, copies the last row
into a hole. On the table the bytes stand for it is the operation on tables. A chunk
that was just opened stands for the empty table up to values that were never written.
-/

namespace XynokEcs.ByteRows

open ComponentTypes EntityHandle SequenceValueMap ChunkLayouts FaultingState ChunkRows
  BlockPlacement LayoutPlacement LayoutRegions ByteMemory ChunkMemory ByteMigration PairedRuns WrittenCells

section Operations

/-- A chunk in bytes, and the bytes of the values dropped in place, in order. -/
structure ByteChunk where
  /-- The chunk itself. -/
  raw : RawChunk
  /-- The bytes of values that were dropped where they lay. -/
  dropped : List (StorageType×List UInt8)

/-- The same chunk with other bytes. -/
def ByteChunk.withMem (c : ByteChunk) (m : Memory) : ByteChunk := { c with raw := c.raw.withMem m }

/-- `Chunk::new`: the header is zeroed, the rest is what the allocator left there. -/
def ByteChunk.new (layout : ChunkLayout) (fresh : Memory) : ByteChunk :=
  ⟨⟨fill fresh 0 (List.replicate layout.header.size 0),0,layout.maxLen⟩,[]⟩

/-- `is_full`. -/
def ByteChunk.isFull (c : ByteChunk) : Bool := c.raw.len≥c.raw.maxLen

/-- `increase_len`. -/
def ByteChunk.increaseLen (c : ByteChunk) : ByteChunk := { c with raw := c.raw.increaseLen }

/-- `decrease_len`. -/
def ByteChunk.decreaseLen (c : ByteChunk) : ByteChunk := { c with raw := c.raw.decreaseLen }

/-- `fn_drop` on the bytes of a value. -/
def ByteChunk.dropSlot (c : ByteChunk) (t : StorageType) (slot : ℕ) : ByteChunk :=
  { c with dropped := c.dropped++[(t,span c.raw.mem slot t.byteSize)] }

/-- `get_entity_uncheck_mut`, written through. -/
def ByteChunk.setEntity (c : ByteChunk) (layout : ChunkLayout) (row : ℕ) (e : Entity) : ByteChunk :=
  c.withMem (writeEntity c.raw.mem layout.header.entitiesOffset row e)

/-- A checked write of one state of a row. -/
def setState (c : Component) (layout : ChunkLayout) (offset : StateOffset → Option ℕ) (name : String)
    (write : Memory → ℕ → Memory) : Faulting ByteChunk Fault Unit := do
  let colDes ← orErr (validateColumnPresent c layout)
  let start ← orErr (stateRegion c (offset colDes.stateOffset) name)
  modifyState (fun chunk => chunk.withMem (write chunk.raw.mem start))

/-- `set_enable_bit`. -/
def setEnableBit (c : Component) (layout : ChunkLayout) (row : ℕ) (value : Bool) :
    Faulting ByteChunk Fault Unit :=
  setState c layout StateOffset.enableOffset "enable" fun m start => writeBit m start row value

/-- `set_added_tick`. -/
def setAddedTick (c : Component) (layout : ChunkLayout) (row : ℕ) (tick : ChangedTick) :
    Faulting ByteChunk Fault Unit :=
  setState c layout StateOffset.addedOffset "added" fun m start => writeChangedTick m start row tick

/-- `set_changed_tick`. -/
def setChangedTick (c : Component) (layout : ChunkLayout) (row : ℕ) (tick : ChangedTick) :
    Faulting ByteChunk Fault Unit :=
  setState c layout StateOffset.changedOffset "changed" fun m start =>
    writeChangedTick m start row tick

/-- `write_at`: the value goes to its slot without a drop. -/
def writeAt (layout : ChunkLayout) (row : ℕ) (tick : ChangedTick) (c : Component)
    (value : List UInt8) : Faulting ByteChunk Fault Unit := do
  let colDes ← orErr (validateColumnPresent c layout)
  modifyState (fun chunk => chunk.withMem
    (fill chunk.raw.mem (colDes.offset+row*c.storageType.byteSize) value))
  onlyIf c.stateDetection.needsEnable (setEnableBit c layout row c.enableValue)
  onlyIf c.stateDetection.needsChange (do
    setAddedTick c layout row tick
    setChangedTick c layout row tick)

/-- `replace_at`: the value in the slot is dropped first. -/
def replaceAt (layout : ChunkLayout) (row : ℕ) (tick : ChangedTick) (c : Component)
    (value : List UInt8) : Faulting ByteChunk Fault Unit := do
  let colDes ← orErr (validateColumnPresent c layout)
  let slot := colDes.offset+row*c.storageType.byteSize
  modifyState (fun chunk => (chunk.dropSlot c.storageType slot).withMem
    (fill chunk.raw.mem slot value))
  onlyIf c.stateDetection.needsChange (setChangedTick c layout row tick)

/-- `write_or_replace_at`. -/
def writeOrReplaceAt (srcLayout dstLayout : ChunkLayout) (row : ℕ) (tick : ChangedTick)
    (c : Component) (value : List UInt8) : Faulting ByteChunk Fault Unit :=
  if c.storageType∈srcLayout.componentColDescriptors then replaceAt dstLayout row tick c value
  else writeAt dstLayout row tick c value

/-- `take_at`: the bytes of a value, read out of its slot. -/
def takeAt (layout : ChunkLayout) (row : ℕ) (c : Component) :
    Faulting ByteChunk Fault (List UInt8) := do
  let colDes ← orErr (validateColumnPresent c layout)
  let chunk ← getState
  return span chunk.raw.mem (colDes.offset+row*c.storageType.byteSize) c.storageType.byteSize

/-- The values of several components of one row, in order. -/
def takeItems (layout : ChunkLayout) (row : ℕ) :
    List Component → Faulting ByteChunk Fault (List (Component×List UInt8))
  | [] => return []
  | c::rest => do
    let v ← takeAt layout row c
    let vs ← takeItems layout row rest
    return (c,v)::vs

/-- `TArchetype::take_from`. -/
def takeBundle (layout : ChunkLayout) (row : ℕ) :
    TArchetype → Faulting ByteChunk Fault (Bundle (List UInt8))
  | .single c => do
    let v ← takeAt layout row c
    return .single c v
  | .tuple c cs => do
    let v ← takeAt layout row c
    let vs ← takeItems layout row cs
    return .tuple (c,v) vs

/-- One column of `swap_remove_at`. -/
def removeColumn (idx last : ℕ) (c : ByteChunk) (col : ColumnEntry) : ByteChunk :=
  let targetSlot := col.offset+idx*col.byteSize
  let c := c.dropSlot col.storageTypeId targetSlot
  if idx=last then c
  else
    let m := copyNonoverlapping c.raw.mem (col.offset+last*col.byteSize) c.raw.mem targetSlot
      col.byteSize
    c.withMem (moveStateWithin m col.stateOffset last idx)

/-- `swap_remove_at`. -/
def swapRemoveAt (layout : ChunkLayout) (idx : ℕ) : Faulting ByteChunk Fault (Option SwappedRow) :=
  fun c =>
    if idx≥c.raw.len then (.error (.err (.idxIsOutOfChunkLen idx c.raw.len)),c)
    else
      let last := c.raw.len-1
      let entities := layout.header.entitiesOffset
      let c := layout.columns.foldl (removeColumn idx last) c
      let newSrcE := if idx=last then Entity.null else readEntity c.raw.mem entities last
      let c := c.setEntity layout idx newSrcE
      (.ok (if idx=last then none else some ⟨readEntity c.raw.mem entities last,last,idx⟩),c)

/-- `take_from`. -/
def takeFrom (dst src : ByteChunk) (dstLayout srcLayout : ChunkLayout) (fromRow toRow : ℕ)
    (migration : MigrationPlan) : Option SwappedRow×ByteChunk×ByteChunk :=
  let taken := ByteMigration.takeFrom dst.raw src.raw dstLayout srcLayout fromRow toRow migration
  (taken.1,{ dst with raw := taken.2.1 },{ src with raw := taken.2.2 })

end Operations

section Tables

/-- The table a chunk stands for, with the values it dropped. -/
def view (l : ChunkLayout) (s : ByteChunk) : Chunk (List UInt8) :=
  { table l s.raw with dropped := s.dropped }

/-- The bytes stand for this table. -/
def Shows (l : ChunkLayout) (s : ByteChunk) (c : Chunk (List UInt8)) : Prop := view l s=c

variable {components components' : List ComponentDescriptor} {specs specs' : ComponentSpecs}
  {l sl : ChunkLayout} {s : ByteChunk} {m : Memory} {row idx last : ℕ} {t : StorageType}
  {d : ColumnDescriptor} {tick : ChangedTick} {c : Component} {v : List UInt8}

/-- Other bytes, when they stand for the table with one thing put into a row. -/
theorem view_put {r : Region} {x : Region.Content r}
    (h : table l (s.raw.withMem m)=put (table l s.raw) row r x) :
    view l (s.withMem m)=put (view l s) row r x := by
  change { table l (s.raw.withMem m) with dropped := s.dropped }=_
  rw [h]
  cases r <;> rfl

/-- A write to a region is a write to the table. -/
theorem view_write (h : LayoutRegions.WellFormed components l) {r : Region} {start : ℕ}
    (hstart : regionStart l r=some start) (hrow : row<l.maxLen) (x : Region.Content r) :
    view l (s.withMem (Region.write s.raw.mem start row r x))=put (view l s) row r x :=
  view_put (table_write h hstart hrow x)

/-- Writing a handle in bytes writes it in the table. -/
theorem view_setEntity (h : LayoutRegions.WellFormed components l) (hrow : row<l.maxLen)
    (e : Entity) : view l (s.setEntity l row e)=(view l s).setEntity row e :=
  view_write (r:=.entities) h rfl hrow e

/-- The handle of a row is read off its bytes. -/
theorem view_entity (hrow : row<l.maxLen) :
    (view l s).entities row=readEntity s.raw.mem l.header.entitiesOffset row := if_pos hrow

/-- The bytes in the slot of a row are the value of its cell. -/
theorem view_value (hd : l.componentColDescriptors.lookup t=some d) (hrow : row<l.maxLen) :
    ((view l s).cells t row).value=span s.raw.mem (d.offset+row*t.byteSize) t.byteSize := by
  change ((table l s.raw).cells t row).value=_
  rw [cells_table hrow]
  change (readRegion l s.raw.mem (.column t) row).elim [] Subtype.val=_
  rw [readRegion,regionStart_column hd]
  rfl

/-- Dropping the bytes of a value drops the value. -/
theorem view_dropSlot (hd : l.componentColDescriptors.lookup t=some d) (hrow : row<l.maxLen) :
    view l (s.dropSlot t (d.offset+row*t.byteSize))=(view l s).dropCell t row := by
  unfold Chunk.dropCell
  rw [view_value hd hrow]
  rfl

/-- Moving the last row into a hole, in one column. -/
theorem view_backfill (h : LayoutRegions.WellFormed components l)
    (hd : l.componentColDescriptors.lookup t=some d) (hlast : last<l.maxLen) (hidx : idx<l.maxLen) :
    view l (s.withMem (backfillLastRow s.raw.mem ⟨t,d.offset,t.byteSize,d.stateOffset⟩ last idx))=
      ChunkRows.backfillLastRow (view l s) ⟨t,d.offset,t.byteSize,d.stateOffset⟩ last idx := by
  change { table l (s.raw.withMem _) with dropped := s.dropped }=_
  rw [table_backfillLastRow h hd hlast hidx]
  rfl

/-- Removing a row from a column of bytes removes it from the table's. -/
theorem view_removeColumn (h : LayoutRegions.WellFormed components l) {col : ColumnEntry}
    (hd : l.componentColDescriptors.lookup col.storageTypeId=some ⟨col.offset,col.stateOffset⟩)
    (hsize : col.byteSize=col.storageTypeId.byteSize) (hlast : last<l.maxLen) (hidx : idx<l.maxLen) :
    view l (removeColumn idx last s col)=ChunkRows.removeColumn idx last (view l s) col := by
  unfold removeColumn ChunkRows.removeColumn
  rw [hsize]
  have hdrop := view_dropSlot (s:=s) hd hidx
  dsimp only at hdrop ⊢
  by_cases he : idx=last
  · rw [if_pos he,if_pos he]
    exact hdrop
  · rw [if_neg he,if_neg he,←hdrop]
    generalize s.dropSlot col.storageTypeId (col.offset+idx*col.storageTypeId.byteSize)=s'
    have hfill := view_backfill (s:=s') h hd hlast hidx
    unfold ByteMigration.backfillLastRow ChunkRows.backfillLastRow at hfill
    exact hfill

/-- So does removing it from all columns. -/
theorem view_removeColumns (h : LayoutRegions.WellFormed components l) {cols : List ColumnEntry}
    (hcols : ∀ col∈cols,l.componentColDescriptors.lookup col.storageTypeId=
      some ⟨col.offset,col.stateOffset⟩ ∧ col.byteSize=col.storageTypeId.byteSize)
    (hlast : last<l.maxLen) (hidx : idx<l.maxLen) (s : ByteChunk) :
    view l (cols.foldl (removeColumn idx last) s)=
      cols.foldl (ChunkRows.removeColumn idx last) (view l s) := by
  induction cols generalizing s with
  | nil => rfl
  | cons col cols ih =>
    rw [List.forall_mem_cons] at hcols
    rw [List.foldl_cons,List.foldl_cons,ih hcols.2,
      view_removeColumn h hcols.1.1 hcols.1.2 hlast hidx]

/-- `swap_remove_at` on bytes is `swap_remove_at` on the table. -/
theorem swapRemoveAt_shows (h : Built specs components l) (idx : ℕ) : Simulates
    (fun s c => Shows l s c ∧ c.len ≤ l.maxLen) (swapRemoveAt l idx) (ChunkRows.swapRemoveAt l idx)
      (fun _ => Shows l) (Shows l) := by
  intro s c hc
  obtain ⟨rfl,hlen⟩ := hc
  have hw := built_wellFormed h
  obtain ⟨n,size,hof,-,-⟩ := built_placed h
  have hsame : (view l s).len=s.raw.len := rfl
  unfold swapRemoveAt ChunkRows.swapRemoveAt
  rw [hsame] at hlen ⊢
  by_cases hge : idx≥s.raw.len
  · rw [if_pos hge,if_pos hge]
    exact .error rfl
  · rw [if_neg hge,if_neg hge]
    have hidx : idx<l.maxLen := by omega
    have hlast : s.raw.len-1<l.maxLen := by omega
    have hcols := view_removeColumns hw (fun col hcol =>
      ⟨hof.lookup_column col hcol,columns_byteSize h col hcol⟩) hlast hidx s
    dsimp only
    rw [←hcols,view_entity hlast,←view_setEntity hw hidx,←view_entity (l:=l) hlast]
    exact .ok rfl

/-- What was dropped before does not matter to a row that is taken. -/
theorem takeFrom_dropped {dst src : Chunk (List UInt8)} (x y : List (StorageType×List UInt8))
    (fromRow toRow : ℕ) (migration : MigrationPlan) :
    ChunkRows.takeFrom { dst with dropped := x } { src with dropped := y } fromRow toRow migration=
      ((ChunkRows.takeFrom dst src fromRow toRow migration).1,
        { (ChunkRows.takeFrom dst src fromRow toRow migration).2.1 with dropped := x },
        { (ChunkRows.takeFrom dst src fromRow toRow migration).2.2 with dropped := y }) := by
  have hcolumn : ∀ (p : Chunk (List UInt8)×Chunk (List UInt8)) mig,
      ChunkRows.takeColumn fromRow toRow (src.len-1)
        ({ p.1 with dropped := x },{ p.2 with dropped := y }) mig=
      ({ (ChunkRows.takeColumn fromRow toRow (src.len-1) p mig).1 with dropped := x },
        { (ChunkRows.takeColumn fromRow toRow (src.len-1) p mig).2 with dropped := y }) := by
    intro p mig
    unfold ChunkRows.takeColumn
    cases mig <;> by_cases he : fromRow=src.len-1 <;> simp only [he,if_true,if_false] <;> rfl
  have hcolumns : ∀ (migs : List ComponentMigration) (p : Chunk (List UInt8)×Chunk (List UInt8)),
      migs.foldl (ChunkRows.takeColumn fromRow toRow (src.len-1))
        ({ p.1 with dropped := x },{ p.2 with dropped := y })=
      ({ (migs.foldl (ChunkRows.takeColumn fromRow toRow (src.len-1)) p).1 with dropped := x },
        { (migs.foldl (ChunkRows.takeColumn fromRow toRow (src.len-1)) p).2 with dropped := y }) := by
    intro migs
    induction migs with
    | nil => exact fun _ => rfl
    | cons mig migs ih =>
      intro p
      rw [List.foldl_cons,List.foldl_cons,hcolumn,ih]
  have hall := hcolumns migration.components (dst,src)
  unfold ChunkRows.takeFrom
  dsimp only at hall ⊢
  rw [hall]
  rfl

/-- `take_from` on bytes is `take_from` on the tables. -/
theorem view_takeFrom (dst src : ByteChunk) {dl : ChunkLayout} {fromRow toRow : ℕ}
    (hs : Built specs components sl) (hd : Built specs' components' dl) (hfrom : fromRow<sl.maxLen)
    (hlast : src.raw.len-1<sl.maxLen) (hto : toRow<dl.maxLen) :
    ((takeFrom dst src dl sl fromRow toRow (MigrationPlan.new sl dl)).1,
      view dl (takeFrom dst src dl sl fromRow toRow (MigrationPlan.new sl dl)).2.1,
      view sl (takeFrom dst src dl sl fromRow toRow (MigrationPlan.new sl dl)).2.2)=
    ChunkRows.takeFrom (view dl dst) (view sl src) fromRow toRow (MigrationPlan.new sl dl) := by
  have hraw := table_takeFrom dst.raw src.raw hs hd hfrom hlast hto
  unfold view
  rw [takeFrom_dropped,←hraw]
  rfl

end Tables

section Writes

variable {components : List ComponentDescriptor} {l srcLayout : ChunkLayout} {row : ℕ}
  {tick : ChangedTick} {c : Component} {v : List UInt8}

/-- A computation on bytes that does on the table what the one on tables does. -/
abbrev Does {α : Type} (l : ChunkLayout) (x : Faulting ByteChunk Fault α)
    (y : Faulting (Chunk (List UInt8)) Fault α) : Prop :=
  Simulates (Shows l) x y (fun _ => Shows l) (Shows l)

/-- The lookup of a column, with the column it found. -/
theorem lookup_does : Simulates (Shows l) (orErr (validateColumnPresent c l))
    (orErr (validateColumnPresent c l)) (fun d s b => Shows l s b ∧
      l.componentColDescriptors.lookup c.storageType=some d) (Shows l) := by
  unfold validateColumnPresent
  cases hl : l.componentColDescriptors.lookup c.storageType with
  | none => exact fun s b h => SameExit.error h
  | some d => exact fun s b h => SameExit.ok ⟨h,rfl⟩

/-- The lookup of a state region, with the region it found. -/
theorem region_does {P : Prop} {offset : Option ℕ} {name : String} :
    Simulates (fun s b => Shows l s b ∧ P) (orErr (stateRegion c offset name))
      (orErr (stateRegion c offset name)) (fun o s b => Shows l s b ∧ P ∧ offset=some o)
        (Shows l) := by
  cases offset with
  | none => exact fun s b h => SameExit.error h.1
  | some o => exact fun s b h => SameExit.ok ⟨h.1,h.2,rfl⟩

/-- Setting a state in bytes sets it in the table. -/
theorem setState_does (h : LayoutRegions.WellFormed components l) (hrow : row<l.maxLen)
    {offset : StateOffset → Option ℕ} {name : String} {r : Region} (x : Region.Content r)
    {f : Cell (List UInt8) → Cell (List UInt8)}
    (hr : ∀ d,l.componentColDescriptors.lookup c.storageType=some d →
      regionStart l r=offset d.stateOffset)
    (hf : ∀ b : Chunk (List UInt8),put b row r x=b.modifyCell c.storageType row f) :
    Does l (setState c l offset name fun m start => Region.write m start row r x)
      (ChunkRows.setState c l row offset name f) := by
  refine lookup_does.bind fun d => region_does.bind fun o => simulates_modifyState fun s b hb => ?_
  obtain ⟨rfl,hd,ho⟩ := hb
  rw [←hf]
  exact view_write h ((hr d hd).trans ho) hrow x

/-- `set_enable_bit` does in bytes what it does in the table. -/
theorem setEnableBit_does (h : LayoutRegions.WellFormed components l) (hrow : row<l.maxLen)
    (value : Bool) : Does l (setEnableBit c l row value) (ChunkRows.setEnableBit c l row value) :=
  setState_does (r:=.enable c.storageType) h hrow value (fun _ => regionStart_enable) fun _ => rfl

/-- `set_added_tick` does in bytes what it does in the table. -/
theorem setAddedTick_does (h : LayoutRegions.WellFormed components l) (hrow : row<l.maxLen) :
    Does l (setAddedTick c l row tick) (ChunkRows.setAddedTick c l row tick) :=
  setState_does (r:=.added c.storageType) h hrow tick (fun _ => regionStart_added) fun _ => rfl

/-- `set_changed_tick` does in bytes what it does in the table. -/
theorem setChangedTick_does (h : LayoutRegions.WellFormed components l) (hrow : row<l.maxLen) :
    Does l (setChangedTick c l row tick) (ChunkRows.setChangedTick c l row tick) :=
  setState_does (r:=.changed c.storageType) h hrow tick (fun _ => regionStart_changed) fun _ => rfl

/-- Filling the slot of a row writes the value of its cell. -/
theorem view_fill (h : LayoutRegions.WellFormed components l) {d : ColumnDescriptor}
    (hd : l.componentColDescriptors.lookup c.storageType=some d) (hrow : row<l.maxLen)
    (hv : v.length=c.storageType.byteSize) (s : ByteChunk) :
    view l (s.withMem (fill s.raw.mem (d.offset+row*c.storageType.byteSize) v))=
      (view l s).modifyCell c.storageType row fun cell => { cell with value := v } :=
  view_write (r:=.column c.storageType) h (regionStart_column hd) hrow ⟨v,hv⟩

/-- `write_at` does in bytes what it does in the table. -/
theorem writeAt_does (h : LayoutRegions.WellFormed components l) (hrow : row<l.maxLen)
    (hv : v.length=c.storageType.byteSize) :
    Does l (writeAt l row tick c v) (ChunkRows.writeAt l row tick c v) := by
  refine lookup_does.bind fun d => Simulates.bind (Q:=fun _ => Shows l) ?_ fun _ =>
    Simulates.bind (Q:=fun _ => Shows l) ?_ fun _ => ?_
  · refine simulates_modifyState fun s b hb => ?_
    obtain ⟨rfl,hd⟩ := hb
    exact view_fill h hd hrow hv s
  · exact Simulates.onlyIf fun _ => setEnableBit_does h hrow _
  · exact Simulates.onlyIf fun _ =>
      (setAddedTick_does h hrow).bind fun _ => setChangedTick_does h hrow

/-- `replace_at` does in bytes what it does in the table. -/
theorem replaceAt_does (h : LayoutRegions.WellFormed components l) (hrow : row<l.maxLen)
    (hv : v.length=c.storageType.byteSize) :
    Does l (replaceAt l row tick c v) (ChunkRows.replaceAt l row tick c v) := by
  refine lookup_does.bind fun d => Simulates.bind (Q:=fun _ => Shows l) ?_ fun _ => ?_
  · refine simulates_modifyState fun s b hb => ?_
    obtain ⟨rfl,hd⟩ := hb
    rw [←view_dropSlot hd hrow]
    exact view_fill h hd hrow hv (s.dropSlot c.storageType _)
  · exact Simulates.onlyIf fun _ => setChangedTick_does h hrow

/-- `write_or_replace_at` does in bytes what it does in the table. -/
theorem writeOrReplaceAt_does (h : LayoutRegions.WellFormed components l) (hrow : row<l.maxLen)
    (hv : v.length=c.storageType.byteSize) :
    Does l (writeOrReplaceAt srcLayout l row tick c v)
      (ChunkRows.writeOrReplaceAt srcLayout l row tick c v) := by
  unfold writeOrReplaceAt ChunkRows.writeOrReplaceAt
  split
  · exact replaceAt_does h hrow hv
  · exact writeAt_does h hrow hv

/-- A bundle is written component by component on both sides. -/
theorem forItems_does {f : Component → List UInt8 → Faulting ByteChunk Fault Unit}
    {g : Component → List UInt8 → Faulting (Chunk (List UInt8)) Fault Unit}
    {items : List (Component×List UInt8)} (h : ∀ p∈items,Does l (f p.1 p.2) (g p.1 p.2)) :
    Does l (forItems f items) (forItems g items) := by
  induction items with
  | nil => exact simulates_pure (Q:=fun _ => Shows l) ()
  | cons p rest ih =>
    rw [List.forall_mem_cons] at h
    exact h.1.bind fun _ => ih h.2

/-- `take_at` does in bytes what it does in the table. -/
theorem takeAt_does (hrow : row<l.maxLen) : Does l (takeAt l row c) (ChunkRows.takeAt l row c) := by
  refine lookup_does.bind fun d => simulates_getState fun s b hb => ?_
  obtain ⟨rfl,hd⟩ := hb
  rw [view_value hd hrow]
  exact .ok rfl

/-- The values of some components are taken alike on both sides. -/
theorem takeItems_does (hrow : row<l.maxLen) {cs : List Component} :
    Does l (takeItems l row cs) (ChunkRows.takeItems l row cs) := by
  induction cs with
  | nil => exact simulates_pure (Q:=fun _ => Shows l) []
  | cons c cs ih =>
    exact (takeAt_does hrow).bind fun v => ih.bind fun vs => simulates_pure (Q:=fun _ => Shows l) _

/-- The values of a tuple are taken alike on both sides. -/
theorem takeBundle_does (hrow : row<l.maxLen) {T : TArchetype} :
    Does l (takeBundle l row T) (ChunkRows.takeBundle l row T) := by
  cases T with
  | single c => exact (takeAt_does hrow).bind fun v => simulates_pure (Q:=fun _ => Shows l) _
  | tuple c cs =>
    exact (takeAt_does hrow).bind fun v => (takeItems_does hrow).bind fun vs =>
      simulates_pure (Q:=fun _ => Shows l) _

end Writes

section Reading

variable {l : ChunkLayout} {w w' : Written}

/-- The bytes stand for this table, up to values that were not written. -/
def Reads (w : Written) (l : ChunkLayout) (s : ByteChunk) (c : Chunk (List UInt8)) : Prop :=
  Agree w (view l s) c

/-- What the bytes do on their own table, and that table as one that agrees with it, the
bytes do as the table. -/
theorem Does.reads {α : Type} {x : Faulting ByteChunk Fault α}
    {y : Faulting (Chunk (List UInt8)) Fault α} (h : Does l x y) (hy : Agrees w w' y) :
    Simulates (Reads w l) x y (fun _ => Reads w' l) (Reads w l) := by
  intro s c hc
  refine ((h s (view l s) rfl).trans (hy (view l s) c hc)).mono ?_ ?_
  · intro a s' c' hs
    obtain ⟨b,rfl,hb⟩ := hs
    exact hb
  · intro s' c' hs
    obtain ⟨b,rfl,hb⟩ := hs
    exact hb

end Reading

section Opening

variable {components : List ComponentDescriptor} {specs : ComponentSpecs} {l : ChunkLayout} {m : Memory}

/-- The states and the handles of all rows lie in the header. -/
theorem header_covers (h : Built specs components l) {r : Region} {x : ℕ}
    (hx : regionStart l r=some x) (hr : ∀ t,r≠.column t) :
    x+Region.bytes l.maxLen r ≤ l.header.size := by
  obtain ⟨n,size,hof,hp,-⟩ := built_placed h
  have hmem : r∈headerRegions components := by
    have hin := (regionStart_isSome hof hp r).mp (by rw [hx]; rfl)
    obtain hin | hin := List.mem_append.mp hin
    · exact hin
    · obtain ⟨des,-,rfl⟩ := List.mem_map.mp hin
      exact absurd rfl (hr _)
  have hstarts : (headerRegions components).map (regionStart l)=
      (offsets 0 (blocksOf n (headerRegions components))).map some := by
    have hall := regions_starts hof hp
    rw [regionsOf,blocksOf_append,offsets_append,List.map_append,List.map_append] at hall
    refine (List.append_inj hall ?_).1
    rw [List.length_map,List.length_map,length_offsets,blocksOf,List.length_map]
  have hplaced := mem_placed hstarts hmem hx
  have hinside := placed_inside (c:=0) (blocksOf_pos n (headerRegions components)) (x,r.block n)
  rw [zip_regions] at hinside
  obtain ⟨-,-,hle⟩ := hinside (List.mem_map.mpr ⟨(x,r),hplaced,rfl⟩)
  rw [hp.header,(header_placed n components).2,hp.maxLen,bytes_eq]
  exact hle

/-- Bytes that are zero read as zero. -/
theorem span_zero {start size : ℕ} (h : ∀ a,start ≤ a → a < start+size → m a=0) :
    ofBytes (span m start size)=0 := by
  have hspan : span m start size=span (fun _ => 0) start size := span_congr fun a h1 h2 => h a h1 h2
  have hzero : ∀ is : List ℕ,ofBytes (is.map fun _ => (0 : UInt8))=0 := by
    intro is
    induction is with
    | nil => rfl
    | cons i is ih => rw [List.map_cons,ofBytes,ih]; rfl
  rw [hspan]
  exact hzero _

/-- A chunk that was just opened stands for the empty table, up to its values. -/
theorem view_new (h : Built specs components l) (fresh : Memory) :
    Agree (fun _ _ => False) (view l (ByteChunk.new l fresh)) (Chunk.new l) := by
  have hzero : ∀ {r start row},regionStart l r=some start → (∀ t,r≠.column t) → row<l.maxLen →
      Region.read (fill fresh 0 (List.replicate l.header.size 0)) start row r=
        Region.read (fun _ => 0) start row r := by
    intro r start row hstart hr hrow
    refine Region.read_congr hrow r fun a _ ha => ?_
    have hcover := header_covers h hstart hr
    have hin : 0 ≤ a ∧ a < 0+(List.replicate l.header.size (0 : UInt8)).length := by
      rw [List.length_replicate]
      omega
    rw [fill,if_pos hin,List.getD_eq_getElem?_getD,List.getElem?_replicate]
    split <;> rfl
  have htick : ∀ start row,readChangedTick (fun _ => 0) start row=0 := by
    intro start row
    rw [readChangedTick,span_zero fun _ _ _ => rfl]
    rfl
  have hbit : ∀ start row,readBit (fun _ => 0) start row=false := by
    intro start row
    have hi : row%bitsPerByte<8 := Nat.mod_lt _ (by decide)
    rw [readBit,bitOf_eq _ hi]
    exact Nat.zero_testBit _
  refine ⟨rfl,rfl,?_,rfl,fun t r => ?_⟩
  · funext row
    change (if row<l.maxLen then _ else _)=Entity.null
    split
    · rename_i hrow
      have hread := hzero (r:=.entities) rfl (by intro t ht; cases ht) hrow
      refine hread.trans ?_
      change readEntity (fun _ => 0) _ row=_
      rw [readEntity,span_zero fun _ _ _ => rfl]
      rfl
    · rfl
  · change CellsAgree False (if r<l.maxLen then _ else _) _
    split
    · rename_i hrow
      refine ⟨False.elim,?_,?_,?_⟩
      · change (readRegion l _ (.enable t) r).getD false=false
        rw [readRegion]
        cases hs : regionStart l (.enable t) with
        | none => rfl
        | some start => exact (hzero hs (by intro t' ht; cases ht) hrow).trans (hbit start r)
      · change (readRegion l _ (.added t) r).getD 0=0
        rw [readRegion]
        cases hs : regionStart l (.added t) with
        | none => rfl
        | some start => exact (hzero hs (by intro t' ht; cases ht) hrow).trans (htick start r)
      · change (readRegion l _ (.changed t) r).getD 0=0
        rw [readRegion]
        cases hs : regionStart l (.changed t) with
        | none => rfl
        | some start => exact (hzero hs (by intro t' ht; cases ht) hrow).trans (htick start r)
    · exact ⟨False.elim,rfl,rfl,rfl⟩

end Opening

end XynokEcs.ByteRows
