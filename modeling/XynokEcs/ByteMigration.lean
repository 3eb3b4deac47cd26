import XynokEcs.ChunkMemory

/-!
# Moving a row between chunks, byte by byte

`take_from` copies values, bits and ticks between the bytes of two chunks while it
fills the hole it leaves. Read back through the two layouts, every write of it is
the write to a cell that the operation on tables makes, so the operation on bytes
is the one on tables.
-/

namespace XynokEcs.ByteMigration

open ComponentTypes EntityHandle SequenceValueMap ChunkLayouts ChunkRows LayoutPlacement
  LayoutRegions ByteMemory ChunkMemory

section Bytes

/-- A chunk as it is allocated. -/
structure RawChunk where
  /-- The bytes behind `ptr`. -/
  mem : Memory
  /-- How many rows are in use. -/
  len : ℕ
  /-- How many rows there is room for. -/
  maxLen : ℕ

/-- The same chunk with other bytes. -/
def RawChunk.withMem (c : RawChunk) (m : Memory) : RawChunk := { c with mem := m }

/-- The bytes are those that were given. -/
@[simp] theorem mem_withMem (c : RawChunk) (m : Memory) : (c.withMem m).mem=m := rfl

/-- `copy_nonoverlapping`. -/
def copyNonoverlapping (src : Memory) (srcOffset : ℕ) (dst : Memory) (dstOffset size : ℕ) : Memory :=
  fill dst dstOffset (span src srcOffset size)

/-- Copy an enable bit, where both sides keep a region for it. -/
def copyBit (src : Memory) (srcOffset : Option ℕ) (srcRow : ℕ) (dst : Memory) (dstOffset : Option ℕ)
    (dstRow : ℕ) : Memory :=
  match srcOffset,dstOffset with
  | some srcOffset,some dstOffset => writeBit dst dstOffset dstRow (readBit src srcOffset srcRow)
  | _,_ => dst

/-- Copy a tick, where both sides keep a region for it. -/
def copyTick (src : Memory) (srcOffset : Option ℕ) (srcRow : ℕ) (dst : Memory) (dstOffset : Option ℕ)
    (dstRow : ℕ) : Memory :=
  match srcOffset,dstOffset with
  | some srcOffset,some dstOffset =>
    writeChangedTick dst dstOffset dstRow (readChangedTick src srcOffset srcRow)
  | _,_ => dst

/-- `copy_state_across`: only the states both layouts track are copied. -/
def copyStateAcross (src : Memory) (srcState : StateOffset) (srcRow : ℕ) (dst : Memory)
    (dstState : StateOffset) (dstRow : ℕ) : Memory :=
  let dst := copyBit src srcState.enableOffset srcRow dst dstState.enableOffset dstRow
  let dst := copyTick src srcState.addedOffset srcRow dst dstState.addedOffset dstRow
  copyTick src srcState.changedOffset srcRow dst dstState.changedOffset dstRow

/-- `move_state_within`: every state of a row to another row of the same regions. -/
def moveStateWithin (m : Memory) (state : StateOffset) (fromRow toRow : ℕ) : Memory :=
  let m := copyBit m state.enableOffset fromRow m state.enableOffset toRow
  let m := copyTick m state.addedOffset fromRow m state.addedOffset toRow
  copyTick m state.changedOffset fromRow m state.changedOffset toRow

/-- `backfill_last_row`. -/
def backfillLastRow (m : Memory) (src : ColumnInSrc) (last toRow : ℕ) : Memory :=
  let m := copyNonoverlapping m (src.offset+last*src.byteSize) m (src.offset+toRow*src.byteSize)
    src.byteSize
  moveStateWithin m src.stateOffset last toRow

/-- One column of `take_from`, on the bytes of the destination and the source. -/
def takeColumn (fromRow toRow last : ℕ) (mems : Memory×Memory) (mig : ComponentMigration) :
    Memory×Memory :=
  let dst := match mig with
    | .move src dstOffset dstStateOffset =>
      let dst := copyNonoverlapping mems.2 (src.offset+fromRow*src.byteSize) mems.1
        (dstOffset+toRow*src.byteSize) src.byteSize
      copyStateAcross mems.2 src.stateOffset fromRow dst dstStateOffset toRow
    | .abandon _ => mems.1
  (dst,if fromRow=last then mems.2 else backfillLastRow mems.2 mig.src last fromRow)

/-- The handles, moved after the columns: the source row gets the handle of the last row,
or none when it was the last row itself. -/
def takeHandles (dst src : RawChunk) (dstLayout srcLayout : ChunkLayout) (fromRow toRow : ℕ) :
    Option SwappedRow×RawChunk×RawChunk :=
  let last := src.len-1
  let srcEntities := srcLayout.header.entitiesOffset
  let movedE := readEntity src.mem srcEntities fromRow
  let newSrcE := if fromRow=last then Entity.null else readEntity src.mem srcEntities last
  let dstMem := writeEntity dst.mem dstLayout.header.entitiesOffset toRow movedE
  let srcMem := writeEntity src.mem srcEntities fromRow newSrcE
  (if fromRow=last then none else some ⟨readEntity srcMem srcEntities fromRow,last,fromRow⟩,
    dst.withMem dstMem,src.withMem srcMem)

/-- `Chunk::take_from`. -/
def takeFrom (dst src : RawChunk) (dstLayout srcLayout : ChunkLayout) (fromRow toRow : ℕ)
    (migration : MigrationPlan) : Option SwappedRow×RawChunk×RawChunk :=
  let mems := migration.components.foldl (takeColumn fromRow toRow (src.len-1)) (dst.mem,src.mem)
  takeHandles (dst.withMem mems.1) (src.withMem mems.2) dstLayout srcLayout fromRow toRow

/-- `increase_len`. -/
def RawChunk.increaseLen (c : RawChunk) : RawChunk := { c with len := c.len+1 }

/-- `decrease_len`. -/
def RawChunk.decreaseLen (c : RawChunk) : RawChunk := { c with len := c.len-1 }

end Bytes

section Tables

/-- What a row of a region holds, for a layout that has the region. -/
def readRegion (l : ChunkLayout) (m : Memory) (r : Region) (row : ℕ) : Option (Region.Content r) :=
  (regionStart l r).map fun start => Region.read m start row r

/-- The cell of a component in a row, its value as bytes. -/
def readCellBytes (l : ChunkLayout) (m : Memory) (t : StorageType) (row : ℕ) : Cell (List UInt8) where
  value := (readRegion l m (.column t) row).elim [] Subtype.val
  enable := (readRegion l m (.enable t) row).getD false
  added := (readRegion l m (.added t) row).getD 0
  changed := (readRegion l m (.changed t) row).getD 0

/-- The table the bytes of a chunk stand for. Behind the last row a chunk has room
for there is nothing to read. -/
def table (l : ChunkLayout) (c : RawChunk) : Chunk (List UInt8) where
  len := c.len
  maxLen := c.maxLen
  entities := fun row => if row<l.maxLen then (readRegion l c.mem .entities row).getD .null else .null
  cells := fun t row => if row<l.maxLen then readCellBytes l c.mem t row else ⟨[],false,0,0⟩
  dropped := []

/-- Put one thing into a row of a table. -/
def put (c : Chunk (List UInt8)) (row : ℕ) : (r : Region) → Region.Content r → Chunk (List UInt8)
  | .enable t,value => c.modifyCell t row fun cell => { cell with enable := value }
  | .added t,tick => c.modifyCell t row fun cell => { cell with added := tick }
  | .changed t,tick => c.modifyCell t row fun cell => { cell with changed := tick }
  | .entities,e => c.setEntity row e
  | .column t,v => c.modifyCell t row fun cell => { cell with value := v.1 }

variable {components : List ComponentDescriptor} {l : ChunkLayout} {c : RawChunk} {m : Memory}
  {r : Region} {start row : ℕ}

/-- A part of a row reads back as it was written. -/
theorem readRegion_write (h : LayoutRegions.WellFormed components l) (hstart : regionStart l r=some start)
    (hrow : row<l.maxLen) (x : Region.Content r) :
    readRegion l (Region.write m start row r x) r row=some x := by
  rw [readRegion,hstart,Option.map_some,(ChunkMemory.WellFormed.changesOneRow h m r start row x hstart hrow).1]

/-- Other parts and other rows stay. -/
theorem readRegion_write_ne (h : LayoutRegions.WellFormed components l)
    (hstart : regionStart l r=some start) (hrow : row<l.maxLen) (x : Region.Content r)
    {r' : Region} {row' : ℕ} (hrow' : row'<l.maxLen) (hne : (r',row')≠(r,row)) :
    readRegion l (Region.write m start row r x) r' row'=readRegion l m r' row' := by
  unfold readRegion
  cases hstart' : regionStart l r' with
  | none => rfl
  | some start' =>
    rw [Option.map_some,Option.map_some,
      (ChunkMemory.WellFormed.changesOneRow h m r start row x hstart hrow).2.1 r' start' row' hstart' hrow' hne]

/-- The component whose row a region keeps something of. -/
def Region.owner : Region → Option StorageType
  | .enable t | .added t | .changed t | .column t => some t
  | .entities => none

/-- Bytes that differ in one cell only stand for the table with that cell rewritten. -/
theorem table_modify {t : StorageType} {f : Cell (List UInt8) → Cell (List UInt8)}
    (hrow : row<l.maxLen) (hentities : ∀ row',row'<l.maxLen →
      readRegion l m .entities row'=readRegion l c.mem .entities row')
    (hcell : readCellBytes l m t row=f (readCellBytes l c.mem t row))
    (hother : ∀ t' row',row'<l.maxLen → ¬(t'=t ∧ row'=row) →
      readCellBytes l m t' row'=readCellBytes l c.mem t' row') :
    table l (c.withMem m)=(table l c).modifyCell t row f := by
  have he : (table l (c.withMem m)).entities=(table l c).entities := by
    funext row'
    unfold table
    by_cases hrow' : row'<l.maxLen
    · simp only [mem_withMem,hrow',if_true,hentities row' hrow']
    · simp only [hrow',if_false]
  have hc : (table l (c.withMem m)).cells=((table l c).modifyCell t row f).cells := by
    funext t' row'
    change (if row'<l.maxLen then readCellBytes l m t' row' else _)=
      if t'=t ∧ row'=row then f (if row'<l.maxLen then readCellBytes l c.mem t' row' else _)
        else if row'<l.maxLen then readCellBytes l c.mem t' row' else _
    by_cases hthis : t'=t ∧ row'=row
    · obtain ⟨rfl,rfl⟩ := hthis
      rw [if_pos hrow,if_pos ⟨rfl,rfl⟩,if_pos hrow,hcell]
    · rw [if_neg hthis]
      by_cases hrow' : row'<l.maxLen
      · rw [if_pos hrow',if_pos hrow',hother t' row' hrow' hthis]
      · rw [if_neg hrow',if_neg hrow']
  change Chunk.mk _ _ (table l (c.withMem m)).entities (table l (c.withMem m)).cells _=_
  rw [he,hc]
  rfl

/-- A write to the bytes is a write to the table. -/
theorem table_write (h : LayoutRegions.WellFormed components l) (hstart : regionStart l r=some start)
    (hrow : row<l.maxLen) (x : Region.Content r) :
    table l (c.withMem (Region.write c.mem start row r x))=put (table l c) row r x := by
  have hown := readRegion_write (m:=c.mem) h hstart hrow x
  have hkeep : ∀ r' row',row'<l.maxLen → (r',row')≠(r,row) →
      readRegion l (Region.write c.mem start row r x) r' row'=readRegion l c.mem r' row' :=
    fun r' row' => readRegion_write_ne h hstart hrow x
  generalize Region.write c.mem start row r x=m at hown hkeep
  have hother : ∀ t row',row'<l.maxLen → ¬(some t=Region.owner r ∧ row'=row) →
      readCellBytes l m t row'=readCellBytes l c.mem t row' := by
    intro t row' hrow' hne
    have hreg : ∀ r',Region.owner r'=some t → readRegion l m r' row'=readRegion l c.mem r' row' := by
      intro r' howner
      refine hkeep r' row' hrow' fun he => hne ?_
      cases he
      exact ⟨howner.symm,rfl⟩
    unfold readCellBytes
    rw [hreg (.column t) rfl,hreg (.enable t) rfl,hreg (.added t) rfl,hreg (.changed t) rfl]
  have hmodify : ∀ t f,Region.owner r=some t →
      readCellBytes l m t row=f (readCellBytes l c.mem t row) →
        table l (c.withMem m)=(table l c).modifyCell t row f := by
    intro t f howner hcell
    refine table_modify hrow (fun row' hrow' => hkeep .entities row' hrow' ?_) hcell ?_
    · intro he
      rw [←(Prod.mk.inj he).1] at howner
      cases howner
    · intro t' row' hrow' hne
      refine hother t' row' hrow' fun he => hne ⟨?_,he.2⟩
      rw [howner] at he
      exact Option.some.inj he.1
  cases r with
  | entities =>
    have he : (table l (c.withMem m)).entities=((table l c).setEntity row x).entities := by
      funext row'
      change (if row'<l.maxLen then (readRegion l m .entities row').getD .null else .null)=
        Function.update (table l c).entities row x row'
      rw [Function.update_apply]
      by_cases hthis : row'=row
      · subst hthis
        rw [if_pos hrow,if_pos rfl,hown]
        rfl
      · rw [if_neg hthis]
        by_cases hrow' : row'<l.maxLen
        · rw [if_pos hrow',hkeep _ _ hrow' fun he => hthis (Prod.mk.inj he).2]
          exact (if_pos hrow').symm
        · rw [if_neg hrow']
          exact (if_neg hrow').symm
    have hc : (table l (c.withMem m)).cells=(table l c).cells := by
      funext t row'
      change (if row'<l.maxLen then readCellBytes l m t row' else _)=
        if row'<l.maxLen then readCellBytes l c.mem t row' else _
      by_cases hrow' : row'<l.maxLen
      · rw [if_pos hrow',if_pos hrow',hother t row' hrow' fun he => Option.some_ne_none t he.1]
      · rw [if_neg hrow',if_neg hrow']
    change Chunk.mk _ _ (table l (c.withMem m)).entities (table l (c.withMem m)).cells _=_
    rw [he,hc]
    rfl
  | column t =>
    rw [put]
    refine hmodify t _ rfl ?_
    unfold readCellBytes
    rw [hown,hkeep (.enable t) row hrow (by simp),hkeep (.added t) row hrow (by simp),
      hkeep (.changed t) row hrow (by simp)]
    rfl
  | enable t =>
    rw [put]
    refine hmodify t _ rfl ?_
    unfold readCellBytes
    rw [hown,hkeep (.column t) row hrow (by simp),hkeep (.added t) row hrow (by simp),
      hkeep (.changed t) row hrow (by simp)]
    rfl
  | added t =>
    rw [put]
    refine hmodify t _ rfl ?_
    unfold readCellBytes
    rw [hown,hkeep (.column t) row hrow (by simp),hkeep (.enable t) row hrow (by simp),
      hkeep (.changed t) row hrow (by simp)]
    rfl
  | changed t =>
    rw [put]
    refine hmodify t _ rfl ?_
    unfold readCellBytes
    rw [hown,hkeep (.column t) row hrow (by simp),hkeep (.enable t) row hrow (by simp),
      hkeep (.added t) row hrow (by simp)]
    rfl

end Tables

section Carrying

variable {components : List ComponentDescriptor} {l sl : ChunkLayout} {c : RawChunk} {m sm : Memory}
  {t : StorageType} {d sd : ColumnDescriptor} {fromRow toRow row : ℕ}

/-- The enable bits start where the column says. -/
theorem regionStart_enable (hd : l.componentColDescriptors.lookup t=some d) :
    regionStart l (.enable t)=d.stateOffset.enableOffset := by
  rw [regionStart,hd,Option.bind_some]

/-- The ticks of insertion start where the column says. -/
theorem regionStart_added (hd : l.componentColDescriptors.lookup t=some d) :
    regionStart l (.added t)=d.stateOffset.addedOffset := by
  rw [regionStart,hd,Option.bind_some]

/-- The ticks of change start where the column says. -/
theorem regionStart_changed (hd : l.componentColDescriptors.lookup t=some d) :
    regionStart l (.changed t)=d.stateOffset.changedOffset := by
  rw [regionStart,hd,Option.bind_some]

/-- The values start where the column says. -/
theorem regionStart_column (hd : l.componentColDescriptors.lookup t=some d) :
    regionStart l (.column t)=some d.offset := by
  rw [regionStart,hd,Option.map_some]

/-- Two rewrites of one cell are one. -/
theorem modifyCell_modifyCell (c : Chunk (List UInt8)) (t : StorageType) (row : ℕ)
    (f g : Cell (List UInt8) → Cell (List UInt8)) :
    (c.modifyCell t row f).modifyCell t row g=c.modifyCell t row fun cell => g (f cell) := by
  unfold Chunk.modifyCell
  congr 1
  funext t' r
  by_cases h : t'=t ∧ r=row
  · simp only [h,and_self,if_true]
  · simp only [h,if_false]

/-- A cell that is replaced by itself stays. -/
theorem modifyCell_self (c : Chunk (List UInt8)) (t : StorageType) (row : ℕ) :
    c.modifyCell t row (fun cell => cell)=c := by
  unfold Chunk.modifyCell
  simp only [ite_self]

/-- A cell within the capacity is read off its bytes. -/
theorem cells_table (hrow : row<l.maxLen) :
    (table l c).cells t row=readCellBytes l c.mem t row := if_pos hrow

/-- Copying the bytes of a value writes the value of a cell. -/
theorem table_value (h : LayoutRegions.WellFormed components l)
    (hd : l.componentColDescriptors.lookup t=some d) (hrow : toRow<l.maxLen) (v : ValueBytes t) :
    table l (c.withMem (fill c.mem (d.offset+toRow*t.byteSize) v.1))=
      (table l c).modifyCell t toRow fun cell => { cell with value := v.1 } :=
  table_write h (regionStart_column hd) hrow v

/-- Copying the enable bit that both layouts track. -/
theorem table_enable (h : LayoutRegions.WellFormed components l)
    (hd : l.componentColDescriptors.lookup t=some d)
    (hsd : sl.componentColDescriptors.lookup t=some sd) (hrow : toRow<l.maxLen) (sm : Memory)
    (fromRow : ℕ) :
    table l (c.withMem (copyBit sm sd.stateOffset.enableOffset fromRow c.mem
        d.stateOffset.enableOffset toRow))=
      (table l c).modifyCell t toRow fun cell => { cell with
        enable := if sd.stateOffset.enableOffset.isSome && d.stateOffset.enableOffset.isSome
          then (readCellBytes sl sm t fromRow).enable else cell.enable } := by
  cases hs : sd.stateOffset.enableOffset with
  | none => exact (modifyCell_self _ _ _).symm
  | some x => cases hx : d.stateOffset.enableOffset with
    | none => exact (modifyCell_self _ _ _).symm
    | some y =>
      have hread : (readCellBytes sl sm t fromRow).enable=readBit sm x fromRow := by
        change (readRegion sl sm (.enable t) fromRow).getD false=_
        rw [readRegion,regionStart_enable hsd,hs]
        rfl
      rw [hread]
      exact table_write h ((regionStart_enable hd).trans hx) hrow _

/-- Copying the added tick that both layouts track. -/
theorem table_added (h : LayoutRegions.WellFormed components l)
    (hd : l.componentColDescriptors.lookup t=some d)
    (hsd : sl.componentColDescriptors.lookup t=some sd) (hrow : toRow<l.maxLen) (sm : Memory)
    (fromRow : ℕ) :
    table l (c.withMem (copyTick sm sd.stateOffset.addedOffset fromRow c.mem
        d.stateOffset.addedOffset toRow))=
      (table l c).modifyCell t toRow fun cell => { cell with
        added := if sd.stateOffset.addedOffset.isSome && d.stateOffset.addedOffset.isSome
          then (readCellBytes sl sm t fromRow).added else cell.added } := by
  cases hs : sd.stateOffset.addedOffset with
  | none => exact (modifyCell_self _ _ _).symm
  | some x => cases hx : d.stateOffset.addedOffset with
    | none => exact (modifyCell_self _ _ _).symm
    | some y =>
      have hread : (readCellBytes sl sm t fromRow).added=readChangedTick sm x fromRow := by
        change (readRegion sl sm (.added t) fromRow).getD 0=_
        rw [readRegion,regionStart_added hsd,hs]
        rfl
      rw [hread]
      exact table_write h ((regionStart_added hd).trans hx) hrow _

/-- Copying the changed tick that both layouts track. -/
theorem table_changed (h : LayoutRegions.WellFormed components l)
    (hd : l.componentColDescriptors.lookup t=some d)
    (hsd : sl.componentColDescriptors.lookup t=some sd) (hrow : toRow<l.maxLen) (sm : Memory)
    (fromRow : ℕ) :
    table l (c.withMem (copyTick sm sd.stateOffset.changedOffset fromRow c.mem
        d.stateOffset.changedOffset toRow))=
      (table l c).modifyCell t toRow fun cell => { cell with
        changed := if sd.stateOffset.changedOffset.isSome && d.stateOffset.changedOffset.isSome
          then (readCellBytes sl sm t fromRow).changed else cell.changed } := by
  cases hs : sd.stateOffset.changedOffset with
  | none => exact (modifyCell_self _ _ _).symm
  | some x => cases hx : d.stateOffset.changedOffset with
    | none => exact (modifyCell_self _ _ _).symm
    | some y =>
      have hread : (readCellBytes sl sm t fromRow).changed=readChangedTick sm x fromRow := by
        change (readRegion sl sm (.changed t) fromRow).getD 0=_
        rw [readRegion,regionStart_changed hsd,hs]
        rfl
      rw [hread]
      exact table_write h ((regionStart_changed hd).trans hx) hrow _

/-- `copy_state_across` carries the states of a cell. -/
theorem table_copyStateAcross (h : LayoutRegions.WellFormed components l)
    (hd : l.componentColDescriptors.lookup t=some d)
    (hsd : sl.componentColDescriptors.lookup t=some sd) (hrow : toRow<l.maxLen) (sm : Memory)
    (fromRow : ℕ) :
    table l (c.withMem (copyStateAcross sm sd.stateOffset fromRow c.mem d.stateOffset toRow))=
      (table l c).modifyCell t toRow
        (carryState sd.stateOffset d.stateOffset (readCellBytes sl sm t fromRow)) := by
  let bits := c.withMem (copyBit sm sd.stateOffset.enableOffset fromRow c.mem
    d.stateOffset.enableOffset toRow)
  let added := bits.withMem (copyTick sm sd.stateOffset.addedOffset fromRow bits.mem
    d.stateOffset.addedOffset toRow)
  have henable := table_enable (c:=c) h hd hsd hrow sm fromRow
  have hadded := table_added (c:=bits) h hd hsd hrow sm fromRow
  have hchanged := table_changed (c:=added) h hd hsd hrow sm fromRow
  refine hchanged.trans ?_
  rw [hadded,henable,modifyCell_modifyCell,modifyCell_modifyCell]
  rfl

/-- A row moved inside one layout carries its states too. -/
theorem table_moveStateWithin (h : LayoutRegions.WellFormed components l)
    (hd : l.componentColDescriptors.lookup t=some d) (hfrom : fromRow<l.maxLen)
    (hrow : toRow<l.maxLen) :
    table l (c.withMem (moveStateWithin c.mem d.stateOffset fromRow toRow))=
      ChunkRows.moveStateWithin (table l c) d.stateOffset t fromRow toRow := by
  let o := d.stateOffset
  let bits := c.withMem (copyBit c.mem o.enableOffset fromRow c.mem o.enableOffset toRow)
  let added := bits.withMem (copyTick bits.mem o.addedOffset fromRow bits.mem o.addedOffset toRow)
  have henable : table l bits=_ := table_enable (c:=c) h hd hd hrow c.mem fromRow
  have hadded : table l added=_ := table_added (c:=bits) h hd hd hrow bits.mem fromRow
  have hchanged := table_changed (c:=added) h hd hd hrow added.mem fromRow
  have hbits : (readCellBytes l bits.mem t fromRow).added=(readCellBytes l c.mem t fromRow).added ∧
      (readCellBytes l bits.mem t fromRow).changed=(readCellBytes l c.mem t fromRow).changed := by
    rw [←cells_table hfrom,←cells_table hfrom]
    rw [henable]
    unfold Chunk.modifyCell
    dsimp only
    split <;> exact ⟨rfl,rfl⟩
  have hticks : (readCellBytes l added.mem t fromRow).changed=
      (readCellBytes l c.mem t fromRow).changed := by
    rw [←hbits.2,←cells_table hfrom,←cells_table hfrom]
    rw [hadded]
    unfold Chunk.modifyCell
    dsimp only
    split <;> rfl
  refine hchanged.trans ?_
  rw [hadded,henable,modifyCell_modifyCell,modifyCell_modifyCell,hticks,hbits.1]
  rw [ChunkRows.moveStateWithin,cells_table hfrom]
  rfl

/-- `backfill_last_row` moves a cell. -/
theorem table_backfillLastRow (h : LayoutRegions.WellFormed components l)
    (hd : l.componentColDescriptors.lookup t=some d) (hfrom : fromRow<l.maxLen)
    (hrow : toRow<l.maxLen) :
    table l (c.withMem (backfillLastRow c.mem ⟨t,d.offset,t.byteSize,d.stateOffset⟩ fromRow toRow))=
      ChunkRows.backfillLastRow (table l c) ⟨t,d.offset,t.byteSize,d.stateOffset⟩ fromRow toRow := by
  let moved := c.withMem (copyNonoverlapping c.mem (d.offset+fromRow*t.byteSize) c.mem
    (d.offset+toRow*t.byteSize) t.byteSize)
  have hvalue : table l moved=_ := table_value (c:=c) h hd hrow (readValue c.mem t d.offset fromRow)
  have hcell : (readValue c.mem t d.offset fromRow).1=((table l c).cells t fromRow).value := by
    rw [cells_table hfrom]
    change _=(readRegion l c.mem (.column t) fromRow).elim [] Subtype.val
    rw [readRegion,regionStart_column hd]
    rfl
  rw [hcell] at hvalue
  unfold backfillLastRow ChunkRows.backfillLastRow
  refine (table_moveStateWithin (c:=moved) h hd hfrom hrow).trans ?_
  rw [hvalue,copyValueWithin]

end Carrying

section Migrating

variable {components components' : List ComponentDescriptor} {specs specs' : ComponentSpecs}
  {sl dl : ChunkLayout} {src dst : RawChunk} {mems : Memory×Memory} {mig : ComponentMigration}
  {fromRow toRow last : ℕ}

/-- A migration between the columns of two layouts. -/
structure Planned (sl dl : ChunkLayout) (mig : ComponentMigration) : Prop where
  /-- The source position is the column of the source layout. -/
  src : ∃ d,sl.componentColDescriptors.lookup mig.src.storageTypeId=some d ∧
    mig.src=⟨mig.src.storageTypeId,d.offset,mig.src.storageTypeId.byteSize,d.stateOffset⟩
  /-- A destination position is the column of the destination layout. -/
  dst : ∀ c offset state,mig=.move c offset state →
    dl.componentColDescriptors.lookup mig.src.storageTypeId=some ⟨offset,state⟩

/-- The columns of a layout have the sizes of their types. -/
theorem columns_byteSize (h : Built specs components sl) :
    ∀ col∈sl.columns,col.byteSize=col.storageTypeId.byteSize := by
  have hcols : ∀ n c components os,∀ col∈columnsFrom n c components os,
      col.byteSize=col.storageTypeId.byteSize := by
    intro n c components
    induction components generalizing c with
    | nil => exact fun os col hcol => absurd hcol List.not_mem_nil
    | cons des rest ih =>
      intro os col hcol
      cases os with
      | nil => exact absurd hcol List.not_mem_nil
      | cons o os =>
        obtain rfl | hcol := List.mem_cons.mp hcol
        · rfl
        · exact ih _ os col hcol
  obtain ⟨n,size,-,hp,-⟩ := built_placed h
  rw [hp.columns]
  exact hcols n _ components _

/-- The plan of two layouts is made of such migrations. -/
theorem plan_planned (h : Built specs components sl) (dl : ChunkLayout) :
    ∀ mig∈(MigrationPlan.new sl dl).components,Planned sl dl mig := by
  intro mig hmig
  obtain ⟨n,size,hof,-,-⟩ := built_placed h
  obtain ⟨col,hcol,rfl⟩ := List.mem_map.mp hmig
  have hsize := columns_byteSize h col hcol
  have hlook := hof.lookup_column col hcol
  have hsrc : (⟨col.storageTypeId,col.offset,col.byteSize,col.stateOffset⟩ : ColumnInSrc)=
      ⟨col.storageTypeId,col.offset,col.storageTypeId.byteSize,col.stateOffset⟩ := by rw [hsize]
  dsimp only
  split
  · rename_i d hd
    refine ⟨⟨_,hlook,hsrc⟩,fun c offset state he => ?_⟩
    cases he
    exact hd
  · refine ⟨⟨_,hlook,hsrc⟩,fun c offset state he => ?_⟩
    cases he

/-- One column of the migration on bytes is one column of it on tables. -/
theorem table_takeColumn (hs : LayoutRegions.WellFormed components sl)
    (hd : LayoutRegions.WellFormed components' dl) (hfrom : fromRow<sl.maxLen)
    (hlast : last<sl.maxLen) (hto : toRow<dl.maxLen) (hplan : Planned sl dl mig) :
    (table dl (dst.withMem (takeColumn fromRow toRow last mems mig).1),
      table sl (src.withMem (takeColumn fromRow toRow last mems mig).2))=
    ChunkRows.takeColumn fromRow toRow last
      (table dl (dst.withMem mems.1),table sl (src.withMem mems.2)) mig := by
  obtain ⟨⟨d,hlook,hsrc⟩,hdst⟩ := hplan
  generalize ht : mig.src.storageTypeId=t at hlook hsrc
  have hhole : table sl (src.withMem (takeColumn fromRow toRow last mems mig).2)=
      if fromRow=last then table sl (src.withMem mems.2)
        else ChunkRows.backfillLastRow (table sl (src.withMem mems.2)) mig.src last fromRow := by
    unfold takeColumn
    by_cases he : fromRow=last
    · rw [if_pos he,if_pos he]
    · rw [if_neg he,if_neg he,hsrc]
      exact table_backfillLastRow (c:=src.withMem mems.2) hs hlook hlast hfrom
  have harrive : table dl (dst.withMem (takeColumn fromRow toRow last mems mig).1)=
      (ChunkRows.takeColumn fromRow toRow last
        (table dl (dst.withMem mems.1),table sl (src.withMem mems.2)) mig).1 := by
    cases mig with
    | abandon c => rfl
    | move c offset state =>
      have hlookd := hdst c offset state rfl
      rw [ht] at hlookd
      have hc : c=⟨t,d.offset,t.byteSize,d.stateOffset⟩ := hsrc
      subst hc
      let moved := (dst.withMem mems.1).withMem (copyNonoverlapping mems.2
        (d.offset+fromRow*t.byteSize) mems.1 (offset+toRow*t.byteSize) t.byteSize)
      have hvalue : table dl moved=_ := table_value (c:=dst.withMem mems.1) hd hlookd hto
        (readValue mems.2 t d.offset fromRow)
      have hcell : (readValue mems.2 t d.offset fromRow).1=
          ((table sl (src.withMem mems.2)).cells t fromRow).value := by
        rw [cells_table hfrom]
        change _=(readRegion sl mems.2 (.column t) fromRow).elim [] Subtype.val
        rw [readRegion,regionStart_column hlook]
        rfl
      have hstate := table_copyStateAcross (c:=moved) hd hlookd hlook hto mems.2 fromRow
      rw [hcell] at hvalue
      rw [hvalue] at hstate
      refine hstate.trans ?_
      dsimp only [ChunkRows.takeColumn,ChunkRows.copyStateAcross]
      rw [cells_table hfrom]
      rfl
  rw [hhole,harrive]
  unfold ChunkRows.takeColumn
  rfl

/-- The loop over the columns on bytes is the loop on tables. -/
theorem table_takeColumns (dst src : RawChunk) (mems : Memory×Memory) (hs : LayoutRegions.WellFormed components sl)
    (hd : LayoutRegions.WellFormed components' dl) (hfrom : fromRow<sl.maxLen)
    (hlast : last<sl.maxLen) (hto : toRow<dl.maxLen) {migs : List ComponentMigration}
    (hplan : ∀ mig∈migs,Planned sl dl mig) :
    (table dl (dst.withMem (migs.foldl (takeColumn fromRow toRow last) mems).1),
      table sl (src.withMem (migs.foldl (takeColumn fromRow toRow last) mems).2))=
    migs.foldl (ChunkRows.takeColumn fromRow toRow last)
      (table dl (dst.withMem mems.1),table sl (src.withMem mems.2)) := by
  induction migs generalizing mems with
  | nil => rfl
  | cons mig migs ih =>
    rw [List.foldl_cons,List.foldl_cons,ih _ fun m hm => hplan m (List.mem_cons_of_mem _ hm),
      table_takeColumn hs hd hfrom hlast hto (hplan mig List.mem_cons_self)]

/-- The handles of a table, moved as `take_from` moves them. -/
def tableHandles (last : ℕ) (chunks : Chunk (List UInt8)×Chunk (List UInt8)) (fromRow toRow : ℕ) :
    Option SwappedRow×Chunk (List UInt8)×Chunk (List UInt8) :=
  let newSrcE := if fromRow=last then Entity.null else chunks.2.entities last
  let src := chunks.2.setEntity fromRow newSrcE
  (if fromRow=last then none else some ⟨src.entities fromRow,last,fromRow⟩,
    chunks.1.setEntity toRow (chunks.2.entities fromRow),src)

/-- Moving the handles in the bytes moves them in the tables. -/
theorem table_takeHandles (dst src : RawChunk) (hs : LayoutRegions.WellFormed components sl)
    (hd : LayoutRegions.WellFormed components' dl) (hfrom : fromRow<sl.maxLen)
    (hlast : src.len-1<sl.maxLen) (hto : toRow<dl.maxLen) :
    ((takeHandles dst src dl sl fromRow toRow).1,
      table dl (takeHandles dst src dl sl fromRow toRow).2.1,
      table sl (takeHandles dst src dl sl fromRow toRow).2.2)=
    tableHandles (src.len-1) (table dl dst,table sl src) fromRow toRow := by
  have hentity : ∀ {row},row<sl.maxLen → (table sl src).entities row=
      readEntity src.mem sl.header.entitiesOffset row := fun hrow => if_pos hrow
  have hdst : ∀ e,table dl (dst.withMem (writeEntity dst.mem dl.header.entitiesOffset toRow e))=
      (table dl dst).setEntity toRow e := table_write (r:=.entities) hd rfl hto
  have hsrc : ∀ e,table sl (src.withMem (writeEntity src.mem sl.header.entitiesOffset fromRow e))=
      (table sl src).setEntity fromRow e := table_write (r:=.entities) hs rfl hfrom
  have hback : ∀ e,readEntity (writeEntity src.mem sl.header.entitiesOffset fromRow e)
      sl.header.entitiesOffset fromRow=((table sl src).setEntity fromRow e).entities fromRow := by
    intro e
    rw [readEntity_writeEntity,if_pos rfl]
    exact (Function.update_self fromRow e (table sl src).entities).symm
  unfold takeHandles tableHandles
  dsimp only
  rw [hdst,hsrc,hback,hentity hfrom,hentity hlast]

/-- `take_from` on bytes is `take_from` on tables. -/
theorem table_takeFrom (dst src : RawChunk) (hs : Built specs components sl) (hd : Built specs' components' dl)
    (hfrom : fromRow<sl.maxLen) (hlast : src.len-1<sl.maxLen) (hto : toRow<dl.maxLen) :
    ((takeFrom dst src dl sl fromRow toRow (MigrationPlan.new sl dl)).1,
      table dl (takeFrom dst src dl sl fromRow toRow (MigrationPlan.new sl dl)).2.1,
      table sl (takeFrom dst src dl sl fromRow toRow (MigrationPlan.new sl dl)).2.2)=
    ChunkRows.takeFrom (table dl dst) (table sl src) fromRow toRow (MigrationPlan.new sl dl) := by
  have hws := built_wellFormed hs
  have hwd := built_wellFormed hd
  have hcols := table_takeColumns dst src (dst.mem,src.mem) hws hwd hfrom hlast hto
    (plan_planned hs dl)
  generalize hmems : (MigrationPlan.new sl dl).components.foldl
    (takeColumn fromRow toRow (src.len-1)) (dst.mem,src.mem)=mems at hcols
  have hhandles := table_takeHandles (dst.withMem mems.1) (src.withMem mems.2) hws hwd hfrom hlast
    hto
  unfold takeFrom
  rw [hmems,hhandles,hcols]
  rfl

end Migrating

section Rows

variable {components components' : List ComponentDescriptor} {specs specs' : ComponentSpecs}
  {sl dl : ChunkLayout} {fromRow : ℕ} {V : Type}

/-- What one layout carried over from another: the value, and every state both keep. -/
structure Carried (a b : ComponentData V) : Prop where
  /-- The value is carried over. -/
  value : b.value=a.value
  /-- The enable bit is carried over if both layouts keep one. -/
  enabled : a.enabled.isSome=true → b.enabled.isSome=true → b.enabled=a.enabled
  /-- The added tick is carried over if both layouts keep one. -/
  added : a.added.isSome=true → b.added.isSome=true → b.added=a.added
  /-- The changed tick is carried over if both layouts keep one. -/
  changed : a.changed.isSome=true → b.changed.isSome=true → b.changed=a.changed

/-- A filled cell carries what both layouts keep. -/
theorem carried_fillCell (o o' : StateOffset) (a b : Cell V) :
    Carried (readCell o a) (readCell o' (fillCell o o' a b)) := by
  refine ⟨rfl,?_,?_,?_⟩
  · cases h : o.enableOffset <;> cases h' : o'.enableOffset <;>
      simp [readCell,fillCell,carryState,h,h']
  · cases h : o.addedOffset <;> cases h' : o'.addedOffset <;>
      simp [readCell,fillCell,carryState,h,h']
  · cases h : o.changedOffset <;> cases h' : o'.changedOffset <;>
      simp [readCell,fillCell,carryState,h,h']

/-- Where both keep the same states, all was carried over. -/
theorem Carried.eq {a b : ComponentData V} (h : Carried a b)
    (he : a.enabled.isSome=b.enabled.isSome) (ha : a.added.isSome=b.added.isSome)
    (hc : a.changed.isSome=b.changed.isSome) : b=a := by
  have hfield : ∀ {α : Type} {x y : Option α},(x.isSome=true → y.isSome=true → y=x) →
      x.isSome=y.isSome → y=x := by
    intro α x y hxy hsome
    cases x with
    | none => exact Option.isNone_iff_eq_none.mp (by rw [←Option.not_isSome,←hsome]; rfl)
    | some x => exact hxy rfl hsome.symm
  obtain ⟨av,ae,aa,ac⟩ := a
  obtain ⟨bv,be,ba,bc⟩ := b
  obtain ⟨hv,h1,h2,h3⟩ := h
  cases hv
  cases hfield h1 he
  cases hfield h2 ha
  cases hfield h3 hc
  rfl

/-- On the table, a row that arrived behind the last one is one row more. -/
theorem RowArrived.row {src dst dst' : Chunk V} (h : RowArrived sl dl src fromRow dst dst' dst.len) :
    dst'.increaseLen.row dl=Function.update (dst.row dl) dst.len
      (some (src.entities fromRow,dst'.rowData dl dst.len)) := by
  funext r
  have hlen : dst'.increaseLen.len=dst.len+1 := by rw [Chunk.increaseLen,h.len]
  rw [Function.update_apply,Chunk.row,hlen]
  by_cases hr : r=dst.len
  · subst hr
    have he : dst'.increaseLen.entities dst.len=src.entities fromRow := by
      change dst'.entities dst.len=_
      rw [h.entities,Function.update_self]
    rw [if_pos rfl,if_pos (Nat.lt_succ_self _),he]
    rfl
  · have he : dst'.increaseLen.entities r=dst.entities r := by
      change dst'.entities r=_
      rw [h.entities,Function.update_of_ne hr]
    have hd : dst'.increaseLen.rowData dl r=dst.rowData dl r := by
      funext t
      change Option.map (fun d : ColumnDescriptor => readCell d.stateOffset (dst'.cells t r)) _=_
      rw [h.others t r hr]
      rfl
    rw [if_neg hr,Chunk.row,he,hd]
    by_cases hlt : r<dst.len
    · rw [if_pos hlt,if_pos (by omega)]
    · rw [if_neg hlt,if_neg (by omega)]

/-- A chunk allocated for a layout, with no more rows than it has room for. -/
structure AllocatedFor (l : ChunkLayout) (c : RawChunk) : Prop where
  /-- The capacity is that of the layout. -/
  maxLen : c.maxLen=l.maxLen
  /-- The rows in use fit the capacity. -/
  len : c.len ≤ c.maxLen

/-- A row of one chunk was moved behind the rows of another. `dst'` and `src'` are the
chunks after both lengths were updated. -/
structure Migrated (components components' : List ComponentDescriptor) (sl dl : ChunkLayout)
    (src dst src' dst' : Chunk V) (fromRow : ℕ) (swapped : Option SwappedRow) : Prop where
  /-- One row more, with the moved handle and what both sides have of it. -/
  arrived : ∃ e moved data,src.row sl fromRow=some (e,moved) ∧
    dst'.row dl=Function.update (dst.row dl) dst.len (some (e,data)) ∧
    (∀ t,(data t).isSome=true ↔ t∈dl.componentColDescriptors) ∧
    (∀ t a b,moved t=some a → data t=some b → Carried a b) ∧
    ∀ des∈components,des∈components' → data des.storageTypeId=moved des.storageTypeId
  /-- The last row fills the hole. -/
  filled : src'.row sl=Function.update (Function.update (src.row sl) fromRow
    (src.row sl (src.len-1))) (src.len-1) none
  /-- The handle that changed its row is named. -/
  named : if fromRow=src.len-1 then swapped=none
    else ∃ e data,src'.row sl fromRow=some (e,data) ∧ swapped=some ⟨e,src.len-1,fromRow⟩

/-- What a row holds of a component, for a layout that has it. -/
theorem rowData_some {l : ChunkLayout} {c : Chunk V} {row : ℕ} {t : StorageType} {d : ColumnDescriptor}
    (hd : l.componentColDescriptors.lookup t=some d) :
    c.rowData l row t=some (readCell d.stateOffset (c.cells t row)) := by
  rw [Chunk.rowData,hd,Option.map_some]

/-- A component of a layout has a column with its own state regions. -/
theorem component_lookup {l : ChunkLayout} (h : l.Of specs components) {des : ComponentDescriptor}
    (hdes : des∈components) : ∃ d,l.componentColDescriptors.lookup des.storageTypeId=some d ∧
      d.stateOffset.Matches des.stateDetection := by
  have hmem := (h.mem_keys des.storageTypeId).mpr (List.mem_map.mpr ⟨des,hdes,rfl⟩)
  obtain ⟨d,hd⟩ := Option.isSome_iff_exists.mp (AList.lookup_isSome.mpr hmem)
  exact ⟨d,hd,h.state_matches des hdes d hd⟩

/-- There is an enable bit to read where the layout keeps one. -/
theorem enabled_isSome (o : StateOffset) (c : Cell V) :
    (readCell o c).enabled.isSome=o.enableOffset.isSome := by
  rw [readCell]
  cases o.enableOffset <;> rfl

/-- There is a tick of insertion where it keeps one. -/
theorem added_isSome (o : StateOffset) (c : Cell V) :
    (readCell o c).added.isSome=o.addedOffset.isSome := by
  rw [readCell]
  cases o.addedOffset <;> rfl

/-- There is a tick of change where it keeps one. -/
theorem changed_isSome (o : StateOffset) (c : Cell V) :
    (readCell o c).changed.isSome=o.changedOffset.isSome := by
  rw [readCell]
  cases o.changedOffset <;> rfl

/-- Moving a row between the bytes of two chunks moves it between the tables they
stand for. -/
theorem takeFrom_migrates {src dst : RawChunk} (hs : Built specs components sl)
    (hd : Built specs' components' dl) (hsrc : AllocatedFor sl src) (hdst : AllocatedFor dl dst)
    (hfrom : fromRow<src.len) (hroom : dst.len<dst.maxLen) :
    Migrated components components' sl dl (table sl src) (table dl dst)
      (table sl (takeFrom dst src dl sl fromRow dst.len (MigrationPlan.new sl dl)).2.2.decreaseLen)
      (table dl (takeFrom dst src dl sl fromRow dst.len (MigrationPlan.new sl dl)).2.1.increaseLen)
      fromRow (takeFrom dst src dl sl fromRow dst.len (MigrationPlan.new sl dl)).1 := by
  have hlen := hsrc.len
  have hmax := hsrc.maxLen
  obtain ⟨n,size,hofs,-,-⟩ := built_placed hs
  obtain ⟨n',size',hofd,-,-⟩ := built_placed hd
  have hfrom' : fromRow<sl.maxLen := by omega
  have hrefines := table_takeFrom dst src hs hd hfrom' (by omega) (hroom.trans_eq hdst.maxLen)
  generalize takeFrom dst src dl sl fromRow dst.len (MigrationPlan.new sl dl)=out at hrefines
  have hspec : _ ∧ RowArrived sl dl (table sl src) fromRow (table dl dst) _ dst.len ∧
    HoleFilled sl (table sl src) _ fromRow := takeFrom_spec (wellFormed_of hofs)
  rw [←hrefines] at hspec
  obtain ⟨hswapped,harrived,hfilled⟩ := hspec
  have harrived : RowArrived sl dl (table sl src) fromRow (table dl dst) (table dl out.2.1)
    (table dl dst).len := harrived
  have hrow : (table sl src).row sl fromRow=
      some ((table sl src).entities fromRow,(table sl src).rowData sl fromRow) := if_pos hfrom
  have hhole := hfilled.row hfrom
  refine ⟨⟨_,_,_,hrow,RowArrived.row harrived,?_,?_,?_⟩,hhole,?_⟩
  · intro t
    rw [Chunk.rowData,Option.isSome_map,AList.lookup_isSome]
  · intro t a b ha hb
    obtain ⟨d,hlook,rfl⟩ := Option.map_eq_some_iff.mp ha
    obtain ⟨d',hlook',rfl⟩ := Option.map_eq_some_iff.mp hb
    rw [harrived.moved t d d' hlook hlook']
    exact carried_fillCell _ _ _ _
  · intro des hdes hdes'
    obtain ⟨d,hlook,hm⟩ := component_lookup hofs hdes
    obtain ⟨d',hlook',hm'⟩ := component_lookup hofd hdes'
    rw [rowData_some hlook,rowData_some hlook',harrived.moved _ d d' hlook hlook']
    refine congrArg some (Carried.eq (carried_fillCell _ _ _ _) ?_ ?_ ?_)
    · rw [enabled_isSome,enabled_isSome,hm.enable,hm'.enable]
    · rw [added_isSome,added_isSome,hm.added,hm'.added]
    · rw [changed_isSome,changed_isSome,hm.changed,hm'.changed]
  · by_cases he : fromRow=(table sl src).len-1
    · rw [if_pos he] at hswapped ⊢
      exact hswapped
    · have hlast : src.len-1<src.len := by omega
      rw [if_neg he] at hswapped ⊢
      refine ⟨_,(table sl src).rowData sl (src.len-1),?_,hswapped⟩
      refine (congrFun hhole fromRow).trans ?_
      rw [Function.update_of_ne he,Function.update_self]
      exact if_pos hlast

/-- A word is aligned to a power of two. -/
theorem eight_pow_two : ∃ k,8=2^k := ⟨3,rfl⟩

/-- The flag of the mixed components without the pair, beside a word with ticks. -/
def narrowComponents : List ComponentDescriptor :=
  mixedComponents.take 1++[⟨⟨2,8,8,.changeAble,eight_pow_two,Nat.dvd_refl 8⟩,.changeAble⟩]

/-- The registry that knows both. -/
def narrowSpecs : ComponentSpecs :=
  narrowComponents.foldl (fun specs des => (specs.insert des.storageTypeId des).1) .empty

/-- The first of three rows moves behind the one row of another layout. The flag goes
along, the pair stays behind, and the last row fills the hole. -/
theorem takeFrom_migrates_narrow : ∃ sl dl,ChunkLayout.new mixedSpecs mixedComponents 512=.ok sl ∧
    ChunkLayout.new narrowSpecs narrowComponents 512=.ok dl ∧
    (∃ t,t∈sl.componentColDescriptors ∧ t∉dl.componentColDescriptors) ∧
    ∃ src dst src' dst' swapped,
      Migrated mixedComponents narrowComponents sl dl (table sl src) (table dl dst) (table sl src')
        (table dl dst') 0 swapped ∧ src.len=3 ∧ src'.len=2 ∧ dst.len=1 ∧ dst'.len=2 := by
  have hfrom : ∃ l,ChunkLayout.new mixedSpecs mixedComponents 512=.ok l ∧ 3 ≤ l.maxLen ∧
      (l.componentColDescriptors.lookup ⟨1,32,16,.none,⟨4,rfl⟩,⟨2,rfl⟩⟩).isSome=true :=
    ⟨_,rfl,by decide,by decide⟩
  have hto : ∃ l,ChunkLayout.new narrowSpecs narrowComponents 512=.ok l ∧ 2 ≤ l.maxLen ∧
      l.componentColDescriptors.lookup ⟨1,32,16,.none,⟨4,rfl⟩,⟨2,rfl⟩⟩=none :=
    ⟨_,rfl,by decide,by decide⟩
  obtain ⟨sl,hsl,hrows,hpair⟩ := hfrom
  obtain ⟨dl,hdl,hroom,hnone⟩ := hto
  let src : RawChunk := ⟨fun a => .ofNat a,3,sl.maxLen⟩
  let dst : RawChunk := ⟨fun _ => 0,1,dl.maxLen⟩
  have hroom' : dst.len<dst.maxLen := hroom
  have hsrc : AllocatedFor sl src := ⟨rfl,hrows⟩
  have hdst : AllocatedFor dl dst := ⟨rfl,Nat.le_of_succ_le hroom⟩
  exact ⟨sl,dl,hsl,hdl,⟨_,AList.lookup_isSome.mp hpair,AList.lookup_eq_none.mp hnone⟩,src,dst,_,_,_,
    takeFrom_migrates (.inl ⟨512,hsl⟩) (.inl ⟨512,hdl⟩) hsrc hdst (by decide : 0<3) hroom',rfl,rfl,rfl,rfl⟩

end Rows

end XynokEcs.ByteMigration
