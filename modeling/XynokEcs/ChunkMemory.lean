import XynokEcs.ByteMemory
import XynokEcs.LayoutRegions
import XynokEcs.ChunkRows

/-!
# Rows in the bytes of a chunk

A chunk is one span of bytes, and a row's value, enable bit, ticks and handle are
read and written through the start of a region and the row. In a chunk of a built
layout such a write is read back and changes nothing else, the seven other bits of
an enable byte included.
-/

namespace XynokEcs.ChunkMemory

open ComponentTypes EntityHandle SequenceValueMap ChunkLayouts ChunkRows LayoutPlacement
  LayoutRegions ByteMemory

section Access

/-- `read_bit`. -/
def readBit (m : Memory) (region row : ℕ) : Bool :=
  bitOf (m (region+row/bitsPerByte)) (row%bitsPerByte)

/-- `write_bit`. -/
def writeBit (m : Memory) (region row : ℕ) (value : Bool) : Memory :=
  let byte := region+row/bitsPerByte
  fill m byte [withBit (m byte) (row%bitsPerByte) value]

/-- `read_changed_tick`. -/
def readChangedTick (m : Memory) (region row : ℕ) : ChangedTick :=
  .ofNat (ofBytes (span m (region+row*changedTickByteSize) changedTickByteSize))

/-- `write_changed_tick`. -/
def writeChangedTick (m : Memory) (region row : ℕ) (tick : ChangedTick) : Memory :=
  fill m (region+row*changedTickByteSize) (toBytes changedTickByteSize tick.toNat)

/-- The handle of a row, read through the start of the handles. -/
def readEntity (m : Memory) (region row : ℕ) : Entity :=
  ⟨.ofNat (ofBytes (span m (region+row*entityByteSize) entityByteSize))⟩

/-- The handle of a row, written through the start of the handles. -/
def writeEntity (m : Memory) (region row : ℕ) (e : Entity) : Memory :=
  fill m (region+row*entityByteSize) (toBytes entityByteSize e.raw.toNat)

/-- The bytes of a value of a storage type. -/
abbrev ValueBytes (t : StorageType) : Type := {bs : List UInt8 // bs.length=t.byteSize}

/-- The value of a row, read through the start of its column. -/
def readValue (m : Memory) (t : StorageType) (column row : ℕ) : ValueBytes t :=
  ⟨span m (column+row*t.byteSize) t.byteSize,length_span _ _ _⟩

/-- The value of a row, written through the start of its column. -/
def writeValue (m : Memory) (t : StorageType) (column row : ℕ) (v : ValueBytes t) : Memory :=
  fill m (column+row*t.byteSize) v.1

end Access

section Regions

/-- What one row of a region holds. -/
abbrev Region.Content : Region → Type
  | .enable _ => Bool
  | .added _ | .changed _ => ChangedTick
  | .entities => Entity
  | .column t => ValueBytes t

/-- Read one row of a region. -/
def Region.read (m : Memory) (start row : ℕ) : (r : Region) → Region.Content r
  | .enable _ => readBit m start row
  | .added _ | .changed _ => readChangedTick m start row
  | .entities => readEntity m start row
  | .column t => readValue m t start row

/-- Write one row of a region. -/
def Region.write (m : Memory) (start row : ℕ) : (r : Region) → Region.Content r → Memory
  | .enable _,value => writeBit m start row value
  | .added _,tick | .changed _,tick => writeChangedTick m start row tick
  | .entities,e => writeEntity m start row e
  | .column t,v => writeValue m t start row v

end Regions

section Slots

variable {m m' : Memory} {start row other n width : ℕ}

/-- The slots of a region follow each other. -/
theorem slot_inside (width : ℕ) (h : row<n) : row*width+width ≤ n*width := by
  have hle := Nat.mul_le_mul_right width (Nat.succ_le_of_lt h)
  rwa [Nat.succ_mul] at hle

/-- Two rows have slots of their own. -/
theorem slots_apart (h : other≠row) :
    start+other*width+width ≤ start+row*width ∨ start+row*width+width ≤ start+other*width := by
  obtain hlt | hlt := Nat.lt_or_gt_of_ne h
  · have := slot_inside width hlt
    omega
  · have := slot_inside width hlt
    omega

/-- The byte of a row's bit is one of its region's. -/
theorem bit_inside (h : row<n) : row/bitsPerByte < divCeil n bitsPerByte := by
  rw [divCeil,bitsPerByte]
  omega

/-- A bit that was written is read back, the seven beside it stay. -/
theorem readBit_writeBit (m : Memory) (region row other : ℕ) (value : Bool) :
    readBit (writeBit m region row value) region other=
      if other=row then value else readBit m region other := by
  have hbit : ∀ i,i%bitsPerByte<8 := fun i => Nat.mod_lt i (by decide)
  unfold readBit writeBit
  by_cases hbyte : other/bitsPerByte=row/bitsPerByte
  · have hat : fill m (region+row/bitsPerByte)
        [withBit (m (region+row/bitsPerByte)) (row%bitsPerByte) value] (region+other/bitsPerByte)=
          withBit (m (region+row/bitsPerByte)) (row%bitsPerByte) value := by
      rw [hbyte,fill,if_pos ⟨Nat.le_refl _,Nat.lt_succ_self _⟩,Nat.sub_self]
      rfl
    have hsame : other%bitsPerByte=row%bitsPerByte ↔ other=row := by
      rw [bitsPerByte] at hbyte ⊢
      omega
    rw [hat,bitOf_withBit _ _ (hbit row) (hbit other),hbyte]
    simp only [hsame]
  · have hne : other≠row := fun he => hbyte (by rw [he])
    rw [if_neg hne,fill_outside]
    rw [List.length_singleton]
    omega

theorem readChangedTick_writeChangedTick (m : Memory) (region row other : ℕ) (tick : ChangedTick) :
    readChangedTick (writeChangedTick m region row tick) region other=
      if other=row then tick else readChangedTick m region other := by
  unfold readChangedTick writeChangedTick
  by_cases h : other=row
  · subst h
    rw [if_pos rfl,span_fill (length_toBytes _ _),ofBytes_toBytes tick.toNat_lt,UInt32.ofNat_toNat]
  · rw [if_neg h,span_fill_outside]
    rw [length_toBytes]
    exact slots_apart h

theorem readEntity_writeEntity (m : Memory) (region row other : ℕ) (e : Entity) :
    readEntity (writeEntity m region row e) region other=
      if other=row then e else readEntity m region other := by
  unfold readEntity writeEntity
  by_cases h : other=row
  · subst h
    rw [if_pos rfl,span_fill (length_toBytes _ _),ofBytes_toBytes e.raw.toNat_lt,UInt64.ofNat_toNat]
  · rw [if_neg h,span_fill_outside]
    rw [length_toBytes]
    exact slots_apart h

theorem readValue_writeValue (m : Memory) (t : StorageType) (column row other : ℕ)
    (v : ValueBytes t) : readValue (writeValue m t column row v) t column other=
      if other=row then v else readValue m t column other := by
  unfold readValue writeValue
  by_cases h : other=row
  · subst h
    rw [if_pos rfl]
    exact Subtype.ext (span_fill v.2)
  · rw [if_neg h]
    refine Subtype.ext (span_fill_outside ?_)
    rw [v.2]
    exact slots_apart h

/-- What was written to a row is read back from it, the other rows stay. -/
theorem Region.read_write (m : Memory) (start row other : ℕ) (r : Region) (x : Region.Content r) :
    Region.read (Region.write m start row r x) start other r=
      if other=row then x else Region.read m start other r := by
  cases r with
  | enable t => exact readBit_writeBit m start row other x
  | added t | changed t => exact readChangedTick_writeChangedTick m start row other x
  | entities => exact readEntity_writeEntity m start row other x
  | column t => exact readValue_writeValue m t start row other x

/-- A write stays inside its region. -/
theorem Region.write_outside (h : row<n) {r : Region} {x : Region.Content r} {a : ℕ}
    (ha : a < start ∨ start+Region.bytes n r ≤ a) : Region.write m start row r x a=m a := by
  cases r with
  | enable t =>
    have hin := bit_inside h
    refine fill_outside ?_
    rw [Region.bytes] at ha
    change a < start+row/bitsPerByte ∨ start+row/bitsPerByte+1 ≤ a
    generalize row/bitsPerByte=byte at hin ⊢
    omega
  | added t | changed t =>
    have hin := slot_inside changedTickByteSize h
    refine fill_outside ?_
    rw [Region.bytes] at ha
    rw [length_toBytes]
    omega
  | entities =>
    have hin := slot_inside entityByteSize h
    refine fill_outside ?_
    rw [Region.bytes] at ha
    rw [length_toBytes]
    omega
  | column t =>
    have hin := slot_inside t.byteSize h
    refine fill_outside ?_
    rw [Region.bytes] at ha
    rw [x.2]
    omega

/-- Reading a row looks at its region only. -/
theorem Region.read_congr (h : row<n) (r : Region)
    (hm : ∀ a,start ≤ a → a < start+Region.bytes n r → m a=m' a) :
    Region.read m start row r=Region.read m' start row r := by
  cases r with
  | enable t =>
    have hin := bit_inside h
    have hbyte := hm (start+row/bitsPerByte) (Nat.le_add_right _ _) (by rw [Region.bytes]; omega)
    rw [Region.read,Region.read,readBit,readBit,hbyte]
  | added t | changed t =>
    have hin := slot_inside changedTickByteSize h
    rw [Region.bytes] at hm
    rw [Region.read,Region.read,readChangedTick,readChangedTick,
      span_congr fun a h1 h2 => hm a (by omega) (by omega)]
  | entities =>
    have hin := slot_inside entityByteSize h
    rw [Region.bytes] at hm
    rw [Region.read,Region.read,readEntity,readEntity,
      span_congr fun a h1 h2 => hm a (by omega) (by omega)]
  | column t =>
    have hin := slot_inside t.byteSize h
    rw [Region.bytes] at hm
    refine Subtype.ext (span_congr fun a h1 h2 => hm a (by omega) (by omega))

end Slots

section Layouts

variable {components : List ComponentDescriptor} {specs : ComponentSpecs} {l : ChunkLayout}

/-- A write to one row of one region is read back, and leaves every other row and
region and every byte behind the chunk as it was. -/
def ChangesOneRow (l : ChunkLayout) : Prop :=
  ∀ (m : Memory) (r : Region) (start row : ℕ) (x : Region.Content r),
    regionStart l r=some start → row<l.maxLen →
      Region.read (Region.write m start row r x) start row r=x ∧
      (∀ r' start' row',regionStart l r'=some start' → row'<l.maxLen → (r',row')≠(r,row) →
        Region.read (Region.write m start row r x) start' row' r'=Region.read m start' row' r') ∧
      ∀ a,l.chunkSizeInByte ≤ a → Region.write m start row r x a=m a

theorem WellFormed.changesOneRow (h : WellFormed components l) : ChangesOneRow l := by
  intro m r start row x hstart hrow
  have hinside := h.inside r start hstart
  refine ⟨?_,?_,fun a ha => Region.write_outside hrow (by omega)⟩
  · rw [Region.read_write,if_pos rfl]
  · intro r' start' row' hstart' hrow' hne
    by_cases hr : r'=r
    · subst hr
      rw [hstart] at hstart'
      cases hstart'
      rw [Region.read_write,if_neg fun he => hne (by rw [he])]
    · refine Region.read_congr hrow' r' fun a ha1 ha2 => Region.write_outside hrow ?_
      have hapart := h.disjoint r' r start' start hr hstart' hstart
      omega

/-- Every layout the crate comes by places its regions well, so that a write to a row
of a chunk touches that row of that region alone. -/
theorem layout_wellFormed (h : Built specs components l) :
    WellFormed components l ∧ ChangesOneRow l :=
  ⟨built_wellFormed h,WellFormed.changesOneRow (built_wellFormed h)⟩

theorem layout_wellFormed_mixed : ∃ l,ChunkLayout.new mixedSpecs mixedComponents 512=.ok l ∧
    WellFormed mixedComponents l ∧ ChangesOneRow l := by
  have hnew : ∃ l,ChunkLayout.new mixedSpecs mixedComponents 512=.ok l := ⟨_,rfl⟩
  obtain ⟨l,hl⟩ := hnew
  exact ⟨l,hl,layout_wellFormed (.inl ⟨512,hl⟩)⟩

end Layouts

end XynokEcs.ChunkMemory
