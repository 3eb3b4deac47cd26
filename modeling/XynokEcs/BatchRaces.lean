import XynokEcs.BuiltLayouts
import XynokEcs.QueryReadings
import XynokEcs.CellPrograms

/-!
# Batches in parallel

The jobs of `par_for_each_batch` read and write rows of chunks that other jobs
read and write at the same time, an enable bit by loading its byte and storing it
back. A cut on a byte border of the enable bits keeps the bytes of two batches
apart, so every job ends as if it had run alone. A cut elsewhere loses updates.
-/

namespace XynokEcs.BatchRaces

open ComponentTypes EntityHandle SequenceValueMap EntityAllocation ChunkLayouts LayoutPlacement LayoutRegions
  ByteMemory WorldState StoreInvariants ChunkMemory BuiltLayouts CellPrograms Interleavings

/-- A byte of a chunk, by archetype and chunk. -/
abbrev Address : Type := (ℕ×ℕ)×ℕ

/-- The bytes of all chunks. -/
abbrev Bytes : Type := Address → UInt8

/-- The bytes of a chunk. -/
def chunkAt (m : Bytes) (key : ℕ×ℕ) : Memory := fun a => m (key,a)

/-- Put the bytes of a chunk back. -/
def putChunk (key : ℕ×ℕ) (c : Memory) (m : Bytes) : Bytes := fun a => if a.1=key then c a.2 else m a

/-- The addresses of a span of bytes of a chunk. -/
def addresses (key : ℕ×ℕ) (p : ℕ×ℕ) : Set Address := {a | a.1=key ∧ p.1 ≤ a.2 ∧ a.2 < p.1+p.2}

section Spans

variable {key : ℕ×ℕ} {start size : ℕ} {m : Bytes}

/-- Load the bytes of a span, one by one. -/
def loadSpan (key : ℕ×ℕ) (start : ℕ) : (size : ℕ) → Program Address UInt8 {bs : List UInt8 // bs.length=size}
  | 0 => .done ⟨[],rfl⟩
  | size+1 => .load (key,start) fun b => (loadSpan key (start+1) size).bind fun bs =>
    .done ⟨b::bs.1,congrArg Nat.succ bs.2⟩

/-- Store bytes over a span, one by one. -/
def storeSpan (key : ℕ×ℕ) : ℕ → List UInt8 → Program Address UInt8 Unit
  | _,[] => .done ()
  | start,b::bs => .store (key,start) b (storeSpan key (start+1) bs)

/-- A span is its first byte and the rest. -/
theorem span_succ (m : Memory) (start size : ℕ) : span m start (size+1)=m start::span m (start+1) size := by
  rw [span,span,List.range_succ_eq_map,List.map_cons,List.map_map]
  refine congrArg (m start::·) (List.map_congr_left fun i _ => ?_)
  rw [Function.comp_apply,Nat.succ_eq_add_one,Nat.add_right_comm,Nat.add_assoc]

/-- Run alone, the loads of a span read it. -/
theorem run_loadSpan (key : ℕ×ℕ) (start size : ℕ) (m : Bytes) :
    (loadSpan key start size).run m=(⟨span (chunkAt m key) start size,length_span _ _ _⟩,m) := by
  induction size generalizing start with
  | zero => rfl
  | succ size ih =>
    rw [loadSpan,Program.run,Program.run_bind,ih]
    exact congrArg (fun bs => (bs,m)) (Subtype.ext (span_succ (chunkAt m key) start size).symm)

/-- A chunk reads back as it was put. -/
theorem chunkAt_putChunk (key : ℕ×ℕ) (c : Memory) (m : Bytes) : chunkAt (putChunk key c m) key=c := by
  funext a
  exact if_pos rfl

/-- Putting a chunk back changes nothing. -/
theorem putChunk_chunkAt (key : ℕ×ℕ) (m : Bytes) : putChunk key (chunkAt m key) m=m := by
  funext a
  unfold putChunk chunkAt
  split
  · rename_i h
    rw [←h]
  · rfl

/-- Filling stores the first byte and then the rest. -/
theorem fill_cons (c : Memory) (start : ℕ) (b : UInt8) (bs : List UInt8) :
    fill c start (b::bs)=fill (Function.update c start b) (start+1) bs := by
  funext a
  unfold fill
  rw [List.length_cons,Function.update_apply]
  by_cases ha : a=start
  · rw [if_pos (by omega),if_neg (by omega),if_pos ha,ha,Nat.sub_self]
    rfl
  · by_cases hin : start+1 ≤ a ∧ a < start+1+bs.length
    · have hsub : a-start=a-(start+1)+1 := by omega
      rw [if_pos (by omega),if_pos hin,hsub,List.getD_cons_succ]
    · rw [if_neg (by omega),if_neg hin,if_neg ha]

/-- Storing a byte rewrites its chunk. -/
theorem update_chunk (key : ℕ×ℕ) (a : ℕ) (b : UInt8) (m : Bytes) :
    Function.update m (key,a) b=putChunk key (Function.update (chunkAt m key) a b) m := by
  funext x
  obtain ⟨k,c⟩ := x
  unfold putChunk chunkAt
  simp only [Function.update_apply,Prod.mk.injEq]
  by_cases hk : k=key
  · subst hk
    simp
  · simp [hk]

/-- What was put last counts. -/
theorem putChunk_putChunk (key : ℕ×ℕ) (c c' : Memory) (m : Bytes) :
    putChunk key c (putChunk key c' m)=putChunk key c m := by
  funext a
  unfold putChunk
  split <;> rfl

/-- Run alone, the stores of a span fill it. -/
theorem run_storeSpan (key : ℕ×ℕ) (start : ℕ) (bs : List UInt8) (m : Bytes) :
    (storeSpan key start bs).run m=((),putChunk key (fill (chunkAt m key) start bs) m) := by
  induction bs generalizing start m with
  | nil =>
    have hfill : fill (chunkAt m key) start []=chunkAt m key := by
      funext a
      exact if_neg (by simp)
    rw [hfill,putChunk_chunkAt]
    rfl
  | cons b bs ih =>
    rw [storeSpan,Program.run,ih,update_chunk,chunkAt_putChunk,putChunk_putChunk,fill_cons]

/-- The loads of a span keep to it. -/
theorem within_loadSpan (key : ℕ×ℕ) (start size : ℕ) :
    (loadSpan key start size).Within (addresses key (start,size)) := by
  induction size generalizing start with
  | zero => trivial
  | succ size ih =>
    refine ⟨⟨rfl,le_refl _,by dsimp only; omega⟩,fun b => ?_⟩
    refine Program.Within.bind ((ih (start+1)).mono fun a ha => ?_) fun bs => trivial
    obtain ⟨hk,hlo,hhi⟩ := ha
    dsimp only at hlo hhi
    exact ⟨hk,by dsimp only; omega,by dsimp only; omega⟩

/-- So do its stores. -/
theorem within_storeSpan (key : ℕ×ℕ) (start : ℕ) (bs : List UInt8) :
    (storeSpan key start bs).Within (addresses key (start,bs.length)) := by
  induction bs generalizing start with
  | nil => trivial
  | cons b bs ih =>
    refine ⟨⟨rfl,le_refl _,by dsimp only; rw [List.length_cons]; omega⟩,(ih (start+1)).mono fun a ha => ?_⟩
    obtain ⟨hk,hlo,hhi⟩ := ha
    dsimp only at hlo hhi
    exact ⟨hk,by dsimp only; omega,by dsimp only; rw [List.length_cons]; omega⟩

end Spans

section Regions

variable {key : ℕ×ℕ} {start row : ℕ} {m : Bytes}

/-- `read_bit`, as a load. -/
def loadBit (key : ℕ×ℕ) (region row : ℕ) : Program Address UInt8 Bool :=
  .load (key,region+row/bitsPerByte) fun b => .done (bitOf b (row%bitsPerByte))

/-- `write_bit`, as a load and a store. -/
def storeBit (key : ℕ×ℕ) (region row : ℕ) (value : Bool) : Program Address UInt8 Unit :=
  .load (key,region+row/bitsPerByte) fun b =>
    .store (key,region+row/bitsPerByte) (withBit b (row%bitsPerByte) value) (.done ())

/-- Load one row of a region. -/
def loadRow (key : ℕ×ℕ) (start row : ℕ) : (r : Region) → Program Address UInt8 (Region.Content r)
  | .enable _ => loadBit key start row
  | .added _ | .changed _ => (loadSpan key (start+row*changedTickByteSize) changedTickByteSize).bind
      fun bs => .done (.ofNat (ofBytes bs.1))
  | .entities => (loadSpan key (start+row*entityByteSize) entityByteSize).bind
      fun bs => .done ⟨.ofNat (ofBytes bs.1)⟩
  | .column t => loadSpan key (start+row*t.byteSize) t.byteSize

/-- Store one row of a region. -/
def storeRow (key : ℕ×ℕ) (start row : ℕ) : (r : Region) → Region.Content r → Program Address UInt8 Unit
  | .enable _,value => storeBit key start row value
  | .added _,tick | .changed _,tick => storeSpan key (start+row*changedTickByteSize)
      (toBytes changedTickByteSize tick.toNat)
  | .entities,e => storeSpan key (start+row*entityByteSize) (toBytes entityByteSize e.raw.toNat)
  | .column t,v => storeSpan key (start+row*t.byteSize) v.1

/-- A load of a row is a read of its region. -/
theorem run_loadRow (key : ℕ×ℕ) (start row : ℕ) (r : Region) (m : Bytes) :
    (loadRow key start row r).run m=(Region.read (chunkAt m key) start row r,m) := by
  cases r with
  | enable t => rfl
  | added t | changed t =>
    rw [loadRow,Program.run_bind,run_loadSpan]
    rfl
  | entities =>
    rw [loadRow,Program.run_bind,run_loadSpan]
    rfl
  | column t => exact run_loadSpan key (start+row*t.byteSize) t.byteSize m

/-- Run alone, the load and the store of a bit write it. -/
theorem run_storeBit (key : ℕ×ℕ) (region row : ℕ) (value : Bool) (m : Bytes) :
    (storeBit key region row value).run m=((),putChunk key (writeBit (chunkAt m key) region row value) m) := by
  have hfill : ∀ (a : ℕ) (b : UInt8),fill (chunkAt m key) a [b]=Function.update (chunkAt m key) a b := by
    intro a b
    rw [fill_cons]
    funext c
    exact if_neg (by simp)
  rw [storeBit,Program.run,Program.run,Program.run,update_chunk,writeBit,hfill]
  rfl

/-- A store of a row is a write of its region. -/
theorem run_storeRow (key : ℕ×ℕ) (start row : ℕ) (r : Region) (x : Region.Content r) (m : Bytes) :
    (storeRow key start row r x).run m=((),putChunk key (Region.write (chunkAt m key) start row r x) m) := by
  cases r with
  | enable t => exact run_storeBit key start row x m
  | added t | changed t => exact run_storeSpan key _ _ m
  | entities => exact run_storeSpan key _ _ m
  | column t => exact run_storeSpan key _ _ m

/-- The loads of a part of a row keep to its bytes. -/
theorem within_loadRow (key : ℕ×ℕ) (start row : ℕ) (r : Region) :
    (loadRow key start row r).Within (addresses key (slot start row r)) := by
  cases r with
  | enable t => exact ⟨⟨rfl,le_refl _,Nat.lt_succ_self _⟩,fun _ => trivial⟩
  | added t | changed t => exact Program.Within.bind (within_loadSpan key _ _) fun _ => trivial
  | entities => exact Program.Within.bind (within_loadSpan key _ _) fun _ => trivial
  | column t => exact within_loadSpan key _ _

/-- So do its stores. -/
theorem within_storeRow (key : ℕ×ℕ) (start row : ℕ) (r : Region) (x : Region.Content r) :
    (storeRow key start row r x).Within (addresses key (slot start row r)) := by
  cases r with
  | enable t => exact ⟨⟨rfl,le_refl _,Nat.lt_succ_self _⟩,fun _ => ⟨⟨rfl,le_refl _,Nat.lt_succ_self _⟩,trivial⟩⟩
  | added t | changed t =>
    have hspan := within_storeSpan key (start+row*changedTickByteSize)
      (toBytes changedTickByteSize x.toNat)
    rw [length_toBytes] at hspan
    exact hspan
  | entities =>
    have hspan := within_storeSpan key (start+row*entityByteSize) (toBytes entityByteSize x.raw.toNat)
    rw [length_toBytes] at hspan
    exact hspan
  | column t =>
    have hspan := within_storeSpan key (start+row*t.byteSize) x.1
    rw [x.2] at hspan
    exact hspan

/-- Two writers of enable bits, after some of their loads and stores. -/
def writingBits (key : ℕ×ℕ) (region row row' : ℕ) (value value' : Bool) (m : Bytes) (picks : List ℕ) :
    List (Program Address UInt8 Unit)×Bytes :=
  takeTurns Program.turn picks ([storeBit key region row value,storeBit key region row' value'],m)

/-- Both writers load the byte before one of them stores it. -/
theorem writers_of_one_byte (key : ℕ×ℕ) (region : ℕ) {row row' : ℕ} (hne : row≠row')
    (hbyte : row/bitsPerByte=row'/bitsPerByte) (value value' : Bool) (m : Bytes) :
    AllDone (writingBits key region row row' value value' m [0,1,0,1]).1 ∧
      readBit (chunkAt (writingBits key region row row' value value' m [0,1,0,1]).2 key) region row=
        readBit (chunkAt m key) region row := by
  have hend : writingBits key region row row' value value' m [0,1,0,1]=([.done (),.done ()],
      Function.update (Function.update m (key,region+row/bitsPerByte)
          (withBit (m (key,region+row/bitsPerByte)) (row%bitsPerByte) value))
        (key,region+row'/bitsPerByte)
          (withBit (m (key,region+row'/bitsPerByte)) (row'%bitsPerByte) value')) := rfl
  have hafter : chunkAt (writingBits key region row row' value value' m [0,1,0,1]).2 key=
      writeBit (chunkAt m key) region row' value' := by
    have hrun := congrArg Prod.snd (run_storeBit key region row' value' m)
    rw [hend,hbyte,Function.update_idem]
    exact (congrArg (fun m' => chunkAt m' key) hrun).trans (chunkAt_putChunk _ _ _)
  constructor
  · rw [hend]
    intro p hp
    rcases List.mem_cons.mp hp with rfl | hp
    · exact ⟨(),rfl⟩
    · exact ⟨(),List.mem_singleton.mp hp⟩
  · rw [hafter,readBit_writeBit,if_neg hne]

/-- Writers of two bytes share no cell. -/
theorem writers_separate (key : ℕ×ℕ) (region : ℕ) {row row' : ℕ}
    (hbyte : row/bitsPerByte≠row'/bitsPerByte) (value value' : Bool) :
    Separate (fun k => {a | (k=0 ∧ a=(key,region+row/bitsPerByte)) ∨ (k=1 ∧ a=(key,region+row'/bitsPerByte))})
      [storeBit key region row value,storeBit key region row' value'] := by
  constructor
  · intro k p hp
    rcases k with _ | _ | k
    · cases hp
      exact ⟨.inl ⟨rfl,rfl⟩,fun _ => ⟨.inl ⟨rfl,rfl⟩,trivial⟩⟩
    · cases hp
      exact ⟨.inr ⟨rfl,rfl⟩,fun _ => ⟨.inr ⟨rfl,rfl⟩,trivial⟩⟩
    · cases hp
  · intro j k hjk
    refine Set.disjoint_left.mpr fun a ha ha' => ?_
    rcases ha with ⟨hj,ha⟩ | ⟨hj,ha⟩
    · rcases ha' with ⟨hk,-⟩ | ⟨-,ha'⟩
      · exact hjk (hj.trans hk.symm)
      · exact hbyte (Nat.add_left_cancel (Prod.mk.inj (ha.symm.trans ha')).2)
    · rcases ha' with ⟨-,ha'⟩ | ⟨hk,-⟩
      · exact hbyte (Nat.add_left_cancel (Prod.mk.inj (ha.symm.trans ha')).2).symm
      · exact hjk (hj.trans hk.symm)

/-- Enable bits of two rows can be written at the same time exactly when they are in two bytes. -/
theorem bits_race_iff (key : ℕ×ℕ) (region : ℕ) {row row' : ℕ} (hne : row≠row') :
    (∀ (value value' : Bool) (m : Bytes) (picks : List ℕ),
      AllDone (writingBits key region row row' value value' m picks).1 →
        readBit (chunkAt (writingBits key region row row' value value' m picks).2 key) region row=value ∧
        readBit (chunkAt (writingBits key region row row' value value' m picks).2 key) region row'=value') ↔
      row/bitsPerByte≠row'/bitsPerByte := by
  constructor
  · intro h hbyte
    obtain ⟨hdone,hlost⟩ := writers_of_one_byte key region hne hbyte
      (!readBit (chunkAt (fun _ => 0) key) region row) true fun _ => 0
    have hread := (h _ _ _ _ hdone).1
    rw [hlost] at hread
    exact (Bool.not_ne_self _).symm hread
  · intro hbyte value value' m picks hdone
    obtain ⟨hends,-⟩ := ends_alone (writers_separate key region hbyte value value') hdone
    obtain ⟨-,hfirst⟩ := hends (k:=0) rfl
    obtain ⟨-,hsecond⟩ := hends (k:=1) rfl
    have hat := hfirst (key,region+row/bitsPerByte) (.inl ⟨rfl,rfl⟩)
    have hat' := hsecond (key,region+row'/bitsPerByte) (.inr ⟨rfl,rfl⟩)
    dsimp only at hat hat'
    rw [run_storeBit] at hat hat'
    have hread := readBit_writeBit (chunkAt m key) region row row value
    have hread' := readBit_writeBit (chunkAt m key) region row' row' value'
    rw [if_pos rfl] at hread hread'
    refine ⟨?_,?_⟩
    · refine Eq.trans ?_ hread
      exact congrArg (bitOf · (row%bitsPerByte)) (hat.trans (if_pos rfl))
    · refine Eq.trans ?_ hread'
      exact congrArg (bitOf · (row'%bitsPerByte)) (hat'.trans (if_pos rfl))

/-- Rows 7 and 8 are on either side of a border, so both bits can be set. -/
theorem bits_race_iff_border : (7 : ℕ)/bitsPerByte≠8/bitsPerByte ∧
    ∀ (m : Bytes) (picks : List ℕ),AllDone (writingBits (0,0) 16 7 8 true true m picks).1 →
      readBit (chunkAt (writingBits (0,0) 16 7 8 true true m picks).2 (0,0)) 16 7=true ∧
      readBit (chunkAt (writingBits (0,0) 16 7 8 true true m picks).2 (0,0)) 16 8=true :=
  ⟨by decide,(bits_race_iff (0,0) 16 (by decide)).mpr (by decide) true true⟩

end Regions

section Jobs

variable {V α : Type} {w : World V} {ls ls' : List RowLoc} {m m' : Bytes}

/-- A part of a row that a job may touch: one that its archetype's layout has. -/
structure Part (w : World V) where
  /-- The row that the part belongs to. -/
  loc : RowLoc
  /-- The value, the enable bit, a tick or the handle. -/
  region : Region
  /-- The archetype of the row. -/
  spec : ArchetypeSpec V
  /-- Where the region begins in each of its chunks. -/
  start : ℕ
  /-- The archetype is registered. -/
  found : w.archetypes.valueAt loc.archId=some spec
  /-- Its layout has the region, at that start. -/
  placed : regionStart spec.layout region=some start

namespace Part

/-- The chunk of a part. -/
def key (p : Part w) : ℕ×ℕ := (p.loc.archId,p.loc.indices.chunkIdx)

/-- The bytes of a part. -/
def bytes (p : Part w) : Set Address :=
  addresses p.key (slot p.start p.loc.indices.idxInChunk p.region)

/-- Read a part. -/
def read (p : Part w) (m : Bytes) : Region.Content p.region :=
  Region.read (chunkAt m p.key) p.start p.loc.indices.idxInChunk p.region

/-- Write a part. -/
def write (p : Part w) (x : Region.Content p.region) (m : Bytes) : Bytes :=
  putChunk p.key (Region.write (chunkAt m p.key) p.start p.loc.indices.idxInChunk p.region x) m

/-- What a part holds is in its bytes. -/
theorem read_congr (p : Part w) (h : ∀ a∈p.bytes,m a=m' a) : p.read m=p.read m' := by
  have hsame := (within_loadRow p.key p.start p.loc.indices.idxInChunk p.region).run_congr h
  rw [run_loadRow,run_loadRow] at hsame
  exact hsame.1

end Part

/-- What a job does with the rows it is handed: it goes on with what it reads. -/
inductive Job (w : World V) (α : Type)
  | done (x : α)
  | read (p : Part w) (next : Region.Content p.region → Job w α)
  | write (p : Part w) (x : Region.Content p.region) (next : Job w α)

namespace Job

/-- The loads and stores of a job. -/
def program : Job w α → Program Address UInt8 α
  | done x => .done x
  | read p next => (loadRow p.key p.start p.loc.indices.idxInChunk p.region).bind fun x => (next x).program
  | write p x next => (storeRow p.key p.start p.loc.indices.idxInChunk p.region x).bind fun _ => next.program

/-- A job on its own, part by part. -/
def run : Job w α → Bytes → α×Bytes
  | done x,m => (x,m)
  | read p next,m => (next (p.read m)).run m
  | write p x next,m => next.run (p.write x m)

/-- A job touches the rows it was handed. -/
def KeepsTo (ls : List RowLoc) : Job w α → Prop
  | done _ => True
  | read p next => p.loc∈ls ∧ ∀ x,(next x).KeepsTo ls
  | write p _ next => p.loc∈ls ∧ next.KeepsTo ls

/-- Run alone, the program of a job does what the job does. -/
theorem run_program (job : Job w α) (m : Bytes) : job.program.run m=job.run m := by
  induction job generalizing m with
  | done x => rfl
  | read p next ih =>
    rw [program,Program.run_bind,run_loadRow]
    exact ih _ m
  | write p x next ih =>
    rw [program,Program.run_bind,run_storeRow]
    exact ih _

/-- One job after the other. -/
def andThen : Job w Unit → Job w α → Job w α
  | done _,job => job
  | read p next,job => read p fun x => (next x).andThen job
  | write p x next,job => write p x (next.andThen job)

/-- One job after the other. -/
theorem run_andThen (job : Job w Unit) (job' : Job w α) (m : Bytes) :
    (job.andThen job').run m=job'.run (job.run m).2 := by
  induction job generalizing m with
  | done x => rfl
  | read p next ih => exact ih _ m
  | write p x next ih => exact ih _

/-- A job that keeps to some rows keeps to more. -/
theorem KeepsTo.mono {job : Job w α} (h : job.KeepsTo ls) (hs : ls ⊆ ls') : job.KeepsTo ls' := by
  induction job with
  | done x => trivial
  | read p next ih => exact ⟨hs h.1,fun x => ih x (h.2 x)⟩
  | write p x next ih => exact ⟨hs h.1,ih h.2⟩

/-- Two jobs that keep to some rows keep to them one after the other. -/
theorem KeepsTo.andThen {job : Job w Unit} {job' : Job w α} (h : job.KeepsTo ls) (h' : job'.KeepsTo ls) :
    (job.andThen job').KeepsTo ls := by
  induction job with
  | done x => exact h'
  | read p next ih => exact ⟨h.1,fun x => ih x (h.2 x)⟩
  | write p x next ih => exact ⟨h.1,ih h.2⟩

end Job

/-- The bytes of some rows. -/
def rowBytes (w : World V) (ls : List RowLoc) : Set Address := {a | ∃ p : Part w,p.loc∈ls ∧ a∈p.bytes}

/-- A job that keeps to some rows keeps to their bytes. -/
theorem Job.within {job : Job w α} (h : job.KeepsTo ls) : job.program.Within (rowBytes w ls) := by
  have hpart : ∀ p : Part w,p.loc∈ls → p.bytes ⊆ rowBytes w ls := fun p hp a ha => ⟨p,hp,ha⟩
  induction job with
  | done x => trivial
  | read p next ih =>
    refine Program.Within.bind ((within_loadRow _ _ _ _).mono (hpart p h.1)) fun x => ?_
    exact ih x (h.2 x)
  | write p x next ih =>
    refine Program.Within.bind ((within_storeRow _ _ _ _ _).mono (hpart p h.1)) fun _ => ?_
    exact ih h.2

/-- Rows in use, as a job is handed them. -/
def InUse (w : World V) (ls : List RowLoc) : Prop := ∀ l∈ls,(World.row w l).isSome=true

/-- No two rows have their enable bits in one byte. -/
def OffBytes (ls ls' : List RowLoc) : Prop := ∀ l∈ls,∀ l'∈ls',l.archId=l'.archId →
  l.indices.chunkIdx=l'.indices.chunkIdx → l.indices.idxInChunk/bitsPerByte≠l'.indices.idxInChunk/bitsPerByte

/-- Such rows share no byte at all. -/
theorem rowBytes_disjoint (hmade : AllMade w)
    (hlen : ∀ l spec,w.archetypes.valueAt l.archId=some spec → (World.row w l).isSome=true →
      l.indices.idxInChunk<spec.layout.maxLen)
    (hu : InUse w ls) (hu' : InUse w ls') (ho : OffBytes ls ls') :
    Disjoint (rowBytes w ls) (rowBytes w ls') := by
  refine Set.disjoint_left.mpr fun a ha ha' => ?_
  obtain ⟨p,hp,hkey,hlo,hhi⟩ := ha
  obtain ⟨q,hq,hkey',hlo',hhi'⟩ := ha'
  have hsame := Prod.mk.inj (hkey.symm.trans hkey')
  have hbyte := ho p.loc hp q.loc hq hsame.1 hsame.2
  have hspec : p.spec=q.spec := by
    have hp' := p.found
    rw [hsame.1,q.found] at hp'
    exact (Option.some.inj hp').symm
  obtain ⟨specs,comps,hbuilt⟩ := hmade p.loc.archId p.spec.layout
    (Option.map_eq_some_iff.mpr ⟨p.spec,p.found,rfl⟩)
  have hrow := hlen p.loc p.spec p.found (hu p.loc hp)
  have hrow' := hlen q.loc q.spec q.found (hu' q.loc hq)
  have hplaced := q.placed
  rw [←hspec] at hrow' hplaced
  have hne : (p.region,p.loc.indices.idxInChunk)≠(q.region,q.loc.indices.idxInChunk) := by
    intro he
    exact hbyte (congrArg (·/bitsPerByte) (Prod.mk.inj he).2)
  cases slots_clear (built_wellFormed hbuilt) p.placed hplaced hrow hrow' hne with
  | inl hclear =>
    unfold Clear at hclear
    omega
  | inr hshare =>
    obtain ⟨t,-,-,hrows⟩ := hshare
    exact hbyte hrows

end Jobs

section Pools

variable {V α : Type} {w : World V} {batches : List (List RowLoc)} {jobs : List (Job w α)} {m : Bytes}

/-- The bytes of the batch with a number. -/
def batchBytes (w : World V) (batches : List (List RowLoc)) (k : ℕ) : Set Address :=
  {a | ∃ ls,batches[k]?=some ls ∧ a∈rowBytes w ls}

/-- The jobs and the bytes after some loads and stores, each by the job with that number. -/
def interleaved (jobs : List (Job w α)) (m : Bytes) (picks : List ℕ) :
    List (Program Address UInt8 α)×Bytes := takeTurns Program.turn picks (jobs.map Job.program,m)

/-- The jobs of batches at work at the same time. In each order of their loads and stores
that lets all finish, a job ends in what it ends in alone, with the same bytes in its
batch, and all bytes are as when the jobs run one after the other. -/
structure RaceFree (batches : List (List RowLoc)) (jobs : List (Job w α)) (m : Bytes) : Prop where
  /-- Some order lets all jobs finish. -/
  finish : ∃ picks,AllDone (interleaved jobs m picks).1
  /-- A job ends with its own result and its own bytes. -/
  alone : ∀ picks,AllDone (interleaved jobs m picks).1 → ∀ (k : ℕ) (ls : List RowLoc) (job : Job w α),
    batches[k]?=some ls → jobs[k]?=some job →
      (interleaved jobs m picks).1[k]?=some (.done (job.run m).1) ∧
      ∀ p : Part w,p.loc∈ls → p.read (interleaved jobs m picks).2=p.read (job.run m).2
  /-- No byte outside the batches moves. -/
  rest : ∀ picks,AllDone (interleaved jobs m picks).1 → ∀ a,(∀ ls∈batches,a∉rowBytes w ls) →
    (interleaved jobs m picks).2 a=m a
  /-- All bytes end as when the jobs take turns. -/
  sequence : ∀ picks,AllDone (interleaved jobs m picks).1 →
    (interleaved jobs m picks).2=jobs.foldl (fun m job => (job.run m).2) m

/-- Lists related item by item are related at each position. -/
theorem forall₂_getElem? {ι κ : Type} {R : ι → κ → Prop} {xs : List ι} {ys : List κ}
    (h : List.Forall₂ R xs ys) {k : ℕ} {y : κ} (hy : ys[k]?=some y) : ∃ x,xs[k]?=some x ∧ R x y := by
  induction h generalizing k with
  | nil => cases hy
  | @cons x z xs ys hxz _ ih =>
    cases k with
    | zero =>
      cases hy
      exact ⟨x,rfl,hxz⟩
    | succ k => exact ih hy

/-- Jobs that keep to batches apart from each other. -/
theorem raceFree_of_apart (hapart : batches.Pairwise fun ls ls' => Disjoint (rowBytes w ls) (rowBytes w ls'))
    (hkeep : List.Forall₂ (fun ls job => job.KeepsTo ls) batches jobs) (m : Bytes) :
    RaceFree batches jobs m := by
  have hget := List.pairwise_iff_getElem.mp hapart
  have hseparate : Separate (batchBytes w batches) (jobs.map Job.program) := by
    constructor
    · intro k p hp
      rw [List.getElem?_map] at hp
      obtain ⟨job,hjob,rfl⟩ := Option.map_eq_some_iff.mp hp
      obtain ⟨ls,hls,hk⟩ := forall₂_getElem? hkeep hjob
      exact (Job.within hk).mono fun a ha => ⟨ls,hls,ha⟩
    · intro j k hjk
      refine Set.disjoint_left.mpr fun a ha ha' => ?_
      obtain ⟨ls,hls,ha⟩ := ha
      obtain ⟨ls',hls',ha'⟩ := ha'
      obtain ⟨hj,rfl⟩ := List.getElem?_eq_some_iff.mp hls
      obtain ⟨hk,rfl⟩ := List.getElem?_eq_some_iff.mp hls'
      cases Nat.lt_or_gt_of_ne hjk with
      | inl hlt => exact Set.disjoint_left.mp (hget j k hj hk hlt) ha ha'
      | inr hgt => exact Set.disjoint_left.mp (hget k j hk hj hgt) ha' ha
  refine ⟨exists_end _,fun picks hend k ls job hls hjob => ?_,fun picks hend a ha => ?_,
    fun picks hend => (ends_as_sequence hseparate hend).trans ?_⟩
  · have hp : (jobs.map Job.program)[k]?=some job.program := by
      rw [List.getElem?_map,hjob]
      rfl
    obtain ⟨hvalue,hbytes⟩ := (ends_alone hseparate hend).1 hp
    dsimp only at hvalue hbytes
    rw [Job.run_program] at hvalue hbytes
    exact ⟨hvalue,fun p hp => p.read_congr fun a ha => hbytes a ⟨ls,hls,p,hp,ha⟩⟩
  · refine (ends_alone hseparate hend).2 a fun k _ hk => ?_
    obtain ⟨ls,hls,hin⟩ := hk
    exact ha ls (List.mem_of_getElem? hls) hin
  · rw [inSequence,List.foldl_map]
    simp only [Job.run_program]

end Pools

section Batches

open SpanCuts ChunkRows QueryShapes QueryAccess QuerySources QueryWalks QueryMatches ActionRuns WorldRuns ActionEffects
  WorldGrowth WorkerQueues BatchWalks RegistryInvariants CommandQueues QueryReadings

variable {V : Type} {w : World V} {q : QueryShape Component}

/-- The rows of a batch are in use. -/
theorem inUse_batch {indices : List ℕ} {n : ℕ} {bs : List (List (Span (ℕ×ℕ)))}
    (hb : Batches minBatchAmount n (World.archesSpans w indices) bs)
    (htidy : Tidy minBatchAmount (World.archesSpans w indices)) {b : List (Span (ℕ×ℕ))} (hin : b∈bs) :
    InUse w (places b) := by
  intro l hl
  have hall : l∈places (World.archesSpans w indices) := by
    obtain ⟨p,hp,rfl⟩ := List.mem_map.mp hl
    refine List.mem_map_of_mem ?_
    rw [←hb.rows htidy]
    exact List.mem_flatMap.mpr ⟨b,hin,hp⟩
  exact (mem_places.mp hall).2

/-- Rows of two batches share no byte of enable bits. -/
theorem offBytes_batches {n : ℕ} {spans : List (Span (ℕ×ℕ))} {bs : List (List (Span (ℕ×ℕ)))}
    (hb : Batches minBatchAmount n spans bs) (htidy : Tidy minBatchAmount spans) :
    bs.Pairwise fun b b' => OffBytes (places b) (places b') := by
  refine (hb.apart (by decide : 0 < minBatchAmount) htidy).imp fun {b b'} hab l hl l' hl' hi hk => ?_
  obtain ⟨p,hp,rfl⟩ := List.mem_map.mp hl
  obtain ⟨p',hp',rfl⟩ := List.mem_map.mp hl'
  exact hab p hp p' hp' (Prod.ext hi hk)

/-- What the jobs of a query rely on: layouts the crate built, rows inside their chunks and archetypes
that are there, each once. -/
structure Ready (q : QueryShape Component) (accessor : QuerySpecAccessor) (w : World V) : Prop where
  /-- Every layout came out of the layout search. -/
  made : AllMade w
  /-- Rows in use are within the capacity of their layout. -/
  inside : ∀ (l : RowLoc) (spec : ArchetypeSpec V),w.archetypes.valueAt l.archId=some spec →
    (World.row w l).isSome=true → l.indices.idxInChunk<spec.layout.maxLen
  /-- The archetypes that are walked are registered. -/
  walker : WalkerOk w (ParWalker.new q accessor w)
  /-- The rows to be cut are one run for each chunk, from the border of a byte on. -/
  tidy : Tidy minBatchAmount (World.archesSpans w (matched q accessor w))

variable {accessor : QuerySpecAccessor} {lastRunTick : ChangedTick} {n : ℕ}

/-- Jobs on rows in use, no two of them in a byte of enable bits. -/
theorem Ready.raceFree (h : Ready q accessor w) {α : Type} {batches : List (List RowLoc)}
    {jobs : List (Job w α)} (hu : ∀ ls∈batches,InUse w ls) (ho : batches.Pairwise OffBytes)
    (hkeep : List.Forall₂ (fun ls job => job.KeepsTo ls) batches jobs) (m : Bytes) :
    RaceFree batches jobs m :=
  raceFree_of_apart (ho.imp_of_mem fun hls hls' hoff =>
    rowBytes_disjoint h.made h.inside (hu _ hls) (hu _ hls') hoff) hkeep m

/-- What is done to each item in turn. -/
def forEach (f : QueryItem → Job w Unit) : List QueryItem → Job w Unit
  | [] => .done ()
  | item::items => (f item).andThen (forEach f items)

/-- A loop keeps to the rows of its items. -/
theorem keepsTo_forEach {f : QueryItem → Job w Unit} (hf : ∀ item,(f item).KeepsTo [item.loc])
    {items : List QueryItem} {ls : List RowLoc} (h : ∀ item∈items,item.loc∈ls) :
    (forEach f items).KeepsTo ls := by
  induction items with
  | nil => trivial
  | cons item items ih =>
    refine Job.KeepsTo.andThen ((hf item).mono fun l hl => ?_) (ih fun i hi => h i (List.mem_cons_of_mem _ hi))
    rw [List.mem_singleton.mp hl]
    exact h item List.mem_cons_self

/-- A loop over two lists is one loop after the other. -/
theorem run_forEach_append (f : QueryItem → Job w Unit) (a b : List QueryItem) (m : Bytes) :
    ((forEach f (a++b)).run m).2=((forEach f b).run ((forEach f a).run m).2).2 := by
  induction a generalizing m with
  | nil => rfl
  | cons item a ih =>
    rw [List.cons_append,forEach,forEach,Job.run_andThen,Job.run_andThen]
    exact ih _

/-- Item by item in each part, one part after the other, is item by item. -/
theorem run_parts (f : QueryItem → Job w Unit) (parts : List (List QueryItem)) (m : Bytes) :
    (parts.map (forEach f)).foldl (fun m job => (job.run m).2) m=((forEach f parts.flatten).run m).2 := by
  induction parts generalizing m with
  | nil => rfl
  | cons part parts ih =>
    rw [List.map_cons,List.foldl_cons,ih,List.flatten_cons,run_forEach_append]

/-- What comes of jobs at work at the same time, in each order that lets all finish. -/
def EndsAs (jobs : List (Job w Unit)) (m m' : Bytes) : Prop :=
  (∃ picks,AllDone (interleaved jobs m picks).1) ∧
    ∀ picks,AllDone (interleaved jobs m picks).1 → (interleaved jobs m picks).2=m'

/-- Jobs that take the items of some rows each. -/
theorem Ready.endsAs (h : Ready q accessor w) {f : QueryItem → Job w Unit}
    (hf : ∀ item,(f item).KeepsTo [item.loc]) {batches : List (List RowLoc)}
    (hu : ∀ ls∈batches,InUse w ls) (ho : batches.Pairwise OffBytes) (m : Bytes) :
    EndsAs ((batches.map (itemsAt q w accessor.ticks)).map (forEach f)) m
      ((forEach f (batches.map (itemsAt q w accessor.ticks)).flatten).run m).2 := by
  have hkeep : List.Forall₂ (fun ls job => job.KeepsTo ls) batches
      ((batches.map (itemsAt q w accessor.ticks)).map (forEach f)) := by
    rw [List.map_map,List.forall₂_map_right_iff,List.forall₂_same]
    intro ls _
    refine keepsTo_forEach hf fun item hi => ?_
    have hloc : item.loc∈(itemsAt q w accessor.ticks ls).map QueryItem.loc := List.mem_map_of_mem hi
    rw [itemsAt_loc] at hloc
    exact List.mem_of_mem_filter hloc
  have hfree := h.raceFree hu ho hkeep m
  refine ⟨hfree.finish,fun picks hend => (hfree.sequence picks hend).trans ?_⟩
  exact run_parts f _ m

variable [Inhabited V]

/-- A query that is prepared in a world that a run reaches. -/
theorem ready_run {runtime : Runtime} {as : List (Action V)}
    (h : Along Action.step (Proper False) as (World.new runtime))
    (hw : runAll Action.step as (World.new runtime)=w)
    (ha : querySrcAccess q lastRunTick w=some accessor) : Ready q accessor w := by
  have hinv : RunInv False w := hw ▸ runInv_run (runInv_new False runtime) h
  have hstore := hinv.inv.store
  obtain ⟨idxs,hidx,hexact⟩ := accessor_exact ⟨hstore.registry,hinv.inv.queries⟩ ha
  have hfound : (accessor.archIndices w).getD []=idxs := by rw [hidx,Option.getD_some]
  have hnodup : ((accessor.archIndices w).getD []).Nodup := by
    rw [hfound]
    exact hexact.sorted.imp Nat.ne_of_lt
  refine ⟨hw ▸ allMade_run runtime as,?_,?_,tidy_archesSpans (nodup_matched hnodup)⟩
  · intro l spec hv hr
    obtain ⟨⟨e,x⟩,hr⟩ := Option.isSome_iff_exists.mp hr
    obtain ⟨spec',c,hv',hc,hlt,-⟩ := row_eq_some hr
    cases hv.symm.trans hv'
    have hsound := hstore.sound l.archId spec hv
    exact hlt.trans_le ((hsound.len_le _ c hc).trans_eq (hsound.maxLen _ c hc))
  · intro i hi
    have hin : i∈matched q accessor w := hi
    rw [mem_matched,hfound] at hin
    obtain ⟨spec,hv,-⟩ := (hexact.mem i).mp hin.2
    rw [hv]
    rfl

/-- The jobs of a query run in parallel over its batches do not race: in every world that a run
reaches, for a query as it is prepared there, for jobs that keep to the rows they are handed. -/
theorem batches_race_free (runtime : Runtime) (as : List (Action V))
    (h : Along Action.step (Proper False) as (World.new runtime))
    (hw : runAll Action.step as (World.new runtime)=w)
    (ha : querySrcAccess q lastRunTick w=some accessor) (hn : minBatchAmount ≤ n) :
    ∃ first starts batches,(ParWalker.new q accessor w).firstBatch w n=.ok first ∧
      Exhausts ((ParWalker.new q accessor w).batchStarts w n) first starts ∧
      List.Forall₂ (fun ls start => ∃ next,(ParWalker.new q accessor w).cutBatch w
        (fun piece => .ok piece.places) n n start []=.ok (ls,next)) batches starts ∧
      ∀ {α : Type} (jobs : List (Job w α)),List.Forall₂ (fun ls job => job.KeepsTo ls) batches jobs →
        ∀ m,RaceFree batches jobs m := by
  have hready := ready_run h hw ha
  obtain ⟨bs,hb⟩ := exists_batches (by decide : 0 < minBatchAmount) hn hready.tidy
  obtain ⟨first,hfirst,hat,-⟩ := firstStart_spec hready.walker
  obtain ⟨starts,hstarts,hof⟩ := batchStarts_exhaust hready.walker hat hready.tidy hb
  refine ⟨first,starts,bs.map places,(if_pos hn).trans hfirst,hstarts,?_,fun jobs hkeep m => ?_⟩
  · rw [List.forall₂_map_left_iff]
    exact hof.imp fun b pos hpos => cutBatch_places hready.walker hpos
  · refine hready.raceFree (fun ls hls => ?_) ?_ hkeep m
    · obtain ⟨b,hin,rfl⟩ := List.mem_map.mp hls
      exact inUse_batch hb hready.tidy hin
    · rw [List.pairwise_map]
      exact offBytes_batches hb hready.tidy

/-- A part of a row, where its archetype has it. -/
def partAt (w : World V) (l : RowLoc) (r : Region) : Option (Part w) :=
  match hv : w.archetypes.valueAt l.archId with
  | none => none
  | some spec => match hs : regionStart spec.layout r with
    | none => none
    | some start => some ⟨l,r,spec,start,hv,hs⟩

/-- Read a part of each row and write it back. -/
def Job.touch (w : World V) (r : Region) : List RowLoc → Job w Unit
  | [] => .done ()
  | l::ls => match partAt w l r with
    | none => Job.touch w r ls
    | some p => .read p fun x => .write p x (Job.touch w r ls)

omit [Inhabited V] in
/-- The part of a row belongs to that row. -/
theorem partAt_loc {l : RowLoc} {r : Region} {p : Part w} (h : partAt w l r=some p) : p.loc=l := by
  unfold partAt at h
  split at h
  · cases h
  · split at h
    · cases h
    · cases h
      rfl

omit [Inhabited V] in
/-- Touching rows keeps to them. -/
theorem keepsTo_touch (r : Region) {ls all : List RowLoc} (h : ls ⊆ all) : (Job.touch w r ls).KeepsTo all := by
  induction ls with
  | nil => trivial
  | cons l ls ih =>
    have hrest := ih fun l hl => h (List.mem_cons_of_mem _ hl)
    unfold Job.touch
    split
    · exact hrest
    · rename_i p hp
      have hloc : p.loc∈all := partAt_loc hp ▸ h List.mem_cons_self
      exact ⟨hloc,fun _ => ⟨hloc,hrest⟩⟩

set_option maxRecDepth 20000 in
/-- Jobs that touch the rows of two archetypes. -/
theorem batches_race_free_twoArchetypes : ∃ w : World ℕ,runAll Action.step twoArchetypes (World.new inOrder)=w ∧
    ∃ first starts batches,(ParWalker.new (.column (.ref (plain 0))) ⟨0,⟨0,1⟩⟩ w).firstBatch w 8=.ok first ∧
      Exhausts ((ParWalker.new (.column (.ref (plain 0))) ⟨0,⟨0,1⟩⟩ w).batchStarts w 8) first starts ∧
      ∀ m,RaceFree batches (batches.map (Job.touch w (.column (plainType 0)))) m := by
  have haccess : querySrcAccess (.column (.ref (plain 0))) 0
      (runAll Action.step twoArchetypes (World.new inOrder))=some ⟨0,⟨0,1⟩⟩ := by decide +kernel
  obtain ⟨first,starts,batches,hfirst,hstarts,-,hfree⟩ := batches_race_free inOrder twoArchetypes
    (proper_of_noDestroy inOrder (by decide)) rfl haccess (le_refl 8)
  refine ⟨_,rfl,first,starts,batches,hfirst,hstarts,hfree _ ?_⟩
  rw [List.forall₂_map_right_iff,List.forall₂_same]
  exact fun ls _ => keepsTo_touch _ (List.Subset.refl ls)

/-- Fewer spans have fewer places. -/
theorem places_subset {b spans : List (Span (ℕ×ℕ))} (h : b ⊆ spans) : places b ⊆ places spans := by
  refine List.map_subset place fun p hp => ?_
  obtain ⟨s,hs,hp⟩ := List.mem_flatMap.mp hp
  exact List.mem_flatMap.mpr ⟨s,h hs,hp⟩

omit [Inhabited V] in
/-- Rows of two chunks share no byte of enable bits. -/
theorem offBytes_chunks {spans : List (Span (ℕ×ℕ))} (htidy : Tidy minBatchAmount spans) :
    spans.Pairwise fun s s' => OffBytes (places [s]) (places [s']) := by
  have hkey : ∀ {s : Span (ℕ×ℕ)} {l : RowLoc},l∈places [s] → (l.archId,l.indices.chunkIdx)=s.key := by
    intro s l hl
    obtain ⟨p,hp,rfl⟩ := List.mem_map.mp hl
    obtain ⟨s',hs',hp⟩ := List.mem_flatMap.mp hp
    obtain ⟨row,-,rfl⟩ := List.mem_map.mp hp
    rw [List.mem_singleton.mp hs']
    rfl
  refine (List.pairwise_map.mp htidy.keys).imp fun {s s'} hne l hl l' hl' hi hk => ?_
  exact (hne ((hkey hl).symm.trans ((Prod.ext hi hk : (_,_)=(_,_)).trans (hkey hl')))).elim

/-- `par_for_each_batch` and `par_for_each_chunk`, where `iter` hands out some items. The
filters of a row are read before its item is handed out, so the work on other items
cannot change what they let pass. -/
structure ForEachAgrees (q : QueryShape Component) (accessor : QuerySpecAccessor) (w : World V) (n : ℕ)
    (f : QueryItem → Job w Unit) (items : List QueryItem) : Prop where
  /-- The items are those that `iter` hands out. -/
  iter : Exhausts (QueryIter.next q w) (QueryIter.new q accessor w) items
  /-- One job a batch, whatever their interleaving, ends as the loop over `iter` does. -/
  batches : ∃ first starts parts,(ParWalker.new q accessor w).firstBatch w n=.ok first ∧
    Exhausts ((ParWalker.new q accessor w).batchStarts w n) first starts ∧
    List.Forall₂ (fun part start => (ParWalker.new q accessor w).walkBatch q w start n=.ok part) parts starts ∧
    ∀ m,EndsAs (parts.map (forEach f)) m ((forEach f items).run m).2
  /-- One job a chunk, whatever their interleaving, ends as the loop over `iter` does. -/
  chunks : ∃ first starts parts,(ParWalker.new q accessor w).nextNonEmpty w 0 0=.ok first ∧
    Exhausts ((ParWalker.new q accessor w).chunkStarts w) first starts ∧
    List.Forall₂ (fun part start => (ParWalker.new q accessor w).walkChunk q w start=.ok part) parts starts ∧
    ∀ m,EndsAs (parts.map (forEach f)) m ((forEach f items).run m).2

omit [Inhabited V] in
/-- The matched archetypes of a prepared query resolve its shape. -/
theorem matched_enters (h : RunInv True w) (hcore : CoreInv w) (hq : WellTyped q)
    (ha : querySrcAccess q lastRunTick w=some accessor) :
    ∀ i∈matched q accessor w,∃ a,enterArch q w i=.ok a := by
  intro i hi
  obtain ⟨idxs,hidx,hexact⟩ := accessor_exact hcore ha
  have hin := (mem_matched.mp hi).2
  rw [hidx,Option.getD_some] at hin
  obtain ⟨spec,hv,hm⟩ := (hexact.mem i).mp hin
  obtain ⟨state,-,he⟩ := enterArch_matched h.inv.store.registry hq hv hm
  exact ⟨_,he⟩

omit [Inhabited V] in
/-- `iter` hands out the items of the matched archetypes. -/
theorem iter_matched (henter : ∀ i∈matched q accessor w,∃ a,enterArch q w i=.ok a) :
    Exhausts (QueryIter.next q w) (QueryIter.new q accessor w)
      (itemsAt q w accessor.ticks (places (World.archesSpans w (matched q accessor w)))) := by
  have hcursor : CursorOk q w (QueryIter.new q accessor w).cursor := by
    constructor
    · intro a h
      cases h
    · exact henter
  have hrows := queryIter_exhausts (resolved_new q accessor w) hcursor
  rw [upcoming_new,←places_archesSpans] at hrows
  exact hrows

omit [Inhabited V] in
/-- Jobs that take the items of some spans each, and all the items together. -/
theorem Ready.endsAs_parts (h : Ready q accessor w) {f : QueryItem → Job w Unit}
    (hf : ∀ item,(f item).KeepsTo [item.loc]) {parts : List (List (Span (ℕ×ℕ)))} {ls : List RowLoc}
    (hu : ∀ part∈parts,InUse w (places part))
    (ho : parts.Pairwise fun part part' => OffBytes (places part) (places part'))
    (hall : (parts.map fun part => itemsAt q w accessor.ticks (places part)).flatten=
      itemsAt q w accessor.ticks ls) (m : Bytes) :
    EndsAs ((parts.map fun part => itemsAt q w accessor.ticks (places part)).map (forEach f)) m
      ((forEach f (itemsAt q w accessor.ticks ls)).run m).2 := by
  have hu' : ∀ ls∈parts.map places,InUse w ls := by
    intro ls hls
    obtain ⟨part,hpart,rfl⟩ := List.mem_map.mp hls
    exact hu part hpart
  have hrun := h.endsAs hf hu' (List.pairwise_map.mpr ho) m
  have hmap : (parts.map places).map (itemsAt q w accessor.ticks)=
      parts.map fun part => itemsAt q w accessor.ticks (places part) := List.map_map
  rw [hmap,hall] at hrun
  exact hrun

omit [Inhabited V] in
/-- The rows of a chunk are in use. -/
theorem inUse_chunk {indices : List ℕ} {s : Span (ℕ×ℕ)} (hs : s∈World.archesSpans w indices) :
    InUse w (places [s]) := fun _ hl =>
  (mem_places.mp (places_subset (List.cons_subset.mpr ⟨hs,List.nil_subset _⟩) hl)).2

/-- The bytes that a query leaves do not depend on an executor: in every world that a run
reaches, for what is done to an item with the row of that item alone, all orders in which
the batches or the chunks can be worked off end as `iter` on one thread. -/
theorem par_for_each_agrees (runtime : Runtime) (as : List (Action V))
    (h : Along Action.step (Proper True) as (World.new runtime))
    (hw : runAll Action.step as (World.new runtime)=w) (hq : WellTyped q)
    (ha : querySrcAccess q lastRunTick w=some accessor) (hn : minBatchAmount ≤ n)
    (f : QueryItem → Job w Unit) (hf : ∀ item,(f item).KeepsTo [item.loc]) :
    ∃ items,ForEachAgrees q accessor w n f items := by
  have hready := ready_run (h.mono fun a t hp => ⟨False.elim,hp.2⟩) hw ha
  have henter : ∀ i∈matched q accessor w,∃ a,enterArch q w i=.ok a :=
    matched_enters (hw ▸ runInv_run (runInv_new True runtime) h) (hw ▸ coreInv_run runtime as) hq ha
  obtain ⟨first,hfirst,hat,hrow⟩ := firstStart_spec hready.walker
  refine ⟨_,iter_matched henter,?_,?_⟩
  · obtain ⟨bs,hb⟩ := exists_batches (by decide : 0 < minBatchAmount) hn hready.tidy
    obtain ⟨starts,hstarts,hof⟩ := batchStarts_exhaust hready.walker hat hready.tidy hb
    refine ⟨first,starts,_,(if_pos hn).trans hfirst,hstarts,
      List.forall₂_map_left_iff.mpr (hof.imp fun b pos hpos => walkBatch_items henter hready.walker hpos),
      hready.endsAs_parts hf (fun b hin => inUse_batch hb hready.tidy hin) (offBytes_batches hb hready.tidy) ?_⟩
    rw [itemsAt_batches,hb.rows hready.tidy]
    rfl
  · obtain ⟨starts,hstarts,hof⟩ := chunkStarts_exhaust hready.walker hat hrow
    have hu : ∀ part∈(World.archesSpans w (matched q accessor w)).map fun s => [s],InUse w (places part) := by
      intro part hpart
      obtain ⟨s,hs,rfl⟩ := List.mem_map.mp hpart
      exact inUse_chunk hs
    have hall : (((World.archesSpans w (matched q accessor w)).map fun s => [s]).map fun part =>
        itemsAt q w accessor.ticks (places part)).flatten=
          itemsAt q w accessor.ticks (places (World.archesSpans w (matched q accessor w))) := by
      rw [List.map_map,itemsAt_flatMap]
      rfl
    have hends := hready.endsAs_parts hf hu (List.pairwise_map.mpr (offBytes_chunks hready.tidy)) hall
    rw [List.map_map (l:=World.archesSpans w (matched q accessor w))] at hends
    exact ⟨first,starts,_,hfirst,hstarts,
      List.forall₂_map_left_iff.mpr (hof.imp fun s pos hpos => walkChunk_items henter hready.walker hpos),hends⟩

set_option maxRecDepth 20000 in
/-- A closure that touches its row, over two archetypes. -/
theorem par_for_each_agrees_twoArchetypes : ∃ w : World ℕ,runAll Action.step twoArchetypes (World.new inOrder)=w ∧
    ∃ items,ForEachAgrees (.column (.ref (plain 0))) ⟨0,⟨0,1⟩⟩ w 8
      (fun item => Job.touch w (.column (plainType 0)) [item.loc]) items := by
  have haccess : querySrcAccess (.column (.ref (plain 0))) 0
      (runAll Action.step twoArchetypes (World.new inOrder))=some ⟨0,⟨0,1⟩⟩ := by decide +kernel
  have hnone : Along Action.step (Proper False) twoArchetypes (World.new inOrder) :=
    proper_of_noDestroy inOrder (by decide)
  have hproper : Along Action.step (Proper True) twoArchetypes (World.new inOrder) := by
    refine ⟨⟨fun _ T hT => ?_,hnone.1.2⟩,⟨fun _ T hT => ?_,hnone.2.1.2⟩,⟨fun _ T hT => ?_,hnone.2.2.1.2⟩,
      ⟨fun _ c hc => ?_,hnone.2.2.2.1.2⟩,trivial⟩
    · cases hT
      rfl
    · cases hT
      rfl
    · cases hT
      rfl
    · cases List.mem_singleton.mp hc
      rfl
  have htyped : WellTyped (.column (.ref (plain 0))) := by
    refine ⟨fun c hc => ?_,rfl⟩
    cases List.mem_singleton.mp hc
    rfl
  have hagrees : ∀ w : World ℕ,runAll Action.step twoArchetypes (World.new inOrder)=w →
      querySrcAccess (.column (.ref (plain 0))) 0 w=some ⟨0,⟨0,1⟩⟩ →
      ∃ items,ForEachAgrees (.column (.ref (plain 0))) ⟨0,⟨0,1⟩⟩ w 8
        (fun item => Job.touch w (.column (plainType 0)) [item.loc]) items := fun w hw ha =>
    par_for_each_agrees inOrder twoArchetypes hproper hw htyped ha (le_refl 8) _
      fun _ => keepsTo_touch _ (List.Subset.refl _)
  exact ⟨_,rfl,hagrees _ rfl haccess⟩

end Batches

end XynokEcs.BatchRaces
