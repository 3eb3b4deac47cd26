import XynokEcs.RowWrites

/-!
# The chunks of one archetype

An archetype keeps its chunks and a queue of those with room for another row.
An operation takes the first chunk with room or opens a new one, writes or
moves a row, and queues the chunk again while it has room. The queue is exact
between operations, and each operation is one change of the table of rows.
-/

namespace XynokEcs.ArchetypeStore

open ComponentTypes EntityHandle SequenceValueMap ChunkLayouts FaultingState RowDirectory ChunkRows
  RowWrites

/-- The chunks of one archetype. -/
structure Archetype (V : Type) where
  /-- The chunks in the order they were opened, empty ones included. -/
  chunks : List (Chunk V)
  /-- The chunks with room, first in first out. -/
  freeChunks : List ℕ
  /-- The same chunks as a set. -/
  freeChunksStored : Finset ℕ
  /-- Whether there is room for one entity only. -/
  isSingleton : Bool

/-- Where a row sits inside an archetype. -/
structure EntityInChunkIndices where
  /-- Which chunk of the archetype. -/
  chunkIdx : ℕ
  /-- Which row of the chunk. -/
  idxInChunk : ℕ
deriving DecidableEq

variable {V : Type}

/-- `Archetype::default`. -/
def Archetype.regular : Archetype V := ⟨[],[],∅,false⟩

/-- `Archetype::singleton`, an archetype that holds at most one entity. -/
def Archetype.singleton : Archetype V := ⟨[],[],∅,true⟩

/-- `false` only for a singleton that already holds its entity. -/
def Archetype.canTakeARow (a : Archetype V) : Bool :=
  !a.isSingleton || a.chunks.isEmpty || !a.freeChunks.isEmpty

/-- `take_a_free_chunk_idx`: the first chunk with room, or a new one. -/
def takeAFreeChunkIdx [Inhabited V] (layout : ChunkLayout) : Faulting (Archetype V) Fault ℕ :=
  fun a => match a.freeChunks with
    | i::rest =>
      (.ok i,{ a with freeChunks := rest, freeChunksStored := a.freeChunksStored.erase i })
    | [] => (.ok a.chunks.length,{ a with chunks := a.chunks++[Chunk.new layout] })

/-- `cache_free_chunk`: queue a chunk unless it is queued already. -/
def Archetype.cacheFreeChunk (a : Archetype V) (i : ℕ) : Archetype V :=
  if i∈a.freeChunksStored then a
  else { a with
    freeChunks := a.freeChunks++[i]
    freeChunksStored := insert i a.freeChunksStored }

/-- Queue a chunk that was written to, unless it is full. -/
def Archetype.cacheUnlessFull (a : Archetype V) (i : ℕ) : Archetype V :=
  match a.chunks[i]? with
  | some c => if c.isFull then a else a.cacheFreeChunk i
  | none => a

/-- Work on one chunk, reached without a bounds check. -/
def onChunk {α : Type} (i : ℕ) (x : Faulting (Chunk V) Fault α) : Faulting (Archetype V) Fault α :=
  focus (fun a => a.chunks[i]?) (fun c a => { a with chunks := a.chunks.set i c })
    .undefinedBehaviour x

/-- `push`: write a bundle to a chunk with room and count the row in. -/
def push [Inhabited V] (layout : ChunkLayout) (e : Entity) (val : Bundle V) (tick : ChangedTick) :
    Faulting (Archetype V) Fault EntityInChunkIndices := do
  orErr (validateArchetypeWritable val.ty layout)
  let freeChunkIdx ← takeAFreeChunkIdx layout
  let idxInChunk ← onChunk freeChunkIdx (do
    let chunk ← getState
    forItems (writeAt layout chunk.len tick) val.items
    modifyState (fun c => (c.setEntity chunk.len e).increaseLen)
    return chunk.len)
  modifyState (fun a => a.cacheUnlessFull freeChunkIdx)
  return ⟨freeChunkIdx,idxInChunk⟩

/-- `remove_at`: drop a row and queue its chunk. -/
def removeAt (layout : ChunkLayout) (chunkIdx idx : ℕ) :
    Faulting (Archetype V) Fault (Option SwappedRow) := do
  let a ← getState
  if a.chunks.length≤chunkIdx then
    fault (.err (.chunkIdxIsNotInRange chunkIdx a.chunks.length))
  else
    let swappedRow ← onChunk chunkIdx (do
      let swappedRow ← swapRemoveAt layout idx
      modifyState Chunk.decreaseLen
      return swappedRow)
    modifyState (fun a => a.cacheFreeChunk chunkIdx)
    return swappedRow

/-- `replace_at`: overwrite the components of a row in place. -/
def replaceRowAt (layout : ChunkLayout) (chunkIdx idxInChunk : ℕ) (val : Bundle V)
    (tick : ChangedTick) : Faulting (Archetype V) Fault Unit := do
  orErr (validateArchetypeWritable val.ty layout)
  onChunk chunkIdx (forItems (replaceAt layout idxInChunk tick) val.items)

/-- The archetype a row moves to and the one it leaves. -/
structure ArchetypePair (V : Type) where
  /-- The archetype that gains the row. -/
  dst : Archetype V
  /-- The archetype that loses the row. -/
  src : Archetype V

/-- Work on the destination. -/
def onDst {α : Type} (x : Faulting (Archetype V) Fault α) : Faulting (ArchetypePair V) Fault α :=
  focus (fun p => some p.dst) (fun a p => { p with dst := a }) .undefinedBehaviour x

/-- Work on the source. -/
def onSrc {α : Type} (x : Faulting (Archetype V) Fault α) : Faulting (ArchetypePair V) Fault α :=
  focus (fun p => some p.src) (fun a p => { p with src := a }) .undefinedBehaviour x

/-- Where a row ended up, and the row that filled its hole. -/
structure ResultTake where
  /-- Where the row is now. -/
  newIndicesTook : EntityInChunkIndices
  /-- The last row of the source chunk, if it had to fill the hole. -/
  swappedE : Option SwappedRow

/-- What `take_and_write_from` and `take_and_remove_from` share: take a chunk
with room, move the row there, write to it, count it in and out, and queue both
chunks. -/
def takeRowFrom [Inhabited V] (srcE : EntityInChunkIndices) (dstLayout : ChunkLayout)
    (migration : MigrationPlan) (write : ℕ → Faulting (Chunk V) Fault Unit) :
    Faulting (ArchetypePair V) Fault ResultTake := do
  let freeChunkIdx ← onDst (takeAFreeChunkIdx dstLayout)
  let pair ← getState
  match pair.dst.chunks[freeChunkIdx]?,pair.src.chunks[srcE.chunkIdx]? with
  | some chunk,some srcChunk =>
    let taken := takeFrom chunk srcChunk srcE.idxInChunk chunk.len migration
    modifyState (fun p => {
      dst := { p.dst with chunks := p.dst.chunks.set freeChunkIdx taken.2.1 }
      src := { p.src with chunks := p.src.chunks.set srcE.chunkIdx taken.2.2 } })
    onDst (onChunk freeChunkIdx (do
      write chunk.len
      modifyState Chunk.increaseLen))
    onSrc (onChunk srcE.chunkIdx (modifyState Chunk.decreaseLen))
    modifyState (fun p => {
      dst := p.dst.cacheUnlessFull freeChunkIdx
      src := p.src.cacheFreeChunk srcE.chunkIdx })
    return ⟨⟨freeChunkIdx,chunk.len⟩,taken.1⟩
  | _,_ => fault .undefinedBehaviour

/-- `take_and_write_from`: move a row here and write a bundle to it. -/
def takeAndWriteFrom [Inhabited V] (srcE : EntityInChunkIndices)
    (srcLayout dstLayout : ChunkLayout) (migration : MigrationPlan) (val : Bundle V)
    (tick : ChangedTick) : Faulting (ArchetypePair V) Fault ResultTake := do
  orErr (validateArchetypeWritable val.ty dstLayout)
  takeRowFrom srcE dstLayout migration fun idxInChunk =>
    forItems (writeOrReplaceAt srcLayout dstLayout idxInChunk tick) val.items

/-- `take_and_remove_from`: read the values of an archetype type out of a row,
then move the row here. -/
def takeAndRemoveFrom [Inhabited V] (T : TArchetype) (srcE : EntityInChunkIndices)
    (srcLayout dstLayout : ChunkLayout) (migration : MigrationPlan) :
    Faulting (ArchetypePair V) Fault (ResultTake×Bundle V) := do
  orErr (validateArchetypeTakeable T srcLayout)
  let taken ← onSrc (onChunk srcE.chunkIdx (takeBundle srcLayout srcE.idxInChunk T))
  let result ← takeRowFrom srcE dstLayout migration fun _ => return ()
  return (result,taken)

/-- The table an archetype stands for. -/
def Archetype.row (layout : ChunkLayout) (a : Archetype V) (ix : EntityInChunkIndices) :
    Option (Entity×RowData V) :=
  (a.chunks[ix.chunkIdx]?).bind fun c => c.row layout ix.idxInChunk

/-- The chunks are sized by the layout, and the queue holds exactly the chunks
with room, each once; a busy chunk has been taken out of it. -/
structure Sound (layout : ChunkLayout) (a : Archetype V) (busy : Option ℕ) : Prop where
  /-- Each chunk has the capacity the layout gives. -/
  maxLen : ∀ (i : ℕ) (c : Chunk V),a.chunks[i]?=some c → c.maxLen=layout.maxLen
  /-- No chunk is over its capacity. -/
  len_le : ∀ (i : ℕ) (c : Chunk V),a.chunks[i]?=some c → c.len≤c.maxLen
  /-- No chunk is queued twice. -/
  nodup : a.freeChunks.Nodup
  /-- The set beside the queue names the same chunks. -/
  stored : ∀ i,i∈a.freeChunksStored ↔ i∈a.freeChunks
  /-- What is queued has room, and what has room is queued unless it is busy. -/
  free_iff : ∀ i,i∈a.freeChunks ↔
    busy≠some i ∧ ∃ c : Chunk V,a.chunks[i]?=some c ∧ c.len<c.maxLen

/-- A new archetype is sound. -/
theorem sound_regular (layout : ChunkLayout) : Sound layout (Archetype.regular : Archetype V) none where
  maxLen := by simp [Archetype.regular]
  len_le := by simp [Archetype.regular]
  nodup := List.nodup_nil
  stored := by simp [Archetype.regular]
  free_iff := by simp [Archetype.regular]

/-- So is that of a singleton. -/
theorem sound_singleton (layout : ChunkLayout) :
    Sound layout (Archetype.singleton : Archetype V) none where
  maxLen := by simp [Archetype.singleton]
  len_le := by simp [Archetype.singleton]
  nodup := List.nodup_nil
  stored := by simp [Archetype.singleton]
  free_iff := by simp [Archetype.singleton]

section Rows

variable {layout : ChunkLayout} {a : Archetype V} {i : ℕ} {c c' : Chunk V}

/-- Replacing a chunk replaces its rows. -/
theorem row_set (h : a.chunks[i]?=some c) (c' : Chunk V) (ix : EntityInChunkIndices) :
    Archetype.row layout { a with chunks := a.chunks.set i c' } ix=
      if ix.chunkIdx=i then c'.row layout ix.idxInChunk else a.row layout ix := by
  have hi : i<a.chunks.length := (List.getElem?_eq_some_iff.mp h).1
  simp only [Archetype.row,List.getElem?_set]
  by_cases hx : ix.chunkIdx=i
  · rw [if_pos hx,if_pos hx.symm,if_pos (hx ▸ hi),Option.bind_some]
  · rw [if_neg hx,if_neg (Ne.symm hx)]

/-- A change of one row of a chunk is that change of the archetype's table. -/
theorem row_set_update (h : a.chunks[i]?=some c) {r : ℕ} {x : Option (Entity×RowData V)}
    (hc : c'.row layout=Function.update (c.row layout) r x) :
    Archetype.row layout { a with chunks := a.chunks.set i c' }=
      Function.update (a.row layout) ⟨i,r⟩ x := by
  funext ix
  rw [row_set h,hc,Function.update_apply,Function.update_apply]
  by_cases hx : ix.chunkIdx=i
  · rw [if_pos hx]
    by_cases hr : ix.idxInChunk=r
    · rw [if_pos hr,if_pos (by cases ix; simp only at hx hr; rw [hx,hr])]
    · rw [if_neg hr,if_neg (fun he => hr (congrArg EntityInChunkIndices.idxInChunk he)),
        Archetype.row,hx,h,Option.bind_some]
  · rw [if_neg hx,if_neg (fun he => hx (congrArg EntityInChunkIndices.chunkIdx he))]

/-- Moving the last row of a chunk into a hole, on the archetype's table. -/
theorem row_set_remove (h : a.chunks[i]?=some c) {r m : ℕ}
    (hc : c'.row layout=Function.update (Function.update (c.row layout) r (c.row layout m)) m none) :
    Archetype.row layout { a with chunks := a.chunks.set i c' }=
      Function.update (Function.update (a.row layout) ⟨i,r⟩ (a.row layout ⟨i,m⟩)) ⟨i,m⟩ none := by
  have hm : a.row layout ⟨i,m⟩=c.row layout m := by rw [Archetype.row,h,Option.bind_some]
  funext ix
  rw [row_set h,hc,hm]
  simp only [Function.update_apply]
  by_cases hx : ix.chunkIdx=i
  · have hrow : a.row layout ix=c.row layout ix.idxInChunk := by
      rw [Archetype.row,hx,h,Option.bind_some]
    have hiff : ∀ k,ix=⟨i,k⟩ ↔ ix.idxInChunk=k := by
      intro k
      cases ix
      simp only [EntityInChunkIndices.mk.injEq] at hx ⊢
      simp only [hx,true_and]
    simp only [if_pos hx,hiff,hrow]
  · have hne : ∀ k,ix≠⟨i,k⟩ := fun k he => hx (congrArg EntityInChunkIndices.chunkIdx he)
    rw [if_neg hx,if_neg (hne m),if_neg (hne r)]

/-- The rows in use are those before the length of their chunk. -/
theorem row_lt (h : a.chunks[i]?=some c) (r : ℕ) :
    (a.row layout ⟨i,r⟩).isSome ↔ r<c.len := by
  rw [Archetype.row,h,Option.bind_some,Chunk.row]
  split <;> simp_all

end Rows

section Queue

variable {layout : ChunkLayout} {a : Archetype V} {i : ℕ}

/-- Queueing a chunk changes no chunk and no row. -/
@[simp] theorem chunks_cacheFreeChunk : (a.cacheFreeChunk i).chunks=a.chunks := by
  unfold Archetype.cacheFreeChunk
  split <;> rfl

/-- Queueing a chunk keeps the kind. -/
@[simp] theorem isSingleton_cacheFreeChunk : (a.cacheFreeChunk i).isSingleton=a.isSingleton := by
  unfold Archetype.cacheFreeChunk
  split <;> rfl

/-- Queueing a chunk with room keeps the chunks. -/
@[simp] theorem chunks_cacheUnlessFull : (a.cacheUnlessFull i).chunks=a.chunks := by
  unfold Archetype.cacheUnlessFull
  split
  · split
    · rfl
    · exact chunks_cacheFreeChunk
  · rfl

/-- It keeps the kind. -/
@[simp] theorem isSingleton_cacheUnlessFull :
    (a.cacheUnlessFull i).isSingleton=a.isSingleton := by
  unfold Archetype.cacheUnlessFull
  split
  · split
    · rfl
    · exact isSingleton_cacheFreeChunk
  · rfl

/-- Rows are read off the chunks. -/
theorem row_congr {b : Archetype V} (h : a.chunks=b.chunks) : a.row layout=b.row layout := by
  funext ix
  rw [Archetype.row,Archetype.row,h]

/-- Queueing a chunk with room that is not queued, or is queued already, leaves
the queue exact. -/
theorem sound_cacheFreeChunk {busy : Option ℕ} {c : Chunk V} (h : Sound layout a busy)
    (hb : busy=none ∨ busy=some i) (hc : a.chunks[i]?=some c) (hroom : c.len<c.maxLen) :
    Sound layout (a.cacheFreeChunk i) none := by
  unfold Archetype.cacheFreeChunk
  split
  · rename_i hs
    rw [h.stored] at hs
    have hbn : busy=none := by
      rcases hb with hb | hb
      · exact hb
      · exact absurd hb ((h.free_iff i).mp hs).1
    subst hbn
    exact h
  · rename_i hs
    have hni : i∉a.freeChunks := by rwa [←h.stored]
    refine ⟨h.maxLen,h.len_le,?_,?_,?_⟩
    · rw [List.nodup_append]
      refine ⟨h.nodup,List.nodup_singleton i,?_⟩
      intro x hx y hy
      rw [List.mem_singleton] at hy
      rintro rfl
      exact hni (hy ▸ hx)
    · intro j
      rw [Finset.mem_insert,List.mem_append,List.mem_singleton,h.stored]
      exact or_comm
    · intro j
      rw [List.mem_append,List.mem_singleton,h.free_iff]
      constructor
      · rintro (⟨-,hj⟩ | rfl)
        · exact ⟨(Option.some_ne_none j).symm,hj⟩
        · exact ⟨(Option.some_ne_none j).symm,c,hc,hroom⟩
      · rintro ⟨-,hj⟩
        by_cases hij : j=i
        · exact .inr hij
        · refine .inl ⟨?_,hj⟩
          rcases hb with rfl | rfl
          · exact (Option.some_ne_none j).symm
          · intro he
            exact hij (Option.some.inj he).symm

/-- A chunk that was taken goes back to the queue exactly when it has room. -/
theorem sound_cacheUnlessFull {c : Chunk V} (h : Sound layout a (some i))
    (hc : a.chunks[i]?=some c) : Sound layout (a.cacheUnlessFull i) none := by
  unfold Archetype.cacheUnlessFull
  rw [hc]
  dsimp only
  split
  · rename_i hfull
    rw [Chunk.isFull,decide_eq_true_eq] at hfull
    refine ⟨h.maxLen,h.len_le,h.nodup,h.stored,?_⟩
    intro j
    rw [h.free_iff]
    constructor
    · rintro ⟨-,hj⟩
      exact ⟨(Option.some_ne_none j).symm,hj⟩
    · rintro ⟨-,d,hd,hroom⟩
      refine ⟨?_,d,hd,hroom⟩
      rintro hij
      cases hij
      rw [hc] at hd
      cases hd
      omega
  · rename_i hfull
    rw [Chunk.isFull,decide_eq_true_eq] at hfull
    exact sound_cacheFreeChunk h (.inr rfl) hc (by omega)

/-- Replacing a chunk by one of the same size keeps the queue, as far as the
queue knew about the chunk. -/
theorem sound_set {busy busy' : Option ℕ} {c c' : Chunk V} (h : Sound layout a busy)
    (hc : a.chunks[i]?=some c) (hm : c'.maxLen=c.maxLen) (hl : c'.len≤c'.maxLen)
    (hi : i∈a.freeChunks ↔ busy'≠some i ∧ c'.len<c'.maxLen)
    (hother : ∀ j≠i,busy≠some j ↔ busy'≠some j) :
    Sound layout { a with chunks := a.chunks.set i c' } busy' := by
  have hlt : i<a.chunks.length := (List.getElem?_eq_some_iff.mp hc).1
  have hself : (a.chunks.set i c')[i]?=some c' := List.getElem?_set_self hlt
  have hget : ∀ (j : ℕ) (d : Chunk V),(a.chunks.set i c')[j]?=some d →
      d=c' ∨ a.chunks[j]?=some d := by
    intro j d hd
    by_cases hij : i=j
    · subst hij
      rw [hself] at hd
      exact .inl (Option.some.inj hd).symm
    · rw [List.getElem?_set_ne hij] at hd
      exact .inr hd
  refine ⟨?_,?_,h.nodup,h.stored,?_⟩
  · intro j d hd
    rcases hget j d hd with rfl | hd
    · exact hm.trans (h.maxLen i c hc)
    · exact h.maxLen j d hd
  · intro j d hd
    rcases hget j d hd with rfl | hd
    · exact hl
    · exact h.len_le j d hd
  · intro j
    by_cases hij : j=i
    · subst hij
      dsimp only
      rw [hi,hself]
      simp only [Option.some.injEq,exists_eq_left']
    · rw [h.free_iff,hother j hij]
      simp only [List.getElem?_set_ne (Ne.symm hij)]

/-- A chunk that lost a row goes to the queue. -/
theorem sound_shrink {c c' : Chunk V} (h : Sound layout a none) (hc : a.chunks[i]?=some c)
    (hm : c'.maxLen=c.maxLen) (hl : c'.len<c.len) :
    Sound layout (Archetype.cacheFreeChunk { a with chunks := a.chunks.set i c' } i) none := by
  have hlt : i<a.chunks.length := (List.getElem?_eq_some_iff.mp hc).1
  have hself : (a.chunks.set i c')[i]?=some c' := List.getElem?_set_self hlt
  have hle := h.len_le i c hc
  by_cases hfree : i∈a.freeChunks
  · refine sound_cacheFreeChunk ?_ (.inl rfl) hself (by omega)
    refine sound_set h hc hm (by omega) ?_ (fun _ _ => Iff.rfl)
    exact ⟨fun _ => ⟨(Option.some_ne_none i).symm,by omega⟩,fun _ => hfree⟩
  · refine sound_cacheFreeChunk ?_ (.inr rfl) hself (by omega)
    refine sound_set h hc hm (by omega) ?_ ?_
    · exact ⟨fun hf => absurd hf hfree,fun hf => absurd rfl hf.1⟩
    · intro j hj
      exact ⟨fun _ he => hj (Option.some.inj he).symm,fun _ => (Option.some_ne_none j).symm⟩

/-- Taking a chunk with room gives one, and opens a new one only when no chunk
has room. -/
theorem takeAFreeChunkIdx_spec [Inhabited V] (h : Sound layout a none) (hpos : 0<layout.maxLen) :
    ∃ i a₁ c,takeAFreeChunkIdx layout a=(.ok i,a₁) ∧ a₁.chunks[i]?=some c ∧ c.len<c.maxLen ∧
      Sound layout a₁ (some i) ∧ a₁.row layout=a.row layout ∧ a₁.isSingleton=a.isSingleton ∧
      (a₁.chunks=a.chunks ∨
        a.freeChunks=[] ∧ i=a.chunks.length ∧ a₁.chunks=a.chunks++[Chunk.new layout]) := by
  unfold takeAFreeChunkIdx
  cases hf : a.freeChunks with
  | nil =>
    have hnew : (a.chunks++[(Chunk.new layout : Chunk V)])[a.chunks.length]?=
        some (Chunk.new layout) := List.getElem?_concat_length
    have hold : ∀ (j : ℕ) (d : Chunk V),(a.chunks++[Chunk.new layout])[j]?=some d →
        a.chunks[j]?=some d ∨ j=a.chunks.length ∧ d=Chunk.new layout := by
      intro j d hd
      rw [List.getElem?_append] at hd
      split at hd
      · exact .inl hd
      · rw [List.getElem?_singleton] at hd
        split at hd
        · exact .inr ⟨by omega,(Option.some.inj hd).symm⟩
        · cases hd
    refine ⟨_,_,Chunk.new layout,rfl,hnew,hpos,⟨?_,?_,?_,?_,?_⟩,?_,rfl,.inr ⟨rfl,rfl,rfl⟩⟩
    · intro j d hd
      rcases hold j d hd with hd | ⟨-,rfl⟩
      · exact h.maxLen j d hd
      · rfl
    · intro j d hd
      rcases hold j d hd with hd | ⟨-,rfl⟩
      · exact h.len_le j d hd
      · exact Nat.zero_le _
    · exact List.nodup_nil
    · intro j
      rw [h.stored,hf]
    · intro j
      constructor
      · intro hj
        exact absurd hj List.not_mem_nil
      · rintro ⟨hj,d,hd,hroom⟩
        rcases hold j d hd with hd | ⟨rfl,-⟩
        · exact hf ▸ (h.free_iff j).mpr ⟨(Option.some_ne_none j).symm,d,hd,hroom⟩
        · exact absurd rfl hj
    · funext ix
      rw [Archetype.row,Archetype.row]
      dsimp only
      cases hd : a.chunks[ix.chunkIdx]? with
      | some d =>
        have hlt := (List.getElem?_eq_some_iff.mp hd).1
        rw [List.getElem?_append_left hlt,hd]
      | none =>
        cases hn : (a.chunks++[(Chunk.new layout : Chunk V)])[ix.chunkIdx]? with
        | none => rfl
        | some d =>
          rcases hold _ d hn with hd' | ⟨-,rfl⟩
          · rw [hd] at hd'
            cases hd'
          · rw [Option.bind_some,Option.bind_none,Chunk.row,if_neg (by simp only [Chunk.new]; omega)]
  | cons i rest =>
    have hn := h.nodup
    rw [hf,List.nodup_cons] at hn
    obtain ⟨-,c,hc,hroom⟩ := (h.free_iff i).mp (by rw [hf]; exact List.mem_cons_self)
    refine ⟨i,_,c,rfl,hc,hroom,⟨h.maxLen,h.len_le,hn.2,?_,?_⟩,rfl,rfl,.inl rfl⟩
    · intro j
      rw [Finset.mem_erase,h.stored,hf,List.mem_cons]
      constructor
      · rintro ⟨hj,hj' | hj'⟩
        · exact absurd hj' hj
        · exact hj'
      · intro hj
        exact ⟨fun he => hn.1 (he ▸ hj),.inr hj⟩
    · intro j
      have hj := h.free_iff j
      rw [hf,List.mem_cons] at hj
      constructor
      · intro hm
        refine ⟨fun he => hn.1 ?_,(hj.mp (.inr hm)).2⟩
        rw [Option.some.inj he]
        exact hm
      · rintro ⟨hne,hd⟩
        rcases hj.mpr ⟨(Option.some_ne_none j).symm,hd⟩ with rfl | hm
        · exact absurd rfl hne
        · exact hm

/-- What only taking a chunk with room can change: how many chunks there are. -/
def Archetype.shape (a : Archetype V) : Bool×ℕ := (a.isSingleton,a.chunks.length)

/-- A chunk was opened at most because none had room. -/
def Opens (a a' : Archetype V) : Prop :=
  a'.isSingleton=a.isSingleton ∧ (a'.chunks.length=a.chunks.length ∨
    a.freeChunks=[] ∧ a'.chunks.length=a.chunks.length+1)

/-- Only the kind and the number of chunks matter. -/
theorem opens_of_shape {a a' b : Archetype V} (h : Opens a a') (hb : b.shape=a'.shape) :
    Opens a b := by
  obtain ⟨h1,h2⟩ := Prod.mk.inj hb
  unfold Opens
  rw [h1,h2]
  exact h

/-- Taking a chunk with room opens one only if none is queued. -/
theorem takeAFreeChunkIdx_opens [Inhabited V] (layout : ChunkLayout) (a : Archetype V) :
    ∃ i a',takeAFreeChunkIdx layout a=(.ok i,a') ∧ Opens a a' := by
  unfold takeAFreeChunkIdx
  cases hf : a.freeChunks with
  | cons i rest => exact ⟨_,_,rfl,rfl,.inl rfl⟩
  | nil => exact ⟨_,_,rfl,rfl,.inr ⟨hf,List.length_append⟩⟩

end Queue

section Operations

variable {layout : ChunkLayout} {a : Archetype V}

/-- Work on a chunk that is there changes that chunk alone. -/
theorem onChunk_eq {α : Type} {i : ℕ} {c c' : Chunk V} {x : Faulting (Chunk V) Fault α}
    {r : Except Fault α} (h : a.chunks[i]?=some c) (hx : x c=(r,c')) :
    onChunk i x a=(r,{ a with chunks := a.chunks.set i c' }) :=
  focus_eq h hx

/-- A bundle whose storage types are distinct and writable. -/
structure Accepts (layout : ChunkLayout) (val : Bundle V) : Prop where
  /-- No storage type comes twice. -/
  nodup : val.ty.storageTypes.Nodup
  /-- Each component can be written to a chunk of the layout. -/
  writable : ∀ c∈val.ty.components,Writable layout c

/-- The items of a bundle have the types of its tuple. -/
theorem items_types (val : Bundle V) :
    val.items.map (fun p => p.1.storageType)=val.ty.storageTypes := by
  rw [TArchetype.storageTypes,←val.items_fst,List.map_map]
  rfl

/-- The items of a declared tuple are declared. -/
theorem items_declared {val : Bundle V} (h : val.ty.isDeclared=true) : ItemsDeclared val.items := by
  intro p hp
  rw [TArchetype.isDeclared,List.all_eq_true] at h
  refine h p.1 ?_
  rw [←val.items_fst]
  exact List.mem_map_of_mem hp

/-- No two items of an accepted bundle go to one column. -/
theorem Accepts.items_nodup {val : Bundle V} (h : Accepts layout val) :
    (val.items.map (fun p => p.1.storageType)).Nodup := by
  rw [items_types]
  exact h.nodup

/-- Each item of an accepted bundle has a column. -/
theorem Accepts.items_writable {val : Bundle V} (h : Accepts layout val) :
    ∀ p∈val.items,Writable layout p.1 := by
  intro p hp
  refine h.writable p.1 ?_
  rw [←val.items_fst]
  exact List.mem_map_of_mem hp

/-- A refused bundle is refused before anything is touched. -/
theorem push_refused [Inhabited V] {val : Bundle V} {err : XynokEcsError} {e : Entity}
    {tick : ChangedTick} (h : validateArchetypeWritable val.ty layout=.error err) :
    push layout e val tick a=(.error (.err err),a) := by
  unfold push
  rw [h]
  rfl

/-- `push` adds one row at a free place. In a declared layout of exactly the
bundle's components the row holds the bundle. -/
theorem push_spec [Inhabited V] {val : Bundle V} (h : Sound layout a none) (hpos : 0<layout.maxLen)
    (hv : Accepts layout val) (e : Entity) (tick : ChangedTick) :
    ∃ ix a' d,push layout e val tick a=(.ok ix,a') ∧ Sound layout a' none ∧
      a'.isSingleton=a.isSingleton ∧ a.row layout ix=none ∧
      a'.row layout=Function.update (a.row layout) ix (some (e,d)) ∧
      (Declared layout → val.ty.isDeclared=true →
        (∀ t,t∈layout.componentColDescriptors ↔ t∈val.ty.storageTypes) →
        d=mergeRow val.items tick emptyRow) := by
  obtain ⟨i,a₁,c,hrun,hc,hroom,hs,hrow,hsing,-⟩ := takeAFreeChunkIdx_spec h hpos
  obtain ⟨c₁,hwrite,hw⟩ := writeItems_written hv.items_nodup
    hv.items_writable c
  let c₂ := (c₁.setEntity c.len e).increaseLen
  have hchunk : (do
      let chunk ← getState
      forItems (writeAt layout chunk.len tick) val.items
      modifyState (fun c : Chunk V => (c.setEntity chunk.len e).increaseLen)
      return chunk.len : Faulting (Chunk V) Fault ℕ) c=(.ok c.len,c₂) := by
    rw [getState_bind,bind_ok hwrite]
    rfl
  have hlen : c₂.len=c.len+1 := by
    change c₁.len+1=_
    rw [hw.len]
  have hmax : c₂.maxLen=c.maxLen := hw.maxLen
  have hself : (a₁.chunks.set i c₂)[i]?=some c₂ :=
    List.getElem?_set_self (List.getElem?_eq_some_iff.mp hc).1
  refine ⟨⟨i,c.len⟩,Archetype.cacheUnlessFull { a₁ with chunks := a₁.chunks.set i c₂ } i,
    c₂.rowData layout c.len,?_,?_,?_,?_,?_,?_⟩
  · unfold push
    rw [validateArchetypeWritable_ok.mpr hv.writable]
    change (takeAFreeChunkIdx layout >>= _) a=_
    rw [bind_ok hrun,bind_ok (onChunk_eq hc hchunk)]
    rfl
  · refine sound_cacheUnlessFull ?_ hself
    refine sound_set hs hc hmax (by omega) ?_ (fun _ _ => Iff.rfl)
    rw [hs.free_iff]
    simp only [ne_eq,not_true,false_and]
  · rw [isSingleton_cacheUnlessFull]
    exact hsing
  · rw [←hrow,←Option.not_isSome_iff_eq_none,row_lt hc]
    exact Nat.lt_irrefl _
  · rw [row_congr chunks_cacheUnlessFull,←hrow]
    refine row_set_update hc (row_appended hlen ?_ hw.others)
    change Function.update c₁.entities c.len e=_
    rw [hw.entities]
  · intro hd hi hk
    change c₁.rowData layout c.len=_
    exact rowData_fresh hd (items_declared hi) (fun t => (hk t).trans (by rw [items_types])) hw

/-- Reaching past the chunks is reported. -/
theorem removeAt_noChunk {chunkIdx idx : ℕ} (h : a.chunks.length≤chunkIdx) :
    removeAt layout chunkIdx idx a=
      (.error (.err (.chunkIdxIsNotInRange chunkIdx a.chunks.length)),a) := by
  unfold removeAt
  rw [getState_bind,if_pos h]
  rfl

/-- `remove_at` on a row in use takes it out and moves the chunk's last row
into the hole. -/
theorem removeAt_spec {i idx : ℕ} {c : Chunk V} (h : Sound layout a none) (hw : WellFormed layout)
    (hc : a.chunks[i]?=some c) (hi : idx<c.len) :
    ∃ a',removeAt layout i idx a=
        (.ok (if idx=c.len-1 then none else some ⟨c.entities (c.len-1),c.len-1,idx⟩),a') ∧
      Sound layout a' none ∧ a'.isSingleton=a.isSingleton ∧
      a'.row layout=Function.update
        (Function.update (a.row layout) ⟨i,idx⟩ (a.row layout ⟨i,c.len-1⟩)) ⟨i,c.len-1⟩ none := by
  obtain ⟨c₁,hrun,hf⟩ := swapRemoveAt_spec hw hi
  have hlt : ¬a.chunks.length ≤ i := Nat.not_le.mpr (List.getElem?_eq_some_iff.mp hc).1
  have hlen : c₁.decreaseLen.len<c.len := by
    change c₁.len-1<c.len
    rw [hf.len]
    omega
  refine ⟨Archetype.cacheFreeChunk { a with chunks := a.chunks.set i c₁.decreaseLen } i,
    ?_,sound_shrink h hc hf.maxLen hlen,isSingleton_cacheFreeChunk,?_⟩
  · unfold removeAt
    rw [getState_bind,if_neg hlt]
    have hchunk : (do
        let swappedRow ← swapRemoveAt layout idx
        modifyState Chunk.decreaseLen
        return swappedRow : Faulting (Chunk V) Fault (Option SwappedRow)) c=
        (.ok (if idx=c.len-1 then none else some ⟨c.entities (c.len-1),c.len-1,idx⟩),
          c₁.decreaseLen) := by
      rw [bind_ok hrun]
      rfl
    rw [bind_ok (onChunk_eq hc hchunk)]
    rfl
  · rw [row_congr chunks_cacheFreeChunk]
    exact row_set_remove hc (hf.row hi)

/-- `replace_at` on a row in use rewrites the components of that row. -/
theorem replaceRowAt_spec {i idx : ℕ} {c : Chunk V} {val : Bundle V} (h : Sound layout a none)
    (hc : a.chunks[i]?=some c) (hi : idx<c.len) (hv : Accepts layout val) (tick : ChangedTick) :
    ∃ a' d,replaceRowAt layout i idx val tick a=(.ok (),a') ∧ Sound layout a' none ∧
      a'.isSingleton=a.isSingleton ∧
      a'.row layout=Function.update (a.row layout) ⟨i,idx⟩ (some (c.entities idx,d)) ∧
      (Declared layout → val.ty.isDeclared=true →
        (∀ t∈val.ty.storageTypes,t∈layout.componentColDescriptors) →
        d=mergeRow val.items tick (c.rowData layout idx)) := by
  obtain ⟨c₁,hrun,hw⟩ := replaceItems_written hv.items_nodup
    hv.items_writable c
  refine ⟨{ a with chunks := a.chunks.set i c₁ },c₁.rowData layout idx,?_,?_,rfl,?_,?_⟩
  · unfold replaceRowAt
    rw [validateArchetypeWritable_ok.mpr hv.writable]
    exact onChunk_eq hc hrun
  · have hle := h.len_le i c hc
    refine sound_set h hc hw.maxLen (by rw [hw.len,hw.maxLen]; exact hle) ?_ (fun _ _ => Iff.rfl)
    rw [h.free_iff,hc,hw.len,hw.maxLen]
    simp only [Option.some.injEq,exists_eq_left']
  · exact row_set_update hc (row_rewritten hi hw.len hw.entities hw.others)
  · intro hd hi hk
    exact rowData_replaced hd (items_declared hi) (by rw [items_types]; exact hk) hw

end Operations

section Migration

variable {srcLayout dstLayout : ChunkLayout} {pair : ArchetypePair V}

/-- Work on the destination leaves the source alone. -/
theorem onDst_eq {α : Type} {x : Faulting (Archetype V) Fault α} {r : Except Fault α}
    {a : Archetype V} (h : x pair.dst=(r,a)) : onDst x pair=(r,{ pair with dst := a }) :=
  focus_eq rfl h

/-- Work on the source leaves the destination alone. -/
theorem onSrc_eq {α : Type} {x : Faulting (Archetype V) Fault α} {r : Except Fault α}
    {a : Archetype V} (h : x pair.src=(r,a)) : onSrc x pair=(r,{ pair with src := a }) :=
  focus_eq rfl h

/-- What a migrated row may become: it arrived at `toRow` and was then written
to without touching anything else. -/
def WrittenAfter (srcLayout dstLayout : ChunkLayout) (src : Chunk V) (fromRow toRow : ℕ)
    (R : Chunk V → Chunk V → Prop) (dst' : Chunk V) : Prop :=
  ∃ dst arrived,RowArrived srcLayout dstLayout src fromRow dst arrived toRow ∧ R arrived dst'

/-- `take_row_from` takes the row out of the source, with the chunk's last row
moved into the hole, and adds it to the destination at a free place. -/
theorem takeRowFrom_spec [Inhabited V] {i idx : ℕ} {c : Chunk V} (hd : Sound dstLayout pair.dst none)
    (hs : Sound srcLayout pair.src none) (hpos : 0<dstLayout.maxLen) (hw : WellFormed srcLayout)
    (hc : pair.src.chunks[i]?=some c) (hi : idx<c.len) {x : ℕ → Faulting (Chunk V) Fault Unit}
    {R : ℕ → Chunk V → Chunk V → Prop}
    (hwrite : ∀ row s,∃ s',x row s=(.ok (),s') ∧ s'.len=s.len ∧ s'.maxLen=s.maxLen ∧
      s'.entities=s.entities ∧ (∀ t r,r≠row → s'.cells t r=s.cells t r) ∧ R row s s') :
    ∃ ix pair' dst',takeRowFrom ⟨i,idx⟩ dstLayout (MigrationPlan.new srcLayout dstLayout) x pair=
        (.ok ⟨ix,if idx=c.len-1 then none else some ⟨c.entities (c.len-1),c.len-1,idx⟩⟩,pair') ∧
      Sound dstLayout pair'.dst none ∧ Sound srcLayout pair'.src none ∧
      pair'.dst.isSingleton=pair.dst.isSingleton ∧ pair'.src.isSingleton=pair.src.isSingleton ∧
      pair.dst.row dstLayout ix=none ∧
      pair'.dst.row dstLayout=Function.update (pair.dst.row dstLayout) ix
        (some (c.entities idx,Chunk.rowData dstLayout dst' ix.idxInChunk)) ∧
      pair'.src.row srcLayout=Function.update (Function.update (pair.src.row srcLayout) ⟨i,idx⟩
        (pair.src.row srcLayout ⟨i,c.len-1⟩)) ⟨i,c.len-1⟩ none ∧
      WrittenAfter srcLayout dstLayout c idx ix.idxInChunk (R ix.idxInChunk) dst' := by
  obtain ⟨j,a₁,d,hrun,hdc,hroom,hds,hrow,hsing,-⟩ := takeAFreeChunkIdx_spec hd hpos
  obtain ⟨hsw,harr,hfill⟩ := takeFrom_spec hw
  generalize htake : takeFrom d c idx d.len (MigrationPlan.new srcLayout dstLayout)=taken
    at hsw harr hfill
  obtain ⟨d₁,hrunw,hl,hm,he,ho,hR⟩ := hwrite d.len taken.2.1
  have hjlt := (List.getElem?_eq_some_iff.mp hdc).1
  have hilt := (List.getElem?_eq_some_iff.mp hc).1
  let dst₁ : Archetype V := { a₁ with chunks := a₁.chunks.set j taken.2.1 }
  let dst₂ : Archetype V := { dst₁ with chunks := dst₁.chunks.set j d₁.increaseLen }
  let src₁ : Archetype V := { pair.src with chunks := pair.src.chunks.set i taken.2.2 }
  let src₂ : Archetype V := { src₁ with chunks := src₁.chunks.set i taken.2.2.decreaseLen }
  have hdst : dst₂={ a₁ with chunks := a₁.chunks.set j d₁.increaseLen } := by
    simp only [dst₂,dst₁,List.set_set]
  have hsrc : src₂={ pair.src with chunks := pair.src.chunks.set i taken.2.2.decreaseLen } := by
    simp only [src₂,src₁,List.set_set]
  have hlen : d₁.increaseLen.len=d.len+1 := by
    change d₁.len+1=_
    rw [hl,harr.len]
  have hmax : d₁.increaseLen.maxLen=d.maxLen := hm.trans harr.maxLen
  refine ⟨⟨j,d.len⟩,⟨dst₂.cacheUnlessFull j,src₂.cacheFreeChunk i⟩,d₁,
    ?_,?_,?_,?_,?_,?_,?_,?_,?_⟩
  · unfold takeRowFrom
    rw [bind_ok (onDst_eq hrun),getState_bind]
    dsimp only
    rw [hdc,hc]
    dsimp only
    rw [htake]
    have hmod : (modifyState (fun p : ArchetypePair V => {
        dst := { p.dst with chunks := p.dst.chunks.set j taken.2.1 }
        src := { p.src with chunks := p.src.chunks.set i taken.2.2 } }) :
          Faulting (ArchetypePair V) Fault Unit) { pair with dst := a₁ }=(.ok (),⟨dst₁,src₁⟩) := rfl
    have hwr : (do
        x d.len
        modifyState Chunk.increaseLen : Faulting (Chunk V) Fault Unit) taken.2.1=
        (.ok (),d₁.increaseLen) := by
      rw [bind_ok hrunw]
      rfl
    have hd₁ : onDst (onChunk j (do
        x d.len
        modifyState Chunk.increaseLen)) ⟨dst₁,src₁⟩=(.ok (),⟨dst₂,src₁⟩) :=
      onDst_eq (onChunk_eq (List.getElem?_set_self hjlt) hwr)
    have hs₁ : onSrc (onChunk i (modifyState Chunk.decreaseLen)) ⟨dst₂,src₁⟩=
        (.ok (),⟨dst₂,src₂⟩) :=
      onSrc_eq (onChunk_eq (List.getElem?_set_self hilt) rfl)
    rw [bind_ok hmod,bind_ok hd₁,bind_ok hs₁,←hsw]
    rfl
  · refine sound_cacheUnlessFull (c:=d₁.increaseLen) ?_ ?_
    · rw [hdst]
      refine sound_set hds hdc hmax (by omega) ?_ (fun _ _ => Iff.rfl)
      rw [hds.free_iff]
      simp only [ne_eq,not_true,false_and]
    · rw [hdst]
      exact List.getElem?_set_self hjlt
  · rw [hsrc]
    refine sound_shrink hs hc hfill.maxLen ?_
    change taken.2.2.len-1<_
    rw [hfill.len]
    omega
  · exact isSingleton_cacheUnlessFull.trans hsing
  · exact isSingleton_cacheFreeChunk
  · rw [←hrow,←Option.not_isSome_iff_eq_none,row_lt hdc]
    exact Nat.lt_irrefl _
  · dsimp only
    rw [row_congr chunks_cacheUnlessFull,hdst,←hrow]
    refine row_set_update hdc (row_appended hlen ?_ ?_)
    · change d₁.entities=_
      rw [he,harr.entities]
    · intro t r hr
      exact (ho t r hr).trans (harr.others t r hr)
  · dsimp only
    rw [row_congr chunks_cacheFreeChunk,hsrc]
    exact row_set_remove hc (hfill.row hi)
  · exact ⟨d,taken.2.1,harr,hR⟩

/-- A refused bundle is refused before the row moves. -/
theorem takeAndWriteFrom_refused [Inhabited V] {ix : EntityInChunkIndices} {plan : MigrationPlan}
    {val : Bundle V} {tick : ChangedTick} {err : XynokEcsError}
    (h : validateArchetypeWritable val.ty dstLayout=.error err) :
    takeAndWriteFrom ix srcLayout dstLayout plan val tick pair=(.error (.err err),pair) := by
  unfold takeAndWriteFrom
  rw [h]
  rfl

variable (pair) in
/-- `take_and_write_from` moves the row and lays the bundle over it. -/
theorem takeAndWriteFrom_spec [Inhabited V] {i idx : ℕ} {c : Chunk V} {val : Bundle V}
    (hd : Sound dstLayout pair.dst none) (hs : Sound srcLayout pair.src none)
    (hpos : 0<dstLayout.maxLen) (hw : WellFormed srcLayout) (hc : pair.src.chunks[i]?=some c)
    (hi : idx<c.len) (hv : Accepts dstLayout val) (tick : ChangedTick) :
    ∃ ix pair' d,takeAndWriteFrom ⟨i,idx⟩ srcLayout dstLayout
        (MigrationPlan.new srcLayout dstLayout) val tick pair=
        (.ok ⟨ix,if idx=c.len-1 then none else some ⟨c.entities (c.len-1),c.len-1,idx⟩⟩,pair') ∧
      Sound dstLayout pair'.dst none ∧ Sound srcLayout pair'.src none ∧
      pair'.dst.isSingleton=pair.dst.isSingleton ∧ pair'.src.isSingleton=pair.src.isSingleton ∧
      pair.dst.row dstLayout ix=none ∧
      pair'.dst.row dstLayout=
        Function.update (pair.dst.row dstLayout) ix (some (c.entities idx,d)) ∧
      pair'.src.row srcLayout=Function.update (Function.update (pair.src.row srcLayout) ⟨i,idx⟩
        (pair.src.row srcLayout ⟨i,c.len-1⟩)) ⟨i,c.len-1⟩ none ∧
      (Declared srcLayout → Declared dstLayout → val.ty.isDeclared=true →
        (∀ t,t∈dstLayout.componentColDescriptors ↔
          t∈srcLayout.componentColDescriptors ∨ t∈val.ty.storageTypes) →
        d=mergeRow val.items tick (c.rowData srcLayout idx)) := by
  obtain ⟨ix,pair',dst',hrun,h1,h2,h3,h4,h5,h6,h7,hafter⟩ := takeRowFrom_spec hd hs hpos hw hc hi
    (R:=fun row s s' => RowWritten val.items
      (fun p => if p.1.storageType∈srcLayout.componentColDescriptors
        then overwrittenCell p.1 p.2 tick else freshCell p.1 p.2 tick) row s s')
    (fun row s => by
      obtain ⟨s',hrun,hw⟩ := writeOrReplaceItems_written hv.items_nodup hv.items_writable s
      exact ⟨s',hrun,hw.len,hw.maxLen,hw.entities,hw.others,hw⟩)
  refine ⟨ix,pair',_,?_,h1,h2,h3,h4,h5,h6,h7,?_⟩
  · unfold takeAndWriteFrom
    rw [validateArchetypeWritable_ok.mpr hv.writable]
    exact hrun
  · intro hds hdd hi hk
    obtain ⟨dst,arrived,harr,hR⟩ := hafter
    exact rowData_moved hds hdd (items_declared hi) (fun t => (hk t).trans (by rw [items_types]))
      harr hR

variable (pair) in
/-- `take_and_remove_from` hands out the values of the archetype type and moves
the rest of the row. -/
theorem takeAndRemoveFrom_spec [Inhabited V] {i idx : ℕ} {c : Chunk V} {T : TArchetype}
    (hd : Sound dstLayout pair.dst none) (hs : Sound srcLayout pair.src none)
    (hpos : 0<dstLayout.maxLen) (hw : WellFormed srcLayout) (hc : pair.src.chunks[i]?=some c)
    (hi : idx<c.len) (ht : ∀ t∈T.components,t.storageType∈srcLayout.componentColDescriptors) :
    ∃ ix pair' d b,takeAndRemoveFrom T ⟨i,idx⟩ srcLayout dstLayout
        (MigrationPlan.new srcLayout dstLayout) pair=
        (.ok (⟨ix,if idx=c.len-1 then none else some ⟨c.entities (c.len-1),c.len-1,idx⟩⟩,b),pair') ∧
      Sound dstLayout pair'.dst none ∧ Sound srcLayout pair'.src none ∧
      pair'.dst.isSingleton=pair.dst.isSingleton ∧ pair'.src.isSingleton=pair.src.isSingleton ∧
      pair.dst.row dstLayout ix=none ∧
      pair'.dst.row dstLayout=
        Function.update (pair.dst.row dstLayout) ix (some (c.entities idx,d)) ∧
      pair'.src.row srcLayout=Function.update (Function.update (pair.src.row srcLayout) ⟨i,idx⟩
        (pair.src.row srcLayout ⟨i,c.len-1⟩)) ⟨i,c.len-1⟩ none ∧
      b.ty=T ∧ (∀ p∈b.items,p.2=(c.cells p.1.storageType idx).value) ∧
      (Declared srcLayout → Declared dstLayout →
        (∀ t,t∈dstLayout.componentColDescriptors ↔
          t∈srcLayout.componentColDescriptors ∧ t∉T.storageTypes) →
        d=removeRow T.storageTypes (c.rowData srcLayout idx)) := by
  obtain ⟨b,hb,hty,hval⟩ := takeBundle_spec ht c
  obtain ⟨ix,pair',dst',hrun,h1,h2,h3,h4,h5,h6,h7,hafter⟩ := takeRowFrom_spec hd hs hpos hw hc hi
    (x:=fun _ => pure ()) (R:=fun _ s s' => s'=s)
    (fun row s => ⟨s,rfl,rfl,rfl,rfl,fun _ _ _ => rfl,rfl⟩)
  refine ⟨ix,pair',_,b,?_,h1,h2,h3,h4,h5,h6,h7,hty,hval,?_⟩
  · unfold takeAndRemoveFrom
    rw [validateArchetypeTakeable_ok.mpr ht]
    have hsame : onSrc (onChunk i (takeBundle srcLayout idx T)) pair=(.ok b,pair) := by
      have hrun := onSrc_eq (onChunk_eq hc hb)
      have hset : pair.src.chunks.set i c=pair.src.chunks := by
        obtain ⟨hlt,rfl⟩ := List.getElem?_eq_some_iff.mp hc
        exact List.set_getElem_self hlt
      rwa [hset] at hrun
    change (onSrc (onChunk i (takeBundle srcLayout idx T)) >>= _) pair=_
    rw [bind_ok hsame,bind_ok hrun]
    rfl
  · intro hds hdd hk
    obtain ⟨dst,arrived,harr,rfl⟩ := hafter
    exact rowData_removed hds hdd hk harr

end Migration

section Errors

/-- What an operation leaves behind when it returns an error of the crate: the
state as it was. -/
def ErrUnchanged {σ α : Type} (x : Faulting σ Fault α) (s : σ) : Prop :=
  wp x (fun _ _ => True) (fun f s' => ∀ err,f=.err err → s'=s) s

/-- Work on a chunk: on the chunk that is there, or a missing bounds check. -/
theorem wp_onChunk {α : Type} {a : Archetype V} {i : ℕ} {x : Faulting (Chunk V) Fault α}
    {Q : α → Archetype V → Prop} {E : Fault → Archetype V → Prop}
    (hnone : a.chunks[i]?=none → E .undefinedBehaviour a)
    (hsome : ∀ c,a.chunks[i]?=some c →
      wp x (fun r c' => Q r { a with chunks := a.chunks.set i c' })
        (fun f c' => E f { a with chunks := a.chunks.set i c' }) c) : wp (onChunk i x) Q E a := by
  unfold onChunk
  cases hc : a.chunks[i]? with
  | none =>
    rw [wp_focus_missing (p:=fun a : Archetype V => a.chunks[i]?) hc]
    exact hnone hc
  | some c =>
    rw [wp_focus (p:=fun a : Archetype V => a.chunks[i]?) hc]
    exact hsome c hc

/-- A chunk reached without a bounds check gives no error of its own. -/
theorem onChunk_errUnchanged {α : Type} {a : Archetype V} {i : ℕ} {x : Faulting (Chunk V) Fault α}
    (h : ∀ c,ErrUnchanged x c) : ErrUnchanged (onChunk i x) a := by
  refine wp_onChunk ?_ ?_
  · rintro - err ⟨⟩
  · intro c hc
    refine wp_mono (h c) (fun _ _ _ => trivial) ?_
    intro f c' hf err herr
    rw [hf err herr]
    obtain ⟨hlt,rfl⟩ := List.getElem?_eq_some_iff.mp hc
    rw [List.set_getElem_self hlt]

/-- Errors of `remove_at` come before anything is removed. -/
theorem removeAt_errUnchanged {layout : ChunkLayout} {a : Archetype V} (chunkIdx idx : ℕ) :
    ErrUnchanged (removeAt layout chunkIdx idx) a := by
  have hchunk : ∀ c : Chunk V,ErrUnchanged (do
      let swappedRow ← swapRemoveAt layout idx
      modifyState Chunk.decreaseLen
      return swappedRow) c := by
    intro c
    unfold ErrUnchanged
    rw [wp_bind]
    apply wp_intro
    · intro r c' _
      trivial
    · intro f c' hr err herr
      unfold swapRemoveAt at hr
      split at hr
      · cases hr
        rfl
      · cases hr
  unfold ErrUnchanged removeAt
  rw [wp_bind,wp_getState]
  split
  · rw [wp_fault]
    intro err _
    rfl
  · rw [wp_bind]
    exact wp_mono (onChunk_errUnchanged hchunk) (fun _ _ _ => trivial) (fun _ _ h => h)

/-- Errors of `replace_at` come before anything is replaced. -/
theorem replaceRowAt_errUnchanged {layout : ChunkLayout} {a : Archetype V} {val : Bundle V}
    (hn : val.ty.storageTypes.Nodup) (chunkIdx idxInChunk : ℕ) (tick : ChangedTick) :
    ErrUnchanged (replaceRowAt layout chunkIdx idxInChunk val tick) a := by
  unfold ErrUnchanged replaceRowAt
  cases hval : validateArchetypeWritable val.ty layout with
  | error err =>
    intro _ _
    rfl
  | ok _ =>
    have hv := Accepts.mk hn (validateArchetypeWritable_ok.mp hval)
    refine onChunk_errUnchanged fun c => ?_
    obtain ⟨c',hrun,-⟩ := replaceItems_written hv.items_nodup
      hv.items_writable c
    apply wp_intro
    · intro _ _ _
      trivial
    · intro f s hr
      rw [hrun] at hr
      cases hr

/-- Work on a chunk that always succeeds gives no error of its own. -/
theorem onChunk_noErr {α : Type} {a : Archetype V} {i : ℕ} {x : Faulting (Chunk V) Fault α}
    (hx : ∀ c,∃ r c',x c=(.ok r,c')) :
    wp (onChunk i x) (fun _ _ => True) (fun f _ => f=.undefinedBehaviour) a := by
  refine wp_onChunk (fun _ => rfl) fun c _ => ?_
  obtain ⟨r,c',hrun⟩ := hx c
  apply wp_intro
  · intro _ _ _
    trivial
  · intro f s hr
    rw [hrun] at hr
    cases hr

/-- Errors of `push` come before a row is written. -/
theorem push_errUnchanged [Inhabited V] {layout : ChunkLayout} {a : Archetype V} {val : Bundle V}
    (hn : val.ty.storageTypes.Nodup) (e : Entity) (tick : ChangedTick) :
    ErrUnchanged (push layout e val tick) a := by
  unfold ErrUnchanged push
  cases hval : validateArchetypeWritable val.ty layout with
  | error err =>
    intro _ _
    rfl
  | ok _ =>
    have hv := Accepts.mk hn (validateArchetypeWritable_ok.mp hval)
    obtain ⟨i,a₁,hfree,-⟩ := takeAFreeChunkIdx_opens layout a
    change wp (takeAFreeChunkIdx layout >>= _) _ _ a
    rw [wp_bind]
    unfold wp
    rw [hfree]
    change wp (onChunk i _ >>= _) _ _ a₁
    rw [wp_bind]
    refine wp_mono (onChunk_noErr fun c => ?_) (fun _ _ _ => trivial) ?_
    · obtain ⟨c',hrun,-⟩ := writeItems_written hv.items_nodup
        hv.items_writable c
      exact ⟨_,_,by rw [getState_bind,bind_ok hrun]; rfl⟩
    · rintro f a' rfl err ⟨⟩

/-- Moving a row gives no error of its own when writing to it gives none. -/
theorem takeRowFrom_noErr [Inhabited V] {dstLayout : ChunkLayout} {pair : ArchetypePair V}
    {srcE : EntityInChunkIndices} {migration : MigrationPlan}
    {write : ℕ → Faulting (Chunk V) Fault Unit} (hwrite : ∀ row s,∃ s',write row s=(.ok (),s')) :
    wp (takeRowFrom srcE dstLayout migration write) (fun _ _ => True)
      (fun f _ => f=.undefinedBehaviour) pair := by
  obtain ⟨i,a,hrun,-⟩ := takeAFreeChunkIdx_opens dstLayout pair.dst
  unfold takeRowFrom
  rw [wp_bind]
  apply wp_intro
  · intro j p hr
    rw [wp_bind,wp_getState]
    split
    · rw [wp_bind,wp_modifyState,wp_bind,onDst,
        wp_focus (p:=fun p : ArchetypePair V => some p.dst) rfl]
      refine wp_mono (onChunk_noErr ?_) ?_ (fun _ _ h => h)
      · intro c
        obtain ⟨c',hc'⟩ := hwrite _ c
        exact ⟨_,_,bind_ok hc'⟩
      · intro _ b _
        rw [wp_bind,onSrc,wp_focus (p:=fun p : ArchetypePair V => some p.src) rfl]
        refine wp_mono (onChunk_noErr fun c => ⟨_,_,rfl⟩) ?_ (fun _ _ h => h)
        intro _ b' _
        trivial
    · rfl
  · intro f p hr
    rw [onDst_eq hrun] at hr
    cases hr

/-- Errors of `take_and_write_from` come before the row moves. -/
theorem takeAndWriteFrom_errUnchanged [Inhabited V] {srcLayout dstLayout : ChunkLayout}
    {pair : ArchetypePair V} {srcE : EntityInChunkIndices} {migration : MigrationPlan}
    {val : Bundle V} (hn : val.ty.storageTypes.Nodup) (tick : ChangedTick) :
    ErrUnchanged (takeAndWriteFrom srcE srcLayout dstLayout migration val tick) pair := by
  unfold ErrUnchanged takeAndWriteFrom
  cases hval : validateArchetypeWritable val.ty dstLayout with
  | error err =>
    intro _ _
    rfl
  | ok _ =>
    have hv := Accepts.mk hn (validateArchetypeWritable_ok.mp hval)
    refine wp_mono (takeRowFrom_noErr fun row s => ?_) (fun _ _ _ => trivial) ?_
    · obtain ⟨s',hrun,-⟩ := writeOrReplaceItems_written hv.items_nodup hv.items_writable s
      exact ⟨s',hrun⟩
    · rintro f p rfl err ⟨⟩

/-- Errors of `take_and_remove_from` come before the row moves. -/
theorem takeAndRemoveFrom_errUnchanged [Inhabited V] {srcLayout dstLayout : ChunkLayout}
    {pair : ArchetypePair V} {srcE : EntityInChunkIndices} {migration : MigrationPlan}
    (T : TArchetype) :
    ErrUnchanged (takeAndRemoveFrom T srcE srcLayout dstLayout migration) pair := by
  unfold ErrUnchanged takeAndRemoveFrom
  cases hval : validateArchetypeTakeable T srcLayout with
  | error err =>
    intro _ _
    rfl
  | ok _ =>
    have ht := validateArchetypeTakeable_ok.mp hval
    have htake : ∀ c : Chunk V,ErrUnchanged (takeBundle srcLayout srcE.idxInChunk T) c := by
      intro c
      obtain ⟨b,hb,-⟩ := takeBundle_spec ht c
      apply wp_intro
      · intro _ _ _
        trivial
      · intro f s hr
        rw [hb] at hr
        cases hr
    change wp (onSrc (onChunk srcE.chunkIdx (takeBundle srcLayout srcE.idxInChunk T)) >>= _) _ _ _
    rw [wp_bind,onSrc,wp_focus (p:=fun p : ArchetypePair V => some p.src) rfl]
    refine wp_mono (onChunk_errUnchanged htake) ?_ ?_
    · intro b a _
      rw [wp_bind]
      refine wp_mono (takeRowFrom_noErr fun _ s => ⟨s,rfl⟩) (fun _ _ _ => trivial) ?_
      rintro f p rfl err ⟨⟩
    · intro f a hf err herr
      rw [hf err herr]

end Errors

section Kinds

variable {α : Type} {layout : ChunkLayout}

/-- Queueing a chunk keeps kind and number of chunks. -/
theorem shape_cacheFreeChunk {a : Archetype V} {i : ℕ} : (a.cacheFreeChunk i).shape=a.shape := by
  rw [Archetype.shape,isSingleton_cacheFreeChunk,chunks_cacheFreeChunk,Archetype.shape]

/-- So does queueing one with room. -/
theorem shape_cacheUnlessFull {a : Archetype V} {i : ℕ} : (a.cacheUnlessFull i).shape=a.shape := by
  rw [Archetype.shape,isSingleton_cacheUnlessFull,chunks_cacheUnlessFull,Archetype.shape]

/-- Work on one chunk opens none. -/
theorem shape_onChunk (i : ℕ) (x : Faulting (Chunk V) Fault α) :
    Fixes Archetype.shape (onChunk i x) := by
  refine Fixes.focus ?_ x
  intro c a
  rw [Archetype.shape,List.length_set,Archetype.shape]

/-- Work on a chunk keeps the kind. -/
theorem fixes_onChunk (i : ℕ) (x : Faulting (Chunk V) Fault α) :
    Fixes Archetype.isSingleton (onChunk i x) :=
  fun a => congrArg Prod.fst (shape_onChunk i x a)

/-- `push` opens a chunk at most because none had room. -/
theorem push_opens [Inhabited V] (e : Entity) (val : Bundle V) (tick : ChangedTick)
    (a : Archetype V) : Opens a (push layout e val tick a).2 := by
  unfold push
  cases hval : validateArchetypeWritable val.ty layout with
  | error err => exact ⟨rfl,.inl rfl⟩
  | ok _ =>
    obtain ⟨i,a₁,hfree,ho⟩ := takeAFreeChunkIdx_opens layout a
    change Opens a ((takeAFreeChunkIdx layout >>= _) a).2
    rw [bind_ok hfree]
    refine opens_of_shape ho (Fixes.bind (shape_onChunk i _) (fun row => ?_) a₁)
    exact Fixes.bind (Fixes.modifyState fun _ => shape_cacheUnlessFull) fun _ => Fixes.pure _

/-- Adding a row keeps the kind. -/
theorem fixes_push [Inhabited V] (e : Entity) (val : Bundle V) (tick : ChangedTick) :
    Fixes Archetype.isSingleton (push layout e val tick) :=
  fun a => (push_opens e val tick a).1

/-- `remove_at` opens no chunk. -/
theorem shape_removeAt (chunkIdx idx : ℕ) :
    Fixes Archetype.shape (removeAt layout chunkIdx idx :
      Faulting (Archetype V) Fault (Option SwappedRow)) := by
  refine Fixes.getState fun a => ?_
  split
  · exact Fixes.fault _
  · refine Fixes.bind (shape_onChunk _ _) fun row => Fixes.bind ?_ fun _ => Fixes.pure _
    exact Fixes.modifyState fun _ => shape_cacheFreeChunk

/-- Removing a row keeps the kind. -/
theorem fixes_removeAt (chunkIdx idx : ℕ) :
    Fixes Archetype.isSingleton (removeAt layout chunkIdx idx :
      Faulting (Archetype V) Fault (Option SwappedRow)) :=
  fun a => congrArg Prod.fst (shape_removeAt chunkIdx idx a)

/-- Rewriting a row keeps the kind. -/
theorem fixes_replaceRowAt (chunkIdx idx : ℕ) (val : Bundle V) (tick : ChangedTick) :
    Fixes Archetype.isSingleton (replaceRowAt layout chunkIdx idx val tick) :=
  Fixes.bind (Fixes.ofExcept _) fun _ => fixes_onChunk _ _

/-- The kinds of both archetypes of a pair. -/
def ArchetypePair.kinds (p : ArchetypePair V) : Bool×Bool := (p.dst.isSingleton,p.src.isSingleton)

/-- The shapes of both archetypes of a pair. -/
def ArchetypePair.shapes (p : ArchetypePair V) : (Bool×ℕ)×(Bool×ℕ) := (p.dst.shape,p.src.shape)

/-- Work that opens no chunk opens none on the destination's side. -/
theorem shapes_onDst {x : Faulting (Archetype V) Fault α} (hx : Fixes Archetype.shape x) :
    Fixes ArchetypePair.shapes (onDst x) := fun p => by
  change ((x p.dst).2.shape,p.src.shape)=_
  rw [hx]
  rfl

/-- Work that opens no chunk opens none on the source's side. -/
theorem shapes_onSrc {x : Faulting (Archetype V) Fault α} (hx : Fixes Archetype.shape x) :
    Fixes ArchetypePair.shapes (onSrc x) := fun p => by
  change (p.dst.shape,(x p.src).2.shape)=_
  rw [hx]
  rfl

/-- Work on the source leaves the destination alone. -/
theorem onSrc_dst (x : Faulting (Archetype V) Fault α) (p : ArchetypePair V) :
    (onSrc x p).2.dst=p.dst := by
  have h : Fixes ArchetypePair.dst (onSrc x) := by
    refine Fixes.focus ?_ x
    intro a q
    rfl
  exact h p

/-- The destination may open a chunk, the source opens none. -/
def PairOpens (p p' : ArchetypePair V) : Prop := Opens p.dst p'.dst ∧ p'.src.shape=p.src.shape

/-- Opening a chunk in the destination keeps both kinds. -/
theorem PairOpens.kinds {p p' : ArchetypePair V} (h : PairOpens p p') : p'.kinds=p.kinds := by
  have hs : p'.src.isSingleton=p.src.isSingleton := congrArg Prod.fst h.2
  rw [ArchetypePair.kinds,h.1.1,hs,ArchetypePair.kinds]

/-- Moving a row opens at most a chunk of the destination. -/
theorem takeRowFrom_opens [Inhabited V] (srcE : EntityInChunkIndices) (migration : MigrationPlan)
    (write : ℕ → Faulting (Chunk V) Fault Unit) (p : ArchetypePair V) :
    PairOpens p (takeRowFrom srcE layout migration write p).2 := by
  obtain ⟨i,a,hrun,ho⟩ := takeAFreeChunkIdx_opens layout p.dst
  have hrest : (takeRowFrom srcE layout migration write p).2.shapes=(a.shape,p.src.shape) := by
    unfold takeRowFrom
    rw [bind_ok (onDst_eq hrun)]
    refine Fixes.getState (fun q => ?_) (g:=ArchetypePair.shapes) { p with dst := a }
    split
    · refine Fixes.bind (Fixes.modifyState fun q => ?_) fun _ => ?_
      · simp only [ArchetypePair.shapes,Archetype.shape,List.length_set]
      · refine Fixes.bind (shapes_onDst (shape_onChunk _ _)) fun _ => ?_
        refine Fixes.bind (shapes_onSrc (shape_onChunk _ _)) fun _ => Fixes.bind ?_ fun _ => Fixes.pure _
        refine Fixes.modifyState fun q => ?_
        simp only [ArchetypePair.shapes,shape_cacheUnlessFull,shape_cacheFreeChunk]
    · exact Fixes.fault _
  obtain ⟨h1,h2⟩ := Prod.mk.inj hrest
  exact ⟨opens_of_shape ho h1,h2⟩

/-- A row that moves and gains components opens a chunk in the destination only if none has room. -/
theorem takeAndWriteFrom_opens [Inhabited V] {srcLayout : ChunkLayout} (srcE : EntityInChunkIndices)
    (migration : MigrationPlan) (val : Bundle V) (tick : ChangedTick) (p : ArchetypePair V) :
    PairOpens p (takeAndWriteFrom srcE srcLayout layout migration val tick p).2 := by
  unfold takeAndWriteFrom
  cases hval : validateArchetypeWritable val.ty layout with
  | error err => exact ⟨⟨rfl,.inl rfl⟩,rfl⟩
  | ok _ => exact takeRowFrom_opens srcE migration _ p

/-- A row that moves and loses components opens one there only if none has room. -/
theorem takeAndRemoveFrom_opens [Inhabited V] {srcLayout : ChunkLayout} (T : TArchetype)
    (srcE : EntityInChunkIndices) (migration : MigrationPlan) (p : ArchetypePair V) :
    PairOpens p (takeAndRemoveFrom T srcE srcLayout layout migration p).2 := by
  unfold takeAndRemoveFrom
  cases hval : validateArchetypeTakeable T srcLayout with
  | error err => exact ⟨⟨rfl,.inl rfl⟩,rfl⟩
  | ok _ =>
    change PairOpens p ((onSrc (onChunk srcE.chunkIdx
      (takeBundle srcLayout srcE.idxInChunk T)) >>= _) p).2
    have hsrc := shapes_onSrc (shape_onChunk srcE.chunkIdx
      (takeBundle (V:=V) srcLayout srcE.idxInChunk T)) p
    have hdst := onSrc_dst (onChunk srcE.chunkIdx (takeBundle srcLayout srcE.idxInChunk T)) p
    cases hr : onSrc (onChunk srcE.chunkIdx (takeBundle srcLayout srcE.idxInChunk T)) p with
    | mk r q =>
      rw [hr] at hsrc hdst
      obtain ⟨-,hsrc⟩ := Prod.mk.inj hsrc
      have hsame : PairOpens p q := ⟨opens_of_shape ⟨rfl,.inl rfl⟩ (congrArg _ hdst),hsrc⟩
      cases r with
      | error f =>
        rw [bind_error hr]
        exact hsame
      | ok b =>
        rw [bind_ok hr]
        have ho : PairOpens q (takeRowFrom srcE layout migration (fun _ => return ()) q).2 :=
          takeRowFrom_opens srcE migration _ q
        dsimp only at hdst hsrc
        unfold PairOpens at ho
        rw [hdst,hsrc] at ho
        cases hr' : takeRowFrom srcE layout migration (fun _ => return ()) q with
        | mk r' q' =>
          rw [hr'] at ho
          cases r' with
          | error f =>
            rw [bind_error hr']
            exact ho
          | ok result =>
            rw [bind_ok hr']
            exact ho

/-- Both archetypes keep their kinds when a row gains components. -/
theorem fixes_takeAndWriteFrom [Inhabited V] {srcLayout : ChunkLayout} (srcE : EntityInChunkIndices)
    (migration : MigrationPlan) (val : Bundle V) (tick : ChangedTick) :
    Fixes ArchetypePair.kinds (takeAndWriteFrom srcE srcLayout layout migration val tick) :=
  fun p => PairOpens.kinds (takeAndWriteFrom_opens srcE migration val tick p)

/-- So they do when a row loses components. -/
theorem fixes_takeAndRemoveFrom [Inhabited V] {srcLayout : ChunkLayout} (T : TArchetype)
    (srcE : EntityInChunkIndices) (migration : MigrationPlan) :
    Fixes ArchetypePair.kinds (takeAndRemoveFrom T srcE srcLayout layout migration :
      Faulting (ArchetypePair V) Fault (ResultTake×Bundle V)) :=
  fun p => PairOpens.kinds (takeAndRemoveFrom_opens T srcE migration p)

end Kinds

end XynokEcs.ArchetypeStore
