import XynokEcs.ArchetypeStore
import XynokEcs.ByteRows

/-!
# Archetypes in bytes

An archetype keeps its chunks as bytes and its queue of chunks with room. Every
operation of it, run on the bytes with whatever the allocator hands out for a new
chunk, reports what it reports on tables and leaves bytes that stand for the table:
same rows, same states, same handles, same values dropped. So does every sequence of
operations on any number of archetypes.
-/

namespace XynokEcs.ByteArchetypes

open ComponentTypes EntityHandle SequenceValueMap ChunkLayouts FaultingState RowDirectory ChunkRows
  RowWrites ArchetypeStore LayoutRegions ByteMemory ByteMigration ActionRuns PairedRuns WrittenCells
  ByteRows

section Operations

/-- The chunks of one archetype, in bytes. -/
structure ByteArchetype where
  /-- The chunks in the order they were opened. -/
  chunks : List ByteChunk
  /-- The queue of chunks with room. -/
  freeChunks : List ℕ
  /-- The set of queued chunks. -/
  freeChunksStored : Finset ℕ
  /-- Whether there is room for one entity only. -/
  isSingleton : Bool

/-- `Archetype::default` and `Archetype::singleton`. -/
def ByteArchetype.empty (isSingleton : Bool) : ByteArchetype := ⟨[],[],∅,isSingleton⟩

/-- `take_a_free_chunk_idx`, with what the allocator has for a new chunk. -/
def takeAFreeChunkIdx (layout : ChunkLayout) (fresh : Memory) : Faulting ByteArchetype Fault ℕ :=
  fun a => match a.freeChunks with
    | i::rest =>
      (.ok i,{ a with freeChunks := rest, freeChunksStored := a.freeChunksStored.erase i })
    | [] => (.ok a.chunks.length,{ a with chunks := a.chunks++[ByteChunk.new layout fresh] })

/-- `cache_free_chunk`. -/
def ByteArchetype.cacheFreeChunk (a : ByteArchetype) (i : ℕ) : ByteArchetype :=
  if i∈a.freeChunksStored then a
  else { a with
    freeChunks := a.freeChunks++[i]
    freeChunksStored := insert i a.freeChunksStored }

/-- Queue a chunk that was written to, unless it is full. -/
def ByteArchetype.cacheUnlessFull (a : ByteArchetype) (i : ℕ) : ByteArchetype :=
  match a.chunks[i]? with
  | some c => if c.isFull then a else a.cacheFreeChunk i
  | none => a

/-- Work on one chunk, reached without a bounds check. -/
def onChunk {α : Type} (i : ℕ) (x : Faulting ByteChunk Fault α) : Faulting ByteArchetype Fault α :=
  focus (fun a => a.chunks[i]?) (fun c a => { a with chunks := a.chunks.set i c })
    .undefinedBehaviour x

/-- `push`. -/
def push (layout : ChunkLayout) (fresh : Memory) (e : Entity) (val : Bundle (List UInt8))
    (tick : ChangedTick) : Faulting ByteArchetype Fault EntityInChunkIndices := do
  orErr (validateArchetypeWritable val.ty layout)
  let freeChunkIdx ← takeAFreeChunkIdx layout fresh
  let idxInChunk ← onChunk freeChunkIdx (do
    let chunk ← getState
    forItems (ByteRows.writeAt layout chunk.raw.len tick) val.items
    modifyState (fun c => (c.setEntity layout chunk.raw.len e).increaseLen)
    return chunk.raw.len)
  modifyState (fun a => a.cacheUnlessFull freeChunkIdx)
  return ⟨freeChunkIdx,idxInChunk⟩

/-- `remove_at`. -/
def removeAt (layout : ChunkLayout) (chunkIdx idx : ℕ) :
    Faulting ByteArchetype Fault (Option SwappedRow) := do
  let a ← getState
  if a.chunks.length≤chunkIdx then
    fault (.err (.chunkIdxIsNotInRange chunkIdx a.chunks.length))
  else
    let swappedRow ← onChunk chunkIdx (do
      let swappedRow ← ByteRows.swapRemoveAt layout idx
      modifyState ByteChunk.decreaseLen
      return swappedRow)
    modifyState (fun a => a.cacheFreeChunk chunkIdx)
    return swappedRow

/-- `replace_at`. -/
def replaceRowAt (layout : ChunkLayout) (chunkIdx idxInChunk : ℕ) (val : Bundle (List UInt8))
    (tick : ChangedTick) : Faulting ByteArchetype Fault Unit := do
  orErr (validateArchetypeWritable val.ty layout)
  onChunk chunkIdx (forItems (ByteRows.replaceAt layout idxInChunk tick) val.items)

/-- The archetype a row moves to and the one it leaves. -/
structure BytePair where
  /-- The archetype that gains the row. -/
  dst : ByteArchetype
  /-- The archetype that loses the row. -/
  src : ByteArchetype

/-- Work on the destination. -/
def onDst {α : Type} (x : Faulting ByteArchetype Fault α) : Faulting BytePair Fault α :=
  focus (fun p => some p.dst) (fun a p => { p with dst := a }) .undefinedBehaviour x

/-- Work on the source. -/
def onSrc {α : Type} (x : Faulting ByteArchetype Fault α) : Faulting BytePair Fault α :=
  focus (fun p => some p.src) (fun a p => { p with src := a }) .undefinedBehaviour x

/-- What `take_and_write_from` and `take_and_remove_from` share. -/
def takeRowFrom (srcE : EntityInChunkIndices) (srcLayout dstLayout : ChunkLayout) (fresh : Memory)
    (migration : MigrationPlan) (write : ℕ → Faulting ByteChunk Fault Unit) :
    Faulting BytePair Fault ResultTake := do
  let freeChunkIdx ← onDst (takeAFreeChunkIdx dstLayout fresh)
  let pair ← getState
  match pair.dst.chunks[freeChunkIdx]?,pair.src.chunks[srcE.chunkIdx]? with
  | some chunk,some srcChunk =>
    let taken := ByteRows.takeFrom chunk srcChunk dstLayout srcLayout srcE.idxInChunk chunk.raw.len
      migration
    modifyState (fun p => {
      dst := { p.dst with chunks := p.dst.chunks.set freeChunkIdx taken.2.1 }
      src := { p.src with chunks := p.src.chunks.set srcE.chunkIdx taken.2.2 } })
    onDst (onChunk freeChunkIdx (do
      write chunk.raw.len
      modifyState ByteChunk.increaseLen))
    onSrc (onChunk srcE.chunkIdx (modifyState ByteChunk.decreaseLen))
    modifyState (fun p => {
      dst := p.dst.cacheUnlessFull freeChunkIdx
      src := p.src.cacheFreeChunk srcE.chunkIdx })
    return ⟨⟨freeChunkIdx,chunk.raw.len⟩,taken.1⟩
  | _,_ => fault .undefinedBehaviour

/-- `take_and_write_from`. -/
def takeAndWriteFrom (srcE : EntityInChunkIndices) (srcLayout dstLayout : ChunkLayout)
    (fresh : Memory) (migration : MigrationPlan) (val : Bundle (List UInt8)) (tick : ChangedTick) :
    Faulting BytePair Fault ResultTake := do
  orErr (validateArchetypeWritable val.ty dstLayout)
  takeRowFrom srcE srcLayout dstLayout fresh migration fun idxInChunk =>
    forItems (ByteRows.writeOrReplaceAt srcLayout dstLayout idxInChunk tick) val.items

/-- `take_and_remove_from`. -/
def takeAndRemoveFrom (T : TArchetype) (srcE : EntityInChunkIndices)
    (srcLayout dstLayout : ChunkLayout) (fresh : Memory) (migration : MigrationPlan) :
    Faulting BytePair Fault (ResultTake×Bundle (List UInt8)) := do
  orErr (validateArchetypeTakeable T srcLayout)
  let taken ← onSrc (onChunk srcE.chunkIdx (ByteRows.takeBundle srcLayout srcE.idxInChunk T))
  let result ← takeRowFrom srcE srcLayout dstLayout fresh migration fun _ => return ()
  return (result,taken)

end Operations

section Chunks

variable {components : List ComponentDescriptor} {specs : ComponentSpecs} {l : ChunkLayout}

/-- Every value of a row in use has been written. -/
def Live (l : ChunkLayout) (n : ℕ) : Written := fun t r => t∈l.componentColDescriptors ∧ r<n

/-- The bytes of a chunk stand for the table, up to values behind its last row. -/
def Stored (l : ChunkLayout) (s : ByteChunk) (c : Chunk (List UInt8)) : Prop :=
  Reads (Live l c.len) l s c

theorem Stored.len {s : ByteChunk} {c : Chunk (List UInt8)} (h : Stored l s c) : s.raw.len=c.len :=
  Agree.len h

theorem Stored.isFull {s : ByteChunk} {c : Chunk (List UInt8)} (h : Stored l s c) :
    s.isFull=c.isFull := by
  have hlen : s.raw.len=c.len := Agree.len h
  have hmax : s.raw.maxLen=c.maxLen := Agree.maxLen h
  rw [ByteChunk.isFull,Chunk.isFull,hlen,hmax]

/-- Fewer rows leave less to agree on. -/
theorem Stored.of_reads {n : ℕ} {s : ByteChunk} {c : Chunk (List UInt8)} (h : Reads (Live l n) l s c)
    (hn : c.len ≤ n) : Stored l s c :=
  Agree.mono h fun _ _ hr => ⟨hr.1,Nat.lt_of_lt_of_le hr.2 hn⟩

theorem stored_new (h : Built specs components l) (fresh : Memory) :
    Stored l (ByteChunk.new l fresh) (Chunk.new l) :=
  (view_new h fresh).mono fun _ _ hr => absurd hr.2 (Nat.not_lt_zero _)

/-- Each value of a bundle has the bytes of its type. -/
def Sized (items : List (Component×List UInt8)) : Prop :=
  ∀ p∈items,p.2.length=p.1.storageType.byteSize

/-- The values of a bundle, written to one row on both sides. -/
theorem items_written {w : Written} {row : ℕ} {items : List (Component×List UInt8)}
    {f : Component → List UInt8 → Faulting ByteChunk Fault Unit}
    {g : Component → List UInt8 → Faulting (Chunk (List UInt8)) Fault Unit}
    (hdoes : ∀ p∈items,Does l (f p.1 p.2) (g p.1 p.2))
    (hagrees : ∀ p∈items,∀ w',(∀ t r,w t r → w' t r) →
      Agrees w' (w'.add p.1.storageType row) (g p.1 p.2))
    {s : ByteChunk} {c c₁ : Chunk (List UInt8)} (h : Reads w l s c)
    (hrun : forItems g items c=(.ok (),c₁)) :
    ∃ s₁,forItems f items s=(.ok (),s₁) ∧
      Reads (w.addRow (·∈items.map fun p => p.1.storageType) row) l s₁ c₁ := by
  have hexit := (forItems_does hdoes).reads (forItems_agrees hagrees) s c h
  rw [hrun] at hexit
  exact hexit.returns

/-- A whole row written behind the last one counts as a row in use. -/
theorem stored_increaseLen {w : Written} {n : ℕ} {s : ByteChunk} {c : Chunk (List UInt8)}
    (h : Reads w l s c) (hlen : c.len=n) (hw : ∀ t r,Live l (n+1) t r → w t r) :
    Stored l s.increaseLen c.increaseLen := by
  refine Agree.increaseLen (h.mono fun t r hr => hw t r ?_)
  change Live l (c.len+1) t r at hr
  rwa [hlen] at hr

/-- A bundle and its handle, written behind the last row on both sides. -/
theorem pushRow_stored (hb : Built specs components l) {val : Bundle (List UInt8)}
    (hv : Accepts l val) (hsized : Sized val.items)
    (hcover : ∀ t,t∈l.componentColDescriptors → t∈val.ty.storageTypes) (e : Entity)
    (tick : ChangedTick) {s : ByteChunk} {c : Chunk (List UInt8)} (hs : Stored l s c)
    (hroom : c.len<l.maxLen) :
    SameExit (fun _ => Stored l) (fun _ _ => False)
      ((do
        let chunk ← getState
        forItems (ByteRows.writeAt l chunk.raw.len tick) val.items
        modifyState (fun c => (c.setEntity l chunk.raw.len e).increaseLen)
        return chunk.raw.len : Faulting ByteChunk Fault ℕ) s)
      ((do
        let chunk ← getState
        forItems (ChunkRows.writeAt l chunk.len tick) val.items
        modifyState (fun c => (c.setEntity chunk.len e).increaseLen)
        return chunk.len : Faulting (Chunk (List UInt8)) Fault ℕ) c) := by
  have hw := built_wellFormed hb
  obtain ⟨c₁,hrun,hrow⟩ := writeItems_written hv.items_nodup hv.items_writable c
  obtain ⟨s₁,hrun₁,hs₁⟩ := items_written (f:=ByteRows.writeAt l c.len tick)
    (fun p hp => writeAt_does hw hroom (hsized p hp)) (fun p _ w' _ => writeAt_agrees p.2) hs hrun
  have hset := hs₁.setEntity c.len (rfl : e=e)
  rw [←view_setEntity hw hroom] at hset
  rw [getState_bind,getState_bind,hs.len,bind_ok hrun,bind_ok hrun₁]
  refine SameExit.ok (stored_increaseLen hset hrow.len fun t r hr => ?_)
  obtain hlt | heq := Nat.lt_succ_iff_lt_or_eq.mp hr.2
  · exact .inr ⟨hr.1,hlt⟩
  · refine .inl ⟨?_,heq⟩
    rw [items_types]
    exact hcover t hr.1

/-- A row taken out on both sides. -/
theorem removeRow_stored (hb : Built specs components l) (idx : ℕ) {s : ByteChunk}
    {c : Chunk (List UInt8)} (hs : Stored l s c) (hlen : c.len ≤ l.maxLen) :
    SameExit (fun _ => Stored l) (Stored l)
      ((do
        let swappedRow ← ByteRows.swapRemoveAt l idx
        modifyState ByteChunk.decreaseLen
        return swappedRow : Faulting ByteChunk Fault (Option SwappedRow)) s)
      ((do
        let swappedRow ← ChunkRows.swapRemoveAt l idx
        modifyState Chunk.decreaseLen
        return swappedRow : Faulting (Chunk (List UInt8)) Fault (Option SwappedRow)) c) := by
  obtain ⟨n,size,hof,-,-⟩ := built_placed hb
  have hw := wellFormed_of hof
  have hview : (view l s).len ≤ l.maxLen := (Agree.len hs).trans_le hlen
  have hlive : ∀ col∈l.columns,∀ r,r<c.len → Live l c.len col.storageTypeId r := fun col hcol r hr =>
    ⟨(hw.mem_keys _).mpr (List.mem_map_of_mem hcol),hr⟩
  have hexit := (swapRemoveAt_shows hb idx s (view l s) ⟨rfl,hview⟩).trans
    (swapRemoveAt_agrees (view l s) c ⟨hs,hlive⟩)
  by_cases hidx : idx<c.len
  · obtain ⟨c₁,hrun,hfill⟩ := swapRemoveAt_spec hw hidx
    rw [hrun] at hexit
    obtain ⟨s₁,hrun₁,b,rfl,hs₁⟩ := hexit.returns
    rw [bind_ok hrun,bind_ok hrun₁]
    refine SameExit.ok (Stored.of_reads (n:=c.len) hs₁.decreaseLen ?_)
    change c₁.len-1 ≤ c.len
    rw [hfill.len]
    exact Nat.sub_le _ _
  · have hrun : ChunkRows.swapRemoveAt l idx c=(.error (.err (.idxIsOutOfChunkLen idx c.len)),c) :=
      if_pos (Nat.not_lt.mp hidx)
    have hrun₁ : ByteRows.swapRemoveAt l idx s=(.error (.err (.idxIsOutOfChunkLen idx c.len)),s) := by
      rw [←hs.len]
      refine if_pos ?_
      rw [hs.len]
      exact Nat.not_lt.mp hidx
    rw [bind_error hrun,bind_error hrun₁]
    exact .error hs

/-- A row in use overwritten on both sides. -/
theorem replaceRow_stored (hb : Built specs components l) {val : Bundle (List UInt8)}
    (hv : Accepts l val) (hsized : Sized val.items) {row : ℕ} (tick : ChangedTick) {s : ByteChunk}
    {c : Chunk (List UInt8)} (hs : Stored l s c) (hrow : row<c.len) (hlen : c.len ≤ l.maxLen) :
    SameExit (fun _ => Stored l) (fun _ _ => False)
      (forItems (ByteRows.replaceAt l row tick) val.items s)
      (forItems (ChunkRows.replaceAt l row tick) val.items c) := by
  have hw := built_wellFormed hb
  obtain ⟨c₁,hrun,hrows⟩ := replaceItems_written hv.items_nodup hv.items_writable c
  have hlive : ∀ p∈val.items,Live l c.len p.1.storageType row := by
    intro p hp
    obtain ⟨d,hd,-⟩ := hv.items_writable p hp
    exact ⟨AList.lookup_isSome.mp (by rw [hd]; rfl),hrow⟩
  have hagrees : ∀ p∈val.items,∀ w',(∀ t r,Live l c.len t r → w' t r) →
      Agrees w' (w'.add p.1.storageType row) (ChunkRows.replaceAt l row tick p.1 p.2) := by
    intro p hp w' hw'
    have hp' := hw' _ _ (hlive p hp)
    rw [Written.add_self hp']
    exact replaceAt_agrees p.2 hp'
  obtain ⟨s₁,hrun₁,hs₁⟩ := items_written (f:=ByteRows.replaceAt l row tick)
    (fun p hp => replaceAt_does hw (hrow.trans_le hlen) (hsized p hp)) hagrees hs hrun
  rw [hrun,hrun₁]
  refine .ok (Stored.of_reads (hs₁.mono fun t r => .inr) ?_)
  rw [hrows.len]

end Chunks

section Archetypes

variable {components : List ComponentDescriptor} {specs : ComponentSpecs} {l : ChunkLayout}
  {a : ByteArchetype} {b : Archetype (List UInt8)} {i : ℕ}

/-- The bytes of an archetype stand for its table, chunk by chunk. -/
structure Stands (l : ChunkLayout) (a : ByteArchetype) (b : Archetype (List UInt8)) : Prop where
  /-- There are as many chunks as in the table. -/
  length : a.chunks.length=b.chunks.length
  /-- Each chunk reads back as its table. -/
  chunks : ∀ (i : ℕ) (s : ByteChunk) (c : Chunk (List UInt8)),
    a.chunks[i]?=some s → b.chunks[i]?=some c → Stored l s c
  /-- The queues agree. -/
  freeChunks : a.freeChunks=b.freeChunks
  /-- The sets of queued chunks agree. -/
  freeChunksStored : a.freeChunksStored=b.freeChunksStored
  /-- The flags agree. -/
  isSingleton : a.isSingleton=b.isSingleton

/-- Behind a chunk of the table there are its bytes. -/
theorem Stands.chunk (h : Stands l a b) {c : Chunk (List UInt8)} (hc : b.chunks[i]?=some c) :
    ∃ s,a.chunks[i]?=some s ∧ Stored l s c := by
  have hlt := (List.getElem?_eq_some_iff.mp hc).1
  rw [←h.length] at hlt
  exact ⟨_,List.getElem?_eq_getElem hlt,h.chunks i _ c (List.getElem?_eq_getElem hlt) hc⟩

theorem Stands.none (h : Stands l a b) : a.chunks[i]?=none ↔ b.chunks[i]?=none := by
  rw [List.getElem?_eq_none_iff,List.getElem?_eq_none_iff,h.length]

theorem Stands.set (h : Stands l a b) {s : ByteChunk} {c : Chunk (List UInt8)} (hs : Stored l s c) :
    Stands l { a with chunks := a.chunks.set i s } { b with chunks := b.chunks.set i c } := by
  refine ⟨?_,fun j s' c' hs' hc' => ?_,h.freeChunks,h.freeChunksStored,h.isSingleton⟩
  · dsimp only
    rw [List.length_set,List.length_set,h.length]
  · dsimp only at hs' hc'
    rw [List.getElem?_set] at hs' hc'
    by_cases hj : i=j
    · rw [if_pos hj] at hs' hc'
      split at hs' <;> split at hc' <;> cases hs' <;> cases hc'
      exact hs
    · rw [if_neg hj] at hs' hc'
      exact h.chunks j s' c' hs' hc'

theorem Stands.cacheFreeChunk (h : Stands l a b) (i : ℕ) :
    Stands l (a.cacheFreeChunk i) (b.cacheFreeChunk i) := by
  unfold ByteArchetype.cacheFreeChunk Archetype.cacheFreeChunk
  rw [h.freeChunksStored,h.freeChunks]
  split
  · exact h
  · exact ⟨h.length,h.chunks,rfl,rfl,h.isSingleton⟩

theorem Stands.cacheUnlessFull (h : Stands l a b) (i : ℕ) :
    Stands l (a.cacheUnlessFull i) (b.cacheUnlessFull i) := by
  unfold ByteArchetype.cacheUnlessFull Archetype.cacheUnlessFull
  cases hc : b.chunks[i]? with
  | none =>
    rw [h.none.mpr hc]
    exact h
  | some c =>
    obtain ⟨s,hs,hstored⟩ := h.chunk hc
    rw [hs]
    dsimp only
    rw [hstored.isFull]
    split
    · exact h
    · exact h.cacheFreeChunk i

/-- Work on a chunk that both sides have. -/
theorem Stands.onChunk {α : Type} (h : Stands l a b) {x : Faulting ByteChunk Fault α}
    {y : Faulting (Chunk (List UInt8)) Fault α} {s : ByteChunk} {c : Chunk (List UInt8)}
    {E : ByteChunk → Chunk (List UInt8) → Prop} (hs : a.chunks[i]?=some s) (hc : b.chunks[i]?=some c)
    (hE : ∀ s c,E s c → Stored l s c) (hxy : SameExit (fun _ => Stored l) E (x s) (y c)) :
    SameExit (fun _ => Stands l) (Stands l) (ByteArchetypes.onChunk i x a)
      (ArchetypeStore.onChunk i y b) :=
  hxy.focus hs hc (fun _ _ _ hq => h.set hq) fun _ _ he => h.set (hE _ _ he)

/-- Both sides take the same chunk with room, or open one at the same place. -/
theorem takeAFreeChunkIdx_stands (hb : Built specs components l) (h : Stands l a b)
    (hsound : Sound l b none) (fresh : Memory) :
    ∃ i a₁ b₁ s c,takeAFreeChunkIdx l fresh a=(.ok i,a₁) ∧
      ArchetypeStore.takeAFreeChunkIdx l b=(.ok i,b₁) ∧ Stands l a₁ b₁ ∧ a₁.chunks[i]?=some s ∧
      b₁.chunks[i]?=some c ∧ Stored l s c ∧ c.len<l.maxLen := by
  obtain ⟨n,size,hof,-,-⟩ := built_placed hb
  obtain ⟨i,b₁,c,hrun,hc,hroom,hs₁,-,-,-⟩ := takeAFreeChunkIdx_spec hsound hof.maxLen_pos
  have hmax := hs₁.maxLen i c hc
  have htake : ∃ a₁,takeAFreeChunkIdx l fresh a=(.ok i,a₁) ∧ Stands l a₁ b₁ := by
    unfold takeAFreeChunkIdx
    unfold ArchetypeStore.takeAFreeChunkIdx at hrun
    rw [h.freeChunks,h.freeChunksStored,h.length]
    cases hf : b.freeChunks with
    | cons j rest =>
      rw [hf] at hrun
      cases hrun
      exact ⟨_,rfl,h.length,h.chunks,rfl,rfl,h.isSingleton⟩
    | nil =>
      rw [hf] at hrun
      cases hrun
      refine ⟨_,rfl,?_,fun j s' c' hs' hc' => ?_,rfl,rfl,h.isSingleton⟩
      · dsimp only
        rw [List.length_append,List.length_append,h.length]
        rfl
      · dsimp only at hs' hc'
        rw [List.getElem?_append] at hs' hc'
        rw [h.length] at hs'
        split at hs'
        · rename_i hj
          rw [if_pos hj] at hc'
          exact h.chunks j s' c' hs' hc'
        · rename_i hj
          rw [if_neg hj] at hc'
          rw [List.getElem?_singleton] at hs' hc'
          split at hs' <;> split at hc' <;> cases hs' <;> cases hc' <;> exact stored_new hb fresh
  obtain ⟨a₁,hrun₁,hstands⟩ := htake
  obtain ⟨s,hs,hstored⟩ := hstands.chunk hc
  exact ⟨i,a₁,b₁,s,c,hrun₁,hrun,hstands,hs,hc,hstored,by omega⟩

/-- The caller's side of `push`: distinct storage types that cover the columns, and values
of the right size. -/
structure Full (l : ChunkLayout) (val : Bundle (List UInt8)) : Prop where
  /-- No storage type comes twice. -/
  nodup : val.ty.storageTypes.Nodup
  /-- Each value has the size of its type. -/
  sized : Sized val.items
  /-- Every column is given a value. -/
  covers : ∀ t,t∈l.componentColDescriptors → t∈val.ty.storageTypes

/-- `push` on bytes. -/
theorem push_stands (hb : Built specs components l) (h : Stands l a b) (hsound : Sound l b none)
    {val : Bundle (List UInt8)} (hv : Full l val) (fresh : Memory) (e : Entity) (tick : ChangedTick) :
    SameExit (fun _ => Stands l) (Stands l) (push l fresh e val tick a)
      (ArchetypeStore.push l e val tick b) := by
  unfold push ArchetypeStore.push
  cases hval : validateArchetypeWritable val.ty l with
  | error err => exact .error h
  | ok u =>
    cases u
    have haccepts : Accepts l val := ⟨hv.nodup,validateArchetypeWritable_ok.mp hval⟩
    obtain ⟨i,a₁,b₁,s,c,hrun,hrun',hst,hs,hc,hstored,hroom⟩ := takeAFreeChunkIdx_stands hb h hsound fresh
    have hpush := hst.onChunk hs hc (fun _ _ he => he.elim)
      (pushRow_stored hb haccepts hv.sized hv.covers e tick hstored hroom)
    change SameExit _ _ ((takeAFreeChunkIdx l fresh >>= _) a)
      ((ArchetypeStore.takeAFreeChunkIdx l >>= _) b)
    rw [bind_ok hrun,bind_ok hrun']
    exact hpush.bind fun idx a₂ b₂ h₂ => .ok (h₂.cacheUnlessFull i)

/-- `remove_at` on bytes. -/
theorem removeAt_stands (hb : Built specs components l) (h : Stands l a b) (hsound : Sound l b none)
    (chunkIdx idx : ℕ) :
    SameExit (fun _ => Stands l) (Stands l) (removeAt l chunkIdx idx a)
      (ArchetypeStore.removeAt l chunkIdx idx b) := by
  unfold removeAt ArchetypeStore.removeAt
  rw [getState_bind,getState_bind,h.length]
  by_cases hlt : b.chunks.length ≤ chunkIdx
  · rw [if_pos hlt,if_pos hlt]
    exact .error h
  · rw [if_neg hlt,if_neg hlt]
    have hc := List.getElem?_eq_getElem (Nat.not_le.mp hlt)
    obtain ⟨s,hs,hstored⟩ := h.chunk hc
    have hlen := (hsound.len_le _ _ hc).trans_eq (hsound.maxLen _ _ hc)
    have hremove := h.onChunk hs hc (fun _ _ he => he) (removeRow_stored hb idx hstored hlen)
    exact hremove.bind fun swapped a₁ b₁ h₁ => .ok (h₁.cacheFreeChunk chunkIdx)

/-- `replace_at` on bytes, of a row in use. -/
theorem replaceRowAt_stands (hb : Built specs components l) (h : Stands l a b)
    (hsound : Sound l b none) {chunkIdx idx : ℕ} {c : Chunk (List UInt8)}
    (hc : b.chunks[chunkIdx]?=some c) (hidx : idx<c.len) {val : Bundle (List UInt8)}
    (hn : val.ty.storageTypes.Nodup) (hsized : Sized val.items) (tick : ChangedTick) :
    SameExit (fun _ => Stands l) (Stands l) (replaceRowAt l chunkIdx idx val tick a)
      (ArchetypeStore.replaceRowAt l chunkIdx idx val tick b) := by
  unfold replaceRowAt ArchetypeStore.replaceRowAt
  cases hval : validateArchetypeWritable val.ty l with
  | error err => exact .error h
  | ok u =>
    cases u
    have haccepts : Accepts l val := ⟨hn,validateArchetypeWritable_ok.mp hval⟩
    obtain ⟨s,hs,hstored⟩ := h.chunk hc
    have hlen := (hsound.len_le _ _ hc).trans_eq (hsound.maxLen _ _ hc)
    exact h.onChunk hs hc (fun _ _ he => he.elim)
      (replaceRow_stored hb haccepts hsized tick hstored hidx hlen)

/-- Work on a chunk that both sides have or both lack. -/
theorem Stands.onAnyChunk {α : Type} (h : Stands l a b) {x : Faulting ByteChunk Fault α}
    {y : Faulting (Chunk (List UInt8)) Fault α}
    (hxy : ∀ s c,Stored l s c → SameExit (fun _ => Stored l) (Stored l) (x s) (y c)) :
    SameExit (fun _ => Stands l) (Stands l) (ByteArchetypes.onChunk i x a)
      (ArchetypeStore.onChunk i y b) := by
  cases hc : b.chunks[i]? with
  | some c =>
    obtain ⟨s,hs,hstored⟩ := h.chunk hc
    exact h.onChunk hs hc (fun _ _ he => he) (hxy s c hstored)
  | none =>
    have hx : ByteArchetypes.onChunk i x a=(.error .undefinedBehaviour,a) :=
      focus_missing (h.none.mpr hc)
    have hy : ArchetypeStore.onChunk i y b=(.error .undefinedBehaviour,b) := focus_missing hc
    rw [hx,hy]
    exact .error h

/-- A row as the bytes have it. -/
def ByteArchetype.row (layout : ChunkLayout) (a : ByteArchetype) (ix : EntityInChunkIndices) :
    Option (Entity×RowData (List UInt8)) :=
  (a.chunks[ix.chunkIdx]?).bind fun s => (view layout s).row layout ix.idxInChunk

/-- The bytes of values that were dropped, chunk by chunk. -/
def ByteArchetype.dropped (a : ByteArchetype) : List (List (StorageType×List UInt8)) :=
  a.chunks.map ByteChunk.dropped

/-- The same of a table. -/
def Archetype.dropped (a : Archetype (List UInt8)) : List (List (StorageType×List UInt8)) :=
  a.chunks.map Chunk.dropped

/-- Bytes that stand for a table have its rows. -/
theorem Stands.row {l : ChunkLayout} {a : ByteArchetype} {b : Archetype (List UInt8)}
    (h : Stands l a b) : a.row l=Archetype.row l b := by
  funext ix
  unfold ByteArchetype.row Archetype.row
  cases hc : b.chunks[ix.chunkIdx]? with
  | none =>
    rw [h.none.mpr hc]
    rfl
  | some c =>
    obtain ⟨s,hs,hstored⟩ := h.chunk hc
    have hlen : (view l s).len=c.len := Agree.len hstored
    rw [hs,Option.bind_some,Option.bind_some,Chunk.row,Chunk.row,hlen,Agree.entities hstored]
    split
    · rename_i hr
      refine congrArg (fun d => some (c.entities ix.idxInChunk,d)) (funext fun t => ?_)
      unfold Chunk.rowData
      cases hd : l.componentColDescriptors.lookup t with
      | none => rfl
      | some d =>
        have hmem : t∈l.componentColDescriptors := AList.lookup_isSome.mp (by rw [hd]; rfl)
        exact congrArg some (readCell_agrees (Agree.cells hstored t ix.idxInChunk) ⟨hmem,hr⟩ _)
    · rfl

/-- Bytes that stand for a table have dropped what it has dropped. -/
theorem Stands.dropped {l : ChunkLayout} {a : ByteArchetype} {b : Archetype (List UInt8)}
    (h : Stands l a b) : a.dropped=Archetype.dropped b := by
  refine List.ext_getElem? fun i => ?_
  unfold ByteArchetype.dropped Archetype.dropped
  rw [List.getElem?_map,List.getElem?_map]
  cases hc : b.chunks[i]? with
  | none => rw [h.none.mpr hc]; rfl
  | some c =>
    obtain ⟨s,hs,hstored⟩ := h.chunk hc
    rw [hs]
    exact congrArg some hstored.dropped

end Archetypes

section Pairs

variable {components components' : List ComponentDescriptor} {specs specs' : ComponentSpecs}
  {sl dl : ChunkLayout} {p : BytePair} {q : ArchetypePair (List UInt8)} {α : Type}

/-- Both archetypes of a pair stand for their tables. -/
structure PairStands (dl sl : ChunkLayout) (p : BytePair) (q : ArchetypePair (List UInt8)) :
    Prop where
  /-- The destination stands for its table. -/
  dst : Stands dl p.dst q.dst
  /-- The source stands for its table. -/
  src : Stands sl p.src q.src

theorem PairStands.onDst (h : PairStands dl sl p q) {x : Faulting ByteArchetype Fault α}
    {y : Faulting (Archetype (List UInt8)) Fault α}
    (hxy : SameExit (fun _ => Stands dl) (Stands dl) (x p.dst) (y q.dst)) :
    SameExit (fun _ => PairStands dl sl) (PairStands dl sl) (onDst x p) (ArchetypeStore.onDst y q) :=
  hxy.focus rfl rfl (fun _ _ _ hs => ⟨hs,h.src⟩) fun _ _ hs => ⟨hs,h.src⟩

theorem PairStands.onSrc (h : PairStands dl sl p q) {x : Faulting ByteArchetype Fault α}
    {y : Faulting (Archetype (List UInt8)) Fault α}
    (hxy : SameExit (fun _ => Stands sl) (Stands sl) (x p.src) (y q.src)) :
    SameExit (fun _ => PairStands dl sl) (PairStands dl sl) (onSrc x p) (ArchetypeStore.onSrc y q) :=
  hxy.focus rfl rfl (fun _ _ _ hs => ⟨h.dst,hs⟩) fun _ _ hs => ⟨h.dst,hs⟩

/-- A row that arrived behind the last one, before what is new in it is written. -/
def Arrived (sl dl : ChunkLayout) (n : ℕ) : Written :=
  (Live dl n).addRow (fun t => t∈sl.componentColDescriptors ∧ t∈dl.componentColDescriptors) n

/-- The columns of a source layout that a plan moves are those the destination has. -/
theorem moves_plan (hw : ChunkRows.WellFormed sl) {t : StorageType}
    (hs : t∈sl.componentColDescriptors) (hd : t∈dl.componentColDescriptors) :
    Moves (MigrationPlan.new sl dl).components t := by
  obtain ⟨d,hlook⟩ := Option.isSome_iff_exists.mp (AList.lookup_isSome.mpr hs)
  obtain ⟨d',hlook'⟩ := Option.isSome_iff_exists.mp (AList.lookup_isSome.mpr hd)
  obtain ⟨mig,hmem,ht,-,hmove⟩ : ∃ mig∈(MigrationPlan.new sl dl).components,
      mig.src.storageTypeId=t ∧ mig.src.stateOffset=d.stateOffset ∧
      ∀ d',dl.componentColDescriptors.lookup t=some d' → mig=.move mig.src d'.offset d'.stateOffset :=
    MigrationPlan.new_entry hw hlook
  have hm := hmove d' hlook'
  rw [hm] at hmem
  exact ⟨mig.src,d'.offset,d'.stateOffset,hmem,ht⟩

/-- `take_from` on the bytes of two chunks that stand for their tables. -/
theorem takeFrom_stored (hs : Built specs components sl) (hd : Built specs' components' dl)
    {dst src : ByteChunk} {c d : Chunk (List UInt8)} {fromRow : ℕ} (hdst : Stored dl dst d)
    (hsrc : Stored sl src c) (hfrom : fromRow<c.len) (hlen : c.len ≤ sl.maxLen)
    (hroom : d.len<dl.maxLen) :
    (ByteRows.takeFrom dst src dl sl fromRow d.len (MigrationPlan.new sl dl)).1=
        (ChunkRows.takeFrom d c fromRow d.len (MigrationPlan.new sl dl)).1 ∧
      Reads (Arrived sl dl d.len) dl
        (ByteRows.takeFrom dst src dl sl fromRow d.len (MigrationPlan.new sl dl)).2.1
        (ChunkRows.takeFrom d c fromRow d.len (MigrationPlan.new sl dl)).2.1 ∧
      Reads (Live sl c.len) sl
        (ByteRows.takeFrom dst src dl sl fromRow d.len (MigrationPlan.new sl dl)).2.2
        (ChunkRows.takeFrom d c fromRow d.len (MigrationPlan.new sl dl)).2.2 := by
  obtain ⟨n,size,hof,-,-⟩ := built_placed hs
  have hw := wellFormed_of hof
  have hlast : src.raw.len-1<sl.maxLen := by
    rw [hsrc.len]
    omega
  have hview := view_takeFrom dst src hs hd (hfrom.trans_le hlen) hlast hroom
  have hlive : ∀ mig∈(MigrationPlan.new sl dl).components,
      Live sl c.len mig.src.storageTypeId fromRow ∧ Live sl c.len mig.src.storageTypeId (c.len-1) := by
    intro mig hmig
    have hmem : mig.src.storageTypeId∈sl.componentColDescriptors := by
      rw [hw.mem_keys,←MigrationPlan.new_types sl dl]
      exact List.mem_map_of_mem (f:=fun mig : ComponentMigration => mig.src.storageTypeId) hmig
    exact ⟨⟨hmem,hfrom⟩,⟨hmem,by omega⟩⟩
  obtain ⟨hswap,hdst',hsrc'⟩ := Agree.takeFrom d.len hdst hsrc hlive
  rw [←hview] at hswap hdst' hsrc'
  refine ⟨hswap,hdst'.mono fun t r hr => ?_,hsrc'⟩
  exact hr.imp_left fun hm => ⟨moves_plan hw hm.1.1 hm.1.2,hm.2⟩

/-- The row moved, written and counted on both sides. -/
theorem takeRowFrom_stands (hs : Built specs components sl) (hd : Built specs' components' dl)
    (h : PairStands dl sl p q) (hdst : Sound dl q.dst none) (hsrc : Sound sl q.src none)
    {srcE : EntityInChunkIndices} {c : Chunk (List UInt8)}
    (hc : q.src.chunks[srcE.chunkIdx]?=some c) (hidx : srcE.idxInChunk<c.len)
    {x : ℕ → Faulting ByteChunk Fault Unit} {y : ℕ → Faulting (Chunk (List UInt8)) Fault Unit}
    (hwrite : ∀ n,n<dl.maxLen → ∀ s d,Reads (Arrived sl dl n) dl s d → d.len=n →
      SameExit (fun _ s d => Reads (Live dl (n+1)) dl s d ∧ d.len=n) (fun _ _ => False)
        (x n s) (y n d)) (fresh : Memory) :
    SameExit (fun _ => PairStands dl sl) (PairStands dl sl)
      (takeRowFrom srcE sl dl fresh (MigrationPlan.new sl dl) x p)
      (ArchetypeStore.takeRowFrom srcE dl (MigrationPlan.new sl dl) y q) := by
  obtain ⟨n,size,hof,-,-⟩ := built_placed hs
  obtain ⟨i,a₁,b₁,s,d,hrun,hrun',hst,hsi,hdi,hstored,hroom⟩ :=
    takeAFreeChunkIdx_stands hd h.dst hdst fresh
  obtain ⟨src,hsrci,hstored'⟩ := h.src.chunk hc
  have hlen := (hsrc.len_le _ _ hc).trans_eq (hsrc.maxLen _ _ hc)
  obtain ⟨hswap,hdst',hsrc'⟩ := takeFrom_stored hs hd hstored hstored' hidx hlen hroom
  obtain ⟨-,harrived,hfilled⟩ : _ ∧ RowArrived sl dl c srcE.idxInChunk d
      (ChunkRows.takeFrom d c srcE.idxInChunk d.len (MigrationPlan.new sl dl)).2.1 d.len ∧
    HoleFilled sl c (ChunkRows.takeFrom d c srcE.idxInChunk d.len (MigrationPlan.new sl dl)).2.2
      srcE.idxInChunk := takeFrom_spec (wellFormed_of hof)
  have hrunb : onDst (takeAFreeChunkIdx dl fresh) p=(.ok i,{ p with dst := a₁ }) := focus_eq rfl hrun
  unfold takeRowFrom ArchetypeStore.takeRowFrom
  rw [bind_ok hrunb,bind_ok (ArchetypeStore.onDst_eq hrun'),getState_bind,getState_bind]
  dsimp only
  rw [hsi,hsrci,hdi,hc]
  dsimp only
  rw [hstored.len]
  generalize ByteRows.takeFrom s src dl sl srcE.idxInChunk d.len (MigrationPlan.new sl dl)=taken
    at hswap hdst' hsrc'
  generalize ChunkRows.takeFrom d c srcE.idxInChunk d.len (MigrationPlan.new sl dl)=taken'
    at hswap hdst' hsrc' harrived hfilled
  have hpair : PairStands dl sl ⟨{ a₁ with chunks := a₁.chunks.set i taken.2.1 },
      { p.src with chunks := p.src.chunks.set srcE.chunkIdx taken.2.2 }⟩
      ⟨{ b₁ with chunks := b₁.chunks.set i taken'.2.1 },
        { q.src with chunks := q.src.chunks.set srcE.chunkIdx taken'.2.2 }⟩ := by
    refine ⟨hst.set ?_,h.src.set ?_⟩
    · refine Stored.of_reads (n:=d.len) (hdst'.mono fun t r => .inr) ?_
      rw [harrived.len]
    · refine Stored.of_reads (n:=c.len) hsrc' ?_
      rw [hfilled.len]
  have hcount : SameExit (fun _ => Stored dl) (fun _ _ => False)
      ((do
        x d.len
        modifyState ByteChunk.increaseLen : Faulting ByteChunk Fault Unit) taken.2.1)
      ((do
        y d.len
        modifyState Chunk.increaseLen : Faulting (Chunk (List UInt8)) Fault Unit) taken'.2.1) :=
    (hwrite d.len hroom _ _ hdst' harrived.len).bind fun _ s' d' hs' =>
      .ok (stored_increaseLen hs'.1 hs'.2 fun _ _ hr => hr)
  have hilt := (List.getElem?_eq_some_iff.mp hsi).1
  have hilt' := (List.getElem?_eq_some_iff.mp hdi).1
  have hdown : ∀ s d,Stored sl s d → SameExit (fun _ => Stored sl) (Stored sl)
      ((modifyState ByteChunk.decreaseLen : Faulting ByteChunk Fault Unit) s)
      ((modifyState Chunk.decreaseLen : Faulting (Chunk (List UInt8)) Fault Unit) d) :=
    fun s d hsd => .ok (Stored.of_reads (Agree.decreaseLen hsd) (Nat.sub_le _ _))
  rw [modifyState_bind,modifyState_bind,hswap]
  refine (hpair.onDst (hpair.dst.onChunk (List.getElem?_set_self hilt) (List.getElem?_set_self hilt')
    (fun _ _ he => he.elim) hcount)).bind fun _ p₁ q₁ h₁ => ?_
  refine (h₁.onSrc (h₁.src.onAnyChunk hdown)).bind fun _ p₂ q₂ h₂ => ?_
  exact .ok ⟨h₂.dst.cacheUnlessFull i,h₂.src.cacheFreeChunk srcE.chunkIdx⟩

end Pairs

end XynokEcs.ByteArchetypes
