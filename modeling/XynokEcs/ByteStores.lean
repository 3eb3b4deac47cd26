import XynokEcs.ByteArchetypes

/-!
# Runs on bytes

A store keeps one archetype for each layout. A run of row operations, each on the
archetypes it names, is carried out on tables and on bytes. Whatever the allocator
hands out for new chunks, the run on bytes reports call by call what the run on tables
reports, and the bytes it leaves read as the tables: a value that was never written
is neither read nor dropped by any of them.
-/

namespace XynokEcs.ByteStores

open ComponentTypes EntityHandle SequenceValueMap ChunkLayouts FaultingState RowDirectory ChunkRows
  RowWrites ArchetypeStore LayoutRegions ByteMemory ByteMigration ActionRuns PairedRuns WrittenCells
  ByteRows ByteArchetypes

section Moves

variable {components components' : List ComponentDescriptor} {specs specs' : ComponentSpecs}
  {sl dl : ChunkLayout} {p : BytePair} {q : ArchetypePair (List UInt8)} {srcE : EntityInChunkIndices}
  {c : Chunk (List UInt8)} {tick : ChangedTick}

/-- A bundle laid over a row that has just arrived, on both sides. -/
theorem writeOrReplace_stored (hd : Built specs' components' dl) {val : Bundle (List UInt8)}
    (hv : Accepts dl val) (hsized : Sized val.items)
    (hcover : ∀ t,t∈dl.componentColDescriptors →
      t∈sl.componentColDescriptors ∨ t∈val.ty.storageTypes) {n : ℕ} (hroom : n<dl.maxLen)
    {s : ByteChunk} {d : Chunk (List UInt8)} (h : Reads (Arrived sl dl n) dl s d) (hlen : d.len=n) :
    SameExit (fun _ s d => Reads (Live dl (n+1)) dl s d ∧ d.len=n) (fun _ _ => False)
      (forItems (ByteRows.writeOrReplaceAt sl dl n tick) val.items s)
      (forItems (ChunkRows.writeOrReplaceAt sl dl n tick) val.items d) := by
  have hw := built_wellFormed hd
  obtain ⟨d₁,hrun,hrows⟩ := writeOrReplaceItems_written hv.items_nodup hv.items_writable d
  have hagrees : ∀ p∈val.items,∀ w',(∀ t r,Arrived sl dl n t r → w' t r) →
      Agrees w' (w'.add p.1.storageType n) (ChunkRows.writeOrReplaceAt sl dl n tick p.1 p.2) := by
    intro p hp w' hw'
    refine writeOrReplaceAt_agrees p.2 fun hmem => hw' _ _ (.inl ⟨⟨hmem,?_⟩,rfl⟩)
    obtain ⟨x,hx,-⟩ := hv.items_writable p hp
    exact AList.lookup_isSome.mp (by rw [hx]; rfl)
  obtain ⟨s₁,hrun₁,hs₁⟩ := items_written (f:=ByteRows.writeOrReplaceAt sl dl n tick)
    (fun p hp => writeOrReplaceAt_does hw hroom (hsized p hp)) hagrees h hrun
  rw [hrun,hrun₁]
  refine .ok ⟨hs₁.mono fun t r hr => ?_,hrows.len.trans hlen⟩
  obtain hlt | rfl := Nat.lt_succ_iff_lt_or_eq.mp hr.2
  · exact .inr (.inr ⟨hr.1,hlt⟩)
  · obtain hsrc | hnew := hcover t hr.1
    · exact .inr (.inl ⟨⟨hsrc,hr.1⟩,rfl⟩)
    · rw [←items_types] at hnew
      exact .inl ⟨hnew,rfl⟩

/-- `take_and_write_from` on bytes. -/
theorem takeAndWriteFrom_stands (hs : Built specs components sl) (hd : Built specs' components' dl)
    (h : PairStands dl sl p q) (hdst : Sound dl q.dst none) (hsrc : Sound sl q.src none)
    (hc : q.src.chunks[srcE.chunkIdx]?=some c) (hidx : srcE.idxInChunk<c.len)
    {val : Bundle (List UInt8)} (hn : val.ty.storageTypes.Nodup) (hsized : Sized val.items)
    (hcover : ∀ t,t∈dl.componentColDescriptors →
      t∈sl.componentColDescriptors ∨ t∈val.ty.storageTypes) (fresh : Memory) :
    SameExit (fun _ => PairStands dl sl) (PairStands dl sl)
      (takeAndWriteFrom srcE sl dl fresh (MigrationPlan.new sl dl) val tick p)
      (ArchetypeStore.takeAndWriteFrom srcE sl dl (MigrationPlan.new sl dl) val tick q) := by
  unfold ByteArchetypes.takeAndWriteFrom ArchetypeStore.takeAndWriteFrom
  cases hval : validateArchetypeWritable val.ty dl with
  | error err => exact .error h
  | ok u =>
    cases u
    have haccepts : Accepts dl val := ⟨hn,validateArchetypeWritable_ok.mp hval⟩
    exact takeRowFrom_stands hs hd h hdst hsrc hc hidx (fun n hroom s d hsd hlen =>
      writeOrReplace_stored hd haccepts hsized hcover hroom hsd hlen) fresh

/-- `take_and_remove_from` on bytes. -/
theorem takeAndRemoveFrom_stands (hs : Built specs components sl) (hd : Built specs' components' dl)
    (h : PairStands dl sl p q) (hdst : Sound dl q.dst none) (hsrc : Sound sl q.src none)
    (hc : q.src.chunks[srcE.chunkIdx]?=some c) (hidx : srcE.idxInChunk<c.len) (T : TArchetype)
    (hcover : ∀ t,t∈dl.componentColDescriptors → t∈sl.componentColDescriptors) (fresh : Memory) :
    SameExit (fun _ => PairStands dl sl) (PairStands dl sl)
      (takeAndRemoveFrom T srcE sl dl fresh (MigrationPlan.new sl dl) p)
      (ArchetypeStore.takeAndRemoveFrom T srcE sl dl (MigrationPlan.new sl dl) q) := by
  unfold ByteArchetypes.takeAndRemoveFrom ArchetypeStore.takeAndRemoveFrom
  cases hval : validateArchetypeTakeable T sl with
  | error err => exact .error h
  | ok u =>
    cases u
    have hlen := (hsrc.len_le _ _ hc).trans_eq (hsrc.maxLen _ _ hc)
    obtain ⟨s,hsi,hstored⟩ := h.src.chunk hc
    obtain ⟨b,hb⟩ : ∃ b,ChunkRows.takeBundle sl srcE.idxInChunk T c=(.ok b,c) := by
      obtain ⟨b,hb,-⟩ := takeBundle_spec (validateArchetypeTakeable_ok.mp hval) c
      exact ⟨b,hb⟩
    have hread := (takeBundle_does (hidx.trans_le hlen)).reads
      (takeBundle_agrees (T:=T) fun t ht => (⟨ht,hidx⟩ : Live sl c.len t srcE.idxInChunk)) s c hstored
    rw [hb] at hread
    obtain ⟨s',hs',hstored'⟩ := hread.returns
    have htable : ArchetypeStore.onSrc (ArchetypeStore.onChunk srcE.chunkIdx
        (ChunkRows.takeBundle sl srcE.idxInChunk T)) q=(.ok b,q) := by
      have hrun := onSrc_eq (ArchetypeStore.onChunk_eq hc hb)
      have hset : q.src.chunks.set srcE.chunkIdx c=q.src.chunks := by
        obtain ⟨hlt,rfl⟩ := List.getElem?_eq_some_iff.mp hc
        exact List.set_getElem_self hlt
      rwa [hset] at hrun
    have hchunk : SameExit (fun _ => Stored sl) (Stored sl)
        (ByteRows.takeBundle sl srcE.idxInChunk T s) (ChunkRows.takeBundle sl srcE.idxInChunk T c) := by
      rw [hb,hs']
      exact .ok hstored'
    have hbytes := h.onSrc (h.src.onChunk hsi hc (fun _ _ he => he) hchunk)
    rw [htable] at hbytes
    obtain ⟨p',hp',hpair⟩ := hbytes.returns
    change SameExit _ _ ((onSrc (onChunk srcE.chunkIdx (ByteRows.takeBundle sl srcE.idxInChunk T)) >>= _) p)
      ((ArchetypeStore.onSrc (ArchetypeStore.onChunk srcE.chunkIdx
        (ChunkRows.takeBundle sl srcE.idxInChunk T)) >>= _) q)
    rw [bind_ok htable,bind_ok hp']
    refine (takeRowFrom_stands hs hd hpair hdst hsrc hc hidx (fun n hroom s d hsd hlen =>
      SameExit.ok ⟨hsd.mono fun t r hr => ?_,hlen⟩) fresh).bind fun r p₁ q₁ h₁ => .ok h₁
    obtain hlt | rfl := Nat.lt_succ_iff_lt_or_eq.mp hr.2
    · exact .inr ⟨hr.1,hlt⟩
    · exact .inl ⟨⟨hcover t hr.1,hr.1⟩,rfl⟩

end Moves

section Calls

/-- One operation on the archetypes it names. -/
inductive StoreCall
  | push (i : ℕ) (e : Entity) (val : Bundle (List UInt8)) (tick : ChangedTick)
  | removeAt (i chunkIdx idx : ℕ)
  | replaceAt (i chunkIdx idx : ℕ) (val : Bundle (List UInt8)) (tick : ChangedTick)
  | takeAndWriteFrom (src dst : ℕ) (srcE : EntityInChunkIndices) (val : Bundle (List UInt8))
      (tick : ChangedTick)
  | takeAndRemoveFrom (src dst : ℕ) (srcE : EntityInChunkIndices) (T : TArchetype)

/-- What an operation returns. -/
inductive Report
  | pushed (ix : EntityInChunkIndices)
  | removed (swapped : Option SwappedRow)
  | replaced
  | moved (result : ResultTake)
  | taken (result : ResultTake) (val : Bundle (List UInt8))

/-- The archetypes in bytes. -/
abbrev ByteStore := ℕ → ByteArchetype

/-- The archetypes as tables. -/
abbrev TableStore := ℕ → Archetype (List UInt8)

variable (layouts : ℕ → ChunkLayout)

/-- Work on one archetype of a store. -/
def onArchetype {A α : Type} (i : ℕ) (x : Faulting A Fault α) : Faulting (ℕ → A) Fault α :=
  focus (fun s => some (s i)) (fun a s => Function.update s i a) .undefinedBehaviour x

/-- Work on the archetype a row moves to and the one it leaves. -/
def onBytePair {α : Type} (src dst : ℕ) (x : Faulting BytePair Fault α) : Faulting ByteStore Fault α :=
  focus (fun s => some ⟨s dst,s src⟩) (fun p s => Function.update (Function.update s src p.src) dst p.dst)
    .undefinedBehaviour x

/-- The same on tables. -/
def onTablePair {α : Type} (src dst : ℕ) (x : Faulting (ArchetypePair (List UInt8)) Fault α) :
    Faulting TableStore Fault α :=
  focus (fun s => some ⟨s dst,s src⟩) (fun p s => Function.update (Function.update s src p.src) dst p.dst)
    .undefinedBehaviour x

/-- A call on bytes, with what the allocator has for a new chunk. -/
def byteCall (call : StoreCall×Memory) : Faulting ByteStore Fault Report :=
  match call.1 with
  | .push i e val tick => do
    let ix ← onArchetype i (ByteArchetypes.push (layouts i) call.2 e val tick)
    return .pushed ix
  | .removeAt i chunkIdx idx => do
    let swapped ← onArchetype i (ByteArchetypes.removeAt (layouts i) chunkIdx idx)
    return .removed swapped
  | .replaceAt i chunkIdx idx val tick => do
    onArchetype i (ByteArchetypes.replaceRowAt (layouts i) chunkIdx idx val tick)
    return .replaced
  | .takeAndWriteFrom src dst srcE val tick => do
    let result ← onBytePair src dst (ByteArchetypes.takeAndWriteFrom srcE (layouts src) (layouts dst)
      call.2 (MigrationPlan.new (layouts src) (layouts dst)) val tick)
    return .moved result
  | .takeAndRemoveFrom src dst srcE T => do
    let result ← onBytePair src dst (ByteArchetypes.takeAndRemoveFrom T srcE (layouts src) (layouts dst)
      call.2 (MigrationPlan.new (layouts src) (layouts dst)))
    return .taken result.1 result.2

/-- The same call on tables. -/
def tableCall (call : StoreCall) : Faulting TableStore Fault Report :=
  match call with
  | .push i e val tick => do
    let ix ← onArchetype i (ArchetypeStore.push (layouts i) e val tick)
    return .pushed ix
  | .removeAt i chunkIdx idx => do
    let swapped ← onArchetype i (ArchetypeStore.removeAt (layouts i) chunkIdx idx)
    return .removed swapped
  | .replaceAt i chunkIdx idx val tick => do
    onArchetype i (ArchetypeStore.replaceRowAt (layouts i) chunkIdx idx val tick)
    return .replaced
  | .takeAndWriteFrom src dst srcE val tick => do
    let result ← onTablePair src dst (ArchetypeStore.takeAndWriteFrom srcE (layouts src) (layouts dst)
      (MigrationPlan.new (layouts src) (layouts dst)) val tick)
    return .moved result
  | .takeAndRemoveFrom src dst srcE T => do
    let result ← onTablePair src dst (ArchetypeStore.takeAndRemoveFrom T srcE (layouts src) (layouts dst)
      (MigrationPlan.new (layouts src) (layouts dst)))
    return .taken result.1 result.2

/-- A row of the table is in use. -/
def InUse (a : Archetype (List UInt8)) (ix : EntityInChunkIndices) : Prop :=
  ∃ c : Chunk (List UInt8),a.chunks[ix.chunkIdx]?=some c ∧ ix.idxInChunk<c.len

/-- What the world promises the archetypes: a new row gets a value in every column, a row
that is rewritten or moved is in use, and the bytes of a value are those of its type. -/
def StoreCall.Promised (s : TableStore) : StoreCall → Prop
  | .push i _ val _ => Full (layouts i) val
  | .removeAt _ _ _ => True
  | .replaceAt i chunkIdx idx val _ => InUse (s i) ⟨chunkIdx,idx⟩ ∧
    val.ty.storageTypes.Nodup ∧ Sized val.items
  | .takeAndWriteFrom src dst srcE val _ => src≠dst ∧ InUse (s src) srcE ∧
    val.ty.storageTypes.Nodup ∧ Sized val.items ∧
    ∀ t,t∈(layouts dst).componentColDescriptors →
      t∈(layouts src).componentColDescriptors ∨ t∈val.ty.storageTypes
  | .takeAndRemoveFrom src dst srcE _ => src≠dst ∧ InUse (s src) srcE ∧
    ∀ t,t∈(layouts dst).componentColDescriptors → t∈(layouts src).componentColDescriptors

end Calls

section Soundness

variable {components components' : List ComponentDescriptor} {specs specs' : ComponentSpecs}
  {l sl dl : ChunkLayout} {a : Archetype (List UInt8)} {q : ArchetypePair (List UInt8)}
  {val : Bundle (List UInt8)} {tick : ChangedTick}

/-- Layouts the crate builds have distinct columns that are found. -/
theorem built_rows (h : Built specs components l) : ChunkRows.WellFormed l := by
  obtain ⟨n,size,hof,-,-⟩ := built_placed h
  exact wellFormed_of hof

/-- A bundle is refused, or its components are all writable. -/
theorem accepts_or_refused (hn : val.ty.storageTypes.Nodup) :
    (∃ err,validateArchetypeWritable val.ty l=.error err) ∨ Accepts l val := by
  cases hval : validateArchetypeWritable val.ty l with
  | error err => exact .inl ⟨err,rfl⟩
  | ok u => exact .inr ⟨hn,validateArchetypeWritable_ok.mp hval⟩

/-- `push` keeps the bookkeeping in order. -/
theorem push_sound (hb : Built specs components l) (h : Sound l a none)
    (hn : val.ty.storageTypes.Nodup) (e : Entity) :
    Sound l (ArchetypeStore.push l e val tick a).2 none := by
  obtain ⟨err,hval⟩ | hv := accepts_or_refused (l:=l) hn
  · rw [push_refused hval]
    exact h
  · obtain ⟨ix,a',d,hrun,hs,-⟩ := push_spec h (built_rows hb).maxLen_pos hv e tick
    rw [hrun]
    exact hs

/-- `remove_at` keeps the bookkeeping in order. -/
theorem removeAt_sound (hb : Built specs components l) (h : Sound l a none) (chunkIdx idx : ℕ) :
    Sound l (ArchetypeStore.removeAt l chunkIdx idx a).2 none := by
  cases hc : a.chunks[chunkIdx]? with
  | none =>
    rw [removeAt_noChunk (List.getElem?_eq_none_iff.mp hc)]
    exact h
  | some c =>
    by_cases hidx : idx<c.len
    · obtain ⟨a',hrun,hs,-⟩ := removeAt_spec h (built_rows hb) hc hidx
      rw [hrun]
      exact hs
    · have hlt := (List.getElem?_eq_some_iff.mp hc).1
      have hrefused : (do
          let swappedRow ← ChunkRows.swapRemoveAt l idx
          modifyState Chunk.decreaseLen
          return swappedRow : Faulting (Chunk (List UInt8)) Fault (Option SwappedRow)) c=
          (.error (.err (.idxIsOutOfChunkLen idx c.len)),c) :=
        bind_error (if_pos (Nat.not_lt.mp hidx))
      have hset : a.chunks.set chunkIdx c=a.chunks := by
        obtain ⟨hlt,rfl⟩ := List.getElem?_eq_some_iff.mp hc
        exact List.set_getElem_self hlt
      unfold ArchetypeStore.removeAt
      rw [getState_bind,if_neg (Nat.not_le.mpr hlt),
        bind_error (ArchetypeStore.onChunk_eq hc hrefused),hset]
      exact h

/-- `replace_at` keeps the bookkeeping in order. -/
theorem replaceRowAt_sound (h : Sound l a none) {ix : EntityInChunkIndices} (hrow : InUse a ix)
    (hn : val.ty.storageTypes.Nodup) :
    Sound l (ArchetypeStore.replaceRowAt l ix.chunkIdx ix.idxInChunk val tick a).2 none := by
  obtain ⟨c,hc,hidx⟩ := hrow
  obtain ⟨err,hval⟩ | hv := accepts_or_refused (l:=l) hn
  · unfold ArchetypeStore.replaceRowAt
    rw [hval]
    exact h
  · obtain ⟨a',d,hrun,hs,-⟩ := replaceRowAt_spec h hc hidx hv tick
    rw [hrun]
    exact hs

/-- `take_and_write_from` keeps the bookkeeping of both archetypes in order. -/
theorem takeAndWriteFrom_sound (hs : Built specs components sl) (hd : Built specs' components' dl)
    (hdst : Sound dl q.dst none) (hsrc : Sound sl q.src none) {ix : EntityInChunkIndices}
    (hrow : InUse q.src ix) (hn : val.ty.storageTypes.Nodup) (tick : ChangedTick) :
    Sound dl (ArchetypeStore.takeAndWriteFrom ix sl dl (MigrationPlan.new sl dl) val tick q).2.dst none ∧
    Sound sl (ArchetypeStore.takeAndWriteFrom ix sl dl (MigrationPlan.new sl dl) val tick q).2.src none := by
  obtain ⟨c,hc,hidx⟩ := hrow
  obtain ⟨err,hval⟩ | hv := accepts_or_refused (l:=dl) hn
  · rw [takeAndWriteFrom_refused hval]
    exact ⟨hdst,hsrc⟩
  · obtain ⟨ix',q',d,hrun,hd',hs',-⟩ := takeAndWriteFrom_spec q hdst hsrc
      (built_rows hd).maxLen_pos (built_rows hs) hc hidx hv tick
    rw [hrun]
    exact ⟨hd',hs'⟩

/-- `take_and_remove_from` keeps the bookkeeping of both archetypes in order. -/
theorem takeAndRemoveFrom_sound (hs : Built specs components sl) (hd : Built specs' components' dl)
    (hdst : Sound dl q.dst none) (hsrc : Sound sl q.src none) {ix : EntityInChunkIndices}
    (hrow : InUse q.src ix) (T : TArchetype) :
    Sound dl (ArchetypeStore.takeAndRemoveFrom T ix sl dl (MigrationPlan.new sl dl) q).2.dst none ∧
    Sound sl (ArchetypeStore.takeAndRemoveFrom T ix sl dl (MigrationPlan.new sl dl) q).2.src none := by
  obtain ⟨c,hc,hidx⟩ := hrow
  cases hval : validateArchetypeTakeable T sl with
  | error err =>
    unfold ArchetypeStore.takeAndRemoveFrom
    rw [hval]
    exact ⟨hdst,hsrc⟩
  | ok u =>
    cases u
    obtain ⟨ix',q',d,b,hrun,hd',hs',-⟩ := takeAndRemoveFrom_spec q hdst hsrc
      (built_rows hd).maxLen_pos (built_rows hs) hc hidx (validateArchetypeTakeable_ok.mp hval)
    rw [hrun]
    exact ⟨hd',hs'⟩

end Soundness

section Runs

variable {layouts : ℕ → ChunkLayout} {s : ByteStore} {t : TableStore}

/-- Each archetype's queue is exact. -/
def AllSound (layouts : ℕ → ChunkLayout) (t : TableStore) : Prop :=
  ∀ i,Sound (layouts i) (t i) none

/-- Each archetype's bytes stand for its table. -/
def AllStand (layouts : ℕ → ChunkLayout) (s : ByteStore) (t : TableStore) : Prop :=
  ∀ i,Stands (layouts i) (s i) (t i)

/-- Each layout is one the crate can come by. -/
def AllBuilt (layouts : ℕ → ChunkLayout) : Prop :=
  ∀ i,∃ specs components,Built specs components (layouts i)

/-- One archetype may be replaced by a sound one. -/
theorem AllSound.update (h : AllSound layouts t) {i : ℕ} {a : Archetype (List UInt8)}
    (ha : Sound (layouts i) a none) : AllSound layouts (Function.update t i a) := by
  intro j
  rw [Function.update_apply]
  split
  · rename_i hj
    rw [hj]
    exact ha
  · exact h j

/-- One may be replaced on both sides by what stands for its table. -/
theorem AllStand.update (h : AllStand layouts s t) {i : ℕ} {a : ByteArchetype}
    {b : Archetype (List UInt8)} (hab : Stands (layouts i) a b) :
    AllStand layouts (Function.update s i a) (Function.update t i b) := by
  intro j
  rw [Function.update_apply,Function.update_apply]
  split
  · rename_i hj
    rw [hj]
    exact hab
  · exact h j

/-- An operation on one archetype ends alike on both sides. -/
theorem AllStand.onArchetype {α : Type} (h : AllStand layouts s t) {i : ℕ}
    {x : Faulting ByteArchetype Fault α} {y : Faulting (Archetype (List UInt8)) Fault α}
    (hxy : SameExit (fun _ => Stands (layouts i)) (Stands (layouts i)) (x (s i)) (y (t i))) :
    SameExit (fun _ => AllStand layouts) (AllStand layouts) (onArchetype i x s) (onArchetype i y t) :=
  hxy.focus rfl rfl (fun _ _ _ hs => h.update hs) fun _ _ hs => h.update hs

/-- So does one on two archetypes. -/
theorem AllStand.onPair {α : Type} (h : AllStand layouts s t) {src dst : ℕ}
    {x : Faulting BytePair Fault α} {y : Faulting (ArchetypePair (List UInt8)) Fault α}
    (hxy : SameExit (fun _ => PairStands (layouts dst) (layouts src))
      (PairStands (layouts dst) (layouts src)) (x ⟨s dst,s src⟩) (y ⟨t dst,t src⟩)) :
    SameExit (fun _ => AllStand layouts) (AllStand layouts) (onBytePair src dst x s)
      (onTablePair src dst y t) := by
  have hback : ∀ p q,PairStands (layouts dst) (layouts src) p q → AllStand layouts
      (Function.update (Function.update s src p.src) dst p.dst)
      (Function.update (Function.update t src q.src) dst q.dst) := fun p q hpq =>
    AllStand.update (AllStand.update h hpq.src) hpq.dst
  exact hxy.focus rfl rfl (fun _ => hback) hback

/-- One call on bytes does what it does on tables. -/
theorem byteCall_stands (hb : AllBuilt layouts) (h : AllStand layouts s t) (hsound : AllSound layouts t)
    {call : StoreCall} (hp : call.Promised layouts t) (fresh : Memory) :
    SameExit (fun _ => AllStand layouts) (AllStand layouts) (byteCall layouts (call,fresh) s)
      (tableCall layouts call t) := by
  cases call with
  | push i e val tick =>
    obtain ⟨specs,components,hi⟩ := hb i
    exact (h.onArchetype (push_stands hi (h i) (hsound i) hp fresh e tick)).bind
      fun ix s' t' h' => .ok h'
  | removeAt i chunkIdx idx =>
    obtain ⟨specs,components,hi⟩ := hb i
    exact (h.onArchetype (removeAt_stands hi (h i) (hsound i) chunkIdx idx)).bind
      fun ix s' t' h' => .ok h'
  | replaceAt i chunkIdx idx val tick =>
    obtain ⟨specs,components,hi⟩ := hb i
    obtain ⟨⟨c,hc,hidx⟩,hn,hsized⟩ := hp
    exact (h.onArchetype (replaceRowAt_stands hi (h i) (hsound i) hc hidx hn hsized tick)).bind
      fun ix s' t' h' => .ok h'
  | takeAndWriteFrom src dst srcE val tick =>
    obtain ⟨specs,components,hi⟩ := hb src
    obtain ⟨specs',components',hj⟩ := hb dst
    obtain ⟨-,⟨c,hc,hidx⟩,hn,hsized,hcover⟩ := hp
    exact (h.onPair (takeAndWriteFrom_stands hi hj ⟨h dst,h src⟩ (hsound dst) (hsound src) hc hidx hn
      hsized hcover fresh)).bind fun ix s' t' h' => .ok h'
  | takeAndRemoveFrom src dst srcE T =>
    obtain ⟨specs,components,hi⟩ := hb src
    obtain ⟨specs',components',hj⟩ := hb dst
    obtain ⟨-,⟨c,hc,hidx⟩,hcover⟩ := hp
    exact (h.onPair (takeAndRemoveFrom_stands hi hj ⟨h dst,h src⟩ (hsound dst) (hsound src) hc hidx T
      hcover fresh)).bind fun ix s' t' h' => .ok h'

/-- A call that only wraps up a result leaves the state of the work it wraps. -/
theorem wrapped_state {α : Type} (x : Faulting TableStore Fault α) (f : α → Report) (t : TableStore) :
    ((do
      let r ← x
      return f r : Faulting TableStore Fault Report) t).2=(x t).2 :=
  Fixes.after (g:=id) (fun r => Fixes.pure (f r)) t

/-- A promised call keeps every queue exact. -/
theorem tableCall_sound (hb : AllBuilt layouts) (h : AllSound layouts t) {call : StoreCall}
    (hp : call.Promised layouts t) : AllSound layouts (tableCall layouts call t).2 := by
  cases call with
  | push i e val tick =>
    obtain ⟨specs,components,hi⟩ := hb i
    unfold tableCall
    rw [wrapped_state]
    exact h.update (push_sound hi (h i) (Full.nodup hp) e)
  | removeAt i chunkIdx idx =>
    obtain ⟨specs,components,hi⟩ := hb i
    unfold tableCall
    rw [wrapped_state]
    exact h.update (removeAt_sound hi (h i) chunkIdx idx)
  | replaceAt i chunkIdx idx val tick =>
    unfold tableCall
    rw [wrapped_state _ fun _ => .replaced]
    exact h.update (replaceRowAt_sound (h i) hp.1 hp.2.1)
  | takeAndWriteFrom src dst srcE val tick =>
    obtain ⟨specs,components,hi⟩ := hb src
    obtain ⟨specs',components',hj⟩ := hb dst
    obtain ⟨hd,hs⟩ := takeAndWriteFrom_sound (q:=⟨t dst,t src⟩) hi hj (h dst) (h src) hp.2.1 hp.2.2.1 tick
    unfold tableCall
    rw [wrapped_state]
    exact AllSound.update (h.update hs) hd
  | takeAndRemoveFrom src dst srcE T =>
    obtain ⟨specs,components,hi⟩ := hb src
    obtain ⟨specs',components',hj⟩ := hb dst
    obtain ⟨hd,hs⟩ := takeAndRemoveFrom_sound (q:=⟨t dst,t src⟩) hi hj (h dst) (h src) hp.2.1 T
    have hstate := wrapped_state (onTablePair src dst (ArchetypeStore.takeAndRemoveFrom T srcE
      (layouts src) (layouts dst) (MigrationPlan.new (layouts src) (layouts dst))))
      (fun result => .taken result.1 result.2) t
    exact (congrArg (AllSound layouts) hstate).mpr (AllSound.update (h.update hs) hd)

/-- The store before the first call, each archetype a singleton or not. -/
def emptyBytes (kinds : ℕ → Bool) : ByteStore := fun i => .empty (kinds i)

/-- The same on tables. -/
def emptyTables (kinds : ℕ → Bool) : TableStore := fun i =>
  if kinds i then Archetype.singleton else Archetype.regular

/-- Whatever the allocator hands out, a run on bytes reports what the run on tables reports,
and leaves bytes with the rows and the drops of the tables. -/
theorem bytes_refine_tables (hb : AllBuilt layouts) (kinds : ℕ → Bool) (calls : List (StoreCall×Memory))
    (hp : Along (fun call t => (tableCall layouts call t).2) (fun call t => call.Promised layouts t)
      (calls.map Prod.fst) (emptyTables kinds)) :
    outcomes (byteCall layouts) calls (emptyBytes kinds)=
        outcomes (tableCall layouts) (calls.map Prod.fst) (emptyTables kinds) ∧
      ∀ i,(runAll (fun call s => (byteCall layouts call s).2) calls (emptyBytes kinds) i).row (layouts i)=
          Archetype.row (layouts i) (runAll (fun call t => (tableCall layouts call t).2)
            (calls.map Prod.fst) (emptyTables kinds) i) ∧
        (runAll (fun call s => (byteCall layouts call s).2) calls (emptyBytes kinds) i).dropped=
          Archetype.dropped (runAll (fun call t => (tableCall layouts call t).2)
            (calls.map Prod.fst) (emptyTables kinds) i) := by
  have hsound : AllSound layouts (emptyTables kinds) := by
    intro i
    unfold emptyTables
    cases kinds i with
    | true => exact sound_singleton (layouts i)
    | false => exact sound_regular (layouts i)
  have hstand : AllStand layouts (emptyBytes kinds) (emptyTables kinds) := by
    intro i
    unfold emptyBytes emptyTables
    cases kinds i with
    | true => exact ⟨rfl,(by intro j s c hs; cases hs),rfl,rfl,rfl⟩
    | false => exact ⟨rfl,(by intro j s c hs; cases hs),rfl,rfl,rfl⟩
  have halong := hp.strengthen (fun call t hc ht => tableCall_sound hb ht hc) hsound
  obtain ⟨hout,hend⟩ := simulates_run (x:=byteCall layouts) (y:=tableCall layouts)
    (fun call s t hok hst => byteCall_stands hb hst hok.2 hok.1 call.2) halong hstand
  exact ⟨hout,fun i => ⟨(hend i).row,(hend i).dropped⟩⟩

theorem one_pow_two : ∃ k,1=2^k := ⟨0,rfl⟩

theorem one_aligned : 1∣3 := Nat.one_dvd 3

theorem sixteen_pow_two : ∃ k,16=2^k := ⟨4,rfl⟩

theorem sixteen_aligned : 16∣32 := ⟨2,rfl⟩

/-- A flag and a pair, in bytes. -/
def mixedBundle : Bundle (List UInt8) :=
  .tuple (.declared ⟨0,3,1,.enableAbleAndChangeAble,one_pow_two,one_aligned⟩,[1,2,3])
    [(.declared ⟨1,32,16,.none,sixteen_pow_two,sixteen_aligned⟩,List.replicate 32 7)]

/-- Two rows come, the first one goes. -/
def mixedCalls (fresh : Memory) : List (StoreCall×Memory) :=
  [(.push 0 .null mixedBundle 1,fresh),(.push 0 .null mixedBundle 2,fresh),(.removeAt 0 0 0,fresh)]

/-- Rows come and go, whatever is in the memory of the chunk. -/
theorem bytes_refine_tables_mixed : ∃ l,ChunkLayout.new mixedSpecs mixedComponents 512=.ok l ∧
    ∀ fresh,outcomes (byteCall fun _ => l) (mixedCalls fresh) (emptyBytes fun _ => false)=
      outcomes (tableCall fun _ => l) ((mixedCalls fresh).map Prod.fst) (emptyTables fun _ => false) := by
  have hnew : ∃ l,ChunkLayout.new mixedSpecs mixedComponents 512=.ok l := ⟨_,rfl⟩
  obtain ⟨l,hl⟩ := hnew
  refine ⟨l,hl,fun fresh => ?_⟩
  have hb : Built mixedSpecs mixedComponents l := .inl ⟨512,hl⟩
  have hfull : Full l mixedBundle := by
    refine ⟨by decide,?_,fun t ht => ?_⟩
    · intro p hp
      simp only [mixedBundle,Bundle.items,List.mem_cons,List.not_mem_nil,or_false] at hp
      rcases hp with rfl | rfl <;> rfl
    · obtain ⟨n,size,hof,-,-⟩ := built_placed hb
      exact (hof.mem_keys t).mp ht
  exact (bytes_refine_tables (fun _ => ⟨mixedSpecs,mixedComponents,hb⟩) (fun _ => false)
    (mixedCalls fresh) ⟨hfull,hfull,trivial,trivial⟩).1

end Runs

end XynokEcs.ByteStores
