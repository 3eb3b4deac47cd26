import XynokEcs.ArchetypeStore
import XynokEcs.ActionRuns
import Mathlib.Algebra.BigOperators.Group.List.Basic
import Mathlib.Algebra.Group.Nat.Defs
import Mathlib.Algebra.Group.Action.Defs

/-!
# Bookkeeping of free chunks

Any number of archetypes take rows in, give rows up and pass rows to one
another. However they do, the queue of each is exact, and a chunk is opened
only while all others are full, so that the chunks are no more than the
largest number of rows held at once needs.
-/

namespace XynokEcs.ChunkBookkeeping

open ComponentTypes EntityHandle SequenceValueMap ChunkLayouts FaultingState ChunkRows RowWrites ArchetypeStore
  ActionRuns

/-- A layout the way `ChunkLayout` builds one. -/
structure BuiltLayout where
  /-- The registered components. -/
  specs : ComponentSpecs
  /-- The components of the archetype. -/
  components : List ComponentDescriptor
  /-- The layout found for them. -/
  layout : ChunkLayout
  /-- It came out of one of the two searches. -/
  built : (∃ size,ChunkLayout.new specs components size=.ok layout) ∨
    ChunkLayout.newFitted specs components=.ok layout

/-- A built layout has distinct columns that are found. -/
theorem BuiltLayout.wellFormed (l : BuiltLayout) : WellFormed l.layout := by
  rcases l.built with ⟨size,h⟩ | h
  · exact wellFormed_of (ChunkLayout.new_of h)
  · exact wellFormed_of (ChunkLayout.newFitted_of h).1

variable {ι V α : Type}

/-- How many rows an archetype holds. -/
def rowCount (a : Archetype V) : ℕ := (a.chunks.map Chunk.len).sum

section Rows

variable {layout : ChunkLayout} {a a' : Archetype V}

/-- With nothing queued every chunk is full. -/
theorem full_of_free (h : Sound layout a none) (hf : a.freeChunks=[]) {c : Chunk V}
    (hc : c∈a.chunks) : c.len=layout.maxLen := by
  obtain ⟨i,hi⟩ := List.mem_iff_getElem?.mp hc
  have hm := h.maxLen i c hi
  have hle := h.len_le i c hi
  have hfree := h.free_iff i
  rw [hf] at hfree
  have hroom : ¬c.len<c.maxLen := fun hlt =>
    List.not_mem_nil (hfree.mpr ⟨(Option.some_ne_none i).symm,c,hi,hlt⟩)
  omega

/-- A row in use lies inside its chunk. -/
theorem row_below (h : Sound layout a none) {ix : EntityInChunkIndices}
    (hr : (a.row layout ix).isSome) : ix.idxInChunk<layout.maxLen := by
  cases hc : a.chunks[ix.chunkIdx]? with
  | none =>
    rw [Archetype.row,hc] at hr
    cases hr
  | some c =>
    have hlt : ix.idxInChunk<c.len := (row_lt hc ix.idxInChunk).mp hr
    have hm := h.maxLen _ c hc
    have hle := h.len_le _ c hc
    omega

/-- A chunk opened for one more row comes after chunks that are all full. -/
theorem rowCount_opened (h : Sound layout a none) (h' : Sound layout a' none)
    (hpos : 0<layout.maxLen) (hf : a.freeChunks=[]) (hl : a'.chunks.length=a.chunks.length+1)
    {ix : EntityInChunkIndices} {x : Entity×RowData V} (hn : a.row layout ix=none)
    (hr : a'.row layout=Function.update (a.row layout) ix (some x)) :
    a.chunks.length*layout.maxLen<rowCount a' := by
  have hfull : ∀ c∈a'.chunks.take a.chunks.length,c.len=layout.maxLen := by
    intro c hc
    obtain ⟨i,hi⟩ := List.mem_iff_getElem?.mp hc
    rw [List.getElem?_take] at hi
    split at hi
    · rename_i hlt
      have hold := List.getElem?_eq_getElem hlt
      have hlen := full_of_free h hf (List.getElem_mem hlt)
      have hsome : (a.row layout ⟨i,layout.maxLen-1⟩).isSome := by
        rw [row_lt hold,hlen]
        omega
      have hsome' : (a'.row layout ⟨i,layout.maxLen-1⟩).isSome := by
        rw [hr,Function.update_apply]
        split
        · rfl
        · exact hsome
      rw [row_lt hi] at hsome'
      have hm := h'.maxLen i c hi
      have hle := h'.len_le i c hi
      omega
    · cases hi
  have hlast : a.chunks.length<a'.chunks.length := by omega
  have hsplit : a'.chunks=a'.chunks.take a.chunks.length++[a'.chunks[a.chunks.length]] := by
    rw [List.take_append_getElem,←hl,List.take_length]
  have hix : ix.chunkIdx=a.chunks.length ∧ 0<(a'.chunks[a.chunks.length]).len := by
    have hsome : (a'.row layout ix).isSome := by
      rw [hr,Function.update_self]
      rfl
    cases hc : a'.chunks[ix.chunkIdx]? with
    | none =>
      rw [Archetype.row,hc] at hsome
      cases hsome
    | some c =>
      have hlt : ix.idxInChunk<c.len := (row_lt hc ix.idxInChunk).mp hsome
      have hci := (List.getElem?_eq_some_iff.mp hc).1
      by_cases hi : ix.chunkIdx<a.chunks.length
      · have hold := List.getElem?_eq_getElem hi
        have hlen := full_of_free h hf (List.getElem_mem hi)
        have hm := h'.maxLen _ c hc
        have hle := h'.len_le _ c hc
        have hin : (a.row layout ix).isSome := (row_lt hold ix.idxInChunk).mpr (by omega)
        rw [hn] at hin
        cases hin
      · have he : ix.chunkIdx=a.chunks.length := by omega
        refine ⟨he,?_⟩
        rw [he,List.getElem?_eq_getElem hlast] at hc
        cases hc
        omega
  have hsum : ((a'.chunks.take a.chunks.length).map Chunk.len).sum=
      a.chunks.length*layout.maxLen := by
    rw [List.sum_eq_card_nsmul _ layout.maxLen,List.length_map,List.length_take,
      Nat.min_eq_left hlast.le,smul_eq_mul]
    intro n hn
    obtain ⟨c,hc,rfl⟩ := List.mem_map.mp hn
    exact hfull c hc
  rw [rowCount,hsplit,List.map_append,List.sum_append,hsum]
  simp only [List.map_cons,List.map_nil,List.sum_cons,List.sum_nil]
  omega

end Rows

section Operations

variable [DecidableEq ι] [Inhabited V]

/-- What brings rows into archetypes, takes them out, or moves them across. -/
inductive RowOp (ι V : Type)
  | push (i : ι) (e : Entity) (val : Bundle V) (tick : ChangedTick)
  | removeAt (i : ι) (chunkIdx idx : ℕ)
  | takeAndWriteFrom (dst src : ι) (srcE : EntityInChunkIndices) (val : Bundle V)
    (tick : ChangedTick)
  | takeAndRemoveFrom (dst src : ι) (srcE : EntityInChunkIndices) (T : TArchetype)

/-- Work on one of the archetypes. -/
def onOne (i : ι) (x : Faulting (Archetype V) Fault α) : Faulting (ι → Archetype V) Fault α :=
  focus (fun s => some (s i)) (fun a s => Function.update s i a) .undefinedBehaviour x

/-- Work on two of the archetypes. -/
def onTwo (dst src : ι) (x : Faulting (ArchetypePair V) Fault α) :
    Faulting (ι → Archetype V) Fault α :=
  focus (fun s => some ⟨s dst,s src⟩)
    (fun p s => Function.update (Function.update s dst p.dst) src p.src) .undefinedBehaviour x

/-- Run an operation; the answer is where a row was written. -/
def RowOp.run (layouts : ι → BuiltLayout) :
    RowOp ι V → Faulting (ι → Archetype V) Fault (Option (ι×EntityInChunkIndices))
  | .push i e val tick => do
    let ix ← onOne i (ArchetypeStore.push (layouts i).layout e val tick)
    return some (i,ix)
  | .removeAt i chunkIdx idx => do
    let _ ← onOne i (ArchetypeStore.removeAt (layouts i).layout chunkIdx idx)
    return none
  | .takeAndWriteFrom dst src srcE val tick => do
    let result ← onTwo dst src (ArchetypeStore.takeAndWriteFrom srcE (layouts src).layout (layouts dst).layout
      (MigrationPlan.new (layouts src).layout (layouts dst).layout) val tick)
    return some (dst,result.newIndicesTook)
  | .takeAndRemoveFrom dst src srcE T => do
    let result ← onTwo dst src (ArchetypeStore.takeAndRemoveFrom T srcE (layouts src).layout (layouts dst).layout
      (MigrationPlan.new (layouts src).layout (layouts dst).layout))
    return some (dst,result.1.newIndicesTook)

/-- The archetypes after an operation. -/
def RowOp.step (layouts : ι → BuiltLayout) (op : RowOp ι V) (s : ι → Archetype V) :
    ι → Archetype V :=
  (op.run layouts s).2

/-- The row is one in use. -/
def HasRow (a : Archetype V) (ix : EntityInChunkIndices) : Prop :=
  ∃ c,a.chunks[ix.chunkIdx]?=some c ∧ ix.idxInChunk<c.len

instance (a : Archetype V) (ix : EntityInChunkIndices) : Decidable (HasRow a ix) :=
  match h : a.chunks[ix.chunkIdx]? with
  | none => .isFalse fun ⟨_,hc,_⟩ => nomatch h.symm.trans hc
  | some c =>
    if hi : ix.idxInChunk<c.len then .isTrue ⟨c,h,hi⟩
    else .isFalse fun ⟨_,hc,hlt⟩ => hi (Option.some.inj (h.symm.trans hc) ▸ hlt)

/-- What the callers of the unchecked operations promise: a bundle names a
storage once, and a row moves from where it is to another archetype. -/
def RowOp.Legal : RowOp ι V → (ι → Archetype V) → Prop
  | .push _ _ val _,_ => val.ty.storageTypes.Nodup
  | .removeAt _ _ _,_ => True
  | .takeAndWriteFrom dst src srcE val _,s =>
    dst≠src ∧ HasRow (s src) srcE ∧ val.ty.storageTypes.Nodup
  | .takeAndRemoveFrom dst src srcE _,s => dst≠src ∧ HasRow (s src) srcE

/-- Archetypes before their first row. -/
def fresh (isSingleton : ι → Bool) (i : ι) : Archetype V :=
  if isSingleton i then Archetype.singleton else Archetype.regular

/-- The largest number of rows an archetype holds in the course of a run. -/
def peak (layouts : ι → BuiltLayout) (i : ι) : List (RowOp ι V) → (ι → Archetype V) → ℕ
  | [],s => rowCount (s i)
  | op::ops,s => max (rowCount (s i)) (peak layouts i ops (op.step layouts s))

/-- What an operation does to one archetype: the queue stays exact, and a chunk
is opened only for a new row that no other chunk has room for. -/
structure Booked (layout : ChunkLayout) (a a' : Archetype V) : Prop where
  /-- The bookkeeping is in order after the operation. -/
  sound : Sound layout a' none
  /-- A chunk is opened only when none has room. -/
  opens : Opens a a'
  /-- An opened chunk takes a row that was not there before. -/
  added : a'.chunks.length≠a.chunks.length → ∃ ix x,a.row layout ix=none ∧
    a'.row layout=Function.update (a.row layout) ix (some x)

section Effects

variable {layout srcLayout : ChunkLayout} {a a' : Archetype V} (pair : ArchetypePair V)

omit [Inhabited V] in
/-- An operation that opens no chunk is booked. -/
theorem booked_of_shape (h : Sound layout a' none) (hs : a'.shape=a.shape) :
    Booked layout a a' := by
  obtain ⟨h1,h2⟩ := Prod.mk.inj hs
  exact ⟨h,⟨h1,.inl h2⟩,fun hne => absurd h2 hne⟩

/-- `push` writes a row inside a chunk. -/
theorem push_booked (h : Sound layout a none) (hpos : 0<layout.maxLen) {val : Bundle V}
    (hn : val.ty.storageTypes.Nodup) (e : Entity) (tick : ChangedTick) :
    Booked layout a (push layout e val tick a).2 ∧
      ∀ ix,(push layout e val tick a).1=.ok ix →
        ((push layout e val tick a).2.row layout ix).isSome := by
  have ho : Opens a (push layout e val tick a).2 := push_opens e val tick a
  cases hval : validateArchetypeWritable val.ty layout with
  | error err =>
    rw [push_refused hval]
    exact ⟨booked_of_shape h rfl,nofun⟩
  | ok _ =>
    obtain ⟨ix,a',d,hrun,hs,-,hnone,hrow,-⟩ := push_spec h hpos
      (Accepts.mk hn (validateArchetypeWritable_ok.mp hval)) e tick
    rw [hrun] at ho ⊢
    refine ⟨⟨hs,ho,fun _ => ⟨ix,_,hnone,hrow⟩⟩,?_⟩
    rintro _ ⟨⟩
    rw [hrow,Function.update_self]
    rfl

omit [Inhabited V] in
/-- `remove_at` keeps the queue exact, whichever row it is asked for. -/
theorem removeAt_booked (h : Sound layout a none) (hw : WellFormed layout) (chunkIdx idx : ℕ) :
    Booked layout a (removeAt layout chunkIdx idx a).2 := by
  refine booked_of_shape ?_ (shape_removeAt chunkIdx idx a)
  cases hc : a.chunks[chunkIdx]? with
  | none =>
    rw [removeAt_noChunk (List.getElem?_eq_none_iff.mp hc)]
    exact h
  | some c =>
    by_cases hi : idx<c.len
    · obtain ⟨a',hrun,hs,-⟩ := removeAt_spec h hw hc hi
      rw [hrun]
      exact hs
    · have hswap : (do
          let swappedRow ← swapRemoveAt layout idx
          modifyState Chunk.decreaseLen
          return swappedRow : Faulting (Chunk V) Fault (Option SwappedRow)) c=
          (.error (.err (.idxIsOutOfChunkLen idx c.len)),c) := by
        apply bind_error
        unfold swapRemoveAt
        rw [if_pos (Nat.not_lt.mp hi)]
      have hlt := (List.getElem?_eq_some_iff.mp hc).1
      unfold removeAt
      rw [getState_bind,if_neg (Nat.not_le.mpr hlt),bind_error (onChunk_eq hc hswap)]
      obtain ⟨-,rfl⟩ := List.getElem?_eq_some_iff.mp hc
      rw [List.set_getElem_self hlt]
      exact h

/-- What a move does to the pair: a row is added to one and taken from the other. -/
def PairBooked (layout srcLayout : ChunkLayout) (p p' : ArchetypePair V) : Prop :=
  Booked layout p.dst p'.dst ∧ Booked srcLayout p.src p'.src

/-- A row that gains components is booked in both archetypes. -/
theorem takeAndWriteFrom_booked (hd : Sound layout pair.dst none) (hs : Sound srcLayout pair.src none)
    (hpos : 0<layout.maxLen) (hw : WellFormed srcLayout) {srcE : EntityInChunkIndices}
    (hr : HasRow pair.src srcE) {val : Bundle V} (hn : val.ty.storageTypes.Nodup)
    (tick : ChangedTick) {out : Except Fault ResultTake×ArchetypePair V}
    (hout : takeAndWriteFrom srcE srcLayout layout (MigrationPlan.new srcLayout layout) val tick pair=
      out) :
    PairBooked layout srcLayout pair out.2 ∧
      ∀ r,out.1=.ok r → (out.2.dst.row layout r.newIndicesTook).isSome := by
  have hopens : PairOpens pair out.2 := hout ▸ takeAndWriteFrom_opens srcE _ val tick pair
  obtain ⟨ho,hos⟩ := hopens
  subst hout
  obtain ⟨c,hc,hi⟩ := hr
  cases hval : validateArchetypeWritable val.ty layout with
  | error err =>
    rw [takeAndWriteFrom_refused hval]
    exact ⟨⟨booked_of_shape hd rfl,booked_of_shape hs rfl⟩,nofun⟩
  | ok _ =>
    obtain ⟨ix,pair',d,hrun,h1,h2,-,-,hnone,hrow,-⟩ := takeAndWriteFrom_spec pair hd hs hpos hw hc hi
      (Accepts.mk hn (validateArchetypeWritable_ok.mp hval)) tick
    rw [hrun] at ho hos ⊢
    refine ⟨⟨⟨h1,ho,fun _ => ⟨ix,_,hnone,hrow⟩⟩,booked_of_shape h2 hos⟩,?_⟩
    rintro _ ⟨⟩
    dsimp only
    rw [hrow,Function.update_self]
    rfl

/-- So is one that loses components. -/
theorem takeAndRemoveFrom_booked (hd : Sound layout pair.dst none)
    (hs : Sound srcLayout pair.src none) (hpos : 0<layout.maxLen) (hw : WellFormed srcLayout)
    {srcE : EntityInChunkIndices} (hr : HasRow pair.src srcE) (T : TArchetype)
    {out : Except Fault (ResultTake×Bundle V)×ArchetypePair V}
    (hout : takeAndRemoveFrom T srcE srcLayout layout (MigrationPlan.new srcLayout layout) pair=
      out) :
    PairBooked layout srcLayout pair out.2 ∧
      ∀ r,out.1=.ok r → (out.2.dst.row layout r.1.newIndicesTook).isSome := by
  have hopens : PairOpens pair out.2 := hout ▸ takeAndRemoveFrom_opens T srcE _ pair
  obtain ⟨ho,hos⟩ := hopens
  subst hout
  obtain ⟨c,hc,hi⟩ := hr
  cases hval : validateArchetypeTakeable T srcLayout with
  | error err =>
    have hrun : takeAndRemoveFrom T srcE srcLayout layout (MigrationPlan.new srcLayout layout) pair=
        (.error (.err err),pair) := by
      unfold takeAndRemoveFrom
      rw [hval]
      rfl
    rw [hrun]
    exact ⟨⟨booked_of_shape hd rfl,booked_of_shape hs rfl⟩,nofun⟩
  | ok _ =>
    obtain ⟨ix,pair',d,b,hrun,h1,h2,-,-,hnone,hrow,-⟩ := takeAndRemoveFrom_spec pair hd hs hpos hw hc
      hi (validateArchetypeTakeable_ok.mp hval)
    rw [hrun] at ho hos ⊢
    refine ⟨⟨⟨h1,ho,fun _ => ⟨ix,_,hnone,hrow⟩⟩,booked_of_shape h2 hos⟩,?_⟩
    rintro _ ⟨⟩
    dsimp only
    rw [hrow,Function.update_self]
    rfl

end Effects

section Runs

variable {layouts : ι → BuiltLayout} {s : ι → Archetype V} {op : RowOp ι V}

/-- Every queue is exact. -/
def AllSound (layouts : ι → BuiltLayout) (s : ι → Archetype V) : Prop :=
  ∀ i,Sound (layouts i).layout (s i) none

omit [DecidableEq ι] [Inhabited V] in
/-- New archetypes are sound. -/
theorem fresh_sound (isSingleton : ι → Bool) : AllSound layouts (fresh (V:=V) isSingleton) := by
  intro i
  unfold fresh
  split
  · exact sound_singleton _
  · exact sound_regular _

/-- What an operation does to the archetypes, and where it writes. -/
structure OpBooked (layouts : ι → BuiltLayout) (s : ι → Archetype V)
    (out : Except Fault (Option (ι×EntityInChunkIndices))×(ι → Archetype V)) : Prop where
  /-- Each archetype is booked. -/
  booked : ∀ i,Booked (layouts i).layout (s i) (out.2 i)
  /-- The row it reports is in use. -/
  written : ∀ i ix,out.1=.ok (some (i,ix)) → ((out.2 i).row (layouts i).layout ix).isSome

omit [DecidableEq ι] [Inhabited V] in
/-- An archetype that is left alone is booked. -/
theorem Booked.refl {layout : ChunkLayout} {a : Archetype V} (h : Sound layout a none) :
    Booked layout a a := booked_of_shape h rfl

omit [Inhabited V] in
/-- An operation on one archetype is booked in all. -/
theorem booked_onOne (h : AllSound layouts s) {i : ι} {x : Faulting (Archetype V) Fault α}
    (hb : Booked (layouts i).layout (s i) (x (s i)).2) (j : ι) :
    Booked (layouts j).layout (s j) ((onOne i x s).2 j) := by
  change Booked _ _ (Function.update s i _ j)
  by_cases hj : j=i
  · subst hj
    rw [Function.update_self]
    exact hb
  · rw [Function.update_of_ne hj]
    exact .refl (h j)

omit [Inhabited V] in
/-- So is one on two archetypes. -/
theorem booked_onTwo (h : AllSound layouts s) {dst src : ι}
    {x : Faulting (ArchetypePair V) Fault α}
    (hb : PairBooked (layouts dst).layout (layouts src).layout ⟨s dst,s src⟩ (x ⟨s dst,s src⟩).2)
    (j : ι) : Booked (layouts j).layout (s j) ((onTwo dst src x s).2 j) := by
  change Booked _ _ (Function.update (Function.update s dst _) src _ j)
  by_cases hj : j=src
  · subst hj
    rw [Function.update_self]
    exact hb.2
  · rw [Function.update_of_ne hj]
    by_cases hd : j=dst
    · subst hd
      rw [Function.update_self]
      exact hb.1
    · rw [Function.update_of_ne hd]
      exact .refl (h j)

omit [DecidableEq ι] [Inhabited V] in
/-- The answer of an operation adds nothing to what it did. -/
theorem opBooked_answer {x : Faulting (ι → Archetype V) Fault α}
    {g : α → Option (ι×EntityInChunkIndices)}
    (hb : ∀ i,Booked (layouts i).layout (s i) ((x s).2 i))
    (hw : ∀ r i ix,(x s).1=.ok r → g r=some (i,ix) →
      (((x s).2 i).row (layouts i).layout ix).isSome) :
    OpBooked layouts s ((x >>= fun r => return g r) s) := by
  cases hr : x s with
  | mk r t =>
    rw [hr] at hb hw
    cases r with
    | error f =>
      rw [bind_error hr]
      exact ⟨hb,fun _ _ => nofun⟩
    | ok v =>
      rw [bind_ok hr]
      exact ⟨hb,fun i ix he => hw v i ix rfl (Except.ok.inj he)⟩

/-- One operation, as its caller may ask for it. -/
theorem RowOp.booked (h : AllSound layouts s) (hl : op.Legal s) :
    OpBooked layouts s (op.run layouts s) := by
  have hw := fun i => (layouts i).wellFormed
  cases op with
  | push i e val tick =>
    obtain ⟨hb,hwr⟩ := push_booked (h i) (hw i).maxLen_pos hl e tick
    refine opBooked_answer (booked_onOne h hb) ?_
    rintro ix _ _ hr ⟨⟩
    change ((Function.update s i _ i).row _ ix).isSome
    rw [Function.update_self]
    exact hwr ix hr
  | removeAt i chunkIdx idx =>
    refine opBooked_answer (booked_onOne h (removeAt_booked (h i) (hw i) chunkIdx idx)) ?_
    rintro _ _ _ - ⟨⟩
  | takeAndWriteFrom dst src srcE val tick =>
    obtain ⟨hne,hrow,hn⟩ := hl
    obtain ⟨hb,hwr⟩ := takeAndWriteFrom_booked ⟨s dst,s src⟩ (h dst) (h src)
      (hw dst).maxLen_pos (hw src) hrow hn tick rfl
    refine opBooked_answer (booked_onTwo h hb) ?_
    rintro r _ _ hr ⟨⟩
    change ((Function.update (Function.update s dst _) src _ dst).row _ _).isSome
    rw [Function.update_of_ne hne,Function.update_self]
    exact hwr r hr
  | takeAndRemoveFrom dst src srcE T =>
    obtain ⟨hne,hrow⟩ := hl
    obtain ⟨hb,hwr⟩ := takeAndRemoveFrom_booked ⟨s dst,s src⟩ (h dst) (h src)
      (hw dst).maxLen_pos (hw src) hrow T rfl
    refine opBooked_answer (booked_onTwo h hb) ?_
    rintro r _ _ hr ⟨⟩
    change ((Function.update (Function.update s dst _) src _ dst).row _ _).isSome
    rw [Function.update_of_ne hne,Function.update_self]
    exact hwr r hr

/-- The chunks are no more than the rows ever held need. -/
def FewChunks (layouts : ι → BuiltLayout) (p : ι → ℕ) (s : ι → Archetype V) : Prop :=
  ∀ i k,(s i).chunks.length=k+1 → k*(layouts i).layout.maxLen<p i

/-- No step opens more chunks than the peak of rows asks for. -/
theorem fewChunks_step (h : AllSound layouts s) (hb : OpBooked layouts s (op.run layouts s)) {p : ι → ℕ}
    (hf : FewChunks layouts p s) (hp : ∀ i,rowCount (op.step layouts s i)≤p i) :
    FewChunks layouts p (op.step layouts s) := by
  intro i k hk
  obtain ⟨hs,⟨-,ho⟩,hadd⟩ := hb.booked i
  change (((op.run layouts s).2 i).chunks.length=k+1) at hk
  rcases ho with hsame | ⟨hfree,hgrew⟩
  · exact hf i k (hsame.symm.trans hk)
  · obtain ⟨ix,x,hnone,hrow⟩ := hadd (by omega)
    have hlt := rowCount_opened (h i) hs (layouts i).wellFormed.maxLen_pos hfree hgrew hnone hrow
    have hle := hp i
    change rowCount ((op.run layouts s).2 i)≤p i at hle
    have hlen : (s i).chunks.length=k := by omega
    rw [hlen] at hlt
    omega

omit [DecidableEq ι] [Inhabited V] in
/-- Where there are rows there is a chunk. -/
theorem chunks_of_rows {a : Archetype V} (h : 0<rowCount a) : 0<a.chunks.length := by
  refine Nat.pos_of_ne_zero fun hz => ?_
  rw [rowCount,List.length_eq_zero_iff.mp hz] at h
  exact Nat.lt_irrefl 0 h

/-- The peak counts the rows there are at the start. -/
theorem rowCount_le_peak (i : ι) (ops : List (RowOp ι V)) : rowCount (s i)≤peak layouts i ops s := by
  cases ops with
  | nil => exact Nat.le_refl _
  | cons op ops => exact Nat.le_max_left _ _

/-- A whole run keeps every queue exact and the chunks few. -/
theorem run_booked {ops : List (RowOp ι V)} {p : ι → ℕ}
    (hl : Along (RowOp.step layouts) RowOp.Legal ops s) (h : AllSound layouts s)
    (hf : FewChunks layouts p s) (hp : ∀ i,peak layouts i ops s≤p i) :
    AllSound layouts (runAll (RowOp.step layouts) ops s) ∧
      FewChunks layouts p (runAll (RowOp.step layouts) ops s) := by
  induction ops generalizing s with
  | nil => exact ⟨h,hf⟩
  | cons op ops ih =>
    have hb := RowOp.booked h hl.1
    have hp' : ∀ i,peak layouts i ops (op.step layouts s)≤p i := fun i =>
      (Nat.le_max_right _ _).trans (hp i)
    exact ih hl.2 (fun i => (hb.booked i).sound)
      (fewChunks_step h hb hf fun i => (rowCount_le_peak i ops).trans (hp' i)) hp'

/-- An archetype that held a row has a chunk. -/
theorem run_used {ops : List (RowOp ι V)} {i : ι}
    (hl : Along (RowOp.step layouts) RowOp.Legal ops s) (h : AllSound layouts s)
    (hu : 0<(s i).chunks.length ∨ 0<peak layouts i ops s) :
    0<(runAll (RowOp.step layouts) ops s i).chunks.length := by
  induction ops generalizing s with
  | nil => exact hu.elim id chunks_of_rows
  | cons op ops ih =>
    have hb := RowOp.booked h hl.1
    refine ih hl.2 (fun i => (hb.booked i).sound) ?_
    have hgrow : (s i).chunks.length≤(op.step layouts s i).chunks.length := by
      rcases (hb.booked i).opens.2 with hsame | ⟨-,hgrew⟩
      · exact hsame.ge
      · change _≤((op.run layouts s).2 i).chunks.length
        omega
    rcases hu with hu | hu
    · exact .inl (hu.trans_le hgrow)
    · rcases lt_max_iff.mp hu with hu | hu
      · exact .inl ((chunks_of_rows hu).trans_le hgrow)
      · exact .inr hu

/-- What holds of an archetype that held at most `p` rows at once: the queue
names each chunk with room once and no other, rows lie inside their chunks, and
there are no more chunks than `p` rows need. -/
structure Exact (layout : ChunkLayout) (p : ℕ) (a : Archetype V) : Prop where
  /-- No chunk is queued twice. -/
  nodup : a.freeChunks.Nodup
  /-- The set beside the queue names the same chunks. -/
  stored : ∀ i,i∈a.freeChunksStored ↔ i∈a.freeChunks
  /-- The queue names just the chunks with room. -/
  free_iff : ∀ i,i∈a.freeChunks ↔ ∃ c,a.chunks[i]?=some c ∧ c.len<layout.maxLen
  /-- Rows lie inside their chunks. -/
  len_le : ∀ c∈a.chunks,c.len≤layout.maxLen
  /-- There are no more chunks than the peak of rows needs. -/
  chunks_le : a.chunks.length≤(p+layout.maxLen-1)/layout.maxLen
  /-- Once there was a row there is a chunk. -/
  used : 0<p → 0<a.chunks.length

/-- What holds of an operation: it writes inside a chunk, and opens a chunk only
while every chunk there is full. -/
def WritesInside (layouts : ι → BuiltLayout) (op : RowOp ι V) (s : ι → Archetype V) : Prop :=
  (∀ i ix,(op.run layouts s).1=.ok (some (i,ix)) → ix.idxInChunk<(layouts i).layout.maxLen) ∧
    ∀ i,(s i).chunks.length<(op.step layouts s i).chunks.length →
      ∀ c∈(s i).chunks,c.len=(layouts i).layout.maxLen

/-- A booked operation writes to rows in use. -/
theorem OpBooked.writesInside (h : AllSound layouts s)
    (hb : OpBooked layouts s (op.run layouts s)) : WritesInside layouts op s := by
  refine ⟨fun i ix he => row_below (hb.booked i).sound (hb.written i ix he),?_⟩
  intro i hlt c hc
  rcases (hb.booked i).opens.2 with hsame | ⟨hfree,-⟩
  · exact absurd hsame hlt.ne'
  · exact full_of_free (h i) hfree hc

/-- In every run of operations on any number of archetypes the free chunks are
exact, every row is written inside a chunk, and a chunk is opened only while all
others are full. -/
theorem free_chunks_exact (layouts : ι → BuiltLayout) (isSingleton : ι → Bool)
    (ops : List (RowOp ι V))
    (h : Along (RowOp.step layouts) RowOp.Legal ops (fresh isSingleton)) :
    (∀ i,Exact (layouts i).layout (peak layouts i ops (fresh isSingleton))
      (runAll (RowOp.step layouts) ops (fresh isSingleton) i)) ∧
    Along (RowOp.step layouts) (WritesInside layouts) ops (fresh isSingleton) := by
  have hsound : AllSound layouts (fresh (V:=V) isSingleton) := fresh_sound isSingleton
  have hzero : ∀ i,(fresh (V:=V) isSingleton i).chunks.length=0 := by
    intro i
    unfold fresh
    split <;> rfl
  refine ⟨fun i => ?_,?_⟩
  · obtain ⟨hs,hf⟩ := run_booked h hsound (fun i k hk => absurd ((hzero i).symm.trans hk) (by omega))
      (p:=fun i => peak layouts i ops (fresh isSingleton)) fun _ => Nat.le_refl _
    have hpos := (layouts i).wellFormed.maxLen_pos
    have hi := hs i
    refine ⟨hi.nodup,hi.stored,?_,?_,?_,fun hp => run_used h hsound (.inr hp)⟩
    · intro j
      rw [hi.free_iff j]
      constructor
      · rintro ⟨-,c,hc,hlt⟩
        exact ⟨c,hc,hi.maxLen j c hc ▸ hlt⟩
      · rintro ⟨c,hc,hlt⟩
        exact ⟨(Option.some_ne_none j).symm,c,hc,(hi.maxLen j c hc).symm ▸ hlt⟩
    · intro c hc
      obtain ⟨j,hj⟩ := List.mem_iff_getElem?.mp hc
      exact hi.maxLen j c hj ▸ hi.len_le j c hj
    · rw [Nat.le_div_iff_mul_le hpos]
      cases hk : (runAll (RowOp.step layouts) ops (fresh isSingleton) i).chunks.length with
      | zero =>
        rw [Nat.zero_mul]
        exact Nat.zero_le _
      | succ k =>
        have hlt : k*(layouts i).layout.maxLen<peak layouts i ops (fresh isSingleton) := hf i k hk
        rw [Nat.succ_mul]
        omega
  · have hboth := Along.strengthen h (P:=AllSound layouts)
      (fun op s hl hs i => ((RowOp.booked hs hl).booked i).sound) hsound
    exact hboth.mono fun op s hl => OpBooked.writesInside hl.2 (RowOp.booked hl.2 hl.1)

end Runs


end Operations

section Samples

/-- A component of one word. -/
def word (id : ℕ) : Component := .declared ⟨id,4,4,.none,⟨2,rfl⟩,Nat.dvd_refl 4⟩

/-- The specs of two such components. -/
def wordSpecs : ComponentSpecs :=
  let one := SequenceValueHashMap.getOrInsertWith .empty (word 0).storageType (word 0).descriptor
  (one.1.getOrInsertWith (word 1).storageType (word 1).descriptor).1

/-- The components of the first archetype, and of the second. -/
def wordComponents (second : Bool) : List ComponentDescriptor :=
  if second then [(word 0).descriptor,(word 1).descriptor] else [(word 0).descriptor]

/-- There is a layout for the samples. -/
theorem wordLayout_ok (second : Bool) :
    (ChunkLayout.newFitted wordSpecs (wordComponents second)).toOption.isSome=true := by
  cases second <;> decide +kernel

/-- Two archetypes whose chunks hold one row each. -/
def wordLayouts (second : Bool) : BuiltLayout :=
  match h : ChunkLayout.newFitted wordSpecs (wordComponents second) with
  | .ok l => ⟨wordSpecs,wordComponents second,l,.inr h⟩
  | .error _ => absurd (wordLayout_ok second) (by rw [h]; exact Bool.false_ne_true)

/-- A row comes in, another one, and the first moves across. -/
def wordOps : List (RowOp Bool ℕ) := [
  .push false Entity.null (.single (word 0) 1) 1,
  .push false Entity.null (.single (word 0) 2) 1,
  .takeAndWriteFrom true false ⟨0,0⟩ (.single (word 1) 3) 1,
  .removeAt false 1 0]

set_option maxRecDepth 20000 in
/-- A row moves into a second archetype and is removed there. -/
theorem free_chunks_exact_words :
    (∀ i,Exact (wordLayouts i).layout (peak wordLayouts i wordOps (fresh fun _ => false))
      (runAll (RowOp.step wordLayouts) wordOps (fresh fun _ => false) i)) ∧
    Along (RowOp.step wordLayouts) (WritesInside wordLayouts) wordOps (fresh fun _ => false) := by
  refine free_chunks_exact wordLayouts (fun _ => false) wordOps ⟨?_,?_,⟨?_,?_,?_⟩,trivial,trivial⟩
  · exact List.nodup_singleton _
  · exact List.nodup_singleton _
  · exact Bool.noConfusion
  · decide +kernel
  · exact List.nodup_singleton _

end Samples

end XynokEcs.ChunkBookkeeping
