import XynokEcs.ArchetypeStore
import XynokEcs.Ledgers

/-!
# The values of rows

A row holds one value for each column of its layout. Writing a bundle exchanges
values, and those it overwrites are dropped; filling a hole drops the values of
the row that was there; moving a row takes its values along, and what the new
layout has no column for is left over. Each operation on the rows of an
archetype balances what is held against what was dropped.
-/

namespace XynokEcs.ValueRows

open ComponentTypes EntityHandle ChunkLayouts FaultingState RowDirectory ChunkRows RowWrites ArchetypeStore
  FiniteSums Ledgers

/-- Values together with the types they are stored as. -/
abbrev Values (V : Type) := Multiset (StorageType×V)

variable {V : Type} {layout srcLayout dstLayout : ChunkLayout} {c c' : Chunk V} {row idx : ℕ}

section Rows

/-- The values of one row, column by column. -/
def Chunk.rowValues (layout : ChunkLayout) (c : Chunk V) (row : ℕ) : List (StorageType×V) :=
  layout.columns.map fun col => (col.storageTypeId,(c.cells col.storageTypeId row).value)

/-- The values a chunk holds, those of its rows in use. -/
def Chunk.held (layout : ChunkLayout) (c : Chunk V) : Values V :=
  ∑ r∈Finset.range c.len,(Chunk.rowValues layout c r : Values V)

/-- The components a layout has columns for. -/
def ChunkLayout.types (layout : ChunkLayout) : Finset StorageType :=
  layout.componentColDescriptors.keys.toFinset

/-- A cell's value as part of a sum. -/
def cellValue (c : Chunk V) (row : ℕ) (t : StorageType) : Values V := {(t,(c.cells t row).value)}

theorem mem_types {t : StorageType} :
    t∈ChunkLayout.types layout ↔ t∈layout.componentColDescriptors := by
  rw [ChunkLayout.types,List.mem_toFinset,AList.mem_keys]

/-- A row's values, summed over the components of the layout. -/
theorem rowValues_sum (hw : WellFormed layout) (c : Chunk V) (row : ℕ) :
    (Chunk.rowValues layout c row : Values V)=∑ t∈ChunkLayout.types layout,cellValue c row t := by
  have htypes : ChunkLayout.types layout=(layout.columns.map ColumnEntry.storageTypeId).toFinset := by
    ext t
    rw [mem_types,hw.mem_keys,List.mem_toFinset]
  rw [htypes]
  exact (sum_keys (F:=cellValue c row) hw.nodup fun col _ => rfl).symm

theorem rowValues_congr {r : ℕ} (h : ∀ t,c'.cells t row=c.cells t r) :
    Chunk.rowValues layout c' row=Chunk.rowValues layout c r := by
  unfold Chunk.rowValues
  simp only [h]

/-- Rows below the length that are untouched are held as before. -/
theorem held_appended (hl : c'.len=c.len+1) (ho : ∀ t r,r≠c.len → c'.cells t r=c.cells t r) :
    Chunk.held layout c'=Chunk.held layout c+(Chunk.rowValues layout c' c.len : Values V) := by
  unfold Chunk.held
  rw [hl,Finset.sum_range_succ]
  congr 1
  refine Finset.sum_congr rfl fun r hr => ?_
  have hne : r≠c.len := by
    have hlt := Finset.mem_range.mp hr
    omega
  rw [rowValues_congr fun t => ho t r hne]

/-- Rewriting a row in use exchanges its values. -/
theorem held_rewritten (hr : row<c.len) (hl : c'.len=c.len)
    (ho : ∀ t r,r≠row → c'.cells t r=c.cells t r) :
    Chunk.held layout c'+(Chunk.rowValues layout c row : Values V)=
      Chunk.held layout c+(Chunk.rowValues layout c' row : Values V) := by
  have hmem : row∈Finset.range c.len := Finset.mem_range.mpr hr
  unfold Chunk.held
  rw [hl,←Finset.sum_erase_add _ _ hmem,
    ←Finset.sum_erase_add _ (fun r => (Chunk.rowValues layout c r : Values V)) hmem]
  have hrest : ∑ r∈(Finset.range c.len).erase row,(Chunk.rowValues layout c' r : Values V)=
      ∑ r∈(Finset.range c.len).erase row,(Chunk.rowValues layout c r : Values V) := by
    refine Finset.sum_congr rfl fun r hr => ?_
    rw [rowValues_congr fun t => ho t r (Finset.ne_of_mem_erase hr)]
  rw [hrest]
  exact add_right_comm _ _ _

/-- Filling a hole takes the values of the row that was there out. -/
theorem held_filled (hw : WellFormed layout) (h : HoleFilled layout c c' idx) (hi : idx<c.len) :
    Chunk.held layout c'.decreaseLen+(Chunk.rowValues layout c idx : Values V)=Chunk.held layout c := by
  have hfilled : ∀ r∈Finset.range (c.len-1),(Chunk.rowValues layout c' r : Values V)=
      if r=idx then (Chunk.rowValues layout c (c.len-1) : Values V) else Chunk.rowValues layout c r := by
    intro r hr
    have hlt := Finset.mem_range.mp hr
    by_cases hri : r=idx
    · subst hri
      rw [if_pos rfl]
      refine congrArg _ (List.map_congr_left fun col hc => ?_)
      rw [h.filled (by omega) _ _ (hw.lookup_column col hc)]
      rfl
    · rw [if_neg hri,rowValues_congr fun t => h.others t r hri]
  have hlen : c.len=c.len-1+1 := by omega
  have hdec : c'.decreaseLen.len=c.len-1 := congrArg (·-1) h.len
  unfold Chunk.held
  rw [hdec,hlen,←sum_range_fill (fun r => (Chunk.rowValues layout c r : Values V))
    (by omega : idx≤c.len-1),←hlen]
  congr 1
  exact Finset.sum_congr rfl hfilled

end Rows

section Written

variable {items : List (Component×V)} {g : Component×V → Cell V → Cell V} {s s' : Chunk V}

/-- The components of a list of items. -/
def itemTypes (items : List (Component×V)) : Finset StorageType :=
  (items.map fun p => p.1.storageType).toFinset

/-- An item's value as part of a sum. -/
def itemValue (items : List (Component×V)) (t : StorageType) : Values V :=
  match itemOf items t with
  | some p => {(t,p.2)}
  | none => 0

theorem itemOf_mem (hn : (items.map fun p => p.1.storageType).Nodup) {p : Component×V} (hp : p∈items) :
    itemOf items p.1.storageType=some p := by
  induction items with
  | nil => cases hp
  | cons q items ih =>
    rw [List.map_cons,List.nodup_cons] at hn
    unfold itemOf
    rw [List.find?_cons]
    cases List.mem_cons.mp hp with
    | inl he => simp only [he,decide_true]
    | inr hm =>
      have hne : q.1.storageType≠p.1.storageType := by
        intro he
        rw [he] at hn
        exact hn.1 (List.mem_map_of_mem (f:=fun p : Component×V => p.1.storageType) hm)
      simp only [hne,decide_false]
      exact ih hn.2 hm

/-- What the items hold, summed over their components. -/
theorem items_sum (hn : (items.map fun p => p.1.storageType).Nodup) :
    ∑ t∈itemTypes items,itemValue items t=(items.map fun p => (p.1.storageType,p.2) : List (StorageType×V)) := by
  refine sum_keys hn fun p hp => ?_
  rw [itemValue,itemOf_mem hn hp]

/-- A written row has the items' values on their components and keeps what was
there on the others. -/
theorem written_sum {S : Finset StorageType} {f : StorageType → Values V}
    (hw : RowWritten items g row s s') (hg : ∀ p cell,(g p cell).value=p.2)
    (hn : (items.map fun p => p.1.storageType).Nodup)
    (hf : ∀ t∈S,itemOf items t=none → cellValue s row t=f t) :
    ∑ t∈S∪itemTypes items,cellValue s' row t+∑ t∈S∩itemTypes items,f t=
      ∑ t∈S,f t+(items.map fun p => (p.1.storageType,p.2) : List (StorageType×V)) := by
  rw [←items_sum hn,←sum_overlay f (itemValue items)]
  congr 1
  refine Finset.sum_congr rfl fun t ht => ?_
  unfold cellValue itemValue
  cases hi : itemOf items t with
  | some p =>
    have hm : t∈itemTypes items := by
      by_contra hne
      rw [itemTypes,List.mem_toFinset,←itemOf_none,hi] at hne
      cases hne
    rw [if_pos hm,hw.item t p hi,hg]
  | none =>
    have hm : t∉itemTypes items := by
      rw [itemTypes,List.mem_toFinset]
      exact itemOf_none.mp hi
    have hS : t∈S := (Finset.mem_union.mp ht).resolve_right hm
    rw [if_neg hm,hw.rest t hi]
    exact hf t hS hi

/-- The values of a row that a bundle overwrites. -/
def overwritten (items : List (Component×V)) (x : RowData V) : List (StorageType×V) :=
  items.filterMap fun p => (x p.1.storageType).map fun d => (p.1.storageType,d.value)

/-- The overwritten values are those of the items the layout has columns for. -/
theorem overwritten_eq (items : List (Component×V)) (layout : ChunkLayout) (c : Chunk V) (row : ℕ) :
    overwritten items (c.rowData layout row)=(items.filter fun p =>
      p.1.storageType∈layout.componentColDescriptors).map fun p =>
        (p.1.storageType,(c.cells p.1.storageType row).value) := by
  unfold overwritten
  induction items with
  | nil => rfl
  | cons p items ih =>
    rw [List.filterMap_cons,ih,List.filter_cons]
    by_cases hp : p.1.storageType∈layout.componentColDescriptors
    · obtain ⟨d,hd⟩ := Option.isSome_iff_exists.mp (AList.lookup_isSome.mpr hp)
      rw [if_pos (decide_eq_true hp),List.map_cons]
      unfold Chunk.rowData
      rw [hd]
      rfl
    · rw [if_neg (by simpa using hp)]
      unfold Chunk.rowData
      rw [AList.lookup_eq_none.mpr hp]
      rfl

theorem overwritten_sum (hn : (items.map fun p => p.1.storageType).Nodup) (layout : ChunkLayout)
    (c : Chunk V) (row : ℕ) :
    ∑ t∈ChunkLayout.types layout∩itemTypes items,cellValue c row t=
      (overwritten items (c.rowData layout row) : Values V) := by
  have hset : ChunkLayout.types layout∩itemTypes items=((items.filter fun p =>
      p.1.storageType∈layout.componentColDescriptors).map fun p => p.1.storageType).toFinset := by
    ext t
    simp only [Finset.mem_inter,mem_types,itemTypes,List.mem_toFinset,List.mem_map,List.mem_filter,
      decide_eq_true_eq]
    constructor
    · rintro ⟨hl,p,hp,rfl⟩
      exact ⟨p,⟨hp,hl⟩,rfl⟩
    · rintro ⟨p,⟨hp,hl⟩,rfl⟩
      exact ⟨hl,p,hp,rfl⟩
  rw [hset,overwritten_eq]
  refine sum_keys ?_ fun p _ => rfl
  exact hn.sublist (List.filter_sublist.map _)

end Written

section Drops

/-- Removing a column's value drops it before anything moves. -/
theorem removeColumn_dropped (idx last : ℕ) (c : Chunk V) (col : ColumnEntry) :
    (removeColumn idx last c col).dropped=
      c.dropped++[(col.storageTypeId,(c.cells col.storageTypeId idx).value)] := by
  unfold removeColumn
  dsimp only
  split <;> rfl

theorem removeColumn_cells (idx last : ℕ) (c : Chunk V) (col : ColumnEntry) {t : StorageType}
    (h : t≠col.storageTypeId) : (removeColumn idx last c col).cells t=c.cells t := by
  by_cases hl : idx=last
  · subst hl
    rw [removeColumn_last]
  · exact (removeColumn_step hl).other c col t h

/-- The columns drop the values of the row, whatever moves into it meanwhile. -/
theorem removeColumns_dropped (idx last : ℕ) {cols : List ColumnEntry}
    (hn : (cols.map ColumnEntry.storageTypeId).Nodup) (c : Chunk V) :
    (cols.foldl (removeColumn idx last) c).dropped=c.dropped++
      cols.map fun col => (col.storageTypeId,(c.cells col.storageTypeId idx).value) := by
  induction cols generalizing c with
  | nil => rw [List.foldl_nil,List.map_nil,List.append_nil]
  | cons col cols ih =>
    rw [List.map_cons,List.nodup_cons] at hn
    have hcells : ∀ col'∈cols,(removeColumn idx last c col).cells col'.storageTypeId=
        c.cells col'.storageTypeId := by
      intro col' hm
      refine removeColumn_cells idx last c col fun he => hn.1 ?_
      rw [←he]
      exact List.mem_map_of_mem hm
    have hmap : (cols.map fun col' => (col'.storageTypeId,
        ((removeColumn idx last c col).cells col'.storageTypeId idx).value))=
        cols.map fun col' => (col'.storageTypeId,(c.cells col'.storageTypeId idx).value) :=
      List.map_congr_left fun col' hm => by rw [hcells col' hm]
    rw [List.foldl_cons,ih hn.2,hmap,removeColumn_dropped,List.append_assoc,List.map_cons,
      List.singleton_append]

/-- `swap_remove_at` drops the values of the row. -/
theorem swapRemoveAt_dropped (hw : WellFormed layout) {m : Option SwappedRow}
    (hr : swapRemoveAt layout idx c=(.ok m,c')) :
    c'.dropped=c.dropped++Chunk.rowValues layout c idx := by
  unfold swapRemoveAt at hr
  split at hr
  · cases hr
  · cases hr
    exact removeColumns_dropped idx (c.len-1) hw.nodup c

/-- Moving a row to another chunk drops nothing. -/
theorem takeFrom_dropped (dst src : Chunk V) (fromRow toRow : ℕ) (plan : MigrationPlan) :
    (takeFrom dst src fromRow toRow plan).2.1.dropped=dst.dropped ∧
      (takeFrom dst src fromRow toRow plan).2.2.dropped=src.dropped := by
  have hstep : ∀ (s : Chunk V×Chunk V) (mig : ComponentMigration),
      ((takeColumn fromRow toRow (src.len-1) s mig).1.dropped,
        (takeColumn fromRow toRow (src.len-1) s mig).2.dropped)=(s.1.dropped,s.2.dropped) := by
    intro s mig
    cases mig <;> unfold takeColumn <;> dsimp only <;> split <;> rfl
  have hkeep := foldl_unchanged (fun s : Chunk V×Chunk V => (s.1.dropped,s.2.dropped)) hstep
    plan.components (dst,src)
  exact ⟨congrArg Prod.fst hkeep,congrArg Prod.snd hkeep⟩

/-- Items that drop what they overwrite drop it in order, since each touches its
own column only. -/
theorem forItems_dropped {f : Component → V → Faulting (Chunk V) Fault Unit}
    {items : List (Component×V)} (row : ℕ) (drops : Component×V → Bool)
    (hn : (items.map fun p => p.1.storageType).Nodup)
    (h : ∀ p∈items,∀ s,∃ s',f p.1 p.2 s=(.ok (),s') ∧
      s'.dropped=s.dropped++(if drops p then [(p.1.storageType,(s.cells p.1.storageType row).value)] else []) ∧
      ∀ t,t≠p.1.storageType → s'.cells t=s.cells t) {s s' : Chunk V}
    (hr : forItems f items s=(.ok (),s')) :
    s'.dropped=s.dropped++(items.filter drops).map fun p =>
      (p.1.storageType,(s.cells p.1.storageType row).value) := by
  induction items generalizing s with
  | nil =>
    cases hr
    rw [List.filter_nil,List.map_nil,List.append_nil]
  | cons p items ih =>
    rw [List.map_cons,List.nodup_cons] at hn
    obtain ⟨s₁,hrun,hd,hc⟩ := h p List.mem_cons_self s
    rw [forItems,bind_ok hrun] at hr
    have hcells : ∀ q∈items,s₁.cells q.1.storageType=s.cells q.1.storageType := by
      intro q hm
      refine hc _ fun he => hn.1 ?_
      rw [←he]
      exact List.mem_map_of_mem (f:=fun p : Component×V => p.1.storageType) hm
    have hmap : ((items.filter drops).map fun q => (q.1.storageType,(s₁.cells q.1.storageType row).value))=
        (items.filter drops).map fun q => (q.1.storageType,(s.cells q.1.storageType row).value) := by
      refine List.map_congr_left fun q hm => ?_
      rw [hcells q (List.mem_of_mem_filter hm)]
    rw [ih hn.2 (fun q hm => h q (List.mem_cons_of_mem p hm)) hr,hd,hmap,List.filter_cons,
      List.append_assoc]
    congr 1
    split <;> rfl

variable {items : List (Component×V)} {tick : ChangedTick} {s s' : Chunk V}

/-- Fresh writes drop nothing. -/
theorem writeItems_dropped (hn : (items.map fun p => p.1.storageType).Nodup)
    (hw : ∀ p∈items,Writable layout p.1)
    (hr : forItems (writeAt layout row tick) items s=(.ok (),s')) : s'.dropped=s.dropped := by
  have hd := forItems_dropped row (fun _ => false) hn (fun p hp s =>
    ⟨_,writeAt_eq (hw p hp) s,(List.append_nil _).symm,fun t ht => cells_modifyCell_ne _ _ _ _ ht⟩) hr
  rw [hd,List.filter_false,List.map_nil,List.append_nil]

/-- Writing after a move drops the values that came along and are overwritten. -/
theorem writeOrReplaceItems_dropped (hn : (items.map fun p => p.1.storageType).Nodup)
    (hw : ∀ p∈items,Writable layout p.1)
    (hr : forItems (writeOrReplaceAt srcLayout layout row tick) items s=(.ok (),s')) :
    s'.dropped=s.dropped++(items.filter fun p =>
      p.1.storageType∈srcLayout.componentColDescriptors).map fun p =>
        (p.1.storageType,(s.cells p.1.storageType row).value) := by
  refine forItems_dropped row (fun p => decide (p.1.storageType∈srcLayout.componentColDescriptors)) hn
    (fun p hp s => ?_) hr
  unfold writeOrReplaceAt
  by_cases hp' : p.1.storageType∈srcLayout.componentColDescriptors
  · simp only [if_pos hp',decide_eq_true hp',if_true]
    exact ⟨_,replaceAt_eq (hw p hp) s,rfl,fun t ht => cells_modifyCell_ne _ _ _ _ ht⟩
  · simp only [if_neg hp',decide_eq_false hp',Bool.false_eq_true,if_false,List.append_nil]
    exact ⟨_,writeAt_eq (hw p hp) s,rfl,fun t ht => cells_modifyCell_ne _ _ _ _ ht⟩

/-- Replacing drops every value it overwrites. -/
theorem replaceItems_dropped (hn : (items.map fun p => p.1.storageType).Nodup)
    (hw : ∀ p∈items,Writable layout p.1)
    (hr : forItems (replaceAt layout row tick) items s=(.ok (),s')) :
    s'.dropped=s.dropped++items.map fun p =>
      (p.1.storageType,(s.cells p.1.storageType row).value) := by
  have hd := forItems_dropped row (fun _ => true) hn (fun p hp s =>
    ⟨_,replaceAt_eq (hw p hp) s,rfl,fun t ht => cells_modifyCell_ne _ _ _ _ ht⟩) hr
  rw [hd,List.filter_true]

end Drops

section Archetypes

variable {α : Type} {a : Archetype V} {pair : ArchetypePair V} {i : ℕ} {val : Bundle V}
  {tick : ChangedTick} {inp out gone : Values V}

/-- The values a chunk holds and those it dropped. -/
def Chunk.ledger (layout : ChunkLayout) (c : Chunk V) : Ledger (Values V) :=
  (Chunk.held layout c,(c.dropped : Values V))

/-- The ledgers of the chunks of an archetype. -/
def Archetype.ledger (layout : ChunkLayout) (a : Archetype V) : Ledger (Values V) :=
  (a.chunks.map (Chunk.ledger layout)).sum

/-- The ledgers of both archetypes of a pair. -/
def ArchetypePair.ledger (dstLayout srcLayout : ChunkLayout) (p : ArchetypePair V) :
    Ledger (Values V) :=
  Archetype.ledger dstLayout p.dst+Archetype.ledger srcLayout p.src

theorem ledger_congr {b : Archetype V} (h : b.chunks=a.chunks) :
    Archetype.ledger layout b=Archetype.ledger layout a := by
  rw [Archetype.ledger,h,Archetype.ledger]

/-- A new chunk holds nothing, so taking a chunk with room moves no value. -/
theorem takeAFreeChunkIdx_ledger [Inhabited V] (layout : ChunkLayout) (a : Archetype V) :
    ∃ i a₁,takeAFreeChunkIdx layout a=(.ok i,a₁) ∧
      Archetype.ledger layout a₁=Archetype.ledger layout a := by
  unfold takeAFreeChunkIdx
  cases a.freeChunks with
  | cons i rest => exact ⟨_,_,rfl,rfl⟩
  | nil =>
    refine ⟨_,_,rfl,?_⟩
    unfold Archetype.ledger
    rw [List.map_append,List.sum_append]
    exact add_zero _

/-- Exchanging a chunk balances the archetype as it balances the chunk. -/
theorem chunk_balance {d : Chunk V} (hc : a.chunks[i]?=some c)
    (h : Balance inp out gone (Chunk.ledger layout c) (Chunk.ledger layout d)) {b : Archetype V}
    (hb : b.chunks=a.chunks.set i d) :
    Balance inp out gone (Archetype.ledger layout a) (Archetype.ledger layout b) := by
  unfold Archetype.ledger
  rw [hb]
  exact h.of_entry hc

/-- A new row holds the values of its bundle. -/
theorem push_balance [Inhabited V] (hw : WellFormed layout) (hv : Accepts layout val)
    (ht : ∀ t,t∈layout.componentColDescriptors ↔ t∈val.ty.storageTypes) (e : Entity) :
    wp (push layout e val tick) (fun _ a' => Balance (val.drops : Values V) 0 0
      (Archetype.ledger layout a) (Archetype.ledger layout a')) (fun _ _ => True) a := by
  obtain ⟨i,a₁,hfree,hledger⟩ := takeAFreeChunkIdx_ledger layout a
  have htypes : ChunkLayout.types layout=itemTypes val.items := by
    ext t
    rw [mem_types,ht,itemTypes,List.mem_toFinset,items_types]
  unfold push
  rw [validateArchetypeWritable_ok.mpr hv.writable]
  change wp (takeAFreeChunkIdx layout >>= _) _ _ a
  unfold wp
  rw [bind_ok hfree]
  change wp (onChunk i _ >>= _) _ _ a₁
  rw [wp_bind,←hledger]
  refine wp_onChunk (fun _ => trivial) fun c hc => ?_
  obtain ⟨c₁,hrun,hwritten⟩ := writeItems_written hv.items_nodup hv.items_writable c
  have hchunk : (do
      let chunk ← getState
      forItems (writeAt layout chunk.len tick) val.items
      modifyState (fun c : Chunk V => (c.setEntity chunk.len e).increaseLen)
      return chunk.len : Faulting (Chunk V) Fault ℕ) c=
      (.ok c.len,(c₁.setEntity c.len e).increaseLen) := by
    rw [getState_bind,bind_ok hrun]
    rfl
  have hheld : Chunk.held layout (c₁.setEntity c.len e).increaseLen=Chunk.held layout c+
      (Chunk.rowValues layout c₁ c.len : Values V) :=
    held_appended (congrArg (·+1) hwritten.len) hwritten.others
  have hrow := written_sum (S:=∅) (f:=fun _ => 0) hwritten (fun _ _ => rfl) hv.items_nodup
    (by intro t ht; cases ht)
  rw [Finset.empty_union,Finset.empty_inter,Finset.sum_empty,add_zero,zero_add,←htypes,
    ←rowValues_sum hw] at hrow
  unfold wp
  rw [hchunk]
  refine chunk_balance hc (balance_iff.mpr ⟨?_,?_⟩) chunks_cacheUnlessFull
  · rw [add_zero,add_zero]
    exact hheld.trans (by rw [hrow]; rfl)
  · rw [add_zero]
    have hdrop := writeItems_dropped hv.items_nodup hv.items_writable hrun
    exact congrArg Multiset.ofList hdrop

/-- Removing a row drops its values. -/
theorem removeAt_balance (hw : WellFormed layout) (hc : a.chunks[i]?=some c) (hi : idx<c.len) :
    wp (removeAt layout i idx) (fun _ a' => Balance 0 0 (Chunk.rowValues layout c idx : Values V)
      (Archetype.ledger layout a) (Archetype.ledger layout a')) (fun _ _ => True) a := by
  unfold removeAt
  rw [wp_bind,wp_getState,if_neg (Nat.not_le.mpr (List.getElem?_eq_some_iff.mp hc).1)]
  obtain ⟨c₁,hrun,hfilled⟩ := swapRemoveAt_spec hw hi
  have hchunk : (do
      let swappedRow ← swapRemoveAt layout idx
      modifyState Chunk.decreaseLen
      return swappedRow : Faulting (Chunk V) Fault (Option SwappedRow)) c=
      (.ok (if idx=c.len-1 then none else some ⟨c.entities (c.len-1),c.len-1,idx⟩),
        c₁.decreaseLen) := by
    rw [bind_ok hrun]
    rfl
  unfold wp
  rw [bind_ok (onChunk_eq hc hchunk)]
  refine chunk_balance hc (balance_iff.mpr ⟨?_,?_⟩) chunks_cacheFreeChunk
  · rw [zero_add,add_zero]
    exact held_filled hw hfilled hi
  · exact (congrArg Multiset.ofList (swapRemoveAt_dropped hw hrun)).trans (Multiset.coe_add _ _).symm

/-- Replacing takes the values of the bundle in and drops those they overwrite. -/
theorem replaceRowAt_balance (hw : WellFormed layout) (hv : Accepts layout val)
    (hp : ∀ t∈val.ty.storageTypes,t∈layout.componentColDescriptors) (hc : a.chunks[i]?=some c)
    (hi : idx<c.len) :
    wp (replaceRowAt layout i idx val tick) (fun _ a' => Balance (val.drops : Values V) 0
      (overwritten val.items (c.rowData layout idx) : Values V) (Archetype.ledger layout a)
      (Archetype.ledger layout a')) (fun _ _ => True) a := by
  unfold replaceRowAt
  rw [validateArchetypeWritable_ok.mpr hv.writable]
  obtain ⟨c₁,hrun,hwritten⟩ := replaceItems_written hv.items_nodup hv.items_writable c
  have hchunk := onChunk_eq hc hrun
  have hmem : ∀ p∈val.items,p.1.storageType∈layout.componentColDescriptors := by
    intro p hm
    refine hp _ ?_
    rw [←items_types]
    exact List.mem_map_of_mem (f:=fun p : Component×V => p.1.storageType) hm
  have hdrop : c₁.dropped=c.dropped++overwritten val.items (c.rowData layout idx) := by
    rw [replaceItems_dropped hv.items_nodup hv.items_writable hrun,overwritten_eq,
      List.filter_eq_self.mpr fun p hm => decide_eq_true (hmem p hm)]
  have hcover : ChunkLayout.types layout∪itemTypes val.items=ChunkLayout.types layout := by
    refine Finset.union_eq_left.mpr fun t ht => ?_
    rw [itemTypes,List.mem_toFinset,items_types] at ht
    exact mem_types.mpr (hp t ht)
  have hrow := written_sum (S:=ChunkLayout.types layout) (f:=cellValue c idx) hwritten
    (fun _ _ => rfl) hv.items_nodup fun _ _ _ => rfl
  rw [hcover,overwritten_sum hv.items_nodup,←rowValues_sum hw,←rowValues_sum hw] at hrow
  have hheld : Chunk.held layout c₁+(Chunk.rowValues layout c idx : Values V)=
      Chunk.held layout c+(Chunk.rowValues layout c₁ idx : Values V) :=
    held_rewritten hi hwritten.len hwritten.others
  change wp (onChunk i (forItems (replaceAt layout idx tick) val.items)) _ _ a
  unfold wp
  rw [hchunk]
  refine chunk_balance hc (balance_iff.mpr ⟨?_,?_⟩) rfl
  · refine add_right_cancel (b:=(Chunk.rowValues layout c idx : Values V)) ?_
    have hl : Chunk.held layout c₁+(0+(overwritten val.items (c.rowData layout idx) : Values V))+
        (Chunk.rowValues layout c idx : Values V)=Chunk.held layout c₁+
        (Chunk.rowValues layout c idx : Values V)+(overwritten val.items (c.rowData layout idx) : Values V) := by
      rw [zero_add]
      exact add_right_comm _ _ _
    refine hl.trans ?_
    rw [hheld,add_assoc,hrow,add_comm (Chunk.rowValues layout c idx : Values V),←add_assoc]
    rfl
  · exact (congrArg Multiset.ofList hdrop).trans (Multiset.coe_add _ _).symm

/-- A row that arrived on one side and left the other balances both chunks. -/
theorem moved_balance {d arrived d' left : Chunk V} (hw : WellFormed srcLayout) (hi : idx<c.len)
    (harr : RowArrived srcLayout dstLayout c idx d arrived d.len) (hfill : HoleFilled srcLayout c left idx)
    (hdst : arrived.dropped=d.dropped) (hsrc : left.dropped=c.dropped) (hl : d'.len=arrived.len)
    (ho : ∀ t r,r≠d.len → d'.cells t r=arrived.cells t r)
    (hd : (d'.dropped : Values V)=arrived.dropped+gone)
    (hrow : (Chunk.rowValues dstLayout d' d.len : Values V)+(out+gone)=
      Chunk.rowValues srcLayout c idx+inp) :
    Balance inp out gone (Chunk.ledger dstLayout d+Chunk.ledger srcLayout c)
      (Chunk.ledger dstLayout d'.increaseLen+Chunk.ledger srcLayout left.decreaseLen) := by
  have hnew : Chunk.held dstLayout d'.increaseLen=Chunk.held dstLayout d+
      (Chunk.rowValues dstLayout d' d.len : Values V) :=
    held_appended (congrArg (·+1) (hl.trans harr.len)) fun t r hr =>
      (ho t r hr).trans (harr.others t r hr)
  have hold := held_filled hw hfill hi
  have hspent : (d'.dropped : Values V)+(left.dropped : Values V)=
      (d.dropped : Values V)+(c.dropped : Values V)+gone := by
    rw [hd,hdst,hsrc]
    exact add_right_comm _ _ _
  refine balance_iff.mpr ⟨?_,hspent⟩
  change Chunk.held dstLayout d'.increaseLen+Chunk.held srcLayout left.decreaseLen+(out+gone)=
    Chunk.held dstLayout d+Chunk.held srcLayout c+inp
  calc Chunk.held dstLayout d'.increaseLen+Chunk.held srcLayout left.decreaseLen+(out+gone)
      =Chunk.held dstLayout d+Chunk.held srcLayout left.decreaseLen+
        ((Chunk.rowValues dstLayout d' d.len : Values V)+(out+gone)) := by
        rw [hnew]
        abel
    _=Chunk.held dstLayout d+Chunk.held srcLayout left.decreaseLen+
        ((Chunk.rowValues srcLayout c idx : Values V)+inp) := by rw [hrow]
    _=Chunk.held dstLayout d+(Chunk.held srcLayout left.decreaseLen+
        (Chunk.rowValues srcLayout c idx : Values V))+inp := by abel
    _=Chunk.held dstLayout d+Chunk.held srcLayout c+inp := by rw [hold]

/-- Moving a row to another archetype takes its values along. What the row holds
there, with what was handed out and dropped on the way, is what it held before
and what came in. -/
theorem takeRowFrom_balance [Inhabited V] (hw : WellFormed srcLayout)
    (hc : pair.src.chunks[i]?=some c) (hi : idx<c.len) {write : ℕ → Faulting (Chunk V) Fault Unit}
    (hwrite : ∀ d arrived : Chunk V,RowArrived srcLayout dstLayout c idx d arrived d.len →
      ∃ d',write d.len arrived=(.ok (),d') ∧ d'.len=arrived.len ∧
        (∀ t r,r≠d.len → d'.cells t r=arrived.cells t r) ∧
        (d'.dropped : Values V)=arrived.dropped+gone ∧
        (Chunk.rowValues dstLayout d' d.len : Values V)+(out+gone)=Chunk.rowValues srcLayout c idx+inp) :
    wp (takeRowFrom ⟨i,idx⟩ dstLayout (MigrationPlan.new srcLayout dstLayout) write)
      (fun _ p => Balance inp out gone (ArchetypePair.ledger dstLayout srcLayout pair)
        (ArchetypePair.ledger dstLayout srcLayout p)) (fun _ _ => True) pair := by
  obtain ⟨j,a₁,hfree,hledger⟩ := takeAFreeChunkIdx_ledger dstLayout pair.dst
  unfold takeRowFrom wp
  rw [bind_ok (onDst_eq hfree),getState_bind]
  dsimp only
  rw [hc]
  cases hd : a₁.chunks[j]? with
  | none => trivial
  | some d =>
    dsimp only
    let plan := MigrationPlan.new srcLayout dstLayout
    have hspec : RowArrived srcLayout dstLayout c idx d (takeFrom d c idx d.len plan).2.1 d.len ∧
        HoleFilled srcLayout c (takeFrom d c idx d.len plan).2.2 idx := (takeFrom_spec hw).2
    have hdrop := takeFrom_dropped d c idx d.len plan
    generalize takeFrom d c idx d.len plan=taken at hspec hdrop ⊢
    obtain ⟨d',hrun,hl,ho,hgone,hrow⟩ := hwrite d taken.2.1 hspec.1
    have hjlt := (List.getElem?_eq_some_iff.mp hd).1
    have hilt := (List.getElem?_eq_some_iff.mp hc).1
    let dst₁ : Archetype V := { a₁ with chunks := a₁.chunks.set j taken.2.1 }
    let dst₂ : Archetype V := { dst₁ with chunks := dst₁.chunks.set j d'.increaseLen }
    let src₁ : Archetype V := { pair.src with chunks := pair.src.chunks.set i taken.2.2 }
    let src₂ : Archetype V := { src₁ with chunks := src₁.chunks.set i taken.2.2.decreaseLen }
    have hmod : (modifyState (fun p : ArchetypePair V => {
        dst := { p.dst with chunks := p.dst.chunks.set j taken.2.1 }
        src := { p.src with chunks := p.src.chunks.set i taken.2.2 } }) :
          Faulting (ArchetypePair V) Fault Unit) { pair with dst := a₁ }=(.ok (),⟨dst₁,src₁⟩) := rfl
    have hwr : (do
        write d.len
        modifyState Chunk.increaseLen : Faulting (Chunk V) Fault Unit) taken.2.1=
        (.ok (),d'.increaseLen) := by
      rw [bind_ok hrun]
      rfl
    have hd₁ : onDst (onChunk j (do
        write d.len
        modifyState Chunk.increaseLen)) ⟨dst₁,src₁⟩=(.ok (),⟨dst₂,src₁⟩) :=
      onDst_eq (onChunk_eq (List.getElem?_set_self hjlt) hwr)
    have hs₁ : onSrc (onChunk i (modifyState Chunk.decreaseLen)) ⟨dst₂,src₁⟩=
        (.ok (),⟨dst₂,src₂⟩) :=
      onSrc_eq (onChunk_eq (List.getElem?_set_self hilt) rfl)
    have hparts := moved_balance hw hi hspec.1 hspec.2 hdrop.1 hdrop.2 hl ho hgone hrow
    have hdst : Archetype.ledger dstLayout (dst₂.cacheUnlessFull j)+Chunk.ledger dstLayout d=
        Archetype.ledger dstLayout a₁+Chunk.ledger dstLayout d'.increaseLen := by
      rw [ledger_congr chunks_cacheUnlessFull]
      simp only [dst₂,dst₁,Archetype.ledger,List.set_set]
      exact sum_set _ hd _
    have hsrc : Archetype.ledger srcLayout (src₂.cacheFreeChunk i)+Chunk.ledger srcLayout c=
        Archetype.ledger srcLayout pair.src+Chunk.ledger srcLayout taken.2.2.decreaseLen := by
      rw [ledger_congr chunks_cacheFreeChunk]
      simp only [src₂,src₁,Archetype.ledger,List.set_set]
      exact sum_set _ hc _
    rw [bind_ok hmod,bind_ok hd₁,bind_ok hs₁]
    refine hparts.of_part ?_
    change Archetype.ledger dstLayout (dst₂.cacheUnlessFull j)+
      Archetype.ledger srcLayout (src₂.cacheFreeChunk i)+_=
        Archetype.ledger dstLayout pair.dst+Archetype.ledger srcLayout pair.src+_
    rw [add_add_add_comm,hdst,hsrc,add_add_add_comm,hledger]

/-- Moving a row and writing a bundle to it takes the bundle's values in and
drops those of the row they overwrite. -/
theorem takeAndWriteFrom_balance [Inhabited V] (hs : WellFormed srcLayout) (hd : WellFormed dstLayout)
    (hc : pair.src.chunks[i]?=some c) (hi : idx<c.len) (hv : Accepts dstLayout val)
    (ht : ∀ t,t∈dstLayout.componentColDescriptors ↔
      t∈srcLayout.componentColDescriptors ∨ t∈val.ty.storageTypes) :
    wp (takeAndWriteFrom ⟨i,idx⟩ srcLayout dstLayout (MigrationPlan.new srcLayout dstLayout) val tick)
      (fun _ p => Balance (val.drops : Values V) 0
        (overwritten val.items (c.rowData srcLayout idx) : Values V)
        (ArchetypePair.ledger dstLayout srcLayout pair) (ArchetypePair.ledger dstLayout srcLayout p))
      (fun _ _ => True) pair := by
  unfold takeAndWriteFrom
  rw [validateArchetypeWritable_ok.mpr hv.writable]
  refine takeRowFrom_balance hs hc hi fun d arrived harr => ?_
  obtain ⟨d',hrun,hwritten⟩ := writeOrReplaceItems_written hv.items_nodup hv.items_writable arrived
  have hvalue : ∀ t∈srcLayout.componentColDescriptors,
      (arrived.cells t d.len).value=(c.cells t idx).value := by
    intro t hm
    obtain ⟨o,ho⟩ := Option.isSome_iff_exists.mp (AList.lookup_isSome.mpr hm)
    obtain ⟨o',ho'⟩ := Option.isSome_iff_exists.mp (AList.lookup_isSome.mpr ((ht t).mpr (.inl hm)))
    rw [harr.moved t o o' ho ho']
    rfl
  have htypes : ChunkLayout.types dstLayout=ChunkLayout.types srcLayout∪itemTypes val.items := by
    ext t
    rw [mem_types,ht,Finset.mem_union,mem_types,itemTypes,List.mem_toFinset,items_types]
  have hdrop : d'.dropped=arrived.dropped++overwritten val.items (c.rowData srcLayout idx) := by
    rw [writeOrReplaceItems_dropped hv.items_nodup hv.items_writable hrun,overwritten_eq]
    congr 1
    refine List.map_congr_left fun p hm => ?_
    rw [hvalue _ (of_decide_eq_true (List.mem_filter.mp hm).2)]
  have hrow := written_sum (S:=ChunkLayout.types srcLayout) (f:=cellValue c idx) hwritten
    (fun p cell => by split <;> rfl) hv.items_nodup fun t hm _ => by
      rw [cellValue,hvalue t (mem_types.mp hm),cellValue]
  rw [←htypes,overwritten_sum hv.items_nodup,←rowValues_sum hs,←rowValues_sum hd] at hrow
  refine ⟨d',hrun,hwritten.len,hwritten.others,?_,?_⟩
  · exact (congrArg Multiset.ofList hdrop).trans (Multiset.coe_add _ _).symm
  · rw [zero_add]
    exact hrow

/-- Moving a row to a layout without some of its components hands their values
out. -/
theorem takeAndRemoveFrom_balance [Inhabited V] {T : TArchetype} (hs : WellFormed srcLayout)
    (hd : WellFormed dstLayout) (hc : pair.src.chunks[i]?=some c) (hi : idx<c.len)
    (hn : T.storageTypes.Nodup) (hp : ∀ t∈T.storageTypes,t∈srcLayout.componentColDescriptors)
    (ht : ∀ t,t∈dstLayout.componentColDescriptors ↔
      t∈srcLayout.componentColDescriptors ∧ t∉T.storageTypes) :
    wp (takeAndRemoveFrom T ⟨i,idx⟩ srcLayout dstLayout (MigrationPlan.new srcLayout dstLayout))
      (fun r p => Balance 0 (r.2.drops : Values V) 0 (ArchetypePair.ledger dstLayout srcLayout pair)
        (ArchetypePair.ledger dstLayout srcLayout p)) (fun _ _ => True) pair := by
  have hcomp : ∀ k∈T.components,k.storageType∈srcLayout.componentColDescriptors := fun k hk =>
    hp _ (List.mem_map_of_mem hk)
  have hread : ∃ b : Bundle V,takeBundle srcLayout idx T c=(.ok b,c) ∧ b.ty=T ∧
      ∀ p∈b.items,p.2=(c.cells p.1.storageType idx).value := takeBundle_spec hcomp c
  obtain ⟨b,hb,hty,hval⟩ := hread
  have hsame : onSrc (onChunk i (takeBundle srcLayout idx T)) pair=(.ok b,pair) := by
    have hrun := onSrc_eq (onChunk_eq hc hb)
    have hset : pair.src.chunks.set i c=pair.src.chunks := by
      rw [←(List.getElem?_eq_some_iff.mp hc).2]
      exact List.set_getElem_self _
    rwa [hset] at hrun
  have hkeys : b.drops.map Prod.fst=T.storageTypes := by rw [Bundle.drops_fst,hty]
  have htaken : ∑ t∈T.storageTypes.toFinset,cellValue c idx t=(b.drops : Values V) := by
    rw [←hkeys] at hn ⊢
    refine (sum_keys (g:=id) hn fun p hm => ?_).trans (by rw [List.map_id])
    obtain ⟨q,hq,rfl⟩ := List.mem_map.mp hm
    rw [cellValue,←hval q hq]
    rfl
  have hsub : T.storageTypes.toFinset⊆ChunkLayout.types srcLayout := fun t hm =>
    mem_types.mpr (hp t (List.mem_toFinset.mp hm))
  have htypes : ChunkLayout.types dstLayout=ChunkLayout.types srcLayout \ T.storageTypes.toFinset := by
    ext t
    rw [mem_types,ht,Finset.mem_sdiff,mem_types,List.mem_toFinset]
  unfold takeAndRemoveFrom
  rw [validateArchetypeTakeable_ok.mpr hcomp]
  change wp (onSrc (onChunk i (takeBundle srcLayout idx T)) >>= _) _ _ pair
  unfold wp
  rw [bind_ok hsame]
  change wp (takeRowFrom ⟨i,idx⟩ dstLayout _ _ >>= _) _ _ pair
  rw [wp_bind]
  refine wp_mono (Q:=fun _ p => Balance 0 (b.drops : Values V) 0
    (ArchetypePair.ledger dstLayout srcLayout pair) (ArchetypePair.ledger dstLayout srcLayout p))
    (takeRowFrom_balance hs hc hi fun d arrived harr => ?_) (fun _ _ h => h) (fun _ _ _ => trivial)
  refine ⟨arrived,rfl,rfl,fun _ _ _ => rfl,(add_zero _).symm,?_⟩
  have hmoved : ∀ t∈ChunkLayout.types dstLayout,cellValue arrived d.len t=cellValue c idx t := by
    intro t hm
    rw [mem_types] at hm
    obtain ⟨o',ho'⟩ := Option.isSome_iff_exists.mp (AList.lookup_isSome.mpr hm)
    obtain ⟨o,ho⟩ := Option.isSome_iff_exists.mp (AList.lookup_isSome.mpr ((ht t).mp hm).1)
    rw [cellValue,harr.moved t o o' ho ho']
    rfl
  rw [rowValues_sum hd,rowValues_sum hs,Finset.sum_congr rfl hmoved,htypes,add_zero,add_zero,←htaken]
  exact Finset.sum_sdiff hsub

end Archetypes

end XynokEcs.ValueRows
