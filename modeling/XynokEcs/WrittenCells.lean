import XynokEcs.ChunkRows
import XynokEcs.PairedRuns

/-!
# Values that have been written

The values of a chunk that was just opened are whatever the allocator left there.
Two tables agree when they differ at most in such values. No operation on rows looks
at a value that was never written, so from tables that agree it reports the same and
leaves tables that agree, and each value it writes or moves counts as written from
then on.
-/

namespace XynokEcs.WrittenCells

open ComponentTypes EntityHandle SequenceValueMap ChunkLayouts FaultingState RowDirectory ChunkRows
  PairedRuns

variable {V : Type}

/-- Which values have been written, by column and row. -/
abbrev Written := StorageType → ℕ → Prop

/-- One value more. -/
def Written.add (w : Written) (t : StorageType) (row : ℕ) : Written :=
  fun t' r => (t'=t ∧ r=row) ∨ w t' r

/-- The values of some columns in one row. -/
def Written.addRow (w : Written) (cols : StorageType → Prop) (row : ℕ) : Written :=
  fun t r => (cols t ∧ r=row) ∨ w t r

/-- Two cells that differ at most in a value that was not written. -/
structure CellsAgree (written : Prop) (a b : Cell V) : Prop where
  /-- A value that was written agrees. -/
  value : written → a.value=b.value
  /-- The enable bits agree. -/
  enable : a.enable=b.enable
  /-- The ticks of insertion agree. -/
  added : a.added=b.added
  /-- The ticks of change agree. -/
  changed : a.changed=b.changed

/-- Two tables that differ at most in values that were not written. -/
structure Agree (w : Written) (a b : Chunk V) : Prop where
  /-- The lengths agree. -/
  len : a.len=b.len
  /-- The capacities agree. -/
  maxLen : a.maxLen=b.maxLen
  /-- The handles agree. -/
  entities : a.entities=b.entities
  /-- What was dropped agrees. -/
  dropped : a.dropped=b.dropped
  /-- Cells agree, in what was written. -/
  cells : ∀ t r,CellsAgree (w t r) (a.cells t r) (b.cells t r)

section Tables

variable {w w' : Written} {a b : Chunk V} {t : StorageType} {row : ℕ}

/-- Tables that agree on more agree on less. -/
theorem Agree.mono (h : Agree w a b) (hw : ∀ t r,w' t r → w t r) : Agree w' a b where
  len := h.len
  maxLen := h.maxLen
  entities := h.entities
  dropped := h.dropped
  cells := fun t r =>
    have hc := h.cells t r
    ⟨fun hr => hc.value (hw t r hr),hc.enable,hc.added,hc.changed⟩

/-- A cell rewritten on both sides. -/
theorem Agree.modifyCell {f g : Cell V → Cell V} (h : Agree w a b)
    (hcell : CellsAgree (w' t row) (f (a.cells t row)) (g (b.cells t row)))
    (hw : ∀ t' r,¬(t'=t ∧ r=row) → w' t' r → w t' r) :
    Agree w' (a.modifyCell t row f) (b.modifyCell t row g) := by
  refine ⟨h.len,h.maxLen,h.entities,h.dropped,fun t' r => ?_⟩
  unfold Chunk.modifyCell
  dsimp only
  by_cases hthis : t'=t ∧ r=row
  · rw [if_pos hthis,if_pos hthis,hthis.1,hthis.2]
    exact hcell
  · rw [if_neg hthis,if_neg hthis]
    have hc := h.cells t' r
    exact ⟨fun hr => hc.value (hw t' r hthis hr),hc.enable,hc.added,hc.changed⟩

/-- The same value on both sides counts as written. -/
theorem Agree.setValue {x y : V} (h : Agree w a b) (hxy : x=y) (t : StorageType) (row : ℕ) :
    Agree (w.add t row) (a.modifyCell t row fun cell => { cell with value := x })
      (b.modifyCell t row fun cell => { cell with value := y }) := by
  have hc := h.cells t row
  refine h.modifyCell ⟨fun _ => hxy,hc.enable,hc.added,hc.changed⟩ fun t' r hne hr => ?_
  exact hr.resolve_left hne

/-- A rewrite of a cell's states that agrees on both sides. -/
theorem Agree.setState {f g : Cell V → Cell V} (h : Agree w a b)
    (hvalue : ∀ cell,(f cell).value=cell.value ∧ (g cell).value=cell.value)
    (hstate : CellsAgree False (f (a.cells t row)) (g (b.cells t row))) :
    Agree w (a.modifyCell t row f) (b.modifyCell t row g) := by
  refine h.modifyCell ⟨fun hr => ?_,hstate.enable,hstate.added,hstate.changed⟩
    fun _ _ _ hr => hr
  rw [(hvalue _).1,(hvalue _).2]
  exact (h.cells t row).value hr

/-- Writing a handle keeps agreement. -/
theorem Agree.setEntity (h : Agree w a b) (row : ℕ) {e e' : Entity} (he : e=e') :
    Agree w (a.setEntity row e) (b.setEntity row e') := by
  subst he
  refine ⟨h.len,h.maxLen,?_,h.dropped,h.cells⟩
  change Function.update a.entities row e=Function.update b.entities row e
  rw [h.entities]

/-- A row more keeps agreement. -/
theorem Agree.increaseLen (h : Agree w a b) : Agree w a.increaseLen b.increaseLen :=
  ⟨congrArg (·+1) h.len,h.maxLen,h.entities,h.dropped,h.cells⟩

/-- A row less keeps agreement. -/
theorem Agree.decreaseLen (h : Agree w a b) : Agree w a.decreaseLen b.decreaseLen :=
  ⟨congrArg (·-1) h.len,h.maxLen,h.entities,h.dropped,h.cells⟩

/-- Only a value that was written may be dropped. -/
theorem Agree.dropCell (h : Agree w a b) (hw : w t row) : Agree w (a.dropCell t row) (b.dropCell t row) := by
  refine ⟨h.len,h.maxLen,h.entities,?_,h.cells⟩
  change a.dropped++_=b.dropped++_
  rw [h.dropped,(h.cells t row).value hw]

/-- Carrying states over keeps cells in agreement. -/
theorem CellsAgree.carryState {p q : Prop} {x y x' y' : Cell V} (h : CellsAgree p x x')
    (h' : CellsAgree q y y') (o o' : StateOffset) :
    CellsAgree q (carryState o o' x y) (carryState o o' x' y') := by
  unfold ChunkRows.carryState
  rw [h.enable,h.added,h.changed,h'.enable,h'.added,h'.changed]
  exact ⟨h'.value,rfl,rfl,rfl⟩

/-- Moving states within a chunk keeps agreement. -/
theorem Agree.moveStateWithin (h : Agree w a b) (o : StateOffset) (t : StorageType)
    (fromRow toRow : ℕ) :
    Agree w (moveStateWithin a o t fromRow toRow) (moveStateWithin b o t fromRow toRow) :=
  h.modifyCell ((h.cells t fromRow).carryState (h.cells t toRow) o o) fun _ _ _ hr => hr

/-- A row moved inside a chunk takes a written value along. -/
theorem Agree.moved (h : Agree w a b) {fromRow : ℕ} (hw : w t fromRow) (o : StateOffset) (toRow : ℕ) :
    Agree (w.add t toRow) (ChunkRows.moveStateWithin (copyValueWithin a t fromRow toRow) o t fromRow toRow)
      (ChunkRows.moveStateWithin (copyValueWithin b t fromRow toRow) o t fromRow toRow) :=
  (h.setValue ((h.cells t fromRow).value hw) t toRow).moveStateWithin o t fromRow toRow

/-- What was written already need not be added. -/
theorem Written.add_self {w : Written} (h : w t row) : w.add t row=w := by
  funext t' r
  refine propext (or_iff_right_of_imp fun he => ?_)
  rw [he.1,he.2]
  exact h

/-- Cells that agree read the same once the value is written. -/
theorem readCell_agrees {p : Prop} {x y : Cell V} (h : CellsAgree p x y) (hp : p)
    (o : StateOffset) : readCell o x=readCell o y := by
  unfold readCell
  rw [h.value hp,h.enable,h.added,h.changed]

end Tables

section SwapRemove

variable {w : Written} {layout : ChunkLayout} {idx last : ℕ}

/-- Removing a row from a column keeps agreement, if its value and the last were written. -/
theorem Agree.removeColumn {a b : Chunk V} (h : Agree w a b) {col : ColumnEntry}
    (hidx : w col.storageTypeId idx) (hlast : w col.storageTypeId last) :
    Agree w (removeColumn idx last a col) (removeColumn idx last b col) := by
  unfold ChunkRows.removeColumn
  by_cases hne : idx=last
  · simp only [hne,if_true]
    exact h.dropCell hlast
  · simp only [hne,if_false]
    have hmoved := (h.dropCell hidx).moved hlast col.stateOffset idx
    rwa [Written.add_self hidx] at hmoved

/-- Removing a row from all columns keeps agreement, if its values and the last were written. -/
theorem Agree.removeColumns {a b : Chunk V} (h : Agree w a b) {cols : List ColumnEntry}
    (hcols : ∀ col∈cols,w col.storageTypeId idx ∧ w col.storageTypeId last) :
    Agree w (cols.foldl (ChunkRows.removeColumn idx last) a)
      (cols.foldl (ChunkRows.removeColumn idx last) b) := by
  induction cols generalizing a b with
  | nil => exact h
  | cons col cols ih =>
    rw [List.forall_mem_cons] at hcols
    exact ih (h.removeColumn hcols.1.1 hcols.1.2) hcols.2

/-- Where all rows in use are written, `swap_remove_at` reports the same and keeps the
agreement. -/
theorem swapRemoveAt_agrees : Simulates
    (fun a b : Chunk V => Agree w a b ∧ ∀ col∈layout.columns,∀ r,r<b.len → w col.storageTypeId r)
    (swapRemoveAt layout idx) (swapRemoveAt layout idx) (fun _ => Agree w) (Agree w) := by
  intro a b hab
  obtain ⟨h,hw⟩ := hab
  unfold swapRemoveAt
  rw [h.len]
  by_cases hge : idx≥b.len
  · rw [if_pos hge,if_pos hge]
    exact .error h
  · rw [if_neg hge,if_neg hge]
    have hcols := h.removeColumns fun col hcol =>
      (⟨hw col hcol idx (by omega),hw col hcol (b.len-1) (by omega)⟩ :
        w col.storageTypeId idx ∧ w col.storageTypeId (b.len-1))
    dsimp only
    rw [hcols.entities]
    have hset := hcols.setEntity idx (rfl : (if idx=b.len-1 then Entity.null else
      (layout.columns.foldl (ChunkRows.removeColumn idx (b.len-1)) b).entities (b.len-1))=_)
    rw [congrFun hset.entities (b.len-1)]
    exact .ok hset

end SwapRemove

section TakeFrom

variable {w w' : Written} {fromRow toRow last : ℕ} {dst dst' src src' : Chunk V}

/-- The columns a plan moves. -/
def Moves (migs : List ComponentMigration) (t : StorageType) : Prop :=
  ∃ src offset state,ComponentMigration.move src offset state∈migs ∧ src.storageTypeId=t

/-- Taking a value over to another chunk counts it as written there. -/
theorem Agree.takeColumn (toRow : ℕ) (hd : Agree w dst dst') (hs : Agree w' src src')
    {mig : ComponentMigration} (hfrom : w' mig.src.storageTypeId fromRow) (hlast : w' mig.src.storageTypeId last) :
    Agree (w.addRow (Moves [mig]) toRow) (takeColumn fromRow toRow last (dst,src) mig).1
        (takeColumn fromRow toRow last (dst',src') mig).1 ∧
      Agree w' (takeColumn fromRow toRow last (dst,src) mig).2
        (takeColumn fromRow toRow last (dst',src') mig).2 := by
  constructor
  · cases mig with
    | move m offset state =>
      have hc := hs.cells m.storageTypeId fromRow
      have hset := hd.setValue (hc.value hfrom) m.storageTypeId toRow
      refine Agree.mono (w:=w.add m.storageTypeId toRow) ?_ fun t r hr => hr.imp_left fun hm => ?_
      · exact hset.modifyCell (hc.carryState (hset.cells _ _) _ _) fun _ _ _ hr => hr
      · obtain ⟨⟨m',offset',state',hmem,rfl⟩,rfl⟩ := hm
        cases List.mem_singleton.mp hmem
        exact ⟨rfl,rfl⟩
    | abandon m =>
      refine hd.mono fun t r hr => hr.resolve_left fun hm => ?_
      obtain ⟨⟨m',offset',state',hmem,-⟩,-⟩ := hm
      cases List.mem_singleton.mp hmem
  · unfold ChunkRows.takeColumn
    by_cases hne : fromRow=last
    · simp only [hne,if_true]
      exact hs
    · simp only [hne,if_false]
      have hmoved := hs.moved hlast mig.src.stateOffset fromRow
      rwa [Written.add_self hfrom] at hmoved

/-- Taking the values of all columns over counts them as written there. -/
theorem Agree.takeColumns (toRow : ℕ) (hd : Agree w dst dst') (hs : Agree w' src src')
    {migs : List ComponentMigration} (hmigs : ∀ mig∈migs,
      w' mig.src.storageTypeId fromRow ∧ w' mig.src.storageTypeId last) :
    Agree (w.addRow (Moves migs) toRow)
        (migs.foldl (ChunkRows.takeColumn fromRow toRow last) (dst,src)).1
        (migs.foldl (ChunkRows.takeColumn fromRow toRow last) (dst',src')).1 ∧
      Agree w' (migs.foldl (ChunkRows.takeColumn fromRow toRow last) (dst,src)).2
        (migs.foldl (ChunkRows.takeColumn fromRow toRow last) (dst',src')).2 := by
  induction migs generalizing dst dst' src src' w with
  | nil =>
    refine ⟨hd.mono fun t r hr => hr.resolve_left fun hm => ?_,hs⟩
    obtain ⟨⟨m,offset,state,hmem,-⟩,-⟩ := hm
    exact List.not_mem_nil hmem
  | cons mig migs ih =>
    rw [List.forall_mem_cons] at hmigs
    obtain ⟨hd1,hs1⟩ := hd.takeColumn toRow hs hmigs.1.1 hmigs.1.2
    obtain ⟨hd2,hs2⟩ := ih hd1 hs1 hmigs.2
    refine ⟨hd2.mono fun t r hr => ?_,hs2⟩
    obtain ⟨⟨m,offset,state,hmem,hm⟩,rfl⟩ | hr := hr
    · obtain rfl | hmem := List.mem_cons.mp hmem
      · exact .inr (.inl ⟨⟨m,offset,state,List.mem_singleton_self _,hm⟩,rfl⟩)
      · exact .inl ⟨⟨m,offset,state,hmem,hm⟩,rfl⟩
    · exact .inr (.inr hr)

/-- A row in use moved between chunks is the same row on both sides, and arrives written. -/
theorem Agree.takeFrom (toRow : ℕ) (hd : Agree w dst dst') (hs : Agree w' src src') {migration : MigrationPlan}
    (hmigs : ∀ mig∈migration.components,
      w' mig.src.storageTypeId fromRow ∧ w' mig.src.storageTypeId (src'.len-1)) :
    (takeFrom dst src fromRow toRow migration).1=(takeFrom dst' src' fromRow toRow migration).1 ∧
      Agree (w.addRow (Moves migration.components) toRow)
        (takeFrom dst src fromRow toRow migration).2.1
        (takeFrom dst' src' fromRow toRow migration).2.1 ∧
      Agree w' (takeFrom dst src fromRow toRow migration).2.2
        (takeFrom dst' src' fromRow toRow migration).2.2 := by
  obtain ⟨hd1,hs1⟩ := hd.takeColumns toRow hs hmigs
  unfold ChunkRows.takeFrom
  dsimp only
  rw [hs.len]
  generalize migration.components.foldl (ChunkRows.takeColumn fromRow toRow (src'.len-1)) (dst,src)=
    x at hd1 hs1 ⊢
  generalize migration.components.foldl (ChunkRows.takeColumn fromRow toRow (src'.len-1)) (dst',src')=
    y at hd1 hs1 ⊢
  rw [hs1.entities]
  have hset := hs1.setEntity fromRow (rfl : (if fromRow=src'.len-1 then Entity.null else
    y.2.entities (src'.len-1))=_)
  refine ⟨?_,hd1.setEntity toRow rfl,hset⟩
  rw [congrFun hset.entities fromRow]

end TakeFrom

section Writes

variable {w : Written} {layout srcLayout : ChunkLayout} {row : ℕ} {tick : ChangedTick} {c : Component}

/-- A computation that reports the same from tables that agree, and keeps the agreement. -/
abbrev Agrees {α : Type} (w w' : Written) (x : Faulting (Chunk V) Fault α) : Prop :=
  Simulates (Agree w) x x (fun _ => Agree w') (Agree w)

/-- An answer that does not depend on the chunk is the same for both. -/
theorem orErr_agrees {α : Type} (r : Except XynokEcsError α) :
    Agrees w w (orErr r : Faulting (Chunk V) Fault α) :=
  simulates_ofExcept (fun _ _ _ _ h => h) fun _ _ h => h

/-- Setting a state touches no value. -/
theorem setState_agrees {offset : StateOffset → Option ℕ} {name : String} {f : Cell V → Cell V}
    (hvalue : ∀ cell,(f cell).value=cell.value)
    (hstate : ∀ x y,CellsAgree False x y → CellsAgree False (f x) (f y)) :
    Agrees w w (setState c layout row offset name f) := by
  refine (orErr_agrees _).bind fun d => (orErr_agrees _).bind fun o =>
    simulates_modifyState fun a b h => ?_
  have hc := h.cells c.storageType row
  exact h.setState (fun cell => ⟨hvalue cell,hvalue cell⟩)
    (hstate _ _ ⟨fun hf => hf.elim,hc.enable,hc.added,hc.changed⟩)

/-- `set_enable_bit` touches no value. -/
theorem setEnableBit_agrees (value : Bool) :
    Agrees w w (setEnableBit c layout row value : Faulting (Chunk V) Fault Unit) :=
  setState_agrees (fun _ => rfl) fun _ _ h => ⟨h.value,rfl,h.added,h.changed⟩

/-- `set_added_tick` touches no value. -/
theorem setAddedTick_agrees (tick : ChangedTick) :
    Agrees w w (setAddedTick c layout row tick : Faulting (Chunk V) Fault Unit) :=
  setState_agrees (fun _ => rfl) fun _ _ h => ⟨h.value,h.enable,rfl,h.changed⟩

/-- `set_changed_tick` touches no value. -/
theorem setChangedTick_agrees (tick : ChangedTick) :
    Agrees w w (setChangedTick c layout row tick : Faulting (Chunk V) Fault Unit) :=
  setState_agrees (fun _ => rfl) fun _ _ h => ⟨h.value,h.enable,h.added,rfl⟩

/-- Agreement that counts one more cell as written is agreement. -/
theorem weaken_add {t : StorageType} {a b : Chunk V} (h : Agree (w.add t row) a b) : Agree w a b :=
  h.mono fun _ _ => .inr

/-- A component written fresh counts as written. -/
theorem writeAt_agrees (v : V) :
    Agrees w (w.add c.storageType row) (writeAt layout row tick c v) := by
  have hset : Agrees w (w.add c.storageType row) (modifyState (fun chunk : Chunk V =>
      chunk.modifyCell c.storageType row fun cell => { cell with value := v }) :
        Faulting (Chunk V) Fault Unit) :=
    simulates_modifyState fun a b h => h.setValue rfl c.storageType row
  refine (orErr_agrees _).bind fun d => hset.bind fun _ =>
    Simulates.bind (Q:=fun _ => Agree (w.add c.storageType row)) ?_ fun _ => ?_
  · refine Simulates.onlyIf fun _ => ?_
    exact (setEnableBit_agrees _).mono (fun _ _ h => h) (fun _ _ _ h => h) fun _ _ => weaken_add
  · refine Simulates.onlyIf fun _ => ?_
    exact ((setAddedTick_agrees tick).bind fun _ => setChangedTick_agrees tick).mono
      (fun _ _ h => h) (fun _ _ _ h => h) fun _ _ => weaken_add

/-- A written component may be replaced. -/
theorem replaceAt_agrees (v : V) (hw : w c.storageType row) :
    Agrees w w (replaceAt layout row tick c v) := by
  refine (orErr_agrees _).bind fun d => Simulates.bind (Q:=fun _ => Agree w) ?_ fun _ => ?_
  · refine simulates_modifyState fun a b h => ?_
    have hset := (h.dropCell hw).setValue (rfl : v=v) c.storageType row
    rwa [Written.add_self hw] at hset
  · exact Simulates.onlyIf fun _ => setChangedTick_agrees tick

/-- Whether it is written fresh or replaced, the component counts as written. -/
theorem writeOrReplaceAt_agrees (v : V)
    (hw : c.storageType∈srcLayout.componentColDescriptors → w c.storageType row) :
    Agrees w (w.add c.storageType row) (writeOrReplaceAt srcLayout layout row tick c v) := by
  unfold writeOrReplaceAt
  by_cases hmem : c.storageType∈srcLayout.componentColDescriptors
  · rw [if_pos hmem,Written.add_self (hw hmem)]
    exact replaceAt_agrees v (hw hmem)
  · rw [if_neg hmem]
    exact writeAt_agrees v

/-- The components of a bundle, written in order, all count as written. -/
theorem forItems_agrees {f : Component → V → Faulting (Chunk V) Fault Unit}
    {items : List (Component×V)} (h : ∀ p∈items,∀ w',(∀ t r,w t r → w' t r) →
      Agrees w' (w'.add p.1.storageType row) (f p.1 p.2)) :
    Agrees w (w.addRow (·∈items.map fun p => p.1.storageType) row) (forItems f items) := by
  induction items generalizing w with
  | nil =>
    refine (simulates_pure ()).mono (fun a b h => h.mono fun t r hr => hr.resolve_left fun hm => ?_)
      (fun _ _ _ h => h) fun _ _ h => h
    exact List.not_mem_nil hm.1
  | cons p rest ih =>
    rw [List.forall_mem_cons] at h
    refine (h.1 w fun _ _ hr => hr).bind fun _ => (ih (w:=w.add p.1.storageType row) ?_).mono
      (fun _ _ h => h) (fun _ a b hab => hab.mono fun t r hr => ?_) fun _ _ => weaken_add
    · exact fun q hq w' hw' => h.2 q hq w' fun t r hr => hw' t r (.inr hr)
    · obtain ⟨hm,rfl⟩ | hr := hr
      · rw [List.map_cons,List.mem_cons] at hm
        exact hm.elim (fun he => .inr (.inl ⟨he,rfl⟩)) fun hm => .inl ⟨hm,rfl⟩
      · exact .inr (.inr hr)

/-- A written value is read out the same. -/
theorem takeAt_agrees (hw : c.storageType∈layout.componentColDescriptors → w c.storageType row) :
    Agrees w w (takeAt layout row c : Faulting (Chunk V) Fault V) := by
  refine Simulates.bind (Q:=fun d a b => Agree w a b ∧ validateColumnPresent c layout=.ok d) ?_
    fun d => simulates_getState fun a b h => ?_
  · refine simulates_ofExcept (fun d a b hd h => ⟨h,?_⟩) fun _ _ h => h
    cases hv : validateColumnPresent c layout with
    | ok d' =>
      rw [hv] at hd
      cases hd
      rfl
    | error e =>
      rw [hv] at hd
      cases hd
  · have hmem : c.storageType∈layout.componentColDescriptors := by
      obtain ⟨-,hv⟩ := h
      unfold validateColumnPresent at hv
      rw [←AList.lookup_isSome]
      cases hl : layout.componentColDescriptors.lookup c.storageType with
      | some d' => rfl
      | none =>
        rw [hl] at hv
        cases hv
    rw [(h.1.cells c.storageType row).value (hw hmem)]
    exact .ok h.1

/-- Taking values that were written gives the same from both. -/
theorem takeItems_agrees {cs : List Component} (hw : ∀ t,t∈layout.componentColDescriptors → w t row) :
    Agrees w w (takeItems layout row cs : Faulting (Chunk V) Fault (List (Component×V))) := by
  induction cs with
  | nil => exact simulates_pure (Q:=fun _ => Agree w) []
  | cons c cs ih =>
    exact (takeAt_agrees (hw c.storageType)).bind fun v => ih.bind fun vs =>
      simulates_pure (Q:=fun _ => Agree w) _

/-- So does taking those of a tuple. -/
theorem takeBundle_agrees {T : TArchetype} (hw : ∀ t,t∈layout.componentColDescriptors → w t row) :
    Agrees w w (takeBundle layout row T : Faulting (Chunk V) Fault (Bundle V)) := by
  cases T with
  | single c =>
    exact (takeAt_agrees (hw c.storageType)).bind fun v => simulates_pure (Q:=fun _ => Agree w) _
  | tuple c cs =>
    exact (takeAt_agrees (hw c.storageType)).bind fun v => (takeItems_agrees hw).bind fun vs =>
      simulates_pure (Q:=fun _ => Agree w) _

end Writes

end XynokEcs.WrittenCells
