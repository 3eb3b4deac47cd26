import XynokEcs.ChunkRows

/-!
# Writing the components of a row

Once an archetype type is writable in a layout, writing a bundle of it cannot
fail: each component rewrites the cell of its own column, as a fresh insert or
as an overwrite. On the components of a row this is the overlay of the bundle;
reading the values of an archetype type out of a row gives back its bundle.
-/

namespace XynokEcs.RowWrites

open ComponentTypes EntityHandle SequenceValueMap ChunkLayouts FaultingState RowDirectory ChunkRows

variable {V : Type}

/-- The layout has the column of a component and every state region the
component asks for. -/
def Writable (layout : ChunkLayout) (c : Component) : Prop :=
  ∃ d,layout.componentColDescriptors.lookup c.storageType=some d ∧
    (c.stateDetection.needsEnable=true → d.stateOffset.enableOffset.isSome) ∧
    (c.stateDetection.needsChange=true →
      d.stateOffset.addedOffset.isSome ∧ d.stateOffset.changedOffset.isSome)

/-- `validate_writable` accepts exactly the writable components. -/
theorem validateWritable_ok {layout : ChunkLayout} {c : Component} :
    validateWritable c layout=.ok () ↔ Writable layout c := by
  unfold validateWritable validateColumnPresent Writable
  cases layout.componentColDescriptors.lookup c.storageType with
  | none => simp [bind,Except.bind]
  | some d =>
    obtain ⟨o,⟨e,a,g⟩⟩ := d
    cases c.stateDetection.needsEnable <;> cases c.stateDetection.needsChange <;>
      cases e <;> cases a <;> cases g <;> simp [bind,Except.bind,pure,Except.pure,stateRegion]

/-- The cell after a fresh write. -/
def freshCell (c : Component) (v : V) (tick : ChangedTick) (cell : Cell V) : Cell V where
  value := v
  enable := if c.stateDetection.needsEnable then c.enableValue else cell.enable
  added := if c.stateDetection.needsChange then tick else cell.added
  changed := if c.stateDetection.needsChange then tick else cell.changed

/-- The cell after an overwrite. -/
def overwrittenCell (c : Component) (v : V) (tick : ChangedTick) (cell : Cell V) : Cell V :=
  { cell with
    value := v
    changed := if c.stateDetection.needsChange then tick else cell.changed }

section Writes

variable {layout : ChunkLayout} {c : Component} {row : ℕ} {tick : ChangedTick} {v : V}

theorem modifyCell_modifyCell (s : Chunk V) (t : StorageType) (f g : Cell V → Cell V) :
    (s.modifyCell t row f).modifyCell t row g=s.modifyCell t row (g ∘ f) := by
  unfold Chunk.modifyCell
  congr 1
  funext t' r
  dsimp only
  split <;> rfl

theorem modifyCell_congr {s : Chunk V} {t : StorageType} {f g : Cell V → Cell V}
    (h : ∀ cell,f cell=g cell) : s.modifyCell t row f=s.modifyCell t row g :=
  congrArg (s.modifyCell t row) (funext h)

theorem validateColumnPresent_ok {d : ColumnDescriptor}
    (h : layout.componentColDescriptors.lookup c.storageType=some d) :
    validateColumnPresent c layout=.ok d := by
  rw [validateColumnPresent,h]

/-- A checked state write goes through when the layout has the region. -/
theorem setState_eq {offset : StateOffset → Option ℕ} {name : String} {f : Cell V → Cell V}
    {d : ColumnDescriptor} (h : layout.componentColDescriptors.lookup c.storageType=some d)
    (ho : (offset d.stateOffset).isSome) (s : Chunk V) :
    setState c layout row offset name f s=(.ok (),s.modifyCell c.storageType row f) := by
  obtain ⟨o,ho⟩ := Option.isSome_iff_exists.mp ho
  unfold setState
  rw [validateColumnPresent_ok h]
  change (orErr (stateRegion c (offset d.stateOffset) name) >>= _) s=_
  rw [ho]
  rfl

/-- A writable component is written by one rewrite of its cell. -/
theorem writeAt_eq (h : Writable layout c) (s : Chunk V) :
    writeAt layout row tick c v s=
      (.ok (),s.modifyCell c.storageType row (freshCell c v tick)) := by
  obtain ⟨d,hd,he,hc⟩ := h
  unfold writeAt
  rw [validateColumnPresent_ok hd]
  change (onlyIf c.stateDetection.needsEnable (setEnableBit c layout row c.enableValue) >>= _)
    (s.modifyCell c.storageType row _)=_
  have henable : onlyIf c.stateDetection.needsEnable (setEnableBit c layout row c.enableValue)
      (s.modifyCell c.storageType row (fun cell => { cell with value := v }))=
      (.ok (),s.modifyCell c.storageType row (fun cell => { cell with
        value := v
        enable := if c.stateDetection.needsEnable then c.enableValue else cell.enable })) := by
    unfold onlyIf
    split
    · rename_i hn
      rw [setEnableBit,setState_eq hd (he hn),modifyCell_modifyCell]
      rfl
    · rfl
  rw [bind_ok henable]
  unfold onlyIf
  split
  · rename_i hn
    rw [setAddedTick,bind_ok (setState_eq hd (hc hn).1 _),setChangedTick,setState_eq hd (hc hn).2,
      modifyCell_modifyCell,modifyCell_modifyCell]
    refine congrArg (Prod.mk _) (modifyCell_congr fun cell => ?_)
    simp only [Function.comp,freshCell,hn,if_true]
  · rename_i hn
    refine congrArg (Prod.mk _) (modifyCell_congr fun cell => ?_)
    simp only [freshCell,if_neg hn]

/-- A writable component is replaced by a drop and one rewrite of its cell. -/
theorem replaceAt_eq (h : Writable layout c) (s : Chunk V) :
    replaceAt layout row tick c v s=(.ok (),(s.dropCell c.storageType row).modifyCell c.storageType
      row (overwrittenCell c v tick)) := by
  obtain ⟨d,hd,-,hc⟩ := h
  unfold replaceAt
  rw [validateColumnPresent_ok hd]
  change onlyIf c.stateDetection.needsChange (setChangedTick c layout row tick)
    ((s.dropCell c.storageType row).modifyCell c.storageType row _)=_
  unfold onlyIf
  split
  · rename_i hn
    rw [setChangedTick,setState_eq hd (hc hn).2,modifyCell_modifyCell]
    refine congrArg (Prod.mk _) (modifyCell_congr fun cell => ?_)
    simp only [Function.comp,overwrittenCell,hn,if_true]
  · rename_i hn
    refine congrArg (Prod.mk _) (modifyCell_congr fun cell => ?_)
    simp only [overwrittenCell,if_neg hn]

theorem forComponents_ok {f : Component → Except XynokEcsError Unit} {cs : List Component} :
    forComponents f cs=.ok () ↔ ∀ c∈cs,f c=.ok () := by
  induction cs with
  | nil => simp [forComponents]
  | cons c rest ih =>
    rw [forComponents,List.forall_mem_cons]
    cases h : f c with
    | ok u => simp [ih]
    | error e => simp

/-- `write_or_replace_at` of a writable component is one rewrite of its cell. -/
theorem writeOrReplaceAt_cells {srcLayout : ChunkLayout} (h : Writable layout c) (s : Chunk V) :
    ∃ s',writeOrReplaceAt srcLayout layout row tick c v s=(.ok (),s') ∧
      s'.len=s.len ∧ s'.maxLen=s.maxLen ∧ s'.entities=s.entities ∧
      s'.cells=(s.modifyCell c.storageType row
        (if c.storageType∈srcLayout.componentColDescriptors then overwrittenCell c v tick
          else freshCell c v tick)).cells := by
  unfold writeOrReplaceAt
  split
  · exact ⟨_,replaceAt_eq h s,rfl,rfl,rfl,rfl⟩
  · exact ⟨_,writeAt_eq h s,rfl,rfl,rfl,rfl⟩

end Writes

/-- `validate_writable` of an archetype type accepts exactly the types whose
components are all writable. -/
theorem validateArchetypeWritable_ok {T : TArchetype} {layout : ChunkLayout} :
    validateArchetypeWritable T layout=.ok () ↔ ∀ c∈T.components,Writable layout c := by
  rw [validateArchetypeWritable,forComponents_ok]
  exact forall₂_congr fun c _ => validateWritable_ok

/-- `validate_takeable` of an archetype type asks for its columns. -/
theorem validateArchetypeTakeable_ok {T : TArchetype} {layout : ChunkLayout} :
    validateArchetypeTakeable T layout=.ok () ↔
      ∀ c∈T.components,c.storageType∈layout.componentColDescriptors := by
  rw [validateArchetypeTakeable,forComponents_ok]
  refine forall₂_congr fun c _ => ?_
  rw [←AList.lookup_isSome,validateTakeable,validateColumnPresent]
  cases layout.componentColDescriptors.lookup c.storageType <;>
    simp [bind,Except.bind,pure,Except.pure]

section Takes

variable {layout : ChunkLayout} {row : ℕ}

/-- A component with a column is read out of its cell. -/
theorem takeAt_eq {c : Component} (h : c.storageType∈layout.componentColDescriptors)
    (s : Chunk V) : takeAt layout row c s=(.ok (s.cells c.storageType row).value,s) := by
  obtain ⟨d,hd⟩ := Option.isSome_iff_exists.mp (AList.lookup_isSome.mpr h)
  unfold takeAt
  rw [validateColumnPresent_ok hd]
  rfl

/-- Several components are read out in order. -/
theorem takeItems_spec {cs : List Component}
    (h : ∀ c∈cs,c.storageType∈layout.componentColDescriptors) (s : Chunk V) :
    ∃ items,takeItems layout row cs s=(.ok items,s) ∧ items.map Prod.fst=cs ∧
      ∀ p∈items,p.2=(s.cells p.1.storageType row).value := by
  induction cs with
  | nil => exact ⟨[],rfl,rfl,by simp⟩
  | cons c rest ih =>
    obtain ⟨items,hrun,hty,hval⟩ := ih (fun d hd => h d (List.mem_cons_of_mem c hd))
    refine ⟨(c,(s.cells c.storageType row).value)::items,?_,by rw [List.map_cons,hty],?_⟩
    · rw [takeItems,bind_ok (takeAt_eq (h c List.mem_cons_self) s),bind_ok hrun]
      rfl
    · rw [List.forall_mem_cons]
      exact ⟨rfl,hval⟩

/-- A takeable archetype type is read out as a bundle of it, and nothing is
written. -/
theorem takeBundle_spec {T : TArchetype}
    (h : ∀ c∈T.components,c.storageType∈layout.componentColDescriptors) (s : Chunk V) :
    ∃ b : Bundle V,takeBundle layout row T s=(.ok b,s) ∧ b.ty=T ∧
      ∀ p∈b.items,p.2=(s.cells p.1.storageType row).value := by
  cases T with
  | single c =>
    refine ⟨.single c (s.cells c.storageType row).value,?_,rfl,?_⟩
    · rw [takeBundle,bind_ok (takeAt_eq (h c (by simp [TArchetype.components])) s)]
      rfl
    · intro p hp
      rw [Bundle.items,List.mem_singleton] at hp
      rw [hp]
  | tuple c cs =>
    rw [TArchetype.components,List.forall_mem_cons] at h
    obtain ⟨items,hrun,hty,hval⟩ := takeItems_spec h.2 s
    refine ⟨.tuple (c,(s.cells c.storageType row).value) items,?_,by rw [Bundle.ty,hty],?_⟩
    · rw [takeBundle,bind_ok (takeAt_eq h.1 s),bind_ok hrun]
      rfl
    · rw [Bundle.items,List.forall_mem_cons]
      exact ⟨rfl,hval⟩

end Takes

/-- The component of a bundle stored under a storage type, with its value. -/
def itemOf (items : List (Component×V)) (t : StorageType) : Option (Component×V) :=
  items.find? (fun p => p.1.storageType=t)

theorem itemOf_storage {items : List (Component×V)} {t : StorageType} {p : Component×V}
    (h : itemOf items t=some p) : p∈items ∧ p.1.storageType=t :=
  ⟨List.mem_of_find?_eq_some h,by simpa only [decide_eq_true_eq] using List.find?_some h⟩

theorem itemOf_none {items : List (Component×V)} {t : StorageType} :
    itemOf items t=none ↔ t∉items.map (fun p => p.1.storageType) := by
  simp only [itemOf,List.find?_eq_none,decide_eq_true_eq,List.mem_map,not_exists,not_and]

/-- What a row holds after a bundle arrived in it: a missing component is
inserted with its enable value and both ticks, a present one keeps its enable
bit and its added tick. -/
def mergeRow (items : List (Component×V)) (tick : ChangedTick) (d : RowData V) : RowData V :=
  fun t => match itemOf items t with
    | none => d t
    | some (c,v) => some (match d t with
      | none => {
          value := v
          enabled := if c.stateDetection.needsEnable then some c.enableValue else none
          added := if c.stateDetection.needsChange then some tick else none
          changed := if c.stateDetection.needsChange then some tick else none }
      | some old => { old with
          value := v
          changed := if c.stateDetection.needsChange then some tick else old.changed })

/-- What a row holds after the components of some storage types left it. -/
def removeRow (ts : List StorageType) (d : RowData V) : RowData V :=
  fun t => if t∈ts then none else d t

/-- The row of an entity that has no component yet. -/
def emptyRow : RowData V := fun _ => none

/-- A row of cells after each item rewrote the cell of its own column. -/
structure RowWritten (items : List (Component×V)) (g : Component×V → Cell V → Cell V) (row : ℕ)
    (s s' : Chunk V) : Prop where
  /-- The length stays. -/
  len : s'.len=s.len
  /-- The capacity stays. -/
  maxLen : s'.maxLen=s.maxLen
  /-- The handles stay. -/
  entities : s'.entities=s.entities
  /-- An item rewrites the cell of its own column. -/
  item : ∀ t p,itemOf items t=some p → s'.cells t row=g p (s.cells t row)
  /-- A column without an item stays. -/
  rest : ∀ t,itemOf items t=none → s'.cells t row=s.cells t row
  /-- Other rows stay. -/
  others : ∀ t r,r≠row → s'.cells t r=s.cells t r

/-- Steps that each rewrite one cell write the row, when no column is named
twice. -/
theorem forItems_written {f : Component → V → Faulting (Chunk V) Fault Unit}
    {g : Component×V → Cell V → Cell V} {items : List (Component×V)} {row : ℕ}
    (hn : (items.map (fun p => p.1.storageType)).Nodup)
    (h : ∀ p∈items,∀ s,∃ s',f p.1 p.2 s=(.ok (),s') ∧ s'.len=s.len ∧ s'.maxLen=s.maxLen ∧
      s'.entities=s.entities ∧ s'.cells=(s.modifyCell p.1.storageType row (g p)).cells)
    (s : Chunk V) :
    ∃ s',forItems f items s=(.ok (),s') ∧ RowWritten items g row s s' := by
  induction items generalizing s with
  | nil => exact ⟨s,rfl,RowWritten.mk rfl rfl rfl (by rintro t p ⟨⟩) (fun _ _ => rfl)
      (fun _ _ _ => rfl)⟩
  | cons p rest ih =>
    rw [List.map_cons,List.nodup_cons] at hn
    obtain ⟨s₁,hrun,hl,hm,he,hc⟩ := h p List.mem_cons_self s
    obtain ⟨s₂,hrun₂,hw⟩ := ih hn.2 (fun q hq => h q (List.mem_cons_of_mem p hq)) s₁
    refine ⟨s₂,?_,hw.len.trans hl,hw.maxLen.trans hm,hw.entities.trans he,?_,?_,?_⟩
    · rw [forItems,bind_ok hrun,hrun₂]
    · intro t q hq
      rw [itemOf,List.find?_cons] at hq
      split at hq
      · rename_i ht
        rw [decide_eq_true_eq] at ht
        cases hq
        subst ht
        rw [hw.rest _ (itemOf_none.mpr hn.1),hc,cells_modifyCell,Function.update_self]
      · rename_i ht
        rw [decide_eq_false_iff_not] at ht
        rw [hw.item t q hq,hc,cells_modifyCell_ne _ _ _ _ (Ne.symm ht)]
    · intro t ht
      rw [itemOf,List.find?_cons] at ht
      split at ht
      · cases ht
      · rename_i hne
        rw [decide_eq_false_iff_not] at hne
        rw [hw.rest t ht,hc,cells_modifyCell_ne _ _ _ _ (Ne.symm hne)]
    · intro t r hr
      rw [hw.others t r hr,hc]
      by_cases ht : t=p.1.storageType
      · subst ht
        rw [cells_modifyCell,Function.update_of_ne hr]
      · rw [cells_modifyCell_ne _ _ _ _ ht]

/-- Writing a writable bundle fresh writes the row. -/
theorem writeItems_written {layout : ChunkLayout} {items : List (Component×V)} {row : ℕ}
    {tick : ChangedTick} (hn : (items.map (fun p => p.1.storageType)).Nodup)
    (hw : ∀ p∈items,Writable layout p.1) (s : Chunk V) :
    ∃ s',forItems (writeAt layout row tick) items s=(.ok (),s') ∧
      RowWritten items (fun p => freshCell p.1 p.2 tick) row s s' :=
  forItems_written hn (fun p hp s => ⟨_,writeAt_eq (hw p hp) s,rfl,rfl,rfl,rfl⟩) s

/-- Replacing a writable bundle overwrites the row. -/
theorem replaceItems_written {layout : ChunkLayout} {items : List (Component×V)} {row : ℕ}
    {tick : ChangedTick} (hn : (items.map (fun p => p.1.storageType)).Nodup)
    (hw : ∀ p∈items,Writable layout p.1) (s : Chunk V) :
    ∃ s',forItems (replaceAt layout row tick) items s=(.ok (),s') ∧
      RowWritten items (fun p => overwrittenCell p.1 p.2 tick) row s s' :=
  forItems_written hn (fun p hp s => ⟨_,replaceAt_eq (hw p hp) s,rfl,rfl,rfl,rfl⟩) s

/-- After a move each item is overwritten or inserted, by what the source had. -/
theorem writeOrReplaceItems_written {srcLayout layout : ChunkLayout} {items : List (Component×V)}
    {row : ℕ} {tick : ChangedTick} (hn : (items.map (fun p => p.1.storageType)).Nodup)
    (hw : ∀ p∈items,Writable layout p.1) (s : Chunk V) :
    ∃ s',forItems (writeOrReplaceAt srcLayout layout row tick) items s=(.ok (),s') ∧
      RowWritten items (fun p => if p.1.storageType∈srcLayout.componentColDescriptors
        then overwrittenCell p.1 p.2 tick else freshCell p.1 p.2 tick) row s s' :=
  forItems_written hn (fun p hp s => writeOrReplaceAt_cells (hw p hp) s) s

section Tables

variable {layout srcLayout : ChunkLayout} {c c' : Chunk V}

/-- A row written past the end and counted in is one new row of the table. -/
theorem row_appended {e : Entity} (hl : c'.len=c.len+1)
    (he : c'.entities=Function.update c.entities c.len e)
    (hc : ∀ t r,r≠c.len → c'.cells t r=c.cells t r) :
    c'.row layout=Function.update (c.row layout) c.len (some (e,c'.rowData layout c.len)) := by
  funext r
  rw [Function.update_apply,Chunk.row,hl]
  by_cases hr : r=c.len
  · subst hr
    rw [if_pos (Nat.lt_succ_self _),if_pos rfl,he,Function.update_self]
  · rw [if_neg hr,Chunk.row,he,Function.update_of_ne hr]
    have hd : c'.rowData layout r=c.rowData layout r := by
      funext t
      simp only [Chunk.rowData,hc t r hr]
    rw [hd]
    by_cases hlt : r<c.len
    · rw [if_pos hlt,if_pos (by omega)]
    · rw [if_neg hlt,if_neg (by omega)]

/-- A row rewritten in place changes the components of that row alone. -/
theorem row_rewritten {row : ℕ} (hr : row<c.len) (hl : c'.len=c.len) (he : c'.entities=c.entities)
    (hc : ∀ t r,r≠row → c'.cells t r=c.cells t r) :
    c'.row layout=
      Function.update (c.row layout) row (some (c.entities row,c'.rowData layout row)) := by
  funext r
  rw [Function.update_apply,Chunk.row,hl,he]
  by_cases hrr : r=row
  · subst hrr
    rw [if_pos hr,if_pos rfl]
  · rw [if_neg hrr,Chunk.row]
    have hd : c'.rowData layout r=c.rowData layout r := by
      funext t
      simp only [Chunk.rowData,hc t r hrr]
    rw [hd]

/-- The layout keeps for every component exactly the states its storage type
declares. -/
def Declared (layout : ChunkLayout) : Prop :=
  ∀ t d,layout.componentColDescriptors.lookup t=some d → d.stateOffset.Matches t.stateDetection

/-- A cell read through the regions a storage type declares. -/
def declaredData (t : StorageType) (cell : Cell V) : ComponentData V where
  value := cell.value
  enabled := if t.stateDetection.needsEnable then some cell.enable else none
  added := if t.stateDetection.needsChange then some cell.added else none
  changed := if t.stateDetection.needsChange then some cell.changed else none

theorem readCell_declared {o : StateOffset} {t : StorageType} (h : o.Matches t.stateDetection)
    (cell : Cell V) : readCell o cell=declaredData t cell := by
  simp only [readCell,declaredData,h.enable,h.added,h.changed]

/-- Between two declared layouts a filled cell reads like its origin. -/
theorem declaredData_fillCell {o o' : StateOffset} {t : StorageType}
    (h : o.Matches t.stateDetection) (h' : o'.Matches t.stateDetection) (a b : Cell V) :
    declaredData t (fillCell o o' a b)=declaredData t a := by
  simp only [declaredData,fillCell,carryState,h.enable,h'.enable,h.added,h'.added,h.changed,
    h'.changed,Bool.and_self]
  cases t.stateDetection.needsEnable <;> cases t.stateDetection.needsChange <;> rfl

theorem rowData_declared (h : Declared layout) (row : ℕ) (t : StorageType) :
    c.rowData layout row t=
      if t∈layout.componentColDescriptors then some (declaredData t (c.cells t row)) else none := by
  rw [Chunk.rowData]
  cases hd : layout.componentColDescriptors.lookup t with
  | none => rw [if_neg (AList.lookup_eq_none.mp hd),Option.map_none]
  | some d =>
    have hm : t∈layout.componentColDescriptors := by
      rw [←AList.lookup_isSome,hd]
      rfl
    rw [if_pos hm,Option.map_some,readCell_declared (h t d hd)]

/-- The components a bundle names are declared by the macro. -/
def ItemsDeclared (items : List (Component×V)) : Prop := ∀ p∈items,p.1.isDeclared=true

variable {items : List (Component×V)} {tick : ChangedTick} {row : ℕ}

/-- A fresh row holds its bundle. -/
theorem rowData_fresh (hd : Declared layout) (hi : ItemsDeclared items)
    (hk : ∀ t,t∈layout.componentColDescriptors ↔ t∈items.map (fun p => p.1.storageType))
    (hw : RowWritten items (fun p => freshCell p.1 p.2 tick) row c c') :
    c'.rowData layout row=mergeRow items tick emptyRow := by
  funext t
  rw [rowData_declared hd,mergeRow]
  cases ht : itemOf items t with
  | none =>
    have hn : ¬t∈layout.componentColDescriptors := fun h => itemOf_none.mp ht ((hk t).mp h)
    rw [if_neg hn]
    rfl
  | some p =>
    obtain ⟨hp,rfl⟩ := itemOf_storage ht
    have hm := (hk p.1.storageType).mpr
      (List.mem_map_of_mem (f:=fun p : Component×V => p.1.storageType) hp)
    rw [if_pos hm,hw.item _ p ht]
    have hs := Component.stateDetection_of_isDeclared (hi p hp)
    simp only [declaredData,freshCell,emptyRow,hs]
    cases p.1.storageType.stateDetection.needsEnable <;>
      cases p.1.storageType.stateDetection.needsChange <;> rfl

/-- An overwritten cell keeps what its row had but the value and the change. -/
theorem declaredData_overwritten {p : Component×V} (h : p.1.isDeclared=true) (cell : Cell V) :
    declaredData p.1.storageType (overwrittenCell p.1 p.2 tick cell)=
      { declaredData p.1.storageType cell with
        value := p.2
        changed := if p.1.stateDetection.needsChange then some tick
          else (declaredData p.1.storageType cell).changed } := by
  have hs := Component.stateDetection_of_isDeclared h
  simp only [declaredData,overwrittenCell,hs]
  cases p.1.storageType.stateDetection.needsChange <;> rfl

/-- A row overwritten in place holds the overlay of the bundle. -/
theorem rowData_replaced (hd : Declared layout) (hi : ItemsDeclared items)
    (hk : ∀ t∈items.map (fun p => p.1.storageType),t∈layout.componentColDescriptors)
    (hw : RowWritten items (fun p => overwrittenCell p.1 p.2 tick) row c c') :
    c'.rowData layout row=mergeRow items tick (c.rowData layout row) := by
  funext t
  rw [mergeRow,rowData_declared hd,rowData_declared hd]
  cases ht : itemOf items t with
  | none => dsimp only; rw [hw.rest t ht]
  | some p =>
    obtain ⟨hp,rfl⟩ := itemOf_storage ht
    have hm := hk _ (List.mem_map_of_mem (f:=fun p : Component×V => p.1.storageType) hp)
    rw [if_pos hm,if_pos hm,hw.item _ p ht,declaredData_overwritten (hi p hp)]

/-- A row that moved with a bundle holds the overlay of the bundle. -/
theorem rowData_moved {src dst arrived dst' : Chunk V} {fromRow toRow : ℕ} (hs : Declared srcLayout)
    (hd : Declared layout) (hi : ItemsDeclared items)
    (hk : ∀ t,t∈layout.componentColDescriptors ↔
      t∈srcLayout.componentColDescriptors ∨ t∈items.map (fun p => p.1.storageType))
    (ha : RowArrived srcLayout layout src fromRow dst arrived toRow)
    (hw : RowWritten items (fun p => if p.1.storageType∈srcLayout.componentColDescriptors
      then overwrittenCell p.1 p.2 tick else freshCell p.1 p.2 tick) toRow arrived dst') :
    dst'.rowData layout toRow=mergeRow items tick (src.rowData srcLayout fromRow) := by
  have harr : ∀ t∈srcLayout.componentColDescriptors,
      declaredData t (arrived.cells t toRow)=declaredData t (src.cells t fromRow) := by
    intro t ht
    obtain ⟨d,hds⟩ := Option.isSome_iff_exists.mp (AList.lookup_isSome.mpr ht)
    obtain ⟨d',hdd⟩ := Option.isSome_iff_exists.mp (AList.lookup_isSome.mpr ((hk t).mpr (.inl ht)))
    rw [ha.moved t d d' hds hdd,declaredData_fillCell (hs t d hds) (hd t d' hdd)]
  funext t
  rw [mergeRow,rowData_declared hd,rowData_declared hs]
  cases ht : itemOf items t with
  | none =>
    dsimp only
    rw [hw.rest t ht]
    by_cases hm : t∈srcLayout.componentColDescriptors
    · rw [if_pos ((hk t).mpr (.inl hm)),if_pos hm,harr t hm]
    · have hn : ¬t∈layout.componentColDescriptors := by
        rw [hk,not_or]
        exact ⟨hm,itemOf_none.mp ht⟩
      rw [if_neg hn,if_neg hm]
  | some p =>
    obtain ⟨hp,rfl⟩ := itemOf_storage ht
    have hm := (hk p.1.storageType).mpr
      (.inr (List.mem_map_of_mem (f:=fun p : Component×V => p.1.storageType) hp))
    rw [if_pos hm,hw.item _ p ht]
    by_cases hms : p.1.storageType∈srcLayout.componentColDescriptors
    · rw [if_pos hms,if_pos hms,declaredData_overwritten (hi p hp),harr _ hms]
    · rw [if_neg hms,if_neg hms]
      have hsd := Component.stateDetection_of_isDeclared (hi p hp)
      simp only [declaredData,freshCell,hsd]
      cases p.1.storageType.stateDetection.needsEnable <;>
        cases p.1.storageType.stateDetection.needsChange <;> rfl

/-- A row that moved to a layout without some components lost exactly these. -/
theorem rowData_removed {src dst arrived : Chunk V} {fromRow toRow : ℕ} {ts : List StorageType}
    (hs : Declared srcLayout) (hd : Declared layout)
    (hk : ∀ t,t∈layout.componentColDescriptors ↔ t∈srcLayout.componentColDescriptors ∧ t∉ts)
    (ha : RowArrived srcLayout layout src fromRow dst arrived toRow) :
    arrived.rowData layout toRow=removeRow ts (src.rowData srcLayout fromRow) := by
  funext t
  rw [removeRow,rowData_declared hd,rowData_declared hs]
  by_cases hm : t∈srcLayout.componentColDescriptors
  · by_cases hts : t∈ts
    · have hn : ¬t∈layout.componentColDescriptors := fun h => ((hk t).mp h).2 hts
      rw [if_neg hn,if_pos hts]
    · have hm' := (hk t).mpr ⟨hm,hts⟩
      obtain ⟨d,hds⟩ := Option.isSome_iff_exists.mp (AList.lookup_isSome.mpr hm)
      obtain ⟨d',hdd⟩ := Option.isSome_iff_exists.mp (AList.lookup_isSome.mpr hm')
      rw [if_pos hm',if_neg hts,if_pos hm,ha.moved t d d' hds hdd,
        declaredData_fillCell (hs t d hds) (hd t d' hdd)]
  · have hn : ¬t∈layout.componentColDescriptors := fun h => hm ((hk t).mp h).1
    rw [if_neg hn,if_neg hm,ite_self]

end Tables

end XynokEcs.RowWrites
