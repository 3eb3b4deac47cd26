import XynokEcs.ItemEffects
import XynokEcs.MapRefinement

/-!
# What a query reads

A shape says which entities it selects, by their components and the states its
filters look at, and what it shows of each. A walk hands out exactly the
entities selected, each once, and an item shows the entity's own handle and
components. Through the offsets resolved from the layout, the bytes of a chunk
show the same.
-/

namespace XynokEcs.QueryReadings

open ComponentTypes EntityHandle SequenceValueMap FaultingState ChunkRows RowWrites ChunkLayouts
  QueryShapes EntityAllocation WorldState WorldCalls RegistryInvariants StoreInvariants QueryAccess
  QuerySources SingletonEntities ActionRuns WorldRuns ActionEffects WorldGrowth QueryMatches QueryWalks SpanCuts
  BatchWalks ChangeTicks

variable {V : Type}

section Views

/-- What an item hands out for one row. -/
inductive ItemView (V : Type)
  | value (t : StorageType) (v : V)
  | handle (e : Entity)
  /-- `DetailItem`. -/
  | detail (t : StorageType) (v : V) (enabled : Bool)
  | unit
  | tuple (elements : List (ItemView V))

mutual

/-- `fetch`. -/
def ArchState.fetch (chunk : Chunk V) (row : ℕ) : ArchState → ItemView V
  | .column c => .value c.component.storageType (chunk.cells c.component.storageType row).value
  | .entity => .handle (chunk.entities row)
  | .filter _ c _ => .value c.component.storageType (chunk.cells c.component.storageType row).value
  | .detail c _ => .detail c.component.storageType (chunk.cells c.component.storageType row).value
    (chunk.cells c.component.storageType row).enable
  | .without => .unit
  | .tuple elements => .tuple (ArchState.fetchAll chunk row elements)

def ArchState.fetchAll (chunk : Chunk V) (row : ℕ) : List ArchState → List (ItemView V)
  | [] => []
  | state::rest => ArchState.fetch chunk row state::ArchState.fetchAll chunk row rest

end

/-- What an item shows, read where it points. -/
def QueryItem.fetch (w : World V) (item : QueryItem) : Option (ItemView V) :=
  ((World.chunks w item.loc.archId)[item.loc.indices.chunkIdx]?).map fun chunk =>
    ArchState.fetch chunk item.loc.indices.idxInChunk item.state

/-- The states a filter asks a component for. -/
def FilterKind.bound : FilterKind → StateDetection → Bool
  | .added,s => s.needsChange
  | .changed,s => s.needsChange
  | .enabled,s => s.needsEnable
  | .disabled,s => s.needsEnable

mutual

/-- `TChangeAble` and `TEnableAble`, the bounds on the components of filters and details. -/
def QueryShape.bounded : QueryShape Component → Bool
  | .filter kind p => FilterKind.bound kind p.component.stateDetection
  | .detail p => p.component.stateDetection.needsEnable
  | .tuple elements => QueryShape.allBounded elements
  | _ => true

def QueryShape.allBounded : List (QueryShape Component) → Bool
  | [] => true
  | q::rest => QueryShape.bounded q && QueryShape.allBounded rest

end

end Views

section Meaning

/-- What a filter says of a component. -/
def FilterKind.Holds (ticks : QueryTicks) (x : ComponentData V) : FilterKind → Prop
  | .added => ∃ tick,x.added=some tick ∧ isNewerThan tick ticks.lastRun ticks.thisRun=true
  | .changed => ∃ tick,x.changed=some tick ∧ isNewerThan tick ticks.lastRun ticks.thisRun=true
  | .enabled => x.enabled=some true
  | .disabled => x.enabled=some false

mutual

/-- The filters of a shape, each with the component it looks at. -/
def QueryShape.filters : QueryShape Component → List (FilterKind×StorageType)
  | .filter kind p => [(kind,p.component.storageType)]
  | .tuple elements => QueryShape.allFilters elements
  | _ => []

def QueryShape.allFilters : List (QueryShape Component) → List (FilterKind×StorageType)
  | [] => []
  | q::rest => QueryShape.filters q++QueryShape.allFilters rest

end

/-- The shape selects an entity: it has the components read and written and none
that is excluded, and every filter holds of its own states. -/
def Selects (q : QueryShape Component) (ticks : QueryTicks) (x : RowData V) : Prop :=
  (∀ p∈QueryShape.accesses q,(x p.2.storageType).isSome=true ↔ p.1≠.exclude) ∧
    ∀ f∈QueryShape.filters q,∃ d,x f.2=some d ∧ FilterKind.Holds ticks d f.1

mutual

/-- What a shape shows of an entity. -/
def QueryShape.view (e : Entity) (x : RowData V) : QueryShape Component → Option (ItemView V)
  | .column p => (x p.component.storageType).map fun d => .value p.component.storageType d.value
  | .entity => some (.handle e)
  | .filter _ p => (x p.component.storageType).map fun d => .value p.component.storageType d.value
  | .detail p => (x p.component.storageType).bind fun d =>
    d.enabled.map fun b => .detail p.component.storageType d.value b
  | .without _ => some .unit
  | .tuple elements => (QueryShape.viewAll e x elements).map .tuple

def QueryShape.viewAll (e : Entity) (x : RowData V) : List (QueryShape Component) → Option (List (ItemView V))
  | [] => some []
  | q::rest => (QueryShape.view e x q).bind fun v => (QueryShape.viewAll e x rest).map fun vs => v::vs

end

/-- An item stands for a live entity: it is the row the world keeps for it, and it
shows the entity's own handle and components. -/
def StandsFor (q : QueryShape Component) (w : World V) (item : QueryItem) (e : Entity) : Prop :=
  w.entityAllocator.locate e=some item.loc ∧ ∃ x v,World.contents w e=some x ∧
    QueryItem.fetch w item=some v ∧ QueryShape.view e x q=some v

/-- Walking the query hands out exactly the entities of which something is true, each
once, each by an item that stands for it. -/
def HandsOut (q : QueryShape Component) (accessor : QuerySpecAccessor) (w : World V) (P : Entity → Prop) :
    Prop :=
  ∃ items es,Exhausts (QueryIter.next q w) (QueryIter.new q accessor w) items ∧
    List.Forall₂ (StandsFor q w) items es ∧ es.Nodup ∧ ∀ e,e∈es ↔ P e

/-- Walking the query hands out exactly the live entities it selects. -/
def ReadsExactly (q : QueryShape Component) (accessor : QuerySpecAccessor) (w : World V) : Prop :=
  HandsOut q accessor w fun e =>
    q.excludeOnly=false ∧ ∃ x,World.contents w e=some x ∧ Selects q accessor.ticks x

/-- What is handed out may be said another way. -/
theorem HandsOut.congr {q : QueryShape Component} {accessor : QuerySpecAccessor} {w : World V}
    {P P' : Entity → Prop} (h : HandsOut q accessor w P) (hp : ∀ e,P e ↔ P' e) :
    HandsOut q accessor w P' := by
  obtain ⟨items,es,hwalk,hstands,hnodup,hmem⟩ := h
  exact ⟨items,es,hwalk,hstands,hnodup,fun e => (hmem e).trans (hp e)⟩

end Meaning

section Resolved

variable {layout : ChunkLayout} {ticks : QueryTicks} {chunk : Chunk V} {row : ℕ}

/-- A resolved column is that of the layout. -/
theorem archState_column {p : QueryColumn Component} {c : ColumnState}
    (h : QueryColumn.archState layout p=.ok c) :
    c.component=p.component ∧ layout.componentColDescriptors.lookup p.component.storageType=some c.column := by
  obtain ⟨d,hd,hc⟩ := ok_of_bind h
  cases hc
  exact ⟨rfl,columnDescriptor_ok hd⟩

/-- A row is read column by column. -/
theorem rowData_lookup {t : StorageType} {d : ColumnDescriptor}
    (h : layout.componentColDescriptors.lookup t=some d) :
    chunk.rowData layout row t=some (readCell d.stateOffset (chunk.cells t row)) := by
  rw [Chunk.rowData,h,Option.map_some]

/-- A filter with its region says of a cell what it says of the component. -/
theorem accepts_iff {kind : FilterKind} {o : StateOffset} {start : ℕ} {cell : Cell V}
    (h : FilterKind.offset kind o=some start) :
    FilterKind.accepts ticks cell kind=true ↔ FilterKind.Holds ticks (readCell o cell) kind := by
  have hsome : (FilterKind.offset kind o).isSome=true := by rw [h]; rfl
  cases kind with
  | added =>
    rw [FilterKind.offset] at hsome
    simp only [FilterKind.accepts,FilterKind.Holds,readCell,hsome,if_true,Option.some.injEq,exists_eq_left']
  | changed =>
    rw [FilterKind.offset] at hsome
    simp only [FilterKind.accepts,FilterKind.Holds,readCell,hsome,if_true,Option.some.injEq,exists_eq_left']
  | enabled =>
    rw [FilterKind.offset] at hsome
    simp only [FilterKind.accepts,FilterKind.Holds,readCell,hsome,if_true,Option.some.injEq]
  | disabled =>
    rw [FilterKind.offset] at hsome
    simp only [FilterKind.accepts,FilterKind.Holds,readCell,hsome,if_true,Option.some.injEq,
      Bool.not_eq_true']

mutual

/-- A row passes what was resolved when the filters of the shape hold of it. -/
theorem accepts_filters (q : QueryShape Component) {state : ArchState}
    (h : QueryShape.archState layout q=.ok state) :
    ArchState.accepts ticks chunk row state=true ↔ ∀ f∈QueryShape.filters q,
      ∃ d,chunk.rowData layout row f.2=some d ∧ FilterKind.Holds ticks d f.1 := by
  cases q with
  | column p =>
    obtain ⟨c,hc,he⟩ := ok_of_bind h
    cases he
    exact iff_of_true rfl fun f hf => (nomatch hf)
  | entity =>
    cases h
    exact iff_of_true rfl fun f hf => (nomatch hf)
  | filter kind p =>
    obtain ⟨o,ho,h⟩ := ok_of_bind h
    obtain ⟨c,hc,he⟩ := ok_of_bind h
    cases he
    obtain ⟨hcomp,hcol⟩ := archState_column hc
    rw [ArchState.accepts,hcomp,QueryShape.filters,List.forall_mem_singleton,rowData_lookup hcol,
      accepts_iff (stateRegion_ok ho hcol)]
    simp only [Option.some.injEq,exists_eq_left']
  | detail p =>
    obtain ⟨o,ho,h⟩ := ok_of_bind h
    obtain ⟨c,hc,he⟩ := ok_of_bind h
    cases he
    exact iff_of_true rfl fun f hf => (nomatch hf)
  | without c =>
    cases h
    exact iff_of_true rfl fun f hf => (nomatch hf)
  | tuple elements =>
    obtain ⟨states,hs,he⟩ := ok_of_bind h
    cases he
    exact acceptsAll_filters elements hs

/-- A row passes a tuple if it passes all of its filters. -/
theorem acceptsAll_filters (elements : List (QueryShape Component)) {states : List ArchState}
    (h : QueryShape.archStates layout elements=.ok states) :
    ArchState.acceptsAll ticks chunk row states=true ↔ ∀ f∈QueryShape.allFilters elements,
      ∃ d,chunk.rowData layout row f.2=some d ∧ FilterKind.Holds ticks d f.1 := by
  cases elements with
  | nil =>
    cases h
    exact iff_of_true rfl fun f hf => (nomatch hf)
  | cons q rest =>
    obtain ⟨state,hs,h⟩ := ok_of_bind h
    obtain ⟨states',hr,he⟩ := ok_of_bind h
    cases he
    rw [ArchState.acceptsAll,Bool.and_eq_true,accepts_filters q hs,acceptsAll_filters rest hr,
      QueryShape.allFilters,List.forall_mem_append]

end

mutual

/-- What was resolved shows of a row what the shape shows of its components. -/
theorem fetch_view (q : QueryShape Component) {state : ArchState}
    (h : QueryShape.archState layout q=.ok state) :
    QueryShape.view (chunk.entities row) (chunk.rowData layout row) q=
      some (ArchState.fetch chunk row state) := by
  cases q with
  | column p =>
    obtain ⟨c,hc,he⟩ := ok_of_bind h
    cases he
    obtain ⟨hcomp,hcol⟩ := archState_column hc
    rw [QueryShape.view,rowData_lookup hcol,ArchState.fetch,hcomp]
    rfl
  | entity =>
    cases h
    rfl
  | filter kind p =>
    obtain ⟨o,ho,h⟩ := ok_of_bind h
    obtain ⟨c,hc,he⟩ := ok_of_bind h
    cases he
    obtain ⟨hcomp,hcol⟩ := archState_column hc
    rw [QueryShape.view,rowData_lookup hcol,ArchState.fetch,hcomp]
    rfl
  | detail p =>
    obtain ⟨o,ho,h⟩ := ok_of_bind h
    obtain ⟨c,hc,he⟩ := ok_of_bind h
    cases he
    obtain ⟨hcomp,hcol⟩ := archState_column hc
    have henable : c.column.stateOffset.enableOffset.isSome=true := by
      rw [stateRegion_ok ho hcol]
      rfl
    rw [QueryShape.view,rowData_lookup hcol,ArchState.fetch,hcomp,Option.bind_some,readCell,
      if_pos henable]
    rfl
  | without c =>
    cases h
    rfl
  | tuple elements =>
    obtain ⟨states,hs,he⟩ := ok_of_bind h
    cases he
    rw [QueryShape.view,fetchAll_view elements hs,ArchState.fetch]
    rfl

/-- A tuple shows of a row what its elements show. -/
theorem fetchAll_view (elements : List (QueryShape Component)) {states : List ArchState}
    (h : QueryShape.archStates layout elements=.ok states) :
    QueryShape.viewAll (chunk.entities row) (chunk.rowData layout row) elements=
      some (ArchState.fetchAll chunk row states) := by
  cases elements with
  | nil =>
    cases h
    rfl
  | cons q rest =>
    obtain ⟨state,hs,h⟩ := ok_of_bind h
    obtain ⟨states',hr,he⟩ := ok_of_bind h
    cases he
    rw [QueryShape.viewAll,fetch_view q hs,Option.bind_some,fetchAll_view rest hr,ArchState.fetchAll]
    rfl

end

end Resolved

section Bytes

open ByteMemory LayoutRegions ChunkMemory ByteMigration

variable {layout : ChunkLayout} {ticks : QueryTicks} {chunk : RawChunk} {row : ℕ}

/-- What a filter reads through the start of its region. -/
def FilterKind.acceptsBytes (ticks : QueryTicks) (m : Memory) (start row : ℕ) : FilterKind → Bool
  | .added => isNewerThan (readChangedTick m start row) ticks.lastRun ticks.thisRun
  | .changed => isNewerThan (readChangedTick m start row) ticks.lastRun ticks.thisRun
  | .enabled => readBit m start row
  | .disabled => !readBit m start row

mutual

/-- `accepts`, through the pointers resolved in a chunk. -/
def ArchState.acceptsBytes (ticks : QueryTicks) (m : Memory) (row : ℕ) : ArchState → Bool
  | .filter kind _ start => FilterKind.acceptsBytes ticks m start row kind
  | .tuple elements => ArchState.acceptsAllBytes ticks m row elements
  | _ => true

def ArchState.acceptsAllBytes (ticks : QueryTicks) (m : Memory) (row : ℕ) : List ArchState → Bool
  | [] => true
  | state::rest => ArchState.acceptsBytes ticks m row state &&
    ArchState.acceptsAllBytes ticks m row rest

end

/-- A row of a column, read through the start of the column. -/
def ColumnState.valueBytes (c : ColumnState) (m : Memory) (row : ℕ) : List UInt8 :=
  (readValue m c.component.storageType c.column.offset row).1

mutual

/-- `fetch`, through the pointers resolved in a chunk. -/
def ArchState.fetchBytes (layout : ChunkLayout) (m : Memory) (row : ℕ) : ArchState → ItemView (List UInt8)
  | .column c => .value c.component.storageType (ColumnState.valueBytes c m row)
  | .entity => .handle (readEntity m layout.header.entitiesOffset row)
  | .filter _ c _ => .value c.component.storageType (ColumnState.valueBytes c m row)
  | .detail c start => .detail c.component.storageType (ColumnState.valueBytes c m row)
    (readBit m start row)
  | .without => .unit
  | .tuple elements => .tuple (ArchState.fetchAllBytes layout m row elements)

def ArchState.fetchAllBytes (layout : ChunkLayout) (m : Memory) (row : ℕ) :
    List ArchState → List (ItemView (List UInt8))
  | [] => []
  | state::rest => ArchState.fetchBytes layout m row state::ArchState.fetchAllBytes layout m row rest

end

/-- The cells of a table are what the bytes hold in the rows there is room for. -/
theorem table_cell (hrow : row<layout.maxLen) (t : StorageType) :
    (table layout chunk).cells t row=readCellBytes layout chunk.mem t row := if_pos hrow

/-- Through its resolved column a row's value is read where the table has it. -/
theorem valueBytes_table (hrow : row<layout.maxLen) {p : QueryColumn Component} {c : ColumnState}
    (h : QueryColumn.archState layout p=.ok c) :
    ColumnState.valueBytes c chunk.mem row=((table layout chunk).cells c.component.storageType row).value := by
  obtain ⟨hcomp,hcol⟩ := archState_column h
  have hstart : regionStart layout (.column c.component.storageType)=some c.column.offset := by
    rw [regionStart,hcomp,hcol]
    rfl
  rw [table_cell hrow,readCellBytes,readRegion,hstart]
  rfl

/-- A region resolved for a filter or a detail is the layout's own. -/
theorem region_start {p : QueryColumn Component} {c : ColumnState} {o : StateOffset → Option ℕ} {start : ℕ}
    (h : QueryColumn.archState layout p=.ok c)
    (ho : QueryWalks.stateRegion layout p.component.storageType o=.ok start) :
    (layout.componentColDescriptors.lookup c.component.storageType).bind (fun d => o d.stateOffset)=
      some start := by
  obtain ⟨hcomp,hcol⟩ := archState_column h
  rw [hcomp,hcol,Option.bind_some,stateRegion_ok ho hcol]

/-- A filter reads its region as the table has the cell. -/
theorem acceptsBytes_table (hrow : row<layout.maxLen) {kind : FilterKind} {p : QueryColumn Component}
    {c : ColumnState} {start : ℕ} (h : QueryColumn.archState layout p=.ok c)
    (ho : QueryWalks.stateRegion layout p.component.storageType (FilterKind.offset kind)=.ok start) :
    FilterKind.acceptsBytes ticks chunk.mem start row kind=
      FilterKind.accepts ticks ((table layout chunk).cells c.component.storageType row) kind := by
  have hstart := region_start h ho
  rw [table_cell hrow]
  cases kind with
  | added =>
    have hr : regionStart layout (.added c.component.storageType)=some start := hstart
    simp only [FilterKind.acceptsBytes,FilterKind.accepts,readCellBytes,readRegion,hr]
    rfl
  | changed =>
    have hr : regionStart layout (.changed c.component.storageType)=some start := hstart
    simp only [FilterKind.acceptsBytes,FilterKind.accepts,readCellBytes,readRegion,hr]
    rfl
  | enabled =>
    have hr : regionStart layout (.enable c.component.storageType)=some start := hstart
    simp only [FilterKind.acceptsBytes,FilterKind.accepts,readCellBytes,readRegion,hr]
    rfl
  | disabled =>
    have hr : regionStart layout (.enable c.component.storageType)=some start := hstart
    simp only [FilterKind.acceptsBytes,FilterKind.accepts,readCellBytes,readRegion,hr]
    rfl

/-- What is read from the bytes of a row is what its table has. -/
def BytesAgree (layout : ChunkLayout) (state : ArchState) : Prop :=
  ∀ (ticks : QueryTicks) (chunk : RawChunk) (row : ℕ),row<layout.maxLen →
    ArchState.acceptsBytes ticks chunk.mem row state=ArchState.accepts ticks (table layout chunk) row state ∧
    ArchState.fetchBytes layout chunk.mem row state=ArchState.fetch (table layout chunk) row state

mutual

/-- Through its resolved offsets a shape reads a row's own bytes. -/
theorem bytes_agree (q : QueryShape Component) {state : ArchState}
    (h : QueryShape.archState layout q=.ok state) : BytesAgree layout state := by
  intro ticks chunk row hrow
  cases q with
  | column p =>
    obtain ⟨c,hc,he⟩ := ok_of_bind h
    cases he
    refine ⟨rfl,?_⟩
    rw [ArchState.fetchBytes,ArchState.fetch,valueBytes_table hrow hc]
  | entity =>
    cases h
    refine ⟨rfl,congrArg ItemView.handle ?_⟩
    exact (if_pos hrow).symm
  | filter kind p =>
    obtain ⟨o,ho,h⟩ := ok_of_bind h
    obtain ⟨c,hc,he⟩ := ok_of_bind h
    cases he
    refine ⟨acceptsBytes_table hrow hc ho,?_⟩
    rw [ArchState.fetchBytes,ArchState.fetch,valueBytes_table hrow hc]
  | detail p =>
    obtain ⟨o,ho,h⟩ := ok_of_bind h
    obtain ⟨c,hc,he⟩ := ok_of_bind h
    cases he
    have hbit : FilterKind.acceptsBytes ticks chunk.mem o row .enabled=FilterKind.accepts ticks
        ((table layout chunk).cells c.component.storageType row) .enabled := acceptsBytes_table hrow hc ho
    rw [FilterKind.acceptsBytes,FilterKind.accepts] at hbit
    refine ⟨rfl,?_⟩
    rw [ArchState.fetchBytes,ArchState.fetch,valueBytes_table hrow hc,hbit]
  | without c =>
    cases h
    exact ⟨rfl,rfl⟩
  | tuple elements =>
    obtain ⟨states,hs,he⟩ := ok_of_bind h
    cases he
    obtain ⟨hacc,hfetch⟩ := bytes_agreeAll elements hs ticks chunk row hrow
    exact ⟨hacc,congrArg ItemView.tuple hfetch⟩

/-- Filters and items read from bytes what they read from the table. -/
theorem bytes_agreeAll (elements : List (QueryShape Component)) {states : List ArchState}
    (h : QueryShape.archStates layout elements=.ok states) (ticks : QueryTicks) (chunk : RawChunk) (row : ℕ)
    (hrow : row<layout.maxLen) : ArchState.acceptsAllBytes ticks chunk.mem row states=
        ArchState.acceptsAll ticks (table layout chunk) row states ∧
      ArchState.fetchAllBytes layout chunk.mem row states=
        ArchState.fetchAll (table layout chunk) row states := by
  cases elements with
  | nil =>
    cases h
    exact ⟨rfl,rfl⟩
  | cons q rest =>
    obtain ⟨state,hs,h⟩ := ok_of_bind h
    obtain ⟨states',hr,he⟩ := ok_of_bind h
    cases he
    obtain ⟨hacc,hfetch⟩ := bytes_agree q hs ticks chunk row hrow
    obtain ⟨haccs,hfetches⟩ := bytes_agreeAll rest hr ticks chunk row hrow
    rw [ArchState.acceptsAllBytes,ArchState.acceptsAll,ArchState.fetchAllBytes,ArchState.fetchAll,
      hacc,hfetch,haccs,hfetches]
    exact ⟨rfl,rfl⟩

end

end Bytes

section Resolvable

variable {layout : ChunkLayout}

/-- A column that is there is found. -/
theorem columnDescriptor_of {t : StorageType} {d : ColumnDescriptor}
    (h : layout.componentColDescriptors.lookup t=some d) : columnDescriptor layout t=.ok d := by
  rw [columnDescriptor,h]

/-- A layout with the columns of a shape resolves it, with the regions its bounds
ask for. -/
theorem column_resolves {p : QueryColumn Component} {d : ColumnDescriptor}
    (h : layout.componentColDescriptors.lookup p.component.storageType=some d) :
    QueryColumn.archState layout p=.ok ⟨p.component,(QueryColumn.access p).1=.write,d⟩ := by
  rw [QueryColumn.archState,columnDescriptor_of h]
  rfl

/-- A state that the column keeps is found. -/
theorem stateRegion_of {t : StorageType} {d : ColumnDescriptor} {offset : StateOffset → Option ℕ}
    (h : layout.componentColDescriptors.lookup t=some d) (ho : (offset d.stateOffset).isSome=true) :
    ∃ o,QueryWalks.stateRegion layout t offset=.ok o := by
  obtain ⟨o,ho⟩ := Option.isSome_iff_exists.mp ho
  refine ⟨o,?_⟩
  unfold QueryWalks.stateRegion
  simp only [columnDescriptor_of h,ho,bind,Except.bind]
  rfl

/-- A declared layout has the region that a bound promises. -/
theorem region_of_bound {kind : FilterKind} {c : Component} {d : ColumnDescriptor} (h : Declared layout)
    (hc : c.isDeclared=true) (hd : layout.componentColDescriptors.lookup c.storageType=some d)
    (hb : FilterKind.bound kind c.stateDetection=true) :
    (FilterKind.offset kind d.stateOffset).isSome=true := by
  have hmatches := h _ _ hd
  rw [Component.stateDetection_of_isDeclared hc] at hb
  cases kind with
  | added => exact hmatches.added.trans hb
  | changed => exact hmatches.changed.trans hb
  | enabled => exact hmatches.enable.trans hb
  | disabled => exact hmatches.enable.trans hb

/-- The column of a place that is read or written. -/
theorem column_of_matches {acc : List (Access×Component)} {p : QueryColumn Component}
    (h : ∀ a∈acc,a.2.storageType∈layout.componentColDescriptors ↔ a.1≠.exclude)
    (hp : QueryColumn.access p∈acc) :
    ∃ d,layout.componentColDescriptors.lookup p.component.storageType=some d := by
  have hmem := (h _ hp).mpr (by cases p <;> exact nofun)
  have hcomp : (QueryColumn.access p).2=p.component := by cases p <;> rfl
  rw [hcomp] at hmem
  exact Option.isSome_iff_exists.mp (AList.lookup_isSome.mpr hmem)

mutual

/-- A shape is resolved in every declared layout that it matches. -/
theorem shape_resolves (q : QueryShape Component) (h : Declared layout)
    (hq : ∀ a∈QueryShape.accesses q,a.2.storageType∈layout.componentColDescriptors ↔ a.1≠.exclude)
    (hd : ∀ a∈QueryShape.accesses q,a.2.isDeclared=true) (hb : QueryShape.bounded q=true) :
    ∃ state,QueryShape.archState layout q=.ok state := by
  cases q with
  | column p =>
    obtain ⟨d,hcol⟩ := column_of_matches hq List.mem_cons_self
    refine ⟨.column ⟨p.component,(QueryColumn.access p).1=.write,d⟩,?_⟩
    rw [QueryShape.archState,column_resolves hcol]
    rfl
  | entity => exact ⟨_,rfl⟩
  | filter kind p =>
    obtain ⟨d,hcol⟩ := column_of_matches hq List.mem_cons_self
    have hcomp : (QueryColumn.access p).2=p.component := by cases p <;> rfl
    have hdec : p.component.isDeclared=true := hcomp ▸ hd _ List.mem_cons_self
    obtain ⟨o,ho⟩ := stateRegion_of hcol (region_of_bound h hdec hcol hb)
    refine ⟨.filter kind ⟨p.component,(QueryColumn.access p).1=.write,d⟩ o,?_⟩
    rw [QueryShape.archState,ho,column_resolves hcol]
    rfl
  | detail p =>
    obtain ⟨d,hcol⟩ := column_of_matches hq List.mem_cons_self
    have hcomp : (QueryColumn.access p).2=p.component := by cases p <;> rfl
    have hdec : p.component.isDeclared=true := hcomp ▸ hd _ List.mem_cons_self
    have hsome : (FilterKind.offset .enabled d.stateOffset).isSome=true := region_of_bound h hdec hcol hb
    obtain ⟨o,ho⟩ := stateRegion_of hcol hsome
    have hregion : QueryWalks.stateRegion layout p.component.storageType StateOffset.enableOffset=.ok o := ho
    refine ⟨.detail ⟨p.component,(QueryColumn.access p).1=.write,d⟩ o,?_⟩
    rw [QueryShape.archState,hregion,column_resolves hcol]
    rfl
  | without c => exact ⟨_,rfl⟩
  | tuple elements =>
    obtain ⟨states,hs⟩ := shapes_resolve elements h hq hd hb
    refine ⟨.tuple states,?_⟩
    rw [QueryShape.archState,hs]
    rfl

/-- A tuple whose elements match resolves. -/
theorem shapes_resolve (elements : List (QueryShape Component)) (h : Declared layout)
    (hq : ∀ a∈QueryShape.allAccesses elements,
      a.2.storageType∈layout.componentColDescriptors ↔ a.1≠.exclude)
    (hd : ∀ a∈QueryShape.allAccesses elements,a.2.isDeclared=true)
    (hb : QueryShape.allBounded elements=true) :
    ∃ states,QueryShape.archStates layout elements=.ok states := by
  cases elements with
  | nil => exact ⟨[],rfl⟩
  | cons q rest =>
    rw [QueryShape.allBounded,Bool.and_eq_true] at hb
    obtain ⟨state,hs⟩ := shape_resolves q h (fun a ha => hq a (List.mem_append_left _ ha))
      (fun a ha => hd a (List.mem_append_left _ ha)) hb.1
    obtain ⟨states,hr⟩ := shapes_resolve rest h (fun a ha => hq a (List.mem_append_right _ ha))
      (fun a ha => hd a (List.mem_append_right _ ha)) hb.2
    refine ⟨state::states,?_⟩
    rw [QueryShape.archStates,hs,hr]
    rfl

end

end Resolvable

section Walked

variable {w : World V} {q : QueryShape Component} {accessor : QuerySpecAccessor} {ticks : QueryTicks}
  {reserved : List Entity}

/-- The entity whose row is at a place. -/
def World.entityAt (w : World V) (l : RowLoc) : Entity := ((World.row w l).map Prod.fst).getD .null

/-- The handle of a row in use is read. -/
theorem entityAt_row {l : RowLoc} {e : Entity} {x : RowData V} (h : World.row w l=some (e,x)) :
    World.entityAt w l=e := by
  rw [World.entityAt,h]
  rfl

/-- The bounds of a shape and its declared components, as the world's types promise them. -/
structure WellTyped (q : QueryShape Component) : Prop where
  /-- The components come from the macro. -/
  declared : ShapeDeclared q
  /-- Filters and details are over components that keep the state they ask for. -/
  bounded : QueryShape.bounded q=true

/-- A matched archetype resolves the shape. -/
theorem enterArch_matched (h : RegistryInv True w) (hq : WellTyped q) {i : ℕ} {spec : ArchetypeSpec V}
    (hv : w.archetypes.valueAt i=some spec) (hm : Matches q spec.layout) :
    ∃ state,QueryShape.archState spec.layout q=.ok state ∧ enterArch q w i=.ok (i,state) := by
  have hdeclared : ∀ a∈QueryShape.accesses q,a.2.isDeclared=true :=
    fun a ha => hq.declared _ (List.mem_map_of_mem (f:=Prod.snd) ha)
  obtain ⟨state,hs⟩ := shape_resolves q (h.declared_layouts trivial i spec hv) hm hdeclared hq.bounded
  refine ⟨state,hs,?_⟩
  unfold enterArch
  rw [hv]
  dsimp only
  rw [hs]
  rfl

/-- The components of a row are those of the layout it lies in. -/
theorem accesses_matches {l : RowLoc} {e : Entity} {x : RowData V} {spec : ArchetypeSpec V}
    (hr : World.row w l=some (e,x)) (hv : w.archetypes.valueAt l.archId=some spec) :
    (∀ p∈QueryShape.accesses q,(x p.2.storageType).isSome=true ↔ p.1≠.exclude) ↔ Matches q spec.layout := by
  obtain ⟨spec',c,hv',-,-,-,hx⟩ := row_eq_some hr
  rw [hv] at hv'
  cases hv'
  refine forall₂_congr fun p hp => ?_
  rw [←hx,Chunk.rowData,Option.isSome_map,AList.lookup_isSome]

/-- The entity of a row in a matched archetype is selected when the row passes. -/
theorem selects_iff (h : RegistryInv True w) (hq : WellTyped q) {l : RowLoc} {e : Entity} {x : RowData V}
    (hr : World.row w l=some (e,x)) : Selects q ticks x ↔
      (∃ spec : ArchetypeSpec V,w.archetypes.valueAt l.archId=some spec ∧ Matches q spec.layout) ∧
        acceptsAt q w ticks l=true := by
  obtain ⟨spec,c,hv,hc,-,-,hx⟩ := row_eq_some hr
  have hfound : (∃ spec : ArchetypeSpec V,w.archetypes.valueAt l.archId=some spec ∧
      Matches q spec.layout) ↔ Matches q spec.layout := by
    rw [hv]
    simp only [Option.some.injEq,exists_eq_left']
  rw [Selects,accesses_matches hr hv,hfound]
  refine and_congr_right fun hm => ?_
  obtain ⟨state,hs,he⟩ := enterArch_matched h hq hv hm
  have hchunk : (World.chunks w l.archId)[l.indices.chunkIdx]?=some c := by
    rw [World.chunks,hv]
    exact hc
  rw [acceptsAt,he]
  dsimp only
  rw [Fetch.accepts]
  dsimp only
  rw [hchunk]
  dsimp only
  rw [accepts_filters q hs,hx]

/-- An item at a row stands for the entity there. -/
theorem itemAt_standsFor (h : StoreInv True reserved w) {l : RowLoc} {item : QueryItem}
    (hi : itemAt q w ticks l=some item) (hr : (World.row w l).isSome=true) :
    StandsFor q w item (World.entityAt w item.loc) := by
  obtain ⟨⟨e,x⟩,hr⟩ := Option.isSome_iff_exists.mp hr
  obtain ⟨spec,c,hv,hc,-,he,hx⟩ := row_eq_some hr
  have hloc := itemAt_loc hi
  subst hloc
  have hchunk : (World.chunks w item.loc.archId)[item.loc.indices.chunkIdx]?=some c := by
    rw [World.chunks,hv]
    exact hc
  rw [entityAt_row hr]
  refine ⟨h.consistent.locate hr,x,ArchState.fetch c item.loc.indices.idxInChunk item.state,
    h.consistent.contents_of_row hr,?_,?_⟩
  · rw [QueryItem.fetch,hchunk,Option.map_some]
  · unfold itemAt at hi
    cases hent : enterArch q w item.loc.archId with
    | error err =>
      rw [hent] at hi
      cases hi
    | ok entered =>
      rw [hent] at hi
      dsimp only at hi
      split at hi
      · have hstate : entered.2=item.state := congrArg QueryItem.state (Option.some.inj hi)
        have hres : QueryShape.archState spec.layout q=.ok entered.2 := by
          unfold enterArch at hent
          rw [hv] at hent
          obtain ⟨s,hs,hsame⟩ := ok_of_bind hent
          cases hsame
          exact hs
        rw [←hstate,←he,←hx]
        exact fetch_view q hres
      · cases hi

/-- The places of a walk are the rows of the matched archetypes. -/
theorem mem_upcoming {l : RowLoc} : l∈QueryIter.upcoming w (QueryIter.new q accessor w) ↔
    (q.excludeOnly=false ∧ l.archId∈(accessor.archIndices w).getD []) ∧ (World.row w l).isSome=true := by
  rw [upcoming_new,←places_archesSpans,mem_places]
  exact and_congr_left' mem_matched

/-- Distinct rows belong to distinct entities. -/
theorem entityAt_inj (h : (World.directory w).Consistent) {l l' : RowLoc}
    (hl : (World.row w l).isSome=true) (hl' : (World.row w l').isSome=true)
    (he : World.entityAt w l=World.entityAt w l') : l=l' := by
  obtain ⟨⟨e,x⟩,hr⟩ := Option.isSome_iff_exists.mp hl
  obtain ⟨⟨e',x'⟩,hr'⟩ := Option.isSome_iff_exists.mp hl'
  rw [entityAt_row hr,entityAt_row hr'] at he
  subst he
  exact Option.some.inj ((h.locate hr).symm.trans (h.locate hr'))

/-- A live entity has a row, and is the entity at it. -/
theorem row_of_contents (h : (World.directory w).Consistent) {e : Entity} {x : RowData V}
    (hx : World.contents w e=some x) : ∃ l,World.row w l=some (e,x) := by
  obtain ⟨l,hl,hr⟩ := Option.bind_eq_some_iff.mp hx
  obtain ⟨y,hy⟩ := h.row hl
  have hxy : some y=some x := by
    change ((World.directory w).rows l).map Prod.snd=some x at hr
    rw [hy,Option.map_some] at hr
    exact hr
  cases hxy
  exact ⟨l,hy⟩

/-- Walking a current query of a world in order reads exactly what it selects. -/
theorem reads_exactly (h : StoreInv True reserved w) (hcore : CoreInv w) (hq : WellTyped q)
    {lastRunTick : ChangedTick} (ha : querySrcAccess q lastRunTick w=some accessor) :
    ReadsExactly q accessor w := by
  obtain ⟨idxs,hidx,hexact⟩ := accessor_exact hcore ha
  have hmatched : ∀ i∈idxs,∃ a,enterArch q w i=.ok a := by
    intro i hi
    obtain ⟨spec,hv,hm⟩ := (hexact.mem i).mp hi
    obtain ⟨state,-,he⟩ := enterArch_matched h.registry hq hv hm
    exact ⟨_,he⟩
  have hcursor : CursorOk q w (QueryIter.new q accessor w).cursor := by
    refine ⟨nofun,fun i hi => hmatched i ?_⟩
    have hin := (mem_matched.mp hi).2
    rwa [hidx,Option.getD_some] at hin
  have hnodup : (QueryIter.upcoming w (QueryIter.new q accessor w)).Nodup :=
    nodup_upcoming_new hidx (hexact.sorted.imp Nat.ne_of_lt)
  have hrow : ∀ l∈QueryIter.upcoming w (QueryIter.new q accessor w),(World.row w l).isSome=true :=
    fun l hl => (mem_upcoming.mp hl).2
  let items := itemsAt q w accessor.ticks (QueryIter.upcoming w (QueryIter.new q accessor w))
  have hlocs : items.map QueryItem.loc=(QueryIter.upcoming w (QueryIter.new q accessor w)).filter
      (acceptsAt q w accessor.ticks) := itemsAt_loc _
  refine ⟨items,items.map fun item => World.entityAt w item.loc,
    queryIter_exhausts (resolved_new q accessor w) hcursor,?_,?_,fun e => ?_⟩
  · rw [List.forall₂_map_right_iff,List.forall₂_same]
    intro item hitem
    obtain ⟨l,hl,hi⟩ := List.mem_filterMap.mp hitem
    exact itemAt_standsFor h hi (hrow l hl)
  · have hmap : items.map (fun item => World.entityAt w item.loc)=
        (items.map QueryItem.loc).map (World.entityAt w) := by
      rw [List.map_map]
      rfl
    rw [hmap,hlocs]
    refine List.Nodup.map_on (fun l hl l' hl' he => ?_) (hnodup.filter _)
    exact entityAt_inj h.consistent (hrow l (List.mem_of_mem_filter hl))
      (hrow l' (List.mem_of_mem_filter hl')) he
  · have hmem : e∈items.map (fun item => World.entityAt w item.loc) ↔
        ∃ l∈QueryIter.upcoming w (QueryIter.new q accessor w),
          acceptsAt q w accessor.ticks l=true ∧ World.entityAt w l=e := by
      rw [show items.map (fun item => World.entityAt w item.loc)=
        (items.map QueryItem.loc).map (World.entityAt w) by rw [List.map_map]; rfl,hlocs,List.mem_map]
      simp only [List.mem_filter,and_assoc]
    rw [hmem]
    constructor
    · intro ⟨l,hl,hacc,he⟩
      obtain ⟨⟨hexcl,hin⟩,hsome⟩ := mem_upcoming.mp hl
      obtain ⟨⟨e',x⟩,hr⟩ := Option.isSome_iff_exists.mp hsome
      rw [entityAt_row hr] at he
      subst he
      rw [hidx,Option.getD_some] at hin
      exact ⟨hexcl,x,h.consistent.contents_of_row hr,
        (selects_iff h.registry hq hr).mpr ⟨(hexact.mem _).mp hin,hacc⟩⟩
    · intro ⟨hexcl,x,hx,hsel⟩
      obtain ⟨l,hr⟩ := row_of_contents h.consistent hx
      obtain ⟨hspec,hacc⟩ := (selects_iff h.registry hq hr).mp hsel
      refine ⟨l,mem_upcoming.mpr ⟨⟨hexcl,?_⟩,by rw [hr]; rfl⟩,hacc,entityAt_row hr⟩
      rw [hidx,Option.getD_some]
      exact (hexact.mem _).mpr hspec

end Walked

section Creating

variable {w : World V} {q : QueryShape Component}

/-- A shape whose scope is accepted is never refused. -/
theorem prepare_accepted (hq : ∃ scope,(q.accessScope w.componentCounter).1=.ok scope) :
    wp (prepareQuerySrcAccess q) (fun _ _ => True) (fun e _ => e≠.err .queryAccessScopeConflict) w := by
  obtain ⟨scope,hscope⟩ := hq
  have hcomponents : onComponents q.accessScope w=
      (.ok scope,{ w with componentCounter := (q.accessScope w.componentCounter).2 }) := by
    unfold onComponents
    cases hr : q.accessScope w.componentCounter with
    | mk r specs =>
      rw [hr] at hscope
      dsimp only at hscope
      rw [hscope]
  have hindex : wp (queryIndex q w.globalArchetypeVersion.val) (fun _ _ => True)
      (fun e _ => e≠.err .queryAccessScopeConflict) w := by
    unfold queryIndex
    rw [wp_bind,wp_getState]
    cases w.queryCounter.indexOf q.shape with
    | some idx => trivial
    | none =>
      unfold registerQuery wp
      dsimp only
      rw [bind_ok hcomponents]
      trivial
  unfold prepareQuerySrcAccess
  rw [wp_bind,wp_getState,wp_bind]
  refine wp_mono hindex (fun idx w₁ _ => ?_) fun _ _ he => he
  rw [wp_bind,wp_getState]
  cases w₁.queryCounter.valueAt idx with
  | none => exact nofun
  | some spec =>
    dsimp only
    unfold onlyIf
    split <;> trivial

/-- `create_query_since` hands out a current query of every accepted shape. -/
theorem createQuerySince_accepted (h : CoreInv w) (lastRunTick : ChangedTick)
    (hq : ∃ scope,(q.accessScope w.componentCounter).1=.ok scope) : ∃ accessor w',
      createQuerySince q lastRunTick w=(.ok accessor,w') ∧
      querySrcAccess q lastRunTick w'=some accessor := by
  let w₁ : World V := { w with tick := w.tick+1 }
  have h₁ : CoreInv w₁ := ⟨RegistryInv.congr h.registry rfl,h.queries.congr rfl rfl rfl⟩
  have hprep := wp_and (prepareQuerySrcAccess_spec h₁.registry h₁.queries False.elim)
    (@prepare_accepted _ w₁ _ hq)
  cases hr : prepareQuerySrcAccess q w₁ with
  | mk r w' => cases r with
    | error e =>
      obtain ⟨⟨-,he⟩,hne⟩ := wp_of_error hprep hr
      exact absurd he hne
    | ok idx =>
      obtain ⟨⟨-,hi,spec,hv,hver⟩,-⟩ := wp_of_ok hprep hr
      have hacc : querySrcAccess q lastRunTick w'=some ⟨idx,⟨lastRunTick,w'.tick⟩⟩ :=
        querySrcAccess_some.mpr ⟨idx,spec,hi,hv,hver,rfl⟩
      refine ⟨_,w',?_,hacc⟩
      have hadvance : WorldCalls.advanceTick w=(.ok w₁.tick,w₁) := rfl
      have hget : getOrCreateQuerySrcAccess q lastRunTick w₁=(.ok ⟨idx,⟨lastRunTick,w'.tick⟩⟩,w') := by
        unfold getOrCreateQuerySrcAccess
        rw [bind_ok hr,getState_bind,hacc]
        rfl
      unfold createQuerySince
      rw [bind_ok hadvance,raiseAs,mapFault,hget]

end Creating

section Runs

section Stale

variable {w : World V} {q : QueryShape Component} {accessor : QuerySpecAccessor}

/-- Where a query reads exactly what it selects, some slot points to every row that
passes. -/
theorem ReadsExactly.located (h : ReadsExactly q accessor w)
    (hcursor : ∀ i∈matched q accessor w,∃ a,enterArch q w i=.ok a) {l : RowLoc}
    (hl : l∈QueryIter.upcoming w (QueryIter.new q accessor w))
    (hacc : acceptsAt q w accessor.ticks l=true) : ∃ slot∈w.entityAllocator.entities,slot.loc=l := by
  obtain ⟨items,es,hwalk,hstands,-,-⟩ := h
  have hcursor' : CursorOk q w (QueryIter.new q accessor w).cursor := ⟨nofun,hcursor⟩
  have hitems := hwalk.unique (queryIter_exhausts (resolved_new q accessor w) hcursor')
  have hmem : l∈items.map QueryItem.loc := by
    rw [hitems]
    change l∈(itemsAt q w accessor.ticks _).map QueryItem.loc
    rw [itemsAt_loc,List.mem_filter]
    exact ⟨hl,hacc⟩
  obtain ⟨item,hitem,rfl⟩ := List.mem_map.mp hmem
  obtain ⟨k,hk,hget⟩ := List.mem_iff_getElem.mp hitem
  have hlen := hstands.length_eq
  have hat := hstands.get hk (hlen ▸ hk)
  rw [List.get_eq_getElem,hget] at hat
  obtain ⟨hloc,-⟩ := hat
  unfold EntityAllocator.locate at hloc
  cases hs : w.entityAllocator.entities[(es.get ⟨k,hlen ▸ hk⟩).idx]? with
  | none =>
    rw [hs] at hloc
    cases hloc
  | some slot =>
    rw [hs] at hloc
    dsimp only at hloc
    split at hloc
    · exact ⟨slot,List.mem_of_getElem? hs,Option.some.inj hloc⟩
    · cases hloc

end Stale

variable [Inhabited V]

/-- In every world a proper run reaches, a current query reads exactly the live
entities it selects, an accepted shape is handed out as a current query, and a
layout resolves a shape to the bytes that hold what it shows. -/
theorem queries_exact (runtime : Runtime) (as : List (Action V))
    (ha : Along Action.step (Proper True) as (World.new runtime)) (q : QueryShape Component)
    (hq : WellTyped q) (lastRunTick : ChangedTick) :
    let w := runAll Action.step as (World.new runtime)
    (∀ accessor,querySrcAccess q lastRunTick w=some accessor → ReadsExactly q accessor w) ∧
    ((∃ scope,(q.accessScope w.componentCounter).1=.ok scope) → ∃ accessor w',
      createQuerySince q lastRunTick w=(.ok accessor,w') ∧ ReadsExactly q accessor w') ∧
    ∀ i (spec : ArchetypeSpec V) state,w.archetypes.valueAt i=some spec →
      QueryShape.archState spec.layout q=.ok state → BytesAgree spec.layout state := by
  intro w
  have hinv : RunInv True w := runInv_run (runInv_new True runtime) ha
  refine ⟨fun accessor hacc => reads_exactly hinv.inv.store (coreInv_run runtime as) hq hacc,
    fun hscope => ?_,fun i spec state _ hs => bytes_agree q hs⟩
  obtain ⟨accessor,w',hcreate,hacc⟩ := createQuerySince_accepted (coreInv_run runtime as) lastRunTick hscope
  refine ⟨accessor,w',hcreate,?_⟩
  have hstep : (Action.createQuerySince q lastRunTick).step w=w' := by
    unfold Action.step
    change (ignoring (createQuerySince q lastRunTick) w).2=w'
    unfold ignoring
    rw [bind_ok hcreate]
    rfl
  have hinv' : RunInv True w' :=
    hstep ▸ Action.runInv (.createQuerySince q lastRunTick) hinv (fun _ => hq.declared) trivial
  have hcore' : CoreInv w' := by
    have hrun := coreInv_run runtime (as++[.createQuerySince q lastRunTick])
    rw [runAll_append] at hrun
    exact hstep ▸ hrun
  exact reads_exactly hinv'.inv.store hcore' hq hacc

/-- A world of one entity, and a query of its handle and its component. -/
theorem queries_exact_created : ∃ accessor w',
    createQuerySince (.tuple [.entity,.column (.ref (plain 0))]) 0
      (runAll Action.step [.world .returning (.create (.single (plain 0) 1))] (World.new inOrder : World ℕ))=
        (.ok accessor,w') ∧
      ReadsExactly (.tuple [.entity,.column (.ref (plain 0))]) accessor w' := by
  have hproper : Along Action.step (Proper True) [.world .returning (.create (.single (plain 0) 1))]
      (World.new inOrder : World ℕ) := by
    refine ⟨⟨fun _ T hT => ?_,trivial⟩,trivial⟩
    cases hT
    rfl
  have htyped : WellTyped (.tuple [.entity,.column (.ref (plain 0))]) := by
    refine ⟨fun c hc => ?_,rfl⟩
    cases List.mem_singleton.mp hc
    rfl
  exact (queries_exact inOrder _ hproper _ htyped 0).2.1 ⟨_,rfl⟩

/-- Two systems destroyed one entity, so its slot was handed out twice. The row of
the first of the two is left without a slot, and a query hands it out. -/
def rowWithoutSlot : World ℕ :=
  runAll Action.step (twiceDestroyed++[.world .returning (.create (.single (plain 0) 3)),
    .prepareQuery (.column (.ref (plain 0)))]) (World.new inOrder)

set_option maxRecDepth 20000 in
/-- The row of an entity without a slot is handed out. -/
theorem not_queries_exact : ¬∀ (as : List (Action ℕ)) (q : QueryShape Component),WellTyped q →
    ∀ accessor,querySrcAccess q 0 (runAll Action.step as (World.new inOrder))=some accessor →
      ReadsExactly q accessor (runAll Action.step as (World.new inOrder)) := by
  intro h
  have htyped : WellTyped (.column (.ref (plain 0))) := by
    refine ⟨fun c hc => ?_,rfl⟩
    cases List.mem_singleton.mp hc
    rfl
  have hread : ReadsExactly (.column (.ref (plain 0))) ⟨0,⟨0,1⟩⟩ rowWithoutSlot :=
    h _ _ htyped _ (by decide +kernel)
  have hmatched : matched (.column (.ref (plain 0))) ⟨0,⟨0,1⟩⟩ rowWithoutSlot=[0] := by decide +kernel
  have henter : (enterArch (.column (.ref (plain 0))) rowWithoutSlot 0).toOption.isSome=true := by
    decide +kernel
  have hresolved : ∀ i∈matched (.column (.ref (plain 0))) ⟨0,⟨0,1⟩⟩ rowWithoutSlot,
      ∃ a,enterArch (.column (.ref (plain 0))) rowWithoutSlot i=.ok a := by
    intro i hi
    rw [hmatched,List.mem_singleton] at hi
    subst hi
    cases he : enterArch (.column (.ref (plain 0))) rowWithoutSlot 0 with
    | ok a => exact ⟨a,rfl⟩
    | error e =>
      rw [he] at henter
      cases henter
  obtain ⟨slot,hslot,hloc⟩ := hread.located (l:=⟨0,⟨0,0⟩⟩) hresolved (by decide +kernel) (by decide +kernel)
  have hnone : ∀ slot∈rowWithoutSlot.entityAllocator.entities,slot.loc≠⟨0,⟨0,0⟩⟩ := by decide +kernel
  exact hnone slot hslot hloc

end Runs

end XynokEcs.QueryReadings
