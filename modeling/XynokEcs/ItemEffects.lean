import XynokEcs.BatchWalks
import XynokEcs.BuiltLayouts
import XynokEcs.ByteMigration

/-!
# What a walk writes

The items a walk hands out may be written in any order, during the walk and
after it. Each write goes to one column of the row of its item, so that a row
ends up as the writes through its own item left it, and nothing else moves.
-/

namespace XynokEcs.ItemEffects

open ComponentTypes EntityHandle SequenceValueMap FaultingState ChunkRows RowWrites ArchetypeStore
  ChunkLayouts QueryShapes EntityAllocation WorldState WorldCalls RegistryInvariants StoreInvariants
  StoreSteps QueryAccess QuerySources ItemWrites ActionRuns WorldRuns ActionEffects WorldGrowth
  QueryMatches QueryWalks BatchWalks BuiltLayouts

variable {V : Type}

section Uses

/-- Is the item of a mutable column a `Mut`? Any other is the plain reference. -/
def ItemColumn.tracks (c : ItemColumn) : Bool := c.state.component.mutPolicy=.trackChanges

/-- What an item column lets a system do. -/
def ItemColumn.offers (c : ItemColumn) : ItemWrite V → Bool
  | .assign _ => c.state.mutable && ItemColumn.tracks c
  | .bypass _ => c.state.mutable
  | .markChanged => c.state.mutable && ItemColumn.tracks c
  | .setEnabled _ => c.state.mutable && c.enableOffset.isSome

/-- A write through the item of a row. -/
structure Use (V : Type) where
  /-- The row of the item. -/
  loc : RowLoc
  /-- The column that the item holds. -/
  column : ItemColumn
  /-- The tick of the query that handed the item out. -/
  tick : ChangedTick
  /-- What is done to the column. -/
  write : ItemWrite V

/-- The component written to. -/
def Use.ty (u : Use V) : StorageType := u.column.state.component.storageType

/-- A stamp that the column has no region for, so that its pointer is null. -/
def Use.dangling (u : Use V) : Bool :=
  u.write.stamps && u.column.state.column.stateOffset.changedOffset.isNone

/-- Write to the row of an item. -/
def Use.perform (u : Use V) : Call V Unit := writeThrough u.loc u.ty u.tick u.write

/-- Only what is held mutably is written to. -/
theorem offers_mutable {c : ItemColumn} {write : ItemWrite V} (h : ItemColumn.offers c write=true) :
    c.state.mutable=true := by
  cases write with
  | assign v => exact (Bool.and_eq_true_iff.mp h).1
  | bypass v => exact h
  | markChanged => exact (Bool.and_eq_true_iff.mp h).1
  | setEnabled b => exact (Bool.and_eq_true_iff.mp h).1

/-- Only a `Mut` stamps. -/
theorem offers_tracks {c : ItemColumn} {write : ItemWrite V} (h : ItemColumn.offers c write=true)
    (hs : write.stamps=true) : ItemColumn.tracks c=true := by
  cases write with
  | assign v => exact (Bool.and_eq_true_iff.mp h).2
  | bypass v => cases hs
  | markChanged => exact (Bool.and_eq_true_iff.mp h).2
  | setEnabled b => cases hs

/-- Only a detail sets the enable bit. -/
theorem offers_enable {c : ItemColumn} {write : ItemWrite V} (h : ItemColumn.offers c write=true)
    (he : write.enables.isSome=true) : c.enableOffset.isSome=true := by
  cases write with
  | assign v => cases he
  | bypass v => cases he
  | markChanged => cases he
  | setEnabled b => exact (Bool.and_eq_true_iff.mp h).2

end Uses

section Pointers

open ByteMemory LayoutRegions ChunkMemory ByteMigration

variable {components : List ComponentDescriptor} {l : ChunkLayout} {c : RawChunk}

/-- `mark_changed`, through the pointer to the start of the changed region. -/
def Use.stampBytes (u : Use (List UInt8)) (m : Memory) : Memory :=
  match u.column.state.column.stateOffset.changedOffset with
  | some o => if u.write.stamps then writeChangedTick m o u.loc.indices.idxInChunk u.tick else m
  | none => m

/-- A store through the reference to the value of the row. -/
def Use.storeBytes (u : Use (List UInt8)) (m : Memory) : Memory :=
  match u.write.stores with
  | some v => fill m (u.column.state.column.offset+u.loc.indices.idxInChunk*u.ty.byteSize) v
  | none => m

/-- `set_enabled`, through the pointer to the start of the enable region. -/
def Use.enableBytes (u : Use (List UInt8)) (m : Memory) : Memory :=
  match u.write.enables,u.column.enableOffset with
  | some value,some o => writeBit m o u.loc.indices.idxInChunk value
  | _,_ => m

/-- A write through the pointers of an item. -/
def Use.writeBytes (u : Use (List UInt8)) (m : Memory) : Memory :=
  u.enableBytes (u.storeBytes (u.stampBytes m))

/-- The bytes behind the pointers of an item are those of the cell of its row:
what is written there, in a chunk of a well-formed layout, is the write to the cell. -/
theorem table_writeBytes (h : LayoutRegions.WellFormed components l) {u : Use (List UInt8)}
    (hcol : l.componentColDescriptors.lookup u.ty=some u.column.state.column)
    (henable : ∀ o,u.column.enableOffset=some o → u.column.state.column.stateOffset.enableOffset=some o)
    (hoffers : u.write.enables.isSome=true → u.column.enableOffset.isSome=true)
    (hrow : u.loc.indices.idxInChunk<l.maxLen)
    (hsize : ∀ v,u.write.stores=some v → v.length=u.ty.byteSize) (hd : u.dangling=false) :
    table l (c.withMem (u.writeBytes c.mem))=
      (table l c).modifyCell u.ty u.loc.indices.idxInChunk (u.write.apply u.tick) := by
  have hstamp : ∀ c : RawChunk,table l (c.withMem (u.stampBytes c.mem))=
      (table l c).modifyCell u.ty u.loc.indices.idxInChunk fun cell =>
        { cell with changed := if u.write.stamps then u.tick else cell.changed } := by
    intro c
    unfold Use.stampBytes
    cases ho : u.column.state.column.stateOffset.changedOffset with
    | none =>
      have hs : u.write.stamps=false := by
        unfold Use.dangling at hd
        rw [ho] at hd
        simpa using hd
      rw [hs]
      exact (modifyCell_self _ _ _).symm
    | some o =>
      cases hs : u.write.stamps with
      | false => exact (modifyCell_self _ _ _).symm
      | true => exact table_write h ((regionStart_changed hcol).trans ho) hrow _
  have hstore : ∀ c : RawChunk,table l (c.withMem (u.storeBytes c.mem))=
      (table l c).modifyCell u.ty u.loc.indices.idxInChunk fun cell =>
        { cell with value := u.write.stores.getD cell.value } := by
    intro c
    unfold Use.storeBytes
    cases hs : u.write.stores with
    | none => exact (modifyCell_self _ _ _).symm
    | some v => exact table_value h hcol hrow ⟨v,hsize v hs⟩
  have hset : ∀ c : RawChunk,table l (c.withMem (u.enableBytes c.mem))=
      (table l c).modifyCell u.ty u.loc.indices.idxInChunk fun cell =>
        { cell with enable := u.write.enables.getD cell.enable } := by
    intro c
    unfold Use.enableBytes
    cases he : u.write.enables with
    | none => exact (modifyCell_self _ _ _).symm
    | some value =>
      obtain ⟨o,ho⟩ := Option.isSome_iff_exists.mp (hoffers (by rw [he]; rfl))
      rw [ho]
      exact table_write h ((regionStart_enable hcol).trans (henable o ho)) hrow _
  have hall := hset ((c.withMem (u.stampBytes c.mem)).withMem (u.storeBytes (u.stampBytes c.mem)))
  refine hall.trans ?_
  have hmid := hstore (c.withMem (u.stampBytes c.mem))
  rw [mem_withMem] at hmid
  rw [hmid,hstamp,RowWrites.modifyCell_modifyCell,RowWrites.modifyCell_modifyCell]
  congr 1
  funext cell
  cases u.write <;> rfl

end Pointers

section Walks

/-- An iterator of a query that is under way. -/
inductive Walker
  | rows (it : QueryIter)
  | chunks (it : QueryChunks)
  | chunk (it : ChunkIter)
  | batches (it : QueryBatches)
  | batch (it : BatchIter)

/-- What a call of `next` hands out: items, or iterators over their own rows. -/
structure Advance where
  /-- The items handed out. -/
  items : List QueryItem
  /-- The iterator after the call. -/
  walker : Walker
  /-- The iterators handed out. -/
  opened : List Walker

/-- `next`, of any of the iterators. -/
def Walker.next (q : QueryShape Component) (w : World V) : Walker → Except Fault Advance
  | .rows it => (QueryIter.next q w it).map fun r => ⟨r.1.toList,.rows r.2,[]⟩
  | .chunks it => (QueryChunks.next q w it).map fun r =>
    ⟨[],.chunks r.2,r.1.toList.map fun chunk => .chunk chunk.iter⟩
  | .chunk it => .ok ⟨(ChunkIter.next w it).1.toList,.chunk (ChunkIter.next w it).2,[]⟩
  | .batches it => (QueryBatches.next q w it).map fun r =>
    ⟨[],.batches r.2,r.1.toList.map fun batch => .batch batch.iter⟩
  | .batch it => .ok ⟨(BatchIter.next w it).1.toList,.batch (BatchIter.next w it).2,[]⟩

/-- A query being walked, with what it handed out so far and the writes that were made. -/
structure Walk (V : Type) where
  /-- The world that is walked. -/
  world : World V
  /-- The walk that parallel jobs are started from. -/
  par : ParWalker
  /-- The iterators that are open. -/
  walkers : List Walker
  /-- The items handed out so far. -/
  items : List QueryItem
  /-- The writes made so far, in order. -/
  log : List (Use V)

/-- Ask an iterator for more, begin a job of a parallel walk, or write to a
column of an item already handed out. -/
inductive Move (V : Type)
  | next (walker : ℕ)
  | walkChunk (start : RowPos)
  | walkBatch (start : RowPos) (batchAmount : ℕ)
  | use (item column : ℕ) (write : ItemWrite V)

/-- The write that a move makes. -/
def Walk.choose (s : Walk V) (item column : ℕ) (write : ItemWrite V) : Option (Use V) := do
  let i ← s.items[item]?
  let c ← (ArchState.columns i.state)[column]?
  if ItemColumn.offers c write then some ⟨i.loc,c,i.ticks.thisRun,write⟩ else none

/-- The iterator of a piece, in `walk_rows`. -/
def openPiece (q : QueryShape Component) (w : World V) (par : ParWalker) (piece : Piece) : Option Walker :=
  match enterArch q w piece.archId with
  | .error _ => none
  | .ok entered => some (.chunk
    ⟨⟨⟨piece.archId,piece.chunkIdx,entered.2⟩,piece.row,piece.endRow⟩,par.ticks⟩)

/-- Make a move. A walk that panics stays where it was. -/
def Walk.step (q : QueryShape Component) : Move V → Walk V → Walk V
  | .next k,s => match s.walkers[k]? with
    | none => s
    | some x => match x.next q s.world with
      | .error _ => s
      | .ok a => { s with walkers := s.walkers.set k a.walker++a.opened, items := s.items++a.items }
  | .walkChunk start,s => match s.par.chunkOf s.world start with
    | .error _ => s
    | .ok (archId,len) => { s with
      walkers := s.walkers++([⟨archId,start.chunkIdx,0,len⟩] : List Piece).filterMap (openPiece q s.world s.par) }
  | .walkBatch start batchAmount,s =>
    match s.par.cutBatch s.world (fun piece => .ok [piece]) batchAmount batchAmount start [] with
    | .error _ => s
    | .ok (pieces,_) => { s with walkers := s.walkers++pieces.filterMap (openPiece q s.world s.par) }
  | .use item column write,s => match Walk.choose s item column write with
    | none => s
    | some u => match u.perform s.world with
      | (.ok _,w) => { s with world := w, log := s.log++[u] }
      | (.error _,w) => { s with world := w }

/-- A query before any of its walks. -/
def Walk.start (q : QueryShape Component) (accessor : QuerySpecAccessor) (batchAmount : ℕ)
    (w : World V) : Walk V where
  world := w
  par := ParWalker.new q accessor w
  walkers := [.rows (QueryIter.new q accessor w),.chunks (QueryChunks.new q accessor w)]++
    match QueryBatches.new q accessor batchAmount w with
    | .ok it => [.batches it]
    | .error _ => []
  items := []
  log := []

end Walks

section Cells

variable {w w' : World V}

/-- An archetype without its cells. -/
def ArchetypeSpec.bare (spec : ArchetypeSpec V) :=
  (spec.name,spec.layout,spec.allowStructureChange,
    spec.arch.chunks.map fun c => (c.len,c.maxLen,c.entities,c.dropped),
    spec.arch.freeChunks,spec.arch.freeChunksStored,spec.arch.isSingleton)

/-- The world without its cells: handles, chunk lengths and everything else. -/
def World.bare (w : World V) :=
  ({ w with archetypes := .empty },w.archetypes.entries.map fun p => (p.1,ArchetypeSpec.bare p.2))

/-- Archetypes of a world agree up to cells, if worlds do. -/
theorem bare_valueAt (h : World.bare w'=World.bare w) (i : ℕ) :
    (w'.archetypes.valueAt i).map ArchetypeSpec.bare=(w.archetypes.valueAt i).map ArchetypeSpec.bare := by
  have he := congrArg (fun l => (l[i]?).map Prod.snd) (congrArg Prod.snd h)
  dsimp only [World.bare] at he
  rw [List.getElem?_map,List.getElem?_map,Option.map_map,Option.map_map] at he
  rw [SequenceValueHashMap.valueAt,SequenceValueHashMap.valueAt,Option.map_map,Option.map_map]
  exact he

/-- Worlds that agree up to cells have the same rows. -/
theorem samePlaces_of_bare (h : World.bare w'=World.bare w) : SamePlaces w w' where
  layouts := fun i => by
    have hb := congrArg (Option.map fun b => b.2.1) (bare_valueAt h i)
    rw [Option.map_map,Option.map_map] at hb
    exact hb
  lens := fun i => by
    have hb := congrArg (Option.map fun b => b.2.2.2.1.map Prod.fst) (bare_valueAt h i)
    rw [Option.map_map,Option.map_map] at hb
    have hmap : ∀ w : World V,(World.chunks w i).map Chunk.len=
        ((w.archetypes.valueAt i).map fun spec => spec.arch.chunks.map Chunk.len).getD [] := by
      intro w
      unfold World.chunks
      cases w.archetypes.valueAt i <;> rfl
    have hspec : ((fun b => b.2.2.2.1.map Prod.fst) ∘ ArchetypeSpec.bare)=
        fun spec : ArchetypeSpec V => spec.arch.chunks.map Chunk.len := by
      funext spec
      dsimp only [Function.comp,ArchetypeSpec.bare]
      rw [List.map_map]
      rfl
    rw [hspec] at hb
    rw [hmap,hmap,hb]

/-- A change of one element that a function does not see. -/
theorem map_modify {α β : Type} {l : List α} {i : ℕ} {x : α} {f : α → β} {g : α → α}
    (hx : l[i]?=some x) (hf : f (g x)=f x) : (l.modify i g).map f=l.map f := by
  apply List.ext_getElem?
  intro j
  rw [List.getElem?_map,List.getElem?_map,List.getElem?_modify]
  by_cases hj : i=j
  · subst hj
    rw [hx]
    simp only [if_true,Option.map_eq_map,Option.map_some,hf]
  · simp only [if_neg hj,Option.map_eq_map,Option.map_id']

/-- A chunk with other cells is the same without them. -/
theorem bare_setArch {i k : ℕ} {spec : ArchetypeSpec V} {c : Chunk V}
    (hv : w.archetypes.valueAt i=some spec) (hc : spec.arch.chunks[k]?=some c)
    (t : StorageType) (row : ℕ) (f : Cell V → Cell V) :
    World.bare (World.setArch w i { spec.arch with
      chunks := spec.arch.chunks.set k (c.modifyCell t row f) })=World.bare w := by
  have hchunks : (spec.arch.chunks.set k (c.modifyCell t row f)).map
      (fun c => (c.len,c.maxLen,c.entities,c.dropped))=
        spec.arch.chunks.map fun c => (c.len,c.maxLen,c.entities,c.dropped) := by
    have hset : spec.arch.chunks.set k (c.modifyCell t row f)=
        spec.arch.chunks.modify k fun _ => c.modifyCell t row f := by
      rw [List.set_eq_modify]
    rw [hset,map_modify hc rfl]
  obtain ⟨p,hp,rfl⟩ := Option.map_eq_some_iff.mp hv
  unfold World.bare World.setArch
  refine Prod.ext rfl ?_
  dsimp only [SequenceValueHashMap.modifyAt]
  refine map_modify hp ?_
  refine Prod.ext rfl ?_
  dsimp only [Prod.map,ArchetypeSpec.bare]
  rw [hchunks]

/-- A write changes one component of one row. -/
theorem row_setCell {spec : ArchetypeSpec V} {c : Chunk V} {place : RowLoc} {ty : StorageType}
    {write : ItemWrite V} (h : Reached w place ty write spec c) (tick : ChangedTick) (l : RowLoc) :
    World.row (World.setCell w place ty spec c (write.apply tick)) l=(World.row w l).map fun p =>
      (p.1,fun t => (p.2 t).map fun x => if place=l ∧ ty=t then write.data tick x else x) := by
  obtain ⟨o,ho,-⟩ := reaches_iff.mp h.reaches
  have hset : World.row (World.setCell w place ty spec c (write.apply tick))=
      Function.update (World.row w) place (some (c.entities place.indices.idxInChunk,
        Function.update (c.rowData spec.layout place.indices.idxInChunk) ty
          (some (write.data tick (readCell o.stateOffset (c.cells ty place.indices.idxInChunk)))))) := by
    rw [←readCell_apply]
    exact row_setArch_update h.archetype (row_set_update h.chunk (row_modifyCell h.row ho _))
  rw [hset,Function.update_apply]
  by_cases hl : l=place
  · subst hl
    have hrow : World.row w l=some (c.entities l.indices.idxInChunk,
        c.rowData spec.layout l.indices.idxInChunk) := row_of_chunk h.archetype h.chunk h.row
    rw [if_pos rfl,hrow,Option.map_some]
    refine congrArg (fun d => some (c.entities l.indices.idxInChunk,d)) (funext fun t => ?_)
    rw [Function.update_apply]
    by_cases ht : t=ty
    · subst ht
      simp only [if_true,Chunk.rowData,ho,Option.map_some,and_self]
    · have hne : ¬ty=t := fun he => ht he.symm
      simp only [if_neg ht,hne,and_false,if_false,Option.map_id']
  · have hne : ¬place=l := fun he => hl he.symm
    simp only [if_neg hl,hne,false_and,if_false,Option.map_id']

end Cells

section Effects

variable {w w' : World V} {q : QueryShape Component} {u : Use V}

/-- The writes that were made to one component of one row. -/
def writesAt (log : List (Use V)) (l : RowLoc) (t : StorageType) : List (ItemWrite V) :=
  (log.filter fun u => u.loc=l ∧ u.ty=t).map Use.write

/-- What writes to one component leave of it. -/
structure Touched (tick : ChangedTick) (writes : List (ItemWrite V)) (x x' : ComponentData V) : Prop where
  /-- The value is the last one stored. -/
  value : x'.value=((writes.filterMap ItemWrite.stores).getLast?).getD x.value
  /-- The row is stamped where a write stamps it. -/
  changed : x'.changed=if writes.any ItemWrite.stamps then some tick else x.changed
  /-- The enable bit is the last one set. -/
  enabled : x'.enabled=x.enabled.map fun b => ((writes.filterMap ItemWrite.enables).getLast?).getD b
  /-- The added tick stays. -/
  added : x'.added=x.added

/-- Without a write nothing is touched. -/
theorem Touched.refl (tick : ChangedTick) (x : ComponentData V) : Touched tick [] x x := by
  refine ⟨rfl,rfl,?_,rfl⟩
  cases x.enabled <;> rfl

/-- What is touched by no write stays. -/
theorem Touched.of_nil {tick : ChangedTick} {x x' : ComponentData V} (h : Touched tick [] x x') : x'=x := by
  have hsame : x.enabled.map (fun b => b)=x.enabled := Option.map_id'
  obtain ⟨value,enabled,added,changed⟩ := x'
  obtain ⟨hv,hc,he,ha⟩ := h
  dsimp only at hv hc he ha
  rw [hv,hc,he,ha]
  congr 1

/-- The last of some choices, with one more. -/
theorem getLast_snoc {α β : Type} (f : α → Option β) (xs : List α) (a : α) (b : β) :
    (((xs++[a]).filterMap f).getLast?).getD b=(f a).getD (((xs.filterMap f).getLast?).getD b) := by
  rw [List.filterMap_append]
  cases ha : f a with
  | none =>
    rw [List.filterMap_cons_none ha,List.filterMap_nil,List.append_nil]
    rfl
  | some x =>
    rw [List.filterMap_cons_some ha,List.filterMap_nil,List.getLast?_append]
    rfl

/-- One more write. -/
theorem Touched.snoc {tick : ChangedTick} {writes : List (ItemWrite V)} {x x' : ComponentData V}
    {write : ItemWrite V} (h : Touched tick writes x x')
    (hs : write.stamps=true → x'.changed.isSome=true) :
    Touched tick (writes++[write]) x (write.data tick x') where
  value := by
    rw [getLast_snoc,←h.value]
    rfl
  changed := by
    rw [List.any_append,List.any_cons,List.any_nil,Bool.or_false]
    dsimp only [ItemWrite.data]
    cases hw : write.stamps with
    | true =>
      obtain ⟨old,hold⟩ := Option.isSome_iff_exists.mp (hs hw)
      rw [hold,Bool.or_true]
      rfl
    | false =>
      rw [Bool.or_false,h.changed]
      simp only [Bool.false_eq_true,if_false,Option.map_id']
  enabled := by
    dsimp only [ItemWrite.data]
    rw [h.enabled,Option.map_map]
    congr 1
    funext b
    exact (getLast_snoc _ _ _ _).symm
  added := h.added

/-- One write more adds to the writes of its own cell. -/
theorem writesAt_snoc (log : List (Use V)) (u : Use V) (l : RowLoc) (t : StorageType) :
    writesAt (log++[u]) l t=writesAt log l t++if u.loc=l ∧ u.ty=t then [u.write] else [] := by
  unfold writesAt
  rw [List.filter_append,List.map_append,List.filter_cons,List.filter_nil]
  by_cases hu : u.loc=l ∧ u.ty=t
  · rw [if_pos hu,if_pos (decide_eq_true hu)]
    rfl
  · rw [if_neg hu,if_neg fun hd => hu (of_decide_eq_true hd)]
    rfl

/-- A row after some writes: the same handle, and each component as the writes
to it leave it. -/
def RowTouched (tick : ChangedTick) (log : List (Use V)) (w w' : World V) (l : RowLoc) : Prop :=
  Option.Rel (fun p p' => p.1=p'.1 ∧ ∀ t,Option.Rel (Touched tick (writesAt log l t)) (p.2 t) (p'.2 t))
    (World.row w l) (World.row w' l)

/-- Without a write no row is touched. -/
theorem RowTouched.refl (tick : ChangedTick) (w : World V) (l : RowLoc) : RowTouched tick [] w w l := by
  unfold RowTouched
  cases World.row w l with
  | none => exact .none
  | some p =>
    refine .some ⟨rfl,fun t => ?_⟩
    cases p.2 t with
    | none => exact .none
    | some x => exact .some (Touched.refl tick x)

/-- Where a shape was resolved, the archetype has what it resolved to. -/
theorem enterArch_state {i : ℕ} {state : ArchState} (h : enterArch q w i=.ok (i,state)) :
    ∃ spec : ArchetypeSpec V,w.archetypes.valueAt i=some spec ∧
      QueryShape.archState spec.layout q=.ok state := by
  unfold enterArch at h
  cases hv : w.archetypes.valueAt i with
  | none =>
    rw [hv] at h
    cases h
  | some spec =>
    rw [hv] at h
    obtain ⟨state',hs,he⟩ := ok_of_bind h
    cases he
    exact ⟨spec,rfl,hs⟩

/-- A write to a column of an item is written to the row of the item. -/
structure Aimed (q : QueryShape Component) (w : World V) (u : Use V) : Prop where
  /-- The column is one of the archetype of the row. -/
  state : ∃ state,enterArch q w u.loc.archId=.ok (u.loc.archId,state) ∧
    u.column∈ArchState.columns state
  /-- The row is in use. -/
  row : (World.row w u.loc).isSome=true

/-- The column of a write is one of the archetype. -/
theorem Aimed.column (h : Aimed q w u) : ∃ spec : ArchetypeSpec V,
    w.archetypes.valueAt u.loc.archId=some spec ∧
      ColumnOf spec.layout (QueryShape.accesses q) u.column := by
  obtain ⟨state,he,hc⟩ := h.state
  obtain ⟨spec,hv,hs⟩ := enterArch_state he
  exact ⟨spec,hv,archState_columns q hs _ hc⟩

/-- A write that does not dangle reaches its cell. -/
theorem Aimed.reached (h : Aimed q w u) (hd : u.dangling=false) :
    ∃ spec c,Reached w u.loc u.ty u.write spec c := by
  obtain ⟨spec,hv,hcol⟩ := h.column
  obtain ⟨p,hp⟩ := Option.isSome_iff_exists.mp h.row
  obtain ⟨spec',c,hv',hc,hlt,-,-⟩ := row_eq_some hp
  rw [hv] at hv'
  cases hv'
  refine ⟨spec,c,hv,hc,hlt,reaches_iff.mpr ⟨u.column.state.column,hcol.column,fun hs => ?_⟩⟩
  unfold Use.dangling at hd
  rw [hs,Bool.true_and,Option.isNone_eq_false_iff] at hd
  exact hd

/-- A stamp that reaches its cell finds a tick to replace. -/
theorem reached_changed {spec : ArchetypeSpec V} {c : Chunk V} {l : RowLoc} {t : StorageType}
    {write : ItemWrite V} (h : Reached w l t write spec c) (hs : write.stamps=true) {e : Entity}
    {data : RowData V} {x : ComponentData V} (hr : World.row w l=some (e,data)) (hx : data t=some x) :
    x.changed.isSome=true := by
  obtain ⟨o,ho,hregion⟩ := reaches_iff.mp h.reaches
  cases hr.symm.trans (row_of_chunk h.archetype h.chunk h.row)
  rw [Chunk.rowData,ho] at hx
  cases hx
  unfold readCell
  dsimp only
  rw [if_pos (hregion hs)]
  rfl

/-- Related optional values stay related when one is mapped. -/
theorem rel_map {α β γ : Type} {R : α → β → Prop} {S : α → γ → Prop} {a : Option α} {b : Option β}
    {f : β → γ} (h : Option.Rel R a b) (hf : ∀ x y,b=some y → R x y → S x (f y)) :
    Option.Rel S a (b.map f) := by
  cases h with
  | none => exact .none
  | some hxy => exact .some (hf _ _ rfl hxy)

/-- A map that respects a relation gives equal results. -/
theorem rel_map_eq {α β : Type} {R : α → α → Prop} {a b : Option α} {f : α → β} (h : Option.Rel R a b)
    (hf : ∀ x y,R x y → f y=f x) : b.map f=a.map f := by
  cases h with
  | none => rfl
  | some hxy => exact congrArg some (hf _ _ hxy)

/-- One more write, seen from every row. -/
theorem RowTouched.snoc {tick : ChangedTick} {log : List (Use V)} {l : RowLoc}
    (h : RowTouched tick log w w' l) {spec : ArchetypeSpec V} {c : Chunk V}
    (hr : Reached w' u.loc u.ty u.write spec c) :
    RowTouched tick (log++[u]) w (World.setCell w' u.loc u.ty spec c (u.write.apply tick)) l := by
  unfold RowTouched at h ⊢
  rw [row_setCell hr tick l]
  refine rel_map h fun p p' hrow hp => ⟨hp.1,fun t => rel_map (hp.2 t) fun x x' hx' hxx => ?_⟩
  rw [writesAt_snoc]
  by_cases hu : u.loc=l ∧ u.ty=t
  · rw [if_pos hu,if_pos hu]
    obtain ⟨rfl,rfl⟩ := hu
    exact hxx.snoc fun hs => reached_changed hr hs hrow hx'
  · rw [if_neg hu,if_neg hu,List.append_nil]
    exact hxx

end Effects

section Handing

variable {w w' : World V} {q : QueryShape Component} {ticks : QueryTicks}

/-- The archetype a cursor is in was resolved. -/
def ArchOk (q : QueryShape Component) (w : World V) (arch : Option (ℕ×ArchState)) : Prop :=
  ∀ a,arch=some a → enterArch q w a.1=.ok a

/-- A range of rows in use, of an archetype that was resolved. -/
structure RangeIn (q : QueryShape Component) (w : World V) (range : RowRange) : Prop where
  /-- The archetype has what the query needs. -/
  ok : RangeOk q w range
  /-- The range ends within the chunk. -/
  within : range.endRow ≤ World.chunkLen w range.fetch.archId range.fetch.chunkIdx

/-- An iterator that hands out rows in use only. -/
def Walker.Ok (q : QueryShape Component) (w : World V) (ticks : QueryTicks) : Walker → Prop
  | .rows it => QueryIter.Resolved q w it ∧ it.ticks=ticks ∧
    ∀ l∈QueryIter.upcoming w it,(World.row w l).isSome=true
  | .chunks it => ArchOk q w it.cursor.arch ∧ it.ticks=ticks
  | .chunk it => RangeIn q w it.range ∧ it.ticks=ticks
  | .batches it => ArchOk q w it.cursor.arch ∧ (∀ range,it.leftover=some range → RangeIn q w range) ∧
    it.ticks=ticks
  | .batch it => (∀ range∈it.ranges,RangeIn q w range) ∧
    (∀ rows,it.rows=some rows → RangeIn q w rows.range ∧ rows.ticks=ticks) ∧ it.ticks=ticks

/-- An item of a row in use. -/
structure ItemOk (q : QueryShape Component) (w : World V) (ticks : QueryTicks) (item : QueryItem) :
    Prop where
  /-- The pointers of the item are those of its archetype. -/
  state : enterArch q w item.loc.archId=.ok (item.loc.archId,item.state)
  /-- The row is in use. -/
  row : (World.row w item.loc).isSome=true
  /-- The item carries the ticks of the walk. -/
  ticks : item.ticks=ticks

/-- The next chunk is of an archetype that was resolved. -/
theorem nextChunk_in {archIndices : List ℕ} {arch : Option (ℕ×ArchState)} {chunkIdx : ℕ}
    {found : Option Fetch} {cursor : ChunkCursor} (h : ArchOk q w arch)
    (hn : ChunkCursor.nextChunk q w archIndices arch chunkIdx=.ok (found,cursor)) :
    ArchOk q w cursor.arch ∧ ∀ fetch,found=some fetch → RangeIn q w (Fetch.whole w fetch) := by
  have harch : ArchOk q w cursor.arch := by
    intro a ha
    cases nextChunk_arch hn with
    | inl heq => exact h a (heq ▸ ha)
    | inr hr =>
      obtain ⟨b,hb,he⟩ := hr
      cases ha.symm.trans hb
      exact he
  refine ⟨harch,fun fetch hf => ?_⟩
  subst hf
  exact ⟨harch _ (nextChunk_spec hn).1,Nat.le_refl _⟩

/-- The items of a range are of rows in use, and the range stays one. -/
theorem chunkIter_in {it : ChunkIter} (h : RangeIn q w it.range) (ht : it.ticks=ticks) :
    (∀ item,(ChunkIter.next w it).1=some item → ItemOk q w ticks item) ∧
      RangeIn q w (ChunkIter.next w it).2.range ∧ (ChunkIter.next w it).2.ticks=ticks := by
  unfold ChunkIter.next
  cases hk : (List.range' it.range.start (it.range.endRow-it.range.start)).find?
      (Fetch.accepts w it.ticks it.range.fetch) with
  | none => exact ⟨nofun,⟨h.ok,h.within⟩,ht⟩
  | some row =>
    obtain ⟨-,-,hle,hlt,-⟩ := find?_range' hk
    have hwithin := h.within
    refine ⟨fun item hi => ?_,⟨h.ok,h.within⟩,ht⟩
    cases hi
    refine ⟨h.ok,(row_isSome _).mpr ?_,ht⟩
    unfold RowRange.item
    dsimp only
    omega

/-- A batch hands out items of rows in use. -/
theorem batchIter_in (ranges : List RowRange) (rows : Option ChunkIter)
    (hranges : ∀ range∈ranges,RangeIn q w range)
    (hrows : ∀ it,rows=some it → RangeIn q w it.range ∧ it.ticks=ticks) :
    (∀ item,(BatchIter.nextFrom w ticks ranges rows).1=some item → ItemOk q w ticks item) ∧
      Walker.Ok q w ticks (.batch (BatchIter.nextFrom w ticks ranges rows).2) := by
  induction ranges generalizing rows with
  | nil =>
    cases rows with
    | none =>
      rw [BatchIter.nextFrom]
      refine ⟨fun i hi => ?_,fun r hr => ?_,fun it hi => ?_,rfl⟩
      · cases hi
      · cases hr
      · cases hi
    | some it =>
      obtain ⟨hr,ht⟩ := hrows it rfl
      obtain ⟨hitem,hr',ht'⟩ := chunkIter_in hr ht
      rw [BatchIter.nextFrom]
      refine ⟨hitem,fun r hr => (by cases hr),fun it' he => ?_,rfl⟩
      cases he
      exact ⟨hr',ht'⟩
  | cons range rest ih =>
    have hrest : ∀ range∈rest,RangeIn q w range := fun r hr => hranges r (List.mem_cons_of_mem _ hr)
    have hnext : ∀ it,some (⟨range,ticks⟩ : ChunkIter)=some it → RangeIn q w it.range ∧ it.ticks=ticks := by
      intro it he
      cases he
      exact ⟨hranges range List.mem_cons_self,rfl⟩
    cases rows with
    | none =>
      rw [BatchIter.nextFrom]
      exact ih _ hrest hnext
    | some it =>
      obtain ⟨hr,ht⟩ := hrows it rfl
      obtain ⟨hitem,hr',ht'⟩ := chunkIter_in hr ht
      rw [BatchIter.nextFrom]
      cases hn : ChunkIter.next w it with
      | mk found it' =>
        rw [hn] at hitem hr' ht'
        cases found with
        | none => exact ih _ hrest hnext
        | some item =>
          refine ⟨fun i hi => hitem i hi,hranges,fun it'' he => ?_,rfl⟩
          cases he
          exact ⟨hr',ht'⟩

/-- The next range lies in rows in use. -/
theorem nextRange_in {cursor cursor' : ChunkCursor} {leftover found : Option RowRange}
    (h : ArchOk q w cursor.arch) (hl : ∀ range,leftover=some range → RangeIn q w range)
    (hn : nextRange q w cursor leftover=.ok (found,cursor')) :
    ArchOk q w cursor'.arch ∧ ∀ range,found=some range → RangeIn q w range := by
  unfold nextRange at hn
  cases leftover with
  | some range =>
    cases hn
    exact ⟨h,hl⟩
  | none =>
    cases hc : ChunkCursor.nextChunk q w cursor.archIndices cursor.arch cursor.chunkIdx with
    | error e =>
      rw [hc] at hn
      cases hn
    | ok r =>
      obtain ⟨found',cursor''⟩ := r
      obtain ⟨harch,hfetch⟩ := nextChunk_in h hc
      rw [hc] at hn
      cases found' with
      | none =>
        cases hn
        exact ⟨harch,nofun⟩
      | some fetch =>
        cases hn
        refine ⟨harch,fun range hr => ?_⟩
        cases hr
        exact hfetch fetch rfl

/-- A cut does not go past the end. -/
theorem splitRow_le {start endRow room : ℕ} : splitRow start endRow room ≤ endRow := by
  by_cases h : endRow ≤ start+room
  · rw [splitRow_fits h]
  · have hdiv := Nat.div_mul_le_self (start+room) minBatchAmount
    rw [splitRow_cuts h]
    omega

/-- The ranges of a batch are of rows in use. -/
theorem fill_in {passes room : ℕ} {cursor : ChunkCursor} {leftover : Option RowRange}
    {ranges : List RowRange} {filled : Filled} (h : ArchOk q w cursor.arch)
    (hl : ∀ range,leftover=some range → RangeIn q w range) (hr : ∀ range∈ranges,RangeIn q w range)
    (hf : fill q w passes room cursor leftover ranges=.ok filled) :
    ArchOk q w filled.cursor.arch ∧ (∀ range,filled.leftover=some range → RangeIn q w range) ∧
      ∀ range∈filled.ranges,RangeIn q w range := by
  induction passes generalizing room cursor leftover ranges with
  | zero =>
    cases hf
    exact ⟨h,hl,hr⟩
  | succ passes ih =>
    rw [fill] at hf
    by_cases h0 : room=0
    · rw [if_pos h0] at hf
      cases hf
      exact ⟨h,hl,hr⟩
    · rw [if_neg h0] at hf
      cases hn : nextRange q w cursor leftover with
      | error e =>
        rw [hn] at hf
        cases hf
      | ok r =>
        obtain ⟨found,cursor'⟩ := r
        obtain ⟨harch,hfound⟩ := nextRange_in h hl hn
        rw [hn] at hf
        cases found with
        | none =>
          cases hf
          exact ⟨harch,fun r hr => (by cases hr),hr⟩
        | some range =>
          have hrange := hfound range rfl
          dsimp only at hf
          by_cases hsplit : splitRow range.start range.endRow room=range.start
          · rw [if_pos hsplit] at hf
            cases hf
            exact ⟨harch,hfound,hr⟩
          · rw [if_neg hsplit] at hf
            have hcut : RangeIn q w { range with endRow := splitRow range.start range.endRow room } :=
              ⟨hrange.ok,splitRow_le.trans hrange.within⟩
            refine ih harch (fun left he => ?_) (forall_snoc hr hcut) hf
            split at he
            · cases he
              exact ⟨hrange.ok,hrange.within⟩
            · cases he

/-- What an iterator hands out is of rows in use. -/
theorem next_in {x : Walker} {a : Advance} (h : Walker.Ok q w ticks x) (hn : x.next q w=.ok a) :
    (∀ item∈a.items,ItemOk q w ticks item) ∧ Walker.Ok q w ticks a.walker ∧
      ∀ y∈a.opened,Walker.Ok q w ticks y := by
  cases x with
  | rows it =>
    obtain ⟨hres,ht,hlive⟩ := h
    have hspec := next_spec hres
    cases hr : QueryIter.next q w it with
    | error e =>
      rw [Walker.next,hr] at hn
      cases hn
    | ok r =>
      obtain ⟨found,it'⟩ := r
      rw [Walker.next,hr] at hn
      rw [hr] at hspec
      cases hn
      cases found with
      | none =>
        obtain ⟨-,hleft,hres',ht'⟩ := hspec
        refine ⟨nofun,⟨hres',ht'.trans ht,fun l hl => ?_⟩,nofun⟩
        rw [hleft] at hl
        cases hl
      | some item =>
        obtain ⟨hyields,hres',ht'⟩ := hspec
        obtain ⟨skipped,happ,-⟩ := hyields.passed
        rw [happ] at hlive
        refine ⟨fun i hi => ?_,⟨hres',ht'.trans ht,fun l hl => hlive l ?_⟩,nofun⟩
        · cases List.mem_singleton.mp hi
          exact ⟨hyields.state,hlive _ (List.mem_append_right _ List.mem_cons_self),hyields.ticks.trans ht⟩
        · exact List.mem_append_right _ (List.mem_cons_of_mem _ hl)
  | chunks it =>
    obtain ⟨harch,ht⟩ := h
    rw [Walker.next,QueryChunks.next] at hn
    cases hc : ChunkCursor.nextChunk q w it.cursor.archIndices it.cursor.arch it.cursor.chunkIdx with
    | error e =>
      rw [hc] at hn
      cases hn
    | ok r =>
      obtain ⟨found,cursor⟩ := r
      obtain ⟨harch',hfetch⟩ := nextChunk_in harch hc
      rw [hc] at hn
      cases found with
      | none =>
        cases hn
        exact ⟨nofun,⟨harch',ht⟩,nofun⟩
      | some fetch =>
        cases hn
        refine ⟨nofun,⟨harch',ht⟩,fun y hy => ?_⟩
        cases List.mem_singleton.mp hy
        exact ⟨hfetch fetch rfl,ht⟩
  | chunk it =>
    obtain ⟨hrange,ht⟩ := h
    obtain ⟨hitem,hrange',ht'⟩ := chunkIter_in hrange ht
    cases hn
    exact ⟨fun i hi => hitem i (Option.mem_toList.mp hi),⟨hrange',ht'⟩,nofun⟩
  | batches it =>
    obtain ⟨harch,hleft,ht⟩ := h
    rw [Walker.next,QueryBatches.next] at hn
    cases hf : fill q w it.batchAmount it.batchAmount it.cursor it.leftover [] with
    | error e =>
      rw [hf] at hn
      cases hn
    | ok filled =>
      have hnone : ∀ range∈([] : List RowRange),RangeIn q w range := fun range hr => nomatch hr
      obtain ⟨harch',hleft',hranges⟩ := fill_in harch hleft hnone hf
      rw [hf] at hn
      cases hn
      refine ⟨nofun,⟨harch',hleft',ht⟩,fun y hy => ?_⟩
      obtain ⟨batch,hb,rfl⟩ := List.mem_map.mp hy
      dsimp only at hb
      split at hb
      · cases hb
      · cases List.mem_singleton.mp hb
        exact ⟨hranges,nofun,ht⟩
  | batch it =>
    obtain ⟨hranges,hrows,rfl⟩ := h
    obtain ⟨hitem,hok⟩ := batchIter_in it.ranges it.rows hranges hrows
    cases hn
    exact ⟨fun i hi => hitem i (Option.mem_toList.mp hi),hok,nofun⟩

/-- A piece of rows in use. -/
def PieceIn (w : World V) (piece : Piece) : Prop :=
  piece.endRow ≤ World.chunkLen w piece.archId piece.chunkIdx

/-- An iterator opened on rows in use stays in them. -/
theorem openPiece_in {par : ParWalker} {piece : Piece} {x : Walker} (hp : PieceIn w piece)
    (ho : openPiece q w par piece=some x) : Walker.Ok q w par.ticks x := by
  unfold openPiece at ho
  cases he : enterArch q w piece.archId with
  | error e =>
    rw [he] at ho
    cases ho
  | ok a =>
    have hi : a.1=piece.archId := enterArch_fst he
    rw [he] at ho
    cases ho
    refine ⟨⟨?_,hp⟩,rfl⟩
    unfold RangeOk
    dsimp only
    rw [he,←hi]

/-- A start knows how long its chunk is. -/
theorem chunkOf_in {par : ParWalker} {pos : RowPos} {archId len : ℕ}
    (h : par.chunkOf w pos=.ok (archId,len)) : len=World.chunkLen w archId pos.chunkIdx := by
  obtain ⟨i,-,h⟩ := ok_of_bind h
  obtain ⟨n,hn,h⟩ := ok_of_bind h
  cases h
  unfold lenAt at hn
  unfold World.chunkLen
  cases hc : (World.chunks w archId)[pos.chunkIdx]? with
  | none =>
    rw [hc] at hn
    cases hn
  | some chunk =>
    rw [hc] at hn
    cases hn
    rfl

/-- The pieces of a job are of rows in use, wherever it starts. -/
theorem cutBatch_in {par : ParWalker} {passes room : ℕ} {pos : RowPos} {visited pieces : List Piece}
    {next : Option RowPos} (hv : ∀ piece∈visited,PieceIn w piece)
    (h : par.cutBatch w (fun piece => .ok [piece]) passes room pos visited=.ok (pieces,next)) :
    ∀ piece∈pieces,PieceIn w piece := by
  induction passes generalizing room pos visited with
  | zero =>
    cases h
    exact hv
  | succ passes ih =>
    rw [ParWalker.cutBatch] at h
    by_cases h0 : room=0
    · rw [if_pos h0] at h
      cases h
      exact hv
    · rw [if_neg h0] at h
      cases hc : par.chunkOf w pos with
      | error e =>
        rw [hc] at h
        cases h
      | ok r =>
        obtain ⟨archId,len⟩ := r
        have hlen := chunkOf_in hc
        rw [hc] at h
        dsimp only at h
        by_cases hsplit : splitRow pos.row len room=pos.row
        · rw [if_pos hsplit] at h
          cases h
          exact hv
        · rw [if_neg hsplit] at h
          have hpiece : PieceIn w ⟨archId,pos.chunkIdx,pos.row,splitRow pos.row len room⟩ :=
            splitRow_le.trans hlen.le
          by_cases hlt : splitRow pos.row len room<len
          · rw [if_pos hlt] at h
            cases h
            exact forall_snoc hv hpiece
          · rw [if_neg hlt] at h
            cases hn : par.nextNonEmpty w pos.archPos (pos.chunkIdx+1) with
            | error e =>
              rw [hn] at h
              cases h
            | ok found =>
              rw [hn] at h
              cases found with
              | none =>
                cases h
                exact forall_snoc hv hpiece
              | some pos' => exact ih (forall_snoc hv hpiece) h

/-- A range stays in rows in use while only cells are written. -/
theorem SamePlaces.rangeIn (h : SamePlaces w w') {range : RowRange} (hr : RangeIn q w range) : RangeIn q w' range where
  ok := (h.enterArch q _).trans hr.ok
  within := (h.chunkLen _ _).symm ▸ hr.within

/-- A resolved archetype stays resolved. -/
theorem SamePlaces.archOk (h : SamePlaces w w') {arch : Option (ℕ×ArchState)} (ha : ArchOk q w arch) :
    ArchOk q w' arch :=
  fun a he => (h.enterArch q _).trans (ha a he)

/-- A row in use stays in use. -/
theorem SamePlaces.row (h : SamePlaces w w') {l : RowLoc} (hr : (World.row w l).isSome=true) :
    (World.row w' l).isSome=true := by
  rw [row_isSome] at hr ⊢
  rwa [h.chunkLen]

/-- An item stays one of a row in use. -/
theorem SamePlaces.itemOk (h : SamePlaces w w') {item : QueryItem} (hi : ItemOk q w ticks item) :
    ItemOk q w' ticks item :=
  ⟨(h.enterArch q _).trans hi.state,SamePlaces.row h hi.row,hi.ticks⟩

/-- An iterator does not mind that cells change. -/
theorem SamePlaces.walker (h : SamePlaces w w') {x : Walker} (hx : Walker.Ok q w ticks x) :
    Walker.Ok q w' ticks x := by
  cases x with
  | rows it =>
    refine ⟨h.resolved hx.1,hx.2.1,fun l hl => ?_⟩
    rw [h.upcoming] at hl
    exact SamePlaces.row h (hx.2.2 l hl)
  | chunks it => exact ⟨SamePlaces.archOk h hx.1,hx.2⟩
  | chunk it => exact ⟨SamePlaces.rangeIn h hx.1,hx.2⟩
  | batches it => exact ⟨SamePlaces.archOk h hx.1,fun r hr => SamePlaces.rangeIn h (hx.2.1 r hr),hx.2.2⟩
  | batch it =>
    exact ⟨fun r hr => SamePlaces.rangeIn h (hx.1 r hr),
      fun rows hr => ⟨SamePlaces.rangeIn h (hx.2.1 rows hr).1,(hx.2.1 rows hr).2⟩,hx.2.2⟩

end Handing

section Runs

variable {D : Prop} {w : World V} {q : QueryShape Component} {ticks : QueryTicks} {s : Walk V}

/-- A write that an item of the walk was asked for. -/
structure FromItem (q : QueryShape Component) (ticks : QueryTicks) (s : Walk V) (u : Use V) : Prop where
  /-- The column belongs to an item that was handed out. -/
  item : ∃ item∈s.items,u.loc=item.loc ∧ u.column∈ArchState.columns item.state
  /-- The item allows the write. -/
  offered : ItemColumn.offers u.column u.write=true
  /-- The stamp is the tick of the query. -/
  tick : u.tick=ticks.thisRun

/-- What holds in the course of a walk. -/
structure WalkInv (D : Prop) (q : QueryShape Component) (ticks : QueryTicks) (w : World V) (s : Walk V) :
    Prop where
  /-- Only cells differ from the start. -/
  bare : World.bare s.world=World.bare w
  /-- The registry is in order. -/
  registry : RegistryInv D s.world
  /-- The walk carries the ticks of the query. -/
  par : s.par.ticks=ticks
  /-- Open iterators stay within rows in use. -/
  walkers : ∀ x∈s.walkers,Walker.Ok q s.world ticks x
  /-- Items are of rows in use. -/
  items : ∀ item∈s.items,ItemOk q s.world ticks item
  /-- Every write went through an item. -/
  log : ∀ u∈s.log,FromItem q ticks s u
  /-- Every row is what the writes to it leave. -/
  rows : ∀ l,RowTouched ticks.thisRun s.log w s.world l

/-- A write that is chosen is one that an item offers. -/
theorem choose_some {item column : ℕ} {write : ItemWrite V} {u : Use V}
    (hi : ∀ item∈s.items,ItemOk q s.world ticks item) (h : Walk.choose s item column write=some u) :
    FromItem q ticks s u := by
  unfold Walk.choose at h
  obtain ⟨i,hitem,h⟩ := Option.bind_eq_some_iff.mp h
  obtain ⟨c,hcolumn,h⟩ := Option.bind_eq_some_iff.mp h
  have hmem := List.mem_of_getElem? hitem
  split at h
  · rename_i hoffers
    cases h
    exact ⟨⟨i,hmem,rfl,List.mem_of_getElem? hcolumn⟩,hoffers,congrArg QueryTicks.thisRun (hi i hmem).ticks⟩
  · cases h

/-- It goes to the row of the item. -/
theorem FromItem.aimed {u : Use V} (h : FromItem q ticks s u)
    (hi : ∀ item∈s.items,ItemOk q s.world ticks item) : Aimed q s.world u := by
  obtain ⟨item,hmem,hloc,hcolumn⟩ := h.item
  have hok := hi item hmem
  refine ⟨⟨item.state,?_,hcolumn⟩,?_⟩
  · rw [hloc]
    exact hok.state
  · rw [hloc]
    exact hok.row

/-- The component written to is one that the shape names mutably. -/
theorem FromItem.named {u : Use V} (h : FromItem q ticks s u)
    (hi : ∀ item∈s.items,ItemOk q s.world ticks item) :
    (.write,u.column.state.component)∈QueryShape.accesses q := by
  obtain ⟨spec,-,hcol⟩ := (h.aimed hi).column
  exact hcol.writes (offers_mutable h.offered)

/-- Items handed out later do not matter. -/
theorem FromItem.mono {s' : Walk V} {u : Use V} (h : FromItem q ticks s u)
    (hs : ∀ item∈s.items,item∈s'.items) : FromItem q ticks s' u := by
  obtain ⟨item,hmem,hi⟩ := h.item
  exact ⟨⟨item,hs item hmem,hi⟩,h.offered,h.tick⟩

/-- More iterators and items. -/
theorem WalkInv.grow (h : WalkInv D q ticks w s) (walkers : List Walker) (items : List QueryItem)
    (hx : ∀ x∈walkers,Walker.Ok q s.world ticks x) (hi : ∀ item∈items,ItemOk q s.world ticks item) :
    WalkInv D q ticks w { s with walkers := walkers, items := s.items++items } where
  bare := h.bare
  registry := h.registry
  par := h.par
  walkers := hx
  items := by
    intro item hm
    cases List.mem_append.mp hm with
    | inl hm => exact h.items item hm
    | inr hm => exact hi item hm
  log := fun u hu => (h.log u hu).mono fun item hm => List.mem_append_left _ hm
  rows := h.rows

/-- Handing out iterators over rows in use keeps a walk in order. -/
theorem WalkInv.pieces (h : WalkInv D q ticks w s) {pieces : List Piece}
    (hp : ∀ piece∈pieces,PieceIn s.world piece) : WalkInv D q ticks w
      { s with walkers := s.walkers++pieces.filterMap (openPiece q s.world s.par) } := by
  have hwalkers : ∀ x∈s.walkers++pieces.filterMap (openPiece q s.world s.par),
      Walker.Ok q s.world ticks x := by
    intro x hx
    cases List.mem_append.mp hx with
    | inl hx => exact h.walkers x hx
    | inr hx =>
      obtain ⟨piece,hm,ho⟩ := List.mem_filterMap.mp hx
      have hok := openPiece_in (hp piece hm) ho
      rw [h.par] at hok
      exact hok
  have hgrow := h.grow _ [] hwalkers fun _ hi => nomatch hi
  rw [List.append_nil] at hgrow
  exact hgrow

/-- A write is carried out, unless it dangles. -/
theorem WalkInv.use (h : WalkInv D q ticks w s) {u : Use V} (hu : FromItem q ticks s u) :
    wp u.perform (fun _ w' => WalkInv D q ticks w { s with world := w', log := s.log++[u] })
      (fun _ w' => w'=s.world ∧ u.dangling=true) s.world := by
  have haimed := hu.aimed h.items
  refine wp_mono (writeThrough_spec h.registry u.loc u.ty u.tick u.write) (fun _ w' hw => ?_)
    fun _ w' hw => ⟨hw.1,?_⟩
  · obtain ⟨spec,c,hr,rfl⟩ := hw
    have hbare := bare_setArch hr.archetype hr.chunk u.ty u.loc.indices.idxInChunk (u.write.apply u.tick)
    have hplaces := samePlaces_of_bare hbare
    have hrows := fun l => (h.rows l).snoc hr
    rw [←hu.tick] at hrows
    exact {
      bare := hbare.trans h.bare
      registry := registryInv_setArch h.registry _ _
      par := h.par
      walkers := fun x hx => SamePlaces.walker hplaces (h.walkers x hx)
      items := fun item hi => SamePlaces.itemOk hplaces (h.items item hi)
      log := forall_snoc (fun v hv => (h.log v hv).mono fun _ hi => hi) (hu.mono fun _ hi => hi)
      rows := hu.tick ▸ hrows }
  · by_contra hd
    obtain ⟨spec,c,hr⟩ := haimed.reached (Bool.eq_false_of_not_eq_true hd)
    exact hw.2 spec c hr

/-- Every move keeps the invariant. -/
theorem WalkInv.step (h : WalkInv D q ticks w s) (m : Move V) : WalkInv D q ticks w (Walk.step q m s) := by
  cases m with
  | next k =>
    rw [Walk.step]
    cases hk : s.walkers[k]? with
    | none => exact h
    | some x =>
      dsimp only
      cases hn : x.next q s.world with
      | error e => exact h
      | ok a =>
        obtain ⟨hitems,hwalker,hopened⟩ := next_in (h.walkers x (List.mem_of_getElem? hk)) hn
        refine h.grow _ _ (fun y hy => ?_) hitems
        cases List.mem_append.mp hy with
        | inl hy =>
          cases List.mem_or_eq_of_mem_set hy with
          | inl hy => exact h.walkers y hy
          | inr he => exact he ▸ hwalker
        | inr hy => exact hopened y hy
  | walkChunk start =>
    rw [Walk.step]
    cases hc : s.par.chunkOf s.world start with
    | error e => exact h
    | ok r =>
      obtain ⟨archId,len⟩ := r
      refine h.pieces fun piece hp => ?_
      cases List.mem_singleton.mp hp
      exact (chunkOf_in hc).le
  | walkBatch start batchAmount =>
    rw [Walk.step]
    cases hc : s.par.cutBatch s.world (fun piece => .ok [piece]) batchAmount batchAmount start [] with
    | error e => exact h
    | ok r =>
      have hnone : ∀ piece∈([] : List Piece),PieceIn s.world piece := fun _ hp => nomatch hp
      exact h.pieces (cutBatch_in hnone hc)
  | use item column write =>
    rw [Walk.step]
    cases hu : Walk.choose s item column write with
    | none => exact h
    | some u =>
      have hspec := h.use (choose_some h.items hu)
      unfold wp at hspec
      dsimp only
      cases hp : u.perform s.world with
      | mk r w' =>
        rw [hp] at hspec
        cases r with
        | ok _ => exact hspec
        | error e =>
          obtain ⟨rfl,-⟩ := hspec
          exact h

/-- Every move keeps it in order. -/
theorem WalkInv.run (h : WalkInv D q ticks w s) (moves : List (Move V)) :
    WalkInv D q ticks w (runAll (Walk.step q) moves s) := by
  induction moves generalizing s with
  | nil => exact h
  | cons m moves ih => exact ih (h.step m)

/-- The invariant holds before a query is walked. -/
theorem walkInv_start (h : RegistryInv D w) (accessor : QuerySpecAccessor) (batchAmount : ℕ) :
    WalkInv D q accessor.ticks w (Walk.start q accessor batchAmount w) where
  bare := rfl
  registry := h
  par := rfl
  walkers := by
    intro x hx
    cases List.mem_append.mp hx with
    | inl hx =>
      cases List.mem_cons.mp hx with
      | inl he =>
        subst he
        refine ⟨resolved_new q accessor w,rfl,fun l hl => ?_⟩
        have hl : l∈QueryIter.upcoming w (QueryIter.new q accessor w) := hl
        rw [upcoming_new] at hl
        obtain ⟨i,-,hl⟩ := List.mem_flatMap.mp hl
        exact (mem_archPlaces.mp hl).2
      | inr hx =>
        cases List.mem_singleton.mp hx
        exact ⟨nofun,rfl⟩
    | inr hx =>
      unfold QueryBatches.new at hx
      split at hx
      · rename_i it hit
        split at hit
        · cases hit
          cases List.mem_singleton.mp hx
          exact ⟨nofun,nofun,rfl⟩
        · cases hit
      · cases hx
  items := nofun
  log := nofun
  rows := fun l => RowTouched.refl _ _ _

/-- Where every component comes from the macro, no stamp dangles. -/
theorem FromItem.grounded (h : RegistryInv True s.world) (hq : ShapeDeclared q) {u : Use V}
    (hu : FromItem q ticks s u) (hi : ∀ item∈s.items,ItemOk q s.world ticks item) : u.dangling=false := by
  have hdeclared : u.column.state.component.isDeclared=true :=
    hq _ (List.mem_map_of_mem (f:=Prod.snd) (hu.named hi))
  obtain ⟨spec,hv,hcol⟩ := (hu.aimed hi).column
  have hmatches := h.declared_layouts trivial _ spec hv _ _ hcol.column
  unfold Use.dangling
  cases hs : u.write.stamps with
  | false => rfl
  | true =>
    have htracks : u.column.state.component.mutPolicy=.trackChanges :=
      of_decide_eq_true (offers_tracks hu.offered hs)
    have hchanged := hmatches.changed
    rw [(Component.mutPolicy_of_isDeclared hdeclared).mp htracks] at hchanged
    rw [Bool.true_and]
    exact Option.isNone_eq_false_iff.mpr hchanged

/-- The pointers of an item: whatever it offers, what is written through them is,
byte for byte, the write to the cell of its row. -/
def PointsAt (layout : ChunkLayout) (tick : ChangedTick) (item : QueryItem) : Prop :=
  ∀ column∈ArchState.columns item.state,∀ write : ItemWrite (List UInt8),
    ItemColumn.offers column write=true →
      let u : Use (List UInt8) := ⟨item.loc,column,tick,write⟩
      u.dangling=false → (∀ v,write.stores=some v → v.length=u.ty.byteSize) →
        ∀ c : ByteMigration.RawChunk,ByteMigration.table layout (c.withMem (u.writeBytes c.mem))=
          (ByteMigration.table layout c).modifyCell u.ty item.loc.indices.idxInChunk (write.apply tick)

/-- The pointers of an item of a row that fits lead to its own cells. -/
theorem ItemOk.pointsAt {item : QueryItem} (h : ItemOk q w ticks item) {spec : ArchetypeSpec V}
    (hv : w.archetypes.valueAt item.loc.archId=some spec) {components : List ComponentDescriptor}
    (hl : LayoutRegions.WellFormed components spec.layout)
    (hrow : item.loc.indices.idxInChunk<spec.layout.maxLen) (tick : ChangedTick) :
    PointsAt spec.layout tick item := by
  intro column hcolumn write hoffers u hd hsize c
  obtain ⟨spec',hv',hs⟩ := enterArch_state h.state
  cases hv.symm.trans hv'
  have hcol := archState_columns q hs _ hcolumn
  exact table_writeBytes hl hcol.column hcol.enable (offers_enable hoffers) hrow hsize hd

/-- A component that no write goes to is as it was. -/
theorem RowTouched.same {tick : ChangedTick} {log : List (Use V)} {w w' : World V} {l : RowLoc}
    {t : StorageType} (h : RowTouched tick log w w' l) (ht : ∀ u∈log,u.ty≠t) :
    (World.row w' l).map (fun p => p.2 t)=(World.row w l).map fun p => p.2 t := by
  have hnone : writesAt log l t=[] := by
    refine List.map_eq_nil_iff.mpr (List.filter_eq_nil_iff.mpr fun u hu hd => ?_)
    exact ht u hu (of_decide_eq_true hd).2
  refine rel_map_eq h fun p p' hp => ?_
  have hrel := hp.2 t
  rw [hnone] at hrel
  have hsame := rel_map_eq hrel fun x x' hx => hx.of_nil
  rwa [Option.map_id',Option.map_id'] at hsame

/-- In a run whose queued destroys find their entities, the pointers of every
item lead to its own cells. -/
theorem ItemOk.placed {item : QueryItem} (h : ItemOk q w ticks item) (hw : RunInv False w)
    (hm : AllMade w) (tick : ChangedTick) :
    ∃ spec,w.archetypes.valueAt item.loc.archId=some spec ∧ PointsAt spec.layout tick item := by
  obtain ⟨p,hp⟩ := Option.isSome_iff_exists.mp h.row
  obtain ⟨spec,c,hv,hc,hlt,-,-⟩ := row_eq_some hp
  have hsound := hw.inv.store.sound _ spec hv
  have hrow : item.loc.indices.idxInChunk<spec.layout.maxLen :=
    hlt.trans_le ((hsound.len_le _ c hc).trans_eq (hsound.maxLen _ c hc))
  obtain ⟨specs,components,hbuilt⟩ := hm _ spec.layout (Option.map_eq_some_iff.mpr ⟨spec,hv,rfl⟩)
  exact ⟨spec,hv,h.pointsAt hv (LayoutRegions.built_wellFormed hbuilt) hrow tick⟩

/-- What writing through the items of a query leaves of a world. -/
structure WritesExact (q : QueryShape Component) (ticks : QueryTicks) (w : World V) (s : Walk V) :
    Prop where
  /-- Handles, chunk lengths and all but the cells stay. -/
  bare : World.bare s.world=World.bare w
  /-- Each write went to the row of an item, to a component that the shape names mutably. -/
  aimed : ∀ u∈s.log,FromItem q ticks s u ∧ (World.row w u.loc).isSome=true ∧
    (.write,u.column.state.component)∈QueryShape.accesses q
  /-- Each row ends up as the writes to it leave it. -/
  rows : ∀ l,RowTouched ticks.thisRun s.log w s.world l
  /-- Components that are not named mutably stay. -/
  others : ∀ l t,(∀ c,(.write,c)∈QueryShape.accesses q → c.storageType≠t) →
    (World.row s.world l).map (fun p => p.2 t)=(World.row w l).map fun p => p.2 t
  /-- A write that an item offers is carried out, unless its pointer is null. -/
  carried : ∀ item column write u,Walk.choose s item column write=some u → u.dangling=false →
    (Walk.step q (.use item column write) s).log=s.log++[u]

/-- A walk and its writes are exact. -/
theorem WalkInv.exact (h : WalkInv D q ticks w s) : WritesExact q ticks w s where
  bare := h.bare
  aimed := by
    intro u hu
    have hfrom := h.log u hu
    have hrow := (hfrom.aimed h.items).row
    rw [row_isSome,(samePlaces_of_bare h.bare).chunkLen,←row_isSome] at hrow
    exact ⟨hfrom,hrow,hfrom.named h.items⟩
  rows := h.rows
  others := by
    intro l t ht
    refine (h.rows l).same fun u hu => ?_
    exact ht _ ((h.log u hu).named h.items)
  carried := by
    intro item column write u hu hd
    have hspec := h.use (choose_some h.items hu)
    rw [Walk.step,hu]
    unfold wp at hspec
    dsimp only
    cases hp : u.perform s.world with
    | mk r w' =>
      rw [hp] at hspec
      cases r with
      | ok _ => rfl
      | error e =>
        rw [hd] at hspec
        cases hspec.2

/-- A component with an enable bit and ticks. -/
def flagged : Component := .declared ⟨5,4,4,.enableAbleAndChangeAble,four_pow,four_aligned⟩

/-- A detail next to a plain column, both mutable. -/
def flagsAndTicks : QueryShape Component := .tuple [.detail (.refMut flagged),.column (.refMut (ticked 0))]

/-- Two rows, and a query that may write to both. -/
def twoRows : List (Action ℕ) := [
  .world .returning (.create (.tuple (flagged,1) [(ticked 0,2)])),
  .world .returning (.create (.tuple (flagged,3) [(ticked 0,4)])),
  .createQuery flagsAndTicks]

/-- Both items are asked for. The second is written first, one is marked, one is
written around, and the bit of the first is cleared. -/
def writesBack : List (Move ℕ) := [.next 0,.next 0,.use 1 0 (.assign 7),.use 0 0 (.setEnabled false),
  .use 1 1 .markChanged,.use 0 1 (.bypass 8),.use 0 0 (.assign 9)]

/-- A component written by hand over a column with ticks, which asks for plain references. -/
def quiet : Component := .handWritten 9 0 (tickedType 0) .noTracking .changeAble true

/-- A row with ticks, and a query that writes to it as such a component. -/
def quietRow : List (Action ℕ) := [
  .world .returning (.create (.single (ticked 0) 1)),
  .createQuery (.column (.refMut quiet))]

end Runs

end XynokEcs.ItemEffects
