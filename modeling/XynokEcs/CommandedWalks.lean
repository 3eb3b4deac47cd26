import XynokEcs.LinearValues
import XynokEcs.QueryReadings
import XynokEcs.RowMoves
import XynokEcs.WalkFronts

/-!
# Commands while a query is walked

A system that runs on its own may issue commands between two calls of `next`, and each
takes effect at once. A walk remembers the rows it counted in the chunk it is in, and
looks at everything else as it comes to it. So a command is harmless when it leaves the
counted rows in use, puts nothing the walk has handed out or that was created meanwhile
where the walk will hand it out, and takes nothing that is due where it will not.
-/

namespace XynokEcs.CommandedWalks

open ComponentTypes EntityHandle SequenceValueMap ChunkLayouts FaultingState RowDirectory ChunkRows RowWrites
  ArchetypeStore QueryShapes EntityAllocation SlotInvariants WorldState WorldCalls CommandBuffer RegistryInvariants
  StoreInvariants StoreSteps StructureChanges QueryAccess QuerySources ActionRuns WorldRuns ActionEffects WorldGrowth
  QueryMatches QueryWalks BatchWalks QueryReadings MapRefinement LinearValues DirectoryWalks RowMoves WalkFronts
  RegistryFrame

variable {V : Type}

section Walking

/-- What a system does while it walks a query: it goes on, or issues a command. -/
inductive WalkStep (V : Type)
  | next
  | cmd (form : CallForm) (thread : ℕ) (call : CmdCall V)

/-- What is noted of an item when it is handed out. -/
structure Handed where
  /-- The handle in the row of the item. -/
  entity : Entity
  /-- Whether the row was in use, and was the one the world keeps for the entity. -/
  placed : Bool
  /-- Whether the entity was created during the walk. -/
  spawned : Bool

/-- A walk, with what it handed out and what the commands did. -/
structure Walk (V : Type) where
  /-- The world, as the commands left it. -/
  world : World V
  /-- The iterator. -/
  iter : QueryIter
  /-- The items handed out, in order. -/
  handed : List Handed
  /-- The entities created since the walk began. -/
  spawned : List Entity
  /-- The entities destroyed, or moved to an archetype that does not match, before they
  were handed out. -/
  excused : List Entity
  /-- The number of calls of `next`. -/
  nexts : ℕ
  /-- Whether `next` came to the end. -/
  ended : Bool
  /-- Whether `next` panicked. -/
  panicked : Bool

/-- A walk before its first step. -/
def Walk.start (q : QueryShape Component) (accessor : QuerySpecAccessor) (w : World V) : Walk V where
  world := w
  iter := QueryIter.new q accessor w
  handed := []
  spawned := []
  excused := []
  nexts := 0
  ended := false
  panicked := false

/-- The handle that `fetch` reads from the row an item points to, in use or not. -/
def QueryItem.entity (w : World V) (item : QueryItem) : Entity :=
  (((World.chunks w item.loc.archId)[item.loc.indices.chunkIdx]?).map fun chunk =>
    chunk.entities item.loc.indices.idxInChunk).getD .null

/-- What is noted of an item. -/
def Walk.note (s : Walk V) (item : QueryItem) : Handed where
  entity := QueryItem.entity s.world item
  placed := decide (item.loc.indices.idxInChunk<World.chunkLen s.world item.loc.archId item.loc.indices.chunkIdx ∧
    s.world.entityAllocator.locate (QueryItem.entity s.world item)=some item.loc)
  spawned := decide (QueryItem.entity s.world item∈s.spawned)

/-- A call of `next`. -/
def Walk.goOn (q : QueryShape Component) (s : Walk V) : Walk V :=
  match QueryIter.next q s.world s.iter with
  | .ok (some item,it) => { s with iter := it, handed := s.handed++[Walk.note s item], nexts := s.nexts+1 }
  | .ok (none,it) => { s with iter := it, nexts := s.nexts+1, ended := true }
  | .error _ => { s with nexts := s.nexts+1, panicked := true }

/-- The entity a command is about. -/
def CmdCall.target : CmdCall V → Option Entity
  | .create _ => none
  | .addComponent e _ | .mergeComponent e _ | .removeComponent _ e | .destroy e => some e

instance (q : QueryShape Component) (layout : ChunkLayout) : Decidable (Matches q layout) :=
  inferInstanceAs (Decidable (∀ p∈QueryShape.accesses q,
    p.2.storageType∈layout.componentColDescriptors ↔ p.1≠.exclude))

/-- Is an entity in an archetype that matches? -/
def World.matching (q : QueryShape Component) (w : World V) (e : Entity) : Bool :=
  (w.entityAllocator.locate e).any fun l =>
    (w.archetypes.valueAt l.archId).any fun spec => decide (Matches q spec.layout)

/-- The entities created by what a command came to. -/
def created (r : Except Fault (Outcome V)) : List Entity :=
  match r with
  | .ok out => out.issued.toList
  | .error _ => []

/-- Was an entity lost to the walk before it was handed out, now that the world is `w`? -/
def Walk.loses (q : QueryShape Component) (s : Walk V) (w : World V) (e : Entity) : Bool :=
  World.matching q s.world e && !World.matching q w e && decide (e∉s.handed.map Handed.entity)

variable [Inhabited V]

/-- A command, carried out at once. -/
def Walk.issue (q : QueryShape Component) (form : CallForm) (thread : ℕ) (c : CmdCall V) (s : Walk V) : Walk V :=
  let r := c.perform thread form s.world
  { s with
    world := r.2
    spawned := s.spawned++created r.1
    excused := (CmdCall.target c).toList.filter (Walk.loses q s r.2)++s.excused }

/-- One step of a walk. -/
def Walk.step (q : QueryShape Component) : WalkStep V → Walk V → Walk V
  | .next,s => Walk.goOn q s
  | .cmd form thread c,s => Walk.issue q form thread c s

end Walking

section Promises

/-- The walk as a record of keys. -/
def Walk.record (s : Walk V) : Record Entity := ⟨s.handed.map Handed.entity,s.spawned,s.excused⟩

/-- The components are those the shape looks for. -/
def Carried (q : QueryShape Component) (x : RowData V) : Prop :=
  ∀ p∈QueryShape.accesses q,(x p.2.storageType).isSome=true ↔ p.1≠.exclude

/-- The filters of the shape hold. -/
def Passes (q : QueryShape Component) (ticks : QueryTicks) (x : RowData V) : Prop :=
  ∀ f∈QueryShape.filters q,∃ d,x f.2=some d ∧ FilterKind.Holds ticks d f.1

/-- The live entities a query selects when its walk begins. -/
def Wanted (q : QueryShape Component) (accessor : QuerySpecAccessor) (w : World V) (e : Entity) : Prop :=
  q.excludeOnly=false ∧ ∃ x,World.contents w e=some x ∧ Selects q accessor.ticks x

/-- What a walk promises, of the entities wanted when it began and the number of all then. -/
structure Safe (wanted : Entity → Prop) (count : ℕ) (s : Walk V) : Prop where
  /-- Every item was a row in use, and the row of its entity. -/
  placed : ∀ h∈s.handed,h.placed=true
  /-- No entity was handed out that was created during the walk. -/
  old : ∀ h∈s.handed,h.spawned=false
  /-- None was handed out twice. -/
  once : (s.handed.map Handed.entity).Nodup
  /-- A walk that ended handed out all that were wanted and not lost on the way. -/
  complete : s.ended=true → ∀ e,wanted e → e∉s.excused → e∈s.handed.map Handed.entity
  /-- The walk ends: `next` is not called more often than there were entities. -/
  ends : count<s.nexts → s.ended=true
  /-- `next` does not panic. -/
  goesOn : s.panicked=false

/-- The row of an entity may go: the last row of its chunk is not one still counted, and
what would fill a counted row is new or will not pass. -/
def Walk.MayLeave (q : QueryShape Component) (s : Walk V) (e : Entity) : Prop :=
  ∀ l,s.world.entityAllocator.locate e=some l →
    ¬(QueryIter.front s.iter).counted (World.lastOf s.world l) ∧
    ((QueryIter.front s.iter).counted l → ∀ k x,World.row s.world (World.lastOf s.world l)=some (k,x) →
      Passes q s.iter.ticks x → (Walk.record s).New k)

/-- The next place of the archetypes that are as they should be. -/
def NextPlace (w : World V) (is : ArchetypeSpec V → Prop) (l : RowLoc) : Prop :=
  ∃ spec,w.archetypes.valueAt l.archId=some spec ∧ is spec ∧ l.indices.chunkIdx=Archetype.nextChunk spec.arch

/-- The row of an entity may go and come to another archetype, where it will be `x`: not
where the walk will hand it out unless it is new, and where the walk will come if it is
due and still matches. -/
def Walk.MayMoveOn (q : QueryShape Component) (wanted : Entity → Prop) (s : Walk V) (isRemove : Bool)
    (e : Entity) (T : TArchetype) (become : RowData V → RowData V) : Prop :=
  ∀ slot src c x,Found s.world e slot src c → MayMove isRemove s.world slot src T →
    World.contents s.world e=some x →
    Walk.MayLeave q s e ∧
    (∀ l,NextPlace s.world (fun spec => EdgeTypes isRemove src.layout spec.layout T) l →
      (QueryIter.front s.iter).unopened l → Passes q s.iter.ticks (become x) → (Walk.record s).New e) ∧
    ((Walk.record s).Due wanted e → Carried q (become x) →
      ∃ l,NextPlace s.world (fun spec => EdgeTypes isRemove src.layout spec.layout T) l ∧
        (QueryIter.front s.iter).unopened l)

/-- The commands that do no harm where a walk stands. -/
def CmdCall.Harmless (q : QueryShape Component) (wanted : Entity → Prop) (s : Walk V) : CmdCall V → Prop
  | .create val => ∀ l,NextPlace s.world (TakesRow val.ty) l → (QueryIter.front s.iter).unopened l →
    ¬Passes q s.iter.ticks (insertRow val.items s.world.tick emptyRow)
  | .addComponent e val => Walk.MayMoveOn q wanted s false e val.ty (insertRow val.items s.world.tick)
  | .removeComponent T e => Walk.MayMoveOn q wanted s true e T (removeRow T.storageTypes)
  | .destroy e => Walk.MayLeave q s e
  | .mergeComponent _ _ => False

/-- The steps of a walk that do no harm, of components of the macro. -/
def Harmless (q : QueryShape Component) (wanted : Entity → Prop) : WalkStep V → Walk V → Prop
  | .next,_ => True
  | .cmd _ _ c,s => (∀ T∈c.ty,T.isDeclared=true) ∧ CmdCall.Harmless q wanted s c

end Promises

section Passing

variable {w w' : World V} {q : QueryShape Component} {ticks : QueryTicks} {x : RowData V} {e : Entity} {l : RowLoc}

/-- In a matched archetype a row is accepted when it passes. -/
theorem accepts_iff_passes (h : RegistryInv True w) (hq : WellTyped q) (hr : World.row w l=some (e,x))
    (hm : ∃ spec,w.archetypes.valueAt l.archId=some spec ∧ Matches q spec.layout) :
    acceptsAt q w ticks l=true ↔ Passes q ticks x := by
  have hselects : Selects q ticks x ↔ _ := selects_iff h hq hr
  obtain ⟨spec,hv,hmatch⟩ := hm
  have hcarried : Carried q x := (accesses_matches hr hv).mpr hmatch
  constructor
  · intro ha
    exact (hselects.mpr ⟨⟨spec,hv,hmatch⟩,ha⟩).2
  · intro hp
    exact (hselects.mp ⟨hcarried,hp⟩).2

mutual

/-- A filter looks at a component that its shape reads or writes. -/
theorem filters_accesses (q : QueryShape Component) {f : FilterKind×StorageType}
    (hf : f∈QueryShape.filters q) : ∃ p∈QueryShape.accesses q,p.2.storageType=f.2 ∧ p.1≠.exclude := by
  cases q with
  | column p => cases hf
  | entity => cases hf
  | filter kind p =>
    rw [List.mem_singleton.mp hf]
    refine ⟨QueryColumn.access p,List.mem_singleton_self _,?_⟩
    cases p with
    | ref c => exact ⟨rfl,nofun⟩
    | refMut c => exact ⟨rfl,nofun⟩
  | detail p => cases hf
  | without c => cases hf
  | tuple elements => exact allFilters_accesses elements hf

/-- So does a filter of an element of a tuple. -/
theorem allFilters_accesses (elements : List (QueryShape Component)) {f : FilterKind×StorageType}
    (hf : f∈QueryShape.allFilters elements) :
    ∃ p∈QueryShape.allAccesses elements,p.2.storageType=f.2 ∧ p.1≠.exclude := by
  cases elements with
  | nil => cases hf
  | cons q rest =>
    cases List.mem_append.mp hf with
    | inl hf =>
      obtain ⟨p,hp,hsame⟩ := filters_accesses q hf
      exact ⟨p,List.mem_append_left _ hp,hsame⟩
    | inr hf =>
      obtain ⟨p,hp,hsame⟩ := allFilters_accesses rest hf
      exact ⟨p,List.mem_append_right _ hp,hsame⟩

end

/-- A row passes as long as the components looked at stay. -/
theorem Passes.congr {x' : RowData V} (h : Passes q ticks x) (hs : ∀ f∈QueryShape.filters q,x' f.2=x f.2) :
    Passes q ticks x' := by
  intro f hf
  rw [hs f hf]
  exact h f hf

/-- Components that were not there before are not looked at. -/
theorem Passes.insertRow {val : Bundle V} (h : Passes q ticks x) (ha : ∀ t∈val.ty.storageTypes,x t=none)
    (tick : ChangedTick) : Passes q ticks (insertRow val.items tick x) := by
  refine h.congr fun f hf => ?_
  rw [MapRefinement.insertRow]
  cases hi : itemOf val.items f.2 with
  | none => rfl
  | some p =>
    -- the filter has found its component in the row
    obtain ⟨d,hd,-⟩ := h f hf
    have hm : f.2∈val.ty.storageTypes := by
      obtain ⟨hp,ht⟩ := itemOf_storage hi
      rw [←val.drops_fst,Bundle.drops,List.map_map]
      exact List.mem_map.mpr ⟨p,hp,ht⟩
    rw [ha _ hm] at hd
    cases hd

/-- Where a row still matches, nothing that is looked at was taken out. -/
theorem Passes.removeRow {ts : List StorageType} (h : Passes q ticks x) (hc : Carried q (removeRow ts x)) :
    Passes q ticks (removeRow ts x) := by
  refine h.congr fun f hf => ?_
  obtain ⟨p,hp,hsame,hne⟩ := filters_accesses q hf
  have hsome := (hc p hp).mpr hne
  rw [hsame] at hsome
  rw [RowWrites.removeRow] at hsome ⊢
  split
  · rename_i ht
    rw [if_pos ht] at hsome
    cases hsome
  · rfl

end Passing

section Going

variable {q : QueryShape Component} {ids : List ℕ} {wanted : Entity → Prop} {live : Finset Entity} {s : Walk V}

/-- What holds between two steps of a walk that was harmless so far: the world is in
order, the iterator fits it, the walk is right, and what was promised so far is kept. -/
structure WalkInv (q : QueryShape Component) (ids : List ℕ) (wanted : Entity → Prop) (live : Finset Entity)
    (s : Walk V) : Prop where
  /-- The world is in order. -/
  run : RunInv True s.world
  /-- Commands take effect at once. -/
  alone : s.world.inParallelCompute=false
  /-- The archetypes walked match. -/
  matching : ∀ i∈ids,∃ spec,s.world.archetypes.valueAt i=some spec ∧ Matches q spec.layout
  /-- Each is walked once. -/
  ordered : QueryIter.Ordered s.iter
  /-- No other is. -/
  within : ChunkCursor.ids s.iter.cursor.arch s.iter.cursor.archIndices ⊆ ids
  /-- What was resolved is what the archetypes say. -/
  resolved : QueryIter.Resolved q s.world s.iter
  /-- The walk is right. -/
  right : Right wanted (Passes q s.iter.ticks) (World.directory s.world) (QueryIter.front s.iter) (Walk.record s)
  /-- An entity is old or was created meanwhile. -/
  known : ∀ e,(World.contents s.world e).isSome=true → e∈live ∨ e∈s.spawned
  /-- What was handed out is old. -/
  early : ∀ h∈s.handed,h.entity∈live
  /-- What was handed out was in place. -/
  placed : ∀ h∈s.handed,h.placed=true
  /-- What was handed out was not created meanwhile. -/
  old : ∀ h∈s.handed,h.spawned=false
  /-- Nothing was handed out twice. -/
  once : (s.handed.map Handed.entity).Nodup
  /-- At the end nothing is due. -/
  done : s.ended=true → ∀ e,¬(Walk.record s).Due wanted e
  /-- Each call of `next` before the end handed something out. -/
  counted : s.ended=true ∨ s.nexts ≤ s.handed.length
  /-- No call panicked. -/
  goesOn : s.panicked=false

/-- Rows ahead lie in archetypes that match. -/
theorem WalkInv.ahead_matched (h : WalkInv q ids wanted live s) {l : RowLoc}
    (hl : (QueryIter.front s.iter).Ahead l) :
    ∃ spec,s.world.archetypes.valueAt l.archId=some spec ∧ Matches q spec.layout :=
  h.matching _ (h.within (h.ordered.archId hl))

/-- What is to come is in use. -/
theorem WalkInv.used (h : WalkInv q ids wanted live s) {l : RowLoc}
    (hl : l∈QueryIter.upcoming s.world s.iter) :
    (World.row s.world l).isSome=true ∧ (QueryIter.front s.iter).Ahead l := by
  have hsome := row_of_upcoming (fun l hc => h.right.used l hc) hl
  exact ⟨hsome,(mem_upcoming_iff hsome).mp hl⟩

/-- Places to come that are not accepted do not pass. -/
theorem WalkInv.not_passes (h : WalkInv q ids wanted live s) (hq : WellTyped q) {l : RowLoc} {k : Entity}
    {x : RowData V} (hl : l∈QueryIter.upcoming s.world s.iter) (hr : World.row s.world l=some (k,x))
    (ha : acceptsAt q s.world s.iter.ticks l=false) : ¬Passes q s.iter.ticks x := by
  intro hp
  have hacc := (accepts_iff_passes h.run.inv.store.registry hq hr (h.ahead_matched (h.used hl).2)).mpr hp
  rw [ha] at hacc
  cases hacc

/-- The handle in a row in use is that of its entity. -/
theorem entity_of_row {w : World V} {item : QueryItem} {e : Entity} {x : RowData V}
    (hr : World.row w item.loc=some (e,x)) : QueryItem.entity w item=e := by
  obtain ⟨spec,c,hv,hc,-,he,-⟩ := row_eq_some hr
  have hchunk : (World.chunks w item.loc.archId)[item.loc.indices.chunkIdx]?=some c := by
    rw [World.chunks,hv]
    exact hc
  rw [QueryItem.entity,hchunk,Option.map_some,Option.getD_some,he]

/-- No archetype still to come makes `next` panic. -/
theorem WalkInv.next_ok (h : WalkInv q ids wanted live s) (hq : WellTyped q) (e : Fault) :
    QueryIter.next q s.world s.iter≠.error e := by
  intro hn
  obtain ⟨i,hi,he⟩ := next_error hn
  obtain ⟨spec,hv,hm⟩ := h.matching i (h.within (List.mem_append_right _ hi))
  obtain ⟨state,-,hok⟩ := enterArch_matched h.run.inv.store.registry hq hv hm
  rw [hok] at he
  cases he

/-- An item is the row of an entity that was there when the walk began, and the walk stays
right when it is handed out. -/
structure Fresh (wanted : Entity → Prop) (live : Finset Entity) (q : QueryShape Component) (s : Walk V)
    (item : QueryItem) (it : QueryIter) (e : Entity) : Prop where
  /-- The row is in use. -/
  used : (World.row s.world item.loc).isSome=true
  /-- It holds the handle. -/
  entity : QueryItem.entity s.world item=e
  /-- It is the row the world keeps for the entity. -/
  located : s.world.entityAllocator.locate e=some item.loc
  /-- The entity was neither handed out nor created meanwhile. -/
  new : (Walk.record s).New e
  /-- It is an old one. -/
  old : e∈live
  /-- Nothing else is lost. -/
  right : Right wanted (Passes q s.iter.ticks) (World.directory s.world) (QueryIter.front it)
    ⟨s.handed.map Handed.entity++[e],s.spawned,s.excused⟩

/-- What `next` hands out is such an item. -/
theorem WalkInv.fresh (h : WalkInv q ids wanted live s) (hq : WellTyped q) {item : QueryItem} {it : QueryIter}
    (hn : QueryIter.next q s.world s.iter=.ok (some item,it)) : ∃ e,Fresh wanted live q s item it e := by
  have hspec := next_spec h.resolved
  rw [hn] at hspec
  obtain ⟨⟨⟨skipped,hsplit,hskipped⟩,hacc,-,-⟩,-,-⟩ := hspec
  obtain ⟨hord,-⟩ := next_ordered h.ordered hn
  have hmem : ∀ l,l∈QueryIter.upcoming s.world s.iter ↔
      l∈skipped ∨ l=item.loc ∨ l∈QueryIter.upcoming s.world it := by
    intro l
    rw [hsplit,List.mem_append,List.mem_cons]
  obtain ⟨hsome,hahead⟩ := h.used ((hmem item.loc).mpr (.inr (.inl rfl)))
  obtain ⟨⟨e,x⟩,hrow⟩ := Option.isSome_iff_exists.mp hsome
  have hpass : Passes q s.iter.ticks x :=
    (accepts_iff_passes h.run.inv.store.registry hq hrow (h.ahead_matched hahead)).mp hacc
  have hnew : (Walk.record s).New e := h.right.new _ _ _ hahead hrow hpass
  have hcont : World.contents s.world e=some x := h.right.consistent.contents_of_row hrow
  have hleft : item.loc∉QueryIter.upcoming s.world it := by
    have hnodup := h.ordered.nodup_upcoming (w:=s.world)
    rw [hsplit] at hnodup
    exact (List.nodup_cons.mp (List.nodup_append.mp hnodup).2.1).1
  have hcounted : ∀ l,(QueryIter.front it).counted l → (World.row s.world l).isSome=true :=
    fun l hc => (h.used ((hmem l).mpr (.inr (.inr (upcoming_of_counted hc))))).1
  refine ⟨e,hsome,entity_of_row hrow,h.right.consistent.locate hrow,hnew,?_,?_⟩
  · exact (h.known e (by rw [hcont]; rfl)).resolve_right hnew.2
  · refine h.right.hand (· ∈ skipped) (fun m hm => ?_) (fun l k y hl hr => ?_) (fun ha => ?_) hrow hcounted
      fun l hc => hord.apart hc
    · rw [←mem_upcoming_iff hm,←mem_upcoming_iff hm,hmem]
    · exact h.not_passes hq ((hmem l).mpr (.inl hl)) hr (hskipped l hl)
    · exact hleft ((mem_upcoming_iff hsome).mpr ha)

/-- A call of `next` that hands out an item keeps the invariant. -/
theorem WalkInv.handsOut (h : WalkInv q ids wanted live s) (hq : WellTyped q) {item : QueryItem} {it : QueryIter}
    (hn : QueryIter.next q s.world s.iter=.ok (some item,it)) : WalkInv q ids wanted live
      { s with iter := it, handed := s.handed++[Walk.note s item], nexts := s.nexts+1 } := by
  have hspec := next_spec h.resolved
  rw [hn] at hspec
  obtain ⟨-,hres,hticks⟩ := hspec
  obtain ⟨hord,hsuf⟩ := next_ordered h.ordered hn
  obtain ⟨e,hitem⟩ := h.fresh hq hn
  have hnote : (Walk.note s item).entity=e := hitem.entity
  have hnames : (s.handed++[Walk.note s item]).map Handed.entity=s.handed.map Handed.entity++[e] := by
    rw [List.map_append,List.map_singleton,hnote]
  have hforall : ∀ {P : Handed → Prop},(∀ n∈s.handed,P n) → P (Walk.note s item) →
      ∀ n∈s.handed++[Walk.note s item],P n := by
    intro P hall hlast n hm
    cases List.mem_append.mp hm with
    | inl hm => exact hall n hm
    | inr hm => exact List.mem_singleton.mp hm ▸ hlast
  refine ⟨h.run,h.alone,h.matching,hord,fun i hi => h.within (hsuf.subset hi),hres,?_,h.known,
    hforall h.early (hnote.symm ▸ hitem.old),hforall h.placed ?_,hforall h.old ?_,?_,fun hend k hk => ?_,?_,
    h.goesOn⟩
  · change Right wanted (Passes q it.ticks) _ _ ⟨(s.handed++[Walk.note s item]).map Handed.entity,_,_⟩
    rw [hticks,hnames]
    exact hitem.right
  · refine decide_eq_true ⟨(row_isSome item.loc).mp hitem.used,?_⟩
    rw [hitem.entity]
    exact hitem.located
  · refine decide_eq_false ?_
    rw [hitem.entity]
    exact hitem.new.2
  · rw [hnames]
    refine List.nodup_append.mpr ⟨h.once,List.nodup_singleton e,fun a ha b hb hab => hitem.new.1 ?_⟩
    rw [←List.mem_singleton.mp hb,←hab]
    exact ha
  · refine h.done hend k ⟨hk.1,hk.2.1,fun hm => hk.2.2 ?_⟩
    change k∈(s.handed++[Walk.note s item]).map Handed.entity
    rw [hnames]
    exact List.mem_append_left _ hm
  · refine h.counted.imp_right fun hle => ?_
    change s.nexts+1 ≤ (s.handed++[Walk.note s item]).length
    rw [List.length_append]
    exact Nat.succ_le_succ hle

/-- So does one that comes to the end. -/
theorem WalkInv.ends (h : WalkInv q ids wanted live s) (hq : WellTyped q) {it : QueryIter}
    (hn : QueryIter.next q s.world s.iter=.ok (none,it)) : WalkInv q ids wanted live
      { s with iter := it, nexts := s.nexts+1, ended := true } := by
  have hspec := next_spec h.resolved
  rw [hn] at hspec
  obtain ⟨hall,hleft,hres,hticks⟩ := hspec
  obtain ⟨hord,hsuf⟩ := next_ordered h.ordered hn
  have hnone : ∀ l,(World.row s.world l).isSome=true → ¬(QueryIter.front it).Ahead l := by
    intro l hl ha
    have hm := (mem_upcoming_iff hl).mpr ha
    rw [hleft] at hm
    cases hm
  have hright : Right wanted (Passes q s.iter.ticks) (World.directory s.world) (QueryIter.front it)
      (Walk.record s) := by
    refine h.right.skip (· ∈ QueryIter.upcoming s.world s.iter) (fun l hl => ?_)
      (fun l k x hl hr => h.not_passes hq hl hr (hall l hl)) (fun l hc => ?_) fun l hc => hord.apart hc
    · rw [mem_upcoming_iff hl]
      exact ⟨.inl,fun ha => ha.resolve_right (hnone l hl)⟩
    · have hm := upcoming_of_counted (w:=s.world) hc
      rw [hleft] at hm
      cases hm
  refine ⟨h.run,h.alone,h.matching,hord,fun i hi => h.within (hsuf.subset hi),hres,?_,h.known,h.early,h.placed,
    h.old,h.once,fun _ k hk => ?_,.inl rfl,h.goesOn⟩
  · change Right wanted (Passes q it.ticks) _ _ _
    rw [hticks]
    exact hright
  · obtain ⟨l,x,ha,hrow,-⟩ := hright.due k hk
    exact hnone l (by rw [show World.row s.world l=some (k,x) from hrow]; rfl) ha

/-- A call of `next` keeps the invariant. -/
theorem WalkInv.next (h : WalkInv q ids wanted live s) (hq : WellTyped q) :
    WalkInv q ids wanted live (Walk.goOn q s) := by
  unfold Walk.goOn
  cases hn : QueryIter.next q s.world s.iter with
  | error e => exact absurd hn (h.next_ok hq e)
  | ok r =>
    obtain ⟨item,it⟩ := r
    cases item with
    | none => exact h.ends hq hn
    | some item => exact h.handsOut hq hn

end Going

section Issuing

variable {w w' : World V} {q : QueryShape Component} {ids : List ℕ} {wanted : Entity → Prop}
  {live : Finset Entity} {s : Walk V} {e : Entity}

/-- What a walk resolved stays right as the world goes on. -/
theorem resolved_evolves {it : QueryIter} (he : Evolves w w') (h : QueryIter.Resolved q w it) :
    QueryIter.Resolved q w' it := by
  have henter : ∀ {i : ℕ} {a : ℕ×ArchState},enterArch q w i=.ok a → enterArch q w' i=.ok a := by
    intro i a ha
    unfold enterArch at ha ⊢
    cases hv : w.archetypes.valueAt i with
    | none =>
      rw [hv] at ha
      cases ha
    | some spec =>
      obtain ⟨spec',hv',hl,-⟩ := he.kept i spec hv
      rw [hv] at ha
      rw [hv']
      dsimp only at ha ⊢
      rw [hl]
      exact ha
  exact ⟨fun fetch hf => henter (h.fetch fetch hf),fun a ha => henter (h.arch a ha)⟩

/-- Whether a place was looked at depends on its chunk. -/
theorem unopened_congr {it : QueryIter} {l m : RowLoc} (ha : l.archId=m.archId)
    (hc : l.indices.chunkIdx=m.indices.chunkIdx) :
    (QueryIter.front it).unopened l ↔ (QueryIter.front it).unopened m := by
  change (_ ∨ _) ↔ (_ ∨ _)
  rw [ha,hc]

/-- The last row of the chunk of a live entity is in use. -/
theorem lastOf_row {D : Prop} {reserved : List Entity} {l : RowLoc} (h : StoreInv D reserved w)
    (hl : w.entityAllocator.locate e=some l) : ∃ k x,World.row w (World.lastOf w l)=some (k,x) := by
  obtain ⟨slot,spec,c,hf⟩ := StoreInv.found h hl
  have hloc : slot.loc=l := Option.some.inj (hf.locate.symm.trans hl)
  rw [←hloc,hf.lastOf]
  exact ⟨_,_,hf.last⟩

/-- An entity that is due is where the walk will hand it out, in an archetype that matches. -/
theorem WalkInv.due_matching (h : WalkInv q ids wanted live s) (hd : (Walk.record s).Due wanted e) :
    World.matching q s.world e=true := by
  obtain ⟨l,x,ha,hrow,-⟩ := h.right.due e hd
  obtain ⟨spec,hv,hm⟩ := h.ahead_matched ha
  have hl : s.world.entityAllocator.locate e=some l := h.right.consistent.locate hrow
  rw [World.matching,hl,Option.any_some,hv,Option.any_some]
  exact decide_eq_true hm

/-- What a command excuses is just what it takes from the walk. -/
theorem WalkInv.loses (h : WalkInv q ids wanted live s) {d : Directory Entity RowLoc (RowData V)}
    (hr : Right wanted (Passes q s.iter.ticks) d (QueryIter.front s.iter)
      { Walk.record s with excused := e::s.excused })
    (hk : (Walk.record s).Due wanted e → World.matching q w' e=true → ∃ l x,
      (QueryIter.front s.iter).Ahead l ∧ d.rows l=some (e,x) ∧ Passes q s.iter.ticks x) :
    Right wanted (Passes q s.iter.ticks) d (QueryIter.front s.iter)
      { Walk.record s with excused := [e].filter (Walk.loses q s w')++s.excused } := by
  cases hb : Walk.loses q s w' e with
  | true =>
    rw [List.filter_cons_of_pos hb]
    exact hr
  | false =>
    rw [List.filter_cons_of_neg (by rw [hb]; exact Bool.false_ne_true)]
    refine hr.unexcuse fun hd => hk hd ?_
    have hnot : decide (e∉s.handed.map Handed.entity)=true := decide_eq_true hd.2.2
    rw [Walk.loses,h.due_matching hd,Bool.true_and,hnot,Bool.and_true] at hb
    rw [Bool.not_eq_false'] at hb
    exact hb

/-- A row that goes leaves the walk right where it may leave. -/
theorem WalkInv.left (h : WalkInv q ids wanted live s) {l : RowLoc}
    (hl : s.world.entityAllocator.locate e=some l) (hm : Walk.MayLeave q s e) :
    Right wanted (Passes q s.iter.ticks) ((World.directory s.world).remove e l (World.lastOf s.world l))
      (QueryIter.front s.iter) { Walk.record s with excused := e::s.excused } := by
  obtain ⟨hlast,hfill⟩ := hm l hl
  obtain ⟨k,x,hrow⟩ := lastOf_row h.run.inv.store hl
  exact h.right.remove hl hrow Iff.rfl hlast fun hc => hfill hc k x hrow

/-- A row that is led on leaves the walk right where it may move on. -/
theorem WalkInv.led (h : WalkInv q ids wanted live s) {isRemove : Bool} {T : TArchetype} {slot : EntitySpec}
    {src : ArchetypeSpec V} {l : RowLoc} {become : RowData V → RowData V} {x : RowData V}
    (hled : RowLed isRemove s.world e T slot src l (World.directory w'))
    (hx : World.contents s.world e=some x) (hx' : World.contents w' e=some (become x))
    (hm : Walk.MayMoveOn q wanted s isRemove e T become)
    (hkeep : Passes q s.iter.ticks x → Carried q (become x) → Passes q s.iter.ticks (become x)) :
    Right wanted (Passes q s.iter.ticks) (World.directory w') (QueryIter.front s.iter)
      { Walk.record s with excused := [e].filter (Walk.loses q s w')++s.excused } := by
  obtain ⟨c,hf⟩ := hled.found
  obtain ⟨hleave,hnew,hdue⟩ := hm slot src c x hf hled.may hx
  obtain ⟨y,hdir⟩ := hled.led
  -- the next place of an archetype the walk has still to open
  have hnext : (QueryIter.front s.iter).unopened l →
      NextPlace s.world (fun spec => EdgeTypes isRemove src.layout spec.layout T) l := by
    intro hu
    obtain ⟨spec,hv,-⟩ := h.ahead_matched (.inr hu)
    exact ⟨spec,hv,hled.next spec hv⟩
  have hgone := h.left hf.locate hleave
  have hcons := hgone.consistent.insert (Function.update_self ..) hled.free y
  have hrow : World.row w' l=some (e,y) := by
    change (World.directory w').rows l=some (e,y)
    rw [hdir]
    exact Function.update_self ..
  have hy : y=become x := by
    rw [←hdir] at hcons
    exact Option.some.inj ((hcons.contents_of_row hrow).symm.trans hx')
  have hcome := hgone.insert (x:=y) (Function.update_self ..) hled.free fun hu hp =>
    hnew l (hnext hu) hu (hy ▸ hp)
  rw [←hdir] at hcome
  refine h.loses hcome fun hd hmatching => ?_
  have hloc : w'.entityAllocator.locate e=some l := hcome.consistent.locate hrow
  rw [World.matching,hloc,Option.any_some] at hmatching
  obtain ⟨spec',hv',hmatch⟩ := (Option.any_eq_true _ _).mp hmatching
  have hcarried : Carried q y := (accesses_matches hrow hv').mpr (of_decide_eq_true hmatch)
  obtain ⟨m,⟨spec,hv,ht,hchunk⟩,hu⟩ := hdue hd (hy ▸ hcarried)
  -- there is one archetype of these components
  have harch : m.archId=l.archId := hled.only _ _ hv ht
  rw [harch] at hv
  have hchunk' : m.indices.chunkIdx=l.indices.chunkIdx := hchunk.trans (hled.next spec hv).2.symm
  obtain ⟨l₀,x₀,-,hrow₀,hpass⟩ := h.right.due e hd
  have hx₀ : x₀=x := Option.some.inj ((h.right.consistent.contents_of_row hrow₀).symm.trans hx)
  refine ⟨l,y,.inr ((unopened_congr harch hchunk').mp hu),hrow,?_⟩
  rw [hy]
  exact hkeep (hx₀ ▸ hpass) (hy ▸ hcarried)

/-- A row of a new entity leaves the walk right where the walk will not hand it out. -/
theorem WalkInv.added (h : WalkInv q ids wanted live s) {val : Bundle V} {x : RowData V}
    (hadd : RowAdded s.world e val.ty (World.directory w')) (hx : World.contents w' e=some x)
    (hm : ∀ l,NextPlace s.world (TakesRow val.ty) l → (QueryIter.front s.iter).unopened l →
      ¬Passes q s.iter.ticks x) :
    Right wanted (Passes q s.iter.ticks) (World.directory w') (QueryIter.front s.iter)
      { Walk.record s with inserted := s.spawned++[e] } := by
  obtain ⟨l,y,hfree,hnext,hdir⟩ := hadd.added
  have hcons := h.right.consistent.insert hadd.fresh hfree y
  have hrow : (World.directory w').rows l=some (e,y) := by
    rw [hdir]
    exact Function.update_self ..
  have hy : y=x := by
    rw [←hdir] at hcons
    exact Option.some.inj ((hcons.contents_of_row hrow).symm.trans hx)
  have hnot : (QueryIter.front s.iter).unopened l → ¬Passes q s.iter.ticks y := by
    intro hu
    obtain ⟨spec,hv,-⟩ := h.ahead_matched (.inr hu)
    rw [hy]
    exact hm l ⟨spec,hv,hnext spec hv⟩ hu
  have hcome := h.right.insert (x:=y) hadd.fresh hfree fun hu hp => absurd hp (hnot hu)
  rw [←hdir] at hcome
  refine hcome.insertedAt hrow fun ha => ?_
  cases ha with
  | inl hc =>
    have hsome := h.right.used l hc
    rw [show (World.directory s.world).rows l=none from hfree] at hsome
    cases hsome
  | inr hu => exact hnot hu

/-- An update of the map adds only the entity that was created. -/
theorem known_of_mapStep {tick : ChangedTick} (c : CmdCall V) {out : Outcome V} {m m' : EntityMap V} {k : Entity}
    (h : MapStep tick c.direct out m m') (hk : (m' k).isSome=true) :
    (m k).isSome=true ∨ k∈created (.ok out : Except Fault (Outcome V)) := by
  have hupdate : ∀ {e : Entity} {x y : RowData V},m e=some x → m'=Function.update m e (some y) →
      (m k).isSome=true := by
    intro e x y hx hm
    rw [hm,Function.update_apply] at hk
    split at hk
    · rename_i he
      rw [he,hx]
      rfl
    · exact hk
  cases c with
  | create val => cases out with
    | done => exact h.elim
    | bundle b => exact h.elim
    | entity e =>
      rw [h.2,Function.update_apply] at hk
      split at hk
      · rename_i he
        rw [he]
        exact .inr (List.mem_singleton_self e)
      · exact .inl hk
  | addComponent e val => cases out with
    | entity k => exact h.elim
    | bundle b => exact h.elim
    | done =>
      obtain ⟨x,hx,-,hm⟩ := h
      exact .inl (hupdate hx hm)
  | mergeComponent e val => cases out with
    | entity k => exact h.elim
    | bundle b => exact h.elim
    | done =>
      obtain ⟨x,hx,hm⟩ := h
      exact .inl (hupdate hx hm)
  | removeComponent T e => cases out with
    | entity k => exact h.elim
    | done => exact h.elim
    | bundle b =>
      obtain ⟨x,hx,-,hm⟩ := h
      exact .inl (hupdate hx hm)
  | destroy e => cases out with
    | entity k => exact h.elim
    | bundle b => exact h.elim
    | done =>
      rw [h.2,Function.update_apply] at hk
      split at hk
      · cases hk
      · exact .inl hk

/-- A row that is gone leaves the walk right where it may leave. -/
theorem WalkInv.gone (h : WalkInv q ids wanted live s) {l : RowLoc}
    (hl : s.world.entityAllocator.locate e=some l)
    (hdir : World.directory w'=(World.directory s.world).remove e l (World.lastOf s.world l))
    (hm : Walk.MayLeave q s e) :
    Right wanted (Passes q s.iter.ticks) (World.directory w') (QueryIter.front s.iter)
      { Walk.record s with excused := [e].filter (Walk.loses q s w')++s.excused } := by
  have hgone := h.left hl hm
  rw [←hdir] at hgone
  refine h.loses hgone fun _ hmatching => ?_
  have hloc : w'.entityAllocator.locate e=none := by
    change (World.directory w').locate e=none
    rw [hdir]
    exact Function.update_self ..
  rw [World.matching,hloc] at hmatching
  cases hmatching

/-- What a command that was carried out leaves of the walk. -/
structure Kept (q : QueryShape Component) (wanted : Entity → Prop) (live : Finset Entity) (s : Walk V)
    (c : CmdCall V) (r : Except Fault (Outcome V)) (w' : World V) : Prop where
  /-- The walk stays right. -/
  right : Right wanted (Passes q s.iter.ticks) (World.directory w') (QueryIter.front s.iter)
    ⟨s.handed.map Handed.entity,s.spawned++created r,
      (CmdCall.target c).toList.filter (Walk.loses q s w')++s.excused⟩
  /-- What is new was created. -/
  known : ∀ e,(World.contents w' e).isSome=true → e∈live ∨ e∈s.spawned++created r

/-- A command that succeeds and does no harm leaves the walk right. -/
theorem WalkInv.succeeded (h : WalkInv q ids wanted live s) {c : CmdCall V} {out : Outcome V}
    (hc : CmdCall.Harmless q wanted s c) (hplaces : CmdCall.Places s.world (World.directory w') c out)
    (hmap : MapStep s.world.tick c.direct out (World.contents s.world) (World.contents w')) :
    Kept q wanted live s c (.ok out) w' := by
  refine ⟨?_,fun k hk => ?_⟩
  · cases c with
    | create val => cases out with
      | done => exact hplaces.elim
      | bundle b => exact hplaces.elim
      | entity e => exact h.added hplaces ((congrFun hmap.2 e).trans (Function.update_self ..)) hc
    | addComponent e val => cases out with
      | entity k => exact hplaces.elim
      | bundle b => exact hplaces.elim
      | done =>
        obtain ⟨slot,src,l,hled⟩ := hplaces
        obtain ⟨x,hx,habsent,hcont⟩ := hmap
        rw [created,show (Outcome.done : Outcome V).issued.toList=[] from rfl,List.append_nil]
        exact h.led hled hx ((congrFun hcont e).trans (Function.update_self ..)) hc
          fun hp _ => hp.insertRow habsent _
    | mergeComponent e val => exact hc.elim
    | removeComponent T e => cases out with
      | entity k => exact hplaces.elim
      | done => exact hplaces.elim
      | bundle b =>
        obtain ⟨slot,src,l,hled⟩ := hplaces
        obtain ⟨x,hx,-,hcont⟩ := hmap
        rw [created,show (Outcome.bundle b : Outcome V).issued.toList=[] from rfl,List.append_nil]
        exact h.led hled hx ((congrFun hcont e).trans (Function.update_self ..)) hc
          fun hp hcarried => hp.removeRow hcarried
    | destroy e => cases out with
      | entity k => exact hplaces.elim
      | bundle b => exact hplaces.elim
      | done =>
        obtain ⟨l,hl,hdir⟩ := hplaces
        rw [created,show (Outcome.done : Outcome V).issued.toList=[] from rfl,List.append_nil]
        exact h.gone hl hdir hc
  · cases known_of_mapStep c hmap hk with
    | inl hk => exact (h.known k hk).imp_right fun hm => List.mem_append_left _ hm
    | inr hm => exact .inr (List.mem_append_right _ hm)

/-- A command that fails leaves it right. -/
theorem WalkInv.failed (h : WalkInv q ids wanted live s) (c : CmdCall V) (f : Fault)
    (hdir : World.directory w'=World.directory s.world) : Kept q wanted live s c (.error f) w' := by
  refine ⟨?_,fun k hk => ?_⟩
  · rw [created,List.append_nil,hdir]
    cases CmdCall.target c with
    | none => exact h.right
    | some e =>
      rw [Option.toList_some,List.filter_cons]
      split
      · exact h.right.excuse e
      · exact h.right
  · rw [World.contents,hdir] at hk
    exact (h.known k hk).imp_right fun hm => List.mem_append_left _ hm

variable [Inhabited V]

/-- Outside of a parallel step a command updates the map of the world as its call does. -/
theorem CmdCall.mapStep {reserved : List Entity} {thread : ℕ} (c : CmdCall V) (form : CallForm)
    (h : StoreInv True reserved w) (hp : w.inParallelCompute=false) (hd : ∀ T∈c.ty,T.isDeclared=true) :
    wp (c.perform thread form) (fun out w' => MapStep w.tick c.direct out (World.contents w) (World.contents w'))
      (fun _ w' => World.contents w'=World.contents w) w := by
  refine CmdCall.wp_direct hp (WorldCall.mapStep c.direct .returning h fun T hT => hd T ?_) form
  cases c <;> exact hT

/-- Outside of a parallel step a command lets the world move on. -/
theorem CmdCall.evolves {D : Prop} {thread : ℕ} (c : CmdCall V) (form : CallForm) (h : RegistryInv D w)
    (hp : w.inParallelCompute=false) : Evolves w (c.perform thread form w).2 := by
  have hreg : RegistryInv False w :=
    { h with
      declared_components := False.elim
      declared_layouts := False.elim }
  refine wp_state (CmdCall.wp_direct hp ?_ form)
  exact wp_mono (WorldCall.keeps c.direct .returning w hreg) (fun _ _ hk => hk.2) fun _ _ hk => hk.2

/-- A command that does no harm leaves the walk right, whichever way it leaves. -/
theorem WalkInv.harmless (h : WalkInv q ids wanted live s) (c : CmdCall V) (form : CallForm) (thread : ℕ)
    (hd : ∀ T∈c.ty,T.isDeclared=true) (hc : CmdCall.Harmless q wanted s c) :
    wp (c.perform thread form) (fun out w' => Kept q wanted live s c (.ok out) w')
      (fun f w' => Kept q wanted live s c (.error f) w') s.world := by
  have hmerge : CmdCall.mergeless c=true := by
    cases c with
    | mergeComponent e val => exact hc.elim
    | create val => rfl
    | addComponent e val => rfl
    | removeComponent T e => rfl
    | destroy e => rfl
  refine wp_mono (wp_and (CmdCall.places c form h.run.inv.store h.alone (fun _ => hd) hmerge)
    (CmdCall.mapStep c form h.run.inv.store h.alone hd)) ?_ ?_
  · intro out w' hout
    exact h.succeeded hc hout.1 hout.2
  · intro f w' hout
    exact h.failed c f hout.1

/-- A command that does no harm keeps the invariant. -/
theorem WalkInv.issue (h : WalkInv q ids wanted live s) (c : CmdCall V) (form : CallForm) (thread : ℕ)
    (hd : ∀ T∈c.ty,T.isDeclared=true) (hc : CmdCall.Harmless q wanted s c) :
    WalkInv q ids wanted live (Walk.issue q form thread c s) := by
  have hkept : Kept q wanted live s c (c.perform thread form s.world).1 (c.perform thread form s.world).2 :=
    wp_outcome (P:=fun r => Kept q wanted live s c r.1 r.2) (h.harmless c form thread hd hc)
  have hrun : RunInv True (c.perform thread form s.world).2 :=
    Action.runInv (.cmd form thread c) h.run (fun _ => hd) trivial
  have hev : Evolves s.world (c.perform thread form s.world).2 :=
    CmdCall.evolves c form h.run.inv.store.registry h.alone
  refine ⟨hrun,?_,fun i hi => ?_,h.ordered,h.within,resolved_evolves hev h.resolved,hkept.right,hkept.known,
    h.early,h.placed,h.old,h.once,fun hend k hk => ?_,h.counted,h.goesOn⟩
  · exact (congrArg (fun f => f.2.2.2.2.2.1) hev.frame).trans h.alone
  · obtain ⟨spec,hv,hm⟩ := h.matching i hi
    obtain ⟨spec',hv',hl,-⟩ := hev.kept i spec hv
    refine ⟨spec',hv',?_⟩
    rw [hl]
    exact hm
  · exact h.done hend k ⟨hk.1,fun hm => hk.2.1 (List.mem_append_right _ hm),hk.2.2⟩

end Issuing

section Runs

variable {w : World V} {q : QueryShape Component} {accessor : QuerySpecAccessor}

/-- A walk begins right. -/
theorem WalkInv.start (h : RunInv True w) (hcore : CoreInv w) (hp : w.inParallelCompute=false) (hq : WellTyped q)
    {lastRunTick : ChangedTick} (ha : querySrcAccess q lastRunTick w=some accessor) :
    WalkInv q (matched q accessor w) (Wanted q accessor w) (World.live w) (Walk.start q accessor w) := by
  obtain ⟨idxs,hidx,hexact⟩ := accessor_exact hcore ha
  have hmatched : ∀ i,i∈matched q accessor w ↔ q.excludeOnly=false ∧
      ∃ spec,w.archetypes.valueAt i=some spec ∧ Matches q spec.layout := by
    intro i
    rw [mem_matched,hidx,Option.getD_some,hexact.mem]
  have hnodup : (matched q accessor w).Nodup := by
    refine nodup_matched ?_
    rw [hidx,Option.getD_some]
    exact hexact.sorted.imp Nat.ne_of_lt
  have hcons := h.inv.store.consistent
  refine ⟨h,hp,fun i hi => ((hmatched i).mp hi).2,⟨hnodup,nofun⟩,fun i hi => hi,resolved_new q accessor w,?_,?_,
    nofun,nofun,nofun,List.nodup_nil,nofun,.inr (Nat.le_refl _),rfl⟩
  · have hcounted : ∀ l,¬(QueryIter.front (QueryIter.new q accessor w)).counted l := by
      intro l hc
      obtain ⟨fetch,hf,-⟩ := hc
      cases hf
    refine ⟨hcons,fun l hc => (hcounted l hc).elim,fun l hc => (hcounted l hc).elim,
      fun _ _ _ _ _ _ => ⟨List.not_mem_nil,List.not_mem_nil⟩,fun e hd => ?_⟩
    obtain ⟨hexcl,x,hx,hsel⟩ := hd.1
    obtain ⟨l,hrow⟩ := row_of_contents hcons hx
    have hspec := ((selects_iff h.inv.store.registry hq hrow).mp hsel).1
    exact ⟨l,x,.inr (.inr ((hmatched _).mpr ⟨hexcl,hspec⟩)),hrow,hsel.2⟩
  · intro e he
    obtain ⟨x,hx⟩ := Option.isSome_iff_exists.mp he
    obtain ⟨l,hrow⟩ := row_of_contents hcons hx
    have hl : w.entityAllocator.locate e=some l := hcons.locate hrow
    refine .inl ((mem_live hcons).mpr ?_)
    rw [World.entityExists,entityExists_eq,hl]
    rfl

/-- A walk that is right so far keeps its promise. -/
theorem WalkInv.safe {ids : List ℕ} {wanted : Entity → Prop} {live : Finset Entity} {s : Walk V}
    (h : WalkInv q ids wanted live s) : Safe wanted live.card s := by
  refine ⟨h.placed,h.old,h.once,fun hend e hw he => ?_,fun hlt => ?_,h.goesOn⟩
  · by_contra hnot
    exact h.done hend e ⟨hw,he,hnot⟩
  · refine h.counted.resolve_right fun hle => ?_
    have hsub : (s.handed.map Handed.entity).toFinset ⊆ live := by
      intro e he
      obtain ⟨n,hn,rfl⟩ := List.mem_map.mp (List.mem_toFinset.mp he)
      exact h.early n hn
    have hcard := Finset.card_le_card hsub
    rw [List.toFinset_card_of_nodup h.once,List.length_map] at hcard
    omega

/-- What `next` comes to if it passes over no chunk. -/
def QueryIter.soon (q : QueryShape Component) (w : World V) (it : QueryIter) : Option (QueryItem×QueryIter) :=
  match QueryIter.scanRows w it with
  | some r => some r
  | none =>
    match ChunkCursor.nextChunk q w it.cursor.archIndices it.cursor.arch it.cursor.chunkIdx with
    | .ok (some fetch,cursor) => QueryIter.scanRows w { it with
        cursor := cursor
        fetch := some fetch
        row := 0
        endRow := World.chunkLen w fetch.archId fetch.chunkIdx }
    | _ => none

/-- A walk after such a call of `next`. -/
def Walk.soon (q : QueryShape Component) (s : Walk V) : Walk V :=
  match QueryIter.soon q s.world s.iter with
  | some (item,it) => { s with iter := it, handed := s.handed++[Walk.note s item], nexts := s.nexts+1 }
  | none => s

/-- Such a call need not go on to another chunk. -/
theorem goOn_soon {s : Walk V} (h : (QueryIter.soon q s.world s.iter).isSome=true) :
    Walk.goOn q s=Walk.soon q s := by
  obtain ⟨⟨item,it⟩,hr⟩ := Option.isSome_iff_exists.mp h
  have hnext : QueryIter.next q s.world s.iter=.ok (some item,it) := by
    unfold QueryIter.soon at hr
    unfold QueryIter.next
    cases hs : QueryIter.scanRows s.world s.iter with
    | some r =>
      rw [hs] at hr
      cases hr
      rfl
    | none =>
      rw [hs] at hr
      dsimp only at hr ⊢
      split
      · rename_i hc
        rw [hc] at hr
        cases hr
      · rename_i hc
        rw [hc] at hr
        cases hr
      · rename_i hc
        rw [hc] at hr
        dsimp only at hr
        unfold QueryIter.next
        rw [hr]
  unfold Walk.goOn Walk.soon
  rw [hnext,hr]

/-- Where no counted row is left, every row may go. -/
theorem mayLeave_of_end {s : Walk V} (h : s.iter.endRow ≤ s.iter.row) (e : Entity) : Walk.MayLeave q s e := by
  have hcounted : ∀ l,¬(QueryIter.front s.iter).counted l := by
    intro l hc
    obtain ⟨fetch,-,-,-,hrow,hlt⟩ := hc
    omega
  exact fun l _ => ⟨hcounted _,fun hc => (hcounted l hc).elim⟩

/-- In the last archetype of a walk a new row lies behind it, if it fills a chunk that was
opened. -/
theorem not_unopened_of_next {s : Walk V} {is : ArchetypeSpec V → Prop} {i k : ℕ} {l : RowLoc}
    (hn : NextPlace s.world is l) (hi : s.iter.cursor.archIndices=[])
    (ha : s.iter.cursor.arch.map Prod.fst=some i)
    (hk : (s.world.archetypes.valueAt i).map (fun spec => Archetype.nextChunk spec.arch)=some k)
    (hlt : k < s.iter.cursor.chunkIdx) : ¬(QueryIter.front s.iter).unopened l := by
  intro hu
  obtain ⟨spec,hv,-,hchunk⟩ := hn
  cases hu with
  | inl hu =>
    obtain ⟨a,harch,hid,hle⟩ := hu
    rw [harch] at ha
    have hsame : l.archId=i := hid.trans (Option.some.inj ha)
    rw [hsame] at hv
    rw [hv] at hk
    have hnext : Archetype.nextChunk spec.arch=k := Option.some.inj hk
    omega
  | inr hu =>
    rw [hi] at hu
    cases hu

/-- A query of handles and a component. -/
def handles : QueryShape Component := .tuple [.entity,.column (.ref (plain 0))]

/-- Two entities of that component, and the query of them. -/
def pair : List (Action ℕ) := [
  .world .returning (.create (.single (plain 0) 1)),
  .world .returning (.create (.single (plain 0) 2)),
  .prepareQuery handles]

variable [Inhabited V]

/-- A step of a walk that does no harm keeps the invariant. -/
theorem WalkInv.step {ids : List ℕ} {wanted : Entity → Prop} {live : Finset Entity} {s : Walk V}
    (h : WalkInv q ids wanted live s) (hq : WellTyped q) (step : WalkStep V) (hs : Harmless q wanted step s) :
    WalkInv q ids wanted live (Walk.step q step s) := by
  cases step with
  | next => exact h.next hq
  | cmd form thread c => exact h.issue c form thread hs.1 hs.2

/-- An entity of the component, and one that has another besides. -/
def twoArchetypes : List (Action ℕ) := [
  .world .returning (.create (.single (plain 0) 1)),
  .world .returning (.create (.tuple (plain 0,2) [(plain 1,3)])),
  .prepareQuery handles]

end Runs

end XynokEcs.CommandedWalks
