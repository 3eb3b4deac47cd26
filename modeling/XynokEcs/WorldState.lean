import XynokEcs.QueryShapes
import XynokEcs.EntityAllocation
import Mathlib.Data.List.Dedup
import Mathlib.Data.List.Sort

/-!
# The world and its archetype registry

The world owns the registries, the entity slots, the ticks and the queues of
its workers. Archetypes are created for an archetype type, for the union of two
archetypes or for a difference, and every id is the position in the registry. A
structure change is looked up once and then cached with its migration plan.
-/

namespace XynokEcs.WorldState

open ComponentTypes EntityHandle SequenceValueMap ComponentBits ChunkLayouts FaultingState
  ChunkRows ArchetypeStore QueryShapes EntityAllocation

/-- A counter kept between two bounds. -/
structure SafeCounter where
  /-- Where the counter stands. -/
  val : ℕ
  /-- The largest value. -/
  maxVal : ℕ
  /-- The smallest value. -/
  minVal : ℕ
deriving DecidableEq

/-- `SafeCounter::new`. -/
def SafeCounter.new (min max : ℕ) : SafeCounter := ⟨min,max,min⟩

/-- `increase`: the next value, clamped. -/
def SafeCounter.increase (c : SafeCounter) : SafeCounter :=
  { c with val := max c.minVal (min (c.val+1) c.maxVal) }

/-- What the run-time environment decides: the order in which a hash map hands
out its keys, and whether appending to the archetype registry moves it. -/
structure Runtime where
  /-- The order of the keys in the layout of a new archetype. -/
  keyOrder : ℕ → List StorageType → List StorageType
  /-- Whether appending the archetype of an id moves the registry. -/
  relocates : ℕ → Bool
  /-- No key is lost or made up. -/
  keyOrder_perm : ∀ i ts,(keyOrder i ts).Perm ts

/-- An archetype with its layout. -/
structure ArchetypeSpec (V : Type) where
  /-- The name in error messages. -/
  name : ArchetypeName
  /-- The chunks. -/
  arch : Archetype V
  /-- The layout of each chunk. -/
  layout : ChunkLayout
  /-- Whether entities may enter or leave by gaining or losing components. -/
  allowStructureChange : Bool

/-- The archetype an entity sits in, and the archetype type added or removed. -/
structure ArchetypeEdgeKey where
  /-- The archetype an entity is in. -/
  srcArchId : ℕ
  /-- The tuple that is added or removed. -/
  archetypeTypeId : TArchetype
deriving DecidableEq

/-- A structure change worked out ahead of time. -/
structure ArchetypeEdge where
  /-- The archetype it goes to. -/
  dstArchId : ℕ
  /-- What becomes of each column on the way. -/
  migration : MigrationPlan
deriving DecidableEq

/-- A registered query shape. -/
structure QuerySpec where
  /-- The archetypes found so far, in order. -/
  archetypes : List ℕ
  /-- What the shape touches. -/
  accessScope : AccessScope
  /-- The version of the archetype registry that they were looked up at. -/
  version : ℕ
deriving DecidableEq

/-- A command recorded by a worker: what its closure captured. The thread id is
printed by the panic of a failing command. -/
inductive CmdBuffer (V : Type)
  | create (thread : ℕ) (e : Entity) (val : Bundle V)
  | addComponent (thread : ℕ) (e : Entity) (val : Bundle V)
  | mergeComponent (thread : ℕ) (e : Entity) (val : Bundle V)
  | removeComponent (thread : ℕ) (T : TArchetype) (e : Entity)
  | destroy (thread : ℕ) (e : Entity)
deriving DecidableEq

/-- What one worker thread keeps between sync points. -/
structure WorkerSpec (V : Type) where
  /-- Handles held ahead for creates in parallel. -/
  preAllocatedEntities : List Entity
  /-- Commands in the order they were queued. -/
  cmdBuffer : List (CmdBuffer V)

/-- The world. -/
structure World (V : Type) where
  /-- What the environment decides. -/
  runtime : Runtime
  /-- The archetypes, by id. -/
  archetypes : SequenceValueHashMap ℕ (ArchetypeSpec V)
  /-- The components, by storage type. -/
  componentCounter : ComponentSpecs
  /-- The query shapes. -/
  queryCounter : SequenceValueHashMap (QueryShape StorageType) QuerySpec
  /-- Archetype ids by ascending component ids. -/
  componentSetCounter : HashMap (List ℕ) ℕ
  /-- Archetype ids by tuple type. -/
  archetypeCounter : HashMap TArchetype ℕ
  /-- Where entities go that gain components. -/
  addEdges : HashMap ArchetypeEdgeKey ArchetypeEdge
  /-- Where entities go that lose components. -/
  removeEdges : HashMap ArchetypeEdgeKey ArchetypeEdge
  /-- The version of the archetype registry. -/
  globalArchetypeVersion : SafeCounter
  /-- How often the registry's storage has moved. -/
  relocations : ℕ
  /-- The tick that changes are stamped with. -/
  tick : ChangedTick
  /-- The baseline of the next query outside a schedule. -/
  lastQueryTick : ChangedTick
  /-- Whether there are threads to run jobs on. -/
  hasExecutor : Bool
  /-- The workers, by thread. -/
  workerSpecs : SequenceValueHashMap ℕ (WorkerSpec V)
  /-- The slots of the entities. -/
  entityAllocator : EntityAllocator
  /-- Whether systems run in parallel, so that commands are queued. -/
  inParallelCompute : Bool
  /-- The values dropped by operations that did not store them. -/
  dropped : List (StorageType×V)

/-- The number of values of a `usize`, minus one. -/
def usizeMax : ℕ := usizeRange-1

/-- No vector holds more elements than an `isize` counts. -/
def vecCapacity : ℕ := usizeRange/2-1

/-- `World::default`. -/
def World.new {V : Type} (runtime : Runtime) : World V where
  runtime := runtime
  archetypes := .empty
  componentCounter := .empty
  queryCounter := .empty
  componentSetCounter := ∅
  archetypeCounter := ∅
  addEdges := ∅
  removeEdges := ∅
  globalArchetypeVersion := .new 1 (usizeMax-1)
  relocations := 0
  tick := 1
  lastQueryTick := 0
  hasExecutor := false
  workerSpecs := .empty
  entityAllocator := .new
  inParallelCompute := false
  dropped := []

variable {V : Type}

/-- A call that works on the world and may fault. -/
abbrev Call (V α : Type) := Faulting (World V) Fault α

/-- Work on the slots. -/
def onAllocator {α : Type} (x : Faulting EntityAllocator Fault α) : Call V α :=
  focus (fun w => some w.entityAllocator) (fun a w => { w with entityAllocator := a })
    .undefinedBehaviour x

/-- `archetypes.get(id).unwrap()`. -/
def getArchetype (archId : ℕ) : Call V (ArchetypeSpec V) := do
  let w ← getState
  match w.archetypes.get archId with
  | some spec => return spec
  | none => fault (.panic .unwrapFailed)

/-- Work on the rows of one archetype, with its layout at hand. -/
def onArchetype {α : Type} (archId : ℕ) (x : ChunkLayout → Faulting (Archetype V) Fault α) :
    Call V α := do
  let spec ← getArchetype archId
  focus (fun w => (w.archetypes.get archId).map ArchetypeSpec.arch)
    (fun a w => { w with
      archetypes := w.archetypes.modify archId (fun spec => { spec with arch := a }) })
    (.panic .unwrapFailed) (x spec.layout)

/-- Drop a bundle that was handed over when the call faults. -/
def consuming {α : Type} (val : Bundle V) (x : Call V α) : Call V α :=
  onFault (fun w => { w with dropped := w.dropped++val.drops }) x

/-- Handle the error a call returns; a panic passes through. -/
def onErr {α : Type} (x : Call V α) (handler : XynokEcsError → Call V α) : Call V α :=
  handle x fun
    | .err e => handler e
    | other => fault other

theorem onErr_ok {α : Type} {x : Call V α} {handler : XynokEcsError → Call V α} {w w' : World V}
    {a : α} (h : x w=(.ok a,w')) : onErr x handler w=(.ok a,w') := by
  unfold onErr handle
  rw [h]

theorem onErr_err {α : Type} {x : Call V α} {handler : XynokEcsError → Call V α} {w w' : World V}
    {err : XynokEcsError} (h : x w=(.error (.err err),w')) : onErr x handler w=handler err w' := by
  unfold onErr handle
  rw [h]

/-- `normalize_set`: sorted, without repetition. -/
def normalizeSet (set : List ℕ) : List ℕ := (set.insertionSort (· ≤ ·)).dedup

/-- `check_no_duplicate_component`, looking back at the types seen before. -/
def checkNoDuplicateComponent : List StorageType → List StorageType → Except XynokEcsError Unit
  | _,[] => .ok ()
  | earlier,t::rest =>
    if t∈earlier then .error (.duplicateComponentInArchetype t)
    else checkNoDuplicateComponent (t::earlier) rest

/-- Register the components of an archetype type and collect their ids. -/
def registerComponents : List ComponentDescriptor → ComponentSpecs → ComponentSpecs×List ℕ
  | [],specs => (specs,[])
  | des::rest,specs =>
    let r := specs.getOrInsertWith des.storageTypeId des
    let out := registerComponents rest r.1
    (out.1,r.2::out.2)

/-- `structure_changed`. -/
def structureChanged : Call V Unit :=
  modifyState (fun w => { w with globalArchetypeVersion := w.globalArchetypeVersion.increase })

/-- `register_archetype_spec`: the one place an archetype id is handed out. -/
def registerArchetypeSpec (componentSet : List ℕ) (spec : ArchetypeSpec V) : Call V ℕ := do
  let w ← getState
  let archId := w.archetypes.len
  if archId≥vecCapacity then fault (.panic .capacityOverflow)
  else do
    modifyState (fun w => { w with
      archetypes := (w.archetypes.insert archId spec).1
      relocations := w.relocations+(w.runtime.relocates archId).toNat
      componentSetCounter := w.componentSetCounter.insert componentSet archId })
    structureChanged
    return archId

/-- `ArchetypeKind`. -/
inductive ArchetypeKind
  | chunked (cfg : ArchetypeCfg)
  | singleton
deriving DecidableEq

/-- `DEFAULT_ARCHETYPE_CFG`. -/
def defaultArchetypeCfg : ArchetypeCfg := ⟨defaultChunkSizeInByte,true⟩

/-- `create_archetype`: lay out the components of an archetype type. -/
def createArchetype (T : TArchetype) (kind : ArchetypeKind) : Call V (ArchetypeSpec V) := do
  let w ← getState
  match kind with
  | .chunked cfg =>
    match ChunkLayout.new w.componentCounter T.descriptors cfg.chunkSizeInByte with
    | .ok layout => return ⟨.typeName T,.regular,layout,cfg.allowStructureChange⟩
    | .error e => fault (.panic (.createArchetypeFailed T e))
  | .singleton =>
    match ChunkLayout.newFitted w.componentCounter T.descriptors with
    | .ok layout => return ⟨.typeName T,.singleton,layout,false⟩
    | .error e => fault (.panic (.createArchetypeFailed T e))

/-- Remember the archetype of an archetype type. -/
def rememberArchetype (T : TArchetype) (archId : ℕ) : Call V Unit :=
  modifyState (fun w => { w with archetypeCounter := w.archetypeCounter.insert T archId })

/-- `create_archetype_id`: runs once for an archetype type. -/
def createArchetypeId (T : TArchetype) (kind : ArchetypeKind) : Call V ℕ :=
  match checkNoDuplicateComponent [] T.storageTypes with
  | .error e => fault (.panic (.createArchetypeFailed T e))
  | .ok () => do
    let w ← getState
    let registered := registerComponents T.descriptors w.componentCounter
    modifyState (fun w => { w with componentCounter := registered.1 })
    let componentSet := normalizeSet registered.2
    match w.componentSetCounter.lookup componentSet with
    | some archId => do
      rememberArchetype T archId
      return archId
    | none => do
      let spec ← createArchetype T kind
      let archId ← registerArchetypeSpec componentSet spec
      rememberArchetype T archId
      return archId

/-- The archetype of an archetype type, created as the given kind when the world
sees the type for the first time. -/
def getOrCreateArchetypeAs (T : TArchetype) (kind : ArchetypeKind) : Call V ℕ := do
  let w ← getState
  match w.archetypeCounter.lookup T with
  | some archId => return archId
  | none => createArchetypeId T kind

/-- `get_or_create_archetype_id`. -/
def getOrCreateArchetypeId (T : TArchetype) : Call V ℕ :=
  getOrCreateArchetypeAs T (.chunked defaultArchetypeCfg)

/-- The storage types of an archetype in the order its map hands them out. -/
def World.componentKeys (w : World V) (archId : ℕ) (layout : ChunkLayout) : List StorageType :=
  w.runtime.keyOrder archId layout.componentColDescriptors.keys

/-- The ids of registered storage types, `none` when one is not registered. -/
def componentIds (specs : ComponentSpecs) (ts : List StorageType) : Option (List ℕ) :=
  ts.mapM specs.indexOf

/-- The ids of an archetype's components, as `append_archetype_component_id_of_to`
and `retain_archetype_component_id_of_to` go through them. -/
def archetypeComponentIds (archId : ℕ) : Call V (List ℕ) := do
  let w ← getState
  match w.archetypes.get archId with
  | none => fault (.panic (.archetypeNotFound archId))
  | some spec => match componentIds w.componentCounter (w.componentKeys archId spec.layout) with
    | some ids => return ids
    | none => fault (.panic (.unregisteredComponent archId))

/-- `append_component_descriptor_to`: the registered descriptors of the types not
taken yet. -/
def appendComponentDescriptor (specs : ComponentSpecs) :
    List StorageType → List ComponentDescriptor → Except XynokEcsError (List ComponentDescriptor)
  | [],dst => .ok dst
  | t::rest,dst =>
    if t∈dst.map ComponentDescriptor.storageTypeId then appendComponentDescriptor specs rest dst
    else match specs.get t with
      | some des => appendComponentDescriptor specs rest (dst++[des])
      | none => .error .componentSpecIsNotRegistered

/-- The derived archetype over a list of descriptors, with the defaults a
derived archetype gets. -/
def derivedArchetype (specs : ComponentSpecs) (components : List ComponentDescriptor) :
    Except XynokEcsError (ArchetypeSpec V) :=
  match ChunkLayout.new specs components defaultChunkSizeInByte with
  | .ok layout =>
    .ok ⟨.fromComponents (components.map ComponentDescriptor.storageTypeId),.regular,layout,true⟩
  | .error e => .error e

/-- `new_from_pair`: every component of `a`, then those of `b`. -/
def newFromPair (specs : ComponentSpecs) (aKeys bKeys : List StorageType) :
    Except XynokEcsError (ArchetypeSpec V) := do
  let components ← appendComponentDescriptor specs aKeys []
  let components ← appendComponentDescriptor specs bKeys components
  derivedArchetype specs components

/-- `new_from_a_exclude_b_components`: the components of `a` that `b` lacks. -/
def newFromAExcludeB (specs : ComponentSpecs) (aKeys : List StorageType) (b : ChunkLayout) :
    Except XynokEcsError (ArchetypeSpec V) := do
  let components ← appendComponentDescriptor specs
    (aKeys.filter (fun t => t∉b.componentColDescriptors)) []
  derivedArchetype specs components

/-- `create_archetype_id_from_set_of` and its sibling for a difference: build the
archetype derived from two others and register it. -/
def createDerivedArchetypeId (isRemove : Bool) (componentSet : List ℕ) (aArchId bArchId : ℕ) :
    Call V ℕ := do
  let a ← getArchetype aArchId
  let b ← getArchetype bArchId
  let w ← getState
  let derived := match isRemove with
    | true => newFromAExcludeB w.componentCounter (w.componentKeys aArchId a.layout) b.layout
    | false => newFromPair w.componentCounter (w.componentKeys aArchId a.layout)
      (w.componentKeys bArchId b.layout)
  match derived with
  | .ok spec => registerArchetypeSpec componentSet spec
  | .error e => fault (.panic (.display e))

/-- The cache of one kind of structure change. -/
def World.edges (w : World V) : Bool → HashMap ArchetypeEdgeKey ArchetypeEdge
  | true => w.removeEdges
  | false => w.addEdges

/-- `insert_edge`: plan the migration and cache the edge. -/
def insertEdge (isRemove : Bool) (key : ArchetypeEdgeKey) (dstArchId : ℕ) : Call V Unit := do
  let src ← getArchetype key.srcArchId
  let dst ← getArchetype dstArchId
  let edge : ArchetypeEdge := ⟨dstArchId,MigrationPlan.new src.layout dst.layout⟩
  match isRemove with
  | true => modifyState (fun w => { w with removeEdges := w.removeEdges.insert key edge })
  | false => modifyState (fun w => { w with addEdges := w.addEdges.insert key edge })

/-- The archetype of a set of component ids, derived from two others when there
is none yet. -/
def getOrCreateDerived (isRemove : Bool) (componentSet : List ℕ) (aArchId bArchId : ℕ) :
    Call V ℕ := do
  let w ← getState
  match w.componentSetCounter.lookup componentSet with
  | some archId => return archId
  | none => createDerivedArchetypeId isRemove componentSet aArchId bArchId

/-- `get_or_create_add_edge` and `get_or_create_remove_edge`: the archetype an
entity lands in, the edge left in the cache. The two differ in how the ids of
the second archetype change the set. -/
def getOrCreateEdge (isRemove : Bool) (key : ArchetypeEdgeKey) : Call V ℕ := do
  let w ← getState
  match (w.edges isRemove).lookup key with
  | some edge => return edge.dstArchId
  | none => do
    let bArchId ← getOrCreateArchetypeId key.archetypeTypeId
    let aIds ← archetypeComponentIds key.srcArchId
    let bIds ← archetypeComponentIds bArchId
    let componentSet := normalizeSet (match isRemove with
      | true => aIds.filter (fun id => id∉bIds)
      | false => aIds++bIds)
    let dstArchId ← getOrCreateDerived isRemove componentSet key.srcArchId bArchId
    insertEdge isRemove key dstArchId
    return dstArchId

/-- `contains_any_component_of`. -/
def containsAnyComponentOf (a b : ChunkLayout) : Bool :=
  a.componentColDescriptors.keys.any (fun t => t∈b.componentColDescriptors)

/-- `contains_all_components_of`. -/
def containsAllComponentsOf (a b : ChunkLayout) : Bool :=
  b.componentColDescriptors.keys.all (fun t => t∈a.componentColDescriptors)

/-- `check_structure_change`: both archetypes must allow it. -/
def checkStructureChange (T : TArchetype) (e : Entity) (srcArchId dstArchId : ℕ) : Call V Unit := do
  let src ← getArchetype srcArchId
  let dst ← getArchetype dstArchId
  if !src.allowStructureChange || !dst.allowStructureChange then
    fault (.err (.structureChangeNotAllowed e.idx e.version T))
  else return ()

end XynokEcs.WorldState
