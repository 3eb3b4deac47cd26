import XynokEcs.WorldState

/-!
# The calls of the world

Registering archetypes, creating and destroying entities, and adding, merging
and removing components. The panicking form of a call raises what its sibling
returns as an error. A call leaves its state behind on every exit.
-/

namespace XynokEcs.WorldCalls

open ComponentTypes EntityHandle SequenceValueMap ChunkLayouts FaultingState ChunkRows
  ArchetypeStore QueryShapes EntityAllocation WorldState

variable {V : Type}

/-- `try_register_archetype`. -/
def tryRegisterArchetype (T : TArchetype) (cfg : ArchetypeCfg) : Call V Unit := do
  orErr cfg.validate
  let archId ← getOrCreateArchetypeAs T (.chunked cfg)
  let spec ← getArchetype archId
  if spec.arch.isSingleton then fault (.err (.archetypeIsSingleton spec.name))
  else if spec.layout.chunkSizeInByte≠cfg.chunkSizeInByte then
    fault (.err (.archetypeAlreadyCreatedWithDifferentChunkSize T spec.layout.chunkSizeInByte
      cfg.chunkSizeInByte))
  else if spec.allowStructureChange≠cfg.allowStructureChange then
    fault (.err (.archetypeAlreadyCreatedWithDifferentStructureChange T spec.allowStructureChange
      cfg.allowStructureChange))
  else return ()

/-- `get_or_create_singleton_archetype_id`. -/
def getOrCreateSingletonArchetypeId (T : TArchetype) : Call V ℕ := do
  let archId ← getOrCreateArchetypeAs T .singleton
  let spec ← getArchetype archId
  if !spec.arch.isSingleton then fault (.err (.archetypeIsNotSingleton spec.name))
  else return archId

/-- `try_register_singleton`. -/
def tryRegisterSingleton (T : TArchetype) : Call V Unit := do
  let _ ← getOrCreateSingletonArchetypeId T
  return ()

/-- `try_create_singleton`: the slot is given back when the push fails. -/
def tryCreateSingleton [Inhabited V] (val : Bundle V) : Call V Entity := consuming val (do
  let archId ← getOrCreateSingletonArchetypeId val.ty
  let spec ← getArchetype archId
  if !spec.arch.canTakeARow then fault (.err (.singletonAlreadyExists spec.name))
  else do
    let newE ← onAllocator newEntity
    let w ← getState
    let indices ← onErr (onArchetype archId (fun layout => push layout newE val w.tick))
      (fun err => do
        onAllocator (eraseEntity newE)
        fault (.err err))
    onAllocator (updateEntitySpec newE archId indices)
    return newE)

/-- `create_components_for`: attach a slot that was taken before to a row. -/
def createComponentsFor [Inhabited V] (newE : Entity) (val : Bundle V) : Call V Unit :=
  consuming val (do
    let archId ← getOrCreateArchetypeId val.ty
    let spec ← getArchetype archId
    if !spec.arch.canTakeARow then fault (.err (.singletonAlreadyExists spec.name))
    else do
      let w ← getState
      let indices ← onArchetype archId (fun layout => push layout newE val w.tick)
      onAllocator (updateEntitySpec newE archId indices))

/-- `try_create`. -/
def tryCreate [Inhabited V] (val : Bundle V) : Call V Entity := do
  let newE ← consuming val (onAllocator newEntity)
  createComponentsFor newE val
  return newE

/-- `exists`. -/
def World.entityExists (w : World V) (e : Entity) : Bool := w.entityAllocator.entityExists e

/-- The slot of an entity that exists, or the error for one that does not. -/
def withExisting {α : Type} (e : Entity) (f : EntitySpec → Call V α) : Call V α := do
  let w ← getState
  if !World.entityExists w e then fault (.err (.entityDoesNotExist e.idx e.version))
  else match w.entityAllocator.entities[e.idx]? with
    | some spec => f spec
    | none => fault .undefinedBehaviour

/-- Let the slot of a moved row follow it. -/
def followSwapped : Option SwappedRow → Call V Unit
  | some swappedRow => onAllocator (updateEntityIndices swappedRow)
  | none => return ()

/-- `try_destroy`. -/
def tryDestroy (e : Entity) : Call V Unit := withExisting e fun spec => do
  let swappedRow ← onArchetype spec.archId
    (fun layout => removeAt layout spec.chunkIdx spec.idxInChunk)
  followSwapped swappedRow
  onAllocator (eraseEntity e)

/-- `archetypes.index_of(id).unwrap()`. -/
def archetypeIndex (archId : ℕ) : Call V ℕ := do
  let w ← getState
  match w.archetypes.indexOf archId with
  | some i => return i
  | none => fault (.panic .unwrapFailed)

/-- Put the rows of two archetypes back. -/
def putPair (srcIdx targetIdx : ℕ) (p : ArchetypePair V) (w : World V) : World V :=
  { w with
    archetypes := (w.archetypes.modifyAt srcIdx fun spec => { spec with arch := p.src }).modifyAt
      targetIdx fun spec => { spec with arch := p.dst } }

/-- `get_disjoint_mut(..).unwrap()`: work on two archetypes at once, which must
be different ones. -/
def onArchetypePair {α : Type} (srcIdx targetIdx : ℕ)
    (x : ChunkLayout → ChunkLayout → Faulting (ArchetypePair V) Fault α) : Call V α :=
  fun w => match w.archetypes.valueAt srcIdx,w.archetypes.valueAt targetIdx with
    | some src,some target =>
      if srcIdx=targetIdx then (.error (.panic .unwrapFailed),w)
      else focus (fun _ => some ⟨target.arch,src.arch⟩) (putPair srcIdx targetIdx)
        .undefinedBehaviour (x src.layout target.layout) w
    | _,_ => (.error (.panic .unwrapFailed),w)

/-- Move the row of an entity along a cached edge: look the edge and both
archetypes up, move, let the swapped row's slot follow and attach the entity's
slot to the new row. -/
def moveRow {α : Type} (isRemove : Bool) (e : Entity) (spec : EntitySpec) (key : ArchetypeEdgeKey)
    (targetArchId : ℕ)
    (x : MigrationPlan → ChunkLayout → ChunkLayout → Faulting (ArchetypePair V) Fault (ResultTake×α)) :
    Call V α := do
  let srcIdx ← archetypeIndex spec.archId
  let targetIdx ← archetypeIndex targetArchId
  let w ← getState
  match (w.edges isRemove).lookup key with
  | none => fault (.panic .unwrapFailed)
  | some edge => do
    let result ← onArchetypePair srcIdx targetIdx (x edge.migration)
    followSwapped result.1.swappedE
    onAllocator (updateEntitySpec e targetArchId result.1.newIndicesTook)
    return result.2

/-- The move both `try_add_component` and `try_merge_component` end in. -/
def moveAndWrite [Inhabited V] (e : Entity) (spec : EntitySpec) (key : ArchetypeEdgeKey)
    (targetArchId : ℕ) (val : Bundle V) (tick : ChangedTick) : Call V Unit :=
  moveRow false e spec key targetArchId fun migration srcLayout dstLayout => do
    let result ← takeAndWriteFrom ⟨spec.chunkIdx,spec.idxInChunk⟩ srcLayout dstLayout migration val tick
    return (result,())

/-- `try_add_component`. -/
def tryAddComponent [Inhabited V] (e : Entity) (val : Bundle V) : Call V Unit :=
  consuming val (withExisting e fun spec => do
    let bArchId ← getOrCreateArchetypeId val.ty
    let a ← getArchetype spec.archId
    let b ← getArchetype bArchId
    if containsAnyComponentOf a.layout b.layout then
      fault (.err (.componentAlreadyExists e.idx e.version val.ty))
    else do
      let key : ArchetypeEdgeKey := ⟨spec.archId,val.ty⟩
      let targetArchId ← getOrCreateEdge false key
      checkStructureChange val.ty e spec.archId targetArchId
      let w ← getState
      moveAndWrite e spec key targetArchId val w.tick)

/-- `try_merge_component`. -/
def tryMergeComponent [Inhabited V] (e : Entity) (val : Bundle V) : Call V Unit :=
  consuming val (withExisting e fun spec => do
    let key : ArchetypeEdgeKey := ⟨spec.archId,val.ty⟩
    let targetArchId ← getOrCreateEdge false key
    let w ← getState
    if targetArchId=spec.archId then
      onArchetype spec.archId (fun layout =>
        replaceRowAt layout spec.chunkIdx spec.idxInChunk val w.tick)
    else do
      checkStructureChange val.ty e spec.archId targetArchId
      moveAndWrite e spec key targetArchId val w.tick)

/-- `try_remove_component`. -/
def tryRemoveComponent [Inhabited V] (T : TArchetype) (e : Entity) : Call V (Bundle V) :=
  withExisting e fun spec => do
    let bArchId ← getOrCreateArchetypeId T
    let a ← getArchetype spec.archId
    let b ← getArchetype bArchId
    if !containsAllComponentsOf a.layout b.layout then
      fault (.err (.componentNotFound e.idx e.version T))
    else do
      let key : ArchetypeEdgeKey := ⟨spec.archId,T⟩
      let targetArchId ← getOrCreateEdge true key
      checkStructureChange T e spec.archId targetArchId
      moveRow true e spec key targetArchId fun migration srcLayout dstLayout =>
        takeAndRemoveFrom T ⟨spec.chunkIdx,spec.idxInChunk⟩ srcLayout dstLayout migration

/-- How a panicking form raises the error of its sibling. -/
def raiseAs {α : Type} (f : XynokEcsError → Panic) (x : Call V α) : Call V α :=
  mapFault (fun
    | .err e => .panic (f e)
    | other => other) x

/-- `register_archetype`. -/
def registerArchetype (T : TArchetype) (cfg : ArchetypeCfg) : Call V Unit :=
  raiseAs (.registerArchetypeFailed T) (tryRegisterArchetype T cfg)

/-- `register_singleton`. -/
def registerSingleton (T : TArchetype) : Call V Unit :=
  raiseAs (.registerSingletonFailed T) (tryRegisterSingleton T)

/-- `create_singleton`. -/
def createSingleton [Inhabited V] (val : Bundle V) : Call V Entity :=
  raiseAs (.createSingletonFailed val.ty) (tryCreateSingleton val)

/-- `create`. -/
def create [Inhabited V] (val : Bundle V) : Call V Entity := raiseAs .display (tryCreate val)

/-- `destroy`. -/
def destroy (e : Entity) : Call V Unit := raiseAs .display (tryDestroy e)

/-- `add_component`. -/
def addComponent [Inhabited V] (e : Entity) (val : Bundle V) : Call V Unit :=
  raiseAs .display (tryAddComponent e val)

/-- `merge_component`. -/
def mergeComponent [Inhabited V] (e : Entity) (val : Bundle V) : Call V Unit :=
  raiseAs .display (tryMergeComponent e val)

/-- `remove_component`. -/
def removeComponent [Inhabited V] (T : TArchetype) (e : Entity) : Call V (Bundle V) :=
  raiseAs .display (tryRemoveComponent T e)

/-- `advance_tick`: the next tick, wrapping. -/
def advanceTick : Call V ChangedTick := do
  modifyState (fun w => { w with tick := w.tick+1 })
  let w ← getState
  return w.tick

/-- `capture_current_tick`. -/
def captureCurrentTick : Call V ChangedTick := do
  let w ← getState
  let _ ← advanceTick
  return w.tick

end XynokEcs.WorldCalls
