import XynokEcs.ArchetypeStore

/-!
# Allocation of entity slots

A slot is handed out as a handle with the next version, attached to a row,
and given back with its version when the entity goes. A slot whose versions are
used up is retired. The slot of a handle says where the entity's row is.
-/

namespace XynokEcs.EntityAllocation

open ComponentTypes EntityHandle FaultingState ChunkRows ArchetypeStore

/-- One slot: where its entity is, with which version, if it has one. -/
structure EntitySpec where
  /-- The archetype of the entity. -/
  archId : ℕ
  /-- Its chunk there. -/
  chunkIdx : ℕ
  /-- Its row there. -/
  idxInChunk : ℕ
  /-- The version a live handle to the slot has. -/
  version : ℕ
  /-- Whether there is an entity. -/
  hasValue : Bool
deriving DecidableEq

/-- `new_empty_slot`. -/
def EntitySpec.newEmptySlot (version : ℕ) : EntitySpec := ⟨0,0,0,version,false⟩

/-- The slots, the queue of free ones and the number of retired ones. -/
structure EntityAllocator where
  /-- The slots, by index. -/
  entities : List EntitySpec
  /-- Free slots, first in first out. -/
  freeEntities : List ℕ
  /-- How many slots ran out of versions. -/
  retiredEntitySlots : ℕ
deriving DecidableEq

/-- `EntityAllocator::new`. -/
def EntityAllocator.new : EntityAllocator := ⟨[],[],0⟩

/-- Where a row sits in the world. -/
structure RowLoc where
  /-- The archetype of the row. -/
  archId : ℕ
  /-- Where it is in the archetype. -/
  indices : EntityInChunkIndices
deriving DecidableEq

/-- Where the slot says its entity is. -/
def EntitySpec.loc (spec : EntitySpec) : RowLoc := ⟨spec.archId,⟨spec.chunkIdx,spec.idxInChunk⟩⟩

/-- `new_entity_unlocked`: the oldest free slot with its next version, or a new
slot with the initial one. -/
def newEntity : Faulting EntityAllocator Fault Entity := fun a => match a.freeEntities with
  | freeIdx::rest =>
    let popped := { a with freeEntities := rest }
    match a.entities[freeIdx]? with
    | none => (.error .undefinedBehaviour,popped)
    | some oldSlot => match Entity.new freeIdx (oldSlot.version+1) with
      | .ok e => (.ok e,popped)
      | .error err => (.error (.err err),popped)
  | [] => match Entity.new a.entities.length Entity.initializeVersion with
    | .ok e => (.ok e,{ a with entities := a.entities++[EntitySpec.newEmptySlot e.version] })
    | .error err => (.error (.err err),a)

/-- A slot can be taken: one is free, or a new one still has an index. -/
def EntityAllocator.slotAvailable (a : EntityAllocator) : Bool :=
  !a.freeEntities.isEmpty || a.entities.length≤Entity.maxIdx

theorem newEntity_available {a a' : EntityAllocator} {e : Entity} (h : newEntity a=(.ok e,a')) :
    a.slotAvailable=true := by
  unfold newEntity at h
  unfold EntityAllocator.slotAvailable
  split at h
  · rename_i hf
    rw [hf]
    rfl
  · split at h
    · rename_i he
      have hle := (Entity.new_isOk_iff.mp ⟨_,he⟩).1
      rw [Bool.or_eq_true]
      exact .inr (decide_eq_true hle)
    · cases h

/-- An allocator next to the queue a worker fills from it. -/
structure Allocating where
  /-- The allocator. -/
  allocator : EntityAllocator
  /-- The handles held ahead so far. -/
  dst : List Entity

/-- The loop of `pre_allocate_entities`. -/
def preAllocateLoop : ℕ → Faulting Allocating Fault Unit
  | 0 => return ()
  | counter+1 => do
    let newE ← focus (fun s => some s.allocator) (fun a s => { s with allocator := a })
      .undefinedBehaviour newEntity
    modifyState (fun s => { s with dst := s.dst++[newE] })
    preAllocateLoop counter

/-- `pre_allocate_entities`. -/
def preAllocateEntities (amount : ℕ) : Faulting Allocating Fault Unit :=
  if amount<1 then fault (.err .preAllocateEntityAmountMustGreaterThanZero)
  else preAllocateLoop amount

/-- `update_entity_indices`: the moved row's slot follows it. -/
def updateEntityIndices (swappedRow : SwappedRow) : Faulting EntityAllocator Fault Unit := fun a =>
  match a.entities[swappedRow.e.idx]? with
  | none => (.error (.panic (.swappedNotFound swappedRow.e.idx swappedRow.e.version)),a)
  | some spec => (.ok (),{ a with
      entities := a.entities.set swappedRow.e.idx { spec with idxInChunk := swappedRow.toRow } })

/-- `update_entity_spec`: attach the handle's slot to a row. -/
def updateEntitySpec (e : Entity) (archId : ℕ) (indices : EntityInChunkIndices) :
    Faulting EntityAllocator Fault Unit := fun a =>
  match a.entities[e.idx]? with
  | none => (.error .undefinedBehaviour,a)
  | some _ => (.ok (),{ a with
      entities := a.entities.set e.idx
        ⟨archId,indices.chunkIdx,indices.idxInChunk,e.version,true⟩ })

/-- `erase_entity`: empty the slot and queue it, or retire it when its versions
are used up. Only the index of the handle is looked at. -/
def eraseEntity (e : Entity) : Faulting EntityAllocator Fault Unit := fun a =>
  match a.entities[e.idx]? with
  | none => (.error .undefinedBehaviour,a)
  | some spec =>
    let erased := { a with entities := a.entities.set e.idx { spec with hasValue := false } }
    (.ok (),if spec.version<Entity.maxVersion
      then { erased with freeEntities := a.freeEntities++[e.idx] }
      else { erased with retiredEntitySlots := a.retiredEntitySlots+1 })

/-- `exists`: the slot has a value and the handle's version. -/
def EntityAllocator.entityExists (a : EntityAllocator) (e : Entity) : Bool :=
  match a.entities[e.idx]? with
  | none => false
  | some spec => spec.hasValue && spec.version=e.version

/-- Where a handle's row is, when the handle exists. -/
def EntityAllocator.locate (a : EntityAllocator) (e : Entity) : Option RowLoc :=
  match a.entities[e.idx]? with
  | none => none
  | some spec => if spec.hasValue=true ∧ spec.version=e.version then some spec.loc else none

theorem entityExists_eq (a : EntityAllocator) (e : Entity) :
    a.entityExists e=(a.locate e).isSome := by
  unfold EntityAllocator.entityExists EntityAllocator.locate
  cases a.entities[e.idx]? with
  | none => rfl
  | some spec =>
    dsimp only
    cases spec.hasValue <;> by_cases h : spec.version=e.version <;> simp [h]

end XynokEcs.EntityAllocation
