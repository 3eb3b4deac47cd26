import XynokEcs.ActionEffects

/-!
# Live slots and stored rows correspond

After any calls of the world, failed ones included, a live slot points to the row
that carries its handle and every stored row is pointed to by one live slot. The
errors and panics of `try_destroy` about missing rows are therefore unreachable.
-/

namespace XynokEcs.SlotRows

open ComponentTypes EntityHandle SequenceValueMap FaultingState ChunkRows ArchetypeStore
  EntityAllocation SlotInvariants WorldState WorldCalls RegistryInvariants StoreInvariants
  StoreSteps RowDirectory WorkerQueues ActionRuns WorldRuns ActionEffects

variable {V : Type} {w : World V}

/-- A handle for every slot the table has. -/
theorem SlotsInv.handle {a : EntityAllocator} {reserved : List Entity} (h : SlotsInv a reserved)
    {i : ℕ} {slot : EntitySpec} (hs : a.entities[i]?=some slot) :
    ∃ e : Entity,e.idx=i ∧ e.version=slot.version := by
  obtain ⟨hlow,hhigh⟩ := h.versions i slot hs
  have hi : i<a.entities.length := (List.getElem?_eq_some_iff.mp hs).1
  have hcap := h.capacity
  obtain ⟨e,he⟩ := Entity.new_isOk_iff.mpr ⟨(by omega : i≤Entity.maxIdx),hhigh⟩
  obtain ⟨hidx,hver⟩ := Entity.new_fields he
  exact ⟨e,hidx,by omega⟩

/-- The row a slot points to. -/
def StoredAt (w : World V) (slot : EntitySpec) (e : Entity) : Prop :=
  ∃ (spec : ArchetypeSpec V) (c : Chunk V),w.archetypes.get slot.archId=some spec ∧
    spec.arch.chunks[slot.chunkIdx]?=some c ∧ slot.idxInChunk<c.len ∧ c.entities slot.idxInChunk=e

/-- Live slots and stored rows correspond. -/
structure SlotBijection (w : World V) : Prop where
  /-- A live slot has its entity in the row it names. -/
  slot_row : ∀ (i : ℕ) slot,w.entityAllocator.entities[i]?=some slot → slot.hasValue=true →
    ∃ e,e.idx=i ∧ e.version=slot.version ∧ StoredAt w slot e
  /-- A row in use has one live slot that names it. -/
  row_slot : ∀ (archId : ℕ) (spec : ArchetypeSpec V),w.archetypes.get archId=some spec →
    ∀ (chunkIdx : ℕ) (c : Chunk V),spec.arch.chunks[chunkIdx]?=some c → ∀ row<c.len,
      ∃! i : ℕ,∃ slot,w.entityAllocator.entities[i]?=some slot ∧ slot.hasValue=true ∧
        slot.loc=⟨archId,⟨chunkIdx,row⟩⟩

theorem StoreInv.bijection {D : Prop} {reserved : List Entity} (h : StoreInv D reserved w) :
    SlotBijection w where
  slot_row := by
    intro i slot hs hv
    obtain ⟨e,rfl,hver⟩ := SlotsInv.handle h.slots hs
    have hl : w.entityAllocator.locate e=some slot.loc :=
      locate_eq_some.mpr ⟨slot,hs,hv,hver.symm,rfl⟩
    obtain ⟨slot',spec,c,hf⟩ := StoreInv.found h hl
    have he : slot'=slot := Option.some.inj (hf.stored.symm.trans hs)
    subst he
    refine ⟨e,rfl,hver,spec,c,?_,hf.chunk,hf.lt,hf.entity⟩
    rw [h.registry.get_eq]
    exact hf.archetype
  row_slot := by
    intro archId spec hv chunkIdx c hc row hr
    rw [h.registry.get_eq] at hv
    have hrow := row_of_chunk hv hc hr
    obtain ⟨slot,hs,hval,hver,hloc⟩ := locate_eq_some.mp (h.consistent.locate hrow)
    refine ⟨_,⟨slot,hs,hval,hloc⟩,?_⟩
    rintro j ⟨slot',hs',hval',hloc'⟩
    obtain ⟨e,rfl,hver'⟩ := SlotsInv.handle h.slots hs'
    have hl : w.entityAllocator.locate e=some slot'.loc :=
      locate_eq_some.mpr ⟨slot',hs',hval',hver'.symm,rfl⟩
    rw [hloc'] at hl
    exact congrArg Entity.idx (h.consistent.key_unique hl (h.consistent.locate hrow))

/-- `try_destroy` fails only with the error for an entity that does not exist. -/
def DestroysCleanly (w : World V) : Prop := ∀ e,if World.entityExists w e
  then ∃ w',tryDestroy e w=(.ok (),w')
  else tryDestroy e w=(.error (.err (.entityDoesNotExist e.idx e.version)),w)

theorem StoreInv.destroysCleanly {D : Prop} {reserved : List Entity} (h : StoreInv D reserved w) :
    DestroysCleanly w := by
  intro e
  rw [World.entityExists,entityExists_eq]
  cases hl : w.entityAllocator.locate e with
  | none => exact tryDestroy_missing hl
  | some l =>
    obtain ⟨w',hrun,-⟩ := tryDestroy_found h hl
    exact ⟨w',hrun⟩

variable [Inhabited V]

/-- A sequence of calls of the world, each in one of its forms. -/
def callRun (calls : List (CallForm×WorldCall V)) (w : World V) : World V :=
  runAll Action.step (calls.map fun c => .world c.1 c.2) w

theorem callRun_runInv (runtime : Runtime) (calls : List (CallForm×WorldCall V)) :
    RunInv False (callRun calls (World.new runtime)) := by
  have hproper : ∀ (calls : List (CallForm×WorldCall V)) (w : World V),
      Along Action.step (Proper False) (calls.map fun c => .world c.1 c.2) w := by
    intro calls
    induction calls with
    | nil => exact fun _ => trivial
    | cons c calls ih => exact fun w => ⟨⟨False.elim,trivial⟩,ih _⟩
  exact runInv_run (runInv_new False runtime) (hproper calls _)

/-- The correspondence holds after any calls, and `try_destroy` is clean there. -/
theorem slots_match_rows (runtime : Runtime) (calls : List (CallForm×WorldCall V)) :
    SlotBijection (callRun calls (World.new runtime)) ∧
      DestroysCleanly (callRun calls (World.new runtime)) :=
  have h := (callRun_runInv runtime calls).inv.store
  ⟨StoreInv.bijection h,StoreInv.destroysCleanly h⟩

end XynokEcs.SlotRows
