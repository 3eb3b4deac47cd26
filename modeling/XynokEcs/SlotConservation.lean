import XynokEcs.ActionEffects

/-!
# Entity slots are conserved

Every slot is live, free, retired or reserved, and only one of these. A create
takes its slot before it knows whether its archetype takes the row, and
`try_create` does not give the slot back when it does not: such a slot is lost.
No other action loses one.
-/

namespace XynokEcs.SlotConservation

open ComponentTypes EntityHandle FaultingState EntityAllocation SlotInvariants WorldState WorldCalls
  CommandBuffer StoreInvariants SlotEvents WorkerQueues ActionRuns WorldRuns ArchetypeHomes
  ActionEffects

variable {V : Type} {w w' : World V}

/-- What a slot can be. -/
inductive SlotClass
  /-- It holds an entity. -/
  | live
  /-- It waits in the free list. -/
  | free
  /-- Its versions are used up. -/
  | retired
  /-- A worker holds it ahead, or a queued create will attach it. -/
  | reserved
deriving DecidableEq

/-- The slot at an index is of a class. -/
def InClass (w : World V) (i : ℕ) (slot : EntitySpec) : SlotClass → Prop
  | .live => slot.hasValue=true
  | .free => i∈w.entityAllocator.freeEntities
  | .retired => slot.hasValue=false ∧ slot.version=Entity.maxVersion
  | .reserved => i∈(World.reserved w).map Entity.idx

/-- Every slot is of exactly one class, the free list and the reservations name
each slot once, and the retired slots are counted. -/
structure SlotsConserved (w : World V) : Prop where
  /-- Each slot is of one class. -/
  classified : ∀ (i : ℕ) slot,w.entityAllocator.entities[i]?=some slot → ∃! c,InClass w i slot c
  /-- The free list names a slot once. -/
  free_once : w.entityAllocator.freeEntities.Nodup
  /-- No two reserved handles are for one slot. -/
  reserved_once : ((World.reserved w).map Entity.idx).Nodup
  /-- Both name slots that are there. -/
  known : ∀ i,i∈w.entityAllocator.freeEntities ∨ i∈(World.reserved w).map Entity.idx →
    i<w.entityAllocator.entities.length
  /-- The counter says how many are retired. -/
  counted : w.entityAllocator.retiredEntitySlots=w.entityAllocator.entities.countP
    fun slot => !slot.hasValue && slot.version=Entity.maxVersion

theorem retired_iff {slot : EntitySpec} :
    retired slot=true ↔ slot.hasValue=false ∧ slot.version=Entity.maxVersion := by
  rw [retired,Bool.and_eq_true,decide_eq_true_iff,Bool.not_eq_true']

/-- A slot without an owner is in the free list or reserved, not both. -/
theorem reserved_class {reserved : List Entity} {a : EntityAllocator} (h : SlotsInv a reserved)
    {i : ℕ} {slot : EntitySpec} (hs : a.entities[i]?=some slot)
    (hm : i∈reserved.map Entity.idx) :
    i∉a.freeEntities ∧ slot.hasValue=false ∧ slot.version<Entity.maxVersion := by
  obtain ⟨e,he,rfl⟩ := List.mem_map.mp hm
  obtain ⟨hfree,slot',hs',hempty,hlt,-⟩ := h.reserved_slot e he
  rw [hs] at hs'
  cases hs'
  exact ⟨hfree,hempty,hlt⟩

theorem free_class {reserved : List Entity} {a : EntityAllocator} (h : SlotsInv a reserved)
    {i : ℕ} {slot : EntitySpec} (hs : a.entities[i]?=some slot) (hm : i∈a.freeEntities) :
    slot.hasValue=false ∧ slot.version<Entity.maxVersion := by
  obtain ⟨slot',hs',hempty,hlt⟩ := h.free_slot i hm
  rw [hs] at hs'
  cases hs'
  exact ⟨hempty,hlt⟩

/-- Coverage makes the classification exact: the classes exclude each other. -/
theorem conserved_classified (h : SlotsInv w.entityAllocator (World.reserved w))
    (hc : Conserved (World.slots w)) : SlotsConserved w where
  classified := by
    intro i slot hs
    have hfree := free_class h hs
    have hres := reserved_class h hs
    rcases hc.covered i slot hs with hv | hm | hm | hr
    · refine ⟨.live,hv,fun c hcl => ?_⟩
      cases c with
      | live => rfl
      | free => exact absurd hv (by rw [(hfree hcl).1]; exact Bool.false_ne_true)
      | retired => exact absurd hv (by rw [hcl.1]; exact Bool.false_ne_true)
      | reserved => exact absurd hv (by rw [(hres hcl).2.1]; exact Bool.false_ne_true)
    · refine ⟨.free,hm,fun c hcl => ?_⟩
      cases c with
      | live => exact absurd hcl (by rw [InClass,(hfree hm).1]; exact Bool.false_ne_true)
      | free => rfl
      | retired => exact absurd hcl.2 (Nat.ne_of_lt (hfree hm).2)
      | reserved => exact absurd hm (hres hcl).1
    · obtain ⟨hnot,hempty,hlt⟩ := hres hm
      refine ⟨.reserved,hm,fun c hcl => ?_⟩
      cases c with
      | live => exact absurd hcl (by rw [InClass,hempty]; exact Bool.false_ne_true)
      | free => exact absurd hcl hnot
      | retired => exact absurd hcl.2 (Nat.ne_of_lt hlt)
      | reserved => rfl
    · obtain ⟨hempty,hmax⟩ := retired_iff.mp hr
      refine ⟨.retired,⟨hempty,hmax⟩,fun c hcl => ?_⟩
      cases c with
      | live => exact absurd hcl (by rw [InClass,hempty]; exact Bool.false_ne_true)
      | free => exact absurd hmax (Nat.ne_of_lt (hfree hcl).2)
      | retired => rfl
      | reserved => exact absurd hmax (Nat.ne_of_lt (hres hcl).2.2)
  free_once := h.free_nodup
  reserved_once := h.reserved_nodup
  known := by
    rintro i (hm | hm)
    · obtain ⟨slot,hs,-⟩ := h.free_slot i hm
      exact (List.getElem?_eq_some_iff.mp hs).1
    · obtain ⟨e,he,rfl⟩ := List.mem_map.mp hm
      obtain ⟨-,slot,hs,-⟩ := h.reserved_slot e he
      exact (List.getElem?_eq_some_iff.mp hs).1
  counted := hc.counted

/-- Events that lose nothing conserve the slots. -/
theorem SlotRun.conserved {evs : List SlotEvent} {s t : Slots} (h : SlotRun evs s t) (hi : s.Inv)
    (hc : Conserved s) (hl : ∀ e,SlotEvent.lost e∉evs) : Conserved t := by
  have hp : t.Inv ∧ Conserved t := by
    refine h.invariant (P:=fun s => s.Inv ∧ Conserved s) ?_ ⟨hi,hc⟩
    rintro ev hev u v hstep ⟨hu,hcu⟩
    refine ⟨SlotEvent.Step.inv hstep hu,SlotEvent.Step.conserved hstep hu hcu fun e he => ?_⟩
    exact hl e (he ▸ hev)
  exact hp.2

/-- An action loses a handle only where it is allowed to. -/
theorem Effect.lost {leaks : Prop} {gives : Entity → Prop} {out : Option Entity}
    {evs : List SlotEvent} (h : Effect leaks gives out evs) (hl : ¬leaks) (e : Entity) :
    SlotEvent.lost e∉evs := by
  intro hm
  cases h with
  | fetched hf => rcases hf _ hm with he | ⟨f,he⟩ <;> cases he
  | handed f hf => rcases hf _ hm with he | ⟨f,he⟩ <;> cases he
  | leaked f h => exact hl h
  | lost f h => exact hl h
  | _ => simp at hm

variable [Inhabited V]

omit [Inhabited V] in
/-- What a step must not do for slots to be conserved: apply a queued destroy whose
entity is gone, or take a slot for a row that is not admitted. -/
def Conserves (a : Action V) (w : World V) : Prop := Action.Applies w a ∧ ¬Action.leaks w a

theorem conserved_step {a : Action V} (h : RunInv False w) (hc : Conserved (World.slots w))
    (ha : Conserves a w) : Conserved (World.slots (a.step w)) := by
  obtain ⟨-,evs,he,hstep,-⟩ := Action.acted a h False.elim ha.1
  exact SlotRun.conserved hstep.run h.inv.store.slots hc (Effect.lost he ha.2)

omit [Inhabited V] in
theorem conserved_new (runtime : Runtime) : Conserved (World.slots (World.new runtime : World V)) where
  covered := by
    intro i slot hs
    cases i <;> cases hs
  counted := rfl

/-- Along a run whose steps lose nothing, every slot is of exactly one class. -/
theorem slots_conserved (runtime : Runtime) (as : List (Action V))
    (ha : Along Action.step Conserves as (World.new runtime)) :
    SlotsConserved (runAll Action.step as (World.new runtime)) := by
  have hp : RunInv False (runAll Action.step as (World.new runtime)) ∧
      Conserved (World.slots (runAll Action.step as (World.new runtime))) := by
    refine ha.invariant (P:=fun w => RunInv False w ∧ Conserved (World.slots w)) ?_
      ⟨runInv_new False runtime,conserved_new runtime⟩
    rintro a w hs ⟨h,hc⟩
    exact ⟨Action.runInv a h False.elim hs.1,conserved_step h hc hs⟩
  exact conserved_classified hp.1.inv.store.slots hp.2

section Lost

omit [Inhabited V] in
/-- A component that no archetype has yet is admitted alone, if its layout can be made. -/
theorem admits_new {w : World V} {c : Component}
    (hn : (w.archetypes.entries.all fun p =>
      (p.2.layout.componentColDescriptors.lookup c.storageType).isNone)=true)
    (hcap : w.archetypes.len<vecCapacity)
    (hl : (layoutFor (.chunked defaultArchetypeCfg) (registeredFor w (.single c)) (.single c)).isOk=true) :
    Admits w (.single c) := by
  have hnone : ∀ i spec,¬Home w (.single c) i spec := by
    rintro i spec ⟨hv,-,htypes⟩
    obtain ⟨p,hp,rfl⟩ := Option.map_eq_some_iff.mp hv
    have hall := List.all_eq_true.mp hn p (List.mem_of_getElem? hp)
    have hmem := AList.lookup_isSome.mpr ((htypes c.storageType).mpr (List.mem_singleton_self _))
    rw [Option.isNone_iff_eq_none] at hall
    rw [hall] at hmem
    cases hmem
  have haccepts : ¬Refuses w (.single c) := by
    rintro ⟨i,spec,hh,-⟩
    exact hnone i spec hh
  refine ⟨haccepts,.inr ⟨List.nodup_singleton _,hcap,?_⟩⟩
  cases hlayout : layoutFor (.chunked defaultArchetypeCfg) (registeredFor w (.single c)) (.single c) with
  | ok layout => exact ⟨layout,rfl⟩
  | error err =>
    rw [hlayout] at hl
    cases hl

/-- A create, a queued create that is applied, a destroy, and one that fails. -/
def reservingRun : List (Action ℕ) := [
  .world .returning (.create (.single (plain 0) 1)),
  .setInParallelCompute true,
  .cmd .returning 7 (.create (.single (plain 1) 2)),
  .setInParallelCompute false,
  .applyCmd 0,
  .world .returning (.destroy (handle 0 1)),
  .world .returning (.destroy (handle 0 1))]

set_option maxRecDepth 20000 in
/-- One slot is free again, one is live, and the worker holds the others ahead. -/
theorem slots_conserved_reserving :
    let w : World ℕ := runAll Action.step reservingRun (World.new inOrder)
    SlotsConserved w ∧ w.entityAllocator.freeEntities=[0] ∧ (World.reserved w).length=31 ∧
      w.entityAllocator.entities.length=33 := by
  intro w
  have hfront : World.front (runAll Action.step (reservingRun.take 4) (World.new inOrder)) 0=
      some (.create 7 (handle 1 1) (.single (plain 1) 2)) := by decide +kernel
  refine ⟨slots_conserved inOrder _ ⟨⟨trivial,?_⟩,⟨trivial,id⟩,⟨trivial,?_⟩,⟨trivial,id⟩,⟨?_,?_⟩,
    ⟨trivial,id⟩,⟨trivial,id⟩,trivial⟩,by decide +kernel,by decide +kernel,by decide +kernel⟩
  · rintro ⟨-,hadm⟩
    exact hadm (admits_new (by decide +kernel) (by decide +kernel) (by decide +kernel))
  · rintro ⟨hpar,-⟩
    cases hpar
  · intro thread e he
    cases hfront.symm.trans he
  · rintro ⟨thread,e,val,he,hadm⟩
    cases hfront.symm.trans he
    exact hadm (admits_new (by decide +kernel) (by decide +kernel) (by decide +kernel))

/-- A create of a singleton that is already there. -/
def refusedRun : List (Action ℕ) := [
  .world .returning (.createSingleton (.single (plain 0) 1)),
  .world .returning (.create (.single (plain 0) 2))]

set_option maxRecDepth 20000 in
/-- The slot the refused create took is of no class. -/
theorem refusedRun_loses : ¬SlotsConserved (runAll Action.step refusedRun (World.new inOrder)) := by
  intro h
  have hs : (runAll Action.step refusedRun (World.new inOrder)).entityAllocator.entities[1]?=
      some ⟨0,0,0,1,false⟩ := by decide +kernel
  have hfree : (runAll Action.step refusedRun (World.new inOrder)).entityAllocator.freeEntities=[] := by
    decide +kernel
  have hres : (World.reserved (runAll Action.step refusedRun (World.new inOrder))).map Entity.idx=[] := by
    decide +kernel
  obtain ⟨c,hc,-⟩ := h.classified 1 _ hs
  cases c with
  | live => cases hc
  | free =>
    rw [InClass,hfree] at hc
    cases hc
  | retired => exact absurd hc.2 (by decide)
  | reserved =>
    rw [InClass,hres] at hc
    cases hc

end Lost

end XynokEcs.SlotConservation
