import XynokEcs.WorldGrowth
import XynokEcs.ActionEffects

/-!
# What an error leaves behind

A call that returns an error has registered archetypes, components and edges at
most. The rows, the chunks and the lists of free chunks of every archetype are
those from before, and so is every slot that holds an entity. Only a create may
have moved slots that hold none. This needs the registry alone, so it covers
worlds whose slots a failed command has damaged.
-/

namespace XynokEcs.ErrorExits

open ComponentTypes EntityHandle SequenceValueMap FaultingState ChunkRows ArchetypeStore
  EntityAllocation SlotInvariants WorldState WorldCalls RegistryInvariants RegistrySteps
  StoreInvariants StoreSteps StructureChanges RegistryFrame ActionRuns WorldRuns ActionEffects WorldGrowth

variable {V : Type} {w w' : World V} {a a' : EntityAllocator} {e : Entity}

section Slots

/-- Every slot that holds an entity is as it was, and no handle is found
elsewhere than before. -/
structure SlotsKept (a a' : EntityAllocator) : Prop where
  /-- No handle is found elsewhere. -/
  located : a'.locate=a.locate
  /-- Slots that hold an entity stay. -/
  live : ∀ (i : ℕ) slot,a.entities[i]?=some slot → slot.hasValue=true → a'.entities[i]?=some slot

/-- Slots that stay are kept. -/
theorem SlotsKept.refl (a : EntityAllocator) : SlotsKept a a := ⟨rfl,fun _ _ h _ => h⟩

/-- What is kept twice is kept. -/
theorem SlotsKept.trans {a'' : EntityAllocator} (h : SlotsKept a a') (h' : SlotsKept a' a'') :
    SlotsKept a a'' :=
  ⟨h'.located.trans h.located,fun i slot hs hv => h'.live i slot (h.live i slot hs hv) hv⟩

/-- The free slot that is handed out next holds no entity. -/
def NextSlotEmpty (a : EntityAllocator) : Prop :=
  ∀ i∈a.freeEntities.head?,∀ slot,a.entities[i]?=some slot → slot.hasValue=false

/-- In an allocator in order the next free slot holds no entity. -/
theorem SlotsInv.nextSlotEmpty {reserved : List Entity} (h : SlotsInv a reserved) :
    NextSlotEmpty a := by
  intro i hi slot hs
  obtain ⟨slot',hs',hv,-⟩ := h.free_slot i (List.mem_of_mem_head? hi)
  rw [hs] at hs'
  cases hs'
  exact hv

/-- Whatever the slots hold, taking one keeps them. -/
theorem newEntity_kept (a : EntityAllocator) : SlotsKept a (newEntity a).2 := by
  unfold newEntity
  split
  · dsimp only
    split
    · exact ⟨rfl,fun _ _ h _ => h⟩
    · split <;> exact ⟨rfl,fun _ _ h _ => h⟩
  · split
    · rename_i hfree e he
      refine ⟨?_,?_⟩
      · funext f
        unfold EntityAllocator.locate
        by_cases hlt : f.idx<a.entities.length
        · rw [List.getElem?_append_left hlt]
        · rw [List.getElem?_append_right (Nat.le_of_not_lt hlt),List.getElem?_singleton,
            List.getElem?_eq_none (Nat.le_of_not_lt hlt)]
          split
          · rfl
          · rename_i hs
            split at hs
            · cases hs
              rfl
            · cases hs
      · intro i slot hs _
        exact (List.getElem?_append_left (List.getElem?_eq_some_iff.mp hs).1).trans hs
    · exact SlotsKept.refl a

/-- The slot that is taken holds no entity when the next free one holds none. -/
theorem newEntity_empty (h : NextSlotEmpty a) (hrun : newEntity a=(.ok e,a')) :
    ∃ slot,a'.entities[e.idx]?=some slot ∧ slot.hasValue=false := by
  unfold newEntity at hrun
  split at hrun
  · rename_i i rest hfree
    dsimp only at hrun
    split at hrun
    · cases hrun
    · rename_i slot hs
      split at hrun
      · rename_i e' he
        cases hrun
        rw [(Entity.new_fields he).1]
        exact ⟨slot,hs,h i (by rw [hfree]; rfl) slot hs⟩
      · cases hrun
  · split at hrun
    · rename_i e' he
      cases hrun
      rw [(Entity.new_fields he).1]
      exact ⟨_,List.getElem?_concat_length,rfl⟩
    · cases hrun

/-- Erasing a slot that holds no entity keeps the slots. -/
theorem eraseSlot_kept {slot : EntitySpec} (hs : a.entities[e.idx]?=some slot)
    (hv : slot.hasValue=false) : SlotsKept a (eraseSlot a e.idx slot) := by
  have hself : { slot with hasValue := false }=slot := by
    rw [←hv]
  have hset : (eraseSlot a e.idx slot).entities=a.entities := by
    obtain ⟨hlt,hget⟩ := List.getElem?_eq_some_iff.mp hs
    change a.entities.set e.idx { slot with hasValue := false }=a.entities
    rw [hself,←hget,List.set_getElem_self]
  refine ⟨?_,?_⟩
  · funext f
    unfold EntityAllocator.locate
    rw [hset]
  · intro i slot' hs' _
    rw [hset]
    exact hs'

end Slots

/-- Nothing that is stored has changed: only archetypes without a row, components,
archetype types and edges were registered. -/
structure Atomic (w w' : World V) : Prop where
  /-- Archetypes stay with all their chunks and queues. -/
  archetypes : ∀ (i : ℕ) (spec : ArchetypeSpec V),w.archetypes.valueAt i=some spec →
    w'.archetypes.valueAt i=some spec
  /-- A registered archetype has no chunk. -/
  fresh : ∀ (i : ℕ) (spec : ArchetypeSpec V),w'.archetypes.valueAt i=some spec →
    w.archetypes.valueAt i=none → spec.arch=.regular ∨ spec.arch=.singleton
  /-- Component ids stay. -/
  components : ∀ t i,w.componentCounter.indexOf t=some i → w'.componentCounter.indexOf t=some i
  /-- Component descriptors stay. -/
  descriptors : ∀ t des,w.componentCounter.get t=some des → w'.componentCounter.get t=some des
  /-- Cached archetype types stay. -/
  types : ∀ T i,w.archetypeCounter.lookup T=some i → w'.archetypeCounter.lookup T=some i
  /-- Cached edges stay. -/
  edges : ∀ isRemove key edge,(w.edges isRemove).lookup key=some edge →
    (w'.edges isRemove).lookup key=some edge
  /-- Every row stays. -/
  rows : World.row w'=World.row w
  /-- Every entity keeps its components and their states. -/
  contents : World.contents w'=World.contents w
  /-- The same handles exist. -/
  exist : ∀ e,World.entityExists w' e=World.entityExists w e
  /-- Slots that hold an entity stay. -/
  slots : SlotsKept w.entityAllocator w'.entityAllocator
  /-- Ticks, queries and workers stay. -/
  frame : World.frame w'=World.frame w

/-- Registering what a call asks for, around slots that are kept. -/
theorem atomic_extends {w₁ : World V} (hs : SlotsKept w.entityAllocator a)
    (h : Extends (World.setSlots w a) w₁) (drops : List (StorageType×V)) :
    Atomic w { w₁ with dropped := drops } := by
  have hrow : World.row { w₁ with dropped := drops }=World.row w := by
    have hext : World.row w₁=World.row (World.setSlots w a) := Extends.row h
    exact (row_congr (w:=w₁) rfl).trans (hext.trans (row_congr rfl))
  have hloc : w₁.entityAllocator.locate=w.entityAllocator.locate := by
    rw [h.entityAllocator]
    exact hs.located
  refine ⟨h.kept,h.fresh,h.indexOf,h.get,h.types,h.edges,hrow,?_,?_,?_,(Extends.evolves h).frame⟩
  · rw [World.contents,World.contents,World.directory,World.directory,hrow]
    exact congrArg (fun l => (⟨l,World.row w⟩ : RowDirectory.Directory _ _ _).contents) hloc
  · intro e
    rw [World.entityExists,World.entityExists,entityExists_eq,entityExists_eq]
    exact congrArg (fun l => (l e).isSome) hloc
  · change SlotsKept w.entityAllocator w₁.entityAllocator
    rw [h.entityAllocator]
    exact hs

/-- A call that is refused changes nothing stored. -/
theorem atomic_refused {drops : List (StorageType×V)} (hs : SlotsKept w.entityAllocator a)
    (h : Refused drops (World.setSlots w a) w') : Atomic w w' := by
  obtain ⟨w₁,he,rfl⟩ := h
  exact atomic_extends hs he _

/-- Neither does one that registers. -/
theorem atomic_registers {α : Type} {x : Call V α} {Q : α → World V → Prop}
    (hx : Registers False x w Q) :
    wp x (fun _ _ => True) (fun _ w' => Atomic w w' ∧ w'.entityAllocator=w.entityAllocator) w :=
  wp_mono hx (fun _ _ _ => trivial)
    (fun _ w₁ h => ⟨atomic_extends (SlotsKept.refl _) h.1 w₁.dropped,h.1.entityAllocator⟩)

section Calls

/-- The slots an error of a call may have changed: a create took one that holds
no entity, and every other call none. -/
def WorldCall.SlotsAfter (w w' : World V) : WorldCall V → Prop
  | .create _ | .createSingleton _ => True
  | _ => w'.entityAllocator=w.entityAllocator

/-- What a call leaves behind when it returns an error. -/
def AtomicOnErr [Inhabited V] (w : World V) (c : WorldCall V) : Prop :=
  wp (c.perform .returning) (fun _ _ => True)
    (fun f w' => ∀ err,f=.err err → Atomic w w' ∧ WorldCall.SlotsAfter w w' c) w

variable [Inhabited V] {val : Bundle V}

/-- `try_create` keeps the slots when it fails, whatever they hold. -/
theorem tryCreate_atomic (h : RegistryInv False w) :
    wp (tryCreate val) (fun _ _ => True) (fun f w' => ∀ err,f=.err err → Atomic w w') w := by
  unfold tryCreate
  rw [wp_bind,consuming,wp_onFault,wp_onAllocator]
  cases hrun : newEntity w.entityAllocator with
  | mk r a =>
    have hkept : SlotsKept w.entityAllocator a := by
      have h₁ := newEntity_kept w.entityAllocator
      rw [hrun] at h₁
      exact h₁
    unfold wp
    rw [hrun]
    cases r with
    | error f =>
      intro err _
      have hinv : RegistryInv False (World.setSlots w a) := RegistryInv.congr h rfl
      exact atomic_refused hkept (refused_of (Extends.refl _) hinv val.drops).2
    | ok e =>
      change wp (do
        createComponentsFor e val
        return e) _ _ (World.setSlots w a)
      rw [wp_bind]
      refine wp_mono (createComponentsFor_errRefused (D:=False) (RegistryInv.congr h rfl) False.elim)
        (fun _ _ _ => trivial) ?_
      intro f w' hf err herr
      exact atomic_refused hkept (hf err herr).2

/-- `try_create_singleton` keeps the slots when it fails and the slot it takes
holds no entity. -/
theorem tryCreateSingleton_atomic (h : RegistryInv False w)
    (hn : NextSlotEmpty w.entityAllocator) :
    wp (tryCreateSingleton val) (fun _ _ => True) (fun f w' => ∀ err,f=.err err → Atomic w w')
      w := by
  have hrefuse : ∀ (w₁ : World V) {a : EntityAllocator},SlotsKept w.entityAllocator a →
      Extends w w₁ → Atomic w { World.setSlots w₁ a with dropped := w₁.dropped++val.drops } :=
    fun _ _ hk he => atomic_extends hk (Extends.setSlots he _) _
  have hself := SlotsKept.refl w.entityAllocator
  have hsame : ∀ {w₁ : World V},Extends w w₁ →
      Atomic w { w₁ with dropped := w₁.dropped++val.drops } := fun he => atomic_extends hself he _
  unfold tryCreateSingleton consuming
  rw [wp_onFault]
  refine Registers.wp_bind (getOrCreateSingletonArchetypeId_spec h False.elim) ?_
    (fun _ w₁ hext _ _ _ => hsame hext)
  rintro i w₁ hext hinv ⟨spec,hv,ht⟩
  refine Registers.wp_bind (getArchetype_spec hinv i) ?_
    (fun _ w₂ hext' _ _ _ => hsame (hext.trans hext'))
  rintro spec' w₂ - - ⟨rfl,-⟩
  split
  · exact fun _ _ => hsame hext
  · rw [wp_bind,wp_onAllocator,hext.entityAllocator]
    cases hrun : newEntity w.entityAllocator with
    | mk r a =>
      have hkept : SlotsKept w.entityAllocator a := by
        have h₁ := newEntity_kept w.entityAllocator
        rw [hrun] at h₁
        exact h₁
      unfold wp
      rw [hrun]
      cases r with
      | error f => exact fun _ _ => hrefuse _ hkept hext
      | ok e =>
        obtain ⟨slot,hs,hv⟩ := newEntity_empty hn hrun
        change wp (getState >>= _) _ _ (World.setSlots w₂ a)
        rw [wp_bind,wp_getState,wp_bind,onErr,wp_handle]
        have hinv₃ : RegistryInv False (World.setSlots w₂ a) := RegistryInv.congr hinv rfl
        refine wp_mono (onArchetype_errUnchanged hinv₃
          fun spec _ => push_errUnchanged ht.1 e (World.setSlots w₂ a).tick) ?_ ?_
        · intro ix w₃ _
          rw [wp_bind]
          exact wp_mono (updateEntitySpec_noErr e i ix w₃) (fun _ _ _ => trivial)
            (fun f _ hf err herr => absurd herr (hf err))
        · intro f w₃ hf
          cases f with
          | err err =>
            rw [hf err rfl]
            change wp (do
              onAllocator (eraseEntity e)
              fault (.err err)) _ _ (World.setSlots w₂ a)
            have herase : eraseEntity e (World.setSlots w₂ a).entityAllocator=
              (.ok (),eraseSlot a e.idx slot) := eraseEntity_eq hs
            rw [wp_bind,wp_onAllocator]
            unfold wp
            rw [herase]
            exact fun _ _ => hrefuse w₂ (hkept.trans (eraseSlot_kept hs hv)) hext
          | panic p => exact fun _ herr => absurd herr (by simp)
          | undefinedBehaviour => exact fun _ herr => absurd herr (by simp)

/-- Every call that returns an error leaves what is stored alone. -/
theorem WorldCall.atomicOnErr (c : WorldCall V) (h : RegistryInv False w)
    (hn : ∀ val,c=.createSingleton val → NextSlotEmpty w.entityAllocator) : AtomicOnErr w c := by
  have hkept := SlotsKept.refl w.entityAllocator
  have hsame : ∀ {drops : List (StorageType×V)} {w' : World V},Refused drops w w' →
      Atomic w w' ∧ w'.entityAllocator=w.entityAllocator :=
    fun hr => ⟨atomic_refused hkept hr,hr.entityAllocator⟩
  unfold AtomicOnErr
  cases c with
  | registerArchetype T cfg =>
    exact wp_bind.mpr (wp_mono (atomic_registers (tryRegisterArchetype_registers h False.elim cfg))
      (fun _ _ _ => trivial) (fun _ _ ha _ _ => ha))
  | registerSingleton T =>
    exact wp_bind.mpr (wp_mono (atomic_registers (tryRegisterSingleton_registers h False.elim))
      (fun _ _ _ => trivial) (fun _ _ ha _ _ => ha))
  | create val =>
    exact wp_bind.mpr (wp_mono (tryCreate_atomic h) (fun _ _ _ => trivial)
      (fun _ _ ha err herr => ⟨ha err herr,trivial⟩))
  | createSingleton val =>
    exact wp_bind.mpr (wp_mono (tryCreateSingleton_atomic h (hn val rfl)) (fun _ _ _ => trivial)
      (fun _ _ ha err herr => ⟨ha err herr,trivial⟩))
  | destroy e =>
    refine wp_bind.mpr (wp_mono (tryDestroy_err h) (fun _ _ _ => trivial) ?_)
    intro f w' hf err herr
    rw [hf err herr]
    exact hsame (Extends.refused (Extends.refl w))
  | addComponent e val =>
    exact wp_bind.mpr (wp_mono (tryAddComponent_err h False.elim) (fun _ _ _ => trivial)
      (fun _ _ ha err herr => hsame (ha err herr).2))
  | mergeComponent e val =>
    exact wp_bind.mpr (wp_mono (tryMergeComponent_err h False.elim) (fun _ _ _ => trivial)
      (fun _ _ ha err herr => hsame (ha err herr).2))
  | removeComponent T e =>
    exact wp_bind.mpr (wp_mono (tryRemoveComponent_err h False.elim) (fun _ _ _ => trivial)
      (fun _ _ ha err herr => hsame (ha err herr).2))

/-- In every world a run reaches, a call that returns an error leaves what is
stored alone; `try_create_singleton` does where the next free slot holds no
entity, which is so as long as no queued destroy has failed. -/
theorem errors_atomic (runtime : Runtime) (as : List (Action V)) (c : WorldCall V)
    (err : XynokEcsError)
    (hn : ∀ val,c=.createSingleton val →
      NextSlotEmpty (runAll Action.step as (World.new runtime : World V)).entityAllocator)
    (herr : (c.perform .returning (runAll Action.step as (World.new runtime))).1=.error (.err err)) :
    let w := runAll Action.step as (World.new runtime)
    let w' := (c.perform .returning w).2
    Atomic w w' ∧ WorldCall.SlotsAfter w w' c ∧
      (Along Action.step (Proper False) as (World.new runtime) → NextSlotEmpty w.entityAllocator) := by
  have hatomic := WorldCall.atomicOnErr c (coreInv_run runtime as).registry hn
  obtain ⟨hsame,hslots⟩ := wp_of_error hatomic (Prod.ext herr rfl) err rfl
  exact ⟨hsame,hslots,fun ha =>
    SlotsInv.nextSlotEmpty (runInv_run (runInv_new False runtime) ha).inv.store.slots⟩

end Calls

section Exits

/-- A singleton whose only component keeps no ticks, asked for with ticks. -/
def tickedSingleton : WorldCall ℕ :=
  .createSingleton (.single (.handWritten 9 1 (plainType 1) .noTracking .changeAble true) 5)

/-- An entity whose slot is free again, and such a singleton. -/
def unticked : List (Action ℕ) := [
  .world .returning (.create (.single (plain 0) 1)),
  .world .returning (.create (.single (plain 0) 2)),
  .world .returning (.destroy (handle 0 1)),
  .world .returning (.registerSingleton (.single (plain 1)))]

set_option maxRecDepth 20000 in
/-- A refused `try_create_singleton` gives its slot back. -/
theorem errors_atomic_singleton :
    let w : World ℕ := runAll Action.step unticked (World.new inOrder)
    let w' := (tickedSingleton.perform .returning w).2
    Atomic w w' ∧ WorldCall.SlotsAfter w w' tickedSingleton ∧ NextSlotEmpty w.entityAllocator := by
  intro w w'
  have hempty : NextSlotEmpty w.entityAllocator := by
    intro i hi slot hs
    have hfree : w.entityAllocator.freeEntities.head?=some 0 := by decide +kernel
    have hslot : (w.entityAllocator.entities[0]?).all (fun slot => !slot.hasValue)=true := by
      decide +kernel
    cases hfree.symm.trans hi
    rw [hs] at hslot
    simpa using hslot
  obtain ⟨hsame,hslots,-⟩ := errors_atomic inOrder unticked tickedSingleton
    (.componentStateNotAvailable (plainType 1) "added") (fun _ _ => hempty) (by decide +kernel)
  exact ⟨hsame,hslots,hempty⟩

/-- A create of an occupied singleton, in a world of one entity. -/
def occupied : List (Action ℕ) := [
  .world .returning (.createSingleton (.single (plain 0) 1))]

/-- A world in which a destroy failed at a sync point, and a singleton without ticks. -/
def damaged : List (Action ℕ) :=
  twiceDestroyed++[.world .returning (.registerSingleton (.single (plain 1)))]

set_option maxRecDepth 20000 in
/-- A refused singleton hands a new slot back to the free list, as it means to. A refused
create leaves a slot behind, and where a failed destroy left a live slot in the free list, a
refused singleton ends its entity. -/
theorem errors_not_atomic :
    (let w : World ℕ := runAll Action.step [.world .returning (.registerSingleton (.single (plain 1)))]
        (World.new inOrder)
      let out := tickedSingleton.perform .returning w
      out.1=.error (.err (.componentStateNotAvailable (plainType 1) "added")) ∧
        w.entityAllocator.entities.length=0 ∧ w.entityAllocator.freeEntities=[] ∧
        out.2.entityAllocator.entities.length=1 ∧ out.2.entityAllocator.freeEntities=[0]) ∧
    (let w : World ℕ := runAll Action.step occupied (World.new inOrder)
      let out := (WorldCall.create (.single (plain 0) 2)).perform .returning w
      out.1=.error (.err (.singletonAlreadyExists (.typeName (.single (plain 0))))) ∧
        out.2.entityAllocator≠w.entityAllocator) ∧
    (let w : World ℕ := runAll Action.step damaged (World.new inOrder)
      let out := tickedSingleton.perform .returning w
      out.1=.error (.err (.componentStateNotAvailable (plainType 1) "added")) ∧
        World.entityExists w (handle 0 2)=true ∧ World.entityExists out.2 (handle 0 2)=false) := by
  decide +kernel

end Exits

end XynokEcs.ErrorExits
