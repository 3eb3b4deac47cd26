import XynokEcs.StoreSteps

/-!
# Every call keeps the registry canonical

Whatever the slots hold, a call on entities or archetypes touches the registry
only through the functions that register, leaves every archetype with its layout
and its kind, and leaves ticks, workers and queries alone. This also covers
worlds whose slots and rows no longer agree.
-/

namespace XynokEcs.RegistryFrame

open ComponentTypes EntityHandle SequenceValueMap ChunkLayouts FaultingState ChunkRows
  ArchetypeStore EntityAllocation WorldState WorldCalls RegistryInvariants RegistrySteps
  StoreInvariants StoreSteps

variable {V α β : Type} {D : Prop} {w : World V}

/-- The registry is canonical, and the world moved on. -/
def Kept (D : Prop) (w w' : World V) : Prop := RegistryInv D w' ∧ Evolves w w'

/-- A call that keeps the registry canonical, whichever way it leaves. -/
def Keeps (D : Prop) (x : Call V α) : Prop :=
  ∀ w : World V,RegistryInv D w → wp x (fun _ w' => Kept D w w') (fun _ w' => Kept D w w') w

/-- A world in order keeps to itself. -/
theorem Kept.refl (h : RegistryInv D w) : Kept D w w := ⟨h,Evolves.refl w⟩

/-- What is kept twice is kept. -/
theorem Kept.trans {w₁ w₂ : World V} (h : Kept D w w₁) (h' : Kept D w₁ w₂) : Kept D w w₂ :=
  ⟨h'.1,h.2.trans h'.2⟩

/-- A change of nothing the registry or the frame is about. -/
theorem Kept.congr {w' : World V} (h : RegistryInv D w) (hr : World.registry w'=World.registry w)
    (hf : World.frame w'=World.frame w) : Kept D w w' := by
  refine ⟨RegistryInv.congr h hr,hf,fun i spec hi => ⟨spec,?_,rfl,rfl,rfl⟩,?_,?_⟩
  · rw [show w'.archetypes=w.archetypes from congrArg Prod.fst hr]
    exact hi
  · rw [show w'.componentCounter=w.componentCounter from congrArg (fun r => r.2.1) hr]
    exact fun _ _ h => h
  · rw [show w'.archetypeCounter=w.archetypeCounter from congrArg (fun r => r.2.2.2.1) hr]
    exact fun _ _ h => h

/-- Whatever a keeping call ends in, the world it leaves is kept. -/
theorem Keeps.state {x : Call V α} (hx : Keeps D x) (h : RegistryInv D w) : Kept D w (x w).2 :=
  wp_state (hx w h)

section Rules

variable {x : Call V α} {f : α → Call V β}

/-- One keeping call after another keeps. -/
theorem Keeps.bind (hx : Keeps D x) (hf : ∀ a,Keeps D (f a)) : Keeps D (x >>= f) := by
  intro w h
  rw [wp_bind]
  refine wp_mono (hx w h) ?_ (fun _ _ hk => hk)
  intro a w₁ h₁
  exact wp_mono (hf a w₁ h₁.1) (fun _ _ hk => h₁.trans hk) (fun _ _ hk => h₁.trans hk)

/-- Returning keeps everything. -/
theorem Keeps.pure (a : α) : Keeps D (Pure.pure a : Call V α) := fun _ h => Kept.refl h

/-- Failing keeps everything. -/
theorem Keeps.fault (e : Fault) : Keeps D (FaultingState.fault e : Call V α) := fun _ h => Kept.refl h

/-- Reading the world keeps everything. -/
theorem Keeps.getState {f : World V → Call V β} (hf : ∀ w,Keeps D (f w)) :
    Keeps D (FaultingState.getState >>= f) := fun w h => hf w w h

/-- So does writing beside the registry and the frame. -/
theorem Keeps.modifyState {g : World V → World V} (hr : ∀ w,World.registry (g w)=World.registry w)
    (hf : ∀ w,World.frame (g w)=World.frame w) :
    Keeps D (FaultingState.modifyState g : Call V Unit) :=
  fun w h => Kept.congr h (hr w) (hf w)

/-- Cleaning up beside the registry and the frame keeps what the call keeps. -/
theorem Keeps.onFault {g : World V → World V} (hx : Keeps D x)
    (hr : ∀ w,World.registry (g w)=World.registry w) (hf : ∀ w,World.frame (g w)=World.frame w) :
    Keeps D (FaultingState.onFault g x) := by
  intro w h
  rw [wp_onFault]
  exact wp_mono (hx w h) (fun _ _ hk => hk)
    (fun _ w' hk => hk.trans (Kept.congr hk.1 (hr w') (hf w')))

/-- Dropping the components of a failed call keeps what the call keeps. -/
theorem Keeps.consuming {val : Bundle V} (hx : Keeps D x) : Keeps D (consuming val x) :=
  Keeps.onFault hx (fun _ => rfl) (fun _ => rfl)

/-- Renaming a failure keeps what the call keeps. -/
theorem Keeps.mapFault {g : Fault → Fault} (hx : Keeps D x) : Keeps D (FaultingState.mapFault g x) := by
  intro w h
  rw [wp_mapFault]
  exact hx w h

/-- A call and the handler of its errors keep together. -/
theorem Keeps.onErr {handler : XynokEcsError → Call V α} (hx : Keeps D x)
    (hh : ∀ err,Keeps D (handler err)) : Keeps D (onErr x handler) := by
  intro w h
  unfold WorldState.onErr
  rw [wp_handle]
  refine wp_mono (hx w h) (fun _ _ hk => hk) ?_
  intro e w₁ h₁
  cases e with
  | err err =>
    exact wp_mono (hh err w₁ h₁.1) (fun _ _ hk => h₁.trans hk) (fun _ _ hk => h₁.trans hk)
  | panic p => exact h₁
  | undefinedBehaviour => exact h₁

/-- Registering keeps everything but the registry, which stays canonical. -/
theorem Keeps.of_registers (hx : ∀ w : World V,RegistryInv D w →
    ∃ Q : α → World V → Prop,Registers D x w Q) : Keeps D x := by
  intro w h
  obtain ⟨Q,hq⟩ := hx w h
  exact wp_mono hq (fun _ _ hr => ⟨hr.2.1,Extends.evolves hr.1⟩)
    (fun _ _ hr => ⟨hr.2,Extends.evolves hr.1⟩)

/-- The allocator is neither registry nor frame. -/
theorem Keeps.onAllocator (x : Faulting EntityAllocator Fault α) :
    Keeps D (onAllocator x : Call V α) := by
  intro w h
  rw [wp_onAllocator]
  apply wp_intro
  · exact fun _ a _ => ⟨RegistryInv.congr h rfl,evolves_setSlots w a⟩
  · exact fun _ a _ => ⟨RegistryInv.congr h rfl,evolves_setSlots w a⟩

/-- Looking an archetype up changes nothing. -/
theorem Keeps.getArchetype (i : ℕ) : Keeps D (getArchetype i : Call V (ArchetypeSpec V)) :=
  Keeps.of_registers fun _ h => ⟨_,getArchetype_spec h i⟩

/-- Work on the chunks of an archetype keeps its layout, its flag and its kind. -/
theorem Keeps.onArchetype (i : ℕ) {x : ChunkLayout → Faulting (Archetype V) Fault α}
    (hx : ∀ layout,Fixes Archetype.isSingleton (x layout)) : Keeps D (onArchetype i x) := by
  intro w h
  cases hv : w.archetypes.valueAt i with
  | none =>
    have hrun : WorldState.onArchetype i x w=(.error (.panic .unwrapFailed),w) := by
      unfold WorldState.onArchetype WorldState.getArchetype
      refine bind_error ?_
      rw [getState_bind,h.get_eq,hv]
      rfl
    unfold wp
    rw [hrun]
    exact Kept.refl h
  | some spec =>
    cases hr : x spec.layout spec.arch with
    | mk r a =>
      unfold wp
      rw [onArchetype_eq h hv hr]
      have ha : a.isSingleton=spec.arch.isSingleton := by
        have := hx spec.layout spec.arch
        rwa [hr] at this
      cases r <;> exact ⟨registryInv_setArch h i a,evolves_setArch hv ha⟩

/-- So does work on the chunks of two archetypes. -/
theorem Keeps.onArchetypePair (i j : ℕ)
    {x : ChunkLayout → ChunkLayout → Faulting (ArchetypePair V) Fault α}
    (hx : ∀ srcLayout dstLayout,Fixes ArchetypePair.kinds (x srcLayout dstLayout)) :
    Keeps D (onArchetypePair i j x) := by
  intro w h
  have hfault : WorldCalls.onArchetypePair i j x w=(.error (.panic .unwrapFailed),w) →
      wp (WorldCalls.onArchetypePair i j x) (fun _ w' => Kept D w w') (fun _ w' => Kept D w w') w := by
    intro hrun
    unfold wp
    rw [hrun]
    exact Kept.refl h
  cases hs : w.archetypes.valueAt i with
  | none =>
    refine hfault ?_
    unfold WorldCalls.onArchetypePair
    rw [hs]
  | some src => cases hd : w.archetypes.valueAt j with
    | none =>
      refine hfault ?_
      unfold WorldCalls.onArchetypePair
      rw [hs,hd]
    | some dst =>
      by_cases hij : i=j
      · refine hfault ?_
        unfold WorldCalls.onArchetypePair
        rw [hs,hd]
        dsimp only
        rw [if_pos hij]
      · cases hr : x src.layout dst.layout ⟨dst.arch,src.arch⟩ with
        | mk r p =>
          unfold wp
          rw [onArchetypePair_eq hs hd hij hr]
          have hp : p.kinds=(dst.arch.isSingleton,src.arch.isSingleton) := by
            have := hx src.layout dst.layout ⟨dst.arch,src.arch⟩
            rwa [hr] at this
          have hj : (World.setArch w i p.src).archetypes.valueAt j=some dst := by
            rw [valueAt_setArch,if_neg hij]
            exact hd
          have hev := (evolves_setArch hs (congrArg Prod.snd hp)).trans
            (evolves_setArch hj (congrArg Prod.fst hp))
          cases r <;> exact ⟨registryInv_setArch (registryInv_setArch h i p.src) j p.dst,hev⟩

/-- Looking a position up changes nothing. -/
theorem Keeps.archetypeIndex (i : ℕ) : Keeps D (archetypeIndex i : Call V ℕ) := by
  refine Keeps.getState fun w => ?_
  split
  · exact Keeps.pure _
  · exact Keeps.fault _

/-- A call on an entity that exists keeps if what it goes on with keeps. -/
theorem Keeps.withExisting {e : Entity} {f : EntitySpec → Call V α} (hf : ∀ s,Keeps D (f s)) :
    Keeps D (withExisting e f) := by
  refine Keeps.getState fun w => ?_
  split
  · exact Keeps.fault _
  · split
    · exact hf _
    · exact Keeps.fault _

/-- Following a moved row writes to a slot only. -/
theorem Keeps.followSwapped (row : Option SwappedRow) :
    Keeps D (followSwapped row : Call V Unit) := by
  cases row with
  | none => exact Keeps.pure ()
  | some row => exact Keeps.onAllocator _

/-- Work on the slots leaves the archetypes alone. -/
theorem archetypes_onAllocator (x : Faulting EntityAllocator Fault α) :
    Fixes World.archetypes (onAllocator x : Call V α) := by
  refine Fixes.focus ?_ x
  intro a w
  rfl

/-- Following a moved row leaves the archetypes alone. -/
theorem archetypes_followSwapped (row : Option SwappedRow) :
    Fixes World.archetypes (followSwapped row : Call V Unit) := by
  cases row with
  | none => exact Fixes.pure ()
  | some row => exact archetypes_onAllocator _

end Rules

section Calls

variable {T : TArchetype} {e : Entity}

/-- Creating an archetype on demand keeps. -/
theorem Keeps.getOrCreateArchetypeAs (hD : D → T.isDeclared=true) (kind : ArchetypeKind) :
    Keeps D (getOrCreateArchetypeAs T kind : Call V ℕ) :=
  Keeps.of_registers fun _ h => ⟨_,getOrCreateArchetypeAs_spec h hD⟩

/-- Creating an edge on demand keeps. -/
theorem Keeps.getOrCreateEdge {isRemove : Bool} {key : ArchetypeEdgeKey}
    (hD : D → key.archetypeTypeId.isDeclared=true) :
    Keeps D (getOrCreateEdge isRemove key : Call V ℕ) :=
  Keeps.of_registers fun _ h => ⟨_,getOrCreateEdge_spec h hD⟩

/-- Checking for locks keeps. -/
theorem Keeps.checkStructureChange (srcArchId dstArchId : ℕ) :
    Keeps D (checkStructureChange T e srcArchId dstArchId : Call V Unit) :=
  Keeps.of_registers fun _ h => ⟨_,checkStructureChange_spec h srcArchId dstArchId⟩

/-- `try_register_archetype` goes from a registry in order to one in order. -/
theorem tryRegisterArchetype_registers (h : RegistryInv D w) (hD : D → T.isDeclared=true)
    (cfg : ArchetypeCfg) : Registers D (tryRegisterArchetype T cfg) w (fun _ _ => True) := by
  unfold tryRegisterArchetype
  cases hc : cfg.validate with
  | error err => exact Registers.fault h
  | ok _ =>
    refine Registers.bind (Registers.pure (a:=()) (Q:=fun _ _ => True) h trivial) ?_
    intro _ w₀ _ h₀ _
    refine Registers.bind (getOrCreateArchetypeAs_spec h₀ hD) ?_
    intro i w₁ _ h₁ _
    refine Registers.bind (getArchetype_spec h₁ i) ?_
    rintro spec w₂ - h₂ -
    split
    · exact Registers.fault h₂
    · split
      · exact Registers.fault h₂
      · split
        · exact Registers.fault h₂
        · exact Registers.pure h₂ trivial

/-- The archetype of a singleton is created on demand from a registry in order to one in order. -/
theorem getOrCreateSingletonArchetypeId_registers (h : RegistryInv D w)
    (hD : D → T.isDeclared=true) :
    Registers D (getOrCreateSingletonArchetypeId T) w (fun _ _ => True) := by
  unfold getOrCreateSingletonArchetypeId
  refine Registers.bind (getOrCreateArchetypeAs_spec h hD) ?_
  intro i w₁ _ h₁ _
  refine Registers.bind (getArchetype_spec h₁ i) ?_
  rintro spec w₂ - h₂ -
  split
  · exact Registers.fault h₂
  · exact Registers.pure h₂ trivial

/-- `try_register_singleton` goes from a registry in order to one in order. -/
theorem tryRegisterSingleton_registers (h : RegistryInv D w) (hD : D → T.isDeclared=true) :
    Registers D (tryRegisterSingleton T) w (fun _ _ => True) := by
  unfold tryRegisterSingleton
  refine Registers.bind (getOrCreateSingletonArchetypeId_registers h hD) ?_
  intro i w₁ _ h₁ _
  exact Registers.pure h₁ trivial

/-- Moving a row keeps if the work on the two archetypes keeps their kinds. -/
theorem Keeps.moveRow {isRemove : Bool} {spec : EntitySpec} {key : ArchetypeEdgeKey}
    {targetArchId : ℕ} {x : MigrationPlan → ChunkLayout → ChunkLayout →
      Faulting (ArchetypePair V) Fault (ResultTake×α)}
    (hx : ∀ plan srcLayout dstLayout,Fixes ArchetypePair.kinds (x plan srcLayout dstLayout)) :
    Keeps D (moveRow isRemove e spec key targetArchId x) := by
  refine Keeps.bind (Keeps.archetypeIndex _) fun srcIdx => ?_
  refine Keeps.bind (Keeps.archetypeIndex _) fun targetIdx => Keeps.getState fun w => ?_
  split
  · exact Keeps.fault _
  · refine Keeps.bind (Keeps.onArchetypePair _ _ fun _ _ => hx _ _ _) fun result => ?_
    refine Keeps.bind (Keeps.followSwapped _) fun _ => ?_
    exact Keeps.bind (Keeps.onAllocator _) fun _ => Keeps.pure _

/-- `try_destroy` keeps. -/
theorem Keeps.tryDestroy (e : Entity) : Keeps D (tryDestroy e : Call V Unit) := by
  refine Keeps.withExisting fun spec =>
    Keeps.bind (Keeps.onArchetype _ fun _ => fixes_removeAt _ _) fun swapped => ?_
  exact Keeps.bind (Keeps.followSwapped _) fun _ => Keeps.onAllocator _

variable [Inhabited V] {val : Bundle V}

/-- `create_components_for` keeps. -/
theorem Keeps.createComponentsFor (hD : D → val.ty.isDeclared=true) :
    Keeps D (createComponentsFor e val) := by
  refine Keeps.consuming (Keeps.bind (Keeps.getOrCreateArchetypeAs hD _) fun i => ?_)
  refine Keeps.bind (Keeps.getArchetype i) fun spec => ?_
  split
  · exact Keeps.fault _
  · refine Keeps.getState fun w =>
      Keeps.bind (Keeps.onArchetype _ fun _ => fixes_push _ _ _) fun ix => ?_
    exact Keeps.onAllocator _

/-- `try_create` keeps. -/
theorem Keeps.tryCreate (hD : D → val.ty.isDeclared=true) : Keeps D (tryCreate val) := by
  refine Keeps.bind (Keeps.consuming (Keeps.onAllocator _)) fun newE => ?_
  exact Keeps.bind (Keeps.createComponentsFor hD) fun _ => Keeps.pure _

/-- `try_create_singleton` keeps. -/
theorem Keeps.tryCreateSingleton (hD : D → val.ty.isDeclared=true) :
    Keeps D (tryCreateSingleton val) := by
  refine Keeps.consuming (Keeps.bind (Keeps.of_registers fun w h =>
    ⟨_,getOrCreateSingletonArchetypeId_registers h hD⟩) fun i => ?_)
  refine Keeps.bind (Keeps.getArchetype i) fun spec => ?_
  split
  · exact Keeps.fault _
  · refine Keeps.bind (Keeps.onAllocator _) fun newE => Keeps.getState fun w => ?_
    refine Keeps.bind (Keeps.onErr (Keeps.onArchetype _ fun _ => fixes_push _ _ _)
      fun err => ?_) fun ix => ?_
    · exact Keeps.bind (Keeps.onAllocator _) fun _ => Keeps.fault _
    · exact Keeps.bind (Keeps.onAllocator _) fun _ => Keeps.pure _

/-- Moving a row and writing the components it gains keeps. -/
theorem Keeps.moveAndWrite {spec : EntitySpec} {key : ArchetypeEdgeKey} (targetArchId : ℕ)
    (tick : ChangedTick) : Keeps D (moveAndWrite e spec key targetArchId val tick) :=
  Keeps.moveRow fun plan _ _ => Fixes.bind (fixes_takeAndWriteFrom _ plan _ _) fun _ => Fixes.pure _

/-- `try_add_component` keeps. -/
theorem Keeps.tryAddComponent (hD : D → val.ty.isDeclared=true) :
    Keeps D (tryAddComponent e val) := by
  refine Keeps.consuming (Keeps.withExisting fun spec => ?_)
  refine Keeps.bind (Keeps.getOrCreateArchetypeAs hD _) fun bArchId => ?_
  refine Keeps.bind (Keeps.getArchetype _) fun a => Keeps.bind (Keeps.getArchetype _) fun b => ?_
  split
  · exact Keeps.fault _
  · refine Keeps.bind (Keeps.getOrCreateEdge hD) fun target => ?_
    refine Keeps.bind (Keeps.checkStructureChange _ _) fun _ => Keeps.getState fun w => ?_
    exact Keeps.moveAndWrite _ _

/-- `try_merge_component` keeps. -/
theorem Keeps.tryMergeComponent (hD : D → val.ty.isDeclared=true) :
    Keeps D (tryMergeComponent e val) := by
  refine Keeps.consuming (Keeps.withExisting fun spec => ?_)
  refine Keeps.bind (Keeps.getOrCreateEdge hD) fun target => Keeps.getState fun w => ?_
  split
  · exact Keeps.onArchetype _ fun _ => fixes_replaceRowAt _ _ _ _
  · exact Keeps.bind (Keeps.checkStructureChange _ _) fun _ => Keeps.moveAndWrite _ _

/-- `try_remove_component` keeps. -/
theorem Keeps.tryRemoveComponent (hD : D → T.isDeclared=true) :
    Keeps D (tryRemoveComponent T e : Call V (Bundle V)) := by
  refine Keeps.withExisting fun spec => ?_
  refine Keeps.bind (Keeps.getOrCreateArchetypeAs hD _) fun bArchId => ?_
  refine Keeps.bind (Keeps.getArchetype _) fun a => Keeps.bind (Keeps.getArchetype _) fun b => ?_
  split
  · exact Keeps.fault _
  · refine Keeps.bind (Keeps.getOrCreateEdge hD) fun target => ?_
    refine Keeps.bind (Keeps.checkStructureChange _ _) fun _ => Keeps.moveRow ?_
    exact fun plan _ _ => fixes_takeAndRemoveFrom _ _ plan

end Calls

end XynokEcs.RegistryFrame
