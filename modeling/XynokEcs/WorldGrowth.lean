import XynokEcs.ActionEffects

/-!
# What no action can undo

Whatever happens to a world, whether calls return, raise or leave slots and rows
apart, its registry stays canonical, its queries stay exact, and an archetype
keeps its id, its layout and its kind. Nothing is assumed of the run.
-/

namespace XynokEcs.WorldGrowth

open ComponentTypes EntityHandle SequenceValueMap FaultingState ChunkRows RowWrites ArchetypeStore
  ChunkLayouts QueryShapes EntityAllocation WorldState WorldCalls CommandBuffer RegistryInvariants
  RegistrySteps StoreInvariants StoreSteps RegistryFrame QueryAccess QuerySources ItemWrites
  WorkerQueues ActionRuns WorldRuns ActionEffects

variable {V α β : Type} {w w' : World V}

/-- Archetypes keep layout, flag and kind, and ids once given stay. -/
structure Grown (w w' : World V) : Prop where
  /-- Archetypes keep layout, flag and kind. -/
  kept : ∀ (i : ℕ) (spec : ArchetypeSpec V),w.archetypes.valueAt i=some spec →
    ∃ spec',w'.archetypes.valueAt i=some spec' ∧ spec'.layout=spec.layout ∧
      spec'.allowStructureChange=spec.allowStructureChange ∧
      spec'.arch.isSingleton=spec.arch.isSingleton
  /-- Component ids stay. -/
  indexOf : ∀ t i,w.componentCounter.indexOf t=some i → w'.componentCounter.indexOf t=some i
  /-- Cached tuple types stay. -/
  types : ∀ T i,w.archetypeCounter.lookup T=some i → w'.archetypeCounter.lookup T=some i

/-- A world that moved on has grown. -/
theorem Evolves.grown (h : Evolves w w') : Grown w w' := ⟨h.kept,h.indexOf,h.types⟩

/-- A world that stays has grown. -/
theorem Grown.refl (w : World V) : Grown w w := Evolves.grown (Evolves.refl w)

/-- Growth adds up. -/
theorem Grown.trans {w'' : World V} (h : Grown w w') (h' : Grown w' w'') : Grown w w'' where
  kept := by
    intro i spec hi
    obtain ⟨s₁,h₁,hl,ha,hs⟩ := h.kept i spec hi
    obtain ⟨s₂,h₂,hl',ha',hs'⟩ := h'.kept i s₁ h₁
    exact ⟨s₂,h₂,hl'.trans hl,ha'.trans ha,hs'.trans hs⟩
  indexOf t i hi := h'.indexOf t i (h.indexOf t i hi)
  types T i hi := h'.types T i (h.types T i hi)

/-- The registry is canonical and every cached query is exact. -/
structure CoreInv (w : World V) : Prop where
  /-- The registry is in order. -/
  registry : RegistryInv False w
  /-- The query registry is in order. -/
  queries : QueryInv w

/-- The world stays in order at its core, and grows. -/
def Grew (w w' : World V) : Prop := CoreInv w' ∧ Grown w w'

/-- Growth from order into order adds up. -/
theorem Grew.trans {w'' : World V} (h : Grew w w') (h' : Grew w' w'') : Grew w w'' :=
  ⟨h'.1,h.2.trans h'.2⟩

/-- A call that keeps the core in order, whichever way it leaves. -/
def Grows (x : Call V α) : Prop :=
  ∀ w : World V,CoreInv w → wp x (fun _ w' => Grew w w') (fun _ w' => Grew w w') w

section Rules

variable {x : Call V α}

/-- A world in order has grown into itself. -/
theorem Grew.refl (h : CoreInv w) : Grew w w := ⟨h,Grown.refl w⟩

/-- Growing calls one after the other grow. -/
theorem Grows.bind {f : α → Call V β} (hx : Grows x) (hf : ∀ a,Grows (f a)) :
    Grows (x >>= f) := by
  intro w h
  rw [wp_bind]
  refine wp_mono (hx w h) ?_ (fun _ _ hk => hk)
  intro a w₁ h₁
  exact wp_mono (hf a w₁ h₁.1) (fun _ _ hk => h₁.trans hk) (fun _ _ hk => h₁.trans hk)

/-- Returning leaves the world as it is. -/
theorem Grows.pure (a : α) : Grows (Pure.pure a : Call V α) := fun _ h => Grew.refl h

/-- Failing leaves the world as it is. -/
theorem Grows.fault (e : Fault) : Grows (FaultingState.fault e : Call V α) := fun _ h => Grew.refl h

/-- Reading the world leaves it as it is. -/
theorem Grows.getState {f : World V → Call V β} (hf : ∀ w,Grows (f w)) :
    Grows (FaultingState.getState >>= f) := fun w h => hf w w h

/-- Renaming a failure keeps what the call does to the world. -/
theorem Grows.mapFault {g : Fault → Fault} (hx : Grows x) : Grows (FaultingState.mapFault g x) := by
  intro w h
  rw [wp_mapFault]
  exact hx w h

/-- A call on entities or archetypes. -/
theorem Grows.of_keeps (hx : Keeps False x) : Grows x := by
  intro w h
  have hg : ∀ w',Kept False w w' → Grew w w' :=
    fun w' hk => ⟨⟨hk.1,h.queries.evolve hk.2⟩,Evolves.grown hk.2⟩
  exact wp_mono (hx w h.registry) (fun _ w' => hg w') (fun _ w' => hg w')

/-- The part of a world the invariants of its core are about. -/
def core (w : World V) := (World.registry w,w.queryCounter)

/-- Where the registries stay, a world in order stays in order. -/
theorem grew_congr (h : CoreInv w) (hc : core w'=core w) : Grew w w' := by
  have hr : World.registry w'=World.registry w := congrArg Prod.fst hc
  have ha : w'.archetypes=w.archetypes := congrArg Prod.fst hr
  have hs : w'.componentCounter=w.componentCounter := congrArg (fun r => r.2.1) hr
  have ht : w'.archetypeCounter=w.archetypeCounter := congrArg (fun r => r.2.2.2.1) hr
  refine ⟨⟨RegistryInv.congr h.registry hr,h.queries.congr ha hs (congrArg Prod.snd hc)⟩,?_,?_,?_⟩
  · intro i spec hi
    rw [ha]
    exact ⟨spec,hi,rfl,rfl,rfl⟩
  · rw [hs]
    exact fun _ _ h => h
  · rw [ht]
    exact fun _ _ h => h

/-- A call that leaves the core alone. -/
theorem Grows.of_fixes (hx : Fixes core x) : Grows x := by
  intro w h
  apply wp_intro
  · intro a w' hr
    have := hx w
    rw [hr] at this
    exact grew_congr h this
  · intro e w' hr
    have := hx w
    rw [hr] at this
    exact grew_congr h this

/-- Registering components and queries. -/
theorem grew_queried (hq : Queried False w w') : Grew w w' := by
  refine ⟨⟨hq.registry,hq.queries⟩,?_,hq.indexOf,?_⟩
  · obtain ⟨specs,qc,rfl⟩ := hq.others
    exact fun i spec hi => ⟨spec,hi,rfl,rfl,rfl⟩
  · obtain ⟨specs,qc,rfl⟩ := hq.others
    exact fun _ _ h => h

/-- Preparing a query registers at most components and a shape. -/
theorem Grows.prepareQuery (q : QueryShape Component) :
    Grows (prepareQuerySrcAccess q : Call V ℕ) := fun _ h =>
  wp_mono (prepareQuerySrcAccess_spec h.registry h.queries False.elim)
    (fun _ _ hq => grew_queried hq.1) (fun _ _ hq => grew_queried hq.1)

/-- Working out a scope registers at most components. -/
theorem Grows.accessScope (q : QueryShape Component) :
    Grows (onComponents q.accessScope : Call V AccessScope) := fun _ h =>
  wp_mono (onComponents_accessScope h.registry h.queries False.elim)
    (fun _ _ hq => grew_queried hq.1) (fun _ _ hq => grew_queried hq.1)

end Rules

section Workers

variable {thread : ℕ}

/-- A view of a world that slots, queues and dropped values do not enter. -/
def OffQueues {ρ : Type} (g : World V → ρ) : Prop :=
  ∀ (w : World V) ws alloc dropped,
    g { w with workerSpecs := ws, entityAllocator := alloc, dropped := dropped }=g w

/-- The registries do not look at queues. -/
theorem offQueues_core : OffQueues (core : World V → _) := fun _ _ _ _ => rfl

section Views

variable {ρ : Type} {g : World V → ρ}

/-- Work on the slots and queues leaves such a view alone. -/
theorem fixes_onWorker (hg : OffQueues g) (x : Faulting (WorkerSpec V) Fault α) :
    Fixes g (onWorker thread x) := by
  refine Fixes.focus ?_ x
  intro s w
  exact hg w _ w.entityAllocator w.dropped

/-- Warming a worker up is seen only where workers and slots are. -/
theorem fixes_warmUp (hg : OffQueues g) : Fixes g (warmUp thread : Call V Unit) := by
  refine Fixes.getState fun w => ?_
  unfold onlyIf
  split
  · exact Fixes.modifyState fun w => hg w _ w.entityAllocator w.dropped
  · exact Fixes.pure ()

/-- Queueing a command is seen only where the workers are. -/
theorem fixes_pushCmd (hg : OffQueues g) (cmd : CmdBuffer V) : Fixes g (pushCmd thread cmd) :=
  fixes_onWorker hg _

/-- Taking a handle is seen only where workers and slots are. -/
theorem fixes_takePreAllocated (hg : OffQueues g) :
    Fixes g (takePreAllocated thread : Call V Entity) := by
  refine Fixes.bind (fixes_onWorker hg _) fun first => ?_
  split
  · exact Fixes.pure _
  · refine Fixes.bind ?_ fun _ => Fixes.bind (fixes_onWorker hg _) fun second => ?_
    · refine Fixes.focus ?_ _
      intro p w
      exact hg w _ _ w.dropped
    · split
      · exact Fixes.pure _
      · exact Fixes.fault _

/-- Dropping components is seen only in what was dropped. -/
theorem fixes_consuming (hg : OffQueues g) {val : Bundle V} {x : Call V α} (hx : Fixes g x) :
    Fixes g (consuming val x) := by
  refine Fixes.onFault hx ?_
  intro w
  exact hg w w.workerSpecs w.entityAllocator _

end Views

/-- Dropping the components of a failed call keeps what the call does to the registries. -/
theorem Grows.consuming {val : Bundle V} {x : Call V α} (hx : Grows x) :
    Grows (consuming val x) := by
  intro w h
  unfold WorldState.consuming
  rw [wp_onFault]
  exact wp_mono (hx w h) (fun _ _ hk => hk) (fun _ _ hk => hk.trans (grew_congr hk.1 rfl))

/-- Taking a command off its queue leaves the registries alone. -/
theorem core_popCmd (i : ℕ) : Fixes core (popCmd i : Call V (Option (CmdBuffer V))) := by
  refine Fixes.focus ?_ _
  intro s w
  rfl

end Workers

section Queries

/-- What asking for a query leaves alone. -/
def World.unqueried (w : World V) :=
  (w.archetypes,w.entityAllocator,w.workerSpecs,w.inParallelCompute)

/-- Registering components is seen only in their registry. -/
theorem unqueried_onComponents (x : Faulting ComponentSpecs XynokEcsError α) :
    Fixes World.unqueried (onComponents x : Call V α) := by
  intro w
  unfold onComponents
  split <;> rfl

/-- Preparing a query is seen only in the registries of components and queries. -/
theorem unqueried_prepareQuery (q : QueryShape Component) :
    Fixes World.unqueried (prepareQuerySrcAccess q : Call V ℕ) := by
  refine Fixes.getState fun w => Fixes.bind ?_ fun idx => Fixes.getState fun w => ?_
  · refine Fixes.getState fun w => ?_
    split
    · exact Fixes.pure _
    · refine Fixes.bind (unqueried_onComponents _) fun scope => Fixes.getState fun w => ?_
      exact Fixes.bind (Fixes.modifyState fun _ => rfl) fun _ => Fixes.pure _
  · split
    · exact Fixes.fault _
    · refine Fixes.bind ?_ fun _ => Fixes.pure _
      unfold onlyIf
      split
      · exact Fixes.modifyState fun _ => rfl
      · exact Fixes.pure ()

/-- Taking a tick is seen only in the tick. -/
theorem unqueried_advanceTick : Fixes World.unqueried (advanceTick : Call V ChangedTick) :=
  Fixes.bind (Fixes.modifyState fun _ => rfl) fun _ => Fixes.getState fun _ => Fixes.pure _

/-- Creating a query is seen only in the registries and the tick. -/
theorem unqueried_createQuerySince (q : QueryShape Component) (lastRunTick : ChangedTick) :
    Fixes World.unqueried (createQuerySince q lastRunTick : Call V QuerySpecAccessor) := by
  refine Fixes.bind unqueried_advanceTick fun _ => Fixes.mapFault ?_ _
  refine Fixes.bind (unqueried_prepareQuery q) fun _ => Fixes.getState fun w => ?_
  split
  · exact Fixes.pure _
  · exact Fixes.fault _

end Queries

section Actions

/-- Changing the result keeps what the call does to the world. -/
theorem Grows.map {x : Call V α} {f : α → β} (hx : Grows x) :
    Grows (do let a ← x; return f a : Call V β) := Grows.bind hx fun _ => Grows.pure _

/-- A command is the call of the world, or reaches its queue. -/
theorem Grows.deferred {x y : Call V α} (hx : Grows x) (hy : Grows y) :
    Grows (do let w ← FaultingState.getState; if !w.inParallelCompute then x else y) :=
  Grows.getState fun _ => by split <;> assumption

/-- Queueing a command leaves the registries alone. -/
theorem Grows.queued (cmd : CmdBuffer V) (thread : ℕ) :
    Grows (do
      CommandBuffer.warmUp thread
      CommandBuffer.pushCmd thread cmd) :=
  Grows.bind (Grows.of_fixes (fixes_warmUp offQueues_core)) fun _ => Grows.of_fixes (fixes_pushCmd offQueues_core cmd)

/-- So does taking a tick. -/
theorem Grows.advanceTick : Grows (advanceTick : Call V ChangedTick) :=
  Grows.bind (Grows.of_fixes (Fixes.modifyState fun _ => rfl)) fun _ =>
    Grows.getState fun _ => Grows.pure _

/-- Creating a query registers at most components and a shape. -/
theorem Grows.createQuerySince (q : QueryShape Component) (lastRunTick : ChangedTick) :
    Grows (createQuerySince q lastRunTick : Call V QuerySpecAccessor) := by
  refine Grows.bind Grows.advanceTick fun _ => Grows.mapFault ?_
  refine Grows.bind (Grows.prepareQuery q) fun _ => Grows.getState fun w => ?_
  split
  · exact Grows.pure _
  · exact Grows.fault _

/-- Writing through an item keeps registry and frame. -/
theorem Keeps.writeItem (l : RowLoc) (t : StorageType) (write : ItemWrite V) :
    Keeps False (writeItem l t write) :=
  Keeps.getState fun _ => Keeps.onArchetype _ fun _ => fixes_onChunk _ _

/-- A new world is in order. -/
theorem coreInv_new (runtime : Runtime) : CoreInv (World.new runtime : World V) :=
  ⟨registryInv_new False runtime,queryInv_new runtime⟩

variable [Inhabited V]

/-- Every call keeps, in either form. -/
theorem WorldCall.keeps (c : WorldCall V) (form : CallForm) : Keeps False (c.perform form) := by
  have hmap : ∀ {β : Type} {x : Call V β} (f : β → Outcome V),Keeps False x →
      Keeps False (do let a ← x; return f a : Call V (Outcome V)) := fun f hx =>
    Keeps.bind hx fun _ => Keeps.pure _
  have hret : Keeps False (c.perform .returning) := by
    cases c with
    | registerArchetype T cfg =>
      exact hmap _ (Keeps.of_registers fun _ h => ⟨_,tryRegisterArchetype_registers h False.elim cfg⟩)
    | registerSingleton T =>
      exact hmap _ (Keeps.of_registers fun _ h => ⟨_,tryRegisterSingleton_registers h False.elim⟩)
    | create val => exact hmap _ (Keeps.tryCreate False.elim)
    | createSingleton val => exact hmap _ (Keeps.tryCreateSingleton False.elim)
    | destroy e => exact hmap _ (Keeps.tryDestroy e)
    | addComponent e val => exact hmap _ (Keeps.tryAddComponent False.elim)
    | mergeComponent e val => exact hmap _ (Keeps.tryMergeComponent False.elim)
    | removeComponent T e => exact hmap _ (Keeps.tryRemoveComponent False.elim)
  cases form with
  | returning => exact hret
  | raising =>
    obtain ⟨g,hg⟩ := WorldCall.perform_raising c
    rw [hg]
    exact Keeps.mapFault hret

/-- So every call grows the world. -/
theorem WorldCall.grows (c : WorldCall V) (form : CallForm) : Grows (c.perform form) :=
  Grows.of_keeps (WorldCall.keeps c form)

/-- So does every command, queued or carried out at once. -/
theorem CmdCall.grows (c : CmdCall V) (thread : ℕ) (form : CallForm) :
    Grows (c.perform thread form) := by
  have hret : Grows (c.perform thread .returning) := by
    cases c with
    | create val =>
      refine Grows.map (Grows.deferred (Grows.of_keeps (Keeps.tryCreate False.elim)) ?_)
      refine Grows.consuming (Grows.bind (Grows.of_fixes (fixes_warmUp offQueues_core)) fun _ => ?_)
      exact Grows.bind (Grows.of_fixes (fixes_takePreAllocated offQueues_core)) fun e =>
        Grows.map (Grows.of_fixes (fixes_pushCmd offQueues_core _))
    | addComponent e val =>
      exact Grows.map (Grows.deferred (Grows.of_keeps (Keeps.tryAddComponent False.elim))
        (Grows.consuming (Grows.queued _ thread)))
    | mergeComponent e val =>
      exact Grows.map (Grows.deferred (Grows.of_keeps (Keeps.tryMergeComponent False.elim))
        (Grows.consuming (Grows.queued _ thread)))
    | removeComponent T e =>
      refine Grows.map (Grows.deferred ?_ ?_)
      · exact Grows.map (Grows.of_keeps (Keeps.tryRemoveComponent False.elim))
      · exact Grows.bind (Grows.of_fixes (fixes_warmUp offQueues_core)) fun _ =>
          Grows.map (Grows.of_fixes (fixes_pushCmd offQueues_core _))
    | destroy e =>
      exact Grows.map (Grows.deferred (Grows.of_keeps (Keeps.tryDestroy e)) (Grows.queued _ thread))
  cases form with
  | returning => exact hret
  | raising =>
    obtain ⟨g,hg⟩ := CmdCall.perform_raising thread c
    rw [hg]
    exact Grows.mapFault hret

/-- A command that is queued touches slots, queues and dropped values only. -/
theorem fixes_queued {ρ : Type} {g : World V → ρ} (hg : OffQueues g) (c : CmdCall V) (thread : ℕ)
    (form : CallForm) (hp : w.inParallelCompute=true) : g (c.perform thread form w).2=g w := by
  have hcond : ¬((!w.inParallelCompute)=true) := by rw [hp]; exact Bool.false_ne_true
  have hpush : ∀ cmd : CmdBuffer V,Fixes g (do
      CommandBuffer.warmUp thread
      CommandBuffer.pushCmd thread cmd) := fun cmd =>
    Fixes.bind (fixes_warmUp hg) fun _ => fixes_pushCmd hg cmd
  have hret : g (c.perform thread .returning w).2=g w := by
    cases c with
    | create val =>
      refine (Fixes.after (fun e => Fixes.pure _) w).trans ?_
      unfold Cmd.tryCreate
      rw [getState_bind,if_neg hcond]
      refine fixes_consuming hg (Fixes.bind (fixes_warmUp hg) fun _ => ?_) w
      exact Fixes.bind (fixes_takePreAllocated hg) fun e =>
        Fixes.bind (fixes_pushCmd hg _) fun _ => Fixes.pure _
    | addComponent e val =>
      refine (Fixes.after (fun _ => Fixes.pure _) w).trans ?_
      unfold Cmd.tryAddComponent
      rw [getState_bind,if_neg hcond]
      exact fixes_consuming hg (hpush _) w
    | mergeComponent e val =>
      refine (Fixes.after (fun _ => Fixes.pure _) w).trans ?_
      unfold Cmd.tryMergeComponent
      rw [getState_bind,if_neg hcond]
      exact fixes_consuming hg (hpush _) w
    | removeComponent T e =>
      refine (Fixes.after (fun _ => Fixes.pure _) w).trans ?_
      unfold Cmd.tryRemoveComponent
      rw [getState_bind,if_neg hcond]
      exact Fixes.bind (fixes_warmUp hg)
        (fun _ => Fixes.bind (fixes_pushCmd hg _) fun _ => Fixes.pure _) w
    | destroy e =>
      refine (Fixes.after (fun _ => Fixes.pure _) w).trans ?_
      unfold Cmd.tryDestroy
      rw [getState_bind,if_neg hcond]
      exact hpush _ w
  cases form with
  | returning => exact hret
  | raising =>
    obtain ⟨k,hk⟩ := CmdCall.perform_raising thread c
    rw [hk,mapFault_state]
    exact hret

/-- A command that is queued leaves the registries alone. -/
theorem core_queued (c : CmdCall V) (thread : ℕ) (form : CallForm)
    (hp : w.inParallelCompute=true) : core (c.perform thread form w).2=core w :=
  fixes_queued offQueues_core c thread form hp

/-- A queued command that runs, and fails perhaps. -/
theorem Keeps.run (cmd : CmdBuffer V) : Keeps False (CmdBuffer.run cmd) := by
  have herase : ∀ thread e err,Keeps False (eraseAndRaise thread e err : Call V Unit) :=
    fun _ _ _ => Keeps.bind (Keeps.onAllocator _) fun _ => Keeps.fault _
  cases cmd with
  | create thread e val => exact Keeps.onErr (Keeps.createComponentsFor False.elim) (herase thread e)
  | addComponent thread e val => exact Keeps.mapFault (Keeps.tryAddComponent False.elim)
  | mergeComponent thread e val => exact Keeps.mapFault (Keeps.tryMergeComponent False.elim)
  | removeComponent thread T e =>
    refine Keeps.mapFault (Keeps.bind (Keeps.tryRemoveComponent False.elim) fun _ => ?_)
    exact Keeps.modifyState (fun _ => rfl) fun _ => rfl
  | destroy thread e => exact Keeps.onErr (Keeps.tryDestroy e) (herase thread e)

/-- Applying a command grows the world as its call does. -/
theorem Grows.applyCmd (i : ℕ) : Grows (applyCmd i : Call V Bool) := by
  refine Grows.bind (Grows.of_fixes (core_popCmd i)) fun front => ?_
  split
  · exact Grows.bind (Grows.of_keeps (Keeps.run _)) fun _ => Grows.pure _
  · exact Grows.pure _

/-- Every action keeps the core of the world in order. -/
theorem Action.grows (a : Action V) : Grows a.perform := by
  cases a with
  | world form c => exact WorldCall.grows c form
  | cmd form thread c => exact CmdCall.grows c thread form
  | applyCmd i => exact Grows.map (Grows.applyCmd i)
  | setInParallelCompute val => exact Grows.map (Grows.of_fixes (Fixes.modifyState fun _ => rfl))
  | setExecutor present => exact Grows.map (Grows.of_fixes (Fixes.modifyState fun _ => rfl))
  | advanceTick => exact Grows.map Grows.advanceTick
  | captureCurrentTick =>
    exact Grows.map (Grows.getState fun _ => Grows.bind Grows.advanceTick fun _ => Grows.pure _)
  | createQuery q =>
    refine Grows.map (Grows.getState fun _ => ?_)
    exact Grows.bind (Grows.of_fixes (Fixes.modifyState fun _ => rfl)) fun _ =>
      Grows.createQuerySince q _
  | createQuerySince q lastRunTick => exact Grows.map (Grows.createQuerySince q lastRunTick)
  | prepareQuery q => exact Grows.map (Grows.prepareQuery q)
  | accessScope q => exact Grows.map (Grows.accessScope q)
  | write l t itemWrite => exact Grows.map (Grows.of_keeps (Keeps.writeItem l t itemWrite))

/-- Every action grows the world, whatever it ends in. -/
theorem Action.grew (a : Action V) (h : CoreInv w) : Grew w (a.step w) := wp_state (Action.grows a w h)

/-- A world and whatever happens to it. -/
theorem grew_run (as : List (Action V)) (h : CoreInv w) : Grew w (runAll Action.step as w) := by
  induction as generalizing w with
  | nil => exact Grew.refl h
  | cons a as ih => exact (Action.grew a h).trans (ih (Action.grew a h).1)

/-- The core of every world that can come about is in order. -/
theorem coreInv_run (runtime : Runtime) (as : List (Action V)) :
    CoreInv (runAll Action.step as (World.new runtime)) :=
  (grew_run as (coreInv_new runtime)).1

end Actions

end XynokEcs.WorldGrowth
