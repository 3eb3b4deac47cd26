import XynokEcs.WorldGrowth

/-!
# Locked archetypes

An archetype that forbids structure changes keeps its entities: adding, merging
and removing check the lock of both archetypes before a row moves, and only
creating and destroying bring an entity in or take it out. A call the lock
refuses leaves everything where it was, and merging components an entity has
already needs no move.
-/

namespace XynokEcs.LockedArchetypes

open ComponentTypes EntityHandle SequenceValueMap ChunkLayouts FaultingState ChunkRows RowWrites
  ArchetypeStore QueryShapes EntityAllocation SlotInvariants WorldState WorldCalls CommandBuffer
  RegistryInvariants RegistrySteps StoreInvariants StoreSteps RegistryFrame ArchetypeHomes
  EdgeOutcomes StructureChanges QueryAccess QuerySources ItemWrites WorkerQueues ActionRuns WorldRuns
  ActionEffects WorldGrowth

variable {V α : Type} {w w' : World V} {e : Entity} {T : TArchetype} {reserved : List Entity}

/-- The entity whose row is at a place of an archetype. -/
def World.resident (w : World V) (i : ℕ) (ix : EntityInChunkIndices) : Option Entity :=
  (World.row w ⟨i,ix⟩).map Prod.fst

/-- Every locked archetype has the entities it had, at the same places. -/
def Settled (w w' : World V) : Prop :=
  ∀ (i : ℕ) (spec : ArchetypeSpec V),w.archetypes.valueAt i=some spec →
    spec.allowStructureChange=false → ∀ ix,World.resident w' i ix=World.resident w i ix

section Frames

/-- Where archetypes stay, entities stay in them. -/
theorem settled_of_same (h : ∀ i,(w.archetypes.valueAt i).isSome →
    w'.archetypes.valueAt i=w.archetypes.valueAt i) : Settled w w' := by
  intro i spec hv _ ix
  rw [World.resident,World.resident,World.row,World.row,h i (Option.isSome_of_mem hv)]

/-- Entities stay behind locks where the registry stays. -/
theorem settled_archetypes (h : w'.archetypes=w.archetypes) : Settled w w' :=
  settled_of_same fun i _ => by rw [h]

/-- Registering archetypes moves no entity. -/
theorem settled_extends (h : Extends w w') : Settled w w' := by
  refine settled_of_same fun i hs => ?_
  obtain ⟨spec,hv⟩ := Option.isSome_iff_exists.mp hs
  rw [hv,h.kept i spec hv]

/-- A call that is refused moves no entity. -/
theorem settled_refused {drops : List (StorageType×V)} (h : Refused drops w w') :
    Settled w w' := by
  obtain ⟨w₁,he,rfl⟩ := h
  have hs : Settled w w₁ := settled_extends he
  exact hs

/-- What a registered archetype had, it still has after more are registered. -/
theorem Settled.extend {w₁ : World V} (he : Extends w w₁) (h : Settled w₁ w') :
    Settled w w' := by
  intro i spec hv hf ix
  exact (h i spec (he.kept i spec hv) hf ix).trans (settled_extends he i spec hv hf ix)

/-- What follows leaves the archetypes alone. -/
theorem Settled.same {w'' : World V} (h : Settled w w') (hs : w''.archetypes=w'.archetypes) :
    Settled w w'' := by
  intro i spec hv hf ix
  rw [←h i spec hv hf ix,World.resident,World.resident,World.row,World.row,hs]

/-- Replacing the rows of unlocked archetypes settles the locked ones. -/
theorem settled_setArch {i : ℕ} {spec : ArchetypeSpec V} (hv : w.archetypes.valueAt i=some spec)
    (hu : spec.allowStructureChange=true) (a : Archetype V) : Settled w (World.setArch w i a) := by
  intro j spec' hj hf ix
  have hne : i≠j := by
    rintro rfl
    rw [hv] at hj
    cases hj
    rw [hu] at hf
    cases hf
  rw [World.resident,World.resident,World.row,World.row,valueAt_setArch,if_neg hne]

/-- Replacing rows in a way that leaves every entity at its place. -/
theorem settled_entities {i : ℕ} {spec : ArchetypeSpec V} (hv : w.archetypes.valueAt i=some spec)
    {a : Archetype V} (ha : ∀ ix,(a.row spec.layout ix).map Prod.fst=
      (spec.arch.row spec.layout ix).map Prod.fst) : Settled w (World.setArch w i a) := by
  intro j spec' hj hf ix
  rw [World.resident,World.resident,World.row,World.row,valueAt_setArch]
  split
  · rename_i hij
    cases hij
    rw [hv]
    exact ha ix
  · rfl

end Frames

section Rows

variable {layout : ChunkLayout}

/-- What of a chunk says which entities it holds. -/
def occupants (c : Chunk V) : ℕ×(ℕ → Entity) := (c.len,c.entities)

/-- The same handles stand in the same rows. -/
theorem row_occupants {c c' : Chunk V} (h : occupants c'=occupants c) (r : ℕ) :
    (c'.row layout r).map Prod.fst=(c.row layout r).map Prod.fst := by
  obtain ⟨hl,he⟩ := Prod.mk.inj h
  rw [Chunk.row,Chunk.row,hl,he]
  split <;> rfl

variable (layout) in
/-- Work on a chunk that leaves its entities alone. -/
theorem onChunk_entities (i : ℕ) {x : Faulting (Chunk V) Fault α} (hx : Fixes occupants x)
    (a : Archetype V) (ix : EntityInChunkIndices) :
    ((onChunk i x a).2.row layout ix).map Prod.fst=(a.row layout ix).map Prod.fst := by
  cases hc : a.chunks[i]? with
  | none =>
    have hrun : onChunk i x a=(.error .undefinedBehaviour,a) := by
      unfold onChunk
      exact focus_missing hc
    rw [hrun]
  | some c =>
    cases hr : x c with
    | mk r c' =>
      have ho : occupants c'=occupants c := by
        have := hx c
        rwa [hr] at this
      rw [onChunk_eq hc hr]
      dsimp only
      rw [row_set hc]
      split
      · rename_i hi
        rw [Archetype.row,hi,hc]
        exact row_occupants ho ix.idxInChunk
      · rfl

/-- Setting a state moves no handle. -/
theorem occupants_setState (c : Component) (row : ℕ) (offset : StateOffset → Option ℕ)
    (name : String) (f : Cell V → Cell V) : Fixes occupants (setState c layout row offset name f) :=
  Fixes.bind (Fixes.ofExcept _) fun _ => Fixes.bind (Fixes.ofExcept _) fun _ =>
    Fixes.modifyState fun _ => rfl

/-- Replacing a value moves no handle. -/
theorem occupants_replaceAt (row : ℕ) (tick : ChangedTick) (c : Component) (v : V) :
    Fixes occupants (replaceAt layout row tick c v) := by
  refine Fixes.bind (Fixes.ofExcept _) fun _ => Fixes.bind (Fixes.modifyState fun _ => rfl) fun _ => ?_
  unfold onlyIf
  split
  · exact occupants_setState _ _ _ _ _
  · exact Fixes.pure ()

/-- Work item by item moves no handle if no item does. -/
theorem occupants_forItems {f : Component → V → Faulting (Chunk V) Fault Unit}
    (hf : ∀ c v,Fixes occupants (f c v)) (items : List (Component×V)) :
    Fixes occupants (forItems f items) := by
  induction items with
  | nil => exact Fixes.pure ()
  | cons p rest ih => exact Fixes.bind (hf p.1 p.2) fun _ => ih

variable (layout) in
/-- Rewriting a row in place moves no entity. -/
theorem replaceRowAt_entities (chunkIdx idx : ℕ) (val : Bundle V) (tick : ChangedTick)
    (a : Archetype V) (ix : EntityInChunkIndices) :
    ((replaceRowAt layout chunkIdx idx val tick a).2.row layout ix).map Prod.fst=
      (a.row layout ix).map Prod.fst := by
  unfold replaceRowAt
  cases hval : validateArchetypeWritable val.ty layout with
  | error err => rfl
  | ok _ => exact onChunk_entities _ _ (occupants_forItems (occupants_replaceAt idx tick) val.items) a ix

end Rows

section Moves

variable {isRemove : Bool} {slot : EntitySpec} {dstArchId : ℕ} {src dst : ArchetypeSpec V}

/-- Rows that move between unlocked archetypes leave the locked ones alone. -/
theorem onArchetypePair_settled {i j : ℕ} (hs : w.archetypes.valueAt i=some src)
    (hd : w.archetypes.valueAt j=some dst) (hu : Unlocked src dst)
    (x : ChunkLayout → ChunkLayout → Faulting (ArchetypePair V) Fault α) :
    Settled w (onArchetypePair i j x w).2 := by
  by_cases hij : i=j
  · have hrun : onArchetypePair i j x w=(.error (.panic .unwrapFailed),w) := by
      unfold onArchetypePair
      rw [hs,hd]
      dsimp only
      rw [if_pos hij]
    rw [hrun]
    exact settled_archetypes rfl
  · cases hr : x src.layout dst.layout ⟨dst.arch,src.arch⟩ with
    | mk r p =>
      rw [onArchetypePair_eq hs hd hij hr]
      intro k spec hk hf ix
      have hsrc := settled_setArch hs hu.1 p.src k spec hk hf ix
      have hne : i≠k := by
        rintro rfl
        rw [hs] at hk
        cases hk
        rw [hu.1] at hf
        cases hf
      have hd₁ : (World.setArch w i p.src).archetypes.valueAt j=some dst := by
        rw [valueAt_setArch,if_neg hij]
        exact hd
      have hk₁ : (World.setArch w i p.src).archetypes.valueAt k=some spec := by
        rw [valueAt_setArch,if_neg hne]
        exact hk
      exact (settled_setArch hd₁ hu.2 p.dst k spec hk₁ hf ix).trans hsrc

/-- A row that moves between unlocked archetypes crosses no lock. -/
theorem moveRow_settled (h : RegistryInv False w)
    (hr : EdgeReady isRemove ⟨slot.archId,T⟩ dstArchId src dst w) (hu : Unlocked src dst)
    (x : MigrationPlan → ChunkLayout → ChunkLayout → Faulting (ArchetypePair V) Fault (ResultTake×α)) :
    Settled w (moveRow isRemove e slot ⟨slot.archId,T⟩ dstArchId x w).2 := by
  rw [moveRow_eq h hr]
  refine (onArchetypePair_settled hr.source hr.target hu _).same (Fixes.after (fun result => ?_) w)
  refine Fixes.bind (archetypes_followSwapped _) fun _ => ?_
  exact Fixes.bind (archetypes_onAllocator _) fun _ => Fixes.pure _

/-- A part of a call that leaves a settled world, whichever way it ends. -/
theorem wp_settled {x : Call V α} {w₁ : World V} (he : Extends w w₁) (hx : Settled w₁ (x w₁).2) :
    wp x (fun _ w' => Settled w w') (fun _ w' => Settled w w') w₁ := by
  apply wp_intro
  · intro a w' hr
    rw [hr] at hx
    exact hx.extend he
  · intro f w' hr
    rw [hr] at hx
    exact hx.extend he

variable [Inhabited V] {val : Bundle V}

/-- `try_add_component` crosses no lock. -/
theorem tryAddComponent_settled (h : RegistryInv False w) :
    wp (tryAddComponent e val) (fun _ w' => Settled w w') (fun _ w' => Settled w w') w := by
  refine tryAddComponent_rule h False.elim (fun _ => settled_archetypes rfl) ?_ ?_
  · intro l slot f w₁ _ _ he hi _
    exact settled_refused (refused_of he hi _).2
  · intro l slot w₁ dstArchId src dst _ _ he hi hready _ hu
    exact wp_mono (wp_settled he (moveRow_settled hi hready hu _)) (fun _ _ hs => hs)
      (fun _ _ hs => hs.same rfl)

/-- `try_merge_component` crosses no lock. -/
theorem tryMergeComponent_settled (h : RegistryInv False w) :
    wp (tryMergeComponent e val) (fun _ w' => Settled w w') (fun _ w' => Settled w w') w := by
  refine tryMergeComponent_rule h False.elim (fun _ => settled_archetypes rfl) ?_ ?_ ?_
  · intro l slot f w₁ _ _ he hi _
    exact settled_refused (refused_of he hi _).2
  · intro l slot w₁ src _ _ he hi hsrc _ _ _
    refine wp_mono (wp_settled he ?_) (fun _ _ hs => hs) (fun _ _ hs => hs.same rfl)
    cases hr : replaceRowAt src.layout slot.chunkIdx slot.idxInChunk val w₁.tick src.arch with
    | mk r a =>
      rw [onArchetype_eq hi hsrc hr]
      refine settled_entities hsrc fun ix => ?_
      have hent := replaceRowAt_entities src.layout slot.chunkIdx slot.idxInChunk val w₁.tick
        src.arch ix
      rwa [hr] at hent
  · intro l slot w₁ dstArchId src dst _ _ he hi hready _ _ hu
    exact wp_mono (wp_settled he (moveRow_settled hi hready hu _)) (fun _ _ hs => hs)
      (fun _ _ hs => hs.same rfl)

/-- `try_remove_component` crosses no lock. -/
theorem tryRemoveComponent_settled (h : RegistryInv False w) :
    wp (tryRemoveComponent T e : Call V (Bundle V)) (fun _ w' => Settled w w')
      (fun _ w' => Settled w w') w := by
  refine tryRemoveComponent_rule h False.elim (fun _ => settled_archetypes rfl) ?_ ?_
  · intro l slot f w₁ _ _ he _ _
    exact settled_extends he
  · intro l slot w₁ dstArchId src dst _ _ he hi hready _ hu
    exact wp_settled he (moveRow_settled hi hready hu _)

end Moves

/-- The call brings an entity into an archetype or takes one out of it for good. -/
def WorldCall.createsOrDestroys : WorldCall V → Bool
  | .create _ | .createSingleton _ | .destroy _ => true
  | _ => false

/-- The same of a queued command. -/
def CmdBuffer.createsOrDestroys : CmdBuffer V → Bool
  | .create _ _ _ | .destroy _ _ => true
  | _ => false

/-- The action creates or destroys an entity now: a command that is queued does so
at the sync point. -/
def Action.createsOrDestroys (w : World V) : Action V → Bool
  | .world _ c => WorldCall.createsOrDestroys c
  | .cmd _ _ c => !w.inParallelCompute && WorldCall.createsOrDestroys c.direct
  | .applyCmd i => (World.front w i).any CmdBuffer.createsOrDestroys
  | _ => false

section Actions

/-- Calls that leave the registries alone cross none. -/
theorem settled_core {x : Call V α} (h : core (x w).2=core w) : Settled w (x w).2 :=
  settled_archetypes (congrArg (fun c => c.1.1) h)

/-- A write through an item moves no entity. -/
theorem writeItem_settled (h : RegistryInv False w) (l : RowLoc) (t : StorageType)
    (write : ItemWrite V) : Settled w (writeItem l t write w).2 := by
  refine wp_state (x:=writeThrough l t w.tick write) (I:=Settled w) ?_
  refine wp_mono (writeThrough_spec h l t w.tick write) (fun _ w' hw => ?_) fun _ w' hw => ?_
  · obtain ⟨spec,c,hr,rfl⟩ := hw
    obtain ⟨o,ho,-⟩ := reaches_iff.mp hr.reaches
    refine settled_entities hr.archetype fun ix => ?_
    rw [row_set_update hr.chunk (row_modifyCell hr.row ho _),Function.update_apply]
    split
    · rename_i hix
      rw [hix,Archetype.row,hr.chunk,Option.bind_some,Chunk.row,if_pos hr.row]
      rfl
    · rfl
  · exact settled_archetypes (congrArg World.archetypes hw.1)

variable [Inhabited V]

/-- A call of the world that creates and destroys nothing. -/
theorem WorldCall.settled (h : RegistryInv False w) {c : WorldCall V}
    (hc : WorldCall.createsOrDestroys c=false) (form : CallForm) :
    wp (c.perform form) (fun _ w' => Settled w w') (fun _ w' => Settled w w') w := by
  refine WorldCall.wp_form ?_ form
  have hregisters : ∀ {β : Type} {x : Call V β} {Q : β → World V → Prop},Registers False x w Q →
      wp x (fun _ w' => Settled w w') (fun _ w' => Settled w w') w := fun hx =>
    wp_mono hx (fun _ _ hr => settled_extends hr.1) (fun _ _ hr => settled_extends hr.1)
  cases c with
  | registerArchetype T cfg =>
    exact wp_bind.mpr (hregisters (tryRegisterArchetype_registers h False.elim cfg))
  | registerSingleton T =>
    exact wp_bind.mpr (hregisters (tryRegisterSingleton_registers h False.elim))
  | create val => cases hc
  | createSingleton val => cases hc
  | destroy e => cases hc
  | addComponent e val => exact wp_bind.mpr (tryAddComponent_settled h)
  | mergeComponent e val => exact wp_bind.mpr (tryMergeComponent_settled h)
  | removeComponent T e => exact wp_bind.mpr (tryRemoveComponent_settled h)

/-- A queued command that creates and destroys nothing. -/
theorem CmdBuffer.settled (h : RegistryInv False w) {cmd : CmdBuffer V}
    (hc : CmdBuffer.createsOrDestroys cmd=false) : Settled w (CmdBuffer.run cmd w).2 := by
  cases cmd with
  | create thread e val => cases hc
  | destroy thread e => cases hc
  | addComponent thread e val =>
    unfold CmdBuffer.run raiseAs
    rw [mapFault_state]
    exact wp_state (tryAddComponent_settled h)
  | mergeComponent thread e val =>
    unfold CmdBuffer.run raiseAs
    rw [mapFault_state]
    exact wp_state (tryMergeComponent_settled h)
  | removeComponent thread T e =>
    unfold CmdBuffer.run raiseAs
    rw [mapFault_state]
    have hs : Settled w (tryRemoveComponent T e w).2 := wp_state (tryRemoveComponent_settled h)
    have hdrop : ∀ b : Bundle V,Fixes World.archetypes (modifyState (fun w : World V =>
        { w with dropped := w.dropped++b.drops }) : Call V Unit) := by
      intro b
      refine Fixes.modifyState ?_
      intro w
      rfl
    exact hs.same (Fixes.after hdrop w)

/-- A queued command that neither creates nor destroys crosses no lock. -/
theorem applyCmd_settled (h : RegistryInv False w) {i : ℕ}
    (hc : (World.front w i).any CmdBuffer.createsOrDestroys=false) :
    Settled w (CommandBuffer.applyCmd i w).2 := by
  have hpop : (World.popped w i).archetypes=w.archetypes :=
    congrArg (fun c => c.1.1) (core_popCmd i w)
  cases hf : World.front w i with
  | none =>
    unfold CommandBuffer.applyCmd
    rcases popCmd_noFront hf with hrun | hrun
    · rw [bind_ok hrun]
      exact settled_archetypes rfl
    · rw [bind_error hrun]
      exact settled_archetypes rfl
  | some cmd =>
    rw [hf] at hc
    rw [applyCmd_front hf]
    have hreg : RegistryInv False (World.popped w i) :=
      RegistryInv.congr h (congrArg Prod.fst (core_popCmd i w))
    have hrun := CmdBuffer.settled hreg hc
    have hsame : ((do
        CmdBuffer.run cmd
        return true : Call V Bool) (World.popped w i)).2.archetypes=
        (CmdBuffer.run cmd (World.popped w i)).2.archetypes :=
      Fixes.after (fun _ => Fixes.pure _) _
    intro j spec hv hflag ix
    rw [←hpop] at hv
    refine (hrun.same hsame j spec hv hflag ix).trans ?_
    rw [World.resident,World.resident,World.row,World.row,hpop]

/-- No other action brings an entity into a locked archetype or takes one out. -/
theorem Action.settled (h : CoreInv w) {a : Action V} (ha : Action.createsOrDestroys w a=false) :
    Settled w (a.step w) := by
  have hthen : ∀ {β : Type} {x : Call V β} (f : β → Outcome V),Fixes World.unqueried x →
      Settled w ((x >>= fun r => return f r) w).2 := fun f hx =>
    settled_archetypes (congrArg Prod.fst (Fixes.bind hx (fun _ => Fixes.pure _) w))
  cases a with
  | world form c => exact wp_state (WorldCall.settled h.registry ha form)
  | cmd form thread c =>
    cases hp : w.inParallelCompute with
    | true => exact settled_core (core_queued c thread form hp)
    | false =>
      have hc : WorldCall.createsOrDestroys c.direct=false := by
        rw [Action.createsOrDestroys,hp] at ha
        exact ha
      have hdirect : Settled w (c.perform thread .returning w).2 := by
        rw [CmdCall.perform_direct c hp]
        exact wp_state (WorldCall.settled h.registry hc .returning)
      cases form with
      | returning => exact hdirect
      | raising =>
        obtain ⟨g,hg⟩ := CmdCall.perform_raising thread c
        change Settled w (c.perform thread .raising w).2
        rw [hg,mapFault_state]
        exact hdirect
  | applyCmd i =>
    exact (applyCmd_settled h.registry ha).same (Fixes.after (fun _ => Fixes.pure _) w)
  | setInParallelCompute val => exact settled_archetypes rfl
  | setExecutor present => exact settled_archetypes rfl
  | advanceTick => exact hthen _ unqueried_advanceTick
  | captureCurrentTick => exact settled_archetypes rfl
  | createQuery q =>
    refine hthen _ (Fixes.getState fun _ => ?_)
    exact Fixes.bind (Fixes.modifyState fun _ => rfl) fun _ => unqueried_createQuerySince q _
  | createQuerySince q lastRunTick => exact hthen _ (unqueried_createQuerySince q lastRunTick)
  | prepareQuery q => exact hthen _ (unqueried_prepareQuery q)
  | accessScope q => exact hthen _ (unqueried_onComponents _)
  | write l t itemWrite =>
    exact (writeItem_settled h.registry l t itemWrite).same (Fixes.after (fun _ => Fixes.pure _) w)

end Actions

section Outcomes

variable [Inhabited V]

/-- An entity that exists, with its slot and the archetype it is in. -/
structure LiveIn (w : World V) (e : Entity) (slot : EntitySpec) (src : ArchetypeSpec V) : Prop where
  /-- The allocator finds the entity. -/
  located : w.entityAllocator.locate e=some slot.loc
  /-- It is in its slot. -/
  stored : w.entityAllocator.entities[e.idx]?=some slot
  /-- The slot names a registered archetype. -/
  archetype : w.archetypes.valueAt slot.archId=some src

/-- How adding or removing ends when a lock is in its way: the entity stays where
it is, and the error names the lock unless the components named are there already,
or missing. That the archetypes the call asks for can be created is a condition. -/
structure RefusedByLock (isRemove : Bool) (w : World V) (e : Entity) (slot : EntitySpec)
    (src : ArchetypeSpec V) (T : TArchetype) (drops : List (StorageType×V))
    (out : Except Fault α×World V) : Prop where
  /-- The entity stays, and what was handed over is dropped. -/
  refused : Refused drops w out.2
  /-- The call does not succeed. -/
  failed : ∀ a,out.1≠.ok a
  /-- Components that are there already, or missing, are named first. -/
  mismatched : Resolvable (.chunked defaultArchetypeCfg) w T → ¬Fits isRemove src.layout T →
    out.1=.error (.err (mismatch isRemove e T))
  /-- Any others end at the lock. -/
  locked : Resolvable (.chunked defaultArchetypeCfg) w T → Fits isRemove src.layout T →
    EdgeResolvable isRemove (World.resolving w T) ⟨slot.archId,T⟩ →
    out.1=.error (.err (.structureChangeNotAllowed e.idx e.version T))

omit [Inhabited V] in
/-- The archetype of an entity is the same after the type was asked for. -/
theorem LiveIn.resolving {slot : EntitySpec} {src : ArchetypeSpec V} (h : RegistryInv False w)
    (hl : LiveIn w e slot src) (T : TArchetype) :
    (World.resolving w T).archetypes.valueAt slot.archId=some src := by
  have hext : wp (getOrCreateArchetypeId T) (fun _ w' => Extends w w') (fun _ w' => Extends w w')
      w :=
    wp_mono (getOrCreateArchetypeAs_spec h False.elim) (fun _ _ hr => hr.1) (fun _ _ hr => hr.1)
  exact (wp_state hext).kept _ _ hl.archetype

variable {slot : EntitySpec} {src : ArchetypeSpec V} {val : Bundle V}

omit [Inhabited V] in
/-- Every exit of adding or removing that a lock leaves open is a refusal. -/
theorem refusedByLock_exit {isRemove : Bool} (h : RegistryInv False w) (hl : LiveIn w e slot src)
    {slot' : EntitySpec} (hs : w.entityAllocator.entities[e.idx]?=some slot') {f : Fault}
    (hx : ChangeExit isRemove w e slot' T f) {drops : List (StorageType×V)}
    (hr : Refused drops w w') :
    RefusedByLock isRemove w e slot src T drops ((.error f,w') : Except Fault α×World V) := by
  rw [hl.stored] at hs
  cases hs
  have hsrc := hl.resolving h T
  have hpanic : ∀ {err : XynokEcsError},Panics f → f≠.err err := by
    rintro err ⟨p,rfl⟩
    exact nofun
  refine ⟨hr,fun _ => nofun,?_,?_⟩
  · intro hres hm
    cases hx with
    | unresolved hn _ => exact absurd hres hn
    | homeless hv _ => rw [hsrc] at hv; cases hv
    | mismatched _ _ _ => rfl
    | unreachable _ hv hf _ _ =>
      rw [hsrc] at hv
      cases hv
      exact absurd hf hm
    | locked _ hv hf _ _ =>
      rw [hsrc] at hv
      cases hv
      exact absurd hf hm
  · intro hres hf he
    cases hx with
    | unresolved hn _ => exact absurd hres hn
    | homeless hv _ => rw [hsrc] at hv; cases hv
    | mismatched _ hv hm =>
      rw [hsrc] at hv
      cases hv
      exact absurd hf hm
    | unreachable _ _ _ hn _ => exact absurd he hn
    | locked _ _ _ _ _ => rfl

/-- `try_add_component` is refused by a lock. -/
theorem tryAddComponent_locked (h : RegistryInv False w) (hl : LiveIn w e slot src)
    (hlock : Locked false w src val.ty) :
    RefusedByLock false w e slot src val.ty val.drops (tryAddComponent e val w) := by
  refine wp_outcome ?_
  refine tryAddComponent_rule h False.elim ?_ ?_ ?_
  · intro hn
    rw [hl.located] at hn
    cases hn
  · intro l slot' f w₁ _ hs he hi hx
    exact refusedByLock_exit h hl hs hx (refused_of he hi _).2
  · intro l slot' w₁ dstArchId src' dst _ hs he hi hready hmay _
    rw [hl.stored] at hs
    cases hs
    have hsame : src'=src :=
      Option.some.inj (hready.source.symm.trans (he.kept _ _ hl.archetype))
    subst hsame
    exact absurd hlock hmay.unlocked

/-- `try_remove_component` is refused by a lock. -/
theorem tryRemoveComponent_locked (h : RegistryInv False w) (hl : LiveIn w e slot src)
    (hlock : Locked true w src T) :
    RefusedByLock true w e slot src T [] (tryRemoveComponent T e w) := by
  refine wp_outcome ?_
  refine tryRemoveComponent_rule h False.elim ?_ ?_ ?_
  · intro hn
    rw [hl.located] at hn
    cases hn
  · intro l slot' f w₁ _ hs he hi hx
    exact refusedByLock_exit h hl hs hx (Extends.refused he)
  · intro l slot' w₁ dstArchId src' dst _ hs he hi hready hmay _
    rw [hl.stored] at hs
    cases hs
    have hsame : src'=src :=
      Option.some.inj (hready.source.symm.trans (he.kept _ _ hl.archetype))
    subst hsame
    exact absurd hlock hmay.unlocked

/-- How merging components ends that are not all there when a lock is in its way. -/
structure MergeRefusedByLock (w : World V) (e : Entity) (slot : EntitySpec) (val : Bundle V)
    (out : Except Fault Unit×World V) : Prop where
  /-- The entity stays, and what was handed over is dropped. -/
  refused : Refused val.drops w out.2
  /-- The call does not succeed. -/
  failed : ∀ a,out.1≠.ok a
  /-- The error names the lock. -/
  locked : EdgeResolvable false w ⟨slot.archId,val.ty⟩ →
    out.1=.error (.err (.structureChangeNotAllowed e.idx e.version val.ty))

/-- `try_merge_component` is refused by a lock, where the entity would move. -/
theorem tryMergeComponent_locked (h : RegistryInv False w) (hl : LiveIn w e slot src)
    (hlock : Locked false w src val.ty) (hm : ¬Fits true src.layout val.ty) :
    MergeRefusedByLock w e slot val (tryMergeComponent e val w) := by
  refine wp_outcome ?_
  refine tryMergeComponent_rule h False.elim ?_ ?_ ?_ ?_
  · intro hn
    rw [hl.located] at hn
    cases hn
  · intro l slot' f w₁ _ hs he hi hx
    rw [hl.stored] at hs
    cases hs
    refine ⟨(refused_of he hi _).2,fun _ => nofun,fun hres => ?_⟩
    cases hx with
    | homeless hv => rw [hl.archetype] at hv; cases hv
    | unreachable hn _ => exact absurd hres hn
    | locked _ _ _ _ => rfl
  · intro l slot' w₁ src' _ hs he _ hsrc _ _ hf
    rw [hl.stored] at hs
    cases hs
    have hsame : src'=src := Option.some.inj (hsrc.symm.trans (he.kept _ _ hl.archetype))
    subst hsame
    exact absurd hf hm
  · intro l slot' w₁ dstArchId src' dst _ hs he hi hready _ hfacts _
    rw [hl.stored] at hs
    cases hs
    have hsame : src'=src :=
      Option.some.inj (hready.source.symm.trans (he.kept _ _ hl.archetype))
    subst hsame
    exact absurd hlock (hfacts hl.archetype).2.2

/-- Merging components an entity has rewrites its row, locked or not. -/
theorem tryMergeComponent_present (h : StoreInv False reserved w) (hl : LiveIn w e slot src)
    (hf : Fits true src.layout val.ty) (he : EdgeResolvable false w ⟨slot.archId,val.ty⟩)
    (hw : ∀ c∈val.ty.components,Writable src.layout c) :
    ∃ w',tryMergeComponent e val w=(.ok (),w') := by
  have hrun : wp (tryMergeComponent e val) (fun _ _ => True) (fun _ _ => False) w := by
    refine tryMergeComponent_rule h.registry False.elim ?_ ?_ ?_ ?_
    · intro hn
      rw [hl.located] at hn
      cases hn
    · intro l slot' f w₁ _ hs _ _ hx
      rw [hl.stored] at hs
      cases hs
      cases hx with
      | homeless hv => rw [hl.archetype] at hv; cases hv
      | unreachable hn _ => exact absurd he hn
      | locked hv _ hm _ =>
        rw [hl.archetype] at hv
        cases hv
        exact absurd hf hm
    · intro l slot' w₁ src' hloc hs hext hi hsrc hn _ _
      rw [hl.stored] at hs
      cases hs
      have hsame : src'=src := Option.some.inj (hsrc.symm.trans (hext.kept _ _ hl.archetype))
      subst hsame
      obtain ⟨c,-,hfound⟩ := StoreInv.found_extend h hloc hl.stored hext hsrc
      obtain ⟨a,d,hr,-⟩ := replaceRowAt_spec ((h.extend hext hi).sound _ _ hsrc) hfound.chunk
        hfound.lt (Accepts.mk hn hw) w₁.tick
      unfold wp
      rw [onArchetype_eq hi hsrc hr]
      trivial
    · intro l slot' w₁ dstArchId src' dst _ hs hext hi hready _ hfacts _
      rw [hl.stored] at hs
      cases hs
      have hsame : src'=src :=
        Option.some.inj (hready.source.symm.trans (hext.kept _ _ hl.archetype))
      subst hsame
      exact absurd hf (hfacts hl.archetype).2.1
  cases hr : tryMergeComponent e val w with
  | mk r w' => cases r with
    | ok a => exact ⟨w',rfl⟩
    | error f => exact (wp_of_error hrun hr).elim

omit [Inhabited V] in
/-- A layout that keeps what the storage types declare takes every declared
component it has a column for. -/
theorem writable_of_declared {layout : ChunkLayout} (hd : Declared layout)
    (hT : T.isDeclared=true) (hf : Fits true layout T) : ∀ c∈T.components,Writable layout c := by
  intro c hc
  have hstate := Component.stateDetection_of_isDeclared (List.all_eq_true.mp hT c hc)
  obtain ⟨d,hl⟩ := AList.lookup_isSome.mpr (hf c.storageType (List.mem_map_of_mem hc))
    |> Option.isSome_iff_exists.mp
  have hm := hd _ d hl
  refine ⟨d,hl,fun he => ?_,fun hch => ⟨?_,?_⟩⟩
  · rw [hm.enable,←hstate]
    exact he
  · rw [hm.added,←hstate]
    exact hch
  · rw [hm.changed,←hstate]
    exact hch

/-- What holds of the locked archetypes of a world, whatever comes next. -/
structure LocksHold (w : World V) : Prop where
  /-- No action changes whether an archetype is locked. -/
  flags : ∀ (a : Action V) (i : ℕ) (spec : ArchetypeSpec V),w.archetypes.valueAt i=some spec →
    ∃ spec',(a.step w).archetypes.valueAt i=some spec' ∧
      spec'.allowStructureChange=spec.allowStructureChange
  /-- Only creating and destroying changes who is in a locked archetype. -/
  settled : ∀ a : Action V,Action.createsOrDestroys w a=false → Settled w (a.step w)
  /-- Adding to an entity behind a lock is refused. -/
  add : ∀ e slot src val,LiveIn w e slot src → Locked false w src val.ty →
    RefusedByLock false w e slot src val.ty val.drops (tryAddComponent e val w)
  /-- Removing from an entity behind a lock is refused. -/
  remove : ∀ e slot src T,LiveIn w e slot src → Locked true w src T →
    RefusedByLock true w e slot src T [] (tryRemoveComponent T e w)
  /-- A merge that would move an entity behind a lock is refused. -/
  merge : ∀ e slot src val,LiveIn w e slot src → Locked false w src val.ty →
    ¬Fits true src.layout val.ty → MergeRefusedByLock w e slot val (tryMergeComponent e val w)

/-- Merging components that are all there succeeds, where the archetype of the
bundle exists or can be created and the layout takes the components. -/
def MergesInPlace (w : World V) : Prop :=
  ∀ e slot src val,LiveIn w e slot src → Fits true src.layout val.ty →
    EdgeResolvable false w ⟨slot.archId,val.ty⟩ → (∀ c∈val.ty.components,Writable src.layout c) →
    ∃ w',tryMergeComponent e val w=(.ok (),w') ∧ Settled w w'

/-- Declared components fit the archetypes of the world that have them. -/
def DeclaredWritable (w : World V) : Prop :=
  ∀ (i : ℕ) (src : ArchetypeSpec V) (T : TArchetype),w.archetypes.valueAt i=some src →
    T.isDeclared=true → Fits true src.layout T → ∀ c∈T.components,Writable src.layout c

/-- In every world a run of any actions reaches, locked archetypes keep their flag
and, but for creating and destroying, their entities. Merging in place succeeds
where queued destroys named entities that existed, for declared components where
all components are. -/
theorem locked_archetypes_hold (runtime : Runtime) (as : List (Action V)) :
    LocksHold (runAll Action.step as (World.new runtime)) ∧
    (Along Action.step (Proper False) as (World.new runtime) →
      MergesInPlace (runAll Action.step as (World.new runtime))) ∧
    (Along Action.step (Proper True) as (World.new runtime) →
      DeclaredWritable (runAll Action.step as (World.new runtime))) := by
  have hcore := coreInv_run runtime as
  refine ⟨⟨?_,?_,?_,?_,?_⟩,?_,?_⟩
  · intro a i spec hv
    obtain ⟨spec',hv',-,hflag,-⟩ := (Action.grew a hcore).2.kept i spec hv
    exact ⟨spec',hv',hflag⟩
  · exact fun a ha => Action.settled hcore ha
  · exact fun e slot src val hl hlock => tryAddComponent_locked hcore.registry hl hlock
  · exact fun e slot src T hl hlock => tryRemoveComponent_locked hcore.registry hl hlock
  · exact fun e slot src val hl hlock hm => tryMergeComponent_locked hcore.registry hl hlock hm
  · intro ha e slot src val hl hf he hw
    have hinv := (runInv_run (runInv_new False runtime) ha).inv
    obtain ⟨w',hrun⟩ := tryMergeComponent_present hinv.store hl hf he hw
    have hs := wp_of_ok (tryMergeComponent_settled hcore.registry) hrun
    exact ⟨w',hrun,hs⟩
  · intro ha i src T hv hT hf
    have hinv := (runInv_run (runInv_new True runtime) ha).inv
    exact writable_of_declared (hinv.store.registry.declared_layouts trivial i src hv) hT hf

/-- An entity in a locked archetype. -/
def lockedRun : List (Action ℕ) := [
  .world .returning (.registerArchetype (.single (plain 0)) ⟨16384,false⟩),
  .world .returning (.create (.single (plain 0) 1))]

set_option maxRecDepth 20000 in
/-- Adding a component it has to an entity in a locked archetype names the
component, not the lock. -/
theorem lockedRun_names_component :
    let w := runAll Action.step lockedRun (World.new inOrder)
    (w.entityAllocator.locate (WorldRuns.handle 0 1)).bind (fun l =>
      (w.archetypes.valueAt l.archId).map ArchetypeSpec.allowStructureChange)=some false ∧
    (tryAddComponent (WorldRuns.handle 0 1) (.single (plain 0) 2) w).1=
      .error (.err (.componentAlreadyExists 0 1 (.single (plain 0)))) := by
  decide +kernel

end Outcomes

end XynokEcs.LockedArchetypes
