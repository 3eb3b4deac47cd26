import XynokEcs.SingletonRows
import XynokEcs.ChunkMemory

/-!
# The layouts of a world

An archetype gets its layout when it is registered and keeps it. It comes from the
layout search on every path that registers one, so in each world a run reaches the
regions of every chunk are aligned, inside the chunk and apart from each other.
-/

namespace XynokEcs.BuiltLayouts

open ComponentTypes EntityHandle SequenceValueMap ChunkLayouts LayoutPlacement FaultingState RowDirectory
  ChunkRows StoreInvariants RowWrites ArchetypeStore QueryShapes EntityAllocation WorldState WorldCalls
  CommandBuffer RegistryInvariants RegistrySteps RegistryFrame ArchetypeHomes EdgeOutcomes QueryAccess
  QuerySources ItemWrites WorkerQueues ActionRuns WorldRuns WorldGrowth CommandQueues
  ActionEffects LayoutRegions ChunkMemory

open SingletonRows (archetypes_getArchetype archetypes_componentIds)

variable {V α β : Type} {w w' : World V} {T : TArchetype} {e : Entity} {i : ℕ}
  {spec : ArchetypeSpec V}

/-- The layout of each archetype. -/
def World.layoutAt (w : World V) (i : ℕ) : Option ChunkLayout :=
  (w.archetypes.valueAt i).map ArchetypeSpec.layout

/-- A layout the crate built. -/
def Made (l : ChunkLayout) : Prop := ∃ specs components,Built specs components l

/-- Every archetype of the world has a layout the crate built. -/
def AllMade (w : World V) : Prop := ∀ (i : ℕ) (l : ChunkLayout),World.layoutAt w i=some l → Made l

section Frames

/-- A call that leaves the layouts alone keeps them made. -/
theorem stays_layouts {x : Call V α} (hx : Fixes World.layoutAt x) : Stays AllMade x := by
  refine Stays.of_fixes hx fun s t ht h i l hl => h i l ?_
  rw [←ht]
  exact hl

/-- A call that leaves the archetypes alone leaves their layouts alone. -/
theorem layouts_archetypes {x : Call V α} (hx : Fixes World.archetypes x) : Fixes World.layoutAt x := by
  intro w
  unfold World.layoutAt
  rw [hx w]

/-- So it keeps them made. -/
theorem stays_archetypes {x : Call V α} (hx : Fixes World.archetypes x) : Stays AllMade x :=
  stays_layouts (layouts_archetypes hx)

/-- Rows come and go under the layout an archetype has. -/
theorem layouts_modifyAt (m : SequenceValueHashMap ℕ (ArchetypeSpec V)) (i j : ℕ) (a : Archetype V) :
    ((m.modifyAt i fun spec => { spec with arch := a }).valueAt j).map ArchetypeSpec.layout=
      (m.valueAt j).map ArchetypeSpec.layout := by
  rw [SequenceValueHashMap.valueAt_modifyAt]
  split
  · rw [Option.map_map]
    rfl
  · rfl

/-- Work on the chunks of an archetype leaves the layouts alone. -/
theorem layouts_onArchetype (i : ℕ) (x : ChunkLayout → Faulting (Archetype V) Fault α) :
    Fixes World.layoutAt (onArchetype i x) := by
  refine Fixes.bind (layouts_archetypes (archetypes_getArchetype i)) fun spec => Fixes.focus ?_ _
  intro a w
  funext j
  unfold World.layoutAt SequenceValueHashMap.modify
  dsimp only
  split
  · exact layouts_modifyAt _ _ j a
  · rfl

/-- Work on the chunks of two archetypes leaves the layouts alone. -/
theorem layouts_onArchetypePair (s t : ℕ)
    (x : ChunkLayout → ChunkLayout → Faulting (ArchetypePair V) Fault α) :
    Fixes World.layoutAt (onArchetypePair s t x) := by
  intro w
  unfold onArchetypePair
  split
  · split
    · rfl
    · refine Fixes.focus (g:=World.layoutAt) (fun p w => ?_) _ w
      funext j
      unfold World.layoutAt putPair
      exact (layouts_modifyAt _ _ j p.dst).trans (layouts_modifyAt _ _ j p.src)
  · rfl

/-- Work on the slots leaves the layouts alone. -/
theorem layouts_onAllocator (x : Faulting EntityAllocator Fault α) :
    Fixes World.layoutAt (onAllocator x : Call V α) := layouts_archetypes (archetypes_onAllocator x)

/-- Moving a row leaves the layouts alone. -/
theorem layouts_moveRow (isRemove : Bool) (slot : EntitySpec) (key : ArchetypeEdgeKey) (archId : ℕ)
    (x : MigrationPlan → ChunkLayout → ChunkLayout → Faulting (ArchetypePair V) Fault (ResultTake×α)) :
    Fixes World.layoutAt (moveRow isRemove e slot key archId x) := by
  have hindex : ∀ j,Fixes World.layoutAt (archetypeIndex j : Call V ℕ) := by
    intro j
    refine Fixes.getState fun w => ?_
    split
    · exact Fixes.pure _
    · exact Fixes.fault _
  refine Fixes.bind (hindex _) fun s => Fixes.bind (hindex _) fun t => Fixes.getState fun w => ?_
  split
  · exact Fixes.fault _
  · refine Fixes.bind (layouts_onArchetypePair _ _ _) fun result => ?_
    refine Fixes.bind (layouts_archetypes (archetypes_followSwapped _)) fun _ => ?_
    exact Fixes.bind (layouts_onAllocator _) fun _ => Fixes.pure _

/-- The check for locks leaves the layouts alone. -/
theorem layouts_check (T : TArchetype) (e : Entity) (srcArchId dstArchId : ℕ) :
    Fixes World.layoutAt (checkStructureChange T e srcArchId dstArchId : Call V Unit) := by
  refine layouts_archetypes (Fixes.bind (archetypes_getArchetype _) fun src => ?_)
  refine Fixes.bind (archetypes_getArchetype _) fun dst => ?_
  split
  · exact Fixes.fault _
  · exact Fixes.pure _

end Frames

section Registering

/-- What an index holds after an insertion was there or was inserted. -/
theorem valueAt_insert {K U : Type} [DecidableEq K] {m : SequenceValueHashMap K U} {k : K} {u v : U} {j : ℕ}
    (h : (m.insert k v).1.valueAt j=some u) : u=v ∨ m.valueAt j=some u := by
  unfold SequenceValueHashMap.insert at h
  split at h
  · dsimp only at h
    rw [SequenceValueHashMap.valueAt_modifyAt] at h
    split at h
    · obtain ⟨-,-,hv⟩ := Option.map_eq_some_iff.mp h
      exact .inl hv.symm
    · exact .inr h
  · dsimp only at h
    rw [SequenceValueHashMap.valueAt_push] at h
    split at h
    · exact .inl (Option.some.inj h).symm
    · exact .inr h

/-- Registering a made layout. -/
theorem stays_register (set : List ℕ) (hs : Made spec.layout) :
    Stays AllMade (registerArchetypeSpec set spec : Call V ℕ) := by
  refine Stays.getState fun w => ?_
  dsimp only
  split
  · exact Stays.fault _
  · refine Stays.bind ?_ fun _ => Stays.bind (stays_archetypes (Fixes.modifyState fun _ => rfl)) fun _ =>
      Stays.pure _
    intro w h j l hl
    obtain ⟨s,hv,rfl⟩ := Option.map_eq_some_iff.mp hl
    cases valueAt_insert hv with
    | inl he => exact he ▸ hs
    | inr hv => exact h j s.layout (Option.map_eq_some_iff.mpr ⟨s,hv,rfl⟩)

/-- The layout of a new archetype comes out of one of the searches. -/
theorem layoutFor_made {kind : ArchetypeKind} {specs : ComponentSpecs} {layout : ChunkLayout}
    (hl : layoutFor kind specs T=.ok layout) : Made layout := by
  cases kind with
  | chunked cfg => exact ⟨specs,T.descriptors,.inl ⟨cfg.chunkSizeInByte,hl⟩⟩
  | singleton => exact ⟨specs,T.descriptors,.inr hl⟩

/-- The layout of a derived archetype comes out of the search, too. -/
theorem derivedArchetype_made {specs : ComponentSpecs} {components : List ComponentDescriptor}
    (h : derivedArchetype specs components=.ok spec) : Made spec.layout := by
  unfold derivedArchetype at h
  split at h
  · rename_i layout hl
    cases h
    exact ⟨specs,components,.inl ⟨defaultChunkSizeInByte,hl⟩⟩
  · cases h

/-- Creating an archetype leaves the world alone and gives one whose layout was searched for. -/
theorem createArchetype_made (T : TArchetype) (kind : ArchetypeKind) (w : World V) :
    (createArchetype T kind w).2=w ∧
      ∀ spec w',createArchetype T kind w=(.ok spec,w') → Made spec.layout := by
  cases hl : layoutFor kind w.componentCounter T with
  | ok layout =>
    rw [createArchetype_ok hl]
    refine ⟨rfl,fun spec w' hr => ?_⟩
    cases hr
    exact layoutFor_made hl
  | error e =>
    rw [createArchetype_error hl]
    refine ⟨rfl,fun spec w' hr => ?_⟩
    cases hr

/-- Creating an archetype on demand keeps all layouts made. -/
theorem stays_getOrCreate (T : TArchetype) (kind : ArchetypeKind) :
    Stays AllMade (getOrCreateArchetypeAs T kind : Call V ℕ) := by
  have hremember : ∀ id,Stays AllMade ((do
      modifyState fun w => { w with archetypeCounter := w.archetypeCounter.insert T id }
      return id : Call V ℕ)) := fun id =>
    Stays.bind (stays_archetypes (Fixes.modifyState fun _ => rfl)) fun _ => Stays.pure _
  refine Stays.getState fun w => ?_
  split
  · exact Stays.pure _
  · unfold createArchetypeId
    split
    · exact Stays.fault _
    · refine Stays.getState fun w => Stays.bind (stays_archetypes (Fixes.modifyState fun _ => rfl)) fun _ => ?_
      dsimp only
      split
      · exact hremember _
      · intro w h
        have hcreate := createArchetype_made T kind w
        have hsame : AllMade (createArchetype T kind w).2 := hcreate.1.symm ▸ h
        refine holds_bind hsame fun spec t hr ht => ?_
        exact Stays.bind (stays_register _ (hcreate.2 spec t hr)) hremember t ht

/-- Deriving an archetype keeps all layouts made. -/
theorem stays_derived (isRemove : Bool) (set : List ℕ) (aArchId bArchId : ℕ) :
    Stays AllMade (getOrCreateDerived isRemove set aArchId bArchId : Call V ℕ) := by
  refine Stays.getState fun w => ?_
  split
  · exact Stays.pure _
  · refine Stays.bind (stays_archetypes (archetypes_getArchetype _)) fun a => ?_
    refine Stays.bind (stays_archetypes (archetypes_getArchetype _)) fun b => Stays.getState fun w => ?_
    have hreg : ∀ {spec : ArchetypeSpec V},derivedSpec isRemove w aArchId bArchId a b=.ok spec →
        Stays AllMade (registerArchetypeSpec set spec : Call V ℕ) := by
      intro spec hd
      obtain ⟨comps,hmade⟩ := derivedSpec_made hd
      exact stays_register set (derivedArchetype_made hmade)
    cases isRemove with
    | true =>
      dsimp only
      split
      · exact hreg ‹_›
      · exact Stays.fault _
    | false =>
      dsimp only
      split
      · exact hreg ‹_›
      · exact Stays.fault _

/-- Creating an edge keeps all layouts made. -/
theorem stays_edge (isRemove : Bool) (key : ArchetypeEdgeKey) :
    Stays AllMade (getOrCreateEdge isRemove key : Call V ℕ) := by
  refine Stays.getState fun w => ?_
  split
  · exact Stays.pure _
  · refine Stays.bind (stays_getOrCreate _ _) fun b => ?_
    refine Stays.bind (stays_archetypes (archetypes_componentIds _)) fun aIds => ?_
    refine Stays.bind (stays_archetypes (archetypes_componentIds _)) fun bIds => ?_
    refine Stays.bind (stays_derived _ _ _ _) fun dst => Stays.bind ?_ fun _ => Stays.pure _
    refine stays_archetypes (Fixes.bind (archetypes_getArchetype _) fun src => ?_)
    refine Fixes.bind (archetypes_getArchetype _) fun dst => ?_
    dsimp only
    split <;> exact Fixes.modifyState fun _ => rfl

/-- Creating the archetype of a singleton keeps all layouts made. -/
theorem stays_getOrCreateSingleton (T : TArchetype) :
    Stays AllMade (getOrCreateSingletonArchetypeId T : Call V ℕ) := by
  refine Stays.bind (stays_getOrCreate _ _) fun archId => ?_
  refine Stays.bind (stays_archetypes (archetypes_getArchetype _)) fun spec => ?_
  split
  · exact Stays.fault _
  · exact Stays.pure _

end Registering

section Calls

variable {val : Bundle V}

/-- Dropping the components of a failed call keeps all layouts made. -/
theorem stays_consuming {x : Call V α} (hx : Stays AllMade x) : Stays AllMade (consuming val x) :=
  Stays.onFault hx fun _ h => h

/-- A call on an entity that exists keeps them made, if what it goes on with does. -/
theorem stays_withExisting {f : EntitySpec → Call V α} (hf : ∀ slot,Stays AllMade (f slot)) :
    Stays AllMade (withExisting e f) := by
  refine Stays.getState fun w => ?_
  split
  · exact Stays.fault _
  · split
    · exact hf _
    · exact Stays.fault _

/-- `try_destroy` creates no archetype. -/
theorem stays_tryDestroy (e : Entity) : Stays AllMade (tryDestroy e : Call V Unit) := by
  refine stays_withExisting fun slot => stays_layouts ?_
  refine Fixes.bind (layouts_onArchetype _ _) fun row => ?_
  exact Fixes.bind (layouts_archetypes (archetypes_followSwapped row)) fun _ => layouts_onAllocator _

/-- A call and the handler of its errors keep layouts made together. -/
theorem stays_onErr {x : Call V α} (hx : Stays AllMade x) {handler : XynokEcsError → Call V α}
    (hh : ∀ err,Stays AllMade (handler err)) : Stays AllMade (onErr x handler) := by
  intro w h
  refine holds_handle (hx w h) fun f => ?_
  split
  · exact hh _
  · exact Stays.fault _

variable [Inhabited V]

/-- `create_components_for` creates archetypes on demand only. -/
theorem stays_createComponentsFor (e : Entity) (val : Bundle V) :
    Stays AllMade (createComponentsFor e val) := by
  refine stays_consuming (Stays.bind (stays_getOrCreate _ _) fun archId => ?_)
  refine Stays.bind (stays_archetypes (archetypes_getArchetype _)) fun spec => ?_
  split
  · exact Stays.fault _
  · refine Stays.getState fun w => stays_layouts ?_
    exact Fixes.bind (layouts_onArchetype _ _) fun ix => layouts_onAllocator _

/-- `try_create` creates archetypes on demand only. -/
theorem stays_tryCreate (val : Bundle V) : Stays AllMade (tryCreate val) := by
  refine Stays.bind (stays_consuming (stays_layouts (layouts_onAllocator _))) fun newE => ?_
  exact Stays.bind (stays_createComponentsFor newE val) fun _ => Stays.pure _

/-- `try_create_singleton` creates archetypes on demand only. -/
theorem stays_tryCreateSingleton (val : Bundle V) : Stays AllMade (tryCreateSingleton val) := by
  refine stays_consuming (Stays.bind (stays_getOrCreateSingleton _) fun archId => ?_)
  refine Stays.bind (stays_archetypes (archetypes_getArchetype _)) fun spec => ?_
  split
  · exact Stays.fault _
  · refine Stays.bind (stays_layouts (layouts_onAllocator _)) fun newE => Stays.getState fun w => ?_
    refine Stays.bind (stays_onErr (stays_layouts (layouts_onArchetype _ _)) fun err => ?_) fun ix => ?_
    · exact stays_layouts (Fixes.bind (layouts_onAllocator _) fun _ => Fixes.fault _)
    · exact stays_layouts (Fixes.bind (layouts_onAllocator _) fun _ => Fixes.pure _)

/-- `try_remove_component` creates and derives archetypes at most. -/
theorem stays_tryRemoveComponent (T : TArchetype) (e : Entity) :
    Stays AllMade (tryRemoveComponent T e : Call V (Bundle V)) := by
  refine stays_withExisting fun slot => ?_
  refine Stays.bind (stays_getOrCreate _ _) fun b => ?_
  refine Stays.bind (stays_archetypes (archetypes_getArchetype _)) fun a => ?_
  refine Stays.bind (stays_archetypes (archetypes_getArchetype _)) fun b => ?_
  split
  · exact Stays.fault _
  · refine Stays.bind (stays_edge _ _) fun dst => stays_layouts ?_
    exact Fixes.bind (layouts_check _ _ _ _) fun _ => layouts_moveRow _ _ _ _ _

/-- `try_add_component` creates and derives archetypes at most. -/
theorem stays_tryAddComponent (e : Entity) (val : Bundle V) : Stays AllMade (tryAddComponent e val) := by
  refine stays_consuming (stays_withExisting fun slot => ?_)
  refine Stays.bind (stays_getOrCreate _ _) fun b => ?_
  refine Stays.bind (stays_archetypes (archetypes_getArchetype _)) fun a => ?_
  refine Stays.bind (stays_archetypes (archetypes_getArchetype _)) fun b => ?_
  split
  · exact Stays.fault _
  · refine Stays.bind (stays_edge _ _) fun dst => stays_layouts ?_
    refine Fixes.bind (layouts_check _ _ _ _) fun _ => Fixes.getState fun w => ?_
    exact layouts_moveRow _ _ _ _ _

/-- `try_merge_component` creates and derives archetypes at most. -/
theorem stays_tryMergeComponent (e : Entity) (val : Bundle V) :
    Stays AllMade (tryMergeComponent e val) := by
  refine stays_consuming (stays_withExisting fun slot => ?_)
  refine Stays.bind (stays_edge _ _) fun dst => Stays.getState fun w => ?_
  split
  · exact stays_layouts (layouts_onArchetype _ _)
  · exact stays_layouts (Fixes.bind (layouts_check _ _ _ _) fun _ => layouts_moveRow _ _ _ _ _)

/-- Every call keeps all layouts made. -/
theorem WorldCall.stays (c : WorldCall V) (form : CallForm) : Stays AllMade (c.perform form) := by
  have hmap : ∀ {β : Type} {x : Call V β} (f : β → Outcome V),Stays AllMade x →
      Stays AllMade (do let a ← x; return f a : Call V (Outcome V)) := fun f hx =>
    Stays.bind hx fun _ => Stays.pure _
  have hret : Stays AllMade (c.perform .returning) := by
    cases c with
    | registerArchetype T cfg =>
      refine hmap _ (Stays.bind (stays_archetypes (Fixes.ofExcept _)) fun _ => ?_)
      refine Stays.bind (stays_getOrCreate _ _) fun archId => ?_
      refine stays_archetypes (Fixes.bind (archetypes_getArchetype _) fun spec => ?_)
      split
      · exact Fixes.fault _
      · split
        · exact Fixes.fault _
        · split
          · exact Fixes.fault _
          · exact Fixes.pure _
    | registerSingleton T => exact hmap _ (Stays.bind (stays_getOrCreateSingleton T) fun _ => Stays.pure _)
    | create val => exact hmap _ (stays_tryCreate val)
    | createSingleton val => exact hmap _ (stays_tryCreateSingleton val)
    | destroy e => exact hmap _ (stays_tryDestroy e)
    | addComponent e val => exact hmap _ (stays_tryAddComponent e val)
    | mergeComponent e val => exact hmap _ (stays_tryMergeComponent e val)
    | removeComponent T e => exact hmap _ (stays_tryRemoveComponent T e)
  cases form with
  | returning => exact hret
  | raising =>
    obtain ⟨g,hg⟩ := WorldCall.perform_raising c
    rw [hg]
    exact Stays.mapFault hret g

/-- A queued command keeps all layouts made when it is applied. -/
theorem CmdBuffer.stays (cmd : CmdBuffer V) : Stays AllMade (CmdBuffer.run cmd) := by
  have honErr : ∀ {x : Call V Unit},Stays AllMade x → ∀ thread e,
      Stays AllMade (onErr x (eraseAndRaise thread e)) := by
    intro x hx thread e
    refine stays_onErr hx fun err => stays_layouts ?_
    exact Fixes.bind (layouts_onAllocator _) fun _ => Fixes.fault _
  cases cmd with
  | create thread e val => exact honErr (stays_createComponentsFor e val) thread e
  | addComponent thread e val => exact Stays.mapFault (stays_tryAddComponent e val) _
  | mergeComponent thread e val => exact Stays.mapFault (stays_tryMergeComponent e val) _
  | removeComponent thread T e =>
    refine Stays.mapFault (Stays.bind (stays_tryRemoveComponent T e) fun b => ?_) _
    exact fun _ h => h
  | destroy thread e => exact honErr (stays_tryDestroy e) thread e

/-- No action brings in a layout that was not built. -/
theorem Action.allMade (h : AllMade w) (a : Action V) : AllMade (a.step w) := by
  have hsame : ∀ {w' : World V},w'.archetypes=w.archetypes → AllMade w' := by
    intro w' ha i l hl
    refine h i l ?_
    rw [World.layoutAt,ha] at hl
    exact hl
  have hthen : ∀ {β : Type} {x : Call V β} (f : β → Outcome V),Fixes World.unqueried x →
      AllMade ((x >>= fun r => return f r) w).2 := fun f hx =>
    hsame (congrArg Prod.fst (Fixes.bind hx (fun _ => Fixes.pure _) w))
  cases a with
  | world form c => exact WorldCall.stays c form w h
  | cmd form thread c =>
    cases hp : w.inParallelCompute with
    | true => exact hsame (congrArg (fun c => c.1.1) (core_queued c thread form hp))
    | false =>
      have hdirect : AllMade (c.perform thread .returning w).2 := by
        rw [CmdCall.perform_direct c hp]
        exact WorldCall.stays c.direct .returning w h
      cases form with
      | returning => exact hdirect
      | raising =>
        obtain ⟨g,hg⟩ := CmdCall.perform_raising thread c
        change AllMade (c.perform thread .raising w).2
        rw [hg,mapFault_state]
        exact hdirect
  | applyCmd i =>
    rw [applyCmd_step]
    have hpop : AllMade (World.popped w i) := hsame (congrArg (fun c => c.1.1) (core_popCmd i w))
    cases hf : World.front w i with
    | none => rwa [applyCmd_noFront hf]
    | some cmd =>
      rw [applyCmd_front hf]
      exact Stays.bind (CmdBuffer.stays cmd) (fun _ => Stays.pure _) _ hpop
  | setInParallelCompute val => exact h
  | setExecutor present => exact h
  | advanceTick => exact hthen _ unqueried_advanceTick
  | captureCurrentTick => exact h
  | createQuery q =>
    refine hthen _ (Fixes.getState fun _ => ?_)
    exact Fixes.bind (Fixes.modifyState fun _ => rfl) fun _ => unqueried_createQuerySince q _
  | createQuerySince q lastRunTick => exact hthen _ (unqueried_createQuerySince q lastRunTick)
  | prepareQuery q => exact hthen _ (unqueried_prepareQuery q)
  | accessScope q => exact hthen _ (unqueried_onComponents _)
  | write l t itemWrite =>
    refine Stays.bind (Stays.getState fun w => ?_) (fun _ => Stays.pure _) w h
    exact stays_layouts (layouts_onArchetype _ _)

/-- In every world a run reaches, every layout came out of a search. -/
theorem allMade_run (runtime : Runtime) (as : List (Action V)) :
    AllMade (runAll Action.step as (World.new runtime)) := by
  have hrun : ∀ (as : List (Action V)) (w : World V),AllMade w → AllMade (runAll Action.step as w) := by
    intro as
    induction as with
    | nil => exact fun _ h => h
    | cons a as ih => exact fun w h => ih _ (Action.allMade h a)
  refine hrun as _ fun i l hl => ?_
  cases hl

end Calls

section Slots

variable {components : List ComponentDescriptor} {l : ChunkLayout} {r r' : Region}
  {start start' row row' n : ℕ}

/-- The bytes of one row of a region: where they start and how many they are. -/
def slot (start row : ℕ) : Region → ℕ×ℕ
  | .enable _ => (start+row/bitsPerByte,1)
  | .added _ | .changed _ => (start+row*changedTickByteSize,changedTickByteSize)
  | .entities => (start+row*entityByteSize,entityByteSize)
  | .column t => (start+row*t.byteSize,t.byteSize)

/-- Two spans that share no byte. -/
def Clear (p q : ℕ×ℕ) : Prop := p.1+p.2 ≤ q.1 ∨ q.1+q.2 ≤ p.1

/-- The bytes of a row lie within those of its region. -/
theorem slot_within (start : ℕ) (h : row<n) (r : Region) : start ≤ (slot start row r).1 ∧
    (slot start row r).1+(slot start row r).2 ≤ start+Region.bytes n r := by
  cases r with
  | enable t =>
    have hin := bit_inside h
    exact ⟨Nat.le_add_right _ _,Nat.add_le_add_left hin start⟩
  | added t | changed t =>
    have hin := slot_inside changedTickByteSize h
    exact ⟨Nat.le_add_right _ _,by rw [slot,Region.bytes]; omega⟩
  | entities =>
    have hin := slot_inside entityByteSize h
    exact ⟨Nat.le_add_right _ _,by rw [slot,Region.bytes]; omega⟩
  | column t =>
    have hin := slot_inside t.byteSize h
    exact ⟨Nat.le_add_right _ _,by rw [slot,Region.bytes]; omega⟩

/-- The rows of an aligned region are aligned. -/
theorem slot_aligned (h : Region.elementAlign r ∣ start) (row : ℕ) :
    Region.elementAlign r ∣ (slot start row r).1 := by
  cases r with
  | enable t => exact Nat.one_dvd _
  | added t | changed t => exact Nat.dvd_add h (Nat.dvd_mul_left _ _)
  | entities => exact Nat.dvd_add h (Nat.dvd_mul_left _ _)
  | column t => exact Nat.dvd_add h (t.size_aligned.mul_left row)

/-- Two rows of one region share no byte, but for the bits of one byte. -/
theorem slots_of_region (hne : row≠row') (r : Region) : Clear (slot start row r) (slot start row' r) ∨
    ∃ t,r=.enable t ∧ row/bitsPerByte=row'/bitsPerByte := by
  cases r with
  | enable t =>
    by_cases hbyte : row/bitsPerByte=row'/bitsPerByte
    · exact .inr ⟨t,rfl,hbyte⟩
    · refine .inl ?_
      unfold Clear slot
      dsimp only
      omega
  | added t | changed t => exact .inl (slots_apart hne)
  | entities => exact .inl (slots_apart hne)
  | column t => exact .inl (slots_apart hne)

/-- Two rows of a layout's regions share no byte, but for the bits of one byte. -/
theorem slots_clear (h : WellFormed components l) (hr : regionStart l r=some start)
    (hr' : regionStart l r'=some start') (hrow : row<l.maxLen) (hrow' : row'<l.maxLen)
    (hne : (r,row)≠(r',row')) : Clear (slot start row r) (slot start' row' r') ∨
      ∃ t,r=.enable t ∧ r'=.enable t ∧ row/bitsPerByte=row'/bitsPerByte := by
  by_cases he : r=r'
  · subst he
    cases hr.symm.trans hr'
    have hrows : row≠row' := fun hrows => hne (by rw [hrows])
    cases slots_of_region hrows r with
    | inl hclear => exact .inl hclear
    | inr hshare =>
      obtain ⟨t,ht,hbyte⟩ := hshare
      exact .inr ⟨t,ht,ht,hbyte⟩
  · have hapart := h.disjoint r r' start start' he hr hr'
    obtain ⟨hlo,hhi⟩ := slot_within start hrow r
    obtain ⟨hlo',hhi'⟩ := slot_within start' hrow' r'
    refine .inl ?_
    unfold Clear
    omega

end Slots

section Results

/-- The bytes of a row in use: what it holds is placed, each part is aligned and inside the chunk,
and no other row or part of the chunk has a byte of it, other than the bits of one byte. -/
structure RowPlaced (l : ChunkLayout) (row : ℕ) (x : RowData V) : Prop where
  /-- The row is within the capacity. -/
  inUse : row<l.maxLen
  /-- The row holds just the components that have a column. -/
  columns : ∀ t,(x t).isSome=true ↔ (regionStart l (.column t)).isSome=true
  /-- Each part ends within the chunk. -/
  inside : ∀ r start,regionStart l r=some start →
    (slot start row r).1+(slot start row r).2 ≤ l.chunkSizeInByte
  /-- Each part, and the chunk, is aligned as the part's type asks. -/
  aligned : ∀ r start,regionStart l r=some start →
    Region.elementAlign r ∣ (slot start row r).1 ∧ Region.elementAlign r ∣ l.allocLayout.align
  /-- No other part of any row has a byte of it, bits of the same byte apart. -/
  alone : ∀ r start r' start' row',regionStart l r=some start → regionStart l r'=some start' →
    row'<l.maxLen → (r,row)≠(r',row') → Clear (slot start row r) (slot start' row' r') ∨
      ∃ t,r=.enable t ∧ r'=.enable t ∧ row/bitsPerByte=row'/bitsPerByte

variable [Inhabited V]

/-- In every world a run reaches, every row in use is placed, in a layout that
the search came up with. -/
theorem rows_placed (runtime : Runtime) (as : List (Action V))
    (h : Along Action.step (Proper False) as (World.new runtime)) {l : RowLoc} {x : RowData V}
    (hr : World.row (runAll Action.step as (World.new runtime)) l=some (e,x)) :
    ∃ spec,(runAll Action.step as (World.new runtime)).archetypes.valueAt l.archId=some spec ∧
      Made spec.layout ∧ RowPlaced spec.layout l.indices.idxInChunk x := by
  have hinv := runInv_run (runInv_new False runtime) h
  obtain ⟨spec,c,hv,hc,hlt,-,hx⟩ := row_eq_some hr
  have hsound := hinv.inv.store.sound l.archId spec hv
  have hrow : l.indices.idxInChunk<spec.layout.maxLen :=
    hlt.trans_le ((hsound.len_le _ c hc).trans_eq (hsound.maxLen _ c hc))
  obtain ⟨specs,comps,hbuilt⟩ := allMade_run runtime as l.archId spec.layout
    (Option.map_eq_some_iff.mpr ⟨spec,hv,rfl⟩)
  have hwell := built_wellFormed hbuilt
  refine ⟨spec,hv,⟨specs,comps,hbuilt⟩,hrow,fun t => ?_,fun r start hs => ?_,fun r start hs => ?_,?_⟩
  · rw [←hx,Chunk.rowData,Option.isSome_map,regionStart,Option.isSome_map]
  · have hin := (slot_within start hrow r).2
    exact hin.trans (hwell.inside r start hs)
  · exact ⟨slot_aligned (hwell.aligned r start hs) _,hwell.allocated r start hs⟩
  · exact fun r start r' start' row' hs hs' hrow' hne => slots_clear hwell hs hs' hrow hrow' hne

end Results

section Samples

/-- A singleton, a row, and a row that gains a component. -/
def gaining : List (Action ℕ) := [
  .world .returning (.createSingleton (.single (plain 0) 1)),
  .world .returning (.create (.single (plain 1) 2)),
  .world .returning (.addComponent (handle 1 1) (.single (plain 2) 3))]

set_option maxRecDepth 20000 in
theorem rows_placed_gaining : ∃ spec x,
    (runAll Action.step gaining (World.new inOrder)).archetypes.valueAt 3=some spec ∧
      Made spec.layout ∧ RowPlaced (V:=ℕ) spec.layout 0 x := by
  have hrow : (World.row (runAll Action.step gaining (World.new inOrder)) ⟨3,0,0⟩).isSome=true := by
    decide +kernel
  obtain ⟨⟨e,x⟩,hr⟩ := Option.isSome_iff_exists.mp hrow
  obtain ⟨spec,hv,hm,hp⟩ := rows_placed inOrder gaining (proper_of_noDestroy inOrder (by decide)) hr
  exact ⟨spec,x,hv,hm,hp⟩

end Samples

end XynokEcs.BuiltLayouts
