import XynokEcs.SingletonRows

/-!
# The entity of a singleton

Where singletons are fitted and rows match slots, a singleton archetype holds
one live entity at most, in the first row of its only chunk. That row is what a
`Singleton` parameter reads, and it fails when there is none.
-/

namespace XynokEcs.SingletonEntities

open ComponentTypes EntityHandle SequenceValueMap ChunkLayouts FaultingState RowDirectory ChunkRows
  RowWrites ArchetypeStore EntityAllocation SlotInvariants WorldState WorldCalls CommandBuffer
  RegistryInvariants StoreInvariants StoreSteps QuerySources WorkerQueues ActionRuns WorldRuns
  ActionEffects WorldGrowth CommandQueues SingletonRows

variable {V : Type} {w : World V} {T : TArchetype} {e : Entity} {i : ℕ} {spec : ArchetypeSpec V}

/-- `column_descriptor`: the column of a component in an archetype that has it. -/
def columnDescriptor (layout : ChunkLayout) (t : StorageType) : Except Fault ColumnDescriptor :=
  match layout.componentColDescriptors.lookup t with
  | some column => .ok column
  | none => .error (.panic (.columnMissing t))

/-- `singleton_archetype_spec`: the archetype of a type, which must be a singleton. -/
def singletonArchetypeSpec (T : TArchetype) (w : World V) : Except Fault (ℕ×ArchetypeSpec V) :=
  match w.archetypeCounter.lookup T with
  | none => .error (.err (.singletonArchetypeIsNotRegistered T))
  | some archId => match w.archetypes.get archId with
    | none => .error (.err (.singletonArchetypeIsNotRegistered T))
    | some spec =>
      if !spec.arch.isSingleton then .error (.err (.archetypeIsNotSingleton spec.name))
      else .ok (archId,spec)

/-- What a `Singleton` parameter wraps: one column of one row, and its ticks. -/
structure SingletonItem where
  /-- The row of the one entity. -/
  loc : RowLoc
  /-- Where the component is in the chunk. -/
  column : ColumnDescriptor
  /-- The ticks of the parameter. -/
  ticks : QueryTicks
deriving DecidableEq

/-- `Singleton::new`. -/
def Singleton.new (c : Component) (lastRunTick : ChangedTick) (w : World V) :
    Except Fault SingletonItem := do
  let r ← singletonArchetypeSpec (.single c) w
  match r.2.arch.chunks[0]? with
  | none => .error (.err (.singletonEntityIsNotSpawned (.single c)))
  | some chunk =>
    if chunk.len=0 then .error (.err (.singletonEntityIsNotSpawned (.single c)))
    else do
      let column ← columnDescriptor r.2.layout c.storageType
      return ⟨⟨r.1,⟨0,0⟩⟩,column,⟨lastRunTick,w.tick⟩⟩

/-- The entity exists, in the archetype. -/
def LivesIn (w : World V) (e : Entity) (i : ℕ) : Prop :=
  ∃ ix,w.entityAllocator.locate e=some ⟨i,ix⟩

section Rows

variable {D : Prop} {reserved : List Entity}

/-- A singleton of a world in order. -/
structure IsSingle (w : World V) (i : ℕ) (spec : ArchetypeSpec V) : Prop where
  /-- The archetype is registered. -/
  at_index : w.archetypes.valueAt i=some spec
  /-- It is a singleton. -/
  kind : spec.arch.isSingleton=true
  /-- Its chunk has room for one row. -/
  fitted : spec.layout.maxLen=1
  /-- It has one chunk at most. -/
  chunks : spec.arch.chunks.length≤1
  /-- Its bookkeeping is in order. -/
  sound : Sound spec.layout spec.arch none

/-- A singleton of a store in order is one. -/
theorem isSingle_of (h : StoreInv D reserved w) (hs : Singles w)
    (hv : w.archetypes.valueAt i=some spec) (hk : spec.arch.isSingleton=true) :
    IsSingle w i spec :=
  ⟨hv,hk,(hs i spec hv hk).2.1,(hs i spec hv hk).2.2,h.sound i spec hv⟩

/-- The only row a singleton has room for. -/
theorem IsSingle.row (hs : IsSingle w i spec) {ix : EntityInChunkIndices} {c : Chunk V}
    (hc : spec.arch.chunks[ix.chunkIdx]?=some c) (hlt : ix.idxInChunk<c.len) : ix=⟨0,0⟩ := by
  have hchunk : ix.chunkIdx<spec.arch.chunks.length := (List.getElem?_eq_some_iff.mp hc).1
  have hone := hs.chunks
  have hlen := hs.sound.len_le _ _ hc
  rw [hs.sound.maxLen _ _ hc,hs.fitted] at hlen
  have hci : ix.chunkIdx=0 := by omega
  have hri : ix.idxInChunk=0 := by omega
  cases ix
  dsimp only at hci hri
  rw [hci,hri]

/-- Where the entity of a singleton is. -/
theorem IsSingle.place (hs : IsSingle w i spec) (h : StoreInv D reserved w)
    {ix : EntityInChunkIndices} (hl : w.entityAllocator.locate e=some ⟨i,ix⟩) :
    ix=⟨0,0⟩ ∧ ∃ c,spec.arch.chunks[0]?=some c ∧ 0<c.len ∧ c.entities 0=e := by
  obtain ⟨x,hx⟩ := h.consistent.row (d:=World.directory w) hl
  obtain ⟨spec',c,hv,hc,hlt,he,-⟩ := row_eq_some hx
  rw [hs.at_index] at hv
  cases hv
  have hzero : ix=⟨0,0⟩ := hs.row hc hlt
  subst hzero
  exact ⟨rfl,c,hc,hlt,he⟩

/-- A singleton with a row has an entity. -/
theorem IsSingle.entity (hs : IsSingle w i spec) (h : StoreInv D reserved w) {c : Chunk V}
    (hc : spec.arch.chunks[0]?=some c) (hlt : 0<c.len) : LivesIn w (c.entities 0) i :=
  ⟨⟨0,0⟩,h.consistent.locate (d:=World.directory w) (row_of_chunk hs.at_index hc hlt)⟩

/-- No two entities live in it. -/
theorem IsSingle.alone (hs : IsSingle w i spec) (h : StoreInv D reserved w) {e' : Entity}
    (he : LivesIn w e i) (he' : LivesIn w e' i) : e=e' := by
  obtain ⟨ix,hl⟩ := he
  obtain ⟨ix',hl'⟩ := he'
  obtain ⟨rfl,-⟩ := hs.place h hl
  obtain ⟨rfl,-⟩ := hs.place h hl'
  exact h.consistent.key_unique (d:=World.directory w) hl hl'

/-- A singleton takes no row exactly while its entity lives. -/
theorem IsSingle.full (hs : IsSingle w i spec) (h : StoreInv D reserved w) :
    spec.arch.canTakeARow=false ↔ ∃ e,LivesIn w e i := by
  have hcan : spec.arch.canTakeARow=false ↔
      spec.arch.chunks≠[] ∧ spec.arch.freeChunks=[] := by
    rw [Archetype.canTakeARow,hs.kind]
    simp only [Bool.not_true,Bool.false_or,Bool.or_eq_false_iff,List.isEmpty_eq_false_iff,
      Bool.not_eq_false',List.isEmpty_iff,ne_eq]
  rw [hcan]
  constructor
  · rintro ⟨hchunks,hfree⟩
    obtain ⟨c,hc⟩ : ∃ c,spec.arch.chunks[0]?=some c := by
      cases hl : spec.arch.chunks with
      | nil => exact absurd hl hchunks
      | cons c rest => exact ⟨c,rfl⟩
    have hfull : ¬c.len<c.maxLen := by
      intro hlt
      have hmem := (hs.sound.free_iff 0).mpr ⟨by simp,c,hc,hlt⟩
      rw [hfree] at hmem
      cases hmem
    rw [hs.sound.maxLen _ _ hc,hs.fitted] at hfull
    exact ⟨_,hs.entity h hc (by omega)⟩
  · rintro ⟨e,ix,hl⟩
    obtain ⟨-,c,hc,hlt,-⟩ := hs.place h hl
    refine ⟨fun hnil => ?_,List.eq_nil_iff_forall_not_mem.mpr fun j hj => ?_⟩
    · rw [hnil] at hc
      cases hc
    · obtain ⟨-,c',hc',hroom⟩ := (hs.sound.free_iff j).mp hj
      have hj0 : j<spec.arch.chunks.length := (List.getElem?_eq_some_iff.mp hc').1
      have hone := hs.chunks
      have hzero : j=0 := by omega
      subst hzero
      rw [hc] at hc'
      cases hc'
      rw [hs.sound.maxLen _ _ hc,hs.fitted] at hroom
      omega

/-- The archetype of a type is a singleton. -/
def RegisteredSingle (w : World V) (T : TArchetype) (i : ℕ) (spec : ArchetypeSpec V) : Prop :=
  w.archetypeCounter.lookup T=some i ∧ w.archetypes.valueAt i=some spec ∧
    spec.arch.isSingleton=true

/-- Only a registered singleton is found. -/
theorem singletonArchetypeSpec_ok (h : RegistryInv D w) {r : ℕ×ArchetypeSpec V} :
    singletonArchetypeSpec T w=.ok r ↔ RegisteredSingle w T r.1 r.2 := by
  unfold singletonArchetypeSpec RegisteredSingle
  cases hl : w.archetypeCounter.lookup T with
  | none => exact ⟨nofun,fun hr => nomatch hr.1⟩
  | some archId =>
    dsimp only
    rw [h.get_eq]
    obtain ⟨i,spec⟩ := r
    cases hv : w.archetypes.valueAt archId with
    | none =>
      refine ⟨nofun,?_⟩
      rintro ⟨⟨⟩,hr,-⟩
      rw [hv] at hr
      cases hr
    | some s =>
      dsimp only
      cases hk : s.arch.isSingleton with
      | true =>
        simp only [Bool.not_true,Bool.false_eq_true,if_false,Except.ok.injEq,Prod.mk.injEq]
        constructor
        · rintro ⟨rfl,rfl⟩
          exact ⟨rfl,hv,hk⟩
        · rintro ⟨⟨⟩,hr,-⟩
          rw [hv] at hr
          exact ⟨rfl,Option.some.inj hr⟩
      | false =>
        simp only [Bool.not_false,if_true,reduceCtorEq,false_iff]
        rintro ⟨⟨⟩,hr,hsing⟩
        rw [hv] at hr
        cases hr
        rw [hk] at hsing
        cases hsing

/-- A parameter is built where the entity is there. -/
theorem singletonNew_ok (h : RegistryInv D w) {c : Component}
    (hr : RegisteredSingle w (.single c) i spec) {chunk : Chunk V}
    (hc : spec.arch.chunks[0]?=some chunk) (hlt : 0<chunk.len) (lastRunTick : ChangedTick) :
    ∃ column,spec.layout.componentColDescriptors.lookup c.storageType=some column ∧
      Singleton.new c lastRunTick w=.ok ⟨⟨i,⟨0,0⟩⟩,column,⟨lastRunTick,w.tick⟩⟩ := by
  obtain ⟨spec',hv,hT⟩ := h.types _ _ hr.1
  rw [hr.2.1] at hv
  cases hv
  have hmem : c.storageType∈spec.layout.componentColDescriptors :=
    (hT.2 _).mpr (List.mem_singleton.mpr rfl)
  obtain ⟨column,hcol⟩ := Option.isSome_iff_exists.mp (AList.lookup_isSome.mpr hmem)
  refine ⟨column,hcol,?_⟩
  have hspec : singletonArchetypeSpec (.single c) w=.ok (i,spec) := (singletonArchetypeSpec_ok h).mpr hr
  have hrun : columnDescriptor spec.layout c.storageType=.ok column := by
    rw [columnDescriptor,hcol]
  unfold Singleton.new
  rw [hspec]
  change (match spec.arch.chunks[0]? with | none => _ | some chunk => _ : Except Fault SingletonItem)=_
  rw [hc]
  dsimp only
  rw [if_neg (by omega),hrun]
  rfl

/-- Where it is not, the error says so. -/
theorem singletonNew_notSpawned (h : RegistryInv D w) {c : Component}
    (hr : RegisteredSingle w (.single c) i spec)
    (hn : ∀ chunk,spec.arch.chunks[0]?=some chunk → chunk.len=0) (lastRunTick : ChangedTick) :
    Singleton.new c lastRunTick w=.error (.err (.singletonEntityIsNotSpawned (.single c))) := by
  have hspec : singletonArchetypeSpec (.single c) w=.ok (i,spec) := (singletonArchetypeSpec_ok h).mpr hr
  unfold Singleton.new
  rw [hspec]
  change (match spec.arch.chunks[0]? with | none => _ | some chunk => _ : Except Fault SingletonItem)=_
  cases hc : spec.arch.chunks[0]? with
  | none => rfl
  | some chunk =>
    dsimp only
    rw [if_pos (hn chunk hc)]

/-- A type that names no singleton is an error of its own. -/
theorem singletonNew_unregistered (h : RegistryInv D w) {c : Component}
    (hn : ∀ i spec,¬RegisteredSingle w (.single c) i spec) (lastRunTick : ChangedTick) :
    Singleton.new c lastRunTick w≠.error (.err (.singletonEntityIsNotSpawned (.single c))) := by
  cases hs : singletonArchetypeSpec (.single c) w with
  | ok r => exact absurd ((singletonArchetypeSpec_ok h).mp hs) (hn _ _)
  | error f =>
    unfold Singleton.new
    rw [hs]
    change (.error f : Except Fault SingletonItem)≠_
    unfold singletonArchetypeSpec at hs
    rintro ⟨⟩
    split at hs
    · cases hs
    · split at hs
      · cases hs
      · split at hs <;> cases hs

end Rows

section Runs

variable [Inhabited V]

/-- What holds of the singletons of a world. -/
structure SingletonsHold (w : World V) : Prop where
  /-- A singleton has one chunk at most. -/
  chunks : ∀ (i : ℕ) (spec : ArchetypeSpec V),w.archetypes.valueAt i=some spec →
    spec.arch.isSingleton=true → spec.arch.chunks.length≤1
  /-- The entity is in the first row of the first chunk. -/
  place : ∀ (i : ℕ) (spec : ArchetypeSpec V),w.archetypes.valueAt i=some spec →
    spec.arch.isSingleton=true → ∀ e ix,w.entityAllocator.locate e=some ⟨i,ix⟩ → ix=⟨0,0⟩ ∧
      ∃ c,spec.arch.chunks[0]?=some c ∧ 0<c.len ∧ c.entities 0=e
  /-- No two entities live in one. -/
  alone : ∀ (i : ℕ) (spec : ArchetypeSpec V),w.archetypes.valueAt i=some spec →
    spec.arch.isSingleton=true → ∀ e e',LivesIn w e i → LivesIn w e' i → e=e'
  /-- It is full once an entity lives in it. -/
  full : ∀ (i : ℕ) (spec : ArchetypeSpec V),w.archetypes.valueAt i=some spec →
    spec.arch.isSingleton=true → (spec.arch.canTakeARow=false ↔ ∃ e,LivesIn w e i)
  /-- The parameter reads that row. -/
  spawned : ∀ c i (spec : ArchetypeSpec V),RegisteredSingle w (.single c) i spec →
    ∀ e lastRunTick,LivesIn w e i → ∃ column,
      spec.layout.componentColDescriptors.lookup c.storageType=some column ∧
        Singleton.new c lastRunTick w=.ok ⟨⟨i,⟨0,0⟩⟩,column,⟨lastRunTick,w.tick⟩⟩
  /-- It fails for want of an entity exactly when a singleton has none. -/
  notSpawned : ∀ c lastRunTick,
    Singleton.new c lastRunTick w=.error (.err (.singletonEntityIsNotSpawned (.single c))) ↔
      ∃ i spec,RegisteredSingle w (.single c) i spec ∧ ¬∃ e,LivesIn w e i
  /-- Whatever happens next, an archetype stays a singleton or a regular one. -/
  kinds : ∀ (as : List (Action V)) (i : ℕ) (spec : ArchetypeSpec V),
    w.archetypes.valueAt i=some spec → ∃ spec',
      (runAll Action.step as w).archetypes.valueAt i=some spec' ∧
        spec'.arch.isSingleton=spec.arch.isSingleton

/-- Singletons hold in a world in order. -/
theorem singletonsHold_of (h : WorldInv False w) (hs : Singles w) : SingletonsHold w := by
  have hstore := h.store
  have hone : ∀ {i : ℕ} {spec : ArchetypeSpec V},w.archetypes.valueAt i=some spec →
      spec.arch.isSingleton=true → IsSingle w i spec := fun hv hk => isSingle_of hstore hs hv hk
  have hspawned : ∀ {c i} {spec : ArchetypeSpec V},RegisteredSingle w (.single c) i spec →
      ∀ {e},LivesIn w e i → ∀ lastRunTick,∃ column,
        spec.layout.componentColDescriptors.lookup c.storageType=some column ∧
          Singleton.new c lastRunTick w=.ok ⟨⟨i,⟨0,0⟩⟩,column,⟨lastRunTick,w.tick⟩⟩ := by
    rintro c i spec hr e ⟨ix,hl⟩ lastRunTick
    obtain ⟨-,chunk,hc,hlt,-⟩ := (hone hr.2.1 hr.2.2).place hstore hl
    exact singletonNew_ok hstore.registry hr hc hlt lastRunTick
  refine ⟨fun i spec hv hk => (hone hv hk).chunks,fun i spec hv hk e ix hl => (hone hv hk).place hstore hl,
    fun i spec hv hk e e' he he' => (hone hv hk).alone hstore he he',
    fun i spec hv hk => (hone hv hk).full hstore,fun c i spec hr e lastRunTick he => hspawned hr he _,
    fun c lastRunTick => ⟨fun hrun => ?_,?_⟩,?_⟩
  · by_contra hn
    refine singletonNew_unregistered hstore.registry (fun i spec hr => ?_) lastRunTick hrun
    obtain ⟨e,he⟩ := not_not.mp fun hne => hn ⟨i,spec,hr,hne⟩
    obtain ⟨column,-,hok⟩ := hspawned hr he lastRunTick
    rw [hok] at hrun
    cases hrun
  · rintro ⟨i,spec,hr,hn⟩
    refine singletonNew_notSpawned hstore.registry hr (fun chunk hc => ?_) lastRunTick
    by_contra hlen
    exact hn ⟨_,(hone hr.2.1 hr.2.2).entity hstore hc (by omega)⟩
  · intro as i spec hv
    obtain ⟨spec',hv',-,-,hk⟩ := (grew_run as ⟨hstore.registry,h.queries⟩).2.kept i spec hv
    exact ⟨spec',hv',hk⟩

/-- In every world that a run reaches whose commands queue no destroy, every
singleton has one entity at most. -/
theorem singletons_hold (runtime : Runtime) (as : List (Action V))
    (ha : ∀ a∈as,Action.queuesNoDestroy a=true) :
    SingletonsHold (runAll Action.step as (World.new runtime)) :=
  singletonsHold_of (runInv_run (runInv_new False runtime) (proper_of_noDestroy runtime ha)).inv
    (singles_run runtime as)

/-- A singleton that is asked for twice, destroyed and filled again by a create
that was queued. -/
def respawned : List (Action ℕ) := [
  .world .returning (.registerSingleton (.single (plain 0))),
  .world .returning (.createSingleton (.single (plain 0) 1)),
  .world .returning (.create (.single (plain 0) 2)),
  .world .returning (.destroy (WorldRuns.handle 0 1)),
  .setInParallelCompute true,
  .cmd .returning 0 (.create (.single (plain 0) 3)),
  .setInParallelCompute false,
  .applyCmd 0]

/-- A singleton is created, destroyed and created again. -/
theorem singletons_hold_respawned :
    SingletonsHold (runAll Action.step respawned (World.new inOrder)) :=
  singletons_hold inOrder respawned (by decide)

end Runs

end XynokEcs.SingletonEntities
