import XynokEcs.QueryAccess
import XynokEcs.StoreInvariants

/-!
# Queries in the world's registry

A shape is registered once, with its scope and the archetypes that match it, and
refreshed when archetypes were added since. What a query reads is looked up by
index, so a shape that is up to date matches exactly the archetypes its scope
accepts, whatever was registered in between.
-/

namespace XynokEcs.QuerySources

open ComponentTypes EntityHandle SequenceValueMap ComponentBits ChunkLayouts FaultingState
  ChunkRows RowWrites ArchetypeStore QueryShapes WorldState WorldCalls RegistryInvariants
  RegistrySteps QueryAccess StoreInvariants

variable {V : Type}

/-- Work on the component registry. -/
def onComponents {α : Type} (x : Faulting ComponentSpecs XynokEcsError α) : Call V α := fun w =>
  match x w.componentCounter with
  | (.ok a,specs) => (.ok a,{ w with componentCounter := specs })
  | (.error e,specs) => (.error (.err e),{ w with componentCounter := specs })

/-- Whether the archetype at an index is one the scope iterates. -/
def belongsAt (archetypes : SequenceValueHashMap ℕ (ArchetypeSpec V)) (scope : AccessScope)
    (idx : ℕ) : Bool :=
  match archetypes.valueAt idx with
  | some arch => scope.belongTo arch.layout.componentBitSet
  | none => false

/-- `build_archetype_which_contains`. -/
def buildArchetypeWhichContains (archetypes : SequenceValueHashMap ℕ (ArchetypeSpec V))
    (scope : AccessScope) : List ℕ :=
  (List.range archetypes.len).filter (belongsAt archetypes scope)

/-- Register a shape the world has not seen. -/
def registerQuery (q : QueryShape Component) (version : ℕ) : Call V ℕ := do
  let accessScope ← onComponents q.accessScope
  let w ← getState
  let spec : QuerySpec :=
    ⟨buildArchetypeWhichContains w.archetypes accessScope,accessScope,version⟩
  modifyState (fun w => { w with queryCounter := (w.queryCounter.insert q.shape spec).1 })
  return (w.queryCounter.insert q.shape spec).2

/-- The index of a shape in the query registry. -/
def queryIndex (q : QueryShape Component) (version : ℕ) : Call V ℕ := do
  let w ← getState
  match w.queryCounter.indexOf q.shape with
  | some idx => return idx
  | none => registerQuery q version

/-- Rebuild the archetype list of a query. -/
def refreshQuery (idx version : ℕ) (spec : QuerySpec) : Call V Unit :=
  modifyState (fun w => { w with
    queryCounter := w.queryCounter.modifyAt idx fun _ => { spec with
      archetypes := buildArchetypeWhichContains w.archetypes spec.accessScope
      version := version } })

/-- `prepare_query_src_access`. -/
def prepareQuerySrcAccess (q : QueryShape Component) : Call V ℕ := do
  let w ← getState
  let currentGlobalArchVersion := w.globalArchetypeVersion.val
  let idx ← queryIndex q currentGlobalArchVersion
  let w ← getState
  match w.queryCounter.valueAt idx with
  | none => fault (.panic (.queryIndexVanished idx))
  | some spec => do
    onlyIf (spec.version≠currentGlobalArchVersion)
      (refreshQuery idx currentGlobalArchVersion spec)
    return idx

/-- The two ticks every filter compares against. -/
structure QueryTicks where
  /-- The baseline: what is newer counts as new. -/
  lastRun : ChangedTick
  /-- The tick that writes are stamped with. -/
  thisRun : ChangedTick
deriving DecidableEq

/-- A query's handle on the world's registries: which spec, and its ticks. -/
structure QuerySpecAccessor where
  /-- Which of the registered shapes. -/
  queryIdx : ℕ
  /-- The ticks of the query. -/
  ticks : QueryTicks
deriving DecidableEq

/-- `query_src_access`: `none` when the shape is unknown or out of date. -/
def querySrcAccess (q : QueryShape Component) (lastRunTick : ChangedTick) (w : World V) :
    Option QuerySpecAccessor :=
  match w.queryCounter.indexOf q.shape with
  | none => none
  | some idx => match w.queryCounter.valueAt idx with
    | none => none
    | some spec =>
      if spec.version=w.globalArchetypeVersion.val then some ⟨idx,⟨lastRunTick,w.tick⟩⟩ else none

/-- `get_or_create_query_src_access`. -/
def getOrCreateQuerySrcAccess (q : QueryShape Component) (lastRunTick : ChangedTick) :
    Call V QuerySpecAccessor := do
  let _ ← prepareQuerySrcAccess q
  let w ← getState
  match querySrcAccess q lastRunTick w with
  | some accessor => return accessor
  | none => fault (.err .querySpecVanishedAfterPrepared)

/-- `create_query_since`. -/
def createQuerySince (q : QueryShape Component) (lastRunTick : ChangedTick) :
    Call V QuerySpecAccessor := do
  let _ ← advanceTick
  raiseAs .display (getOrCreateQuerySrcAccess q lastRunTick)

/-- `create_query`. -/
def createQuery (q : QueryShape Component) : Call V QuerySpecAccessor := do
  let w ← getState
  let lastQueryTick := w.lastQueryTick
  modifyState (fun w => { w with lastQueryTick := w.tick })
  createQuerySince q lastQueryTick

/-- `arch_indices`. -/
def QuerySpecAccessor.archIndices (accessor : QuerySpecAccessor) (w : World V) : Option (List ℕ) :=
  (w.queryCounter.valueAt accessor.queryIdx).map QuerySpec.archetypes

section Invariant

/-- Every registered shape has the scope it describes, and the archetypes its
scope accepts among those there were at its version. -/
structure QueryInv (w : World V) : Prop where
  /-- What is said of each registered shape. -/
  known : ∀ idx (shape : QueryShape StorageType) spec,w.queryCounter.keyAt idx=some shape →
    w.queryCounter.valueAt idx=some spec →
    Describes w.componentCounter (QueryShape.accesses shape) spec.accessScope ∧
      AllRegistered w.componentCounter (QueryShape.accesses shape) ∧
      Separate (QueryShape.accesses shape) ∧ 1 ≤ spec.version ∧
      spec.version≤w.archetypes.len+1 ∧
      spec.archetypes=(List.range (spec.version-1)).filter (belongsAt w.archetypes spec.accessScope)

theorem queryInv_new (runtime : Runtime) : QueryInv (World.new runtime : World V) where
  known := by
    rintro idx shape spec ⟨⟩

variable {D : Prop} {w w' : World V}

/-- Which archetypes match does not change when rows do and when the registry
grows. -/
theorem belongsAt_kept (h : Evolves w w') {scope : AccessScope} {idx : ℕ}
    (hi : idx<w.archetypes.len) :
    belongsAt w'.archetypes scope idx=belongsAt w.archetypes scope idx := by
  obtain ⟨spec,hs⟩ := Option.isSome_iff_exists.mp (SequenceValueHashMap.valueAt_isSome.mpr hi)
  obtain ⟨spec',hs',hl,-⟩ := h.kept idx spec hs
  rw [belongsAt,belongsAt,hs,hs']
  dsimp only
  rw [hl]

theorem Evolves.len_le (h : Evolves w w') : w.archetypes.len≤w'.archetypes.len := by
  by_contra hc
  have hlt := Nat.lt_of_not_le hc
  obtain ⟨spec,hs⟩ := Option.isSome_iff_exists.mp (SequenceValueHashMap.valueAt_isSome.mpr hlt)
  obtain ⟨spec',hs',-⟩ := h.kept _ spec hs
  have := SequenceValueHashMap.valueAt_isSome.mp (Option.isSome_iff_exists.mpr ⟨spec',hs'⟩)
  omega

/-- The query registry stays right while the world moves on. -/
theorem QueryInv.evolve (h : QueryInv w) (he : Evolves w w') : QueryInv w' where
  known := by
    intro idx shape spec hk hv
    have hq : w'.queryCounter=w.queryCounter := by
      have hf := he.frame
      simp only [World.frame,Prod.mk.injEq] at hf
      exact hf.2.2.2.2.2.2
    rw [hq] at hk hv
    obtain ⟨hd,hr,hs,hv1,hv2,ha⟩ := h.known idx shape spec hk hv
    refine ⟨hd.grow hr he.indexOf,?_,hs,hv1,?_,?_⟩
    · intro p hp
      obtain ⟨id,hid⟩ := hr p hp
      exact ⟨id,he.indexOf _ _ hid⟩
    · have := Evolves.len_le he
      omega
    · rw [ha]
      refine List.filter_congr fun i hi => ?_
      rw [List.mem_range] at hi
      exact (belongsAt_kept he (by omega)).symm

/-- The same as before for the parts the query registry depends on. -/
theorem QueryInv.congr (h : QueryInv w) (ha : w'.archetypes=w.archetypes)
    (hc : w'.componentCounter=w.componentCounter) (hq : w'.queryCounter=w.queryCounter) :
    QueryInv w' where
  known := by
    rw [ha,hc,hq]
    exact h.known

/-- The shape that keys a query touches the storage types of its components. -/
theorem accesses_map (q : QueryShape Component) :
    QueryShape.accesses q.shape=storedAccesses (QueryShape.accesses q) := by
  have hcol : ∀ p : QueryColumn Component,QueryColumn.access (p.map Component.storageType)=
      ((QueryColumn.access p).1,(QueryColumn.access p).2.storageType) := by
    intro p
    cases p <;> rfl
  have hmap : (∀ q : QueryShape Component,QueryShape.accesses (q.map Component.storageType)=
      storedAccesses (QueryShape.accesses q)) := by
    intro q
    induction q using QueryShape.rec (motive_2:=fun qs =>
      QueryShape.allAccesses (QueryShape.mapAll Component.storageType qs)=
        storedAccesses (QueryShape.allAccesses qs)) with
    | column p => rw [QueryShape.map,QueryShape.accesses,QueryShape.accesses,hcol]; rfl
    | entity => rw [QueryShape.map,QueryShape.accesses,QueryShape.accesses]; rfl
    | filter k p => rw [QueryShape.map,QueryShape.accesses,QueryShape.accesses,hcol]; rfl
    | detail p => rw [QueryShape.map,QueryShape.accesses,QueryShape.accesses,hcol]; rfl
    | without c => rw [QueryShape.map,QueryShape.accesses,QueryShape.accesses]; rfl
    | tuple qs ih => rw [QueryShape.map,QueryShape.accesses,QueryShape.accesses,ih]
    | nil => rw [QueryShape.mapAll,QueryShape.allAccesses,QueryShape.allAccesses]; rfl
    | cons q qs ih ih' =>
      rw [QueryShape.mapAll,QueryShape.allAccesses,QueryShape.allAccesses,ih,ih',
        storedAccesses_append]
  exact hmap q

end Invariant

section Preparing

variable {D : Prop} {w w' : World V} {q : QueryShape Component}

/-- Every component a shape names comes from the macro. -/
def ShapeDeclared (q : QueryShape Component) : Prop :=
  ∀ c∈named (QueryShape.accesses q),c.isDeclared=true

/-- Only the component registry and the query registry were touched, and both
are in order. -/
structure Queried (D : Prop) (w w' : World V) : Prop where
  /-- The component registry is in order. -/
  registry : RegistryInv D w'
  /-- The query registry is in order. -/
  queries : QueryInv w'
  /-- The rest of the world stays. -/
  others : ∃ specs qc,w'={ w with componentCounter := specs, queryCounter := qc }
  /-- Component ids stay. -/
  indexOf : ∀ t i,w.componentCounter.indexOf t=some i → w'.componentCounter.indexOf t=some i

theorem Queried.refl (h : RegistryInv D w) (hq : QueryInv w) : Queried D w w :=
  ⟨h,hq,⟨_,_,rfl⟩,fun _ _ h => h⟩

theorem Queried.trans {w'' : World V} (h : Queried D w w') (h' : Queried D w' w'') :
    Queried D w w'' where
  registry := h'.registry
  queries := h'.queries
  others := by
    obtain ⟨s,qc,rfl⟩ := h.others
    obtain ⟨s',qc',rfl⟩ := h'.others
    exact ⟨s',qc',rfl⟩
  indexOf := fun t i hi => h'.indexOf t i (h.indexOf t i hi)

/-- Preparing queries does not concern slots and rows. -/
theorem StoreInv.queried {reserved : List Entity} (h : StoreInv D reserved w)
    (hq : Queried D w w') : StoreInv D reserved w' where
  registry := hq.registry
  sound := by
    obtain ⟨s,qc,rfl⟩ := hq.others
    exact h.sound
  slots := by
    obtain ⟨s,qc,rfl⟩ := hq.others
    exact h.slots
  consistent := by
    obtain ⟨s,qc,rfl⟩ := hq.others
    exact h.consistent

/-- Folding a shape's scope in the world. -/
theorem onComponents_accessScope (h : RegistryInv D w) (hq : QueryInv w)
    (hD : D → ShapeDeclared q) : wp (onComponents q.accessScope)
      (fun scope w' => Queried D w w' ∧ w'.queryCounter=w.queryCounter ∧
        Folded w.componentCounter w'.componentCounter (named (QueryShape.accesses q))
          (storedAccesses (QueryShape.accesses q)) scope)
      (fun err w' => Queried D w w' ∧ err=.err .queryAccessScopeConflict) w := by
  have hgrown : ∀ specs,GrownBy (named (QueryShape.accesses q)) w.componentCounter specs →
      Queried D w { w with componentCounter := specs } := by
    rintro specs ⟨used,hu,rfl⟩
    have hdes : D → ∀ des∈used.map Component.descriptor,
        des.stateDetection=des.storageTypeId.stateDetection := by
      intro hd des hm
      obtain ⟨c,hc,rfl⟩ := List.mem_map.mp hm
      exact Component.stateDetection_of_isDeclared (hD hd c (hu c hc))
    obtain ⟨hext,hinv⟩ := registers_descriptors h hdes
    exact ⟨hinv,hq.evolve (Extends.evolves hext),⟨_,w.queryCounter,rfl⟩,hext.indexOf⟩
  have hspec := QueryShape.accessScope_spec q w.componentCounter
  unfold FoldsTo wp at hspec
  unfold wp onComponents
  cases hr : q.accessScope w.componentCounter with
  | mk r specs => cases r with
    | ok scope =>
      rw [hr] at hspec
      exact ⟨hgrown specs hspec.grown,rfl,hspec⟩
    | error err =>
      rw [hr] at hspec
      exact ⟨hgrown specs hspec.1,by rw [hspec.2.1]⟩

/-- A world whose query registry got a spec at its end, or rewritten. -/
theorem queried_queries (h : RegistryInv D w)
    {qc : SequenceValueHashMap (QueryShape StorageType) QuerySpec}
    (hq : QueryInv { w with queryCounter := qc }) : Queried D w { w with queryCounter := qc } :=
  ⟨RegistryInv.congr h rfl,hq,⟨w.componentCounter,qc,rfl⟩,fun _ _ h => h⟩

/-- The current version counts the archetypes. -/
theorem RegistryInv.current (h : RegistryInv D w) :
    w.globalArchetypeVersion.val=w.archetypes.len+1 := by rw [h.version]

/-- `index_of` finds a registered shape, or registers it. -/
theorem queryIndex_spec (h : RegistryInv D w) (hq : QueryInv w) (hD : D → ShapeDeclared q) :
    wp (queryIndex q w.globalArchetypeVersion.val)
      (fun idx w' => Queried D w w' ∧ w'.queryCounter.indexOf q.shape=some idx)
      (fun err w' => Queried D w w' ∧ err=.err .queryAccessScopeConflict) w := by
  unfold queryIndex
  rw [wp_bind,wp_getState]
  cases hi : w.queryCounter.indexOf q.shape with
  | some idx => exact ⟨Queried.refl h hq,hi⟩
  | none =>
    unfold registerQuery
    rw [wp_bind]
    refine wp_mono (onComponents_accessScope h hq hD) ?_ (fun _ _ he => he)
    rintro scope w₁ ⟨h₁,hqc,hf⟩
    rw [wp_bind,wp_getState,wp_bind,wp_modifyState,wp_pure]
    have hn : w₁.queryCounter.indexOf q.shape=none := by rw [hqc,hi]
    obtain ⟨specs,qc,rfl⟩ := h₁.others
    dsimp only at hn hqc hf ⊢
    rw [SequenceValueHashMap.insert_new hn]
    refine ⟨h₁.trans (queried_queries h₁.registry ⟨?_⟩),?_⟩
    · intro idx shape spec hk hv
      dsimp only at hk hv ⊢
      rw [SequenceValueHashMap.keyAt_push] at hk
      rw [SequenceValueHashMap.valueAt_push] at hv
      split at hv
      · rename_i hidx
        rw [if_pos hidx] at hk
        cases hk
        cases hv
        rw [accesses_map]
        refine ⟨hf.describes,hf.registered,hf.separate,?_,?_,?_⟩
        · dsimp only
          rw [RegistryInv.current h]
          omega
        · dsimp only
          rw [RegistryInv.current h]
        · dsimp only
          rw [RegistryInv.current h,Nat.add_sub_cancel]
          rfl
      · rename_i hidx
        rw [if_neg hidx] at hk
        exact h₁.queries.known idx shape spec hk hv
    · rw [SequenceValueHashMap.indexOf_push,if_pos rfl]

/-- After `prepare_query_src_access` the shape is registered and up to date. -/
theorem prepareQuerySrcAccess_spec (h : RegistryInv D w) (hq : QueryInv w)
    (hD : D → ShapeDeclared q) : wp (prepareQuerySrcAccess q)
      (fun idx w' => Queried D w w' ∧ w'.queryCounter.indexOf q.shape=some idx ∧
        ∃ spec,w'.queryCounter.valueAt idx=some spec ∧
          spec.version=w'.globalArchetypeVersion.val)
      (fun err w' => Queried D w w' ∧ err=.err .queryAccessScopeConflict) w := by
  unfold prepareQuerySrcAccess
  rw [wp_bind,wp_getState,wp_bind]
  refine wp_mono (queryIndex_spec h hq hD) ?_ (fun _ _ he => he)
  rintro idx w₁ ⟨h₁,hidx⟩
  rw [wp_bind,wp_getState]
  have hver : w₁.globalArchetypeVersion=w.globalArchetypeVersion := by
    obtain ⟨s,qc,rfl⟩ := h₁.others
    rfl
  obtain ⟨spec,hv⟩ := Option.isSome_iff_exists.mp
    (SequenceValueHashMap.valueAt_isSome.mpr (SequenceValueHashMap.indexOf_lt hidx))
  rw [hv]
  dsimp only
  rw [wp_bind]
  unfold onlyIf refreshQuery
  split
  · rename_i hne
    rw [wp_modifyState,wp_pure]
    have hk := SequenceValueHashMap.keyAt_of_indexOf hidx
    refine ⟨h₁.trans (queried_queries h₁.registry ⟨?_⟩),?_,?_⟩
    · intro j shape spec' hk' hv'
      dsimp only at hk' hv' ⊢
      rw [SequenceValueHashMap.keyAt_modifyAt] at hk'
      rw [SequenceValueHashMap.valueAt_modifyAt] at hv'
      split at hv'
      · rename_i hij
        subst hij
        rw [hv] at hv'
        cases hv'
        obtain ⟨hd,hr,hs,-,-,-⟩ := h₁.queries.known idx shape spec hk' hv
        refine ⟨hd,hr,hs,?_,?_,?_⟩
        · dsimp only
          rw [←hver,RegistryInv.current h₁.registry]
          omega
        · dsimp only
          rw [←hver,RegistryInv.current h₁.registry]
        · dsimp only
          rw [←hver,RegistryInv.current h₁.registry,Nat.add_sub_cancel]
          rfl
      · exact h₁.queries.known j shape spec' hk' hv'
    · rw [SequenceValueHashMap.indexOf_modifyAt]
      exact hidx
    · refine ⟨{ spec with
        archetypes := buildArchetypeWhichContains w₁.archetypes spec.accessScope
        version := w.globalArchetypeVersion.val },?_,?_⟩
      · rw [SequenceValueHashMap.valueAt_modifyAt,if_pos rfl,hv,Option.map_some]
      · exact (congrArg SafeCounter.val hver).symm
  · rename_i he
    rw [wp_pure]
    refine ⟨h₁,hidx,spec,hv,?_⟩
    rw [hver]
    simpa using he

end Preparing

end XynokEcs.QuerySources
