import XynokEcs.WorldGrowth

/-!
# The registry of archetypes is canonical

An archetype is its component set: ids are positions, no set has two archetypes,
and every map, cached edge and cached plan says what the sets say. Rows with the
same components therefore sit in one archetype, whatever led them there.
-/

namespace XynokEcs.CanonicalRegistry

open ComponentTypes EntityHandle SequenceValueMap ComponentBits ChunkLayouts FaultingState ChunkRows
  ArchetypeStore EntityAllocation WorldState RegistryInvariants RegistrySteps StoreInvariants
  ActionRuns WorldRuns WorldGrowth

variable {V : Type} {w : World V}

/-- Where a column sits, as a migration plan records it. -/
def sourcePosition (col : ColumnEntry) : ColumnInSrc :=
  ⟨col.storageTypeId,col.offset,col.byteSize,col.stateOffset⟩

/-- A column is moved to the destination's column of the same component, or
abandoned when the destination has none. -/
def Destined (dst : ChunkLayout) : ComponentMigration → Prop
  | .move src offset stateOffset => ∃ col∈dst.columns,col.storageTypeId=src.storageTypeId ∧
      col.offset=offset ∧ col.stateOffset=stateOffset
  | .abandon src => src.storageTypeId∉dst.columns.map ColumnEntry.storageTypeId

/-- A plan treats every column of the source once, in order. -/
structure PlanFor (src dst : ChunkLayout) (plan : MigrationPlan) : Prop where
  /-- The plan lists the columns of the source, each once. -/
  columns : plan.components.map ComponentMigration.src=src.columns.map sourcePosition
  /-- Each column goes to the column of its type in the destination, if there is one. -/
  destined : ∀ mig∈plan.components,Destined dst mig

/-- The columns of a layout are the types it describes. -/
theorem mem_columns {specs : ComponentSpecs} {comps : List ComponentDescriptor} {l : ChunkLayout}
    (h : l.Of specs comps) (t : StorageType) :
    t∈l.columns.map ColumnEntry.storageTypeId ↔ t∈l.componentColDescriptors := by
  rw [h.columns_types,h.mem_keys]

theorem planFor_new {specs : ComponentSpecs} {comps : List ComponentDescriptor}
    {src dst : ChunkLayout} (hd : dst.Of specs comps) : PlanFor src dst (MigrationPlan.new src dst) where
  columns := by
    simp only [MigrationPlan.new,List.map_map]
    refine List.map_congr_left fun col _ => ?_
    simp only [Function.comp_apply]
    split <;> rfl
  destined := by
    intro mig hm
    simp only [MigrationPlan.new,List.mem_map] at hm
    obtain ⟨col,-,rfl⟩ := hm
    split
    · rename_i d hl
      have hk : col.storageTypeId∈dst.componentColDescriptors := by
        rw [←AList.lookup_isSome,hl]
        rfl
      obtain ⟨col',hc',ht⟩ := List.mem_map.mp ((mem_columns hd _).mpr hk)
      have hl' := hd.lookup_column col' hc'
      rw [ht,hl] at hl'
      cases hl'
      exact ⟨col',hc',ht,rfl,rfl⟩
    · rename_i hl
      intro hc
      have hk := (mem_columns hd _).mp hc
      rw [←AList.lookup_isSome,hl] at hk
      cases hk

/-- The component set of an archetype. -/
def ArchetypeSpec.types (spec : ArchetypeSpec V) : Set StorageType :=
  { t | t∈spec.layout.componentColDescriptors }

/-- The component set an edge leads to. -/
def edgeTarget (isRemove : Bool) (src : ArchetypeSpec V) (T : TArchetype) : Set StorageType :=
  match isRemove with
  | true => ArchetypeSpec.types src \ { t | t∈T.storageTypes }
  | false => ArchetypeSpec.types src ∪ { t | t∈T.storageTypes }

/-- Everything the registry and its caches promise. -/
structure Canonical (w : World V) : Prop where
  /-- Ids run from zero up without a gap. -/
  ids : ∀ i,w.archetypes.indexOf i=if i<w.archetypes.len then some i else none
  /-- No two archetypes store the same types. -/
  unique : ∀ (i j : ℕ) (a b : ArchetypeSpec V),w.archetypes.valueAt i=some a →
    w.archetypes.valueAt j=some b → ArchetypeSpec.types a=ArchetypeSpec.types b → i=j
  /-- The cache of component sets knows every archetype, by its set. -/
  sets : ∀ set i,w.componentSetCounter.lookup set=some i ↔
    ∃ spec : ArchetypeSpec V,w.archetypes.valueAt i=some spec ∧
      IsSetOf w.componentCounter set spec.layout
  /-- A cached tuple type leads to an archetype of its types. -/
  types : ∀ T i,w.archetypeCounter.lookup T=some i →
    ∃ spec : ArchetypeSpec V,w.archetypes.valueAt i=some spec ∧
      ArchetypeSpec.types spec={ t | t∈T.storageTypes }
  /-- An archetype's bits are the ids of its types. -/
  bits : ∀ (i : ℕ) (spec : ArchetypeSpec V),w.archetypes.valueAt i=some spec → ∀ id,
    spec.layout.componentBitSet.contains id=true ↔
      ∃ t∈ArchetypeSpec.types spec,w.componentCounter.indexOf t=some id
  /-- A cached edge leads where its operation goes, with the plan for the two layouts. -/
  edges : ∀ isRemove key edge,(w.edges isRemove).lookup key=some edge →
    ∃ src dst : ArchetypeSpec V,w.archetypes.valueAt key.srcArchId=some src ∧
      w.archetypes.valueAt edge.dstArchId=some dst ∧
      ArchetypeSpec.types dst=edgeTarget isRemove src key.archetypeTypeId ∧
      PlanFor src.layout dst.layout edge.migration
  /-- Rows with the same components lie in the same archetype. -/
  rows : ∀ (l l' : RowLoc) (e e' : Entity) (x x' : RowData V),World.row w l=some (e,x) →
    World.row w l'=some (e',x') → (∀ t,(x t).isSome ↔ (x' t).isSome) → l.archId=l'.archId

/-- The components of a row are those of its archetype. -/
theorem row_types {l : RowLoc} {e : Entity} {x : RowData V} (h : World.row w l=some (e,x)) :
    ∃ spec : ArchetypeSpec V,w.archetypes.valueAt l.archId=some spec ∧
      ∀ t,(x t).isSome ↔ t∈ArchetypeSpec.types spec := by
  obtain ⟨spec,c,hv,-,-,-,rfl⟩ := row_eq_some h
  refine ⟨spec,hv,fun t => ?_⟩
  change _ ↔ t∈spec.layout.componentColDescriptors
  rw [Chunk.rowData,Option.isSome_map,AList.lookup_isSome]

theorem RegistryInv.canonical {D : Prop} (h : RegistryInv D w) : Canonical w where
  ids := h.keys
  unique i j a b hi hj ht := archetype_unique h hi hj fun t => Set.ext_iff.mp ht t
  sets := by
    intro set i
    refine ⟨h.sets_sound set i,?_⟩
    rintro ⟨spec,hv,hs⟩
    obtain ⟨set',hs',hl⟩ := h.sets_complete i spec hv
    rw [hs.sorted.eq_of_mem_iff hs'.sorted fun k => (hs.mem k).trans (hs'.mem k).symm]
    exact hl
  types := by
    intro T i hl
    obtain ⟨spec,hv,-,ht⟩ := h.types T i hl
    exact ⟨spec,hv,Set.ext ht⟩
  bits := by
    intro i spec hv id
    obtain ⟨comps,hof⟩ := h.layouts i spec hv
    rw [hof.bits]
    constructor
    · rintro ⟨des,hd,hid⟩
      exact ⟨_,(hof.mem_keys _).mpr (List.mem_map_of_mem hd),hid⟩
    · rintro ⟨t,ht,hid⟩
      obtain ⟨des,hd,rfl⟩ := List.mem_map.mp ((hof.mem_keys t).mp ht)
      exact ⟨des,hd,hid⟩
  edges := by
    intro isRemove key edge hl
    obtain ⟨src,dst,hs,hd,-,ht,hm⟩ := h.edges isRemove key edge hl
    obtain ⟨comps,hof⟩ := h.layouts _ dst hd
    refine ⟨src,dst,hs,hd,?_,?_⟩
    · cases isRemove <;> exact Set.ext ht
    · rw [hm]
      exact planFor_new hof
  rows := by
    intro l l' e e' x x' hr hr' hx
    obtain ⟨a,ha,hta⟩ := row_types hr
    obtain ⟨b,hb,htb⟩ := row_types hr'
    exact archetype_unique h ha hb fun t => ((hta t).symm.trans (hx t)).trans (htb t)

variable [Inhabited V]

/-- In every world that can come about the registry is canonical, and whatever
happens to it next leaves every archetype its id and its layout. -/
theorem registry_canonical (runtime : Runtime) (as bs : List (Action V)) :
    Canonical (runAll Action.step as (World.new runtime)) ∧
      Grown (runAll Action.step as (World.new runtime))
        (runAll Action.step (as++bs) (World.new runtime)) := by
  have h := coreInv_run runtime as
  refine ⟨RegistryInv.canonical h.registry,?_⟩
  rw [runAll_append]
  exact (grew_run bs h).2

end XynokEcs.CanonicalRegistry
