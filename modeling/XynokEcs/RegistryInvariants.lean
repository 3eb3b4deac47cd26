import XynokEcs.WorldState

/-!
# The archetype registry stays canonical

An archetype's id is its position and its set of component ids is its own. The
caches agree with the registry: an archetype type names the archetype with its
storage types, an edge leads to the union or the difference and carries the
plan between the two layouts. Registering only appends, so what was known before
stays true, and no row, slot or tick is touched.
-/

namespace XynokEcs.RegistryInvariants

open ComponentTypes EntityHandle SequenceValueMap ComponentBits ChunkLayouts FaultingState
  ChunkRows RowWrites ArchetypeStore QueryShapes EntityAllocation WorldState

variable {V : Type}

/-- The canonical list of the component ids of a layout. -/
structure IsSetOf (specs : ComponentSpecs) (set : List ℕ) (layout : ChunkLayout) : Prop where
  /-- Ids ascend, so that none comes twice. -/
  sorted : set.Pairwise (· < ·)
  /-- They are the ids of the components of the layout. -/
  mem : ∀ i,i∈set ↔ ∃ t∈layout.componentColDescriptors,specs.indexOf t=some i

/-- The layout has exactly the components of an archetype type. -/
def HasTypes (layout : ChunkLayout) (T : TArchetype) : Prop :=
  T.storageTypes.Nodup ∧ ∀ t,t∈layout.componentColDescriptors ↔ t∈T.storageTypes

/-- Where an edge leads: to the union, or to the difference. -/
def EdgeTypes (isRemove : Bool) (src dst : ChunkLayout) (T : TArchetype) : Prop :=
  ∀ t,t∈dst.componentColDescriptors ↔ match isRemove with
    | true => t∈src.componentColDescriptors ∧ t∉T.storageTypes
    | false => t∈src.componentColDescriptors ∨ t∈T.storageTypes

/-- The registry and its caches are canonical. Under `D` every component comes
from the macro, and then every layout keeps the states its types declare. -/
structure RegistryInv (D : Prop) (w : World V) : Prop where
  /-- Archetype ids run from zero up without a gap. -/
  keys : ∀ i,w.archetypes.indexOf i=if i<w.archetypes.len then some i else none
  /-- Every layout was built for a list of components. -/
  layouts : ∀ (i : ℕ) (spec : ArchetypeSpec V),w.archetypes.valueAt i=some spec →
    ∃ comps,spec.layout.Of w.componentCounter comps
  /-- A descriptor is kept under its own storage type. -/
  components : ∀ t des,w.componentCounter.get t=some des → des.storageTypeId=t
  /-- A cached set leads to an archetype with those components. -/
  sets_sound : ∀ set i,w.componentSetCounter.lookup set=some i →
    ∃ spec : ArchetypeSpec V,w.archetypes.valueAt i=some spec ∧
      IsSetOf w.componentCounter set spec.layout
  /-- Every archetype is found under its set. -/
  sets_complete : ∀ (i : ℕ) (spec : ArchetypeSpec V),w.archetypes.valueAt i=some spec →
    ∃ set,IsSetOf w.componentCounter set spec.layout ∧ w.componentSetCounter.lookup set=some i
  /-- A cached tuple type leads to an archetype of its components. -/
  types : ∀ T i,w.archetypeCounter.lookup T=some i →
    ∃ spec : ArchetypeSpec V,w.archetypes.valueAt i=some spec ∧ HasTypes spec.layout T
  /-- A cached edge leads to the archetype its operation asks for, with the plan for it. -/
  edges : ∀ isRemove key edge,(w.edges isRemove).lookup key=some edge →
    ∃ src dst : ArchetypeSpec V,w.archetypes.valueAt key.srcArchId=some src ∧
      w.archetypes.valueAt edge.dstArchId=some dst ∧ key.archetypeTypeId.storageTypes.Nodup ∧
      EdgeTypes isRemove src.layout dst.layout key.archetypeTypeId ∧
      edge.migration=MigrationPlan.new src.layout dst.layout
  /-- The version counts the archetypes. -/
  version : w.globalArchetypeVersion=⟨w.archetypes.len+1,usizeMax-1,1⟩
  /-- There are no more archetypes than a vector can hold. -/
  capacity : w.archetypes.len≤vecCapacity
  /-- Descriptors carry the states that the types declare. -/
  declared_components : D → ∀ t des,w.componentCounter.get t=some des →
    des.stateDetection=t.stateDetection
  /-- So do the layouts. -/
  declared_layouts : D → ∀ (i : ℕ) (spec : ArchetypeSpec V),w.archetypes.valueAt i=some spec →
    Declared spec.layout

/-- What no registry function touches. -/
def World.rest (w : World V) :=
  (w.runtime,w.tick,w.lastQueryTick,w.hasExecutor,w.workerSpecs,w.entityAllocator,
    w.inParallelCompute,w.queryCounter,w.dropped)

/-- The registry has grown: what was registered is still there, and what is new
has no chunk. -/
structure Extends (w w' : World V) : Prop where
  /-- What is no registry stays. -/
  rest : World.rest w'=World.rest w
  /-- Archetypes stay with all they hold. -/
  kept : ∀ (i : ℕ) (spec : ArchetypeSpec V),w.archetypes.valueAt i=some spec →
    w'.archetypes.valueAt i=some spec
  /-- A new archetype has no chunk. -/
  fresh : ∀ (i : ℕ) (spec : ArchetypeSpec V),w'.archetypes.valueAt i=some spec →
    w.archetypes.valueAt i=none → spec.arch=.regular ∨ spec.arch=.singleton
  /-- Component ids stay. -/
  indexOf : ∀ t i,w.componentCounter.indexOf t=some i → w'.componentCounter.indexOf t=some i
  /-- Descriptors stay. -/
  get : ∀ t des,w.componentCounter.get t=some des → w'.componentCounter.get t=some des
  /-- Cached tuple types stay. -/
  types : ∀ T i,w.archetypeCounter.lookup T=some i → w'.archetypeCounter.lookup T=some i
  /-- Cached edges stay. -/
  edges : ∀ isRemove key edge,(w.edges isRemove).lookup key=some edge →
    (w'.edges isRemove).lookup key=some edge

/-- A registry extends itself. -/
theorem Extends.refl (w : World V) : Extends w w :=
  ⟨rfl,fun _ _ h => h,fun _ _ h h' => absurd (h.symm.trans h') (Option.some_ne_none _),
    fun _ _ h => h,fun _ _ h => h,fun _ _ h => h,fun _ _ _ h => h⟩

/-- Extending goes on. -/
theorem Extends.trans {w w' w'' : World V} (h : Extends w w') (h' : Extends w' w'') :
    Extends w w'' where
  rest := h'.rest.trans h.rest
  kept := fun i spec hs => h'.kept i spec (h.kept i spec hs)
  fresh := by
    intro i spec hs hn
    cases hm : w'.archetypes.valueAt i with
    | none => exact h'.fresh i spec hs hm
    | some spec' =>
      have := h'.kept i spec' hm
      rw [hs] at this
      cases this
      exact h.fresh i spec hm hn
  indexOf := fun t i hi => h'.indexOf t i (h.indexOf t i hi)
  get := fun t des hd => h'.get t des (h.get t des hd)
  types := fun T i ht => h'.types T i (h.types T i ht)
  edges := fun b key edge he => h'.edges b key edge (h.edges b key edge he)

/-- Registering changes no slot. -/
theorem Extends.entityAllocator {w w' : World V} (h : Extends w w') :
    w'.entityAllocator=w.entityAllocator :=
  congrArg (fun r => r.2.2.2.2.2.1) h.rest

/-- Registering takes no tick. -/
theorem Extends.tick {w w' : World V} (h : Extends w w') : w'.tick=w.tick :=
  congrArg (fun r => r.2.1) h.rest

/-- The world starts with a canonical registry. -/
theorem registryInv_new (D : Prop) (runtime : Runtime) : RegistryInv D (World.new runtime : World V) where
  keys := fun _ => rfl
  layouts := by
    rintro i spec ⟨⟩
  components := by
    rintro t des ⟨⟩
  sets_sound := by
    rintro set i ⟨⟩
  sets_complete := by
    rintro i spec ⟨⟩
  types := by
    rintro T i ⟨⟩
  edges := by
    rintro b key edge h
    cases b <;> cases h
  version := rfl
  capacity := Nat.zero_le _
  declared_components := by
    rintro - t des ⟨⟩
  declared_layouts := by
    rintro - i spec ⟨⟩

section Lookups

variable {D : Prop} {w : World V}

/-- An id looks up the archetype at its position. -/
theorem RegistryInv.get_eq (h : RegistryInv D w) (i : ℕ) :
    w.archetypes.get i=w.archetypes.valueAt i := by
  rw [SequenceValueHashMap.get,h.keys]
  split
  · rfl
  · rename_i hi
    rw [Option.bind_none]
    exact (SequenceValueHashMap.valueAt_none.mpr (Nat.le_of_not_lt hi)).symm

/-- Registered layouts have distinct columns that are found. -/
theorem RegistryInv.wellFormed (h : RegistryInv D w) {i : ℕ} {spec : ArchetypeSpec V}
    (hi : w.archetypes.valueAt i=some spec) : WellFormed spec.layout := by
  obtain ⟨comps,hc⟩ := h.layouts i spec hi
  exact wellFormed_of hc

/-- Every component of an archetype is registered. -/
theorem RegistryInv.registered (h : RegistryInv D w) {i : ℕ} {spec : ArchetypeSpec V}
    (hi : w.archetypes.valueAt i=some spec) {t : StorageType}
    (ht : t∈spec.layout.componentColDescriptors) : ∃ id,w.componentCounter.indexOf t=some id := by
  obtain ⟨comps,hc⟩ := h.layouts i spec hi
  obtain ⟨des,hd,rfl⟩ := List.mem_map.mp ((hc.mem_keys t).mp ht)
  exact Option.isSome_iff_exists.mp (hc.registered des hd)

/-- Normalizing keeps the ids. -/
theorem mem_normalizeSet {set : List ℕ} {i : ℕ} : i∈normalizeSet set ↔ i∈set := by
  rw [normalizeSet,List.mem_dedup,List.mem_insertionSort]

/-- A normalized set is strictly increasing. -/
theorem sorted_normalizeSet (set : List ℕ) : (normalizeSet set).Pairwise (· < ·) := by
  have hs : (normalizeSet set).Pairwise (· ≤ ·) :=
    (List.pairwise_insertionSort (· ≤ ·) set).sublist (List.dedup_sublist _)
  have hn : (normalizeSet set).Nodup := List.nodup_dedup _
  exact (hs.and hn).imp fun h => Nat.lt_of_le_of_ne h.1 h.2

/-- A layout whose canonical ids are those of some registered types has exactly
these types. -/
theorem types_of_set {specs : ComponentSpecs} {set : List ℕ} {layout : ChunkLayout}
    {P : StorageType → Prop} (hs : IsSetOf specs set layout)
    (hset : ∀ i,i∈set ↔ ∃ t,P t ∧ specs.indexOf t=some i)
    (hr : ∀ t∈layout.componentColDescriptors,∃ id,specs.indexOf t=some id)
    (hP : ∀ t,P t → ∃ id,specs.indexOf t=some id) (t : StorageType) :
    t∈layout.componentColDescriptors ↔ P t := by
  constructor
  · intro ht
    obtain ⟨i,hi⟩ := hr t ht
    obtain ⟨t',ht',hi'⟩ := (hset i).mp ((hs.mem i).mpr ⟨t,ht,hi⟩)
    rwa [SequenceValueHashMap.indexOf_inj hi hi']
  · intro ht
    obtain ⟨i,hi⟩ := hP t ht
    obtain ⟨t',ht',hi'⟩ := (hs.mem i).mp ((hset i).mpr ⟨t,ht,hi⟩)
    rwa [SequenceValueHashMap.indexOf_inj hi hi']

/-- A set of components has one archetype. -/
theorem archetype_unique (h : RegistryInv D w) {i j : ℕ} {a b : ArchetypeSpec V}
    (hi : w.archetypes.valueAt i=some a) (hj : w.archetypes.valueAt j=some b)
    (ht : ∀ t,t∈a.layout.componentColDescriptors ↔ t∈b.layout.componentColDescriptors) : i=j := by
  obtain ⟨s,hs,hl⟩ := h.sets_complete i a hi
  obtain ⟨s',hs',hl'⟩ := h.sets_complete j b hj
  have hss : s=s' := by
    refine hs.sorted.eq_of_mem_iff hs'.sorted fun k => ?_
    rw [hs.mem,hs'.mem]
    simp only [ht]
  subst hss
  exact Option.some.inj (hl.symm.trans hl')

end Lookups

/-- A registry function keeps the registry canonical and only lets it grow,
whichever way it leaves; `Q` holds when it returns. -/
def Registers {α : Type} (D : Prop) (x : Call V α) (w : World V) (Q : α → World V → Prop) : Prop :=
  wp x (fun a w' => Extends w w' ∧ RegistryInv D w' ∧ Q a w')
    (fun _ w' => Extends w w' ∧ RegistryInv D w') w

section Rules

variable {D : Prop} {α β : Type} {w : World V} {x : Call V α} {f : α → Call V β}

/-- Calls that register do so one after the other. -/
theorem Registers.bind {Q : α → World V → Prop} {R : β → World V → Prop}
    (h : Registers D x w Q)
    (hf : ∀ a w',Extends w w' → RegistryInv D w' → Q a w' → Registers D (f a) w' R) :
    Registers D (x >>= f) w R := by
  unfold Registers at h hf ⊢
  rw [wp_bind]
  refine wp_mono h ?_ ?_
  · rintro a w' ⟨he,hi,hq⟩
    refine wp_mono (hf a w' he hi hq) ?_ ?_
    · rintro b w'' ⟨he',hi',hr⟩
      exact ⟨he.trans he',hi',hr⟩
    · rintro e w'' ⟨he',hi'⟩
      exact ⟨he.trans he',hi'⟩
  · exact fun e w' h => h

/-- Returning registers nothing. -/
theorem Registers.pure {a : α} {Q : α → World V → Prop} (hi : RegistryInv D w) (hq : Q a w) :
    Registers D (Pure.pure a : Call V α) w Q := ⟨Extends.refl w,hi,hq⟩

/-- Failing registers nothing. -/
theorem Registers.fault {e : Fault} {Q : α → World V → Prop} (hi : RegistryInv D w) :
    Registers D (FaultingState.fault e : Call V α) w Q := ⟨Extends.refl w,hi⟩

/-- Reading registers nothing. -/
theorem Registers.getState {f : World V → Call V β} {R : β → World V → Prop}
    (h : Registers D (f w) w R) : Registers D (FaultingState.getState >>= f) w R := h

/-- Growing the registry first and running a registry function after. -/
theorem Registers.extend {g : World V → World V} {f : Unit → Call V β} {R : β → World V → Prop}
    (he : Extends w (g w)) (h : Registers D (f ()) (g w) R) :
    Registers D (modifyState g >>= f) w R :=
  wp_mono h (fun _ _ hq => ⟨he.trans hq.1,hq.2⟩) (fun _ _ hq => ⟨he.trans hq.1,hq.2⟩)

/-- A registry function in front of any computation. -/
theorem Registers.wp_bind {Q : α → World V → Prop} {R : β → World V → Prop}
    {E : Fault → World V → Prop} (h : Registers D x w Q)
    (hf : ∀ a w',Extends w w' → RegistryInv D w' → Q a w' → wp (f a) R E w')
    (he : ∀ e w',Extends w w' → RegistryInv D w' → E e w') : wp (x >>= f) R E w := by
  rw [FaultingState.wp_bind]
  exact wp_mono h (fun a w' hq => hf a w' hq.1 hq.2.1 hq.2.2) (fun e w' hq => he e w' hq.1 hq.2)

/-- What a registering call leaves may be said more weakly. -/
theorem Registers.mono {Q Q' : α → World V → Prop} (h : Registers D x w Q)
    (hq : ∀ a w',Q a w' → Q' a w') : Registers D x w Q' :=
  wp_mono h (fun a w' h => ⟨h.1,h.2.1,hq a w' h.2.2⟩) (fun _ _ h => h)

end Rules

end XynokEcs.RegistryInvariants
