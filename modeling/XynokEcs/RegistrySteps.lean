import XynokEcs.RegistryInvariants

/-!
# What the registry functions return

One specification for each function of the registry, from the ids of the
components up to the archetype an edge leads to. Each keeps the registry
canonical and lets it only grow.
-/

namespace XynokEcs.RegistrySteps

open ComponentTypes EntityHandle SequenceValueMap ComponentBits ChunkLayouts FaultingState
  ChunkRows RowWrites ArchetypeStore QueryShapes EntityAllocation WorldState RegistryInvariants

variable {V : Type} {D : Prop} {w : World V}

/-- The duplicate check passes exactly on distinct types not seen before. -/
theorem checkNoDuplicateComponent_ok {ts seen : List StorageType}
    (h : checkNoDuplicateComponent seen ts=.ok ()) : ts.Nodup ∧ ∀ t∈ts,t∉seen := by
  induction ts generalizing seen with
  | nil => exact ⟨List.nodup_nil,fun t ht => absurd ht List.not_mem_nil⟩
  | cons t rest ih =>
    unfold checkNoDuplicateComponent at h
    split at h
    · cases h
    · rename_i ht
      obtain ⟨hn,hs⟩ := ih h
      refine ⟨List.nodup_cons.mpr ⟨fun hm => hs t hm List.mem_cons_self,hn⟩,?_⟩
      intro s hm
      rcases List.mem_cons.mp hm with rfl | hm
      · exact ht
      · exact fun hc => hs s hm (List.mem_cons_of_mem t hc)

section Components

variable {descs : List ComponentDescriptor} {specs : ComponentSpecs}

/-- Registering components keeps every index and descriptor given out before. -/
theorem registerComponents_mono (descs : List ComponentDescriptor) (specs : ComponentSpecs) :
    (∀ t i,specs.indexOf t=some i → (registerComponents descs specs).1.indexOf t=some i) ∧
    ∀ t des,specs.get t=some des → (registerComponents descs specs).1.get t=some des := by
  induction descs generalizing specs with
  | nil => exact ⟨fun _ _ h => h,fun _ _ h => h⟩
  | cons d rest ih =>
    obtain ⟨h1,h2⟩ := ih (specs.getOrInsertWith d.storageTypeId d).1
    refine ⟨fun t i hi => h1 t i (SequenceValueHashMap.getOrInsertWith_indexOf _ hi),?_⟩
    intro t des hd
    refine h2 t des ?_
    rw [SequenceValueHashMap.get_getOrInsertWith]
    split
    · rename_i ht
      subst ht
      rw [hd,Option.getD_some]
    · exact hd

/-- The collected ids are those of the components. -/
theorem registerComponents_ids (descs : List ComponentDescriptor) (specs : ComponentSpecs) (id : ℕ) :
    id∈(registerComponents descs specs).2 ↔
      ∃ des∈descs,(registerComponents descs specs).1.indexOf des.storageTypeId=some id := by
  induction descs generalizing specs with
  | nil => simp [registerComponents]
  | cons d rest ih =>
    have hmono := (registerComponents_mono rest (specs.getOrInsertWith d.storageTypeId d).1).1
      d.storageTypeId _ (SequenceValueHashMap.getOrInsertWith_index specs d.storageTypeId d)
    have hd : (registerComponents (d::rest) specs).1.indexOf d.storageTypeId=
        some (specs.getOrInsertWith d.storageTypeId d).2 := hmono
    have hm := ih (specs.getOrInsertWith d.storageTypeId d).1
    rw [List.exists_mem_cons_iff,hd]
    change id∈(specs.getOrInsertWith d.storageTypeId d).2::_ ↔ _
    rw [List.mem_cons,hm,Option.some.injEq]
    exact or_congr_left eq_comm

/-- Every given component is registered afterwards. -/
theorem registerComponents_registered (descs : List ComponentDescriptor) (specs : ComponentSpecs) :
    ∀ des∈descs,∃ id,(registerComponents descs specs).1.indexOf des.storageTypeId=some id := by
  induction descs generalizing specs with
  | nil => exact fun des hd => absurd hd List.not_mem_nil
  | cons d rest ih =>
    rw [List.forall_mem_cons]
    exact ⟨⟨_,(registerComponents_mono rest _).1 _ _
      (SequenceValueHashMap.getOrInsertWith_index specs d.storageTypeId d)⟩,ih _⟩

/-- A property of the given descriptors and of the registered ones holds of all
registered ones afterwards. -/
theorem registerComponents_all {P : StorageType → ComponentDescriptor → Prop}
    (hd : ∀ des∈descs,P des.storageTypeId des) (hs : ∀ t des,specs.get t=some des → P t des) :
    ∀ t des,(registerComponents descs specs).1.get t=some des → P t des := by
  induction descs generalizing specs with
  | nil => exact hs
  | cons d rest ih =>
    rw [List.forall_mem_cons] at hd
    refine ih hd.2 ?_
    intro t des hget
    rw [SequenceValueHashMap.get_getOrInsertWith] at hget
    split at hget
    · rename_i ht
      subst ht
      cases hg : specs.get d.storageTypeId with
      | none =>
        rw [hg,Option.getD_none] at hget
        cases hget
        exact hd.1
      | some u =>
        rw [hg,Option.getD_some] at hget
        cases hget
        exact hs _ _ hg
    · exact hs t des hget

end Components

/-- A canonical set stays the one of its layout when the component registry
grows. -/
theorem isSetOf_mono {specs specs' : ComponentSpecs} {set : List ℕ} {l : ChunkLayout}
    (hmono : ∀ t i,specs.indexOf t=some i → specs'.indexOf t=some i)
    (hr : ∀ t∈l.componentColDescriptors,∃ id,specs.indexOf t=some id) (h : IsSetOf specs set l) :
    IsSetOf specs' set l where
  sorted := h.sorted
  mem := by
    intro i
    rw [h.mem]
    refine exists_congr fun t => and_congr_right fun ht => ?_
    obtain ⟨id,hid⟩ := hr t ht
    rw [hid,hmono t id hid]

/-- A layout keeps its specification when the component registry grows. -/
theorem of_mono {specs specs' : ComponentSpecs} {comps : List ComponentDescriptor} {l : ChunkLayout}
    (hmono : ∀ t i,specs.indexOf t=some i → specs'.indexOf t=some i) (h : l.Of specs comps) :
    l.Of specs' comps where
  columns_types := h.columns_types
  nodup := h.nodup
  lookup_column := h.lookup_column
  mem_keys := h.mem_keys
  state_matches := h.state_matches
  maxLen_pos := h.maxLen_pos
  registered := by
    intro des hd
    obtain ⟨i,hi⟩ := Option.isSome_iff_exists.mp (h.registered des hd)
    rw [hmono _ i hi]
    rfl
  bits := by
    intro i
    rw [h.bits]
    refine exists_congr fun des => and_congr_right fun hd => ?_
    obtain ⟨j,hj⟩ := Option.isSome_iff_exists.mp (h.registered des hd)
    rw [hj,hmono _ j hj]

/-- A layout of declared descriptors keeps the declared states. -/
theorem declared_of {specs : ComponentSpecs} {comps : List ComponentDescriptor} {l : ChunkLayout}
    (h : l.Of specs comps)
    (hc : ∀ des∈comps,des.stateDetection=des.storageTypeId.stateDetection) : Declared l := by
  intro t d hd
  have hm : t∈l.componentColDescriptors := by
    rw [←AList.lookup_isSome,hd]
    rfl
  obtain ⟨des,hdes,rfl⟩ := List.mem_map.mp ((h.mem_keys t).mp hm)
  rw [←hc des hdes]
  exact h.state_matches des hdes d hd

/-- The descriptors of a declared archetype type are declared. -/
theorem descriptors_declared {T : TArchetype} (h : T.isDeclared=true) :
    ∀ des∈T.descriptors,des.stateDetection=des.storageTypeId.stateDetection := by
  intro des hd
  obtain ⟨c,hc,rfl⟩ := List.mem_map.mp hd
  rw [TArchetype.isDeclared,List.all_eq_true] at h
  exact Component.stateDetection_of_isDeclared (h c hc)

/-- Registering components grows the registry. -/
theorem registers_descriptors (h : RegistryInv D w) {descs : List ComponentDescriptor}
    (hD : D → ∀ des∈descs,des.stateDetection=des.storageTypeId.stateDetection) :
    let specs := (registerComponents descs w.componentCounter).1
    Extends w { w with componentCounter := specs } ∧
      RegistryInv D { w with componentCounter := specs } := by
  obtain ⟨hi,hg⟩ := registerComponents_mono descs w.componentCounter
  refine ⟨⟨rfl,fun _ _ hs => hs,fun _ _ hs hn => absurd (hs.symm.trans hn) (Option.some_ne_none _),
    hi,hg,fun _ _ ht => ht,fun _ _ _ he => he⟩,?_⟩
  refine ⟨h.keys,?_,?_,?_,?_,h.types,h.edges,h.version,h.capacity,?_,h.declared_layouts⟩
  · intro i spec hs
    obtain ⟨comps,hc⟩ := h.layouts i spec hs
    exact ⟨comps,of_mono hi hc⟩
  · exact registerComponents_all (P:=fun t des => des.storageTypeId=t) (fun _ _ => rfl) h.components
  · intro set i hs
    obtain ⟨spec,hv,hset⟩ := h.sets_sound set i hs
    exact ⟨spec,hv,isSetOf_mono hi (fun t ht => h.registered hv ht) hset⟩
  · intro i spec hv
    obtain ⟨set,hset,hl⟩ := h.sets_complete i spec hv
    exact ⟨set,isSetOf_mono hi (fun t ht => h.registered hv ht) hset,hl⟩
  · intro hd
    exact registerComponents_all (P:=fun t des => des.stateDetection=t.stateDetection)
      (hD hd) (h.declared_components hd)

/-- Registering the components of an archetype type grows the registry. -/
theorem registers_components (h : RegistryInv D w) {T : TArchetype} (hD : D → T.isDeclared=true) :
    let specs := (registerComponents T.descriptors w.componentCounter).1
    Extends w { w with componentCounter := specs } ∧
      RegistryInv D { w with componentCounter := specs } :=
  registers_descriptors h fun hd => descriptors_declared (hD hd)

/-- `create_archetype` lays out exactly the components it was given. -/
theorem createArchetype_spec (h : RegistryInv D w) (T : TArchetype) (kind : ArchetypeKind) :
    Registers D (createArchetype T kind) w (fun spec w' => w'=w ∧
      spec.layout.Of w.componentCounter T.descriptors ∧
      (spec.arch=.regular ∨ spec.arch=.singleton)) := by
  unfold createArchetype
  apply Registers.getState
  cases kind with
  | chunked cfg =>
    dsimp only
    split
    · rename_i layout hl
      exact Registers.pure h ⟨rfl,ChunkLayout.new_of hl,.inl rfl⟩
    · exact Registers.fault h
  | singleton =>
    dsimp only
    split
    · rename_i layout hl
      exact Registers.pure h ⟨rfl,(ChunkLayout.newFitted_of hl).1,.inr rfl⟩
    · exact Registers.fault h

/-- `register_archetype_spec` appends an archetype under the next id. -/
theorem registerArchetypeSpec_spec (h : RegistryInv D w) {set : List ℕ} {spec : ArchetypeSpec V}
    {comps : List ComponentDescriptor} (hset : IsSetOf w.componentCounter set spec.layout)
    (hnew : w.componentSetCounter.lookup set=none) (hof : spec.layout.Of w.componentCounter comps)
    (harch : spec.arch=.regular ∨ spec.arch=.singleton) (hD : D → Declared spec.layout) :
    Registers D (registerArchetypeSpec set spec) w (fun id w' =>
      w'.archetypes.valueAt id=some spec ∧ w'.componentCounter=w.componentCounter ∧
      w'.archetypeCounter=w.archetypeCounter) := by
  have hnone : w.archetypes.indexOf w.archetypes.len=none := by
    rw [h.keys,if_neg (Nat.lt_irrefl _)]
  have hval : ∀ i,(w.archetypes.push w.archetypes.len spec hnone).valueAt i=
      if i=w.archetypes.len then some spec else w.archetypes.valueAt i :=
    SequenceValueHashMap.valueAt_push w.archetypes w.archetypes.len spec hnone
  have hkept : ∀ i (s : ArchetypeSpec V),w.archetypes.valueAt i=some s →
      (w.archetypes.push w.archetypes.len spec hnone).valueAt i=some s := by
    intro i s hs
    have hlt : i<w.archetypes.len := by
      rw [←SequenceValueHashMap.valueAt_isSome,hs]
      rfl
    rw [hval,if_neg (Nat.ne_of_lt hlt),hs]
  have hlast : (w.archetypes.push w.archetypes.len spec hnone).valueAt w.archetypes.len=some spec := by
    rw [hval,if_pos rfl]
  have hsplit : ∀ i (s : ArchetypeSpec V),
      (w.archetypes.push w.archetypes.len spec hnone).valueAt i=some s →
      i=w.archetypes.len ∧ s=spec ∨ w.archetypes.valueAt i=some s := by
    intro i s hs
    rw [hval] at hs
    split at hs
    · rename_i hi
      exact .inl ⟨hi,(Option.some.inj hs).symm⟩
    · exact .inr hs
  unfold registerArchetypeSpec
  apply Registers.getState
  dsimp only
  split
  · exact Registers.fault h
  rename_i hcap
  have hins := SequenceValueHashMap.insert_new hnone spec
  unfold Registers structureChanged
  simp only [wp_bind,wp_modifyState,wp_pure,hins]
  refine ⟨⟨rfl,hkept,?_,fun _ _ hi => hi,fun _ _ hg => hg,fun _ _ ht => ht,fun b _ _ he => ?_⟩,
    ⟨?_,?_,h.components,?_,?_,?_,?_,?_,?_,h.declared_components,?_⟩,hlast,trivial,trivial⟩
  · intro i s hs hn
    rcases hsplit i s hs with ⟨-,rfl⟩ | hs
    · exact harch
    · rw [hn] at hs
      cases hs
  · cases b <;> exact he
  · intro i
    change (w.archetypes.push w.archetypes.len spec hnone).indexOf i=
      if i<(w.archetypes.push w.archetypes.len spec hnone).len then some i else none
    rw [SequenceValueHashMap.indexOf_push,SequenceValueHashMap.len_push,h.keys]
    by_cases hi : i=w.archetypes.len
    · rw [if_pos hi,if_pos (by omega),hi]
    · rw [if_neg hi]
      by_cases hlt : i<w.archetypes.len
      · rw [if_pos hlt,if_pos (by omega)]
      · rw [if_neg hlt,if_neg (by omega)]
  · intro i s hs
    rcases hsplit i s hs with ⟨-,rfl⟩ | hs
    · exact ⟨comps,hof⟩
    · exact h.layouts i s hs
  · intro set' i hl
    change (w.componentSetCounter.insert set w.archetypes.len).lookup set'=some i at hl
    by_cases hs : set'=set
    · subst hs
      rw [AList.lookup_insert] at hl
      cases hl
      exact ⟨spec,hlast,hset⟩
    · rw [AList.lookup_insert_ne hs] at hl
      obtain ⟨s,hv,hss⟩ := h.sets_sound set' i hl
      exact ⟨s,hkept i s hv,hss⟩
  · intro i s hs
    rcases hsplit i s hs with ⟨rfl,rfl⟩ | hs
    · exact ⟨set,hset,AList.lookup_insert _⟩
    · obtain ⟨set',hss,hl⟩ := h.sets_complete i s hs
      refine ⟨set',hss,?_⟩
      change (w.componentSetCounter.insert set w.archetypes.len).lookup set'=some i
      rw [AList.lookup_insert_ne]
      · exact hl
      · rintro rfl
        rw [hnew] at hl
        cases hl
  · intro T i ht
    obtain ⟨s,hv,hs⟩ := h.types T i ht
    exact ⟨s,hkept i s hv,hs⟩
  · intro b key edge he
    have he' : (w.edges b).lookup key=some edge := by cases b <;> exact he
    obtain ⟨src,dst,hs,hd,hn,ht,hm⟩ := h.edges b key edge he'
    exact ⟨src,dst,hkept _ _ hs,hkept _ _ hd,hn,ht,hm⟩
  · have husize : usizeMax=2*vecCapacity+1 := rfl
    simp only [h.version,SafeCounter.increase,SequenceValueHashMap.len_push,SafeCounter.mk.injEq,
      and_true]
    omega
  · rw [SequenceValueHashMap.len_push]
    omega
  · intro hd i s hs
    rcases hsplit i s hs with ⟨-,rfl⟩ | hs
    · exact hD hd
    · exact h.declared_layouts hd i s hs

/-- Remembering an archetype of the right components for a type. -/
theorem rememberArchetype_spec (h : RegistryInv D w) {T : TArchetype} {id : ℕ}
    {spec : ArchetypeSpec V} (hv : w.archetypes.valueAt id=some spec) (ht : HasTypes spec.layout T)
    (hnew : w.archetypeCounter.lookup T=none) :
    Registers D (rememberArchetype T id) w (fun _ w' =>
      w'.archetypes=w.archetypes ∧ w'.archetypeCounter.lookup T=some id) := by
  refine ⟨⟨rfl,fun _ _ hs => hs,fun _ _ hs hn => absurd (hs.symm.trans hn) (Option.some_ne_none _),
    fun _ _ hi => hi,fun _ _ hg => hg,?_,fun b _ _ he => by cases b <;> exact he⟩,
    ⟨h.keys,h.layouts,h.components,h.sets_sound,h.sets_complete,?_,
      fun b key edge he => ?_,h.version,h.capacity,h.declared_components,h.declared_layouts⟩,
    rfl,AList.lookup_insert _⟩
  · intro T' i hl
    change (w.archetypeCounter.insert T id).lookup T'=some i
    rw [AList.lookup_insert_ne]
    · exact hl
    · rintro rfl
      rw [hnew] at hl
      cases hl
  · intro T' i hl
    change (w.archetypeCounter.insert T id).lookup T'=some i at hl
    by_cases hT : T'=T
    · subst hT
      rw [AList.lookup_insert] at hl
      cases hl
      exact ⟨spec,hv,ht⟩
    · rw [AList.lookup_insert_ne hT] at hl
      exact h.types T' i hl
  · have he' : (w.edges b).lookup key=some edge := by cases b <;> exact he
    exact h.edges b key edge he'

/-- The archetype remembered for a type has its components, and is found again. -/
def Remembered (T : TArchetype) (id : ℕ) (w : World V) : Prop :=
  w.archetypeCounter.lookup T=some id ∧
    ∃ spec : ArchetypeSpec V,w.archetypes.valueAt id=some spec ∧ HasTypes spec.layout T

/-- `create_archetype_id` ends in an archetype of exactly the type's components. -/
theorem createArchetypeId_spec (h : RegistryInv D w) {T : TArchetype} {kind : ArchetypeKind}
    (hD : D → T.isDeclared=true) (hnew : w.archetypeCounter.lookup T=none) :
    Registers D (createArchetypeId T kind) w (Remembered T) := by
  unfold createArchetypeId
  split
  · exact Registers.fault h
  · rename_i hcheck
    have hnodup := (checkNoDuplicateComponent_ok hcheck).1
    obtain ⟨hext,hinv⟩ := registers_components h hD
    have hids := registerComponents_ids T.descriptors w.componentCounter
    have hreg := registerComponents_registered T.descriptors w.componentCounter
    apply Registers.getState
    dsimp only
    generalize hr : registerComponents T.descriptors w.componentCounter=registered
      at hext hinv hids hreg
    apply Registers.extend hext
    have hset : ∀ i,i∈normalizeSet registered.2 ↔
        ∃ t,t∈T.storageTypes ∧ registered.1.indexOf t=some i := by
      intro i
      rw [mem_normalizeSet,hids,←T.descriptors_storage]
      simp only [List.mem_map,exists_exists_and_eq_and]
    have htypes : ∀ t,t∈T.storageTypes → ∃ id,registered.1.indexOf t=some id := by
      intro t ht
      rw [←T.descriptors_storage,List.mem_map] at ht
      obtain ⟨des,hd,rfl⟩ := ht
      exact hreg des hd
    split
    · rename_i id hl
      obtain ⟨spec,hv,his⟩ := hinv.sets_sound _ id hl
      have hhas : HasTypes spec.layout T :=
        ⟨hnodup,types_of_set his hset (fun t ht => hinv.registered hv ht) htypes⟩
      refine Registers.bind (rememberArchetype_spec hinv hv hhas hnew) ?_
      rintro - w' - hinv' ⟨harch,hlook⟩
      exact Registers.pure hinv' ⟨hlook,spec,harch ▸ hv,hhas⟩
    · rename_i hl
      refine Registers.bind (createArchetype_spec hinv T kind) ?_
      rintro spec w' - hinv' ⟨rfl,hof,harch⟩
      have hkeys : ∀ t,t∈spec.layout.componentColDescriptors ↔ t∈T.storageTypes := by
        intro t
        rw [hof.mem_keys,T.descriptors_storage]
      have his : IsSetOf registered.1 (normalizeSet registered.2) spec.layout :=
        ⟨sorted_normalizeSet _,fun i => by simp only [hset,hkeys]⟩
      refine Registers.bind (registerArchetypeSpec_spec hinv' his hl hof harch
        (fun hd => declared_of hof (descriptors_declared (hD hd)))) ?_
      rintro id w₂ - hinv₂ ⟨hv,-,hcount⟩
      have hhas : HasTypes spec.layout T := ⟨hnodup,hkeys⟩
      refine Registers.bind (rememberArchetype_spec hinv₂ hv hhas (by rw [hcount]; exact hnew)) ?_
      rintro - w₃ - hinv₃ ⟨harch₃,hlook⟩
      exact Registers.pure hinv₃ ⟨hlook,spec,harch₃ ▸ hv,hhas⟩

/-- The archetype of an archetype type, whether it was there before or not. -/
theorem getOrCreateArchetypeAs_spec (h : RegistryInv D w) {T : TArchetype} {kind : ArchetypeKind}
    (hD : D → T.isDeclared=true) :
    Registers D (getOrCreateArchetypeAs T kind) w (Remembered T) := by
  unfold getOrCreateArchetypeAs
  apply Registers.getState
  split
  · rename_i id hl
    exact Registers.pure h ⟨hl,h.types T id hl⟩
  · rename_i hl
    exact createArchetypeId_spec h hD hl

/-- The keys an archetype hands out are its storage types. -/
theorem mem_componentKeys {archId : ℕ} {layout : ChunkLayout} {t : StorageType} :
    t∈World.componentKeys w archId layout ↔ t∈layout.componentColDescriptors := by
  rw [World.componentKeys,(w.runtime.keyOrder_perm _ _).mem_iff,AList.mem_keys]

/-- Looking up ids one after the other gives the ids of all the types. -/
theorem componentIds_mem {specs : ComponentSpecs} {ts : List StorageType} {ids : List ℕ}
    (h : componentIds specs ts=some ids) (i : ℕ) :
    i∈ids ↔ ∃ t∈ts,specs.indexOf t=some i := by
  induction ts generalizing ids with
  | nil =>
    cases h
    simp
  | cons t rest ih =>
    rw [componentIds,List.mapM_cons] at h
    cases ht : specs.indexOf t with
    | none =>
      rw [ht] at h
      cases h
    | some j =>
      cases hr : componentIds specs rest with
      | none =>
        rw [componentIds] at hr
        rw [ht,hr] at h
        cases h
      | some js =>
        have hr' := hr
        rw [componentIds] at hr'
        rw [ht,hr'] at h
        cases h
        rw [List.mem_cons,ih hr,List.exists_mem_cons_iff,ht,Option.some.injEq]
        exact or_congr_left eq_comm

/-- The ids of an archetype are those of its storage types. -/
theorem archetypeComponentIds_spec (h : RegistryInv D w) (archId : ℕ) :
    Registers D (archetypeComponentIds archId) w (fun ids w' => w'=w ∧
      ∃ spec : ArchetypeSpec V,w.archetypes.valueAt archId=some spec ∧
        ∀ i,i∈ids ↔ ∃ t∈spec.layout.componentColDescriptors,w.componentCounter.indexOf t=some i) := by
  unfold archetypeComponentIds
  apply Registers.getState
  rw [h.get_eq]
  cases hv : w.archetypes.valueAt archId with
  | none => exact Registers.fault h
  | some spec =>
    dsimp only
    split
    · rename_i ids hids
      refine Registers.pure h ⟨rfl,spec,rfl,fun i => ?_⟩
      rw [componentIds_mem hids]
      simp only [mem_componentKeys]
    · exact Registers.fault h

section Derived

variable {specs : ComponentSpecs}

/-- Appending descriptors takes every type once, with its registered descriptor. -/
theorem appendComponentDescriptor_ok {ts : List StorageType} {dst out : List ComponentDescriptor}
    (hc : ∀ t des,specs.get t=some des → des.storageTypeId=t)
    (h : appendComponentDescriptor specs ts dst=.ok out) :
    (∀ t,t∈out.map ComponentDescriptor.storageTypeId ↔
      t∈dst.map ComponentDescriptor.storageTypeId ∨ t∈ts) ∧
    ∀ des∈out,des∈dst ∨ ∃ t,specs.get t=some des := by
  induction ts generalizing dst with
  | nil =>
    cases h
    exact ⟨fun t => by simp,fun des hd => .inl hd⟩
  | cons s rest ih =>
    unfold appendComponentDescriptor at h
    split at h
    · rename_i hs
      obtain ⟨h1,h2⟩ := ih h
      refine ⟨fun t => ?_,h2⟩
      rw [h1,List.mem_cons]
      constructor
      · rintro (ht | ht)
        · exact .inl ht
        · exact .inr (.inr ht)
      · rintro (ht | rfl | ht)
        · exact .inl ht
        · exact .inl hs
        · exact .inr ht
    · split at h
      · rename_i des hd
        obtain ⟨h1,h2⟩ := ih h
        refine ⟨fun t => ?_,fun des' hd' => ?_⟩
        · rw [h1,List.map_append,List.mem_append,List.map_singleton,List.mem_singleton,
            hc s des hd,List.mem_cons,or_assoc]
        · rcases h2 des' hd' with hm | hm
          · rw [List.mem_append,List.mem_singleton] at hm
            rcases hm with hm | rfl
            · exact .inl hm
            · exact .inr ⟨s,hd⟩
          · exact .inr hm
      · cases h

/-- A derived archetype lays out the descriptors it was given. -/
theorem derivedArchetype_ok {components : List ComponentDescriptor} {spec : ArchetypeSpec V}
    (h : derivedArchetype specs components=.ok spec) :
    spec.layout.Of specs components ∧ spec.arch=.regular := by
  unfold derivedArchetype at h
  split at h
  · rename_i layout hl
    cases h
    exact ⟨ChunkLayout.new_of hl,rfl⟩
  · cases h

end Derived

/-- The storage types of a derived archetype: the union, or the difference. -/
def DerivedType (isRemove : Bool) (a b : ChunkLayout) (t : StorageType) : Prop :=
  match isRemove with
  | true => t∈a.componentColDescriptors ∧ t∉b.componentColDescriptors
  | false => t∈a.componentColDescriptors ∨ t∈b.componentColDescriptors

/-- The two ways of deriving an archetype lay out registered descriptors of the
derived types. -/
theorem derived_ok (h : RegistryInv D w) {isRemove : Bool} {a b : ℕ} {la lb : ChunkLayout}
    {spec : ArchetypeSpec V}
    (hd : (match isRemove with
      | true => newFromAExcludeB w.componentCounter (World.componentKeys w a la) lb
      | false => newFromPair w.componentCounter (World.componentKeys w a la)
        (World.componentKeys w b lb))=.ok spec) :
    ∃ comps,spec.layout.Of w.componentCounter comps ∧ spec.arch=.regular ∧
      (∀ t,t∈comps.map ComponentDescriptor.storageTypeId ↔ DerivedType isRemove la lb t) ∧
      ∀ des∈comps,∃ t,w.componentCounter.get t=some des := by
  have hnil : ∀ des : ComponentDescriptor,des∉[] := fun des => List.not_mem_nil
  cases isRemove with
  | true =>
    dsimp only at hd
    unfold newFromAExcludeB at hd
    cases hc : appendComponentDescriptor w.componentCounter
        ((World.componentKeys w a la).filter (fun t => t∉lb.componentColDescriptors)) [] with
    | error e =>
      rw [hc] at hd
      cases hd
    | ok comps =>
      rw [hc] at hd
      obtain ⟨h1,h2⟩ := appendComponentDescriptor_ok h.components hc
      obtain ⟨hof,harch⟩ := derivedArchetype_ok hd
      refine ⟨comps,hof,harch,fun t => ?_,fun des hdes => ?_⟩
      · rw [h1,List.mem_filter,mem_componentKeys]
        simp [DerivedType]
      · exact (h2 des hdes).resolve_left (hnil des)
  | false =>
    dsimp only at hd
    unfold newFromPair at hd
    cases hc : appendComponentDescriptor w.componentCounter (World.componentKeys w a la) [] with
    | error e =>
      rw [hc] at hd
      cases hd
    | ok first =>
      rw [hc] at hd
      cases hc' : appendComponentDescriptor w.componentCounter (World.componentKeys w b lb) first with
      | error e =>
        change (appendComponentDescriptor w.componentCounter (World.componentKeys w b lb) first >>= _)=_
          at hd
        rw [hc'] at hd
        cases hd
      | ok comps =>
        change (appendComponentDescriptor w.componentCounter (World.componentKeys w b lb) first >>= _)=_
          at hd
        rw [hc'] at hd
        obtain ⟨h1,h2⟩ := appendComponentDescriptor_ok h.components hc
        obtain ⟨h3,h4⟩ := appendComponentDescriptor_ok h.components hc'
        obtain ⟨hof,harch⟩ := derivedArchetype_ok hd
        refine ⟨comps,hof,harch,fun t => ?_,fun des hdes => ?_⟩
        · rw [h3,h1,mem_componentKeys,mem_componentKeys]
          simp [DerivedType]
        · rcases h4 des hdes with hm | hm
          · exact (h2 des hm).resolve_left (hnil des)
          · exact hm

section Edges

variable {isRemove : Bool} {set : List ℕ} {aArchId bArchId : ℕ} {a b : ArchetypeSpec V}

theorem getArchetype_spec (h : RegistryInv D w) (archId : ℕ) :
    Registers D (getArchetype archId) w
      (fun spec w' => w'=w ∧ w.archetypes.valueAt archId=some spec) := by
  unfold getArchetype
  apply Registers.getState
  rw [h.get_eq]
  cases hv : w.archetypes.valueAt archId with
  | none => exact Registers.fault h
  | some spec => exact Registers.pure h ⟨rfl,rfl⟩

/-- Every type of a derived archetype is registered. -/
theorem derived_registered (h : RegistryInv D w) (ha : w.archetypes.valueAt aArchId=some a)
    (hb : w.archetypes.valueAt bArchId=some b) (t : StorageType)
    (ht : DerivedType isRemove a.layout b.layout t) :
    ∃ id,w.componentCounter.indexOf t=some id := by
  cases isRemove with
  | true => exact h.registered ha ht.1
  | false =>
    rcases ht with ht | ht
    · exact h.registered ha ht
    · exact h.registered hb ht

/-- A derived archetype has exactly the derived types, whether it was there
before or is created now. -/
theorem getOrCreateDerived_spec (h : RegistryInv D w) (ha : w.archetypes.valueAt aArchId=some a)
    (hb : w.archetypes.valueAt bArchId=some b) (hs : set.Pairwise (· < ·))
    (hset : ∀ i,i∈set ↔
      ∃ t,DerivedType isRemove a.layout b.layout t ∧ w.componentCounter.indexOf t=some i) :
    Registers D (getOrCreateDerived isRemove set aArchId bArchId) w (fun id w' =>
      ∃ spec : ArchetypeSpec V,w'.archetypes.valueAt id=some spec ∧
        ∀ t,t∈spec.layout.componentColDescriptors ↔ DerivedType isRemove a.layout b.layout t) := by
  unfold getOrCreateDerived
  apply Registers.getState
  split
  · rename_i id hl
    obtain ⟨spec,hv,his⟩ := h.sets_sound set id hl
    exact Registers.pure h ⟨spec,hv,types_of_set his hset (fun t ht => h.registered hv ht)
      (derived_registered h ha hb)⟩
  · rename_i hl
    unfold createDerivedArchetypeId
    refine Registers.bind (getArchetype_spec h aArchId) ?_
    rintro a' w' - - ⟨rfl,ha'⟩
    rw [ha] at ha'
    cases ha'
    refine Registers.bind (getArchetype_spec h bArchId) ?_
    rintro b' w'' - - ⟨rfl,hb'⟩
    rw [hb] at hb'
    cases hb'
    apply Registers.getState
    dsimp only
    split
    · rename_i spec hd
      obtain ⟨comps,hof,harch,htypes,hget⟩ := derived_ok h hd
      have hkeys : ∀ t,t∈spec.layout.componentColDescriptors ↔
          DerivedType isRemove a.layout b.layout t := fun t => (hof.mem_keys t).trans (htypes t)
      have hdecl : D → Declared spec.layout := by
        intro hD
        refine declared_of hof fun des hdes => ?_
        obtain ⟨t,ht⟩ := hget des hdes
        rw [h.declared_components hD t des ht,h.components t des ht]
      refine Registers.mono (registerArchetypeSpec_spec h
        ⟨hs,fun i => by simp only [hset,hkeys]⟩ hl hof (.inl harch) hdecl) ?_
      rintro id w₁ ⟨hv,-,-⟩
      exact ⟨spec,hv,hkeys⟩
    · exact Registers.fault h

/-- `insert_edge` caches where a structure change leads, with its plan. -/
theorem insertEdge_spec (h : RegistryInv D w) {key : ArchetypeEdgeKey} {dstArchId : ℕ}
    {src dst : ArchetypeSpec V} (hs : w.archetypes.valueAt key.srcArchId=some src)
    (hd : w.archetypes.valueAt dstArchId=some dst) (hn : key.archetypeTypeId.storageTypes.Nodup)
    (ht : EdgeTypes isRemove src.layout dst.layout key.archetypeTypeId)
    (hnew : ∀ edge,(w.edges isRemove).lookup key=some edge →
      edge=⟨dstArchId,MigrationPlan.new src.layout dst.layout⟩) :
    Registers D (insertEdge isRemove key dstArchId) w (fun _ w' => w'.archetypes=w.archetypes ∧
      (w'.edges isRemove).lookup key=
        some ⟨dstArchId,MigrationPlan.new src.layout dst.layout⟩) := by
  unfold insertEdge
  refine Registers.bind (getArchetype_spec h key.srcArchId) ?_
  rintro src' w' - - ⟨rfl,hs'⟩
  rw [hs] at hs'
  cases hs'
  refine Registers.bind (getArchetype_spec h dstArchId) ?_
  rintro dst' w'' - - ⟨rfl,hd'⟩
  rw [hd] at hd'
  cases hd'
  have hold : ∀ (edges : HashMap ArchetypeEdgeKey ArchetypeEdge) (edge : ArchetypeEdge),
      (∀ e,edges.lookup key=some e → e=edge) →
      ∀ k e,edges.lookup k=some e → (edges.insert key edge).lookup k=some e := by
    intro edges edge hk k e he
    by_cases hkey : k=key
    · subst hkey
      rw [AList.lookup_insert,hk e he]
    · rw [AList.lookup_insert_ne hkey]
      exact he
  have hsplit : ∀ (edges : HashMap ArchetypeEdgeKey ArchetypeEdge) (edge : ArchetypeEdge) k e,
      (edges.insert key edge).lookup k=some e → k=key ∧ e=edge ∨ edges.lookup k=some e := by
    intro edges edge k e he
    by_cases hk : k=key
    · subst hk
      rw [AList.lookup_insert] at he
      exact .inl ⟨rfl,(Option.some.inj he).symm⟩
    · rw [AList.lookup_insert_ne hk] at he
      exact .inr he
  cases isRemove with
  | true =>
    refine ⟨⟨rfl,fun _ _ hv => hv,fun _ _ hv hn => absurd (hv.symm.trans hn) (Option.some_ne_none _),
      fun _ _ hi => hi,fun _ _ hg => hg,fun _ _ hl => hl,?_⟩,⟨h.keys,h.layouts,h.components,
      h.sets_sound,h.sets_complete,h.types,?_,h.version,h.capacity,h.declared_components,
      h.declared_layouts⟩,
      rfl,AList.lookup_insert _⟩
    · intro isRemove k e he
      cases isRemove with
      | true => exact hold _ _ hnew k e he
      | false => exact he
    · intro isRemove k e he
      cases isRemove with
      | true =>
        rcases hsplit _ _ k e he with ⟨rfl,rfl⟩ | he
        · exact ⟨src,dst,hs,hd,hn,ht,rfl⟩
        · exact h.edges true k e he
      | false => exact h.edges false k e he
  | false =>
    refine ⟨⟨rfl,fun _ _ hv => hv,fun _ _ hv hn => absurd (hv.symm.trans hn) (Option.some_ne_none _),
      fun _ _ hi => hi,fun _ _ hg => hg,fun _ _ hl => hl,?_⟩,⟨h.keys,h.layouts,h.components,
      h.sets_sound,h.sets_complete,h.types,?_,h.version,h.capacity,h.declared_components,
      h.declared_layouts⟩,
      rfl,AList.lookup_insert _⟩
    · intro isRemove k e he
      cases isRemove with
      | true => exact he
      | false => exact hold _ _ hnew k e he
    · intro isRemove k e he
      cases isRemove with
      | true => exact h.edges true k e he
      | false =>
        rcases hsplit _ _ k e he with ⟨rfl,rfl⟩ | he
        · exact ⟨src,dst,hs,hd,hn,ht,rfl⟩
        · exact h.edges false k e he

/-- The archetype an edge leads to, with the edge in the cache. -/
structure EdgeReady (isRemove : Bool) (key : ArchetypeEdgeKey) (dstArchId : ℕ)
    (src dst : ArchetypeSpec V) (w : World V) : Prop where
  /-- The archetype the edge leaves. -/
  source : w.archetypes.valueAt key.srcArchId=some src
  /-- The archetype it leads to. -/
  target : w.archetypes.valueAt dstArchId=some dst
  /-- No component is named twice. -/
  nodup : key.archetypeTypeId.storageTypes.Nodup
  /-- The target has the components that the operation asks for. -/
  types : EdgeTypes isRemove src.layout dst.layout key.archetypeTypeId
  /-- The edge is in its cache, with the plan for the two layouts. -/
  cached : (w.edges isRemove).lookup key=some ⟨dstArchId,MigrationPlan.new src.layout dst.layout⟩

variable (isRemove) in
/-- The ids of the derived types, as the code works them out. -/
theorem derivedIds {src : ArchetypeSpec V} {aIds bIds : List ℕ}
    (ha : ∀ id,id∈aIds ↔ ∃ t∈src.layout.componentColDescriptors,w.componentCounter.indexOf t=some id)
    (hb : ∀ id,id∈bIds ↔ ∃ t∈b.layout.componentColDescriptors,w.componentCounter.indexOf t=some id)
    (id : ℕ) :
    id∈normalizeSet (match isRemove with
      | true => aIds.filter (fun id => id∉bIds)
      | false => aIds++bIds) ↔
      ∃ t,DerivedType isRemove src.layout b.layout t ∧ w.componentCounter.indexOf t=some id := by
  rw [mem_normalizeSet]
  cases isRemove with
  | true =>
    simp only [List.mem_filter,ha,hb,decide_eq_true_eq,DerivedType]
    constructor
    · rintro ⟨⟨t,ht,hi⟩,hnot⟩
      exact ⟨t,⟨ht,fun hb => hnot ⟨t,hb,hi⟩⟩,hi⟩
    · rintro ⟨t,⟨ht,hnot⟩,hi⟩
      refine ⟨⟨t,ht,hi⟩,?_⟩
      rintro ⟨t',ht',hi'⟩
      exact hnot (SequenceValueHashMap.indexOf_inj hi' hi ▸ ht')
  | false =>
    simp only [List.mem_append,ha,hb,DerivedType]
    constructor
    · rintro (⟨t,ht,hi⟩ | ⟨t,ht,hi⟩)
      · exact ⟨t,.inl ht,hi⟩
      · exact ⟨t,.inr ht,hi⟩
    · rintro ⟨t,ht | ht,hi⟩
      · exact .inl ⟨t,ht,hi⟩
      · exact .inr ⟨t,ht,hi⟩

/-- `get_or_create_add_edge` and its sibling lead to the union and the
difference. -/
theorem getOrCreateEdge_spec (h : RegistryInv D w) {key : ArchetypeEdgeKey}
    (hD : D → key.archetypeTypeId.isDeclared=true) :
    Registers D (getOrCreateEdge isRemove key) w
      (fun dstArchId w' => ∃ src dst,EdgeReady isRemove key dstArchId src dst w') := by
  unfold getOrCreateEdge
  apply Registers.getState
  split
  · rename_i edge he
    obtain ⟨src,dst,hs,hd,hn,ht,hm⟩ := h.edges isRemove key edge he
    exact Registers.pure h ⟨src,dst,hs,hd,hn,ht,by rw [he,←hm]⟩
  · rename_i hnew
    refine Registers.bind (getOrCreateArchetypeAs_spec h hD) ?_
    rintro bArchId w₁ hext₁ hinv₁ ⟨-,b,hb,hnodup,htypes⟩
    refine Registers.bind (archetypeComponentIds_spec hinv₁ key.srcArchId) ?_
    rintro aIds w₂ - - ⟨rfl,src,hs₁,haIds⟩
    refine Registers.bind (archetypeComponentIds_spec hinv₁ bArchId) ?_
    rintro bIds w₃ - - ⟨rfl,b',hb',hbIds⟩
    rw [hb] at hb'
    cases hb'
    refine Registers.bind (getOrCreateDerived_spec hinv₁ hs₁ hb (sorted_normalizeSet _)
      (derivedIds isRemove haIds hbIds)) ?_
    rintro dstArchId w₄ hext₄ hinv₄ ⟨dst,hd,hdt⟩
    have hedge : EdgeTypes isRemove src.layout dst.layout key.archetypeTypeId := by
      intro t
      rw [hdt]
      cases isRemove with
      | true => exact and_congr_right fun _ => not_congr (htypes t)
      | false => exact or_congr_right (htypes t)
    have hs₄ := hext₄.kept _ _ hs₁
    refine Registers.bind (insertEdge_spec hinv₄ hs₄ hd hnodup hedge ?_) ?_
    · intro edge he
      obtain ⟨src',dst',hs',hd',-,ht',hm'⟩ := hinv₄.edges isRemove key edge he
      rw [hs₄] at hs'
      cases hs'
      have hid := archetype_unique hinv₄ hd' hd fun t => (ht' t).trans (hedge t).symm
      rw [hid,hd] at hd'
      cases hd'
      cases edge
      cases hid
      cases hm'
      rfl
    · rintro - w₅ - hinv₅ ⟨harch,hlook⟩
      exact Registers.pure hinv₅ ⟨src,dst,harch ▸ hs₄,harch ▸ hd,hnodup,hedge,hlook⟩

end Edges

end XynokEcs.RegistrySteps
