import XynokEcs.StoreSteps

/-!
# Which archetype an archetype type gets

An archetype type has at most one archetype. Asking for it gives that one; when
there is none yet one is created, or the call panics because it cannot be laid
out. Nothing else can happen, and no error is ever returned.
-/

namespace XynokEcs.ArchetypeHomes

open ComponentTypes EntityHandle SequenceValueMap FaultingState ChunkRows RowWrites ArchetypeStore
  ChunkLayouts EntityAllocation SlotInvariants WorldState WorldCalls RegistryInvariants RegistrySteps
  StoreInvariants StoreSteps

variable {V : Type} {D : Prop} {w w' : World V} {T : TArchetype} {kind : ArchetypeKind} {i : ℕ}
  {spec : ArchetypeSpec V}

/-- The archetype of an archetype type. -/
def Home (w : World V) (T : TArchetype) (i : ℕ) (spec : ArchetypeSpec V) : Prop :=
  w.archetypes.valueAt i=some spec ∧ HasTypes spec.layout T

/-- The layout an archetype type is given when it is created. -/
def layoutFor (kind : ArchetypeKind) (specs : ComponentSpecs) (T : TArchetype) :
    Except XynokEcsError ChunkLayout :=
  match kind with
  | .chunked cfg => ChunkLayout.new specs T.descriptors cfg.chunkSizeInByte
  | .singleton => ChunkLayout.newFitted specs T.descriptors

/-- The archetype a kind starts from. -/
def ArchetypeKind.arch : ArchetypeKind → Archetype V
  | .chunked _ => .regular
  | .singleton => .singleton

/-- Whether entities may leave and enter an archetype of a kind. -/
def ArchetypeKind.allowStructureChange : ArchetypeKind → Bool
  | .chunked cfg => cfg.allowStructureChange
  | .singleton => false

/-- The archetype created for an archetype type over a layout. -/
def createdSpec (kind : ArchetypeKind) (T : TArchetype) (layout : ChunkLayout) : ArchetypeSpec V :=
  ⟨.typeName T,ArchetypeKind.arch kind,layout,ArchetypeKind.allowStructureChange kind⟩

/-- The components of an archetype type, registered. -/
def registeredFor (w : World V) (T : TArchetype) : ComponentSpecs :=
  (registerComponents T.descriptors w.componentCounter).1

theorem Home.unique (h : RegistryInv D w) {j : ℕ} {spec' : ArchetypeSpec V} (hi : Home w T i spec)
    (hj : Home w T j spec') : i=j ∧ spec=spec' := by
  have hij : i=j := archetype_unique h hi.1 hj.1 fun t => (hi.2.2 t).trans (hj.2.2 t).symm
  subst hij
  exact ⟨rfl,Option.some.inj (hi.1.symm.trans hj.1)⟩

theorem Home.extend (hi : Home w T i spec) (he : Extends w w') : Home w' T i spec :=
  ⟨he.kept i spec hi.1,hi.2⟩

theorem checkNoDuplicateComponent_of {ts seen : List StorageType} (hn : ts.Nodup)
    (hd : ∀ t∈ts,t∉seen) : checkNoDuplicateComponent seen ts=.ok () := by
  induction ts generalizing seen with
  | nil => rfl
  | cons t rest ih =>
    rw [checkNoDuplicateComponent,if_neg (hd t List.mem_cons_self)]
    have hn' := List.nodup_cons.mp hn
    refine ih hn'.2 fun t' ht' hm => ?_
    rcases List.mem_cons.mp hm with rfl | hm
    · exact hn'.1 ht'
    · exact hd t' (List.mem_cons_of_mem _ ht') hm

/-- The first repeated storage type is reported. -/
theorem checkNoDuplicateComponent_error {ts seen : List StorageType} (hn : ¬ts.Nodup) :
    ∃ t∈ts,checkNoDuplicateComponent seen ts=
      .error (.duplicateComponentInArchetype t) := by
  cases hc : checkNoDuplicateComponent seen ts with
  | ok u => exact absurd (checkNoDuplicateComponent_ok hc).1 hn
  | error err =>
    clear hn
    induction ts generalizing seen with
    | nil => cases hc
    | cons t rest ih =>
      rw [checkNoDuplicateComponent] at hc
      split at hc
      · cases hc
        exact ⟨t,List.mem_cons_self,rfl⟩
      · obtain ⟨t',ht',he⟩ := ih hc
        exact ⟨t',List.mem_cons_of_mem _ ht',he⟩

/-- The ids of an archetype type, once its components are registered. -/
theorem isSetOf_registered {layout : ChunkLayout} (ht : HasTypes layout T) :
    IsSetOf (registeredFor w T)
      (normalizeSet (registerComponents T.descriptors w.componentCounter).2) layout := by
  refine ⟨sorted_normalizeSet _,fun id => ?_⟩
  rw [mem_normalizeSet,registerComponents_ids]
  simp only [ht.2,←T.descriptors_storage,List.mem_map,exists_exists_and_eq_and]
  rfl

/-- The entry of the set counter for an archetype type is its archetype. -/
theorem lookup_set_home (h : RegistryInv D w) (hD : D → T.isDeclared=true) (hh : Home w T i spec) :
    w.componentSetCounter.lookup
      (normalizeSet (registerComponents T.descriptors w.componentCounter).2)=some i := by
  obtain ⟨-,hinv⟩ := registers_components h hD
  obtain ⟨set,hs,hl⟩ := hinv.sets_complete i spec hh.1
  have hset := isSetOf_registered (w:=w) hh.2
  have heq : normalizeSet (registerComponents T.descriptors w.componentCounter).2=set := by
    refine hset.sorted.eq_of_mem_iff hs.sorted fun k => ?_
    rw [hset.mem,hs.mem]
    rfl
  rw [heq]
  exact hl

/-- Without an archetype the set counter has no entry either. -/
theorem lookup_set_none (h : RegistryInv D w) (hD : D → T.isDeclared=true)
    (hn : T.storageTypes.Nodup) (hh : ∀ i spec,¬Home w T i spec) :
    w.componentSetCounter.lookup
      (normalizeSet (registerComponents T.descriptors w.componentCounter).2)=none := by
  obtain ⟨-,hinv⟩ := registers_components h hD
  have hids := registerComponents_ids T.descriptors w.componentCounter
  have hreg := registerComponents_registered T.descriptors w.componentCounter
  rw [Option.eq_none_iff_forall_not_mem]
  intro i hi
  obtain ⟨spec,hv,hs⟩ := hinv.sets_sound _ i hi
  refine hh i spec ⟨hv,hn,types_of_set (P:=fun t => t∈T.storageTypes) hs ?_
    (fun t ht => hinv.registered hv ht) ?_⟩
  · intro id
    rw [mem_normalizeSet,hids,←T.descriptors_storage]
    simp only [List.mem_map,exists_exists_and_eq_and]
  · intro t ht
    rw [←T.descriptors_storage,List.mem_map] at ht
    obtain ⟨des,hd,rfl⟩ := ht
    exact hreg des hd

/-- What asking for an archetype did to the world, besides growing its registry. -/
theorem resolved (h : RegistryInv D w) (hD : D → T.isDeclared=true) {r : Except Fault ℕ}
    (hr : getOrCreateArchetypeAs T kind w=(r,w')) : Extends w w' ∧ RegistryInv D w' := by
  cases r with
  | ok j =>
    have hok := wp_of_ok (getOrCreateArchetypeAs_spec h hD) hr
    exact ⟨hok.1,hok.2.1⟩
  | error err =>
    exact wp_of_error (E:=fun _ w' => Extends w w' ∧ RegistryInv D w')
      (getOrCreateArchetypeAs_spec h hD) hr

/-- An archetype type that has an archetype gets it. -/
theorem getOrCreate_home (h : RegistryInv D w) (hD : D → T.isDeclared=true) (hh : Home w T i spec) :
    ∃ w',getOrCreateArchetypeAs T kind w=(.ok i,w') ∧ w'.archetypes=w.archetypes := by
  unfold getOrCreateArchetypeAs
  rw [getState_bind]
  cases hl : w.archetypeCounter.lookup T with
  | some j =>
    obtain ⟨spec',hv,ht⟩ := h.types T j hl
    obtain ⟨rfl,-⟩ := Home.unique h hh ⟨hv,ht⟩
    exact ⟨w,rfl,rfl⟩
  | none =>
    have hset := lookup_set_home h hD hh
    refine ⟨{ w with
      componentCounter := registeredFor w T
      archetypeCounter := w.archetypeCounter.insert T i },?_,rfl⟩
    change createArchetypeId T kind w=_
    unfold createArchetypeId
    rw [checkNoDuplicateComponent_of hh.2.1 (by simp)]
    simp only [getState_bind,modifyState_bind,hset]
    rfl

section Creating

/-- What is left to do once the components are registered and no archetype has
their ids: lay one out and hand out the next id. -/
theorem getOrCreate_fresh (h : RegistryInv D w) (hD : D → T.isDeclared=true)
    (hn : T.storageTypes.Nodup) (hh : ∀ i spec,¬Home w T i spec) :
    getOrCreateArchetypeAs T kind w=(do
      let spec ← createArchetype T kind
      let archId ← registerArchetypeSpec
        (normalizeSet (registerComponents T.descriptors w.componentCounter).2) spec
      rememberArchetype T archId
      return archId : Call V ℕ) { w with componentCounter := registeredFor w T } := by
  have hl : w.archetypeCounter.lookup T=none := by
    rw [Option.eq_none_iff_forall_not_mem]
    intro j hj
    obtain ⟨spec,hv,ht⟩ := h.types T j hj
    exact hh j spec ⟨hv,ht⟩
  have hset := lookup_set_none h hD hn hh
  unfold getOrCreateArchetypeAs
  rw [getState_bind,hl]
  change createArchetypeId T kind w=_
  unfold createArchetypeId
  rw [checkNoDuplicateComponent_of hn (by simp)]
  simp only [getState_bind,modifyState_bind,hset]
  rfl

theorem createArchetype_ok {layout : ChunkLayout}
    (hl : layoutFor kind w.componentCounter T=.ok layout) :
    createArchetype T kind w=(.ok (createdSpec kind T layout),w) := by
  unfold createArchetype
  rw [getState_bind]
  cases kind with
  | chunked cfg =>
    change ChunkLayout.new _ _ _=_ at hl
    simp only [hl]
    rfl
  | singleton =>
    change ChunkLayout.newFitted _ _=_ at hl
    simp only [hl]
    rfl

theorem createArchetype_error {err : XynokEcsError}
    (hl : layoutFor kind w.componentCounter T=.error err) :
    createArchetype T kind w=(.error (.panic (.createArchetypeFailed T err)),w) := by
  unfold createArchetype
  rw [getState_bind]
  cases kind with
  | chunked cfg =>
    change ChunkLayout.new _ _ _=_ at hl
    simp only [hl]
    rfl
  | singleton =>
    change ChunkLayout.newFitted _ _=_ at hl
    simp only [hl]
    rfl

/-- The next id goes to the new archetype. -/
theorem registerArchetypeSpec_ok {set : List ℕ} (hnone : w.archetypes.indexOf w.archetypes.len=none)
    (hcap : w.archetypes.len<vecCapacity) : ∃ w',registerArchetypeSpec set spec w=
      (.ok w.archetypes.len,w') ∧ ∀ j,w'.archetypes.valueAt j=
        if j=w.archetypes.len then some spec else w.archetypes.valueAt j := by
  let w' : World V := { w with
    archetypes := (w.archetypes.insert w.archetypes.len spec).1
    relocations := w.relocations+(w.runtime.relocates w.archetypes.len).toNat
    componentSetCounter := w.componentSetCounter.insert set w.archetypes.len
    globalArchetypeVersion := w.globalArchetypeVersion.increase }
  refine ⟨w',?_,?_⟩
  · unfold registerArchetypeSpec
    rw [getState_bind,if_neg (Nat.not_le.mpr hcap)]
    rfl
  · intro j
    change (w.archetypes.insert w.archetypes.len spec).1.valueAt j=_
    rw [SequenceValueHashMap.insert_new hnone,SequenceValueHashMap.valueAt_push]

theorem registerArchetypeSpec_full {set : List ℕ} (hcap : vecCapacity≤w.archetypes.len) :
    registerArchetypeSpec set spec w=(.error (.panic .capacityOverflow),w) := by
  unfold registerArchetypeSpec
  rw [getState_bind,if_pos hcap]
  rfl

/-- An archetype type without an archetype, when one can be laid out. -/
theorem getOrCreate_new (h : RegistryInv D w) (hD : D → T.isDeclared=true)
    (hn : T.storageTypes.Nodup) (hh : ∀ i spec,¬Home w T i spec)
    (hcap : w.archetypes.len<vecCapacity) {layout : ChunkLayout}
    (hl : layoutFor kind (registeredFor w T) T=.ok layout) :
    ∃ w',getOrCreateArchetypeAs T kind w=(.ok w.archetypes.len,w') ∧
      ∀ j,w'.archetypes.valueAt j=if j=w.archetypes.len then some (createdSpec kind T layout)
        else w.archetypes.valueAt j := by
  have hnone : w.archetypes.indexOf w.archetypes.len=none := by
    rw [h.keys,if_neg (Nat.lt_irrefl _)]
  let u : World V := { w with componentCounter := registeredFor w T }
  have hcreate : createArchetype T kind u=(.ok (createdSpec kind T layout),u) := createArchetype_ok hl
  obtain ⟨w',hreg,hv⟩ := registerArchetypeSpec_ok (w:=u) hnone hcap
  refine ⟨{ w' with archetypeCounter := w'.archetypeCounter.insert T w.archetypes.len },?_,hv⟩
  rw [getOrCreate_fresh h hD hn hh,bind_ok hcreate,bind_ok hreg]
  rfl

/-- An archetype for the type can be created. -/
def Placeable (kind : ArchetypeKind) (w : World V) (T : TArchetype) : Prop :=
  T.storageTypes.Nodup ∧ w.archetypes.len<vecCapacity ∧
    ∃ layout,layoutFor kind (registeredFor w T) T=.ok layout

/-- An archetype type without an archetype that cannot get one: the call panics. -/
theorem getOrCreate_unplaceable (h : RegistryInv D w) (hD : D → T.isDeclared=true)
    (hh : ∀ i spec,¬Home w T i spec) (hp : ¬Placeable kind w T) :
    ∃ p w',getOrCreateArchetypeAs T kind w=(.error (.panic p),w') := by
  by_cases hn : T.storageTypes.Nodup
  · let u : World V := { w with componentCounter := registeredFor w T }
    rw [getOrCreate_fresh h hD hn hh]
    cases hl : layoutFor kind (registeredFor w T) T with
    | error err =>
      have hcreate : createArchetype T kind u=_ := createArchetype_error hl
      exact ⟨_,_,bind_error hcreate⟩
    | ok layout =>
      have hcreate : createArchetype T kind u=_ := createArchetype_ok hl
      have hfull : vecCapacity≤u.archetypes.len :=
        Nat.le_of_not_lt fun hcap => hp ⟨hn,hcap,layout,hl⟩
      refine ⟨.capacityOverflow,u,?_⟩
      rw [bind_ok hcreate]
      exact bind_error (registerArchetypeSpec_full hfull)
  · have hl : w.archetypeCounter.lookup T=none := by
      rw [Option.eq_none_iff_forall_not_mem]
      intro j hj
      obtain ⟨spec,hv,ht⟩ := h.types T j hj
      exact hh j spec ⟨hv,ht⟩
    obtain ⟨t,-,hc⟩ := checkNoDuplicateComponent_error hn
    refine ⟨.createArchetypeFailed T (.duplicateComponentInArchetype t),w,?_⟩
    unfold getOrCreateArchetypeAs
    rw [getState_bind,hl]
    change createArchetypeId T kind w=_
    unfold createArchetypeId
    rw [hc]
    rfl

end Creating

section Admission

/-- The archetype of a type is there and refuses another row of it. -/
def Refuses (w : World V) (T : TArchetype) : Prop :=
  ∃ i spec,Home w T i spec ∧
    (spec.arch.canTakeARow=false ∨ validateArchetypeWritable T spec.layout≠.ok ())

/-- A row of the type can be created: its archetype takes it, or can be created. -/
def Admits (w : World V) (T : TArchetype) : Prop :=
  ¬Refuses w T ∧ ((∃ i spec,Home w T i spec) ∨ Placeable (.chunked defaultArchetypeCfg) w T)

/-- Whether a row is admitted is read off the registry. -/
theorem admits_congr (hr : World.registry w'=World.registry w) (h : Admits w T) : Admits w' T := by
  have ha : w'.archetypes=w.archetypes := congrArg Prod.fst hr
  have hc : w'.componentCounter=w.componentCounter := congrArg (fun r => r.2.1) hr
  unfold Admits Refuses Home Placeable registeredFor at h ⊢
  rw [ha,hc]
  exact h

/-- A layout made for an archetype type has every region its components write to. -/
theorem layoutFor_writable {specs : ComponentSpecs} {layout : ChunkLayout}
    (hl : layoutFor kind specs T=.ok layout) : validateArchetypeWritable T layout=.ok () := by
  have hof : layout.Of specs T.descriptors := by
    cases kind with
    | chunked cfg => exact ChunkLayout.new_of hl
    | singleton => exact (ChunkLayout.newFitted_of hl).1
  rw [validateArchetypeWritable_ok]
  intro c hc
  have hdes : c.descriptor∈T.descriptors := List.mem_map_of_mem hc
  have hkey : c.storageType∈layout.componentColDescriptors :=
    (hof.mem_keys _).mpr (List.mem_map_of_mem hdes)
  obtain ⟨d,hd⟩ := Option.isSome_iff_exists.mp (AList.lookup_isSome.mpr hkey)
  obtain ⟨henable,hadded,hchanged⟩ := hof.state_matches c.descriptor hdes d hd
  exact ⟨d,hd,fun hn => henable.trans hn,fun hn => ⟨hadded.trans hn,hchanged.trans hn⟩⟩

theorem layoutFor_types {specs : ComponentSpecs} {layout : ChunkLayout}
    (hl : layoutFor kind specs T=.ok layout) (hn : T.storageTypes.Nodup) : HasTypes layout T := by
  have hof : layout.Of specs T.descriptors := by
    cases kind with
    | chunked cfg => exact ChunkLayout.new_of hl
    | singleton => exact (ChunkLayout.newFitted_of hl).1
  refine ⟨hn,fun t => ?_⟩
  rw [hof.mem_keys,T.descriptors_storage]

theorem canTakeARow_fresh : (ArchetypeKind.arch kind : Archetype V).canTakeARow=true := by
  cases kind <;> rfl

/-- A type that is admitted has an archetype in the end that takes its row. -/
theorem getOrCreate_admitted (h : RegistryInv D w) (hD : D → T.isDeclared=true) (ha : Admits w T) :
    ∃ i spec w',getOrCreateArchetypeAs T (.chunked defaultArchetypeCfg) w=(.ok i,w') ∧
      Home w' T i spec ∧ spec.arch.canTakeARow=true ∧
      validateArchetypeWritable T spec.layout=.ok () := by
  by_cases hh : ∃ i spec,Home w T i spec
  · obtain ⟨i,spec,hh⟩ := hh
    obtain ⟨w',hrun,harch⟩ := getOrCreate_home h hD hh
    refine ⟨i,spec,w',hrun,⟨harch ▸ hh.1,hh.2⟩,?_,?_⟩
    · cases hc : spec.arch.canTakeARow with
      | true => rfl
      | false => exact absurd ⟨i,spec,hh,.inl hc⟩ ha.1
    · by_contra hc
      exact ha.1 ⟨i,spec,hh,.inr hc⟩
  · obtain ⟨hn,hcap,layout,hl⟩ := ha.2.resolve_left hh
    push Not at hh
    obtain ⟨w',hrun,hv⟩ := getOrCreate_new h hD hn hh hcap hl
    exact ⟨_,_,w',hrun,⟨by rw [hv,if_pos rfl],layoutFor_types hl hn⟩,canTakeARow_fresh,
      layoutFor_writable hl⟩

variable [Inhabited V] {e : Entity} {val : Bundle V} {reserved : List Entity}

/-- A row that is admitted is created. -/
theorem createComponentsFor_admitted (h : StoreInv D (e::reserved) w)
    (hD : D → val.ty.isDeclared=true) (ha : Admits w val.ty) :
    ∃ w',createComponentsFor e val w=(.ok (),w') := by
  obtain ⟨i,spec,w₁,hrun,hh,hcan,hwrite⟩ := getOrCreate_admitted h.registry hD ha
  obtain ⟨hext,hinv⟩ := resolved h.registry hD hrun
  have h₁ := h.extend hext hinv
  rcases attach_spec h₁ hD hh.1 hh.2 with ⟨err,herr,-⟩ | ⟨ix,w₂,w',hrun₁,hrun₂,-⟩
  · rw [hwrite] at herr
    cases herr
  · refine ⟨w',?_⟩
    have hbody : (do
        let archId ← getOrCreateArchetypeId val.ty
        let spec ← getArchetype archId
        if !spec.arch.canTakeARow then fault (.err (.singletonAlreadyExists spec.name))
        else do
          let w ← getState
          let indices ← onArchetype archId (fun layout => push layout e val w.tick)
          onAllocator (updateEntitySpec e archId indices) : Call V Unit) w=(.ok (),w') := by
      have hrun' : getOrCreateArchetypeId val.ty w=(.ok i,w₁) := hrun
      rw [bind_ok hrun',bind_ok (getArchetype_eq hinv hh.1),hcan]
      change (onArchetype i (fun layout => push layout e val w₁.tick) >>= fun ix => _ : Call V Unit) w₁=_
      rw [bind_ok hrun₁]
      exact hrun₂
    unfold createComponentsFor consuming onFault
    rw [hbody]

/-- When there is no slot to lose a failing `try_create` changes no slot. -/
theorem tryCreate_err_refused (h : StoreInv D reserved w) (hD : D → val.ty.isDeclared=true)
    (hn : ¬(w.entityAllocator.slotAvailable=true ∧ ¬Admits w val.ty)) {err : Fault} {w' : World V}
    (hrun : tryCreate val w=(.error err,w')) : RegistryInv D w' ∧ Refused val.drops w w' := by
  unfold tryCreate at hrun
  have hnew := onAllocator_newEntity h
  cases hr : onAllocator newEntity w with
  | mk r w₁ => cases r with
    | error err' =>
      have hw : w₁=w := wp_of_error (E:=fun _ w' => w'=w) hnew hr
      subst hw
      have hcons : consuming val (onAllocator newEntity) w₁=
          (.error err',{ w₁ with dropped := w₁.dropped++val.drops }) := by
        unfold consuming onFault
        rw [hr]
      rw [bind_error hcons] at hrun
      cases hrun
      exact refused_of (Extends.refl w₁) h.registry _
    | ok e =>
      obtain ⟨a,ht,rfl,h₁⟩ := wp_of_ok hnew hr
      have hcons : consuming val (onAllocator newEntity) w=(.ok e,World.setSlots w a) := by
        unfold consuming onFault
        rw [hr]
      have havail : w.entityAllocator.slotAvailable=true := by
        cases hx : newEntity w.entityAllocator with
        | mk r' a' =>
          have hx' := onAllocator_eq (w:=w) hx
          rw [hr] at hx'
          obtain ⟨rfl,-⟩ := Prod.mk.inj hx'
          exact newEntity_available hx
      have hadm : Admits w val.ty := by
        by_contra hc
        exact hn ⟨havail,hc⟩
      obtain ⟨w₂,hok⟩ := createComponentsFor_admitted h₁ hD (admits_congr rfl hadm)
      rw [bind_ok hcons,bind_ok hok] at hrun
      cases hrun

/-- An error of `create_components_for` means its archetype refuses the row. -/
theorem createComponentsFor_err (h : StoreInv D (e::reserved) w) (hD : D → val.ty.isDeclared=true)
    {err : XynokEcsError} {w' : World V} (hrun : createComponentsFor e val w=(.error (.err err),w')) :
    Refuses w val.ty := by
  by_contra hr
  by_cases hp : (∃ i spec,Home w val.ty i spec) ∨ Placeable (.chunked defaultArchetypeCfg) w val.ty
  · obtain ⟨w₁,hok⟩ := createComponentsFor_admitted h hD ⟨hr,hp⟩
    rw [hrun] at hok
    cases hok
  · push Not at hp
    obtain ⟨p,w₁,hpanic⟩ := getOrCreate_unplaceable h.registry hD hp.1 hp.2
    unfold createComponentsFor consuming onFault at hrun
    have hpanic' : getOrCreateArchetypeId val.ty w=(.error (.panic p),w₁) := hpanic
    rw [bind_error hpanic'] at hrun
    cases hrun

end Admission

end XynokEcs.ArchetypeHomes
