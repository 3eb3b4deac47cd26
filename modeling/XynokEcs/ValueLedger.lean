import XynokEcs.CommandQueues
import XynokEcs.ValueRows

/-!
# Where every value is

A value that was handed to the world sits in one row, waits in one queued
command, went back to a caller or was dropped, and at every moment exactly one
of these. A call that fails drops what it was handed; one that succeeds drops
the values it overwrites or destroys. Dropping the world drops what it holds.
-/

namespace XynokEcs.ValueLedger

open ComponentTypes EntityHandle SequenceValueMap ChunkLayouts FaultingState RowDirectory ChunkRows RowWrites
  ArchetypeStore EntityAllocation SlotInvariants WorldState WorldCalls CommandBuffer RegistryInvariants
  RegistrySteps StoreInvariants StoreSteps ArchetypeHomes EdgeOutcomes StructureChanges RegistryFrame QueryShapes QueryAccess
  QuerySources ItemWrites WorkerQueues ActionRuns WorldRuns ActionEffects WorldGrowth CommandQueues FiniteSums Ledgers
  ValueRows

variable {V α : Type} {D : Prop} {reserved : List Entity} {w w' : World V} {e : Entity}
  {src dst : ArchetypeSpec V} {slot : EntitySpec} {c : Chunk V} {val : Bundle V} {T : TArchetype}
  {inp out gone : Values V}

section Worlds

/-- The ledger of the rows of one archetype. -/
def ArchetypeSpec.ledger (spec : ArchetypeSpec V) : Ledger (Values V) :=
  Archetype.ledger spec.layout spec.arch

/-- What the rows of a world hold, and what the world dropped. -/
def World.ledger (w : World V) : Ledger (Values V) :=
  (w.archetypes.values.map ArchetypeSpec.ledger).sum+(0,(w.dropped : Values V))

/-- A ledger depends on the archetypes and on what was dropped. -/
theorem ledger_congr (ha : w'.archetypes=w.archetypes) (hd : w'.dropped=w.dropped) :
    World.ledger w'=World.ledger w := by
  rw [World.ledger,ha,hd,World.ledger]

/-- The part of the world its ledger is about. -/
def World.stock (w : World V) := (w.archetypes,w.dropped)

/-- A call that leaves both alone leaves the ledger alone. -/
theorem Fixes.ledger {x : Call V α} (hx : Fixes World.stock x) : Fixes World.ledger x := by
  intro w
  obtain ⟨ha,hd⟩ := Prod.mk.inj (hx w)
  exact ledger_congr ha hd

/-- Work on the slots touches no value. -/
theorem stock_onAllocator (x : Faulting EntityAllocator Fault α) :
    Fixes World.stock (onAllocator x : Call V α) := by
  refine Fixes.focus ?_ x
  intro a w
  rfl

/-- Following a moved row touches no value. -/
theorem stock_followSwapped (row : Option SwappedRow) :
    Fixes World.stock (followSwapped row : Call V Unit) := by
  cases row with
  | none => exact Fixes.pure _
  | some row => exact stock_onAllocator _

/-- The values of the registry are its archetypes. -/
theorem getElem?_values (m : SequenceValueHashMap ℕ (ArchetypeSpec V)) (i : ℕ) :
    m.values[i]?=m.valueAt i := by
  rw [SequenceValueHashMap.values,List.getElem?_map]
  rfl

/-- A new archetype holds nothing. -/
theorem ledger_extends (h : Extends w w') : World.ledger w'=World.ledger w := by
  have hr := h.rest
  simp only [World.rest,Prod.mk.injEq] at hr
  have hgrown : (w'.archetypes.values.map ArchetypeSpec.ledger).sum=
      (w.archetypes.values.map ArchetypeSpec.ledger).sum := by
    refine sum_grown _ (fun i spec hs => ?_) fun i spec hs hn => ?_
    · rw [getElem?_values] at hs ⊢
      exact h.kept i spec hs
    · rw [getElem?_values] at hs hn
      unfold ArchetypeSpec.ledger
      cases h.fresh i spec hs hn with
      | inl ha => rw [ha]; rfl
      | inr ha => rw [ha]; rfl
  rw [World.ledger,hgrown,hr.2.2.2.2.2.2.2.2,World.ledger]

/-- Exchanging the rows of an archetype exchanges its part of the ledger. -/
theorem ledger_setArch {i : ℕ} (hv : w.archetypes.valueAt i=some src) (a : Archetype V) :
    World.ledger (World.setArch w i a)+Archetype.ledger src.layout src.arch=
      World.ledger w+Archetype.ledger src.layout a := by
  have hs : w.archetypes.values[i]?=some src := by rw [getElem?_values,hv]
  have hvalues : (World.setArch w i a).archetypes.values=
      w.archetypes.values.set i { src with arch := a } := by
    apply List.ext_getElem?
    intro j
    rw [getElem?_values,valueAt_setArch,List.getElem?_set,getElem?_values]
    have hlt := (List.getElem?_eq_some_iff.mp hs).1
    by_cases hij : i=j
    · subst hij
      rw [if_pos rfl,if_pos rfl,if_pos hlt,hv,Option.map_some]
    · rw [if_neg hij,if_neg hij]
  have hsum := sum_set ArchetypeSpec.ledger hs { src with arch := a }
  rw [World.ledger,hvalues,add_right_comm]
  refine (congrArg (·+_) hsum).trans ?_
  exact add_right_comm _ _ _

/-- What balances in one archetype balances in the world. -/
theorem setArch_balance {i : ℕ} (hv : w.archetypes.valueAt i=some src) {a : Archetype V}
    (h : Balance inp out gone (Archetype.ledger src.layout src.arch) (Archetype.ledger src.layout a)) :
    Balance inp out gone (World.ledger w) (World.ledger (World.setArch w i a)) :=
  h.of_part (ledger_setArch hv a)

/-- Dropping values at the end of a step. -/
theorem ledger_dropped (w : World V) (vs : List (StorageType×V)) :
    World.ledger { w with dropped := w.dropped++vs }=((World.ledger w).1,(World.ledger w).2+(vs : Values V)) := by
  unfold World.ledger
  refine Prod.ext rfl ?_
  rw [←Multiset.coe_add]
  exact (add_assoc _ _ _).symm

/-- A refused call drops what it was handed, and nothing else. -/
theorem refused_balance {drops : List (StorageType×V)} (h : Refused drops w w') :
    Balance (drops : Values V) 0 (drops : Values V) (World.ledger w) (World.ledger w') := by
  obtain ⟨w₁,hext,rfl⟩ := h
  rw [ledger_dropped,ledger_extends hext]
  exact balance_spend _ _

end Worlds

section Values

/-- The values of the row at a place. -/
def World.rowValues (w : World V) (l : RowLoc) : List (StorageType×V) :=
  ((w.archetypes.valueAt l.archId).bind fun spec => (spec.arch.chunks[l.indices.chunkIdx]?).map fun c =>
    Chunk.rowValues spec.layout c l.indices.idxInChunk).getD []

/-- The values of an entity. -/
def World.valuesOf (w : World V) (e : Entity) : List (StorageType×V) :=
  ((w.entityAllocator.locate e).map (World.rowValues w)).getD []

/-- The components of an entity, none for a handle that is not found. -/
def World.componentsOf (w : World V) (e : Entity) : RowData V := (World.contents w e).getD emptyRow

/-- The values of an entity are those of its row. -/
theorem Found.valuesOf (hf : Found w e slot src c) :
    World.valuesOf w e=Chunk.rowValues src.layout c slot.idxInChunk := by
  rw [World.valuesOf,hf.locate,Option.map_some,Option.getD_some,World.rowValues]
  change ((w.archetypes.valueAt slot.archId).bind _).getD []=_
  rw [hf.archetype,Option.bind_some]
  change ((src.arch.chunks[slot.chunkIdx]?).map _).getD []=_
  rw [hf.chunk]
  rfl

/-- So are its components. -/
theorem Found.componentsOf (hf : Found w e slot src c) (h : StoreInv D reserved w) :
    World.componentsOf w e=c.rowData src.layout slot.idxInChunk := by
  rw [World.componentsOf,hf.contents h,Option.getD_some]

/-- The values of an entity are those of its components, each once. -/
theorem valuesOf_spec (h : StoreInv D reserved w) (e : Entity) :
    ((World.valuesOf w e).map Prod.fst).Nodup ∧ ∀ t v,(t,v)∈World.valuesOf w e ↔
      (World.componentsOf w e t).map ComponentData.value=some v := by
  cases hl : w.entityAllocator.locate e with
  | none =>
    have hn : World.contents w e=none := by
      rw [World.contents,Directory.contents]
      change (w.entityAllocator.locate e).bind _=none
      rw [hl]
      rfl
    rw [World.valuesOf,hl,World.componentsOf,hn]
    refine ⟨List.nodup_nil,fun t v => ?_⟩
    simp [emptyRow]
  | some l =>
    obtain ⟨slot,src,c,hf⟩ := StoreInv.found h hl
    have hw := h.registry.wellFormed hf.archetype
    rw [Found.valuesOf hf,Found.componentsOf hf h]
    refine ⟨?_,fun t v => ?_⟩
    · rw [Chunk.rowValues,List.map_map]
      exact hw.nodup
    · rw [Chunk.rowValues,List.mem_map]
      constructor
      · intro hm
        obtain ⟨col,hc,he⟩ := hm
        cases he
        exact rowData_value (AList.lookup_isSome.mp (Option.isSome_of_mem (hw.lookup_column col hc)))
      · intro hm
        have hin : t∈src.layout.componentColDescriptors := by
          by_contra hn
          rw [rowData_none hn] at hm
          cases hm
        rw [rowData_value hin] at hm
        obtain ⟨col,hc,rfl⟩ := List.mem_map.mp ((hw.mem_keys t).mp hin)
        exact ⟨col,hc,by rw [Option.some.inj hm]⟩

end Values

section Calls

/-- A postcondition may ask for nothing. -/
theorem wp_unsettled {x : Call V α} : wp x (fun _ _ => True) (fun _ _ => True) w :=
  wp_intro (fun _ _ _ => trivial) fun _ _ _ => trivial

/-- Work on the rows of an archetype balances the world as it balances the rows. -/
theorem onArchetype_settles {i : ℕ} {x : ChunkLayout → Faulting (Archetype V) Fault α}
    (h : RegistryInv D w) (hv : w.archetypes.valueAt i=some src)
    (hx : wp (x src.layout) (fun _ a => Balance inp out gone (Archetype.ledger src.layout src.arch)
      (Archetype.ledger src.layout a)) (fun _ _ => True) src.arch) :
    wp (onArchetype i x) (fun _ w' => Balance inp out gone (World.ledger w) (World.ledger w'))
      (fun _ _ => True) w := by
  cases hr : x src.layout src.arch with
  | mk r a =>
    unfold wp at hx ⊢
    rw [hr] at hx
    rw [onArchetype_eq h hv hr]
    cases r with
    | error f => trivial
    | ok v => exact setArch_balance hv hx

/-- What leaves values and archetypes alone keeps a balance on both exits. -/
theorem balance_kept {w₁ : World V} {x : Call V α} (hx : Fixes World.stock x)
    (h : Balance inp out gone (World.ledger w) (World.ledger w₁)) :
    wp x (fun _ w' => Balance inp out gone (World.ledger w) (World.ledger w'))
      (fun _ w' => Balance inp out gone (World.ledger w) (World.ledger w')) w₁ := by
  have hl : Balance inp out gone (World.ledger w) (World.ledger (x w₁).2) := by
    rw [Fixes.ledger hx w₁]
    exact h
  apply wp_intro
  · intro r t hr
    rw [hr] at hl
    exact hl
  · intro f t hr
    rw [hr] at hl
    exact hl

/-- What follows a balanced step without touching values or archetypes. -/
theorem balance_after {w₁ : World V} {x : Call V α} (hx : Fixes World.stock x)
    (h : Balance inp out gone (World.ledger w) (World.ledger w₁)) :
    wp x (fun _ w' => Balance inp out gone (World.ledger w) (World.ledger w')) (fun _ _ => True) w₁ :=
  wp_mono (balance_kept hx h) (fun _ _ hb => hb) (fun _ _ _ => trivial)

/-- A balance whose first step let the registry grow. -/
theorem balance_extend {w₁ : World V} (he : Extends w w₁)
    (h : Balance inp out gone (World.ledger w₁) (World.ledger w')) :
    Balance inp out gone (World.ledger w) (World.ledger w') := by
  rw [←ledger_extends he]
  exact h

variable [Inhabited V]

/-- Pushing a bundle, whether it is accepted or not. -/
theorem push_settles {i : ℕ} (h : RegistryInv D w) (hv : w.archetypes.valueAt i=some src)
    (ht : HasTypes src.layout val.ty) (tick : ChangedTick) :
    wp (onArchetype i (fun layout => push layout e val tick))
      (fun _ w' => Balance (val.drops : Values V) 0 0 (World.ledger w) (World.ledger w'))
      (fun _ _ => True) w := by
  refine onArchetype_settles h hv ?_
  cases hval : validateArchetypeWritable val.ty src.layout with
  | error err =>
    unfold wp
    rw [push_refused hval]
    trivial
  | ok _ =>
    exact push_balance (h.wellFormed hv) (Accepts.mk ht.1 (validateArchetypeWritable_ok.mp hval)) ht.2 e

/-- A handle that is attached brings the values of its bundle into the rows. -/
theorem createComponentsFor_balance (h : StoreInv D (e::reserved) w)
    (hD : D → val.ty.isDeclared=true) :
    wp (createComponentsFor e val)
      (fun _ w' => Balance (val.drops : Values V) 0 0 (World.ledger w) (World.ledger w'))
      (fun _ w' => Balance (val.drops : Values V) 0 (val.drops : Values V) (World.ledger w)
        (World.ledger w')) w := by
  have hok : wp (createComponentsFor e val)
      (fun _ w' => Balance (val.drops : Values V) 0 0 (World.ledger w) (World.ledger w'))
      (fun _ _ => True) w := by
    unfold createComponentsFor consuming
    rw [wp_onFault]
    refine Registers.wp_bind (getOrCreateArchetypeAs_spec h.registry hD) ?_ (fun _ _ _ _ => trivial)
    rintro i w₁ hext hinv ⟨-,spec,hv,ht⟩
    refine Registers.wp_bind (getArchetype_spec hinv i) ?_ (fun _ _ _ _ => trivial)
    rintro spec' w₂ - - ⟨rfl,-⟩
    split
    · trivial
    · rw [wp_bind,wp_getState,wp_bind]
      refine wp_mono (push_settles hinv hv ht w₂.tick) ?_ (fun _ _ _ => trivial)
      intro ix w₃ hb
      exact balance_after (stock_onAllocator _) (balance_extend hext hb)
  exact wp_mono (wp_and hok (createComponentsFor_spec h hD)) (fun _ _ hb => hb.1)
    (fun _ _ hb => refused_balance hb.2.2)

/-- `try_create`. -/
theorem tryCreate_balance (h : StoreInv D reserved w) (hD : D → val.ty.isDeclared=true) :
    wp (tryCreate val)
      (fun _ w' => Balance (val.drops : Values V) 0 0 (World.ledger w) (World.ledger w'))
      (fun _ w' => Balance (val.drops : Values V) 0 (val.drops : Values V) (World.ledger w)
        (World.ledger w')) w := by
  unfold tryCreate
  rw [wp_bind,consuming,wp_onFault]
  refine wp_mono (onAllocator_newEntity h) ?_ ?_
  · rintro e w₁ ⟨a,-,rfl,h₁⟩
    rw [wp_bind]
    exact createComponentsFor_balance h₁ hD
  · rintro err w₁ rfl
    exact refused_balance (refused_of (Extends.refl w₁) h.registry val.drops).2

/-- `try_create_singleton`. -/
theorem tryCreateSingleton_balance (h : StoreInv D reserved w) (hD : D → val.ty.isDeclared=true) :
    wp (tryCreateSingleton val)
      (fun _ w' => Balance (val.drops : Values V) 0 0 (World.ledger w) (World.ledger w'))
      (fun _ w' => Balance (val.drops : Values V) 0 (val.drops : Values V) (World.ledger w)
        (World.ledger w')) w := by
  have hok : wp (tryCreateSingleton val)
      (fun _ w' => Balance (val.drops : Values V) 0 0 (World.ledger w) (World.ledger w'))
      (fun _ _ => True) w := by
    unfold tryCreateSingleton consuming
    rw [wp_onFault]
    refine Registers.wp_bind (getOrCreateSingletonArchetypeId_spec h.registry hD) ?_
      (fun _ _ _ _ => trivial)
    rintro i w₁ hext hinv ⟨spec,hv,ht⟩
    refine Registers.wp_bind (getArchetype_spec hinv i) ?_ (fun _ _ _ _ => trivial)
    rintro spec' w₂ - - ⟨rfl,-⟩
    split
    · trivial
    · rw [wp_bind]
      refine wp_mono (onAllocator_newEntity (h.extend hext hinv)) ?_ (fun _ _ _ => trivial)
      rintro e w₃ ⟨a,-,rfl,h₃⟩
      rw [wp_bind,wp_getState,wp_bind,onErr,wp_handle]
      refine wp_mono (push_settles h₃.registry hv ht _) ?_ ?_
      · intro ix w₄ hb
        rw [wp_bind]
        exact balance_after (stock_onAllocator _) (balance_extend hext hb)
      · intro f w₄ _
        cases f with
        | err err =>
          change wp (onAllocator (eraseEntity e) >>= fun _ => _) _ _ w₄
          rw [wp_bind]
          exact wp_mono wp_unsettled (fun _ _ _ => trivial) (fun _ _ _ => trivial)
        | panic p => trivial
        | undefinedBehaviour => trivial
  refine wp_mono (wp_and hok (tryCreateSingleton_spec h hD)) (fun _ _ hb => hb.1) ?_
  intro f w' hb
  cases hb.2.2 with
  | inl hr => exact refused_balance hr
  | inr hr =>
    obtain ⟨e,a,slot,-,-,-,hr⟩ := hr
    have hb := refused_balance hr
    exact hb

omit [Inhabited V] in
/-- Destroying an entity drops its values. -/
theorem tryDestroy_balance (h : StoreInv D reserved w) (e : Entity) :
    wp (tryDestroy e)
      (fun _ w' => Balance 0 0 (World.valuesOf w e : Values V) (World.ledger w) (World.ledger w'))
      (fun _ w' => Balance 0 0 0 (World.ledger w) (World.ledger w')) w := by
  cases hl : w.entityAllocator.locate e with
  | none =>
    unfold wp
    rw [tryDestroy_missing hl]
    exact Balance.refl _
  | some l =>
    obtain ⟨slot,src,c,hf⟩ := StoreInv.found h hl
    obtain ⟨w',hrun,-⟩ := tryDestroy_found h hl
    have hok : wp (tryDestroy e)
        (fun _ w' => Balance 0 0 (World.valuesOf w e : Values V) (World.ledger w) (World.ledger w'))
        (fun _ _ => True) w := by
      unfold tryDestroy wp
      rw [withExisting_found hl hf.stored]
      change wp _ _ _ w
      rw [wp_bind,Found.valuesOf hf]
      refine wp_mono (onArchetype_settles h.registry hf.archetype
        (removeAt_balance (h.registry.wellFormed hf.archetype) hf.chunk hf.lt)) ?_ (fun _ _ _ => trivial)
      intro row w₁ hb
      rw [wp_bind]
      refine wp_mono (balance_after (stock_followSwapped row) hb) ?_ (fun _ _ _ => trivial)
      intro _ w₂ hb
      exact balance_after (stock_onAllocator _) hb
    have hbal := wp_of_ok hok hrun
    unfold wp
    rw [hrun]
    exact hbal

end Calls

section Moves

variable {isRemove : Bool} {dstArchId : ℕ}
  {x : MigrationPlan → ChunkLayout → ChunkLayout → Faulting (ArchetypePair V) Fault (ResultTake×α)}

/-- Moving a row along an edge balances the world as it balances both archetypes. -/
theorem moveRow_balance (given : α → Values V) (h : RegistryInv D w)
    (hr : EdgeReady isRemove ⟨slot.archId,T⟩ dstArchId src dst w) (hne : slot.archId≠dstArchId)
    (hx : wp (x (MigrationPlan.new src.layout dst.layout) src.layout dst.layout)
      (fun r p => Balance inp (given r.2) gone
        (ArchetypePair.ledger dst.layout src.layout ⟨dst.arch,src.arch⟩)
        (ArchetypePair.ledger dst.layout src.layout p)) (fun _ _ => True) ⟨dst.arch,src.arch⟩) :
    wp (moveRow isRemove e slot ⟨slot.archId,T⟩ dstArchId x)
      (fun v w' => Balance inp (given v) gone (World.ledger w) (World.ledger w')) (fun _ _ => True) w := by
  have hs : w.archetypes.valueAt slot.archId=some src := hr.source
  unfold wp
  rw [moveRow_eq h hr]
  change wp _ _ _ w
  rw [wp_bind]
  cases hres : x (MigrationPlan.new src.layout dst.layout) src.layout dst.layout
      ⟨dst.arch,src.arch⟩ with
  | mk r p =>
    have hpair := onArchetypePair_eq hs hr.target hne hres
    unfold wp at hx ⊢
    rw [hres] at hx
    rw [hpair]
    cases r with
    | error f => trivial
    | ok result =>
      have hdst : (World.setArch w slot.archId p.src).archetypes.valueAt dstArchId=some dst := by
        rw [valueAt_setArch,if_neg hne]
        exact hr.target
      have hsum : World.ledger (World.setArch (World.setArch w slot.archId p.src) dstArchId p.dst)+
          ArchetypePair.ledger dst.layout src.layout ⟨dst.arch,src.arch⟩=
          World.ledger w+ArchetypePair.ledger dst.layout src.layout p := by
        change _+(Archetype.ledger dst.layout dst.arch+Archetype.ledger src.layout src.arch)=
          _+(Archetype.ledger dst.layout p.dst+Archetype.ledger src.layout p.src)
        rw [←add_assoc,ledger_setArch hdst,add_right_comm,ledger_setArch hs]
        abel
      have hb := Balance.of_part hx hsum
      change wp (followSwapped result.1.swappedE >>= _) _ _ _
      rw [wp_bind]
      refine wp_mono (balance_after (stock_followSwapped _) hb) ?_ (fun _ _ _ => trivial)
      intro _ w₁ hb
      rw [wp_bind]
      exact balance_after (stock_onAllocator _) hb

variable [Inhabited V]

/-- Moving a row and laying a bundle over it. -/
theorem moveAndWrite_balance (h : StoreInv D reserved w) (hf : Found w e slot src c)
    (hr : EdgeReady false ⟨slot.archId,val.ty⟩ dstArchId src dst w) (tick : ChangedTick) :
    wp (moveAndWrite e slot ⟨slot.archId,val.ty⟩ dstArchId val tick)
      (fun _ w' => Balance (val.drops : Values V) 0
        (overwritten val.items (World.componentsOf w e) : Values V) (World.ledger w) (World.ledger w'))
      (fun _ _ => True) w := by
  by_cases hne : slot.archId=dstArchId
  · subst hne
    have hrun : moveAndWrite e slot ⟨slot.archId,val.ty⟩ slot.archId val tick w=
        (.error (.panic .unwrapFailed),w) := moveRow_same h.registry hr
    unfold wp
    rw [hrun]
    trivial
  · rw [Found.componentsOf hf h]
    refine moveRow_balance (fun _ => 0) h.registry hr hne ?_
    cases hval : validateArchetypeWritable val.ty dst.layout with
    | error err =>
      unfold wp
      rw [bind_error (takeAndWriteFrom_refused hval)]
      trivial
    | ok _ =>
      rw [wp_bind]
      refine wp_mono (takeAndWriteFrom_balance (h.registry.wellFormed hf.archetype)
        (h.registry.wellFormed hr.target) hf.chunk hf.lt
        (Accepts.mk hr.nodup (validateArchetypeWritable_ok.mp hval)) hr.types) (fun _ _ hb => hb)
        (fun _ _ _ => trivial)

omit [Inhabited V] in
/-- Registering archetypes changes no entity. -/
theorem Found.componentsOf_extend {w₁ : World V} (he : Extends w w₁) :
    World.componentsOf w₁ e=World.componentsOf w e := by
  rw [World.componentsOf,World.contents,Extends.directory he]
  rfl

omit [Inhabited V] in
/-- A bundle overwrites nothing where its components are missing. -/
theorem overwritten_none {items : List (Component×V)} {x : RowData V}
    (h : ∀ p∈items,x p.1.storageType=none) : overwritten items x=[] := by
  unfold overwritten
  rw [List.filterMap_eq_nil_iff]
  intro p hp
  rw [h p hp,Option.map_none]

/-- Adding components overwrites nothing. -/
theorem tryAddComponent_balance (h : StoreInv D reserved w) (hD : D → val.ty.isDeclared=true) :
    wp (tryAddComponent e val)
      (fun _ w' => Balance (val.drops : Values V) 0 0 (World.ledger w) (World.ledger w'))
      (fun _ w' => Balance (val.drops : Values V) 0 (val.drops : Values V) (World.ledger w)
        (World.ledger w')) w := by
  have hok : wp (tryAddComponent e val)
      (fun _ w' => Balance (val.drops : Values V) 0 0 (World.ledger w) (World.ledger w'))
      (fun _ _ => True) w := by
    refine tryAddComponent_rule h.registry hD (fun _ => trivial) (fun _ _ _ _ _ _ _ _ _ => trivial) ?_
    intro l slot w₁ dstArchId src dst hl hs he hi hready hmay _
    obtain ⟨c,hf,hf₁⟩ := StoreInv.found_extend h hl hs he hready.source
    have hnone : overwritten val.items (World.componentsOf w₁ e)=[] := by
      refine overwritten_none fun p hp => ?_
      rw [Found.componentsOf hf₁ (h.extend he hi)]
      refine rowData_none (hmay.fits _ ?_)
      rw [←items_types]
      exact List.mem_map_of_mem (f:=fun p : Component×V => p.1.storageType) hp
    refine wp_mono (moveAndWrite_balance (h.extend he hi) hf₁ hready _) ?_ (fun _ _ _ => trivial)
    intro _ w' hb
    rw [hnone] at hb
    exact balance_extend he hb
  exact wp_mono (wp_and hok (tryAddComponent_spec h hD)) (fun _ _ hb => hb.1)
    (fun _ _ hb => refused_balance hb.2.2)

/-- Merging drops the values the bundle overwrites. -/
theorem tryMergeComponent_balance (h : StoreInv D reserved w) (hD : D → val.ty.isDeclared=true) :
    wp (tryMergeComponent e val)
      (fun _ w' => Balance (val.drops : Values V) 0
        (overwritten val.items (World.componentsOf w e) : Values V) (World.ledger w) (World.ledger w'))
      (fun _ w' => Balance (val.drops : Values V) 0 (val.drops : Values V) (World.ledger w)
        (World.ledger w')) w := by
  have hok : wp (tryMergeComponent e val)
      (fun _ w' => Balance (val.drops : Values V) 0
        (overwritten val.items (World.componentsOf w e) : Values V) (World.ledger w) (World.ledger w'))
      (fun _ _ => True) w := by
    refine tryMergeComponent_rule h.registry hD (fun _ => trivial) (fun _ _ _ _ _ _ _ _ _ => trivial) ?_ ?_
    · intro l slot w₁ src hl hs he hi hsrc hn _ hp
      obtain ⟨c,-,hf₁⟩ := StoreInv.found_extend h hl hs he hsrc
      have hw := hi.wellFormed hsrc
      refine wp_mono (onArchetype_settles hi hsrc ?_) (fun _ _ hb => balance_extend he hb)
        (fun _ _ _ => trivial)
      cases hval : validateArchetypeWritable val.ty src.layout with
      | error err =>
        unfold replaceRowAt wp
        rw [hval]
        trivial
      | ok _ =>
        rw [←Found.componentsOf_extend he,Found.componentsOf hf₁ (h.extend he hi)]
        exact replaceRowAt_balance hw (Accepts.mk hn (validateArchetypeWritable_ok.mp hval)) hp hf₁.chunk
          hf₁.lt
    · intro l slot w₁ dstArchId src dst hl hs he hi hready _ _ _
      obtain ⟨c,-,hf₁⟩ := StoreInv.found_extend h hl hs he hready.source
      refine wp_mono (moveAndWrite_balance (h.extend he hi) hf₁ hready _) ?_ (fun _ _ _ => trivial)
      intro _ w' hb
      rw [Found.componentsOf_extend he] at hb
      exact balance_extend he hb
  exact wp_mono (wp_and hok (tryMergeComponent_spec h hD)) (fun _ _ hb => hb.1)
    (fun _ _ hb => refused_balance hb.2.2)

/-- Removing components hands their values out. -/
theorem tryRemoveComponent_balance (h : StoreInv D reserved w) (hD : D → T.isDeclared=true) :
    wp (tryRemoveComponent T e)
      (fun b w' => Balance 0 (b.drops : Values V) 0 (World.ledger w) (World.ledger w'))
      (fun _ w' => Balance 0 0 0 (World.ledger w) (World.ledger w')) w := by
  have hok : wp (tryRemoveComponent T e)
      (fun b w' => Balance 0 (b.drops : Values V) 0 (World.ledger w) (World.ledger w'))
      (fun _ _ => True) w := by
    refine tryRemoveComponent_rule h.registry hD (fun _ => trivial) (fun _ _ _ _ _ _ _ _ _ => trivial) ?_
    intro l slot w₁ dstArchId src dst hl hs he hi hready hmay _
    obtain ⟨c,-,hf₁⟩ := StoreInv.found_extend h hl hs he hready.source
    by_cases hne : slot.archId=dstArchId
    · subst hne
      unfold wp
      rw [moveRow_same hi hready]
      trivial
    · refine wp_mono (moveRow_balance (fun b => (b.drops : Values V)) hi hready hne ?_)
        (fun _ _ hb => balance_extend he hb) (fun _ _ _ => trivial)
      exact takeAndRemoveFrom_balance (hi.wellFormed hready.source) (hi.wellFormed hready.target)
        hf₁.chunk hf₁.lt hready.nodup hmay.fits hready.types
  refine wp_mono (wp_and hok (tryRemoveComponent_spec h hD)) (fun _ _ hb => hb.1) ?_
  intro f w' hb
  exact refused_balance hb.2.2

end Moves

section Effects

/-- The values a call is handed. -/
def WorldCall.taken : WorldCall V → List (StorageType×V)
  | .create val | .createSingleton val | .addComponent _ val | .mergeComponent _ val => val.drops
  | _ => []

/-- The values a call that succeeds drops. -/
def WorldCall.drops (w : World V) : WorldCall V → List (StorageType×V)
  | .destroy e => World.valuesOf w e
  | .mergeComponent e val => overwritten val.items (World.componentsOf w e)
  | _ => []

/-- The values a call hands back. -/
def Outcome.given : Outcome V → List (StorageType×V)
  | .bundle b => b.drops
  | _ => []

variable [Inhabited V]

/-- A call that succeeds keeps what it was handed, but for what it hands back, and
drops what it destroys or overwrites; one that fails drops what it was handed. -/
theorem WorldCall.balance (c : WorldCall V) (form : CallForm) (h : StoreInv D reserved w)
    (hD : D → ∀ T∈c.ty,T.isDeclared=true) :
    wp (c.perform form)
      (fun out w' => Balance (WorldCall.taken c : Values V) (Outcome.given out : Values V)
        (WorldCall.drops w c : Values V) (World.ledger w) (World.ledger w'))
      (fun _ w' => Balance (WorldCall.taken c : Values V) 0 (WorldCall.taken c : Values V)
        (World.ledger w) (World.ledger w')) w := by
  refine WorldCall.wp_form ?_ form
  have hquiet : ∀ {α : Type} {x : Call V α} {Q : α → World V → Prop},Registers D x w Q →
      wp x (fun _ w' => Balance (0 : Values V) 0 0 (World.ledger w) (World.ledger w'))
        (fun _ w' => Balance (0 : Values V) 0 0 (World.ledger w) (World.ledger w')) w := by
    intro α x Q hx
    refine wp_mono hx ?_ ?_
    · intro _ w' hr
      rw [ledger_extends hr.1]
      exact Balance.refl _
    · intro _ w' hr
      rw [ledger_extends hr.1]
      exact Balance.refl _
  cases c with
  | registerArchetype T cfg =>
    exact wp_bind.mpr (hquiet (tryRegisterArchetype_registers h.registry (fun hd => hD hd T rfl) cfg))
  | registerSingleton T =>
    exact wp_bind.mpr (hquiet (tryRegisterSingleton_registers h.registry fun hd => hD hd T rfl))
  | create val => exact wp_bind.mpr (tryCreate_balance h fun hd => hD hd _ rfl)
  | createSingleton val => exact wp_bind.mpr (tryCreateSingleton_balance h fun hd => hD hd _ rfl)
  | destroy e => exact wp_bind.mpr (tryDestroy_balance h e)
  | addComponent e val => exact wp_bind.mpr (tryAddComponent_balance h fun hd => hD hd _ rfl)
  | mergeComponent e val => exact wp_bind.mpr (tryMergeComponent_balance h fun hd => hD hd _ rfl)
  | removeComponent T e => exact wp_bind.mpr (tryRemoveComponent_balance h fun hd => hD hd T rfl)

end Effects

section Queues

variable {thread i : ℕ}

/-- The values a queued command carries. -/
def CmdBuffer.carried : CmdBuffer V → List (StorageType×V)
  | .create _ _ val | .addComponent _ _ val | .mergeComponent _ _ val => val.drops
  | _ => []

/-- The values that wait in the queue of a thread. -/
def World.waitingOf (w : World V) (thread : ℕ) : Values V :=
  ((World.queueOf w thread).flatMap CmdBuffer.carried : Values V)

/-- The values that wait in the queues of all threads. -/
def World.waiting (w : World V) : Values V := ((World.threads w).map (World.waitingOf w)).sum

/-- What waits depends on the queues. -/
theorem waiting_congr (h : World.queues w'=World.queues w) : World.waiting w'=World.waiting w := by
  obtain ⟨ht,hq⟩ := Prod.mk.inj h
  have hof : World.waitingOf w'=World.waitingOf w := by
    funext thread
    rw [World.waitingOf,hq,World.waitingOf]
  rw [World.waiting,ht,hof,World.waiting]

/-- No thread registers twice. -/
theorem threads_nodup (w : World V) : (World.threads w).Nodup := w.workerSpecs.keys_nodup

/-- Rewriting the queue of one thread. -/
theorem waitingOf_update {q : List (CmdBuffer V)}
    (h : World.queueOf w'=Function.update (World.queueOf w) thread q) :
    World.waitingOf w'=Function.update (World.waitingOf w) thread (q.flatMap CmdBuffer.carried : Values V) := by
  funext t
  rw [World.waitingOf,h,Function.update_apply,Function.update_apply]
  by_cases ht : t=thread
  · rw [if_pos ht,if_pos ht]
  · rw [if_neg ht,if_neg ht]
    rfl

/-- A thread that is not registered has nothing queued. -/
theorem waitingOf_new (h : thread∉World.threads w) : World.waitingOf w thread=0 := by
  have hi : w.workerSpecs.indexOf thread=none := by
    rw [←Option.not_isSome_iff_eq_none,SequenceValueHashMap.indexOf_isSome]
    exact h
  rw [World.waitingOf,World.queueOf,SequenceValueHashMap.get,hi]
  rfl

/-- A new worker has nothing waiting. -/
theorem waiting_warmed (h : Warmed thread w w') : World.waiting w'=World.waiting w := by
  have hof : World.waitingOf w'=World.waitingOf w := by
    funext t
    rw [World.waitingOf,h.queues,World.waitingOf]
  rw [World.waiting,h.threads,hof,registerThread]
  split
  · rfl
  · rename_i hn
    rw [List.map_append,List.sum_append,List.map_singleton,List.sum_singleton,waitingOf_new hn,add_zero]
    rfl

/-- A queued command waits with its values. -/
theorem waiting_enqueued {cmd : CmdBuffer V} (h : Enqueued thread cmd w w') :
    World.waiting w'=World.waiting w+(CmdBuffer.carried cmd : Values V) := by
  have hof := waitingOf_update h.queues
  have hnew : ((World.queueOf w thread++[cmd]).flatMap CmdBuffer.carried : Values V)=
      World.waitingOf w thread+(CmdBuffer.carried cmd : Values V) := by
    rw [List.flatMap_append,List.flatMap_singleton,←Multiset.coe_add]
    rfl
  rw [World.waiting,h.threads,hof,hnew,registerThread]
  split
  · rename_i hm
    refine add_right_cancel (b:=World.waitingOf w thread) ?_
    rw [sum_update _ (threads_nodup w) hm,add_right_comm,add_assoc]
    rfl
  · rename_i hn
    have hsame : (World.threads w).map (Function.update (World.waitingOf w) thread
        (World.waitingOf w thread+(CmdBuffer.carried cmd : Values V)))=
        (World.threads w).map (World.waitingOf w) := by
      refine List.map_congr_left fun t ht => Function.update_of_ne ?_ _ _
      intro he
      rw [he] at ht
      exact hn ht
    rw [List.map_append,List.sum_append,hsame,List.map_singleton,List.sum_singleton,
      Function.update_self,waitingOf_new hn,zero_add]
    rfl

/-- A command that is taken off its queue takes its values along. -/
theorem waiting_popped {cmd : CmdBuffer V} (hf : World.front w i=some cmd) :
    World.waiting (World.popped w i)+(CmdBuffer.carried cmd : Values V)=World.waiting w := by
  obtain ⟨thread,rest,hthread,hq,hthreads,hqueues⟩ := popped_queues hf
  have hof := waitingOf_update hqueues
  have hm := List.mem_of_getElem? hthread
  have hold : World.waitingOf w thread=
      (CmdBuffer.carried cmd : Values V)+(rest.flatMap CmdBuffer.carried : Values V) := by
    rw [World.waitingOf,hq,List.flatMap_cons,←Multiset.coe_add]
  have hsum := sum_update (World.waitingOf w) (threads_nodup w) hm
    (rest.flatMap CmdBuffer.carried : Values V)
  refine add_right_cancel (b:=(rest.flatMap CmdBuffer.carried : Values V)) ?_
  rw [World.waiting,hthreads,hof,add_assoc,←hold,hsum]
  rfl

end Queues

section Deferred

variable {thread i : ℕ}

/-- Work on a worker touches no stored value. -/
theorem stock_onWorker (x : Faulting (WorkerSpec V) Fault α) :
    Fixes World.stock (onWorker thread x : Call V α) := by
  refine Fixes.focus ?_ x
  intro s w
  rfl

/-- Reserving slots touches no value. -/
theorem stock_tryPreAllocateEntities (amount : ℕ) :
    Fixes World.stock (tryPreAllocateEntities thread amount : Call V Unit) := by
  refine Fixes.focus ?_ _
  intro p w
  rfl

/-- Warming a worker up touches no value. -/
theorem stock_warmUp : Fixes World.stock (warmUp thread : Call V Unit) := by
  refine Fixes.getState fun w => ?_
  unfold onlyIf
  split
  · exact Fixes.modifyState fun _ => rfl
  · exact Fixes.pure _

/-- Taking a handle touches no value. -/
theorem stock_takePreAllocated : Fixes World.stock (takePreAllocated thread : Call V Entity) := by
  refine Fixes.bind (stock_onWorker _) fun first => ?_
  cases first with
  | some e => exact Fixes.pure _
  | none =>
    refine Fixes.bind (stock_tryPreAllocateEntities _) fun _ => Fixes.bind (stock_onWorker _) fun second => ?_
    cases second with
    | some e => exact Fixes.pure _
    | none => exact Fixes.fault _

/-- A deferred command that fails drops what it was handed; one that is queued
moves no value of the rows. -/
theorem consuming_queue {x : Call V α} (val : Bundle V) (hx : Fixes World.stock x) :
    wp (consuming val x) (fun _ w' => World.ledger w'=World.ledger w)
      (fun _ w' => Balance (val.drops : Values V) 0 (val.drops : Values V) (World.ledger w)
        (World.ledger w')) w := by
  have hl := Fixes.ledger hx w
  unfold consuming
  rw [wp_onFault]
  apply wp_intro
  · intro r t hr
    rw [hr] at hl
    exact hl
  · intro f t hr
    rw [hr] at hl
    dsimp only at hl
    rw [ledger_dropped,hl]
    exact balance_spend _ _

variable [Inhabited V]

/-- Issuing a command inside a parallel step leaves the rows alone. -/
theorem CmdCall.deferred (c : CmdCall V) (thread : ℕ) (form : CallForm) (hp : w.inParallelCompute=true) :
    wp (c.perform thread form) (fun out w' => World.ledger w'=World.ledger w ∧ Outcome.given out=[])
      (fun _ w' => Balance (WorldCall.taken c.direct : Values V) 0 (WorldCall.taken c.direct : Values V)
        (World.ledger w) (World.ledger w')) w := by
  refine CmdCall.wp_form ?_ form
  have hcond : ¬((!w.inParallelCompute)=true) := by rw [hp]; exact Bool.false_ne_true
  have hquiet : ∀ cmd : CmdBuffer V,Fixes World.stock (do warmUp thread; pushCmd thread cmd : Call V Unit) :=
    fun cmd => Fixes.bind stock_warmUp fun _ => stock_onWorker _
  have hplain : ∀ cmd : CmdBuffer V,wp (do warmUp thread; pushCmd thread cmd : Call V Unit)
      (fun _ w' => World.ledger w'=World.ledger w)
      (fun _ w' => Balance (0 : Values V) 0 0 (World.ledger w) (World.ledger w')) w := by
    intro cmd
    have hpush : ∃ w₁ w',warmUp thread w=(.ok (),w₁) ∧ pushCmd thread cmd w₁=(.ok (),w') ∧
        Enqueued thread cmd w w' := warmUp_pushCmd cmd w
    obtain ⟨w₁,w',hrun₁,hrun,-⟩ := hpush
    have hl := Fixes.ledger (hquiet cmd) w
    unfold wp
    rw [bind_ok hrun₁,hrun] at hl ⊢
    exact hl
  cases c with
  | create val =>
    refine wp_bind.mpr ?_
    unfold Cmd.tryCreate wp
    rw [getState_bind,if_neg hcond]
    refine wp_mono (consuming_queue val ?_) (fun _ _ hl => ⟨hl,rfl⟩) (fun _ _ hb => hb)
    refine Fixes.bind stock_warmUp fun _ => Fixes.bind stock_takePreAllocated fun e => ?_
    exact Fixes.bind (stock_onWorker _) fun _ => Fixes.pure _
  | addComponent e val =>
    refine wp_bind.mpr ?_
    unfold Cmd.tryAddComponent wp
    rw [getState_bind,if_neg hcond]
    exact wp_mono (consuming_queue val (hquiet _)) (fun _ _ hl => ⟨hl,rfl⟩) (fun _ _ hb => hb)
  | mergeComponent e val =>
    refine wp_bind.mpr ?_
    unfold Cmd.tryMergeComponent wp
    rw [getState_bind,if_neg hcond]
    exact wp_mono (consuming_queue val (hquiet _)) (fun _ _ hl => ⟨hl,rfl⟩) (fun _ _ hb => hb)
  | removeComponent T e =>
    refine wp_bind.mpr ?_
    unfold Cmd.tryRemoveComponent wp
    rw [getState_bind,if_neg hcond]
    change wp (warmUp thread >>= _) _ _ w
    have hp := hplain (.removeComponent thread T e)
    rw [wp_bind] at hp ⊢
    refine wp_mono hp (fun _ w₁ hq => ?_) (fun _ _ hb => hb)
    rw [wp_bind]
    exact wp_mono hq (fun _ _ hl => ⟨hl,rfl⟩) (fun _ _ hb => hb)
  | destroy e =>
    refine wp_bind.mpr ?_
    unfold Cmd.tryDestroy wp
    rw [getState_bind,if_neg hcond]
    exact wp_mono (hplain (.destroy thread e)) (fun _ _ hl => ⟨hl,rfl⟩) (fun _ _ hb => hb)

end Deferred

section Applied

variable {thread i : ℕ} [Inhabited V]

omit [Inhabited V] in
/-- Giving a slot back touches no value. -/
theorem stock_eraseAndRaise (err : XynokEcsError) : Fixes World.stock (eraseAndRaise thread e err : Call V Unit) :=
  Fixes.bind (stock_onAllocator _) fun _ => Fixes.fault _

/-- A queued create puts its values into a row or drops them. -/
theorem runCreate_balance (h : StoreInv D (e::reserved) w) (hD : D → val.ty.isDeclared=true) :
    wp (CmdBuffer.run (.create thread e val))
      (fun _ w' => ∃ gone,Balance (val.drops : Values V) 0 gone (World.ledger w) (World.ledger w'))
      (fun _ w' => ∃ gone,Balance (val.drops : Values V) 0 gone (World.ledger w) (World.ledger w')) w := by
  change wp (onErr (createComponentsFor e val) (eraseAndRaise thread e)) _ _ w
  rw [onErr,wp_handle]
  refine wp_mono (createComponentsFor_balance h hD) (fun _ _ hb => ⟨_,hb⟩) ?_
  intro f w₁ hb
  cases f with
  | err err =>
    exact wp_mono (balance_kept (stock_eraseAndRaise err) hb) (fun _ _ hb => ⟨_,hb⟩) (fun _ _ hb => ⟨_,hb⟩)
  | panic p => exact ⟨_,hb⟩
  | undefinedBehaviour => exact ⟨_,hb⟩

/-- Any other queued command keeps, drops or overwrites the values it carries. -/
theorem runOther_balance {cmd : CmdBuffer V} (h : StoreInv D reserved w) (hn : CmdBuffer.pending cmd=none)
    (hD : D → ∀ T∈CmdBuffer.ty cmd,T.isDeclared=true) :
    wp (CmdBuffer.run cmd)
      (fun _ w' => ∃ gone,Balance (CmdBuffer.carried cmd : Values V) 0 gone (World.ledger w) (World.ledger w'))
      (fun _ w' => ∃ gone,Balance (CmdBuffer.carried cmd : Values V) 0 gone (World.ledger w)
        (World.ledger w')) w := by
  cases cmd with
  | create thread e val => cases hn
  | addComponent thread e val =>
    change wp (raiseAs _ (WorldCalls.tryAddComponent e val)) _ _ _
    rw [raiseAs,wp_mapFault]
    exact wp_mono (tryAddComponent_balance h fun hd => hD hd _ rfl) (fun _ _ hb => ⟨_,hb⟩)
      (fun _ _ hb => ⟨_,hb⟩)
  | mergeComponent thread e val =>
    change wp (raiseAs _ (WorldCalls.tryMergeComponent e val)) _ _ _
    rw [raiseAs,wp_mapFault]
    exact wp_mono (tryMergeComponent_balance h fun hd => hD hd _ rfl) (fun _ _ hb => ⟨_,hb⟩)
      (fun _ _ hb => ⟨_,hb⟩)
  | removeComponent thread T e =>
    change wp (raiseAs _ _) _ _ _
    rw [raiseAs,wp_mapFault,wp_bind]
    refine wp_mono (tryRemoveComponent_balance h fun hd => hD hd _ rfl) ?_ (fun _ _ hb => ⟨_,hb⟩)
    intro b w₁ hb
    have hs := Balance.spend_out hb
    rw [←ledger_dropped] at hs
    exact ⟨_,hs⟩
  | destroy thread e =>
    change wp (onErr (WorldCalls.tryDestroy e) (eraseAndRaise thread e)) _ _ w
    rw [onErr,wp_handle]
    refine wp_mono (tryDestroy_balance h e) (fun _ _ hb => ⟨_,hb⟩) ?_
    intro f w₁ hb
    cases f with
    | err err =>
      exact wp_mono (balance_kept (stock_eraseAndRaise err) hb) (fun _ _ hb => ⟨_,hb⟩)
        (fun _ _ hb => ⟨_,hb⟩)
    | panic p => exact ⟨_,hb⟩
    | undefinedBehaviour => exact ⟨_,hb⟩

end Applied

section Writes

/-- The value of one component of a row in use. -/
def World.valueAt (w : World V) (l : RowLoc) (t : StorageType) : Option V :=
  (World.row w l).bind fun x => (x.2 t).map ComponentData.value

/-- The value a write brings in and the one it puts out, where it is carried out. -/
def World.exchanged (w : World V) (l : RowLoc) (t : StorageType) (write : ItemWrite V) :
    List (StorageType×V)×List (StorageType×V) :=
  match (writeItem l t write w).1,write.stores,World.valueAt w l t with
  | .ok _,some v,some old => ([(t,v)],[(t,old)])
  | _,_,_ => ([],[])

/-- Rewriting one cell of a row exchanges the value there. -/
theorem modifyCell_balance {layout : ChunkLayout} {row : ℕ} {t : StorageType} {f : Cell V → Cell V}
    (hw : WellFormed layout) (hr : row<c.len) (ht : t∈layout.componentColDescriptors) :
    Balance (cellValue (c.modifyCell t row f) row t) (cellValue c row t) 0 (Chunk.ledger layout c)
      (Chunk.ledger layout (c.modifyCell t row f)) := by
  have hothers : ∀ t' r,r≠row → (c.modifyCell t row f).cells t' r=c.cells t' r := by
    intro t' r hne
    simp only [Chunk.modifyCell,hne,and_false,if_false]
  have hcells : ∀ t'∈(ChunkLayout.types layout).erase t,
      cellValue (c.modifyCell t row f) row t'=cellValue c row t' := by
    intro t' hm
    have hne := Finset.ne_of_mem_erase hm
    simp only [cellValue,Chunk.modifyCell,hne,false_and,if_false]
  have hmem : t∈ChunkLayout.types layout := mem_types.mpr ht
  have hrow : (Chunk.rowValues layout (c.modifyCell t row f) row : Values V)+cellValue c row t=
      (Chunk.rowValues layout c row : Values V)+cellValue (c.modifyCell t row f) row t := by
    rw [rowValues_sum hw,rowValues_sum hw,←Finset.sum_erase_add _ _ hmem,
      ←Finset.sum_erase_add _ (fun t => cellValue c row t) hmem,Finset.sum_congr rfl hcells]
    exact add_right_comm _ _ _
  have hheld : Chunk.held layout (c.modifyCell t row f)+(Chunk.rowValues layout c row : Values V)=
      Chunk.held layout c+(Chunk.rowValues layout (c.modifyCell t row f) row : Values V) :=
    held_rewritten hr rfl hothers
  refine balance_iff.mpr ⟨?_,(add_zero _).symm⟩
  refine add_right_cancel (b:=(Chunk.rowValues layout c row : Values V)) ?_
  change Chunk.held layout (c.modifyCell t row f)+(cellValue c row t+0)+_=
    Chunk.held layout c+cellValue (c.modifyCell t row f) row t+_
  rw [add_zero,add_right_comm,hheld,add_assoc,hrow,add_right_comm,add_assoc]

/-- The value at a place is that of the cell. -/
theorem valueAt_of_row {l : RowLoc} {t : StorageType} (hv : w.archetypes.valueAt l.archId=some src)
    (hc : src.arch.chunks[l.indices.chunkIdx]?=some c) (hlt : l.indices.idxInChunk<c.len)
    (ht : t∈src.layout.componentColDescriptors) :
    World.valueAt w l t=some (c.cells t l.indices.idxInChunk).value := by
  rw [World.valueAt,World.row,hv,Option.bind_some,Archetype.row,hc,Option.bind_some,Chunk.row,if_pos hlt]
  exact rowData_value ht

/-- A write through an item exchanges the value of its cell, if it has one to
write and there is a cell. -/
theorem writeItem_balance (h : RegistryInv D w) (l : RowLoc) (t : StorageType) (write : ItemWrite V) :
    wp (writeItem l t write)
      (fun _ w' => Balance ((World.exchanged w l t write).1 : Values V)
        ((World.exchanged w l t write).2 : Values V) 0 (World.ledger w) (World.ledger w'))
      (fun _ w' => Balance ((World.exchanged w l t write).1 : Values V)
        ((World.exchanged w l t write).2 : Values V) 0 (World.ledger w) (World.ledger w')) w := by
  have hrun : writeItem l t write w=writeThrough l t w.tick write w := rfl
  unfold wp World.exchanged
  rw [hrun]
  by_cases hr : ∃ src c,Reached w l t write src c
  · obtain ⟨src,c,hr⟩ := hr
    have ht := mem_of_reaches hr.reaches
    have hval := valueAt_of_row hr.archetype hr.chunk hr.row ht
    have hb := setArch_balance hr.archetype (chunk_balance hr.chunk (modifyCell_balance
      (f:=write.apply w.tick) (h.wellFormed hr.archetype) hr.row ht) (b:={ src.arch with
        chunks := src.arch.chunks.set l.indices.chunkIdx
          (c.modifyCell t l.indices.idxInChunk (write.apply w.tick)) }) rfl)
    have hnew : cellValue (c.modifyCell t l.indices.idxInChunk (write.apply w.tick))
        l.indices.idxInChunk t={(t,(write.apply w.tick (c.cells t l.indices.idxInChunk)).value)} := by
      simp only [cellValue,Chunk.modifyCell,and_self,if_true]
    rw [hnew] at hb
    rw [writeThrough_reached h hr,hval]
    cases write with
    | assign v => exact hb
    | bypass v => exact hb
    | markChanged => exact hb.cancel
    | setEnabled value => exact hb.cancel
  · obtain ⟨e,he⟩ := writeThrough_missing h (fun src c hc => hr ⟨src,c,hc⟩) w.tick
    rw [he]
    exact Balance.refl _

end Writes

section Queries

/-- Registering components touches no value. -/
theorem stock_onComponents (x : Faulting ComponentSpecs XynokEcsError α) :
    Fixes World.stock (onComponents x : Call V α) := by
  intro w
  unfold onComponents
  split <;> rfl

/-- Preparing a query touches no value. -/
theorem stock_prepareQuery (q : QueryShape Component) :
    Fixes World.stock (prepareQuerySrcAccess q : Call V ℕ) := by
  refine Fixes.getState fun w => Fixes.bind ?_ fun idx => Fixes.getState fun w => ?_
  · refine Fixes.getState fun w => ?_
    split
    · exact Fixes.pure _
    · refine Fixes.bind (stock_onComponents _) fun scope => Fixes.getState fun w => ?_
      exact Fixes.bind (Fixes.modifyState fun _ => rfl) fun _ => Fixes.pure _
  · split
    · exact Fixes.fault _
    · refine Fixes.bind ?_ fun _ => Fixes.pure _
      unfold onlyIf
      split
      · exact Fixes.modifyState fun _ => rfl
      · exact Fixes.pure ()

/-- Taking a tick touches no value. -/
theorem stock_advanceTick : Fixes World.stock (advanceTick : Call V ChangedTick) :=
  Fixes.bind (Fixes.modifyState fun _ => rfl) fun _ => Fixes.getState fun _ => Fixes.pure _

/-- Creating a query touches no value. -/
theorem stock_createQuerySince (q : QueryShape Component) (lastRunTick : ChangedTick) :
    Fixes World.stock (createQuerySince q lastRunTick : Call V QuerySpecAccessor) := by
  refine Fixes.bind stock_advanceTick fun _ => Fixes.mapFault ?_ _
  refine Fixes.bind (stock_prepareQuery q) fun _ => Fixes.getState fun w => ?_
  split
  · exact Fixes.pure _
  · exact Fixes.fault _

end Queries

section Runs

variable {i : ℕ}

/-- What the rows hold together with what waits in the queues, and what was dropped. -/
def World.account (w : World V) : Ledger (Values V) := World.ledger w+(World.waiting w,0)

/-- A balance of the ledger is one of the account, while nothing is queued or applied. -/
theorem account_balance (h : Balance inp out gone (World.ledger w) (World.ledger w'))
    (hw : World.waiting w'=World.waiting w) :
    Balance inp out gone (World.account w) (World.account w') := by
  unfold World.account
  rw [hw,add_comm (World.ledger w),add_comm (World.ledger w')]
  exact h.beside _

/-- An account depends on the ledger and on what waits. -/
theorem account_congr (h : World.ledger w'=World.ledger w) (hw : World.waiting w'=World.waiting w) :
    World.account w'=World.account w := by
  rw [World.account,h,hw,World.account]

/-- The values a call that was carried out hands back. -/
def handedBack (r : Except Fault (Outcome V)) : List (StorageType×V) :=
  match r with
  | .ok out => Outcome.given out
  | .error _ => []

/-- A call that hands back nothing hands back no value. -/
theorem handedBack_done (x : Call V α) :
    handedBack ((x >>= fun _ => return .done : Call V (Outcome V)) w).1=[] := by
  cases hr : x w with
  | mk r w' =>
    cases r with
    | ok a => rw [bind_ok hr]; rfl
    | error f => rw [bind_error hr]; rfl

variable [Inhabited V]

/-- The values an action is handed. -/
def Action.taken (w : World V) : Action V → List (StorageType×V)
  | .world _ c => WorldCall.taken c
  | .cmd _ _ c => WorldCall.taken c.direct
  | .write l t write => (World.exchanged w l t write).1
  | _ => []

/-- The values an action hands back. -/
def Action.given (w : World V) : Action V → List (StorageType×V)
  | .write l t write => (World.exchanged w l t write).2
  | a => handedBack (a.perform w).1

/-- A command applied by a sync point drops, keeps or overwrites what it carries. -/
theorem applyCmd_balance (h : WorldInv False w) (i : ℕ) :
    ∃ gone,Balance (0 : Values V) 0 gone (World.account w) (World.account (applyCmd i w).2) := by
  cases hf : World.front w i with
  | none =>
    rw [applyCmd_noFront hf]
    exact ⟨0,Balance.refl _⟩
  | some cmd =>
    have hcore : CoreInv w := ⟨h.store.registry,h.queries⟩
    have hpopped : World.ledger (World.popped w i)=World.ledger w := by
      obtain ⟨-,-,-,hheld,-⟩ := popCmd_front hf
      obtain ⟨ws,a,hw⟩ := hheld.others
      rw [hw]
      rfl
    have hrun : ∃ gone,Balance (CmdBuffer.carried cmd : Values V) 0 gone (World.ledger w)
        (World.ledger (applyCmd i w).2) := by
      rw [applyCmd_front hf,←hpopped]
      refine wp_state (I:=fun w' => ∃ gone,Balance (CmdBuffer.carried cmd : Values V) 0 gone
        (World.ledger (World.popped w i)) (World.ledger w')) ?_
      rw [wp_bind]
      cases hn : CmdBuffer.pending cmd with
      | none => exact runOther_balance (WorldInv.popped h hf hn).store hn False.elim
      | some e =>
        cases cmd with
        | create thread e' val => exact runCreate_balance (StoreInv.popped_create h hf) False.elim
        | _ => cases hn
    obtain ⟨gone,hb⟩ := hrun
    have hwait : World.waiting (applyCmd i w).2+(CmdBuffer.carried cmd : Values V)=World.waiting w := by
      rw [waiting_congr (applyCmd_queues hcore hf)]
      exact waiting_popped hf
    refine ⟨gone,balance_iff.mpr ⟨?_,?_⟩⟩
    · have hh := hb.held
      change (World.ledger (applyCmd i w).2).1+World.waiting (applyCmd i w).2+(0+gone)=
        (World.ledger w).1+World.waiting w+0
      rw [add_zero,←hwait,add_right_comm,hh]
      abel
    · have hs := hb.spent
      change (World.ledger (applyCmd i w).2).2+0=(World.ledger w).2+0+gone
      rw [add_zero,add_zero,hs]

/-- A command issued inside a parallel step waits with its values, or drops them. -/
theorem deferred_balance (c : CmdCall V) (thread : ℕ) (form : CallForm) (hp : w.inParallelCompute=true) :
    ∃ gone,Balance (WorldCall.taken c.direct : Values V) (handedBack (c.perform thread form w).1 : Values V)
      gone (World.account w) (World.account (c.perform thread form w).2) := by
  have hboth := wp_and (CmdCall.deferred c thread form hp) (CmdCall.queued c thread form hp)
  cases hr : c.perform thread form w with
  | mk r w' =>
    cases r with
    | ok out =>
      obtain ⟨⟨hl,hg⟩,hq⟩ := wp_of_ok hboth hr
      have hcarried : CmdBuffer.carried (CmdCall.command thread (out.issued.getD .null) c)=
          WorldCall.taken c.direct := by
        cases c <;> rfl
      have hwait := waiting_enqueued hq
      rw [hcarried] at hwait
      refine ⟨0,balance_iff.mpr ⟨?_,?_⟩⟩
      · change (World.ledger w').1+World.waiting w'+((Outcome.given out : Values V)+0)=
          (World.ledger w).1+World.waiting w+(WorldCall.taken c.direct : Values V)
        rw [hl,hg,hwait,Multiset.coe_nil,add_zero,add_zero]
        exact (add_assoc _ _ _).symm
      · change (World.ledger w').2+0=(World.ledger w).2+0+0
        rw [hl,add_zero,add_zero]
    | error f =>
      obtain ⟨hb,hq⟩ := wp_of_error hboth hr
      exact ⟨_,account_balance hb (waiting_warmed hq)⟩

/-- Every action keeps the books: what it is handed is held, waits, is handed back
or is dropped afterwards. -/
theorem Action.balance (a : Action V) (h : RunInv False w) :
    ∃ gone,Balance (Action.taken w a : Values V) (Action.given w a : Values V) gone (World.account w)
      (World.account (a.step w)) := by
  have hcore : CoreInv w := ⟨h.inv.store.registry,h.inv.queries⟩
  have hkept : Action.queueing w a=false → World.waiting (a.step w)=World.waiting w := fun hq =>
    waiting_congr (Action.queues_kept hcore hq)
  have hdone : ∀ {β : Type} (x : Call V β),World.waiting ((x >>= fun _ => return .done : Call V (Outcome V)) w).2=
      World.waiting w → Fixes World.stock x → ∃ gone,Balance (0 : Values V)
        (handedBack ((x >>= fun _ => return .done : Call V (Outcome V)) w).1 : Values V) gone (World.account w)
        (World.account ((x >>= fun _ => return .done : Call V (Outcome V)) w).2) := by
    intro β x hw hx
    rw [handedBack_done,account_congr (Fixes.ledger (Fixes.bind hx fun _ => Fixes.pure _) w) hw]
    exact ⟨0,Balance.refl _⟩
  have hcall : ∀ {x : Call V (Outcome V)} {taken : List (StorageType×V)} {spent : Values V},
      wp x (fun out w' => Balance (taken : Values V) (Outcome.given out : Values V) spent (World.ledger w)
        (World.ledger w')) (fun _ w' => Balance (taken : Values V) 0 (taken : Values V) (World.ledger w)
        (World.ledger w')) w → World.waiting (x w).2=World.waiting w →
      ∃ gone,Balance (taken : Values V) (handedBack (x w).1 : Values V) gone (World.account w)
        (World.account (x w).2) := by
    intro x taken spent hb hw
    cases hr : x w with
    | mk r w' =>
      rw [hr] at hw
      cases r with
      | ok out =>
        have hout := wp_of_ok hb hr
        exact ⟨_,account_balance hout hw⟩
      | error f =>
        have herr := wp_of_error hb hr
        exact ⟨_,account_balance herr hw⟩
  cases a with
  | world form c => exact hcall (WorldCall.balance c form h.inv.store False.elim) (hkept rfl)
  | cmd form thread c =>
    cases hp : w.inParallelCompute with
    | true => exact deferred_balance c thread form hp
    | false =>
      have hb : wp (c.perform thread .returning)
          (fun out w' => Balance (WorldCall.taken c.direct : Values V) (Outcome.given out : Values V)
            (WorldCall.drops w c.direct : Values V) (World.ledger w) (World.ledger w'))
          (fun _ w' => Balance (WorldCall.taken c.direct : Values V) 0 (WorldCall.taken c.direct : Values V)
            (World.ledger w) (World.ledger w')) w := by
        have hd := WorldCall.balance c.direct .returning h.inv.store False.elim
        unfold wp at hd ⊢
        rw [CmdCall.perform_direct c hp]
        exact hd
      exact hcall (CmdCall.wp_form hb form) (hkept hp)
  | applyCmd i =>
    obtain ⟨gone,hb⟩ := applyCmd_balance h.inv i
    rw [←applyCmd_step] at hb
    have hg : Action.given w (.applyCmd i)=[] := handedBack_done (CommandBuffer.applyCmd i)
    rw [hg]
    exact ⟨gone,hb⟩
  | setInParallelCompute val => exact hdone _ (hkept rfl) (fun _ => rfl)
  | setExecutor present => exact hdone _ (hkept rfl) (fun _ => rfl)
  | advanceTick => exact hdone _ (hkept rfl) stock_advanceTick
  | captureCurrentTick =>
    refine hdone _ (hkept rfl) (Fixes.getState fun _ => Fixes.bind stock_advanceTick fun _ => ?_)
    exact Fixes.getState fun _ => Fixes.pure _
  | createQuery q =>
    refine hdone _ (hkept rfl) (Fixes.getState fun _ => ?_)
    exact Fixes.bind (Fixes.modifyState fun _ => rfl) fun _ => stock_createQuerySince q _
  | createQuerySince q lastRunTick => exact hdone _ (hkept rfl) (stock_createQuerySince q lastRunTick)
  | prepareQuery q => exact hdone _ (hkept rfl) (stock_prepareQuery q)
  | accessScope q => exact hdone _ (hkept rfl) (stock_onComponents _)
  | write l t itemWrite =>
    have hb := wp_state (x:=doneOf (writeItem l t itemWrite)) (I:=fun w' =>
      Balance ((World.exchanged w l t itemWrite).1 : Values V)
        ((World.exchanged w l t itemWrite).2 : Values V) 0 (World.ledger w) (World.ledger w'))
      (wp_bind.mpr (writeItem_balance h.inv.store.registry l t itemWrite))
    exact ⟨0,account_balance hb (hkept rfl)⟩

omit [Inhabited V] in
/-- A new world holds nothing. -/
theorem account_new (runtime : Runtime) : World.account (World.new runtime : World V)=0 := rfl

/-- A run from an empty world keeps the books. -/
theorem run_balance (runtime : Runtime) (as : List (Action V))
    (ha : Along Action.step (Proper False) as (World.new runtime)) :
    ∃ gone,Balance (alongSum Action.step (fun a w => (Action.taken w a : Values V)) as (World.new runtime))
      (alongSum Action.step (fun a w => (Action.given w a : Values V)) as (World.new runtime)) gone 0
      (World.account (runAll Action.step as (World.new runtime))) := by
  rw [←account_new runtime]
  exact balance_run ha (fun a w hp h => Action.runInv a h hp.1 hp.2)
    (fun a w _ h => Action.balance a h) (runInv_new False runtime)

end Runs

section Disposal

/-- The loop of `dispose` over the rows of one column. -/
def disposeColumn (c : Chunk V) (col : ColumnEntry) : Chunk V :=
  (List.range c.len).foldl (fun c row => c.dropCell col.storageTypeId row) c

/-- `dispose`: drop every value of every row in use, column by column. -/
def Chunk.dispose (layout : ChunkLayout) (c : Chunk V) : Chunk V :=
  { layout.columns.foldl disposeColumn c with len := 0 }

/-- `dispose` of an archetype. -/
def Archetype.dispose (layout : ChunkLayout) (a : Archetype V) : Archetype V :=
  { a with chunks := a.chunks.map (Chunk.dispose layout) }

/-- Dispose the rows of an archetype. -/
def ArchetypeSpec.dispose (spec : ArchetypeSpec V) : ArchetypeSpec V :=
  { spec with arch := Archetype.dispose spec.layout spec.arch }

/-- `drop`: every archetype is disposed. -/
def World.dispose (w : World V) : World V :=
  { w with archetypes := ⟨w.archetypes.entries.map (Prod.map id ArchetypeSpec.dispose),by
      rw [List.map_map]
      exact w.archetypes.keys_nodup⟩ }

/-- What is relied on of the closure box of another crate: dropping a command that was
never called drops what its closure captured. -/
def DropsCaptured (dropCmd : CmdBuffer V → List (StorageType×V)) : Prop :=
  ∀ cmd,(dropCmd cmd).Perm (CmdBuffer.carried cmd)

/-- The queues go with the other fields of the world, and so do the commands in them. -/
def World.dropQueues (dropCmd : CmdBuffer V → List (StorageType×V)) (w : World V) : World V :=
  { w with
    workerSpecs := .empty
    dropped := w.dropped++(World.threads w).flatMap fun thread =>
      (World.queueOf w thread).flatMap dropCmd }

/-- The end of a world. -/
def World.drop (dropCmd : CmdBuffer V → List (StorageType×V)) (w : World V) : World V :=
  World.dropQueues dropCmd (World.dispose w)

/-- Dropping the cells of some rows drops their values, in order. -/
theorem dropCells (c : Chunk V) (t : StorageType) (rows : List ℕ) :
    rows.foldl (fun c row => c.dropCell t row) c={ c with
      dropped := c.dropped++rows.map fun row => (t,(c.cells t row).value) } := by
  induction rows generalizing c with
  | nil =>
    rw [List.foldl_nil,List.map_nil,List.append_nil]
  | cons row rows ih =>
    rw [List.foldl_cons,ih,List.map_cons]
    simp only [Chunk.dropCell,List.append_assoc,List.singleton_append]

/-- The values of one column. -/
def columnValues (c : Chunk V) (col : ColumnEntry) : List (StorageType×V) :=
  (List.range c.len).map fun row => (col.storageTypeId,(c.cells col.storageTypeId row).value)

/-- Disposing of a column drops its values. -/
theorem disposeColumn_eq (c : Chunk V) (col : ColumnEntry) :
    disposeColumn c col={ c with dropped := c.dropped++columnValues c col } := dropCells c _ _

/-- Disposing of columns drops theirs, in order. -/
theorem disposeColumns (c : Chunk V) (cols : List ColumnEntry) :
    cols.foldl disposeColumn c={ c with dropped := c.dropped++cols.flatMap (columnValues c) } := by
  induction cols generalizing c with
  | nil =>
    rw [List.foldl_nil,List.flatMap_nil,List.append_nil]
  | cons col cols ih =>
    rw [List.foldl_cons,ih,disposeColumn_eq,List.flatMap_cons]
    simp only [List.append_assoc]
    rfl

/-- Row by row or column by column, the values are the same. -/
theorem held_columns (layout : ChunkLayout) (c : Chunk V) :
    Chunk.held layout c=(layout.columns.flatMap (columnValues c) : Values V) := by
  unfold Chunk.held Chunk.rowValues
  generalize layout.columns=cols
  induction cols with
  | nil =>
    simp only [List.map_nil,List.flatMap_nil,Multiset.coe_nil,Finset.sum_const_zero]
  | cons col cols ih =>
    have hcol : ∑ r∈Finset.range c.len,({(col.storageTypeId,(c.cells col.storageTypeId r).value)} : Values V)=
        (columnValues c col : Values V) := sum_range_singleton _ _
    simp only [List.map_cons,List.flatMap_cons,←Multiset.cons_coe,←Multiset.singleton_add,
      Finset.sum_add_distrib]
    rw [ih,hcol,Multiset.coe_add]

/-- A disposed chunk holds nothing and dropped what it held. -/
theorem ledger_disposeChunk (layout : ChunkLayout) (c : Chunk V) :
    Balance 0 0 (Chunk.held layout c) (Chunk.ledger layout c)
      (Chunk.ledger layout (Chunk.dispose layout c)) := by
  have hdropped : (Chunk.dispose layout c).dropped=
      c.dropped++layout.columns.flatMap (columnValues c) := by
    unfold Chunk.dispose
    rw [disposeColumns]
  refine balance_iff.mpr ⟨?_,?_⟩
  · change (0 : Values V)+(0+Chunk.held layout c)=Chunk.held layout c+0
    rw [zero_add,zero_add,add_zero]
  · change ((Chunk.dispose layout c).dropped : Values V)=(c.dropped : Values V)+Chunk.held layout c
    rw [hdropped,←Multiset.coe_add,held_columns]

/-- A disposed world holds nothing in its rows and dropped what they held. -/
theorem ledger_dispose (w : World V) : World.ledger (World.dispose w)=
    (0,(World.ledger w).2+(World.ledger w).1) := by
  have hchunks : ∀ (layout : ChunkLayout) (cs : List (Chunk V)),
      ((cs.map (Chunk.dispose layout)).map (Chunk.ledger layout)).sum=
        (0,((cs.map (Chunk.ledger layout)).sum).2+((cs.map (Chunk.ledger layout)).sum).1) := by
    intro layout cs
    induction cs with
    | nil => rfl
    | cons c cs ih =>
      have hs := (ledger_disposeChunk layout c).spent
      rw [List.map_cons,List.map_cons,List.sum_cons,ih,List.map_cons,List.sum_cons]
      refine Prod.ext (zero_add _) ?_
      simp only [Prod.snd_add,Prod.fst_add,hs]
      change (c.dropped : Values V)+Chunk.held layout c+_=(c.dropped : Values V)+_+(Chunk.held layout c+_)
      abel
  have hspecs : ∀ specs : List (ArchetypeSpec V),
      ((specs.map ArchetypeSpec.dispose).map ArchetypeSpec.ledger).sum=
        (0,((specs.map ArchetypeSpec.ledger).sum).2+((specs.map ArchetypeSpec.ledger).sum).1) := by
    intro specs
    induction specs with
    | nil => rfl
    | cons spec specs ih =>
      have hone : ArchetypeSpec.ledger (ArchetypeSpec.dispose spec)=
          (0,(ArchetypeSpec.ledger spec).2+(ArchetypeSpec.ledger spec).1) := hchunks _ _
      rw [List.map_cons,List.map_cons,List.sum_cons,ih,hone,List.map_cons,List.sum_cons]
      refine Prod.ext (zero_add _) ?_
      simp only [Prod.snd_add,Prod.fst_add]
      abel
  have hvalues : (World.dispose w).archetypes.values=w.archetypes.values.map ArchetypeSpec.dispose := by
    rw [SequenceValueHashMap.values,SequenceValueHashMap.values,List.map_map]
    change (w.archetypes.entries.map _).map _=_
    rw [List.map_map]
    rfl
  rw [World.ledger,hvalues,hspecs,World.ledger]
  refine Prod.ext (add_zero _) ?_
  change _+_+(w.dropped : Values V)=_+(w.dropped : Values V)+(_+0)
  rw [add_zero]
  exact add_right_comm _ _ _

variable {dropCmd : CmdBuffer V → List (StorageType×V)}

/-- The queues drop what waits in them. -/
theorem waiting_coe (hdrop : DropsCaptured dropCmd) (w : World V) :
    World.waiting w=((World.threads w).flatMap fun thread =>
      (World.queueOf w thread).flatMap dropCmd : Values V) := by
  unfold World.waiting
  induction World.threads w with
  | nil => rfl
  | cons thread threads ih =>
    have hqueue : ((World.queueOf w thread).flatMap CmdBuffer.carried : Values V)=
        ((World.queueOf w thread).flatMap dropCmd : Values V) :=
      Multiset.coe_eq_coe.mpr (List.Perm.flatMap_left _ fun cmd _ => (hdrop cmd).symm)
    rw [List.map_cons,List.sum_cons,ih,List.flatMap_cons,←Multiset.coe_add,←hqueue]
    rfl

/-- Dropping a world drops what it holds and what waits, and nothing stays. -/
theorem account_drop (hdrop : DropsCaptured dropCmd) (w : World V) :
    World.account (World.drop dropCmd w)=(0,(World.account w).2+(World.account w).1) := by
  have hwaiting : World.waiting (World.dispose w)=World.waiting w := rfl
  have hledger : World.ledger (World.drop dropCmd w)=
      (0,(World.ledger w).2+(World.ledger w).1+World.waiting w) := by
    have hqueues : World.ledger (World.drop dropCmd w)=World.ledger { World.dispose w with
        dropped := (World.dispose w).dropped++(World.threads (World.dispose w)).flatMap fun thread =>
          (World.queueOf (World.dispose w) thread).flatMap dropCmd } := ledger_congr rfl rfl
    rw [hqueues,ledger_dropped,ledger_dispose,←waiting_coe hdrop,hwaiting]
  rw [World.account,hledger,World.account]
  refine Prod.ext (add_zero _) ?_
  change _+_+_+0=_+0+(_+_)
  rw [add_zero,add_zero,add_assoc]

end Disposal

section Results

variable [Inhabited V]

/-- The values the rows of a world hold. -/
def World.held (w : World V) : Values V := (World.ledger w).1

/-- The values a world dropped. -/
def World.lost (w : World V) : Values V := (World.ledger w).2

/-- A call that succeeds keeps what it was handed, hands back what it removes and
drops what it overwrites or destroys; one that fails drops what it was handed and
leaves what the rows hold. -/
theorem WorldCall.settles (c : WorldCall V) (form : CallForm) (h : StoreInv False reserved w) :
    wp (c.perform form)
      (fun out w' => World.held w'+((Outcome.given out : Values V)+(WorldCall.drops w c : Values V))=
          World.held w+(WorldCall.taken c : Values V) ∧
        World.lost w'=World.lost w+(WorldCall.drops w c : Values V))
      (fun _ w' => World.held w'=World.held w ∧
        World.lost w'=World.lost w+(WorldCall.taken c : Values V)) w := by
  refine wp_mono (WorldCall.balance c form h False.elim) ?_ ?_
  · intro out w' hb
    exact ⟨hb.held,hb.spent⟩
  · intro f w' hb
    refine ⟨?_,hb.spent⟩
    have hh := hb.held
    rw [zero_add] at hh
    exact add_right_cancel hh

end Results

section Samples

/-- One value is overwritten, one is kept in a row and one waits in a queue. -/
def booked : List (Action ℕ) := [
  .world .returning (.create (.single (plain 0) 1)),
  .world .returning (.mergeComponent (handle 0 1) (.single (plain 0) 2)),
  .setInParallelCompute true,
  .cmd .returning 0 (.create (.single (plain 0) 3)),
  .setInParallelCompute false]

end Samples

end XynokEcs.ValueLedger
