import XynokEcs.TryOutcomes
import XynokEcs.CommandQueues
import XynokEcs.ValueRows

/-!
# Removing what was added

Components that were just added to an entity can be removed again: the archetypes
the removal asks for are there, and neither of them is locked. The entity is then
back in its archetype with the components and the state it had, and what is
handed out is what was added.
-/

namespace XynokEcs.AddThenRemove

open ComponentTypes EntityHandle SequenceValueMap ChunkLayouts FaultingState ChunkRows RowWrites ValueRows
  ArchetypeStore EntityAllocation WorldState WorldCalls RegistryInvariants RegistrySteps StoreInvariants
  StoreSteps ArchetypeHomes EdgeOutcomes StructureChanges RegistryFrame ActionRuns WorldRuns ActionEffects
  LockedArchetypes TryOutcomes CommandQueues

variable {V : Type} {D : Prop} {reserved : List Entity} {w w' : World V} {e : Entity} {T : TArchetype}
  {val b : Bundle V} {tick : ChangedTick} {x : RowData V} {t : StorageType}

section Rows

/-- A bundle has no item of a type it does not name. -/
theorem itemOf_eq_none : itemOf val.items t=none ↔ t∉val.ty.storageTypes := by
  have hkeys : val.items.map (fun p => p.1.storageType)=val.ty.storageTypes := by
    rw [←val.drops_fst,Bundle.drops,List.map_map]
    rfl
  rw [itemOf_none,hkeys]

/-- Merging leaves the components it does not name. -/
theorem mergeRow_outside (h : t∉val.ty.storageTypes) : mergeRow val.items tick x t=x t := by
  unfold mergeRow
  rw [itemOf_eq_none.mpr h]

/-- It gives those it names their values. -/
theorem mergeRow_value {p : Component×V} (h : itemOf val.items t=some p) :
    (mergeRow val.items tick x t).map ComponentData.value=some p.2 := by
  unfold mergeRow
  rw [h]
  cases x t <;> rfl

/-- The row has what it had and what is merged. -/
theorem mergeRow_isSome : (mergeRow val.items tick x t).isSome=true ↔
    (x t).isSome=true ∨ t∈val.ty.storageTypes := by
  by_cases h : t∈val.ty.storageTypes
  · have hsome : itemOf val.items t≠none := fun hn => itemOf_eq_none.mp hn h
    obtain ⟨p,hp⟩ := Option.ne_none_iff_exists'.mp hsome
    have hvalue : ((mergeRow val.items tick x t).map ComponentData.value).isSome=true := by
      rw [mergeRow_value hp]
      rfl
    rw [Option.isSome_map] at hvalue
    exact iff_of_true hvalue (.inr h)
  · rw [mergeRow_outside h]
    exact (or_iff_left h).symm

/-- What it had is what is there without what is merged. -/
theorem mergeRow_rest (h : ∀ t∈val.ty.storageTypes,x t=none) (t : StorageType) :
    (x t).isSome=true ↔ (mergeRow val.items tick x t).isSome=true ∧ t∉val.ty.storageTypes := by
  rw [mergeRow_isSome]
  constructor
  · intro hs
    refine ⟨.inl hs,fun ht => ?_⟩
    rw [h t ht] at hs
    cases hs
  · intro ⟨hs,hn⟩
    exact hs.resolve_right hn

/-- Components that were not there before leave nothing behind. -/
theorem removeRow_mergeRow (h : ∀ t∈val.ty.storageTypes,x t=none) :
    removeRow val.ty.storageTypes (mergeRow val.items tick x)=x := by
  funext t
  unfold removeRow
  split
  · rename_i ht
    exact (h t ht).symm
  · rename_i ht
    exact mergeRow_outside ht

/-- A row hands out the bundle that was written to it. -/
theorem takenFrom_mergeRow (hn : val.ty.storageTypes.Nodup)
    (h : TakenFrom val.ty b (mergeRow val.items tick x)) : b=val := by
  have hkeys : (val.items.map fun p => p.1.storageType).Nodup := by
    rw [←val.drops_fst,Bundle.drops,List.map_map] at hn
    exact hn
  have hfst : b.items.map Prod.fst=val.items.map Prod.fst := by rw [b.items_fst,val.items_fst,h.1]
  have hitems : b.items=val.items := by
    refine List.ext_getElem (by simpa only [List.length_map] using congrArg List.length hfst)
      fun i hi hi' => ?_
    have hcomp : b.items[i].1=val.items[i].1 := by
      have hat := congrArg (·[i]?) hfst
      simpa only [List.getElem?_map,List.getElem?_eq_getElem hi,List.getElem?_eq_getElem hi',Option.map_some,
        Option.some.injEq] using hat
    have hvalue := h.2 _ (List.getElem_mem hi)
    rw [hcomp,mergeRow_value (itemOf_mem hkeys (List.getElem_mem hi'))] at hvalue
    exact Prod.ext hcomp (Option.some.inj hvalue).symm
  cases b with
  | single c v => cases val with
    | single c' v' =>
      cases hitems
      rfl
    | tuple p ps =>
      have hty := h.1
      cases hty
  | tuple p ps => cases val with
    | single c' v' =>
      have hty := h.1
      cases hty
    | tuple p' ps' =>
      cases hitems
      rfl

end Rows

section Places

/-- An archetype with these components that lets entities in and out. -/
def Allows (w : World V) (has : StorageType → Prop) : Prop :=
  ∃ (i : ℕ) (spec : ArchetypeSpec V),w.archetypes.valueAt i=some spec ∧ spec.allowStructureChange=true ∧
    ∀ t,t∈spec.layout.componentColDescriptors ↔ has t

/-- What allows structure changes goes on allowing them. -/
theorem Allows.evolve {has : StorageType → Prop} (h : Allows w has) (he : Evolves w w') : Allows w' has := by
  obtain ⟨i,spec,hv,hallow,hhas⟩ := h
  obtain ⟨spec',hv',hlayout,hallow',-⟩ := he.kept i spec hv
  refine ⟨i,spec',hv',hallow'.trans hallow,fun t => ?_⟩
  rw [hlayout]
  exact hhas t

/-- Only the components that a row has matter to what it allows. -/
theorem Allows.congr {has has' : StorageType → Prop} (h : Allows w has) (hi : ∀ t,has t ↔ has' t) :
    Allows w has' := by
  obtain ⟨i,spec,hv,hallow,hhas⟩ := h
  exact ⟨i,spec,hv,hallow,fun t => (hhas t).trans (hi t)⟩

/-- It is the only one with these components. -/
theorem Allows.unlocked {has : StorageType → Prop} (h : Allows w has) (hi : RegistryInv D w) {j : ℕ}
    {spec : ArchetypeSpec V} (hv : w.archetypes.valueAt j=some spec)
    (hhas : ∀ t,t∈spec.layout.componentColDescriptors ↔ has t) : spec.allowStructureChange=true := by
  obtain ⟨i,spec',hv',hallow,hhas'⟩ := h
  obtain rfl := archetype_unique hi hv' hv fun t => (hhas' t).trans (hhas t).symm
  cases hv.symm.trans hv'
  exact hallow

/-- A row has the components of its layout. -/
theorem rowData_isSome {layout : ChunkLayout} {c : Chunk V} {row : ℕ} :
    (c.rowData layout row t).isSome=true ↔ t∈layout.componentColDescriptors := by
  rw [Chunk.rowData,Option.isSome_map,AList.lookup_isSome]

/-- A live entity is in an archetype with its components. -/
theorem live_of_contents (h : StoreInv D reserved w) (hx : World.contents w e=some x) :
    ∃ slot spec,LiveIn w e slot spec ∧ ∀ t,t∈spec.layout.componentColDescriptors ↔ (x t).isSome=true := by
  obtain ⟨l,hl,-⟩ := Option.bind_eq_some_iff.mp hx
  obtain ⟨slot,spec,c,hf⟩ := StoreInv.found h hl
  cases hx.symm.trans (hf.contents h)
  exact ⟨slot,spec,⟨hf.locate,hf.stored,hf.archetype⟩,fun t => rowData_isSome.symm⟩

end Places

variable [Inhabited V]

section Adding

/-- A component type that was added has an archetype of its own. -/
theorem tryAddComponent_home (h : RegistryInv D w) (hD : D → val.ty.isDeclared=true) :
    wp (tryAddComponent e val) (fun _ w' => ∃ i spec,Home w' val.ty i spec) (fun _ _ => True) w := by
  unfold tryAddComponent consuming
  rw [wp_onFault]
  unfold withExisting
  rw [wp_bind,wp_getState]
  split
  · trivial
  · split
    · rename_i slot _
      rw [wp_bind]
      refine wp_mono (getOrCreate_outcome h hD) (fun bArchId w₁ hw => ?_) fun _ _ _ => trivial
      obtain ⟨-,-,hinv,-,spec,hv,htypes⟩ := hw
      refine wp_mono (Keeps.bind (Keeps.getArchetype _) (fun a => Keeps.bind (Keeps.getArchetype _) fun b => ?_)
        w₁ hinv) (fun _ w₂ hk => ?_) fun _ _ _ => trivial
      · split
        · exact Keeps.fault _
        · exact Keeps.bind (Keeps.getOrCreateEdge hD) fun _ => Keeps.bind (Keeps.checkStructureChange _ _)
            fun _ => Keeps.getState fun _ => Keeps.moveAndWrite _ _
      · obtain ⟨spec',hv',hlayout,-,-⟩ := hk.2.kept _ _ hv
        refine ⟨_,spec',hv',?_⟩
        rw [hlayout]
        exact htypes
    · trivial

/-- Adding leaves both archetypes as a removal needs them. -/
theorem tryAddComponent_allows (h : StoreInv True reserved w) (hval : val.ty.isDeclared=true) :
    wp (tryAddComponent e val) (fun _ w' => StoreInv True reserved w' ∧ Evolves w w' ∧
      ∃ x,World.contents w e=some x ∧ (∀ t∈val.ty.storageTypes,x t=none) ∧
        World.contents w'=Function.update (World.contents w) e (some (mergeRow val.items w.tick x)) ∧
        Allows w' (fun t => (x t).isSome=true) ∧
        Allows w' (fun t => (x t).isSome=true ∨ t∈val.ty.storageTypes)) (fun _ _ => True) w := by
  refine tryAddComponent_rule h.registry (fun _ => hval) (fun _ => trivial) (fun _ _ _ _ _ _ _ _ _ => trivial) ?_
  intro l slot w₁ dstArchId src dst hl hs he hi hready hmay hunlocked
  obtain ⟨c,hf,hf₁⟩ := StoreInv.found_extend h hl hs he hready.source
  refine wp_mono (moveAndWrite_spec (h.extend he hi) hf₁ hready fun _ => hval) (fun _ w' hw => ?_)
    fun _ _ _ => trivial
  obtain ⟨hinv,hrw⟩ := hw
  have hfrom : Allows w₁ fun t => (c.rowData src.layout slot.idxInChunk t).isSome=true :=
    ⟨_,src,hready.source,hunlocked.1,fun t => rowData_isSome.symm⟩
  have honto : Allows w₁ fun t => (c.rowData src.layout slot.idxInChunk t).isSome=true ∨
      t∈val.ty.storageTypes :=
    ⟨_,dst,hready.target,hunlocked.2,fun t => (hready.types t).trans (or_congr_left rowData_isSome.symm)⟩
  have hevolved := hrw.2.1
  rw [he.tick] at hrw
  obtain ⟨-,hev,x,d,hx,hcontents,hd⟩ := Rewritten.extend he hrw
  cases hx.symm.trans (hf.contents h)
  cases hd trivial
  exact ⟨hinv,hev,_,hx,fun t ht => rowData_none (hmay.fits t ht),hcontents,hfrom.evolve hevolved,
    honto.evolve hevolved⟩

end Adding

section Removing

/-- Removing components of a live entity cannot fail where their type has an archetype,
and the entity's archetype and the one it leads to let entities in and out. -/
theorem tryRemoveComponent_succeeds (h : StoreInv True reserved w) (hT : T.isDeclared=true)
    (hx : World.contents w e=some x) (hhome : ∃ i spec,Home w T i spec)
    (hin : ∀ t∈T.storageTypes,(x t).isSome=true) (hfrom : Allows w fun t => (x t).isSome=true)
    (honto : Allows w fun t => (x t).isSome=true ∧ t∉T.storageTypes) :
    wp (tryRemoveComponent T e) (fun b w' => StoreInv True reserved w' ∧ Evolves w w' ∧ TakenFrom T b x ∧
      World.contents w'=Function.update (World.contents w) e (some (removeRow T.storageTypes x)))
      (fun _ _ => False) w := by
  obtain ⟨slot,spec,hlive,htypes⟩ := live_of_contents h hx
  have hallowed := hfrom.unlocked h.registry hlive.archetype htypes
  have hresolving : ∀ {w₁ : World V},RegistryInv True w₁ →
      Extends w₁ (World.resolving w₁ T) ∧ RegistryInv True (World.resolving w₁ T) :=
    fun hi => resolved hi (fun _ => hT) rfl
  obtain ⟨i,home,hh⟩ := hhome
  refine tryRemoveComponent_rule h.registry (fun _ => hT) (fun hmissing => ?_) ?_ ?_
  · cases hmissing.symm.trans hlive.located
  · intro l slot' f w₁ hl hs he hi hexit
    cases hs.symm.trans hlive.stored
    obtain ⟨hext,hinv⟩ := hresolving h.registry
    have hthere := hext.kept _ _ hlive.archetype
    cases hexit with
    | unresolved hr hp => exact hr (.inl ⟨i,home,hh⟩)
    | homeless hv hp => cases hv.symm.trans hthere
    | mismatched hr hv hm =>
      cases hv.symm.trans hthere
      exact hm fun t ht => (htypes t).mpr (hin t ht)
    | unreachable hr hv hm he hp =>
      refine he (.inr ⟨.inl ⟨i,home,hh.extend hext⟩,fun bArchId src c hsrc hc => .inl ?_⟩)
      obtain ⟨hext',hinv'⟩ := hresolving hinv
      cases (hext'.kept _ _ hthere).symm.trans hsrc
      obtain ⟨j,dst,hdst,-,hhas⟩ := honto
      refine ⟨j,dst,hext'.kept _ _ (hext.kept _ _ hdst),fun t => ?_⟩
      rw [hhas]
      exact and_congr (htypes t).symm (not_congr (hc.2.2 t).symm)
    | locked hr hv hm he hl =>
      cases hv.symm.trans hthere
      rcases hl with hl | ⟨j,dst,hdst,hedge,hl⟩
      · exact Bool.noConfusion (hl.symm.trans hallowed)
      · have hdst' := honto.unlocked h.registry hdst fun t => (hedge t).trans (and_congr_left' (htypes t))
        exact Bool.noConfusion (hl.symm.trans hdst')
  · intro l slot' w₁ dstArchId src dst hl hs he hi hready hmay _
    cases hs.symm.trans hlive.stored
    obtain ⟨c,hf,hf₁⟩ := StoreInv.found_extend h hl hs he hready.source
    cases hx.symm.trans (hf.contents h)
    obtain ⟨b,w',hrun,hinv,hrw,htaken⟩ := takeOut_moved (h.extend he hi) hf₁ hready
      (edge_elsewhere hready hmay.fits) hmay.fits
    obtain ⟨-,hev,x',d,hx',hcontents,hd⟩ := Rewritten.extend he hrw
    cases hx.symm.trans hx'
    cases hd trivial
    unfold wp
    rw [hrun]
    exact ⟨hinv,hev,htaken,hcontents⟩

/-- In every world that a run reaches, components that an entity was given can be taken
from it right away. They come out as they went in, every entity has the components, the
values and the state it had, and the entity is in the archetype it was in. -/
theorem remove_undoes_add (runtime : Runtime) (as : List (Action V))
    (h : Along Action.step (Proper True) as (World.new runtime))
    (hw : runAll Action.step as (World.new runtime)=w) (hval : val.ty.isDeclared=true)
    (ha : (tryAddComponent e val w).1=.ok ()) : ∃ w',
      tryRemoveComponent val.ty e (tryAddComponent e val w).2=(.ok val,w') ∧
      World.contents w'=World.contents w ∧ ∃ l l',w.entityAllocator.locate e=some l ∧
        w'.entityAllocator.locate e=some l' ∧ l'.archId=l.archId := by
  have hinv : RunInv True w := hw ▸ runInv_run (runInv_new True runtime) h
  cases hadd : tryAddComponent e val w with
  | mk r w₁ =>
    rw [hadd] at ha
    cases ha
    obtain ⟨i,home,hh⟩ := wp_of_ok (tryAddComponent_home hinv.inv.store.registry fun _ => hval) hadd
    obtain ⟨hstore₁,hev₁,x,hx,hnone,hcontents₁,hfrom,honto⟩ :=
      wp_of_ok (tryAddComponent_allows hinv.inv.store hval) hadd
    have hx₁ : World.contents w₁ e=some (mergeRow val.items w.tick x) := by
      rw [hcontents₁,Function.update_self]
    have hremove := tryRemoveComponent_succeeds (T:=val.ty) hstore₁ hval hx₁ ⟨i,home,hh⟩
      (fun t ht => mergeRow_isSome.mpr (.inr ht)) (honto.congr fun t => mergeRow_isSome.symm)
      (hfrom.congr (mergeRow_rest hnone))
    cases hrun : tryRemoveComponent val.ty e w₁ with
    | mk r w' => cases r with
      | error f => exact (wp_of_error (E:=fun _ _ => False) hremove hrun).elim
      | ok b =>
        obtain ⟨hstore',hev',htaken,hcontents'⟩ := wp_of_ok hremove hrun
        have hsame : World.contents w'=World.contents w := by
          rw [hcontents',hcontents₁,Function.update_idem,removeRow_mergeRow hnone,←hx,Function.update_eq_self]
        obtain ⟨slot,spec,hlive,htypes⟩ := live_of_contents hinv.inv.store hx
        obtain ⟨slot',spec',hlive',htypes'⟩ := live_of_contents hstore' ((congrFun hsame e).trans hx)
        obtain ⟨spec'',hv,hlayout,-,-⟩ := (hev₁.trans hev').kept _ _ hlive.archetype
        refine ⟨w',?_,hsame,_,_,hlive.located,hlive'.located,
          archetype_unique hstore'.registry hlive'.archetype hv fun t => ?_⟩
        · rw [takenFrom_mergeRow hh.2.1 htaken]
        · rw [hlayout]
          exact (htypes' t).trans (htypes t).symm

/-- Two more components for an entity. -/
def given : Bundle ℕ := .tuple (plain 1,7) [(plain 2,8)]

set_option maxRecDepth 20000 in
/-- A component is given to an entity and taken back. -/
theorem remove_undoes_add_given : ∃ w w' : World ℕ,
    runAll Action.step [.world .returning (.create (.single (plain 0) 1))] (World.new inOrder)=w ∧
      tryRemoveComponent given.ty (handle 0 1) (tryAddComponent (handle 0 1) given w).2=(.ok given,w') ∧
      World.contents w'=World.contents w := by
  have hproper : Along Action.step (Proper True) [.world .returning (.create (.single (plain 0) 1))]
      (World.new inOrder : World ℕ) := by
    refine ⟨⟨fun _ T hT => ?_,trivial⟩,trivial⟩
    cases hT
    rfl
  have hadded : (tryAddComponent (handle 0 1) given (runAll Action.step
      [.world .returning (.create (.single (plain 0) 1))] (World.new inOrder : World ℕ))).1=.ok () := by
    decide +kernel
  obtain ⟨w',hrun,hsame,-⟩ := remove_undoes_add inOrder _ hproper rfl rfl hadded
  exact ⟨_,w',rfl,hrun,hsame⟩

end Removing

end XynokEcs.AddThenRemove
