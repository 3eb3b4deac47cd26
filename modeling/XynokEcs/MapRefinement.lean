import XynokEcs.ActionEffects

/-!
# The world as a map

Read back through the store, the world is a map from the live entities to their
components. Every call that succeeds makes one update of that map, at one
entity; every other call leaves the map alone. Which archetypes, chunks and
rows the components pass through does not show.
-/

namespace XynokEcs.MapRefinement

open ComponentTypes EntityHandle SequenceValueMap FaultingState ChunkRows RowWrites EntityAllocation
  SlotInvariants SlotEvents WorldState WorldCalls CommandBuffer RegistryInvariants StoreInvariants
  StoreSteps StructureChanges RegistryFrame WorkerQueues ActionRuns WorldRuns ActionEffects

variable {V : Type}

section Abstract

/-- What the world stands for: the components of every live entity. -/
abbrev EntityMap (V : Type) := Entity → Option (RowData V)

/-- A component that has just been inserted. -/
def freshData (c : Component) (v : V) (tick : ChangedTick) : ComponentData V where
  value := v
  enabled := if c.stateDetection.needsEnable then some c.enableValue else none
  added := if c.stateDetection.needsChange then some tick else none
  changed := if c.stateDetection.needsChange then some tick else none

/-- A component that has just been overwritten. -/
def overwrittenData (c : Component) (v : V) (tick : ChangedTick) (old : ComponentData V) :
    ComponentData V :=
  { old with
    value := v
    changed := if c.stateDetection.needsChange then some tick else old.changed }

/-- A row after the items of a bundle were inserted. -/
def insertRow (items : List (Component×V)) (tick : ChangedTick) (x : RowData V) : RowData V :=
  fun t => match itemOf items t with
    | some p => some (freshData p.1 p.2 tick)
    | none => x t

/-- A row after the items of a bundle overwrote what is there and were inserted
where nothing is. -/
def overlayRow (items : List (Component×V)) (tick : ChangedTick) (x : RowData V) : RowData V :=
  fun t => match itemOf items t with
    | some p => some (match x t with
      | some old => overwrittenData p.1 p.2 tick old
      | none => freshData p.1 p.2 tick)
    | none => x t

/-- The update a successful call makes, given what it hands back. -/
def MapStep (tick : ChangedTick) : WorldCall V → Outcome V → EntityMap V → EntityMap V → Prop
  | .create val,.entity e,m,m' | .createSingleton val,.entity e,m,m' =>
    m e=none ∧ m'=Function.update m e (some (insertRow val.items tick emptyRow))
  | .addComponent e val,.done,m,m' => ∃ x,m e=some x ∧ (∀ t∈val.ty.storageTypes,x t=none) ∧
      m'=Function.update m e (some (insertRow val.items tick x))
  | .mergeComponent e val,.done,m,m' => ∃ x,m e=some x ∧
      m'=Function.update m e (some (overlayRow val.items tick x))
  | .removeComponent T e,.bundle b,m,m' => ∃ x,m e=some x ∧ TakenFrom T b x ∧
      m'=Function.update m e (some (removeRow T.storageTypes x))
  | .destroy e,.done,m,m' => (∃ x,m e=some x) ∧ m'=Function.update m e none
  | .registerArchetype _ _,.done,m,m' | .registerSingleton _,.done,m,m' => m'=m
  | _,_,_,_ => False

theorem overlayRow_eq (items : List (Component×V)) (tick : ChangedTick) (x : RowData V) :
    overlayRow items tick x=mergeRow items tick x := by
  funext t
  rw [overlayRow,mergeRow]
  cases itemOf items t with
  | none => rfl
  | some p => cases x t <;> rfl

/-- Where none of its components is there, overlaying a bundle inserts it. -/
theorem insertRow_eq {val : Bundle V} {x : RowData V} (h : ∀ t∈val.ty.storageTypes,x t=none)
    (tick : ChangedTick) : insertRow val.items tick x=mergeRow val.items tick x := by
  funext t
  rw [insertRow,mergeRow]
  cases hi : itemOf val.items t with
  | none => rfl
  | some p =>
    obtain ⟨hp,ht⟩ := itemOf_storage hi
    have hm : t∈val.ty.storageTypes := by
      rw [←val.drops_fst,Bundle.drops,List.map_map]
      exact List.mem_map.mpr ⟨p,hp,ht⟩
    rw [h t hm]
    rfl

end Abstract

variable {w w' : World V} {reserved : List Entity} {e : Entity} {val : Bundle V}

section Steps

theorem Extends.contents (h : Extends w w') : World.contents w'=World.contents w := by
  rw [World.contents,World.contents,Extends.directory h]

/-- A reserved handle that was attached to a new row was not in the map before. -/
theorem Created.mapStep_reserved (hs : SlotsInv w.entityAllocator (e::reserved))
    (hc : Created True e val w w') :
    MapStep w.tick (.create val) (.entity e) (World.contents w) (World.contents w') := by
  obtain ⟨l,d,-,-,hcont,hd⟩ := hc
  have hl : w.entityAllocator.locate e=none := hs.reserved_not_found List.mem_cons_self
  have hnone : World.contents w e=none := by
    change ((w.entityAllocator.locate e).bind _)=none
    rw [hl,Option.bind_none]
  have hrow : insertRow val.items w.tick emptyRow=mergeRow val.items w.tick emptyRow :=
    insertRow_eq (fun _ _ => rfl) _
  refine ⟨hnone,?_⟩
  rw [hcont,hd trivial,hrow]

/-- An entity that was just created was not in the map before. -/
theorem Created.mapStep [Inhabited V] {a : EntityAllocator} (ht : Taken w.entityAllocator e a)
    (hs : SlotsInv a (e::reserved)) (hc : Created True e val (World.setSlots w a) w') :
    MapStep w.tick (.create val) (.entity e) (World.contents w) (World.contents w') := by
  have hstep := Created.mapStep_reserved (w:=World.setSlots w a) hs hc
  rw [Taken.contents ht] at hstep
  exact hstep

variable [Inhabited V]

/-- What one call of the world does to the map: its update when it succeeds, and
nothing otherwise. -/
theorem WorldCall.mapStep (c : WorldCall V) (form : CallForm) (h : StoreInv True reserved w)
    (hD : ∀ T∈c.ty,T.isDeclared=true) :
    wp (c.perform form)
      (fun out w' => MapStep w.tick c out (World.contents w) (World.contents w'))
      (fun _ w' => World.contents w'=World.contents w) w := by
  refine WorldCall.wp_form ?_ form
  cases c with
  | registerArchetype T cfg =>
    exact wp_bind.mpr (wp_mono (tryRegisterArchetype_registers h.registry
      (fun _ => hD T rfl) cfg) (fun _ _ hr => Extends.contents hr.1)
      (fun _ _ hr => Extends.contents hr.1))
  | registerSingleton T =>
    exact wp_bind.mpr (wp_mono (tryRegisterSingleton_registers h.registry
      (fun _ => hD T rfl)) (fun _ _ hr => Extends.contents hr.1)
      (fun _ _ hr => Extends.contents hr.1))
  | create val =>
    refine wp_bind.mpr (wp_mono (tryCreate_spec h fun _ => hD _ rfl) ?_ ?_)
    · rintro e w' ⟨-,a,ht,hs,hc⟩
      exact Created.mapStep ht hs hc
    · rintro err w' ⟨-,hr | ⟨e,a,ht,-,hr⟩⟩
      · exact hr.contents
      · exact hr.contents.trans (Taken.contents ht)
  | createSingleton val =>
    refine wp_bind.mpr (wp_mono (tryCreateSingleton_spec h fun _ => hD _ rfl) ?_ ?_)
    · rintro e w' ⟨-,a,ht,hs,hc⟩
      exact Created.mapStep ht hs hc
    · rintro err w' ⟨-,hr | ⟨e,a,slot,ht,hs,hslot,hr⟩⟩
      · exact hr.contents
      · refine hr.contents.trans ?_
        have hloc := (hs.locate_released hslot).trans ht.locate
        rw [World.contents,World.contents,directory_congr (w:=w)
          (v:=World.setSlots w (eraseSlot a e.idx slot)) rfl hloc]
  | destroy e =>
    refine wp_bind.mpr ?_
    cases hl : w.entityAllocator.locate e with
    | none =>
      unfold wp
      rw [tryDestroy_missing hl]
    | some l =>
      obtain ⟨w',hrun,-,-,-,hcont⟩ := tryDestroy_found h hl
      unfold wp
      rw [hrun]
      obtain ⟨x,hx⟩ := h.consistent.row hl
      exact ⟨⟨_,h.consistent.contents_of_row hx⟩,hcont⟩
  | addComponent e val =>
    refine wp_bind.mpr (wp_mono (tryAddComponent_spec h fun _ => hD _ rfl) ?_ ?_)
    · rintro - w' ⟨-,⟨-,-,x,d,hx,hcont,hd⟩,y,hy,habsent⟩
      have hxy : x=y := Option.some.inj (hx.symm.trans hy)
      subst hxy
      refine ⟨x,hx,habsent,?_⟩
      rw [hcont,hd trivial,insertRow_eq habsent]
    · rintro err w' ⟨-,hr⟩
      exact hr.contents
  | mergeComponent e val =>
    refine wp_bind.mpr (wp_mono (tryMergeComponent_spec h fun _ => hD _ rfl) ?_ ?_)
    · rintro - w' ⟨-,-,-,x,d,hx,hcont,hd⟩
      refine ⟨x,hx,?_⟩
      rw [hcont,hd trivial,overlayRow_eq]
    · rintro err w' ⟨-,hr⟩
      exact hr.contents
  | removeComponent T e =>
    refine wp_bind.mpr (wp_mono (tryRemoveComponent_spec h fun _ => hD _ rfl) ?_ ?_)
    · rintro b w' ⟨-,⟨-,-,x,d,hx,hcont,hd⟩,y,hy,htaken⟩
      have hxy : x=y := Option.some.inj (hx.symm.trans hy)
      subst hxy
      refine ⟨x,hx,htaken,?_⟩
      rw [hcont,hd trivial]
    · rintro err w' ⟨-,hr⟩
      exact hr.contents

end Steps

variable [Inhabited V]

/-- Along a list of calls the map read back through the store makes the update of
every call that succeeds, and stays as it is at every other call. -/
def Follows : List (CallForm×WorldCall V) → World V → Prop
  | [],_ => True
  | (form,c)::rest,w => (match c.perform form w with
    | (.ok out,w') => MapStep w.tick c out (World.contents w) (World.contents w')
    | (.error _,w') => World.contents w'=World.contents w) ∧ Follows rest (c.perform form w).2

/-- The calls follow the map from any world in order. -/
theorem follows_of_runInv {calls : List (CallForm×WorldCall V)} (h : RunInv True w)
    (hD : ∀ c∈calls,∀ T∈c.2.ty,T.isDeclared=true) : Follows calls w := by
  induction calls generalizing w with
  | nil => trivial
  | cons c calls ih =>
    obtain ⟨form,c⟩ := c
    have hc := hD _ List.mem_cons_self
    refine ⟨?_,?_⟩
    · have hstep := WorldCall.mapStep c form h.inv.store hc
      cases hrun : c.perform form w with
      | mk r w₁ => cases r with
        | ok out =>
          have hout := wp_of_ok hstep hrun
          exact hout
        | error err =>
          have herr := wp_of_error hstep hrun
          exact herr
    · exact ih (Action.runInv (.world form c) h (fun _ => hc) trivial)
        (fun c' hm => hD c' (List.mem_cons_of_mem _ hm))

/-- From every world a proper run reaches, every sequence of calls follows the
map. -/
theorem calls_follow_map (runtime : Runtime) (as : List (Action V))
    (ha : Along Action.step (Proper True) as (World.new runtime))
    (calls : List (CallForm×WorldCall V)) (hD : ∀ c∈calls,∀ T∈c.2.ty,T.isDeclared=true) :
    Follows calls (runAll Action.step as (World.new runtime)) :=
  follows_of_runInv (runInv_run (runInv_new True runtime) ha) hD

/-- A create, an add, a merge and a remove on a world of two entities. -/
theorem calls_follow_map_moves : Follows [(.returning,.create (.single (plain 0) 1)),
    (.returning,.create (.single (plain 0) 2)),
    (.returning,.addComponent (handle 0 1) (.single (plain 1) 3)),
    (.raising,.removeComponent (.single (plain 0)) (handle 0 1)),
    (.raising,.destroy (handle 1 1))] (World.new inOrder : World ℕ) := by
  refine calls_follow_map inOrder [] trivial _ ?_
  simp only [List.forall_mem_cons,List.not_mem_nil,false_implies,implies_true,and_true]
  refine ⟨?_,?_,?_,?_,?_⟩
  all_goals rintro T ⟨⟩
  all_goals rfl

section Damage

/-- A refused create changes nothing, and one that succeeds changes the entity it
hands back alone. -/
theorem Follows.create_others {form : CallForm} {e : Entity} {val : Bundle V}
    {rest : List (CallForm×WorldCall V)} (h : Follows ((form,.create val)::rest) w)
    (he : (Action.world form (.create val)).issued w≠some e) :
    World.contents ((Action.world form (.create val)).step w) e=World.contents w e := by
  obtain ⟨hstep,-⟩ := h
  have hperform : (Action.world form (.create val)).perform w=((WorldCall.create val).perform form) w := rfl
  unfold Action.step
  unfold Action.issued at he
  rw [hperform] at he ⊢
  cases hrun : (WorldCall.create val).perform form w with
  | mk r w₁ =>
    rw [hrun] at hstep he
    cases r with
    | error err => exact congrFun hstep e
    | ok out => cases out with
      | entity f =>
        have hne : e≠f := fun hf => he (congrArg some hf.symm)
        exact (congrFun hstep.2 e).trans (Function.update_of_ne hne _ _)
      | done => exact hstep.elim
      | bundle b => exact hstep.elim

set_option maxRecDepth 20000 in
/-- The create that takes the slot again silently replaces a live entity. -/
theorem twiceDestroyed_overwrites : ¬Follows [(.returning,.create (.single (plain 0) 3))]
    (runAll Action.step twiceDestroyed (World.new inOrder)) := by
  intro h
  have hsame := congrArg Option.isSome (Follows.create_others (e:=handle 0 2) h (by decide +kernel))
  revert hsame
  decide +kernel

end Damage

end XynokEcs.MapRefinement
