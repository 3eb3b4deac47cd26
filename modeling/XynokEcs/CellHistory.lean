import XynokEcs.QueryReadings

/-!
# The history of a component

An action inserts, overwrites, writes through an item or removes components of one
entity, or none. A component that asks for change detection carries the tick of its
insertion and of its latest write; every other component keeps its stamps. Along a
run the stamps of a live component therefore tell when it was last touched.
-/

namespace XynokEcs.CellHistory

open ComponentTypes EntityHandle SequenceValueMap FaultingState ChunkRows RowWrites ArchetypeStore
  ChunkLayouts QueryShapes EntityAllocation SlotInvariants SlotEvents WorldState WorldCalls CommandBuffer
  RegistryInvariants RegistrySteps StoreInvariants StoreSteps StructureChanges RegistryFrame QueryAccess
  QuerySources ItemWrites WorkerQueues ActionRuns WorldRuns ActionEffects MapRefinement WorldGrowth

variable {V : Type}

section Changes

/-- What an action does to the components of an entity. -/
inductive Change
  | nothing
  | inserted (e : Entity) (ts : List StorageType)
  /-- Overwritten where present, inserted elsewhere. -/
  | merged (e : Entity) (ts : List StorageType)
  | removed (e : Entity) (ts : List StorageType)
  | destroyed (e : Entity)
  /-- Written through a query item that stamps. -/
  | written (e : Entity) (t : StorageType)

/-- What happens to one component of one entity. -/
inductive CellEvent
  | kept
  | inserted
  | written
  | removed
deriving DecidableEq

/-- One component of one entity. -/
def cellOf (m : EntityMap V) (e : Entity) (t : StorageType) : Option (ComponentData V) := (m e).bind fun x => x t

/-- What a change means to one component of one entity. -/
def Change.event (m : EntityMap V) (e : Entity) (t : StorageType) : Change → CellEvent
  | .nothing => .kept
  | .inserted f ts => if f=e ∧ t∈ts then .inserted else .kept
  | .merged f ts => if f=e ∧ t∈ts then
      if (cellOf m e t).isSome then .written else .inserted
    else .kept
  | .removed f ts => if f=e ∧ t∈ts then .removed else .kept
  | .destroyed f => if f=e then .removed else .kept
  | .written f t' => if f=e ∧ t'=t then .written else .kept

/-- The change a call makes, from what it ends in. -/
def WorldCall.change : WorldCall V → Except Fault (Outcome V) → Change
  | .create val,.ok (.entity e) => .inserted e val.ty.storageTypes
  | .createSingleton val,.ok (.entity e) => .inserted e val.ty.storageTypes
  | .addComponent e val,.ok _ => .inserted e val.ty.storageTypes
  | .mergeComponent e val,.ok _ => .merged e val.ty.storageTypes
  | .removeComponent T e,.ok _ => .removed e T.storageTypes
  | .destroy e,.ok _ => .destroyed e
  | _,_ => .nothing

/-- The change a queued command makes when it is applied. -/
def CmdBuffer.change : CmdBuffer V → Except Fault Unit → Change
  | .create _ e val,.ok _ => .inserted e val.ty.storageTypes
  | .addComponent _ e val,.ok _ => .inserted e val.ty.storageTypes
  | .mergeComponent _ e val,.ok _ => .merged e val.ty.storageTypes
  | .removeComponent _ T e,.ok _ => .removed e T.storageTypes
  | .destroy _ e,.ok _ => .destroyed e
  | _,.error _ => .nothing

/-- The change an action makes. A command that is queued makes none. -/
def Action.change [Inhabited V] (w : World V) : Action V → Change
  | .world form c => WorldCall.change c (c.perform form w).1
  | .cmd form thread c => if w.inParallelCompute then .nothing
    else WorldCall.change c.direct (c.perform thread form w).1
  | .applyCmd i => match World.front w i with
    | none => .nothing
    | some cmd => CmdBuffer.change cmd (CmdBuffer.run cmd (World.popped w i)).1
  | .write l t itemWrite => if itemWrite.stamps then
      match (writeItem l t itemWrite w).1,World.row w l with
      | .ok _,some (e,_) => .written e t
      | _,_ => .nothing
    else .nothing
  | _ => .nothing

/-- What an event does to the stamps of a component. -/
def CellStep (tick : ChangedTick) (x x' : Option (ComponentData V)) : CellEvent → Prop
  | .kept => Option.Rel (fun d d' => d'.added=d.added ∧ d'.changed=d.changed) x x'
  | .inserted => x=none ∧ ∃ d,x'=some d ∧ d.added=some tick ∧ d.changed=some tick
  | .written => ∃ d d',x=some d ∧ x'=some d' ∧ d'.added=d.added ∧ d'.changed=some tick
  | .removed => x'=none

/-- A cell that stays was kept. -/
theorem CellStep.refl (tick : ChangedTick) (x : Option (ComponentData V)) : CellStep tick x x .kept := by
  cases x with
  | none => exact .none
  | some d => exact .some ⟨rfl,rfl⟩

end Changes

section Maps

variable {tick : ChangedTick} {m m' : EntityMap V} {e f : Entity} {t : StorageType} {x y : RowData V}

/-- Updating an entity updates its own cells. -/
theorem cellOf_update (m : EntityMap V) (e f : Entity) (y : Option (RowData V)) (t : StorageType) :
    cellOf (Function.update m e y) f t=if e=f then y.bind (fun y => y t) else cellOf m f t := by
  unfold cellOf
  by_cases h : e=f
  · subst h
    rw [if_pos rfl,Function.update_self]
  · rw [if_neg h,Function.update_of_ne (Ne.symm h)]

/-- An item of a bundle writes the component it names, as it was declared. -/
theorem itemOf_declared {val : Bundle V} (h : val.ty.isDeclared=true) {p : Component×V}
    (hp : itemOf val.items t=some p) : p.1.stateDetection=t.stateDetection := by
  obtain ⟨hm,ht⟩ := itemOf_storage hp
  have hc : p.1∈val.ty.components := by
    rw [←val.items_fst]
    exact List.mem_map_of_mem (f:=Prod.fst) hm
  rw [Component.stateDetection_of_isDeclared (List.all_eq_true.mp h _ hc),ht]

/-- A bundle has an item for each of its types. -/
theorem itemOf_isSome {val : Bundle V} : (itemOf val.items t).isSome=true ↔ t∈val.ty.storageTypes := by
  have hnone : itemOf val.items t=none ↔ t∉val.items.map fun p => p.1.storageType := itemOf_none
  have hkeys : val.items.map (fun p => p.1.storageType)=val.ty.storageTypes := by
    rw [←val.drops_fst,Bundle.drops,List.map_map]
    rfl
  rw [hkeys] at hnone
  cases hi : itemOf val.items t with
  | none => exact iff_of_false Bool.false_ne_true (hnone.mp hi)
  | some p =>
    refine iff_of_true rfl ?_
    by_contra hn
    rw [hnone.mpr hn] at hi
    cases hi

/-- A component that was just inserted carries the tick twice. -/
theorem freshData_stamps {c : Component} {v : V} (h : c.stateDetection.needsChange=true) :
    (freshData c v tick).added=some tick ∧ (freshData c v tick).changed=some tick :=
  ⟨if_pos h,if_pos h⟩

variable {val : Bundle V}

/-- Inserting a bundle inserts its components and keeps the others. -/
theorem insertRow_cell (hD : val.ty.isDeclared=true) (hc : t.stateDetection.needsChange=true)
    (hn : ∀ t∈val.ty.storageTypes,x t=none) : CellStep tick (x t) (insertRow val.items tick x t)
      (if t∈val.ty.storageTypes then .inserted else .kept) := by
  rw [insertRow]
  cases hi : itemOf val.items t with
  | none =>
    have hnot : t∉val.ty.storageTypes := by
      rw [←itemOf_isSome,hi]
      exact Bool.false_ne_true
    rw [if_neg hnot]
    exact CellStep.refl tick (x t)
  | some p =>
    have hin : t∈val.ty.storageTypes := by
      rw [←itemOf_isSome,hi]
      rfl
    rw [if_pos hin]
    have hp : p.1.stateDetection.needsChange=true := by rw [itemOf_declared hD hi,hc]
    exact ⟨hn t hin,_,rfl,freshData_stamps hp⟩

/-- Merging a bundle writes the components that are there and inserts the others. -/
theorem overlayRow_cell (hD : val.ty.isDeclared=true) (hc : t.stateDetection.needsChange=true) :
    CellStep tick (x t) (overlayRow val.items tick x t) (if t∈val.ty.storageTypes then
      if (x t).isSome then .written else .inserted else .kept) := by
  rw [overlayRow]
  cases hi : itemOf val.items t with
  | none =>
    have hnot : t∉val.ty.storageTypes := by
      rw [←itemOf_isSome,hi]
      exact Bool.false_ne_true
    rw [if_neg hnot]
    exact CellStep.refl tick (x t)
  | some p =>
    have hin : t∈val.ty.storageTypes := by
      rw [←itemOf_isSome,hi]
      rfl
    have hp : p.1.stateDetection.needsChange=true := by rw [itemOf_declared hD hi,hc]
    rw [if_pos hin]
    cases hx : x t with
    | none => exact ⟨rfl,_,rfl,freshData_stamps hp⟩
    | some old => exact ⟨old,_,rfl,rfl,rfl,if_pos hp⟩

/-- Removing components takes their cells and keeps the others. -/
theorem removeRow_cell {ts : List StorageType} : CellStep tick (x t) (removeRow ts x t)
    (if t∈ts then .removed else .kept) := by
  rw [removeRow]
  by_cases h : t∈ts
  · rw [if_pos h,if_pos h]
    rfl
  · rw [if_neg h,if_neg h]
    exact CellStep.refl tick (x t)

/-- A change at one entity leaves the others alone, and tells of its own by its row. -/
theorem cellStep_update (e f : Entity) {ev : CellEvent} {y : Option (RowData V)}
    (h : CellStep tick (cellOf m e t) (y.bind fun y => y t) ev) :
    CellStep tick (cellOf m f t) (cellOf (Function.update m e y) f t) (if e=f then ev else .kept) := by
  rw [cellOf_update]
  by_cases he : e=f
  · subst he
    rw [if_pos rfl,if_pos rfl]
    exact h
  · rw [if_neg he,if_neg he]
    exact CellStep.refl tick _

/-- A choice at one entity and one component. -/
theorem event_split (f e : Entity) (p : Prop) [Decidable p] (ev : CellEvent) :
    (if f=e ∧ p then ev else .kept)=if f=e then (if p then ev else .kept) else .kept := by
  by_cases h : f=e
  · rw [if_pos h]
    simp only [h,true_and]
  · rw [if_neg h,if_neg fun hp => h hp.1]

end Maps

section Calls

variable {tick : ChangedTick} {m m' : EntityMap V} {t : StorageType}

/-- The update a call makes is told component by component. -/
theorem MapStep.cell {c : WorldCall V} {out : Outcome V} (h : MapStep tick c out m m')
    (hD : ∀ T∈c.ty,T.isDeclared=true) (hc : t.stateDetection.needsChange=true) (f : Entity) :
    CellStep tick (cellOf m f t) (cellOf m' f t) ((WorldCall.change c (.ok out)).event m f t) := by
  have hinserted : ∀ {e : Entity} {val : Bundle V} {x : Option (RowData V)},val.ty.isDeclared=true →
      m e=x → (∀ t∈val.ty.storageTypes,x.bind (fun x => x t)=none) →
      CellStep tick (cellOf m f t)
        (cellOf (Function.update m e (some (insertRow val.items tick (x.getD emptyRow)))) f t)
        ((Change.inserted e val.ty.storageTypes).event m f t) := by
    intro e val x hd hx hn
    have hrow : ∀ t,cellOf m e t=x.getD emptyRow t := by
      intro t
      rw [cellOf,hx]
      cases x <;> rfl
    rw [Change.event,event_split]
    refine cellStep_update e f ?_
    rw [hrow,Option.bind_some]
    refine insertRow_cell hd hc fun t ht => ?_
    rw [←hrow,cellOf,hx]
    exact hn t ht
  cases c with
  | create val => cases out with
    | entity e =>
      obtain ⟨he,rfl⟩ := h
      exact hinserted (hD _ rfl) he fun _ _ => rfl
    | done => exact h.elim
    | bundle b => exact h.elim
  | createSingleton val => cases out with
    | entity e =>
      obtain ⟨he,rfl⟩ := h
      exact hinserted (hD _ rfl) he fun _ _ => rfl
    | done => exact h.elim
    | bundle b => exact h.elim
  | addComponent e val => cases out with
    | done =>
      obtain ⟨x,hx,hn,rfl⟩ := h
      exact hinserted (hD _ rfl) hx hn
    | entity e' => exact h.elim
    | bundle b => exact h.elim
  | mergeComponent e val => cases out with
    | done =>
      obtain ⟨x,hx,rfl⟩ := h
      have hrow : cellOf m e t=x t := by rw [cellOf,hx,Option.bind_some]
      have hev : (WorldCall.change (.mergeComponent e val) (.ok .done)).event m f t=
          if e=f then (if t∈val.ty.storageTypes then
            if (x t).isSome then .written else .inserted else .kept) else .kept := by
        rw [WorldCall.change,Change.event,event_split]
        by_cases he : e=f
        · subst he
          rw [if_pos rfl,if_pos rfl,hrow]
        · rw [if_neg he,if_neg he]
      rw [hev]
      refine cellStep_update e f ?_
      rw [hrow,Option.bind_some]
      exact overlayRow_cell (hD _ rfl) hc
    | entity e' => exact h.elim
    | bundle b => exact h.elim
  | removeComponent T e => cases out with
    | bundle b =>
      obtain ⟨x,hx,-,rfl⟩ := h
      rw [WorldCall.change,Change.event,event_split]
      refine cellStep_update e f ?_
      rw [cellOf,hx,Option.bind_some,Option.bind_some]
      exact removeRow_cell
    | done => exact h.elim
    | entity e' => exact h.elim
  | destroy e => cases out with
    | done =>
      obtain ⟨-,rfl⟩ := h
      have hevent : (WorldCall.change (.destroy e : WorldCall V) (.ok .done)).event m f t=
          if e=f then .removed else .kept := rfl
      rw [hevent]
      exact cellStep_update e f rfl
    | entity e' => exact h.elim
    | bundle b => exact h.elim
  | registerArchetype T cfg => cases out with
    | done =>
      cases h
      exact CellStep.refl tick _
    | entity e' => exact h.elim
    | bundle b => exact h.elim
  | registerSingleton T => cases out with
    | done =>
      cases h
      exact CellStep.refl tick _
    | entity e' => exact h.elim
    | bundle b => exact h.elim

end Calls

section Commands

variable {D : Prop} {w w' : World V} {thread : ℕ} [Inhabited V]

/-- A command that is queued changes no component of any entity. -/
theorem queued_contents (h : WorldInv D w) (c : CmdCall V) (form : CallForm) (hp : w.inParallelCompute=true) :
    wp (c.perform thread form) (fun _ w' => World.contents w'=World.contents w)
      (fun _ w' => World.contents w'=World.contents w) w := by
  refine CmdCall.wp_form ?_ form
  have hcond : ¬((!w.inParallelCompute)=true) := by rw [hp]; exact Bool.false_ne_true
  obtain ⟨w₁,hrun₁,hw₁,hh₁,hs₁,-⟩ := warmUp_held h thread
  have hpush : ∀ {cmd : CmdBuffer V},CmdBuffer.pending cmd=none →
      ∃ w',(do warmUp thread; pushCmd thread cmd : Call V Unit) w=(.ok (),w') ∧
        World.contents w'=World.contents w := by
    intro cmd hn
    obtain ⟨w₂,hrun₂,hh₂,-⟩ := pushCmd_spec hw₁ hn
    refine ⟨w₂,?_,(hh₁.trans hh₂).contents⟩
    rw [bind_ok hrun₁,hrun₂]
  have hconsuming : ∀ {val : Bundle V} {cmd : CmdBuffer V},CmdBuffer.pending cmd=none →
      wp (consuming val (do warmUp thread; pushCmd thread cmd : Call V Unit))
        (fun _ w' => World.contents w'=World.contents w) (fun _ w' => World.contents w'=World.contents w) w := by
    intro val cmd hn
    obtain ⟨w₂,hrun,hcont⟩ := hpush hn
    rw [consuming,wp_onFault]
    unfold wp
    rw [hrun]
    exact hcont
  cases c with
  | create val =>
    refine wp_bind.mpr ?_
    unfold Cmd.tryCreate wp
    rw [getState_bind,if_neg hcond]
    change wp (consuming val _) _ _ w
    rw [consuming,wp_onFault]
    unfold wp
    rw [bind_ok hrun₁]
    change wp _ _ _ w₁
    rw [wp_bind]
    refine wp_mono (takePreAllocated_spec hs₁.inv hw₁) ?_ ?_
    · intro e w₂ hhand
      obtain ⟨w₃,evs,hrun₃,hh₃,-⟩ := pushCreate_spec hhand
      unfold wp
      rw [bind_ok hrun₃]
      exact (hh₁.trans hh₃).contents
    · intro err w₂ hh
      exact (hh₁.trans hh.1).contents
  | addComponent e val =>
    refine wp_bind.mpr ?_
    unfold Cmd.tryAddComponent wp
    rw [getState_bind,if_neg hcond]
    exact hconsuming rfl
  | mergeComponent e val =>
    refine wp_bind.mpr ?_
    unfold Cmd.tryMergeComponent wp
    rw [getState_bind,if_neg hcond]
    exact hconsuming rfl
  | removeComponent T e =>
    have hrem : CmdBuffer.pending (CmdBuffer.removeComponent thread T e : CmdBuffer V)=none := rfl
    obtain ⟨w₂,hrun₂,hh₂,-⟩ := pushCmd_spec hw₁ hrem
    refine wp_bind.mpr ?_
    unfold Cmd.tryRemoveComponent wp
    rw [getState_bind,if_neg hcond,bind_ok hrun₁,bind_ok hrun₂]
    exact (hh₁.trans hh₂).contents
  | destroy e =>
    have hdes : CmdBuffer.pending (CmdBuffer.destroy thread e : CmdBuffer V)=none := rfl
    obtain ⟨w₂,hrun,hcont⟩ := hpush hdes
    refine wp_bind.mpr ?_
    unfold Cmd.tryDestroy wp
    rw [getState_bind,if_neg hcond,hrun]
    exact hcont

omit [Inhabited V] in
/-- Work on workers and slots takes no tick. -/
theorem Held.tick {new : List (CmdBuffer V)} (h : Held new w w') : w'.tick=w.tick := by
  obtain ⟨ws,a,rfl⟩ := h.others
  rfl

/-- What happened to the stamps of a component. -/
def Told (ch : Change) (t : StorageType) (f : Entity) (w w' : World V) : Prop :=
  CellStep w.tick (cellOf (World.contents w) f t) (cellOf (World.contents w') f t)
    (ch.event (World.contents w) f t)

omit [Inhabited V] in
/-- Where all components stay there is nothing to tell. -/
theorem told_nothing {t : StorageType} {f : Entity} (h : World.contents w'=World.contents w) :
    Told .nothing t f w w' := by
  rw [Told,h]
  exact CellStep.refl _ _

/-- A call of the world tells of its change. -/
theorem WorldCall.told {reserved : List Entity} (c : WorldCall V) (form : CallForm)
    (h : StoreInv True reserved w) (hD : ∀ T∈c.ty,T.isDeclared=true) {t : StorageType}
    (hc : t.stateDetection.needsChange=true) (f : Entity) :
    wp (c.perform form) (fun out w' => Told (WorldCall.change c (.ok out)) t f w w')
      (fun _ w' => World.contents w'=World.contents w) w :=
  wp_mono (WorldCall.mapStep c form h hD) (fun _ _ hs => MapStep.cell hs hD hc f) fun _ _ he => he

variable {i : ℕ} {cmd : CmdBuffer V}

omit [Inhabited V] in
/-- Erasing a reserved slot changes no component. -/
theorem eraseAndRaise_contents {reserved : List Entity} {e : Entity} (h : StoreInv D (e::reserved) w)
    (err : XynokEcsError) : wp (eraseAndRaise thread e err : Call V Unit) (fun _ _ => False)
      (fun _ w' => World.contents w'=World.contents w) w := by
  obtain ⟨-,slot,hslot,-⟩ := h.slots.reserved_slot e List.mem_cons_self
  have herase := onAllocator_eq (w:=w) (eraseEntity_eq hslot)
  unfold eraseAndRaise wp
  rw [bind_ok herase]
  change World.contents (World.setSlots w (eraseSlot w.entityAllocator e.idx slot))=_
  rw [World.contents,World.contents,directory_congr (w:=w)
    (v:=World.setSlots w (eraseSlot w.entityAllocator e.idx slot)) rfl (h.slots.locate_released hslot)]

/-- A queued command that is applied tells of its change, unless it is a destroy whose
entity does not exist. -/
theorem CmdBuffer.told (h : WorldInv True w) (hf : World.front w i=some cmd)
    (hD : ∀ T∈CmdBuffer.ty cmd,T.isDeclared=true)
    (hlive : ∀ thread e,cmd=.destroy thread e → World.entityExists w e=true) {t : StorageType}
    (hc : t.stateDetection.needsChange=true) (f : Entity) :
    wp (CmdBuffer.run cmd) (fun _ w' => Told (CmdBuffer.change cmd (.ok ())) t f w w')
      (fun _ w' => World.contents w'=World.contents w) (World.popped w i) := by
  obtain ⟨-,-,-,hheld,hsame,-⟩ := popCmd_front hf
  have hcont := hheld.contents
  have htick := Held.tick hheld
  have hback : ∀ {ch : Change} {w' : World V},Told ch t f (World.popped w i) w' → Told ch t f w w' := by
    intro ch w' ht
    unfold Told at ht ⊢
    rw [hcont,htick] at ht
    exact ht
  have hcall : ∀ (c : WorldCall V),(∀ T∈c.ty,T.isDeclared=true) → CmdBuffer.pending cmd=none →
      wp (c.perform .returning) (fun out w' => Told (WorldCall.change c (.ok out)) t f w w')
        (fun _ w' => World.contents w'=World.contents w) (World.popped w i) :=
    fun c hd hn => wp_mono (WorldCall.told c .returning (WorldInv.popped h hf hn).store hd hc f)
      (fun _ _ ht => hback ht) fun _ _ he => he.trans hcont
  cases cmd with
  | create thread e val =>
    have hstore := StoreInv.popped_create h hf
    change wp (onErr (createComponentsFor e val) (eraseAndRaise thread e)) _ _ _
    rw [onErr,wp_handle]
    refine wp_mono (createComponentsFor_spec hstore fun _ => hD _ rfl) ?_ ?_
    · intro _ w' hcr
      have hstep := Created.mapStep_reserved hstore.slots hcr.2
      exact hback (MapStep.cell hstep hD hc f)
    · intro err w₁ herr
      have hkept := hstore.refused herr.2 herr.1
      have hsame₁ : World.contents w₁=World.contents w := herr.2.contents.trans hcont
      cases err with
      | err x =>
        exact wp_mono (eraseAndRaise_contents hkept x) (fun _ _ hF => hF.elim)
          fun _ _ he => he.trans hsame₁
      | panic p => exact hsame₁
      | undefinedBehaviour => exact hsame₁
  | addComponent thread e val =>
    change wp (raiseAs _ (WorldCalls.tryAddComponent e val)) _ _ _
    rw [raiseAs,wp_mapFault]
    exact wp_bind.mp (hcall (.addComponent e val) hD rfl)
  | mergeComponent thread e val =>
    change wp (raiseAs _ (WorldCalls.tryMergeComponent e val)) _ _ _
    rw [raiseAs,wp_mapFault]
    exact wp_bind.mp (hcall (.mergeComponent e val) hD rfl)
  | removeComponent thread T e =>
    change wp (raiseAs _ _) _ _ _
    rw [raiseAs,wp_mapFault,wp_bind]
    exact wp_mono (wp_bind.mp (hcall (.removeComponent T e) hD rfl)) (fun b w' ht => ht) fun _ _ he => he
  | destroy thread e =>
    have hex := hlive thread e rfl
    rw [World.entityExists,entityExists_eq,←hsame] at hex
    obtain ⟨l,hl⟩ := Option.isSome_iff_exists.mp hex
    obtain ⟨w',hrun,-,-,-,-⟩ := tryDestroy_found (WorldInv.popped h hf rfl).store hl
    change wp (onErr (WorldCalls.tryDestroy e) (eraseAndRaise thread e)) _ _ _
    rw [onErr,wp_handle]
    have hcalled := wp_bind.mp (hcall (.destroy e) hD rfl)
    unfold wp at hcalled ⊢
    rw [hrun] at hcalled ⊢
    exact hcalled

end Commands

section Clock

variable {w w' : World V}

/-- The tick, and the tick of the latest `create_query`. -/
def World.clock (w : World V) : ChangedTick×ChangedTick := (w.tick,w.lastQueryTick)

/-- No tick is taken when archetypes change. -/
theorem Evolves.clock (h : Evolves w w') : World.clock w'=World.clock w :=
  congrArg (fun f => (f.2.1,f.2.2.1)) h.frame

/-- What an action does to the clock. -/
def Action.clock : Action V → ChangedTick×ChangedTick → ChangedTick×ChangedTick
  | .advanceTick,c => (c.1+1,c.2)
  | .captureCurrentTick,c => (c.1+1,c.2)
  | .createQuerySince _ _,c => (c.1+1,c.2)
  | .createQuery _,c => (c.1+1,c.1)
  | _,c => c

/-- Preparing a query touches registrations only. -/
theorem prepare_state (h : CoreInv w) (q : QueryShape Component) :
    ∃ specs qc,(prepareQuerySrcAccess q w).2={ w with componentCounter := specs, queryCounter := qc } := by
  have hspec := prepareQuerySrcAccess_spec (q:=q) h.registry h.queries False.elim
  cases hr : prepareQuerySrcAccess q w with
  | mk r w' => cases r with
    | ok idx => exact (wp_of_ok hspec hr).1.others
    | error e => exact (wp_of_error hspec hr).1.others

/-- Creating a query moves the tick by one besides. -/
theorem createQuerySince_state (h : CoreInv w) (q : QueryShape Component) (lastRunTick : ChangedTick) :
    ∃ specs qc,(createQuerySince q lastRunTick w).2=
      { w with tick := w.tick+1, componentCounter := specs, queryCounter := qc } := by
  let w₁ : World V := { w with tick := w.tick+1 }
  have h₁ : CoreInv w₁ := ⟨RegistryInv.congr h.registry rfl,h.queries.congr rfl rfl rfl⟩
  have hadvance : WorldCalls.advanceTick w=(.ok w₁.tick,w₁) := rfl
  have hget : (getOrCreateQuerySrcAccess q lastRunTick w₁).2=(prepareQuerySrcAccess q w₁).2 := by
    unfold getOrCreateQuerySrcAccess
    cases hr : prepareQuerySrcAccess q w₁ with
    | mk r w₂ => cases r with
      | error e => rw [bind_error hr]
      | ok idx =>
        rw [bind_ok hr,getState_bind]
        cases querySrcAccess q lastRunTick w₂ with
        | some accessor => rfl
        | none => rfl
  have hraise : (raiseAs .display (getOrCreateQuerySrcAccess q lastRunTick) w₁).2=
      (getOrCreateQuerySrcAccess q lastRunTick w₁).2 := by
    unfold raiseAs mapFault
    cases hr : getOrCreateQuerySrcAccess q lastRunTick w₁ with
    | mk r w₂ => cases r <;> rfl
  obtain ⟨specs,qc,hprep⟩ := prepare_state h₁ q
  refine ⟨specs,qc,?_⟩
  unfold createQuerySince
  rw [bind_ok hadvance,hraise,hget,hprep]

/-- `create_query` remembers the tick it found. -/
theorem createQuery_state (h : CoreInv w) (q : QueryShape Component) :
    ∃ specs qc,(createQuery q w).2={ w with
      lastQueryTick := w.tick, tick := w.tick+1, componentCounter := specs, queryCounter := qc } := by
  have hw : CoreInv { w with lastQueryTick := w.tick } :=
    ⟨RegistryInv.congr h.registry rfl,h.queries.congr rfl rfl rfl⟩
  obtain ⟨specs,qc,hstate⟩ := createQuerySince_state hw q w.lastQueryTick
  exact ⟨specs,qc,hstate⟩

/-- Handing back nothing does not change the world. -/
theorem ignoring_state {α : Type} (x : Call V α) (w : World V) : (ignoring x w).2=(x w).2 := by
  unfold ignoring
  cases hx : x w with
  | mk r w' => cases r with
    | ok a =>
      rw [bind_ok hx]
      rfl
    | error e => rw [bind_error hx]

/-- Telling what was done does nothing more. -/
theorem doneOf_state (x : Call V Unit) (w : World V) : (doneOf x w).2=(x w).2 := by
  unfold doneOf
  cases hx : x w with
  | mk r w' => cases r with
    | ok a =>
      rw [bind_ok hx]
      rfl
    | error e => rw [bind_error hx]

variable [Inhabited V]

/-- The clock moves where queries are created and ticks are taken. -/
theorem Action.clock_step (a : Action V) (h : CoreInv w) :
    World.clock (a.step w)=Action.clock a (World.clock w) := by
  have hkeeps : ∀ {α : Type} {x : Call V α} {v : World V},Keeps False x → RegistryInv False v →
      World.clock (x v).2=World.clock v := fun hx hv => Evolves.clock (hx.state hv).2
  unfold Action.step
  cases a with
  | world form c => exact hkeeps (WorldCall.keeps c form) h.registry
  | cmd form thread c =>
    change World.clock (c.perform thread form w).2=World.clock w
    cases hp : w.inParallelCompute with
    | true => exact fixes_queued (g:=World.clock) (fun _ _ _ _ => rfl) c thread form hp
    | false =>
      have hwp : wp (c.perform thread form) (fun _ w' => World.clock w'=World.clock w)
          (fun _ w' => World.clock w'=World.clock w) w := by
        refine CmdCall.wp_form ?_ form
        unfold wp
        rw [CmdCall.perform_direct c hp]
        have hdirect := hkeeps (WorldCall.keeps c.direct .returning) h.registry
        cases hr : c.direct.perform .returning w with
        | mk r w' =>
          rw [hr] at hdirect
          cases r <;> exact hdirect
      cases hr : c.perform thread form w with
      | mk r w' => cases r with
        | ok out =>
          have hok := wp_of_ok hwp hr
          exact hok
        | error e =>
          have herr := wp_of_error hwp hr
          exact herr
  | applyCmd i =>
    change World.clock (ignoring (applyCmd i) w).2=World.clock w
    rw [ignoring_state]
    unfold applyCmd
    cases hf : World.front w i with
    | none =>
      rcases popCmd_noFront hf with hrun | hrun
      · rw [bind_ok hrun]
        rfl
      · rw [bind_error hrun]
    | some cmd =>
      obtain ⟨hrun,-,-,hheld,-,-⟩ := popCmd_front hf
      have hpopped : World.clock (World.popped w i)=World.clock w := by
        obtain ⟨ws,a,he⟩ := hheld.others
        rw [he]
        rfl
      have hreg : RegistryInv False (World.popped w i) := RegistryInv.congr h.registry hheld.registry
      have hcmd := hkeeps (Keeps.run cmd) hreg
      rw [bind_ok hrun]
      dsimp only
      cases hr : CmdBuffer.run cmd (World.popped w i) with
      | mk r w' =>
        rw [hr,hpopped] at hcmd
        cases r with
        | ok a =>
          rw [bind_ok hr]
          exact hcmd
        | error e =>
          rw [bind_error hr]
          exact hcmd
  | setInParallelCompute val => rfl
  | setExecutor present => rfl
  | advanceTick => rfl
  | captureCurrentTick => rfl
  | createQuery q =>
    change World.clock (ignoring (createQuery q) w).2=_
    obtain ⟨specs,qc,hstate⟩ := createQuery_state h q
    rw [ignoring_state,hstate]
    rfl
  | createQuerySince q lastRunTick =>
    change World.clock (ignoring (createQuerySince q lastRunTick) w).2=_
    rw [ignoring_state]
    obtain ⟨specs,qc,hstate⟩ := createQuerySince_state h q lastRunTick
    rw [hstate]
    rfl
  | prepareQuery q =>
    change World.clock (ignoring (prepareQuerySrcAccess q) w).2=_
    rw [ignoring_state]
    obtain ⟨specs,qc,hstate⟩ := prepare_state h q
    rw [hstate]
    rfl
  | accessScope q =>
    change World.clock (ignoring (onComponents q.accessScope) w).2=_
    rw [ignoring_state]
    unfold onComponents
    cases q.accessScope w.componentCounter with
    | mk r specs => cases r <;> rfl
  | write l t itemWrite =>
    change World.clock (doneOf (writeItem l t itemWrite) w).2=_
    rw [doneOf_state]
    exact hkeeps (Keeps.writeItem l t itemWrite) h.registry

end Clock

section Actions

variable {reserved : List Entity} {w w' : World V} {e : Entity} {t : StorageType}

/-- A write through an item stamps the component it goes to, unless it goes around. -/
theorem Written.told {t' : StorageType} {write : ItemWrite V} (hw : Written e t' write w w') (f : Entity) :
    Told (if write.stamps then .written e t' else .nothing) t f w w' := by
  obtain ⟨-,-,x,d,hx,hd,hregion,hcont⟩ := hw
  have hother : t≠t' → CellStep w.tick (x t)
      (Function.update x t' (some (write.data w.tick d)) t) .kept := by
    intro hne
    rw [Function.update_of_ne hne]
    exact CellStep.refl _ _
  unfold Told
  rw [hcont]
  cases hm : write.stamps with
  | false =>
    have hkept : CellStep w.tick (some d) (some (write.data w.tick d)) .kept := by
      refine .some ⟨rfl,?_⟩
      rw [ItemWrite.data,hm]
      exact Option.map_id'
    have hsame : CellStep w.tick (cellOf (World.contents w) e t) ((some (Function.update x t'
        (some (write.data w.tick d)))).bind fun y => y t) .kept := by
      rw [cellOf,hx,Option.bind_some,Option.bind_some]
      by_cases ht : t=t'
      · subst ht
        rw [Function.update_self,hd]
        exact hkept
      · exact hother ht
    have hstep := cellStep_update e f hsame
    rw [ite_self] at hstep
    exact hstep
  | true =>
    rw [if_pos rfl,Change.event,event_split]
    refine cellStep_update e f ?_
    rw [cellOf,hx,Option.bind_some,Option.bind_some]
    by_cases ht : t'=t
    · subst ht
      rw [if_pos rfl,Function.update_self,hd]
      obtain ⟨old,hold⟩ := Option.isSome_iff_exists.mp (hregion hm)
      refine ⟨_,_,rfl,rfl,rfl,?_⟩
      rw [ItemWrite.data,hold,hm]
      rfl
    · rw [if_neg ht]
      exact hother (Ne.symm ht)

variable [Inhabited V]

omit [Inhabited V] in
/-- A call that fails changes nothing. -/
theorem change_error (c : WorldCall V) (err : Fault) : WorldCall.change c (.error err)=.nothing := by
  cases c <;> rfl

omit [Inhabited V] in
/-- What both exits of a call tell of its change. -/
theorem told_of_wp {x : Call V (Outcome V)} {ch : Except Fault (Outcome V) → Change} {f : Entity}
    (herr : ∀ err,ch (.error err)=.nothing)
    (h : wp x (fun out w' => Told (ch (.ok out)) t f w w')
      (fun _ w' => World.contents w'=World.contents w) w) : Told (ch (x w).1) t f w (x w).2 := by
  cases hx : x w with
  | mk r w' => cases r with
    | ok out =>
      have hok := wp_of_ok h hx
      exact hok
    | error err =>
      have hsame := wp_of_error h hx
      dsimp only
      rw [herr]
      exact told_nothing hsame

omit [Inhabited V] in
/-- A command that fails changes nothing. -/
theorem cmd_change_error (cmd : CmdBuffer V) (err : Fault) : CmdBuffer.change cmd (.error err)=.nothing := by
  cases cmd <;> rfl

/-- Applying a queued command tells of its change. -/
theorem applyCmd_told (h : RunInv True w) {i : ℕ} (ha : Action.Applies w (.applyCmd i))
    (hc : t.stateDetection.needsChange=true) (f : Entity) :
    Told (Action.change w (.applyCmd i)) t f w ((Action.applyCmd i).step w) := by
  change Told (match World.front w i with
    | none => .nothing
    | some cmd => CmdBuffer.change cmd (CmdBuffer.run cmd (World.popped w i)).1) t f w
      (ignoring (applyCmd i) w).2
  rw [ignoring_state]
  unfold applyCmd
  cases hf : World.front w i with
  | none =>
    rcases popCmd_noFront hf with hrun | hrun
    · rw [bind_ok hrun]
      exact told_nothing rfl
    · rw [bind_error hrun]
      exact told_nothing rfl
  | some cmd =>
    obtain ⟨hrun,-,-,-,-,hmem⟩ := popCmd_front hf
    have hlive : ∀ thread e,cmd=.destroy thread e → World.entityExists w e=true :=
      fun thread e hcmd => ha thread e (hcmd ▸ hf)
    have htold := CmdBuffer.told h.inv hf (h.queued trivial cmd hmem) hlive hc f
    rw [bind_ok hrun]
    dsimp only
    cases hr : CmdBuffer.run cmd (World.popped w i) with
    | mk r w' => cases r with
      | ok u =>
        have hok := wp_of_ok htold hr
        rw [bind_ok hr]
        exact hok
      | error err =>
        have hsame := wp_of_error htold hr
        rw [bind_error hr]
        dsimp only
        rw [cmd_change_error]
        exact told_nothing hsame

/-- Every action tells what it does to a component. -/
theorem Action.told (a : Action V) (h : RunInv True w) (hcore : CoreInv w) (hD : a.Declared)
    (ha : Action.Applies w a) (hc : t.stateDetection.needsChange=true) (f : Entity) :
    Told (Action.change w a) t f w (a.step w) := by
  cases a with
  | world form c =>
    exact told_of_wp (change_error c) (WorldCall.told c form h.inv.store hD hc f)
  | cmd form thread c =>
    cases hp : w.inParallelCompute with
    | true =>
      have hch : Action.change w (.cmd form thread c)=.nothing := if_pos hp
      rw [hch]
      refine told_nothing ?_
      have hqueued : wp (c.perform thread form) (fun _ w' => World.contents w'=World.contents w) _ w :=
        queued_contents h.inv c form hp
      change World.contents (c.perform thread form w).2=_
      cases hr : c.perform thread form w with
      | mk r w' => cases r with
        | ok out =>
          have hok := wp_of_ok hqueued hr
          exact hok
        | error e =>
          have herr := wp_of_error hqueued hr
          exact herr
    | false =>
      have hch : Action.change w (.cmd form thread c)=
          WorldCall.change c.direct (c.perform thread form w).1 := if_neg (by rw [hp]; exact Bool.false_ne_true)
      rw [hch]
      refine told_of_wp (change_error c.direct) (CmdCall.wp_form ?_ form)
      unfold wp
      rw [CmdCall.perform_direct c hp]
      refine WorldCall.told c.direct .returning h.inv.store (fun T hT => hD T ?_) hc f
      cases c <;> exact hT
  | applyCmd i => exact applyCmd_told h ha hc f
  | setInParallelCompute val => exact told_nothing rfl
  | setExecutor present => exact told_nothing rfl
  | advanceTick => exact told_nothing rfl
  | captureCurrentTick => exact told_nothing rfl
  | createQuery q =>
    refine told_nothing ?_
    obtain ⟨specs,qc,hstate⟩ := createQuery_state hcore q
    change World.contents (ignoring (createQuery q) w).2=_
    rw [ignoring_state,hstate]
    rfl
  | createQuerySince q lastRunTick =>
    refine told_nothing ?_
    obtain ⟨specs,qc,hstate⟩ := createQuerySince_state hcore q lastRunTick
    change World.contents (ignoring (createQuerySince q lastRunTick) w).2=_
    rw [ignoring_state,hstate]
    rfl
  | prepareQuery q =>
    refine told_nothing ?_
    obtain ⟨specs,qc,hstate⟩ := prepare_state hcore q
    change World.contents (ignoring (prepareQuerySrcAccess q) w).2=_
    rw [ignoring_state,hstate]
    rfl
  | accessScope q =>
    refine told_nothing ?_
    change World.contents (ignoring (onComponents q.accessScope) w).2=_
    rw [ignoring_state]
    unfold onComponents
    cases q.accessScope w.componentCounter with
    | mk r specs => cases r <;> rfl
  | write l t' itemWrite =>
    have hspec := writeItem_spec h.inv.store l t' itemWrite
    change Told (if itemWrite.stamps then
      (match (writeItem l t' itemWrite w).1,World.row w l with
        | .ok _,some (e,_) => .written e t'
        | _,_ => .nothing) else .nothing) t f w (doneOf (writeItem l t' itemWrite) w).2
    rw [doneOf_state]
    cases hr : writeItem l t' itemWrite w with
    | mk r w' => cases r with
      | ok u =>
        obtain ⟨-,e,hl,hwritten⟩ := wp_of_ok hspec hr
        obtain ⟨x,hx⟩ := h.inv.store.consistent.row hl
        have hrow : World.row w l=some (e,x) := hx
        rw [hrow]
        exact Written.told hwritten f
      | error err =>
        have hsame := wp_of_error hspec hr
        dsimp only at hsame ⊢
        rw [hsame,ite_self]
        exact told_nothing rfl

end Actions

section Stamps

variable {t : StorageType} {e : Entity}

/-- The stamps of a component. -/
inductive Stamp
  | added
  | changed
deriving DecidableEq

def Stamp.get : Stamp → ComponentData V → Option ChangedTick
  | .added => ComponentData.added
  | .changed => ComponentData.changed

/-- An insertion renews both stamps, a write the second. -/
def Stamp.renewedBy : Stamp → CellEvent → Bool
  | .added,ev => ev=.inserted
  | .changed,ev => ev=.inserted ∨ ev=.written

/-- The filter that looks at a stamp. -/
def Stamp.filter : Stamp → FilterKind
  | .added => .added
  | .changed => .changed

/-- After an event a stamp is the tick, or what it was. -/
theorem CellStep.stamp {tick : ChangedTick} {x : Option (ComponentData V)} {d : ComponentData V}
    {ev : CellEvent} (h : CellStep tick x (some d) ev) (s : Stamp) :
    s.renewedBy ev=true ∧ s.get d=some tick ∨
      s.renewedBy ev=false ∧ ∃ old,x=some old ∧ s.get d=s.get old := by
  cases ev with
  | kept =>
    cases h with
    | @some old _ hsame => cases s with
      | added => exact .inr ⟨rfl,old,rfl,hsame.1⟩
      | changed => exact .inr ⟨rfl,old,rfl,hsame.2⟩
  | inserted =>
    obtain ⟨-,d',he,hadded,hchanged⟩ := h
    cases he
    cases s with
    | added => exact .inl ⟨rfl,hadded⟩
    | changed => exact .inl ⟨rfl,hchanged⟩
  | written =>
    obtain ⟨old,d',hold,he,hadded,hchanged⟩ := h
    cases he
    cases s with
    | added => exact .inr ⟨rfl,old,hold,hadded⟩
    | changed => exact .inl ⟨rfl,hchanged⟩
  | removed => cases h

/-- How many ticks an action takes. -/
def Action.ticks : Action V → ℕ
  | .advanceTick => 1
  | .captureCurrentTick => 1
  | .createQuery _ => 1
  | .createQuerySince _ _ => 1
  | _ => 0

/-- An action takes at most one tick. -/
theorem ticks_le (a : Action V) : Action.ticks a≤1 := by
  cases a <;> simp [Action.ticks]

/-- How many ticks a run takes. -/
def elapsed (as : List (Action V)) : ℕ := (as.map Action.ticks).sum

/-- Ticks add up over runs. -/
theorem elapsed_append (as bs : List (Action V)) : elapsed (as++bs)=elapsed as+elapsed bs := by
  rw [elapsed,List.map_append,List.sum_append]
  rfl

/-- The ticks of a run are those of its first action and of the rest. -/
theorem elapsed_cons (a : Action V) (as : List (Action V)) : elapsed (a::as)=Action.ticks a+elapsed as := by
  rw [elapsed,List.map_cons,List.sum_cons]
  rfl

/-- The counter moves on by the ticks of an action. -/
theorem clock_ticks (a : Action V) (c : ChangedTick×ChangedTick) :
    (Action.clock a c).1.toNat=(c.1.toNat+Action.ticks a)%2^32 := by
  have hone : (c.1+1).toNat=(c.1.toNat+1)%2^32 := by
    rw [UInt32.toNat_add]
    rfl
  have hzero : c.1.toNat=(c.1.toNat+0)%2^32 := (Nat.mod_eq_of_lt c.1.toNat_lt).symm
  cases a with
  | advanceTick => exact hone
  | captureCurrentTick => exact hone
  | createQuery q => exact hone
  | createQuerySince q l => exact hone
  | world form c => exact hzero
  | cmd form thread c => exact hzero
  | applyCmd i => exact hzero
  | setInParallelCompute val => exact hzero
  | setExecutor present => exact hzero
  | prepareQuery q => exact hzero
  | accessScope q => exact hzero
  | write l t itemWrite => exact hzero

variable [Inhabited V]

/-- The world is in order, registrations of queries included. -/
structure InOrder (w : World V) : Prop where
  /-- What runs of calls and commands keep. -/
  run : RunInv True w
  /-- What every action keeps, queries included. -/
  core : CoreInv w

variable {w : World V}

omit [Inhabited V] in
/-- A new world is in order. -/
theorem inOrder_new (runtime : Runtime) : InOrder (World.new runtime : World V) :=
  ⟨runInv_new True runtime,coreInv_new runtime⟩

/-- A proper action keeps it in order. -/
theorem InOrder.step {a : Action V} (h : InOrder w) (hp : Proper True a w) : InOrder (a.step w) :=
  ⟨Action.runInv a h.run hp.1 hp.2,(Action.grew a h.core).1⟩

/-- So does a proper run. -/
theorem InOrder.along {as : List (Action V)} (h : InOrder w) (ha : Along Action.step (Proper True) as w) :
    InOrder (runAll Action.step as w) :=
  ha.invariant (fun _ _ hp h => h.step hp) h

/-- The tick after a run counts the ticks it took, modulo its range. -/
theorem tick_run (as : List (Action V)) (h : CoreInv w) :
    (runAll Action.step as w).tick.toNat=(w.tick.toNat+elapsed as)%2^32 := by
  induction as generalizing w with
  | nil => exact (Nat.mod_eq_of_lt w.tick.toNat_lt).symm
  | cons a as ih =>
    have hstep := congrArg (fun c => c.1.toNat) (Action.clock_step a h)
    change (a.step w).tick.toNat=(Action.clock a (World.clock w)).1.toNat at hstep
    rw [clock_ticks] at hstep
    rw [runAll,ih (Action.grew a h).1,hstep,elapsed_cons]
    change ((w.tick.toNat+Action.ticks a)%2^32+elapsed as)%2^32=_
    omega

/-- The tick of a run that does not wrap. -/
theorem tick_run_lt {as : List (Action V)} (h : CoreInv w) (ht : w.tick.toNat+elapsed as<2^32) :
    (runAll Action.step as w).tick.toNat=w.tick.toNat+elapsed as := by
  rw [tick_run as h,Nat.mod_eq_of_lt ht]

/-- Some action of a run renews the stamp of a component. -/
def Renewed (s : Stamp) (t : StorageType) (e : Entity) : List (Action V) → World V → Prop
  | [],_ => False
  | a::as,w => s.renewedBy ((Action.change w a).event (World.contents w) e t)=true ∨
    Renewed s t e as (a.step w)

/-- The stamp of a component after a run: one of the ticks of the run if it was
renewed, and what it was before otherwise. -/
theorem run_stamp {as : List (Action V)} (h : InOrder w) (ha : Along Action.step (Proper True) as w)
    (hc : t.stateDetection.needsChange=true) (ht : w.tick.toNat+elapsed as<2^32) (s : Stamp)
    {d : ComponentData V} (hd : cellOf (World.contents (runAll Action.step as w)) e t=some d) :
    Renewed s t e as w ∧ (∃ tick,s.get d=some tick ∧ w.tick.toNat≤tick.toNat ∧
        tick.toNat≤w.tick.toNat+elapsed as) ∨
      ¬Renewed s t e as w ∧ ∃ old,cellOf (World.contents w) e t=some old ∧ s.get d=s.get old := by
  induction as generalizing w with
  | nil => exact .inr ⟨id,d,hd,rfl⟩
  | cons a as ih =>
    rw [elapsed_cons] at ht ⊢
    have hnext : (a.step w).tick.toNat=w.tick.toNat+Action.ticks a := by
      have hone := congrArg (fun c => c.1.toNat) (Action.clock_step a h.core)
      change (a.step w).tick.toNat=(Action.clock a (World.clock w)).1.toNat at hone
      rw [hone,clock_ticks]
      exact Nat.mod_eq_of_lt (by change w.tick.toNat+_<_; omega)
    have hstep := Action.told a h.run h.core (ha.1.1 trivial) ha.1.2 hc e
    obtain hr | ⟨hnot,old,hold,hsame⟩ := ih (h.step ha.1) ha.2 (by omega) hd
    · obtain ⟨hr,tick,htick,hlo,hhi⟩ := hr
      exact .inl ⟨.inr hr,tick,htick,by omega,by omega⟩
    · unfold Told at hstep
      rw [hold] at hstep
      obtain ⟨hev,htick⟩ | ⟨hev,older,holder,heq⟩ := hstep.stamp s
      · exact .inl ⟨.inl hev,w.tick,hsame.trans htick,Nat.le_refl _,by omega⟩
      · refine .inr ⟨fun hr => ?_,older,holder,hsame.trans heq⟩
        cases hr with
        | inl hr => exact Bool.false_ne_true (hev.symm.trans hr)
        | inr hr => exact hnot hr

end Stamps

end XynokEcs.CellHistory
