import XynokEcs.ArchetypeHomes
import XynokEcs.WorldRuns

/-!
# What an action does to slots, rows and queries

An action leaves the world in order and does a short list of things to the
slots. A handle it hands out was taken just then or out of a batch. A handle is
lost only by a failing create, and given back only by one that was queued. The
one thing left out is a queued destroy whose entity does not exist.
-/

namespace XynokEcs.ActionEffects

open ComponentTypes EntityHandle SequenceValueMap FaultingState ChunkRows RowWrites ArchetypeStore
  ChunkLayouts QueryShapes EntityAllocation SlotInvariants WorldState WorldCalls CommandBuffer
  RegistryInvariants RegistrySteps StoreInvariants StoreSteps StructureChanges RegistryFrame
  SlotEvents QueryAccess QuerySources ItemWrites WorkerQueues ActionRuns WorldRuns
  ArchetypeHomes

variable {V : Type} {D : Prop} {w w' : World V} {reserved : List Entity} {e : Entity}

section Stores

/-- A reserved handle may be forgotten. -/
theorem StoreInv.lose (h : StoreInv D (e::reserved) w) : StoreInv D reserved w :=
  ⟨h.registry,h.sound,h.slots.sublist (List.sublist_cons_self e reserved),h.consistent⟩

theorem StoreInv.perm {reserved' : List Entity} (h : StoreInv D reserved w)
    (hp : reserved.Perm reserved') : StoreInv D reserved' w :=
  ⟨h.registry,h.sound,h.slots.perm hp,h.consistent⟩

/-- A reserved handle may be given back. -/
theorem StoreInv.release (h : StoreInv D (e::reserved) w) {slot : EntitySpec}
    (hs : w.entityAllocator.entities[e.idx]?=some slot) :
    StoreInv D reserved (World.setSlots w (eraseSlot w.entityAllocator e.idx slot)) := by
  refine ⟨RegistryInv.congr h.registry rfl,h.sound,h.slots.release hs,?_⟩
  rw [directory_congr (w:=w) (v:=World.setSlots w (eraseSlot w.entityAllocator e.idx slot)) rfl
    (h.slots.locate_released hs)]
  exact h.consistent

/-- The handles the workers hold are those from before when the frame is. -/
theorem Evolves.ahead (h : Evolves w w') : World.ahead w'=World.ahead w := by
  rw [World.ahead,World.ahead,WorkerQueues.Evolves.workerSpecs h]

/-- A world that moved on with its store in order is in order. -/
theorem WorldInv.evolve (h : WorldInv D w) (he : Evolves w w')
    (hs : StoreInv D (World.reserved w) w') : WorldInv D w' := by
  refine ⟨?_,h.queries.evolve he⟩
  rw [WorkerQueues.Evolves.reserved he]
  exact hs

/-- A step of the slots of a world that moved on. -/
theorem WorldInv.stepped (h : WorldInv D w) (he : Evolves w w')
    (hs : StoreInv D (World.reserved w) w') {evs : List SlotEvent}
    (hr : SlotRun evs (World.slots w) ⟨w'.entityAllocator,World.reserved w⟩) : Stepped D evs w w' := by
  refine ⟨WorldInv.evolve h he hs,?_⟩
  change SlotRun evs (World.slots w) ⟨w'.entityAllocator,World.reserved w'⟩
  rw [WorkerQueues.Evolves.reserved he]
  exact hr

end Stores

section Effects

/-- What one action can do to the slots, by the handle it hands out. It may lose a
handle only under `leaks`, and give one back only under `gives`. -/
inductive Effect (leaks : Prop) (gives : Entity → Prop) : Option Entity → List SlotEvent → Prop
  | fetched {evs : List SlotEvent} (h : Fetches evs) : Effect leaks gives none evs
  | handed {evs : List SlotEvent} (e : Entity) (h : Fetches evs) : Effect leaks gives (some e) evs
  | created (e : Entity) : Effect leaks gives (some e) [.taken e,.attached e]
  | leaked (e : Entity) (h : leaks) : Effect leaks gives none [.taken e,.lost e]
  | undone (e : Entity) : Effect leaks gives none [.taken e,.released e]
  | erased (e : Entity) : Effect leaks gives none [.erased e]
  | attached (e : Entity) : Effect leaks gives none [.attached e]
  | released (e : Entity) (h : gives e) : Effect leaks gives none [.released e]
  | lost (e : Entity) (h : leaks) : Effect leaks gives none [.lost e]

/-- The archetype type a queued command works with. -/
def CmdBuffer.ty : CmdBuffer V → Option TArchetype
  | .create _ _ val | .addComponent _ _ val | .mergeComponent _ _ val => some val.ty
  | .removeComponent _ T _ => some T
  | .destroy _ _ => none

/-- An action took the world from one state in order to another. -/
structure Acted (D leaks : Prop) (gives : Entity → Prop) (out : Option Entity) (w w' : World V) :
    Prop where
  /-- Each command that waits was there before, or asks for declared components. -/
  commands : ∀ cmd∈World.commands w',cmd∈World.commands w ∨
    (D → ∀ T∈CmdBuffer.ty cmd,T.isDeclared=true)
  /-- The slot events of the action account for the world, the slots held ahead and the handle it hands out. -/
  step : ∃ evs,Effect leaks gives out evs ∧ Stepped D evs w w' ∧ AheadFrom w evs w' ∧
    ∀ e,out=some e → (e∈World.ahead w ∨ SlotEvent.taken e∈evs) ∧ e∉World.ahead w'

variable {leaks : Prop} {gives : Entity → Prop}

theorem Evolves.commands (h : Evolves w w') : ∀ cmd∈World.commands w',cmd∈World.commands w ∨
    (D → ∀ T∈CmdBuffer.ty cmd,T.isDeclared=true) := by
  intro cmd hc
  rw [World.commands,WorkerQueues.Evolves.workerSpecs h] at hc
  exact .inl hc

/-- A world that moved on, and handed out nothing. -/
theorem acted_none {evs : List SlotEvent} (h : WorldInv D w) (hev : Evolves w w')
    (hs : StoreInv D (World.reserved w) w') (he : Effect leaks gives none evs)
    (hr : SlotRun evs (World.slots w) ⟨w'.entityAllocator,World.reserved w⟩) :
    Acted D leaks gives none w w' :=
  ⟨Evolves.commands hev,evs,he,WorldInv.stepped h hev hs hr,aheadFrom_congr (Evolves.ahead hev) _,
    fun _ h => nomatch h⟩

/-- Nothing happened to the slots but that rows moved. -/
theorem acted_moved (h : WorldInv D w) (he : Evolves w w') (hs : StoreInv D (World.reserved w) w')
    (hsame : SameSlots w.entityAllocator w'.entityAllocator) : Acted D leaks gives none w w' :=
  acted_none h he hs (.fetched fetches_moved) (.single (.moved hsame (.refl _)))

/-- A refused call did nothing to the slots. -/
theorem acted_refused {drops : List (StorageType×V)} (h : WorldInv D w) (hr : Refused drops w w')
    (hi : RegistryInv D w') : Acted D leaks gives none w w' := by
  refine acted_moved h hr.evolves (h.store.refused hr hi) ?_
  rw [hr.entityAllocator]
  exact SameSlots.refl _

/-- A step of registration did nothing to the slots. -/
theorem acted_extends (h : WorldInv D w) (he : Extends w w') (hi : RegistryInv D w') :
    Acted D leaks gives none w w' := acted_refused h (Extends.refused he) hi

/-- A handle was taken and attached to a new row. -/
theorem acted_created [Inhabited V] {val : Bundle V} {a : EntityAllocator} (h : WorldInv D w)
    (ht : Taken w.entityAllocator e a) (hs : SlotsInv a (e::World.reserved w))
    (hc : Created D e val (World.setSlots w a) w') (hi : StoreInv D (World.reserved w) w') :
    Acted D leaks gives (some e) w w' := by
  obtain ⟨l,d,ha,hev,-,-⟩ := hc
  have he : Evolves w w' := (evolves_setSlots w a).trans hev
  refine ⟨Evolves.commands he,_,.created e,WorldInv.stepped h he hi (.cons (.taken ht hs (.refl _)) (.single ?_)),
    aheadFrom_congr (Evolves.ahead he) _,?_⟩
  · rw [ha]
    exact .attached l (.refl _)
  · rintro e' he'
    cases he'
    refine ⟨.inr List.mem_cons_self,fun hm => ?_⟩
    rw [Evolves.ahead he] at hm
    have hres := (reserved_split w).mem_iff.mpr (List.mem_append_left _ hm)
    exact hs.reserved_apart.2 (List.mem_map_of_mem hres)

/-- What `leaks` and `gives` allow may be widened. -/
theorem Acted.mono {leaks' : Prop} {gives' : Entity → Prop} {out : Option Entity}
    (h : Acted D leaks gives out w w') (hl : leaks → leaks') (hg : ∀ e,gives e → gives' e) :
    Acted D leaks' gives' out w w' := by
  obtain ⟨hc,evs,he,hrest⟩ := h
  refine ⟨hc,evs,?_,hrest⟩
  cases he with
  | fetched hf => exact .fetched hf
  | handed e hf => exact .handed e hf
  | created e => exact .created e
  | leaked e h => exact .leaked e (hl h)
  | undone e => exact .undone e
  | erased e => exact .erased e
  | attached e => exact .attached e
  | released e h => exact .released e (hg e h)
  | lost e h => exact .lost e (hl h)

/-- A call that registers archetypes and ends in nothing. -/
theorem acted_registers {α : Type} {x : Call V α} {Q : α → World V → Prop} (h : WorldInv D w)
    (hx : Registers D x w Q) : wp x (fun _ w' => Acted D leaks gives none w w')
      (fun _ w' => Acted D leaks gives none w w') w :=
  wp_mono hx (fun _ _ hr => acted_extends h hr.1 hr.2.1) (fun _ _ hr => acted_extends h hr.1 hr.2)

/-- Workers and slots changed by taking handles and passing them around. -/
theorem acted_held {new : List (CmdBuffer V)} {evs : List SlotEvent} {out : Option Entity}
    (h : WorldInv D w) (hh : Held new w w')
    (hnew : ∀ cmd∈new,D → ∀ T∈CmdBuffer.ty cmd,T.isDeclared=true) (hf : Fetches evs)
    (hr : SlotRun evs (World.slots w) (World.slots w')) (ha : AheadFrom w evs w')
    (hout : ∀ e,out=some e → (e∈World.ahead w ∨ SlotEvent.taken e∈evs) ∧ e∉World.ahead w') :
    Acted D leaks gives out w w' := by
  refine ⟨fun cmd hc => (hh.commands cmd hc).imp_right (hnew cmd),evs,?_,⟨hh.inv h hr,hr⟩,ha,hout⟩
  cases out with
  | none => exact .fetched hf
  | some e => exact .handed e hf

/-- What was dropped does not matter. -/
theorem Acted.drop {out : Option Entity} (h : Acted D leaks gives out w w')
    (drops : List (StorageType×V)) : Acted D leaks gives out w { w' with dropped := drops } := by
  obtain ⟨hc,evs,he,⟨hi,hr⟩,ha,ho⟩ := h
  exact ⟨hc,evs,he,⟨⟨StoreInv.congr hi.store rfl rfl,hi.queries.congr rfl rfl rfl⟩,hr⟩,ha,ho⟩

end Effects

section WorldCalls

theorem mapFault_bind {α β : Type} (g : Fault → Fault) (x : Call V α) (f : α → β) :
    (do let a ← mapFault g x; return f a : Call V β)=mapFault g (do let a ← x; return f a) := by
  funext w
  cases hx : x w with
  | mk r t => cases r with
    | ok a =>
      have hm : mapFault g x w=(.ok a,t) := by
        unfold mapFault
        rw [hx]
      rw [bind_ok hm]
      unfold mapFault
      rw [bind_ok hx]
      rfl
    | error err =>
      have hm : mapFault g x w=(.error (g err),t) := by
        unfold mapFault
        rw [hx]
      rw [bind_error hm]
      unfold mapFault
      rw [bind_error hx]

variable [Inhabited V]

/-- The raising form of a call renames the fault of the returning one. -/
theorem WorldCall.perform_raising (c : WorldCall V) :
    ∃ g,c.perform .raising=mapFault g (c.perform .returning) := by
  cases c <;> exact ⟨_,mapFault_bind _ _ _⟩

/-- A fact about both exits that does not look at the fault holds in both forms. -/
theorem WorldCall.wp_form {c : WorldCall V} {Q : Outcome V → World V → Prop} {E : World V → Prop}
    (h : wp (c.perform .returning) Q (fun _ w' => E w') w) (form : CallForm) :
    wp (c.perform form) Q (fun _ w' => E w') w := by
  cases form with
  | returning => exact h
  | raising =>
    obtain ⟨g,hg⟩ := WorldCall.perform_raising c
    rw [hg,wp_mapFault]
    exact h

/-- A create that takes a slot for a row that is not admitted. -/
def Leaky (w : World V) (T : TArchetype) : Prop :=
  w.entityAllocator.slotAvailable=true ∧ ¬Admits w T

omit [Inhabited V] in
/-- A call that loses a handle when it fails. -/
def WorldCall.leaks (w : World V) : WorldCall V → Prop
  | .create val => Leaky w val.ty
  | _ => False

/-- A call of the world leaves it in order. Only a failing create loses a handle. -/
theorem WorldCall.acted (c : WorldCall V) (form : CallForm) (h : WorldInv D w)
    (hD : D → ∀ T∈c.ty,T.isDeclared=true) :
    wp (c.perform form) (fun out w' => Acted D False (fun _ => False) out.issued w w')
      (fun _ w' => Acted D (WorldCall.leaks w c) (fun _ => False) none w w') w := by
  refine WorldCall.wp_form ?_ form
  cases c with
  | registerArchetype T cfg =>
    refine wp_bind.mpr (wp_mono (acted_registers h (tryRegisterArchetype_registers h.store.registry
      (fun hd => hD hd T rfl) cfg)) (fun _ _ ha => ha) (fun _ _ ha => ha.mono False.elim fun _ => id))
  | registerSingleton T =>
    refine wp_bind.mpr (wp_mono (acted_registers h (tryRegisterSingleton_registers h.store.registry
      (fun hd => hD hd T rfl))) (fun _ _ ha => ha) (fun _ _ ha => ha.mono False.elim fun _ => id))
  | create val =>
    refine wp_bind.mpr (wp_intro ?_ ?_)
    · intro e w' hrun
      obtain ⟨hi,a,ht,hs,hc⟩ := wp_of_ok (tryCreate_spec h.store fun hd => hD hd _ rfl) hrun
      exact acted_created h ht hs hc hi
    · intro err w' hrun
      by_cases hl : Leaky w val.ty
      · rcases wp_of_error (tryCreate_spec h.store fun hd => hD hd _ rfl) hrun with
          ⟨hi,hr | ⟨e,a,ht,hs,hr⟩⟩
        · exact acted_refused h hr hi
        · have htaken := StoreInv.taken h.store ht hs
          have he : Evolves w w' := (evolves_setSlots w a).trans hr.evolves
          have hstore := StoreInv.lose (htaken.refused hr hi)
          refine acted_none h he hstore (.leaked e hl)
            (.cons (.taken ht hs (.refl _)) (.single ?_))
          rw [hr.entityAllocator]
          exact .lost (.refl _)
      · obtain ⟨hi,hr⟩ := tryCreate_err_refused h.store (fun hd => hD hd _ rfl) hl hrun
        exact acted_refused h hr hi
  | createSingleton val =>
    refine wp_bind.mpr (wp_mono (tryCreateSingleton_spec h.store (fun hd => hD hd _ rfl)) ?_ ?_)
    · rintro e w' ⟨hi,a,ht,hs,hc⟩
      exact acted_created h ht hs hc hi
    · rintro err w' ⟨hi,hr | ⟨e,a,slot,ht,hs,hslot,hr⟩⟩
      · exact acted_refused h hr hi
      · have hback := StoreInv.release (StoreInv.taken h.store ht hs) hslot
        have he : Evolves w w' := (evolves_setSlots w (eraseSlot a e.idx slot)).trans hr.evolves
        refine acted_none h he (hback.refused hr hi) (.undone e)
          (.cons (.taken ht hs (.refl _)) (.single ?_))
        rw [hr.entityAllocator]
        exact .released hslot (.refl _)
  | destroy e =>
    refine wp_bind.mpr ?_
    cases hl : w.entityAllocator.locate e with
    | none =>
      unfold wp
      rw [tryDestroy_missing hl]
      exact acted_moved h (Evolves.refl w) h.store (SameSlots.refl _)
    | some l =>
      obtain ⟨w',hrun,hi,hev,he,-⟩ := tryDestroy_found h.store hl
      unfold wp
      rw [hrun]
      exact acted_none h hev hi (.erased e) (.single (.erased he (.refl _)))
  | addComponent e val =>
    refine wp_bind.mpr (wp_mono (tryAddComponent_spec h.store (fun hd => hD hd _ rfl)) ?_ ?_)
    · rintro - w' ⟨hi,⟨hsame,hev,-⟩,-⟩
      exact acted_moved h hev hi hsame
    · rintro err w' ⟨hi,hr⟩
      exact acted_refused h hr hi
  | mergeComponent e val =>
    refine wp_bind.mpr (wp_mono (tryMergeComponent_spec h.store (fun hd => hD hd _ rfl)) ?_ ?_)
    · rintro - w' ⟨hi,⟨hsame,hev,-⟩⟩
      exact acted_moved h hev hi hsame
    · rintro err w' ⟨hi,hr⟩
      exact acted_refused h hr hi
  | removeComponent T e =>
    refine wp_bind.mpr (wp_mono (tryRemoveComponent_spec h.store (fun hd => hD hd _ rfl)) ?_ ?_)
    · rintro b w' ⟨hi,⟨hsame,hev,-⟩,-⟩
      exact acted_moved h hev hi hsame
    · rintro err w' ⟨hi,hr⟩
      exact acted_refused h hr hi

end WorldCalls

section Commands

variable {thread : ℕ} {leaks : Prop} {gives : Entity → Prop}

/-- Warming up changes the workers by one that holds nothing. -/
theorem warmUp_held (h : WorldInv D w) (thread : ℕ) : ∃ w',warmUp thread w=(.ok (),w') ∧
    HasWorker thread w' ∧ Held [] w w' ∧ Stepped D [.moved] w w' ∧
      World.ahead w'=World.ahead w := by
  obtain ⟨w',hrun,⟨ws,rfl⟩,hr,ha,hc,hw⟩ := warmUp_spec thread w
  have hheld : Held [] w { w with workerSpecs := ws } :=
    ⟨⟨ws,_,rfl⟩,rfl,fun cmd hm => .inl (hc ▸ hm)⟩
  have hslots : SlotRun [.moved] (World.slots w) (World.slots { w with workerSpecs := ws }) :=
    slotRun_moved (SameSlots.refl _) (.of_eq hr.symm)
  exact ⟨_,hrun,hw,hheld,⟨hheld.inv h hslots,hslots⟩,ha⟩

/-- Queueing a command that attaches no handle leaves the world in order. -/
theorem pushed_acted (h : WorldInv D w) (cmd : CmdBuffer V) (hp : CmdBuffer.pending cmd=none)
    (hD : D → ∀ T∈CmdBuffer.ty cmd,T.isDeclared=true) :
    ∃ w₁ w',warmUp thread w=(.ok (),w₁) ∧ pushCmd thread cmd w₁=(.ok (),w') ∧
      Acted D leaks gives none w w' := by
  obtain ⟨w₁,hrun₁,hw₁,hh₁,hs₁,ha₁⟩ := warmUp_held h thread
  obtain ⟨w₂,hrun₂,hh₂,hsame,hperm,ha₂⟩ := pushCmd_spec hw₁ hp
  refine ⟨w₁,w₂,hrun₁,hrun₂,acted_held h
    (hh₁.trans hh₂) ?_ (fetches_moved.append fetches_moved) (hs₁.run.append (slotRun_moved ?_ hperm)) ?_
    (fun _ he => nomatch he)⟩
  · intro c hc
    rw [List.mem_singleton] at hc
    subst hc
    exact hD
  · rw [hsame]
    exact SameSlots.refl _
  · intro f hf
    rcases ha₂ [] f hf with hf | hf
    · exact .inl (ha₁ ▸ hf)
    · cases hf

/-- Queueing a create hands out a handle the thread allocated ahead. -/
theorem queuedCreate_acted (h : WorldInv D w) (val : Bundle V) (hD : D → val.ty.isDeclared=true) :
    wp (do
        warmUp thread
        let e ← takePreAllocated thread
        pushCmd thread (.create thread e val)
        return e : Call V Entity) (fun e w' => Acted D leaks gives (some e) w w')
      (fun _ w' => Acted D leaks gives none w w') w := by
  obtain ⟨w₁,hrun₁,hw₁,hh₁,hs₁,ha₁⟩ := warmUp_held h thread
  unfold wp
  rw [bind_ok hrun₁]
  change wp _ _ _ w₁
  rw [wp_bind]
  refine wp_mono (takePreAllocated_spec hs₁.inv hw₁) ?_ ?_
  · intro e w₂ hhand
    obtain ⟨w₃,evs,hrun₃,hh₃,hf,hr,he,ha₃,hpend⟩ := pushCreate_spec hhand
    unfold wp
    rw [bind_ok hrun₃]
    have hrun := hs₁.run.append hr
    refine acted_held h (hh₁.trans hh₃) ?_ (fetches_moved.append hf) hrun ?_ ?_
    · intro c hc hd T hT
      rw [List.mem_singleton] at hc
      subst hc
      cases hT
      exact hD hd
    · intro f hf
      rcases ha₃ f hf with hf | hf
      · exact .inl (ha₁ ▸ hf)
      · exact .inr (List.mem_append_right _ hf)
    · rintro e' he'
      cases he'
      refine ⟨?_,fun hm => ?_⟩
      · rcases he with he | he
        · exact .inl (ha₁ ▸ he)
        · exact .inr (List.mem_append_right _ he)
      · have hn := (((hh₁.trans hh₃).inv h hrun).store.slots.perm (reserved_split w₃)).reserved_nodup
        rw [List.map_append] at hn
        exact (List.nodup_append.mp hn).2.2 _ (List.mem_map_of_mem hm) _
          (List.mem_map_of_mem hpend) rfl
  · rintro err w₂ ⟨hh₂,evs,hf,hr,ha₂⟩
    refine acted_held h (hh₁.trans hh₂) (fun _ hc => nomatch hc) (fetches_moved.append hf)
      (hs₁.run.append hr) ?_ (fun _ he => nomatch he)
    intro f hf
    rcases ha₂ f hf with hf | hf
    · exact .inl (ha₁ ▸ hf)
    · exact .inr (List.mem_append_right _ hf)

/-- A list of events may start from the handles in another order. -/
theorem slotRun_perm {ev : SlotEvent} {evs : List SlotEvent} {a : EntityAllocator}
    {r r' : List Entity} {t : Slots} (h : SlotRun (ev::evs) ⟨a,r⟩ t) (hp : r'.Perm r) :
    SlotRun (ev::evs) ⟨a,r'⟩ t := by
  cases h with
  | cons hs hr =>
    refine .cons ?_ hr
    cases hs with
    | moved hs hm => exact .moved hs (hp.trans hm)
    | taken ht hi hm => exact .taken ht hi (hm.trans (hp.symm.cons _))
    | attached l hm => exact .attached l (hp.trans hm)
    | lost hm => exact .lost (hp.trans hm)
    | released hs hm => exact .released hs (hp.trans hm)
    | erased he hm => exact .erased he (hp.trans hm)

/-- What an action did after a command without a handle was taken off its queue. -/
theorem Acted.popped {i : ℕ} {cmd : CmdBuffer V} (hf : World.front w i=some cmd)
    (hn : CmdBuffer.pending cmd=none) (h : Acted D leaks gives none (World.popped w i) w') :
    Acted D leaks gives none w w' := by
  obtain ⟨-,hperm,ha,hheld,hsame,-⟩ := popCmd_front hf
  rw [hn] at hperm
  obtain ⟨hc,evs,he,⟨hi,hr⟩,haf,-⟩ := h
  have hcmds : ∀ cmd∈World.commands w',cmd∈World.commands w ∨
      (D → ∀ T∈CmdBuffer.ty cmd,T.isDeclared=true) := by
    intro c hm
    rcases hc c hm with hm | hm
    · exact (hheld.commands c hm).imp_right fun hm => nomatch hm
    · exact .inr hm
  have hahead : AheadFrom w evs w' := by
    intro f hm
    rcases haf f hm with hm | hm
    · rcases ha [] f hm with hm | hm
      · exact .inl hm
      · cases hm
    · exact .inr hm
  have hslots : World.slots (World.popped w i)=
      ⟨w.entityAllocator,World.reserved (World.popped w i)⟩ := by
    rw [World.slots,hsame]
  rw [hslots] at hr
  cases he with
  | fetched hfe =>
    refine ⟨hcmds,.moved::evs,.fetched (fetches_moved.append hfe),⟨hi,.cons ?_ hr⟩,?_,
      fun _ h => nomatch h⟩
    · exact .moved (SameSlots.refl _) hperm
    · exact fun f hm => (hahead f hm).imp_right (List.mem_cons_of_mem _)
  | leaked e hl => exact ⟨hcmds,_,.leaked e hl,⟨hi,slotRun_perm hr hperm⟩,hahead,fun _ h => nomatch h⟩
  | undone e => exact ⟨hcmds,_,.undone e,⟨hi,slotRun_perm hr hperm⟩,hahead,fun _ h => nomatch h⟩
  | erased e => exact ⟨hcmds,_,.erased e,⟨hi,slotRun_perm hr hperm⟩,hahead,fun _ h => nomatch h⟩
  | attached e => exact ⟨hcmds,_,.attached e,⟨hi,slotRun_perm hr hperm⟩,hahead,fun _ h => nomatch h⟩
  | released e hg =>
    exact ⟨hcmds,_,.released e hg,⟨hi,slotRun_perm hr hperm⟩,hahead,fun _ h => nomatch h⟩
  | lost e hl => exact ⟨hcmds,_,.lost e hl,⟨hi,slotRun_perm hr hperm⟩,hahead,fun _ h => nomatch h⟩

/-- A command without a handle is taken off its queue. -/
theorem WorldInv.popped {i : ℕ} {cmd : CmdBuffer V} (h : WorldInv D w)
    (hf : World.front w i=some cmd) (hn : CmdBuffer.pending cmd=none) :
    WorldInv D (World.popped w i) := by
  obtain ⟨-,hperm,-,hheld,hsame,-⟩ := popCmd_front hf
  rw [hn] at hperm
  refine hheld.inv h (slotRun_moved ?_ hperm)
  rw [hsame]
  exact SameSlots.refl _

/-- The world a queued create runs in still reserves its handle. -/
theorem StoreInv.popped_create {i : ℕ} {e : Entity} {val : Bundle V} (h : WorldInv D w)
    (hf : World.front w i=some (.create thread e val)) :
    StoreInv D (e::World.reserved (World.popped w i)) (World.popped w i) := by
  obtain ⟨-,hperm,-,hheld,hsame,-⟩ := popCmd_front hf
  have hperm' : (World.reserved w).Perm (e::World.reserved (World.popped w i)) := hperm
  exact StoreInv.congr (StoreInv.perm h.store hperm') hheld.registry hsame

variable [Inhabited V]

theorem CmdCall.perform_raising (thread : ℕ) (c : CmdCall V) :
    ∃ g,c.perform thread .raising=mapFault g (c.perform thread .returning) := by
  cases c <;> exact ⟨_,mapFault_bind _ _ _⟩

theorem CmdCall.wp_form {c : CmdCall V} {Q : Outcome V → World V → Prop} {E : World V → Prop}
    (h : wp (c.perform thread .returning) Q (fun _ w' => E w') w) (form : CallForm) :
    wp (c.perform thread form) Q (fun _ w' => E w') w := by
  cases form with
  | returning => exact h
  | raising =>
    obtain ⟨g,hg⟩ := CmdCall.perform_raising thread c
    rw [hg,wp_mapFault]
    exact h

/-- Outside of a parallel step a command goes to the world at once. -/
theorem CmdCall.perform_direct (c : CmdCall V) (hp : w.inParallelCompute=false) :
    c.perform thread .returning w=c.direct.perform .returning w := by
  have hcond : (!w.inParallelCompute)=true := by rw [hp]; rfl
  have hbind : ∀ {α β : Type} {x y : Call V α} (f : α → Call V β),x w=y w → (x >>= f) w=(y >>= f) w := by
    intro α β x y f hxy
    cases hx : x w with
    | mk r t => cases r with
      | ok a => rw [bind_ok hx,bind_ok (hxy ▸ hx)]
      | error err => rw [bind_error hx,bind_error (hxy ▸ hx)]
  cases c with
  | create val => exact hbind _ (by unfold Cmd.tryCreate; rw [getState_bind,if_pos hcond])
  | addComponent e val => exact hbind _ (by unfold Cmd.tryAddComponent; rw [getState_bind,if_pos hcond])
  | mergeComponent e val => exact hbind _ (by unfold Cmd.tryMergeComponent; rw [getState_bind,if_pos hcond])
  | destroy e => exact hbind _ (by unfold Cmd.tryDestroy; rw [getState_bind,if_pos hcond])
  | removeComponent T e =>
    have hcmd : Cmd.tryRemoveComponent thread T e w=(do
        let b ← WorldCalls.tryRemoveComponent T e
        return some b) w := by
      unfold Cmd.tryRemoveComponent
      rw [getState_bind,if_pos hcond]
    change (Cmd.tryRemoveComponent thread T e >>= _) w=(WorldCalls.tryRemoveComponent T e >>= _) w
    cases hx : WorldCalls.tryRemoveComponent T e w with
    | mk r t => cases r with
      | ok b =>
        rw [bind_ok hx]
        rw [bind_ok hx] at hcmd
        rw [bind_ok hcmd]
      | error err =>
        rw [bind_error hx]
        rw [bind_error hx] at hcmd
        rw [bind_error hcmd]

/-- A command leaves the world in order, whether it runs or is queued. Only a
create that runs loses a handle when it fails. -/
theorem CmdCall.acted (c : CmdCall V) (thread : ℕ) (form : CallForm) (h : WorldInv D w)
    (hD : D → ∀ T∈c.ty,T.isDeclared=true) :
    wp (c.perform thread form) (fun out w' => Acted D False (fun _ => False) out.issued w w')
      (fun _ w' => Acted D (w.inParallelCompute=false ∧ WorldCall.leaks w c.direct) (fun _ => False)
        none w w') w := by
  refine CmdCall.wp_form ?_ form
  cases hp : w.inParallelCompute with
  | false =>
    unfold wp
    rw [CmdCall.perform_direct c hp]
    refine wp_mono (WorldCall.acted c.direct .returning h ?_) (fun _ _ ha => ha) ?_
    · intro hd T hT
      refine hD hd T ?_
      cases c <;> exact hT
    · exact fun _ _ ha => ha.mono (fun hl => ⟨rfl,hl⟩) fun _ => id
  | true =>
    have hcond : ¬((!w.inParallelCompute)=true) := by rw [hp]; exact Bool.false_ne_true
    have hpush : ∀ {cmd : CmdBuffer V} {val : Bundle V},CmdBuffer.pending cmd=none →
        (D → ∀ T∈CmdBuffer.ty cmd,T.isDeclared=true) →
        wp (consuming val (do warmUp thread; pushCmd thread cmd : Call V Unit))
          (fun _ w' => Acted D False (fun _ => False) none w w') (fun _ w' => Acted D
            (true=false ∧ WorldCall.leaks w c.direct) (fun _ => False) none w w') w := by
      intro cmd val hn hd
      obtain ⟨w₁,w',hrun₁,hrun₂,ha⟩ := pushed_acted h _ hn hd
      rw [consuming,wp_onFault]
      unfold wp
      rw [bind_ok hrun₁,hrun₂]
      exact ha
    cases c with
    | create val =>
      refine wp_bind.mpr ?_
      unfold Cmd.tryCreate wp
      rw [getState_bind,if_neg hcond]
      change wp (consuming val _) _ _ w
      rw [consuming,wp_onFault]
      exact wp_mono (queuedCreate_acted h val (fun hd => hD hd _ rfl)) (fun _ _ ha => ha)
        (fun _ _ ha => (ha.mono False.elim fun _ => id).drop _)
    | addComponent e val =>
      refine wp_bind.mpr ?_
      unfold Cmd.tryAddComponent wp
      rw [getState_bind,if_neg hcond]
      exact hpush rfl hD
    | mergeComponent e val =>
      refine wp_bind.mpr ?_
      unfold Cmd.tryMergeComponent wp
      rw [getState_bind,if_neg hcond]
      exact hpush rfl hD
    | removeComponent T e =>
      obtain ⟨w₁,w',hrun₁,hrun₂,ha⟩ := pushed_acted h
        (.removeComponent thread T e) rfl hD
      refine wp_bind.mpr ?_
      unfold Cmd.tryRemoveComponent wp
      rw [getState_bind,if_neg hcond,bind_ok hrun₁,bind_ok hrun₂]
      exact ha
    | destroy e =>
      obtain ⟨w₁,w',hrun₁,hrun₂,ha⟩ := pushed_acted h (.destroy thread e) rfl hD
      refine wp_bind.mpr ?_
      unfold Cmd.tryDestroy wp
      rw [getState_bind,if_neg hcond,bind_ok hrun₁,hrun₂]
      exact ha

/-- A queued create attaches its handle, gives it back or loses it. -/
theorem runCreate_acted {i : ℕ} {e : Entity} {val : Bundle V} (h : WorldInv D w)
    (hf : World.front w i=some (.create thread e val)) (hD : D → val.ty.isDeclared=true) :
    wp (CmdBuffer.run (.create thread e val))
      (fun _ w' => Acted D False (fun _ => False) none w w')
      (fun _ w' => Acted D (¬Admits w val.ty) (fun e' => e'=e ∧
        ∃ err,(createComponentsFor e val (World.popped w i)).1=.error (.err err)) none w w')
      (World.popped w i) := by
  obtain ⟨hrun,hperm,ha,hheld,hsame,-⟩ := popCmd_front hf
  let w₀ := World.popped w i
  have hperm' : (World.reserved w).Perm (e::World.reserved w₀) := hperm
  have hstore : StoreInv D (e::World.reserved w₀) w₀ := StoreInv.popped_create h hf
  have hquery : QueryInv w₀ := hheld.queries h.queries
  have hacted : ∀ {leaks : Prop} {gives : Entity → Prop} {ev : SlotEvent} {w' : World V},
      Evolves w₀ w' → StoreInv D (World.reserved w₀) w' → Effect leaks gives none [ev] →
      SlotEvent.Step ev (World.slots w) ⟨w'.entityAllocator,World.reserved w₀⟩ →
      Acted D leaks gives none w w' := by
    intro leaks gives ev w' hev hs he hr
    have hres := WorkerQueues.Evolves.reserved hev
    refine ⟨fun cmd hc => ?_,[ev],he,⟨⟨?_,hquery.evolve hev⟩,.single ?_⟩,fun f hm => ?_,
      fun _ h => nomatch h⟩
    · rw [World.commands,WorkerQueues.Evolves.workerSpecs hev] at hc
      exact (hheld.commands cmd hc).imp_right fun hn => nomatch hn
    · rw [hres]
      exact hs
    · change SlotEvent.Step ev (World.slots w) ⟨w'.entityAllocator,World.reserved w'⟩
      rw [hres]
      exact hr
    · rw [Evolves.ahead hev] at hm
      exact ha _ f hm
  change wp (onErr (createComponentsFor e val) (eraseAndRaise thread e)) _ _ w₀
  rw [onErr,wp_handle]
  apply wp_intro
  · intro _ w' hok
    obtain ⟨hs,l,d,hatt,hev,-,-⟩ := wp_of_ok (createComponentsFor_spec hstore hD) hok
    refine hacted hev hs (.attached e) ?_
    rw [hatt,show w₀.entityAllocator=w.entityAllocator from hsame]
    exact .attached l hperm'
  · intro err w₁ herr
    obtain ⟨hi,hr⟩ := wp_of_error (createComponentsFor_spec hstore hD) herr
    have hkept := hstore.refused hr hi
    have hadm : ¬Admits w val.ty := by
      intro ha
      obtain ⟨w₂,hok⟩ := createComponentsFor_admitted hstore hD (admits_congr hheld.registry ha)
      rw [herr] at hok
      cases hok
    have hlost : Acted D (¬Admits w val.ty) (fun e' => e'=e ∧
        ∃ err,(createComponentsFor e val w₀).1=.error (.err err)) none w w₁ := by
      refine hacted hr.evolves (StoreInv.lose hkept) (.lost e hadm) ?_
      rw [hr.entityAllocator,show w₀.entityAllocator=w.entityAllocator from hsame]
      exact .lost hperm'
    cases err with
    | err x =>
      obtain ⟨-,slot,hslot,-⟩ := hkept.slots.reserved_slot e List.mem_cons_self
      have herase := onAllocator_eq (w:=w₁) (eraseEntity_eq hslot)
      change wp (eraseAndRaise thread e x) _ _ w₁
      unfold eraseAndRaise wp
      rw [bind_ok herase]
      refine hacted (hr.evolves.trans (evolves_setSlots _ _)) (StoreInv.release hkept hslot)
        (.released e ⟨rfl,x,by rw [herr]⟩) ?_
      have hal : w₁.entityAllocator=w.entityAllocator := hr.entityAllocator.trans hsame
      change SlotEvent.Step (.released e) (World.slots w)
        ⟨eraseSlot w₁.entityAllocator e.idx slot,World.reserved w₀⟩
      rw [hal] at hslot ⊢
      exact .released hslot hperm'
    | panic p => exact hlost
    | undefinedBehaviour => exact hlost

/-- A queued command other than a create is what it would have been as a call,
unless it is a destroy whose entity does not exist. -/
theorem runOther_acted {i : ℕ} {cmd : CmdBuffer V} (h : WorldInv D w)
    (hf : World.front w i=some cmd) (hn : CmdBuffer.pending cmd=none)
    (hD : D → ∀ T∈CmdBuffer.ty cmd,T.isDeclared=true)
    (hlive : ∀ thread e,cmd=.destroy thread e → World.entityExists w e=true) :
    wp (CmdBuffer.run cmd) (fun _ w' => Acted D False (fun _ => False) none w w')
      (fun _ w' => Acted D False (fun _ => False) none w w') (World.popped w i) := by
  obtain ⟨-,-,-,-,hsame,-⟩ := popCmd_front hf
  have h₀ := WorldInv.popped h hf hn
  have hback : ∀ {w'},Acted D False (fun _ => False) none (World.popped w i) w' →
      Acted D False (fun _ => False) none w w' := fun ha => ha.popped hf hn
  cases cmd with
  | create thread e val => cases hn
  | addComponent thread e val =>
    change wp (raiseAs _ (WorldCalls.tryAddComponent e val)) _ _ _
    rw [raiseAs,wp_mapFault]
    have ha := wp_bind.mp (WorldCall.acted (.addComponent e val) .returning h₀ hD)
    exact wp_mono ha (fun _ _ ha => hback ha) fun _ _ ha => hback ha
  | mergeComponent thread e val =>
    change wp (raiseAs _ (WorldCalls.tryMergeComponent e val)) _ _ _
    rw [raiseAs,wp_mapFault]
    have ha := wp_bind.mp (WorldCall.acted (.mergeComponent e val) .returning h₀ hD)
    exact wp_mono ha (fun _ _ ha => hback ha) fun _ _ ha => hback ha
  | removeComponent thread T e =>
    change wp (raiseAs _ _) _ _ _
    rw [raiseAs,wp_mapFault,wp_bind]
    have ha := wp_bind.mp (WorldCall.acted (.removeComponent T e) .returning h₀ hD)
    exact wp_mono ha (fun b _ ha => hback (Acted.drop ha _)) fun _ _ ha => hback ha
  | destroy thread e =>
    have hex := hlive thread e rfl
    rw [World.entityExists,entityExists_eq,←hsame] at hex
    obtain ⟨l,hl⟩ := Option.isSome_iff_exists.mp hex
    obtain ⟨w',hrun,hi,hev,he,-⟩ := tryDestroy_found h₀.store hl
    change wp (onErr (WorldCalls.tryDestroy e) (eraseAndRaise thread e)) _ _ _
    rw [onErr,wp_handle]
    unfold wp
    rw [hrun]
    exact hback (acted_none h₀ hev hi (.erased e) (.single (.erased he (.refl _))))

/-- One turn of a sync point. -/
theorem applyCmd_acted {i : ℕ} (h : WorldInv D w)
    (hq : D → ∀ cmd∈World.commands w,∀ T∈CmdBuffer.ty cmd,T.isDeclared=true)
    (hlive : ∀ thread e,World.front w i=some (.destroy thread e) → World.entityExists w e=true) :
    wp (applyCmd i) (fun _ w' => Acted D False (fun _ => False) none w w')
      (fun _ w' => Acted D (∃ thread e val,World.front w i=some (.create thread e val) ∧
          ¬Admits w val.ty) (fun e => ∃ thread val err,
        World.front w i=some (.create thread e val) ∧
          (createComponentsFor e val (World.popped w i)).1=.error (.err err)) none w w') w := by
  unfold applyCmd
  cases hf : World.front w i with
  | none =>
    have hsame : ∀ {leaks : Prop} {gives : Entity → Prop},Acted D leaks gives none w w :=
      acted_moved h (Evolves.refl w) h.store (SameSlots.refl _)
    rcases popCmd_noFront hf with hrun | hrun
    · unfold wp
      rw [bind_ok hrun]
      exact hsame
    · unfold wp
      rw [bind_error hrun]
      exact hsame
  | some cmd =>
    obtain ⟨hrun,-,-,-,-,hmem⟩ := popCmd_front hf
    have hD : D → ∀ T∈CmdBuffer.ty cmd,T.isDeclared=true := fun hd => hq hd cmd hmem
    unfold wp
    rw [bind_ok hrun]
    change wp (CmdBuffer.run cmd >>= fun _ => _) _ _ (World.popped w i)
    rw [wp_bind]
    cases hn : CmdBuffer.pending cmd with
    | none =>
      refine wp_mono (runOther_acted h hf hn hD fun thread e hc => hlive thread e (hc ▸ hf))
        (fun _ _ ha => ha) (fun _ _ ha => ha.mono False.elim fun _ => False.elim)
    | some e =>
      cases cmd with
      | create thread e' val =>
        refine wp_mono (runCreate_acted h hf fun hd => hD hd _ rfl) (fun _ _ ha => ha)
          (fun _ _ ha => ha.mono (fun hl => ⟨thread,e',val,rfl,hl⟩) ?_)
        rintro e'' ⟨rfl,err,herr⟩
        exact ⟨thread,val,err,rfl,herr⟩
      | _ => cases hn

end Commands

section Actions

/-- An action that loses a handle: a create that takes a slot for a row that is not
admitted. -/
def Action.leaks (w : World V) : Action V → Prop
  | .world _ c => WorldCall.leaks w c
  | .cmd _ _ c => w.inParallelCompute=false ∧ WorldCall.leaks w c.direct
  | .applyCmd i => ∃ thread e val,World.front w i=some (.create thread e val) ∧ ¬Admits w val.ty
  | _ => False

/-- An action that gives back a handle a queued create was refused with. -/
def Action.gives [Inhabited V] (w : World V) : Action V → Entity → Prop
  | .applyCmd i,e => ∃ thread val err,World.front w i=some (.create thread e val) ∧
      (createComponentsFor e val (World.popped w i)).1=.error (.err err)
  | _,_ => False

/-- A queued destroy is applied to an entity that exists. -/
def Action.Applies (w : World V) : Action V → Prop
  | .applyCmd i => ∀ thread e,World.front w i=some (.destroy thread e) →
      World.entityExists w e=true
  | _ => True

variable {leaks : Prop} {gives : Entity → Prop}

/-- The world is in order, and every queued command names declared components. -/
structure RunInv (D : Prop) (w : World V) : Prop where
  /-- The stored part of the world. -/
  inv : WorldInv D w
  /-- Queued commands name declared components, where all components are to be declared. -/
  queued : D → ∀ cmd∈World.commands w,∀ T∈CmdBuffer.ty cmd,T.isDeclared=true

theorem runInv_new (D : Prop) (runtime : Runtime) : RunInv D (World.new runtime : World V) where
  inv := worldInv_new D runtime
  queued := by
    rintro - cmd ⟨⟩

/-- Neither workers nor slots changed. -/
theorem acted_quiet (hi : WorldInv D w') (hw : w'.workerSpecs=w.workerSpecs)
    (ha : w'.entityAllocator=w.entityAllocator) : Acted D leaks gives none w w' := by
  refine ⟨fun cmd hc => .inl ?_,[.moved],.fetched fetches_moved,⟨hi,slotRun_moved ?_ ?_⟩,
    aheadFrom_congr ?_ _,fun _ h => nomatch h⟩
  · rw [World.commands,hw] at hc
    exact hc
  · rw [ha]
    exact SameSlots.refl _
  · rw [reserved_congr hw]
  · rw [World.ahead,World.ahead,hw]

/-- Preparing a query does not concern workers and slots. -/
theorem acted_queried {w₁ : World V} (h : WorldInv D w₁) (hq : Queried D w₁ w')
    (hw : w₁.workerSpecs=w.workerSpecs) (ha : w₁.entityAllocator=w.entityAllocator) :
    Acted D leaks gives none w w' := by
  have hs : StoreInv D (World.reserved w₁) w' := StoreInv.queried h.store hq
  have hi := hq.queries
  obtain ⟨specs,qc,rfl⟩ := hq.others
  exact acted_quiet ⟨hs,hi⟩ hw ha

/-- A change of nothing the invariants are about. -/
theorem WorldInv.congr (h : WorldInv D w) (hr : World.registry w'=World.registry w)
    (hq : w'.queryCounter=w.queryCounter) (hw : w'.workerSpecs=w.workerSpecs)
    (ha : w'.entityAllocator=w.entityAllocator) : WorldInv D w' := by
  refine ⟨?_,h.queries.congr (congrArg Prod.fst hr) (congrArg (fun r => r.2.1) hr) hq⟩
  rw [reserved_congr hw]
  exact StoreInv.congr h.store hr ha

/-- Creating a query moves the tick and prepares its shape. -/
theorem createQuerySince_acted {q : QueryShape Component} {w₁ : World V} (h : WorldInv D w)
    (hD : D → ShapeDeclared q) (lastRunTick : ChangedTick)
    (hr : World.registry w₁=World.registry w) (hq : w₁.queryCounter=w.queryCounter)
    (hw : w₁.workerSpecs=w.workerSpecs) (ha : w₁.entityAllocator=w.entityAllocator) :
    wp (QuerySources.createQuerySince q lastRunTick) (fun _ w' => Acted D leaks gives none w w')
      (fun _ w' => Acted D leaks gives none w w') w₁ := by
  let w₂ : World V := { w₁ with tick := w₁.tick+1 }
  have hrun : WorldCalls.advanceTick w₁=(.ok w₂.tick,w₂) := rfl
  have h₂ : WorldInv D w₂ := WorldInv.congr h hr hq hw ha
  unfold QuerySources.createQuerySince wp
  rw [bind_ok hrun]
  change wp (raiseAs _ (getOrCreateQuerySrcAccess q lastRunTick)) _ _ w₂
  rw [raiseAs,wp_mapFault]
  unfold getOrCreateQuerySrcAccess
  rw [wp_bind]
  refine wp_mono (prepareQuerySrcAccess_spec h₂.store.registry h₂.queries hD) ?_
    (fun _ _ he => acted_queried h₂ he.1 hw ha)
  rintro idx w₃ ⟨hq₃,-⟩
  rw [wp_bind,wp_getState]
  split <;> exact acted_queried h₂ hq₃ hw ha

/-- The outcome and the world of a computation, read off its two exits. -/
theorem acted_of_wp {x : Call V (Outcome V)} {l l' : Prop} {g : Entity → Prop}
    (h : wp x (fun out w' => Acted D False (fun _ => False) out.issued w w')
      (fun _ w' => Acted D l g none w w') w) (hl : l → l') (hg : ∀ e,g e → gives e) :
    Acted D l' gives (match (x w).1 with
      | .ok out => out.issued
      | .error _ => none) w (x w).2 := by
  unfold wp at h
  cases hx : x w with
  | mk r w' => cases r with
    | ok out =>
      rw [hx] at h
      exact h.mono False.elim fun _ => False.elim
    | error f =>
      rw [hx] at h
      exact h.mono hl hg

variable [Inhabited V]

/-- Every action leaves the world in order, and its effect on the slots is one of
those listed. -/
theorem Action.acted (a : Action V) (h : RunInv D w) (hD : D → a.Declared) (ha : Action.Applies w a) :
    Acted D (Action.leaks w a) (Action.gives w a) (a.issued w) w (a.step w) := by
  have hquiet : ∀ {x : Call V (Outcome V)},
      wp x (fun out w' => Acted D False (fun _ => False) out.issued w w')
        (fun _ w' => Acted D False (fun _ => False) none w w') w →
      Acted D (Action.leaks w a) (Action.gives w a) (match (x w).1 with
        | .ok out => out.issued
        | .error _ => none) w (x w).2 :=
    fun hx => acted_of_wp hx False.elim fun _ => False.elim
  cases a with
  | world form c =>
    exact acted_of_wp (WorldCall.acted c form h.inv fun hd T hT => hD hd T hT) id fun _ => False.elim
  | cmd form thread c =>
    exact acted_of_wp (CmdCall.acted c thread form h.inv fun hd T hT => hD hd T hT) id
      fun _ => False.elim
  | applyCmd i =>
    exact acted_of_wp (wp_bind.mpr (applyCmd_acted h.inv h.queued ha)) id fun _ => id
  | setInParallelCompute val =>
    exact acted_quiet (WorldInv.congr h.inv rfl rfl rfl rfl) rfl rfl
  | setExecutor present =>
    exact acted_quiet (WorldInv.congr h.inv rfl rfl rfl rfl) rfl rfl
  | advanceTick =>
    exact acted_quiet (WorldInv.congr h.inv rfl rfl rfl rfl) rfl rfl
  | captureCurrentTick =>
    exact acted_quiet (WorldInv.congr h.inv rfl rfl rfl rfl) rfl rfl
  | createQuery q =>
    refine hquiet (wp_bind.mpr ?_)
    exact createQuerySince_acted h.inv hD w.lastQueryTick
      rfl rfl rfl rfl
  | createQuerySince q lastRunTick =>
    exact hquiet (wp_bind.mpr (createQuerySince_acted h.inv hD lastRunTick rfl rfl rfl rfl))
  | prepareQuery q =>
    exact hquiet (wp_bind.mpr (wp_mono (prepareQuerySrcAccess_spec h.inv.store.registry
      h.inv.queries hD) (fun _ _ hq => acted_queried h.inv hq.1 rfl rfl)
      (fun _ _ hq => acted_queried h.inv hq.1 rfl rfl)))
  | accessScope q =>
    exact hquiet (wp_bind.mpr (wp_mono (onComponents_accessScope h.inv.store.registry
      h.inv.queries hD) (fun _ _ hq => acted_queried h.inv hq.1 rfl rfl)
      (fun _ _ hq => acted_queried h.inv hq.1 rfl rfl)))
  | write l t itemWrite =>
    refine hquiet (wp_bind.mpr (wp_mono (writeItem_spec h.inv.store l t itemWrite) ?_ ?_))
    · rintro - w' ⟨hs,e,-,hal,hev,-⟩
      refine acted_moved h.inv hev hs ?_
      rw [hal]
      exact SameSlots.refl _
    · rintro err w' rfl
      exact acted_moved h.inv (Evolves.refl w') h.inv.store (SameSlots.refl _)

/-- The invariant of runs goes along with every action. -/
theorem Action.runInv (a : Action V) (h : RunInv D w) (hD : D → a.Declared) (ha : Action.Applies w a) :
    RunInv D (a.step w) := by
  obtain ⟨hc,evs,-,hs,-⟩ := Action.acted a h hD ha
  refine ⟨hs.inv,fun hd cmd hm => ?_⟩
  rcases hc cmd hm with hm | hm
  · exact h.queued hd cmd hm
  · exact hm hd

/-- A step of a run: its components come from the macro where that is asked for,
and an applied queued destroy finds its entity. -/
def Proper (D : Prop) (a : Action V) (w : World V) : Prop := (D → a.Declared) ∧ Action.Applies w a

/-- The invariant of runs goes along with a whole run. -/
theorem runInv_run {as : List (Action V)} (h : RunInv D w) (ha : Along Action.step (Proper D) as w) :
    RunInv D (runAll Action.step as w) :=
  ha.invariant (fun a _ hp h => Action.runInv a h hp.1 hp.2) h

end Actions

end XynokEcs.ActionEffects
