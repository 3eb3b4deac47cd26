import XynokEcs.TryOutcomes
import XynokEcs.ValueLedger
import XynokEcs.CommandQueues

/-!
# No run leaves the defined behaviour

Slots, rows, chunks and queues are looked up without a check in many places.
Whatever a run does, such a lookup finds what it looks for: a call ends in a
result, an error or a panic, and so does a queued command. Two things are asked
of the caller: a sync point goes over the workers there are, and a write goes
through an item of a row that is there, a `Mut` where that row keeps a changed tick.
-/

namespace XynokEcs.DefinedBehaviour

open ComponentTypes EntityHandle SequenceValueMap ChunkLayouts FaultingState ChunkRows RowWrites
  ArchetypeStore EntityAllocation SlotInvariants WorldState WorldCalls CommandBuffer
  RegistryInvariants StoreInvariants StoreSteps EdgeOutcomes QueryShapes QueryAccess QuerySources
  ItemWrites StructureChanges SlotEvents WorkerQueues ActionRuns WorldRuns ActionEffects TryOutcomes ValueLedger
  CommandQueues

variable {V α β σ : Type} {D P : Prop} {reserved : List Entity} {w w' : World V} {e : Entity}

section Endings

/-- A computation that ends in a value, an error or a panic. -/
def Defined (x : Faulting σ Fault α) (s : σ) : Prop :=
  wp x (fun _ _ => True) (fun f _ => f≠.undefinedBehaviour) s

theorem Errs.ne {f : Fault} (h : Errs f) : f≠.undefinedBehaviour := by
  obtain ⟨err,rfl⟩ := h
  simp

theorem Panics.ne {f : Fault} (h : Panics f) : f≠.undefinedBehaviour := by
  obtain ⟨p,rfl⟩ := h
  simp

theorem defined_iff {x : Faulting σ Fault α} {s : σ} :
    Defined x s ↔ (x s).1≠.error .undefinedBehaviour := by
  unfold Defined wp
  cases x s with
  | mk r t => cases r <;> simp

theorem PanicsUnless.defined {x : Call V α} (h : PanicsUnless P x w) : Defined x w := by
  refine wp_mono h (fun _ _ _ => trivial) fun f _ hf => ?_
  rcases hf with hf | hf
  · exact Errs.ne hf.2
  · exact Panics.ne hf.2

theorem Defined.bind {x : Faulting σ Fault α} {f : α → Faulting σ Fault β} {s : σ}
    {Q : α → σ → Prop} {E : Fault → σ → Prop} (h : Defined x s) (hx : wp x Q E s)
    (hf : ∀ a t,Q a t → Defined (f a) t) : Defined (x >>= f) s :=
  wp_bind.mpr (wp_mono (wp_and h hx) (fun a t hq => hf a t hq.2) fun _ _ he => he.1)

/-- Handing back something else. -/
theorem Defined.map {x : Faulting σ Fault α} {s : σ} (h : Defined x s) (f : α → β) :
    Defined (do let a ← x; return f a) s := wp_bind.mpr h

theorem Defined.raiseAs {x : Call V α} (h : Defined x w) (p : XynokEcsError → Panic) :
    Defined (raiseAs p x) w := by
  unfold Defined WorldCalls.raiseAs
  rw [wp_mapFault]
  refine wp_mono h (fun _ _ _ => trivial) fun f _ hf => ?_
  cases f with
  | err err => simp
  | panic p => exact hf
  | undefinedBehaviour => exact hf

theorem Defined.consuming {x : Call V α} (h : Defined x w) (val : Bundle V) :
    Defined (consuming val x) w := by
  unfold Defined WorldState.consuming
  rw [wp_onFault]
  exact h

/-- What handles an error has to be defined where the error left the world. -/
theorem Defined.onErr {x : Call V α} {handler : XynokEcsError → Call V α} (h : Defined x w)
    (hh : ∀ err w',x w=(.error (.err err),w') → Defined (handler err) w') :
    Defined (onErr x handler) w := by
  unfold Defined WorldState.onErr
  rw [wp_handle]
  refine wp_intro (fun _ _ _ => trivial) fun f w' hf => ?_
  have hne := wp_of_error h hf
  cases f with
  | err err => exact hh err w' hf
  | panic p => simp
  | undefinedBehaviour => exact absurd rfl hne

end Endings

section Calls

variable [Inhabited V]

/-- A call of the world in either form. -/
theorem perform_defined (h : StoreInv False reserved w) (call : WorldCall V) (form : CallForm) :
    Defined (call.perform form) w := by
  have hret := PanicsUnless.defined (perform_panics h call)
  cases form with
  | returning => exact hret
  | raising =>
    have hraise : ∀ {α : Type} {x : Call V α} {out : α → Outcome V} (p : XynokEcsError → Panic),
        Defined (do let a ← x; return out a) w → Defined (do let a ← raiseAs p x; return out a) w :=
      fun p hx => Defined.map (Defined.raiseAs (wp_bind.mp hx) p) _
    cases call <;> exact hraise _ hret

end Calls

section Handles

/-- The loop that allocates ahead. -/
theorem preAllocateLoop_defined {rest : List Entity} {p : Allocating} {n : ℕ}
    (h : SlotsInv p.allocator (p.dst++rest)) : Defined (preAllocateLoop n) p := by
  induction n generalizing p with
  | zero => trivial
  | succ n ih =>
    unfold Defined preAllocateLoop
    rw [wp_bind,wp_focus (p:=fun s : Allocating => some s.allocator) rfl]
    refine wp_mono (newEntity_outcome h) ?_ fun _ _ he => Errs.ne he.2.1
    intro e a hs
    rw [wp_bind,wp_modifyState]
    refine ih (p:=⟨a,p.dst++[e]⟩) (hs.2.2.perm ?_)
    rw [List.append_assoc]
    exact List.perm_middle.symm

variable {thread i : ℕ} {s : WorkerSpec V}

/-- Allocating a batch for a worker. -/
theorem tryPreAllocateEntities_defined (h : WorldInv D w) (hi : w.workerSpecs.indexOf thread=some i)
    (hs : w.workerSpecs.valueAt i=some s) (amount : ℕ) :
    Defined (tryPreAllocateEntities thread amount) w := by
  obtain ⟨others,hperm,-⟩ := flatMap_setWorker hs s WorkerSpec.reserved
  have hstart : (World.reserved w).Perm
      (s.preAllocatedEntities++(s.cmdBuffer.filterMap CmdBuffer.pending++others)) := by
    refine hperm.trans ?_
    rw [WorkerSpec.reserved,List.append_assoc]
  unfold Defined tryPreAllocateEntities
  rw [wp_focus (t:=⟨w.entityAllocator,s.preAllocatedEntities⟩)
    (by rw [SequenceValueHashMap.get_of_indexOf hi,hs]; rfl)]
  unfold preAllocateEntities
  split
  · simp
  · exact preAllocateLoop_defined (p:=⟨w.entityAllocator,s.preAllocatedEntities⟩)
      (h.store.slots.perm hstart)

/-- The loop of `Cmd::try_create` never turns a third time. -/
theorem takePreAllocated_defined (h : WorldInv D w) (hw : HasWorker thread w) :
    Defined (takePreAllocated thread) w := by
  obtain ⟨i,s,hi,hs⟩ := hw
  unfold takePreAllocated
  cases hp : s.preAllocatedEntities with
  | cons e rest =>
    obtain ⟨w₁,hrun,-⟩ := popPreAllocated_some hi hs hp
    unfold Defined wp
    rw [bind_ok hrun]
    trivial
  | nil =>
    unfold Defined wp
    rw [bind_ok (popPreAllocated_none hi hs hp)]
    change Defined (tryPreAllocateEntities thread preAllocatedEntitiesAmount >>= _) w
    refine Defined.bind (tryPreAllocateEntities_defined h hi hs _)
      (tryPreAllocateEntities_spec h hi hs _) ?_
    intro _ w₁ hw₁
    obtain ⟨new,a,rfl,hpos,-⟩ := hw₁
    obtain ⟨e,rest,rfl⟩ := List.exists_cons_of_length_pos hpos
    let s₁ : WorkerSpec V := { s with preAllocatedEntities := s.preAllocatedEntities++e::rest }
    let w₁ := World.setSlots (World.setWorker w i s₁) a
    have hi₁ : w₁.workerSpecs.indexOf thread=some i :=
      (SequenceValueHashMap.indexOf_modifyAt _ _ _ _).trans hi
    have hs₁ : w₁.workerSpecs.valueAt i=some s₁ := by
      refine (SequenceValueHashMap.valueAt_modifyAt _ _ _ _).trans ?_
      rw [if_pos rfl,hs,Option.map_some]
    have hp₁ : s₁.preAllocatedEntities=e::rest := by
      dsimp only [s₁]
      rw [hp,List.nil_append]
    obtain ⟨w₂,hrun₂,-⟩ := popPreAllocated_some hi₁ hs₁ hp₁
    unfold Defined wp
    rw [bind_ok hrun₂]
    trivial

/-- Queueing a command on a worker that is there. -/
theorem pushCmd_defined (hw : HasWorker thread w) (cmd : CmdBuffer V) :
    Defined (pushCmd thread cmd) w := by
  obtain ⟨i,s,hi,hs⟩ := hw
  have hrun : pushCmd thread cmd w=(.ok (),_) := onWorker_eq hi hs rfl
  unfold Defined wp
  rw [hrun]
  trivial

/-- Queueing a command on the current thread. -/
theorem queued_defined (thread : ℕ) (cmd : CmdBuffer V) :
    Defined (do warmUp thread; pushCmd thread cmd) w := by
  obtain ⟨w₁,hrun,-,-,-,-,hw⟩ := warmUp_spec thread w
  unfold Defined wp
  rw [bind_ok hrun]
  exact pushCmd_defined hw cmd

/-- Queueing a create. -/
theorem queuedCreate_defined (h : WorldInv D w) (thread : ℕ) (val : Bundle V) :
    Defined (do
      warmUp thread
      let e ← takePreAllocated thread
      pushCmd thread (.create thread e val)
      return e) w := by
  obtain ⟨w₁,hrun,hw,-,hs,-⟩ := warmUp_held h thread
  unfold Defined wp
  rw [bind_ok hrun]
  refine Defined.bind (takePreAllocated_defined hs.inv hw) (takePreAllocated_spec hs.inv hw) ?_
  intro e w₂ hhand
  exact Defined.map (pushCmd_defined hhand.worker _) _

end Handles

section Commands

variable [Inhabited V] {i : ℕ}

/-- A command issued on a thread, run at once or queued. -/
theorem cmd_defined (h : WorldInv False w) (c : CmdCall V) (thread : ℕ) (form : CallForm) :
    Defined (c.perform thread form) w := by
  have hret : Defined (c.perform thread .returning) w := by
    cases hp : w.inParallelCompute with
    | false =>
      unfold Defined wp
      rw [CmdCall.perform_direct c hp]
      exact perform_defined h.store c.direct .returning
    | true =>
      have hcond : ¬((!w.inParallelCompute)=true) := by rw [hp]; exact Bool.false_ne_true
      cases c with
      | create val =>
        refine Defined.map ?_ _
        unfold Cmd.tryCreate Defined wp
        rw [getState_bind,if_neg hcond]
        exact Defined.consuming (queuedCreate_defined h thread val) val
      | addComponent e val =>
        refine Defined.map ?_ _
        unfold Cmd.tryAddComponent Defined wp
        rw [getState_bind,if_neg hcond]
        exact Defined.consuming (queued_defined thread _) val
      | mergeComponent e val =>
        refine Defined.map ?_ _
        unfold Cmd.tryMergeComponent Defined wp
        rw [getState_bind,if_neg hcond]
        exact Defined.consuming (queued_defined thread _) val
      | removeComponent T e =>
        obtain ⟨w₁,hrun,-,-,-,-,hw⟩ := warmUp_spec thread w
        refine Defined.map ?_ _
        unfold Cmd.tryRemoveComponent Defined wp
        rw [getState_bind,if_neg hcond,bind_ok hrun]
        exact Defined.map (pushCmd_defined hw (.removeComponent thread T e)) fun _ => none
      | destroy e =>
        refine Defined.map ?_ _
        unfold Cmd.tryDestroy Defined wp
        rw [getState_bind,if_neg hcond]
        exact queued_defined thread _
  cases form with
  | returning => exact hret
  | raising =>
    have hraise : ∀ {α : Type} {x : Call V α} {out : α → Outcome V} (p : XynokEcsError → Panic),
        Defined (do let a ← x; return out a) w → Defined (do let a ← raiseAs p x; return out a) w :=
      fun p hx => Defined.map (Defined.raiseAs (wp_bind.mp hx) p) _
    cases c with
    | removeComponent T e => exact hraise .display hret
    | _ => exact hraise _ hret

/-- A queued create finds the slot of its handle, also when it gives it back. -/
theorem runCreate_defined {thread : ℕ} {val : Bundle V} (h : StoreInv False (e::reserved) w) :
    Defined (CmdBuffer.run (.create thread e val)) w := by
  refine Defined.onErr (PanicsUnless.defined (createComponentsFor_panics h False.elim)) ?_
  intro err w' herr
  obtain ⟨hi,hr⟩ := wp_of_error (createComponentsFor_spec h False.elim) herr
  obtain ⟨-,slot,hslot,-⟩ := (h.refused hr hi).slots.reserved_slot e List.mem_cons_self
  unfold eraseAndRaise Defined wp
  rw [bind_ok (onAllocator_eq (w:=w') (eraseEntity_eq hslot))]
  exact Panics.ne ⟨_,rfl⟩

/-- A queued command that creates nothing. -/
theorem runOther_defined {cmd : CmdBuffer V} (h : StoreInv False reserved w)
    (hn : CmdBuffer.pending cmd=none)
    (hlive : ∀ thread e,cmd=.destroy thread e → World.entityExists w e=true) :
    Defined (CmdBuffer.run cmd) w := by
  have hcall : ∀ call : WorldCall V,Defined (call.perform .returning) w :=
    fun call => perform_defined h call .returning
  cases cmd with
  | create thread e val => cases hn
  | addComponent thread e val =>
    exact Defined.raiseAs (wp_bind.mp (hcall (.addComponent e val))) _
  | mergeComponent thread e val =>
    exact Defined.raiseAs (wp_bind.mp (hcall (.mergeComponent e val))) _
  | removeComponent thread T e =>
    have hrem : Defined (WorldCalls.tryRemoveComponent T e) w :=
      wp_bind.mp (hcall (.removeComponent T e))
    refine Defined.raiseAs (wp_bind.mpr (wp_mono hrem ?_ fun _ _ he => he)) _
    intro b w' _
    exact wp_modifyState.mpr trivial
  | destroy thread e =>
    have hex := hlive thread e rfl
    rw [World.entityExists,entityExists_eq] at hex
    obtain ⟨l,hl⟩ := Option.isSome_iff_exists.mp hex
    obtain ⟨w',hrun,-⟩ := tryDestroy_found h hl
    refine Defined.onErr (wp_bind.mp (hcall (.destroy e))) fun err w'' herr => ?_
    rw [hrun] at herr
    cases herr

/-- One turn of a sync point over a worker that is there. -/
theorem applyCmd_defined (h : WorldInv False w) (hi : i<w.workerSpecs.len)
    (hlive : ∀ thread e,World.front w i=some (.destroy thread e) → World.entityExists w e=true) :
    Defined (applyCmd i) w := by
  obtain ⟨s,hs⟩ := Option.isSome_iff_exists.mp (SequenceValueHashMap.valueAt_isSome.mpr hi)
  cases hf : World.front w i with
  | none =>
    have hq : s.cmdBuffer=[] := by
      rw [World.front,hs,Option.bind_some,List.head?_eq_none_iff] at hf
      exact hf
    unfold applyCmd Defined wp
    rw [bind_ok (popCmd_empty hs hq)]
    trivial
  | some cmd =>
    obtain ⟨-,-,-,-,hsame,-⟩ := popCmd_front hf
    have hrun : Defined (CmdBuffer.run cmd) (World.popped w i) := by
      cases hn : CmdBuffer.pending cmd with
      | none =>
        refine runOther_defined (WorldInv.popped h hf hn).store hn fun thread e hc => ?_
        rw [World.entityExists,hsame]
        exact hlive thread e (hc ▸ hf)
      | some e =>
        cases cmd with
        | create thread e' val => exact runCreate_defined (StoreInv.popped_create h hf)
        | _ => cases hn
    unfold Defined wp
    rw [applyCmd_front hf]
    exact Defined.map hrun _

end Commands

section Queries

variable {q : QueryShape Component}

/-- Preparing a query ends in an index or in the error of a shape that clashes. -/
theorem prepareQuerySrcAccess_defined (h : WorldInv False w) :
    Defined (prepareQuerySrcAccess q) w :=
  wp_mono (prepareQuerySrcAccess_spec h.store.registry h.queries False.elim)
    (fun _ _ _ => trivial) fun _ _ he => Errs.ne ⟨_,he.2⟩

/-- Creating a query from a tick on. -/
theorem createQuerySince_defined (h : WorldInv False w) (lastRunTick : ChangedTick) :
    Defined (createQuerySince q lastRunTick) w := by
  have h₁ : WorldInv False { w with tick := w.tick+1 } := WorldInv.congr h rfl rfl rfl rfl
  unfold createQuerySince
  refine wp_bind.mpr (Defined.raiseAs ?_ .display)
  unfold getOrCreateQuerySrcAccess Defined
  rw [wp_bind]
  refine wp_mono (prepareQuerySrcAccess_defined h₁) (fun _ w' _ => ?_) fun _ _ he => he
  rw [wp_bind,wp_getState]
  split
  · trivial
  · simp

/-- Creating a query. -/
theorem createQuery_defined (h : WorldInv False w) : Defined (createQuery q) w := by
  have h₁ : WorldInv False { w with lastQueryTick := w.tick } := WorldInv.congr h rfl rfl rfl rfl
  exact createQuerySince_defined h₁ w.lastQueryTick

end Queries

section Items

/-- A row that is there is reached by a write to a component it has, unless the
write stamps where no tick is kept. -/
theorem reached_of_row {l : RowLoc} {t : StorageType} {d : ComponentData V} {write : ItemWrite V}
    (hd : World.componentAt w l t=some d) (hs : write.stamps=true → d.changed.isSome=true) :
    ∃ spec c,Reached w l t write spec c := by
  obtain ⟨⟨e,x⟩,hr,hd⟩ := Option.bind_eq_some_iff.mp hd
  obtain ⟨spec,c,hv,hc,hlt,-,rfl⟩ := row_eq_some hr
  obtain ⟨o,ho,rfl⟩ := Option.map_eq_some_iff.mp hd
  refine ⟨spec,c,hv,hc,hlt,reaches_iff.mpr ⟨o,ho,fun hstamps => ?_⟩⟩
  have hkept := hs hstamps
  unfold readCell at hkept
  dsimp only at hkept
  by_contra hn
  rw [if_neg hn] at hkept
  cases hkept

/-- A write through an item that reaches its cell. -/
theorem writeItem_defined (h : StoreInv D reserved w) {l : RowLoc} {t : StorageType} {write : ItemWrite V}
    {spec : ArchetypeSpec V} {c : Chunk V} (hr : Reached w l t write spec c) :
    Defined (writeItem l t write) w := by
  have hrun : writeItem l t write w=writeThrough l t w.tick write w := rfl
  unfold Defined wp
  rw [hrun,writeThrough_reached h.registry hr]
  trivial

/-- A row of a run that names components of the macro only keeps a changed tick
for each component that asks for one. -/
theorem changed_kept (h : StoreInv True reserved w) {l : RowLoc} {t : StorageType} {d : ComponentData V}
    (hd : World.componentAt w l t=some d) (hc : t.stateDetection.needsChange=true) :
    d.changed.isSome=true := by
  obtain ⟨⟨e,x⟩,hr,hd⟩ := Option.bind_eq_some_iff.mp hd
  obtain ⟨spec,c,hv,-,-,-,rfl⟩ := row_eq_some hr
  obtain ⟨o,ho,rfl⟩ := Option.map_eq_some_iff.mp hd
  have hmatches := h.registry.declared_layouts trivial _ spec hv _ _ ho
  unfold readCell
  dsimp only
  rw [if_pos (hmatches.changed.trans hc)]
  rfl

end Items

section Runs

variable [Inhabited V]

/-- What the caller of an action promises: a sync point goes over the workers there
are, an item belongs to a row that is there, and a `Mut` to a row that keeps a changed tick. -/
def Action.InRange (w : World V) : Action V → Prop
  | .applyCmd i => i<w.workerSpecs.len
  | .write l t itemWrite => ∃ d,World.componentAt w l t=some d ∧
    (itemWrite.stamps=true → d.changed.isSome=true)
  | _ => True

/-- An action in a world in order. -/
theorem Action.defined (a : Action V) (h : RunInv False w) (ha : Action.Applies w a)
    (hr : Action.InRange w a) : Defined a.perform w := by
  cases a with
  | world form call => exact perform_defined h.inv.store call form
  | cmd form thread call => exact cmd_defined h.inv call thread form
  | applyCmd i => exact Defined.map (applyCmd_defined h.inv hr ha) _
  | createQuery q => exact Defined.map (createQuery_defined h.inv) _
  | createQuerySince q lastRunTick => exact Defined.map (createQuerySince_defined h.inv lastRunTick) _
  | prepareQuery q => exact Defined.map (prepareQuerySrcAccess_defined h.inv) _
  | accessScope q =>
    exact Defined.map (wp_mono (onComponents_accessScope h.inv.store.registry h.inv.queries
      False.elim) (fun _ _ _ => trivial) fun _ _ he => Errs.ne ⟨_,he.2⟩) _
  | write l t itemWrite =>
    obtain ⟨d,hd,hs⟩ := hr
    obtain ⟨spec,c,hreached⟩ := reached_of_row hd hs
    exact Defined.map (writeItem_defined h.inv.store hreached) _
  | _ => trivial

end Runs

section Samples

/-- A create in a parallel step between two writes, and the sync point after it. -/
def writtenAround : List (Action ℕ) := [
  .world .returning (.create (.single (ticked 0) 1)),
  .write ⟨0,0,0⟩ (tickedType 0) (.assign 2),
  .setInParallelCompute true,
  .cmd .returning 7 (.create (.single (ticked 0) 3)),
  .setInParallelCompute false,
  .applyCmd 0,
  .write ⟨0,0,1⟩ (tickedType 0) (.bypass 4)]

set_option maxRecDepth 20000 in
/-- Without a changed tick there is nothing a `Mut` could stamp. -/
example : ((Action.write ⟨2,0,0⟩ (tickedType 0) (.assign 3)).perform
    (runAll Action.step viewed (World.new inOrder))).1=.error .undefinedBehaviour := by decide +kernel

end Samples

end XynokEcs.DefinedBehaviour
