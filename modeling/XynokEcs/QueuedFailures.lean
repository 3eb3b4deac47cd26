import XynokEcs.ErrorExits

/-!
# Queued commands that fail

A sync point takes a command off its queue and runs it. When the call under an
add, a merge or a remove returns an error, the worker raises it and nothing that
is stored has changed. A failing destroy first erases the slot its handle names:
the slot is queued as free or counted as retired, whoever has it by then.
-/

namespace XynokEcs.QueuedFailures

open ComponentTypes EntityHandle SequenceValueMap FaultingState EntityAllocation SlotInvariants
  WorldState WorldCalls CommandBuffer RegistryInvariants StoreInvariants StoreSteps StructureChanges
  WorkerQueues ActionRuns WorldRuns ActionEffects WorldGrowth ErrorExits

variable {V : Type} {w w' : World V} {i : ℕ} {e : Entity}

/-- The call of the world under a queued command; a queued create attaches a slot
that was taken before and is none. -/
def CmdBuffer.call : CmdBuffer V → Option (WorldCall V)
  | .create _ _ _ => none
  | .addComponent _ e val => some (.addComponent e val)
  | .mergeComponent _ e val => some (.mergeComponent e val)
  | .removeComponent _ T e => some (.removeComponent T e)
  | .destroy _ e => some (.destroy e)

/-- The thread a command was recorded on. -/
def CmdBuffer.thread : CmdBuffer V → ℕ
  | .create thread _ _ | .addComponent thread _ _ | .mergeComponent thread _ _
  | .removeComponent thread _ _ | .destroy thread _ => thread

/-- The command is a destroy. -/
def CmdBuffer.isDestroy : CmdBuffer V → Bool
  | .destroy _ _ => true
  | _ => false

/-- Applying the next command of a worker raises the error, and leaves the world
it was popped from as it is: nothing that is stored and no slot has changed. -/
structure HarmlessFailure [Inhabited V] (w : World V) (i thread : ℕ) (err : XynokEcsError) :
    Prop where
  /-- The sync point panics with the error of the command. -/
  raised : (applyCmd i w).1=.error (.panic (.worker thread err))
  /-- Nothing that is stored has changed. -/
  atomic : Atomic (World.popped w i) (applyCmd i w).2
  /-- No slot has changed. -/
  slots : (applyCmd i w).2.entityAllocator=(World.popped w i).entityAllocator

/-- Erasing a slot is never without a trace. -/
theorem eraseEntity_changes (e : Entity) (a : EntityAllocator) :
    eraseEntity e a=(.error .undefinedBehaviour,a) ∨ ∃ a',eraseEntity e a=(.ok (),a') ∧ a'≠a := by
  unfold eraseEntity
  cases a.entities[e.idx]? with
  | none => exact .inl rfl
  | some slot =>
    refine .inr ⟨_,rfl,fun hsame => ?_⟩
    split at hsame
    · have hlen := congrArg (fun a => a.freeEntities.length) hsame
      simp only [List.length_append,List.length_singleton] at hlen
      omega
    · have hret := congrArg EntityAllocator.retiredEntitySlots hsame
      simp only at hret
      omega

variable [Inhabited V]

omit [Inhabited V] in
/-- A computation that only hands on its result fails where it fails. -/
theorem error_of_map {α β : Type} {x : Call V α} {f : α → β} {err : Fault}
    (h : (do let a ← x; return f a : Call V β) w=(.error err,w')) : x w=(.error err,w') := by
  cases hx : x w with
  | mk r w₁ => cases r with
    | ok a =>
      rw [bind_ok hx] at h
      cases h
    | error e =>
      rw [bind_error hx] at h
      cases h
      rfl

omit [Inhabited V] in
theorem raiseAs_err {α : Type} {x : Call V α} {f : XynokEcsError → Panic} {err : XynokEcsError}
    (h : x w=(.error (.err err),w')) : raiseAs f x w=(.error (.panic (f err)),w') := by
  unfold raiseAs mapFault
  rw [h]

/-- A command whose closure only raises the error leaves what its call left. -/
theorem harmless_raised {thread : ℕ} {cmd : CmdBuffer V} {c : WorldCall V} {err : XynokEcsError}
    (h : RegistryInv False (World.popped w i)) (hf : World.front w i=some cmd)
    (hsing : ∀ val,c≠.createSingleton val)
    (hslots : ∀ w₁ w₂ : World V,WorldCall.SlotsAfter w₁ w₂ c → w₂.entityAllocator=w₁.entityAllocator)
    (herr : c.perform .returning (World.popped w i)=(.error (.err err),w'))
    (hrun : CmdBuffer.run cmd (World.popped w i)=(.error (.panic (.worker thread err)),w')) :
    HarmlessFailure w i thread err := by
  have hatomic := wp_of_error (WorldCall.atomicOnErr c h fun val hc => absurd hc (hsing val))
    herr err rfl
  have happly : applyCmd i w=(.error (.panic (.worker thread err)),w') := by
    rw [applyCmd_front hf]
    exact bind_error hrun
  exact ⟨by rw [happly],by rw [happly]; exact hatomic.1,by
    rw [happly]
    exact hslots _ _ hatomic.2⟩

/-- A failing destroy has erased a slot. -/
theorem destroy_harmful {thread : ℕ} {err : XynokEcsError}
    (h : RegistryInv False (World.popped w i)) (hf : World.front w i=some (.destroy thread e))
    (herr : tryDestroy e (World.popped w i)=(.error (.err err),w')) :
    ¬HarmlessFailure w i thread err := by
  intro hharmless
  have hsame := wp_of_error (tryDestroy_err h) herr err rfl
  subst hsame
  have hrun : CmdBuffer.run (.destroy thread e) (World.popped w i)=
      eraseAndRaise thread e err (World.popped w i) := onErr_err herr
  rcases eraseEntity_changes e (World.popped w i).entityAllocator with herase | ⟨a,herase,hne⟩
  · have hraise : CmdBuffer.run (.destroy thread e) (World.popped w i)=
        (.error .undefinedBehaviour,_) := hrun.trans (bind_error (onAllocator_eq herase))
    have hraised := hharmless.raised
    rw [applyCmd_front hf,bind_error hraise] at hraised
    cases hraised
  · have hraise : CmdBuffer.run (.destroy thread e) (World.popped w i)=
        (.error (.panic (.worker thread err)),World.setSlots (World.popped w i) a) :=
      hrun.trans (bind_ok (onAllocator_eq herase))
    have hslots := hharmless.slots
    rw [applyCmd_front hf,bind_error hraise] at hslots
    exact hne hslots

omit [Inhabited V] in
/-- Taking a command off its queue leaves the registry alone. -/
theorem popped_registry (w : World V) (i : ℕ) :
    World.registry (World.popped w i)=World.registry w :=
  congrArg Prod.fst (core_popCmd i w)

/-- In every world a run reaches, a queued destroy, add, merge or remove whose call
returns an error is harmless exactly when it is no destroy. -/
theorem queued_failure_harmless (runtime : Runtime) (as : List (Action V)) (i : ℕ)
    (cmd : CmdBuffer V) (c : WorldCall V) (err : XynokEcsError)
    (hf : World.front (runAll Action.step as (World.new runtime)) i=some cmd)
    (hc : CmdBuffer.call cmd=some c)
    (herr : (c.perform .returning
      (World.popped (runAll Action.step as (World.new runtime)) i)).1=.error (.err err)) :
    HarmlessFailure (runAll Action.step as (World.new runtime)) i (CmdBuffer.thread cmd) err ↔
      CmdBuffer.isDestroy cmd=false := by
  have hcore := coreInv_run runtime as
  generalize runAll Action.step as (World.new runtime)=w at hf herr hcore ⊢
  have h : RegistryInv False (World.popped w i) := RegistryInv.congr hcore.registry (popped_registry w i)
  have herr' : c.perform .returning (World.popped w i)=(.error (.err err),_) := Prod.ext herr rfl
  cases cmd with
  | create thread e val => cases hc
  | addComponent thread e val =>
    cases hc
    refine iff_of_true (harmless_raised h hf (by simp) (fun _ _ => id) herr' ?_) rfl
    exact raiseAs_err (error_of_map herr')
  | mergeComponent thread e val =>
    cases hc
    refine iff_of_true (harmless_raised h hf (by simp) (fun _ _ => id) herr' ?_) rfl
    exact raiseAs_err (error_of_map herr')
  | removeComponent thread T e =>
    cases hc
    refine iff_of_true (harmless_raised h hf (by simp) (fun _ _ => id) herr' ?_) rfl
    exact raiseAs_err (bind_error (error_of_map herr'))
  | destroy thread e =>
    cases hc
    refine iff_of_false (destroy_harmful h hf (error_of_map herr')) ?_
    nofun

section Failures

/-- An entity is destroyed by one system before another one's queued commands run. -/
def staleHandle (cmd : CmdCall ℕ) : List (Action ℕ) := [
  .world .returning (.create (.single (plain 0) 1)),
  .setInParallelCompute true,
  .cmd .returning 0 (.destroy (WorldRuns.handle 0 1)),
  .cmd .returning 1 cmd,
  .setInParallelCompute false,
  .applyCmd 0]

set_option maxRecDepth 20000 in
/-- Adding to the entity fails without harm. -/
theorem queued_failure_harmless_add :
    let cmd : CmdCall ℕ := .addComponent (WorldRuns.handle 0 1) (.single (plain 1) 2)
    HarmlessFailure (runAll Action.step (staleHandle cmd) (World.new inOrder)) 1 1
      (.entityDoesNotExist 0 1) := by
  intro cmd
  refine (queued_failure_harmless inOrder (staleHandle cmd) 1
    (.addComponent 1 (WorldRuns.handle 0 1) (.single (plain 1) 2))
    (.addComponent (WorldRuns.handle 0 1) (.single (plain 1) 2)) (.entityDoesNotExist 0 1)
    ?_ rfl ?_).mpr rfl
  · decide +kernel
  · decide +kernel

set_option maxRecDepth 20000 in
/-- Destroying it once more queues its slot once more. -/
theorem queued_destroy_harmful :
    let cmd : CmdCall ℕ := .destroy (WorldRuns.handle 0 1)
    let w : World ℕ := runAll Action.step (staleHandle cmd) (World.new inOrder)
    (applyCmd 1 w).1=.error (.panic (.worker 1 (.entityDoesNotExist 0 1))) ∧
      w.entityAllocator.freeEntities=[0] ∧
      (applyCmd 1 w).2.entityAllocator.freeEntities=[0,0] ∧
      ¬HarmlessFailure w 1 1 (.entityDoesNotExist 0 1) := by
  refine ⟨by decide +kernel,by decide +kernel,by decide +kernel,fun h => ?_⟩
  have hslots := congrArg EntityAllocator.freeEntities h.slots
  revert hslots
  decide +kernel

end Failures

end XynokEcs.QueuedFailures
