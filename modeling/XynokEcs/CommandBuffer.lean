import XynokEcs.WorldCalls

/-!
# Commands and the queues of the workers

Outside a parallel step a command goes to the world at once. Inside one it is
queued on its thread, and a create takes a handle out of a batch the thread
allocated ahead. A sync point runs every queue from its front, worker by worker
in the order they registered. A command that fails there raises a panic, and a
failing create or destroy erases the slot of its handle first.
-/

namespace XynokEcs.CommandBuffer

open ComponentTypes EntityHandle SequenceValueMap FaultingState EntityAllocation WorldState
  WorldCalls

variable {V : Type}

/-- `PRE_ALLOCATED_ENTITIES_AMOUNT`. -/
def preAllocatedEntitiesAmount : ℕ := 32

/-- `WorkerSpec::new`. -/
def WorkerSpec.new : WorkerSpec V := ⟨[],[]⟩

/-- `warm_up`: a thread registers its worker on its first deferred command. -/
def warmUp (thread : ℕ) : Call V Unit := do
  let w ← getState
  onlyIf (!w.workerSpecs.containsKey thread)
    (modifyState (fun w => { w with
      workerSpecs := (w.workerSpecs.insert thread WorkerSpec.new).1 }))

/-- Work on the worker of a thread, `get_current_worker_spec`. -/
def onWorker {α : Type} (thread : ℕ) (x : Faulting (WorkerSpec V) Fault α) : Call V α :=
  focus (fun w => w.workerSpecs.get thread)
    (fun s w => { w with workerSpecs := w.workerSpecs.modify thread fun _ => s })
    (.err .workerSpecIsNotCreated) x

/-- `try_pre_allocate_entities` into the queue of a worker. -/
def tryPreAllocateEntities (thread amount : ℕ) : Call V Unit :=
  focus (fun w => (w.workerSpecs.get thread).map fun s =>
      (⟨w.entityAllocator,s.preAllocatedEntities⟩ : Allocating))
    (fun p w => { w with
      entityAllocator := p.allocator
      workerSpecs := w.workerSpecs.modify thread fun s => { s with preAllocatedEntities := p.dst } })
    (.err .workerSpecIsNotCreated) (preAllocateEntities amount)

/-- `pre_allocated_entities.pop_front()`. -/
def popPreAllocated : Faulting (WorkerSpec V) Fault (Option Entity) := fun s =>
  match s.preAllocatedEntities with
  | [] => (.ok none,s)
  | e::rest => (.ok (some e),{ s with preAllocatedEntities := rest })

/-- The loop of `Cmd::try_create`. A batch is not empty, so it turns twice at most. -/
def takePreAllocated (thread : ℕ) : Call V Entity := do
  let first ← onWorker thread popPreAllocated
  match first with
  | some e => return e
  | none => do
    tryPreAllocateEntities thread preAllocatedEntitiesAmount
    let second ← onWorker thread popPreAllocated
    match second with
    | some e => return e
    | none => fault .undefinedBehaviour

/-- `cmd_buffer.push_back(cmd)`. -/
def pushCmd (thread : ℕ) (cmd : CmdBuffer V) : Call V Unit :=
  onWorker thread (modifyState fun s => { s with cmdBuffer := s.cmdBuffer++[cmd] })

/-- `Cmd::try_create`. -/
def Cmd.tryCreate [Inhabited V] (thread : ℕ) (val : Bundle V) : Call V Entity := do
  let w ← getState
  if !w.inParallelCompute then WorldCalls.tryCreate val
  else consuming val (do
    warmUp thread
    let e ← takePreAllocated thread
    pushCmd thread (.create thread e val)
    return e)

/-- `Cmd::try_add_component`. -/
def Cmd.tryAddComponent [Inhabited V] (thread : ℕ) (e : Entity) (val : Bundle V) : Call V Unit := do
  let w ← getState
  if !w.inParallelCompute then WorldCalls.tryAddComponent e val
  else consuming val (do
    warmUp thread
    pushCmd thread (.addComponent thread e val))

/-- `Cmd::try_merge_component`. -/
def Cmd.tryMergeComponent [Inhabited V] (thread : ℕ) (e : Entity) (val : Bundle V) :
    Call V Unit := do
  let w ← getState
  if !w.inParallelCompute then WorldCalls.tryMergeComponent e val
  else consuming val (do
    warmUp thread
    pushCmd thread (.mergeComponent thread e val))

/-- `Cmd::try_remove_component`: a queued command has no value to hand back. -/
def Cmd.tryRemoveComponent [Inhabited V] (thread : ℕ) (T : TArchetype) (e : Entity) :
    Call V (Option (Bundle V)) := do
  let w ← getState
  if !w.inParallelCompute then do
    let b ← WorldCalls.tryRemoveComponent T e
    return some b
  else do
    warmUp thread
    pushCmd thread (.removeComponent thread T e)
    return none

/-- `Cmd::try_destroy`. -/
def Cmd.tryDestroy (thread : ℕ) (e : Entity) : Call V Unit := do
  let w ← getState
  if !w.inParallelCompute then WorldCalls.tryDestroy e
  else do
    warmUp thread
    pushCmd thread (.destroy thread e)

/-- `Cmd::create`. -/
def Cmd.create [Inhabited V] (thread : ℕ) (val : Bundle V) : Call V Entity :=
  raiseAs .display (Cmd.tryCreate thread val)

/-- `Cmd::add_component`. -/
def Cmd.addComponent [Inhabited V] (thread : ℕ) (e : Entity) (val : Bundle V) : Call V Unit :=
  raiseAs .display (Cmd.tryAddComponent thread e val)

/-- `Cmd::merge_component`. -/
def Cmd.mergeComponent [Inhabited V] (thread : ℕ) (e : Entity) (val : Bundle V) : Call V Unit :=
  raiseAs .display (Cmd.tryMergeComponent thread e val)

/-- `Cmd::remove_component`. -/
def Cmd.removeComponent [Inhabited V] (thread : ℕ) (T : TArchetype) (e : Entity) :
    Call V (Option (Bundle V)) :=
  raiseAs .display (Cmd.tryRemoveComponent thread T e)

/-- `Cmd::destroy`. -/
def Cmd.destroy (thread : ℕ) (e : Entity) : Call V Unit :=
  raiseAs .display (Cmd.tryDestroy thread e)

/-- What a failing create or destroy does before its panic: erase the slot the
handle names, whoever has it. -/
def eraseAndRaise (thread : ℕ) (e : Entity) (err : XynokEcsError) : Call V Unit := do
  onAllocator (eraseEntity e)
  fault (.panic (.worker thread err))

/-- What the closure of a command does when it runs. A removed bundle is dropped. -/
def CmdBuffer.run [Inhabited V] : CmdBuffer V → Call V Unit
  | .create thread e val => onErr (createComponentsFor e val) (eraseAndRaise thread e)
  | .addComponent thread e val => raiseAs (.worker thread) (WorldCalls.tryAddComponent e val)
  | .mergeComponent thread e val => raiseAs (.worker thread) (WorldCalls.tryMergeComponent e val)
  | .removeComponent thread T e => raiseAs (.worker thread) (do
      let b ← WorldCalls.tryRemoveComponent T e
      modifyState (fun w => { w with dropped := w.dropped++b.drops }))
  | .destroy thread e => onErr (WorldCalls.tryDestroy e) (eraseAndRaise thread e)

/-- `cmd_buffer.pop_front()`. -/
def popFront : Faulting (WorkerSpec V) Fault (Option (CmdBuffer V)) := fun s =>
  match s.cmdBuffer with
  | [] => (.ok none,s)
  | cmd::rest => (.ok (some cmd),{ s with cmdBuffer := rest })

/-- Take the first command of the worker at a position. -/
def popCmd (i : ℕ) : Call V (Option (CmdBuffer V)) :=
  focus (fun w => w.workerSpecs.valueAt i)
    (fun s w => { w with workerSpecs := w.workerSpecs.modifyAt i fun _ => s })
    .undefinedBehaviour popFront

/-- One turn of the loop over a queue: `false` when it was empty. -/
def applyCmd [Inhabited V] (i : ℕ) : Call V Bool := do
  let front ← popCmd i
  match front with
  | some cmd => do
    CmdBuffer.run cmd
    return true
  | none => return false

/-- The loop over the queue of one worker, with a bound on its turns. -/
def flushWorker [Inhabited V] (i : ℕ) : ℕ → Call V Unit
  | 0 => return ()
  | turns+1 => do
    let more ← applyCmd i
    if more then flushWorker i turns else return ()

/-- The number of commands a worker has queued. -/
def World.queued (w : World V) (i : ℕ) : ℕ :=
  ((w.workerSpecs.valueAt i).map fun s => s.cmdBuffer.length).getD 0

/-- The loop over the workers. No command queues another one, so a queue bounds
its turns. -/
def flushWorkers [Inhabited V] : List ℕ → Call V Unit
  | [] => return ()
  | i::rest => do
    let w ← getState
    flushWorker i (World.queued w i)
    flushWorkers rest

/-- `flush_cmd`. -/
def flushCmd [Inhabited V] : Call V Unit := do
  let w ← getState
  flushWorkers (List.range w.workerSpecs.len)

/-- `sync_point`. -/
def syncPoint [Inhabited V] : Call V Unit := flushCmd

section Reserved

/-- The handle a queued create will attach. -/
def CmdBuffer.pending : CmdBuffer V → Option Entity
  | .create _ e _ => some e
  | _ => none

/-- The handles a worker holds: those it allocated ahead and those its queued
creates will attach. -/
def WorkerSpec.reserved (s : WorkerSpec V) : List Entity :=
  s.preAllocatedEntities++s.cmdBuffer.filterMap CmdBuffer.pending

/-- The handles all workers hold. -/
def World.reserved (w : World V) : List Entity := w.workerSpecs.values.flatMap WorkerSpec.reserved

/-- A list with one entry rewritten, seen through what every entry contributes. -/
theorem flatMap_modify {α β : Type} {l : List α} {i : ℕ} {x : α} (f : α → α) (g : α → List β)
    (h : l[i]?=some x) : ∃ rest,(l.flatMap g).Perm (g x++rest) ∧
      ((l.modify i f).flatMap g).Perm (g (f x)++rest) := by
  induction l generalizing i with
  | nil => cases h
  | cons y l ih => cases i with
    | zero =>
      cases h
      exact ⟨l.flatMap g,.refl _,.refl _⟩
    | succ i =>
      obtain ⟨rest,h1,h2⟩ := ih h
      refine ⟨g y++rest,?_,?_⟩
      · rw [List.flatMap_cons]
        exact (h1.append_left (g y)).trans (List.perm_append_comm_assoc _ _ _)
      · rw [List.modify_succ_cons,List.flatMap_cons]
        exact (h2.append_left (g y)).trans (List.perm_append_comm_assoc _ _ _)

variable {w : World V} {i : ℕ} {s : WorkerSpec V}

/-- The world with one worker replaced. -/
def World.setWorker (w : World V) (i : ℕ) (s : WorkerSpec V) : World V :=
  { w with workerSpecs := w.workerSpecs.modifyAt i fun _ => s }

/-- What the other workers contribute is the same before and after one worker
changes. -/
theorem flatMap_setWorker {β : Type} (h : w.workerSpecs.valueAt i=some s) (s' : WorkerSpec V)
    (g : WorkerSpec V → List β) : ∃ rest,(w.workerSpecs.values.flatMap g).Perm (g s++rest) ∧
      ((World.setWorker w i s').workerSpecs.values.flatMap g).Perm (g s'++rest) := by
  have hv : w.workerSpecs.values[i]?=some s := by
    rw [SequenceValueHashMap.values,List.getElem?_map]
    exact h
  obtain ⟨rest,h1,h2⟩ := flatMap_modify (fun _ => s') g hv
  refine ⟨rest,h1,?_⟩
  have hm : (World.setWorker w i s').workerSpecs.values=w.workerSpecs.values.modify i fun _ => s' := by
    simp only [World.setWorker,SequenceValueHashMap.values,SequenceValueHashMap.modifyAt]
    apply List.ext_getElem?
    intro j
    rw [List.getElem?_map,List.getElem?_modify,List.getElem?_modify,List.getElem?_map]
    split <;> cases w.workerSpecs.entries[j]? <;> rfl
  rw [hm]
  exact h2

/-- The handles held by the other workers are the same before and after one
worker changes. -/
theorem reserved_setWorker (h : w.workerSpecs.valueAt i=some s) (s' : WorkerSpec V) :
    ∃ rest,(World.reserved w).Perm (WorkerSpec.reserved s++rest) ∧
      (World.reserved (World.setWorker w i s')).Perm (WorkerSpec.reserved s'++rest) :=
  flatMap_setWorker h s' WorkerSpec.reserved

/-- The command a sync point takes from a worker next. -/
def World.front (w : World V) (i : ℕ) : Option (CmdBuffer V) :=
  (w.workerSpecs.valueAt i).bind fun s => s.cmdBuffer.head?

/-- The world after that command was taken off its queue. -/
def World.popped (w : World V) (i : ℕ) : World V := (popCmd i w).2

/-- The handles the workers allocated ahead. -/
def World.ahead (w : World V) : List Entity :=
  w.workerSpecs.values.flatMap WorkerSpec.preAllocatedEntities

/-- The handles that queued creates will attach. -/
def World.pending (w : World V) : List Entity :=
  w.workerSpecs.values.flatMap fun s => s.cmdBuffer.filterMap CmdBuffer.pending

/-- The commands the workers have queued. -/
def World.commands (w : World V) : List (CmdBuffer V) :=
  w.workerSpecs.values.flatMap WorkerSpec.cmdBuffer

theorem flatMap_append_perm {α β : Type} (l : List α) (f g : α → List β) :
    (l.flatMap fun x => f x++g x).Perm (l.flatMap f++l.flatMap g) := by
  induction l with
  | nil => exact .refl _
  | cons x l ih =>
    simp only [List.flatMap_cons,List.append_assoc]
    refine ((ih.append_left (g x)).append_left (f x)).trans (List.Perm.append_left (f x) ?_)
    exact List.perm_append_comm_assoc _ _ _

/-- A handle that is held was allocated ahead or waits to be attached. -/
theorem reserved_split (w : World V) :
    (World.reserved w).Perm (World.ahead w++World.pending w) :=
  flatMap_append_perm _ _ _

end Reserved

end XynokEcs.CommandBuffer
