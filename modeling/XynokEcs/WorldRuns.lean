import XynokEcs.ActionRuns
import XynokEcs.ItemWrites
import XynokEcs.WorkerQueues

/-!
# Everything that can happen to a world

An action is a call of the world, a command issued on a thread, one queued
command applied by a sync point, or a change of ticks, flags, queries and
column values. Every call comes in a form that returns its error and one that
raises it; the state it leaves behind is the same.
-/

namespace XynokEcs.WorldRuns

open ComponentTypes EntityHandle SequenceValueMap FaultingState ChunkRows RowWrites ArchetypeStore
  ChunkLayouts QueryShapes EntityAllocation SlotInvariants WorldState WorldCalls CommandBuffer
  RegistryInvariants RegistrySteps StoreInvariants StoreSteps StructureChanges RegistryFrame SlotEvents QueryAccess
  QuerySources ItemWrites WorkerQueues ActionRuns

variable {V : Type}

/-- The two forms every call comes in. -/
inductive CallForm
  /-- `try_…`, which returns its error. -/
  | returning
  /-- The form that raises it. -/
  | raising
deriving DecidableEq

/-- What a call hands back. -/
inductive Outcome (V : Type)
  | done
  | entity (e : Entity)
  | bundle (b : Bundle V)
deriving DecidableEq

/-- The entity a call hands back. -/
def Outcome.issued : Outcome V → Option Entity
  | .entity e => some e
  | _ => none

/-- The calls of the world on archetypes and entities. -/
inductive WorldCall (V : Type)
  | registerArchetype (T : TArchetype) (cfg : ArchetypeCfg)
  | registerSingleton (T : TArchetype)
  | create (val : Bundle V)
  | createSingleton (val : Bundle V)
  | destroy (e : Entity)
  | addComponent (e : Entity) (val : Bundle V)
  | mergeComponent (e : Entity) (val : Bundle V)
  | removeComponent (T : TArchetype) (e : Entity)

/-- The archetype type a call is made with. -/
def WorldCall.ty : WorldCall V → Option TArchetype
  | .registerArchetype T _ | .registerSingleton T | .removeComponent T _ => some T
  | .create val | .createSingleton val | .addComponent _ val | .mergeComponent _ val => some val.ty
  | .destroy _ => none

/-- Hand back the entity a computation ends in. -/
def entityOf (x : Call V Entity) : Call V (Outcome V) := do
  let e ← x
  return .entity e

/-- Hand back nothing. -/
def doneOf (x : Call V Unit) : Call V (Outcome V) := do
  x
  return .done

/-- Hand back the removed bundle. -/
def bundleOf (x : Call V (Bundle V)) : Call V (Outcome V) := do
  let b ← x
  return .bundle b

/-- Make a call of the world in one of its forms. -/
def WorldCall.perform [Inhabited V] : CallForm → WorldCall V → Call V (Outcome V)
  | .returning,.registerArchetype T cfg => doneOf (tryRegisterArchetype T cfg)
  | .raising,.registerArchetype T cfg => doneOf (WorldCalls.registerArchetype T cfg)
  | .returning,.registerSingleton T => doneOf (tryRegisterSingleton T)
  | .raising,.registerSingleton T => doneOf (WorldCalls.registerSingleton T)
  | .returning,.create val => entityOf (tryCreate val)
  | .raising,.create val => entityOf (WorldCalls.create val)
  | .returning,.createSingleton val => entityOf (tryCreateSingleton val)
  | .raising,.createSingleton val => entityOf (WorldCalls.createSingleton val)
  | .returning,.destroy e => doneOf (tryDestroy e)
  | .raising,.destroy e => doneOf (WorldCalls.destroy e)
  | .returning,.addComponent e val => doneOf (tryAddComponent e val)
  | .raising,.addComponent e val => doneOf (WorldCalls.addComponent e val)
  | .returning,.mergeComponent e val => doneOf (tryMergeComponent e val)
  | .raising,.mergeComponent e val => doneOf (WorldCalls.mergeComponent e val)
  | .returning,.removeComponent T e => bundleOf (tryRemoveComponent T e)
  | .raising,.removeComponent T e => bundleOf (WorldCalls.removeComponent T e)

/-- The commands a system issues. -/
inductive CmdCall (V : Type)
  | create (val : Bundle V)
  | addComponent (e : Entity) (val : Bundle V)
  | mergeComponent (e : Entity) (val : Bundle V)
  | removeComponent (T : TArchetype) (e : Entity)
  | destroy (e : Entity)

/-- The archetype type a command is issued with. -/
def CmdCall.ty : CmdCall V → Option TArchetype
  | .create val | .addComponent _ val | .mergeComponent _ val => some val.ty
  | .removeComponent T _ => some T
  | .destroy _ => none

/-- The call of the world a command is outside of a parallel step. -/
def CmdCall.direct : CmdCall V → WorldCall V
  | .create val => .create val
  | .addComponent e val => .addComponent e val
  | .mergeComponent e val => .mergeComponent e val
  | .removeComponent T e => .removeComponent T e
  | .destroy e => .destroy e

/-- Hand back the removed bundle of a command that ran at once. -/
def removedOf (x : Call V (Option (Bundle V))) : Call V (Outcome V) := do
  let b ← x
  return (match b with
    | some b => .bundle b
    | none => .done)

/-- Issue a command on a thread in one of its forms. -/
def CmdCall.perform [Inhabited V] (thread : ℕ) : CallForm → CmdCall V → Call V (Outcome V)
  | .returning,.create val => entityOf (Cmd.tryCreate thread val)
  | .raising,.create val => entityOf (Cmd.create thread val)
  | .returning,.addComponent e val => doneOf (Cmd.tryAddComponent thread e val)
  | .raising,.addComponent e val => doneOf (Cmd.addComponent thread e val)
  | .returning,.mergeComponent e val => doneOf (Cmd.tryMergeComponent thread e val)
  | .raising,.mergeComponent e val => doneOf (Cmd.mergeComponent thread e val)
  | .returning,.removeComponent T e => removedOf (Cmd.tryRemoveComponent thread T e)
  | .raising,.removeComponent T e => removedOf (Cmd.removeComponent thread T e)
  | .returning,.destroy e => doneOf (Cmd.tryDestroy thread e)
  | .raising,.destroy e => doneOf (Cmd.destroy thread e)

/-- Everything that can happen to a world. -/
inductive Action (V : Type)
  | world (form : CallForm) (call : WorldCall V)
  | cmd (form : CallForm) (thread : ℕ) (call : CmdCall V)
  /-- One turn of a sync point's loop over the queue of a worker. -/
  | applyCmd (worker : ℕ)
  /-- `set_in_parallel_compute`. -/
  | setInParallelCompute (val : Bool)
  /-- `set_executor`. -/
  | setExecutor (present : Bool)
  | advanceTick
  | captureCurrentTick
  | createQuery (q : QueryShape Component)
  | createQuerySince (q : QueryShape Component) (lastRunTick : ChangedTick)
  /-- The `prepare` pass of the scheduler. -/
  | prepareQuery (q : QueryShape Component)
  /-- The access scope a system's parameter is registered with. -/
  | accessScope (q : QueryShape Component)
  /-- A write through an item of a query. -/
  | write (l : RowLoc) (t : StorageType) (itemWrite : ItemWrite V)

/-- Hand back nothing, whatever the computation ends in. -/
def ignoring {α : Type} (x : Call V α) : Call V (Outcome V) := do
  let _ ← x
  return .done

/-- Carry out an action. -/
def Action.perform [Inhabited V] : Action V → Call V (Outcome V)
  | .world form call => call.perform form
  | .cmd form thread call => call.perform thread form
  | .applyCmd worker => ignoring (CommandBuffer.applyCmd worker)
  | .setInParallelCompute val => doneOf (modifyState fun w => { w with inParallelCompute := val })
  | .setExecutor present => doneOf (modifyState fun w => { w with hasExecutor := present })
  | .advanceTick => ignoring WorldCalls.advanceTick
  | .captureCurrentTick => ignoring WorldCalls.captureCurrentTick
  | .createQuery q => ignoring (QuerySources.createQuery q)
  | .createQuerySince q lastRunTick => ignoring (QuerySources.createQuerySince q lastRunTick)
  | .prepareQuery q => ignoring (prepareQuerySrcAccess q)
  | .accessScope q => ignoring (onComponents q.accessScope)
  | .write l t itemWrite => doneOf (writeItem l t itemWrite)

/-- The world after an action, whether it returned or raised. -/
def Action.step [Inhabited V] (a : Action V) (w : World V) : World V := (a.perform w).2

/-- The entity an action handed to its caller. -/
def Action.issued [Inhabited V] (a : Action V) (w : World V) : Option Entity :=
  match (a.perform w).1 with
  | .ok out => out.issued
  | .error _ => none

/-- Every component an action names comes from the macro. -/
def Action.Declared : Action V → Prop
  | .world _ call => ∀ T∈call.ty,T.isDeclared=true
  | .cmd _ _ call => ∀ T∈call.ty,T.isDeclared=true
  | .createQuery q | .createQuerySince q _ | .prepareQuery q | .accessScope q => ShapeDeclared q
  | _ => True

section Samples

theorem four_pow : ∃ k,4=2^k := ⟨2,rfl⟩

theorem four_aligned : 4∣4 := Nat.dvd_refl 4

/-- A type of one word that keeps no state. -/
def plainType (id : ℕ) : StorageType := ⟨id,4,4,.none,four_pow,four_aligned⟩

/-- A component declared over such a type. -/
def plain (id : ℕ) : Component := .declared (plainType id)

/-- A type of one word that keeps ticks. -/
def tickedType (id : ℕ) : StorageType := ⟨id,4,4,.changeAble,four_pow,four_aligned⟩

/-- A component declared over such a type. -/
def ticked (id : ℕ) : Component := .declared (tickedType id)

/-- A component written by hand over the column of such a type, without a state of its own. -/
def view (id : ℕ) : Component := .handWritten 9 id (tickedType id) .noTracking .none true

/-- The runtime that hands out keys as they were stored and moves nothing. -/
def inOrder : Runtime := ⟨fun _ ts => ts,fun _ => false,fun _ _ => .refl _⟩

/-- The handle with the given fields, both in range. -/
def handle (idx version : ℕ) : Entity := ⟨UInt64.ofNat (idx+version*2^40)⟩

/-- A query names the view before its type is stored. The archetype that gaining
a component derives then has no ticks for the type. -/
def viewed : List (Action ℕ) := [
  .createQuery (.column (.ref (view 0))),
  .world .returning (.create (.single (ticked 0) 1)),
  .world .returning (.addComponent (handle 0 1) (.single (plain 1) 2))]

/-- Two systems destroy one entity in a parallel step. The second command fails
at the sync point and erases the slot once more, so it is free twice. -/
def twiceDestroyed : List (Action ℕ) := [
  .world .returning (.create (.single (plain 0) 1)),
  .setInParallelCompute true,
  .cmd .returning 0 (.destroy (handle 0 1)),
  .cmd .returning 1 (.destroy (handle 0 1)),
  .setInParallelCompute false,
  .applyCmd 0,
  .applyCmd 1,
  .world .returning (.create (.single (plain 0) 2))]

end Samples

end XynokEcs.WorldRuns
