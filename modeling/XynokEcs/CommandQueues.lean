import XynokEcs.WorldGrowth

/-!
# The queues of the worker threads

Each thread that ever deferred a command has a queue of its own, and the threads
stand in the order they registered. A deferred command is appended to the queue
of the thread it was issued on, applying one takes it off the front, and nothing
else touches a queue.
-/

namespace XynokEcs.CommandQueues

open ComponentTypes EntityHandle SequenceValueMap FaultingState QueryShapes EntityAllocation WorldState
  WorldCalls CommandBuffer RegistryInvariants StoreInvariants RegistryFrame QueryAccess QuerySources
  ItemWrites WorkerQueues ActionRuns WorldRuns ActionEffects WorldGrowth

variable {V α : Type} {w w' : World V} {thread i : ℕ}

/-- The threads with a worker, in the order they registered. -/
def World.threads (w : World V) : List ℕ := w.workerSpecs.keys

/-- The commands a thread has queued. -/
def World.queueOf (w : World V) (thread : ℕ) : List (CmdBuffer V) :=
  ((w.workerSpecs.get thread).map WorkerSpec.cmdBuffer).getD []

/-- What a sync point will find. -/
def World.queues (w : World V) : List ℕ×(ℕ → List (CmdBuffer V)) := (World.threads w,World.queueOf w)

section Workers

variable {s s' : WorkerSpec V}

/-- A queue is that of the thread's worker. -/
theorem queueOf_get (hs : w.workerSpecs.get thread=some s) :
    World.queueOf w thread=s.cmdBuffer := by
  rw [World.queueOf,hs]
  rfl

/-- Rewriting a worker registers no thread. -/
theorem threads_setWorker (w : World V) (i : ℕ) (s : WorkerSpec V) :
    World.threads (World.setWorker w i s)=World.threads w := by
  apply List.ext_getElem?
  intro j
  have hk := SequenceValueHashMap.keyAt_modifyAt w.workerSpecs i j fun _ => s
  rw [World.threads,World.threads,SequenceValueHashMap.keys,SequenceValueHashMap.keys,
    List.getElem?_map,List.getElem?_map]
  exact hk

/-- It changes the queue of its own thread. -/
theorem queueOf_setWorker (hi : w.workerSpecs.indexOf thread=some i) (s : WorkerSpec V) :
    World.queueOf (World.setWorker w i s)=
      Function.update (World.queueOf w) thread s.cmdBuffer := by
  funext t
  have hget : (World.setWorker w i s).workerSpecs.get t=
      if t=thread then some s else w.workerSpecs.get t := by
    unfold SequenceValueHashMap.get
    rw [World.setWorker,SequenceValueHashMap.indexOf_modifyAt]
    by_cases ht : t=thread
    · subst ht
      obtain ⟨u,hu⟩ := Option.isSome_iff_exists.mp
        (SequenceValueHashMap.valueAt_isSome.mpr (SequenceValueHashMap.indexOf_lt hi))
      rw [hi,if_pos rfl,Option.bind_some,SequenceValueHashMap.valueAt_modifyAt,if_pos rfl,hu]
      rfl
    · rw [if_neg ht]
      cases hj : w.workerSpecs.indexOf t with
      | none => rfl
      | some j =>
        have hne : i≠j := by
          rintro rfl
          exact ht (SequenceValueHashMap.indexOf_inj hj hi)
        rw [Option.bind_some,Option.bind_some,SequenceValueHashMap.valueAt_modifyAt,if_neg hne]
  rw [World.queueOf,hget,Function.update_apply]
  split <;> rfl

/-- Queues depend on the workers. -/
theorem queues_congr (h : w'.workerSpecs=w.workerSpecs) : World.queues w'=World.queues w := by
  rw [World.queues,World.queues,World.threads,World.threads,h]
  refine congrArg (Prod.mk _) (funext fun t => ?_)
  rw [World.queueOf,World.queueOf,h]

/-- A worker whose commands stay. -/
theorem queues_setWorker (hi : w.workerSpecs.indexOf thread=some i)
    (hs : w.workerSpecs.valueAt i=some s) (hc : s'.cmdBuffer=s.cmdBuffer) :
    World.queues (World.setWorker w i s')=World.queues w := by
  refine Prod.ext (threads_setWorker w i s') ((queueOf_setWorker hi s').trans ?_)
  rw [hc,←queueOf_get (SequenceValueHashMap.get_of_indexOf hi ▸ hs)]
  exact Function.update_eq_self _ _

/-- Work on a worker that leaves its commands alone. -/
theorem queues_onWorker {x : Faulting (WorkerSpec V) Fault α} (hx : Fixes WorkerSpec.cmdBuffer x) :
    Fixes World.queues (onWorker thread x) := by
  intro w
  cases hi : w.workerSpecs.indexOf thread with
  | none => rw [onWorker_missing hi]
  | some i =>
    obtain ⟨s,hs⟩ := Option.isSome_iff_exists.mp
      (SequenceValueHashMap.valueAt_isSome.mpr (SequenceValueHashMap.indexOf_lt hi))
    cases hr : x s with
    | mk r s' =>
      rw [onWorker_eq hi hs hr]
      refine queues_setWorker hi hs ?_
      have hc := hx s
      rwa [hr] at hc

/-- Taking a handle off leaves the queue. -/
theorem queues_popPreAllocated : Fixes WorkerSpec.cmdBuffer
    (popPreAllocated : Faulting (WorkerSpec V) Fault (Option Entity)) := by
  intro s
  unfold popPreAllocated
  split <;> rfl

/-- Reserving slots leaves the queues. -/
theorem queues_tryPreAllocate (amount : ℕ) :
    Fixes World.queues (tryPreAllocateEntities thread amount : Call V Unit) := by
  intro w
  unfold tryPreAllocateEntities
  cases hi : w.workerSpecs.indexOf thread with
  | none =>
    have hget : w.workerSpecs.get thread=none := by
      unfold SequenceValueHashMap.get
      rw [hi,Option.bind_none]
    rw [focus_missing (by rw [hget]; rfl)]
  | some i =>
    obtain ⟨s,hs⟩ := Option.isSome_iff_exists.mp
      (SequenceValueHashMap.valueAt_isSome.mpr (SequenceValueHashMap.indexOf_lt hi))
    have hget : w.workerSpecs.get thread=some s := SequenceValueHashMap.get_of_indexOf hi ▸ hs
    cases hr : preAllocateEntities amount (⟨w.entityAllocator,s.preAllocatedEntities⟩ : Allocating) with
    | mk r p =>
      rw [focus_eq (t:=⟨w.entityAllocator,s.preAllocatedEntities⟩) (by rw [hget]; rfl) hr]
      have hset : World.queues (World.setWorker w i { s with preAllocatedEntities := p.dst })=
          World.queues w := queues_setWorker hi hs rfl
      refine Eq.trans (queues_congr ?_) hset
      dsimp only [World.setWorker]
      rw [SequenceValueHashMap.modify,hi]
      exact SequenceValueHashMap.modifyAt_congr hs rfl

/-- So does taking a handle. -/
theorem queues_takePreAllocated (thread : ℕ) :
    Fixes World.queues (takePreAllocated thread : Call V Entity) := by
  refine Fixes.bind (queues_onWorker queues_popPreAllocated) fun first => ?_
  split
  · exact Fixes.pure _
  · refine Fixes.bind (queues_tryPreAllocate _) fun _ => ?_
    refine Fixes.bind (queues_onWorker queues_popPreAllocated) fun second => ?_
    split
    · exact Fixes.pure _
    · exact Fixes.fault _

/-- A thread is registered once, behind those that are. -/
def registerThread (thread : ℕ) (threads : List ℕ) : List ℕ :=
  if thread∈threads then threads else threads++[thread]

/-- The thread has a worker, and every queue is what it was. -/
structure Warmed (thread : ℕ) (w w' : World V) : Prop where
  /-- The thread is registered. -/
  threads : World.threads w'=registerThread thread (World.threads w)
  /-- No queue moved. -/
  queues : World.queueOf w'=World.queueOf w

/-- The thread has a worker, and one command more in its queue. -/
structure Enqueued (thread : ℕ) (cmd : CmdBuffer V) (w w' : World V) : Prop where
  /-- The thread is registered. -/
  threads : World.threads w'=registerThread thread (World.threads w)
  /-- Its queue got the command at the end, the others stay. -/
  queues : World.queueOf w'=
    Function.update (World.queueOf w) thread (World.queueOf w thread++[cmd])

/-- Warming up registers the thread and leaves the queues. -/
theorem warmUp_warmed (thread : ℕ) (w : World V) :
    ∃ w',warmUp thread w=(.ok (),w') ∧ HasWorker thread w' ∧ Warmed thread w w' := by
  unfold warmUp
  rw [getState_bind]
  cases hi : w.workerSpecs.indexOf thread with
  | some i =>
    obtain ⟨s,hs⟩ := Option.isSome_iff_exists.mp
      (SequenceValueHashMap.valueAt_isSome.mpr (SequenceValueHashMap.indexOf_lt hi))
    refine ⟨w,?_,⟨i,s,hi,hs⟩,?_,rfl⟩
    · rw [SequenceValueHashMap.containsKey,hi]
      rfl
    · rw [registerThread,if_pos]
      exact SequenceValueHashMap.indexOf_isSome.mp (Option.isSome_of_mem hi)
  | none =>
    have hnew : thread∉World.threads w := SequenceValueHashMap.indexOf_none.mp hi
    refine ⟨{ w with workerSpecs := (w.workerSpecs.insert thread WorkerSpec.new).1 },
      by rw [SequenceValueHashMap.containsKey,hi]; rfl,⟨w.workerSpecs.len,WorkerSpec.new,?_,?_⟩,?_,
      funext fun t => ?_⟩
    · rw [SequenceValueHashMap.insert_new hi,SequenceValueHashMap.indexOf_push,if_pos rfl]
    · rw [SequenceValueHashMap.insert_new hi,SequenceValueHashMap.valueAt_push,if_pos rfl]
    · rw [registerThread,if_neg hnew,World.threads,SequenceValueHashMap.insert_new hi]
      exact SequenceValueHashMap.keys_push _ _ _ hi
    · rw [World.queueOf,World.queueOf,SequenceValueHashMap.insert_new hi]
      have hget : (w.workerSpecs.push thread WorkerSpec.new hi).get t=
          if t=thread then some WorkerSpec.new else w.workerSpecs.get t := by
        unfold SequenceValueHashMap.get
        rw [SequenceValueHashMap.indexOf_push]
        split
        · rw [Option.bind_some,SequenceValueHashMap.valueAt_push,if_pos rfl]
        · cases hj : w.workerSpecs.indexOf t with
          | none => rfl
          | some j =>
            have hne : j≠w.workerSpecs.len := (SequenceValueHashMap.indexOf_lt hj).ne
            rw [Option.bind_some,Option.bind_some,SequenceValueHashMap.valueAt_push,if_neg hne]
      rw [hget]
      split
      · rename_i ht
        subst ht
        unfold SequenceValueHashMap.get
        rw [hi,Option.bind_none]
        rfl
      · rfl

/-- Pushing a command puts it at the end of its thread's queue. -/
theorem pushCmd_enqueued (h : HasWorker thread w) (cmd : CmdBuffer V) :
    ∃ w',pushCmd thread cmd w=(.ok (),w') ∧ World.threads w'=World.threads w ∧
      World.queueOf w'=
        Function.update (World.queueOf w) thread (World.queueOf w thread++[cmd]) := by
  obtain ⟨i,s,hi,hs⟩ := h
  refine ⟨_,onWorker_eq hi hs rfl,threads_setWorker w i _,(queueOf_setWorker hi _).trans ?_⟩
  rw [queueOf_get (SequenceValueHashMap.get_of_indexOf hi ▸ hs)]

/-- Warming up and pushing enqueue a command. -/
theorem Warmed.enqueue {w'' : World V} {cmd : CmdBuffer V} (h : Warmed thread w w')
    (ht : World.threads w''=World.threads w')
    (hq : World.queueOf w''=
      Function.update (World.queueOf w') thread (World.queueOf w' thread++[cmd])) :
    Enqueued thread cmd w w'' := ⟨ht.trans h.threads,h.queues ▸ hq⟩

end Workers

section Calls

/-- The command a call is queued as. A queued create comes with its handle. -/
def CmdCall.command (thread : ℕ) (e : Entity) : CmdCall V → CmdBuffer V
  | .create val => .create thread e val
  | .addComponent e val => .addComponent thread e val
  | .mergeComponent e val => .mergeComponent thread e val
  | .removeComponent T e => .removeComponent thread T e
  | .destroy e => .destroy thread e

/-- Queueing one command on a thread that may be new. -/
theorem warmUp_pushCmd (cmd : CmdBuffer V) (w : World V) : ∃ w₁ w',warmUp thread w=(.ok (),w₁) ∧
    pushCmd thread cmd w₁=(.ok (),w') ∧ Enqueued thread cmd w w' := by
  obtain ⟨w₁,hrun₁,hhas,hwarm⟩ := warmUp_warmed thread w
  obtain ⟨w',hrun,ht,hq⟩ := pushCmd_enqueued hhas cmd
  exact ⟨w₁,w',hrun₁,hrun,hwarm.enqueue ht hq⟩

/-- A registered thread has a worker. -/
theorem hasWorker_queues (h : World.threads w'=World.threads w) (hw : HasWorker thread w) :
    HasWorker thread w' := by
  obtain ⟨i,s,hi,-⟩ := hw
  have hmem : thread∈World.threads w' := by
    rw [h]
    exact SequenceValueHashMap.indexOf_isSome.mp (Option.isSome_of_mem hi)
  obtain ⟨j,hj⟩ := Option.isSome_iff_exists.mp (SequenceValueHashMap.indexOf_isSome.mpr hmem)
  obtain ⟨s',hs'⟩ := Option.isSome_iff_exists.mp
    (SequenceValueHashMap.valueAt_isSome.mpr (SequenceValueHashMap.indexOf_lt hj))
  exact ⟨j,s',hj,hs'⟩

variable [Inhabited V]

/-- In a parallel step a call reaches the queue of its thread. Only a create can
fail before that, when there is no handle to give out. -/
theorem CmdCall.queued (c : CmdCall V) (thread : ℕ) (form : CallForm)
    (hp : w.inParallelCompute=true) : wp (c.perform thread form)
      (fun out w' => Enqueued thread (CmdCall.command thread (out.issued.getD .null) c) w w')
      (fun _ w' => Warmed thread w w') w := by
  refine CmdCall.wp_form ?_ form
  have hcond : ¬((!w.inParallelCompute)=true) := by rw [hp]; exact Bool.false_ne_true
  have hpush : ∀ (cmd : CmdBuffer V) (val : Bundle V),
      wp (consuming val (do warmUp thread; pushCmd thread cmd : Call V Unit))
        (fun _ w' => Enqueued thread cmd w w') (fun _ w' => Warmed thread w w') w := by
    intro cmd val
    obtain ⟨w₁,w',hrun₁,hrun,henq⟩ := warmUp_pushCmd cmd w
    rw [consuming,wp_onFault]
    unfold wp
    rw [bind_ok hrun₁,hrun]
    exact henq
  cases c with
  | create val =>
    refine wp_bind.mpr ?_
    unfold Cmd.tryCreate wp
    rw [getState_bind,if_neg hcond]
    change wp (consuming val _) _ _ w
    rw [consuming,wp_onFault]
    obtain ⟨w₁,hrun₁,hhas,hwarm⟩ := warmUp_warmed thread w
    unfold wp
    rw [bind_ok hrun₁]
    change wp _ _ _ w₁
    rw [wp_bind]
    have hkept := queues_takePreAllocated thread w₁
    apply wp_intro
    · intro e w₂ hrun₂
      rw [hrun₂] at hkept
      obtain ⟨ht,hq⟩ := Prod.mk.inj hkept
      obtain ⟨w',hrun,ht',hq'⟩ := pushCmd_enqueued (hasWorker_queues ht hhas) (.create thread e val)
      unfold wp
      rw [bind_ok hrun]
      exact (Warmed.mk (ht.trans hwarm.threads) (hq.trans hwarm.queues)).enqueue ht' hq'
    · intro f w₂ hrun₂
      rw [hrun₂] at hkept
      obtain ⟨ht,hq⟩ := Prod.mk.inj hkept
      exact ⟨ht.trans hwarm.threads,hq.trans hwarm.queues⟩
  | addComponent e val =>
    refine wp_bind.mpr ?_
    unfold Cmd.tryAddComponent wp
    rw [getState_bind,if_neg hcond]
    exact hpush _ val
  | mergeComponent e val =>
    refine wp_bind.mpr ?_
    unfold Cmd.tryMergeComponent wp
    rw [getState_bind,if_neg hcond]
    exact hpush _ val
  | removeComponent T e =>
    obtain ⟨w₁,w',hrun₁,hrun,henq⟩ := warmUp_pushCmd (.removeComponent thread T e) w
    refine wp_bind.mpr ?_
    unfold Cmd.tryRemoveComponent wp
    rw [getState_bind,if_neg hcond,bind_ok hrun₁,bind_ok hrun]
    exact henq
  | destroy e =>
    obtain ⟨w₁,w',hrun₁,hrun,henq⟩ := warmUp_pushCmd (.destroy thread e) w
    refine wp_bind.mpr ?_
    unfold Cmd.tryDestroy wp
    rw [getState_bind,if_neg hcond,bind_ok hrun₁,hrun]
    exact henq

end Calls

section Actions

/-- Taking the front of a queue that has one. -/
theorem popped_queues {cmd : CmdBuffer V} (hf : World.front w i=some cmd) :
    ∃ thread rest,(World.threads w)[i]?=some thread ∧ World.queueOf w thread=cmd::rest ∧
      World.threads (World.popped w i)=World.threads w ∧
      World.queueOf (World.popped w i)=Function.update (World.queueOf w) thread rest := by
  obtain ⟨s,hs,hq⟩ := Option.bind_eq_some_iff.mp hf
  obtain ⟨rest,hrest⟩ : ∃ rest,s.cmdBuffer=cmd::rest := by
    cases hb : s.cmdBuffer with
    | nil => rw [hb] at hq; cases hq
    | cons c rest =>
      rw [hb] at hq
      cases hq
      exact ⟨rest,rfl⟩
  obtain ⟨p,hp,rfl⟩ := Option.map_eq_some_iff.mp hs
  have hk : w.workerSpecs.keyAt i=some p.1 := by
    rw [SequenceValueHashMap.keyAt,hp]
    rfl
  have hi := SequenceValueHashMap.indexOf_eq_some_iff.mpr hk
  have hpop : World.popped w i=World.setWorker w i { p.2 with cmdBuffer := rest } := by
    rw [World.popped,(popCmd_some hs hrest).1]
  refine ⟨p.1,rest,?_,?_,?_,?_⟩
  · rw [World.threads,SequenceValueHashMap.keys,List.getElem?_map]
    exact hk
  · rw [queueOf_get (SequenceValueHashMap.get_of_indexOf hi ▸ hs),hrest]
  · rw [hpop]
    exact threads_setWorker w i _
  · rw [hpop]
    exact queueOf_setWorker hi _

/-- Queues do not change when archetypes do. -/
theorem queues_evolves (h : Evolves w w') : World.queues w'=World.queues w :=
  queues_congr (Evolves.workerSpecs h)

/-- A call that keeps the frame leaves the queues. -/
theorem queues_keeps {x : Call V α} (hx : Keeps False x) (h : RegistryInv False w) :
    World.queues (x w).2=World.queues w := queues_evolves (Keeps.state hx h).2

/-- Asking for a query leaves the queues. -/
theorem queues_unqueried {x : Call V α} (hx : Fixes World.unqueried x) (w : World V) :
    World.queues (x w).2=World.queues w := queues_congr (congrArg (fun c => c.2.2.1) (hx w))

variable [Inhabited V]

/-- Whether an action may change a queue: it defers a command or applies one. -/
def Action.queueing (w : World V) : Action V → Bool
  | .cmd _ _ _ => w.inParallelCompute
  | .applyCmd _ => true
  | _ => false

/-- Applying a command takes it off its queue, and changes no other. -/
theorem applyCmd_queues (h : CoreInv w) {cmd : CmdBuffer V} (hf : World.front w i=some cmd) :
    World.queues (applyCmd i w).2=World.queues (World.popped w i) := by
  rw [applyCmd_front hf]
  have hreg : RegistryInv False (World.popped w i) :=
    RegistryInv.congr h.registry (congrArg Prod.fst (core_popCmd i w))
  exact queues_keeps (Keeps.bind (Keeps.run cmd) fun _ => Keeps.pure _) hreg

/-- Where nothing waits, nothing happens. -/
theorem applyCmd_noFront (hf : World.front w i=none) : (applyCmd i w).2=w := by
  unfold applyCmd
  rcases popCmd_noFront hf with hrun | hrun
  · rw [bind_ok hrun]
    rfl
  · rw [bind_error hrun]

/-- No other action touches a queue. -/
theorem Action.queues_kept (h : CoreInv w) {a : Action V} (ha : Action.queueing w a=false) :
    World.queues (a.step w)=World.queues w := by
  have hthen : ∀ {β : Type} {x : Call V β} (f : β → Outcome V),Fixes World.unqueried x →
      World.queues ((x >>= fun r => return f r) w).2=World.queues w := fun f hx =>
    queues_unqueried (Fixes.bind hx fun _ => Fixes.pure _) w
  cases a with
  | world form c => exact queues_keeps (WorldCall.keeps c form) h.registry
  | cmd form thread c =>
    have hp : w.inParallelCompute=false := ha
    have hdirect : World.queues (c.perform thread .returning w).2=World.queues w := by
      rw [CmdCall.perform_direct c hp]
      exact queues_keeps (WorldCall.keeps c.direct .returning) h.registry
    cases form with
    | returning => exact hdirect
    | raising =>
      obtain ⟨g,hg⟩ := CmdCall.perform_raising thread c
      change World.queues (c.perform thread .raising w).2=_
      rw [hg,mapFault_state]
      exact hdirect
  | applyCmd i => cases ha
  | setInParallelCompute val => exact queues_congr rfl
  | setExecutor present => exact queues_congr rfl
  | advanceTick => exact hthen _ unqueried_advanceTick
  | captureCurrentTick => exact queues_congr rfl
  | createQuery q =>
    refine hthen _ (Fixes.getState fun _ => ?_)
    exact Fixes.bind (Fixes.modifyState fun _ => rfl) fun _ => unqueried_createQuerySince q _
  | createQuerySince q lastRunTick => exact hthen _ (unqueried_createQuerySince q lastRunTick)
  | prepareQuery q => exact hthen _ (unqueried_prepareQuery q)
  | accessScope q => exact hthen _ (unqueried_onComponents _)
  | write l t itemWrite =>
    exact queues_keeps (Keeps.bind (Keeps.writeItem l t itemWrite) fun _ => Keeps.pure _) h.registry

/-- A step that applies a command does just that. -/
theorem applyCmd_step (i : ℕ) (w : World V) : Action.step (.applyCmd i) w=(applyCmd i w).2 :=
  Fixes.after (g:=id) (fun _ => Fixes.pure _) w

/-- Everything that waits in a queue. -/
def Waiting (P : CmdBuffer V → Prop) (w : World V) : Prop :=
  ∀ thread,∀ cmd∈World.queueOf w thread,P cmd

variable {P : CmdBuffer V → Prop}

omit [Inhabited V] in
/-- What is said of waiting commands depends on the queues. -/
theorem Waiting.congr (h : Waiting P w) (hq : World.queueOf w'=World.queueOf w) :
    Waiting P w' := by
  intro thread cmd hc
  rw [hq] at hc
  exact h thread cmd hc

omit [Inhabited V] in
/-- What is said of waiting commands stays true when such a command is queued. -/
theorem Waiting.enqueue {cmd : CmdBuffer V} (h : Waiting P w) (he : Enqueued thread cmd w w')
    (hc : P cmd) : Waiting P w' := by
  intro t c hm
  rw [he.queues,Function.update_apply] at hm
  split at hm
  · rcases List.mem_append.mp hm with hm | hm
    · exact h _ _ hm
    · rw [List.mem_singleton.mp hm]
      exact hc
  · exact h _ _ hm

/-- It stays true when one is applied. -/
theorem Waiting.applyCmd (hcore : CoreInv w) (h : Waiting P w) (i : ℕ) :
    Waiting P (CommandBuffer.applyCmd i w).2 := by
  cases hf : World.front w i with
  | none => rwa [applyCmd_noFront hf]
  | some cmd =>
    obtain ⟨thread,rest,-,hfront,-,hrest⟩ := popped_queues hf
    have hq : World.queueOf (CommandBuffer.applyCmd i w).2=World.queueOf (World.popped w i) :=
      congrArg Prod.snd (applyCmd_queues hcore hf)
    intro t c hm
    rw [hq,hrest,Function.update_apply] at hm
    split at hm
    · refine h thread c ?_
      rw [hfront]
      exact List.mem_cons_of_mem _ hm
    · exact h t c hm

/-- What every queue holds, after an action that queues nothing else. -/
theorem Waiting.step (hcore : CoreInv w) (h : Waiting P w) {a : Action V}
    (hnew : ∀ form thread c,a=.cmd form thread c → ∀ e,P (CmdCall.command thread e c)) :
    Waiting P (a.step w) := by
  cases hq : Action.queueing w a with
  | false => exact h.congr (congrArg Prod.snd (Action.queues_kept hcore hq))
  | true => cases a with
    | cmd form thread c =>
      have hrun : wp (c.perform thread form) (fun _ w' => Waiting P w') (fun _ w' => Waiting P w') w :=
        wp_mono (CmdCall.queued c thread form hq)
          (fun out w' henq => h.enqueue henq (hnew form thread c rfl _))
          fun _ w' hw => h.congr hw.queues
      exact wp_state hrun
    | applyCmd i =>
      rw [applyCmd_step]
      exact h.applyCmd hcore i
    | _ => cases hq

/-- The action queues no destroy. -/
def Action.queuesNoDestroy : Action V → Bool
  | .cmd _ _ (.destroy _) => false
  | _ => true

/-- Where no destroy is ever queued, every destroy names an entity that exists or
fails at once. -/
theorem proper_of_noDestroy (runtime : Runtime) {as : List (Action V)}
    (ha : ∀ a∈as,Action.queuesNoDestroy a=true) :
    Along Action.step (Proper False) as (World.new runtime) := by
  have hrun : ∀ (as : List (Action V)) (w : World V),(∀ a∈as,Action.queuesNoDestroy a=true) →
      CoreInv w → Waiting (fun cmd => ∀ t e,cmd≠.destroy t e) w →
      Along Action.step (Proper False) as w := by
    intro as
    induction as with
    | nil => exact fun _ _ _ _ => trivial
    | cons a as ih =>
      intro w ha hcore hold
      have hnew := ha a List.mem_cons_self
      refine ⟨⟨False.elim,?_⟩,ih _ (fun b hb => ha b (List.mem_cons_of_mem _ hb))
        (Action.grew a hcore).1 (hold.step hcore ?_)⟩
      · cases a with
        | applyCmd i =>
          intro t e hf
          obtain ⟨thread,rest,-,hfront,-⟩ := popped_queues hf
          refine absurd rfl (hold thread (.destroy t e) ?_ t e)
          rw [hfront]
          exact List.mem_cons_self
        | _ => trivial
      · rintro form thread c rfl e t e'
        cases c with
        | destroy e => cases hnew
        | _ => exact nofun
  exact hrun as _ ha (coreInv_new runtime) fun thread cmd hc => by cases hc

end Actions

end XynokEcs.CommandQueues
