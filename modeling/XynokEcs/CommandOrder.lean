import XynokEcs.KeyedLogs
import XynokEcs.QueuedFailures
import XynokEcs.CommandQueues

/-!
# The order in which commands are applied

Between two sync points the commands of all systems are kept thread by thread,
and a sync point takes them thread by thread, in the order the threads
registered. The commands of one system are applied in the order it recorded them
exactly when it never went back to a thread that registered before.
-/

namespace XynokEcs.CommandOrder

open ComponentTypes EntityHandle SequenceValueMap FaultingState EntityAllocation WorldState WorldCalls
  CommandBuffer StoreInvariants WorkerQueues ActionRuns WorldRuns ActionEffects WorldGrowth
  QueuedFailures CommandQueues KeyedLogs

variable {V : Type} {w w' : World V}

section Recording

/-- A command, and the system that recorded it. -/
structure Recording (V : Type) where
  /-- The system that recorded it. -/
  system : ℕ
  /-- What was recorded. -/
  cmd : CmdBuffer V
deriving DecidableEq

/-- The thread the system ran on. -/
def Recording.thread (r : Recording V) : ℕ := CmdBuffer.thread r.cmd

/-- Something that happens between two sync points, and the system that does it. -/
structure Turn (V : Type) where
  /-- The system that has the turn. -/
  system : ℕ
  /-- What it does. -/
  action : Action V

/-- The action is part of a sync point. -/
def Action.isApply : Action V → Bool
  | .applyCmd _ => true
  | _ => false

/-- A command belongs to the thread that queued it. -/
theorem command_thread (thread : ℕ) (e : Entity) (c : CmdCall V) :
    CmdBuffer.thread (CmdCall.command thread e c)=thread := by
  cases c <;> rfl

variable [Inhabited V]

/-- The command an action records. A call that fails records none. -/
def Action.recorded (w : World V) : Action V → Option (CmdBuffer V)
  | .cmd form thread c =>
    if w.inParallelCompute then match (c.perform thread form w).1 with
      | .ok out => some (CmdCall.command thread (out.issued.getD .null) c)
      | .error _ => none
    else none
  | _ => none

/-- The commands recorded by all systems, one after another. -/
def recordings : List (Turn V) → World V → List (Recording V)
  | [],_ => []
  | turn::turns,w => ((Action.recorded w turn.action).map (Recording.mk turn.system)).toList++
      recordings turns (turn.action.step w)

/-- The world after all turns. -/
def turnRun (turns : List (Turn V)) (w : World V) : World V :=
  runAll Action.step (turns.map Turn.action) w

/-- What an action does to the queues outside of sync points. -/
theorem Action.recorded_queues (h : CoreInv w) {a : Action V} (ha : Action.isApply a=false) :
    (∀ t∈World.threads w,t∈World.threads (a.step w)) ∧
    (∀ cmd∈Action.recorded w a,CmdBuffer.thread cmd∈World.threads (a.step w)) ∧
    ∀ t,World.queueOf (a.step w) t=World.queueOf w t++
      (Action.recorded w a).toList.filter fun cmd => CmdBuffer.thread cmd=t := by
  have hkept : World.queues (a.step w)=World.queues w → Action.recorded w a=none →
      (∀ t∈World.threads w,t∈World.threads (a.step w)) ∧
      (∀ cmd∈Action.recorded w a,CmdBuffer.thread cmd∈World.threads (a.step w)) ∧
      ∀ t,World.queueOf (a.step w) t=World.queueOf w t++
        (Action.recorded w a).toList.filter fun cmd => CmdBuffer.thread cmd=t := by
    intro hq hn
    obtain ⟨ht,hq⟩ := Prod.mk.inj hq
    rw [hn]
    refine ⟨fun t hm => ht ▸ hm,nofun,fun t => ?_⟩
    rw [hq]
    exact (List.append_nil _).symm
  cases hq : Action.queueing w a with
  | false =>
    refine hkept (Action.queues_kept h hq) ?_
    cases a with
    | cmd form thread c =>
      have hp : w.inParallelCompute=false := hq
      rw [Action.recorded,hp]
      rfl
    | _ => rfl
  | true => cases a with
    | cmd form thread c =>
      have hp : w.inParallelCompute=true := hq
      have hthreads : ∀ t∈World.threads w,t∈registerThread thread (World.threads w) := by
        intro t hm
        unfold registerThread
        split
        · exact hm
        · exact List.mem_append_left _ hm
      have hthread : thread∈registerThread thread (World.threads w) := by
        unfold registerThread
        split
        · assumption
        · exact List.mem_append_right _ List.mem_cons_self
      have hrun := CmdCall.queued c thread form hp
      cases hr : c.perform thread form w with
      | mk r w' => cases r with
        | ok out =>
          have henq := wp_of_ok hrun hr
          have hrec : Action.recorded w (.cmd form thread c)=
              some (CmdCall.command thread (out.issued.getD .null) c) := by
            rw [Action.recorded,hp,hr]
            rfl
          have hstep : Action.step (.cmd form thread c) w=w' := congrArg Prod.snd hr
          rw [hrec,hstep]
          refine ⟨fun t hm => henq.threads ▸ hthreads t hm,?_,fun t => ?_⟩
          · rintro cmd ⟨⟩
            rw [henq.threads,command_thread]
            exact hthread
          · rw [henq.queues,Function.update_apply,Option.toList_some,List.filter_singleton,
              command_thread]
            by_cases ht : t=thread
            · subst ht
              simp
            · simp [ht,Ne.symm ht]
        | error f =>
          have hwarm := wp_of_error hrun hr
          have hrec : Action.recorded w (.cmd form thread c)=none := by
            rw [Action.recorded,hp,hr]
            rfl
          have hstep : Action.step (.cmd form thread c) w=w' := congrArg Prod.snd hr
          rw [hrec,hstep]
          refine ⟨fun t hm => hwarm.threads ▸ hthreads t hm,nofun,fun t => ?_⟩
          rw [hwarm.queues]
          exact (List.append_nil _).symm
    | applyCmd i => cases ha
    | _ => cases hq

/-- The queues after the turns: every thread has what was recorded on it. -/
theorem turnRun_queues (turns : List (Turn V)) (h : CoreInv w)
    (ha : ∀ turn∈turns,Action.isApply turn.action=false) :
    (∀ t∈World.threads w,t∈World.threads (turnRun turns w)) ∧
    (∀ r∈recordings turns w,Recording.thread r∈World.threads (turnRun turns w)) ∧
    ∀ t,World.queueOf (turnRun turns w) t=World.queueOf w t++
      ((recordings turns w).filter fun r => Recording.thread r=t).map Recording.cmd := by
  induction turns generalizing w with
  | nil => exact ⟨fun _ hm => hm,nofun,fun t => (List.append_nil _).symm⟩
  | cons turn turns ih =>
    obtain ⟨hkeep,hnew,hqueue⟩ := Action.recorded_queues h (ha turn List.mem_cons_self)
    obtain ⟨hkeep',hnew',hqueue'⟩ := ih (Action.grew turn.action h).1
      fun t ht => ha t (List.mem_cons_of_mem _ ht)
    refine ⟨fun t hm => hkeep' t (hkeep t hm),fun r hm => ?_,fun t => ?_⟩
    · rcases List.mem_append.mp hm with hm | hm
      · obtain ⟨cmd,hc,rfl⟩ := Option.map_eq_some_iff.mp (Option.mem_toList.mp hm)
        exact hkeep' _ (hnew cmd hc)
      · exact hnew' r hm
    · refine (hqueue' t).trans ?_
      rw [hqueue,List.append_assoc,recordings,List.filter_append,List.map_append]
      congr 2
      cases Action.recorded w turn.action with
      | none => rfl
      | some cmd =>
        simp only [Option.toList_some,Option.map_some,List.filter_singleton,Recording.thread]
        by_cases ht : CmdBuffer.thread cmd=t <;> simp [ht]

/-- Turns leave the world in order. -/
theorem coreInv_turnRun (turns : List (Turn V)) (h : CoreInv w) : CoreInv (turnRun turns w) :=
  (grew_run (turns.map Turn.action) h).1

end Recording

section Draining

variable {i : ℕ} {q : List (CmdBuffer V)}

/-- The queues of the workers, in the order the workers registered. -/
def World.waits (w : World V) : List (List (CmdBuffer V)) :=
  (World.threads w).map (World.queueOf w)

/-- Everything queued, worker by worker. -/
def World.waiting (w : World V) : List (CmdBuffer V) := (World.waits w).flatten

/-- What waits depends on the queues. -/
theorem waits_congr (h : World.queues w'=World.queues w) : World.waits w'=World.waits w := by
  obtain ⟨ht,hq⟩ := Prod.mk.inj h
  rw [World.waits,World.waits,ht,hq]

/-- What waits at a position is the queue of that worker. -/
theorem waits_valueAt (w : World V) (i : ℕ) :
    (World.waits w)[i]?=(w.workerSpecs.valueAt i).map WorkerSpec.cmdBuffer := by
  rw [World.waits,List.getElem?_map]
  cases hs : w.workerSpecs.valueAt i with
  | none =>
    have hlen : (World.threads w).length ≤ i := by
      rw [World.threads,SequenceValueHashMap.keys,List.length_map]
      exact SequenceValueHashMap.valueAt_none.mp hs
    rw [List.getElem?_eq_none hlen]
    rfl
  | some s =>
    have hv := hs
    obtain ⟨p,hp,hps⟩ := Option.map_eq_some_iff.mp hs
    have hk : w.workerSpecs.keyAt i=some p.1 := by
      rw [SequenceValueHashMap.keyAt,hp]
      rfl
    have ht : (World.threads w)[i]?=some p.1 := by
      rw [World.threads,SequenceValueHashMap.keys,List.getElem?_map]
      exact hk
    have hi := SequenceValueHashMap.indexOf_eq_some_iff.mpr hk
    rw [ht,Option.map_some,Option.map_some,
      queueOf_get ((SequenceValueHashMap.get_of_indexOf hi).trans hv)]

/-- The next command is the first of those that wait. -/
theorem front_waits (w : World V) (i : ℕ) :
    World.front w i=(World.waits w)[i]?.bind List.head? := by
  rw [waits_valueAt,World.front]
  cases w.workerSpecs.valueAt i <;> rfl

/-- Nothing is applied off an empty queue. -/
theorem applyCmd_empty [Inhabited V] (hq : (World.waits w)[i]?=some []) :
    applyCmd i w=(.ok false,w) := by
  rw [waits_valueAt] at hq
  obtain ⟨s,hs,hnil⟩ := Option.map_eq_some_iff.mp hq
  unfold applyCmd
  rw [bind_ok (popCmd_empty hs hnil)]
  rfl

/-- A queue counts what waits in it. -/
theorem queued_waits (hq : (World.waits w)[i]?=some q) : World.queued w i=q.length := by
  rw [waits_valueAt] at hq
  obtain ⟨s,hs,rfl⟩ := Option.map_eq_some_iff.mp hq
  rw [World.queued,hs]
  rfl

/-- Taking the front command shortens one queue. -/
theorem popped_waits {cmd : CmdBuffer V} (hq : (World.waits w)[i]?=some (cmd::q)) :
    World.threads (World.popped w i)=World.threads w ∧
      World.waits (World.popped w i)=(World.waits w).set i q := by
  have hf : World.front w i=some cmd := by
    rw [front_waits,hq]
    rfl
  obtain ⟨t,rest,ht,hfront,hthreads,hrest⟩ := popped_queues hf
  have hq' : World.queueOf w t=cmd::q := by
    have := hq
    rw [World.waits,List.getElem?_map,ht] at this
    exact Option.some.inj this
  obtain rfl : rest=q := (List.cons.inj (hfront.symm.trans hq')).2
  refine ⟨hthreads,?_⟩
  obtain ⟨hi,hti⟩ := List.getElem?_eq_some_iff.mp ht
  have hn : (World.threads w).Nodup := w.workerSpecs.keys_nodup
  refine List.ext_getElem? fun j => ?_
  rw [World.waits,hthreads,hrest,List.getElem?_map,List.getElem?_set,World.waits,List.length_map,
    List.getElem?_map]
  by_cases hij : i=j
  · subst hij
    rw [if_pos rfl,if_pos hi,ht,Option.map_some,Function.update_self]
  · rw [if_neg hij]
    cases hj : (World.threads w)[j]? with
    | none => rfl
    | some t' =>
      obtain ⟨hj',htj⟩ := List.getElem?_eq_some_iff.mp hj
      have hne : t'≠t := by
        intro he
        rw [←hti,←htj] at he
        exact hij ((List.Nodup.getElem_inj_iff hn).mp he).symm
      rw [Option.map_some,Option.map_some,Function.update_of_ne hne]

variable [Inhabited V]

/-- The commands the loop over one queue takes. A panic ends it. -/
def taken (i : ℕ) : ℕ → World V → List (CmdBuffer V)
  | 0,_ => []
  | turns+1,w => match World.front w i with
    | none => []
    | some cmd => cmd::match applyCmd i w with
      | (.ok _,w') => taken i turns w'
      | (.error _,_) => []

/-- The commands the loop over the workers takes. -/
def takenAll : List ℕ → World V → List (CmdBuffer V)
  | [],_ => []
  | i::rest,w => taken i (World.queued w i) w++match flushWorker i (World.queued w i) w with
    | (.ok _,w') => takenAll rest w'
    | (.error _,_) => []

/-- The commands a sync point applies, in order. -/
def World.syncTrace (w : World V) : List (CmdBuffer V) :=
  takenAll (List.range w.workerSpecs.len) w

/-- The world after some sync points in a row. -/
def afterSyncs (n : ℕ) (w : World V) : World V := (fun w => (syncPoint w).2)^[n] w

/-- The commands these sync points apply, in order. -/
def syncTraces : ℕ → World V → List (CmdBuffer V)
  | 0,_ => []
  | n+1,w => World.syncTrace w++syncTraces n (syncPoint w).2

/-- What a part of a sync point leaves: one queue is shorter. -/
structure Drained (i : ℕ) (q : List (CmdBuffer V)) (w w' : World V) : Prop where
  /-- The world is still in order. -/
  core : CoreInv w'
  /-- No worker came or went. -/
  threads : World.threads w'=World.threads w
  /-- The one queue is what was left of it. -/
  waits : World.waits w'=(World.waits w).set i q

/-- Applying a command takes it off the front. -/
theorem applyCmd_drained (h : CoreInv w) {cmd : CmdBuffer V}
    (hq : (World.waits w)[i]?=some (cmd::q)) : Drained i q w (applyCmd i w).2 := by
  have hf : World.front w i=some cmd := by
    rw [front_waits,hq]
    rfl
  obtain ⟨hthreads,hwaits⟩ := popped_waits hq
  have hqueues := applyCmd_queues h hf
  have hcore := (Action.grew (.applyCmd i) h).1
  rw [applyCmd_step] at hcore
  exact ⟨hcore,(Prod.mk.inj hqueues).1.trans hthreads,(waits_congr hqueues).trans hwaits⟩

/-- A command that is applied says that there may be more. -/
theorem applyCmd_more {cmd : CmdBuffer V} (hf : World.front w i=some cmd) {more : Bool}
    (hr : (applyCmd i w).1=.ok more) : more=true := by
  rw [applyCmd_front hf] at hr
  cases hrun : CmdBuffer.run cmd (World.popped w i) with
  | mk r w₂ => cases r with
    | ok u =>
      rw [bind_ok hrun] at hr
      exact (Except.ok.inj hr).symm
    | error f =>
      rw [bind_error hrun] at hr
      cases hr

omit [Inhabited V] in
/-- A queue that is replaced by itself changes nothing. -/
theorem waits_set (hq : (World.waits w)[i]?=some q) : (World.waits w).set i q=World.waits w := by
  obtain ⟨hi,hw⟩ := List.getElem?_eq_some_iff.mp hq
  rw [←hw]
  exact List.set_getElem_self hi

/-- The loop over one queue takes a part of it, all of it unless it panics. -/
theorem flushWorker_drained (h : CoreInv w) (hq : (World.waits w)[i]?=some q) (turns : ℕ)
    (hn : q.length ≤ turns) : ∃ q',Drained i q' w (flushWorker i turns w).2 ∧
      q=taken i turns w++q' ∧ ((flushWorker i turns w).1=.ok () → q'=[]) ∧
      (taken i turns w=[] → q=[] ∧ (flushWorker i turns w).1=.ok ()) := by
  induction turns generalizing w q with
  | zero =>
    have hnil : q=[] := List.length_eq_zero_iff.mp (Nat.le_zero.mp hn)
    exact ⟨q,⟨h,rfl,(waits_set hq).symm⟩,rfl,fun _ => hnil,fun _ => ⟨hnil,rfl⟩⟩
  | succ turns ih =>
    cases q with
    | nil =>
      have hend : flushWorker i (turns+1) w=(.ok (),w) := by
        rw [flushWorker,bind_ok (applyCmd_empty hq)]
        rfl
      have hnone : taken i (turns+1) w=[] := by
        rw [taken,front_waits,hq]
        rfl
      rw [hend,hnone]
      exact ⟨[],⟨h,rfl,(waits_set hq).symm⟩,rfl,fun _ => rfl,fun _ => ⟨rfl,rfl⟩⟩
    | cons cmd q =>
      have hf : World.front w i=some cmd := by
        rw [front_waits,hq]
        rfl
      have hstep := applyCmd_drained h hq
      have hi : i < (World.waits w).length := (List.getElem?_eq_some_iff.mp hq).1
      rw [taken,hf,flushWorker]
      cases hr : applyCmd i w with
      | mk r w₁ =>
        rw [hr] at hstep
        cases r with
        | ok more =>
          have hmore : more=true := applyCmd_more hf (congrArg Prod.fst hr)
          have hq₁ : (World.waits w₁)[i]?=some q := by
            rw [hstep.waits]
            exact List.getElem?_set_self hi
          obtain ⟨q',hd,hsplit,hok,-⟩ := ih hstep.core hq₁ (Nat.le_of_succ_le_succ hn)
          rw [bind_ok hr,hmore]
          refine ⟨q',⟨hd.core,hd.threads.trans hstep.threads,?_⟩,?_,hok,nofun⟩
          · refine hd.waits.trans ?_
            rw [hstep.waits,List.set_set]
          · rw [List.cons_append]
            exact congrArg _ hsplit
        | error f =>
          rw [bind_error hr]
          exact ⟨q,hstep,rfl,nofun,nofun⟩

/-- The loop over the workers takes a beginning of everything queued. -/
theorem flushWorkers_drained (h : CoreInv w) {k m : ℕ} (hlen : k+m=(World.waits w).length)
    (hfirst : ∀ j < k,∀ q∈(World.waits w)[j]?,q=[]) :
    CoreInv (flushWorkers (List.range' k m) w).2 ∧
    World.threads (flushWorkers (List.range' k m) w).2=World.threads w ∧
    World.waiting w=
      takenAll (List.range' k m) w++World.waiting (flushWorkers (List.range' k m) w).2 ∧
    ((flushWorkers (List.range' k m) w).1=.ok () →
      World.waiting (flushWorkers (List.range' k m) w).2=[]) ∧
    (takenAll (List.range' k m) w=[] → World.waiting w=[]) := by
  induction m generalizing k w with
  | zero =>
    have hnil : World.waiting w=[] := by
      refine List.flatten_eq_nil_iff.mpr fun q hq => ?_
      obtain ⟨j,hj,rfl⟩ := List.getElem_of_mem hq
      exact hfirst j (by omega) _ (List.getElem?_eq_getElem hj)
    exact ⟨h,rfl,rfl,fun _ => hnil,fun _ => hnil⟩
  | succ m ih =>
    have hk : k < (World.waits w).length := by omega
    have hq : (World.waits w)[k]?=some (World.waits w)[k] := List.getElem?_eq_getElem hk
    have hturns := queued_waits hq
    obtain ⟨q',hd,hsplit,hok,hnone⟩ := flushWorker_drained h hq _ hturns.ge
    rw [hsplit] at hq
    have hflat : World.waiting w=taken k (World.queued w k) w++
        World.waiting (flushWorker k (World.queued w k) w).2 := by
      refine (flatten_set_of_first hq hfirst).trans ?_
      rw [World.waiting,hd.waits]
    rw [List.range'_succ,flushWorkers,getState_bind,takenAll]
    cases hr : flushWorker k (World.queued w k) w with
    | mk r w₁ =>
      rw [hr] at hd hok hflat hnone
      cases r with
      | ok u =>
        have hnil : q'=[] := hok rfl
        have hlen' : k+1+m=(World.waits w₁).length := by
          rw [hd.waits,List.length_set]
          omega
        obtain ⟨hcore,hthreads,hih,hdone,hstuck⟩ := ih hd.core hlen' fun j hj q hq' => by
          rw [hd.waits,List.getElem?_set] at hq'
          split at hq'
          · exact (Option.some.inj hq').symm.trans hnil
          · exact hfirst j (by omega) q hq'
        rw [bind_ok hr]
        refine ⟨hcore,hthreads.trans hd.threads,?_,hdone,fun hn => ?_⟩
        · rw [hflat,List.append_assoc]
          exact congrArg _ hih
        · obtain ⟨hn,hn'⟩ := List.append_eq_nil_iff.mp hn
          rw [hflat,hn,hstuck hn']
          rfl
      | error f =>
        rw [bind_error hr]
        refine ⟨hd.core,hd.threads,?_,nofun,fun hn => ?_⟩
        · rw [hflat,List.append_nil]
        · rw [List.append_nil] at hn
          cases (hnone hn).2

/-- A sync point takes what is queued from the front, all of it unless it panics. -/
theorem syncPoint_drained (h : CoreInv w) : CoreInv (syncPoint w).2 ∧
    World.threads (syncPoint w).2=World.threads w ∧
    World.waiting w=World.syncTrace w++World.waiting (syncPoint w).2 ∧
    ((syncPoint w).1=.ok () → World.waiting (syncPoint w).2=[]) ∧
    (World.syncTrace w=[] → World.waiting w=[]) := by
  have hlen : 0+w.workerSpecs.len=(World.waits w).length := by
    rw [World.waits,List.length_map,World.threads,SequenceValueHashMap.keys,List.length_map,
      Nat.zero_add]
    rfl
  have hrun := flushWorkers_drained h hlen fun j hj => absurd hj (Nat.not_lt_zero j)
  rw [World.syncTrace,List.range_eq_range',syncPoint,flushCmd,getState_bind,List.range_eq_range']
  exact hrun

/-- Sync points take what is queued from the front. -/
theorem syncTraces_drained (h : CoreInv w) (n : ℕ) :
    World.waiting w=syncTraces n w++World.waiting (afterSyncs n w) := by
  induction n generalizing w with
  | zero => rfl
  | succ n ih =>
    obtain ⟨hcore,-,hsync,-⟩ := syncPoint_drained h
    rw [syncTraces,List.append_assoc,afterSyncs,Function.iterate_succ_apply,hsync]
    exact congrArg _ (ih hcore)

/-- Enough sync points apply everything, whatever panics on the way. -/
theorem syncs_finish (h : CoreInv w) {n : ℕ} (hn : (World.waiting w).length ≤ n) :
    World.waiting (afterSyncs n w)=[] := by
  induction n generalizing w with
  | zero => exact List.length_eq_zero_iff.mp (Nat.le_zero.mp hn)
  | succ n ih =>
    obtain ⟨hcore,-,hsync,-,hnone⟩ := syncPoint_drained h
    have hlen := congrArg List.length hsync
    rw [List.length_append] at hlen
    have hle : (World.waiting (syncPoint w).2).length ≤ n := by
      by_cases ht : World.syncTrace w=[]
      · rw [hnone ht,List.length_nil] at hlen
        omega
      · have := List.length_pos_iff.mpr ht
        omega
    exact ih hcore hle

end Draining

section Order

/-- What sync points applied, told apart by who recorded it: everything recorded
is there once, and what one thread queued keeps its order. -/
structure Replays (log : List (Recording V)) (applied : List (CmdBuffer V))
    (trace : List (Recording V)) : Prop where
  /-- The log lists what was applied, in order. -/
  commands : trace.map Recording.cmd=applied
  /-- Commands of one thread are applied in the order they were queued. -/
  threads : ∀ t,trace.filter (fun r => Recording.thread r=t)=log.filter fun r => Recording.thread r=t

/-- The commands of one system, in order. -/
def ofSystem (system : ℕ) (log : List (Recording V)) : List (Recording V) :=
  log.filter fun r => r.system=system

/-- There is only one way to tell the applied commands apart. -/
theorem Replays.unique {log trace trace' : List (Recording V)} {applied : List (CmdBuffer V)}
    (h : Replays log applied trace) (h' : Replays log applied trace') : trace'=trace := by
  have hthread : ∀ l : List (Recording V),
      l.map Recording.thread=(l.map Recording.cmd).map CmdBuffer.thread := fun l => by
    rw [List.map_map]
    rfl
  have hkeys : trace'.map Recording.thread=trace.map Recording.thread := by
    rw [hthread,hthread,h.commands,h'.commands]
  exact eq_of_filter_key hkeys fun t => (h'.threads t).trans (h.threads t).symm

variable [Inhabited V]

/-- Between two sync points every system's commands are kept, and the sync points
after it apply each of them once; a system's commands are applied in the order
it recorded them exactly when, in the order in which the threads registered, it
never went back to an earlier thread. -/
theorem sync_keepsOrder_iff (runtime : Runtime) (as : List (Action V)) (turns : List (Turn V)) (n : ℕ)
    (hempty : World.waiting (runAll Action.step as (World.new runtime))=[])
    (hturns : ∀ turn∈turns,Action.isApply turn.action=false)
    (hdone : World.waiting
      (afterSyncs n (turnRun turns (runAll Action.step as (World.new runtime))))=[]) :
    let w := runAll Action.step as (World.new runtime)
    let w' := turnRun turns w
    let log := recordings turns w
    ∃ trace,Replays log (syncTraces n w') trace ∧
      (∀ trace',Replays log (syncTraces n w') trace' → trace'=trace) ∧
      ((∀ system,ofSystem system trace=ofSystem system log) ↔
        ∀ system,InOrder Recording.thread (World.threads w') (ofSystem system log)) := by
  intro w w' log
  have hcore : CoreInv w := coreInv_run runtime as
  obtain ⟨hkeep,hmem,hqueues⟩ := turnRun_queues turns hcore hturns
  have hcore' : CoreInv w' := coreInv_turnRun turns hcore
  have hn : (World.threads w').Nodup := w'.workerSpecs.keys_nodup
  have hbefore : ∀ t,World.queueOf w t=[] := by
    intro t
    by_cases ht : t∈World.threads w
    · exact List.flatten_eq_nil_iff.mp hempty _ (List.mem_map_of_mem ht)
    · rw [World.queueOf,SequenceValueHashMap.get,SequenceValueHashMap.indexOf_none.mpr ht]
      rfl
  have happlied : (byKey Recording.thread (World.threads w') log).map Recording.cmd=
      syncTraces n w' := by
    have hall := syncTraces_drained hcore' n
    rw [hdone,List.append_nil] at hall
    rw [←hall,World.waiting,World.waits,byKey,List.map_flatMap,List.flatMap_def]
    congr 2
    funext t
    rw [hqueues t,hbefore,List.nil_append]
  have htrace : Replays log (syncTraces n w') (byKey Recording.thread (World.threads w') log) :=
    ⟨happlied,byKey_filter_key hn hmem⟩
  refine ⟨_,htrace,fun trace' h' => htrace.unique h',forall_congr' fun system => ?_⟩
  rw [ofSystem,filter_byKey]
  exact byKey_eq_iff hn fun r hr => hmem r (List.mem_filter.mp hr).1

end Order

section Samples

/-- A group runs twice without a sync point in between. System 7 is first on
thread 1, then on thread 0, which another system brought in first. -/
def movingSystem : List (Turn ℕ) := [
  ⟨0,.setInParallelCompute true⟩,
  ⟨1,.cmd .returning 0 (.create (.single (plain 0) 1))⟩,
  ⟨7,.cmd .returning 1 (.create (.single (plain 0) 2))⟩,
  ⟨0,.setInParallelCompute false⟩,
  ⟨0,.setInParallelCompute true⟩,
  ⟨7,.cmd .returning 0 (.create (.single (plain 0) 3))⟩,
  ⟨0,.setInParallelCompute false⟩]

/-- The commands of system 7 in `movingSystem`. -/
def firstCreate : CmdBuffer ℕ := .create 1 (WorldRuns.handle 32 1) (.single (plain 0) 2)

def secondCreate : CmdBuffer ℕ := .create 0 (WorldRuns.handle 1 1) (.single (plain 0) 3)

set_option maxRecDepth 20000 in
/-- Its second command is applied before its first. -/
theorem sync_reorders :
    let w' : World ℕ := turnRun movingSystem (World.new inOrder)
    ofSystem 7 (recordings movingSystem (World.new inOrder))=
        [⟨7,firstCreate⟩,⟨7,secondCreate⟩] ∧
      (syncPoint w').1=.ok () ∧
      World.syncTrace w'=
        [.create 0 (WorldRuns.handle 0 1) (.single (plain 0) 1),secondCreate,firstCreate] := by
  refine ⟨?_,?_,?_⟩
  · decide +kernel
  · decide +kernel
  · decide +kernel

set_option maxRecDepth 20000 in
/-- The log of the moving system has one replay. -/
theorem sync_keepsOrder_iff_moving :
    let w' : World ℕ := turnRun movingSystem (World.new inOrder)
    let log := recordings movingSystem (World.new inOrder : World ℕ)
    ∃ trace,Replays log (syncTraces 1 w') trace ∧
      (∀ trace',Replays log (syncTraces 1 w') trace' → trace'=trace) ∧
      ((∀ system,ofSystem system trace=ofSystem system log) ↔
        ∀ system,InOrder Recording.thread (World.threads w') (ofSystem system log)) :=
  sync_keepsOrder_iff inOrder [] movingSystem 1 (by decide) (by decide) (by decide +kernel)

end Samples

end XynokEcs.CommandOrder
