import XynokEcs.CellHistory
import XynokEcs.Scheduling

/-!
# The moments of a run

What the scheduler does, moment by moment: an action on the world, a parameter of a
system being built, the tick of a system being recorded. Carrying out the moments of
a run ends where the run ends. A query is current when a system builds it, and the
tick that a system records is the one the world is at.
-/

namespace XynokEcs.RunMoments

open ComponentTypes FaultingState ChunkRows QueryShapes WorldState WorldCalls CommandBuffer ItemWrites QuerySources
  ActionRuns WorldRuns WorldGrowth QueryMatches Scheduling CommandOrder CellHistory

section Moments

variable {V : Type}

inductive Moment (V : Type)
  | act (a : Action V)
  /-- A system builds a parameter. -/
  | start (slot : ℕ) (p : SystemParam)
  /-- A system that ran records its tick. -/
  | finish (slot : ℕ) (thisRun : ChangedTick)

variable [Inhabited V]

def Moment.step : Moment V → Scheduler V → Scheduler V
  | .act a,s => { s with world := a.step s.world }
  | .start _ _,s => s
  | .finish slot thisRun,s => (setLastRunTick slot thisRun s).2

/-- The moments of one computation and of what is done with its result. -/
def thenMoments {α : Type} (x : Scheduled V α) (ms : Scheduler V → List (Moment V))
    (f : α → Scheduler V → List (Moment V)) (s : Scheduler V) : List (Moment V) :=
  ms s++match x s with
    | (.ok a,s') => f a s'
    | (.error _,_) => []

def prepareMoments : List SystemParam → World V → List (Moment V)
  | [],_ => []
  | .query q::rest,w => .act (.prepareQuery q)::match prepareQuerySrcAccess q w with
    | (.ok _,w') => prepareMoments rest w'
    | (.error _,_) => []
  | .singleton _::rest,w => prepareMoments rest w
  | .cmd::rest,w => prepareMoments rest w
  | .unit::rest,w => prepareMoments rest w

def prepareSystemMoments (slot : ℕ) (s : Scheduler V) : List (Moment V) := prepareMoments (s.params slot) s.world

def SystemAction.moments (thread : ℕ) : SystemAction V → List (Moment V)
  | .cmd form call => [.act (.cmd form thread call)]
  | .write l t itemWrite => [.act (.write l t itemWrite)]
  | .panic _ => []

def Instr.moments (thisRun : ChangedTick) (slot thread : ℕ) : Instr V → List (Moment V)
  | .init p => [.start slot p]
  | .act a => SystemAction.moments thread a
  | .setLastRunTick => [.finish slot thisRun]

def Job.moments (thisRun : ChangedTick) (job : Job V) : List (Moment V) :=
  match job.code with
  | [] => []
  | instr::_ => Instr.moments thisRun job.slot job.thread instr

def turnMoments (thisRun : ChangedTick) : List ℕ → List (Job V)×Scheduler V → List (Moment V)
  | [],_ => []
  | k::picks,(jobs,s) => match jobs[k]? with
    | none => turnMoments thisRun picks (jobs,s)
    | some job => Job.moments thisRun job++turnMoments thisRun picks
        (jobs.set k (Job.turn thisRun job s).1,(Job.turn thisRun job s).2)

def runIndexedMoments (thisRun : ChangedTick) (picks : List ℕ) (jobs : List (Job V)) (s : Scheduler V) :
    List (Moment V) :=
  turnMoments thisRun (picks++remaining jobs) (jobs,s)

variable (conduct : Conduct V)

def runSystemAtMoments (slot : ℕ) (thisRun : ChangedTick) (s : Scheduler V) : List (Moment V) :=
  runIndexedMoments thisRun [] [startJob conduct s slot] s

def runSystemMoments (slot : ℕ) : Scheduler V → List (Moment V) :=
  thenMoments (onWorld .body advanceTick) (fun _ => [.act .advanceTick]) fun thisRun =>
    thenMoments (prepareSystem slot) (prepareSystemMoments slot) fun _ =>
      runSystemAtMoments conduct slot thisRun

def runEachMoments (thisRun : ChangedTick) : List ℕ → Scheduler V → List (Moment V)
  | [],_ => []
  | slot::group,s => thenMoments (prepareSystem slot) (prepareSystemMoments slot) (fun _ =>
      thenMoments (runSystemAt conduct slot thisRun) (runSystemAtMoments conduct slot thisRun) fun _ =>
        runEachMoments thisRun group) s

def prepareGroupMoments : List ℕ → Scheduler V → List (Moment V)
  | [],_ => []
  | slot::group,s => thenMoments (prepareSystem slot) (prepareSystemMoments slot) (fun _ =>
      prepareGroupMoments group) s

def runSystemGroupMoments (group : List ℕ) : Scheduler V → List (Moment V) :=
  thenMoments (onWorld .body advanceTick) (fun _ => [.act .advanceTick]) fun thisRun s =>
    if s.world.hasExecutor && 1<group.length then
      thenMoments (prepareGroup group) (prepareGroupMoments group) (fun _ =>
        thenMoments (setInParallelCompute true) (fun _ => [.act (.setInParallelCompute true)]) fun _ =>
          thenMoments (runIndexed thisRun (conduct.picks group) (group.map (startJob conduct s)))
            (runIndexedMoments thisRun (conduct.picks group) (group.map (startJob conduct s))) fun _ _ =>
              [.act (.setInParallelCompute false)]) s
    else runEachMoments conduct thisRun group s

def runStepsMoments : List ScheduleStep → Scheduler V → List (Moment V)
  | [],_ => []
  | .single slot::steps,s => thenMoments (runSystem conduct slot) (runSystemMoments conduct slot) (fun _ =>
      runStepsMoments steps) s
  | .parallel group::steps,s => thenMoments (runSystemGroup conduct group) (runSystemGroupMoments conduct group)
      (fun _ => runStepsMoments steps) s

def flushWorkerMoments (i : ℕ) : ℕ → World V → List (Moment V)
  | 0,_ => []
  | turns+1,w => .act (.applyCmd i)::match applyCmd i w with
    | (.ok true,w') => flushWorkerMoments i turns w'
    | _ => []

def flushWorkersMoments : List ℕ → World V → List (Moment V)
  | [],_ => []
  | i::rest,w => flushWorkerMoments i (World.queued w i) w++match flushWorker i (World.queued w i) w with
    | (.ok _,w') => flushWorkersMoments rest w'
    | (.error _,_) => []

def syncMoments (s : Scheduler V) : List (Moment V) :=
  flushWorkersMoments (List.range s.world.workerSpecs.len) s.world

def runMoments (autoSyncPoint : Bool) : Option (List ScheduleStep) → Scheduler V → List (Moment V)
  | none,_ => []
  | some steps,s => thenMoments (runSteps conduct steps) (runStepsMoments conduct steps) (fun _ s =>
      if autoSyncPoint then syncMoments s else []) s

def Event.moments : Event V → Scheduler V → List (Moment V)
  | .action a,_ => [.act a]
  | .run autoSyncPoint conduct steps,s => runMoments conduct autoSyncPoint steps s

/-- The moments of everything that happens to a world with systems. -/
def history : List (Event V) → Scheduler V → List (Moment V)
  | [],_ => []
  | event::events,s => Event.moments event s++history events (event.step s)

end Moments

section Traces

variable {V : Type} [Inhabited V] {α β : Type} {s s' : Scheduler V} {thisRun : ChangedTick}

/-- A query is current when it is built, and a system records the tick of the world. -/
def Moment.Fit : Moment V → Scheduler V → Prop
  | .start _ (.query q),s => Current q s.world
  | .finish _ thisRun,s => s.world.tick=thisRun
  | _,_ => True

/-- A moment that takes no tick. -/
def Moment.Quiet : Moment V → Prop
  | .act a => Action.ticks a=0
  | _ => True

/-- A moment leaves the world in order. -/
theorem core_moment (m : Moment V) (h : CoreInv s.world) : CoreInv (m.step s).world := by
  cases m with
  | act a => exact (Action.grew a h).1
  | start slot p => exact h
  | finish slot thisRun => exact h

/-- A quiet moment takes no tick. -/
theorem tick_moment {m : Moment V} (h : CoreInv s.world) (hm : Moment.Quiet m) :
    (m.step s).world.tick=s.world.tick := by
  cases m with
  | act a =>
    have hstep := congrArg (fun c => c.1.toNat) (Action.clock_step a h)
    change (a.step s.world).tick.toNat=(Action.clock a (World.clock s.world)).1.toNat at hstep
    rw [clock_ticks,show Action.ticks a=0 from hm] at hstep
    exact UInt32.toNat_inj.mp (hstep.trans (Nat.mod_eq_of_lt s.world.tick.toNat_lt))
  | start slot p => rfl
  | finish slot thisRun => rfl

/-- Moments that take no tick leave the world at its tick. -/
theorem tick_quiet {ms : List (Moment V)} (h : CoreInv s.world) (hm : ∀ m∈ms,Moment.Quiet m) :
    (runAll Moment.step ms s).world.tick=s.world.tick := by
  induction ms generalizing s with
  | nil => rfl
  | cons m ms ih =>
    rw [runAll,ih (core_moment m h) fun m' hm' => hm m' (List.mem_cons_of_mem _ hm')]
    exact tick_moment h (hm m List.mem_cons_self)

/-- The moments of a computation end where it ends, and every one of them fits. -/
structure Traced (x : Scheduled V α) (ms : Scheduler V → List (Moment V)) (s : Scheduler V)
    (Q : α → Scheduler V → Prop) : Prop where
  /-- The moments end where the computation ends. -/
  replays : runAll Moment.step (ms s) s=(x s).2
  /-- Every moment fits the state it comes to. -/
  fit : Along Moment.step Moment.Fit (ms s) s
  /-- What the computation leaves, in an ordered world. -/
  post : wp x Q (fun _ s' => CoreInv s'.world) s

/-- Traced computations are traced one after the other. -/
theorem Traced.bind {x : Scheduled V α} {ms : Scheduler V → List (Moment V)} {f : α → Scheduled V β}
    {mf : α → Scheduler V → List (Moment V)} {Q : α → Scheduler V → Prop} {R : β → Scheduler V → Prop}
    (hx : Traced x ms s Q) (hf : ∀ a s',Q a s' → Traced (f a) (mf a) s' R) :
    Traced (x >>= f) (thenMoments x ms mf) s R := by
  cases hr : x s with
  | mk r s' =>
    have hend : runAll Moment.step (ms s) s=s' := by rw [hx.replays,hr]
    cases r with
    | ok a =>
      have h' := hf a s' (wp_of_ok hx.post hr)
      refine ⟨?_,?_,?_⟩
      · rw [thenMoments,hr,runAll_append,hend,bind_ok hr]
        exact h'.replays
      · rw [thenMoments,hr,along_append,hend]
        exact ⟨hx.fit,h'.fit⟩
      · unfold wp
        rw [bind_ok hr]
        exact h'.post
    | error e =>
      refine ⟨?_,?_,?_⟩
      · rw [thenMoments,hr,runAll_append,hend,bind_error hr]
        rfl
      · rw [thenMoments,hr,along_append,hend]
        exact ⟨hx.fit,trivial⟩
      · unfold wp
        rw [bind_error hr]
        have herr := wp_of_error hx.post hr
        exact herr

/-- What a traced computation leaves may be said more weakly. -/
theorem Traced.mono {x : Scheduled V α} {ms : Scheduler V → List (Moment V)} {Q R : α → Scheduler V → Prop}
    (h : Traced x ms s Q) (hq : ∀ a s',Q a s' → R a s') : Traced x ms s R :=
  ⟨h.replays,h.fit,wp_mono h.post hq fun _ _ hs => hs⟩

/-- A computation that does the same is traced by the same moments. -/
theorem Traced.of_eq {x y : Scheduled V α} {ms ms' : Scheduler V → List (Moment V)}
    {Q : α → Scheduler V → Prop} (h : Traced y ms' s Q) (hx : x s=y s) (hm : ms s=ms' s) :
    Traced x ms s Q := by
  refine ⟨?_,?_,?_⟩
  · rw [hm,hx]
    exact h.replays
  · rw [hm]
    exact h.fit
  · unfold wp
    rw [hx]
    exact h.post

/-- A computation whose moments take no tick leaves the tick alone. -/
theorem traced_of_quiet {x : Scheduled V α} {ms : Scheduler V → List (Moment V)} {Q : α → Scheduler V → Prop}
    (h : CoreInv s.world) (hr : runAll Moment.step (ms s) s=(x s).2)
    (hf : Along Moment.step Moment.Fit (ms s) s) (hm : ∀ m∈ms s,Moment.Quiet m)
    (hp : wp x Q (fun _ s' => CoreInv s'.world) s) :
    Traced x ms s fun a s' => Q a s' ∧ s'.world.tick=s.world.tick := by
  have htick := tick_quiet h hm
  refine ⟨hr,hf,?_⟩
  rw [hr] at htick
  cases hx : x s with
  | mk r s' =>
    rw [hx] at htick
    unfold wp at hp ⊢
    rw [hx] at hp ⊢
    cases r with
    | ok a => exact ⟨hp,htick⟩
    | error e => exact hp

/-- Moments that are only actions fit. -/
theorem fit_of_acts {ms : List (Moment V)} (hm : ∀ m∈ms,∃ a,m=.act a) :
    Along Moment.step Moment.Fit ms s := by
  induction ms generalizing s with
  | nil => trivial
  | cons m ms ih =>
    refine ⟨?_,ih fun m' hm' => hm m' (List.mem_cons_of_mem _ hm')⟩
    obtain ⟨a,rfl⟩ := hm m List.mem_cons_self
    trivial

/-- Taking the tick of a step is one moment. -/
theorem traced_advance (h : CoreInv s.world) :
    Traced (onWorld .body advanceTick) (fun _ => [.act .advanceTick]) s fun thisRun s' =>
      CoreInv s'.world ∧ s'.world.tick=thisRun ∧ s'.systems=s.systems :=
  ⟨rfl,⟨trivial,trivial⟩,(Action.grew .advanceTick h).1,rfl,rfl⟩

omit [Inhabited V] in
/-- The moments of a preparation prepare queries. -/
theorem mem_prepareMoments {ps : List SystemParam} {w : World V} {m : Moment V} (hm : m∈prepareMoments ps w) :
    ∃ q,m=.act (.prepareQuery q) := by
  induction ps generalizing w with
  | nil => cases hm
  | cons p ps ih => cases p with
    | query q =>
      cases List.mem_cons.mp hm with
      | inl he => exact ⟨q,he⟩
      | inr hm =>
        cases hr : prepareQuerySrcAccess q w with
        | mk r w' =>
          rw [hr] at hm
          cases r with
          | ok idx => exact ih hm
          | error e => cases hm
    | singleton c => exact ih hm
    | cmd => exact ih hm
    | unit => exact ih hm

/-- The moments of a preparation replay it. -/
theorem replay_prepare (ps : List SystemParam) (s : Scheduler V) :
    runAll Moment.step (prepareMoments ps s.world) s={ s with world := (prepareAll ps s.world).2 } := by
  induction ps generalizing s with
  | nil => rfl
  | cons p ps ih => cases p with
    | query q =>
      have hstep : (Moment.act (.prepareQuery q) : Moment V).step s=
          { s with world := (prepareQuerySrcAccess q s.world).2 } := by
        rw [Moment.step,Action.step]
        change Scheduler.mk (ignoring (prepareQuerySrcAccess q) s.world).2 _=_
        rw [ignoring_state]
      rw [prepareMoments,runAll,hstep,prepareAll]
      cases hr : prepareQuerySrcAccess q s.world with
      | mk r w' => cases r with
        | ok idx =>
          have hp : SystemParam.prepare (.query q) s.world=(.ok (),w') := by
            rw [SystemParam.prepare,bind_ok hr]
            rfl
          rw [bind_ok hp]
          exact ih { s with world := w' }
        | error e =>
          have hp : SystemParam.prepare (.query q) s.world=(.error e,w') := by
            rw [SystemParam.prepare,bind_error hr]
          rw [bind_error hp]
          rfl
    | singleton c => exact ih s
    | cmd => exact ih s
    | unit => exact ih s

/-- Preparing a system is traced, and takes no tick. -/
theorem traced_prepareSystem (slot : ℕ) (h : CoreInv s.world) :
    Traced (prepareSystem slot) (prepareSystemMoments slot) s fun _ s' =>
      (Prepared s s' ∧ Ready s' slot) ∧ s'.world.tick=s.world.tick := by
  refine traced_of_quiet h ?_ (fit_of_acts fun m hm => ?_) (fun m hm => ?_)
    (wp_mono (prepareSystem_spec slot h) (fun _ _ hs => hs) fun _ _ he => he.2)
  · rw [prepareSystemMoments,replay_prepare]
    unfold prepareSystem
    rw [getState_bind,onWorld_state]
  · obtain ⟨q,rfl⟩ := mem_prepareMoments hm
    exact ⟨_,rfl⟩
  · obtain ⟨q,rfl⟩ := mem_prepareMoments hm
    rfl

/-- The moments of an instruction replay it. -/
theorem replay_exec (instr : Instr V) (slot thread : ℕ) :
    runAll Moment.step (Instr.moments thisRun slot thread instr) s=(instr.exec thisRun slot thread s).2 := by
  cases instr with
  | init p => rw [exec_init]; rfl
  | setLastRunTick => rfl
  | act a =>
    rw [Instr.exec,onWorld_state]
    cases a with
    | cmd form call => rfl
    | panic p => rfl
    | write l t itemWrite =>
      change Scheduler.mk (doneOf (writeItem l t itemWrite) s.world).2 _=_
      rw [doneOf_state]
      rfl

omit [Inhabited V] in
/-- The moments of an instruction take no tick. -/
theorem quiet_exec {instr : Instr V} {slot thread : ℕ} {m : Moment V}
    (hm : m∈Instr.moments thisRun slot thread instr) : Moment.Quiet m := by
  cases instr with
  | init p => cases List.mem_singleton.mp hm; trivial
  | setLastRunTick => cases List.mem_singleton.mp hm; trivial
  | act a => cases a with
    | cmd form call => cases List.mem_singleton.mp hm; rfl
    | write l t itemWrite => cases List.mem_singleton.mp hm; rfl
    | panic p => cases hm

/-- The moment of one turn. -/
theorem replay_turn (job : Job V) :
    runAll Moment.step (Job.moments thisRun job) s=(Job.turn thisRun job s).2 := by
  rw [turn_state,Job.moments]
  cases job.code with
  | nil => rfl
  | cons instr rest => exact replay_exec instr job.slot job.thread

/-- The moments of a turn fit, while the world is at the tick of the step. -/
theorem fit_turn {job : Job V} (hq : ∀ q,.init (.query q)∈job.code → Current q s.world)
    (ht : s.world.tick=thisRun) : Along Moment.step Moment.Fit (Job.moments thisRun job) s := by
  rw [Job.moments]
  cases hc : job.code with
  | nil => trivial
  | cons instr rest =>
    have hhead : instr∈job.code := hc ▸ List.mem_cons_self
    cases instr with
    | init p => cases p with
      | query q => exact ⟨hq q hhead,trivial⟩
      | singleton c => exact ⟨trivial,trivial⟩
      | cmd => exact ⟨trivial,trivial⟩
      | unit => exact ⟨trivial,trivial⟩
    | setLastRunTick => exact ⟨ht,trivial⟩
    | act a => cases a with
      | cmd form call => exact ⟨trivial,trivial⟩
      | write l t itemWrite => exact ⟨trivial,trivial⟩
      | panic p => trivial

omit [Inhabited V] in
/-- The moments of a turn take no tick. -/
theorem quiet_turn {job : Job V} {m : Moment V} (hm : m∈Job.moments thisRun job) : Moment.Quiet m := by
  rw [Job.moments] at hm
  cases hc : job.code with
  | nil =>
    rw [hc] at hm
    cases hm
  | cons instr rest =>
    rw [hc] at hm
    exact quiet_exec hm

/-- The moments of many turns take no tick. -/
theorem quiet_turns (picks : List ℕ) (r : List (Job V)×Scheduler V) :
    ∀ m∈turnMoments thisRun picks r,Moment.Quiet m := by
  induction picks generalizing r with
  | nil => exact fun m hm => (nomatch hm)
  | cons k picks ih =>
    obtain ⟨jobs,s⟩ := r
    intro m hm
    rw [turnMoments] at hm
    cases hk : jobs[k]? with
    | none =>
      rw [hk] at hm
      exact ih _ m hm
    | some job =>
      rw [hk] at hm
      cases List.mem_append.mp hm with
      | inl hm => exact quiet_turn hm
      | inr hm => exact ih _ m hm

/-- The turns of steady jobs. -/
theorem traced_turns {jobs : List (Job V)} (picks : List ℕ) (h : Steady jobs s) (ht : s.world.tick=thisRun) :
    runAll Moment.step (turnMoments thisRun picks (jobs,s)) s=(takeTurns thisRun picks (jobs,s)).2 ∧
      Along Moment.step Moment.Fit (turnMoments thisRun picks (jobs,s)) s := by
  induction picks generalizing jobs s with
  | nil => exact ⟨rfl,trivial⟩
  | cons k picks ih =>
    rw [turnMoments,takeTurns]
    cases hk : jobs[k]? with
    | none => exact ih h ht
    | some job =>
      dsimp only
      have hturn : Steady _ (Job.turn thisRun job s).2 := h.turn hk
      have htick : (Job.turn thisRun job s).2.world.tick=thisRun := by
        have hquiet := tick_quiet h.core fun m (hm : m∈Job.moments thisRun job) => quiet_turn hm
        rw [replay_turn] at hquiet
        exact hquiet.trans ht
      obtain ⟨hreplay,hfit⟩ := ih hturn htick
      rw [runAll_append,along_append,replay_turn]
      exact ⟨hreplay,fit_turn (h.ready job (List.mem_of_getElem? hk)) ht,hfit⟩

/-- The turns of jobs are traced, and take no tick. -/
theorem traced_runIndexed {jobs : List (Job V)} (picks : List ℕ) (h : Steady jobs s)
    (ht : s.world.tick=thisRun) :
    Traced (runIndexed thisRun picks jobs) (runIndexedMoments thisRun picks jobs) s fun _ s' =>
      CoreInv s'.world ∧ s'.world.tick=s.world.tick := by
  obtain ⟨hreplay,hfit⟩ := traced_turns (picks++remaining jobs) h ht
  refine traced_of_quiet h.core ?_ hfit (quiet_turns _ _)
    (wp_mono (runIndexed_spec picks h) (fun _ _ hs => hs) fun _ _ he => he.2)
  rw [runIndexedMoments,hreplay,runIndexed]
  split <;> rfl

omit [Inhabited V] in
/-- The job of a system that is ready builds current queries. -/
theorem steady_start (conduct : Conduct V) {slot : ℕ} (h : CoreInv s.world) (hr : Ready s slot) :
    Steady [startJob conduct s slot] s := by
  refine ⟨h,fun job hj q hq => ?_,fun job hj => ?_,.inr ⟨_,rfl,initsFirst_program _ _⟩⟩
  · cases List.mem_singleton.mp hj
    exact ready_startJob conduct hr rfl hq
  · cases List.mem_singleton.mp hj
    exact nofun

variable (conduct : Conduct V)

/-- Running a system at a tick is traced, and takes none. -/
theorem traced_runSystemAt {slot : ℕ} (h : CoreInv s.world) (hr : Ready s slot) (ht : s.world.tick=thisRun) :
    Traced (runSystemAt conduct slot thisRun) (runSystemAtMoments conduct slot thisRun) s fun _ s' =>
      CoreInv s'.world ∧ s'.world.tick=s.world.tick := by
  have hjobs := traced_runIndexed [] (steady_start conduct h hr) ht
  exact ⟨hjobs.replays,hjobs.fit,hjobs.post⟩

/-- A step with one system is traced. -/
theorem traced_runSystem (slot : ℕ) (h : CoreInv s.world) :
    Traced (runSystem conduct slot) (runSystemMoments conduct slot) s fun _ s' => CoreInv s'.world := by
  refine (traced_advance h).bind fun thisRun s₁ h₁ => ?_
  refine (traced_prepareSystem slot h₁.1).bind fun _ s₂ h₂ => ?_
  exact (traced_runSystemAt conduct h₂.1.1.core h₂.1.2 (h₂.2.trans h₁.2.1)).mono fun _ _ h₃ => h₃.1

/-- Systems that run one after the other are traced. -/
theorem traced_runEach (group : List ℕ) (h : CoreInv s.world) (ht : s.world.tick=thisRun) :
    Traced (runEach conduct thisRun group) (runEachMoments conduct thisRun group) s fun _ s' =>
      CoreInv s'.world := by
  induction group generalizing s with
  | nil => exact ⟨rfl,trivial,h⟩
  | cons slot group ih =>
    refine (traced_prepareSystem slot h).bind fun _ s₁ h₁ => ?_
    have htick := h₁.2.trans ht
    refine (traced_runSystemAt conduct h₁.1.1.core h₁.1.2 htick).bind fun _ s₂ h₂ => ?_
    exact ih h₂.1 (h₂.2.trans htick)

omit conduct in
/-- Preparing a group is traced, and takes no tick. -/
theorem traced_prepareGroup (group : List ℕ) (h : CoreInv s.world) :
    Traced (prepareGroup group) (prepareGroupMoments group) s fun _ s' =>
      (Prepared s s' ∧ ∀ slot∈group,Ready s' slot) ∧ s'.world.tick=s.world.tick := by
  induction group generalizing s with
  | nil => exact ⟨rfl,trivial,⟨⟨h,rfl,fun _ hc => hc⟩,nofun⟩,rfl⟩
  | cons slot group ih =>
    refine (traced_prepareSystem slot h).bind fun _ s₁ h₁ => ?_
    refine (ih h₁.1.1.core).mono fun _ s₂ h₂ => ?_
    refine ⟨⟨⟨h₂.1.1.core,h₂.1.1.systems.trans h₁.1.1.systems,
      fun q hc => h₂.1.1.kept q (h₁.1.1.kept q hc)⟩,fun k hk => ?_⟩,h₂.2.trans h₁.2⟩
    cases List.mem_cons.mp hk with
    | inl he => exact he ▸ h₂.1.1.ready h₁.1.2
    | inr hk => exact h₂.1.2 k hk

omit conduct in
/-- Setting the flag is one moment. -/
theorem traced_flag (val : Bool) :
    Traced (setInParallelCompute val) (fun _ => [.act (.setInParallelCompute val)]) s fun _ s' =>
      s'={ s with world := { s.world with inParallelCompute := val } } :=
  ⟨rfl,⟨trivial,trivial⟩,rfl⟩

/-- A step with a group is traced, with an executor or without. -/
theorem traced_runSystemGroup (group : List ℕ) (h : CoreInv s.world) :
    Traced (runSystemGroup conduct group) (runSystemGroupMoments conduct group) s fun _ s' =>
      CoreInv s'.world := by
  refine (traced_advance h).bind fun thisRun s₁ h₁ => ?_
  cases hc : s₁.world.hasExecutor && 1<group.length with
  | false =>
    refine (traced_runEach conduct group h₁.1 h₁.2.1).of_eq ?_ ?_
    · rw [getState_bind,hc]
      rfl
    · simp only [hc,Bool.false_eq_true,if_false]
  | true =>
    have hgroup : Traced (do
          prepareGroup group
          setInParallelCompute true
          runIndexed thisRun (conduct.picks group) (group.map (startJob conduct s₁))
          setInParallelCompute false : Scheduled V Unit)
        (thenMoments (prepareGroup group) (prepareGroupMoments group) fun _ =>
          thenMoments (setInParallelCompute true) (fun _ => [.act (.setInParallelCompute true)]) fun _ =>
            thenMoments (runIndexed thisRun (conduct.picks group) (group.map (startJob conduct s₁)))
              (runIndexedMoments thisRun (conduct.picks group) (group.map (startJob conduct s₁))) fun _ _ =>
                [.act (.setInParallelCompute false)]) s₁ (fun _ s' => CoreInv s'.world) := by
      refine (traced_prepareGroup group h₁.1).bind fun _ s₂ h₂ => ?_
      refine (traced_flag true).bind fun _ s₃ h₃ => ?_
      subst h₃
      have hsteady : Steady (group.map (startJob conduct s₁))
          { s₂ with world := { s₂.world with inParallelCompute := true } } := by
        refine ⟨coreInv_flag true h₂.1.1.core,fun job hj q hq => ?_,fun job hj => ?_,.inl rfl⟩
        · obtain ⟨slot,hslot,rfl⟩ := List.mem_map.mp hj
          exact ready_startJob conduct (h₂.1.2 slot hslot) h₂.1.1.systems.symm hq
        · obtain ⟨slot,hslot,rfl⟩ := List.mem_map.mp hj
          exact nofun
      refine (traced_runIndexed (conduct.picks group) hsteady (h₂.2.trans h₁.2.1)).bind fun _ s₄ h₄ => ?_
      refine (traced_flag false).mono fun _ s₅ h₅ => ?_
      rw [h₅]
      exact coreInv_flag false h₄.1
    refine hgroup.of_eq ?_ ?_
    · rw [getState_bind,hc]
      rfl
    · simp only [hc,if_true]

/-- The steps of a session are traced. -/
theorem traced_runSteps (steps : List ScheduleStep) (h : CoreInv s.world) :
    Traced (runSteps conduct steps) (runStepsMoments conduct steps) s fun _ s' => CoreInv s'.world := by
  induction steps generalizing s with
  | nil => exact ⟨rfl,trivial,h⟩
  | cons step steps ih => cases step with
    | single slot => exact (traced_runSystem conduct slot h).bind fun _ _ h₁ => ih h₁
    | parallel group => exact (traced_runSystemGroup conduct group h).bind fun _ _ h₁ => ih h₁

omit conduct in
/-- Applying a command is one moment. -/
theorem replay_applyCmd (i : ℕ) :
    (Moment.act (.applyCmd i) : Moment V).step s={ s with world := (applyCmd i s.world).2 } := by
  change Scheduler.mk (ignoring (applyCmd i) s.world).2 _=_
  rw [ignoring_state]

omit conduct in
/-- The moments of a flush replay it. -/
theorem replay_flushWorker (i turns : ℕ) :
    runAll Moment.step (flushWorkerMoments i turns s.world) s=
      { s with world := (flushWorker i turns s.world).2 } := by
  induction turns generalizing s with
  | zero => rfl
  | succ turns ih =>
    rw [flushWorkerMoments,runAll,replay_applyCmd,flushWorker]
    cases hr : applyCmd i s.world with
    | mk r w' => cases r with
      | error e =>
        rw [bind_error hr]
        rfl
      | ok more =>
        rw [bind_ok hr]
        cases more with
        | true => exact ih (s:={ s with world := w' })
        | false => rfl

omit conduct in
/-- The moments of all flushes replay them. -/
theorem replay_flushWorkers (workers : List ℕ) :
    runAll Moment.step (flushWorkersMoments workers s.world) s=
      { s with world := (flushWorkers workers s.world).2 } := by
  induction workers generalizing s with
  | nil => rfl
  | cons i workers ih =>
    rw [flushWorkersMoments,runAll_append,replay_flushWorker,flushWorkers,getState_bind]
    cases hr : flushWorker i (World.queued s.world i) s.world with
    | mk r w' => cases r with
      | ok a =>
        rw [bind_ok hr]
        exact ih (s:={ s with world := w' })
      | error e =>
        rw [bind_error hr]
        rfl

omit conduct in
/-- A flush applies commands only. -/
theorem mem_flushWorker {i turns : ℕ} {w : World V} {m : Moment V} (hm : m∈flushWorkerMoments i turns w) :
    m=.act (.applyCmd i) := by
  induction turns generalizing w with
  | zero => cases hm
  | succ turns ih =>
    cases List.mem_cons.mp hm with
    | inl he => exact he
    | inr hm =>
      cases hr : applyCmd i w with
      | mk r w' =>
        rw [hr] at hm
        cases r with
        | error e => cases hm
        | ok more => cases more with
          | true => exact ih hm
          | false => cases hm

omit conduct in
/-- All flushes apply commands only. -/
theorem mem_flushWorkers {workers : List ℕ} {w : World V} {m : Moment V} (hm : m∈flushWorkersMoments workers w) :
    ∃ i,m=.act (.applyCmd i) := by
  induction workers generalizing w with
  | nil => cases hm
  | cons i workers ih =>
    cases List.mem_append.mp hm with
    | inl hm => exact ⟨i,mem_flushWorker hm⟩
    | inr hm =>
      cases hr : flushWorker i (World.queued w i) w with
      | mk r w' =>
        rw [hr] at hm
        cases r with
        | ok a => exact ih hm
        | error e => cases hm

omit conduct in
/-- A sync point is traced. -/
theorem traced_sync (h : CoreInv s.world) :
    Traced (onWorld .sync syncPoint) syncMoments s fun _ s' => CoreInv s'.world := by
  refine ⟨?_,fit_of_acts fun m hm => ?_,?_⟩
  · rw [syncMoments,replay_flushWorkers,onWorld_state,syncPoint,flushCmd,getState_bind]
  · obtain ⟨i,rfl⟩ := mem_flushWorkers hm
    exact ⟨_,rfl⟩
  · have hruns : Runs (onWorld .sync syncPoint : Scheduled V Unit) :=
      Runs.onWorld (fun e he => by cases he) fun w h => (syncPoint_drained h).1
    exact wp_mono (hruns s h) (fun _ _ hc => hc) fun _ _ he => he.2

/-- A run of a session is traced. -/
theorem traced_run (autoSyncPoint : Bool) (steps : Option (List ScheduleStep)) (h : CoreInv s.world) :
    Traced (run autoSyncPoint conduct steps) (runMoments conduct autoSyncPoint steps) s fun _ s' =>
      CoreInv s'.world := by
  cases steps with
  | none => exact ⟨rfl,trivial,h⟩
  | some steps =>
    refine (traced_runSteps conduct steps h).bind fun _ s₁ h₁ => ?_
    cases autoSyncPoint with
    | true => exact traced_sync h₁
    | false => exact ⟨rfl,trivial,h₁⟩

omit conduct in
/-- The history of a world with systems ends where its events end, and every moment
of it fits. -/
theorem history_fits (events : List (Event V)) (h : CoreInv s.world) :
    runAll Moment.step (history events s) s=runAll Event.step events s ∧
      Along Moment.step Moment.Fit (history events s) s := by
  induction events generalizing s with
  | nil => exact ⟨rfl,trivial⟩
  | cons event events ih =>
    have hevent : runAll Moment.step (Event.moments event s) s=event.step s ∧
        Along Moment.step Moment.Fit (Event.moments event s) s := by
      cases event with
      | action a => exact ⟨rfl,trivial,trivial⟩
      | run autoSyncPoint conduct steps =>
        have hrun := traced_run conduct autoSyncPoint steps h
        exact ⟨hrun.replays,hrun.fit⟩
    have hnext := ih (core_events [event] h)
    rw [history,runAll_append,along_append,hevent.1]
    exact ⟨hnext.1,hevent.2,hnext.2⟩

end Traces

end XynokEcs.RunMoments
