import XynokEcs.CommandOrder
import XynokEcs.QueryMatches
import XynokEcs.SingletonEntities

/-!
# Systems and the scheduler

A system is prepared on the calling thread and then runs: it builds its
parameters from the world, does its work and records the tick. A group with an
executor is prepared as a whole and its jobs then take turns in any order, with
the world switched to queueing commands. A run is a pass over the steps of one
session.
-/

namespace XynokEcs.Scheduling

open ComponentTypes SequenceValueMap FaultingState ChunkRows EntityAllocation QueryShapes WorldState WorldCalls
  CommandBuffer ItemWrites QuerySources ActionRuns WorldRuns WorldGrowth QueryMatches
  SingletonEntities CommandOrder

section Params

/-- The parameters a system takes. -/
inductive SystemParam
  /-- `Query<T>`. -/
  | query (q : QueryShape Component)
  /-- `Singleton<P>`. -/
  | singleton (p : QueryColumn Component)
  | cmd
  /-- `()`. -/
  | unit
deriving DecidableEq

/-- What a parameter is built into. -/
inductive ParamValue
  | query (accessor : QuerySpecAccessor)
  | singleton (item : SingletonItem)
  | cmd
  | unit
deriving DecidableEq

variable {V : Type}

/-- `TSystemParam::prepare`. -/
def SystemParam.prepare : SystemParam → Call V Unit
  | .query q => do
    let _ ← prepareQuerySrcAccess q
    return ()
  | .singleton _ => return ()
  | .cmd => return ()
  | .unit => return ()

/-- `TSystemParam::init`. -/
def SystemParam.init (lastRunTick : ChangedTick) (w : World V) : SystemParam → Except Fault ParamValue
  | .query q => match querySrcAccess q lastRunTick w with
    | some accessor => .ok (.query accessor)
    | none => .error (.panic .queryNotPrepared)
  | .singleton p => (Singleton.new p.component lastRunTick w).map .singleton
  | .cmd => .ok .cmd
  | .unit => .ok .unit

/-- Prepare the parameters of a system, in order. -/
def prepareAll : List SystemParam → Call V Unit
  | [] => return ()
  | p::rest => do
    p.prepare
    prepareAll rest

end Params

section Systems

/-- A system after type erasure: its parameters, and the tick of its last run. -/
structure SystemAlias where
  /-- Its parameters. -/
  params : List SystemParam
  /-- The tick of its last run, 0 before the first. -/
  lastRunTick : ChangedTick

/-- What the function of a system does: it issues commands and writes items. -/
inductive SystemAction (V : Type)
  | cmd (form : CallForm) (call : CmdCall V)
  | write (l : RowLoc) (t : StorageType) (itemWrite : ItemWrite V)
  /-- The function panics. -/
  | panic (p : Panic)

/-- Where a run panics. -/
inductive RunFault
  | prepare (e : Fault)
  | init (e : Fault)
  | body (e : Fault)
  | sync (e : Fault)
deriving DecidableEq

/-- The world, and the systems with their ticks. -/
structure Scheduler (V : Type) where
  /-- The world. -/
  world : World V
  /-- The systems, in the order they were added. -/
  systems : List SystemAlias

/-- A computation of the scheduler. It ends in the panics of the systems that ran. -/
abbrev Scheduled (V α : Type) := Faulting (Scheduler V) (List RunFault) α

variable {V : Type}

/-- A call of the world, made at some stage of a run. -/
def onWorld {α : Type} (stage : Fault → RunFault) (x : Call V α) : Scheduled V α := fun s =>
  match x s.world with
  | (.ok a,w) => (.ok a,{ s with world := w })
  | (.error e,w) => (.error [stage e],{ s with world := w })

/-- A call on the world of a scheduler leaves the systems alone. -/
theorem onWorld_state {α : Type} (stage : Fault → RunFault) (x : Call V α) (s : Scheduler V) :
    (onWorld stage x s).2={ s with world := (x s.world).2 } := by
  unfold onWorld
  cases x s.world with
  | mk r w => cases r <;> rfl

/-- A call on the world ends in one panic, if any, told by its stage. -/
theorem onWorld_error {α : Type} {stage : Fault → RunFault} {x : Call V α} {s s' : Scheduler V}
    {faults : List RunFault} (h : onWorld stage x s=(.error faults,s')) :
    ∃ e,faults=[stage e] := by
  unfold onWorld at h
  cases hx : x s.world with
  | mk r w =>
    rw [hx] at h
    cases r with
    | ok a => cases h
    | error e => exact ⟨e,(Except.error.inj (Prod.mk.inj h).1).symm⟩

/-- The parameters of a system. -/
def Scheduler.params (s : Scheduler V) (slot : ℕ) : List SystemParam :=
  ((s.systems[slot]?).map SystemAlias.params).getD []

/-- `last_run_tick`. -/
def Scheduler.lastRunTick (s : Scheduler V) (slot : ℕ) : ChangedTick :=
  ((s.systems[slot]?).map SystemAlias.lastRunTick).getD 0

/-- `set_last_run_tick`. -/
def setLastRunTick (slot : ℕ) (tick : ChangedTick) : Scheduled V Unit :=
  modifyState fun s => { s with
    systems := s.systems.modify slot fun system => { system with lastRunTick := tick } }

/-- `prepare_system`. -/
def prepareSystem (slot : ℕ) : Scheduled V Unit := do
  let s ← getState
  onWorld .prepare (prepareAll (s.params slot))

variable [Inhabited V]

/-- An error that a call returns is the system's to look at; one that it raises
ends the system. -/
def endedBy {α : Type} : CallForm → Except Fault α → Except Fault Unit
  | .raising,.error e => .error e
  | _,_ => .ok ()

/-- Do what a system does, on the thread it runs on. -/
def SystemAction.perform (thread : ℕ) : SystemAction V → Call V Unit
  | .cmd form call => fun w =>
    (endedBy form (call.perform thread form w).1,(call.perform thread form w).2)
  | .write l t itemWrite => writeItem l t itemWrite
  | .panic p => FaultingState.fault (.panic p)

/-- One thing a running system does. -/
inductive Instr (V : Type)
  /-- Build a parameter. -/
  | init (p : SystemParam)
  | act (a : SystemAction V)
  /-- Record the tick of this run. -/
  | setLastRunTick

/-- `run_system_at`: build the parameters in order, run the function on them,
record the tick. -/
def program (params : List SystemParam) (body : List (SystemAction V)) : List (Instr V) :=
  params.map .init++(body.map .act++[.setLastRunTick])

/-- A system that runs: what it still has to do, and the panics it ended in. -/
structure Job (V : Type) where
  /-- Its place among the systems. -/
  slot : ℕ
  /-- The thread it runs on. -/
  thread : ℕ
  /-- What it has still to do. -/
  code : List (Instr V)
  /-- The panics it ended in. -/
  faults : List RunFault

/-- Carry out one instruction of a job. -/
def Instr.exec (thisRun : ChangedTick) (slot thread : ℕ) : Instr V → Scheduled V Unit
  | .init p => do
    let s ← getState
    match p.init (s.lastRunTick slot) s.world with
    | .ok _ => return ()
    | .error e => FaultingState.fault [.init e]
  | .act a => onWorld .body (a.perform thread)
  | .setLastRunTick => Scheduling.setLastRunTick slot thisRun

/-- A job takes one turn. A panic ends it. -/
def Job.turn (thisRun : ChangedTick) (job : Job V) (s : Scheduler V) : Job V×Scheduler V :=
  match job.code with
  | [] => (job,s)
  | instr::rest => match instr.exec thisRun job.slot job.thread s with
    | (.ok _,s') => ({ job with code := rest },s')
    | (.error faults,s') => ({ job with code := [], faults := faults },s')

/-- The jobs at the given places take their turns, one after the other. -/
def takeTurns (thisRun : ChangedTick) : List ℕ → List (Job V)×Scheduler V → List (Job V)×Scheduler V
  | [],r => r
  | k::picks,(jobs,s) => match jobs[k]? with
    | none => takeTurns thisRun picks (jobs,s)
    | some job => takeTurns thisRun picks
        (jobs.set k (Job.turn thisRun job s).1,(Job.turn thisRun job s).2)

/-- Enough turns for every job to finish. -/
def remaining (jobs : List (Job V)) : List ℕ :=
  jobs.zipIdx.flatMap fun p => List.replicate p.1.code.length p.2

/-- `run_indexed`: the jobs take turns in some order until all are done. -/
def runIndexed (thisRun : ChangedTick) (picks : List ℕ) (jobs : List (Job V)) : Scheduled V Unit :=
  fun s =>
    let r := takeTurns thisRun (picks++remaining jobs) (jobs,s)
    match r.1.flatMap Job.faults with
    | [] => (.ok (),r.2)
    | faults => (.error faults,r.2)

end Systems

section Steps

/-- `ScheduleStep`: one system, or a group of them. -/
inductive ScheduleStep
  | single (slot : ℕ)
  | parallel (group : List ℕ)

/-- What the source leaves open: what the functions of the systems do, which
thread runs them, and how the jobs of a group take turns. -/
structure Conduct (V : Type) where
  /-- What the function of a system does. -/
  body : ℕ → List (SystemAction V)
  /-- The thread that a system runs on. -/
  thread : ℕ → ℕ
  /-- The order of turns in a group. -/
  picks : List ℕ → List ℕ

variable {V : Type} [Inhabited V]

/-- The job that runs a system. -/
def startJob (conduct : Conduct V) (s : Scheduler V) (slot : ℕ) : Job V :=
  ⟨slot,conduct.thread slot,program (s.params slot) (conduct.body slot),[]⟩

/-- `run_system_at`. -/
def runSystemAt (conduct : Conduct V) (slot : ℕ) (thisRun : ChangedTick) : Scheduled V Unit := do
  let s ← getState
  runIndexed thisRun [] [startJob conduct s slot]

/-- `run_system`. -/
def runSystem (conduct : Conduct V) (slot : ℕ) : Scheduled V Unit := do
  let thisRun ← onWorld .body advanceTick
  prepareSystem slot
  runSystemAt conduct slot thisRun

/-- `set_in_parallel_compute`. -/
def setInParallelCompute (val : Bool) : Scheduled V Unit :=
  modifyState fun s => { s with world := { s.world with inParallelCompute := val } }

/-- A group without an executor: one system at a time. -/
def runEach (conduct : Conduct V) (thisRun : ChangedTick) : List ℕ → Scheduled V Unit
  | [] => return ()
  | slot::group => do
    prepareSystem slot
    runSystemAt conduct slot thisRun
    runEach conduct thisRun group

/-- The preparation pass of a group. -/
def prepareGroup : List ℕ → Scheduled V Unit
  | [] => return ()
  | slot::group => do
    prepareSystem slot
    prepareGroup group

/-- `run_system_group`. -/
def runSystemGroup (conduct : Conduct V) (group : List ℕ) : Scheduled V Unit := do
  let thisRun ← onWorld .body advanceTick
  let s ← getState
  if s.world.hasExecutor && 1<group.length then do
    prepareGroup group
    setInParallelCompute true
    runIndexed thisRun (conduct.picks group) (group.map (startJob conduct s))
    setInParallelCompute false
  else runEach conduct thisRun group

/-- Run the steps of a session. -/
def runSteps (conduct : Conduct V) : List ScheduleStep → Scheduled V Unit
  | [] => return ()
  | .single slot::steps => do
    runSystem conduct slot
    runSteps conduct steps
  | .parallel group::steps => do
    runSystemGroup conduct group
    runSteps conduct steps

/-- `Scheduler::run`, for the steps the session has. -/
def run (autoSyncPoint : Bool) (conduct : Conduct V) : Option (List ScheduleStep) → Scheduled V Unit
  | none => return ()
  | some steps => do
    runSteps conduct steps
    onlyIf autoSyncPoint (onWorld .sync syncPoint)

end Steps

section Frozen

variable {V : Type}

/-- What a system in a parallel group cannot change. -/
def World.frozen (w : World V) := (World.cached w,w.inParallelCompute)

/-- Writing through an item leaves the archetypes where queries found them. -/
theorem frozen_writeItem (l : RowLoc) (t : StorageType) (write : ItemWrite V) :
    Fixes World.frozen (writeItem l t write) := by
  refine Fixes.getState fun w => Fixes.bind ?_ fun spec => Fixes.focus ?_ _
  · refine Fixes.getState fun w => ?_
    cases w.archetypes.get l.archId with
    | none => exact Fixes.fault _
    | some spec => exact Fixes.pure spec
  · intro a w
    rfl

variable [Inhabited V] {w : World V}

/-- What a system does leaves the world in order. -/
theorem SystemAction.grows (a : SystemAction V) (thread : ℕ) (h : CoreInv w) :
    CoreInv (a.perform thread w).2 := by
  cases a with
  | cmd form call => exact (wp_state (CmdCall.grows call thread form w h)).1
  | write l t itemWrite => exact (wp_state (Grows.of_keeps (Keeps.writeItem l t itemWrite) w h)).1
  | panic p => exact h

/-- With commands queued it leaves what queries are looked up in alone. -/
theorem SystemAction.frozen (a : SystemAction V) (thread : ℕ) (hp : w.inParallelCompute=true) :
    World.frozen (a.perform thread w).2=World.frozen w := by
  cases a with
  | cmd form call => exact fixes_queued (g:=World.frozen) (fun _ _ _ _ => rfl) call thread form hp
  | write l t itemWrite => exact frozen_writeItem l t itemWrite w
  | panic p => rfl

end Frozen

section Turns

variable {V : Type}

/-- The panic of a query that was not prepared. -/
def unprepared : RunFault := .init (.panic .queryNotPrepared)

/-- A singleton fails in ways of its own. -/
theorem singletonNew_fault {c : Component} {lastRunTick : ChangedTick} {w : World V} {e : Fault}
    (h : Singleton.new c lastRunTick w=.error e) : e≠.panic .queryNotPrepared := by
  have hspec : ∀ e,singletonArchetypeSpec (.single c) w=.error e → e≠.panic .queryNotPrepared := by
    intro e he
    unfold singletonArchetypeSpec at he
    split at he
    · cases he
      simp
    · split at he
      · cases he
        simp
      · split at he <;> cases he
        simp
  unfold Singleton.new at h
  cases hs : singletonArchetypeSpec (.single c) w with
  | error e' =>
    rw [hs] at h
    cases h
    exact hspec e hs
  | ok r =>
    rw [hs] at h
    dsimp only [bind,Except.bind] at h
    cases hc : r.2.arch.chunks[0]? with
    | none =>
      rw [hc] at h
      cases h
      simp
    | some chunk =>
      rw [hc] at h
      dsimp only at h
      split at h
      · cases h
        simp
      · unfold columnDescriptor at h
        cases hl : r.2.layout.componentColDescriptors.lookup c.storageType with
        | some column =>
          rw [hl] at h
          cases h
        | none =>
          rw [hl] at h
          cases h
          simp

variable [Inhabited V] {s : Scheduler V} {instr : Instr V} {thisRun : ChangedTick} {slot thread : ℕ}

/-- Building a parameter reads the scheduler only. -/
theorem exec_init (p : SystemParam) : (Instr.exec thisRun slot thread (.init p) s).2=s := by
  rw [Instr.exec,getState_bind]
  cases p.init (s.lastRunTick slot) s.world with
  | ok v => rfl
  | error e => rfl

/-- Every instruction leaves the world in order. -/
theorem exec_core (h : CoreInv s.world) : CoreInv (instr.exec thisRun slot thread s).2.world := by
  cases instr with
  | init p =>
    rw [exec_init]
    exact h
  | act a =>
    rw [Instr.exec,onWorld_state]
    exact SystemAction.grows a thread h
  | setLastRunTick => exact h

/-- With commands queued, no instruction changes what the specs depend on. -/
theorem exec_frozen (hp : s.world.inParallelCompute=true) :
    World.frozen (instr.exec thisRun slot thread s).2.world=World.frozen s.world := by
  cases instr with
  | init p => rw [exec_init]
  | act a =>
    rw [Instr.exec,onWorld_state]
    exact SystemAction.frozen a thread hp
  | setLastRunTick => rfl

omit [Inhabited V] in
/-- A parameter that cannot be built is a query only if its spec is not current. -/
theorem init_fault {p : SystemParam} {lastRunTick : ChangedTick} {w : World V} {e : Fault}
    (hq : ∀ q,p=.query q → Current q w) (h : p.init lastRunTick w=.error e) :
    e≠.panic .queryNotPrepared := by
  cases p with
  | cmd => cases h
  | unit => cases h
  | singleton c =>
    rw [SystemParam.init] at h
    cases hs : Singleton.new c.component lastRunTick w with
    | ok item =>
      rw [hs] at h
      cases h
    | error e' =>
      rw [hs] at h
      cases h
      exact singletonNew_fault hs
  | query q =>
    obtain ⟨accessor,ha⟩ := Option.isSome_iff_exists.mp ((current_iff lastRunTick).mp (hq q rfl))
    rw [SystemParam.init,ha] at h
    cases h

/-- No instruction meets a query that is not prepared, if it builds current ones. -/
theorem exec_faults (hq : ∀ q,instr=.init (.query q) → Current q s.world) {faults : List RunFault}
    {s' : Scheduler V} (hr : instr.exec thisRun slot thread s=(.error faults,s')) :
    unprepared∉faults := by
  cases instr with
  | act a =>
    obtain ⟨e,rfl⟩ := onWorld_error hr
    exact fun hm => nomatch List.mem_singleton.mp hm
  | setLastRunTick => cases hr
  | init p =>
    rw [Instr.exec,getState_bind] at hr
    cases hv : p.init (s.lastRunTick slot) s.world with
    | ok v =>
      rw [hv] at hr
      cases hr
    | error e =>
      rw [hv] at hr
      cases hr
      have he := init_fault (fun q hp => hq q (congrArg Instr.init hp)) hv
      exact fun hm => he (RunFault.init.inj (List.mem_singleton.mp hm)).symm

/-- The parameters are built before anything else happens. -/
def InitsFirst : List (Instr V) → Prop
  | [] => True
  | .init _::rest => InitsFirst rest
  | _::rest => ∀ p,.init p∉rest

omit [Inhabited V] in
/-- A program that builds nothing builds first. -/
theorem initsFirst_of_none {code : List (Instr V)} (h : ∀ p,.init p∉code) : InitsFirst code := by
  cases code with
  | nil => trivial
  | cons instr rest =>
    have hrest : ∀ p,.init p∉rest := fun p hp => h p (List.mem_cons_of_mem _ hp)
    cases instr with
    | init p => exact absurd List.mem_cons_self (h p)
    | act a => exact hrest
    | setLastRunTick => exact hrest

omit [Inhabited V] in
/-- A system builds its parameters first. -/
theorem initsFirst_program (params : List SystemParam) (body : List (SystemAction V)) :
    InitsFirst (program params body) := by
  have hbody : ∀ p,Instr.init p∉body.map .act++[.setLastRunTick] := by
    intro p hp
    simp only [List.mem_append,List.mem_map,List.mem_singleton,reduceCtorEq,and_false,exists_false,
      or_self] at hp
  unfold program
  induction params with
  | nil => exact initsFirst_of_none hbody
  | cons p params ih => exact ih

omit [Inhabited V] in
/-- The queries a program builds are the parameters of its system. -/
theorem mem_program {params : List SystemParam} {body : List (SystemAction V)} {p : SystemParam} :
    .init p∈program params body ↔ p∈params := by
  simp only [program,List.mem_append,List.mem_map,List.mem_singleton,reduceCtorEq,and_false,
    exists_false,or_false,Instr.init.injEq,exists_eq_right]

/-- The queries that jobs have still to build are current, and stay so: nothing
can change the specs any more, or only one job is left and it builds them first. -/
structure Steady (jobs : List (Job V)) (s : Scheduler V) : Prop where
  /-- The world is in order. -/
  core : CoreInv s.world
  /-- The queries still to be built are current. -/
  ready : ∀ job∈jobs,∀ q,.init (.query q)∈job.code → Current q s.world
  /-- No job met a query that was not prepared. -/
  faults : ∀ job∈jobs,unprepared∉job.faults
  /-- Nothing can make one of them stale. -/
  still : s.world.inParallelCompute=true ∨ ∃ job,jobs=[job] ∧ InitsFirst job.code

/-- A turn does one instruction, or ends the job. -/
theorem turn_code (job : Job V) : (Job.turn thisRun job s).1.code=job.code.tail ∨
    (Job.turn thisRun job s).1.code=[] := by
  unfold Job.turn
  cases hc : job.code with
  | nil => exact .inr hc
  | cons instr rest =>
    dsimp only
    cases instr.exec thisRun job.slot job.thread s with
    | mk r s' => cases r with
      | ok a => exact .inl rfl
      | error faults => exact .inr rfl

/-- What is left after a turn was there before. -/
theorem turn_mem {job : Job V} {instr : Instr V}
    (h : instr∈(Job.turn thisRun job s).1.code) : instr∈job.code := by
  have hcode : (Job.turn thisRun job s).1.code=job.code.tail ∨ _ := turn_code job
  cases hcode with
  | inl hc =>
    rw [hc] at h
    exact List.mem_of_mem_tail h
  | inr hc =>
    rw [hc] at h
    cases h

/-- A turn meets no query that is not prepared, if the job builds current ones. -/
theorem turn_faults {job : Job V} (hq : ∀ q,.init (.query q)∈job.code → Current q s.world)
    (hf : unprepared∉job.faults) : unprepared∉(Job.turn thisRun job s).1.faults := by
  unfold Job.turn
  cases hc : job.code with
  | nil => exact hf
  | cons instr rest =>
    dsimp only
    cases hr : instr.exec thisRun job.slot job.thread s with
    | mk r s' => cases r with
      | ok a => exact hf
      | error faults =>
        refine exec_faults (fun q hi => hq q ?_) hr
        rw [hc,hi]
        exact List.mem_cons_self

/-- The state after a turn is that after one instruction, or the same. -/
theorem turn_state (job : Job V) : (Job.turn thisRun job s).2=match job.code with
    | [] => s
    | instr::_ => (instr.exec thisRun job.slot job.thread s).2 := by
  unfold Job.turn
  cases job.code with
  | nil => rfl
  | cons instr rest =>
    dsimp only
    cases instr.exec thisRun job.slot job.thread s with
    | mk r s' => cases r <;> rfl

/-- A turn leaves the world in order. -/
theorem turn_core (job : Job V) (h : CoreInv s.world) : CoreInv (Job.turn thisRun job s).2.world := by
  rw [turn_state]
  cases job.code with
  | nil => exact h
  | cons instr rest => exact exec_core h

/-- With commands queued it leaves what queries are looked up in alone. -/
theorem turn_frozen (job : Job V) (hp : s.world.inParallelCompute=true) :
    World.frozen (Job.turn thisRun job s).2.world=World.frozen s.world := by
  rw [turn_state]
  cases job.code with
  | nil => rfl
  | cons instr rest => exact exec_frozen hp

omit [Inhabited V] in
/-- What is left of such a program builds first. -/
theorem InitsFirst.tail {code : List (Instr V)} (h : InitsFirst code) : InitsFirst code.tail := by
  cases code with
  | nil => trivial
  | cons instr rest => cases instr with
    | init p => exact h
    | act a => exact initsFirst_of_none h
    | setLastRunTick => exact initsFirst_of_none h

/-- A lone job that builds its parameters first still has them current. -/
theorem turn_alone {job : Job V} (hf : InitsFirst job.code)
    (hq : ∀ q,.init (.query q)∈job.code → Current q s.world) :
    InitsFirst (Job.turn thisRun job s).1.code ∧
      ∀ q,.init (.query q)∈(Job.turn thisRun job s).1.code →
        Current q (Job.turn thisRun job s).2.world := by
  have hcode : (Job.turn thisRun job s).1.code=job.code.tail ∨ _ := turn_code job
  cases hcode with
  | inr hc =>
    rw [hc]
    exact ⟨trivial,nofun⟩
  | inl hc =>
    refine ⟨hc ▸ hf.tail,fun q hi => ?_⟩
    have hall := hq q (turn_mem hi)
    rw [hc] at hi
    rw [turn_state]
    cases hj : job.code with
    | nil => exact hall
    | cons instr rest =>
      rw [hj] at hi hf
      cases instr with
      | init p =>
        dsimp only
        rw [exec_init]
        exact hall
      | act a => exact absurd hi (hf _)
      | setLastRunTick => exact absurd hi (hf _)

/-- A turn of one of the jobs keeps them steady. -/
theorem Steady.turn {jobs : List (Job V)} (h : Steady jobs s) {k : ℕ} {job : Job V}
    (hk : jobs[k]?=some job) :
    Steady (jobs.set k (Job.turn thisRun job s).1) (Job.turn thisRun job s).2 := by
  have hj : job∈jobs := List.mem_of_getElem? hk
  have hmem : ∀ {j},j∈jobs.set k (Job.turn thisRun job s).1 → j∈jobs ∨ j=(Job.turn thisRun job s).1 :=
    fun hm => List.mem_or_eq_of_mem_set hm
  have hfaults : ∀ j∈jobs.set k (Job.turn thisRun job s).1,unprepared∉j.faults := by
    intro j hm
    cases hmem hm with
    | inl hm => exact h.faults j hm
    | inr he =>
      rw [he]
      exact turn_faults (h.ready job hj) (h.faults job hj)
  have hcore : CoreInv (Job.turn thisRun job s).2.world := turn_core job h.core
  cases h.still with
  | inl hp =>
    have hfr : World.frozen (Job.turn thisRun job s).2.world=World.frozen s.world :=
      turn_frozen job hp
    refine ⟨hcore,fun j hm q hi => ?_,hfaults,.inl ((congrArg Prod.snd hfr).trans hp)⟩
    refine Current.congr ?_ (congrArg Prod.fst hfr)
    cases hmem hm with
    | inl hm => exact h.ready j hm q hi
    | inr he =>
      rw [he] at hi
      exact h.ready job hj q (turn_mem hi)
  | inr hone =>
    obtain ⟨only,rfl,hfirst⟩ := hone
    have hkj : k=0 ∧ job=only := by
      cases k with
      | zero => exact ⟨rfl,(Option.some.inj hk).symm⟩
      | succ k => cases hk
    obtain ⟨rfl,rfl⟩ := hkj
    have halone : InitsFirst (Job.turn thisRun job s).1.code ∧ _ :=
      turn_alone hfirst (h.ready job hj)
    refine ⟨hcore,fun j hm q hi => ?_,hfaults,.inr ⟨_,rfl,halone.1⟩⟩
    cases List.mem_singleton.mp hm
    exact halone.2 q hi

variable (thisRun) in
/-- Turns in any order keep the queries current. -/
theorem Steady.takeTurns {jobs : List (Job V)} (picks : List ℕ) (h : Steady jobs s) :
    Steady (Scheduling.takeTurns thisRun picks (jobs,s)).1
      (Scheduling.takeTurns thisRun picks (jobs,s)).2 := by
  induction picks generalizing jobs s with
  | nil => exact h
  | cons k picks ih =>
    rw [Scheduling.takeTurns]
    cases hk : jobs[k]? with
    | none => exact ih h
    | some job => exact ih (h.turn hk)

/-- Steady jobs finish without the panic. -/
theorem runIndexed_spec {jobs : List (Job V)} (picks : List ℕ) (h : Steady jobs s) :
    wp (runIndexed thisRun picks jobs) (fun _ s' => CoreInv s'.world)
      (fun faults s' => unprepared∉faults ∧ CoreInv s'.world) s := by
  have hend := h.takeTurns thisRun (picks++remaining jobs)
  have hall : unprepared∉(takeTurns thisRun (picks++remaining jobs) (jobs,s)).1.flatMap Job.faults := by
    intro hm
    obtain ⟨job,hj,hf⟩ := List.mem_flatMap.mp hm
    exact hend.faults job hj hf
  unfold wp runIndexed
  dsimp only
  cases hf : (takeTurns thisRun (picks++remaining jobs) (jobs,s)).1.flatMap Job.faults with
  | nil => exact hend.core
  | cons f faults =>
    rw [hf] at hall
    exact ⟨hall,hend.core⟩

end Turns

section Runs

variable {V α β : Type} {s s' : Scheduler V}

/-- A stage of a run that starts and ends with the core in order, and in which
no query is found unprepared. -/
def Runs (x : Scheduled V α) : Prop := ∀ s : Scheduler V,CoreInv s.world →
  wp x (fun _ s' => CoreInv s'.world) (fun faults s' => unprepared∉faults ∧ CoreInv s'.world) s

/-- Computations that meet no unprepared query meet none one after the other. -/
theorem Runs.bind {x : Scheduled V α} {f : α → Scheduled V β} (hx : Runs x) (hf : ∀ a,Runs (f a)) :
    Runs (x >>= f) := fun s h =>
  wp_bind.mpr (wp_mono (hx s h) (fun a s' hs => hf a s' hs) fun _ _ hs => hs)

/-- Returning meets none. -/
theorem Runs.pure (a : α) : Runs (Pure.pure a : Scheduled V α) := fun _ h => h

/-- A call on the world meets none, if its stage is another one. -/
theorem Runs.onWorld {stage : Fault → RunFault} {x : Call V α} (hs : ∀ e,stage e≠unprepared)
    (hx : ∀ w : World V,CoreInv w → CoreInv (x w).2) : Runs (onWorld stage x) := by
  intro s h
  apply wp_intro
  · intro a s' hr
    have hst := onWorld_state stage x s
    rw [hr] at hst
    dsimp only at hst
    rw [hst]
    exact hx s.world h
  · intro faults s' hr
    have hst := onWorld_state stage x s
    rw [hr] at hst
    dsimp only at hst
    obtain ⟨e,rfl⟩ := onWorld_error hr
    rw [hst]
    exact ⟨fun hm => hs e (List.mem_singleton.mp hm).symm,hx s.world h⟩

/-- The queries a system takes are current. -/
def Ready (s : Scheduler V) (slot : ℕ) : Prop :=
  ∀ q,.query q∈s.params slot → Current q s.world

/-- Preparing a parameter makes its query current, and keeps those that are. -/
theorem prepare_spec (p : SystemParam) {w : World V} (h : CoreInv w) :
    wp p.prepare (fun _ w' => CoreInv w' ∧ (∀ q,p=.query q → Current q w') ∧
      ∀ q,Current q w → Current q w') (fun _ w' => CoreInv w') w := by
  cases p with
  | query q =>
    rw [SystemParam.prepare,wp_bind]
    refine wp_mono (prepareQuery_current h) ?_ fun _ _ he => he
    intro _ w' hw
    refine ⟨hw.1,fun q' he => ?_,hw.2.2⟩
    cases he
    exact hw.2.1
  | singleton c => exact ⟨h,nofun,fun _ hc => hc⟩
  | cmd => exact ⟨h,nofun,fun _ hc => hc⟩
  | unit => exact ⟨h,nofun,fun _ hc => hc⟩

/-- Preparing the parameters of a system makes its queries current. -/
theorem prepareAll_spec (params : List SystemParam) {w : World V} (h : CoreInv w) :
    wp (prepareAll params) (fun _ w' => CoreInv w' ∧ (∀ q,.query q∈params → Current q w') ∧
      ∀ q,Current q w → Current q w') (fun _ w' => CoreInv w') w := by
  induction params generalizing w with
  | nil => exact ⟨h,nofun,fun _ hc => hc⟩
  | cons p params ih =>
    rw [prepareAll,wp_bind]
    refine wp_mono (prepare_spec p h) ?_ fun _ _ he => he
    intro _ w₁ h₁
    refine wp_mono (ih h₁.1) ?_ fun _ _ he => he
    intro _ w₂ h₂
    refine ⟨h₂.1,fun q hq => ?_,fun q hc => h₂.2.2 q (h₁.2.2 q hc)⟩
    cases List.mem_cons.mp hq with
    | inl he => exact h₂.2.2 q (h₁.2.1 q he.symm)
    | inr hq => exact h₂.2.1 q hq

/-- What a preparation pass leaves: the systems as they were, and more current queries. -/
structure Prepared (s s' : Scheduler V) : Prop where
  /-- The world is in order. -/
  core : CoreInv s'.world
  /-- The systems stay. -/
  systems : s'.systems=s.systems
  /-- Queries that were current still are. -/
  kept : ∀ q,Current q s.world → Current q s'.world

/-- A system that is ready stays ready. -/
theorem Prepared.ready (h : Prepared s s') {slot : ℕ} (hr : Ready s slot) : Ready s' slot := by
  intro q hq
  refine h.kept q (hr q ?_)
  unfold Scheduler.params at hq ⊢
  rw [h.systems] at hq
  exact hq

/-- Preparing a system makes it ready. -/
theorem prepareSystem_spec (slot : ℕ) (h : CoreInv s.world) :
    wp (prepareSystem slot) (fun _ s' => Prepared s s' ∧ Ready s' slot)
      (fun faults s' => unprepared∉faults ∧ CoreInv s'.world) s := by
  have hp := prepareAll_spec (s.params slot) h
  unfold prepareSystem
  rw [wp_bind,wp_getState]
  unfold wp at hp ⊢
  unfold onWorld
  cases hr : prepareAll (s.params slot) s.world with
  | mk r w' =>
    rw [hr] at hp
    cases r with
    | ok a => exact ⟨⟨hp.1,rfl,hp.2.2⟩,hp.2.1⟩
    | error e => exact ⟨fun hm => (nomatch List.mem_singleton.mp hm),hp⟩

/-- Preparing a group makes each of its systems ready. -/
theorem prepareGroup_spec (group : List ℕ) (h : CoreInv s.world) :
    wp (prepareGroup group) (fun _ s' => Prepared s s' ∧ ∀ slot∈group,Ready s' slot)
      (fun faults s' => unprepared∉faults ∧ CoreInv s'.world) s := by
  induction group generalizing s with
  | nil => exact ⟨⟨h,rfl,fun _ hc => hc⟩,nofun⟩
  | cons slot group ih =>
    rw [prepareGroup,wp_bind]
    refine wp_mono (prepareSystem_spec slot h) ?_ fun _ _ he => he
    intro _ s₁ h₁
    refine wp_mono (ih h₁.1.core) ?_ fun _ _ he => he
    intro _ s₂ h₂
    refine ⟨⟨h₂.1.core,h₂.1.systems.trans h₁.1.systems,
      fun q hc => h₂.1.kept q (h₁.1.kept q hc)⟩,fun k hk => ?_⟩
    cases List.mem_cons.mp hk with
    | inl he => exact he ▸ h₂.1.ready h₁.2
    | inr hk => exact h₂.2 k hk

variable [Inhabited V] (conduct : Conduct V)

omit [Inhabited V] in
/-- The job of a system that is ready builds current queries. -/
theorem ready_startJob {slot : ℕ} (hr : Ready s' slot) (hs : s.systems=s'.systems)
    {q : QueryShape Component} (hq : .init (.query q)∈(startJob conduct s slot).code) :
    Current q s'.world := by
  have hp := mem_program.mp hq
  unfold Scheduler.params at hp
  rw [hs] at hp
  exact hr q hp

/-- A system whose queries are current runs. -/
theorem runSystemAt_spec {slot : ℕ} (thisRun : ChangedTick) (h : CoreInv s.world)
    (hr : Ready s slot) : wp (runSystemAt conduct slot thisRun) (fun _ s' => CoreInv s'.world)
      (fun faults s' => unprepared∉faults ∧ CoreInv s'.world) s := by
  unfold runSystemAt
  rw [wp_bind,wp_getState]
  refine runIndexed_spec [] ⟨h,fun job hj q hq => ?_,fun job hj => ?_,
    .inr ⟨_,rfl,initsFirst_program _ _⟩⟩
  · cases List.mem_singleton.mp hj
    exact ready_startJob conduct hr rfl hq
  · cases List.mem_singleton.mp hj
    exact nofun

/-- Preparing a system and running it meets no unprepared query. -/
theorem prepareAndRun_spec (slot : ℕ) (thisRun : ChangedTick) : Runs (do
    prepareSystem slot
    runSystemAt conduct slot thisRun) := by
  intro s h
  rw [wp_bind]
  refine wp_mono (prepareSystem_spec slot h) ?_ fun _ _ he => he
  intro _ s₁ h₁
  exact runSystemAt_spec conduct thisRun h₁.1.core h₁.2

omit [Inhabited V] in
/-- Taking a tick meets none. -/
theorem runs_advanceTick : Runs (onWorld .body advanceTick : Scheduled V ChangedTick) :=
  Runs.onWorld nofun fun w h => (wp_state (Grows.advanceTick w h)).1

/-- A step with one system meets no unprepared query. -/
theorem runs_runSystem (slot : ℕ) : Runs (runSystem conduct slot) :=
  Runs.bind runs_advanceTick fun thisRun => prepareAndRun_spec conduct slot thisRun

/-- Systems that run one after the other meet none. -/
theorem runs_runEach (thisRun : ChangedTick) (group : List ℕ) :
    Runs (runEach conduct thisRun group) := by
  induction group with
  | nil => exact Runs.pure ()
  | cons slot group ih =>
    intro s h
    rw [runEach,wp_bind]
    refine wp_mono (prepareSystem_spec slot h) ?_ fun _ _ he => he
    intro _ s₁ h₁
    rw [wp_bind]
    refine wp_mono (runSystemAt_spec conduct thisRun h₁.1.core h₁.2) ?_ fun _ _ he => he
    exact fun _ s₂ h₂ => ih s₂ h₂

omit [Inhabited V] in
/-- The flag is no part of what is kept in order. -/
theorem coreInv_flag {w : World V} (val : Bool) (h : CoreInv w) :
    CoreInv { w with inParallelCompute := val } := by
  have hg : Grew w { w with inParallelCompute := val } := grew_congr h rfl
  exact hg.1

/-- A step with a group meets no unprepared query. -/
theorem runs_runSystemGroup (group : List ℕ) : Runs (runSystemGroup conduct group) := by
  refine Runs.bind runs_advanceTick fun thisRun s h => ?_
  rw [wp_bind,wp_getState]
  split
  · rw [wp_bind]
    refine wp_mono (prepareGroup_spec group h) ?_ fun _ _ he => he
    intro _ s₁ h₁
    unfold setInParallelCompute
    rw [wp_bind,wp_modifyState,wp_bind]
    have hsteady : Steady (group.map (startJob conduct s))
        { s₁ with world := { s₁.world with inParallelCompute := true } } := by
      refine ⟨coreInv_flag true h₁.1.core,fun job hj q hq => ?_,fun job hj => ?_,.inl rfl⟩
      · obtain ⟨slot,hslot,rfl⟩ := List.mem_map.mp hj
        exact ready_startJob conduct (h₁.2 slot hslot) h₁.1.systems.symm hq
      · obtain ⟨slot,hslot,rfl⟩ := List.mem_map.mp hj
        exact nofun
    refine wp_mono (runIndexed_spec _ hsteady) ?_ fun _ _ he => he
    intro _ s₂ h₂
    exact coreInv_flag false h₂
  · exact runs_runEach conduct thisRun group s h

/-- The steps of a session meet no unprepared query. -/
theorem runs_runSteps (steps : List ScheduleStep) : Runs (runSteps conduct steps) := by
  induction steps with
  | nil => exact Runs.pure ()
  | cons step steps ih => cases step with
    | single slot => exact Runs.bind (runs_runSystem conduct slot) fun _ => ih
    | parallel group => exact Runs.bind (runs_runSystemGroup conduct group) fun _ => ih

/-- A run of a session meets no unprepared query. -/
theorem runs_run (autoSyncPoint : Bool) (steps : Option (List ScheduleStep)) :
    Runs (run autoSyncPoint conduct steps) := by
  cases steps with
  | none => exact Runs.pure ()
  | some steps =>
    refine Runs.bind (runs_runSteps conduct steps) fun _ => ?_
    unfold onlyIf
    split
    · exact Runs.onWorld nofun fun w h => (syncPoint_drained h).1
    · exact Runs.pure ()

/-- What happens to a world with systems: an action, or a run of a scheduler. -/
inductive Event (V : Type)
  | action (a : Action V)
  | run (autoSyncPoint : Bool) (conduct : Conduct V) (steps : Option (List ScheduleStep))

def Event.step : Event V → Scheduler V → Scheduler V
  | .action a,s => { s with world := a.step s.world }
  | .run autoSyncPoint conduct steps,s => (Scheduling.run autoSyncPoint conduct steps s).2

/-- Events of any kind leave the world in order. -/
theorem core_events (events : List (Event V)) (h : CoreInv s.world) :
    CoreInv (runAll Event.step events s).world := by
  induction events generalizing s with
  | nil => exact h
  | cons event events ih =>
    refine ih ?_
    cases event with
    | action a => exact (Action.grew a h).1
    | run autoSyncPoint conduct steps =>
      exact wp_state (wp_mono (runs_run conduct autoSyncPoint steps s h) (fun _ _ hc => hc)
        fun _ _ hc => hc.2)

/-- In every world that actions and runs of the scheduler reach, an accessor
lists exactly the archetypes that match, a query that was just prepared has one,
and no run panics because a query was not prepared. -/
theorem cachedMatches_exact (runtime : Runtime) (systems : List SystemAlias)
    (events : List (Event V)) :
    let s : Scheduler V := runAll Event.step events ⟨World.new runtime,systems⟩
    (∀ q lastRunTick accessor,querySrcAccess q lastRunTick s.world=some accessor →
      ∃ idxs,accessor.archIndices s.world=some idxs ∧ Exact s.world q idxs) ∧
    (∀ q lastRunTick idx w,prepareQuerySrcAccess q s.world=(.ok idx,w) →
      (querySrcAccess q lastRunTick w).isSome=true) ∧
    ∀ autoSyncPoint conduct steps faults s',
      run autoSyncPoint conduct steps s=(.error faults,s') → unprepared∉faults := by
  intro s
  have h : CoreInv s.world := core_events events (coreInv_new runtime)
  refine ⟨fun q lastRunTick accessor ha => accessor_exact h ha,fun q lastRunTick idx w hr => ?_,
    fun autoSyncPoint conduct steps faults s' hr => ?_⟩
  · exact (current_iff lastRunTick).mp (wp_of_ok (prepareQuery_current h) hr).2.1
  · exact (wp_of_error (runs_run conduct autoSyncPoint steps s h) hr).1

end Runs

end XynokEcs.Scheduling
