import XynokEcs.Scheduling

/-!
# Which systems may stand in one group

A system records one access scope for each parameter that touches component
storage, and is refused when two of them conflict. A group is refused when
parameters of two of its systems do. Both checks ask what the shapes name: two
parameters conflict when they clash on a component and neither excludes what the
other requires. So what is accepted never aliases, on no archetype at all, and
acceptance does not depend on any order.
-/

namespace XynokEcs.ParallelGroups

open ComponentTypes SequenceValueMap ComponentBits ChunkLayouts ChunkRows ItemWrites FaultingState
  QueryShapes WorldState RegistryInvariants RegistrySteps StoreInvariants QueryAccess QuerySources
  ActionRuns WorldRuns WorldGrowth QueryMatches CommandBuffer Scheduling

section Conflicts

/-- The places of one parameter, each with the type it touches. -/
abbrev Places := List (Access×StorageType)

variable {p q : Places} {specs specs' : ComponentSpecs}

/-- On no archetype that both iterate do two places clash. -/
def NeverAlias (p q : Places) : Prop :=
  ∀ arch : Set StorageType,Carries arch p → Carries arch q → ∀ a∈p,∀ b∈q,¬Clash a b

/-- Two places clash and neither side excludes what the other requires. -/
def Conflict (p q : Places) : Prop := ¬KeptApart p q ∧ ∃ a∈p,∃ b∈q,Clash a b

/-- Being kept apart goes both ways. -/
theorem keptApart_symm (h : KeptApart p q) : KeptApart q p := by
  obtain ⟨t,ht⟩ := h
  exact ⟨t,ht.symm⟩

/-- So does conflict. -/
theorem Conflict.symm (h : Conflict p q) : Conflict q p := by
  obtain ⟨hapart,a,ha,b,hb,hab⟩ := h
  exact ⟨fun hk => hapart (keptApart_symm hk),b,hb,a,ha,hab.symm⟩

/-- No archetype is iterated by both sides of an exclusion. -/
theorem not_carries_of_keptApart (h : KeptApart p q) {arch : Set StorageType} (hp : Carries arch p) :
    ¬Carries arch q := by
  intro hq
  have hmiss : ∀ {r s : Places} {t : StorageType},Carries arch r → Carries arch s →
      (.exclude,t)∈r → ¬((.read,t)∈s ∨ (.write,t)∈s) := by
    intro r s t hr hs hex hreq
    have hout : t∉arch := fun ht => (hr _ hex).mp ht rfl
    cases hreq with
    | inl hread => exact hout ((hs _ hread).mpr nofun)
    | inr hwrite => exact hout ((hs _ hwrite).mpr nofun)
  obtain ⟨t,⟨hex,hreq⟩ | ⟨hex,hreq⟩⟩ := h
  · exact hmiss hp hq hex hreq
  · exact hmiss hq hp hex hreq

/-- Parameters that do not conflict never meet on the same component in clashing ways. -/
theorem neverAlias_of_not_conflict (h : ¬Conflict p q) : NeverAlias p q := by
  intro arch hp hq a ha b hb hab
  exact h ⟨fun hk => not_carries_of_keptApart hk hp hq,a,ha,b,hb,hab⟩

/-- What a recorded scope says of the places it was folded from. -/
def Records (specs : ComponentSpecs) (p : Places) (scope : AccessScope) : Prop :=
  Describes specs p scope ∧ AllRegistered specs p

/-- A record stays right when components are registered. -/
theorem Records.grow {scope : AccessScope} (h : Records specs p scope)
    (hi : ∀ t i,specs.indexOf t=some i → specs'.indexOf t=some i) : Records specs' p scope := by
  refine ⟨h.1.grow h.2 hi,fun a ha => ?_⟩
  obtain ⟨i,hid⟩ := h.2 a ha
  exact ⟨i,hi _ i hid⟩

/-- The check on two scopes is the question about their places. -/
theorem conflictsWith_iff_conflict {scope scope' : AccessScope} (h : Records specs p scope)
    (h' : Records specs q scope') : scope.conflictsWith scope'=true ↔ Conflict p q := by
  rw [AccessScope.conflictsWith,Bool.and_eq_true,Bool.not_eq_true',←Bool.not_eq_true,
    disjointFrom_iff h.1 h'.1 h.2 h'.2,collideWith_iff h.1 h'.1 h.2]
  rfl

end Conflicts

section Params

/-- The places of a parameter that touches component storage. -/
def SystemParam.places : SystemParam → Option Places
  | .query q => some (storedAccesses (QueryShape.accesses q))
  | .singleton p => some (storedAccesses [QueryColumn.access p])
  | .cmd => none
  | .unit => none

/-- The places of the parameters of one system. -/
def placesOf (params : List SystemParam) : List Places := params.filterMap SystemParam.places

/-- Every access one system performs, one scope per parameter. -/
abbrev AccessScopes := List AccessScope

/-- Register one parameter, rejecting it when it conflicts with one before it. -/
def AccessScopes.push (scopes : AccessScopes) (scope : AccessScope) :
    Except XynokEcsError AccessScopes :=
  if scopes.any fun registered => registered.conflictsWith scope then
    .error .systemAccessScopeConflict
  else .ok (scopes++[scope])

/-- No parameter of one conflicts with any parameter of the other. -/
def AccessScopes.canParallelWith (scopes other : AccessScopes) : Bool :=
  scopes.all fun e => other.all fun otherE => !e.conflictsWith otherE

/-- `TSystemParam::collect_access_scope`. -/
def SystemParam.collectAccessScope (dst : AccessScopes) :
    SystemParam → Faulting ComponentSpecs XynokEcsError AccessScopes
  | .query q => do
    let scope ← q.accessScope
    ofExcept (AccessScopes.push dst scope)
  | .singleton p => do
    let scope ← p.accessScope
    ofExcept (AccessScopes.push dst scope)
  | .cmd => return dst
  | .unit => return dst

/-- The scopes of the parameters, each pushed after those before it. -/
def collectScopes : List SystemParam → AccessScopes →
    Faulting ComponentSpecs XynokEcsError AccessScopes
  | [],dst => return dst
  | p::rest,dst => do
    let dst ← SystemParam.collectAccessScope dst p
    collectScopes rest dst

/-- `TSystem::access_scope`. -/
def accessScopes (params : List SystemParam) : Faulting ComponentSpecs XynokEcsError AccessScopes :=
  collectScopes params []

/-- No parameter clashes with itself, and no two conflict. -/
def Sound (ps : List Places) : Prop :=
  (∀ p∈ps,Separate p) ∧ ps.Pairwise fun p q => ¬Conflict p q

/-- The registry after some components were registered. -/
def Registered (specs specs' : ComponentSpecs) : Prop := ∃ cs,GrownBy cs specs specs'

variable {ps : List Places} {p : Places} {dst : AccessScopes} {specs specs' : ComponentSpecs}

/-- Registering keeps the ids. -/
theorem Registered.indexOf (h : Registered specs specs') {t : StorageType} {i : ℕ}
    (hi : specs.indexOf t=some i) : specs'.indexOf t=some i := by
  obtain ⟨cs,hg⟩ := h
  exact hg.indexOf hi

/-- Registering adds up. -/
theorem Registered.trans {specs'' : ComponentSpecs} (h : Registered specs specs')
    (h' : Registered specs' specs'') : Registered specs specs'' := by
  obtain ⟨cs,hg⟩ := h
  obtain ⟨cs',hg'⟩ := h'
  exact ⟨cs++cs',(hg.mono fun _ hc => List.mem_append_left _ hc).trans
    (hg'.mono fun _ hc => List.mem_append_right _ hc)⟩

/-- The first of some parameters are free of conflicts. -/
theorem Sound.left {qs : List Places} (h : Sound (ps++qs)) : Sound ps :=
  ⟨fun p hp => h.1 p (List.mem_append_left _ hp),(List.pairwise_append.mp h.2).1⟩

/-- One more parameter. -/
theorem sound_concat : Sound (ps++[p]) ↔ Sound ps ∧ Separate p ∧ ∀ q∈ps,¬Conflict q p := by
  unfold Sound
  rw [List.pairwise_append]
  constructor
  · intro h
    refine ⟨⟨fun q hq => h.1 q (List.mem_append_left _ hq),h.2.1⟩,
      h.1 p (List.mem_append_right _ (List.mem_singleton_self p)),fun q hq => ?_⟩
    exact h.2.2.2 q hq p (List.mem_singleton_self p)
  · intro h
    refine ⟨fun q hq => ?_,h.1.2,List.pairwise_singleton _ _,fun q hq r hr => ?_⟩
    · cases List.mem_append.mp hq with
      | inl hq => exact h.1.1 q hq
      | inr hq => exact List.mem_singleton.mp hq ▸ h.2.1
    · exact List.mem_singleton.mp hr ▸ h.2.2 q hq

/-- All records stay right when components are registered. -/
theorem forall₂_grow (h : List.Forall₂ (Records specs) ps dst) (hr : Registered specs specs') :
    List.Forall₂ (Records specs') ps dst :=
  h.imp fun _ _ hp => hp.grow fun _ _ hi => hr.indexOf hi

/-- A scope is pushed exactly when its parameter conflicts with none before it. -/
theorem any_conflictsWith {scope : AccessScope} (h : List.Forall₂ (Records specs) ps dst)
    (hp : Records specs p scope) :
    (dst.any fun registered => registered.conflictsWith scope)=true ↔ ∃ q∈ps,Conflict q p := by
  induction h with
  | nil => exact iff_of_false nofun fun he => nomatch he.choose_spec.1
  | cons hq _ ih =>
    rw [List.any_cons,Bool.or_eq_true,ih,conflictsWith_iff_conflict hq hp,List.exists_mem_cons_iff]

/-- Folding one parameter and pushing its scope. -/
theorem push_spec {acc : List (Access×Component)}
    {x : Faulting ComponentSpecs XynokEcsError AccessScope} (hx : FoldsTo specs acc x)
    (h : List.Forall₂ (Records specs) ps dst) (hs : Sound ps) :
    wp (do let scope ← x; ofExcept (AccessScopes.push dst scope))
      (fun dst' specs' => Registered specs specs' ∧
        List.Forall₂ (Records specs') (ps++[storedAccesses acc]) dst' ∧
        Sound (ps++[storedAccesses acc]))
      (fun _ specs' => Registered specs specs' ∧ ¬Sound (ps++[storedAccesses acc])) specs := by
  rw [wp_bind]
  refine wp_mono hx (fun scope specs' hf => ?_) fun e specs' he => ?_
  · have hreg : Registered specs specs' := ⟨_,hf.grown⟩
    have hrec : Records specs' (storedAccesses acc) scope := ⟨hf.describes,hf.registered⟩
    have hdst := forall₂_grow h hreg
    have hany := any_conflictsWith hdst hrec
    unfold AccessScopes.push
    split
    · rename_i hc
      refine ⟨hreg,fun hsound => ?_⟩
      obtain ⟨q,hq,hconf⟩ := hany.mp hc
      exact (sound_concat.mp hsound).2.2 q hq hconf
    · rename_i hc
      refine ⟨hreg,List.rel_append hdst (.cons hrec .nil),sound_concat.mpr ⟨hs,hf.separate,?_⟩⟩
      exact fun q hq hconf => hc (hany.mpr ⟨q,hq,hconf⟩)
  · exact ⟨⟨_,he.1⟩,fun hsound => he.2.2 (sound_concat.mp hsound).2.1⟩

/-- Collecting the scope of one parameter. -/
theorem collectAccessScope_spec (param : SystemParam) (h : List.Forall₂ (Records specs) ps dst)
    (hs : Sound ps) :
    wp (SystemParam.collectAccessScope dst param)
      (fun dst' specs' => Registered specs specs' ∧
        List.Forall₂ (Records specs') (ps++placesOf [param]) dst' ∧ Sound (ps++placesOf [param]))
      (fun _ specs' => Registered specs specs' ∧ ¬Sound (ps++placesOf [param])) specs := by
  cases param with
  | query q => exact push_spec (QueryShape.accessScope_spec q specs) h hs
  | singleton c => exact push_spec (QueryColumn.accessScope_spec c) h hs
  | cmd => exact ⟨⟨[],GrownBy.refl⟩,(List.append_nil ps).symm ▸ h,(List.append_nil ps).symm ▸ hs⟩
  | unit => exact ⟨⟨[],GrownBy.refl⟩,(List.append_nil ps).symm ▸ h,(List.append_nil ps).symm ▸ hs⟩

/-- Collecting the scopes of all parameters succeeds exactly when they are sound. -/
theorem collectScopes_spec (params : List SystemParam) (h : List.Forall₂ (Records specs) ps dst)
    (hs : Sound ps) :
    wp (collectScopes params dst)
      (fun scopes specs' => Registered specs specs' ∧
        List.Forall₂ (Records specs') (ps++placesOf params) scopes ∧ Sound (ps++placesOf params))
      (fun _ specs' => Registered specs specs' ∧ ¬Sound (ps++placesOf params)) specs := by
  induction params generalizing ps dst specs with
  | nil => exact ⟨⟨[],GrownBy.refl⟩,(List.append_nil ps).symm ▸ h,(List.append_nil ps).symm ▸ hs⟩
  | cons param params ih =>
    have hsplit : ps++placesOf (param::params)=ps++placesOf [param]++placesOf params := by
      rw [List.append_assoc,placesOf,placesOf,placesOf,←List.filterMap_append,List.singleton_append]
    rw [collectScopes,wp_bind,hsplit]
    refine wp_mono (collectAccessScope_spec param h hs) (fun dst' specs₁ h₁ => ?_) fun e specs₁ h₁ => ?_
    · refine wp_mono (ih h₁.2.1 h₁.2.2) (fun scopes specs₂ h₂ => ?_) fun e specs₂ h₂ => ?_
      · exact ⟨h₁.1.trans h₂.1,h₂.2⟩
      · exact ⟨h₁.1.trans h₂.1,h₂.2⟩
    · exact ⟨h₁.1,fun hsound => h₁.2 hsound.left⟩

end Params

section Systems

/-- The function a system is made from. Its type has one id and fixes the
parameters. -/
structure SystemFn where
  /-- The type of the function. -/
  id : ℕ
  /-- Its parameters. -/
  params : List SystemParam
deriving DecidableEq

/-- The places of the parameters of a system. -/
def SystemFn.places (f : SystemFn) : List Places := placesOf f.params

/-- `Scheduler`: the world and the systems in it, what was recorded about each
function, and the steps of each session. -/
structure Schedule (V S : Type) where
  /-- The world and the systems. -/
  scheduler : Scheduler V
  /-- What each function was found to touch. -/
  systemSpecs : List (SystemFn×AccessScopes)
  /-- The steps of each session, in order. -/
  steps : S → Option (List ScheduleStep)

/-- How adding systems panics: with the error of one system, or of the group. -/
inductive AddFault
  | system (name : ℕ) (e : XynokEcsError)
  | group (e : XynokEcsError)
deriving DecidableEq

variable {V S : Type}

/-- A function on a schedule. -/
abbrev Adding (V S α : Type) := Faulting (Schedule V S) AddFault α

/-- The component registry of the world. -/
def Schedule.componentSpecs (s : Schedule V S) : ComponentSpecs :=
  s.scheduler.world.componentCounter

/-- Replace the component registry of the world. -/
def Schedule.setComponentSpecs (s : Schedule V S) (specs : ComponentSpecs) : Schedule V S :=
  { s with scheduler := { s.scheduler with
      world := { s.scheduler.world with componentCounter := specs } } }

/-- `SystemSpecs::register`, with the panic its caller raises. -/
def register (f : SystemFn) : Adding V S Unit := fun s =>
  match s.systemSpecs.lookup f with
  | some _ => (.ok (),s)
  | none => match accessScopes f.params s.componentSpecs with
    | (.ok scopes,specs) =>
      (.ok (),{ s.setComponentSpecs specs with systemSpecs := (f,scopes)::s.systemSpecs })
    | (.error e,specs) => (.error (.system f.id e),s.setComponentSpecs specs)

/-- Register the systems of a group in turn. -/
def registerAll : List SystemFn → Adding V S Unit
  | [] => return ()
  | f::group => do
    register f
    registerAll group

/-- One system of a group against those after it. -/
def checkAgainst (systemSpecs : List (SystemFn×AccessScopes)) (a : SystemFn)
    (scopes : AccessScopes) : List SystemFn → Except XynokEcsError Unit
  | [] => .ok ()
  | b::rest => match systemSpecs.lookup b with
    | none => .error (.systemSpecIsNotRegistered b.id)
    | some other =>
      if !AccessScopes.canParallelWith scopes other then .error (.parallelGroupConflict a.id b.id)
      else checkAgainst systemSpecs a scopes rest

/-- `SystemSpecs::check_group_can_parallel`. -/
def checkGroupCanParallel (systemSpecs : List (SystemFn×AccessScopes)) :
    List SystemFn → Except XynokEcsError Unit
  | [] => .ok ()
  | a::rest => match systemSpecs.lookup a with
    | none => .error (.systemSpecIsNotRegistered a.id)
    | some scopes => match checkAgainst systemSpecs a scopes rest with
      | .error e => .error e
      | .ok _ => checkGroupCanParallel systemSpecs rest

/-- Box a system that has never run. -/
def SystemFn.intoSystem (f : SystemFn) : SystemAlias := ⟨f.params,0⟩

variable [DecidableEq S]

/-- Store systems and push the step that runs them. -/
def Schedule.push (session : S) (group : List SystemFn) (step : ScheduleStep) (s : Schedule V S) :
    Schedule V S :=
  { s with
    scheduler := { s.scheduler with systems := s.scheduler.systems++group.map SystemFn.intoSystem }
    steps := Function.update s.steps session (some ((s.steps session).getD []++[step])) }

/-- `Scheduler::add_system`. -/
def addSystem (session : S) (f : SystemFn) : Adding V S Unit := do
  register f
  let s ← getState
  modifyState (Schedule.push session [f] (.single s.scheduler.systems.length))

/-- `Scheduler::add_system_parallel`. -/
def addSystemParallel (session : S) (group : List SystemFn) : Adding V S Unit := do
  registerAll group
  let s ← getState
  match checkGroupCanParallel s.systemSpecs group with
  | .error e => fault (.group e)
  | .ok _ => modifyState (Schedule.push session group
      (.parallel (List.range' s.scheduler.systems.length group.length)))

/-- What happens to a schedule: an action on the world, a system or a group is
added, or a session runs. -/
inductive ScheduleEvent (V S : Type)
  | action (a : Action V)
  | addSystem (session : S) (f : SystemFn)
  | addSystemParallel (session : S) (group : List SystemFn)
  | run (autoSyncPoint : Bool) (conduct : Conduct V) (session : S)

/-- `Scheduler::new` on a new world. -/
def Schedule.new (runtime : Runtime) : Schedule V S := ⟨⟨World.new runtime,[]⟩,[],fun _ => none⟩

def ScheduleEvent.step [Inhabited V] : ScheduleEvent V S → Schedule V S → Schedule V S
  | .action a,s => { s with
      scheduler := { s.scheduler with world := a.step s.scheduler.world } }
  | .addSystem session f,s => (ParallelGroups.addSystem session f s).2
  | .addSystemParallel session group,s => (ParallelGroups.addSystemParallel session group s).2
  | .run autoSyncPoint conduct session,s => { s with
      scheduler := (Scheduling.run autoSyncPoint conduct (s.steps session) s.scheduler).2 }

end Systems

section Growth

variable {V S α β : Type} {w : World V} {s : Scheduler V}

/-- A stage that lets the registries of the world only grow. -/
def Rises (x : Scheduled V α) : Prop :=
  ∀ s : Scheduler V,CoreInv s.world → Grew s.world (x s).2.world

/-- Computations that grow the world grow it one after the other. -/
theorem Rises.bind {x : Scheduled V α} {f : α → Scheduled V β} (hx : Rises x)
    (hf : ∀ a,Rises (f a)) : Rises (x >>= f) := fun s h =>
  holds_bind (I:=fun t => Grew s.world t.world) (hx s h) fun a t _ ht => ht.trans (hf a t ht.1)

/-- Returning leaves the world as it is. -/
theorem Rises.pure (a : α) : Rises (Pure.pure a : Scheduled V α) := fun _ h => Grew.refl h

/-- A growing call on the world of a scheduler grows it. -/
theorem Rises.onWorld {stage : Fault → RunFault} {x : Call V α} (hx : Grows x) :
    Rises (onWorld stage x) := by
  intro s h
  rw [onWorld_state]
  exact wp_state (hx s.world h)

/-- Reading leaves the world as it is. -/
theorem Rises.getState {f : Scheduler V → Scheduled V α} (hf : ∀ s,Rises (f s)) :
    Rises (FaultingState.getState >>= f) := fun s h => hf s s h

/-- Preparing parameters grows the world. -/
theorem grows_prepareAll (params : List SystemParam) : Grows (prepareAll params : Call V Unit) := by
  induction params with
  | nil => exact Grows.pure ()
  | cons p params ih =>
    refine Grows.bind ?_ fun _ => ih
    cases p with
    | query q => exact Grows.bind (Grows.prepareQuery q) fun _ => Grows.pure ()
    | singleton c => exact Grows.pure ()
    | cmd => exact Grows.pure ()
    | unit => exact Grows.pure ()

/-- Preparing a system grows the world. -/
theorem rises_prepareSystem (slot : ℕ) : Rises (prepareSystem slot : Scheduled V Unit) :=
  Rises.getState fun _ => Rises.onWorld (grows_prepareAll _)

/-- Preparing a group grows the world. -/
theorem rises_prepareGroup (group : List ℕ) : Rises (prepareGroup group : Scheduled V Unit) := by
  induction group with
  | nil => exact Rises.pure ()
  | cons slot group ih => exact Rises.bind (rises_prepareSystem slot) fun _ => ih

/-- The flag is no registry. -/
theorem rises_setInParallelCompute (val : Bool) :
    Rises (setInParallelCompute val : Scheduled V Unit) := fun _ h => grew_congr h rfl

variable [Inhabited V] (conduct : Conduct V) (thisRun : ChangedTick)

/-- What a system does grows the world. -/
theorem grew_perform (a : SystemAction V) (thread : ℕ) (h : CoreInv w) :
    Grew w (a.perform thread w).2 := by
  cases a with
  | cmd form call =>
    have hcall : Grew w (call.perform thread form w).2 := wp_state (CmdCall.grows call thread form w h)
    exact hcall
  | write l t itemWrite =>
    have hwrite : Grew w (writeItem l t itemWrite w).2 :=
      wp_state (Grows.of_keeps (Keeps.writeItem l t itemWrite) w h)
    exact hwrite
  | panic p => exact Grew.refl h

/-- Every instruction of a job grows the world. -/
theorem rises_exec (instr : Instr V) (slot thread : ℕ) : Rises (instr.exec thisRun slot thread) := by
  intro s h
  cases instr with
  | init p =>
    rw [exec_init]
    exact Grew.refl h
  | act a =>
    rw [Instr.exec,onWorld_state]
    exact grew_perform a thread h
  | setLastRunTick => exact Grew.refl h

/-- Turns of jobs let the registries only grow. -/
theorem grew_takeTurns (picks : List ℕ) (jobs : List (Job V)) (h : CoreInv s.world) :
    Grew s.world (takeTurns thisRun picks (jobs,s)).2.world := by
  induction picks generalizing jobs s with
  | nil => exact Grew.refl h
  | cons k picks ih =>
    rw [takeTurns]
    cases jobs[k]? with
    | none => exact ih jobs h
    | some job =>
      have hturn : Grew s.world (Job.turn thisRun job s).2.world := by
        rw [turn_state]
        split
        · exact Grew.refl h
        · exact rises_exec thisRun _ job.slot job.thread s h
      exact hturn.trans (ih _ hturn.1)

/-- The turns of jobs grow the world, in any order. -/
theorem rises_runIndexed (picks : List ℕ) (jobs : List (Job V)) :
    Rises (runIndexed thisRun picks jobs) := by
  intro s h
  have hturns := grew_takeTurns thisRun (picks++remaining jobs) jobs h
  unfold runIndexed
  dsimp only
  split
  · exact hturns
  · exact hturns

/-- Running a system grows the world. -/
theorem rises_runSystemAt (slot : ℕ) : Rises (runSystemAt conduct slot thisRun) :=
  Rises.getState fun _ => rises_runIndexed thisRun _ _

/-- Systems that run one after the other grow the world. -/
theorem rises_runEach (group : List ℕ) : Rises (runEach conduct thisRun group) := by
  induction group with
  | nil => exact Rises.pure ()
  | cons slot group ih =>
    exact Rises.bind (rises_prepareSystem slot) fun _ =>
      Rises.bind (rises_runSystemAt conduct thisRun slot) fun _ => ih

/-- A step with a group grows the world. -/
theorem rises_runSystemGroup (group : List ℕ) : Rises (runSystemGroup conduct group) := by
  refine Rises.bind (Rises.onWorld Grows.advanceTick) fun thisRun => Rises.getState fun s => ?_
  split
  · exact Rises.bind (rises_prepareGroup group) fun _ =>
      Rises.bind (rises_setInParallelCompute true) fun _ =>
        Rises.bind (rises_runIndexed thisRun _ _) fun _ => rises_setInParallelCompute false
  · exact rises_runEach conduct thisRun group

/-- The steps of a session grow the world. -/
theorem rises_runSteps (steps : List ScheduleStep) : Rises (runSteps conduct steps) := by
  induction steps with
  | nil => exact Rises.pure ()
  | cons step steps ih => cases step with
    | single slot =>
      exact Rises.bind (Rises.bind (Rises.onWorld Grows.advanceTick) fun thisRun =>
        Rises.bind (rises_prepareSystem slot) fun _ => rises_runSystemAt conduct thisRun slot)
        fun _ => ih
    | parallel group => exact Rises.bind (rises_runSystemGroup conduct group) fun _ => ih

omit conduct thisRun in
/-- A sync point applies commands, which let the registries only grow. -/
theorem grows_syncPoint : Grows (syncPoint : Call V Unit) := by
  have hworker : ∀ i turns,Grows (flushWorker i turns : Call V Unit) := by
    intro i turns
    induction turns with
    | zero => exact Grows.pure ()
    | succ turns ih =>
      refine Grows.bind (Grows.applyCmd i) fun more => ?_
      split
      · exact ih
      · exact Grows.pure ()
  have hworkers : ∀ is,Grows (flushWorkers is : Call V Unit) := by
    intro is
    induction is with
    | nil => exact Grows.pure ()
    | cons i is ih => exact Grows.getState fun w => Grows.bind (hworker i _) fun _ => ih
  exact Grows.getState fun w => hworkers _

/-- A run of a session lets the registries only grow. -/
theorem rises_run (autoSyncPoint : Bool) (steps : Option (List ScheduleStep)) :
    Rises (run autoSyncPoint conduct steps) := by
  cases steps with
  | none => exact Rises.pure ()
  | some steps =>
    refine Rises.bind (rises_runSteps conduct steps) fun _ => ?_
    unfold onlyIf
    split
    · exact Rises.onWorld grows_syncPoint
    · exact Rises.pure ()

end Growth

section Acceptance

variable {V S : Type} {s s' : Schedule V S} {f : SystemFn} {group : List SystemFn}

/-- What is recorded about every function: scopes that say what its parameters
touch, and that they do not conflict. -/
structure Recorded (s : Schedule V S) : Prop where
  /-- The world is in order. -/
  core : CoreInv s.scheduler.world
  /-- What is recorded of a function says what its parameters touch. -/
  scopes : ∀ f scopes,s.systemSpecs.lookup f=some scopes →
    List.Forall₂ (Records s.componentSpecs) f.places scopes ∧ Sound f.places

/-- Later in the life of a schedule: what was recorded is kept. -/
structure Later (s s' : Schedule V S) : Prop where
  /-- The records are still right. -/
  recorded : Recorded s'
  /-- Component ids stay. -/
  indexOf : ∀ t i,s.componentSpecs.indexOf t=some i → s'.componentSpecs.indexOf t=some i
  /-- Records stay. -/
  kept : ∀ f scopes,s.systemSpecs.lookup f=some scopes → s'.systemSpecs.lookup f=some scopes

/-- A schedule is later than itself. -/
theorem Later.refl (h : Recorded s) : Later s s := ⟨h,fun _ _ hi => hi,fun _ _ hf => hf⟩

/-- Later goes on. -/
theorem Later.trans {s'' : Schedule V S} (h : Later s s') (h' : Later s' s'') : Later s s'' :=
  ⟨h'.recorded,fun t i hi => h'.indexOf t i (h.indexOf t i hi),
    fun f scopes hf => h'.kept f scopes (h.kept f scopes hf)⟩

/-- The world grew and nothing else was recorded. -/
theorem later_grew (h : Recorded s) (hg : Grew s.scheduler.world s'.scheduler.world)
    (hs : s'.systemSpecs=s.systemSpecs) : Later s s' := by
  refine ⟨⟨hg.1,fun f scopes hf => ?_⟩,hg.2.indexOf,fun f scopes hf => by rw [hs]; exact hf⟩
  rw [hs] at hf
  obtain ⟨hrec,hsound⟩ := h.scopes f scopes hf
  exact ⟨hrec.imp fun _ _ hp => hp.grow hg.2.indexOf,hsound⟩

/-- Registering components grows a world. -/
theorem grew_registered {w : World V} {specs : ComponentSpecs} (h : CoreInv w)
    (hr : Registered w.componentCounter specs) : Grew w { w with componentCounter := specs } := by
  obtain ⟨cs,used,-,rfl⟩ := hr
  have hnone : False → ∀ des∈used.map Component.descriptor,
      des.stateDetection=des.storageTypeId.stateDetection := False.elim
  obtain ⟨hext,hinv⟩ := registers_descriptors h.registry hnone
  exact ⟨⟨hinv,h.queries.evolve (Extends.evolves hext)⟩,WorldGrowth.Evolves.grown (Extends.evolves hext)⟩

/-- No parameter conflicts with none. -/
theorem sound_nil : Sound [] := ⟨fun _ hp => (nomatch hp),List.Pairwise.nil⟩

/-- A function is registered exactly when its parameters are sound. -/
theorem register_spec (f : SystemFn) (h : Recorded s) :
    wp (register f) (fun _ s' => Later s s' ∧ Sound f.places ∧ (s'.systemSpecs.lookup f).isSome=true)
      (fun _ s' => Later s s' ∧ ¬Sound f.places) s := by
  have hcollect := @collectScopes_spec _ _ s.componentSpecs f.params .nil sound_nil
  unfold wp register
  cases hl : s.systemSpecs.lookup f with
  | some scopes => exact ⟨Later.refl h,(h.scopes f scopes hl).2,by rw [hl]; rfl⟩
  | none =>
    dsimp only
    cases hr : accessScopes f.params s.componentSpecs with
    | mk r specs => cases r with
      | error e =>
        obtain ⟨hreg,hunsound⟩ := wp_of_error hcollect hr
        exact ⟨later_grew h (grew_registered h.core hreg) rfl,hunsound⟩
      | ok scopes =>
        obtain ⟨hreg,hrec,hsound⟩ := wp_of_ok hcollect hr
        have hgrew : Later s (s.setComponentSpecs specs) :=
          later_grew h (grew_registered h.core hreg) rfl
        have hother : ∀ {g},g≠f → List.lookup g ((f,scopes)::s.systemSpecs)=s.systemSpecs.lookup g :=
          fun hne => by rw [List.lookup_cons,beq_false_of_ne hne]
        refine ⟨⟨⟨hgrew.recorded.core,fun g found hg => ?_⟩,hgrew.indexOf,fun g found hg => ?_⟩,
          hsound,?_⟩
        · by_cases he : g=f
          · subst he
            rw [List.lookup_cons_self] at hg
            cases hg
            exact ⟨hrec,hsound⟩
          · rw [hother he] at hg
            exact hgrew.recorded.scopes g found hg
        · have hne : g≠f := by
            rintro rfl
            rw [hl] at hg
            cases hg
          rw [hother hne]
          exact hg
        · rw [List.lookup_cons_self]
          rfl

/-- The systems of a group are sound, and no two of them conflict. -/
def GroupSound (group : List SystemFn) : Prop :=
  (∀ f∈group,Sound f.places) ∧ group.Pairwise fun f g => ∀ p∈f.places,∀ q∈g.places,¬Conflict p q

/-- All systems of a group are registered exactly when each is sound. -/
theorem registerAll_spec (group : List SystemFn) (h : Recorded s) :
    wp (registerAll group) (fun _ s' => Later s s' ∧ (∀ f∈group,Sound f.places) ∧
        ∀ f∈group,(s'.systemSpecs.lookup f).isSome=true)
      (fun _ s' => Later s s' ∧ ¬GroupSound group) s := by
  induction group generalizing s with
  | nil => exact ⟨Later.refl h,nofun,nofun⟩
  | cons f group ih =>
    rw [registerAll,wp_bind]
    refine wp_mono (register_spec f h) (fun _ s₁ h₁ => ?_) fun e s₁ h₁ =>
      ⟨h₁.1,fun hs => h₁.2 (hs.1 f List.mem_cons_self)⟩
    refine wp_mono (ih h₁.1.recorded) (fun _ s₂ h₂ => ?_) fun e s₂ h₂ => ?_
    · obtain ⟨scopes,hf⟩ := Option.isSome_iff_exists.mp h₁.2.2
      have hkept := h₂.1.kept f scopes hf
      exact ⟨h₁.1.trans h₂.1,List.forall_mem_cons.mpr ⟨h₁.2.1,h₂.2.1⟩,
        List.forall_mem_cons.mpr ⟨by rw [hkept]; rfl,h₂.2.2⟩⟩
    · exact ⟨h₁.1.trans h₂.1,fun hs => h₂.2
        ⟨fun g hg => hs.1 g (List.mem_cons_of_mem f hg),(List.pairwise_cons.mp hs.2).2⟩⟩

/-- Two systems may run at once exactly when no two of their parameters conflict. -/
theorem canParallelWith_iff {specs : ComponentSpecs} {ps qs : List Places}
    {scopes other : AccessScopes} (h : List.Forall₂ (Records specs) ps scopes)
    (h' : List.Forall₂ (Records specs) qs other) :
    AccessScopes.canParallelWith scopes other=true ↔ ∀ p∈ps,∀ q∈qs,¬Conflict p q := by
  have hone : ∀ {p : Places} {scope : AccessScope},Records specs p scope →
      ((other.all fun otherE => !scope.conflictsWith otherE)=true ↔ ∀ q∈qs,¬Conflict p q) := by
    intro p scope hp
    induction h' with
    | nil => exact iff_of_true rfl nofun
    | cons hq _ ih =>
      rw [List.all_cons,Bool.and_eq_true,Bool.not_eq_true',←Bool.not_eq_true,
        conflictsWith_iff_conflict hp hq,ih,List.forall_mem_cons]
  unfold AccessScopes.canParallelWith
  induction h with
  | nil => exact iff_of_true rfl nofun
  | cons hp _ ih =>
    rw [List.all_cons,Bool.and_eq_true,List.forall_mem_cons]
    exact and_congr (hone hp) ih

/-- The check of one system against others accepts exactly those that conflict with it nowhere. -/
theorem checkAgainst_iff (h : Recorded s) {a : SystemFn} {scopes : AccessScopes}
    (ha : List.Forall₂ (Records s.componentSpecs) a.places scopes) (rest : List SystemFn)
    (hr : ∀ f∈rest,(s.systemSpecs.lookup f).isSome=true) :
    checkAgainst s.systemSpecs a scopes rest=.ok () ↔
      ∀ g∈rest,∀ p∈a.places,∀ q∈g.places,¬Conflict p q := by
  induction rest with
  | nil => exact iff_of_true rfl nofun
  | cons b rest ih =>
    obtain ⟨other,hb⟩ := Option.isSome_iff_exists.mp (hr b List.mem_cons_self)
    have hpar := canParallelWith_iff ha (h.scopes b other hb).1
    rw [checkAgainst,hb,List.forall_mem_cons,←hpar]
    dsimp only
    cases hc : AccessScopes.canParallelWith scopes other with
    | false => exact iff_of_false nofun fun hn => nomatch hn.1
    | true =>
      have hrest := ih fun f hf => hr f (List.mem_cons_of_mem b hf)
      exact hrest.trans (and_iff_right rfl).symm

/-- The check of a group compares the systems pairwise. -/
theorem checkGroup_iff (h : Recorded s) (group : List SystemFn)
    (hg : ∀ f∈group,(s.systemSpecs.lookup f).isSome=true) :
    checkGroupCanParallel s.systemSpecs group=.ok () ↔
      group.Pairwise fun f g => ∀ p∈f.places,∀ q∈g.places,¬Conflict p q := by
  induction group with
  | nil => exact iff_of_true rfl List.Pairwise.nil
  | cons a rest ih =>
    obtain ⟨scopes,ha⟩ := Option.isSome_iff_exists.mp (hg a List.mem_cons_self)
    have hrest := fun f hf => hg f (List.mem_cons_of_mem a hf)
    have hagainst := checkAgainst_iff h (h.scopes a scopes ha).1 rest hrest
    rw [checkGroupCanParallel,ha,List.pairwise_cons,←hagainst,←ih hrest]
    dsimp only
    cases checkAgainst s.systemSpecs a scopes rest with
    | error e => exact iff_of_false nofun fun hn => nomatch hn.1
    | ok u => exact (and_iff_right rfl).symm

variable [DecidableEq S]

omit [DecidableEq S] in
/-- Records depend on the world and on what was recorded only. -/
theorem Recorded.congr (h : Recorded s) (hw : s'.scheduler.world=s.scheduler.world)
    (hs : s'.systemSpecs=s.systemSpecs) : Later s s' :=
  later_grew h (by rw [hw]; exact Grew.refl h.core) hs

/-- A system is accepted exactly when it is sound. -/
theorem addSystem_spec (session : S) (f : SystemFn) (h : Recorded s) :
    wp (addSystem session f) (fun _ s' => Later s s' ∧ Sound f.places)
      (fun _ s' => Later s s' ∧ ¬Sound f.places) s := by
  rw [addSystem,wp_bind]
  refine wp_mono (register_spec f h) (fun _ s₁ h₁ => ?_) fun _ _ he => he
  exact ⟨h₁.1.trans (h₁.1.recorded.congr rfl rfl),h₁.2.1⟩

/-- A group is accepted exactly when it is sound. -/
theorem addSystemParallel_spec (session : S) (group : List SystemFn) (h : Recorded s) :
    wp (addSystemParallel session group)
      (fun _ s' => Later s s' ∧ GroupSound group ∧ ∀ f∈group,(s'.systemSpecs.lookup f).isSome=true)
      (fun _ s' => Later s s' ∧ ¬GroupSound group) s := by
  rw [addSystemParallel,wp_bind]
  refine wp_mono (registerAll_spec group h) (fun _ s₁ h₁ => ?_) fun _ _ he => he
  have hcheck := checkGroup_iff h₁.1.recorded group h₁.2.2
  rw [wp_bind,wp_getState]
  cases hc : checkGroupCanParallel s₁.systemSpecs group with
  | error e =>
    rw [hc] at hcheck
    exact ⟨h₁.1,fun hs => nomatch hcheck.mpr hs.2⟩
  | ok u =>
    exact ⟨h₁.1.trans (h₁.1.recorded.congr rfl rfl),⟨h₁.2.1,hcheck.mp hc⟩,h₁.2.2⟩

variable [Inhabited V]

/-- Whatever happens to a schedule, what was recorded is kept. -/
theorem later_step (event : ScheduleEvent V S) (h : Recorded s) : Later s (event.step s) := by
  cases event with
  | action a => exact later_grew h (Action.grew a h.core) rfl
  | addSystem session f =>
    exact wp_state (I:=Later s) (wp_mono (addSystem_spec session f h) (fun _ _ hs => hs.1)
      fun _ _ hs => hs.1)
  | addSystemParallel session group =>
    exact wp_state (I:=Later s) (wp_mono (addSystemParallel_spec session group h)
      (fun _ _ hs => hs.1) fun _ _ hs => hs.1)
  | run autoSyncPoint conduct session =>
    exact later_grew h (rises_run conduct autoSyncPoint _ s.scheduler h.core) rfl

/-- Every event of a schedule keeps what was recorded. -/
theorem later_run (events : List (ScheduleEvent V S)) (h : Recorded s) :
    Later s (runAll ScheduleEvent.step events s) := by
  induction events generalizing s with
  | nil => exact Later.refl h
  | cons event events ih => exact (later_step event h).trans (ih (later_step event h).recorded)

omit [DecidableEq S] [Inhabited V] in
/-- A new schedule has recorded nothing. -/
theorem recorded_new (runtime : Runtime) : Recorded (Schedule.new runtime : Schedule V S) :=
  ⟨coreInv_new runtime,nofun⟩

end Acceptance

section Order

variable {ps qs : List Places} {f g : SystemFn} {group group' : List SystemFn}

/-- The order of parameters does not matter. -/
theorem sound_perm (h : ps.Perm qs) : Sound ps ↔ Sound qs := by
  have hsymm : ∀ {p q : Places},¬Conflict p q → ¬Conflict q p := fun hn hc => hn hc.symm
  exact and_congr (forall_congr' fun p => by rw [h.mem_iff]) (h.pairwise_iff hsymm)

/-- Reordered parameters have reordered places. -/
theorem places_perm (h : f.params.Perm g.params) : f.places.Perm g.places := h.filterMap _

/-- The same systems in any order, each with its parameters in any order. -/
def Reordered (group group' : List SystemFn) : Prop :=
  ∃ mid : List SystemFn,group.Perm mid ∧ List.Forall₂ (fun f g => f.params.Perm g.params) mid group'

/-- The order of the systems of a group does not matter. -/
theorem groupSound_perm (h : group.Perm group') : GroupSound group ↔ GroupSound group' := by
  have hsymm : ∀ {f g : SystemFn},(∀ p∈f.places,∀ q∈g.places,¬Conflict p q) →
      ∀ p∈g.places,∀ q∈f.places,¬Conflict p q := fun hn p hp q hq hc => hn q hq p hp hc.symm
  exact and_congr (forall_congr' fun f => by rw [h.mem_iff]) (h.pairwise_iff hsymm)

/-- Nor does the order of the parameters of each. -/
theorem groupSound_params (h : List.Forall₂ (fun f g => f.params.Perm g.params) group group') :
    GroupSound group ↔ GroupSound group' := by
  induction h with
  | nil => exact Iff.rfl
  | cons hfg hrest ih =>
    rename_i f g group group'
    have hplaces := places_perm hfg
    have hothers : (∀ k∈group,∀ p∈f.places,∀ q∈k.places,¬Conflict p q) ↔
        ∀ k∈group',∀ p∈g.places,∀ q∈k.places,¬Conflict p q := by
      clear ih
      induction hrest with
      | nil => exact iff_of_true nofun nofun
      | cons hkl _ ih =>
        rw [List.forall_mem_cons,List.forall_mem_cons]
        refine and_congr ?_ ih
        have hkplaces := places_perm hkl
        exact ⟨fun hn p hp q hq => hn p (hplaces.mem_iff.mpr hp) q (hkplaces.mem_iff.mpr hq),
          fun hn p hp q hq => hn p (hplaces.mem_iff.mp hp) q (hkplaces.mem_iff.mp hq)⟩
    unfold GroupSound at ih ⊢
    rw [List.forall_mem_cons,List.forall_mem_cons,List.pairwise_cons,List.pairwise_cons,
      sound_perm hplaces,hothers]
    exact ⟨fun hn => ⟨⟨hn.1.1,(ih.mp ⟨hn.1.2,hn.2.2⟩).1⟩,hn.2.1,(ih.mp ⟨hn.1.2,hn.2.2⟩).2⟩,
      fun hn => ⟨⟨hn.1.1,(ih.mpr ⟨hn.1.2,hn.2.2⟩).1⟩,hn.2.1,(ih.mpr ⟨hn.1.2,hn.2.2⟩).2⟩⟩

/-- So reordering both makes no difference. -/
theorem groupSound_reordered (h : Reordered group group') : GroupSound group ↔ GroupSound group' := by
  obtain ⟨mid,hperm,hparams⟩ := h
  exact (groupSound_perm hperm).trans (groupSound_params hparams)

end Order

section Apart

variable {V S : Type} [DecidableEq S] [Inhabited V] {s : Schedule V S}

/-- No parameter of a system touches a component in two clashing ways, and no two
of them meet on an archetype and clash there. -/
structure SystemApart (f : SystemFn) : Prop where
  /-- A parameter is free of clashes. -/
  alone : ∀ p∈f.places,Separate p
  /-- No two parameters reach the same component in clashing ways. -/
  params : f.places.Pairwise NeverAlias

/-- The systems of a group are apart, and no parameters of two of them meet on an
archetype and clash there. -/
structure GroupApart (group : List SystemFn) : Prop where
  /-- Each system is free of clashes. -/
  systems : ∀ f∈group,SystemApart f
  /-- No two systems reach the same component in clashing ways. -/
  pairs : group.Pairwise fun f g => ∀ p∈f.places,∀ q∈g.places,NeverAlias p q

/-- Parameters without conflict are apart. -/
theorem Sound.apart {f : SystemFn} (h : Sound f.places) : SystemApart f :=
  ⟨h.1,h.2.imp neverAlias_of_not_conflict⟩

/-- A group without conflict is apart. -/
theorem GroupSound.apart {group : List SystemFn} (h : GroupSound group) : GroupApart group :=
  ⟨fun f hf => (h.1 f hf).apart,h.2.imp fun hn p hp q hq => neverAlias_of_not_conflict (hn p hp q hq)⟩

/-- The scopes recorded for a system select, among the archetypes of the world,
those that carry what its parameters name. -/
def SelectsBy (s : Schedule V S) (f : SystemFn) : Prop :=
  ∃ scopes,s.systemSpecs.lookup f=some scopes ∧ List.Forall₂ (fun p (scope : AccessScope) =>
    ∀ (i : ℕ) (spec : ArchetypeSpec V),s.scheduler.world.archetypes.valueAt i=some spec →
      (scope.belongTo spec.layout.componentBitSet=true ↔
        Carries {t | t∈spec.layout.componentColDescriptors} p)) f.places scopes

omit [DecidableEq S] [Inhabited V] in
/-- A recorded scope picks the archetypes that its parameter picks. -/
theorem Recorded.selectsBy (h : Recorded s) {f : SystemFn} {scopes : AccessScopes}
    (hf : s.systemSpecs.lookup f=some scopes) : SelectsBy s f := by
  refine ⟨scopes,hf,(h.scopes f scopes hf).1.imp fun p scope hp i spec hi => ?_⟩
  obtain ⟨comps,hof⟩ := h.core.registry.layouts i spec hi
  exact belongTo_carries hof hp.1 hp.2

/-- Whatever was added and run before, a system or a group that is accepted never
aliases on any archetype, its scopes select by what its parameters name ever
after, and acceptance depends on no order of systems or parameters. -/
theorem accepted_never_alias (runtime : Runtime) (events : List (ScheduleEvent V S)) (session : S) :
    let s : Schedule V S := runAll ScheduleEvent.step events (Schedule.new runtime)
    (∀ f s',addSystem session f s=(.ok (),s') → SystemApart f) ∧
    (∀ group s',addSystemParallel session group s=(.ok (),s') → GroupApart group ∧
      ∀ events',∀ f∈group,SelectsBy (runAll ScheduleEvent.step events' s') f) ∧
    (∀ f g : SystemFn,f.params.Perm g.params →
      ((addSystem session f s).1=.ok () ↔ (addSystem session g s).1=.ok ())) ∧
    ∀ group group',Reordered group group' → ((addSystemParallel session group s).1=.ok () ↔
      (addSystemParallel session group' s).1=.ok ()) := by
  intro s
  have h : Recorded s := (later_run events (recorded_new runtime)).recorded
  have hone : ∀ f,(addSystem session f s).1=.ok () ↔ Sound f.places := fun f =>
    ok_iff_of_wp (wp_mono (addSystem_spec session f h) (fun _ _ hs => hs.2) fun _ _ hs => hs.2)
  have hgroup : ∀ group,(addSystemParallel session group s).1=.ok () ↔ GroupSound group := fun group =>
    ok_iff_of_wp (wp_mono (addSystemParallel_spec session group h) (fun _ _ hs => hs.2.1)
      fun _ _ hs => hs.2)
  refine ⟨fun f s' hr => ?_,fun group s' hr => ?_,fun f g hp => ?_,fun group group' hp => ?_⟩
  · exact (wp_of_ok (addSystem_spec session f h) hr).2.apart
  · obtain ⟨hlater,hsound,hreg⟩ := wp_of_ok (addSystemParallel_spec session group h) hr
    refine ⟨hsound.apart,fun events' f hf => ?_⟩
    have hafter : Later s' (runAll ScheduleEvent.step events' s') :=
      later_run events' hlater.recorded
    obtain ⟨scopes,hscopes⟩ := Option.isSome_iff_exists.mp (hreg f hf)
    exact hafter.recorded.selectsBy (hafter.kept f scopes hscopes)
  · rw [hone,hone,sound_perm (places_perm hp)]
  · rw [hgroup,hgroup,groupSound_reordered hp]

end Apart

end XynokEcs.ParallelGroups
