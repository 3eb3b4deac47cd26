import XynokEcs.QueryWindows
import XynokEcs.RunMoments

/-!
# What a system sees of the time between its runs

A system that ran keeps the tick of its step for a baseline, and the world stays at
that tick until the next one is taken. Its next run hands out what was touched after
that, and nothing else. What is touched at the tick of the run itself, by a system
that follows in its group, by the user or at a sync point, carries the tick of the
baseline and is not handed out.
-/

namespace XynokEcs.SystemWindows

open ComponentTypes EntityHandle SequenceValueMap FaultingState ChunkRows ChunkLayouts ArchetypeStore QueryShapes
  WorldState WorldCalls StoreInvariants QueryAccess QuerySources ActionRuns WorldRuns ActionEffects WorldGrowth
  QueryMatches QueryWalks SpanCuts ChangeTicks QueryReadings CellHistory QueryWindows Scheduling RunMoments

variable {V : Type}

section Ticks

variable {as : List (Action V)}

/-- The actions up to the first one that takes a tick, with it. -/
def untilTick : List (Action V) → List (Action V)
  | [] => []
  | a::as => if Action.ticks a=1 then [a] else a::untilTick as

/-- The actions after the first one that takes a tick. -/
def afterTick : List (Action V) → List (Action V)
  | [] => []
  | a::as => if Action.ticks a=1 then as else afterTick as

theorem untilTick_append (as : List (Action V)) : untilTick as++afterTick as=as := by
  induction as with
  | nil => rfl
  | cons a as ih =>
    rw [untilTick,afterTick]
    by_cases ha : Action.ticks a=1
    · rw [if_pos ha,if_pos ha]
      rfl
    · rw [if_neg ha,if_neg ha]
      exact congrArg (a::·) ih

/-- A run takes no tick, or is cut at its first one. -/
theorem tick_cases (as : List (Action V)) : elapsed as=0 ∧ afterTick as=[] ∨
    ∃ before a,untilTick as=before++[a] ∧ elapsed before=0 ∧ Action.ticks a=1 := by
  induction as with
  | nil => exact .inl ⟨rfl,rfl⟩
  | cons a as ih =>
    rw [untilTick,afterTick,elapsed_cons]
    by_cases ha : Action.ticks a=1
    · rw [if_pos ha,if_pos ha]
      exact .inr ⟨[],a,rfl,rfl,ha⟩
    · rw [if_neg ha,if_neg ha]
      have hle := ticks_le a
      have hzero : Action.ticks a=0 := by omega
      obtain ⟨hnone,hnil⟩ | ⟨before,b,huntil,hquiet,hb⟩ := ih
      · exact .inl ⟨by omega,hnil⟩
      · refine .inr ⟨a::before,b,congrArg (a::·) huntil,?_,hb⟩
        rw [elapsed_cons]
        omega

variable [Inhabited V] {w : World V} {e : Entity} {t : StorageType}

theorem renewed_append {s : Stamp} {bs : List (Action V)} :
    Renewed s t e (as++bs) w ↔ Renewed s t e as w ∨ Renewed s t e bs (runAll Action.step as w) := by
  induction as generalizing w with
  | nil => exact (iff_of_eq (false_or _)).symm
  | cons a as ih => exact (or_congr_right ih).trans or_assoc.symm

/-- The stamps newer than the tick that a run starts from are those renewed after the
first tick it takes. -/
theorem newer_afterTick (h : InOrder w) (ha : Along Action.step (Proper True) as w) (hb : StampsBy w.tick w)
    (hc : t.stateDetection.needsChange=true) (ht : w.tick.toNat+elapsed as<2^32) (s : Stamp)
    {d : ComponentData V} (hd : cellOf (World.contents (runAll Action.step as w)) e t=some d) :
    (∃ tick,s.get d=some tick ∧ isNewerThan tick w.tick (runAll Action.step as w).tick=true) ↔
      Renewed s t e (afterTick as) (runAll Action.step (untilTick as) w) := by
  have hnow := tick_run_lt h.core ht
  obtain ⟨hnone,hnil⟩ | ⟨before,a,huntil,hquiet,htick⟩ := tick_cases as
  · rw [hnil]
    refine iff_of_false (fun hnew => ?_) id
    obtain ⟨tick,hs,hnewer⟩ := hnew
    have hle := stampsBy_run h ha hb ht e t d hc hd s tick hs
    rw [newer_iff hle (by omega)] at hnewer
    omega
  · have hcut : as=untilTick as++afterTick as := (untilTick_append as).symm
    have hticks : elapsed as=elapsed (untilTick as)+elapsed (afterTick as) :=
      (congrArg elapsed hcut).trans (elapsed_append _ _)
    have hone : elapsed (untilTick as)=1 := by
      rw [huntil,elapsed_append,elapsed_cons,hquiet,htick]
      rfl
    rw [hcut] at ha
    obtain ⟨huntils,hafter⟩ := along_append.mp ha
    have hbefore : Along Action.step (Proper True) before w := by
      rw [huntil] at huntils
      exact (along_append.mp huntils).1
    have hstill : (runAll Action.step before w).tick=w.tick := by
      have htick := tick_run_lt h.core (by omega : w.tick.toNat+elapsed before<2^32)
      exact UInt32.toNat_inj.mp (by omega)
    have hthen := tick_run_lt h.core (by omega : w.tick.toNat+elapsed (untilTick as)<2^32)
    have hclosed : Closed w.tick (runAll Action.step (untilTick as) w) := by
      have hstamps := stampsBy_run h hbefore hb (by omega)
      rw [←hstill]
      refine closed_next hstamps ?_ (by rw [hstill]; omega)
      rw [huntil,runAll_append]
      exact ticks_contents (h.along hbefore).core htick
    have hends : runAll Action.step (afterTick as) (runAll Action.step (untilTick as) w)=runAll Action.step as w := by
      rw [←runAll_append,←hcut]
    rw [←hends] at hd ⊢
    exact newer_renewed (h.along huntils) hafter hclosed hc (by omega) (Nat.le_refl _) s hd

end Ticks

section Acts

variable [Inhabited V] {ms : List (Moment V)} {s : Scheduler V} {slot : ℕ}

/-- The action of a moment. -/
def Moment.action : Moment V → Option (Action V)
  | .act a => some a
  | _ => none

/-- The actions among moments. -/
def acts (ms : List (Moment V)) : List (Action V) := ms.filterMap Moment.action

/-- Components come from the macro, and an applied queued destroy finds its entity. -/
def Moment.Proper : Moment V → Scheduler V → Prop
  | .act a,s => ActionEffects.Proper True a s.world
  | _,_ => True

omit [Inhabited V] in
theorem acts_append (ms ms' : List (Moment V)) : acts (ms++ms')=acts ms++acts ms' := List.filterMap_append

/-- Only the actions among moments concern the world. -/
theorem world_acts (ms : List (Moment V)) (s : Scheduler V) :
    (runAll Moment.step ms s).world=runAll Action.step (acts ms) s.world := by
  induction ms generalizing s with
  | nil => rfl
  | cons m ms ih =>
    rw [runAll,ih]
    cases m <;> rfl

theorem along_acts (h : Along Moment.step Moment.Proper ms s) :
    Along Action.step (ActionEffects.Proper True) (acts ms) s.world := by
  induction ms generalizing s with
  | nil => trivial
  | cons m ms ih =>
    have hrest := ih h.2
    cases m with
    | act a => exact ⟨h.1,hrest⟩
    | start slot p => exact hrest
    | finish slot thisRun => exact hrest

/-- The systems a scheduler has stay the same. -/
theorem systems_length (ms : List (Moment V)) (s : Scheduler V) :
    (runAll Moment.step ms s).systems.length=s.systems.length := by
  induction ms generalizing s with
  | nil => rfl
  | cons m ms ih =>
    rw [runAll,ih]
    cases m with
    | act a => rfl
    | start slot p => rfl
    | finish slot thisRun => exact List.length_modify _ _ _

/-- A system that does not finish keeps its tick. -/
theorem lastRunTick_kept (hn : ∀ thisRun,.finish slot thisRun∉ms) :
    (runAll Moment.step ms s).lastRunTick slot=s.lastRunTick slot := by
  induction ms generalizing s with
  | nil => rfl
  | cons m ms ih =>
    rw [runAll,ih fun thisRun hm => hn thisRun (List.mem_cons_of_mem _ hm)]
    cases m with
    | act a => rfl
    | start slot' p => rfl
    | finish slot' thisRun =>
      have hne : slot'≠slot := by
        intro he
        exact hn thisRun (he ▸ List.mem_cons_self)
      change (((s.systems.modify slot' _)[slot]?).map SystemAlias.lastRunTick).getD 0=_
      rw [List.getElem?_modify_ne _ _ hne]
      rfl

/-- A system that finishes records the tick. -/
theorem lastRunTick_finish (hslot : slot<s.systems.length) (thisRun : ChangedTick) :
    ((Moment.finish slot thisRun).step s).lastRunTick slot=thisRun := by
  change (((s.systems.modify slot _)[slot]?).map SystemAlias.lastRunTick).getD 0=_
  rw [List.getElem?_modify_eq,List.getElem?_eq_getElem hslot]
  rfl

end Acts

section Windows

variable {w : World V} {q : QueryShape Component} {accessor : QuerySpecAccessor}

/-- An item stands for one entity. -/
theorem standsFor_unique (h : (World.directory w).Consistent) {item : QueryItem} {e e' : Entity}
    (he : StandsFor q w item e) (he' : StandsFor q w item e') : e=e' := by
  obtain ⟨x,hx⟩ := h.row he.1
  obtain ⟨y,hy⟩ := h.row he'.1
  exact congrArg Prod.fst (Option.some.inj (hx.symm.trans hy))

/-- What a walk hands out is determined. -/
theorem handsOut_unique (h : (World.directory w).Consistent) {P P' : Entity → Prop}
    (hP : HandsOut q accessor w P) (hP' : HandsOut q accessor w P') (e : Entity) : P e ↔ P' e := by
  obtain ⟨items,es,hwalk,hstands,-,hmem⟩ := hP
  obtain ⟨items',es',hwalk',hstands',-,hmem'⟩ := hP'
  cases hwalk.unique hwalk'
  have hsame : ∀ {items es es'},List.Forall₂ (StandsFor q w) items es →
      List.Forall₂ (StandsFor q w) items es' → es=es' := by
    intro items es es' h₁ h₂
    induction h₁ generalizing es' with
    | nil => cases h₂; rfl
    | cons he _ ih => cases h₂ with
      | cons he' hrest => rw [standsFor_unique h he he',ih hrest]
  rw [←hmem,←hmem',hsame hstands hstands']

variable [Inhabited V] {s₀ : Scheduler V} {before between after : List (Moment V)} {slot : ℕ}
  {thisRun : ChangedTick} {s : Stamp} {p : QueryColumn Component}

/-- A system that ran and starts again builds a query of one change filter that hands
out what was touched after the first tick since. -/
theorem window_sees (h : InOrder s₀.world) (hb : StampsBy s₀.world.tick s₀.world)
    (hfit : Along Moment.step Moment.Fit
      (before++.finish slot thisRun::between++.start slot (.query (.filter s.filter p))::after) s₀)
    (ha : Along Moment.step Moment.Proper (before++.finish slot thisRun::between) s₀)
    (ht : s₀.world.tick.toNat+elapsed (acts (before++.finish slot thisRun::between))<2^32)
    (hslot : slot<s₀.systems.length) (hp : p.component.isDeclared=true)
    (hc : p.component.stateDetection.needsChange=true) (hn : ∀ t,.finish slot t∉between) :
    let ended := (runAll Moment.step before s₀).world
    let started := runAll Moment.step (before++.finish slot thisRun::between) s₀
    started.world=runAll Action.step (acts between) ended ∧ InOrder started.world ∧
      ∃ accessor,SystemParam.init (started.lastRunTick slot) started.world (.query (.filter s.filter p))=
          .ok (.query accessor) ∧
        HandsOut (.filter s.filter p) accessor started.world fun e =>
          (cellOf (World.contents started.world) e p.component.storageType).isSome=true ∧
            Renewed s p.component.storageType e (afterTick (acts between))
              (runAll Action.step (untilTick (acts between)) ended) := by
  intro ended started
  obtain ⟨hfit,hstart⟩ := along_append.mp hfit
  obtain ⟨-,hfinish,-⟩ := along_append.mp hfit
  obtain ⟨hbefore,-,hbetween⟩ := along_append.mp ha
  have hacts : acts (before++.finish slot thisRun::between)=acts before++acts between := acts_append _ _
  have hended : ended=runAll Action.step (acts before) s₀.world := world_acts before s₀
  have horder : InOrder ended := hended ▸ h.along (along_acts hbefore)
  have hstarted : started=runAll Moment.step between ((Moment.finish slot thisRun).step
      (runAll Moment.step before s₀)) := runAll_append
  have hworld : started.world=runAll Action.step (acts between) ended := by
    rw [hstarted,world_acts]
    rfl
  have halong : Along Action.step (ActionEffects.Proper True) (acts between) ended := by
    have hmoments := along_acts hbetween
    exact hmoments
  have hnext : InOrder started.world := hworld ▸ horder.along halong
  rw [hacts,elapsed_append] at ht
  have htick : ended.tick.toNat=s₀.world.tick.toNat+elapsed (acts before) :=
    hended ▸ tick_run_lt h.core (by omega)
  have hstamps : StampsBy ended.tick ended := hended ▸ stampsBy_run h (along_acts hbefore) hb (by omega)
  have hlast : started.lastRunTick slot=thisRun := by
    rw [hstarted,lastRunTick_kept hn]
    exact lastRunTick_finish (by rw [systems_length]; exact hslot) thisRun
  have hcurrent : Current (.filter s.filter p) started.world := hstart.1
  obtain ⟨accessor,hacc⟩ := Option.isSome_iff_exists.mp ((current_iff thisRun).mp hcurrent)
  obtain ⟨idx,spec,-,-,-,he⟩ := querySrcAccess_some.mp hacc
  have hticks : accessor.ticks=⟨ended.tick,started.world.tick⟩ := by
    rw [he]
    exact congrArg (fun t => QueryTicks.mk t started.world.tick) hfinish.symm
  refine ⟨hworld,hnext,accessor,?_,?_⟩
  · rw [hlast,SystemParam.init,hacc]
  · have hread := reads_exactly hnext.run.inv.store hnext.core (filter_wellTyped hp hc) hacc
    have hkeeps : p.component.storageType.stateDetection.needsChange=true :=
      (Component.stateDetection_of_isDeclared hp).symm ▸ hc
    refine hread.congr fun e => ?_
    rw [hticks]
    simp only [selects_newer,selectsOf_filter]
    constructor
    · intro hsel
      obtain ⟨-,x,hx,hsome,d,tick,hd,hs,hnewer⟩ := hsel
      have hcell : cellOf (World.contents started.world) e p.component.storageType=some d := by
        rw [cellOf,hx]
        exact hd
      refine ⟨hcell ▸ rfl,?_⟩
      rw [hworld] at hcell hnewer
      exact (newer_afterTick horder halong hstamps hkeeps (by omega) s hcell).mp ⟨tick,hs,hnewer⟩
    · intro hsel
      obtain ⟨d,hcell⟩ := Option.isSome_iff_exists.mp hsel.1
      obtain ⟨x,hx,hd⟩ := Option.bind_eq_some_iff.mp hcell
      rw [hworld] at hcell
      obtain ⟨tick,hs,hnewer⟩ :=
        (newer_afterTick horder halong hstamps hkeeps (by omega) s hcell).mpr hsel.2
      rw [←hworld] at hnewer
      exact ⟨rfl,x,hx,hd ▸ rfl,d,tick,hd,hs,hnewer⟩

/-- Such a system sees exactly what was touched since it ran where, and only where,
everything touched and still there was touched after the first tick since. -/
theorem sees_iff (h : InOrder s₀.world) (hb : StampsBy s₀.world.tick s₀.world)
    (hfit : Along Moment.step Moment.Fit
      (before++.finish slot thisRun::between++.start slot (.query (.filter s.filter p))::after) s₀)
    (ha : Along Moment.step Moment.Proper (before++.finish slot thisRun::between) s₀)
    (ht : s₀.world.tick.toNat+elapsed (acts (before++.finish slot thisRun::between))<2^32)
    (hslot : slot<s₀.systems.length) (hp : p.component.isDeclared=true)
    (hc : p.component.stateDetection.needsChange=true) (hn : ∀ t,.finish slot t∉between) :
    let t := p.component.storageType
    let ended := (runAll Moment.step before s₀).world
    let started := runAll Moment.step (before++.finish slot thisRun::between) s₀
    (∃ accessor,SystemParam.init (started.lastRunTick slot) started.world (.query (.filter s.filter p))=
        .ok (.query accessor) ∧
      HandsOut (.filter s.filter p) accessor started.world fun e =>
        (cellOf (World.contents started.world) e t).isSome=true ∧ Renewed s t e (acts between) ended) ↔
    ∀ e,(cellOf (World.contents started.world) e t).isSome=true → Renewed s t e (acts between) ended →
      Renewed s t e (afterTick (acts between)) (runAll Action.step (untilTick (acts between)) ended) := by
  intro t ended started
  have hlate : ∀ e,Renewed s t e (afterTick (acts between)) (runAll Action.step (untilTick (acts between)) ended) →
      Renewed s t e (acts between) ended := by
    intro e hr
    rw [←untilTick_append (acts between),renewed_append]
    exact .inr hr
  obtain ⟨-,hnext,accessor,hinit,hout⟩ := window_sees h hb hfit ha ht hslot hp hc hn
  constructor
  · intro hsees e hcarries hr
    obtain ⟨accessor',hinit',hout'⟩ := hsees
    cases hinit.symm.trans hinit'
    exact ((handsOut_unique hnext.run.inv.store.consistent hout' hout e).mp ⟨hcarries,hr⟩).2
  · intro hall
    refine ⟨accessor,hinit,hout.congr fun e => and_congr_right fun hcarries => ?_⟩
    exact ⟨hlate e,hall e hcarries⟩

/-- In every history of runs of a scheduler and of what happens between them, a system
that starts again sees exactly what was touched since it last ran where, and only
where, everything touched since and still there was touched after a tick was taken. -/
theorem system_sees_iff (runtime : Runtime) (systems : List SystemAlias) (events : List (Event V))
    (ha : Along Moment.step Moment.Proper (history events ⟨World.new runtime,systems⟩)
      ⟨World.new runtime,systems⟩)
    (ht : 1+elapsed (acts (history events ⟨World.new runtime,systems⟩))<2^32) (slot : ℕ)
    (hslot : slot<systems.length) (s : Stamp) (p : QueryColumn Component) (hp : p.component.isDeclared=true)
    (hc : p.component.stateDetection.needsChange=true) (before between after : List (Moment V))
    (thisRun : ChangedTick) (hH : history events ⟨World.new runtime,systems⟩=
      before++.finish slot thisRun::between++.start slot (.query (.filter s.filter p))::after)
    (hn : ∀ t,.finish slot t∉between) :
    let t := p.component.storageType
    let ended := (runAll Moment.step before ⟨World.new runtime,systems⟩).world
    let started := runAll Moment.step (before++.finish slot thisRun::between) ⟨World.new runtime,systems⟩
    (∃ accessor,SystemParam.init (started.lastRunTick slot) started.world (.query (.filter s.filter p))=
        .ok (.query accessor) ∧
      HandsOut (.filter s.filter p) accessor started.world fun e =>
        (cellOf (World.contents started.world) e t).isSome=true ∧ Renewed s t e (acts between) ended) ↔
    ∀ e,(cellOf (World.contents started.world) e t).isSome=true → Renewed s t e (acts between) ended →
      Renewed s t e (afterTick (acts between)) (runAll Action.step (untilTick (acts between)) ended) := by
  have hfit := (history_fits events (s:=⟨World.new runtime,systems⟩) (coreInv_new runtime)).2
  rw [hH] at hfit ha ht
  rw [acts_append,elapsed_append] at ht
  exact sees_iff (inOrder_new runtime) (stampsBy_new runtime _) hfit (along_append.mp ha).1
    (by change 1+_<_; omega) hslot hp hc hn

end Windows

section Samples

/-- A system that looks at what changed, and does nothing about it. -/
def watcher : SystemAlias := ⟨[.query (.filter .changed (.ref tracked))],0⟩

def idle : Conduct ℕ := ⟨fun _ => [],fun _ => 0,fun _ => []⟩

/-- An entity is created and the system runs. Something happens, and it runs again. -/
def twoRuns (between : List (Action ℕ)) : List (Event ℕ) :=
  .action (.world .returning (.create (.single tracked 1)))::.run false idle (some [.single 0])::
    between.map .action++[.run false idle (some [.single 0])]

def firstRun : List (Moment ℕ) :=
  [.act (.world .returning (.create (.single tracked 1))),.act .advanceTick,
    .act (.prepareQuery (.filter .changed (.ref tracked))),.start 0 (.query (.filter .changed (.ref tracked)))]

def untilStart (between : List (Action ℕ)) : List (Moment ℕ) :=
  between.map .act++[.act .advanceTick,.act (.prepareQuery (.filter .changed (.ref tracked)))]

/-- The user overwrites the component. -/
def overwritten : Action ℕ := .world .returning (.mergeComponent (WorldRuns.handle 0 1) (.single tracked 2))

deriving instance DecidableEq for ItemWrites.ItemWrite
deriving instance DecidableEq for WorldRuns.WorldCall
deriving instance DecidableEq for WorldRuns.CmdCall
deriving instance DecidableEq for WorldRuns.Action
deriving instance DecidableEq for RunMoments.Moment

/-- Nothing in such a history is improper. -/
theorem proper_twoRuns {between : List (Action ℕ)} (hb : ∀ a∈between,a=.advanceTick ∨ a=overwritten)
    (last : ChangedTick) (s : Scheduler ℕ) :
    Along Moment.step Moment.Proper (firstRun++.finish 0 2::untilStart between++
      .start 0 (.query (.filter .changed (.ref tracked)))::[.finish 0 last]) s := by
  have hall : ∀ {ms : List (Moment ℕ)} {s : Scheduler ℕ},(∀ a∈acts ms,∀ w,ActionEffects.Proper True a w) →
      Along Moment.step Moment.Proper ms s := by
    intro ms
    induction ms with
    | nil => exact fun _ => trivial
    | cons m ms ih =>
      intro s h
      cases m with
      | act a => exact ⟨h a List.mem_cons_self _,ih fun b hb => h b (List.mem_cons_of_mem _ hb)⟩
      | start slot p => exact ⟨trivial,ih h⟩
      | finish slot thisRun => exact ⟨trivial,ih h⟩
  have hshape : ShapeDeclared (.filter .changed (.ref tracked)) := by
    intro c hc
    cases List.mem_singleton.mp hc
    rfl
  have hacts : acts (between.map Moment.act)=between := by
    rw [acts,List.filterMap_map]
    exact List.filterMap_some
  refine hall fun a ha w => ?_
  rw [acts_append,acts_append,firstRun,untilStart] at ha
  change a∈_++acts (between.map .act++_)++_ at ha
  rw [acts_append,hacts] at ha
  simp only [acts,Moment.action,List.filterMap_cons,List.filterMap_nil,List.mem_append,List.mem_cons,
    List.not_mem_nil,or_false] at ha
  rcases ha with (rfl | rfl | rfl) | ha | rfl | rfl
  · exact ⟨fun _ T hT => by cases hT; rfl,trivial⟩
  · exact ⟨fun _ => trivial,trivial⟩
  · exact ⟨fun _ => hshape,trivial⟩
  · obtain rfl | rfl := hb a ha
    · exact ⟨fun _ => trivial,trivial⟩
    · exact ⟨fun _ T hT => by cases hT; rfl,trivial⟩
  · exact ⟨fun _ => trivial,trivial⟩
  · exact ⟨fun _ => hshape,trivial⟩

/-- A tick is taken before the component is overwritten. -/
theorem system_sees_iff_overwritten :
    let s₀ : Scheduler ℕ := ⟨World.new inOrder,[watcher]⟩
    let between := untilStart [.advanceTick,overwritten]
    let ended := (runAll Moment.step firstRun s₀).world
    let started := runAll Moment.step (firstRun++.finish 0 2::between) s₀
    (∃ accessor,SystemParam.init (started.lastRunTick 0) started.world (.query (.filter .changed (.ref tracked)))=
        .ok (.query accessor) ∧
      HandsOut (.filter .changed (.ref tracked)) accessor started.world fun e =>
        (cellOf (World.contents started.world) e tracked.storageType).isSome=true ∧
          Renewed .changed tracked.storageType e (acts between) ended) ↔
    ∀ e,(cellOf (World.contents started.world) e tracked.storageType).isSome=true →
      Renewed .changed tracked.storageType e (acts between) ended →
      Renewed .changed tracked.storageType e (afterTick (acts between))
        (runAll Action.step (untilTick (acts between)) ended) := by
  intro s₀ between ended started
  have hH : history (twoRuns [.advanceTick,overwritten]) s₀=firstRun++.finish 0 2::between++
      .start 0 (.query (.filter .changed (.ref tracked)))::[.finish 0 4] := by
    set_option maxRecDepth 20000 in decide +kernel
  have hproper : Along Moment.step Moment.Proper (history (twoRuns [.advanceTick,overwritten]) s₀) s₀ := by
    rw [hH]
    exact proper_twoRuns (by simp) 4 s₀
  have hticks : 1+elapsed (acts (history (twoRuns [.advanceTick,overwritten]) s₀))<2^32 := by
    rw [hH]
    decide
  exact system_sees_iff inOrder [watcher] _ hproper hticks 0 (by decide) .changed (.ref tracked) rfl rfl
    firstRun between _ 2 hH (by simp [between,untilStart])

set_option maxRecDepth 20000 in
/-- A component overwritten by the user right after the run is lost on the system. -/
theorem not_system_sees : ¬∀ (events : List (Event ℕ)) (before between after : List (Moment ℕ)) (thisRun : ChangedTick),
    history events ⟨World.new inOrder,[watcher]⟩=before++.finish 0 thisRun::between++
      .start 0 (.query (.filter .changed (.ref tracked)))::after → (∀ t,.finish 0 t∉between) →
    let ended := (runAll Moment.step before ⟨World.new inOrder,[watcher]⟩).world
    let started := runAll Moment.step (before++.finish 0 thisRun::between) ⟨World.new inOrder,[watcher]⟩
    ∃ accessor,SystemParam.init (started.lastRunTick 0) started.world (.query (.filter .changed (.ref tracked)))=
        .ok (.query accessor) ∧
      HandsOut (.filter .changed (.ref tracked)) accessor started.world fun e =>
        (cellOf (World.contents started.world) e tracked.storageType).isSome=true ∧
          Renewed .changed tracked.storageType e (acts between) ended := by
  intro h
  have hH : history (twoRuns [overwritten]) ⟨World.new inOrder,[watcher]⟩=
      firstRun++.finish 0 2::untilStart [overwritten]++
        .start 0 (.query (.filter .changed (.ref tracked)))::[.finish 0 3] := by decide +kernel
  have hnone : ∀ t,Moment.finish 0 t∉untilStart [overwritten] := by simp [untilStart]
  have hfit := (history_fits (twoRuns [overwritten]) (s:=⟨World.new inOrder,[watcher]⟩) (coreInv_new inOrder)).2
  rw [hH] at hfit
  have hproper := @proper_twoRuns [overwritten] (by simp) 3 ⟨World.new inOrder,[watcher]⟩
  have hsees := (sees_iff (s:=.changed) (p:=.ref tracked) (inOrder_new inOrder) (stampsBy_new inOrder _) hfit
    (along_append.mp hproper).1 (by decide) (by decide) rfl rfl hnone).mp (h _ _ _ _ _ hH hnone)
  have hafter : afterTick (acts (untilStart [overwritten]))=
      [.prepareQuery (.filter .changed (.ref tracked))] := by decide +kernel
  have hcarries : (cellOf (World.contents (runAll Moment.step (firstRun++.finish 0 2::untilStart [overwritten])
      ⟨World.new inOrder,[watcher]⟩).world) (WorldRuns.handle 0 1) tracked.storageType).isSome=true := by
    decide +kernel
  have hwritten : Stamp.renewedBy .changed ((Action.change
      (runAll Moment.step firstRun ⟨World.new inOrder,[watcher]⟩).world overwritten).event
        (World.contents (runAll Moment.step firstRun ⟨World.new inOrder,[watcher]⟩).world)
        (WorldRuns.handle 0 1) tracked.storageType)=true := by
    decide +kernel
  have hlate := hsees (WorldRuns.handle 0 1) hcarries (.inl hwritten)
  rw [hafter] at hlate
  cases hlate with
  | inl hr => cases hr
  | inr hr => exact hr

end Samples

end XynokEcs.SystemWindows
