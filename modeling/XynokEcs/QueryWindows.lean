import XynokEcs.CellHistory

/-!
# Windows of change detection

A baseline taken from a world closes everything that happened to it: no stamp is
later. As long as the counter does not wrap, a stamp is newer than the baseline
exactly where its component was touched since. `create_query` takes a baseline for
the next call, `capture_current_tick` hands one to its caller.
-/

namespace XynokEcs.QueryWindows

open ComponentTypes EntityHandle SequenceValueMap FaultingState ChunkRows ChunkLayouts ArchetypeStore QueryShapes
  WorldState WorldCalls RegistryInvariants RegistrySteps StoreInvariants QueryAccess QuerySources ActionRuns
  WorldRuns ActionEffects WorldGrowth CommandQueues QueryMatches QueryWalks ChangeTicks QueryReadings CellHistory

variable {V : Type}

section Ages

/-- Between ticks that were taken before the current one, newer is later. -/
theorem newer_iff {tick lastRun thisRun : ChangedTick} (ht : tick.toNat≤thisRun.toNat)
    (hl : lastRun.toNat≤thisRun.toNat) :
    isNewerThan tick lastRun thisRun=true ↔ lastRun.toNat<tick.toNat := by
  have hsince : ∀ {t : ChangedTick},t.toNat≤thisRun.toNat →
      (thisRun-t).toNat=thisRun.toNat-t.toNat := by
    intro t hle
    have hlt := thisRun.toNat_lt
    rw [UInt32.toNat_sub]
    omega
  rw [isNewerThan,decide_eq_true_eq,UInt32.lt_iff_toNat_lt,hsince ht,hsince hl]
  omega

end Ages

section Selections

/-- What a filter asks of a component, where it is known which stamps were renewed. -/
def FilterKind.HoldsOf (renewed : Stamp → Prop) (d : ComponentData V) : FilterKind → Prop
  | .added => renewed .added
  | .changed => renewed .changed
  | .enabled => d.enabled=some true
  | .disabled => d.enabled=some false

/-- `Selects`, where it is known which stamps were renewed. -/
def SelectsOf (q : QueryShape Component) (renewed : Stamp → StorageType → Prop) (x : RowData V) : Prop :=
  (∀ p∈QueryShape.accesses q,(x p.2.storageType).isSome=true ↔ p.1≠.exclude) ∧
    ∀ f∈QueryShape.filters q,∃ d,x f.2=some d ∧ FilterKind.HoldsOf (fun s => renewed s f.2) d f.1

/-- A query takes the stamps newer than its baseline for renewed. -/
theorem selects_newer {q : QueryShape Component} {ticks : QueryTicks} {x : RowData V} :
    Selects q ticks x ↔ SelectsOf q (fun s t => ∃ d tick,x t=some d ∧ s.get d=some tick ∧
      isNewerThan tick ticks.lastRun ticks.thisRun=true) x := by
  refine and_congr_right fun _ => forall₂_congr fun f _ => exists_congr fun d => and_congr_right fun hd => ?_
  obtain ⟨kind,t⟩ := f
  change x t=some d at hd
  cases kind with
  | added => simp [FilterKind.Holds,FilterKind.HoldsOf,hd,Stamp.get]
  | changed => simp [FilterKind.Holds,FilterKind.HoldsOf,hd,Stamp.get]
  | enabled => exact Iff.rfl
  | disabled => exact Iff.rfl

/-- A shape of one change filter selects the components whose stamp was renewed. -/
theorem selectsOf_filter {s : Stamp} {p : QueryColumn Component} {renewed : Stamp → StorageType → Prop}
    {x : RowData V} : SelectsOf (.filter s.filter p) renewed x ↔
      (x p.component.storageType).isSome=true ∧ renewed s p.component.storageType := by
  have haccess : (∀ a∈QueryShape.accesses (.filter s.filter p),(x a.2.storageType).isSome=true ↔ a.1≠.exclude) ↔
      (x p.component.storageType).isSome=true := by
    cases p with
    | ref c => simp [QueryShape.accesses,QueryColumn.access,QueryColumn.component]
    | refMut c => simp [QueryShape.accesses,QueryColumn.access,QueryColumn.component]
  have hholds : ∀ d : ComponentData V,
      FilterKind.HoldsOf (fun s => renewed s p.component.storageType) d s.filter ↔
        renewed s p.component.storageType := by
    intro d
    cases s <;> exact Iff.rfl
  rw [SelectsOf,haccess,QueryShape.filters,List.forall_mem_singleton]
  simp only [hholds,Option.isSome_iff_exists]
  constructor
  · intro h
    obtain ⟨hx,d,hd,hr⟩ := h
    exact ⟨hx,hr⟩
  · intro h
    obtain ⟨d,hd⟩ := h.1
    exact ⟨h.1,d,hd,h.2⟩

/-- A change filter over a component of the macro that asks for change detection. -/
theorem filter_wellTyped {s : Stamp} {p : QueryColumn Component} (hd : p.component.isDeclared=true)
    (hc : p.component.stateDetection.needsChange=true) : WellTyped (.filter s.filter p) where
  declared := by
    intro c hm
    cases p <;> (cases List.mem_singleton.mp hm; exact hd)
  bounded := by cases s <;> exact hc

/-- Such a filter alone is always accepted. -/
theorem filter_accepted (s : Stamp) (p : QueryColumn Component) (specs : ComponentSpecs) :
    ∃ scope,((QueryShape.filter s.filter p).accessScope specs).1=.ok scope := by
  cases p <;> exact ⟨_,rfl⟩

mutual

/-- The components that filters look at keep the states they ask for. -/
theorem filters_bounded (q : QueryShape Component) (hd : ∀ a∈QueryShape.accesses q,a.2.isDeclared=true)
    (hb : QueryShape.bounded q=true) :
    ∀ f∈QueryShape.filters q,FilterKind.bound f.1 f.2.stateDetection=true := by
  cases q with
  | column p => exact fun f hf => (nomatch hf)
  | entity => exact fun f hf => (nomatch hf)
  | filter kind p =>
    have hcomp : (QueryColumn.access p).2=p.component := by cases p <;> rfl
    have hdec : p.component.isDeclared=true := hcomp ▸ hd _ List.mem_cons_self
    rw [QueryShape.filters,List.forall_mem_singleton,←Component.stateDetection_of_isDeclared hdec]
    exact hb
  | detail p => exact fun f hf => (nomatch hf)
  | without c => exact fun f hf => (nomatch hf)
  | tuple elements => exact allFilters_bounded elements hd hb

theorem allFilters_bounded (elements : List (QueryShape Component))
    (hd : ∀ a∈QueryShape.allAccesses elements,a.2.isDeclared=true)
    (hb : QueryShape.allBounded elements=true) :
    ∀ f∈QueryShape.allFilters elements,FilterKind.bound f.1 f.2.stateDetection=true := by
  cases elements with
  | nil => exact fun f hf => (nomatch hf)
  | cons q rest =>
    rw [QueryShape.allBounded,Bool.and_eq_true] at hb
    rw [QueryShape.allAccesses,List.forall_mem_append] at hd
    rw [QueryShape.allFilters,List.forall_mem_append]
    exact ⟨filters_bounded q hd.1 hb.1,allFilters_bounded rest hd.2 hb.2⟩

end

end Selections

section Baselines

variable [Inhabited V] {w w' : World V} {as : List (Action V)} {e : Entity} {t : StorageType}
  {b thisRun : ChangedTick} {q : QueryShape Component}

/-- No stamp of a live component is later than a tick. -/
def StampsBy (b : ChangedTick) (w : World V) : Prop :=
  ∀ e t d,t.stateDetection.needsChange=true → cellOf (World.contents w) e t=some d →
    ∀ (s : Stamp) tick,s.get d=some tick → tick.toNat≤b.toNat

/-- A baseline closes what happened so far: the world is at the next tick, and no
stamp is later than the baseline. -/
structure Closed (b : ChangedTick) (w : World V) : Prop where
  /-- The world has moved on to the next tick. -/
  tick : b.toNat+1=w.tick.toNat
  /-- Every stamp is from the baseline or before. -/
  stamps : StampsBy b w

omit [Inhabited V] in
/-- Nothing happened to a new world yet. -/
theorem stampsBy_new (runtime : Runtime) (b : ChangedTick) : StampsBy b (World.new runtime : World V) := by
  intro e t d _ hd
  have hnone : World.contents (World.new runtime : World V) e=none := rfl
  rw [cellOf,hnone] at hd
  cases hd

omit [Inhabited V] in
theorem closed_new (runtime : Runtime) : Closed 0 (World.new runtime : World V) := ⟨rfl,stampsBy_new runtime 0⟩

/-- Along a run that does not wrap the counter, no stamp is later than the tick. -/
theorem stampsBy_run (h : InOrder w) (ha : Along Action.step (Proper True) as w) (hb : StampsBy w.tick w)
    (ht : w.tick.toNat+elapsed as<2^32) : StampsBy (runAll Action.step as w).tick (runAll Action.step as w) := by
  intro e t d hc hd s tick hs
  have hnow := tick_run_lt h.core ht
  obtain ⟨-,tick',hs',-,hhi⟩ | ⟨-,old,hold,hsame⟩ := run_stamp h ha hc ht s hd
  · cases hs.symm.trans hs'
    omega
  · have hle := hb e t old hc hold s tick (hsame.symm.trans hs)
    omega

omit [Inhabited V] in
/-- Taking a tick closes what happened at the tick before. -/
theorem closed_next (hb : StampsBy w.tick w) (hw : World.contents w'=World.contents w)
    (ht : w'.tick.toNat=w.tick.toNat+1) : Closed w.tick w' where
  tick := ht.symm
  stamps := by
    unfold StampsBy
    rw [hw]
    exact hb

/-- An action that takes a tick touches no component. -/
theorem ticks_contents {a : Action V} (h : CoreInv w) (ha : Action.ticks a=1) :
    World.contents (a.step w)=World.contents w := by
  cases a with
  | advanceTick => rfl
  | captureCurrentTick => rfl
  | createQuery q =>
    obtain ⟨specs,qc,hstate⟩ := createQuery_state h q
    change World.contents (ignoring (createQuery q) w).2=_
    rw [ignoring_state,hstate]
    rfl
  | createQuerySince q b =>
    obtain ⟨specs,qc,hstate⟩ := createQuerySince_state h q b
    change World.contents (ignoring (createQuerySince q b) w).2=_
    rw [ignoring_state,hstate]
    rfl
  | _ => cases ha

/-- After a run that does not wrap the counter, the stamps newer than a baseline are
those renewed since. -/
theorem newer_renewed (h : InOrder w) (ha : Along Action.step (Proper True) as w) (hb : Closed b w)
    (hc : t.stateDetection.needsChange=true) (ht : w.tick.toNat+elapsed as<2^32)
    (hthis : (runAll Action.step as w).tick.toNat≤thisRun.toNat) (s : Stamp) {d : ComponentData V}
    (hd : cellOf (World.contents (runAll Action.step as w)) e t=some d) :
    (∃ tick,s.get d=some tick ∧ isNewerThan tick b thisRun=true) ↔ Renewed s t e as w := by
  have hnow := tick_run_lt h.core ht
  have hbase := hb.tick
  obtain ⟨hr,tick,hs,hlo,hhi⟩ | ⟨hnot,old,hold,hsame⟩ := run_stamp h ha hc ht s hd
  · refine iff_of_true ⟨tick,hs,?_⟩ hr
    rw [newer_iff (by omega) (by omega)]
    omega
  · refine iff_of_false (fun hnew => ?_) hnot
    obtain ⟨tick,hs,hnewer⟩ := hnew
    have hle := hb.stamps e t old hc hold s tick (hsame.symm.trans hs)
    rw [newer_iff (by omega) (by omega)] at hnewer
    omega

/-- A query over a baseline selects by what happened since. -/
theorem selects_renewed (h : InOrder w) (ha : Along Action.step (Proper True) as w) (hb : Closed b w)
    (hq : WellTyped q) (ht : w.tick.toNat+elapsed as<2^32)
    (hthis : (runAll Action.step as w).tick.toNat≤thisRun.toNat) {x : RowData V}
    (hx : World.contents (runAll Action.step as w) e=some x) :
    Selects q ⟨b,thisRun⟩ x ↔ SelectsOf q (fun s t => Renewed s t e as w) x := by
  refine and_congr_right fun _ => forall₂_congr fun f hf => exists_congr fun d => and_congr_right fun hd => ?_
  have hcell : cellOf (World.contents (runAll Action.step as w)) e f.2=some d := by
    rw [cellOf,hx]
    exact hd
  have hdec : ∀ a∈QueryShape.accesses q,a.2.isDeclared=true :=
    fun a ha => hq.declared _ (List.mem_map_of_mem (f:=Prod.snd) ha)
  have hbound := filters_bounded q hdec hq.bounded f hf
  obtain ⟨kind,t⟩ := f
  cases kind with
  | added => exact newer_renewed h ha hb hbound ht hthis .added hcell
  | changed => exact newer_renewed h ha hb hbound ht hthis .changed hcell
  | enabled => exact Iff.rfl
  | disabled => exact Iff.rfl

/-- The tick of a query that is created, and what it reads. -/
theorem since_reads (h : InOrder w) (hq : WellTyped q)
    (hscope : ∃ scope,(q.accessScope w.componentCounter).1=.ok scope) (b : ChangedTick) :
    ∃ accessor w',createQuerySince q b w=(.ok accessor,w') ∧ accessor.ticks=⟨b,w.tick+1⟩ ∧
      World.contents w'=World.contents w ∧ ReadsExactly q accessor w' := by
  obtain ⟨accessor,w',hcreate,hacc⟩ := createQuerySince_accepted h.core b hscope
  have hstate : (createQuerySince q b w).2=w' := by rw [hcreate]
  have hstep : (Action.createQuerySince q b : Action V).step w=w' := (ignoring_state _ w).trans hstate
  have hnext : InOrder w' := hstep ▸ h.step (a:=.createQuerySince q b) ⟨fun _ => hq.declared,trivial⟩
  obtain ⟨specs,qc,hw'⟩ := createQuerySince_state h.core q b
  rw [hstate] at hw'
  obtain ⟨idx,spec,-,-,-,he⟩ := querySrcAccess_some.mp hacc
  refine ⟨accessor,w',hcreate,?_,?_,reads_exactly hnext.run.inv.store hnext.core hq hacc⟩
  · rw [he,hw']
  · rw [hw']
    rfl

/-- `create_query` reads over the tick of the call before it. -/
theorem query_reads (h : InOrder w) (hq : WellTyped q)
    (hscope : ∃ scope,(q.accessScope w.componentCounter).1=.ok scope) :
    ∃ accessor w',createQuery q w=(.ok accessor,w') ∧ accessor.ticks=⟨w.lastQueryTick,w.tick+1⟩ ∧
      World.contents w'=World.contents w ∧ ReadsExactly q accessor w' := by
  let w₁ : World V := { w with lastQueryTick := w.tick }
  have h₁ : InOrder w₁ := ⟨⟨WorldInv.congr h.run.inv rfl rfl rfl rfl,h.run.queued⟩,
    RegistryInv.congr h.core.registry rfl,h.core.queries.congr rfl rfl rfl⟩
  exact since_reads h₁ hq hscope w.lastQueryTick

/-- What a query over a baseline hands out. -/
theorem window_reads (h : InOrder w) (ha : Along Action.step (Proper True) as w) (hb : Closed b w)
    (hq : WellTyped q) (ht : w.tick.toNat+elapsed as<2^32)
    (hthis : (runAll Action.step as w).tick.toNat≤thisRun.toNat) {accessor : QuerySpecAccessor}
    (hread : ReadsExactly q accessor w') (hticks : accessor.ticks=⟨b,thisRun⟩)
    (hw' : World.contents w'=World.contents (runAll Action.step as w)) :
    HandsOut q accessor w' fun e => q.excludeOnly=false ∧ ∃ x,
      World.contents (runAll Action.step as w) e=some x ∧ SelectsOf q (fun s t => Renewed s t e as w) x := by
  refine hread.congr fun e => and_congr_right fun _ => exists_congr fun x => ?_
  rw [hticks,hw']
  exact and_congr_right fun hx => selects_renewed h ha hb hq ht hthis hx

/-- What a query of one change filter hands out over a baseline. -/
theorem filter_window (h : InOrder w) (ha : Along Action.step (Proper True) as w) (hb : Closed b w) {s : Stamp}
    {p : QueryColumn Component} (hp : p.component.isDeclared=true)
    (hc : p.component.stateDetection.needsChange=true) (ht : w.tick.toNat+elapsed as<2^32)
    (hthis : (runAll Action.step as w).tick.toNat≤thisRun.toNat) {accessor : QuerySpecAccessor}
    (hread : ReadsExactly (.filter s.filter p) accessor w') (hticks : accessor.ticks=⟨b,thisRun⟩)
    (hw' : World.contents w'=World.contents (runAll Action.step as w)) :
    HandsOut (.filter s.filter p) accessor w' fun e =>
      (cellOf (World.contents (runAll Action.step as w)) e p.component.storageType).isSome=true ∧
        Renewed s p.component.storageType e as w := by
  refine (window_reads h ha hb (filter_wellTyped hp hc) ht hthis hread hticks hw').congr fun e => ?_
  simp only [selectsOf_filter,cellOf]
  cases World.contents (runAll Action.step as w) e with
  | none => simp
  | some x => simp [QueryShape.excludeOnly]

/-- No `create_query` leaves the baseline of the next one alone. -/
theorem lastQueryTick_run (h : CoreInv w) (ha : ∀ a∈as,∀ q,a≠.createQuery q) :
    (runAll Action.step as w).lastQueryTick=w.lastQueryTick := by
  induction as generalizing w with
  | nil => rfl
  | cons a as ih =>
    have hstep := congrArg Prod.snd (Action.clock_step a h)
    have hkept : (Action.clock a (World.clock w)).2=w.lastQueryTick := by
      cases a with
      | createQuery q => exact absurd rfl (ha _ List.mem_cons_self q)
      | _ => rfl
    rw [runAll,ih (Action.grew a h).1 fun b hb => ha b (List.mem_cons_of_mem _ hb)]
    exact hstep.trans hkept

end Baselines

section Runs

variable [Inhabited V]

/-- A run that queues no destroy and names components of the macro is proper. -/
theorem proper_of_declared (runtime : Runtime) {as : List (Action V)} (hd : ∀ a∈as,a.Declared)
    (hn : ∀ a∈as,Action.queuesNoDestroy a=true) :
    Along Action.step (Proper True) as (World.new runtime) := by
  have hrun : ∀ (as : List (Action V)) (w : World V),(∀ a∈as,a.Declared) →
      Along Action.step (Proper False) as w → Along Action.step (Proper True) as w := by
    intro as
    induction as with
    | nil => exact fun _ _ _ => trivial
    | cons a as ih =>
      intro w hd ha
      exact ⟨⟨fun _ => hd a List.mem_cons_self,ha.1.2⟩,
        ih _ (fun b hb => hd b (List.mem_cons_of_mem _ hb)) ha.2⟩
  exact hrun as _ hd (proper_of_noDestroy runtime hn)

/-- What a run leaves open after an action that takes a baseline. -/
structure Opened (b : ChangedTick) (between : List (Action V)) (w₀ w : World V) : Prop where
  /-- The world at the start is in order. -/
  order : InOrder w₀
  /-- What follows is proper. -/
  along : Along Action.step (Proper True) between w₀
  /-- The baseline was just taken. -/
  closed : Closed b w₀
  /-- The run ends in the world at hand. -/
  ends : runAll Action.step between w₀=w
  /-- The ticks do not come around. -/
  ticks : w₀.tick.toNat+elapsed between+1<2^32

/-- An action that takes a tick opens a window. -/
theorem opened (runtime : Runtime) {before between : List (Action V)} {x : Action V}
    (ha : Along Action.step (Proper True) (before++x::between) (World.new runtime))
    (ht : 1+elapsed (before++x::between)+1<2^32) (hx : Action.ticks x=1) :
    Opened (runAll Action.step before (World.new runtime)).tick between
      (runAll Action.step (before++[x]) (World.new runtime))
      (runAll Action.step (before++x::between) (World.new runtime)) := by
  have hnew : InOrder (World.new runtime : World V) := inOrder_new runtime
  have hone : (World.new runtime : World V).tick.toNat=1 := rfl
  have hsplit : before++x::between=(before++[x])++between := by simp
  rw [elapsed_append,elapsed_cons,hx] at ht
  have hbefore := (along_append.mp ha).1
  rw [hsplit] at ha ⊢
  obtain ⟨ha₀,hbetween⟩ := along_append.mp ha
  have hcount : elapsed (before++[x])=elapsed before+1 := by
    rw [elapsed_append,elapsed_cons,hx]
    rfl
  have hthen := tick_run_lt hnew.core (by omega : _+elapsed before<2^32)
  have hnext := tick_run_lt hnew.core (by omega : _+elapsed (before++[x])<2^32)
  refine ⟨hnew.along ha₀,hbetween,?_,runAll_append.symm,by omega⟩
  have hstamps := stampsBy_run hnew hbefore (stampsBy_new runtime _) (by omega)
  refine closed_next hstamps ?_ (by omega)
  rw [runAll_append]
  exact ticks_contents (hnew.along hbefore).core hx

/-- In every run that takes fewer ticks than the counter has, a `create_query` over a
change filter hands out every component there is on the first call, and on a later
one those inserted or written since the call before; a query since a captured tick
hands out those inserted or written since the capture. All components of the run come
from the macro, and its queued destroys find their entities. -/
theorem query_windows (runtime : Runtime) (as : List (Action V))
    (ha : Along Action.step (Proper True) as (World.new runtime)) (ht : 1+elapsed as+1<2^32) (s : Stamp)
    (p : QueryColumn Component) (hp : p.component.isDeclared=true)
    (hc : p.component.stateDetection.needsChange=true) :
    let q := QueryShape.filter s.filter p
    let t := p.component.storageType
    let w := runAll Action.step as (World.new runtime)
    ((∀ a∈as,∀ q',a≠.createQuery q') → ∃ accessor w',createQuery q w=(.ok accessor,w') ∧
      HandsOut q accessor w' fun e => (cellOf (World.contents w) e t).isSome=true) ∧
    (∀ before q₀ between,as=before++.createQuery q₀::between → (∀ a∈between,∀ q',a≠.createQuery q') →
      ∃ accessor w',createQuery q w=(.ok accessor,w') ∧
        HandsOut q accessor w' fun e => (cellOf (World.contents w) e t).isSome=true ∧
          Renewed s t e between (runAll Action.step (before++[.createQuery q₀]) (World.new runtime))) ∧
    ∀ before between b,as=before++.captureCurrentTick::between →
      (captureCurrentTick (runAll Action.step before (World.new runtime : World V))).1=.ok b →
      ∃ accessor w',createQuerySince q b w=(.ok accessor,w') ∧
        HandsOut q accessor w' fun e => (cellOf (World.contents w) e t).isSome=true ∧
          Renewed s t e between (runAll Action.step (before++[.captureCurrentTick]) (World.new runtime)) := by
  intro q t w
  have hnew : InOrder (World.new runtime : World V) := inOrder_new runtime
  have hw : InOrder w := hnew.along ha
  have htyped : WellTyped q := filter_wellTyped hp hc
  have haccepted := filter_accepted s p w.componentCounter
  obtain ⟨accessor,w',hcreate,hticks,hsame,hread⟩ := query_reads hw htyped haccepted
  have hone : (World.new runtime : World V).tick.toNat=1 := rfl
  have hthis : w.tick.toNat≤(w.tick+1).toNat := by
    have hnow : w.tick.toNat=_ := tick_run_lt hnew.core (by omega : _+elapsed as<2^32)
    rw [UInt32.toNat_add]
    change _≤(_+1)%2^32
    omega
  refine ⟨fun hnone => ⟨accessor,w',hcreate,?_⟩,?_,?_⟩
  · have hbase : w.lastQueryTick=0 := lastQueryTick_run hnew.core hnone
    rw [hbase] at hticks
    refine (filter_window hnew ha (closed_new runtime) hp hc (by omega) hthis hread hticks hsame).congr fun e => ?_
    refine and_iff_left_of_imp fun hsome => ?_
    obtain ⟨d,hcell⟩ := Option.isSome_iff_exists.mp hsome
    have hkeeps : t.stateDetection.needsChange=true :=
      (Component.stateDetection_of_isDeclared hp).symm ▸ hc
    obtain ⟨hr,-⟩ | ⟨-,old,hold,-⟩ := run_stamp hnew ha hkeeps (by omega) s hcell
    · exact hr
    · cases hold
  · intro before q₀ between he hnone
    subst he
    have hopen := opened runtime ha ht rfl
    have hbase : w.lastQueryTick=(runAll Action.step before (World.new runtime : World V)).tick := by
      have hquiet := lastQueryTick_run hopen.order.core hnone
      rw [hopen.ends] at hquiet
      have hq₀ := congrArg Prod.snd
        (Action.clock_step (.createQuery q₀) (hnew.along (along_append.mp ha).1).core)
      exact hquiet.trans ((congrArg World.lastQueryTick runAll_append).trans hq₀)
    rw [hbase] at hticks
    have hends : runAll Action.step between _=w := hopen.ends
    have hopened := hopen.ticks
    rw [←hends] at hticks hsame hthis
    have hwindow := filter_window hopen.order hopen.along hopen.closed hp hc (by omega) hthis hread hticks hsame
    rw [hends] at hwindow
    exact ⟨accessor,w',hcreate,hwindow⟩
  · intro before between b he hb
    subst he
    have hopen := opened runtime ha ht rfl
    cases hb
    have hends : runAll Action.step between _=w := hopen.ends
    obtain ⟨accessor,w',hcreate,hticks,hsame,hread⟩ := since_reads hw htyped haccepted
      (runAll Action.step before (World.new runtime : World V)).tick
    have hopened := hopen.ticks
    rw [←hends] at hticks hsame hthis
    have hwindow := filter_window hopen.order hopen.along hopen.closed hp hc (by omega) hthis hread hticks hsame
    rw [hends] at hwindow
    exact ⟨accessor,w',hcreate,hwindow⟩

/-- A component that asks for change detection. -/
def tracked : Component := .declared ⟨0,4,4,.changeAble,four_pow,four_aligned⟩

/-- One entity before a query of what is new, and one after it. -/
theorem query_windows_second :
    let before : List (Action ℕ) := [.world .returning (.create (.single tracked 1))]
    let between : List (Action ℕ) := [.world .returning (.create (.single tracked 2))]
    let q := QueryShape.filter .changed (.ref tracked)
    let w := runAll Action.step (before++.createQuery q::between) (World.new inOrder)
    ∃ accessor w',createQuery q w=(.ok accessor,w') ∧
      HandsOut q accessor w' fun e => (cellOf (World.contents w) e tracked.storageType).isSome=true ∧
        Renewed .changed tracked.storageType e between
          (runAll Action.step (before++[.createQuery q]) (World.new inOrder)) := by
  intro before between q w
  have hd : ∀ a∈before++.createQuery q::between,a.Declared := by
    intro a ha
    simp only [before,between,List.singleton_append,List.mem_cons,List.not_mem_nil,or_false] at ha
    rcases ha with rfl | rfl | rfl
    · rintro T ⟨⟩
      rfl
    · intro c hc
      cases List.mem_singleton.mp hc
      rfl
    · rintro T ⟨⟩
      rfl
  have hwindows := query_windows inOrder _ (proper_of_declared inOrder hd (by decide)) (by decide)
    .changed (.ref tracked) rfl rfl
  exact hwindows.2.1 before q between rfl fun a ha q' hq => by
    rw [List.mem_singleton.mp ha] at hq
    cases hq

omit [Inhabited V] in
/-- A walk that fails at its first archetypes hands nothing out. -/
theorem next_new_error {q : QueryShape Component} {accessor : QuerySpecAccessor} {w : World V} {f : Fault}
    (hn : (ChunkCursor.nextChunk q w (QueryIter.new q accessor w).cursor.archIndices none 0).map
      (fun _ => ())=.error f) : QueryIter.next q w (QueryIter.new q accessor w)=.error f := by
  have hfails : ChunkCursor.nextChunk q w (QueryIter.new q accessor w).cursor.archIndices none 0=.error f := by
    cases hc : ChunkCursor.nextChunk q w (QueryIter.new q accessor w).cursor.archIndices none 0 with
    | error e =>
      rw [hc] at hn
      cases hn
      rfl
    | ok found =>
      rw [hc] at hn
      cases hn
  have hscan : QueryIter.scanRows w (QueryIter.new q accessor w)=none := rfl
  rw [QueryIter.next,hscan]
  dsimp only
  split
  · rename_i he
    cases hfails.symm.trans he
    rfl
  · rename_i he
    cases hfails.symm.trans he
  · rename_i he
    cases hfails.symm.trans he

/-- What changed of a type that a view was named for first. -/
def changedTicks : QueryShape Component := .filter .changed (.ref (ticked 0))

set_option maxRecDepth 20000 in
/-- A view without a state, named before its type is stored, leaves the derived archetype
without ticks. A query for changes is created all the same, and walking it panics. -/
theorem viewed_walk_panics : 1+elapsed viewed+1<2^32 ∧ ∃ w',
    createQuery changedTicks (runAll Action.step viewed (World.new inOrder : World ℕ))=
      (.ok ⟨1,⟨1,3⟩⟩,w') ∧
    QueryIter.next changedTicks w' (QueryIter.new changedTicks ⟨1,⟨1,3⟩⟩ w')=
      .error (.panic (.stateRegionMissing (tickedType 0))) ∧
    ∀ P,¬HandsOut changedTicks ⟨1,⟨1,3⟩⟩ w' P := by
  have hcreated : (createQuery changedTicks
      (runAll Action.step viewed (World.new inOrder : World ℕ))).1.toOption=some ⟨1,⟨1,3⟩⟩ := by
    decide +kernel
  have hfails : (ChunkCursor.nextChunk changedTicks
      (createQuery changedTicks (runAll Action.step viewed (World.new inOrder : World ℕ))).2
      (QueryIter.new changedTicks ⟨1,⟨1,3⟩⟩ (createQuery changedTicks
        (runAll Action.step viewed (World.new inOrder : World ℕ))).2).cursor.archIndices none 0).map
      (fun _ => ())=.error (.panic (.stateRegionMissing (tickedType 0))) := by decide +kernel
  refine ⟨by decide,?_⟩
  cases hrun : createQuery changedTicks (runAll Action.step viewed (World.new inOrder : World ℕ)) with
  | mk r w' =>
    rw [hrun] at hcreated hfails
    cases r with
    | error e => cases hcreated
    | ok accessor =>
      cases hcreated
      have hpanics := next_new_error hfails
      refine ⟨w',rfl,hpanics,?_⟩
      rintro P ⟨items,es,hwalk,-⟩
      cases hwalk with
      | done hn => cases hpanics.symm.trans hn
      | item hn _ => cases hpanics.symm.trans hn

end Runs

end XynokEcs.QueryWindows
