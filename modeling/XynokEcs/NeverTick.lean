import XynokEcs.QueryWindows

/-!
# The tick that means never

A baseline of 0 stands for a system that never ran. As long as the counter has not
gone around, no world is at tick 0, no stamp is 0, and a query over that baseline
hands out every component. The call that takes the counter around leaves the world
at tick 0.
-/

namespace XynokEcs.NeverTick

open ComponentTypes EntityHandle SequenceValueMap FaultingState ChunkRows ChunkLayouts ArchetypeStore QueryShapes
  WorldState WorldCalls StoreInvariants QueryAccess QuerySources ActionRuns WorldRuns ActionEffects WorldGrowth
  QueryMatches QueryWalks ChangeTicks QueryReadings CellHistory QueryWindows

variable {V : Type}

section Around

/-- A run of many ticks passes through every smaller number of ticks. -/
theorem elapsed_passes (as : List (Action V)) {n : ℕ} (hn : n≤elapsed as) :
    ∃ before after,as=before++after ∧ elapsed before=n := by
  induction as generalizing n with
  | nil => exact ⟨[],[],rfl,(Nat.le_zero.mp hn).symm⟩
  | cons a as ih =>
    have hone := ticks_le a
    rw [elapsed_cons] at hn
    by_cases hzero : n<Action.ticks a
    · exact ⟨[],a::as,rfl,by change 0=n; omega⟩
    · obtain ⟨before,after,he,hcount⟩ := ih (n:=n-Action.ticks a) (by omega)
      refine ⟨a::before,after,congrArg (a::·) he,?_⟩
      rw [elapsed_cons]
      omega

theorem elapsed_advances (n : ℕ) : elapsed (List.replicate n (.advanceTick : Action V))=n := by
  induction n with
  | zero => rfl
  | succ n ih =>
    rw [List.replicate_succ,elapsed_cons,ih]
    exact Nat.add_comm 1 n

end Around

section Runs

variable [Inhabited V]

/-- A run inserts or writes a component within its last ticks. -/
def TouchedWithin (n : ℕ) (t : StorageType) (e : Entity) (as : List (Action V)) (w : World V) : Prop :=
  ∃ before after,as=before++after ∧ elapsed after≤n ∧
    Renewed .changed t e after (runAll Action.step before w)

/-- Tick 0 means never in the world at the end of a run. -/
structure NeverKept (runtime : Runtime) (as : List (Action V)) : Prop where
  /-- The world is not at tick 0. -/
  tick : (runAll Action.step as (World.new runtime : World V)).tick≠0
  /-- No tick that a row keeps is 0. -/
  stamps : ∀ e t d (s : Stamp),t.stateDetection.needsChange=true →
    cellOf (World.contents (runAll Action.step as (World.new runtime))) e t=some d → s.get d≠some 0
  /-- A system that never ran, and a query since tick 0. -/
  first : ∀ (s : Stamp) (p : QueryColumn Component) accessor,p.component.isDeclared=true →
    p.component.stateDetection.needsChange=true →
    querySrcAccess (.filter s.filter p) 0 (runAll Action.step as (World.new runtime))=some accessor →
    ∃ P,HandsOut (.filter s.filter p) accessor (runAll Action.step as (World.new runtime)) P ∧ ∀ e,
      (cellOf (World.contents (runAll Action.step as (World.new runtime))) e
        p.component.storageType).isSome=true →
      TouchedWithin (2^32-1) p.component.storageType e as (World.new runtime) → P e

/-- While the counter has not gone around, tick 0 means never. -/
theorem neverKept_of_lt (runtime : Runtime) {as : List (Action V)}
    (ha : Along Action.step (Proper True) as (World.new runtime)) (ht : 1+elapsed as<2^32) :
    NeverKept runtime as := by
  have hnew : InOrder (World.new runtime : World V) := inOrder_new runtime
  have hone : (World.new runtime : World V).tick.toNat=1 := rfl
  have hw := hnew.along ha
  have hnow := tick_run_lt hnew.core (by omega : _+elapsed as<2^32)
  have hzero : (0 : ChangedTick).toNat=0 := rfl
  have hstamps : ∀ {e t d} (s : Stamp),t.stateDetection.needsChange=true →
      cellOf (World.contents (runAll Action.step as (World.new runtime))) e t=some d →
      ∃ tick,s.get d=some tick ∧ 1≤tick.toNat ∧ tick.toNat≤1+elapsed as := by
    intro e t d s hc hd
    obtain ⟨-,hr⟩ | ⟨-,old,hold,-⟩ := run_stamp hnew ha hc (by omega) s hd
    · exact hr
    · cases hold
  refine ⟨fun h => ?_,fun e t d s hc hd hs => ?_,fun s p accessor hp hc hacc => ?_⟩
  · rw [h] at hnow
    omega
  · obtain ⟨tick,hget,hlo,-⟩ := hstamps s hc hd
    cases hs.symm.trans hget
    omega
  · have htyped : WellTyped (.filter s.filter p) := filter_wellTyped hp hc
    obtain ⟨idx,spec,-,-,-,he⟩ := querySrcAccess_some.mp hacc
    have hkeeps : p.component.storageType.stateDetection.needsChange=true :=
      (Component.stateDetection_of_isDeclared hp).symm ▸ hc
    refine ⟨_,reads_exactly hw.run.inv.store hw.core htyped hacc,fun e hsome _ => ⟨rfl,?_⟩⟩
    obtain ⟨d,hcell⟩ := Option.isSome_iff_exists.mp hsome
    obtain ⟨x,hx,hd⟩ := Option.bind_eq_some_iff.mp hcell
    obtain ⟨tick,hget,hlo,hhi⟩ := hstamps s hkeeps hcell
    have hnewer : isNewerThan tick 0 (runAll Action.step as (World.new runtime)).tick=true :=
      (newer_iff (by omega) (by omega)).mpr (by omega)
    refine ⟨x,hx,selects_newer.mpr (selectsOf_filter.mpr ⟨hd ▸ rfl,d,tick,hd,hget,?_⟩)⟩
    rw [he]
    exact hnewer

/-- Tick 0 means never in every world a proper run passes through exactly when the
run takes fewer ticks than the counter has left. -/
theorem neverKept_iff (runtime : Runtime) (as : List (Action V))
    (ha : Along Action.step (Proper True) as (World.new runtime)) :
    (∀ before after,as=before++after → NeverKept runtime before) ↔ 1+elapsed as<2^32 := by
  have hcore : CoreInv (World.new runtime : World V) := coreInv_new runtime
  have hone : (World.new runtime : World V).tick.toNat=1 := rfl
  constructor
  · intro hkept
    by_contra hge
    obtain ⟨before,after,he,hcount⟩ := elapsed_passes as (by omega : 2^32-1≤elapsed as)
    refine (hkept before after he).tick (UInt32.toNat_inj.mp ?_)
    rw [tick_run before hcore,hcount,hone]
    exact Nat.mod_self (2^32)
  · intro ht before after he
    subst he
    rw [elapsed_append] at ht
    exact neverKept_of_lt runtime (along_append.mp ha).1 (by omega)

/-- A run of one entity and a few ticks. -/
theorem neverKept_iff_created :
    let as : List (Action ℕ) := [.advanceTick,.world .returning (.create (.single tracked 1)),.advanceTick]
    (∀ before after,as=before++after → NeverKept inOrder before) ↔ 1+elapsed as<2^32 := by
  intro as
  refine neverKept_iff inOrder as ⟨⟨fun _ => trivial,trivial⟩,⟨fun _ T hT => ?_,trivial⟩,
    ⟨fun _ => trivial,trivial⟩,trivial⟩
  cases hT
  rfl

theorem proper_advances (n : ℕ) (w : World V) :
    Along Action.step (Proper True) (List.replicate n .advanceTick) w := by
  induction n generalizing w with
  | zero => trivial
  | succ n ih => exact ⟨⟨fun _ => trivial,trivial⟩,ih _⟩

/-- The call of `advance_tick` that takes the counter around leaves the world at
tick 0. -/
theorem not_neverKept : ¬∀ as : List (Action ℕ),Along Action.step (Proper True) as (World.new inOrder) →
    NeverKept inOrder as := by
  intro h
  have hn : ∀ n,1+n=2^32 → ¬NeverKept inOrder (List.replicate n (.advanceTick : Action ℕ)) := by
    intro n he hkept
    refine hkept.tick (UInt32.toNat_inj.mp ?_)
    have hone : (World.new inOrder : World ℕ).tick.toNat=1 := rfl
    rw [tick_run _ (coreInv_new inOrder),elapsed_advances,hone,he]
    exact Nat.mod_self (2^32)
  exact hn (2^32-1) (by omega) (h _ (proper_advances (2^32-1) _))

end Runs

end XynokEcs.NeverTick
