import XynokEcs.ActionEffects
import XynokEcs.ArchetypeHomes

/-!
# No handle is issued twice

A handle is spent once it was taken, and a spent handle is not taken again. The
exception is a queued create that is refused: it gives its slot back with the
version the slot had before, so on a recycled slot the same handle comes out a
second time.
-/

namespace XynokEcs.HandleIssue

open ComponentTypes EntityHandle SequenceValueMap FaultingState ArchetypeStore EntityAllocation
  SlotInvariants WorldState WorldCalls CommandBuffer RegistryInvariants StoreInvariants StoreSteps
  SlotEvents WorkerQueues ActionRuns WorldRuns ActionEffects ArchetypeHomes

variable {V : Type} {w w' : World V} {e f : Entity} {s t : Slots} {evs : List SlotEvent}

section Spending

/-- A reserved handle is spent. -/
theorem spent_reserved (hi : s.Inv) (he : e∈s.reserved) : Spent e s := by
  obtain ⟨hfree,slot,hs,hempty,-⟩ := hi.reserved_slot e he
  refine ⟨slot,hs,.inr ⟨hempty,hfree,fun f hf hidx => ?_⟩⟩
  exact List.inj_on_of_nodup_map hi.reserved_nodup hf he hidx

/-- A spent handle stays spent unless it is given back. -/
theorem SlotRun.spent (h : SlotRun evs s t) (hi : s.Inv) (hs : Spent e s)
    (hr : SlotEvent.released e∉evs) : Spent e t := by
  have hp : t.Inv ∧ Spent e t := by
    refine h.invariant (P:=fun s => s.Inv ∧ Spent e s) ?_ ⟨hi,hs⟩
    rintro ev hev u v hstep ⟨hu,hsu⟩
    exact ⟨SlotEvent.Step.inv hstep hu,SlotEvent.Step.spent hstep hu hsu fun he => absurd (he ▸ hev) hr⟩
  exact hp.2

/-- A handle taken along the way was not spent before and is afterwards. -/
theorem SlotRun.taken_spent (h : SlotRun evs s t) (hi : s.Inv) (he : SlotEvent.taken e∈evs)
    (hr : SlotEvent.released e∉evs) : ¬Spent e s ∧ Spent e t := by
  induction h with
  | nil => cases he
  | cons hstep hrun ih =>
    have hinv := SlotEvent.Step.inv hstep hi
    rcases List.mem_cons.mp he with rfl | he
    · refine ⟨fun hs => taken_ne_spent hstep hs rfl,?_⟩
      exact SlotRun.spent hrun hinv (spent_of_taken hstep) fun hm => hr (List.mem_cons_of_mem _ hm)
    · obtain ⟨hn,ht⟩ := ih hinv he fun hm => hr (List.mem_cons_of_mem _ hm)
      refine ⟨fun hs => hn (SlotEvent.Step.spent hstep hi hs ?_),ht⟩
      rintro rfl
      exact absurd List.mem_cons_self hr

/-- A handle that was attached and is no longer waiting is left alone from then on. -/
theorem left_run (h : SlotRun evs s t) (hi : s.Inv) (hs : Spent e s) (hr : e∉s.reserved) :
    Spent e t ∧ e∉t.reserved := by
  have hp : t.Inv ∧ Spent e t ∧ e∉t.reserved := by
    refine h.invariant (P:=fun s => s.Inv ∧ Spent e s ∧ e∉s.reserved) ?_ ⟨hi,hs,hr⟩
    rintro ev - u v hstep ⟨hu,hsu,hru⟩
    refine ⟨SlotEvent.Step.inv hstep hu,SlotEvent.Step.spent hstep hu hsu ?_,fun hm => ?_⟩
    · rintro rfl
      cases hstep with
      | released _ hp => exact absurd (hp.mem_iff.mpr List.mem_cons_self) hru
    · rcases SlotEvent.Step.reserved_of hstep hm with hm | rfl
      · exact hru hm
      · exact taken_ne_spent hstep hsu rfl
  exact hp.2

/-- What is gone stays gone. -/
theorem gone_run (h : SlotRun evs s t) (hi : s.Inv) (hg : Gone e s) : Gone e t := by
  have hp : t.Inv ∧ Gone e t := by
    refine h.invariant (P:=fun s => s.Inv ∧ Gone e s) ?_ ⟨hi,hg⟩
    rintro ev - u v hstep ⟨hu,hgu⟩
    exact ⟨SlotEvent.Step.inv hstep hu,SlotEvent.Step.gone hstep hu hgu⟩
  exact hp.2

variable {leaks : Prop} {gives : Entity → Prop} {out : Option Entity}

/-- Fetching releases no handle. -/
theorem fetches_released (h : Fetches evs) : SlotEvent.released e∉evs := by
  intro hm
  rcases h _ hm with he | ⟨f,he⟩ <;> cases he

/-- Only a handle that is given back stops being spent. -/
theorem Effect.spent (he : Effect leaks gives out evs) (h : SlotRun evs s t) (hi : s.Inv)
    (hs : Spent e s) (hg : gives e → ∃ slot,s.allocator.entities[e.idx]?=some slot ∧
      e.version ≤ slot.version) : Spent e t := by
  cases he with
  | fetched hf => exact SlotRun.spent h hi hs (fetches_released hf)
  | handed f hf => exact SlotRun.spent h hi hs (fetches_released hf)
  | created f => exact SlotRun.spent h hi hs (by simp)
  | leaked f _ => exact SlotRun.spent h hi hs (by simp)
  | undone f =>
    have hne : f≠e := by
      cases h with
      | cons hstep _ => exact taken_ne_spent hstep hs
    exact SlotRun.spent h hi hs (by simpa using hne.symm)
  | erased f => exact SlotRun.spent h hi hs (by simp)
  | attached f => exact SlotRun.spent h hi hs (by simp)
  | released f hf =>
    cases h with
    | cons hstep hrun =>
      cases hrun
      refine SlotEvent.Step.spent hstep hi hs ?_
      rintro ⟨⟩
      exact hg hf
  | lost f _ => exact SlotRun.spent h hi hs (by simp)

/-- A handle that is handed out was held ahead or taken just now, and not given back. -/
theorem Effect.out_released (he : Effect leaks gives (some f) evs) : SlotEvent.released e∉evs := by
  cases he with
  | handed f hf => exact fetches_released hf
  | created f => simp

/-- What is taken was not spent. -/
theorem Effect.taken_fresh (he : Effect leaks gives out evs) (h : SlotRun evs s t) (hi : s.Inv)
    (ht : SlotEvent.taken e∈evs) : ¬Spent e s := by
  cases he with
  | fetched hf => exact (SlotRun.taken_spent h hi ht (fetches_released hf)).1
  | handed f hf => exact (SlotRun.taken_spent h hi ht (fetches_released hf)).1
  | created f => exact (SlotRun.taken_spent h hi ht (by simp)).1
  | leaked f _ => exact (SlotRun.taken_spent h hi ht (by simp)).1
  | undone f =>
    have hf : e=f := by simpa using ht
    subst hf
    cases h with
    | cons hstep _ => exact fun hs => taken_ne_spent hstep hs rfl
  | _ => simp at ht

end Spending

section Issuing

variable [Inhabited V]

/-- The handles a run hands to its callers, in order. -/
def issuedAlong : List (Action V) → World V → List Entity
  | [],_ => []
  | a::as,w => (a.issued w).toList++issuedAlong as (a.step w)

omit [Inhabited V] in
/-- A queued create that is refused does not sit on a recycled slot. -/
def KeepsVersion (a : Action V) (w : World V) : Prop :=
  ∀ i thread e val,a=.applyCmd i → World.front w i=some (.create thread e val) →
    Refuses w val.ty → ∃ slot,w.entityAllocator.entities[e.idx]?=some slot ∧ slot.version=e.version

/-- What a step must not do for handles to stay unique. -/
def HandleSafe (a : Action V) (w : World V) : Prop := Action.Applies w a ∧ KeepsVersion a w

/-- What an action hands out is at or behind the version of its slot. -/
theorem gives_version (h : RunInv False w) {a : Action V} (hk : KeepsVersion a w)
    (hg : Action.gives w a e) : ∃ slot,(World.slots w).allocator.entities[e.idx]?=some slot ∧
      e.version ≤ slot.version := by
  cases a with
  | applyCmd i =>
    obtain ⟨thread,val,err,hf,hrun⟩ := hg
    have hstore := StoreInv.popped_create h.inv hf
    obtain ⟨-,-,-,hheld,-,-⟩ := popCmd_front hf
    have href : Refuses (World.popped w i) val.ty :=
      createComponentsFor_err hstore False.elim (Prod.ext hrun rfl)
    have harch : (World.popped w i).archetypes=w.archetypes := congrArg Prod.fst hheld.registry
    have href' : Refuses w val.ty := by
      obtain ⟨j,spec,hh,hr⟩ := href
      exact ⟨j,spec,⟨harch ▸ hh.1,hh.2⟩,hr⟩
    obtain ⟨slot,hs,hv⟩ := hk i thread e val rfl hf href'
    exact ⟨slot,hs,Nat.le_of_eq hv.symm⟩
  | _ => exact hg.elim

/-- The handles issued so far: distinct, spent, and held by no worker any more. -/
structure Issued (issued : List Entity) (w : World V) : Prop where
  /-- No handle was issued twice. -/
  distinct : issued.Nodup
  /-- No issued handle can be taken from its slot again. -/
  spent : ∀ e∈issued,Spent e (World.slots w)
  /-- No worker holds what was issued. -/
  handed : ∀ e∈issued,e∉World.ahead w

/-- One step hands out a handle that was not issued before. -/
theorem Issued.step {issued : List Entity} {a : Action V} (h : RunInv False w)
    (hi : Issued issued w) (hs : HandleSafe a w) :
    Issued (issued++(a.issued w).toList) (a.step w) := by
  obtain ⟨-,evs,he,hstep,hahead,hout⟩ := Action.acted a h False.elim hs.1
  have hinv : (World.slots w).Inv := h.inv.store.slots
  have hkept : ∀ e,Spent e (World.slots w) → Spent e (World.slots (a.step w)) :=
    fun e hsp => Effect.spent he hstep.run hinv hsp fun hg => gives_version h hs.2 hg
  have hold : ∀ e∈issued,e∉World.ahead (a.step w) := by
    intro e hm hah
    rcases hahead e hah with hah | ht
    · exact hi.handed e hm hah
    · exact Effect.taken_fresh he hstep.run hinv ht (hi.spent e hm)
  cases ho : a.issued w with
  | none =>
    rw [Option.toList_none,List.append_nil]
    exact ⟨hi.distinct,fun e hm => hkept e (hi.spent e hm),hold⟩
  | some f =>
    rw [ho] at he hout
    obtain ⟨hfrom,hnot⟩ := hout f rfl
    have hrel := Effect.out_released (e:=f) he
    have hfresh : f∉issued ∧ Spent f (World.slots (a.step w)) := by
      rcases hfrom with hah | ht
      · refine ⟨fun hm => hi.handed f hm hah,hkept f (spent_reserved hinv ?_)⟩
        exact (reserved_split w).mem_iff.mpr (List.mem_append_left _ hah)
      · obtain ⟨hn,hsp⟩ := SlotRun.taken_spent hstep.run hinv ht hrel
        exact ⟨fun hm => hn (hi.spent f hm),hsp⟩
    rw [Option.toList_some]
    refine ⟨?_,fun e hm => ?_,fun e hm => ?_⟩
    · rw [List.nodup_append]
      refine ⟨hi.distinct,List.nodup_singleton f,fun x hx y hy hxy => ?_⟩
      rw [List.mem_singleton] at hy
      subst hy hxy
      exact hfresh.1 hx
    · rcases List.mem_append.mp hm with hm | hm
      · exact hkept e (hi.spent e hm)
      · rw [List.mem_singleton] at hm
        subst hm
        exact hfresh.2
    · rcases List.mem_append.mp hm with hm | hm
      · exact hold e hm
      · rw [List.mem_singleton] at hm
        subst hm
        exact hnot

omit [Inhabited V] in
/-- Nothing was issued at the start. -/
theorem issued_none (w : World V) : Issued [] w where
  distinct := List.nodup_nil
  spent := by simp
  handed := by simp

/-- In such a run queued destroys find their entities. -/
theorem safe_proper {as : List (Action V)} (h : Along Action.step HandleSafe as w) :
    Along Action.step (Proper False) as w := h.mono fun _ _ hs => ⟨False.elim,hs.1⟩

/-- Issuing keeps handles apart over a run. -/
theorem Issued.run {as : List (Action V)} {issued : List Entity} (h : RunInv False w)
    (hi : Issued issued w) (hs : Along Action.step HandleSafe as w) :
    Issued (issued++issuedAlong as w) (runAll Action.step as w) := by
  induction as generalizing w issued with
  | nil =>
    rw [issuedAlong,List.append_nil]
    exact hi
  | cons a as ih =>
    have hstep := Issued.step h hi hs.1
    rw [issuedAlong,←List.append_assoc]
    exact ih (Action.runInv a h False.elim hs.1.1) hstep hs.2

/-- The slots of a world after a run, with its invariant. -/
theorem gone_along {as : List (Action V)} (h : RunInv False w) (hg : Gone e (World.slots w))
    (hs : Along Action.step (Proper False) as w) :
    Gone e (World.slots (runAll Action.step as w)) := by
  induction as generalizing w with
  | nil => exact hg
  | cons a as ih =>
    obtain ⟨-,evs,-,hstep,-⟩ := Action.acted a h hs.1.1 hs.1.2
    exact ih (Action.runInv a h hs.1.1 hs.1.2) (gone_run hstep.run h.inv.store.slots hg) hs.2

/-- A handle that is spent and not reserved stays so. -/
theorem left_along {as : List (Action V)} (h : RunInv False w) (hsp : Spent e (World.slots w))
    (hr : e∉World.reserved w) (hs : Along Action.step (Proper False) as w) :
    Spent e (World.slots (runAll Action.step as w)) ∧
      e∉World.reserved (runAll Action.step as w) := by
  induction as generalizing w with
  | nil => exact ⟨hsp,hr⟩
  | cons a as ih =>
    obtain ⟨-,evs,-,hstep,-⟩ := Action.acted a h hs.1.1 hs.1.2
    obtain ⟨hsp',hr'⟩ := left_run hstep.run h.inv.store.slots hsp hr
    exact ih (Action.runInv a h hs.1.1 hs.1.2) hsp' hr' hs.2

omit [Inhabited V] in
/-- An entity that is not found does not exist. -/
theorem not_exists_iff : World.entityExists w e=false ↔ w.entityAllocator.locate e=none := by
  rw [World.entityExists,entityExists_eq,Option.isSome_eq_false_iff,Option.isNone_iff_eq_none]

omit [Inhabited V] in
/-- An entity that exists is spent and reserved by nobody. -/
theorem exists_left (h : RunInv False w) (he : World.entityExists w e=true) :
    Spent e (World.slots w) ∧ e∉World.reserved w := by
  rw [World.entityExists,entityExists_eq,Option.isSome_iff_exists] at he
  obtain ⟨l,hl⟩ := he
  obtain ⟨slot,hs,hv,hver,-⟩ := locate_eq_some.mp hl
  refine ⟨spent_of_le hs (Nat.le_of_eq hver.symm),fun hm => ?_⟩
  exact (h.inv.store.slots.live_apart hs hv).2 (List.mem_map_of_mem hm)

/-- Handles are issued once, and what is gone stays gone: an entity that was
destroyed, and a handle whose queued creation failed. -/
structure HandlesUnique (as : List (Action V)) (w : World V) : Prop where
  /-- No handle is issued twice. -/
  distinct : (issuedAlong as w).Nodup
  /-- An entity that is gone does not come back. -/
  destroyed : ∀ bs cs ds e,as=bs++(cs++ds) →
    World.entityExists (runAll Action.step bs w) e=true →
    World.entityExists (runAll Action.step (bs++cs) w) e=false →
    World.entityExists (runAll Action.step as w) e=false
  /-- A handle whose creation failed never comes to exist. -/
  failed : ∀ bs cs e,as=bs++cs → e∈issuedAlong bs w →
    e∉World.pending (runAll Action.step bs w) →
    World.entityExists (runAll Action.step bs w) e=false →
    World.entityExists (runAll Action.step as w) e=false

omit [Inhabited V] in
/-- Applying a create whose slot carries the version of its handle is safe. -/
theorem handleSafe_create {i : ℕ} (thread : ℕ) (val : Bundle V) (slot : EntitySpec)
    (hf : World.front w i=some (.create thread e val))
    (hs : w.entityAllocator.entities[e.idx]?=some slot) (hv : slot.version=e.version) :
    HandleSafe (.applyCmd i) w := by
  refine ⟨fun thread' e' hd => ?_,?_⟩
  · rw [hf] at hd
    cases hd
  · rintro j thread' e' val' ⟨⟩ hd -
    rw [hf] at hd
    cases hd
    exact ⟨slot,hs,hv⟩

/-- Along a run whose steps are all safe, no handle is issued twice. -/
theorem handles_unique (runtime : Runtime) (as : List (Action V))
    (hs : Along Action.step HandleSafe as (World.new runtime)) :
    HandlesUnique as (World.new runtime) where
  distinct := by
    exact (Issued.run (runInv_new False runtime) (issued_none _) hs).distinct
  destroyed := by
    rintro bs cs ds e rfl hbefore hafter
    obtain ⟨hb,hcd⟩ := along_append.mp (safe_proper hs)
    obtain ⟨hc,hd⟩ := along_append.mp hcd
    have h₁ := runInv_run (runInv_new False runtime) hb
    have h₂ := runInv_run h₁ hc
    obtain ⟨hsp,hr⟩ := exists_left h₁ hbefore
    obtain ⟨hsp',hr'⟩ := left_along h₁ hsp hr hc
    rw [runAll_append] at hafter
    have hgone := gone_along h₂ ⟨not_exists_iff.mp hafter,hr',hsp'⟩ hd
    rw [runAll_append,runAll_append]
    exact not_exists_iff.mpr hgone.1
  failed := by
    rintro bs cs e rfl hm hp hnot
    obtain ⟨hb,hc⟩ := along_append.mp hs
    have h₁ := runInv_run (runInv_new False runtime) (safe_proper hb)
    have hi := Issued.run (runInv_new False runtime) (issued_none _) hb
    rw [List.nil_append] at hi
    have hr : e∉World.reserved (runAll Action.step bs (World.new runtime)) := by
      intro hm'
      rcases List.mem_append.mp ((reserved_split _).mem_iff.mp hm') with hm' | hm'
      · exact hi.handed e hm hm'
      · exact hp hm'
    have hgone := gone_along h₁ ⟨not_exists_iff.mp hnot,hr,hi.spent e hm⟩ (safe_proper hc)
    rw [runAll_append]
    exact not_exists_iff.mpr hgone.1

end Issuing

section Reissue

/-- A queued create on a slot that was never used. -/
def queuedRun : List (Action ℕ) := [
  .setInParallelCompute true,
  .cmd .returning 0 (.create (.single (plain 0) 3)),
  .applyCmd 0]

set_option maxRecDepth 20000 in
/-- Handles are queued, held ahead, attached and given back. -/
theorem queuedRun_unique : HandlesUnique queuedRun (World.new inOrder) := by
  refine handles_unique inOrder queuedRun ⟨⟨trivial,?_⟩,⟨trivial,?_⟩,?_,trivial⟩
  · rintro i thread e val ⟨⟩
  · rintro i thread e val ⟨⟩
  · exact handleSafe_create 0 (.single (plain 0) 3) ⟨0,0,0,1,false⟩ (e:=handle 0 1)
      (by decide +kernel) (by decide +kernel) (by decide +kernel)

/-- A queued create of an occupied singleton on a slot that was used before,
followed by a create that takes the slot again. -/
def reissueRun : List (Action ℕ) := [
  .world .returning (.createSingleton (.single (plain 0) 1)),
  .world .returning (.create (.single (plain 1) 2)),
  .world .returning (.destroy (handle 1 1)),
  .setInParallelCompute true,
  .cmd .returning 0 (.create (.single (plain 0) 3)),
  .setInParallelCompute false,
  .applyCmd 0,
  .world .returning (.create (.single (plain 1) 4))]

set_option maxRecDepth 20000 in
/-- The handle of the refused create comes out again. -/
theorem reissueRun_twice : ¬HandlesUnique reissueRun (World.new inOrder) := by
  intro h
  have hn := h.distinct
  revert hn
  decide +kernel

end Reissue

end XynokEcs.HandleIssue
