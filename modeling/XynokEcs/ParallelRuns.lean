import XynokEcs.ParallelGroups
import XynokEcs.Interleavings
import XynokEcs.CellEdits

/-!
# The jobs of a group in any order

A running system builds its parameters, looks at components, goes on with what it
saw, writes and issues commands. Where its group was accepted and it keeps to
what its parameters grant, no other job of the group sees or disturbs what it
does. So all schedules that let every job finish leave the same rows and the same
jobs, each having done the same things, as running the systems one by one does.
Only the queues of the workers may differ.
-/

namespace XynokEcs.ParallelRuns

open ComponentTypes EntityHandle SequenceValueMap ChunkLayouts FaultingState ChunkRows RowWrites
  ArchetypeStore EntityAllocation QueryShapes WorldState WorldCalls CommandBuffer RegistryInvariants
  StoreInvariants ItemWrites ItemEffects QueryAccess QuerySources WorkerQueues ActionRuns WorldRuns ActionEffects
  WorldGrowth QueryMatches SingletonEntities Scheduling ParallelGroups Interleavings CellEdits

variable {V S : Type}

section Codes

/-- What the function of a system does, going on with what it was given and saw.
It goes on without the handle that a queued create gives it. -/
inductive SystemCode (V : Type)
  | done
  | init (p : SystemParam) (next : ParamValue → SystemCode V)
  | look (l : RowLoc) (t : StorageType) (next : Option (ComponentData V) → SystemCode V)
  | act (a : SystemAction V) (next : SystemCode V)
  | setLastRunTick

/-- Build the parameters in order and go on with all of them. -/
def initParams : List SystemParam → (List ParamValue → SystemCode V) → SystemCode V
  | [],body => body []
  | p::params,body => .init p fun v => initParams params fun vs => body (v::vs)

/-- A system that runs: what it has still to do, what it did and the panics it ended in. -/
structure SystemRun (V : Type) where
  /-- The system. -/
  fn : SystemFn
  /-- Its place among the systems. -/
  slot : ℕ
  /-- The thread it runs on. -/
  thread : ℕ
  /-- What it has still to do. -/
  code : SystemCode V
  /-- What it did. -/
  acted : List (SystemAction V)
  /-- The panics it ended in. -/
  faults : List RunFault

variable [Inhabited V]

/-- A running system takes one turn. A panic ends it. -/
def SystemRun.turn (thisRun : ChangedTick) (run : SystemRun V) (s : Scheduler V) :
    SystemRun V×Scheduler V :=
  match run.code with
  | .done => (run,s)
  | .init p next => match p.init (s.lastRunTick run.slot) s.world with
    | .ok v => ({ run with code := next v },s)
    | .error e => ({ run with code := .done, faults := [.init e] },s)
  | .look l t next => ({ run with code := next (World.componentAt s.world l t) },s)
  | .act a next => match (Instr.act a).exec thisRun run.slot run.thread s with
    | (.ok _,s') => ({ run with code := next, acted := run.acted++[a] },s')
    | (.error faults,s') =>
      ({ run with code := .done, acted := run.acted++[a], faults := faults },s')
  | .setLastRunTick =>
    ({ run with code := .done },((Instr.setLastRunTick : Instr V).exec thisRun run.slot run.thread s).2)

end Codes

section Grants

variable {w : World V} {f g : SystemFn} {l : RowLoc} {t : StorageType}

/-- A parameter of the system touches the component, on an archetype it iterates. -/
def Grants (w : World V) (f : SystemFn) (k : Access) (l : RowLoc) (t : StorageType) : Prop :=
  ∃ p∈f.places,(k,t)∈p ∧ ∃ spec,w.archetypes.valueAt l.archId=some spec ∧
    Carries {t | t∈spec.layout.componentColDescriptors} p

/-- What a system may do: write what it holds mutably, and issue commands. A create
that raises would panic or not by who took the last handle. -/
def Allowed (w : World V) (f : SystemFn) : SystemAction V → Prop
  | .cmd form call => form=.returning ∨ ∀ val,call≠.create val
  | .write l t _ => Grants w f .write l t
  | .panic _ => True

/-- A system keeps to what its parameters grant, whatever it is given and sees. -/
def SystemCode.Within (w : World V) (f : SystemFn) : SystemCode V → Prop
  | .done => True
  | .init _ next => ∀ v,SystemCode.Within w f (next v)
  | .look l t next => (Grants w f .read l t ∨ Grants w f .write l t) ∧
    ∀ x,SystemCode.Within w f (next x)
  | .act a next => Allowed w f a ∧ SystemCode.Within w f next
  | .setLastRunTick => True

/-- What one system writes the other does not touch. -/
def Unshared (w : World V) (f g : SystemFn) : Prop :=
  ∀ l t,Grants w f .write l t → ¬Grants w g .read l t ∧ ¬Grants w g .write l t

/-- Two jobs that cannot see each other. -/
structure Apart (w : World V) (p q : SystemRun V) : Prop where
  /-- They are two systems. -/
  slots : p.slot≠q.slot
  /-- The first writes nothing that the second touches. -/
  left : Unshared w p.fn q.fn
  /-- The second writes nothing that the first touches. -/
  right : Unshared w q.fn p.fn

/-- Parameters that never alias grant nothing that is shared. -/
theorem unshared_of_neverAlias (h : ∀ p∈f.places,∀ q∈g.places,NeverAlias p q) : Unshared w f g := by
  intro l t hw
  obtain ⟨p,hp,hpt,spec,hv,hcp⟩ := hw
  have hno : ∀ k : Access,k=.read ∨ k=.write → ¬Grants w g k l t := by
    intro k hk hg
    obtain ⟨q,hq,hqt,spec',hv',hcq⟩ := hg
    cases hv.symm.trans hv'
    refine h p hp q hq _ hcp hcq _ hpt _ hqt ⟨rfl,?_⟩
    cases hk with
    | inl hk => exact .inr (.inl ⟨rfl,hk⟩)
    | inr hk => exact .inr (.inr ⟨rfl,hk⟩)
  exact ⟨hno .read (.inl rfl),hno .write (.inr rfl)⟩

/-- Parameters keep clear of each other both ways. -/
theorem neverAlias_symm {p q : Places} (h : NeverAlias p q) : NeverAlias q p :=
  fun arch hq hp b hb a ha hc => h arch hp hq a ha b hb hc.symm

/-- On an archetype it matches, a query grants its system what its shape names. -/
theorem grants_of_matches {q : QueryShape Component} {spec : ArchetypeSpec V} {k : Access}
    {c : Component} (hq : .query q∈f.params) (hv : w.archetypes.valueAt l.archId=some spec)
    (hm : Matches q spec.layout) (hk : (k,c)∈QueryShape.accesses q) :
    Grants w f k l c.storageType := by
  have hplaces : storedAccesses (QueryShape.accesses q)∈f.places :=
    List.mem_filterMap.mpr ⟨.query q,hq,rfl⟩
  have hmem : (k,c.storageType)∈storedAccesses (QueryShape.accesses q) :=
    List.mem_map.mpr ⟨(k,c),hk,rfl⟩
  exact ⟨_,hplaces,hmem,spec,hv,matches_iff_carries.mp hm⟩

/-- The archetypes that a query of the system iterates are granted to it. -/
theorem grants_of_accessor {q : QueryShape Component} {lastRunTick : ChangedTick}
    {accessor : QuerySpecAccessor} {idxs : List ℕ} {k : Access} {c : Component} (h : CoreInv w)
    (hq : .query q∈f.params) (ha : querySrcAccess q lastRunTick w=some accessor)
    (hi : accessor.archIndices w=some idxs) (hl : l.archId∈idxs) (hk : (k,c)∈QueryShape.accesses q) :
    Grants w f k l c.storageType := by
  obtain ⟨idxs',hi',hexact⟩ := accessor_exact h ha
  cases hi.symm.trans hi'
  obtain ⟨spec,hv,hm⟩ := (hexact.mem l.archId).mp hl
  exact grants_of_matches hq hv hm hk

end Grants

section States

/-- The world without queues, slots and dropped values. -/
def World.settled (w : World V) : World V :=
  { w with workerSpecs := .empty, entityAllocator := .new, dropped := [] }

/-- The same systems with the same ticks over the same rows. -/
def Same (s t : Scheduler V) : Prop := s.systems=t.systems ∧ World.settled s.world=World.settled t.world

/-- Sameness is an equivalence. -/
theorem same_equivalence : Equivalence (Same : Scheduler V → Scheduler V → Prop) where
  refl _ := ⟨rfl,rfl⟩
  symm h := ⟨h.1.symm,h.2.symm⟩
  trans h h' := ⟨h.1.trans h'.1,h.2.trans h'.2⟩

/-- A job of a group runs with commands queued. -/
structure Fine (s : Scheduler V) : Prop where
  /-- The world is in order. -/
  core : CoreInv s.world
  /-- Commands are queued. -/
  parallel : s.world.inParallelCompute=true

variable {s s' : Scheduler V} {w w' : World V}

/-- Worlds that have settled alike have the same archetypes. -/
theorem settled_archetypes (h : World.settled w=World.settled w') : w.archetypes=w'.archetypes := by
  have ha := congrArg (fun w : World V => w.archetypes) h
  exact ha

/-- So they have the same components at each place. -/
theorem settled_componentAt (h : World.settled w=World.settled w') (l : RowLoc) (t : StorageType) :
    World.componentAt w l t=World.componentAt w' l t := by
  unfold World.componentAt World.row
  rw [settled_archetypes h]

/-- Building a parameter looks at what is settled only. -/
theorem init_settled (p : SystemParam) (lastRunTick : ChangedTick) (w : World V) :
    p.init lastRunTick (World.settled w)=p.init lastRunTick w := by
  cases p <;> rfl

/-- An archetype as a singleton parameter sees it. -/
theorem bare_editCell (ix : EntityInChunkIndices) (t : StorageType) (tick : ChangedTick)
    (write : ItemWrite V) (spec : ArchetypeSpec V) :
    ArchetypeSpec.bare (ArchetypeSpec.editCell ix t tick write spec)=ArchetypeSpec.bare spec := by
  have hchunk : ∀ c : Chunk V,((Chunk.editCell spec.layout ix.idxInChunk t tick write c).len,
      (Chunk.editCell spec.layout ix.idxInChunk t tick write c).maxLen,
      (Chunk.editCell spec.layout ix.idxInChunk t tick write c).entities,
      (Chunk.editCell spec.layout ix.idxInChunk t tick write c).dropped)=
        (c.len,c.maxLen,c.entities,c.dropped) := by
    intro c
    unfold Chunk.editCell
    split <;> rfl
  have hchunks : (spec.arch.chunks.modify ix.chunkIdx
      (Chunk.editCell spec.layout ix.idxInChunk t tick write)).map
      (fun c => (c.len,c.maxLen,c.entities,c.dropped))=
        spec.arch.chunks.map fun c => (c.len,c.maxLen,c.entities,c.dropped) := by
    cases hc : spec.arch.chunks[ix.chunkIdx]? with
    | none => rw [List.modify_eq_self (List.getElem?_eq_none_iff.mp hc)]
    | some c => exact map_modify hc (hchunk c)
  unfold ArchetypeSpec.bare
  refine Prod.ext rfl (Prod.ext rfl (Prod.ext rfl (Prod.ext ?_ rfl)))
  exact hchunks

/-- Editing a cell leaves everything but cells. -/
theorem get_editCell (l : RowLoc) (t : StorageType) (tick : ChangedTick) (write : ItemWrite V) (k : ℕ) :
    ((World.editCell w l t tick write).archetypes.get k).map ArchetypeSpec.bare=
      (w.archetypes.get k).map ArchetypeSpec.bare := by
  unfold SequenceValueHashMap.get World.editCell
  dsimp only
  rw [SequenceValueHashMap.indexOf_modifyAt]
  cases w.archetypes.indexOf k with
  | none => rfl
  | some i =>
    rw [Option.bind_some,Option.bind_some,SequenceValueHashMap.valueAt_modifyAt]
    split
    · cases w.archetypes.valueAt i with
      | none => rfl
      | some spec => exact congrArg some (bare_editCell _ _ _ _ _)
    · rfl

/-- The lengths of chunks do not show the cells. -/
theorem bare_len {spec spec' : ArchetypeSpec V} (hb : ArchetypeSpec.bare spec'=ArchetypeSpec.bare spec)
    (k : ℕ) : (spec'.arch.chunks[k]?).map Chunk.len=(spec.arch.chunks[k]?).map Chunk.len := by
  have hmap := congrArg (fun b => ((b.2.2.2.1)[k]?).map Prod.fst) hb
  dsimp only [ArchetypeSpec.bare] at hmap
  rw [List.getElem?_map,List.getElem?_map,Option.map_map,Option.map_map] at hmap
  exact hmap

/-- A singleton parameter looks at its archetype without its cells. -/
theorem singletonNew_bare (c : Component) (lastRunTick : ChangedTick)
    (hg : ∀ k,(w'.archetypes.get k).map ArchetypeSpec.bare=(w.archetypes.get k).map ArchetypeSpec.bare)
    (hc : w'.archetypeCounter=w.archetypeCounter) (ht : w'.tick=w.tick) :
    Singleton.new c lastRunTick w'=Singleton.new c lastRunTick w := by
  unfold Singleton.new singletonArchetypeSpec
  rw [hc,ht]
  cases w.archetypeCounter.lookup (.single c) with
  | none => rfl
  | some archId =>
    have hbare := hg archId
    dsimp only
    cases hs : w.archetypes.get archId with
    | none =>
      rw [hs,Option.map_none,Option.map_eq_none_iff] at hbare
      rw [hbare]
    | some spec =>
      rw [hs,Option.map_some] at hbare
      obtain ⟨spec',hs',hb⟩ := Option.map_eq_some_iff.mp hbare
      have hname : spec'.name=spec.name := congrArg Prod.fst hb
      have hlayout : spec'.layout=spec.layout := congrArg (fun b => b.2.1) hb
      have hsingle : spec'.arch.isSingleton=spec.arch.isSingleton :=
        congrArg (fun b => b.2.2.2.2.2.2) hb
      have hlen := bare_len hb 0
      rw [hs']
      dsimp only
      rw [hsingle,hname]
      split
      · rfl
      · dsimp only [bind,Except.bind]
        rw [hlayout]
        cases hk : spec.arch.chunks[0]? with
        | none =>
          rw [hk,Option.map_none,Option.map_eq_none_iff] at hlen
          rw [hlen]
        | some c₀ =>
          rw [hk,Option.map_some] at hlen
          obtain ⟨c₁,hc₁,hlen₁⟩ := Option.map_eq_some_iff.mp hlen
          rw [hc₁]
          dsimp only
          rw [hlen₁]

/-- Building a parameter looks at no cell. -/
theorem init_editCell (p : SystemParam) (lastRunTick : ChangedTick) (l : RowLoc) (t : StorageType)
    (tick : ChangedTick) (write : ItemWrite V) :
    p.init lastRunTick (World.editCell w l t tick write)=p.init lastRunTick w := by
  cases p with
  | query q => rfl
  | singleton c =>
    exact congrArg (Except.map ParamValue.singleton)
      (singletonNew_bare c.component lastRunTick (get_editCell l t tick write) rfl rfl)
  | cmd => rfl
  | unit => rfl

/-- How a write ends, by the layout and the chunk length it meets. -/
theorem writeItem_ends {l : RowLoc} {t : StorageType} {write : ItemWrite V} {spec : ArchetypeSpec V}
    (hs : w.archetypes.get l.archId=some spec) : (writeItem l t write w).1=
      ((spec.arch.chunks[l.indices.chunkIdx]?).map Chunk.len).elim (.error .undefinedBehaviour) fun len =>
        if l.indices.idxInChunk<len ∧ write.reaches spec.layout t=true then .ok ()
        else .error .undefinedBehaviour := by
  have hget : getArchetype l.archId w=(.ok spec,w) := by
    unfold getArchetype
    rw [getState_bind,hs]
    rfl
  have hchunk : (writeItem l t write w).1=(onChunk l.indices.chunkIdx
      (writeCell spec.layout l.indices.idxInChunk t w.tick write) spec.arch).1 := by
    unfold writeItem writeThrough onArchetype
    rw [getState_bind,bind_ok hget]
    unfold focus
    dsimp only
    rw [hs,Option.map_some]
  rw [hchunk]
  cases hc : spec.arch.chunks[l.indices.chunkIdx]? with
  | none =>
    have hrun : onChunk l.indices.chunkIdx (writeCell spec.layout l.indices.idxInChunk t w.tick write)
        spec.arch=(.error .undefinedBehaviour,spec.arch) := focus_missing hc
    rw [hrun]
    rfl
  | some c =>
    cases hw : writeCell spec.layout l.indices.idxInChunk t w.tick write c with
    | mk r c' =>
      have hr : (writeCell spec.layout l.indices.idxInChunk t w.tick write c).1=r := congrArg Prod.fst hw
      rw [onChunk_eq hc hw,Option.map_some,Option.elim_some,←hr]
      unfold writeCell
      split <;> rfl

/-- Whether a write is carried out shows in its archetype without the cells. -/
theorem writeItem_bare (l : RowLoc) (t : StorageType) (write : ItemWrite V)
    (hg : (w'.archetypes.get l.archId).map ArchetypeSpec.bare=
      (w.archetypes.get l.archId).map ArchetypeSpec.bare) :
    (writeItem l t write w').1=(writeItem l t write w).1 := by
  have hnone : ∀ w : World V,w.archetypes.get l.archId=none →
      (writeItem l t write w).1=.error (.panic .unwrapFailed) := by
    intro w hs
    have hget : getArchetype l.archId w=(.error (.panic .unwrapFailed),w) := by
      unfold getArchetype
      rw [getState_bind,hs]
      rfl
    unfold writeItem writeThrough onArchetype
    rw [getState_bind,bind_error hget]
  cases hs : w.archetypes.get l.archId with
  | none =>
    rw [hs,Option.map_none,Option.map_eq_none_iff] at hg
    rw [hnone w' hg,hnone w hs]
  | some spec =>
    rw [hs,Option.map_some] at hg
    obtain ⟨spec',hs',hb⟩ := Option.map_eq_some_iff.mp hg
    have hlayout : spec'.layout=spec.layout := congrArg (fun b => b.2.1) hb
    rw [writeItem_ends hs',writeItem_ends hs,bare_len hb,hlayout]

end States

section Effects

/-- What a turn does to rows and ticks. -/
inductive Effect (V : Type)
  | none
  | write (l : RowLoc) (t : StorageType) (itemWrite : ItemWrite V)
  | record (slot : ℕ)

def Effect.apply (thisRun : ChangedTick) (s : Scheduler V) : Effect V → Scheduler V
  | .none => s
  | .write l t itemWrite =>
    { s with world := World.editCell s.world l t s.world.tick itemWrite }
  | .record slot => { s with
      systems := s.systems.modify slot fun system => { system with lastRunTick := thisRun } }

/-- The effect of the next turn of a system. -/
def SystemRun.effect (run : SystemRun V) : Effect V :=
  match run.code with
  | .act (.write l t itemWrite) _ => .write l t itemWrite
  | .setLastRunTick => .record run.slot
  | _ => .none

/-- The next turn goes on alike from both states. -/
def Sees (run : SystemRun V) (s s' : Scheduler V) : Prop :=
  match run.code with
  | .init p _ => p.init (s.lastRunTick run.slot) s.world=p.init (s'.lastRunTick run.slot) s'.world
  | .look l t _ => World.componentAt s.world l t=World.componentAt s'.world l t
  | .act (.write l t itemWrite) _ => (writeItem l t itemWrite s.world).1=(writeItem l t itemWrite s'.world).1
  | _ => True

variable {thisRun : ChangedTick} {w : World V} {s s' : Scheduler V} {p q run : SystemRun V}

/-- The world looks the same to an effect, and after it. -/
theorem apply_same (e : Effect V) (h : Same s s') : Same (e.apply thisRun s) (e.apply thisRun s') := by
  cases e with
  | none => exact h
  | record slot => exact ⟨by simp only [Effect.apply,h.1],h.2⟩
  | write l t itemWrite =>
    have htick : s.world.tick=s'.world.tick := by
      have ht := congrArg (fun w : World V => w.tick) h.2
      exact ht
    have hedit := congrArg (fun w => World.editCell w l t s.world.tick itemWrite) h.2
    refine ⟨h.1,?_⟩
    dsimp only [Effect.apply]
    rw [←htick]
    exact hedit

/-- A write is one that the system was granted. -/
theorem effect_granted (hg : run.code.Within w run.fn) {l : RowLoc} {t : StorageType}
    {itemWrite : ItemWrite V} (he : run.effect=.write l t itemWrite) : Grants w run.fn .write l t := by
  unfold SystemRun.effect at he
  split at he
  · rename_i hc
    rw [hc] at hg
    cases he
    exact hg.1
  · cases he
  · cases he

/-- A system does not tell apart states that are the same. -/
theorem sees_same (h : Same s s') : Sees run s s' := by
  unfold Sees
  split
  · rename_i p next hc
    have hticks : s.lastRunTick run.slot=s'.lastRunTick run.slot := by
      unfold Scheduler.lastRunTick
      rw [h.1]
    rw [hticks,←init_settled,h.2,init_settled]
  · exact settled_componentAt h.2 _ _
  · refine writeItem_bare _ _ _ ?_
    rw [settled_archetypes h.2]
  · trivial

/-- What it does not tell apart twice it does not tell apart. -/
theorem Sees.trans {s'' : Scheduler V} (h : Sees run s s') (h' : Sees run s' s'') :
    Sees run s s'' := by
  unfold Sees at h h' ⊢
  split
  · rename_i hc
    rw [hc] at h h'
    exact Eq.trans h h'
  · rename_i hc
    rw [hc] at h h'
    exact Eq.trans h h'
  · rename_i hc
    rw [hc] at h h'
    exact Eq.trans h h'
  · trivial

/-- No system sees what another one does that is apart from it. -/
theorem sees_effect (hp : p.code.Within w p.fn) (hq : q.code.Within w q.fn) (ha : Apart w p q) :
    Sees q (p.effect.apply thisRun s) s := by
  cases he : p.effect with
  | none => exact sees_same (same_equivalence.refl s)
  | record slot =>
    have hslot : slot=p.slot := by
      unfold SystemRun.effect at he
      split at he <;> cases he
      rfl
    have hticks : (Effect.apply thisRun s (.record slot)).lastRunTick q.slot=s.lastRunTick q.slot := by
      unfold Scheduler.lastRunTick Effect.apply
      dsimp only
      rw [List.getElem?_modify_ne _ _ (hslot ▸ ha.slots)]
    unfold Sees
    split
    · rw [hticks]
      rfl
    · rfl
    · rfl
    · trivial
  | write l t itemWrite =>
    have hgrant := effect_granted hp he
    unfold Sees
    split
    · exact init_editCell _ _ l t _ _
    · rename_i l' t' next hc
      rw [hc] at hq
      refine componentAt_editCell fun hl ht => ?_
      subst hl
      subst ht
      exact hq.1.elim (ha.left _ _ hgrant).1 (ha.left _ _ hgrant).2
    · exact writeItem_bare _ _ _ (get_editCell _ _ _ _ _)
    · trivial

/-- What systems do that are apart commutes. -/
theorem effects_comm (hp : p.code.Within w p.fn) (hq : q.code.Within w q.fn) (ha : Apart w p q) :
    q.effect.apply thisRun (p.effect.apply thisRun s)=p.effect.apply thisRun (q.effect.apply thisRun s) := by
  have hrecord : ∀ {run : SystemRun V} {slot : ℕ},run.effect=.record slot → slot=run.slot := by
    intro run slot he
    unfold SystemRun.effect at he
    split at he <;> cases he
    rfl
  cases hep : p.effect with
  | none => rfl
  | record slot => cases heq : q.effect with
    | none => rfl
    | write l t itemWrite => rfl
    | record slot' =>
      have hne : slot≠slot' := by
        rw [hrecord hep,hrecord heq]
        exact ha.slots
      dsimp only [Effect.apply]
      rw [List.modify_modify_ne _ _ _ hne]
  | write l t itemWrite => cases heq : q.effect with
    | none => rfl
    | record slot => rfl
    | write l' t' itemWrite' =>
      have hgrant := effect_granted hp hep
      have hgrant' := effect_granted hq heq
      have hne : l'=l → t'≠t := by
        intro hl ht
        rw [hl,ht] at hgrant'
        exact (ha.left _ _ hgrant).2 hgrant'
      dsimp only [Effect.apply]
      rw [editCell_comm hne]
      rfl

variable [Inhabited V]

/-- A command other than a create is queued without fail. -/
theorem queued_ok {call : CmdCall V} (thread : ℕ) (hn : ∀ val,call≠.create val)
    (hp : w.inParallelCompute=true) : ∃ out w',call.perform thread .returning w=(.ok out,w') := by
  have hcond : ¬((!w.inParallelCompute)=true) := by rw [hp]; exact Bool.false_ne_true
  have hpush : ∀ cmd : CmdBuffer V,∃ w₁ w',warmUp thread w=(.ok (),w₁) ∧
      pushCmd thread cmd w₁=(.ok (),w') := by
    intro cmd
    obtain ⟨w₁,hrun,-,-,-,-,i,s,hi,hs⟩ := warmUp_spec thread w
    exact ⟨w₁,_,hrun,onWorker_eq hi hs rfl⟩
  have hboth : ∀ cmd : CmdBuffer V,∃ w',(do warmUp thread; pushCmd thread cmd) w=(.ok (),w') := by
    intro cmd
    obtain ⟨w₁,w',hrun₁,hrun₂⟩ := hpush cmd
    exact ⟨w',(bind_ok hrun₁).trans hrun₂⟩
  have hconsume : ∀ (val : Bundle V) (cmd : CmdBuffer V),
      ∃ w',consuming val (do warmUp thread; pushCmd thread cmd) w=(.ok (),w') := by
    intro val cmd
    obtain ⟨w',hrun⟩ := hboth cmd
    refine ⟨w',?_⟩
    unfold consuming onFault
    rw [hrun]
  cases call with
  | create val => exact absurd rfl (hn val)
  | addComponent e val =>
    obtain ⟨w',hrun⟩ := hconsume val (.addComponent thread e val)
    have hcmd : Cmd.tryAddComponent thread e val w=(.ok (),w') := by
      unfold Cmd.tryAddComponent
      rw [getState_bind,if_neg hcond]
      exact hrun
    exact ⟨.done,w',bind_ok hcmd⟩
  | mergeComponent e val =>
    obtain ⟨w',hrun⟩ := hconsume val (.mergeComponent thread e val)
    have hcmd : Cmd.tryMergeComponent thread e val w=(.ok (),w') := by
      unfold Cmd.tryMergeComponent
      rw [getState_bind,if_neg hcond]
      exact hrun
    exact ⟨.done,w',bind_ok hcmd⟩
  | removeComponent T e =>
    obtain ⟨w₁,w',hrun₁,hrun₂⟩ := hpush (.removeComponent thread T e)
    have hrun : Cmd.tryRemoveComponent thread T e w=(.ok none,w') := by
      unfold Cmd.tryRemoveComponent
      rw [getState_bind,if_neg hcond,bind_ok hrun₁,bind_ok hrun₂]
      rfl
    exact ⟨.done,w',bind_ok hrun⟩
  | destroy e =>
    obtain ⟨w',hrun⟩ := hboth (.destroy thread e)
    have hcmd : Cmd.tryDestroy thread e w=(.ok (),w') := by
      unfold Cmd.tryDestroy
      rw [getState_bind,if_neg hcond]
      exact hrun
    exact ⟨.done,w',bind_ok hcmd⟩

/-- A queued command other than a raising create does not end its system. -/
theorem queuedCmd_ok {form : CallForm} {call : CmdCall V} (thread : ℕ)
    (ha : form=.returning ∨ ∀ val,call≠.create val) (hp : w.inParallelCompute=true) :
    endedBy form (call.perform thread form w).1=.ok () := by
  cases form with
  | returning => rfl
  | raising =>
    have hn : ∀ val,call≠.create val := ha.resolve_left (by simp)
    obtain ⟨out,w',hrun⟩ := queued_ok thread hn hp
    obtain ⟨g,hg⟩ := CmdCall.perform_raising thread call
    rw [hg]
    unfold mapFault
    rw [hrun]
    rfl

/-- What a command does that is queued. -/
theorem exec_cmd {form : CallForm} {call : CmdCall V} (ha : form=.returning ∨ ∀ val,call≠.create val)
    (hf : Fine s) (slot thread : ℕ) : ∃ w',
    (Instr.act (.cmd form call)).exec thisRun slot thread s=(.ok (),{ s with world := w' }) ∧
      World.settled w'=World.settled s.world := by
  have hok := queuedCmd_ok thread ha hf.parallel
  have hfix := fixes_queued (g:=World.settled) (fun _ _ _ _ => rfl) call thread form hf.parallel
  refine ⟨(call.perform thread form s.world).2,?_,hfix⟩
  change onWorld .body ((SystemAction.cmd form call).perform thread) s=_
  unfold onWorld SystemAction.perform
  dsimp only
  rw [hok]

/-- What a write does. -/
theorem exec_write (l : RowLoc) (t : StorageType) (itemWrite : ItemWrite V) (hf : Fine s)
    (slot thread : ℕ) : (Instr.act (.write l t itemWrite)).exec thisRun slot thread s=
      ((writeItem l t itemWrite s.world).1.mapError fun e => [.body e],
        { s with world := World.editCell s.world l t s.world.tick itemWrite }) := by
  rw [←writeItem_edits hf.core.registry]
  change onWorld .body (writeItem l t itemWrite) s=_
  unfold onWorld
  cases writeItem l t itemWrite s.world with
  | mk r w' => cases r <;> rfl

/-- What a turn leaves, but for the queues. -/
theorem turn_effect (hg : run.code.Within w run.fn) (hf : Fine s) :
    Same (run.turn thisRun s).2 (run.effect.apply thisRun s) := by
  unfold SystemRun.turn SystemRun.effect
  cases hc : run.code with
  | done => exact same_equivalence.refl _
  | look l t next => exact same_equivalence.refl _
  | setLastRunTick => exact same_equivalence.refl _
  | init p next =>
    dsimp only
    split <;> exact same_equivalence.refl _
  | act a next =>
    rw [hc] at hg
    cases a with
    | cmd form call =>
      obtain ⟨w',hrun,hw'⟩ := exec_cmd hg.1 hf run.slot run.thread
      dsimp only
      rw [hrun]
      exact ⟨rfl,hw'⟩
    | write l t itemWrite =>
      dsimp only
      rw [exec_write l t itemWrite hf]
      cases (writeItem l t itemWrite s.world).1 <;> exact same_equivalence.refl _
    | panic p => exact same_equivalence.refl _

/-- A turn goes on as the state looks to it. -/
theorem turn_sees (hg : run.code.Within w run.fn) (hf : Fine s) (hf' : Fine s') (h : Sees run s s') :
    (run.turn thisRun s).1=(run.turn thisRun s').1 := by
  unfold Sees at h
  unfold SystemRun.turn
  cases hc : run.code with
  | done => rfl
  | setLastRunTick => rfl
  | look l t next =>
    rw [hc] at h
    dsimp only at h ⊢
    rw [h]
  | init p next =>
    rw [hc] at h
    dsimp only at h ⊢
    rw [h]
    split <;> rfl
  | act a next =>
    rw [hc] at hg h
    cases a with
    | cmd form call =>
      obtain ⟨w₁,hrun,-⟩ := exec_cmd hg.1 hf run.slot run.thread
      obtain ⟨w₂,hrun',-⟩ := exec_cmd hg.1 hf' run.slot run.thread
      dsimp only
      rw [hrun,hrun']
    | write l t itemWrite =>
      dsimp only at h ⊢
      rw [exec_write l t itemWrite hf,exec_write l t itemWrite hf',h]
      cases (writeItem l t itemWrite s'.world).1 <;> rfl
    | panic p => rfl

end Effects

section Jobs

variable [Inhabited V] {thisRun : ChangedTick} {w : World V} {s s' : Scheduler V} {p q run : SystemRun V}

/-- A turn keeps who the system is. -/
theorem turn_kept : (run.turn thisRun s).1.fn=run.fn ∧ (run.turn thisRun s).1.slot=run.slot := by
  unfold SystemRun.turn
  split
  · exact ⟨rfl,rfl⟩
  · split <;> exact ⟨rfl,rfl⟩
  · exact ⟨rfl,rfl⟩
  · split <;> exact ⟨rfl,rfl⟩
  · exact ⟨rfl,rfl⟩

/-- What is left of a program keeps to what the program kept to. -/
theorem turn_within (hg : run.code.Within w run.fn) :
    (run.turn thisRun s).1.code.Within w (run.turn thisRun s).1.fn := by
  rw [turn_kept.1]
  unfold SystemRun.turn
  cases hc : run.code with
  | done =>
    dsimp only
    rw [hc]
    trivial
  | setLastRunTick => trivial
  | look l t next =>
    rw [hc] at hg
    exact hg.2 _
  | init p next =>
    rw [hc] at hg
    dsimp only
    split
    · exact hg _
    · trivial
  | act a next =>
    rw [hc] at hg
    dsimp only
    split
    · exact hg.2
    · trivial

/-- A turn leaves a fine state. -/
theorem turn_fine (hf : Fine s) : Fine (run.turn thisRun s).2 := by
  have hexec : ∀ instr : Instr V,Fine (instr.exec thisRun run.slot run.thread s).2 := by
    intro instr
    refine ⟨exec_core hf.core,?_⟩
    have hfrozen : World.frozen (instr.exec thisRun run.slot run.thread s).2.world=World.frozen s.world :=
      exec_frozen hf.parallel
    exact (congrArg Prod.snd hfrozen).trans hf.parallel
  unfold SystemRun.turn
  split
  · exact hf
  · split <;> exact hf
  · exact hf
  · rename_i a next hc
    have hact := hexec (.act a)
    split
    · rename_i hr
      rw [hr] at hact
      exact hact
    · rename_i hr
      rw [hr] at hact
      exact hact
  · exact hexec .setLastRunTick

/-- The jobs of a group that keep to what they are granted. -/
theorem commutes_jobs (thisRun : ChangedTick) (w : World V) :
    Commutes (SystemRun.turn thisRun) (fun run : SystemRun V => run.code.Within w run.fn) Fine (Apart w)
      Same where
  equiv := same_equivalence
  symm h := ⟨h.slots.symm,h.right,h.left⟩
  good_turn hg _ := turn_within hg
  fine_turn _ hf := turn_fine hf
  apart_turn h := by
    constructor
    · rw [turn_kept.2]
      exact h.slots
    · rw [turn_kept.1]
      exact h.left
    · rw [turn_kept.1]
      exact h.right
  congr := by
    intro p s t hg hf hf' hs
    refine ⟨turn_sees hg hf hf' (sees_same hs),?_⟩
    exact same_equivalence.trans (turn_effect hg hf) (same_equivalence.trans (apply_same _ hs)
      (same_equivalence.symm (turn_effect hg hf')))
  unseen := by
    intro p q s hp hq ha hf
    refine turn_sees hq (turn_fine hf) hf ?_
    exact (sees_same (turn_effect hp hf)).trans (sees_effect hp hq ha)
  swap := by
    intro p q s hp hq ha hf
    have hafter : ∀ {p q : SystemRun V},p.code.Within w p.fn → q.code.Within w q.fn →
        Same (q.turn thisRun (p.turn thisRun s).2).2 (q.effect.apply thisRun (p.effect.apply thisRun s)) :=
      fun hp hq => same_equivalence.trans (turn_effect hq (turn_fine hf)) (apply_same _ (turn_effect hp hf))
    have hpq := hafter hp hq
    rw [effects_comm hp hq ha] at hpq
    exact same_equivalence.trans hpq (same_equivalence.symm (hafter hq hp))

/-- A system that is done has no turn left. -/
theorem ended_of_done (h : run.code=.done) : Ended (SystemRun.turn thisRun) run := by
  intro s
  unfold SystemRun.turn
  rw [h]

/-- So its turns come to an end. -/
theorem acc_done (h : run.code=.done) : Acc (Follows (SystemRun.turn thisRun)) run :=
  .intro _ fun _ hf => absurd (ended_of_done h) hf.1

/-- A system ends, whatever it is given and sees. -/
theorem acc_job (code : SystemCode V) (h : run.code=code) :
    Acc (Follows (SystemRun.turn thisRun)) run := by
  induction code generalizing run with
  | done => exact acc_done h
  | setLastRunTick =>
    refine .intro _ fun run' hf => ?_
    obtain ⟨s,hs⟩ := hf.2
    refine acc_done ?_
    rw [hs,SystemRun.turn,h]
  | look l t next ih =>
    refine .intro _ fun run' hf => ?_
    obtain ⟨s,hs⟩ := hf.2
    refine ih (World.componentAt s.world l t) ?_
    rw [hs,SystemRun.turn,h]
  | init p next ih =>
    refine .intro _ fun run' hf => ?_
    obtain ⟨s,hs⟩ := hf.2
    rw [SystemRun.turn,h] at hs
    dsimp only at hs
    cases hv : p.init (s.lastRunTick run.slot) s.world with
    | ok v =>
      rw [hv] at hs
      refine ih v ?_
      rw [hs]
    | error e =>
      rw [hv] at hs
      refine acc_done ?_
      rw [hs]
  | act a next ih =>
    refine .intro _ fun run' hf => ?_
    obtain ⟨s,hs⟩ := hf.2
    rw [SystemRun.turn,h] at hs
    dsimp only at hs
    cases hr : (Instr.act a).exec thisRun run.slot run.thread s with
    | mk r s' => cases r with
      | ok u =>
        rw [hr] at hs
        refine ih ?_
        rw [hs]
      | error faults =>
        rw [hr] at hs
        refine acc_done ?_
        rw [hs]

omit [Inhabited V] in
/-- The jobs of an accepted group are apart. -/
theorem pool_jobs {group : List SystemFn} {runs : List (SystemRun V)} (ha : GroupApart group)
    (hf : Fine s) (hfn : runs.map SystemRun.fn=group) (hslots : (runs.map SystemRun.slot).Nodup)
    (hg : ∀ run∈runs,run.code.Within w run.fn) :
    Pool (fun run : SystemRun V => run.code.Within w run.fn) Fine (Apart w) (runs,s) := by
  have hpair : runs.Pairwise (Apart w) := by
    have hfns : runs.Pairwise fun p q => ∀ a∈p.fn.places,∀ b∈q.fn.places,NeverAlias a b :=
      List.pairwise_map.mp (hfn ▸ ha.pairs)
    refine (hfns.and (List.pairwise_map.mp hslots)).imp fun h => ⟨h.2,unshared_of_neverAlias h.1,?_⟩
    exact unshared_of_neverAlias fun b hb a ha => neverAlias_symm (h.1 a ha b hb)
  refine ⟨fun hk => hg _ (List.mem_of_getElem? hk),fun {j k p q} hjk hp hq => ?_,hf⟩
  obtain ⟨hj,hjp⟩ := List.getElem?_eq_some_iff.mp hp
  obtain ⟨hk,hkq⟩ := List.getElem?_eq_some_iff.mp hq
  have hget := List.pairwise_iff_getElem.mp hpair
  cases Nat.lt_or_gt_of_ne hjk with
  | inl hlt =>
    have h := hget j k hj hk hlt
    rw [hjp,hkq] at h
    exact h
  | inr hgt =>
    have h := hget k j hk hj hgt
    rw [hjp,hkq] at h
    exact ⟨h.slots.symm,h.right,h.left⟩

end Jobs

section Groups

variable [Inhabited V] [DecidableEq S]

/-- `run_system_group` up to the point where its jobs start. -/
def startGroup (slots : List ℕ) : Scheduled V ChangedTick := do
  let thisRun ← onWorld .body advanceTick
  prepareGroup slots
  setInParallelCompute true
  return thisRun

omit [Inhabited V] in
/-- The jobs of a group start with commands queued, in a world in order. -/
theorem startGroup_fine {slots : List ℕ} {s t : Scheduler V} {thisRun : ChangedTick}
    (h : CoreInv s.world) (hr : startGroup slots s=(.ok thisRun,t)) : Fine t := by
  have hrises : Rises (startGroup slots : Scheduled V ChangedTick) :=
    Rises.bind (Rises.onWorld Grows.advanceTick) fun _ => Rises.bind (rises_prepareGroup slots) fun _ =>
      Rises.bind (rises_setInParallelCompute true) fun _ => Rises.pure _
  have hcore := (hrises s h).1
  rw [hr] at hcore
  refine ⟨hcore,?_⟩
  unfold startGroup at hr
  cases h₁ : onWorld .body advanceTick s with
  | mk r s₁ => cases r with
    | error e =>
      rw [bind_error h₁] at hr
      cases hr
    | ok tick =>
      rw [bind_ok h₁] at hr
      cases h₂ : prepareGroup slots s₁ with
      | mk r s₂ => cases r with
        | error e =>
          rw [bind_error h₂] at hr
          cases hr
        | ok u =>
          rw [bind_ok h₂] at hr
          cases hr
          rfl

end Groups

section Samples

/-- One entity of three components. -/
def counted : List (ScheduleEvent ℕ ℕ) :=
  [.action (.world .returning (.create (.tuple (plain 0,1) [(plain 1,2),(plain 2,5)])))]

/-- A system that writes one component and reads the last one. -/
def copies (id : ℕ) : SystemFn :=
  ⟨id,[.query (.tuple [.column (.refMut (plain id)),.column (.ref (plain 2))])]⟩

def added : Schedule ℕ ℕ :=
  (addSystemParallel 0 [copies 0,copies 1] (runAll ScheduleEvent.step counted (Schedule.new inOrder))).2

def started : Scheduler ℕ := (startGroup [0,1] added.scheduler).2

/-- Copy what is in the last component, counted up. -/
def copying (id : ℕ) : SystemRun ℕ where
  fn := copies id
  slot := id
  thread := id
  code := initParams (copies id).params fun _ => .look ⟨0,0,0⟩ (plainType 2) fun x =>
    .act (.write ⟨0,0,0⟩ (plainType id) (.bypass (x.elim 0 fun d => d.value+1))) .setLastRunTick
  acted := []
  faults := []

/-- A computation with a result succeeded. -/
theorem ok_of_toOption {ε α σ : Type} {r : Except ε α×σ} {a : α} (h : r.1.toOption=some a) :
    r=(.ok a,r.2) := by
  cases r with
  | mk x s => cases x with
    | ok b =>
      cases h
      rfl
    | error e => cases h

set_option maxRecDepth 20000 in
/-- The group is accepted. -/
theorem added_eq : addSystemParallel 0 [copies 0,copies 1] (runAll ScheduleEvent.step counted
    (Schedule.new inOrder))=(.ok (),added) := ok_of_toOption (by decide +kernel)

set_option maxRecDepth 20000 in
/-- It starts at tick 2. -/
theorem started_eq : startGroup [0,1] added.scheduler=(.ok 2,started) :=
  ok_of_toOption (by decide +kernel)

set_option maxRecDepth 20000 in
/-- The programs keep to what their parameters grant. -/
theorem copying_within (id : ℕ) (h : id=0 ∨ id=1) : (copying id).code.Within started.world (copies id) := by
  let q : QueryShape Component := .tuple [.column (.refMut (plain id)),.column (.ref (plain 2))]
  have hmatch : ((started.world.archetypes.valueAt 0).map fun spec => decide (∀ p∈QueryShape.accesses q,
      p.2.storageType∈spec.layout.componentColDescriptors ↔ p.1≠.exclude))=some true := by
    cases h with
    | inl h =>
      subst h
      decide +kernel
    | inr h =>
      subst h
      decide +kernel
  obtain ⟨spec,hv,hm⟩ := Option.map_eq_some_iff.mp hmatch
  have hmatches : ∀ p∈QueryShape.accesses q,
      p.2.storageType∈spec.layout.componentColDescriptors ↔ p.1≠.exclude := of_decide_eq_true hm
  have hgrant : ∀ k c,(k,c)∈QueryShape.accesses q →
      Grants started.world (copies id) k ⟨0,0,0⟩ c.storageType :=
    fun k c hk => grants_of_matches (List.mem_singleton_self _) hv hmatches hk
  exact fun _ => ⟨.inl (hgrant .read (plain 2) (List.mem_cons_of_mem _ (List.mem_singleton_self _))),
    fun _ => ⟨hgrant .write (plain id) List.mem_cons_self,trivial⟩⟩

end Samples

end XynokEcs.ParallelRuns
