import XynokEcs.CommandBuffer
import XynokEcs.QuerySources
import XynokEcs.RegistryFrame
import XynokEcs.SlotEvents
import XynokEcs.StructureChanges

/-!
# Workers, their handles and their queues

The handles that were taken and are not attached are those the workers hold: in
the batches they allocated ahead and in the creates they queued. Queueing only
moves a handle from a batch to a queue, and applying a command attaches it,
gives it back or loses it.
-/

namespace XynokEcs.WorkerQueues

open ComponentTypes EntityHandle SequenceValueMap FaultingState ChunkRows RowWrites ArchetypeStore
  EntityAllocation SlotInvariants WorldState WorldCalls CommandBuffer RegistryInvariants
  RegistrySteps StoreInvariants StoreSteps StructureChanges RegistryFrame SlotEvents QuerySources

variable {V : Type} {D : Prop} {w w' : World V}

/-- The slots of the world next to the handles its workers hold. -/
def World.slots (w : World V) : Slots := ⟨w.entityAllocator,World.reserved w⟩

/-- Registry, store, slots and queries are in order. -/
structure WorldInv (D : Prop) (w : World V) : Prop where
  /-- The stored part. -/
  store : StoreInv D (World.reserved w) w
  /-- The query registry. -/
  queries : QueryInv w

/-- A new world is in order. -/
theorem worldInv_new (D : Prop) (runtime : Runtime) : WorldInv D (World.new runtime : World V) :=
  ⟨storeInv_new D runtime,queryInv_new runtime⟩

/-- A step from a world in order to another one, by a list of events. -/
structure Stepped (D : Prop) (evs : List SlotEvent) (w w' : World V) : Prop where
  /-- The world after the step is in order. -/
  inv : WorldInv D w'
  /-- The events account for the slots. -/
  run : SlotRun evs (World.slots w) (World.slots w')

/-- The slots are as they were, but for where entities are and the order in which
handles are held. -/
theorem slotRun_moved (hs : SameSlots w.entityAllocator w'.entityAllocator)
    (hr : (World.reserved w).Perm (World.reserved w')) :
    SlotRun [.moved] (World.slots w) (World.slots w') := .single (.moved hs hr)

/-- Reserved handles depend on the workers. -/
theorem reserved_congr (h : w'.workerSpecs=w.workerSpecs) : World.reserved w'=World.reserved w := by
  rw [World.reserved,World.reserved,h]

/-- Workers do not change when archetypes do. -/
theorem Evolves.workerSpecs (h : Evolves w w') : w'.workerSpecs=w.workerSpecs := by
  have hf := h.frame
  simp only [World.frame,Prod.mk.injEq] at hf
  exact hf.2.2.2.2.1

/-- So no handle is reserved or given up. -/
theorem Evolves.reserved (h : Evolves w w') : World.reserved w'=World.reserved w :=
  reserved_congr (Evolves.workerSpecs h)

section Workers

variable {α : Type} {thread i : ℕ} {s s' : WorkerSpec V}

/-- Only the workers changed. -/
def WorkersOnly (w w' : World V) : Prop := ∃ ws,w'={ w with workerSpecs := ws }

/-- Work on a registered worker rewrites it. -/
theorem onWorker_eq (hi : w.workerSpecs.indexOf thread=some i)
    (hv : w.workerSpecs.valueAt i=some s) {x : Faulting (WorkerSpec V) Fault α}
    {r : Except Fault α} (hx : x s=(r,s')) : onWorker thread x w=(r,World.setWorker w i s') := by
  unfold onWorker
  rw [focus_eq (t:=s) (u:=s') (r:=r) (SequenceValueHashMap.get_of_indexOf hi ▸ hv) hx]
  dsimp only [World.setWorker]
  rw [SequenceValueHashMap.modify,hi]

/-- Work on one that is not registered is refused. -/
theorem onWorker_missing (hi : w.workerSpecs.indexOf thread=none)
    (x : Faulting (WorkerSpec V) Fault α) :
    onWorker thread x w=(.error (.err .workerSpecIsNotCreated),w) := by
  refine focus_missing ?_
  unfold SequenceValueHashMap.get
  rw [hi,Option.bind_none]

/-- The worker of a thread is registered. -/
def HasWorker (thread : ℕ) (w : World V) : Prop :=
  ∃ i s,w.workerSpecs.indexOf thread=some i ∧ w.workerSpecs.valueAt i=some s

/-- Rewriting a worker keeps the others registered. -/
theorem hasWorker_setWorker (h : HasWorker thread w) (i : ℕ) (s : WorkerSpec V) :
    HasWorker thread (World.setWorker w i s) := by
  obtain ⟨j,s₀,hj,hs⟩ := h
  refine ⟨j,if i=j then s else s₀,?_,?_⟩
  · exact (SequenceValueHashMap.indexOf_modifyAt _ _ _ _).trans hj
  · refine (SequenceValueHashMap.valueAt_modifyAt _ _ _ _).trans ?_
    rw [hs]
    split <;> rfl

/-- Warming up registers a worker that holds nothing. -/
theorem warmUp_spec (thread : ℕ) (w : World V) : ∃ w',warmUp thread w=(.ok (),w') ∧
    WorkersOnly w w' ∧ World.reserved w'=World.reserved w ∧ World.ahead w'=World.ahead w ∧
      World.commands w'=World.commands w ∧ HasWorker thread w' := by
  unfold warmUp
  rw [getState_bind]
  cases hi : w.workerSpecs.indexOf thread with
  | some i =>
    obtain ⟨s,hs⟩ := Option.isSome_iff_exists.mp
      (SequenceValueHashMap.valueAt_isSome.mpr (SequenceValueHashMap.indexOf_lt hi))
    refine ⟨w,?_,⟨_,rfl⟩,rfl,rfl,rfl,i,s,hi,hs⟩
    rw [SequenceValueHashMap.containsKey,hi]
    rfl
  | none =>
    have hvalues : (w.workerSpecs.insert thread WorkerSpec.new).1.values=
        w.workerSpecs.values++[WorkerSpec.new] := by
      rw [SequenceValueHashMap.insert_new hi]
      simp only [SequenceValueHashMap.values,SequenceValueHashMap.push,List.map_append]
      rfl
    have hnothing : ∀ {β : Type} (g : WorkerSpec V → List β),g WorkerSpec.new=[] →
        (w.workerSpecs.insert thread WorkerSpec.new).1.values.flatMap g=
          w.workerSpecs.values.flatMap g := by
      intro β g hg
      rw [hvalues,List.flatMap_append,List.flatMap_singleton,hg,List.append_nil]
    refine ⟨_,by rw [SequenceValueHashMap.containsKey,hi]; rfl,⟨_,rfl⟩,hnothing _ rfl,
      hnothing _ rfl,hnothing _ rfl,?_⟩
    rw [SequenceValueHashMap.insert_new hi]
    refine ⟨w.workerSpecs.len,WorkerSpec.new,?_,?_⟩
    · rw [SequenceValueHashMap.indexOf_push,if_pos rfl]
    · rw [SequenceValueHashMap.valueAt_push,if_pos rfl]

/-- A batch of handles is taken one by one. -/
theorem preAllocateLoop_spec (rest : List Entity) (n : ℕ) (p : Allocating)
    (h : SlotsInv p.allocator (p.dst++rest)) :
    wp (preAllocateLoop n)
      (fun _ p' => ∃ new,new.length=n ∧ p'.dst=p.dst++new ∧
        p'.allocator.locate=p.allocator.locate ∧ SlotRun (new.map .taken)
          ⟨p.allocator,p.dst++rest⟩ ⟨p'.allocator,p'.dst++rest⟩)
      (fun _ p' => ∃ new,p'.dst=p.dst++new ∧ p'.allocator.locate=p.allocator.locate ∧
        SlotRun (new.map .taken) ⟨p.allocator,p.dst++rest⟩ ⟨p'.allocator,p'.dst++rest⟩) p := by
  induction n generalizing p with
  | zero => exact ⟨[],rfl,(List.append_nil _).symm,rfl,.nil _⟩
  | succ n ih =>
    unfold preAllocateLoop
    rw [wp_bind,wp_focus (p:=fun s : Allocating => some s.allocator) rfl]
    refine wp_mono (newEntity_spec h) ?_ ?_
    · rintro e a ⟨ht,hs⟩
      rw [wp_bind,wp_modifyState]
      have hperm : ((p.dst++[e])++rest).Perm (e::(p.dst++rest)) := by
        rw [List.append_assoc]
        exact List.perm_middle
      have hstep : SlotEvent.Step (.taken e) ⟨p.allocator,p.dst++rest⟩ ⟨a,(p.dst++[e])++rest⟩ :=
        .taken ht (hs.perm hperm.symm) hperm
      refine wp_mono (ih ⟨a,p.dst++[e]⟩ (hs.perm hperm.symm)) ?_ ?_
      · rintro - p' ⟨new,hlen,hd,hl,hrun⟩
        refine ⟨e::new,by rw [List.length_cons,hlen],?_,hl.trans ht.locate,.cons hstep hrun⟩
        rw [hd,List.append_assoc]
        rfl
      · rintro err p' ⟨new,hd,hl,hrun⟩
        refine ⟨e::new,?_,hl.trans ht.locate,.cons hstep hrun⟩
        rw [hd,List.append_assoc]
        rfl
    · rintro err a rfl
      exact ⟨[],(List.append_nil _).symm,rfl,.nil _⟩

/-- Only workers and slots changed, entities are found where they were, and of the
commands queued now only these are new. -/
structure Held (new : List (CmdBuffer V)) (w w' : World V) : Prop where
  /-- What is neither a worker nor a slot stays. -/
  others : ∃ ws a,w'={ w with workerSpecs := ws, entityAllocator := a }
  /-- Entities are found where they were. -/
  locate : w'.entityAllocator.locate=w.entityAllocator.locate
  /-- A queued command was queued before, or is one of the new ones. -/
  commands : ∀ cmd∈World.commands w',cmd∈World.commands w ∨ cmd∈new

variable {new : List (CmdBuffer V)}

/-- What only workers and slots see, twice, only they see. -/
theorem Held.trans {w'' : World V} (h : Held [] w w') (h' : Held new w' w'') : Held new w w'' := by
  obtain ⟨ws,a,rfl⟩ := h.others
  obtain ⟨ws',a',rfl⟩ := h'.others
  refine ⟨⟨ws',a',rfl⟩,h'.locate.trans h.locate,fun cmd hc => ?_⟩
  rcases h'.commands cmd hc with hc | hc
  · rcases h.commands cmd hc with hc | hc
    · exact .inl hc
    · cases hc
  · exact .inr hc

variable (s') in
/-- A worker that got these commands. -/
theorem held_setWorker (hs : w.workerSpecs.valueAt i=some s)
    (hc : ∀ cmd∈s'.cmdBuffer,cmd∈s.cmdBuffer ∨ cmd∈new) {a : EntityAllocator}
    (ha : a.locate=w.entityAllocator.locate) :
    Held new w (World.setSlots (World.setWorker w i s') a) := by
  refine ⟨⟨_,_,rfl⟩,ha,fun cmd hm => ?_⟩
  obtain ⟨rest,h1,h2⟩ := flatMap_setWorker hs s' WorkerSpec.cmdBuffer
  rcases List.mem_append.mp (h2.mem_iff.mp hm) with hm | hm
  · exact (hc cmd hm).imp_left fun hm => h1.mem_iff.mpr (List.mem_append_left _ hm)
  · exact .inl (h1.mem_iff.mpr (List.mem_append_right _ hm))

/-- The registry does not see it. -/
theorem Held.registry (h : Held new w w') : World.registry w'=World.registry w := by
  obtain ⟨ws,a,rfl⟩ := h.others
  rfl

/-- The queries do not see it. -/
theorem Held.queries (h : Held new w w') (hq : QueryInv w) : QueryInv w' := by
  obtain ⟨ws,a,rfl⟩ := h.others
  exact QueryInv.congr hq rfl rfl rfl

/-- Entities are found where they were. -/
theorem Held.directory (h : Held new w w') : World.directory w'=World.directory w := by
  refine directory_congr ?_ h.locate
  obtain ⟨ws,a,rfl⟩ := h.others
  rfl

/-- Entities keep their components. -/
theorem Held.contents (h : Held new w w') : World.contents w'=World.contents w := by
  rw [World.contents,World.contents,h.directory]

/-- The world stays in order when handles are taken and passed around. -/
theorem Held.inv (h : Held new w w') (hw : WorldInv D w) {evs : List SlotEvent}
    (hr : SlotRun evs (World.slots w) (World.slots w')) : WorldInv D w' := by
  have hslots : (World.slots w').Inv :=
    hr.invariant (fun _ _ _ _ hs hi => SlotEvent.Step.inv hs hi) hw.store.slots
  have hcons : (World.directory w').Consistent := by
    rw [h.directory]
    exact hw.store.consistent
  obtain ⟨ws,a,rfl⟩ := h.others
  exact ⟨⟨RegistryInv.congr hw.store.registry rfl,hw.store.sound,hslots,hcons⟩,
    QueryInv.congr hw.queries rfl rfl rfl⟩

/-- Taking a batch of handles for a worker. -/
theorem tryPreAllocateEntities_spec (h : WorldInv D w) (hi : w.workerSpecs.indexOf thread=some i)
    (hs : w.workerSpecs.valueAt i=some s) (amount : ℕ) :
    wp (tryPreAllocateEntities thread amount)
      (fun _ w' => ∃ new a,w'=World.setSlots (World.setWorker w i
          { s with preAllocatedEntities := s.preAllocatedEntities++new }) a ∧ 0<new.length ∧
        Held [] w w' ∧ SlotRun (.moved::new.map .taken++[.moved]) (World.slots w) (World.slots w'))
      (fun _ w' => ∃ new a,w'=World.setSlots (World.setWorker w i
          { s with preAllocatedEntities := s.preAllocatedEntities++new }) a ∧
        Held [] w w' ∧ SlotRun (.moved::new.map .taken++[.moved]) (World.slots w) (World.slots w')) w := by
  obtain ⟨others,h1,h2⟩ := flatMap_setWorker hs s WorkerSpec.reserved
  let rest := s.cmdBuffer.filterMap CmdBuffer.pending++others
  have hstart : (World.reserved w).Perm (s.preAllocatedEntities++rest) := by
    refine h1.trans ?_
    rw [WorkerSpec.reserved,List.append_assoc]
  have hput : ∀ p : Allocating,{ w with
      entityAllocator := p.allocator
      workerSpecs := w.workerSpecs.modify thread fun s =>
        { s with preAllocatedEntities := p.dst } }=
      World.setSlots (World.setWorker w i { s with preAllocatedEntities := p.dst }) p.allocator := by
    intro p
    have hm : w.workerSpecs.modify thread (fun s => { s with preAllocatedEntities := p.dst })=
        w.workerSpecs.modifyAt i fun _ => { s with preAllocatedEntities := p.dst } := by
      rw [SequenceValueHashMap.modify,hi]
      exact SequenceValueHashMap.modifyAt_congr hs rfl
    rw [World.setSlots,World.setWorker,hm]
  have hend : ∀ (new : List Entity) (p : Allocating),p.dst=s.preAllocatedEntities++new →
      p.allocator.locate=w.entityAllocator.locate →
      SlotRun (new.map .taken) ⟨w.entityAllocator,s.preAllocatedEntities++rest⟩
        ⟨p.allocator,p.dst++rest⟩ →
      Held [] w (World.setSlots (World.setWorker w i { s with preAllocatedEntities := p.dst })
        p.allocator) ∧ SlotRun (.moved::new.map .taken++[.moved]) (World.slots w) (World.slots
          (World.setSlots (World.setWorker w i { s with preAllocatedEntities := p.dst })
            p.allocator)) := by
    intro new p hd hl hrun
    refine ⟨held_setWorker { s with preAllocatedEntities := p.dst } hs
      (fun _ hc => .inl hc) hl,?_⟩
    refine .cons (.moved (SameSlots.refl _) hstart) (hrun.append (.single (.moved (SameSlots.refl _) ?_)))
    obtain ⟨others',h3,h4⟩ := flatMap_setWorker hs { s with preAllocatedEntities := p.dst }
      WorkerSpec.reserved
    have hothers : others.Perm others' := (List.perm_append_left_iff _).mp (h1.symm.trans h3)
    refine List.Perm.trans ?_ h4.symm
    rw [WorkerSpec.reserved,List.append_assoc]
    exact (hothers.append_left _).append_left _
  unfold tryPreAllocateEntities
  rw [wp_focus (t:=⟨w.entityAllocator,s.preAllocatedEntities⟩)
    (by rw [SequenceValueHashMap.get_of_indexOf hi,hs]; rfl)]
  unfold preAllocateEntities
  split
  · have hp := hend [] ⟨w.entityAllocator,s.preAllocatedEntities⟩ (List.append_nil _).symm rfl
      (.nil _)
    rw [←hput] at hp
    refine ⟨[],w.entityAllocator,?_,hp⟩
    rw [List.append_nil]
    exact hput ⟨w.entityAllocator,s.preAllocatedEntities⟩
  · rename_i hpos
    have hloop := preAllocateLoop_spec rest amount ⟨w.entityAllocator,s.preAllocatedEntities⟩
      (h.store.slots.perm hstart)
    refine wp_mono hloop ?_ ?_
    · rintro - p ⟨new,hlen,hd,hl,hrun⟩
      obtain ⟨hh,hr⟩ := hend new p hd hl hrun
      rw [hput]
      dsimp only at hd
      exact ⟨new,p.allocator,by rw [hd],by omega,hh,hr⟩
    · rintro err p ⟨new,hd,hl,hrun⟩
      obtain ⟨hh,hr⟩ := hend new p hd hl hrun
      rw [hput]
      dsimp only at hd
      exact ⟨new,p.allocator,by rw [hd],hh,hr⟩

/-- Handles were taken and passed around, and nothing else happened. -/
def Fetches (evs : List SlotEvent) : Prop := ∀ ev∈evs,ev=.moved ∨ ∃ e,ev=.taken e

/-- Handles taken in a batch are fetched. -/
theorem fetches_batch (new : List Entity) : Fetches (.moved::new.map .taken++[.moved]) := by
  intro ev hev
  rcases List.mem_append.mp hev with hev | hev
  · rcases List.mem_cons.mp hev with rfl | hev
    · exact .inl rfl
    · obtain ⟨e,-,rfl⟩ := List.mem_map.mp hev
      exact .inr ⟨e,rfl⟩
  · exact .inl (List.mem_singleton.mp hev)

/-- Fetching goes on. -/
theorem Fetches.append {evs evs' : List SlotEvent} (h : Fetches evs) (h' : Fetches evs') :
    Fetches (evs++evs') := fun ev hev => (List.mem_append.mp hev).elim (h ev) (h' ev)

/-- Moving an entity fetches nothing. -/
theorem fetches_moved : Fetches [.moved] := fun _ h => .inl (List.mem_singleton.mp h)

/-- What a worker has allocated ahead was there before, or was just taken. -/
def AheadFrom (w : World V) (evs : List SlotEvent) (w' : World V) : Prop :=
  ∀ f∈World.ahead w',f∈World.ahead w ∨ SlotEvent.taken f∈evs

/-- Without a fetch nothing new is held ahead. -/
theorem aheadFrom_congr (h : World.ahead w'=World.ahead w) (evs : List SlotEvent) :
    AheadFrom w evs w' := fun _ hf => .inl (h ▸ hf)

variable (s') in
/-- A worker changed in a way that takes nothing new ahead. -/
theorem aheadFrom_setWorker (hs : w.workerSpecs.valueAt i=some s)
    (hsub : ∀ f∈s'.preAllocatedEntities,f∈s.preAllocatedEntities) (evs : List SlotEvent) :
    AheadFrom w evs (World.setWorker w i s') := by
  obtain ⟨rest,h1,h2⟩ := flatMap_setWorker hs s' WorkerSpec.preAllocatedEntities
  intro f hf
  refine .inl (h1.mem_iff.mpr ?_)
  rcases List.mem_append.mp (h2.mem_iff.mp hf) with hf | hf
  · exact List.mem_append_left _ (hsub f hf)
  · exact List.mem_append_right _ hf

/-- Queueing a command that attaches no handle. -/
theorem pushCmd_spec (h : HasWorker thread w) {cmd : CmdBuffer V}
    (hp : CmdBuffer.pending cmd=none) : ∃ w',pushCmd thread cmd w=(.ok (),w') ∧ Held [cmd] w w' ∧
      w'.entityAllocator=w.entityAllocator ∧ (World.reserved w).Perm (World.reserved w') ∧
      ∀ evs,AheadFrom w evs w' := by
  obtain ⟨i,s,hi,hs⟩ := h
  refine ⟨_,onWorker_eq hi hs rfl,held_setWorker _ hs (fun _ hc => List.mem_append.mp hc) rfl,rfl,?_,
    aheadFrom_setWorker _ hs fun _ hf => hf⟩
  obtain ⟨rest,h1,h2⟩ := reserved_setWorker hs { s with cmdBuffer := s.cmdBuffer++[cmd] }
  refine h1.trans (List.Perm.trans ?_ h2.symm)
  have he : WorkerSpec.reserved { s with cmdBuffer := s.cmdBuffer++[cmd] }=WorkerSpec.reserved s := by
    simp [WorkerSpec.reserved,List.filterMap_append,hp]
  rw [he]

/-- A handle was taken out of what a worker had allocated ahead. -/
structure Handed (thread : ℕ) (e : Entity) (w w' : World V) : Prop where
  /-- Only workers and slots changed. -/
  held : Held [] w w'
  /-- The thread has a worker. -/
  worker : HasWorker thread w'
  /-- The events account for the slots, the handle that was taken among them. -/
  run : ∃ evs,Fetches evs ∧ SlotRun evs (World.slots w) ⟨w'.entityAllocator,e::World.reserved w'⟩ ∧
    (e∈World.ahead w ∨ SlotEvent.taken e∈evs) ∧ AheadFrom w evs w'

/-- A worker with a handle ahead hands it out. -/
theorem popPreAllocated_some (hi : w.workerSpecs.indexOf thread=some i)
    (hs : w.workerSpecs.valueAt i=some s) {e : Entity} {rest : List Entity}
    (hp : s.preAllocatedEntities=e::rest) : ∃ w',onWorker thread popPreAllocated w=(.ok (some e),w') ∧
      Held [] w w' ∧ w'.entityAllocator=w.entityAllocator ∧ HasWorker thread w' ∧
      (World.reserved w).Perm (e::World.reserved w') ∧
      e∈World.ahead w ∧ ∀ evs,AheadFrom w evs w' := by
  have hpop : popPreAllocated s=(.ok (some e),{ s with preAllocatedEntities := rest }) := by
    unfold popPreAllocated
    rw [hp]
  obtain ⟨others,h1,h2⟩ := reserved_setWorker hs { s with preAllocatedEntities := rest }
  obtain ⟨others',h3,-⟩ := flatMap_setWorker hs s WorkerSpec.preAllocatedEntities
  refine ⟨_,onWorker_eq hi hs hpop,
    held_setWorker { s with preAllocatedEntities := rest } hs (fun _ hc => .inl hc) rfl,rfl,
    hasWorker_setWorker ⟨i,s,hi,hs⟩ _ _,?_,?_,aheadFrom_setWorker _ hs ?_⟩
  · refine h1.trans (List.Perm.trans ?_ (h2.symm.cons e))
    rw [WorkerSpec.reserved,hp]
    exact .refl _
  · refine h3.mem_iff.mpr (List.mem_append_left _ ?_)
    rw [hp]
    exact List.mem_cons_self
  · intro f hf
    rw [hp]
    exact List.mem_cons_of_mem _ hf

/-- A worker that holds nothing ahead gives nothing. -/
theorem popPreAllocated_none (hi : w.workerSpecs.indexOf thread=some i)
    (hs : w.workerSpecs.valueAt i=some s) (hp : s.preAllocatedEntities=[]) :
    onWorker thread popPreAllocated w=(.ok none,w) := by
  have hpop : popPreAllocated s=(.ok none,s) := by
    unfold popPreAllocated
    rw [hp]
  rw [onWorker_eq hi hs hpop,World.setWorker,SequenceValueHashMap.modifyAt_self hs rfl]

/-- The loop of `Cmd::try_create` hands out one handle, after a batch was taken
when there was none. -/
theorem takePreAllocated_spec (h : WorldInv D w) (hw : HasWorker thread w) :
    wp (takePreAllocated thread) (fun e w' => Handed thread e w w')
      (fun _ w' => Held [] w w' ∧ ∃ evs,Fetches evs ∧ SlotRun evs (World.slots w) (World.slots w') ∧
        AheadFrom w evs w') w := by
  obtain ⟨i,s,hi,hs⟩ := hw
  unfold takePreAllocated
  cases hp : s.preAllocatedEntities with
  | cons e rest =>
    obtain ⟨w₁,hrun,hheld,hsame,hw₁,hperm,he,ha⟩ := popPreAllocated_some hi hs hp
    unfold wp
    rw [bind_ok hrun]
    refine ⟨hheld,hw₁,[.moved],fetches_moved,.single ?_,.inl he,ha _⟩
    rw [hsame]
    exact .moved (SameSlots.refl _) hperm
  | nil =>
    unfold wp
    rw [bind_ok (popPreAllocated_none hi hs hp)]
    change wp _ _ _ w
    rw [wp_bind]
    have hahead : ∀ (new : List Entity) (a : EntityAllocator),AheadFrom w
        (.moved::new.map .taken++[.moved]) (World.setSlots (World.setWorker w i
          { s with preAllocatedEntities := s.preAllocatedEntities++new }) a) := by
      intro new a f hf
      obtain ⟨others,h1,h2⟩ := flatMap_setWorker hs
        { s with preAllocatedEntities := s.preAllocatedEntities++new }
        WorkerSpec.preAllocatedEntities
      rcases List.mem_append.mp (h2.mem_iff.mp hf) with hf | hf
      · rw [hp] at hf
        exact .inr (List.mem_append_left _ (List.mem_cons_of_mem _ (List.mem_map_of_mem hf)))
      · exact .inl (h1.mem_iff.mpr (List.mem_append_right _ hf))
    refine wp_mono (tryPreAllocateEntities_spec h hi hs preAllocatedEntitiesAmount) ?_ ?_
    · rintro - w₁ ⟨new,a,rfl,hpos,hheld,hrun⟩
      obtain ⟨e,rest,rfl⟩ := List.exists_cons_of_length_pos hpos
      let s₁ : WorkerSpec V := { s with preAllocatedEntities := s.preAllocatedEntities++e::rest }
      let w₁ := World.setSlots (World.setWorker w i s₁) a
      have hi₁ : w₁.workerSpecs.indexOf thread=some i :=
        (SequenceValueHashMap.indexOf_modifyAt _ _ _ _).trans hi
      have hs₁ : w₁.workerSpecs.valueAt i=some s₁ := by
        refine (SequenceValueHashMap.valueAt_modifyAt _ _ _ _).trans ?_
        rw [if_pos rfl,hs,Option.map_some]
      have hp₁ : s₁.preAllocatedEntities=e::rest := by
        dsimp only [s₁]
        rw [hp,List.nil_append]
      obtain ⟨w₂,hrun₂,hheld₂,hsame,hw₂,hperm,he,ha⟩ := popPreAllocated_some hi₁ hs₁ hp₁
      unfold wp
      rw [bind_ok hrun₂]
      refine ⟨hheld.trans hheld₂,hw₂,_,(fetches_batch (e::rest)).append fetches_moved,
        hrun.append (.single ?_),.inr ?_,?_⟩
      · rw [hsame]
        exact .moved (SameSlots.refl _) hperm
      · simp
      · intro f hf
        rcases ha [] f hf with hf | hf
        · rcases hahead _ a f hf with hf | hf
          · exact .inl hf
          · exact .inr (List.mem_append_left _ hf)
        · cases hf
    · rintro err w₁ ⟨new,a,rfl,hheld,hrun⟩
      exact ⟨hheld,_,fetches_batch new,hrun,hahead new a⟩

/-- Queueing the create of a handle that was handed out. -/
theorem pushCreate_spec {e : Entity} {val : Bundle V} (h : Handed thread e w w') :
    ∃ w'' evs,pushCmd thread (.create thread e val) w'=(.ok (),w'') ∧
      Held [.create thread e val] w w'' ∧ Fetches evs ∧
      SlotRun evs (World.slots w) (World.slots w'') ∧ (e∈World.ahead w ∨ SlotEvent.taken e∈evs) ∧
      AheadFrom w evs w'' ∧ e∈World.pending w'' := by
  obtain ⟨i,s,hi,hs⟩ := h.worker
  obtain ⟨evs,hf,hrun,he,ha⟩ := h.run
  let s' : WorkerSpec V := { s with cmdBuffer := s.cmdBuffer++[.create thread e val] }
  obtain ⟨rest,h1,h2⟩ := reserved_setWorker hs s'
  obtain ⟨rest',h3,h4⟩ := flatMap_setWorker hs s' (fun s => s.cmdBuffer.filterMap CmdBuffer.pending)
  have hpend : s'.cmdBuffer.filterMap CmdBuffer.pending=s.cmdBuffer.filterMap CmdBuffer.pending++[e] := by
    simp [s',List.filterMap_append,CmdBuffer.pending]
  refine ⟨World.setWorker w' i s',evs++[.moved],onWorker_eq hi hs rfl,
    h.held.trans (held_setWorker _ hs (fun _ hc => List.mem_append.mp hc) rfl),hf.append fetches_moved,
    hrun.append (.single (.moved (SameSlots.refl _) ?_)),he.imp_right (List.mem_append_left _),?_,?_⟩
  · refine (h1.cons e).trans (List.Perm.trans ?_ h2.symm)
    rw [WorkerSpec.reserved,WorkerSpec.reserved,hpend,←List.cons_append]
    refine List.Perm.append_right rest ?_
    dsimp only [s']
    rw [←List.append_assoc]
    exact (List.perm_append_singleton e _).symm
  · intro f hf'
    rcases aheadFrom_setWorker s' hs (fun _ hf => hf) [] f hf' with hf' | hf'
    · exact (ha f hf').imp_right (List.mem_append_left _)
    · cases hf'
  · refine h4.mem_iff.mpr (List.mem_append_left _ ?_)
    rw [hpend]
    exact List.mem_append_right _ (List.mem_singleton_self e)

/-- The first command of a worker is taken off its queue. -/
theorem popCmd_some (hs : w.workerSpecs.valueAt i=some s) {cmd : CmdBuffer V}
    {rest : List (CmdBuffer V)} (hq : s.cmdBuffer=cmd::rest) :
    popCmd i w=(.ok (some cmd),World.setWorker w i { s with cmdBuffer := rest }) ∧
      (World.reserved w).Perm ((CmdBuffer.pending cmd).toList++
        World.reserved (World.setWorker w i { s with cmdBuffer := rest })) ∧
      (∀ evs,AheadFrom w evs (World.setWorker w i { s with cmdBuffer := rest })) ∧
      Held [] w (World.setWorker w i { s with cmdBuffer := rest }) := by
  have hpop : popFront s=(.ok (some cmd),{ s with cmdBuffer := rest }) := by
    unfold popFront
    rw [hq]
  obtain ⟨others,h1,h2⟩ := reserved_setWorker hs { s with cmdBuffer := rest }
  refine ⟨focus_eq hs hpop,?_,aheadFrom_setWorker _ hs fun _ hf => hf,
    held_setWorker _ hs (fun _ hc => .inl (hq ▸ List.mem_cons_of_mem _ hc)) rfl⟩
  refine h1.trans (List.Perm.trans ?_ (h2.symm.append_left _))
  rw [←List.append_assoc]
  refine List.Perm.append_right others ?_
  have hcmds : s.cmdBuffer.filterMap CmdBuffer.pending=
      (CmdBuffer.pending cmd).toList++rest.filterMap CmdBuffer.pending := by
    rw [hq,List.filterMap_cons]
    cases CmdBuffer.pending cmd <;> rfl
  rw [WorkerSpec.reserved,WorkerSpec.reserved,hcmds]
  exact List.perm_append_comm_assoc _ _ _

/-- An empty queue gives no command. -/
theorem popCmd_empty (hs : w.workerSpecs.valueAt i=some s) (hq : s.cmdBuffer=[]) :
    popCmd i w=(.ok none,w) := by
  have hpop : popFront s=(.ok none,s) := by
    unfold popFront
    rw [hq]
  have hrun : popCmd i w=(.ok none,World.setWorker w i s) := focus_eq hs hpop
  rw [hrun,World.setWorker,SequenceValueHashMap.modifyAt_self hs rfl]

/-- A worker that is not there has no queue to take from. -/
theorem popCmd_missing (hs : w.workerSpecs.valueAt i=none) :
    popCmd i w=(.error .undefinedBehaviour,w) := focus_missing hs

/-- Taking the next command off its queue. -/
theorem popCmd_front {cmd : CmdBuffer V} (h : World.front w i=some cmd) :
    popCmd i w=(.ok (some cmd),World.popped w i) ∧
      (World.reserved w).Perm ((CmdBuffer.pending cmd).toList++World.reserved (World.popped w i)) ∧
      (∀ evs,AheadFrom w evs (World.popped w i)) ∧ Held [] w (World.popped w i) ∧
      (World.popped w i).entityAllocator=w.entityAllocator ∧ cmd∈World.commands w := by
  obtain ⟨s,hs,hh⟩ := Option.bind_eq_some_iff.mp h
  obtain ⟨rest,hq⟩ := List.head?_eq_some_iff.mp hh
  obtain ⟨hrun,hp,ha,hheld⟩ := popCmd_some hs hq
  obtain ⟨others,h1,-⟩ := flatMap_setWorker hs s WorkerSpec.cmdBuffer
  have hpop : World.popped w i=World.setWorker w i { s with cmdBuffer := rest } := by
    rw [World.popped,hrun]
  rw [hpop]
  refine ⟨hrun,hp,ha,hheld,rfl,h1.mem_iff.mpr (List.mem_append_left _ ?_)⟩
  rw [hq]
  exact List.mem_cons_self

/-- Without a next command nothing is taken. -/
theorem popCmd_noFront (h : World.front w i=none) :
    popCmd i w=(.ok none,w) ∨ popCmd i w=(.error .undefinedBehaviour,w) := by
  cases hs : w.workerSpecs.valueAt i with
  | none => exact .inr (popCmd_missing hs)
  | some s =>
    rw [World.front,hs,Option.bind_some,List.head?_eq_none_iff] at h
    exact .inl (popCmd_empty hs h)

/-- The first command of a queue is taken off and carried out. -/
theorem applyCmd_front [Inhabited V] {cmd : CmdBuffer V} (hf : World.front w i=some cmd) :
    applyCmd i w=(do
      CmdBuffer.run cmd
      return true) (World.popped w i) := by
  obtain ⟨hrun,-⟩ := popCmd_front hf
  unfold applyCmd
  rw [bind_ok hrun]

end Workers

end XynokEcs.WorkerQueues
