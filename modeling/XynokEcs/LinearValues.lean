import XynokEcs.QueryWalks
import XynokEcs.ValueLedger

/-!
# Each value is in one place

The rows in use of a world are those of the entities that exist, one row each, and
they hold what the world holds. So a value that was handed to a call is in the row of
exactly one entity, was dropped once, or was handed back once. The end of the world
drops what is left in the rows.
-/

namespace XynokEcs.LinearValues

open ComponentTypes EntityHandle SequenceValueMap FaultingState RowDirectory ChunkRows ArchetypeStore
  EntityAllocation SlotInvariants WorldState WorldCalls RegistryInvariants StoreInvariants StoreSteps
  ActionRuns WorldRuns ActionEffects RegistryFrame WorldGrowth CommandQueues QueryWalks FiniteSums
  Ledgers ValueRows ValueLedger

variable {V : Type} {D : Prop} {reserved : List Entity} {w : World V} {e : Entity}

section Rows

variable {i k : ℕ} {spec : ArchetypeSpec V} {c : Chunk V}

/-- The places of all rows in use, archetype by archetype. -/
def World.places (w : World V) : List RowLoc :=
  (List.range w.archetypes.len).flatMap fun i => World.archPlaces w i 0

/-- The entities of those rows. -/
def World.live (w : World V) : Finset Entity :=
  ((World.places w).filterMap fun l => (World.row w l).map Prod.fst).toFinset

/-- Every row in use has its place. -/
theorem mem_places {l : RowLoc} : l∈World.places w ↔ (World.row w l).isSome=true := by
  rw [World.places,List.mem_flatMap]
  constructor
  · intro h
    obtain ⟨i,-,hl⟩ := h
    exact (mem_archPlaces.mp hl).2
  · intro hr
    refine ⟨l.archId,List.mem_range.mpr (Nat.lt_of_not_le fun hle => ?_),mem_archPlaces.mpr ⟨rfl,hr⟩⟩
    rw [World.row,SequenceValueHashMap.valueAt_none.mpr hle] at hr
    cases hr

/-- No place comes twice. -/
theorem nodup_places (w : World V) : (World.places w).Nodup := by
  refine List.nodup_flatMap.mpr ⟨fun i _ => nodup_archPlaces i,?_⟩
  refine List.nodup_range.imp fun {i j} hij l hi hj => hij ?_
  exact (mem_archPlaces.mp hi).1.symm.trans (mem_archPlaces.mp hj).1

/-- The rows of a chunk hold what the chunk holds. -/
theorem sum_chunkPlaces (hv : w.archetypes.valueAt i=some spec) (hc : spec.arch.chunks[k]?=some c) :
    ((World.chunkPlaces w i k).map fun l => (World.rowValues w l : Values V)).sum=
      Chunk.held spec.layout c := by
  have hlen : World.chunkLen w i k=c.len := by
    rw [World.chunkLen,World.chunks,hv,Option.map_some,Option.getD_some,hc]
    rfl
  have hrow : ∀ r,World.rowValues w ⟨i,⟨k,r⟩⟩=Chunk.rowValues spec.layout c r := by
    intro r
    rw [World.rowValues,hv,Option.bind_some,hc]
    rfl
  rw [World.chunkPlaces,rowPlaces,hlen,List.map_map,←List.range_eq_range',Chunk.held,
    Finset.sum_eq_multiset_sum]
  refine congrArg List.sum (List.map_congr_left fun r _ => ?_)
  exact congrArg _ (hrow r)

/-- The rows of an archetype hold what its chunks hold. -/
theorem sum_archPlaces (hv : w.archetypes.valueAt i=some spec) :
    ((World.archPlaces w i 0).map fun l => (World.rowValues w l : Values V)).sum=
      (ArchetypeSpec.ledger spec).1 := by
  have hchunks : World.chunks w i=spec.arch.chunks := by
    rw [World.chunks,hv]
    rfl
  rw [World.archPlaces,hchunks,Nat.sub_zero,←List.range_eq_range',sum_flatMap]
  rw [sum_range_get (g:=Chunk.held spec.layout) fun k c hc => sum_chunkPlaces hv hc]
  exact (sum_fst (Chunk.ledger spec.layout) _).symm

/-- The rows of a world hold what the world holds. -/
theorem held_places (w : World V) :
    World.held w=((World.places w).map fun l => (World.rowValues w l : Values V)).sum := by
  have hlen : w.archetypes.len=w.archetypes.values.length := (List.length_map ..).symm
  rw [World.places,hlen,sum_flatMap,sum_range_get (g:=fun spec => (ArchetypeSpec.ledger spec).1)]
  · rw [World.held,World.ledger,Prod.fst_add,add_zero]
    exact sum_fst ArchetypeSpec.ledger _
  · intro i spec hs
    rw [getElem?_values] at hs
    exact sum_archPlaces hs

/-- The entities in the rows are those that exist. -/
theorem mem_live (h : (World.directory w).Consistent) : e∈World.live w ↔ World.entityExists w e=true := by
  rw [World.live,List.mem_toFinset,List.mem_filterMap,World.entityExists,entityExists_eq]
  constructor
  · intro hl
    obtain ⟨l,-,hrow⟩ := hl
    obtain ⟨x,hx,rfl⟩ := Option.map_eq_some_iff.mp hrow
    exact Option.isSome_of_mem (h.locate (d:=World.directory w) hx)
  · intro hsome
    obtain ⟨l,hl⟩ := Option.isSome_iff_exists.mp hsome
    obtain ⟨x,hx⟩ := h.row (d:=World.directory w) hl
    have hrow : World.row w l=some (e,x) := hx
    exact ⟨l,mem_places.mpr (by rw [hrow]; rfl),by rw [hrow]; rfl⟩

/-- The entities that exist hold what the world holds, each in its own row. -/
theorem held_live (h : (World.directory w).Consistent) :
    World.held w=∑ e∈World.live w,(World.valuesOf w e : Values V) := by
  have hlocate : ∀ l e,(World.row w l).map Prod.fst=some e → w.entityAllocator.locate e=some l := by
    intro l e hrow
    obtain ⟨⟨e',x⟩,hx,rfl⟩ := Option.map_eq_some_iff.mp hrow
    exact h.locate (d:=World.directory w) hx
  have hnodup : ((World.places w).filterMap fun l => (World.row w l).map Prod.fst).Nodup := by
    refine List.Nodup.filterMap (fun l l' e hl hl' => ?_) (nodup_places w)
    exact Option.some.inj ((hlocate l e hl).symm.trans (hlocate l' e hl'))
  rw [World.live,List.sum_toFinset _ hnodup,held_places,List.map_filterMap,←List.filterMap_eq_map]
  refine congrArg List.sum (List.filterMap_congr fun l hl => ?_)
  obtain ⟨⟨e,x⟩,hx⟩ := Option.isSome_iff_exists.mp (mem_places.mp hl)
  rw [hx,Option.map_some,Option.map_some,World.valuesOf,hlocate l e (by rw [hx]; rfl)]
  rfl

end Rows

section Runs

/-- The calls of a run, each with the form it is made in. -/
def callActions (calls : List (CallForm×WorldCall V)) : List (Action V) :=
  calls.map fun p => .world p.1 p.2

/-- The values the calls of a run are handed, one call after the other. -/
def callsTaken (calls : List (CallForm×WorldCall V)) : List (StorageType×V) :=
  calls.flatMap fun p => WorldCall.taken p.2

/-- Where the values handed to the calls of a run are. -/
structure Linear (w : World V) (taken given : Values V) : Prop where
  /-- The entities with a row are those that exist. -/
  live : ∀ e,e∈World.live w ↔ World.entityExists w e=true
  /-- The values of an entity are those of its components, each once. -/
  components : ∀ e,((World.valuesOf w e).map Prod.fst).Nodup ∧ ∀ t v,(t,v)∈World.valuesOf w e ↔
    (World.componentsOf w e t).map ComponentData.value=some v
  /-- What the rows hold, what was dropped and what was handed back make up what was handed in. -/
  booked : (∑ e∈World.live w,(World.valuesOf w e : Values V))+World.lost w+given=taken
  /-- Of values that are told apart, none is dropped or handed back twice, or one after the other. -/
  once : taken.Nodup → (World.lost w+given).Nodup
  /-- One that is neither is in the row of exactly one entity. -/
  stored : taken.Nodup → ∀ x∈taken,x∉World.lost w → x∉given →
    ∃! e,World.entityExists w e=true ∧ x∈World.valuesOf w e
  /-- One that is either is in no row. -/
  apart : taken.Nodup → ∀ x,x∈World.lost w ∨ x∈given → ∀ e,World.entityExists w e=true →
    x∉World.valuesOf w e

/-- What is in the row of an entity that exists is among what the rows hold. -/
theorem mem_sum_live {x : StorageType×V} (he : e∈World.live w) (hx : x∈World.valuesOf w e) :
    x∈∑ e∈World.live w,(World.valuesOf w e : Values V) :=
  Multiset.mem_sum.mpr ⟨e,he,Multiset.mem_coe.mpr hx⟩

/-- Books that are in order say where each value is. -/
theorem linear_of_booked {taken given : Values V} (h : StoreInv D reserved w)
    (hb : World.held w+World.lost w+given=taken) : Linear w taken given := by
  rw [held_live h.consistent] at hb
  have hlive : ∀ e,e∈World.live w ↔ World.entityExists w e=true := fun e => mem_live h.consistent
  refine ⟨hlive,valuesOf_spec h,hb,fun hn => ?_,fun hn x hx hlost hgiven => ?_,fun hn x hx e he hrow => ?_⟩
  · rw [←hb,add_assoc] at hn
    exact (Multiset.nodup_add.mp hn).2.1
  · rw [←hb,Multiset.mem_add,Multiset.mem_add] at hx
    have hin := (hx.resolve_right hgiven).resolve_right hlost
    obtain ⟨e,he,hrow⟩ := Multiset.mem_sum.mp hin
    rw [←hb,add_assoc] at hn
    refine ⟨e,⟨(hlive e).mp he,Multiset.mem_coe.mp hrow⟩,fun e' he' => ?_⟩
    exact term_unique (Multiset.nodup_add.mp hn).1 ((hlive e').mpr he'.1) he (Multiset.mem_coe.mpr he'.2) hrow
  · rw [←hb,add_assoc] at hn
    exact Multiset.disjoint_left.mp (Multiset.nodup_add.mp hn).2.2 (mem_sum_live ((hlive e).mpr he) hrow)
      (Multiset.mem_add.mpr hx)

variable [Inhabited V]

/-- What the actions of a run are handed is what its calls are. -/
theorem taken_calls (calls : List (CallForm×WorldCall V)) (w : World V) :
    alongSum Action.step (fun a w => (Action.taken w a : Values V)) (callActions calls) w=
      (callsTaken calls : Values V) := by
  induction calls generalizing w with
  | nil => rfl
  | cons p calls ih =>
    rw [callsTaken,List.flatMap_cons,←Multiset.coe_add]
    exact congrArg _ (ih _)

/-- Calls of the world queue nothing, so no thread gets a queue. -/
theorem threads_calls (runtime : Runtime) (calls : List (CallForm×WorldCall V)) :
    World.threads (runAll Action.step (callActions calls) (World.new runtime))=[] := by
  have hrun : ∀ (calls : List (CallForm×WorldCall V)) (w : World V),CoreInv w → World.threads w=[] →
      World.threads (runAll Action.step (callActions calls) w)=[] := by
    intro calls
    induction calls with
    | nil => exact fun _ _ hw => hw
    | cons p calls ih =>
      intro w hcore hw
      have hkept := congrArg Prod.fst (Action.queues_kept (a:=.world p.1 p.2) hcore rfl)
      exact ih _ (Action.grew _ hcore).1 (hkept.trans hw)
  exact hrun calls _ (coreInv_new runtime) rfl

omit [Inhabited V] in
/-- Where nothing waits, dropping the world drops what its rows hold. -/
theorem ledger_drop_noQueues (dropCmd : CmdBuffer V → List (StorageType×V)) (h : World.threads w=[]) :
    World.ledger (World.drop dropCmd w)=(0,World.lost w+World.held w) := by
  have hthreads : World.threads (World.dispose w)=World.threads w := rfl
  have hqueues : World.ledger (World.drop dropCmd w)=World.ledger (World.dispose w) := by
    refine ledger_congr rfl ?_
    change (World.dispose w).dropped++(World.threads (World.dispose w)).flatMap _=_
    rw [hthreads,h,List.flatMap_nil,List.append_nil]
  rw [hqueues,ledger_dispose]
  rfl

/-- A run of calls of the world leaves its books in order. -/
theorem booked_calls (runtime : Runtime) (calls : List (CallForm×WorldCall V)) :
    let w := runAll Action.step (callActions calls) (World.new runtime)
    RunInv False w ∧ World.held w+World.lost w+alongSum Action.step
      (fun a w => (Action.given w a : Values V)) (callActions calls) (World.new runtime)=
        (callsTaken calls : Values V) := by
  intro w
  have hproper : Along Action.step (Proper False) (callActions calls) (World.new runtime) := by
    refine proper_of_noDestroy runtime fun a ha => ?_
    obtain ⟨p,-,rfl⟩ := List.mem_map.mp ha
    rfl
  have hwaiting : World.waiting w=0 := by
    rw [World.waiting,threads_calls]
    rfl
  obtain ⟨gone,hb⟩ := run_balance runtime (callActions calls) hproper
  have ht := hb.total
  rw [taken_calls] at ht
  change World.held w+World.waiting w+(World.lost w+0)+_=0+0+_ at ht
  rw [hwaiting,add_zero,add_zero,add_zero,zero_add] at ht
  exact ⟨runInv_run (runInv_new False runtime) hproper,ht⟩

end Runs

end XynokEcs.LinearValues
