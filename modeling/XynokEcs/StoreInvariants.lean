import XynokEcs.SlotInvariants
import XynokEcs.RegistrySteps
import XynokEcs.WorldCalls

/-!
# The table of all rows

The rows of all archetypes form one table, and the slots say where each entity's
row is. Between calls the two agree, so the world is a consistent directory of
rows. Writing to one archetype changes the table there alone, and registering
archetypes does not change it at all.
-/

namespace XynokEcs.StoreInvariants

open ComponentTypes EntityHandle SequenceValueMap ChunkLayouts FaultingState RowDirectory ChunkRows
  RowWrites ArchetypeStore EntityAllocation SlotInvariants WorldState RegistryInvariants
  RegistrySteps WorldCalls

variable {V : Type}

/-- The row stored at a place of the world. -/
def World.row (w : World V) (l : RowLoc) : Option (Entity×RowData V) :=
  (w.archetypes.valueAt l.archId).bind fun spec => spec.arch.row spec.layout l.indices

/-- Where each handle's row is, and what every row holds. -/
def World.directory (w : World V) : Directory Entity RowLoc (RowData V) :=
  ⟨w.entityAllocator.locate,World.row w⟩

/-- The components of every live entity, read back through the store. -/
def World.contents (w : World V) : Entity → Option (RowData V) := (World.directory w).contents

/-- The parts of the world that archetypes are found by. -/
def World.registry (w : World V) :=
  (w.archetypes,w.componentCounter,w.componentSetCounter,w.archetypeCounter,w.addEdges,
    w.removeEdges,w.globalArchetypeVersion)

/-- The world with the rows of one archetype replaced. -/
def World.setArch (w : World V) (i : ℕ) (a : Archetype V) : World V :=
  { w with archetypes := w.archetypes.modifyAt i fun spec => { spec with arch := a } }

/-- The world with its slots replaced. -/
def World.setSlots (w : World V) (a : EntityAllocator) : World V := { w with entityAllocator := a }

/-- Registry, chunks, slots and rows agree, next to the handles that are reserved. -/
structure StoreInv (D : Prop) (reserved : List Entity) (w : World V) : Prop where
  /-- The registry is in order. -/
  registry : RegistryInv D w
  /-- The bookkeeping of each archetype is in order. -/
  sound : ∀ (i : ℕ) (spec : ArchetypeSpec V),w.archetypes.valueAt i=some spec →
    Sound spec.layout spec.arch none
  /-- The allocator is in order. -/
  slots : SlotsInv w.entityAllocator reserved
  /-- Slots and rows find each other. -/
  consistent : (World.directory w).Consistent

variable {D : Prop} {reserved : List Entity} {w w' : World V}

/-- A new world is in order. -/
theorem storeInv_new (D : Prop) (runtime : Runtime) : StoreInv D [] (World.new runtime : World V) where
  registry := registryInv_new D runtime
  sound := by
    rintro i spec ⟨⟩
  slots := slotsInv_new
  consistent := Directory.empty_consistent

/-- The registry stays canonical under changes elsewhere in the world. -/
theorem RegistryInv.congr (h : RegistryInv D w) (he : World.registry w'=World.registry w) :
    RegistryInv D w' := by
  simp only [World.registry,Prod.mk.injEq] at he
  obtain ⟨h1,h2,h3,h4,h5,h6,h7⟩ := he
  have hedges : ∀ b,w'.edges b=w.edges b := by
    intro b
    cases b
    · exact h5
    · exact h6
  refine ⟨?_,?_,?_,?_,?_,?_,?_,?_,?_,?_,?_⟩
  all_goals simp only [h1,h2,h3,h4,h7,hedges]
  · exact h.keys
  · exact h.layouts
  · exact h.components
  · exact h.sets_sound
  · exact h.sets_complete
  · exact h.types
  · exact h.edges
  · exact h.version
  · exact h.capacity
  · exact h.declared_components
  · exact h.declared_layouts

/-- Rows depend on the archetypes. -/
theorem row_congr (he : w'.archetypes=w.archetypes) : World.row w'=World.row w := by
  funext l
  rw [World.row,World.row,he]

/-- The directory depends on the rows and on where entities are found. -/
theorem directory_congr {v : World V} (hr : v.archetypes=w.archetypes)
    (ha : v.entityAllocator.locate=w.entityAllocator.locate) :
    World.directory v=World.directory w := by
  rw [World.directory,World.directory,row_congr hr,ha]

/-- Nothing the store depends on has changed. -/
theorem StoreInv.congr (h : StoreInv D reserved w) (hr : World.registry w'=World.registry w)
    (ha : w'.entityAllocator=w.entityAllocator) : StoreInv D reserved w' where
  registry := RegistryInv.congr h.registry hr
  sound := by
    have hr' : w'.archetypes=w.archetypes := congrArg Prod.fst hr
    rw [hr']
    exact h.sound
  slots := by
    rw [ha]
    exact h.slots
  consistent := by
    rw [directory_congr (congrArg Prod.fst hr) (by rw [ha])]
    exact h.consistent

section Rows

variable {i : ℕ} {spec : ArchetypeSpec V}

/-- Replacing the chunks of an archetype leaves the others. -/
theorem valueAt_setArch (w : World V) (i j : ℕ) (a : Archetype V) :
    (World.setArch w i a).archetypes.valueAt j=
      if i=j then (w.archetypes.valueAt j).map fun spec => { spec with arch := a }
      else w.archetypes.valueAt j :=
  SequenceValueHashMap.valueAt_modifyAt _ _ _ _

/-- An archetype after one archetype's rows were replaced is one from before,
with the new rows if it is that one. -/
theorem valueAt_setArch_some {a : Archetype V} {j : ℕ} {s : ArchetypeSpec V}
    (h : (World.setArch w i a).archetypes.valueAt j=some s) :
    ∃ s₀,w.archetypes.valueAt j=some s₀ ∧ s.layout=s₀.layout ∧ s.name=s₀.name ∧
      s.allowStructureChange=s₀.allowStructureChange ∧
      s.arch=if i=j then a else s₀.arch := by
  rw [valueAt_setArch] at h
  split at h
  · rename_i hij
    obtain ⟨s₀,hs,rfl⟩ := Option.map_eq_some_iff.mp h
    exact ⟨s₀,hs,rfl,rfl,rfl,by rw [if_pos hij]⟩
  · rename_i hij
    exact ⟨s,h,rfl,rfl,rfl,by rw [if_neg hij]⟩

/-- Every archetype is still there, with its layout, after one archetype's rows
were replaced. -/
theorem valueAt_setArch_of {j : ℕ} {s : ArchetypeSpec V} (h : w.archetypes.valueAt j=some s)
    (i : ℕ) (a : Archetype V) : (World.setArch w i a).archetypes.valueAt j=
      some { s with arch := if i=j then a else s.arch } := by
  rw [valueAt_setArch]
  split
  · rw [h,Option.map_some]
  · rw [h]

/-- Replacing them by themselves changes nothing. -/
theorem setArch_self (hv : w.archetypes.valueAt i=some spec) : World.setArch w i spec.arch=w := by
  have hmod : w.archetypes.modifyAt i (fun s => { s with arch := spec.arch })=w.archetypes :=
    SequenceValueHashMap.modifyAt_self hv rfl
  rw [World.setArch,hmod]

/-- Replacing rows leaves the registry canonical. -/
theorem registryInv_setArch (h : RegistryInv D w) (i : ℕ) (a : Archetype V) :
    RegistryInv D (World.setArch w i a) where
  keys := by
    intro j
    change (w.archetypes.modifyAt i _).indexOf j=if j<(w.archetypes.modifyAt i _).len then _ else _
    rw [SequenceValueHashMap.indexOf_modifyAt,SequenceValueHashMap.len_modifyAt]
    exact h.keys j
  layouts := by
    intro j s hs
    obtain ⟨s₀,hs₀,hl,-⟩ := valueAt_setArch_some hs
    rw [hl]
    exact h.layouts j s₀ hs₀
  components := h.components
  sets_sound := by
    intro set j hl
    obtain ⟨s,hs,hset⟩ := h.sets_sound set j hl
    exact ⟨_,valueAt_setArch_of hs i a,hset⟩
  sets_complete := by
    intro j s hs
    obtain ⟨s₀,hs₀,hl,-⟩ := valueAt_setArch_some hs
    rw [hl]
    exact h.sets_complete j s₀ hs₀
  types := by
    intro T j hl
    obtain ⟨s,hs,ht⟩ := h.types T j hl
    exact ⟨_,valueAt_setArch_of hs i a,ht⟩
  edges := by
    intro b key edge he
    have he' : (w.edges b).lookup key=some edge := by cases b <;> exact he
    obtain ⟨src,dst,hs,hd,hn,ht,hm⟩ := h.edges b key edge he'
    exact ⟨_,_,valueAt_setArch_of hs i a,valueAt_setArch_of hd i a,hn,ht,hm⟩
  version := by
    change w.globalArchetypeVersion=⟨(w.archetypes.modifyAt i _).len+1,_,_⟩
    rw [SequenceValueHashMap.len_modifyAt]
    exact h.version
  capacity := by
    change (w.archetypes.modifyAt i _).len≤_
    rw [SequenceValueHashMap.len_modifyAt]
    exact h.capacity
  declared_components := h.declared_components
  declared_layouts := by
    intro hd j s hs
    obtain ⟨s₀,hs₀,hl,-⟩ := valueAt_setArch_some hs
    rw [hl]
    exact h.declared_layouts hd j s₀ hs₀

/-- Replacing the chunks of an archetype replaces its rows. -/
theorem row_setArch (hv : w.archetypes.valueAt i=some spec) (a : Archetype V) (l : RowLoc) :
    World.row (World.setArch w i a) l=
      if l.archId=i then a.row spec.layout l.indices else World.row w l := by
  rw [World.row,valueAt_setArch]
  by_cases hl : l.archId=i
  · rw [if_pos hl,if_pos hl.symm,hl,hv]
    rfl
  · rw [if_neg hl,if_neg (Ne.symm hl)]
    rfl

/-- The rows of a world are those of its archetypes. -/
theorem row_of_archetype (hv : w.archetypes.valueAt i=some spec) (ix : EntityInChunkIndices) :
    World.row w ⟨i,ix⟩=spec.arch.row spec.layout ix := by
  rw [World.row,hv,Option.bind_some]

/-- A change of one row of an archetype is that change of the table. -/
theorem row_setArch_update (hv : w.archetypes.valueAt i=some spec) {a : Archetype V}
    {ix : EntityInChunkIndices} {x : Option (Entity×RowData V)}
    (ha : a.row spec.layout=Function.update (spec.arch.row spec.layout) ix x) :
    World.row (World.setArch w i a)=Function.update (World.row w) ⟨i,ix⟩ x := by
  funext l
  rw [row_setArch hv,ha,Function.update_apply,Function.update_apply]
  by_cases hl : l.archId=i
  · rw [if_pos hl]
    by_cases hx : l.indices=ix
    · rw [if_pos hx,if_pos (by cases l; simp only at hl hx; rw [hl,hx])]
    · rw [if_neg hx,if_neg (fun he => hx (congrArg RowLoc.indices he)),World.row,hl,hv,
        Option.bind_some]
  · rw [if_neg hl,if_neg (fun he => hl (congrArg RowLoc.archId he))]

/-- Moving a chunk's last row into a hole, on the table. -/
theorem row_setArch_remove (hv : w.archetypes.valueAt i=some spec) {a : Archetype V}
    {ix m : EntityInChunkIndices} (ha : a.row spec.layout=Function.update
      (Function.update (spec.arch.row spec.layout) ix (spec.arch.row spec.layout m)) m none) :
    World.row (World.setArch w i a)=
      Function.update (Function.update (World.row w) ⟨i,ix⟩ (World.row w ⟨i,m⟩)) ⟨i,m⟩ none := by
  funext l
  rw [row_setArch hv,ha,row_of_archetype hv]
  simp only [Function.update_apply]
  by_cases hl : l.archId=i
  · have hiff : ∀ k,l=⟨i,k⟩ ↔ l.indices=k := by
      intro k
      cases l
      simp only [RowLoc.mk.injEq] at hl ⊢
      simp only [hl,true_and]
    have hrow : World.row w l=spec.arch.row spec.layout l.indices := by
      rw [World.row,hl,hv,Option.bind_some]
    simp only [if_pos hl,hiff,hrow]
  · have hne : ∀ k,l≠⟨i,k⟩ := fun k he => hl (congrArg RowLoc.archId he)
    rw [if_neg hl,if_neg (hne m),if_neg (hne ix)]

/-- A row of the table sits in a chunk of an archetype, below its length. -/
theorem row_eq_some {l : RowLoc} {e : Entity} {x : RowData V} (h : World.row w l=some (e,x)) :
    ∃ spec c,w.archetypes.valueAt l.archId=some spec ∧
      spec.arch.chunks[l.indices.chunkIdx]?=some c ∧ l.indices.idxInChunk<c.len ∧
      c.entities l.indices.idxInChunk=e ∧ c.rowData spec.layout l.indices.idxInChunk=x := by
  obtain ⟨spec,hv,hr⟩ := Option.bind_eq_some_iff.mp h
  obtain ⟨c,hc,hr⟩ := Option.bind_eq_some_iff.mp hr
  unfold Chunk.row at hr
  split at hr
  · rename_i hlt
    simp only [Option.some.injEq,Prod.mk.injEq] at hr
    exact ⟨spec,c,hv,hc,hlt,hr.1,hr.2⟩
  · cases hr

/-- Every row below a chunk's length is in the table. -/
theorem row_of_chunk (hv : w.archetypes.valueAt i=some spec) {j r : ℕ} {c : Chunk V}
    (hc : spec.arch.chunks[j]?=some c) (hr : r<c.len) :
    World.row w ⟨i,⟨j,r⟩⟩=some (c.entities r,c.rowData spec.layout r) := by
  rw [row_of_archetype hv,Archetype.row,hc,Option.bind_some,Chunk.row,if_pos hr]

end Rows

section Growth

/-- Registering archetypes adds no row. -/
theorem Extends.row (h : Extends w w') : World.row w'=World.row w := by
  funext l
  rw [World.row,World.row]
  cases hv : w.archetypes.valueAt l.archId with
  | some spec => rw [h.kept _ _ hv]
  | none =>
    cases hv' : w'.archetypes.valueAt l.archId with
    | none => rfl
    | some spec =>
      rw [Option.bind_some,Option.bind_none]
      rcases h.fresh _ _ hv' hv with ha | ha
      · rw [ha]
        rfl
      · rw [ha]
        rfl

/-- Registering archetypes moves no row. -/
theorem Extends.directory (h : Extends w w') : World.directory w'=World.directory w := by
  rw [World.directory,World.directory,Extends.row h,h.entityAllocator]

/-- The store stays as it was when the registry grows. -/
theorem StoreInv.extend (h : StoreInv D reserved w) (he : Extends w w') (hi : RegistryInv D w') :
    StoreInv D reserved w' where
  registry := hi
  sound := by
    intro i spec hv
    cases hv' : w.archetypes.valueAt i with
    | some spec' =>
      have := he.kept i spec' hv'
      rw [hv] at this
      cases this
      exact h.sound i spec hv'
    | none =>
      rcases he.fresh i spec hv hv' with ha | ha
      · rw [ha]
        exact sound_regular spec.layout
      · rw [ha]
        exact sound_singleton spec.layout
  slots := by
    rw [he.entityAllocator]
    exact h.slots
  consistent := by
    rw [Extends.directory he]
    exact h.consistent

end Growth

section Evolution

/-- What calls on entities and archetypes do not touch. -/
def World.frame (w : World V) :=
  (w.runtime,w.tick,w.lastQueryTick,w.hasExecutor,w.workerSpecs,w.inParallelCompute,w.queryCounter)

/-- The world has moved on: archetypes keep their places and their layouts,
components their ids, and the frame is the same. -/
structure Evolves (w w' : World V) : Prop where
  /-- Ticks, queries and workers stay. -/
  frame : World.frame w'=World.frame w
  /-- Archetypes keep layout, flag and kind. -/
  kept : ∀ (i : ℕ) (spec : ArchetypeSpec V),w.archetypes.valueAt i=some spec →
    ∃ spec',w'.archetypes.valueAt i=some spec' ∧ spec'.layout=spec.layout ∧
      spec'.allowStructureChange=spec.allowStructureChange ∧
      spec'.arch.isSingleton=spec.arch.isSingleton
  /-- Component ids stay. -/
  indexOf : ∀ t i,w.componentCounter.indexOf t=some i → w'.componentCounter.indexOf t=some i
  /-- Cached tuple types stay. -/
  types : ∀ T i,w.archetypeCounter.lookup T=some i → w'.archetypeCounter.lookup T=some i

/-- A world that stays has moved on. -/
theorem Evolves.refl (w : World V) : Evolves w w :=
  ⟨rfl,fun _ spec h => ⟨spec,h,rfl,rfl,rfl⟩,fun _ _ h => h,fun _ _ h => h⟩

/-- Moving on goes on. -/
theorem Evolves.trans {w'' : World V} (h : Evolves w w') (h' : Evolves w' w'') : Evolves w w'' where
  frame := h'.frame.trans h.frame
  kept := by
    intro i spec hv
    obtain ⟨s₁,hv₁,hl₁,ha₁,hs₁⟩ := h.kept i spec hv
    obtain ⟨s₂,hv₂,hl₂,ha₂,hs₂⟩ := h'.kept i s₁ hv₁
    exact ⟨s₂,hv₂,hl₂.trans hl₁,ha₂.trans ha₁,hs₂.trans hs₁⟩
  indexOf := fun t i hi => h'.indexOf t i (h.indexOf t i hi)
  types := fun T i ht => h'.types T i (h.types T i ht)

/-- Registering is moving on. -/
theorem Extends.evolves (h : Extends w w') : Evolves w w' where
  frame := by
    have hr := h.rest
    simp only [World.rest,Prod.mk.injEq] at hr
    obtain ⟨h1,h2,h3,h4,h5,-,h6,h7,-⟩ := hr
    simp only [World.frame,h1,h2,h3,h4,h5,h6,h7]
  kept := fun i spec hv => ⟨spec,h.kept i spec hv,rfl,rfl,rfl⟩
  indexOf := h.indexOf
  types := h.types

/-- Replacing chunks is moving on, if the kind stays. -/
theorem evolves_setArch {i : ℕ} {spec : ArchetypeSpec V} (hv : w.archetypes.valueAt i=some spec)
    {a : Archetype V} (ha : a.isSingleton=spec.arch.isSingleton) :
    Evolves w (World.setArch w i a) where
  frame := rfl
  kept := by
    intro j s hs
    refine ⟨_,valueAt_setArch_of hs i a,rfl,rfl,?_⟩
    dsimp only
    split
    · rename_i hij
      subst hij
      rw [hv] at hs
      cases hs
      exact ha
    · rfl
  indexOf := fun _ _ h => h
  types := fun _ _ h => h

/-- Changing slots is moving on. -/
theorem evolves_setSlots (w : World V) (a : EntityAllocator) : Evolves w (World.setSlots w a) :=
  ⟨rfl,fun _ spec h => ⟨spec,h,rfl,rfl,rfl⟩,fun _ _ h => h,fun _ _ h => h⟩

/-- A call that was refused: archetypes may have been registered, and the values
handed over were dropped. -/
def Refused (drops : List (StorageType×V)) (w w' : World V) : Prop :=
  ∃ w₁,Extends w w₁ ∧ w'={ w₁ with dropped := w₁.dropped++drops }

/-- Dropping what was handed over, after nothing but registration. -/
theorem refused_of (he : Extends w w') (hi : RegistryInv D w') (drops : List (StorageType×V)) :
    RegistryInv D { w' with dropped := w'.dropped++drops } ∧
      Refused drops w { w' with dropped := w'.dropped++drops } :=
  ⟨RegistryInv.congr hi rfl,w',he,rfl⟩

/-- A call that only registers is one that was refused. -/
theorem Extends.refused (h : Extends w w') : Refused [] w w' :=
  ⟨w',h,by rw [List.append_nil]⟩

/-- Growing the registry commutes with a change of the slots. -/
theorem Extends.setSlots (h : Extends w w') (a : EntityAllocator) :
    Extends (World.setSlots w a) (World.setSlots w' a) where
  rest := by
    have hr := h.rest
    simp only [World.rest,Prod.mk.injEq] at hr ⊢
    obtain ⟨h1,h2,h3,h4,h5,-,h6,h7,h8⟩ := hr
    exact ⟨h1,h2,h3,h4,h5,rfl,h6,h7,h8⟩
  kept := h.kept
  fresh := h.fresh
  indexOf := h.indexOf
  get := h.get
  types := h.types
  edges := h.edges

variable {drops : List (StorageType×V)}

/-- Refusing a call leaves slots, rows and everything else as they were. -/
theorem Refused.entityAllocator (h : Refused drops w w') :
    w'.entityAllocator=w.entityAllocator := by
  obtain ⟨w₁,he,rfl⟩ := h
  exact he.entityAllocator

/-- A refused call moves no row. -/
theorem Refused.directory (h : Refused drops w w') : World.directory w'=World.directory w := by
  obtain ⟨w₁,he,rfl⟩ := h
  rw [←Extends.directory he]
  rfl

/-- At most it registers. -/
theorem Refused.evolves (h : Refused drops w w') : Evolves w w' := by
  obtain ⟨w₁,he,rfl⟩ := h
  exact (Extends.evolves he).trans ⟨rfl,fun _ spec h => ⟨spec,h,rfl,rfl,rfl⟩,fun _ _ h => h,
    fun _ _ h => h⟩

/-- Every entity keeps its components. -/
theorem Refused.contents (h : Refused drops w w') : World.contents w'=World.contents w := by
  rw [World.contents,World.contents,Refused.directory h]

/-- A refused call leaves a store in order. -/
theorem StoreInv.refused (h : StoreInv D reserved w) (hr : Refused drops w w')
    (hi : RegistryInv D w') : StoreInv D reserved w' := by
  obtain ⟨w₁,he,rfl⟩ := hr
  exact StoreInv.congr (h.extend he (RegistryInv.congr hi rfl)) rfl rfl

end Evolution

end XynokEcs.StoreInvariants
