import XynokEcs.StoreInvariants

/-!
# What each call does to the table

Destroying takes a row out, creating adds one, merging rewrites one in place or
takes it out of one archetype and adds it to another. Whatever moved into a
hole is found at its new place, so each call is one update of the map from
handles to components. A refused call changes nothing but the registry.
-/

namespace XynokEcs.StoreSteps

open ComponentTypes EntityHandle SequenceValueMap ChunkLayouts FaultingState RowDirectory ChunkRows
  RowWrites ArchetypeStore EntityAllocation SlotInvariants WorldState WorldCalls RegistryInvariants
  RegistrySteps StoreInvariants

variable {V : Type} {D : Prop} {reserved : List Entity} {w : World V} {e : Entity}

section Lookups

variable {i : ℕ} {spec : ArchetypeSpec V} {α : Type}

/-- A registered archetype is found. -/
theorem getArchetype_eq (h : RegistryInv D w) (hv : w.archetypes.valueAt i=some spec) :
    getArchetype i w=(.ok spec,w) := by
  unfold getArchetype
  rw [getState_bind,h.get_eq,hv]
  rfl

/-- Its id is its index. -/
theorem indexOf_eq (h : RegistryInv D w) (hv : w.archetypes.valueAt i=some spec) :
    w.archetypes.indexOf i=some i := by
  rw [h.keys,if_pos]
  rw [←SequenceValueHashMap.valueAt_isSome,hv]
  rfl

/-- Work on the rows of an archetype that is there. -/
theorem onArchetype_eq (h : RegistryInv D w) (hv : w.archetypes.valueAt i=some spec)
    {x : ChunkLayout → Faulting (Archetype V) Fault α} {r : Except Fault α} {a : Archetype V}
    (hx : x spec.layout spec.arch=(r,a)) : onArchetype i x w=(r,World.setArch w i a) := by
  unfold onArchetype
  rw [bind_ok (getArchetype_eq h hv),focus_eq (t:=spec.arch) (u:=a) (r:=r) ?_ hx]
  · dsimp only [World.setArch]
    rw [SequenceValueHashMap.modify,indexOf_eq h hv]
  · rw [h.get_eq,hv,Option.map_some]

/-- Work on the slots changes the slots. -/
theorem onAllocator_eq {x : Faulting EntityAllocator Fault α} {r : Except Fault α}
    {a : EntityAllocator} (hx : x w.entityAllocator=(r,a)) :
    onAllocator x w=(r,World.setSlots w a) :=
  focus_eq rfl hx

/-- What is asked after work on the slots is asked of the slots. -/
theorem wp_onAllocator {x : Faulting EntityAllocator Fault α} {Q : α → World V → Prop}
    {E : Fault → World V → Prop} : wp (onAllocator x) Q E w ↔
      wp x (fun r a => Q r (World.setSlots w a)) (fun err a => E err (World.setSlots w a))
        w.entityAllocator :=
  wp_focus rfl

/-- A call on an entity that does not exist says so. -/
theorem withExisting_missing {f : EntitySpec → Call V α} (h : w.entityAllocator.locate e=none) :
    withExisting e f w=(.error (.err (.entityDoesNotExist e.idx e.version)),w) := by
  unfold withExisting World.entityExists
  rw [getState_bind,entityExists_eq,h]
  rfl

/-- On one that exists it goes on with the slot. -/
theorem withExisting_found {f : EntitySpec → Call V α} {l : RowLoc} {slot : EntitySpec}
    (h : w.entityAllocator.locate e=some l) (hs : w.entityAllocator.entities[e.idx]?=some slot) :
    withExisting e f w=f slot w := by
  unfold withExisting World.entityExists
  rw [getState_bind,entityExists_eq,h,hs]
  rfl

end Lookups

/-- Where the row of a live entity is kept. -/
structure Found (w : World V) (e : Entity) (slot : EntitySpec) (spec : ArchetypeSpec V)
    (c : Chunk V) : Prop where
  /-- The allocator finds the entity. -/
  locate : w.entityAllocator.locate e=some slot.loc
  /-- It is in its slot. -/
  stored : w.entityAllocator.entities[e.idx]?=some slot
  /-- The slot is at the version of the handle. -/
  version : slot.version=e.version
  /-- The slot names a registered archetype. -/
  archetype : w.archetypes.valueAt slot.archId=some spec
  /-- It names a chunk that is there. -/
  chunk : spec.arch.chunks[slot.chunkIdx]?=some c
  /-- It names a row in use. -/
  lt : slot.idxInChunk<c.len
  /-- The row keeps the handle. -/
  entity : c.entities slot.idxInChunk=e

/-- The row of a handle that is found is there. -/
theorem StoreInv.found (h : StoreInv D reserved w) {l : RowLoc}
    (hl : w.entityAllocator.locate e=some l) : ∃ slot spec c,Found w e slot spec c := by
  obtain ⟨slot,hs,hv,hver,rfl⟩ := locate_eq_some.mp hl
  obtain ⟨x,hx⟩ := h.consistent.row (l:=slot.loc) hl
  obtain ⟨spec,c,hspec,hc,hlt,he,-⟩ := row_eq_some hx
  exact ⟨slot,spec,c,hl,hs,hver,hspec,hc,hlt,he⟩

section Found

variable {slot : EntitySpec} {spec : ArchetypeSpec V} {c : Chunk V}

/-- The components of a live entity are those of its row. -/
theorem Found.contents (hf : Found w e slot spec c) (h : StoreInv D reserved w) :
    World.contents w e=some (c.rowData spec.layout slot.idxInChunk) := by
  refine h.consistent.contents_of_row (l:=slot.loc) ?_
  rw [←hf.entity]
  exact row_of_chunk hf.archetype hf.chunk hf.lt

/-- The last row of the chunk a live entity sits in. -/
theorem Found.last (hf : Found w e slot spec c) :
    World.row w ⟨slot.archId,⟨slot.chunkIdx,c.len-1⟩⟩=
      some (c.entities (c.len-1),c.rowData spec.layout (c.len-1)) :=
  row_of_chunk hf.archetype hf.chunk (by have := hf.lt; omega)

/-- The last entity of the chunk is found in its last row. -/
theorem Found.last_locate (hf : Found w e slot spec c) (h : StoreInv D reserved w) :
    w.entityAllocator.locate (c.entities (c.len-1))=
      some ⟨slot.archId,⟨slot.chunkIdx,c.len-1⟩⟩ :=
  h.consistent.locate (d:=World.directory w) hf.last

/-- The last row in use of the chunk that a place is in. -/
def World.lastOf (w : World V) (l : RowLoc) : RowLoc :=
  ⟨l.archId,⟨l.indices.chunkIdx,((w.archetypes.valueAt l.archId).bind fun spec =>
    (spec.arch.chunks[l.indices.chunkIdx]?).map Chunk.len).getD 0-1⟩⟩

/-- The last row of the chunk of a live entity is known from its length. -/
theorem Found.lastOf (hf : Found w e slot spec c) :
    World.lastOf w slot.loc=⟨slot.archId,⟨slot.chunkIdx,c.len-1⟩⟩ := by
  have hlen : ((w.archetypes.valueAt slot.archId).bind fun spec =>
      (spec.arch.chunks[slot.chunkIdx]?).map Chunk.len)=some c.len := by
    rw [hf.archetype,Option.bind_some,hf.chunk,Option.map_some]
  change (⟨slot.archId,⟨slot.chunkIdx,((w.archetypes.valueAt slot.archId).bind fun spec =>
    (spec.arch.chunks[slot.chunkIdx]?).map Chunk.len).getD 0-1⟩⟩ : RowLoc)=_
  rw [hlen,Option.getD_some]

/-- One row of one archetype was rewritten, and nothing moved. -/
theorem StoreInv.rewritten (h : StoreInv D reserved w) (hf : Found w e slot spec c)
    {a : Archetype V} {d : RowData V} (hs : Sound spec.layout a none)
    (hsing : a.isSingleton=spec.arch.isSingleton)
    (hrow : a.row spec.layout=Function.update (spec.arch.row spec.layout)
      ⟨slot.chunkIdx,slot.idxInChunk⟩ (some (e,d))) :
    StoreInv D reserved (World.setArch w slot.archId a) ∧ Evolves w (World.setArch w slot.archId a) ∧
      World.contents (World.setArch w slot.archId a)=
        Function.update (World.contents w) e (some d) := by
  have hdir : World.directory (World.setArch w slot.archId a)=
      (World.directory w).replace e slot.loc d := by
    unfold Directory.replace
    simp only [World.directory]
    congr 1
    exact row_setArch_update hf.archetype hrow
  refine ⟨⟨registryInv_setArch h.registry _ _,?_,h.slots,?_⟩,evolves_setArch hf.archetype hsing,?_⟩
  · intro j s hj
    obtain ⟨s₀,hs₀,hlay,-,-,ha⟩ := valueAt_setArch_some hj
    rw [hlay,ha]
    split
    · rename_i hij
      subst hij
      rw [hf.archetype] at hs₀
      cases hs₀
      exact hs
    · exact h.sound j s₀ hs₀
  · rw [hdir]
    exact h.consistent.replace hf.locate d
  · rw [World.contents,hdir]
    exact Directory.contents_replace h.consistent hf.locate d

end Found

/-- The slot of the row that filled a hole follows it; when the hole was the last
row, there is nothing to follow. -/
theorem followSwapped_spec (h : SlotsInv w.entityAllocator reserved) {archId chunkIdx last : ℕ}
    (hl : w.entityAllocator.locate e=some ⟨archId,⟨chunkIdx,last⟩⟩) (idx : ℕ) :
    ∃ a,followSwapped (if idx=last then none else some ⟨e,last,idx⟩) w=(.ok (),World.setSlots w a) ∧
      SlotsInv a reserved ∧ SameSlots w.entityAllocator a ∧
      a.locate=Function.update w.entityAllocator.locate e (some ⟨archId,⟨chunkIdx,idx⟩⟩) := by
  by_cases hi : idx=last
  · subst hi
    refine ⟨w.entityAllocator,by rw [if_pos rfl]; rfl,h,SameSlots.refl _,?_⟩
    rw [←hl,Function.update_eq_self]
  · obtain ⟨slot,hs,-⟩ := locate_eq_some.mp hl
    refine ⟨shiftSlot w.entityAllocator e.idx idx,?_,h.shift hl idx,sameSlots_shift _ _,
      locate_shift hl rfl idx⟩
    rw [if_neg hi]
    exact onAllocator_eq (updateEntityIndices_eq hs)

/-- Following a moved row raises no error of the crate. -/
theorem followSwapped_noErr (row : Option SwappedRow) (w : World V) :
    wp (followSwapped row) (fun _ _ => True) (fun f _ => ∀ err,f≠.err err) w := by
  cases row with
  | none => trivial
  | some row =>
    change wp (onAllocator _) _ _ w
    rw [wp_onAllocator]
    exact updateEntityIndices_noErr row _

section Destroying

/-- The slots a destroyed entity leaves behind. -/
def SlotErased (e : Entity) (a a' : EntityAllocator) : Prop :=
  ∃ a₁ slot,SameSlots a a₁ ∧ a₁.entities[e.idx]?=some slot ∧ slot.version=e.version ∧
    slot.hasValue=true ∧ a'=eraseSlot a₁ e.idx slot

/-- A stale handle is refused and nothing is touched. -/
theorem tryDestroy_missing (h : w.entityAllocator.locate e=none) :
    tryDestroy e w=(.error (.err (.entityDoesNotExist e.idx e.version)),w) :=
  withExisting_missing h

/-- Destroying a live entity always succeeds: its row goes, and the last row of the
chunk fills the hole. -/
theorem tryDestroy_rows (h : StoreInv D reserved w) {l : RowLoc}
    (hl : w.entityAllocator.locate e=some l) :
    ∃ w',tryDestroy e w=(.ok (),w') ∧ StoreInv D reserved w' ∧ Evolves w w' ∧
      SlotErased e w.entityAllocator w'.entityAllocator ∧
      World.directory w'=(World.directory w).remove e l (World.lastOf w l) := by
  obtain ⟨slot,spec,c,hf⟩ := StoreInv.found h hl
  obtain ⟨a,hrun,hsound,hsing,hrow⟩ := removeAt_spec (h.sound _ _ hf.archetype)
    (h.registry.wellFormed hf.archetype) hf.chunk hf.lt
  have hrun₁ := onArchetype_eq (x:=fun layout => removeAt layout slot.chunkIdx slot.idxInChunk)
    h.registry hf.archetype hrun
  have hlast := hf.last_locate h
  obtain ⟨a₁,hrun₂,hs₁,hsame,hloc₁⟩ := followSwapped_spec (w:=World.setArch w slot.archId a)
    h.slots hlast slot.idxInChunk
  have hle : a₁.locate e=some slot.loc := by
    rw [hloc₁,Function.update_apply]
    split
    · rfl
    · exact hf.locate
  obtain ⟨slot₁,hslot₁,hval₁,hver₁,-⟩ := locate_eq_some.mp hle
  have hrun₃ := onAllocator_eq (w:=World.setSlots (World.setArch w slot.archId a) a₁)
    (eraseEntity_eq hslot₁)
  let w' := World.setSlots (World.setArch w slot.archId a) (eraseSlot a₁ e.idx slot₁)
  have hdir : World.directory w'=(World.directory w).remove e slot.loc
      ⟨slot.archId,⟨slot.chunkIdx,c.len-1⟩⟩ := by
    unfold Directory.remove
    simp only [World.directory]
    congr 1
    · change (eraseSlot a₁ e.idx slot₁).locate=_
      rw [locate_erased hslot₁ (fun _ => hver₁),hloc₁,hf.last]
      rfl
    · exact row_setArch_remove hf.archetype hrow
  have hloc : l=slot.loc := Option.some.inj (hl.symm.trans hf.locate)
  refine ⟨w',?_,⟨?_,?_,?_,?_⟩,?_,?_,?_⟩
  · unfold tryDestroy
    rw [withExisting_found hl hf.stored,bind_ok hrun₁,bind_ok hrun₂,hrun₃]
    rfl
  · exact RegistryInv.congr (registryInv_setArch h.registry slot.archId a) rfl
  · intro j s hj
    obtain ⟨s₀,hs₀,hlay,-,-,ha⟩ := valueAt_setArch_some hj
    rw [hlay,ha]
    split
    · rename_i hij
      subst hij
      rw [hf.archetype] at hs₀
      cases hs₀
      exact hsound
    · exact h.sound j s₀ hs₀
  · exact hs₁.erase_live hslot₁ hval₁
  · rw [hdir]
    exact h.consistent.remove hf.locate hf.last
  · exact (evolves_setArch hf.archetype hsing).trans (evolves_setSlots _ _)
  · exact ⟨a₁,slot₁,hsame,hslot₁,hver₁,hval₁,rfl⟩
  · rw [hloc,hf.lastOf]
    exact hdir

/-- So it takes out exactly the entity. -/
theorem tryDestroy_found (h : StoreInv D reserved w) {l : RowLoc}
    (hl : w.entityAllocator.locate e=some l) :
    ∃ w',tryDestroy e w=(.ok (),w') ∧ StoreInv D reserved w' ∧ Evolves w w' ∧
      SlotErased e w.entityAllocator w'.entityAllocator ∧
      World.contents w'=Function.update (World.contents w) e none := by
  obtain ⟨w',hrun,hinv,hev,herased,hdir⟩ := tryDestroy_rows h hl
  obtain ⟨slot,spec,c,hf⟩ := StoreInv.found h hl
  have hloc : l=slot.loc := Option.some.inj (hl.symm.trans hf.locate)
  refine ⟨w',hrun,hinv,hev,herased,?_⟩
  rw [World.contents,hdir,hloc,hf.lastOf]
  exact Directory.contents_remove h.consistent hf.locate hf.last

end Destroying

section Taking

/-- The store does not notice that a handle was taken. -/
theorem StoreInv.taken (h : StoreInv D reserved w) {a : EntityAllocator}
    (ht : Taken w.entityAllocator e a) (hs : SlotsInv a (e::reserved)) :
    StoreInv D (e::reserved) (World.setSlots w a) where
  registry := RegistryInv.congr h.registry rfl
  sound := h.sound
  slots := hs
  consistent := by
    rw [directory_congr (w:=w) (v:=World.setSlots w a) rfl ht.locate]
    exact h.consistent

/-- Taking a handle changes no entity. -/
theorem Taken.contents {a : EntityAllocator} (ht : Taken w.entityAllocator e a) :
    World.contents (World.setSlots w a)=World.contents w := by
  rw [World.contents,World.contents,directory_congr (w:=w) (v:=World.setSlots w a) rfl ht.locate]

/-- Taking a handle from the world. -/
theorem onAllocator_newEntity (h : StoreInv D reserved w) :
    wp (onAllocator newEntity) (fun e w' => ∃ a,Taken w.entityAllocator e a ∧
        w'=World.setSlots w a ∧ StoreInv D (e::reserved) w') (fun _ w' => w'=w) w := by
  rw [wp_onAllocator]
  refine wp_mono (newEntity_spec h.slots) ?_ ?_
  · rintro e a ⟨ht,hs⟩
    exact ⟨a,ht,rfl,StoreInv.taken h ht hs⟩
  · rintro err a rfl
    rfl

end Taking

section Creating

variable [Inhabited V] {val : Bundle V}

/-- A reserved handle was attached to a new row that holds the bundle. -/
def Created (D : Prop) (e : Entity) (val : Bundle V) (w w' : World V) : Prop :=
  ∃ l d,w'.entityAllocator=attachSlot w.entityAllocator e l ∧ Evolves w w' ∧
    World.contents w'=Function.update (World.contents w) e (some d) ∧
    (D → d=mergeRow val.items w.tick emptyRow)

/-- Pushing a bundle and attaching the handle, once the archetype is known. -/
theorem attach_spec (h : StoreInv D (e::reserved) w) (hD : D → val.ty.isDeclared=true) {i : ℕ}
    {spec : ArchetypeSpec V} (hv : w.archetypes.valueAt i=some spec)
    (ht : HasTypes spec.layout val.ty) :
    (∃ err,validateArchetypeWritable val.ty spec.layout=.error err ∧
      onArchetype i (fun layout => push layout e val w.tick) w=(.error (.err err),w)) ∨
    ∃ ix w₁ w',onArchetype i (fun layout => push layout e val w.tick) w=(.ok ix,w₁) ∧
      onAllocator (updateEntitySpec e i ix) w₁=(.ok (),w') ∧ StoreInv D reserved w' ∧
      Created D e val w w' := by
  cases hval : validateArchetypeWritable val.ty spec.layout with
  | error err =>
    refine .inl ⟨err,rfl,?_⟩
    rw [onArchetype_eq (x:=fun layout => push layout e val w.tick) h.registry hv
      (push_refused hval),setArch_self hv]
  | ok _ =>
    right
    obtain ⟨ix,a,d,hrun,hsound,hsing,hfree,hrow,hd⟩ := push_spec (h.sound i spec hv)
      (h.registry.wellFormed hv).maxLen_pos
      (Accepts.mk ht.1 (validateArchetypeWritable_ok.mp hval)) e w.tick
    have hrun₁ := onArchetype_eq (x:=fun layout => push layout e val w.tick) h.registry hv hrun
    obtain ⟨-,slot,hslot,hempty,-⟩ := h.slots.reserved_slot e List.mem_cons_self
    have hnot : slot.hasValue=true → slot.version=e.version := by
      intro hc
      rw [hempty] at hc
      cases hc
    have hnone := h.slots.reserved_not_found (e:=e) List.mem_cons_self
    have hrun₂ := onAllocator_eq (w:=World.setArch w i a) (updateEntitySpec_eq hslot i ix)
    let w' := World.setSlots (World.setArch w i a) (attachSlot w.entityAllocator e ⟨i,ix⟩)
    have hdir : World.directory w'=(World.directory w).insert e ⟨i,ix⟩ d := by
      unfold Directory.insert
      simp only [World.directory]
      congr 1
      · exact locate_attach hslot hnot ⟨i,ix⟩
      · exact row_setArch_update hv hrow
    have hplace : (World.directory w).rows ⟨i,ix⟩=none := (row_of_archetype hv ix).trans hfree
    refine ⟨ix,_,w',hrun₁,hrun₂,⟨?_,?_,h.slots.attach ⟨i,ix⟩,?_⟩,⟨i,ix⟩,d,rfl,?_,?_,?_⟩
    · exact RegistryInv.congr (registryInv_setArch h.registry i a) rfl
    · intro j s hj
      obtain ⟨s₀,hs₀,hlay,-,-,ha⟩ := valueAt_setArch_some hj
      rw [hlay,ha]
      split
      · rename_i hij
        subst hij
        rw [hv] at hs₀
        cases hs₀
        exact hsound
      · exact h.sound j s₀ hs₀
    · rw [hdir]
      exact h.consistent.insert hnone hplace d
    · exact (evolves_setArch hv hsing).trans (evolves_setSlots _ _)
    · rw [World.contents,hdir]
      exact Directory.contents_insert h.consistent hplace d
    · intro hDD
      exact hd (h.registry.declared_layouts hDD i spec hv) (hD hDD) ht.2

/-- `create_components_for` attaches the handle, or is refused. -/
theorem createComponentsFor_spec (h : StoreInv D (e::reserved) w)
    (hD : D → val.ty.isDeclared=true) :
    wp (createComponentsFor e val) (fun _ w' => StoreInv D reserved w' ∧ Created D e val w w')
      (fun _ w' => RegistryInv D w' ∧ Refused val.drops w w') w := by
  unfold createComponentsFor consuming
  rw [wp_onFault]
  refine Registers.wp_bind (getOrCreateArchetypeAs_spec h.registry hD) ?_
    (fun _ w₁ hext hinv => refused_of hext hinv _)
  rintro i w₁ hext hinv ⟨-,spec,hv,ht⟩
  have h₁ := h.extend hext hinv
  refine Registers.wp_bind (getArchetype_spec hinv i) ?_
    (fun _ w₂ hext' hinv' => refused_of (hext.trans hext') hinv' _)
  rintro spec' w₂ - - ⟨rfl,hv'⟩
  rw [hv] at hv'
  cases hv'
  split
  · exact refused_of hext hinv _
  · rw [wp_bind,wp_getState]
    rcases attach_spec h₁ hD hv ht with ⟨err,-,hrun⟩ | ⟨ix,w₃,w',hrun,hrun',hinv',l,d,ha,hev,hc,hd⟩
    · apply wp_intro
      · intro a t hr
        rw [bind_error hrun] at hr
        cases hr
      · intro err' t hr
        rw [bind_error hrun] at hr
        cases hr
        exact refused_of hext hinv _
    · apply wp_intro
      · intro a t hr
        rw [bind_ok hrun,hrun'] at hr
        cases hr
        refine ⟨hinv',l,d,?_,(Extends.evolves hext).trans hev,?_,?_⟩
        · rw [ha,hext.entityAllocator]
        · rw [hc,World.contents,World.contents,Extends.directory hext]
        · rw [←hext.tick]
          exact hd
      · intro err' t hr
        rw [bind_ok hrun,hrun'] at hr
        cases hr

/-- `try_create` adds one entity that holds the bundle. When it is refused no
row changes, but the slot it took stays taken. -/
theorem tryCreate_spec (h : StoreInv D reserved w) (hD : D → val.ty.isDeclared=true) :
    wp (tryCreate val)
      (fun e w' => StoreInv D reserved w' ∧ ∃ a,Taken w.entityAllocator e a ∧
        SlotsInv a (e::reserved) ∧ Created D e val (World.setSlots w a) w')
      (fun _ w' => RegistryInv D w' ∧ (Refused val.drops w w' ∨ ∃ e a,Taken w.entityAllocator e a ∧
        SlotsInv a (e::reserved) ∧ Refused val.drops (World.setSlots w a) w')) w := by
  unfold tryCreate
  rw [wp_bind,consuming,wp_onFault]
  refine wp_mono (onAllocator_newEntity h) ?_ ?_
  · rintro e w₁ ⟨a,ht,rfl,h₁⟩
    rw [wp_bind]
    refine wp_mono (createComponentsFor_spec h₁ hD) ?_ ?_
    · rintro - w' ⟨hinv,hc⟩
      exact ⟨hinv,a,ht,h₁.slots,hc⟩
    · rintro err w' ⟨hinv,hr⟩
      exact ⟨hinv,.inr ⟨e,a,ht,h₁.slots,hr⟩⟩
  · rintro err w₁ rfl
    have hr := refused_of (Extends.refl w₁) h.registry val.drops
    exact ⟨hr.1,.inl hr.2⟩

omit [Inhabited V] in
/-- The archetype a singleton is created in has exactly the bundle's types. -/
theorem getOrCreateSingletonArchetypeId_spec (h : RegistryInv D w) {T : TArchetype}
    (hD : D → T.isDeclared=true) :
    Registers D (getOrCreateSingletonArchetypeId T) w (fun i w' =>
      ∃ spec : ArchetypeSpec V,w'.archetypes.valueAt i=some spec ∧ HasTypes spec.layout T) := by
  unfold getOrCreateSingletonArchetypeId
  refine Registers.bind (getOrCreateArchetypeAs_spec h hD) ?_
  rintro i w₁ - hinv ⟨-,spec,hv,ht⟩
  refine Registers.bind (getArchetype_spec hinv i) ?_
  rintro spec' w₂ - - ⟨rfl,-⟩
  split
  · exact Registers.fault hinv
  · exact Registers.pure hinv ⟨spec,hv,ht⟩

/-- `try_create_singleton` adds one entity that holds the bundle; when the push
is refused the slot is given back. -/
theorem tryCreateSingleton_spec (h : StoreInv D reserved w) (hD : D → val.ty.isDeclared=true) :
    wp (tryCreateSingleton val)
      (fun e w' => StoreInv D reserved w' ∧ ∃ a,Taken w.entityAllocator e a ∧
        SlotsInv a (e::reserved) ∧ Created D e val (World.setSlots w a) w')
      (fun _ w' => RegistryInv D w' ∧ (Refused val.drops w w' ∨ ∃ e a slot,
        Taken w.entityAllocator e a ∧ SlotsInv a (e::reserved) ∧ a.entities[e.idx]?=some slot ∧
        Refused val.drops (World.setSlots w (eraseSlot a e.idx slot)) w')) w := by
  unfold tryCreateSingleton consuming
  rw [wp_onFault]
  have hrefuse : ∀ w₁,Extends w w₁ → RegistryInv D w₁ →
      RegistryInv D { w₁ with dropped := w₁.dropped++val.drops } ∧
        (Refused val.drops w { w₁ with dropped := w₁.dropped++val.drops } ∨ ∃ e a slot,
          Taken w.entityAllocator e a ∧ SlotsInv a (e::reserved) ∧ a.entities[e.idx]?=some slot ∧
          Refused val.drops (World.setSlots w (eraseSlot a e.idx slot))
            { w₁ with dropped := w₁.dropped++val.drops }) :=
    fun w₁ hext hinv => ⟨(refused_of hext hinv _).1,.inl (refused_of hext hinv _).2⟩
  refine Registers.wp_bind (getOrCreateSingletonArchetypeId_spec h.registry hD) ?_ (fun _ w₁ hext hinv => hrefuse w₁ hext hinv)
  rintro i w₁ hext hinv ⟨spec,hv,ht⟩
  have h₁ := h.extend hext hinv
  refine Registers.wp_bind (getArchetype_spec hinv i) ?_
    (fun _ w₂ hext' hinv' => hrefuse w₂ (hext.trans hext') hinv')
  rintro spec' w₂ - - ⟨rfl,hv'⟩
  rw [hv] at hv'
  cases hv'
  split
  · exact hrefuse w₂ hext hinv
  · rw [wp_bind]
    refine wp_mono (onAllocator_newEntity h₁) ?_ ?_
    · rintro e w₃ ⟨a,htak,rfl,h₃⟩
      have htak' : Taken w.entityAllocator e a := hext.entityAllocator ▸ htak
      rw [wp_bind,wp_getState,wp_bind,onErr,wp_handle]
      rcases attach_spec h₃ hD hv ht with ⟨err,-,hrun⟩ | ⟨ix,w₄,w',hrun,hrun',hinv',l,d,ha,hev,hc,hd⟩
      · apply wp_intro
        · intro ix t hr
          rw [hrun] at hr
          cases hr
        · intro err' t hr
          rw [hrun] at hr
          cases hr
          obtain ⟨-,slot,hslot,-⟩ := h₃.slots.reserved_slot e List.mem_cons_self
          have herase := onAllocator_eq (w:=World.setSlots w₂ a) (eraseEntity_eq hslot)
          have hr' := refused_of (Extends.setSlots hext (eraseSlot a e.idx slot))
            (RegistryInv.congr hinv rfl) val.drops
          apply wp_intro
          · intro ix t hr
            dsimp only at hr
            rw [bind_ok herase] at hr
            cases hr
          · intro err' t hr
            dsimp only at hr
            rw [bind_ok herase] at hr
            cases hr
            exact ⟨hr'.1,.inr ⟨e,a,slot,htak',h₃.slots,hslot,hr'.2⟩⟩
      · apply wp_intro
        · intro ix' t hr
          rw [hrun] at hr
          cases hr
          rw [wp_bind]
          apply wp_intro
          · intro u t hr
            rw [hrun'] at hr
            cases hr
            refine ⟨hinv',a,htak',h₃.slots,l,d,ha,?_,?_,?_⟩
            · exact (Extends.evolves (Extends.setSlots hext a)).trans hev
            · rw [hc,World.contents,World.contents,Extends.directory (Extends.setSlots hext a)]
            · intro hDD
              rw [hd hDD]
              change mergeRow val.items w₂.tick emptyRow=mergeRow val.items w.tick emptyRow
              rw [hext.tick]
          · intro err t hr
            rw [hrun'] at hr
            cases hr
        · intro err' t hr
          rw [hrun] at hr
          cases hr
    · rintro err w₃ rfl
      exact hrefuse w₃ hext hinv

end Creating

section Moving

variable {α : Type} {src dst : ArchetypeSpec V} {slot : EntitySpec} {c : Chunk V}

/-- One entity's components became a function of what they were; everything
else in the table is as before. -/
def Rewritten (D : Prop) (e : Entity) (f : RowData V → RowData V) (w w' : World V) : Prop :=
  SameSlots w.entityAllocator w'.entityAllocator ∧ Evolves w w' ∧
    ∃ x d,World.contents w e=some x ∧
      World.contents w'=Function.update (World.contents w) e (some d) ∧ (D → d=f x)

/-- A registered archetype is at its index. -/
theorem archetypeIndex_eq (h : RegistryInv D w) {i : ℕ} (hv : w.archetypes.valueAt i=some src) :
    archetypeIndex i w=(.ok i,w) := by
  unfold archetypeIndex
  rw [getState_bind,indexOf_eq h hv]
  rfl

/-- Work on two different archetypes that are there. -/
theorem onArchetypePair_eq {i j : ℕ} (hs : w.archetypes.valueAt i=some src)
    (hd : w.archetypes.valueAt j=some dst) (hne : i≠j)
    {x : ChunkLayout → ChunkLayout → Faulting (ArchetypePair V) Fault α} {r : Except Fault α}
    {p : ArchetypePair V} (hx : x src.layout dst.layout ⟨dst.arch,src.arch⟩=(r,p)) :
    onArchetypePair i j x w=(r,World.setArch (World.setArch w i p.src) j p.dst) := by
  unfold onArchetypePair
  rw [hs,hd]
  dsimp only
  rw [if_neg hne]
  exact focus_eq rfl hx

/-- The archetype a live entity sits in is where it was after the registry grew. -/
theorem Found.extend {w₁ : World V} (hf : Found w e slot src c) (he : Extends w w₁) :
    Found w₁ e slot src c where
  locate := by rw [he.entityAllocator]; exact hf.locate
  stored := by rw [he.entityAllocator]; exact hf.stored
  version := hf.version
  archetype := he.kept _ _ hf.archetype
  chunk := hf.chunk
  lt := hf.lt
  entity := hf.entity

/-- The check for locks changes nothing. -/
theorem checkStructureChange_spec (h : RegistryInv D w) (srcArchId dstArchId : ℕ) :
    Registers D (checkStructureChange T e srcArchId dstArchId) w (fun _ w' => w'=w) := by
  unfold checkStructureChange
  refine Registers.bind (getArchetype_spec h srcArchId) ?_
  rintro src w₁ - - ⟨rfl,-⟩
  refine Registers.bind (getArchetype_spec h dstArchId) ?_
  rintro dst w₂ - - ⟨rfl,-⟩
  split
  · exact Registers.fault h
  · exact Registers.pure h rfl

/-- A row was taken out of one archetype and arrived in another. -/
structure RowMoved (src dst : ArchetypeSpec V) (c : Chunk V) (i idx : ℕ) (ix : EntityInChunkIndices)
    (pair : ArchetypePair V) (d : RowData V) : Prop where
  /-- The bookkeeping of the destination is in order. -/
  dst_sound : Sound dst.layout pair.dst none
  /-- The bookkeeping of the source is in order. -/
  src_sound : Sound src.layout pair.src none
  /-- The destination stays of its kind. -/
  dst_singleton : pair.dst.isSingleton=dst.arch.isSingleton
  /-- The source stays of its kind. -/
  src_singleton : pair.src.isSingleton=src.arch.isSingleton
  /-- The row it arrives at was not in use. -/
  free : dst.arch.row dst.layout ix=none
  /-- The destination gains the row, and nothing else. -/
  arrived : pair.dst.row dst.layout=
    Function.update (dst.arch.row dst.layout) ix (some (c.entities idx,d))
  /-- The source loses the row, and its last row fills the hole. -/
  left : pair.src.row src.layout=Function.update (Function.update (src.arch.row src.layout) ⟨i,idx⟩
    (src.arch.row src.layout ⟨i,c.len-1⟩)) ⟨i,c.len-1⟩ none

variable {isRemove : Bool} {T : TArchetype} {dstArchId : ℕ}
  {x : MigrationPlan → ChunkLayout → ChunkLayout → Faulting (ArchetypePair V) Fault (ResultTake×α)}

/-- Moving along an edge starts with looking up both archetypes and the plan. -/
theorem moveRow_eq (h : RegistryInv D w)
    (hr : EdgeReady isRemove ⟨slot.archId,T⟩ dstArchId src dst w) :
    moveRow isRemove e slot ⟨slot.archId,T⟩ dstArchId x w=(do
      let result ← onArchetypePair slot.archId dstArchId
        (x (MigrationPlan.new src.layout dst.layout))
      followSwapped result.1.swappedE
      onAllocator (updateEntitySpec e dstArchId result.1.newIndicesTook)
      return result.2) w := by
  unfold moveRow
  rw [bind_ok (archetypeIndex_eq h hr.source),bind_ok (archetypeIndex_eq h hr.target),getState_bind,
    hr.cached]

/-- No row moves from an archetype to itself. -/
theorem moveRow_same (h : RegistryInv D w)
    (hr : EdgeReady isRemove ⟨slot.archId,T⟩ slot.archId src dst w) :
    moveRow isRemove e slot ⟨slot.archId,T⟩ slot.archId x w=(.error (.panic .unwrapFailed),w) := by
  have hpair : onArchetypePair slot.archId slot.archId
      (x (MigrationPlan.new src.layout dst.layout)) w=(.error (.panic .unwrapFailed),w) := by
    have hs : w.archetypes.valueAt slot.archId=some src := hr.source
    unfold onArchetypePair
    rw [hs]
    dsimp only
    rw [if_pos rfl]
  rw [moveRow_eq h hr,bind_error hpair]

/-- A refused move leaves the world as it was. -/
theorem moveRow_refused (h : RegistryInv D w)
    (hr : EdgeReady isRemove ⟨slot.archId,T⟩ dstArchId src dst w) (hne : slot.archId≠dstArchId)
    {err : Fault} (hx : x (MigrationPlan.new src.layout dst.layout) src.layout dst.layout
      ⟨dst.arch,src.arch⟩=(.error err,⟨dst.arch,src.arch⟩)) :
    moveRow isRemove e slot ⟨slot.archId,T⟩ dstArchId x w=(.error err,w) := by
  have hs : w.archetypes.valueAt slot.archId=some src := hr.source
  have hpair := onArchetypePair_eq hs hr.target hne hx
  dsimp only at hpair
  rw [setArch_self hs,setArch_self hr.target] at hpair
  rw [moveRow_eq h hr,bind_error hpair]

/-- A moved row is found at its new place, and so is the row that filled its
hole. -/
theorem moveRow_rows (h : StoreInv D reserved w) (hf : Found w e slot src c)
    (hr : EdgeReady isRemove ⟨slot.archId,T⟩ dstArchId src dst w) (hne : slot.archId≠dstArchId)
    {ix : EntityInChunkIndices} {v : α} {pair : ArchetypePair V} {d : RowData V}
    (hx : x (MigrationPlan.new src.layout dst.layout) src.layout dst.layout ⟨dst.arch,src.arch⟩=
      (.ok (⟨ix,if slot.idxInChunk=c.len-1 then none
        else some ⟨c.entities (c.len-1),c.len-1,slot.idxInChunk⟩⟩,v),pair))
    (hm : RowMoved src dst c slot.chunkIdx slot.idxInChunk ix pair d) :
    ∃ w',moveRow isRemove e slot ⟨slot.archId,T⟩ dstArchId x w=(.ok v,w') ∧
      StoreInv D reserved w' ∧ SameSlots w.entityAllocator w'.entityAllocator ∧ Evolves w w' ∧
      ((World.directory w).remove e slot.loc (World.lastOf w slot.loc)).rows ⟨dstArchId,ix⟩=none ∧
      World.directory w'=((World.directory w).remove e slot.loc (World.lastOf w slot.loc)).insert e
        ⟨dstArchId,ix⟩ d := by
  let w₁ := World.setArch w slot.archId pair.src
  let w₂ := World.setArch w₁ dstArchId pair.dst
  have hdst₁ : w₁.archetypes.valueAt dstArchId=some dst := by
    rw [valueAt_setArch,if_neg hne]
    exact hr.target
  have hpair := onArchetypePair_eq hf.archetype hr.target hne hx
  obtain ⟨a₁,hrun₂,hs₁,hsame₁,hloc₁⟩ := followSwapped_spec (w:=w₂) h.slots (hf.last_locate h)
    slot.idxInChunk
  have hle : a₁.locate e=some slot.loc := by
    rw [hloc₁,Function.update_apply]
    split
    · rfl
    · exact hf.locate
  obtain ⟨slot₁,hslot₁,hval₁,hver₁,-⟩ := locate_eq_some.mp hle
  have hrun₃ := onAllocator_eq (w:=World.setSlots w₂ a₁) (updateEntitySpec_eq hslot₁ dstArchId ix)
  let w' := World.setSlots w₂ (attachSlot a₁ e ⟨dstArchId,ix⟩)
  let last : RowLoc := ⟨slot.archId,⟨slot.chunkIdx,c.len-1⟩⟩
  have hrows : World.row w₂=Function.update (Function.update (Function.update (World.row w) slot.loc
      (World.row w last)) last none) ⟨dstArchId,ix⟩ (some (e,d)) := by
    have hleft := row_setArch_remove hf.archetype hm.left
    have harr := hm.arrived
    rw [hf.entity] at harr
    rw [row_setArch_update hdst₁ harr,hleft]
    rfl
  have hdir : World.directory w'=((World.directory w).remove e slot.loc last).insert e
      ⟨dstArchId,ix⟩ d := by
    unfold Directory.insert Directory.remove
    simp only [World.directory]
    congr 1
    · change (attachSlot a₁ e ⟨dstArchId,ix⟩).locate=_
      rw [locate_attach hslot₁ (fun _ => hver₁),hloc₁,hf.last]
      dsimp only
      rw [Function.update_idem]
      rfl
  have hplace : ((World.directory w).remove e slot.loc last).rows ⟨dstArchId,ix⟩=none := by
    have hl : (⟨dstArchId,ix⟩ : RowLoc)≠slot.loc := fun he => hne (congrArg RowLoc.archId he).symm
    have hm' : (⟨dstArchId,ix⟩ : RowLoc)≠last := fun he => hne (congrArg RowLoc.archId he).symm
    simp only [Directory.remove,Function.update_apply,if_neg hl,if_neg hm']
    exact (row_of_archetype hr.target ix).trans hm.free
  have hcons := h.consistent.remove hf.locate hf.last
  have hnone : ((World.directory w).remove e slot.loc last).locate e=none := by
    simp only [Directory.remove,Function.update_self]
  rw [hf.lastOf]
  refine ⟨w',?_,⟨?_,?_,?_,?_⟩,?_,?_,hplace,hdir⟩
  · rw [moveRow_eq h.registry hr,bind_ok hpair,bind_ok hrun₂,bind_ok hrun₃]
    rfl
  · exact RegistryInv.congr (registryInv_setArch (registryInv_setArch h.registry _ _) _ _) rfl
  · intro j s hj
    obtain ⟨s₁,hs₁,hlay,-,-,ha⟩ := valueAt_setArch_some (w:=w₁) hj
    obtain ⟨s₀,hs₀,hlay₀,-,-,ha₀⟩ := valueAt_setArch_some hs₁
    rw [hlay,hlay₀,ha]
    split
    · rename_i hij
      subst hij
      rw [hr.target] at hs₀
      cases hs₀
      exact hm.dst_sound
    · rw [ha₀]
      split
      · rename_i hij
        subst hij
        rw [hf.archetype] at hs₀
        cases hs₀
        exact hm.src_sound
      · exact h.sound j s₀ hs₀
  · exact hs₁.reattach hle ⟨dstArchId,ix⟩
  · rw [hdir]
    exact hcons.insert hnone hplace d
  · exact hsame₁.trans (sameSlots_attach hle _)
  · exact ((evolves_setArch hf.archetype hm.src_singleton).trans
      (evolves_setArch hdst₁ hm.dst_singleton)).trans (evolves_setSlots _ _)

/-- So moving a row changes the components of its entity only. -/
theorem moveRow_moved (h : StoreInv D reserved w) (hf : Found w e slot src c)
    (hr : EdgeReady isRemove ⟨slot.archId,T⟩ dstArchId src dst w) (hne : slot.archId≠dstArchId)
    {ix : EntityInChunkIndices} {v : α} {pair : ArchetypePair V} {d : RowData V}
    (hx : x (MigrationPlan.new src.layout dst.layout) src.layout dst.layout ⟨dst.arch,src.arch⟩=
      (.ok (⟨ix,if slot.idxInChunk=c.len-1 then none
        else some ⟨c.entities (c.len-1),c.len-1,slot.idxInChunk⟩⟩,v),pair))
    (hm : RowMoved src dst c slot.chunkIdx slot.idxInChunk ix pair d) :
    ∃ w',moveRow isRemove e slot ⟨slot.archId,T⟩ dstArchId x w=(.ok v,w') ∧
      StoreInv D reserved w' ∧ SameSlots w.entityAllocator w'.entityAllocator ∧ Evolves w w' ∧
      World.contents w'=Function.update (World.contents w) e (some d) := by
  obtain ⟨w',hrun,hinv,hsame,hev,hplace,hdir⟩ := moveRow_rows h hf hr hne hx hm
  refine ⟨w',hrun,hinv,hsame,hev,?_⟩
  rw [hf.lastOf] at hplace hdir
  rw [World.contents,hdir,Directory.contents_insert (h.consistent.remove hf.locate hf.last) hplace,
    Directory.contents_remove h.consistent hf.locate hf.last,Function.update_idem]
  rfl

/-- Errors along an edge come before the row moves. -/
theorem moveRow_errUnchanged (h : RegistryInv D w)
    (hr : EdgeReady isRemove ⟨slot.archId,T⟩ dstArchId src dst w)
    (hx : ∀ pair,ErrUnchanged (x (MigrationPlan.new src.layout dst.layout) src.layout dst.layout)
      pair) : ErrUnchanged (moveRow isRemove e slot ⟨slot.archId,T⟩ dstArchId x) w := by
  have hs : w.archetypes.valueAt slot.archId=some src := hr.source
  by_cases hne : slot.archId=dstArchId
  · subst hne
    apply wp_intro
    · intro _ _ _
      trivial
    · intro f w' hrun err herr
      rw [moveRow_same h hr] at hrun
      cases hrun
      rfl
  · unfold ErrUnchanged wp
    rw [moveRow_eq h hr]
    change wp _ _ _ w
    rw [wp_bind]
    have hpair := hx ⟨dst.arch,src.arch⟩
    apply wp_intro
    · intro result w' _
      rw [wp_bind]
      refine wp_mono (Q:=fun _ _ => True) (E:=fun f _ => ∀ err,f≠.err err) ?_ ?_
        (fun f w' hf err herr => absurd herr (hf err))
      · exact followSwapped_noErr result.1.swappedE w'
      · intro _ w'' _
        rw [wp_bind,wp_onAllocator]
        exact wp_mono (updateEntitySpec_noErr e dstArchId result.1.newIndicesTook _)
          (fun _ _ _ => trivial) (fun f _ hf err herr => absurd herr (hf err))
    · intro f w' hrun err herr
      cases hres : x (MigrationPlan.new src.layout dst.layout) src.layout dst.layout
          ⟨dst.arch,src.arch⟩ with
      | mk r p =>
        rw [onArchetypePair_eq hs hr.target hne hres] at hrun
        cases r with
        | ok v => cases hrun
        | error f' =>
          cases hrun
          have hp := wp_of_error hpair hres err herr
          rw [hp]
          dsimp only
          rw [setArch_self hs,setArch_self hr.target]

end Moving

end XynokEcs.StoreSteps
