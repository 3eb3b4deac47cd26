import XynokEcs.EntityAllocation

/-!
# Slots and the handles that name them

A slot holds an entity, waits in the queue, is reserved under a handle that was
taken and not attached yet, or has been retired. Taking a handle never moves a
version back, attaching makes the handle the one that is found, and erasing
makes the slot available under a later version only.
-/

namespace XynokEcs.SlotInvariants

open ComponentTypes EntityHandle FaultingState ChunkRows ArchetypeStore EntityAllocation

/-- What the allocator keeps between operations, next to the handles that were
taken and are not attached yet. -/
structure SlotsInv (a : EntityAllocator) (reserved : List Entity) : Prop where
  /-- Versions stay within their bits. -/
  versions : ∀ (i : ℕ) spec,a.entities[i]?=some spec →
    1 ≤ spec.version ∧ spec.version≤Entity.maxVersion
  /-- So do indices. -/
  capacity : a.entities.length≤Entity.maxIdx+1
  /-- The free list names a slot once. -/
  free_nodup : a.freeEntities.Nodup
  /-- A free slot holds no entity and has a version left. -/
  free_slot : ∀ i∈a.freeEntities,∃ spec,a.entities[i]?=some spec ∧ spec.hasValue=false ∧
    spec.version<Entity.maxVersion
  /-- No two reserved handles are for one slot. -/
  reserved_nodup : (reserved.map Entity.idx).Nodup
  /-- A reserved slot is not free, holds no entity and has a version left. -/
  reserved_slot : ∀ e∈reserved,e.idx∉a.freeEntities ∧ ∃ spec,a.entities[e.idx]?=some spec ∧
    spec.hasValue=false ∧ spec.version<Entity.maxVersion ∧
    (e.version=spec.version+1 ∨ e.version=spec.version)

/-- A new allocator is in order. -/
theorem slotsInv_new : SlotsInv .new [] where
  versions := by
    rintro i spec ⟨⟩
  capacity := Nat.zero_le _
  free_nodup := List.nodup_nil
  free_slot := by
    rintro i ⟨⟩
  reserved_nodup := List.nodup_nil
  reserved_slot := by
    rintro e ⟨⟩

variable {a : EntityAllocator} {reserved : List Entity} {e : Entity} {spec : EntitySpec}

/-- The order in which handles are reserved does not matter. -/
theorem SlotsInv.perm {reserved' : List Entity} (h : SlotsInv a reserved)
    (hp : reserved.Perm reserved') : SlotsInv a reserved' where
  versions := h.versions
  capacity := h.capacity
  free_nodup := h.free_nodup
  free_slot := h.free_slot
  reserved_nodup := (hp.map Entity.idx).nodup_iff.mp h.reserved_nodup
  reserved_slot := fun e he => h.reserved_slot e (hp.mem_iff.mpr he)

/-- Handles may be forgotten. -/
theorem SlotsInv.sublist {reserved' : List Entity} (h : SlotsInv a reserved)
    (hs : reserved'.Sublist reserved) : SlotsInv a reserved' where
  versions := h.versions
  capacity := h.capacity
  free_nodup := h.free_nodup
  free_slot := h.free_slot
  reserved_nodup := h.reserved_nodup.sublist (hs.map Entity.idx)
  reserved_slot := fun e he => h.reserved_slot e (hs.subset he)

/-- A slot that is neither free nor reserved may be rewritten. -/
theorem SlotsInv.set {i : ℕ} {x : EntitySpec} (h : SlotsInv a reserved)
    (hf : i∉a.freeEntities) (hr : i∉reserved.map Entity.idx)
    (hv : 1≤x.version ∧ x.version≤Entity.maxVersion) :
    SlotsInv { a with entities := a.entities.set i x } reserved where
  versions := by
    intro j spec hj
    rw [List.getElem?_set] at hj
    split at hj
    · split at hj
      · cases hj
        exact hv
      · cases hj
    · exact h.versions j spec hj
  capacity := by
    rw [List.length_set]
    exact h.capacity
  free_nodup := h.free_nodup
  free_slot := by
    intro j hj
    have hne : i≠j := by
      rintro rfl
      exact hf hj
    dsimp only
    rw [List.getElem?_set_ne hne]
    exact h.free_slot j hj
  reserved_nodup := h.reserved_nodup
  reserved_slot := by
    intro e he
    dsimp only
    rw [List.getElem?_set_ne (fun hi => hr (List.mem_map.mpr ⟨e,he,hi.symm⟩))]
    exact h.reserved_slot e he

/-- The slot of a reserved handle is not free and reserved under no other. -/
theorem SlotsInv.reserved_apart (h : SlotsInv a (e::reserved)) :
    e.idx∉a.freeEntities ∧ e.idx∉reserved.map Entity.idx := by
  have hn := h.reserved_nodup
  rw [List.map_cons,List.nodup_cons] at hn
  exact ⟨(h.reserved_slot e List.mem_cons_self).1,hn.1⟩

/-- A slot with an entity is neither free nor reserved. -/
theorem SlotsInv.live_apart (h : SlotsInv a reserved) {i : ℕ} (hs : a.entities[i]?=some spec)
    (hl : spec.hasValue=true) : i∉a.freeEntities ∧ i∉reserved.map Entity.idx := by
  constructor
  · intro hi
    obtain ⟨spec',hs',hf,-⟩ := h.free_slot i hi
    rw [hs] at hs'
    cases hs'
    rw [hl] at hf
    cases hf
  · intro hi
    obtain ⟨e,he,rfl⟩ := List.mem_map.mp hi
    obtain ⟨-,spec',hs',hf,-⟩ := h.reserved_slot e he
    rw [hs] at hs'
    cases hs'
    rw [hl] at hf
    cases hf

/-- A handle that is found has a slot with an entity and its version. -/
theorem locate_eq_some {l : RowLoc} : a.locate e=some l ↔
    ∃ spec,a.entities[e.idx]?=some spec ∧ spec.hasValue=true ∧ spec.version=e.version ∧
      spec.loc=l := by
  unfold EntityAllocator.locate
  cases a.entities[e.idx]? with
  | none => simp
  | some spec =>
    simp only [Option.some.injEq,exists_eq_left']
    split
    · rename_i h
      rw [Option.some.injEq]
      exact ⟨fun hl => ⟨h.1,h.2,hl⟩,fun hl => hl.2.2⟩
    · rename_i h
      simp only [reduceCtorEq,false_iff]
      exact fun hl => h ⟨hl.1,hl.2.1⟩

/-- A handle whose slot holds no entity is not found. -/
theorem locate_of_empty (hs : a.entities[e.idx]?=some spec) (hv : spec.hasValue=false) :
    a.locate e=none := by
  unfold EntityAllocator.locate
  rw [hs]
  simp [hv]

/-- A reserved handle is not found. -/
theorem SlotsInv.reserved_not_found (h : SlotsInv a reserved) (he : e∈reserved) :
    a.locate e=none := by
  obtain ⟨-,spec,hs,hv,-⟩ := h.reserved_slot e he
  exact locate_of_empty hs hv

/-- What is found after a slot was rewritten: the handle with the slot's index
and the new version, and no other handle of that slot. -/
theorem locate_set {i : ℕ} {spec' : EntitySpec} (hs : a.entities[i]?=some spec) (e : Entity) :
    EntityAllocator.locate { a with entities := a.entities.set i spec' } e=
      if e.idx=i then if spec'.hasValue=true ∧ spec'.version=e.version then some spec'.loc else none
      else a.locate e := by
  have hi : i<a.entities.length := (List.getElem?_eq_some_iff.mp hs).1
  unfold EntityAllocator.locate
  by_cases he : e.idx=i
  · rw [if_pos he,he,List.getElem?_set_self hi]
  · rw [if_neg he,List.getElem?_set_ne (Ne.symm he)]

section Taking

/-- A handle was taken: the slots that were there are unchanged, and the handle
is one version ahead of its slot, or the first of a new slot. -/
structure Taken (a : EntityAllocator) (e : Entity) (a' : EntityAllocator) : Prop where
  /-- No slot is retired. -/
  retired : a'.retiredEntitySlots=a.retiredEntitySlots
  /-- The handle came off the free list, or is for a new slot. -/
  source : (a.freeEntities=e.idx::a'.freeEntities ∧ a'.entities=a.entities ∧
      ∃ spec,a.entities[e.idx]?=some spec ∧ e.version=spec.version+1) ∨
    (a.freeEntities=[] ∧ a'.freeEntities=[] ∧ e.idx=a.entities.length ∧ e.version=1 ∧
      a'.entities=a.entities++[EntitySpec.newEmptySlot 1])

/-- Slots that were there stay when a handle is taken. -/
theorem Taken.kept {a' : EntityAllocator} (h : Taken a e a') {i : ℕ}
    (hs : a.entities[i]?=some spec) : a'.entities[i]?=some spec := by
  rcases h.source with ⟨-,he,-⟩ | ⟨-,-,-,-,he⟩
  · rw [he]
    exact hs
  · rw [he,List.getElem?_append_left (List.getElem?_eq_some_iff.mp hs).1,hs]

/-- Taking a handle changes what no handle finds. -/
theorem Taken.locate {a' : EntityAllocator} (h : Taken a e a') : a'.locate=a.locate := by
  funext f
  rcases h.source with ⟨-,he,-⟩ | ⟨-,-,-,-,he⟩
  · unfold EntityAllocator.locate
    rw [he]
  · unfold EntityAllocator.locate
    rw [he]
    by_cases hlt : f.idx<a.entities.length
    · rw [List.getElem?_append_left hlt]
    · rw [List.getElem?_append_right (Nat.le_of_not_lt hlt),List.getElem?_singleton,
        List.getElem?_eq_none (Nat.le_of_not_lt hlt)]
      split
      · rfl
      · rename_i hs
        split at hs
        · cases hs
          rfl
        · cases hs

/-- `new_entity` takes a handle, or fails and leaves the slots alone. -/
theorem newEntity_spec (h : SlotsInv a reserved) :
    wp newEntity (fun e a' => Taken a e a' ∧ SlotsInv a' (e::reserved)) (fun _ a' => a'=a) a := by
  apply wp_intro
  · intro e a' hrun
    unfold newEntity at hrun
    split at hrun
    · rename_i i rest hfree
      obtain ⟨old,hs,hv,hlt⟩ := h.free_slot i (by rw [hfree]; exact List.mem_cons_self)
      simp only [hs] at hrun
      split at hrun
      · rename_i e' he
        simp only [Prod.mk.injEq,Except.ok.injEq] at hrun
        obtain ⟨rfl,rfl⟩ := hrun
        obtain ⟨hidx,hver⟩ := Entity.new_fields he
        have hver' : e'.version=old.version+1 := by omega
        have hn := h.free_nodup
        rw [hfree,List.nodup_cons] at hn
        refine ⟨⟨rfl,.inl ⟨by rw [hfree,hidx],rfl,old,by rw [hidx,hs],hver'⟩⟩,
          h.versions,h.capacity,hn.2,?_,?_,?_⟩
        · intro j hj
          exact h.free_slot j (by rw [hfree]; exact List.mem_cons_of_mem i hj)
        · rw [List.map_cons,List.nodup_cons]
          refine ⟨?_,h.reserved_nodup⟩
          intro hm
          obtain ⟨f,hf,hfi⟩ := List.mem_map.mp hm
          refine (h.reserved_slot f hf).1 ?_
          rw [hfi,hidx,hfree]
          exact List.mem_cons_self
        · rintro f hf
          rcases List.mem_cons.mp hf with rfl | hf
          · exact ⟨by rw [hidx]; exact hn.1,old,by rw [hidx,hs],hv,hlt,.inl hver'⟩
          · obtain ⟨hnot,hslot⟩ := h.reserved_slot f hf
            refine ⟨fun hm => hnot ?_,hslot⟩
            rw [hfree]
            exact List.mem_cons_of_mem i hm
      · cases hrun
    · rename_i hfree
      split at hrun
      · rename_i e' he
        simp only [Prod.mk.injEq,Except.ok.injEq] at hrun
        obtain ⟨rfl,rfl⟩ := hrun
        obtain ⟨hidx,hver⟩ := Entity.new_fields he
        have hver' : e'.version=1 := hver
        have hcap : a.entities.length≤Entity.maxIdx := (Entity.new_isOk_iff.mp ⟨e',he⟩).1
        have hlt : ∀ {i : ℕ} {spec : EntitySpec},a.entities[i]?=some spec → i<a.entities.length :=
          fun hi => (List.getElem?_eq_some_iff.mp hi).1
        have hmax := Entity.maxVersion_eq
        rw [hver']
        refine ⟨⟨rfl,.inr ⟨hfree,hfree,hidx,hver',rfl⟩⟩,?_,?_,h.free_nodup,?_,?_,?_⟩
        · intro i spec hs
          rw [List.getElem?_append] at hs
          split at hs
          · exact h.versions i spec hs
          · rw [List.getElem?_singleton] at hs
            split at hs
            · cases hs
              exact ⟨Nat.le_refl 1,by rw [hmax]; decide⟩
            · cases hs
        · rw [List.length_append,List.length_singleton]
          omega
        · rw [hfree]
          exact fun i hi => absurd hi List.not_mem_nil
        · rw [List.map_cons,List.nodup_cons]
          refine ⟨?_,h.reserved_nodup⟩
          intro hm
          obtain ⟨f,hf,hfi⟩ := List.mem_map.mp hm
          obtain ⟨-,spec,hs,-⟩ := h.reserved_slot f hf
          have := hlt hs
          omega
        · intro f hf
          refine ⟨by rw [hfree]; exact List.not_mem_nil,?_⟩
          rcases List.mem_cons.mp hf with rfl | hf
          · refine ⟨_,by rw [hidx]; exact List.getElem?_concat_length,rfl,?_,.inr hver'⟩
            rw [hmax]
            decide
          · obtain ⟨-,spec,hs,hslot⟩ := h.reserved_slot f hf
            exact ⟨spec,by rw [List.getElem?_append_left (hlt hs),hs],hslot⟩
      · cases hrun
  · intro err a' hrun
    unfold newEntity at hrun
    split at hrun
    · rename_i i rest hfree
      obtain ⟨old,hs,hv,hlt⟩ := h.free_slot i (by rw [hfree]; exact List.mem_cons_self)
      have hcap := h.capacity
      have hi : i<a.entities.length := (List.getElem?_eq_some_iff.mp hs).1
      obtain ⟨e,he⟩ := Entity.new_isOk_iff.mpr (⟨by omega,by omega⟩ :
        i≤Entity.maxIdx ∧ old.version+1≤Entity.maxVersion)
      simp only [hs,he] at hrun
      cases hrun
    · split at hrun
      · cases hrun
      · cases hrun
        rfl

end Taking

section Attaching

/-- The slots after `update_entity_spec`. -/
def attachSlot (a : EntityAllocator) (e : Entity) (l : RowLoc) : EntityAllocator :=
  { a with
    entities := a.entities.set e.idx
      ⟨l.archId,l.indices.chunkIdx,l.indices.idxInChunk,e.version,true⟩ }

/-- `update_entity_spec` attaches the slot of a handle. -/
theorem updateEntitySpec_eq (hs : a.entities[e.idx]?=some spec) (archId : ℕ)
    (indices : EntityInChunkIndices) :
    updateEntitySpec e archId indices a=(.ok (),attachSlot a e ⟨archId,indices⟩) := by
  unfold updateEntitySpec
  rw [hs]
  rfl

/-- Attaching a handle to a row changes what that handle finds and nothing else. -/
theorem locate_attach (hs : a.entities[e.idx]?=some spec)
    (hv : spec.hasValue=true → spec.version=e.version) (l : RowLoc) :
    (attachSlot a e l).locate=Function.update a.locate e (some l) := by
  funext f
  rw [attachSlot,locate_set hs,Function.update_apply]
  by_cases hf : f=e
  · rw [if_pos hf,hf,if_pos rfl,if_pos ⟨rfl,rfl⟩]
    rfl
  · rw [if_neg hf]
    by_cases hi : f.idx=e.idx
    · have hne : e.version≠f.version := fun he => hf (Entity.ext_fields hi he.symm)
      rw [if_pos hi,if_neg (fun hc => hne hc.2),eq_comm,←Option.not_isSome_iff_eq_none,
        Option.isSome_iff_exists]
      rintro ⟨l',hl'⟩
      obtain ⟨spec',hs',hv',he',-⟩ := locate_eq_some.mp hl'
      rw [hi,hs] at hs'
      cases hs'
      exact hne ((hv hv').symm.trans he')
    · rw [if_neg hi]

/-- Attaching a reserved handle uses it up. -/
theorem SlotsInv.attach (h : SlotsInv a (e::reserved)) (l : RowLoc) :
    SlotsInv (attachSlot a e l) reserved := by
  obtain ⟨hf,hr⟩ := h.reserved_apart
  obtain ⟨-,spec,hs,-,hlt,hver⟩ := h.reserved_slot e List.mem_cons_self
  have hv := h.versions _ _ hs
  refine SlotsInv.set (h.sublist (List.sublist_cons_self e reserved)) hf hr ⟨?_,?_⟩
  · dsimp only
    omega
  · dsimp only
    omega

/-- Attaching a handle that is found to another row keeps the slots apart. -/
theorem SlotsInv.reattach (h : SlotsInv a reserved) {l : RowLoc} (hl : a.locate e=some l)
    (l' : RowLoc) : SlotsInv (attachSlot a e l') reserved := by
  obtain ⟨spec,hs,hv,hver,-⟩ := locate_eq_some.mp hl
  obtain ⟨hf,hr⟩ := h.live_apart hs hv
  refine SlotsInv.set h hf hr ?_
  dsimp only
  rw [←hver]
  exact h.versions _ _ hs

/-- The slots after `update_entity_indices` for a row that moved to `toRow`. -/
def shiftSlot (a : EntityAllocator) (i toRow : ℕ) : EntityAllocator :=
  match a.entities[i]? with
  | none => a
  | some spec => { a with entities := a.entities.set i { spec with idxInChunk := toRow } }

/-- `update_entity_indices` moves the slot of a row. -/
theorem updateEntityIndices_eq {row : SwappedRow} (hs : a.entities[row.e.idx]?=some spec) :
    updateEntityIndices row a=(.ok (),shiftSlot a row.e.idx row.toRow) := by
  unfold updateEntityIndices shiftSlot
  rw [hs]

/-- The slot of a moved row follows it. -/
theorem locate_shift {i : ℕ} {archId chunkIdx fromRow : ℕ}
    (hl : a.locate e=some ⟨archId,⟨chunkIdx,fromRow⟩⟩) (hi : e.idx=i) (toRow : ℕ) :
    (shiftSlot a i toRow).locate=
      Function.update a.locate e (some ⟨archId,⟨chunkIdx,toRow⟩⟩) := by
  subst hi
  obtain ⟨spec,hs,hv,hver,hloc⟩ := locate_eq_some.mp hl
  rw [shiftSlot,hs]
  dsimp only
  have hshift : ({ spec with idxInChunk := toRow } : EntitySpec)=
      ⟨archId,chunkIdx,toRow,e.version,true⟩ := by
    cases spec
    cases hloc
    cases hv
    cases hver
    rfl
  rw [hshift]
  exact locate_attach hs (fun _ => hver) ⟨archId,⟨chunkIdx,toRow⟩⟩

/-- Moving a slot keeps the allocator in order. -/
theorem SlotsInv.shift (h : SlotsInv a reserved) {l : RowLoc} (hl : a.locate e=some l) (toRow : ℕ) :
    SlotsInv (shiftSlot a e.idx toRow) reserved := by
  obtain ⟨spec,hs,hv,-,-⟩ := locate_eq_some.mp hl
  obtain ⟨hf,hr⟩ := h.live_apart hs hv
  have hver := h.versions _ _ hs
  rw [shiftSlot,hs]
  exact SlotsInv.set h hf hr hver

/-- Attaching a handle gives no error of the crate. -/
theorem updateEntitySpec_noErr (e : Entity) (archId : ℕ) (indices : EntityInChunkIndices)
    (a : EntityAllocator) : wp (updateEntitySpec e archId indices) (fun _ _ => True)
      (fun f _ => ∀ err,f≠.err err) a := by
  apply wp_intro
  · intro _ _ _
    trivial
  · intro f a' hrun err herr
    unfold updateEntitySpec at hrun
    cases hs : a.entities[e.idx]? with
    | none =>
      simp only [hs] at hrun
      cases hrun
      cases herr
    | some spec =>
      simp only [hs] at hrun
      cases hrun

/-- Following a moved row gives no error of the crate. -/
theorem updateEntityIndices_noErr (row : SwappedRow) (a : EntityAllocator) :
    wp (updateEntityIndices row) (fun _ _ => True) (fun f _ => ∀ err,f≠.err err) a := by
  apply wp_intro
  · intro _ _ _
    trivial
  · intro f a' hrun err herr
    unfold updateEntityIndices at hrun
    cases hs : a.entities[row.e.idx]? with
    | none =>
      simp only [hs] at hrun
      cases hrun
      cases herr
    | some spec =>
      simp only [hs] at hrun
      cases hrun

end Attaching

section Views

/-- What a slot says about its handle, without where the entity is. -/
def slotState (s : EntitySpec) : ℕ×Bool := (s.version,s.hasValue)

/-- Two allocators that differ at most in where entities are. -/
structure SameSlots (a a' : EntityAllocator) : Prop where
  /-- Versions and flags stay. -/
  states : a'.entities.map slotState=a.entities.map slotState
  /-- The free list stays. -/
  free : a'.freeEntities=a.freeEntities
  /-- The counter stays. -/
  retired : a'.retiredEntitySlots=a.retiredEntitySlots

/-- An allocator has its own slots. -/
theorem SameSlots.refl (a : EntityAllocator) : SameSlots a a := ⟨rfl,rfl,rfl⟩

/-- Having the same slots goes on. -/
theorem SameSlots.trans {a' a'' : EntityAllocator} (h : SameSlots a a') (h' : SameSlots a' a'') :
    SameSlots a a'' :=
  ⟨h'.states.trans h.states,h'.free.trans h.free,h'.retired.trans h.retired⟩

/-- Rewriting a slot with its own state. -/
theorem sameSlots_set {i : ℕ} {spec' : EntitySpec} (hs : a.entities[i]?=some spec)
    (he : slotState spec'=slotState spec) : SameSlots a { a with entities := a.entities.set i spec' } where
  states := by
    apply List.ext_getElem?
    intro j
    rw [List.getElem?_map,List.getElem?_map,List.getElem?_set]
    split
    · rename_i hij
      subst hij
      rw [if_pos (List.getElem?_eq_some_iff.mp hs).1,hs,Option.map_some,Option.map_some,he]
    · rfl
  free := rfl
  retired := rfl

/-- Moving an entity keeps versions and flags. -/
theorem sameSlots_shift (i toRow : ℕ) : SameSlots a (shiftSlot a i toRow) := by
  unfold shiftSlot
  split
  · exact SameSlots.refl a
  · rename_i spec hs
    exact sameSlots_set hs rfl

/-- So does attaching a slot that is attached. -/
theorem sameSlots_attach {l : RowLoc} (hl : a.locate e=some l) (l' : RowLoc) :
    SameSlots a (attachSlot a e l') := by
  obtain ⟨spec,hs,hv,hver,-⟩ := locate_eq_some.mp hl
  refine sameSlots_set hs ?_
  rw [slotState,slotState,hv,hver]

end Views

section Erasing

/-- The slots after `erase_entity` on a slot. -/
def eraseSlot (a : EntityAllocator) (i : ℕ) (spec : EntitySpec) : EntityAllocator where
  entities := a.entities.set i { spec with hasValue := false }
  freeEntities := if spec.version<Entity.maxVersion then a.freeEntities++[i] else a.freeEntities
  retiredEntitySlots := if spec.version<Entity.maxVersion then a.retiredEntitySlots
    else a.retiredEntitySlots+1

/-- `erase_entity` empties the slot of a handle. -/
theorem eraseEntity_eq (hs : a.entities[e.idx]?=some spec) :
    eraseEntity e a=(.ok (),eraseSlot a e.idx spec) := by
  unfold eraseEntity eraseSlot
  rw [hs]
  dsimp only
  by_cases hv : spec.version<Entity.maxVersion
  · simp only [if_pos hv]
  · simp only [if_neg hv]

/-- Erasing a slot no other handle is found in makes its handle not found. -/
theorem locate_erased (hs : a.entities[e.idx]?=some spec)
    (hv : spec.hasValue=true → spec.version=e.version) :
    (eraseSlot a e.idx spec).locate=Function.update a.locate e none := by
  funext f
  have hloc : (eraseSlot a e.idx spec).locate f=
      EntityAllocator.locate { a with
        entities := a.entities.set e.idx { spec with hasValue := false } } f := rfl
  rw [hloc,locate_set hs,Function.update_apply]
  by_cases hf : f=e
  · rw [if_pos hf,hf,if_pos rfl,if_neg (fun hc => Bool.false_ne_true hc.1)]
  · rw [if_neg hf]
    by_cases hi : f.idx=e.idx
    · rw [if_pos hi,if_neg (fun hc => Bool.false_ne_true hc.1),eq_comm,
        ←Option.not_isSome_iff_eq_none,Option.isSome_iff_exists]
      rintro ⟨l',hl'⟩
      obtain ⟨spec',hs',hv',he',-⟩ := locate_eq_some.mp hl'
      rw [hi,hs] at hs'
      cases hs'
      exact hf (Entity.ext_fields hi (he'.symm.trans (hv hv')))
    · rw [if_neg hi]

/-- Giving a reserved handle back changes what no handle finds. -/
theorem SlotsInv.locate_released (h : SlotsInv a (e::reserved))
    (hs : a.entities[e.idx]?=some spec) : (eraseSlot a e.idx spec).locate=a.locate := by
  obtain ⟨-,spec',hs',hv,-⟩ := h.reserved_slot e List.mem_cons_self
  have hslot : spec'=spec := Option.some.inj (hs'.symm.trans hs)
  subst hslot
  have hnone := h.reserved_not_found (e:=e) List.mem_cons_self
  rw [locate_erased hs (fun hc => by rw [hv] at hc; cases hc),←hnone,Function.update_eq_self]

/-- A slot that is neither free nor reserved may be erased. -/
theorem SlotsInv.erased (h : SlotsInv a reserved) {i : ℕ} (hs : a.entities[i]?=some spec)
    (hf : i∉a.freeEntities) (hr : i∉reserved.map Entity.idx) :
    SlotsInv (eraseSlot a i spec) reserved := by
  have hver := h.versions _ _ hs
  have hset := SlotsInv.set (x:={ spec with hasValue := false }) h hf hr hver
  have hlt := (List.getElem?_eq_some_iff.mp hs).1
  refine ⟨hset.versions,hset.capacity,?_,?_,h.reserved_nodup,?_⟩
  · dsimp only [eraseSlot]
    split
    · rw [List.nodup_append]
      refine ⟨h.free_nodup,List.nodup_singleton i,?_⟩
      intro x hx y hy
      rw [List.mem_singleton] at hy
      rintro rfl
      exact hf (hy ▸ hx)
    · exact h.free_nodup
  · intro j hj
    dsimp only [eraseSlot] at hj ⊢
    split at hj
    · rename_i hv
      rcases List.mem_append.mp hj with hj | hj
      · exact hset.free_slot j hj
      · rw [List.mem_singleton] at hj
        subst hj
        exact ⟨_,List.getElem?_set_self hlt,rfl,hv⟩
    · exact hset.free_slot j hj
  · intro e he
    obtain ⟨hnot,hslot⟩ := hset.reserved_slot e he
    refine ⟨?_,hslot⟩
    dsimp only [eraseSlot]
    split
    · rw [List.mem_append,List.mem_singleton,not_or]
      exact ⟨hnot,fun hi => hr (List.mem_map.mpr ⟨e,he,hi⟩)⟩
    · exact hnot

/-- Erasing the slot of a handle that is found. -/
theorem SlotsInv.erase_live (h : SlotsInv a reserved) (hs : a.entities[e.idx]?=some spec)
    (hv : spec.hasValue=true) : SlotsInv (eraseSlot a e.idx spec) reserved := by
  obtain ⟨hf,hr⟩ := h.live_apart hs hv
  exact h.erased hs hf hr

/-- Giving a reserved handle back. -/
theorem SlotsInv.release (h : SlotsInv a (e::reserved)) (hs : a.entities[e.idx]?=some spec) :
    SlotsInv (eraseSlot a e.idx spec) reserved := by
  obtain ⟨hf,hr⟩ := h.reserved_apart
  exact (h.sublist (List.sublist_cons_self e reserved)).erased hs hf hr

end Erasing

end XynokEcs.SlotInvariants
