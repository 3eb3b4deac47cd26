import XynokEcs.StoreSteps

/-!
# What can happen to a slot

Whatever a call does to the slots is a list of events: rows moved and slots
followed them, a handle was taken, attached to a row, lost or given back, or a
live entity was erased. From one look at each event follows which handles can
come back, and that no slot leaves circulation unless a handle is lost.
-/

namespace XynokEcs.SlotEvents

open EntityHandle ArchetypeStore EntityAllocation SlotInvariants StoreSteps

/-- The slots next to the handles that were taken and are not attached yet. -/
structure Slots where
  /-- The allocator. -/
  allocator : EntityAllocator
  /-- The handles taken and not attached yet. -/
  reserved : List Entity

/-- One thing that happened to the slots. -/
inductive SlotEvent
  | moved
  | taken (e : Entity)
  | attached (e : Entity)
  /-- A reserved handle was forgotten and its slot left as it was. -/
  | lost (e : Entity)
  /-- A reserved handle was given back. -/
  | released (e : Entity)
  /-- A live entity was erased. -/
  | erased (e : Entity)
deriving DecidableEq

/-- How each event changes the slots. -/
inductive SlotEvent.Step : SlotEvent → Slots → Slots → Prop
  | moved {a a' : EntityAllocator} {r r' : List Entity} (hs : SameSlots a a') (hr : r.Perm r') :
    Step .moved ⟨a,r⟩ ⟨a',r'⟩
  | taken {a a' : EntityAllocator} {r r' : List Entity} {e : Entity} (ht : Taken a e a')
    (hi : SlotsInv a' r') (hr : r'.Perm (e::r)) : Step (.taken e) ⟨a,r⟩ ⟨a',r'⟩
  | attached {a : EntityAllocator} {r r' : List Entity} {e : Entity} (l : RowLoc)
    (hr : r.Perm (e::r')) : Step (.attached e) ⟨a,r⟩ ⟨attachSlot a e l,r'⟩
  | lost {a : EntityAllocator} {r r' : List Entity} {e : Entity} (hr : r.Perm (e::r')) :
    Step (.lost e) ⟨a,r⟩ ⟨a,r'⟩
  | released {a : EntityAllocator} {r r' : List Entity} {e : Entity} {slot : EntitySpec}
    (hs : a.entities[e.idx]?=some slot) (hr : r.Perm (e::r')) :
    Step (.released e) ⟨a,r⟩ ⟨eraseSlot a e.idx slot,r'⟩
  | erased {a a' : EntityAllocator} {r r' : List Entity} {e : Entity} (he : SlotErased e a a')
    (hr : r.Perm r') : Step (.erased e) ⟨a,r⟩ ⟨a',r'⟩

/-- A list of events, one after the other. -/
inductive SlotRun : List SlotEvent → Slots → Slots → Prop
  | nil (s : Slots) : SlotRun [] s s
  | cons {ev : SlotEvent} {evs : List SlotEvent} {s t u : Slots} (h : ev.Step s t)
    (hr : SlotRun evs t u) : SlotRun (ev::evs) s u

theorem SlotRun.single {ev : SlotEvent} {s t : Slots} (h : ev.Step s t) : SlotRun [ev] s t :=
  .cons h (.nil t)

theorem SlotRun.append {evs evs' : List SlotEvent} {s t u : Slots} (h : SlotRun evs s t)
    (h' : SlotRun evs' t u) : SlotRun (evs++evs') s u := by
  induction h with
  | nil => exact h'
  | cons hstep _ ih => exact .cons hstep (ih h')

/-- What every allowed event preserves holds after the whole list. -/
theorem SlotRun.invariant {P : Slots → Prop} {evs : List SlotEvent} {s u : Slots} (h : SlotRun evs s u)
    (hstep : ∀ ev∈evs,∀ s t,ev.Step s t → P s → P t) (hs : P s) : P u := by
  induction h with
  | nil => exact hs
  | cons hev _ ih =>
    exact ih (fun ev' hm => hstep ev' (List.mem_cons_of_mem _ hm))
      (hstep _ List.mem_cons_self _ _ hev hs)

variable {s t : Slots} {ev : SlotEvent} {e f : Entity} {a a' : EntityAllocator}

section Consistency

/-- A slot of one of two allocators that differ in where entities are. -/
theorem SameSlots.slot (h : SameSlots a a') {i : ℕ} {slot : EntitySpec}
    (hs : a.entities[i]?=some slot) :
    ∃ slot',a'.entities[i]?=some slot' ∧ slotState slot'=slotState slot := by
  have hm : (a'.entities.map slotState)[i]?=some (slotState slot) := by
    rw [h.states,List.getElem?_map,hs,Option.map_some]
  rw [List.getElem?_map] at hm
  exact Option.map_eq_some_iff.mp hm

theorem SameSlots.symm (h : SameSlots a a') : SameSlots a' a :=
  ⟨h.states.symm,h.free.symm,h.retired.symm⟩

theorem slotState_fields {x y : EntitySpec} (h : slotState x=slotState y) :
    x.version=y.version ∧ x.hasValue=y.hasValue :=
  Prod.mk.inj h

/-- The slots stay consistent when rows move. -/
theorem SlotsInv.same {r : List Entity} (h : SlotsInv a r) (hs : SameSlots a a') :
    SlotsInv a' r where
  versions := by
    intro i slot hi
    obtain ⟨slot',hi',he⟩ := SameSlots.slot (SameSlots.symm hs) hi
    rw [←(slotState_fields he).1]
    exact h.versions i slot' hi'
  capacity := by
    have hl := congrArg List.length hs.states
    rw [List.length_map,List.length_map] at hl
    rw [hl]
    exact h.capacity
  free_nodup := by
    rw [hs.free]
    exact h.free_nodup
  free_slot := by
    intro i hi
    rw [hs.free] at hi
    obtain ⟨slot,hi',hv,hlt⟩ := h.free_slot i hi
    obtain ⟨slot',hi'',he⟩ := SameSlots.slot hs hi'
    obtain ⟨h1,h2⟩ := slotState_fields he
    exact ⟨slot',hi'',h2.trans hv,h1.symm ▸ hlt⟩
  reserved_nodup := h.reserved_nodup
  reserved_slot := by
    intro f hf
    obtain ⟨hn,slot,hi',hv,hlt,hver⟩ := h.reserved_slot f hf
    obtain ⟨slot',hi'',he⟩ := SameSlots.slot hs hi'
    obtain ⟨h1,h2⟩ := slotState_fields he
    rw [hs.free]
    exact ⟨hn,slot',hi'',h2.trans hv,h1.symm ▸ hlt,h1.symm ▸ hver⟩

/-- The slots of a world are consistent. -/
def Slots.Inv (s : Slots) : Prop := SlotsInv s.allocator s.reserved

/-- Every event keeps the slots consistent. -/
theorem SlotEvent.Step.inv (h : ev.Step s t) (hi : s.Inv) : t.Inv := by
  cases h with
  | moved hs hr => exact SlotsInv.same (SlotsInv.perm hi hr) hs
  | taken _ hi' _ => exact hi'
  | attached l hr => exact (SlotsInv.perm hi hr).attach l
  | lost hr => exact (SlotsInv.perm hi hr).sublist (List.sublist_cons_self _ _)
  | released hs hr => exact (SlotsInv.perm hi hr).release hs
  | erased he hr =>
    obtain ⟨a₁,slot,hsame,hs,-,hv,rfl⟩ := he
    exact (SlotsInv.same (SlotsInv.perm hi hr) hsame).erase_live hs hv

end Consistency

section Handles

/-- No handle taken from here on is this one: its slot has reached its version,
or is out of circulation with no other handle reserved on it. -/
def Spent (e : Entity) (s : Slots) : Prop :=
  ∃ slot,s.allocator.entities[e.idx]?=some slot ∧ (e.version ≤ slot.version ∨
    slot.hasValue=false ∧ e.idx∉s.allocator.freeEntities ∧ ∀ f∈s.reserved,f.idx=e.idx → f=e)

/-- A handle that is neither found nor waiting to be attached, for good. -/
def Gone (e : Entity) (s : Slots) : Prop :=
  s.allocator.locate e=none ∧ e∉s.reserved ∧ Spent e s

/-- A taken handle is none of those that are spent. -/
theorem taken_ne_spent (h : SlotEvent.Step (.taken f) s t) (hs : Spent e s) : f≠e := by
  rintro rfl
  obtain ⟨slot,hslot,hcase⟩ := hs
  cases h with
  | taken ht hi hr =>
    rcases ht.source with ⟨hfree,-,spec,hspec,hver⟩ | ⟨-,-,hidx,-,-⟩
    · rw [hslot] at hspec
      cases hspec
      rcases hcase with hle | ⟨-,hn,-⟩
      · omega
      · exact hn (by rw [hfree]; exact List.mem_cons_self)
    · have hlt := (List.getElem?_eq_some_iff.mp hslot).1
      dsimp only at hlt
      omega

/-- A handle is spent once it was taken. -/
theorem spent_of_taken (h : SlotEvent.Step (.taken e) s t) : Spent e t := by
  cases h with
  | taken ht hi hr =>
    have hi' := SlotsInv.perm hi hr
    obtain ⟨hn,slot,hs,hv,-⟩ := hi'.reserved_slot e List.mem_cons_self
    refine ⟨slot,hs,.inr ⟨hv,hn,?_⟩⟩
    intro f hf hidx
    rcases List.mem_cons.mp (hr.mem_iff.mp hf) with rfl | hf
    · rfl
    · exact absurd (List.mem_map.mpr ⟨f,hf,hidx⟩) hi'.reserved_apart.2

/-- A reserved handle is among those in use. -/
theorem SlotEvent.Step.reserved_of (h : ev.Step s t) (hf : f∈t.reserved) :
    f∈s.reserved ∨ ev=.taken f := by
  cases h with
  | moved _ hr => exact .inl (hr.mem_iff.mpr hf)
  | taken _ _ hr =>
    rcases List.mem_cons.mp (hr.mem_iff.mp hf) with rfl | hf
    · exact .inr rfl
    · exact .inl hf
  | attached _ hr => exact .inl (hr.mem_iff.mpr (List.mem_cons_of_mem _ hf))
  | lost hr => exact .inl (hr.mem_iff.mpr (List.mem_cons_of_mem _ hf))
  | released _ hr => exact .inl (hr.mem_iff.mpr (List.mem_cons_of_mem _ hf))
  | erased _ hr => exact .inl (hr.mem_iff.mpr hf)

/-- A handle stays spent when its slot keeps its state, is not queued anew and is
reserved under no new handle. -/
theorem Spent.kept (h : Spent e s)
    (hslot : ∀ slot,s.allocator.entities[e.idx]?=some slot →
      ∃ slot',t.allocator.entities[e.idx]?=some slot' ∧ slotState slot'=slotState slot)
    (hfree : e.idx∈t.allocator.freeEntities → e.idx∈s.allocator.freeEntities)
    (hres : ∀ f∈t.reserved,f.idx=e.idx → f∈s.reserved) : Spent e t := by
  obtain ⟨slot,hs,hcase⟩ := h
  obtain ⟨slot',hs',he⟩ := hslot slot hs
  obtain ⟨h1,h2⟩ := slotState_fields he
  refine ⟨slot',hs',?_⟩
  rcases hcase with hle | ⟨hv,hn,ho⟩
  · exact .inl (h1.symm ▸ hle)
  · exact .inr ⟨h2.trans hv,fun hf => hn (hfree hf),fun f hf hi => ho f (hres f hf hi) hi⟩

/-- A handle is spent once its slot has its version. -/
theorem spent_of_le {x : EntitySpec} (hs : t.allocator.entities[e.idx]?=some x)
    (hle : e.version≤x.version) : Spent e t := ⟨x,hs,.inl hle⟩

/-- A slot that was taken was not spent before it was passed. -/
theorem Spent.passed_of_taken (h : SlotEvent.Step (.taken f) s t) (hs : Spent e s)
    (hi : f.idx=e.idx) : ∃ slot,s.allocator.entities[e.idx]?=some slot ∧ e.version ≤ slot.version := by
  obtain ⟨slot,hslot,hle | ⟨-,hn,-⟩⟩ := hs
  · exact ⟨slot,hslot,hle⟩
  · cases h with
    | taken ht _ _ =>
      rcases ht.source with ⟨hfree,-,-⟩ | ⟨-,-,hlen,-,-⟩
      · refine absurd ?_ hn
        dsimp only
        rw [hfree,hi]
        exact List.mem_cons_self
      · have hlt := (List.getElem?_eq_some_iff.mp hslot).1
        dsimp only at hlt
        omega

/-- The slots that were rewritten keep every other slot. -/
theorem getElem_set_other {i : ℕ} {slot' : EntitySpec} (hne : i≠e.idx) (slot : EntitySpec)
    (h : a.entities[e.idx]?=some slot) :
    ∃ slot₁,(a.entities.set i slot')[e.idx]?=some slot₁ ∧ slotState slot₁=slotState slot :=
  ⟨slot,by rw [List.getElem?_set_ne hne,h],rfl⟩

/-- Only the slot that is erased can be queued. -/
theorem mem_free_eraseSlot {i j : ℕ} {slot : EntitySpec} (hne : i≠j)
    (h : j∈(eraseSlot a i slot).freeEntities) : j∈a.freeEntities := by
  unfold eraseSlot at h
  dsimp only at h
  split at h
  · rcases List.mem_append.mp h with h | h
    · exact h
    · exact absurd (List.mem_singleton.mp h).symm hne
  · exact h

/-- A spent handle stays spent; giving it back is the exception, unless its slot
has reached its version. -/
theorem SlotEvent.Step.spent (h : ev.Step s t) (hi : s.Inv) (hs : Spent e s)
    (hrel : ev=.released e → ∃ slot,s.allocator.entities[e.idx]?=some slot ∧
      e.version ≤ slot.version) : Spent e t := by
  have hstep := h
  cases h with
  | moved hsame hr =>
    refine Spent.kept hs (fun slot hslot => SameSlots.slot hsame hslot) ?_
      (fun f hf _ => hr.mem_iff.mpr hf)
    dsimp only
    rw [hsame.free]
    exact id
  | @taken a a' r r' g ht hi' hr =>
    by_cases hge : g.idx=e.idx
    · obtain ⟨slot,hslot,hle⟩ := Spent.passed_of_taken hstep hs hge
      exact spent_of_le (ht.kept hslot) hle
    · refine Spent.kept hs (fun slot hslot => ⟨slot,ht.kept hslot,rfl⟩) ?_ ?_
      · intro hm
        rcases ht.source with ⟨hfree,-,-⟩ | ⟨-,hfree,-⟩
        · dsimp only
          rw [hfree]
          exact List.mem_cons_of_mem _ hm
        · dsimp only at hm
          rw [hfree] at hm
          exact absurd hm List.not_mem_nil
      · intro f hf hfe
        rcases List.mem_cons.mp (hr.mem_iff.mp hf) with rfl | hf
        · exact absurd hfe hge
        · exact hf
  | @attached a r r' g l hr =>
    have hg := hr.mem_iff.mpr List.mem_cons_self
    by_cases hge : g.idx=e.idx
    · obtain ⟨-,old,hold,-,-,hver⟩ := SlotsInv.reserved_slot hi g hg
      obtain ⟨slot,hslot,hcase⟩ := hs
      dsimp only at hold hslot
      have hlt := (List.getElem?_eq_some_iff.mp hslot).1
      rw [hge,hslot] at hold
      cases hold
      refine spent_of_le (x:=⟨l.archId,l.indices.chunkIdx,l.indices.idxInChunk,g.version,true⟩) ?_ ?_
      · dsimp only [attachSlot]
        rw [hge]
        exact List.getElem?_set_self hlt
      · rcases hcase with hle | ⟨-,-,ho⟩
        · dsimp only
          omega
        · rw [ho g hg hge]
    · exact Spent.kept hs (fun slot hslot => getElem_set_other hge slot hslot) id
        (fun f hf _ => hr.mem_iff.mpr (List.mem_cons_of_mem _ hf))
  | lost hr =>
    exact Spent.kept hs (fun slot hslot => ⟨slot,hslot,rfl⟩) id
      (fun f hf _ => hr.mem_iff.mpr (List.mem_cons_of_mem _ hf))
  | @released a r r' g slotg hsg hr =>
    have hg := hr.mem_iff.mpr List.mem_cons_self
    by_cases hge : g.idx=e.idx
    · have hle : ∃ slot,a.entities[e.idx]?=some slot ∧ e.version ≤ slot.version := by
        obtain ⟨slot,hslot,hle | ⟨-,-,ho⟩⟩ := hs
        · exact ⟨slot,hslot,hle⟩
        · exact hrel (by rw [ho g hg hge])
      obtain ⟨slot,hslot,hle⟩ := hle
      rw [hge,hslot] at hsg
      cases hsg
      refine spent_of_le (x:={ slotg with hasValue := false }) ?_ hle
      dsimp only [eraseSlot]
      rw [hge]
      exact List.getElem?_set_self (List.getElem?_eq_some_iff.mp hslot).1
    · exact Spent.kept hs (fun slot hslot => getElem_set_other hge slot hslot)
        (fun hm => mem_free_eraseSlot hge hm)
        (fun f hf _ => hr.mem_iff.mpr (List.mem_cons_of_mem _ hf))
  | @erased a a' r r' g he hr =>
    obtain ⟨a₁,slotg,hsame,hsg,hverg,hvg,rfl⟩ := he
    by_cases hge : g.idx=e.idx
    · obtain ⟨slot,hslot,hcase⟩ := hs
      obtain ⟨slot',hslot',hst⟩ := SameSlots.slot hsame hslot
      obtain ⟨h1,h2⟩ := slotState_fields hst
      rw [hge,hslot'] at hsg
      cases hsg
      refine spent_of_le (x:={ slotg with hasValue := false }) ?_ ?_
      · dsimp only [eraseSlot]
        rw [hge]
        exact List.getElem?_set_self (List.getElem?_eq_some_iff.mp hslot').1
      · rcases hcase with hle | ⟨hv,-,-⟩
        · exact h1.symm ▸ hle
        · rw [h2,hv] at hvg
          cases hvg
    · refine Spent.kept hs (fun slot hslot => ?_) (fun hm => ?_) (fun f hf _ => hr.mem_iff.mpr hf)
      · obtain ⟨slot',hslot',hst⟩ := SameSlots.slot hsame hslot
        obtain ⟨slot₁,hslot₁,hst₁⟩ := getElem_set_other
          hge slot' hslot'
        exact ⟨slot₁,hslot₁,hst₁.trans hst⟩
      · have hm' := mem_free_eraseSlot hge hm
        rwa [hsame.free] at hm'

/-- A handle is found in both of two allocators that differ in where entities are,
or in none. -/
theorem SameSlots.locate_isSome (h : SameSlots a a') (e : Entity) :
    (a'.locate e).isSome=(a.locate e).isSome := by
  rw [Bool.eq_iff_iff,Option.isSome_iff_exists,Option.isSome_iff_exists]
  have hone : ∀ {b b' : EntityAllocator},SameSlots b b' → (∃ l,b.locate e=some l) →
      ∃ l,b'.locate e=some l := by
    rintro b b' hb ⟨l,hl⟩
    obtain ⟨slot,hs,hv,hver,-⟩ := locate_eq_some.mp hl
    obtain ⟨slot',hs',hst⟩ := SameSlots.slot hb hs
    obtain ⟨h1,h2⟩ := slotState_fields hst
    exact ⟨_,locate_eq_some.mpr ⟨slot',hs',h2.trans hv,h1.trans hver,rfl⟩⟩
  exact ⟨hone (SameSlots.symm h),hone h⟩

/-- No event but its own attachment makes a handle found. -/
theorem SlotEvent.Step.locate_none (h : ev.Step s t) (hi : s.Inv)
    (hl : s.allocator.locate e=none) (hne : ev≠.attached e) : t.allocator.locate e=none := by
  cases h with
  | moved hsame _ =>
    have hsome := SameSlots.locate_isSome hsame e
    rw [hl] at hsome
    exact Option.not_isSome_iff_eq_none.mp (by rw [hsome]; exact Bool.false_ne_true)
  | taken ht _ _ => exact (congrFun ht.locate e).trans hl
  | @attached a r r' g l hr =>
    obtain ⟨-,old,hold,hv,-⟩ := SlotsInv.reserved_slot hi g (hr.mem_iff.mpr List.mem_cons_self)
    have hnot : old.hasValue=true → old.version=g.version := fun hc => by rw [hv] at hc; cases hc
    have hge : e≠g := fun he => hne (congrArg _ he.symm)
    exact (congrFun (locate_attach hold hnot l) e).trans ((Function.update_of_ne hge _ _).trans hl)
  | lost _ => exact hl
  | @released a r r' g slotg hsg hr =>
    obtain ⟨-,old,hold,hv,-⟩ := SlotsInv.reserved_slot hi g (hr.mem_iff.mpr List.mem_cons_self)
    have hnot : slotg.hasValue=true → slotg.version=g.version := fun hc => by
      rw [Option.some.inj (hsg.symm.trans hold),hv] at hc
      cases hc
    refine (congrFun (locate_erased hsg hnot) e).trans ?_
    rw [Function.update_apply,hl,ite_self]
  | @erased a a' r r' g he hr =>
    obtain ⟨a₁,slotg,hsame,hsg,hverg,hvg,rfl⟩ := he
    have hsome := SameSlots.locate_isSome hsame e
    rw [hl] at hsome
    have hl₁ := Option.not_isSome_iff_eq_none.mp (by rw [hsome]; exact Bool.false_ne_true)
    refine (congrFun (locate_erased hsg (fun _ => hverg)) e).trans ?_
    rw [Function.update_apply,hl₁,ite_self]

/-- A handle that is gone stays gone. -/
theorem SlotEvent.Step.gone (h : ev.Step s t) (hi : s.Inv) (hg : Gone e s) : Gone e t := by
  obtain ⟨hl,hr,hs⟩ := hg
  have hne : ev≠.attached e := by
    rintro rfl
    cases h with
    | attached _ hp => exact hr (hp.mem_iff.mpr List.mem_cons_self)
  refine ⟨SlotEvent.Step.locate_none h hi hl hne,?_,SlotEvent.Step.spent h hi hs ?_⟩
  · intro hm
    rcases SlotEvent.Step.reserved_of h hm with hm | rfl
    · exact hr hm
    · exact taken_ne_spent h hs rfl
  · rintro rfl
    cases h with
    | released _ hp => exact absurd (hp.mem_iff.mpr List.mem_cons_self) hr

end Handles

section Conservation

/-- A slot whose versions are used up. -/
def retired (slot : EntitySpec) : Bool := !slot.hasValue && slot.version=Entity.maxVersion

/-- Every slot holds an entity, is queued, is reserved or is retired, and the
retired ones are counted. -/
structure Conserved (s : Slots) : Prop where
  /-- No slot is lost. -/
  covered : ∀ (i : ℕ) slot,s.allocator.entities[i]?=some slot → slot.hasValue=true ∨
    i∈s.allocator.freeEntities ∨ i∈s.reserved.map Entity.idx ∨ retired slot=true
  /-- The counter says how many are retired. -/
  counted : s.allocator.retiredEntitySlots=s.allocator.entities.countP retired

/-- Being retired is a matter of the state of a slot. -/
theorem retired_congr {x y : EntitySpec} (h : slotState x=slotState y) : retired x=retired y := by
  obtain ⟨h1,h2⟩ := slotState_fields h
  rw [retired,retired,h1,h2]

theorem countP_same (h : SameSlots a a') : a'.entities.countP retired=a.entities.countP retired := by
  have hmap : ∀ l : List EntitySpec,l.countP retired=
      (l.map slotState).countP (fun p => !p.2 && p.1=Entity.maxVersion) := by
    intro l
    rw [List.countP_map]
    rfl
  rw [hmap,hmap,h.states]

/-- Rewriting a slot changes the count by what was and what is there. -/
theorem countP_rewritten {i : ℕ} {slot : EntitySpec} (hs : a.entities[i]?=some slot)
    (slot' : EntitySpec) : (a.entities.set i slot').countP retired+(retired slot).toNat=
      a.entities.countP retired+(retired slot').toNat := by
  obtain ⟨hlt,rfl⟩ := List.getElem?_eq_some_iff.mp hs
  have hpos : (retired a.entities[i]).toNat≤a.entities.countP retired := by
    cases hr : retired a.entities[i] with
    | false => exact Nat.zero_le _
    | true => exact List.countP_pos_iff.mpr ⟨_,List.getElem_mem hlt,hr⟩
  rw [List.countP_set hlt]
  cases hr : retired a.entities[i] <;> cases hr' : retired slot' <;>
    simp only [hr,Bool.toNat_true,Bool.toNat_false,if_true] at hpos ⊢ <;> simp <;> omega

/-- Moving rows keeps the slots conserved. -/
theorem Conserved.same {r r' : List Entity} (h : Conserved ⟨a,r⟩) (hs : SameSlots a a')
    (hr : r.Perm r') : Conserved ⟨a',r'⟩ where
  covered := by
    intro i slot hi
    obtain ⟨slot',hi',he⟩ := SameSlots.slot (SameSlots.symm hs) hi
    rw [←(slotState_fields he).2,←retired_congr he]
    dsimp only
    rw [hs.free,←(hr.map Entity.idx).mem_iff]
    exact h.covered i slot' hi'
  counted := by
    dsimp only
    rw [hs.retired,countP_same hs]
    exact h.counted

/-- A reserved slot is not retired. -/
theorem reserved_not_retired {r : List Entity} {slot : EntitySpec} (hi : SlotsInv a (e::r))
    (hs : a.entities[e.idx]?=some slot) :
    slot.hasValue=false ∧ slot.version<Entity.maxVersion ∧ retired slot=false := by
  obtain ⟨-,slot',hs',hv,hlt,-⟩ := hi.reserved_slot e List.mem_cons_self
  rw [hs] at hs'
  cases hs'
  refine ⟨hv,hlt,?_⟩
  rw [retired,Bool.and_eq_false_iff,decide_eq_false_iff_not]
  exact .inr (Nat.ne_of_lt hlt)

/-- Erasing a slot that is not retired keeps the slots conserved. -/
theorem Conserved.erased {r r' : List Entity} {i : ℕ} {slot : EntitySpec} (h : Conserved ⟨a,r⟩)
    (hi : SlotsInv a r) (hs : a.entities[i]?=some slot) (hn : retired slot=false)
    (hr : ∀ j≠i,j∈r.map Entity.idx → j∈r'.map Entity.idx) : Conserved ⟨eraseSlot a i slot,r'⟩ where
  covered := by
    intro j slot' hj
    by_cases hij : i=j
    · subst hij
      dsimp only [eraseSlot] at hj
      rw [List.getElem?_set_self (List.getElem?_eq_some_iff.mp hs).1] at hj
      cases hj
      by_cases hv : slot.version<Entity.maxVersion
      · refine .inr (.inl ?_)
        dsimp only [eraseSlot]
        rw [if_pos hv]
        exact List.mem_append_right _ (List.mem_singleton_self i)
      · have hmax : slot.version=Entity.maxVersion :=
          Nat.le_antisymm (hi.versions i slot hs).2 (Nat.le_of_not_lt hv)
        refine .inr (.inr (.inr ?_))
        rw [retired,hmax]
        simp
    · dsimp only [eraseSlot] at hj ⊢
      rw [List.getElem?_set_ne hij] at hj
      rcases h.covered j slot' hj with hc | hc | hc | hc
      · exact .inl hc
      · refine .inr (.inl ?_)
        split
        · exact List.mem_append_left _ hc
        · exact hc
      · exact .inr (.inr (.inl (hr j (Ne.symm hij) hc)))
      · exact .inr (.inr (.inr hc))
  counted := by
    have hc := countP_rewritten hs { slot with hasValue := false }
    have hk : a.retiredEntitySlots=a.entities.countP retired := h.counted
    have hle := (hi.versions i slot hs).2
    rw [hn,←hk] at hc
    dsimp only [eraseSlot]
    by_cases hv : slot.version<Entity.maxVersion
    · have hr' : retired { slot with hasValue := false }=false := by
        rw [retired,Bool.and_eq_false_iff,decide_eq_false_iff_not]
        exact .inr (Nat.ne_of_lt hv)
      rw [if_pos hv]
      rw [hr'] at hc
      exact hc.symm
    · have hmax : slot.version=Entity.maxVersion := Nat.le_antisymm hle (Nat.le_of_not_lt hv)
      have hr' : retired { slot with hasValue := false }=true := by
        rw [retired,hmax]
        simp
      rw [if_neg hv]
      rw [hr'] at hc
      exact hc.symm

/-- Every event but the loss of a handle keeps the slots conserved. -/
theorem SlotEvent.Step.conserved (h : ev.Step s t) (hi : s.Inv) (hc : Conserved s)
    (hl : ∀ e,ev≠.lost e) : Conserved t := by
  cases h with
  | moved hs hr => exact hc.same hs hr
  | @taken a a' r r' g ht hi' hr =>
    have hmem : ∀ j,j∈r'.map Entity.idx ↔ j=g.idx ∨ j∈r.map Entity.idx := by
      intro j
      rw [(hr.map Entity.idx).mem_iff,List.map_cons,List.mem_cons]
    rcases ht.source with ⟨hfree,hents,-⟩ | ⟨hfree,hfree',hidx,-,hents⟩
    · refine ⟨?_,?_⟩
      · intro i slot hs
        dsimp only at hs ⊢
        rw [hents] at hs
        rcases hc.covered i slot hs with hv | hv | hv | hv
        · exact .inl hv
        · dsimp only at hv
          rw [hfree] at hv
          rcases List.mem_cons.mp hv with rfl | hv
          · exact .inr (.inr (.inl ((hmem _).mpr (.inl rfl))))
          · exact .inr (.inl hv)
        · exact .inr (.inr (.inl ((hmem i).mpr (.inr hv))))
        · exact .inr (.inr (.inr hv))
      · dsimp only
        rw [ht.retired,hents]
        exact hc.counted
    · refine ⟨?_,?_⟩
      · intro i slot hs
        dsimp only at hs ⊢
        rw [hents] at hs
        by_cases hlt : i<a.entities.length
        · rw [List.getElem?_append_left hlt] at hs
          rcases hc.covered i slot hs with hv | hv | hv | hv
          · exact .inl hv
          · dsimp only at hv
            rw [hfree] at hv
            cases hv
          · exact .inr (.inr (.inl ((hmem i).mpr (.inr hv))))
          · exact .inr (.inr (.inr hv))
        · have hlen : i=a.entities.length := by
            have hb := (List.getElem?_eq_some_iff.mp hs).1
            rw [List.length_append,List.length_singleton] at hb
            omega
          exact .inr (.inr (.inl ((hmem i).mpr (.inl (hlen.trans hidx.symm)))))
      · dsimp only
        have hn : retired (EntitySpec.newEmptySlot 1)=false := by decide
        rw [ht.retired,hents,List.countP_append,List.countP_singleton,hn]
        exact hc.counted
  | @attached a r r' g l hr =>
    have hi' : SlotsInv a (g::r') := SlotsInv.perm hi hr
    obtain ⟨-,slot,hs,-⟩ := hi'.reserved_slot g List.mem_cons_self
    obtain ⟨-,-,hn⟩ := reserved_not_retired hi' hs
    have hlt := (List.getElem?_eq_some_iff.mp hs).1
    refine ⟨?_,?_⟩
    · intro i slot' hs'
      dsimp only [attachSlot] at hs' ⊢
      by_cases hgi : g.idx=i
      · subst hgi
        rw [List.getElem?_set_self hlt] at hs'
        cases hs'
        exact .inl rfl
      · rw [List.getElem?_set_ne hgi] at hs'
        rcases hc.covered i slot' hs' with hv | hv | hv | hv
        · exact .inl hv
        · exact .inr (.inl hv)
        · rw [(hr.map Entity.idx).mem_iff,List.map_cons,List.mem_cons] at hv
          rcases hv with rfl | hv
          · exact absurd rfl hgi
          · exact .inr (.inr (.inl hv))
        · exact .inr (.inr (.inr hv))
    · have hcount := countP_rewritten hs
        ⟨l.archId,l.indices.chunkIdx,l.indices.idxInChunk,g.version,true⟩
      have hk : a.retiredEntitySlots=a.entities.countP retired := hc.counted
      rw [hn,←hk] at hcount
      exact hcount.symm
  | lost _ => exact absurd rfl (hl _)
  | @released a r r' g slot hs hr =>
    have hi' : SlotsInv a (g::r') := SlotsInv.perm hi hr
    refine Conserved.erased hc hi hs (reserved_not_retired hi' hs).2.2 ?_
    intro j hj hm
    rw [(hr.map Entity.idx).mem_iff,List.map_cons,List.mem_cons] at hm
    rcases hm with rfl | hm
    · exact absurd rfl hj
    · exact hm
  | @erased a a' r r' g he hr =>
    obtain ⟨a₁,slot,hsame,hs,-,hv,rfl⟩ := he
    refine Conserved.erased (hc.same hsame hr) (SlotsInv.same (SlotsInv.perm hi hr) hsame) hs ?_
      (fun _ _ h => h)
    rw [retired,hv]
    rfl

end Conservation

end XynokEcs.SlotEvents
