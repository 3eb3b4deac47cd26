import XynokEcs.LockedArchetypes

/-!
# When a `try_` call panics

A call of the world panics exactly when an archetype it asks for is not there and
cannot be created: its type names a component twice, one row does not fit, or the
registry is full. Everything else that goes wrong comes back as an error. An
archetype that cannot be created is never reported as one.
-/

namespace XynokEcs.TryOutcomes

open ComponentTypes EntityHandle SequenceValueMap ChunkLayouts FaultingState ChunkRows RowWrites
  ArchetypeStore EntityAllocation SlotInvariants WorldState WorldCalls RegistryInvariants RegistrySteps
  StoreInvariants StoreSteps ArchetypeHomes EdgeOutcomes StructureChanges ActionRuns WorldRuns
  SlotEvents ActionEffects LockedArchetypes

variable {V α : Type} {D P : Prop} {reserved : List Entity} {w : World V} {e : Entity} {T : TArchetype}
  {kind : ArchetypeKind} {src dst : ArchetypeSpec V} {slot : EntitySpec} {c : Chunk V}

section Endings

/-- A call that ends in a result or in an error. -/
def OnlyErrs (x : Call V α) (w : World V) : Prop := wp x (fun _ _ => True) (fun f _ => Errs f) w

/-- A call that panics exactly when a condition fails. -/
def PanicsUnless (P : Prop) (x : Call V α) (w : World V) : Prop :=
  wp x (fun _ _ => P) (fun f _ => P ∧ Errs f ∨ ¬P ∧ Panics f) w

/-- A result that is not a panic. -/
def Returned (r : Except Fault α) : Prop := ∀ f,r=.error f → Errs f

/-- A call that only reports errors panics in no case. -/
theorem OnlyErrs.unless {x : Call V α} (h : OnlyErrs x w) (hP : P) : PanicsUnless P x w :=
  wp_mono h (fun _ _ _ => hP) fun _ _ he => .inl ⟨hP,he⟩

/-- A panic is no error. -/
theorem not_errs_of_panics {f : Fault} (h : Panics f) : ¬Errs f := by
  obtain ⟨p,rfl⟩ := h
  rintro ⟨err,he⟩
  cases he

/-- Such a call returns just where its condition holds. -/
theorem PanicsUnless.returned_iff {x : Call V α} (h : PanicsUnless P x w) :
    Returned (x w).1 ↔ P := by
  unfold PanicsUnless wp at h
  cases hr : x w with
  | mk r w' =>
    rw [hr] at h
    cases r with
    | ok a => exact iff_of_true nofun h
    | error f =>
      constructor
      · intro hret
        exact (h.resolve_right fun hp => not_errs_of_panics hp.2 (hret f rfl)).1
      · rintro hP g ⟨⟩
        exact (h.resolve_right fun hp => hp.1 hP).2

/-- The condition may be put another way. -/
theorem PanicsUnless.congr {Q : Prop} {x : Call V α} (h : PanicsUnless P x w) (hPQ : P ↔ Q) :
    PanicsUnless Q x w := by
  rw [←propext hPQ]
  exact h

/-- What happens to the result of a call that is handed back. -/
theorem PanicsUnless.map {β : Type} {x : Call V α} {f : α → β} (h : PanicsUnless P x w) :
    PanicsUnless P (do let a ← x; return f a : Call V β) w :=
  wp_bind.mpr h

/-- Dropping the components of a failed call changes nothing about it. -/
theorem PanicsUnless.consuming {val : Bundle V} {x : Call V α} (h : PanicsUnless P x w) :
    PanicsUnless P (consuming val x) w := by
  unfold PanicsUnless WorldState.consuming
  rw [wp_onFault]
  exact h

/-- Asking for the archetype of a type, and going on without panics once it is there. -/
theorem panicsUnless_resolve {cont : ℕ → Call V α} (h : RegistryInv D w) (hD : D → T.isDeclared=true)
    (hcont : ∀ i w₁ spec,Extends w w₁ → RegistryInv D w₁ → Home w₁ T i spec → OnlyErrs (cont i) w₁) :
    PanicsUnless (Resolvable kind w T) (getOrCreateArchetypeAs T kind >>= cont) w := by
  unfold PanicsUnless
  rw [wp_bind]
  refine wp_mono (getOrCreate_outcome h hD) ?_ ?_
  · rintro i w₁ ⟨hr,hext,hinv,-,spec,hh⟩
    exact (hcont i w₁ spec hext hinv hh).unless hr
  · rintro f w₁ ⟨hr,-,-,hp⟩
    exact .inr ⟨hr,hp⟩

end Endings

section Registering

/-- Looking up an archetype that is there does not panic. -/
theorem onlyErrs_getArchetype {cont : ArchetypeSpec V → Call V α} {i : ℕ} (h : RegistryInv D w)
    (hv : w.archetypes.valueAt i=some src) (hcont : OnlyErrs (cont src) w) :
    OnlyErrs (getArchetype i >>= cont) w := by
  unfold OnlyErrs wp
  rw [bind_ok (getArchetype_eq h hv)]
  exact hcont

/-- An error is reported. -/
theorem onlyErrs_err (err : XynokEcsError) : OnlyErrs (fault (.err err) : Call V α) w := ⟨err,rfl⟩

/-- A value is returned. -/
theorem onlyErrs_pure (a : α) : OnlyErrs (pure a : Call V α) w := trivial

/-- `try_register_archetype` panics when its archetype cannot be created. -/
theorem tryRegisterArchetype_panics (cfg : ArchetypeCfg) (h : RegistryInv D w)
    (hD : D → T.isDeclared=true) :
    PanicsUnless (cfg.validate=.ok () → Resolvable (.chunked cfg) w T) (tryRegisterArchetype T cfg)
      w := by
  unfold tryRegisterArchetype
  cases hval : cfg.validate with
  | error err => exact OnlyErrs.unless (onlyErrs_err err) nofun
  | ok u =>
    refine PanicsUnless.congr (P:=Resolvable (.chunked cfg) w T) ?_
      ⟨fun hr _ => hr,fun hr => hr rfl⟩
    refine panicsUnless_resolve h hD fun i w₁ spec _ hinv hh => onlyErrs_getArchetype hinv hh.1 ?_
    split
    · exact onlyErrs_err _
    · split
      · exact onlyErrs_err _
      · split
        · exact onlyErrs_err _
        · exact onlyErrs_pure ()

/-- `get_or_create_singleton_archetype_id` panics when the archetype cannot be created. -/
theorem singletonArchetype_outcome (h : RegistryInv D w) (hD : D → T.isDeclared=true) :
    wp (getOrCreateSingletonArchetypeId T) (fun i w₁ => Resolvable .singleton w T ∧ Extends w w₁ ∧
        RegistryInv D w₁ ∧ ∃ spec : ArchetypeSpec V,Home w₁ T i spec)
      (fun f _ => Resolvable .singleton w T ∧ Errs f ∨ ¬Resolvable .singleton w T ∧ Panics f) w := by
  unfold getOrCreateSingletonArchetypeId
  rw [wp_bind]
  refine wp_mono (getOrCreate_outcome h hD) ?_ ?_
  · rintro i w₁ ⟨hr,hext,hinv,-,spec,hh⟩
    unfold wp
    rw [bind_ok (getArchetype_eq hinv hh.1)]
    split
    · rename_i heq
      split at heq
      · cases heq
      · cases heq
        exact ⟨hr,hext,hinv,spec,hh⟩
    · rename_i heq
      split at heq
      · cases heq
        exact .inl ⟨hr,_,rfl⟩
      · cases heq
  · rintro f w₁ ⟨hr,-,-,hp⟩
    exact .inr ⟨hr,hp⟩

/-- `try_register_singleton` panics when its archetype cannot be created. -/
theorem tryRegisterSingleton_panics (h : RegistryInv D w) (hD : D → T.isDeclared=true) :
    PanicsUnless (Resolvable .singleton w T) (tryRegisterSingleton T) w := by
  unfold tryRegisterSingleton PanicsUnless
  rw [wp_bind]
  exact wp_mono (singletonArchetype_outcome h hD) (fun _ _ hs => hs.1) fun _ _ he => he

end Registering

section Creating

variable [Inhabited V] {val : Bundle V}

omit [Inhabited V] in
/-- A handle is taken exactly when a slot is available. -/
theorem newEntity_outcome {a : EntityAllocator} (h : SlotsInv a reserved) :
    wp newEntity (fun e a' => a.slotAvailable=true ∧ Taken a e a' ∧ SlotsInv a' (e::reserved))
      (fun f a' => a.slotAvailable=false ∧ Errs f ∧ a'=a) a := by
  have hspec := newEntity_spec h
  have hfresh : ∀ {i v : ℕ},i ≤ Entity.maxIdx → v ≤ Entity.maxVersion → ∃ e,Entity.new i v=.ok e :=
    fun hi hv => Entity.new_isOk_iff.mpr ⟨hi,hv⟩
  apply wp_intro
  · intro e a' hrun
    have htaken := wp_of_ok hspec hrun
    exact ⟨newEntity_available hrun,htaken⟩
  · intro f a' hrun
    have ha : a'=a := wp_of_error (E:=fun _ a' => a'=a) hspec hrun
    unfold newEntity at hrun
    split at hrun
    · rename_i i rest hfree
      obtain ⟨old,hold,-,hlt⟩ := h.free_slot i (by rw [hfree]; exact List.mem_cons_self)
      have hi : i<a.entities.length := (List.getElem?_eq_some_iff.mp hold).1
      have hcap := h.capacity
      obtain ⟨e,he⟩ := hfresh (by omega : i ≤ Entity.maxIdx) (Nat.succ_le_of_lt hlt)
      rw [hold] at hrun
      dsimp only at hrun
      rw [he] at hrun
      cases hrun
    · rename_i hfree
      split at hrun
      · cases hrun
      · rename_i err herr
        refine ⟨?_,⟨err,by cases hrun; rfl⟩,ha⟩
        unfold EntityAllocator.slotAvailable
        rw [hfree,Bool.or_eq_false_iff]
        refine ⟨rfl,decide_eq_false fun hle => ?_⟩
        obtain ⟨e,he⟩ := hfresh hle (by decide : Entity.initializeVersion ≤ Entity.maxVersion)
        rw [he] at herr
        cases herr

/-- Pushing a row and attaching its handle. -/
theorem onlyErrs_attach {i : ℕ} (h : StoreInv D (e::reserved) w) (hD : D → val.ty.isDeclared=true)
    (hv : w.archetypes.valueAt i=some src) (ht : HasTypes src.layout val.ty) :
    OnlyErrs (do
      let w ← getState
      let indices ← onArchetype i (fun layout => push layout e val w.tick)
      onAllocator (updateEntitySpec e i indices) : Call V Unit) w := by
  unfold OnlyErrs
  rw [wp_bind,wp_getState]
  unfold wp
  cases attach_spec h hD hv ht with
  | inl herr =>
    obtain ⟨err,-,hrun⟩ := herr
    rw [bind_error hrun]
    exact ⟨err,rfl⟩
  | inr hok =>
    obtain ⟨ix,w₁,w',hrun,hrun',-⟩ := hok
    rw [bind_ok hrun,hrun']
    trivial

/-- `create_components_for` panics when the archetype of its bundle cannot be created. -/
theorem createComponentsFor_panics (h : StoreInv D (e::reserved) w) (hD : D → val.ty.isDeclared=true) :
    PanicsUnless (Resolvable (.chunked defaultArchetypeCfg) w val.ty) (createComponentsFor e val) w := by
  refine PanicsUnless.consuming (panicsUnless_resolve h.registry hD fun i w₁ spec hext hinv hh => ?_)
  refine onlyErrs_getArchetype hinv hh.1 ?_
  split
  · exact onlyErrs_err _
  · exact onlyErrs_attach (h.extend hext hinv) hD hh.1 hh.2

/-- `try_create` panics when a slot is available and the archetype of its bundle
cannot be created. -/
theorem tryCreate_panics (h : StoreInv D reserved w) (hD : D → val.ty.isDeclared=true) :
    PanicsUnless (w.entityAllocator.slotAvailable=true →
      Resolvable (.chunked defaultArchetypeCfg) w val.ty) (tryCreate val) w := by
  unfold tryCreate PanicsUnless consuming
  rw [wp_bind,wp_onFault,wp_onAllocator]
  refine wp_mono (newEntity_outcome h.slots) ?_ ?_
  · rintro e a ⟨havail,htaken,hslots⟩
    have hcreate := createComponentsFor_panics (StoreInv.taken h htaken hslots) hD
    exact (hcreate.congr ⟨fun hr _ => hr,fun hr => hr havail⟩).map (f:=fun _ => e)
  · rintro f a ⟨hfull,herr,-⟩
    refine .inl ⟨fun havail => ?_,herr⟩
    rw [hfull] at havail
    cases havail

/-- `try_create_singleton` panics when the archetype of its bundle cannot be created. -/
theorem tryCreateSingleton_panics (h : StoreInv D reserved w) (hD : D → val.ty.isDeclared=true) :
    PanicsUnless (Resolvable .singleton w val.ty) (tryCreateSingleton val) w := by
  refine PanicsUnless.consuming ?_
  unfold PanicsUnless
  rw [wp_bind]
  refine wp_mono (singletonArchetype_outcome h.registry hD) ?_ fun _ _ he => he
  rintro i w₁ ⟨hr,hext,hinv,spec,hh⟩
  refine OnlyErrs.unless (onlyErrs_getArchetype hinv hh.1 ?_) hr
  have h₁ := h.extend hext hinv
  split
  · exact onlyErrs_err _
  · unfold OnlyErrs
    rw [wp_bind,wp_onAllocator]
    refine wp_mono (newEntity_outcome h₁.slots) ?_ fun _ _ he => he.2.1
    rintro e a ⟨-,htaken,hslots⟩
    have h₂ := StoreInv.taken h₁ htaken hslots
    rw [wp_bind,wp_getState,wp_bind]
    unfold wp
    cases attach_spec h₂ hD hh.1 hh.2 with
    | inl herr =>
      obtain ⟨err,-,hrun⟩ := herr
      obtain ⟨-,slot,hslot,-⟩ := h₂.slots.reserved_slot e List.mem_cons_self
      have herase := onAllocator_eq (w:=World.setSlots w₁ a) (eraseEntity_eq hslot)
      rw [onErr_err hrun,bind_ok herase]
      exact ⟨err,rfl⟩
    | inr hok =>
      obtain ⟨ix,w₂,w',hrun,hrun',-⟩ := hok
      rw [onErr_ok hrun]
      dsimp only
      rw [bind_ok hrun']
      trivial

end Creating

section Changing

variable {isRemove : Bool} {dstArchId : ℕ}

/-- The archetypes a structure change asks for can be created: that of the type,
and when the components are as the change needs them the one it leads to. -/
def ChangeResolvable (isRemove : Bool) (w : World V) (slot : EntitySpec) (src : ArchetypeSpec V)
    (T : TArchetype) : Prop :=
  Resolvable (.chunked defaultArchetypeCfg) w T ∧
    (Fits isRemove src.layout T → EdgeResolvable isRemove (World.resolving w T) ⟨slot.archId,T⟩)

/-- A condition on the one place of a live entity. -/
theorem forall_liveIn {Q : EntitySpec → ArchetypeSpec V → Prop} (hl : LiveIn w e slot src) :
    (∀ slot src,LiveIn w e slot src → Q slot src) ↔ Q slot src := by
  refine ⟨fun h => h slot src hl,fun h slot' src' hl' => ?_⟩
  have hslot : slot'=slot := Option.some.inj (hl'.stored.symm.trans hl.stored)
  subst hslot
  have hsrc : src'=src := Option.some.inj (hl'.archetype.symm.trans hl.archetype)
  subst hsrc
  exact h

/-- An entity that is found is in a registered archetype. -/
theorem liveIn_of_located (h : StoreInv D reserved w) {l : RowLoc}
    (hl : w.entityAllocator.locate e=some l) (hs : w.entityAllocator.entities[e.idx]?=some slot) :
    ∃ src,LiveIn w e slot src := by
  obtain ⟨slot',src,c,hf⟩ := StoreInv.found h hl
  have hslot : slot'=slot := Option.some.inj (hf.stored.symm.trans hs)
  subst hslot
  exact ⟨src,hf.locate,hf.stored,hf.archetype⟩

/-- Why adding or removing ends before a row moves says whether it panics. -/
theorem changeExit_panics (h : RegistryInv False w) (hl : LiveIn w e slot src) {f : Fault}
    (hx : ChangeExit isRemove w e slot T f) :
    ChangeResolvable isRemove w slot src T ∧ Errs f ∨
      ¬ChangeResolvable isRemove w slot src T ∧ Panics f := by
  have hkept := hl.resolving h T
  have hsame : ∀ {src' : ArchetypeSpec V},
      (World.resolving w T).archetypes.valueAt slot.archId=some src' → src'=src :=
    fun hv => Option.some.inj (hv.symm.trans hkept)
  cases hx with
  | unresolved hr hp => exact .inr ⟨fun hc => hr hc.1,hp⟩
  | homeless hv hp =>
    rw [hkept] at hv
    cases hv
  | mismatched hr hv hm =>
    cases hsame hv
    exact .inl ⟨⟨hr,fun hfit => absurd hfit hm⟩,_,rfl⟩
  | unreachable hr hv hm he hp =>
    cases hsame hv
    exact .inr ⟨fun hc => he (hc.2 hm),hp⟩
  | locked hr hv hm he hlock => exact .inl ⟨⟨hr,fun _ => he⟩,_,rfl⟩

/-- A change to components that are as it needs them leads somewhere else. -/
theorem edge_elsewhere {w₁ : World V} (hr : EdgeReady isRemove ⟨slot.archId,T⟩ dstArchId src dst w₁)
    (hfit : Fits isRemove src.layout T) : slot.archId≠dstArchId := by
  intro he
  obtain ⟨k,hk⟩ := List.exists_mem_of_ne_nil _ T.components_ne_nil
  have hT : k.storageType∈T.storageTypes := List.mem_map_of_mem hk
  have hsame : src=dst := by
    have ht := hr.target
    rw [←he] at ht
    exact Option.some.inj (hr.source.symm.trans ht)
  have htypes := hr.types k.storageType
  have hk := hfit _ hT
  rw [←hsame] at htypes
  cases isRemove with
  | true => exact (htypes.mp hk).2 hT
  | false => exact hk (htypes.mpr (.inr hT))

variable [Inhabited V] {val : Bundle V}

/-- `try_add_component` panics when an archetype it asks for cannot be created. -/
theorem tryAddComponent_panics (h : StoreInv False reserved w) :
    PanicsUnless (∀ slot src,LiveIn w e slot src → ChangeResolvable false w slot src val.ty)
      (tryAddComponent e val) w := by
  refine tryAddComponent_rule h.registry False.elim (fun hmissing => ?_) ?_ ?_
  · refine .inl ⟨fun slot src hl => ?_,_,rfl⟩
    have hloc := hl.located
    rw [hmissing] at hloc
    cases hloc
  · intro l slot f w₁ hloc hs _ _ hx
    obtain ⟨src,hl⟩ := liveIn_of_located h hloc hs
    rw [forall_liveIn hl]
    exact changeExit_panics h.registry hl hx
  · intro l slot w₁ dstArchId src dst hloc hs he hi hready hmay _
    obtain ⟨src',hl⟩ := liveIn_of_located h hloc hs
    have hsrc : src'=src :=
      Option.some.inj ((he.kept _ _ hl.archetype).symm.trans hready.source)
    subst hsrc
    rw [forall_liveIn hl]
    obtain ⟨c,-,hf₁⟩ := StoreInv.found_extend h hloc hs he hready.source
    refine wp_mono (moveAndWrite_spec (h.extend he hi) hf₁ hready False.elim) ?_ ?_
    · exact fun _ _ _ => ⟨hmay.resolvable,fun _ => hmay.reachable⟩
    · exact fun f w' hend => .inl ⟨⟨hmay.resolvable,fun _ => hmay.reachable⟩,
        hend.2 (edge_elsewhere hready hmay.fits)⟩

/-- `try_remove_component` panics when an archetype it asks for cannot be created. -/
theorem tryRemoveComponent_panics (h : StoreInv False reserved w) :
    PanicsUnless (∀ slot src,LiveIn w e slot src → ChangeResolvable true w slot src T)
      (tryRemoveComponent T e : Call V (Bundle V)) w := by
  refine tryRemoveComponent_rule h.registry False.elim (fun hmissing => ?_) ?_ ?_
  · refine .inl ⟨fun slot src hl => ?_,_,rfl⟩
    have hloc := hl.located
    rw [hmissing] at hloc
    cases hloc
  · intro l slot f w₁ hloc hs _ _ hx
    obtain ⟨src,hl⟩ := liveIn_of_located h hloc hs
    rw [forall_liveIn hl]
    exact changeExit_panics h.registry hl hx
  · intro l slot w₁ dstArchId src dst hloc hs he hi hready hmay _
    obtain ⟨src',hl⟩ := liveIn_of_located h hloc hs
    have hsrc : src'=src :=
      Option.some.inj ((he.kept _ _ hl.archetype).symm.trans hready.source)
    subst hsrc
    obtain ⟨c,-,hf₁⟩ := StoreInv.found_extend h hloc hs he hready.source
    obtain ⟨b,w',hmove,-⟩ := takeOut_moved (h.extend he hi) hf₁ hready
      (edge_elsewhere hready hmay.fits) hmay.fits
    unfold wp
    rw [hmove,forall_liveIn hl]
    exact ⟨hmay.resolvable,fun _ => hmay.reachable⟩

/-- `try_merge_component` panics when the archetype it leads to cannot be created. -/
theorem tryMergeComponent_panics (h : StoreInv False reserved w) :
    PanicsUnless (∀ slot src,LiveIn w e slot src → EdgeResolvable false w ⟨slot.archId,val.ty⟩)
      (tryMergeComponent e val) w := by
  refine tryMergeComponent_rule h.registry False.elim (fun hmissing => ?_) ?_ ?_ ?_
  · refine .inl ⟨fun slot src hl => ?_,_,rfl⟩
    have hloc := hl.located
    rw [hmissing] at hloc
    cases hloc
  · intro l slot f w₁ hloc hs _ _ hx
    obtain ⟨src,hl⟩ := liveIn_of_located h hloc hs
    rw [forall_liveIn hl]
    cases hx with
    | homeless hv =>
      rw [hl.archetype] at hv
      cases hv
    | unreachable he hp => exact .inr ⟨he,hp⟩
    | locked hv he hm hlock => exact .inl ⟨he,_,rfl⟩
  · intro l slot w₁ src hloc hs he hi hsrc hn hres hp
    obtain ⟨src',hl⟩ := liveIn_of_located h hloc hs
    have hsame : src'=src := Option.some.inj ((he.kept _ _ hl.archetype).symm.trans hsrc)
    subst hsame
    rw [forall_liveIn hl]
    obtain ⟨c,-,hf₁⟩ := StoreInv.found_extend h hloc hs he hsrc
    refine wp_mono (replaceInPlace_spec (h.extend he hi) hf₁ hn False.elim hp w₁.tick) ?_ ?_
    · exact fun _ _ _ => hres hl.archetype
    · exact fun f w' hend => .inl ⟨hres hl.archetype,hend.2⟩
  · intro l slot w₁ dstArchId src dst hloc hs he hi hready hne hres _
    obtain ⟨src',hl⟩ := liveIn_of_located h hloc hs
    have hsame : src'=src := Option.some.inj ((he.kept _ _ hl.archetype).symm.trans hready.source)
    subst hsame
    rw [forall_liveIn hl]
    obtain ⟨c,-,hf₁⟩ := StoreInv.found_extend h hloc hs he hready.source
    refine wp_mono (moveAndWrite_spec (h.extend he hi) hf₁ hready False.elim) ?_ ?_
    · exact fun _ _ _ => (hres hl.archetype).1
    · exact fun f w' hend => .inl ⟨(hres hl.archetype).1,hend.2 hne⟩

end Changing

section Reports

/-- The archetype of a type is not there and creating it fails, for the reason given. -/
def Uncreatable (kind : ArchetypeKind) (w : World V) (T : TArchetype) (err : XynokEcsError) : Prop :=
  (∀ i spec,¬Home w T i spec) ∧ (checkNoDuplicateComponent [] T.storageTypes=.error err ∨
    checkNoDuplicateComponent [] T.storageTypes=.ok () ∧
      layoutFor kind (registeredFor w T) T=.error err)

/-- Where a structure change leads is not cached, and an archetype on the way to it
is not there and creating it fails. -/
def EdgeUncreatable (isRemove : Bool) (w : World V) (key : ArchetypeEdgeKey) (err : XynokEcsError) :
    Prop :=
  (w.edges isRemove).lookup key=none ∧
    (Uncreatable (.chunked defaultArchetypeCfg) w key.archetypeTypeId err ∨
      ∃ (bArchId : ℕ) (src b : ArchetypeSpec V),
        (World.resolving w key.archetypeTypeId).archetypes.valueAt key.srcArchId=some src ∧
        Home (World.resolving w key.archetypeTypeId) key.archetypeTypeId bArchId b ∧
        ¬DerivedHome isRemove (World.resolving w key.archetypeTypeId) src b ∧
        derivedSpec isRemove (World.resolving w key.archetypeTypeId) key.srcArchId bArchId src b=
          .error err)

/-- Adding or removing asks for an archetype whose creation fails. -/
def ChangeUncreatable (isRemove : Bool) (w : World V) (slot : EntitySpec) (src : ArchetypeSpec V)
    (T : TArchetype) (err : XynokEcsError) : Prop :=
  Uncreatable (.chunked defaultArchetypeCfg) w T err ∨ Fits isRemove src.layout T ∧
    EdgeUncreatable isRemove (World.resolving w T) ⟨slot.archId,T⟩ err

/-- An archetype that cannot be created cannot be had. -/
theorem Uncreatable.not_resolvable {err : XynokEcsError} (h : Uncreatable kind w T err) :
    ¬Resolvable kind w T := by
  obtain ⟨hhome,hfail⟩ := h
  rintro (⟨i,spec,hh⟩ | ⟨hn,-,layout,hl⟩)
  · exact hhome i spec hh
  · cases hfail with
    | inl hdup =>
      have hok : checkNoDuplicateComponent [] T.storageTypes=.ok () :=
        checkNoDuplicateComponent_of hn fun _ _ => List.not_mem_nil
      rw [hok] at hdup
      cases hdup
    | inr hlayout =>
      rw [hl] at hlayout
      cases hlayout.2

/-- The end of an edge that needs such an archetype cannot be had. -/
theorem EdgeUncreatable.not_resolvable {isRemove : Bool} {key : ArchetypeEdgeKey}
    {err : XynokEcsError} (h : EdgeUncreatable isRemove w key err) :
    ¬EdgeResolvable isRemove w key := by
  obtain ⟨hnone,hfail⟩ := h
  rintro (⟨edge,hedge⟩ | ⟨hr,hd⟩)
  · rw [hnone] at hedge
    cases hedge
  · cases hfail with
    | inl hun => exact hun.not_resolvable hr
    | inr hder =>
      obtain ⟨bArchId,src,b,hsrc,hb,hhome,herr⟩ := hder
      cases hd bArchId src b hsrc hb with
      | inl hh => exact hhome hh
      | inr hspec =>
        obtain ⟨-,spec,hok⟩ := hspec
        rw [herr] at hok
        cases hok

/-- A structure change that needs one is not possible. -/
theorem ChangeUncreatable.not_resolvable {isRemove : Bool} {err : XynokEcsError}
    (h : ChangeUncreatable isRemove w slot src T err) : ¬ChangeResolvable isRemove w slot src T :=
  fun hr => h.elim (fun hun => hun.not_resolvable hr.1) fun he => he.2.not_resolvable (hr.2 he.1)

/-- A call asks for an archetype that is not there and whose creation fails. -/
def WorldCall.Uncreatable (w : World V) (err : XynokEcsError) : WorldCall V → Prop
  | .registerArchetype T cfg => cfg.validate=.ok () ∧ TryOutcomes.Uncreatable (.chunked cfg) w T err
  | .registerSingleton T => TryOutcomes.Uncreatable .singleton w T err
  | .create val => w.entityAllocator.slotAvailable=true ∧
    TryOutcomes.Uncreatable (.chunked defaultArchetypeCfg) w val.ty err
  | .createSingleton val => TryOutcomes.Uncreatable .singleton w val.ty err
  | .destroy _ => False
  | .addComponent e val => ∃ slot src,LiveIn w e slot src ∧
    ChangeUncreatable false w slot src val.ty err
  | .mergeComponent e val => ∃ slot src,LiveIn w e slot src ∧
    EdgeUncreatable false w ⟨slot.archId,val.ty⟩ err
  | .removeComponent T e => ∃ slot src,LiveIn w e slot src ∧ ChangeUncreatable true w slot src T err

/-- Every archetype a call asks for is there or can be created. -/
def WorldCall.Creatable (w : World V) : WorldCall V → Prop
  | .registerArchetype T cfg => cfg.validate=.ok () → Resolvable (.chunked cfg) w T
  | .registerSingleton T => Resolvable .singleton w T
  | .create val => w.entityAllocator.slotAvailable=true →
    Resolvable (.chunked defaultArchetypeCfg) w val.ty
  | .createSingleton val => Resolvable .singleton w val.ty
  | .destroy _ => True
  | .addComponent e val => ∀ slot src,LiveIn w e slot src → ChangeResolvable false w slot src val.ty
  | .mergeComponent e val => ∀ slot src,LiveIn w e slot src →
    EdgeResolvable false w ⟨slot.archId,val.ty⟩
  | .removeComponent T e => ∀ slot src,LiveIn w e slot src → ChangeResolvable true w slot src T

/-- A call that needs it is not one whose archetypes can be had. -/
theorem not_creatable_of_uncreatable {call : WorldCall V} {err : XynokEcsError}
    (h : WorldCall.Uncreatable w err call) : ¬WorldCall.Creatable w call := by
  cases call with
  | registerArchetype T cfg => exact fun hc => h.2.not_resolvable (hc h.1)
  | registerSingleton T => exact h.not_resolvable
  | create val => exact fun hc => h.2.not_resolvable (hc h.1)
  | createSingleton val => exact h.not_resolvable
  | destroy e => exact h.elim
  | addComponent e val =>
    obtain ⟨slot,src,hl,hun⟩ := h
    exact fun hc => hun.not_resolvable (hc slot src hl)
  | mergeComponent e val =>
    obtain ⟨slot,src,hl,hun⟩ := h
    exact fun hc => hun.not_resolvable (hc slot src hl)
  | removeComponent T e =>
    obtain ⟨slot,src,hl,hun⟩ := h
    exact fun hc => hun.not_resolvable (hc slot src hl)

variable [Inhabited V]

/-- A call does not panic, and reports an archetype that cannot be created as an
error, with no archetype added. -/
structure Reports (w : World V) (call : WorldCall V) : Prop where
  /-- The call gives back a value or an error. -/
  returned : Returned (call.perform .returning w).1
  /-- An archetype that cannot be created is an error, and none is added. -/
  refused : ∀ err,WorldCall.Uncreatable w err call →
    (call.perform .returning w).1=.error (.err err) ∧
      (call.perform .returning w).2.archetypes=w.archetypes

omit [Inhabited V] in
/-- `try_destroy` never panics. -/
theorem tryDestroy_panics (h : StoreInv D reserved w) : PanicsUnless True (tryDestroy e) w := by
  unfold PanicsUnless wp
  cases hl : w.entityAllocator.locate e with
  | none =>
    rw [tryDestroy_missing hl]
    exact .inl ⟨trivial,_,rfl⟩
  | some l =>
    obtain ⟨w',hrun,-⟩ := tryDestroy_found h hl
    rw [hrun]
    trivial

/-- Each call panics exactly when an archetype it asks for cannot be created. -/
theorem perform_panics (h : StoreInv False reserved w) (call : WorldCall V) :
    PanicsUnless (WorldCall.Creatable w call) (call.perform .returning) w := by
  cases call with
  | registerArchetype T cfg => exact (tryRegisterArchetype_panics cfg h.registry False.elim).map
  | registerSingleton T => exact (tryRegisterSingleton_panics h.registry False.elim).map
  | create val => exact (tryCreate_panics h False.elim).map
  | createSingleton val => exact (tryCreateSingleton_panics h False.elim).map
  | destroy e => exact (tryDestroy_panics h).map
  | addComponent e val => exact (tryAddComponent_panics h).map
  | mergeComponent e val => exact (tryMergeComponent_panics h).map
  | removeComponent T e => exact (tryRemoveComponent_panics h).map

/-- In every world that actions reach without a queued destroy hitting a dead entity,
a call reports what it cannot create, and does not panic, exactly when it can create
every archetype it asks for. -/
theorem reports_iff (runtime : Runtime) (as : List (Action V)) (call : WorldCall V)
    (ha : Along Action.step (Proper False) as (World.new runtime)) :
    Reports (runAll Action.step as (World.new runtime)) call ↔
      WorldCall.Creatable (runAll Action.step as (World.new runtime)) call := by
  have hinv : RunInv False (runAll Action.step as (World.new runtime : World V)) :=
    runInv_run (runInv_new False runtime) ha
  have hiff := (perform_panics hinv.inv.store call).returned_iff
  refine ⟨fun hr => hiff.mp hr.returned,fun hc => ⟨hiff.mpr hc,fun err hun => ?_⟩⟩
  exact absurd hc (not_creatable_of_uncreatable hun)

/-- A singleton and an entity, which is then given a component. -/
def oneEach : List (Action ℕ) := [
  .world .returning (.createSingleton (.single (plain 0) 1)),
  .world .returning (.create (.single (plain 1) 2))]

/-- A component is given to an entity that has another one. -/
theorem reports_iff_given :
    let w : World ℕ := runAll Action.step oneEach (World.new inOrder)
    let call : WorldCall ℕ := .addComponent (handle 1 1) (.single (plain 2) 3)
    Reports w call ↔ WorldCall.Creatable w call :=
  reports_iff inOrder oneEach _ ⟨⟨False.elim,trivial⟩,⟨False.elim,trivial⟩,trivial⟩

/-- A bundle that names a component twice, and a chunk too small for one row: both
calls panic. -/
theorem not_reports :
    (¬Reports (World.new inOrder : World ℕ) (.create (.tuple (plain 0,1) [(plain 0,2)]))) ∧
    ¬Reports (World.new inOrder : World ℕ) (.registerArchetype (.single (plain 0)) ⟨8,true⟩) := by
  have hpanic : ∀ {call : WorldCall ℕ} {p : Panic},
      (call.perform .returning (World.new inOrder)).1=.error (.panic p) →
        ¬Reports (World.new inOrder) call := by
    intro call p hr hrep
    exact not_errs_of_panics ⟨p,rfl⟩ (hrep.returned _ hr)
  refine ⟨hpanic (p:=.createArchetypeFailed (.tuple (plain 0) [plain 0])
    (.duplicateComponentInArchetype (plainType 0))) rfl,
    hpanic (p:=.createArchetypeFailed (.single (plain 0)) .archetypeIsTooLarge) rfl⟩

end Reports

end XynokEcs.TryOutcomes
