import XynokEcs.CommandQueues

/-!
# Singletons

A singleton archetype is locked, its chunk holds one row, and a row is only put
into it when it can take one. No row migrates into it, since migrating asks for
two unlocked archetypes. So it has one chunk at most, and its entity is in the
first row of it.
-/

namespace XynokEcs.SingletonRows

open ComponentTypes EntityHandle SequenceValueMap ChunkLayouts FaultingState RowDirectory ChunkRows
  RowWrites ArchetypeStore QueryShapes EntityAllocation SlotInvariants WorldState WorldCalls
  CommandBuffer RegistryInvariants RegistrySteps StoreInvariants StoreSteps StructureChanges
  RegistryFrame ArchetypeHomes EdgeOutcomes QueryAccess QuerySources ItemWrites WorkerQueues ActionRuns
  WorldRuns ActionEffects WorldGrowth CommandQueues

variable {V α β : Type} {w w' : World V} {T : TArchetype} {e : Entity} {i : ℕ}
  {spec : ArchetypeSpec V}

/-- A singleton is locked, fitted to one row and has one chunk at most. -/
def ArchetypeSpec.Single (spec : ArchetypeSpec V) : Prop := spec.arch.isSingleton=true →
  spec.allowStructureChange=false ∧ spec.layout.maxLen=1 ∧ spec.arch.chunks.length≤1

/-- All singletons of the world are. -/
def Singles (w : World V) : Prop :=
  ∀ (i : ℕ) (spec : ArchetypeSpec V),w.archetypes.valueAt i=some spec → ArchetypeSpec.Single spec

section Frames

/-- What holds of the archetypes holds of any world with the same ones. -/
theorem singles_congr (h : Singles w) (ha : w'.archetypes=w.archetypes) : Singles w' := by
  intro i spec hv
  rw [ha] at hv
  exact h i spec hv

/-- A call that leaves the archetypes alone leaves the singletons alone. -/
theorem stays_archetypes {x : Call V α} (hx : Fixes World.archetypes x) : Stays Singles x :=
  Stays.of_fixes hx fun _ _ ha h => singles_congr h ha

/-- Nothing is asked of an archetype that is no singleton. -/
theorem single_regular (h : spec.arch.isSingleton=false) : ArchetypeSpec.Single spec := by
  intro hs
  rw [h] at hs
  cases hs

/-- Opening chunks the way the store does keeps a singleton that has room. -/
theorem ArchetypeSpec.Single.opens (h : ArchetypeSpec.Single spec) {a : Archetype V}
    (ho : Opens spec.arch a) (hc : spec.arch.canTakeARow=true) :
    ArchetypeSpec.Single { spec with arch := a } := by
  intro hs
  have hsing : spec.arch.isSingleton=true := ho.1.symm.trans hs
  obtain ⟨hlock,hfit,hlen⟩ := h hsing
  refine ⟨hlock,hfit,?_⟩
  change a.chunks.length≤1
  rcases ho.2 with hsame | ⟨hfree,hgrow⟩
  · omega
  · rw [Archetype.canTakeARow,hsing,hfree] at hc
    have hnone : spec.arch.chunks=[] := by
      simpa only [Bool.not_true,List.isEmpty_nil,Bool.or_false,Bool.false_or,
        List.isEmpty_iff] using hc
    rw [hnone] at hgrow
    exact hgrow.le

/-- Only the kind and the number of chunks matter. -/
theorem ArchetypeSpec.Single.shape (h : ArchetypeSpec.Single spec) {a : Archetype V}
    (ha : a.shape=spec.arch.shape) : ArchetypeSpec.Single { spec with arch := a } := by
  obtain ⟨hs,hl⟩ := Prod.mk.inj ha
  intro hsing
  obtain ⟨hlock,hfit,hlen⟩ := h (hs.symm.trans hsing)
  exact ⟨hlock,hfit,hl.trans_le hlen⟩

/-- A singleton found by its id has one chunk at most. -/
theorem Singles.get (h : Singles w) (hg : w.archetypes.get i=some spec) :
    ArchetypeSpec.Single spec := by
  obtain ⟨j,-,hv⟩ := Option.bind_eq_some_iff.mp hg
  exact h j spec hv

/-- One archetype may be rewritten, if it stays a single one. -/
theorem singles_modifyAt (h : Singles w) {f : ArchetypeSpec V → ArchetypeSpec V}
    (hf : ∀ spec,w.archetypes.valueAt i=some spec → ArchetypeSpec.Single (f spec)) :
    Singles { w with archetypes := w.archetypes.modifyAt i f } := by
  intro j spec hv
  change (w.archetypes.modifyAt i f).valueAt j=some spec at hv
  rw [SequenceValueHashMap.valueAt_modifyAt] at hv
  split at hv
  · rename_i hij
    subst hij
    obtain ⟨s,hs,rfl⟩ := Option.map_eq_some_iff.mp hv
    exact hf s hs
  · exact h j spec hv

/-- Looking an archetype up ends in it or in a panic. -/
theorem getArchetype_run (i : ℕ) (w : World V) :
    getArchetype i w=(match w.archetypes.get i with
      | some spec => .ok spec
      | none => .error (.panic .unwrapFailed),w) := by
  unfold getArchetype
  rw [getState_bind]
  split <;> rename_i hg <;> rw [hg] <;> rfl

/-- Work on one archetype keeps the singletons when what it does to that one
does. -/
theorem onArchetype_singles (h : Singles w) {x : ChunkLayout → Faulting (Archetype V) Fault α}
    (hx : ∀ spec,w.archetypes.get i=some spec →
      ArchetypeSpec.Single { spec with arch := (x spec.layout spec.arch).2 }) :
    Singles (onArchetype i x w).2 := by
  unfold onArchetype
  cases hg : w.archetypes.get i with
  | none =>
    have hrun : getArchetype i w=(.error (.panic .unwrapFailed),w) := by rw [getArchetype_run,hg]
    rw [bind_error hrun]
    exact h
  | some spec =>
    have hrun : getArchetype i w=(.ok spec,w) := by rw [getArchetype_run,hg]
    have hone := hx spec hg
    rw [bind_ok hrun]
    refine Stays.focus h fun a ha => ?_
    rw [hg] at ha
    cases ha
    obtain ⟨j,hj,hv⟩ := Option.bind_eq_some_iff.mp hg
    rw [SequenceValueHashMap.modify,hj]
    refine singles_modifyAt h fun s hs => ?_
    rw [hv] at hs
    cases hs
    exact hone

/-- Work that opens no chunk leaves the singletons alone. -/
theorem stays_onArchetype (i : ℕ) {x : ChunkLayout → Faulting (Archetype V) Fault α}
    (hx : ∀ layout,Fixes Archetype.shape (x layout)) : Stays Singles (onArchetype i x) :=
  fun _ h => onArchetype_singles h fun spec hg => (h.get hg).shape (hx spec.layout spec.arch)

/-- A row that moves into an unlocked archetype keeps the singletons. -/
theorem onArchetypePair_singles (h : Singles w) {s t : ℕ}
    (hu : ∀ dst,w.archetypes.valueAt t=some dst → dst.allowStructureChange=true)
    {x : ChunkLayout → ChunkLayout → Faulting (ArchetypePair V) Fault α}
    (hx : ∀ srcLayout dstLayout p,PairOpens p (x srcLayout dstLayout p).2) :
    Singles (onArchetypePair s t x w).2 := by
  unfold onArchetypePair
  split
  · rename_i src dst hs ht
    split
    · exact h
    · rename_i hne
      refine Stays.focus h fun p hp => ?_
      cases hp
      obtain ⟨hopen,hshape⟩ := hx src.layout dst.layout ⟨dst.arch,src.arch⟩
      have hsrc : Singles { w with archetypes := w.archetypes.modifyAt s fun spec =>
          { spec with arch := (x src.layout dst.layout ⟨dst.arch,src.arch⟩).2.src } } := by
        refine singles_modifyAt h fun spec hv => ?_
        rw [hs] at hv
        cases hv
        exact (h s src hs).shape hshape
      refine singles_modifyAt hsrc fun spec hv => single_regular ?_
      change (w.archetypes.modifyAt s _).valueAt t=some spec at hv
      rw [SequenceValueHashMap.valueAt_modifyAt,if_neg hne,ht] at hv
      cases hv
      refine hopen.1.trans ?_
      cases hd : dst.arch.isSingleton with
      | false => rfl
      | true =>
        have hlock := (h t dst ht hd).1
        rw [hu dst ht] at hlock
        cases hlock
  · exact h

end Frames

section Registering

/-- A new archetype without a second chunk may be registered. -/
theorem stays_registerSpec (set : List ℕ) (hs : ArchetypeSpec.Single spec) :
    Stays Singles (registerArchetypeSpec set spec : Call V ℕ) := by
  intro w h
  unfold registerArchetypeSpec
  rw [getState_bind]
  split
  · exact h
  · rw [modifyState_bind]
    refine stays_archetypes (Fixes.bind (Fixes.modifyState fun _ => rfl) fun _ => Fixes.pure _) _ ?_
    intro j s hv
    change (w.archetypes.insert w.archetypes.len spec).1.valueAt j=some s at hv
    unfold SequenceValueHashMap.insert at hv
    split at hv
    · dsimp only at hv
      rw [SequenceValueHashMap.valueAt_modifyAt] at hv
      split at hv
      · obtain ⟨_,-,rfl⟩ := Option.map_eq_some_iff.mp hv
        exact hs
      · exact h j s hv
    · dsimp only at hv
      rw [SequenceValueHashMap.valueAt_push] at hv
      split at hv
      · cases hv
        exact hs
      · exact h j s hv

/-- A new archetype has no chunk yet. -/
theorem createdSpec_single {kind : ArchetypeKind} {specs : ComponentSpecs} {layout : ChunkLayout}
    (hl : layoutFor kind specs T=.ok layout) :
    ArchetypeSpec.Single (createdSpec kind T layout : ArchetypeSpec V) := by
  cases kind with
  | chunked cfg => exact single_regular rfl
  | singleton => exact fun _ => ⟨rfl,(ChunkLayout.newFitted_of hl).2,Nat.zero_le 1⟩

/-- So creating one leaves the world alone, and what it gives is single. -/
theorem createArchetype_single (T : TArchetype) (kind : ArchetypeKind) (w : World V) :
    (createArchetype T kind w).2=w ∧
      ∀ a w',createArchetype T kind w=(.ok a,w') → ArchetypeSpec.Single a := by
  cases hl : layoutFor kind w.componentCounter T with
  | ok layout =>
    rw [createArchetype_ok hl]
    refine ⟨rfl,?_⟩
    rintro a w' ⟨⟩
    exact createdSpec_single hl
  | error e =>
    rw [createArchetype_error hl]
    exact ⟨rfl,nofun⟩

/-- Creating an archetype on demand keeps singletons single. -/
theorem stays_getOrCreate (T : TArchetype) (kind : ArchetypeKind) :
    Stays Singles (getOrCreateArchetypeAs T kind : Call V ℕ) := by
  refine Stays.getState fun w => ?_
  split
  · exact Stays.pure _
  · unfold createArchetypeId
    split
    · exact Stays.fault _
    · refine Stays.getState fun w => Stays.bind ?_ fun _ => ?_
      · exact stays_archetypes (Fixes.modifyState fun _ => rfl)
      · dsimp only
        split
        · exact Stays.bind (stays_archetypes (Fixes.modifyState fun _ => rfl)) fun _ => Stays.pure _
        · intro w h
          have hcreate : Stays Singles (createArchetype T kind : Call V (ArchetypeSpec V)) :=
            stays_archetypes fun w => congrArg World.archetypes (createArchetype_single T kind w).1
          refine holds_bind (hcreate w h) fun a t hr ht => ?_
          have ha := (createArchetype_single T kind w).2 a t hr
          refine Stays.bind (stays_registerSpec _ ha) (fun archId => ?_) t ht
          exact Stays.bind (stays_archetypes (Fixes.modifyState fun _ => rfl)) fun _ => Stays.pure _

/-- Looking an archetype up leaves all of them alone. -/
theorem archetypes_getArchetype (i : ℕ) :
    Fixes World.archetypes (getArchetype i : Call V (ArchetypeSpec V)) := by
  intro w
  rw [getArchetype_run]

/-- So does reading its component ids. -/
theorem archetypes_componentIds (i : ℕ) :
    Fixes World.archetypes (archetypeComponentIds i : Call V (List ℕ)) := by
  refine Fixes.getState fun w => ?_
  split
  · exact Fixes.fault _
  · split
    · exact Fixes.pure _
    · exact Fixes.fault _

/-- Deriving an archetype keeps singletons single. -/
theorem stays_derived (isRemove : Bool) (set : List ℕ) (aArchId bArchId : ℕ) :
    Stays Singles (getOrCreateDerived isRemove set aArchId bArchId : Call V ℕ) := by
  refine Stays.getState fun w => ?_
  split
  · exact Stays.pure _
  · refine Stays.bind (stays_archetypes (archetypes_getArchetype _)) fun a => ?_
    refine Stays.bind (stays_archetypes (archetypes_getArchetype _)) fun b => Stays.getState fun w => ?_
    have hreg : ∀ {spec : ArchetypeSpec V},derivedSpec isRemove w aArchId bArchId a b=.ok spec →
        Stays Singles (registerArchetypeSpec set spec : Call V ℕ) := by
      intro spec hd
      obtain ⟨comps,hmade⟩ := derivedSpec_made hd
      refine stays_registerSpec set (single_regular ?_)
      rw [(derivedArchetype_ok hmade).2]
      rfl
    cases isRemove with
    | true =>
      dsimp only
      split
      · exact hreg ‹_›
      · exact Stays.fault _
    | false =>
      dsimp only
      split
      · exact hreg ‹_›
      · exact Stays.fault _

end Registering

section Moving

variable {isRemove : Bool} {slot : EntitySpec} {key : ArchetypeEdgeKey} {archId : ℕ}

/-- Creating an edge keeps singletons single. -/
theorem stays_edge (isRemove : Bool) (key : ArchetypeEdgeKey) :
    Stays Singles (getOrCreateEdge isRemove key : Call V ℕ) := by
  refine Stays.getState fun w => ?_
  split
  · exact Stays.pure _
  · refine Stays.bind (stays_getOrCreate _ _) fun b => ?_
    refine Stays.bind (stays_archetypes (archetypes_componentIds _)) fun aIds => ?_
    refine Stays.bind (stays_archetypes (archetypes_componentIds _)) fun bIds => ?_
    refine Stays.bind (stays_derived _ _ _ _) fun dst => Stays.bind ?_ fun _ => Stays.pure _
    refine stays_archetypes (Fixes.bind (archetypes_getArchetype _) fun src => ?_)
    refine Fixes.bind (archetypes_getArchetype _) fun dst => ?_
    dsimp only
    split <;> exact Fixes.modifyState fun _ => rfl

/-- Work on the slots keeps singletons single. -/
theorem stays_onAllocator (x : Faulting EntityAllocator Fault α) :
    Stays Singles (onAllocator x : Call V α) := stays_archetypes (archetypes_onAllocator x)

/-- The archetype a row is about to move into is unlocked. -/
def Open (archId : ℕ) (w : World V) : Prop :=
  ∀ dst,w.archetypes.get archId=some dst → dst.allowStructureChange=true

/-- What comes after the check for locks only ever meets an open destination. -/
theorem stays_checked {cont : Call V β} (srcArchId : ℕ)
    (hc : ∀ w : World V,Singles w → Open archId w → Singles (cont w).2) :
    Stays Singles (do
      checkStructureChange T e srcArchId archId
      cont) := by
  intro w h
  have hcheck : Fixes World.archetypes (checkStructureChange T e srcArchId archId : Call V Unit) := by
    refine Fixes.bind (archetypes_getArchetype _) fun src => ?_
    refine Fixes.bind (archetypes_getArchetype _) fun dst => ?_
    split
    · exact Fixes.fault _
    · exact Fixes.pure _
  refine holds_bind (stays_archetypes hcheck w h) fun u t hr ht => hc t ht ?_
  intro dst hd
  unfold checkStructureChange at hr
  cases hs : w.archetypes.get srcArchId with
  | none =>
    have hsrc : getArchetype srcArchId w=(.error (.panic .unwrapFailed),w) := by
      rw [getArchetype_run,hs]
    rw [bind_error hsrc] at hr
    cases hr
  | some src =>
    have hsrc : getArchetype srcArchId w=(.ok src,w) := by rw [getArchetype_run,hs]
    rw [bind_ok hsrc] at hr
    cases hd₀ : w.archetypes.get archId with
    | none =>
      have hdst : getArchetype archId w=(.error (.panic .unwrapFailed),w) := by
        rw [getArchetype_run,hd₀]
      rw [bind_error hdst] at hr
      cases hr
    | some dst₀ =>
      have hdst : getArchetype archId w=(.ok dst₀,w) := by rw [getArchetype_run,hd₀]
      rw [bind_ok hdst] at hr
      split at hr
      · cases hr
      · rename_i hn
        cases hr
        rw [hd₀] at hd
        cases hd
        exact (unlocked_of hn).2

/-- A row arrives in an open archetype, which is no singleton. -/
theorem moveRow_singles {x : MigrationPlan → ChunkLayout → ChunkLayout →
      Faulting (ArchetypePair V) Fault (ResultTake×α)}
    (hx : ∀ plan srcLayout dstLayout p,PairOpens p (x plan srcLayout dstLayout p).2) (h : Singles w)
    (ho : Open archId w) : Singles (moveRow isRemove e slot key archId x w).2 := by
  have hsome : ∀ {j k : ℕ},w.archetypes.indexOf j=some k → archetypeIndex j w=(.ok k,w) := by
    intro j k hj
    unfold archetypeIndex
    simp only [getState_bind,hj]
    rfl
  have hnone : ∀ {j : ℕ},w.archetypes.indexOf j=none →
      archetypeIndex j w=(.error (.panic .unwrapFailed),w) := by
    intro j hj
    unfold archetypeIndex
    simp only [getState_bind,hj]
    rfl
  unfold moveRow
  cases hs : w.archetypes.indexOf slot.archId with
  | none =>
    rw [bind_error (hnone hs)]
    exact h
  | some s =>
    rw [bind_ok (hsome hs)]
    cases ht : w.archetypes.indexOf archId with
    | none =>
      rw [bind_error (hnone ht)]
      exact h
    | some t =>
      rw [bind_ok (hsome ht),getState_bind]
      cases (w.edges isRemove).lookup key with
      | none => exact h
      | some edge =>
        have hpair : Singles (onArchetypePair s t (x edge.migration) w).2 := by
          refine onArchetypePair_singles h (fun dst hd => ho dst ?_) (hx edge.migration)
          exact SequenceValueHashMap.get_of_indexOf ht ▸ hd
        refine holds_bind hpair fun result w₁ _ h₁ => ?_
        exact Stays.bind (stays_archetypes (archetypes_followSwapped _)) (fun _ => Stays.bind (stays_onAllocator _) fun _ =>
          Stays.pure _) w₁ h₁

end Moving

section Calls

variable {val : Bundle V}

/-- Dropping the components of a failed call keeps singletons single. -/
theorem stays_consuming {x : Call V α} (hx : Stays Singles x) :
    Stays Singles (consuming val x) := by
  refine Stays.onFault hx ?_
  intro w h
  exact singles_congr h rfl

/-- A call on an entity that exists keeps them single if what it goes on with does. -/
theorem stays_withExisting {f : EntitySpec → Call V α} (hf : ∀ slot,Stays Singles (f slot)) :
    Stays Singles (withExisting e f) := by
  refine Stays.getState fun w => ?_
  split
  · exact Stays.fault _
  · split
    · exact hf _
    · exact Stays.fault _

/-- The archetype a row is about to be pushed into can take it. -/
def Roomy (archId : ℕ) (w : World V) : Prop :=
  ∀ spec,w.archetypes.get archId=some spec → spec.arch.canTakeARow=true

/-- A check of an archetype before a row is pushed into it. -/
theorem stays_admitted {archId : ℕ} {f : ArchetypeSpec V → XynokEcsError} {cont : Call V α}
    (hc : ∀ w : World V,Singles w → Roomy archId w → Singles (cont w).2) :
    Stays Singles (do
      let spec ← getArchetype archId
      if !spec.arch.canTakeARow then fault (.err (f spec)) else cont) := by
  intro w h
  cases hg : w.archetypes.get archId with
  | none =>
    have hrun : getArchetype archId w=(.error (.panic .unwrapFailed),w) := by rw [getArchetype_run,hg]
    rw [bind_error hrun]
    exact h
  | some spec =>
    have hrun : getArchetype archId w=(.ok spec,w) := by rw [getArchetype_run,hg]
    rw [bind_ok hrun]
    split
    · exact h
    · rename_i hn
      refine hc w h fun s hs => ?_
      rw [hg] at hs
      cases hs
      cases ht : spec.arch.canTakeARow with
      | true => rfl
      | false =>
        rw [ht] at hn
        exact absurd rfl hn

/-- `try_destroy` opens no chunk. -/
theorem stays_tryDestroy (e : Entity) : Stays Singles (tryDestroy e : Call V Unit) := by
  refine stays_withExisting fun slot => ?_
  refine Stays.bind (stays_onArchetype _ fun layout => shape_removeAt _ _) fun row => ?_
  exact Stays.bind (stays_archetypes (archetypes_followSwapped row)) fun _ => stays_onAllocator _

/-- A singleton that is created on demand starts without a chunk. -/
theorem stays_getOrCreateSingleton (T : TArchetype) :
    Stays Singles (getOrCreateSingletonArchetypeId T : Call V ℕ) := by
  refine Stays.bind (stays_getOrCreate _ _) fun archId => ?_
  refine Stays.bind (stays_archetypes (archetypes_getArchetype _)) fun spec => ?_
  split
  · exact Stays.fault _
  · exact Stays.pure _

variable [Inhabited V]

/-- Pushing a row where the archetype can take one. -/
theorem push_singles (h : Singles w) {archId : ℕ} (hc : Roomy archId w) (tick : ChangedTick) :
    Singles (onArchetype archId (fun layout => push layout e val tick) w).2 :=
  onArchetype_singles h fun spec hg =>
    (h.get hg).opens (push_opens e val tick spec.arch) (hc spec hg)

/-- `create_components_for` opens a chunk in a singleton only if it has none. -/
theorem stays_createComponentsFor (e : Entity) (val : Bundle V) :
    Stays Singles (createComponentsFor e val) := by
  refine stays_consuming (Stays.bind (stays_getOrCreate _ _) fun archId => ?_)
  refine stays_admitted fun w h hc => ?_
  rw [getState_bind]
  exact holds_bind (push_singles h hc w.tick) fun ix w₁ _ h₁ => stays_onAllocator _ w₁ h₁

/-- `try_create` refuses singletons. -/
theorem stays_tryCreate (val : Bundle V) : Stays Singles (tryCreate val) := by
  refine Stays.bind (stays_consuming (stays_onAllocator _)) fun newE => ?_
  exact Stays.bind (stays_createComponentsFor newE val) fun _ => Stays.pure _

/-- `try_create_singleton` refuses one that is full. -/
theorem stays_tryCreateSingleton (val : Bundle V) : Stays Singles (tryCreateSingleton val) := by
  refine stays_consuming (Stays.bind (stays_getOrCreateSingleton _) fun archId => ?_)
  refine stays_admitted fun w h hc => ?_
  refine holds_bind (stays_onAllocator newEntity w h) fun newE w₁ hr h₁ => ?_
  have hroom : Roomy archId w₁ := by
    have ha := archetypes_onAllocator newEntity w
    rw [hr] at ha
    intro spec hs
    dsimp only at ha
    rw [ha] at hs
    exact hc spec hs
  rw [getState_bind]
  have hpush : Singles (onErr (onArchetype archId (fun layout => push layout newE val w₁.tick))
      (fun err => do
        onAllocator (eraseEntity newE)
        fault (.err err)) w₁).2 := by
    refine holds_handle (push_singles h₁ hroom w₁.tick) fun f => ?_
    split
    · exact Stays.bind (stays_onAllocator _) fun _ => Stays.fault _
    · exact Stays.fault _
  exact holds_bind hpush fun ix w₂ _ h₂ =>
    Stays.bind (stays_onAllocator _) (fun _ => Stays.pure _) w₂ h₂

/-- A row that gains components arrives in an open archetype. -/
theorem moveAndWrite_singles {slot : EntitySpec} {key : ArchetypeEdgeKey} {archId : ℕ}
    (val : Bundle V) (tick : ChangedTick) (h : Singles w) (ho : Open archId w) :
    Singles (moveAndWrite e slot key archId val tick w).2 := by
  refine moveRow_singles (fun plan srcLayout dstLayout p => ?_) h ho
  have hopen : PairOpens p (takeAndWriteFrom ⟨slot.chunkIdx,slot.idxInChunk⟩ srcLayout dstLayout
      plan val tick p).2 := takeAndWriteFrom_opens _ plan val tick p
  have hsame : ((do
      let result ← takeAndWriteFrom ⟨slot.chunkIdx,slot.idxInChunk⟩ srcLayout dstLayout plan val tick
      return (result,()) : Faulting (ArchetypePair V) Fault (ResultTake×Unit)) p).2=
      (takeAndWriteFrom ⟨slot.chunkIdx,slot.idxInChunk⟩ srcLayout dstLayout plan val tick p).2 :=
    Fixes.after (g:=id) (fun _ => Fixes.pure _) p
  rw [hsame]
  exact hopen

/-- `try_add_component` moves rows to open archetypes only. -/
theorem stays_tryAddComponent (e : Entity) (val : Bundle V) :
    Stays Singles (tryAddComponent e val) := by
  refine stays_consuming (stays_withExisting fun slot => ?_)
  refine Stays.bind (stays_getOrCreate _ _) fun b => ?_
  refine Stays.bind (stays_archetypes (archetypes_getArchetype _)) fun a => ?_
  refine Stays.bind (stays_archetypes (archetypes_getArchetype _)) fun b => ?_
  split
  · exact Stays.fault _
  · refine Stays.bind (stays_edge _ _) fun dst => stays_checked _ fun w h ho => ?_
    rw [getState_bind]
    exact moveAndWrite_singles val w.tick h ho

/-- `try_merge_component` moves rows to open archetypes only. -/
theorem stays_tryMergeComponent (e : Entity) (val : Bundle V) :
    Stays Singles (tryMergeComponent e val) := by
  refine stays_consuming (stays_withExisting fun slot => ?_)
  refine Stays.bind (stays_edge _ _) fun dst => Stays.getState fun w => ?_
  split
  · refine stays_onArchetype _ fun layout => ?_
    exact Fixes.bind (Fixes.ofExcept _) fun _ => shape_onChunk _ _
  · exact stays_checked _ fun w' h ho => moveAndWrite_singles val w.tick h ho

/-- `try_remove_component` moves rows to open archetypes only. -/
theorem stays_tryRemoveComponent (T : TArchetype) (e : Entity) :
    Stays Singles (tryRemoveComponent T e : Call V (Bundle V)) := by
  refine stays_withExisting fun slot => ?_
  refine Stays.bind (stays_getOrCreate _ _) fun b => ?_
  refine Stays.bind (stays_archetypes (archetypes_getArchetype _)) fun a => ?_
  refine Stays.bind (stays_archetypes (archetypes_getArchetype _)) fun b => ?_
  split
  · exact Stays.fault _
  · refine Stays.bind (stays_edge _ _) fun dst => stays_checked _ fun w h ho => ?_
    exact moveRow_singles (fun plan srcLayout dstLayout p => takeAndRemoveFrom_opens T _ plan p) h ho

/-- Every call keeps singletons single. -/
theorem WorldCall.stays (c : WorldCall V) (form : CallForm) :
    Stays Singles (c.perform form) := by
  have hmap : ∀ {β : Type} {x : Call V β} (f : β → Outcome V),Stays Singles x →
      Stays Singles (do let a ← x; return f a : Call V (Outcome V)) := fun f hx =>
    Stays.bind hx fun _ => Stays.pure _
  have hret : Stays Singles (c.perform .returning) := by
    cases c with
    | registerArchetype T cfg =>
      refine hmap _ (Stays.bind (stays_archetypes (Fixes.ofExcept _)) fun _ => ?_)
      refine Stays.bind (stays_getOrCreate _ _) fun archId => ?_
      refine stays_archetypes (Fixes.bind (archetypes_getArchetype _) fun spec => ?_)
      split
      · exact Fixes.fault _
      · split
        · exact Fixes.fault _
        · split
          · exact Fixes.fault _
          · exact Fixes.pure _
    | registerSingleton T =>
      exact hmap _ (Stays.bind (stays_getOrCreateSingleton T) fun _ => Stays.pure _)
    | create val => exact hmap _ (stays_tryCreate val)
    | createSingleton val => exact hmap _ (stays_tryCreateSingleton val)
    | destroy e => exact hmap _ (stays_tryDestroy e)
    | addComponent e val => exact hmap _ (stays_tryAddComponent e val)
    | mergeComponent e val => exact hmap _ (stays_tryMergeComponent e val)
    | removeComponent T e => exact hmap _ (stays_tryRemoveComponent T e)
  cases form with
  | returning => exact hret
  | raising =>
    obtain ⟨g,hg⟩ := WorldCall.perform_raising c
    rw [hg]
    exact Stays.mapFault hret g

/-- A queued command keeps singletons single when it is applied. -/
theorem CmdBuffer.stays (cmd : CmdBuffer V) : Stays Singles (CmdBuffer.run cmd) := by
  have honErr : ∀ {x : Call V Unit},Stays Singles x → ∀ thread e,
      Stays Singles (onErr x (eraseAndRaise thread e)) := by
    intro x hx thread e w h
    refine holds_handle (hx w h) fun f => ?_
    split
    · exact Stays.bind (stays_onAllocator _) fun _ => Stays.fault _
    · exact Stays.fault _
  cases cmd with
  | create thread e val => exact honErr (stays_createComponentsFor e val) thread e
  | addComponent thread e val => exact Stays.mapFault (stays_tryAddComponent e val) _
  | mergeComponent thread e val => exact Stays.mapFault (stays_tryMergeComponent e val) _
  | removeComponent thread T e =>
    refine Stays.mapFault (Stays.bind (stays_tryRemoveComponent T e) fun b => ?_) _
    intro w h
    exact singles_congr h rfl
  | destroy thread e => exact honErr (stays_tryDestroy e) thread e

/-- No action puts a second row into a singleton. -/
theorem Action.singles (h : Singles w) (a : Action V) : Singles (a.step w) := by
  have hthen : ∀ {β : Type} {x : Call V β} (f : β → Outcome V),Fixes World.unqueried x →
      Singles ((x >>= fun r => return f r) w).2 := fun f hx =>
    singles_congr h (congrArg Prod.fst (Fixes.bind hx (fun _ => Fixes.pure _) w))
  cases a with
  | world form c => exact WorldCall.stays c form w h
  | cmd form thread c =>
    cases hp : w.inParallelCompute with
    | true => exact singles_congr h (congrArg (fun c => c.1.1) (core_queued c thread form hp))
    | false =>
      have hdirect : Singles (c.perform thread .returning w).2 := by
        rw [CmdCall.perform_direct c hp]
        exact WorldCall.stays c.direct .returning w h
      cases form with
      | returning => exact hdirect
      | raising =>
        obtain ⟨g,hg⟩ := CmdCall.perform_raising thread c
        change Singles (c.perform thread .raising w).2
        rw [hg,mapFault_state]
        exact hdirect
  | applyCmd i =>
    rw [applyCmd_step]
    have hpop : Singles (World.popped w i) :=
      singles_congr h (congrArg (fun c => c.1.1) (core_popCmd i w))
    cases hf : World.front w i with
    | none => rwa [applyCmd_noFront hf]
    | some cmd =>
      rw [applyCmd_front hf]
      exact Stays.bind (CmdBuffer.stays cmd) (fun _ => Stays.pure _) _ hpop
  | setInParallelCompute val => exact singles_congr h rfl
  | setExecutor present => exact singles_congr h rfl
  | advanceTick => exact hthen _ unqueried_advanceTick
  | captureCurrentTick => exact singles_congr h rfl
  | createQuery q =>
    refine hthen _ (Fixes.getState fun _ => ?_)
    exact Fixes.bind (Fixes.modifyState fun _ => rfl) fun _ => unqueried_createQuerySince q _
  | createQuerySince q lastRunTick => exact hthen _ (unqueried_createQuerySince q lastRunTick)
  | prepareQuery q => exact hthen _ (unqueried_prepareQuery q)
  | accessScope q => exact hthen _ (unqueried_onComponents _)
  | write l t itemWrite =>
    refine Stays.bind (Stays.getState fun w => ?_) (fun _ => Stays.pure _) w h
    exact stays_onArchetype _ fun layout => shape_onChunk _ _

/-- So they are single in every world a run reaches. -/
theorem singles_run (runtime : Runtime) (as : List (Action V)) :
    Singles (runAll Action.step as (World.new runtime)) := by
  have hrun : ∀ (as : List (Action V)) (w : World V),Singles w → Singles (runAll Action.step as w) := by
    intro as
    induction as with
    | nil => exact fun _ h => h
    | cons a as ih => exact fun w h => ih _ (Action.singles h a)
  refine hrun as _ ?_
  rintro i spec ⟨⟩

end Calls

end XynokEcs.SingletonRows
