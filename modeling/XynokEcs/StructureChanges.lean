import XynokEcs.EdgeOutcomes

/-!
# Adding, merging and removing components

Each of the three calls looks an edge up, checks that it may be taken and moves
one row along it, or rewrites the row where it is. On the map from handles to
components that is one entity's row merged with a bundle, or cut down. A call
that returns an error does so before any row moves.
-/

namespace XynokEcs.StructureChanges

open ComponentTypes EntityHandle SequenceValueMap ChunkLayouts FaultingState RowDirectory ChunkRows
  RowWrites ArchetypeStore EntityAllocation SlotInvariants WorldState WorldCalls RegistryInvariants
  RegistrySteps StoreInvariants StoreSteps ArchetypeHomes EdgeOutcomes

variable {V : Type} {D : Prop} {reserved : List Entity} {w : World V} {e : Entity}
  {src dst : ArchetypeSpec V} {slot : EntitySpec} {c : Chunk V} {val : Bundle V} {T : TArchetype}
  {dstArchId : ℕ} {tick : ChangedTick}

section Places

/-- A call that began by letting the registry grow. -/
theorem Rewritten.extend {f : RowData V → RowData V} {w₁ w' : World V} (he : Extends w w₁)
    (h : Rewritten D e f w₁ w') : Rewritten D e f w w' := by
  obtain ⟨hs,hev,x,d,hx,hc,hd⟩ := h
  have hcon : World.contents w₁=World.contents w := by
    rw [World.contents,World.contents,Extends.directory he]
  rw [hcon] at hx hc
  rw [he.entityAllocator] at hs
  exact ⟨hs,(Extends.evolves he).trans hev,x,d,hx,hc,hd⟩

/-- A live entity of the world, in the world its registry grew to. -/
theorem StoreInv.found_extend {l : RowLoc} {w₁ : World V} (h : StoreInv D reserved w)
    (hl : w.entityAllocator.locate e=some l) (hs : w.entityAllocator.entities[e.idx]?=some slot)
    (he : Extends w w₁) (hsrc : w₁.archetypes.valueAt slot.archId=some src) :
    ∃ c,Found w e slot src c ∧ Found w₁ e slot src c := by
  obtain ⟨slot',src',c,hf⟩ := StoreInv.found h hl
  have hslot : slot'=slot := Option.some.inj (hf.stored.symm.trans hs)
  subst hslot
  have hf₁ := Found.extend hf he
  have hsrc' : src'=src := Option.some.inj (hf₁.archetype.symm.trans hsrc)
  subst hsrc'
  exact ⟨c,hf,hf₁⟩

/-- What a row lacks is what its layout has no column for. -/
theorem rowData_none {layout : ChunkLayout} {row : ℕ} {t : StorageType}
    (h : t∉layout.componentColDescriptors) : c.rowData layout row t=none := by
  rw [Chunk.rowData,AList.lookup_eq_none.mpr h,Option.map_none]

theorem rowData_value {layout : ChunkLayout} {row : ℕ} {t : StorageType}
    (h : t∈layout.componentColDescriptors) :
    (c.rowData layout row t).map ComponentData.value=some (c.cells t row).value := by
  obtain ⟨d,hd⟩ := Option.isSome_iff_exists.mp (AList.lookup_isSome.mpr h)
  rw [Chunk.rowData,hd]
  rfl

/-- Overwriting the components of a live entity where they are. -/
theorem replaceInPlace_spec (h : StoreInv D reserved w) (hf : Found w e slot src c)
    (hn : val.ty.storageTypes.Nodup) (hD : D → val.ty.isDeclared=true)
    (hp : ∀ t∈val.ty.storageTypes,t∈src.layout.componentColDescriptors) (tick : ChangedTick) :
    wp (onArchetype slot.archId (fun layout =>
        replaceRowAt layout slot.chunkIdx slot.idxInChunk val tick))
      (fun _ w' => StoreInv D reserved w' ∧ Rewritten D e (mergeRow val.items tick) w w')
      (fun f w' => w'=w ∧ Errs f) w := by
  cases hval : validateArchetypeWritable val.ty src.layout with
  | error err =>
    have hrefuse : replaceRowAt src.layout slot.chunkIdx slot.idxInChunk val tick src.arch=
        (.error (.err err),src.arch) := by
      unfold replaceRowAt
      rw [hval]
      rfl
    have hrun := onArchetype_eq (x:=fun layout =>
      replaceRowAt layout slot.chunkIdx slot.idxInChunk val tick) h.registry hf.archetype hrefuse
    unfold wp
    rw [hrun]
    exact ⟨setArch_self hf.archetype,err,rfl⟩
  | ok _ =>
    obtain ⟨a,d,hrun,hsound,hsing,hrow,hd⟩ := replaceRowAt_spec (h.sound _ _ hf.archetype) hf.chunk
      hf.lt (Accepts.mk hn (validateArchetypeWritable_ok.mp hval)) tick
    have hrun' := onArchetype_eq (x:=fun layout =>
      replaceRowAt layout slot.chunkIdx slot.idxInChunk val tick) h.registry hf.archetype hrun
    rw [hf.entity] at hrow
    obtain ⟨hinv,hev,hcon⟩ := StoreInv.rewritten h hf hsound hsing hrow
    unfold wp
    rw [hrun']
    refine ⟨hinv,SameSlots.refl _,hev,_,d,hf.contents h,hcon,?_⟩
    intro hDD
    exact hd (h.registry.declared_layouts hDD _ _ hf.archetype) (hD hDD) hp

end Places

section Errors

/-- What a call leaves behind when it returns an error of the crate: archetypes
may have been registered and what it was handed was dropped. -/
def ErrRefused {α : Type} (D : Prop) (drops : List (StorageType×V)) (x : Call V α) (w : World V) :
    Prop :=
  wp x (fun _ _ => True)
    (fun f w' => ∀ err,f=.err err → RegistryInv D w' ∧ Refused drops w w') w

/-- An error that left the grown world alone is a refusal. -/
theorem errRefused_grown {α : Type} {drops : List (StorageType×V)} {x : Call V α} {w₁ : World V}
    (he : Extends w w₁) (hi : RegistryInv D w₁) (hx : ErrUnchanged x w₁) :
    wp x (fun _ _ => True) (fun f w' => ∀ err,f=.err err →
      RegistryInv D { w' with dropped := w'.dropped++drops } ∧
        Refused drops w { w' with dropped := w'.dropped++drops }) w₁ := by
  refine wp_mono hx (fun _ _ _ => trivial) ?_
  intro f w' hf err herr
  rw [hf err herr]
  exact refused_of he hi drops

/-- Errors on the rows of an archetype leave the world alone when they leave the
rows alone. -/
theorem onArchetype_errUnchanged {α : Type} {i : ℕ}
    {x : ChunkLayout → Faulting (Archetype V) Fault α} (h : RegistryInv D w)
    (hx : ∀ spec : ArchetypeSpec V,w.archetypes.valueAt i=some spec →
      ErrUnchanged (x spec.layout) spec.arch) : ErrUnchanged (onArchetype i x) w := by
  cases hv : w.archetypes.valueAt i with
  | none =>
    have hrun : onArchetype i x w=(.error (.panic .unwrapFailed),w) := by
      unfold onArchetype getArchetype
      refine bind_error ?_
      rw [getState_bind,h.get_eq,hv]
      rfl
    unfold ErrUnchanged wp
    rw [hrun]
    intro _ _
    rfl
  | some spec =>
    cases hr : x spec.layout spec.arch with
    | mk r a =>
      unfold ErrUnchanged wp
      rw [onArchetype_eq h hv hr]
      cases r with
      | ok _ => trivial
      | error f =>
        intro err herr
        rw [wp_of_error (hx spec hv) hr err herr]
        exact setArch_self hv

theorem updateEntitySpec_noErr (e : Entity) (archId : ℕ) (ix : EntityInChunkIndices) (w : World V) :
    wp (onAllocator (updateEntitySpec e archId ix)) (fun _ _ => True)
      (fun f _ => ∀ err,f≠.err err) w := by
  rw [wp_onAllocator]
  unfold wp updateEntitySpec
  cases w.entityAllocator.entities[e.idx]? with
  | none => exact fun _ => nofun
  | some spec => trivial

theorem eraseEntity_noErr (e : Entity) (w : World V) :
    wp (onAllocator (eraseEntity e)) (fun _ _ => True) (fun f _ => ∀ err,f≠.err err) w := by
  rw [wp_onAllocator]
  unfold wp eraseEntity
  cases w.entityAllocator.entities[e.idx]? with
  | none => exact fun _ => nofun
  | some spec => trivial

/-- An error of `try_destroy` comes before the row goes, whatever the slots hold. -/
theorem tryDestroy_err (h : RegistryInv D w) : ErrUnchanged (tryDestroy e) w := by
  cases hl : w.entityAllocator.locate e with
  | none =>
    unfold ErrUnchanged wp
    rw [tryDestroy_missing hl]
    intro _ _
    rfl
  | some l =>
    obtain ⟨slot,hslot,-⟩ := locate_eq_some.mp hl
    unfold ErrUnchanged tryDestroy wp
    rw [withExisting_found hl hslot]
    change wp _ _ _ w
    rw [wp_bind]
    refine wp_mono (onArchetype_errUnchanged h fun spec _ => removeAt_errUnchanged _ _) ?_
      (fun _ _ hf => hf)
    intro swapped w₁ _
    rw [wp_bind]
    refine wp_mono (followSwapped_noErr swapped w₁) ?_ (fun f _ hf err herr => absurd herr (hf err))
    intro _ w₂ _
    exact wp_mono (eraseEntity_noErr e w₂) (fun _ _ _ => trivial)
      (fun f _ hf err herr => absurd herr (hf err))

end Errors

variable [Inhabited V]

/-- Moving a row and laying a bundle over it, or refusing to; between different
archetypes with an error. -/
theorem moveAndWrite_spec (h : StoreInv D reserved w) (hf : Found w e slot src c)
    (hr : EdgeReady false ⟨slot.archId,val.ty⟩ dstArchId src dst w)
    (hD : D → val.ty.isDeclared=true) :
    wp (moveAndWrite e slot ⟨slot.archId,val.ty⟩ dstArchId val tick)
      (fun _ w' => StoreInv D reserved w' ∧ Rewritten D e (mergeRow val.items tick) w w')
      (fun f w' => w'=w ∧ (slot.archId≠dstArchId → Errs f)) w := by
  have hfault : ∀ f,moveAndWrite e slot ⟨slot.archId,val.ty⟩ dstArchId val tick w=(.error f,w) →
      (slot.archId≠dstArchId → Errs f) →
      wp (moveAndWrite e slot ⟨slot.archId,val.ty⟩ dstArchId val tick)
        (fun _ w' => StoreInv D reserved w' ∧ Rewritten D e (mergeRow val.items tick) w w')
        (fun f w' => w'=w ∧ (slot.archId≠dstArchId → Errs f)) w := by
    intro f hrun herr
    unfold wp
    rw [hrun]
    exact ⟨rfl,herr⟩
  by_cases hne : slot.archId=dstArchId
  · subst hne
    exact hfault _ (moveRow_same h.registry hr) fun hc => absurd rfl hc
  · cases hval : validateArchetypeWritable val.ty dst.layout with
    | error err =>
      refine hfault (.err err) (moveRow_refused h.registry hr hne ?_) fun _ => ⟨err,rfl⟩
      rw [bind_error (takeAndWriteFrom_refused hval)]
    | ok _ =>
      obtain ⟨ix,pair,d,hrun,h1,h2,h3,h4,h5,h6,h7,hd⟩ := takeAndWriteFrom_spec
        ⟨dst.arch,src.arch⟩ (h.sound _ _ hr.target) (h.sound _ _ hf.archetype)
        (h.registry.wellFormed hr.target).maxLen_pos (h.registry.wellFormed hf.archetype) hf.chunk
        hf.lt (Accepts.mk hr.nodup (validateArchetypeWritable_ok.mp hval)) tick
      obtain ⟨w',hmove,hinv,hsame,hev,hcont⟩ := moveRow_moved (e:=e) (v:=()) (x:=fun migration
          srcLayout dstLayout => do
            let result ← takeAndWriteFrom ⟨slot.chunkIdx,slot.idxInChunk⟩ srcLayout dstLayout
              migration val tick
            return (result,())) h hf hr hne (by rw [bind_ok hrun]; rfl)
        (RowMoved.mk h1 h2 h3 h4 h5 h6 h7)
      have hrun' : moveAndWrite e slot ⟨slot.archId,val.ty⟩ dstArchId val tick w=(.ok (),w') := hmove
      unfold wp
      rw [hrun']
      refine ⟨hinv,hsame,hev,_,d,hf.contents h,hcont,?_⟩
      intro hDD
      exact hd (h.registry.declared_layouts hDD _ _ hf.archetype)
        (h.registry.declared_layouts hDD _ _ hr.target) (hD hDD) hr.types

theorem moveAndWrite_errUnchanged (h : RegistryInv D w)
    (hr : EdgeReady false ⟨slot.archId,val.ty⟩ dstArchId src dst w) :
    ErrUnchanged (moveAndWrite e slot ⟨slot.archId,val.ty⟩ dstArchId val tick) w := by
  refine moveRow_errUnchanged h hr fun pair => ?_
  unfold ErrUnchanged
  rw [wp_bind]
  exact wp_mono (takeAndWriteFrom_errUnchanged hr.nodup tick) (fun _ _ _ => trivial) (fun _ _ h => h)

omit [Inhabited V] in
theorem containsAny_iff {a b : ChunkLayout} : containsAnyComponentOf a b=true ↔
    ∃ t,t∈b.componentColDescriptors ∧ t∈a.componentColDescriptors := by
  rw [containsAnyComponentOf,List.any_eq_true]
  simp only [AList.mem_keys,decide_eq_true_eq]
  exact exists_congr fun t => and_comm

omit [Inhabited V] in
theorem containsAll_iff {a b : ChunkLayout} : containsAllComponentsOf a b=true ↔
    ∀ t∈b.componentColDescriptors,t∈a.componentColDescriptors := by
  rw [containsAllComponentsOf,List.all_eq_true]
  simp only [AList.mem_keys,decide_eq_true_eq]

section Exits

/-- The components of the type are there, or not there, as the change asks for. -/
def Fits (isRemove : Bool) (src : ChunkLayout) (T : TArchetype) : Prop :=
  ∀ t∈T.storageTypes,match isRemove with
    | true => t∈src.componentColDescriptors
    | false => t∉src.componentColDescriptors

/-- The error for components that are there already, or missing. -/
def mismatch (isRemove : Bool) (e : Entity) (T : TArchetype) : XynokEcsError :=
  match isRemove with
  | true => .componentNotFound e.idx e.version T
  | false => .componentAlreadyExists e.idx e.version T

/-- The archetype a structure change starts from is locked, or the one it leads to
is there and locked. -/
def Locked (isRemove : Bool) (w : World V) (src : ArchetypeSpec V) (T : TArchetype) : Prop :=
  src.allowStructureChange=false ∨ ∃ (j : ℕ) (dst : ArchetypeSpec V),w.archetypes.valueAt j=some dst ∧
    EdgeTypes isRemove src.layout dst.layout T ∧ dst.allowStructureChange=false

/-- Neither archetype of a move is locked. -/
def Unlocked (src dst : ArchetypeSpec V) : Prop :=
  src.allowStructureChange=true ∧ dst.allowStructureChange=true

omit [Inhabited V] in
theorem unlocked_of {src dst : ArchetypeSpec V}
    (h : ¬(!src.allowStructureChange || !dst.allowStructureChange)=true) : Unlocked src dst := by
  simpa only [Unlocked,Bool.or_eq_true,Bool.not_eq_true',not_or,Bool.not_eq_false] using h

/-- How adding and removing end before a row moves, each with its reason. -/
inductive ChangeExit (isRemove : Bool) (w : World V) (e : Entity) (slot : EntitySpec)
    (T : TArchetype) : Fault → Prop
  | unresolved {f : Fault} (hr : ¬Resolvable (.chunked defaultArchetypeCfg) w T) (hp : Panics f) :
    ChangeExit isRemove w e slot T f
  | homeless {f : Fault} (hv : (World.resolving w T).archetypes.valueAt slot.archId=none)
    (hp : Panics f) : ChangeExit isRemove w e slot T f
  | mismatched {src : ArchetypeSpec V} (hr : Resolvable (.chunked defaultArchetypeCfg) w T)
    (hv : (World.resolving w T).archetypes.valueAt slot.archId=some src)
    (hm : ¬Fits isRemove src.layout T) :
    ChangeExit isRemove w e slot T (.err (mismatch isRemove e T))
  | unreachable {f : Fault} {src : ArchetypeSpec V}
    (hr : Resolvable (.chunked defaultArchetypeCfg) w T)
    (hv : (World.resolving w T).archetypes.valueAt slot.archId=some src)
    (hm : Fits isRemove src.layout T)
    (he : ¬EdgeResolvable isRemove (World.resolving w T) ⟨slot.archId,T⟩) (hp : Panics f) :
    ChangeExit isRemove w e slot T f
  | locked {src : ArchetypeSpec V} (hr : Resolvable (.chunked defaultArchetypeCfg) w T)
    (hv : (World.resolving w T).archetypes.valueAt slot.archId=some src)
    (hm : Fits isRemove src.layout T)
    (he : EdgeResolvable isRemove (World.resolving w T) ⟨slot.archId,T⟩)
    (hl : Locked isRemove w src T) :
    ChangeExit isRemove w e slot T (.err (.structureChangeNotAllowed e.idx e.version T))

/-- What holds when adding or removing goes on to move the row. -/
structure MayMove (isRemove : Bool) (w : World V) (slot : EntitySpec) (src : ArchetypeSpec V)
    (T : TArchetype) : Prop where
  /-- The archetype of the tuple can be had. -/
  resolvable : Resolvable (.chunked defaultArchetypeCfg) w T
  /-- The components named are all new, or all there. -/
  fits : Fits isRemove src.layout T
  /-- The archetype that the edge leads to can be had. -/
  reachable : EdgeResolvable isRemove (World.resolving w T) ⟨slot.archId,T⟩
  /-- Neither archetype is locked. -/
  unlocked : ¬Locked isRemove w src T

/-- How merging ends before a row moves, each with its reason. -/
inductive MergeExit (w : World V) (e : Entity) (slot : EntitySpec) (T : TArchetype) : Fault → Prop
  | homeless {f : Fault} (hv : w.archetypes.valueAt slot.archId=none) : MergeExit w e slot T f
  | unreachable {f : Fault} (he : ¬EdgeResolvable false w ⟨slot.archId,T⟩) (hp : Panics f) :
    MergeExit w e slot T f
  | locked {src : ArchetypeSpec V} (hv : w.archetypes.valueAt slot.archId=some src)
    (he : EdgeResolvable false w ⟨slot.archId,T⟩) (hm : ¬Fits true src.layout T)
    (hl : Locked false w src T) :
    MergeExit w e slot T (.err (.structureChangeNotAllowed e.idx e.version T))

variable {isRemove : Bool}

omit [Inhabited V] in
/-- The lock is checked on the archetypes of an edge, which decides whether the
change is locked. -/
theorem checkStructureChange_eq (h : RegistryInv D w) {i : ℕ}
    (hs : w.archetypes.valueAt i=some src) (hd : w.archetypes.valueAt dstArchId=some dst) :
    checkStructureChange T e i dstArchId w=
      if !src.allowStructureChange || !dst.allowStructureChange then
        (.error (.err (.structureChangeNotAllowed e.idx e.version T)),w)
      else (.ok (),w) := by
  unfold checkStructureChange
  rw [bind_ok (getArchetype_eq h hs),bind_ok (getArchetype_eq h hd)]
  split <;> rfl

omit [Inhabited V] in
/-- The two flags that are checked are those of the archetypes the change is
between. -/
theorem locked_iff {w₁ : World V} {key : ArchetypeEdgeKey} (hi : RegistryInv D w₁)
    (he : Extends w w₁) (ha : AddsOnly true w w₁)
    (hr : EdgeReady isRemove key dstArchId src dst w₁) :
    Locked isRemove w src key.archetypeTypeId ↔
      (!src.allowStructureChange || !dst.allowStructureChange)=true := by
  rw [Bool.or_eq_true,Bool.not_eq_true',Bool.not_eq_true']
  refine or_congr_right ⟨?_,fun hf => ?_⟩
  · rintro ⟨j,dst',hv,ht,hf⟩
    have hv₁ := he.kept _ _ hv
    have hj := archetype_unique hi hv₁ hr.target fun t => (ht t).trans (hr.types t).symm
    rw [hj,hr.target] at hv₁
    cases hv₁
    exact hf
  · rcases ha _ _ hr.target with hv | ht
    · exact ⟨_,dst,hv,hr.types,hf⟩
    · rw [hf] at ht
      cases ht

end Exits

section Rules

variable {isRemove : Bool} {Q : Unit → World V → Prop} {E : Fault → World V → Prop}

omit [Inhabited V] in
/-- Adding and removing up to the move: they exit with a reason, or go on along an
edge that may be taken. -/
theorem change_rule {α : Type} {Q : α → World V → Prop} (h : RegistryInv D w)
    (hD : D → T.isDeclared=true) (cond : ChunkLayout → ChunkLayout → Bool)
    (hcond : ∀ a b,HasTypes b T → (cond a b=true ↔ ¬Fits isRemove a T)) {cont : ℕ → Call V α}
    (hexit : ∀ f w₁,Extends w w₁ → RegistryInv D w₁ → ChangeExit isRemove w e slot T f → E f w₁)
    (hmove : ∀ w₁ dstArchId src dst,Extends w w₁ → RegistryInv D w₁ →
      EdgeReady isRemove ⟨slot.archId,T⟩ dstArchId src dst w₁ → MayMove isRemove w slot src T →
      Unlocked src dst → wp (cont dstArchId) Q E w₁) :
    wp (do
      let bArchId ← getOrCreateArchetypeId T
      let a ← getArchetype slot.archId
      let b ← getArchetype bArchId
      if cond a.layout b.layout then fault (.err (mismatch isRemove e T))
      else do
        let targetArchId ← getOrCreateEdge isRemove ⟨slot.archId,T⟩
        checkStructureChange T e slot.archId targetArchId
        cont targetArchId) Q E w := by
  rw [wp_bind]
  apply wp_intro
  · intro bArchId w₁ hrun
    obtain ⟨hr,hext,hinv,hadd,b,hb⟩ := wp_of_ok
      (getOrCreate_outcome h hD) hrun
    have hw : World.resolving w T=w₁ := congrArg Prod.snd hrun
    cases hs : w₁.archetypes.valueAt slot.archId with
    | none =>
      have hget : getArchetype slot.archId w₁=(.error (.panic .unwrapFailed),w₁) := by
        unfold getArchetype
        rw [getState_bind,hinv.get_eq,hs]
        rfl
      unfold wp
      rw [bind_error hget]
      exact hexit _ _ hext hinv (.homeless (by rw [hw,hs]) ⟨_,rfl⟩)
    | some src =>
      have hsw : (World.resolving w T).archetypes.valueAt slot.archId=some src := by rw [hw,hs]
      unfold wp
      rw [bind_ok (getArchetype_eq hinv hs),bind_ok (getArchetype_eq hinv hb.1)]
      change wp _ _ _ w₁
      split
      · rename_i hc
        exact hexit _ _ hext hinv (.mismatched hr hsw ((hcond _ _ hb.2).mp hc))
      · rename_i hc
        have hfit : Fits isRemove src.layout T := not_not.mp fun hn => hc ((hcond _ _ hb.2).mpr hn)
        rw [wp_bind]
        refine wp_mono (wp_and (getOrCreateEdge_outcome hinv hD hs)
          (getOrCreateEdge_spec hinv hD)) ?_ ?_
        · rintro dstArchId w₂ ⟨⟨he,hadd₂⟩,hext₂,hinv₂,src',dst,hready⟩
          have hsrc : src'=src := Option.some.inj (hready.source.symm.trans (hext₂.kept _ _ hs))
          subst hsrc
          have hlock := locked_iff hinv₂ (hext.trans hext₂)
            (hadd.trans hadd₂) hready
          unfold wp
          by_cases hl : (!src'.allowStructureChange || !dst.allowStructureChange)=true
          · have hcheck := checkStructureChange_eq (e:=e) (T:=T) hinv₂ hready.source hready.target
            rw [if_pos hl] at hcheck
            rw [bind_error hcheck]
            refine hexit _ _ (hext.trans hext₂) hinv₂ (.locked hr hsw hfit ?_ (hlock.mpr hl))
            rw [hw]
            exact he
          · have hcheck := checkStructureChange_eq (e:=e) (T:=T) hinv₂ hready.source hready.target
            rw [if_neg hl] at hcheck
            rw [bind_ok hcheck]
            refine hmove w₂ dstArchId src' dst (hext.trans hext₂) hinv₂ hready ⟨hr,hfit,?_,?_⟩
              (unlocked_of hl)
            · rw [hw]
              exact he
            · exact fun hlk => hl (hlock.mp hlk)
        · rintro f w₂ ⟨⟨he,hp⟩,hext₂,hinv₂⟩
          refine hexit _ _ (hext.trans hext₂) hinv₂ (.unreachable hr hsw hfit ?_ hp)
          rw [hw]
          exact he
  · intro f w₁ hrun
    obtain ⟨hr,hext,hinv,hp⟩ := wp_of_error (E:=fun f w' =>
      ¬Resolvable (.chunked defaultArchetypeCfg) w T ∧ Extends w w' ∧ RegistryInv D w' ∧ Panics f)
      (getOrCreate_outcome h hD) hrun
    exact hexit _ _ hext hinv (.unresolved hr hp)

/-- `try_add_component` exits with a reason, or moves the row along an edge to the
union with a type the row shares nothing with. -/
theorem tryAddComponent_rule (h : RegistryInv D w) (hD : D → val.ty.isDeclared=true)
    (hmissing : w.entityAllocator.locate e=none →
      E (.err (.entityDoesNotExist e.idx e.version)) { w with dropped := w.dropped++val.drops })
    (hexit : ∀ l slot f w₁,w.entityAllocator.locate e=some l →
      w.entityAllocator.entities[e.idx]?=some slot → Extends w w₁ → RegistryInv D w₁ →
      ChangeExit false w e slot val.ty f → E f { w₁ with dropped := w₁.dropped++val.drops })
    (hmove : ∀ l slot w₁ dstArchId src dst,w.entityAllocator.locate e=some l →
      w.entityAllocator.entities[e.idx]?=some slot → Extends w w₁ → RegistryInv D w₁ →
      EdgeReady false ⟨slot.archId,val.ty⟩ dstArchId src dst w₁ → MayMove false w slot src val.ty →
      Unlocked src dst → wp (moveAndWrite e slot ⟨slot.archId,val.ty⟩ dstArchId val w₁.tick) Q
        (fun err w' => E err { w' with dropped := w'.dropped++val.drops }) w₁) :
    wp (tryAddComponent e val) Q E w := by
  unfold tryAddComponent consuming
  rw [wp_onFault]
  cases hl : w.entityAllocator.locate e with
  | none =>
    unfold wp
    rw [withExisting_missing hl]
    exact hmissing hl
  | some l =>
    obtain ⟨slot,hslot,-⟩ := locate_eq_some.mp hl
    unfold wp
    rw [withExisting_found hl hslot]
    refine change_rule h hD containsAnyComponentOf ?_
      (fun f w₁ he hi hx => hexit l slot f w₁ hl hslot he hi hx) ?_
    · intro a b hb
      rw [containsAny_iff]
      unfold Fits
      simp only [hb.2,not_forall,not_not,exists_prop]
    · intro w₁ dstArchId src dst he hi hready hmay hu
      rw [wp_bind,wp_getState]
      exact hmove l slot w₁ dstArchId src dst hl hslot he hi hready hmay hu

/-- `try_merge_component` exits with a reason, rewrites the row in place, or moves
it along an edge to the union. -/
theorem tryMergeComponent_rule (h : RegistryInv D w) (hD : D → val.ty.isDeclared=true)
    (hmissing : w.entityAllocator.locate e=none →
      E (.err (.entityDoesNotExist e.idx e.version)) { w with dropped := w.dropped++val.drops })
    (hexit : ∀ l slot f w₁,w.entityAllocator.locate e=some l →
      w.entityAllocator.entities[e.idx]?=some slot → Extends w w₁ → RegistryInv D w₁ →
      MergeExit w e slot val.ty f → E f { w₁ with dropped := w₁.dropped++val.drops })
    (hreplace : ∀ l slot w₁ src,w.entityAllocator.locate e=some l →
      w.entityAllocator.entities[e.idx]?=some slot → Extends w w₁ → RegistryInv D w₁ →
      w₁.archetypes.valueAt slot.archId=some src → val.ty.storageTypes.Nodup →
      (w.archetypes.valueAt slot.archId=some src → EdgeResolvable false w ⟨slot.archId,val.ty⟩) →
      Fits true src.layout val.ty →
      wp (onArchetype slot.archId (fun layout =>
        replaceRowAt layout slot.chunkIdx slot.idxInChunk val w₁.tick)) Q
        (fun err w' => E err { w' with dropped := w'.dropped++val.drops }) w₁)
    (hmove : ∀ l slot w₁ dstArchId src dst,w.entityAllocator.locate e=some l →
      w.entityAllocator.entities[e.idx]?=some slot → Extends w w₁ → RegistryInv D w₁ →
      EdgeReady false ⟨slot.archId,val.ty⟩ dstArchId src dst w₁ → slot.archId≠dstArchId →
      (w.archetypes.valueAt slot.archId=some src → EdgeResolvable false w ⟨slot.archId,val.ty⟩ ∧
        ¬Fits true src.layout val.ty ∧ ¬Locked false w src val.ty) →
      Unlocked src dst → wp (moveAndWrite e slot ⟨slot.archId,val.ty⟩ dstArchId val w₁.tick) Q
        (fun err w' => E err { w' with dropped := w'.dropped++val.drops }) w₁) :
    wp (tryMergeComponent e val) Q E w := by
  unfold tryMergeComponent consuming
  rw [wp_onFault]
  cases hl : w.entityAllocator.locate e with
  | none =>
    unfold wp
    rw [withExisting_missing hl]
    exact hmissing hl
  | some l =>
    obtain ⟨slot,hslot,-⟩ := locate_eq_some.mp hl
    unfold wp
    rw [withExisting_found hl hslot]
    change wp (getOrCreateEdge false ⟨slot.archId,val.ty⟩ >>= _) _ _ w
    rw [wp_bind]
    apply wp_intro
    · intro dstArchId w₁ hrun
      obtain ⟨hext,hinv,src,dst,hready⟩ := wp_of_ok
        (getOrCreateEdge_spec h hD) hrun
      have hout : ∀ src',w.archetypes.valueAt slot.archId=some src' →
          EdgeResolvable false w ⟨slot.archId,val.ty⟩ ∧ AddsOnly true w w₁ := by
        intro src' hs'
        have hr := wp_of_ok (getOrCreateEdge_outcome h hD hs') hrun
        exact hr
      rw [wp_bind,wp_getState]
      split
      · rename_i hsame
        subst hsame
        have hdst : dst=src := Option.some.inj (hready.target.symm.trans hready.source)
        subst hdst
        exact hreplace l slot w₁ dst hl hslot hext hinv hready.source hready.nodup
          (fun hs => (hout dst hs).1) (fun t ht => (hready.types t).mpr (.inr ht))
      · rename_i hne
        have hcheck := checkStructureChange_eq (e:=e) (T:=val.ty) hinv hready.source hready.target
        have hfit : ¬Fits true src.layout val.ty := by
          intro hf
          have hid := archetype_unique hinv hready.source hready.target fun t => by
            rw [hready.types t]
            exact ⟨.inl,fun ht => ht.elim id (hf t)⟩
          exact hne hid.symm
        unfold wp
        by_cases hlk : (!src.allowStructureChange || !dst.allowStructureChange)=true
        · rw [if_pos hlk] at hcheck
          rw [bind_error hcheck]
          cases hs : w.archetypes.valueAt slot.archId with
          | none => exact hexit l slot _ w₁ hl hslot hext hinv (.homeless hs)
          | some src' =>
            have hsrc : src=src' := Option.some.inj (hready.source.symm.trans (hext.kept _ _ hs))
            subst hsrc
            obtain ⟨he,hadd⟩ := hout src hs
            exact hexit l slot _ w₁ hl hslot hext hinv (.locked hs he hfit
              ((locked_iff hinv hext hadd hready).mpr hlk))
        · rw [if_neg hlk] at hcheck
          rw [bind_ok hcheck]
          refine hmove l slot w₁ dstArchId src dst hl hslot hext hinv hready (Ne.symm hne) ?_
            (unlocked_of hlk)
          intro hs
          obtain ⟨he,hadd⟩ := hout src hs
          exact ⟨he,hfit,fun hl' =>
            hlk ((locked_iff hinv hext hadd hready).mp hl')⟩
    · intro f w₁ hrun
      obtain ⟨hext,hinv⟩ := wp_of_error (E:=fun _ w' => Extends w w' ∧ RegistryInv D w')
        (getOrCreateEdge_spec h hD) hrun
      cases hs : w.archetypes.valueAt slot.archId with
      | none => exact hexit l slot f w₁ hl hslot hext hinv (.homeless hs)
      | some src =>
        obtain ⟨he,hp⟩ := wp_of_error
          (E:=fun f _ => ¬EdgeResolvable false w ⟨slot.archId,val.ty⟩ ∧ Panics f)
          (getOrCreateEdge_outcome h hD hs) hrun
        exact hexit l slot f w₁ hl hslot hext hinv (.unreachable he hp)

/-- `try_remove_component` exits with a reason, or moves the row along an edge to
the difference with a type the row has all of. -/
theorem tryRemoveComponent_rule {Q : Bundle V → World V → Prop} (h : RegistryInv D w)
    (hD : D → T.isDeclared=true)
    (hmissing : w.entityAllocator.locate e=none →
      E (.err (.entityDoesNotExist e.idx e.version)) w)
    (hexit : ∀ l slot f w₁,w.entityAllocator.locate e=some l →
      w.entityAllocator.entities[e.idx]?=some slot → Extends w w₁ → RegistryInv D w₁ →
      ChangeExit true w e slot T f → E f w₁)
    (hmove : ∀ l slot w₁ dstArchId src dst,w.entityAllocator.locate e=some l →
      w.entityAllocator.entities[e.idx]?=some slot → Extends w w₁ → RegistryInv D w₁ →
      EdgeReady true ⟨slot.archId,T⟩ dstArchId src dst w₁ → MayMove true w slot src T →
      Unlocked src dst → wp (moveRow true e slot ⟨slot.archId,T⟩ dstArchId fun migration srcLayout dstLayout =>
        takeAndRemoveFrom T ⟨slot.chunkIdx,slot.idxInChunk⟩ srcLayout dstLayout migration) Q E w₁) :
    wp (tryRemoveComponent T e) Q E w := by
  unfold tryRemoveComponent
  cases hl : w.entityAllocator.locate e with
  | none =>
    unfold wp
    rw [withExisting_missing hl]
    exact hmissing hl
  | some l =>
    obtain ⟨slot,hslot,-⟩ := locate_eq_some.mp hl
    unfold wp
    rw [withExisting_found hl hslot]
    refine change_rule h hD (fun a b => !containsAllComponentsOf a b) ?_
      (fun f w₁ he hi hx => hexit l slot f w₁ hl hslot he hi hx) ?_
    · intro a b hb
      rw [Bool.not_eq_true',←Bool.not_eq_true,containsAll_iff]
      unfold Fits
      simp only [hb.2]
    · intro w₁ dstArchId src dst he hi hready hmay hu
      exact hmove l slot w₁ dstArchId src dst hl hslot he hi hready hmay hu

end Rules

section Specs

/-- `try_add_component` gives a live entity components it did not have, or is
refused. -/
theorem tryAddComponent_spec (h : StoreInv D reserved w) (hD : D → val.ty.isDeclared=true) :
    wp (tryAddComponent e val)
      (fun _ w' => StoreInv D reserved w' ∧ Rewritten D e (mergeRow val.items w.tick) w w' ∧
        ∃ x,World.contents w e=some x ∧ ∀ t∈val.ty.storageTypes,x t=none)
      (fun _ w' => RegistryInv D w' ∧ Refused val.drops w w') w := by
  refine tryAddComponent_rule h.registry hD (fun _ => refused_of (Extends.refl w) h.registry _)
    (fun _ _ _ _ _ _ he hi _ => refused_of he hi _) ?_
  intro l slot w₁ dstArchId src dst hl hs he hi hready hmay _
  obtain ⟨c,hf,hf₁⟩ := StoreInv.found_extend h hl hs he hready.source
  refine wp_mono (moveAndWrite_spec (h.extend he hi) hf₁ hready hD) ?_ ?_
  · rintro - w' ⟨hinv,hrw⟩
    rw [he.tick] at hrw
    exact ⟨hinv,Rewritten.extend he hrw,_,hf.contents h,fun t ht => rowData_none (hmay.fits t ht)⟩
  · rintro err w' ⟨rfl,-⟩
    exact refused_of he hi _

/-- `try_merge_component` lays the bundle over a live entity's components, or is
refused. -/
theorem tryMergeComponent_spec (h : StoreInv D reserved w) (hD : D → val.ty.isDeclared=true) :
    wp (tryMergeComponent e val)
      (fun _ w' => StoreInv D reserved w' ∧ Rewritten D e (mergeRow val.items w.tick) w w')
      (fun _ w' => RegistryInv D w' ∧ Refused val.drops w w') w := by
  refine tryMergeComponent_rule h.registry hD (fun _ => refused_of (Extends.refl w) h.registry _)
    (fun _ _ _ _ _ _ he hi _ => refused_of he hi _) ?_ ?_
  · intro l slot w₁ src hl hs he hi hsrc hn _ hp
    obtain ⟨c,-,hf₁⟩ := StoreInv.found_extend h hl hs he hsrc
    refine wp_mono (replaceInPlace_spec (h.extend he hi) hf₁ hn hD hp w₁.tick) ?_ ?_
    · rintro - w' ⟨hinv,hrw⟩
      rw [he.tick] at hrw
      exact ⟨hinv,Rewritten.extend he hrw⟩
    · rintro err w' ⟨rfl,-⟩
      exact refused_of he hi _
  · intro l slot w₁ dstArchId src dst hl hs he hi hready _ _ _
    obtain ⟨c,-,hf₁⟩ := StoreInv.found_extend h hl hs he hready.source
    refine wp_mono (moveAndWrite_spec (h.extend he hi) hf₁ hready hD) ?_ ?_
    · rintro - w' ⟨hinv,hrw⟩
      rw [he.tick] at hrw
      exact ⟨hinv,Rewritten.extend he hrw⟩
    · rintro err w' ⟨rfl,-⟩
      exact refused_of he hi _

/-- A bundle that was taken out of a row: its values are the ones stored there. -/
def TakenFrom (T : TArchetype) (b : Bundle V) (x : RowData V) : Prop :=
  b.ty=T ∧ ∀ p∈b.items,(x p.1.storageType).map ComponentData.value=some p.2

/-- Moving a row to an archetype without some of its components hands these out. -/
theorem takeOut_moved (h : StoreInv D reserved w) (hf : Found w e slot src c)
    (hr : EdgeReady true ⟨slot.archId,T⟩ dstArchId src dst w) (hne : slot.archId≠dstArchId)
    (hp : Fits true src.layout T) :
    ∃ (b : Bundle V) (w' : World V),moveRow true e slot ⟨slot.archId,T⟩ dstArchId (fun migration
        srcLayout dstLayout =>
        takeAndRemoveFrom T ⟨slot.chunkIdx,slot.idxInChunk⟩ srcLayout dstLayout migration) w=(.ok b,w') ∧
      StoreInv D reserved w' ∧ Rewritten D e (removeRow T.storageTypes) w w' ∧
      TakenFrom T b (c.rowData src.layout slot.idxInChunk) := by
  have hcomp : ∀ k∈T.components,k.storageType∈src.layout.componentColDescriptors := fun k hk =>
    hp _ (List.mem_map_of_mem hk)
  obtain ⟨ix,pair,d,b,hrun,h1,h2,h3,h4,h5,h6,h7,hty,hvals,hd⟩ := takeAndRemoveFrom_spec
    ⟨dst.arch,src.arch⟩ (h.sound _ _ hr.target) (h.sound _ _ hf.archetype)
    (h.registry.wellFormed hr.target).maxLen_pos (h.registry.wellFormed hf.archetype) hf.chunk hf.lt
    hcomp
  obtain ⟨w',hmove,hinv,hsame,hev,hcont⟩ := moveRow_moved (e:=e) h hf hr hne
    (x:=fun migration srcLayout dstLayout =>
      takeAndRemoveFrom T ⟨slot.chunkIdx,slot.idxInChunk⟩ srcLayout dstLayout migration) hrun
    (RowMoved.mk h1 h2 h3 h4 h5 h6 h7)
  refine ⟨b,w',hmove,hinv,⟨hsame,hev,_,d,hf.contents h,hcont,?_⟩,hty,?_⟩
  · intro hDD
    exact hd (h.registry.declared_layouts hDD _ _ hf.archetype)
      (h.registry.declared_layouts hDD _ _ hr.target) hr.types
  · intro p hpm
    rw [hvals p hpm]
    refine rowData_value (hcomp p.1 ?_)
    rw [←hty,←b.items_fst]
    exact List.mem_map_of_mem hpm

/-- `try_remove_component` takes components a live entity has out of it and hands
their values over, or is refused. -/
theorem tryRemoveComponent_spec (h : StoreInv D reserved w) (hD : D → T.isDeclared=true) :
    wp (tryRemoveComponent T e)
      (fun b w' => StoreInv D reserved w' ∧ Rewritten D e (removeRow T.storageTypes) w w' ∧
        ∃ x,World.contents w e=some x ∧ TakenFrom T b x)
      (fun _ w' => RegistryInv D w' ∧ Refused [] w w') w := by
  refine tryRemoveComponent_rule h.registry hD
    (fun _ => ⟨h.registry,Extends.refused (Extends.refl w)⟩)
    (fun _ _ _ _ _ _ he hi _ => ⟨hi,Extends.refused he⟩) ?_
  intro l slot w₁ dstArchId src dst hl hs he hi hready hmay _
  obtain ⟨c,hf,hf₁⟩ := StoreInv.found_extend h hl hs he hready.source
  by_cases hne : slot.archId=dstArchId
  · subst hne
    unfold wp
    rw [moveRow_same hi hready]
    exact ⟨hi,Extends.refused he⟩
  · obtain ⟨b,w',hmove,hinv,hrw,htaken⟩ := takeOut_moved (h.extend he hi) hf₁ hready hne hmay.fits
    unfold wp
    rw [hmove]
    exact ⟨hinv,Rewritten.extend he hrw,_,hf.contents h,htaken⟩

end Specs

section ErrorExits

/-- An error of `try_add_component` is a refusal, whatever the slots hold. -/
theorem tryAddComponent_err (h : RegistryInv D w) (hD : D → val.ty.isDeclared=true) :
    ErrRefused D val.drops (tryAddComponent e val) w := by
  refine tryAddComponent_rule h hD (fun _ _ _ => refused_of (Extends.refl w) h _)
    (fun _ _ _ _ _ _ he hi _ _ _ => refused_of he hi _) ?_
  rintro l slot w₁ dstArchId src dst - - he hi hready - -
  exact errRefused_grown he hi (moveAndWrite_errUnchanged hi hready)

/-- An error of `try_merge_component` is a refusal, whatever the slots hold. -/
theorem tryMergeComponent_err (h : RegistryInv D w) (hD : D → val.ty.isDeclared=true) :
    ErrRefused D val.drops (tryMergeComponent e val) w := by
  refine tryMergeComponent_rule h hD (fun _ _ _ => refused_of (Extends.refl w) h _)
    (fun _ _ _ _ _ _ he hi _ _ _ => refused_of he hi _) ?_ ?_
  · rintro l slot w₁ src - - he hi - hn - -
    refine errRefused_grown he hi (onArchetype_errUnchanged hi fun spec _ => ?_)
    exact replaceRowAt_errUnchanged hn _ _ _
  · rintro l slot w₁ dstArchId src dst - - he hi hready - - -
    exact errRefused_grown he hi (moveAndWrite_errUnchanged hi hready)

/-- An error of `try_remove_component` is a refusal, whatever the slots hold. -/
theorem tryRemoveComponent_err (h : RegistryInv D w) (hD : D → T.isDeclared=true) :
    ErrRefused D [] (tryRemoveComponent T e) w := by
  refine tryRemoveComponent_rule h hD (fun _ _ _ => ⟨h,Extends.refused (Extends.refl w)⟩)
    (fun _ _ _ _ _ _ he hi _ _ _ => ⟨hi,Extends.refused he⟩) ?_
  rintro l slot w₁ dstArchId src dst - - he hi hready - -
  refine wp_mono (moveRow_errUnchanged hi hready fun pair => takeAndRemoveFrom_errUnchanged T)
    (fun _ _ _ => trivial) ?_
  intro f w' hf err herr
  rw [hf err herr]
  exact ⟨hi,Extends.refused he⟩

/-- An error of `create_components_for` is a refusal, whatever the slots hold. -/
theorem createComponentsFor_errRefused (h : RegistryInv D w) (hD : D → val.ty.isDeclared=true) :
    ErrRefused D val.drops (createComponentsFor e val) w := by
  unfold ErrRefused createComponentsFor consuming
  rw [wp_onFault]
  refine Registers.wp_bind (getOrCreateArchetypeAs_spec h hD) ?_
    (fun _ w₁ hext hinv _ _ => refused_of hext hinv _)
  rintro i w₁ hext hinv ⟨-,spec,hv,ht⟩
  refine Registers.wp_bind (getArchetype_spec hinv i) ?_
    (fun _ w₂ hext' hinv' _ _ => refused_of (hext.trans hext') hinv' _)
  rintro spec' w₂ - - ⟨rfl,-⟩
  split
  · intro err herr
    exact refused_of hext hinv _
  · rw [wp_bind,wp_getState,wp_bind]
    refine wp_mono (onArchetype_errUnchanged hinv fun spec _ => push_errUnchanged ht.1 e w₂.tick) ?_ ?_
    · intro ix w₃ _
      exact wp_mono (updateEntitySpec_noErr e i ix w₃) (fun _ _ _ => trivial)
        (fun f _ hf err herr => absurd herr (hf err))
    · intro f w₃ hf err herr
      rw [hf err herr]
      exact refused_of hext hinv _

end ErrorExits

end XynokEcs.StructureChanges
