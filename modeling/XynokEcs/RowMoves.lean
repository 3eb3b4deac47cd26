import XynokEcs.ActionEffects

/-!
# Where rows go

A new row goes to the first chunk with room of its archetype, or opens a chunk. A row
that leaves is replaced by the last row of its chunk. So what a command does to the
places of all rows is known from the archetype it leads to and the queue of chunks
with room there.
-/

namespace XynokEcs.RowMoves

open ComponentTypes EntityHandle SequenceValueMap ChunkLayouts FaultingState RowDirectory ChunkRows RowWrites
  ArchetypeStore EntityAllocation SlotInvariants WorldState WorldCalls CommandBuffer RegistryInvariants RegistrySteps
  StoreInvariants StoreSteps EdgeOutcomes StructureChanges ActionRuns WorldRuns ActionEffects

variable {V : Type} {D : Prop} {w w' : World V} {reserved : List Entity} {e : Entity} {val : Bundle V}
  {T : TArchetype} {slot : EntitySpec} {src dst : ArchetypeSpec V} {c : Chunk V}

section Chunks

/-- The chunk that the next row of an archetype goes to. -/
def Archetype.nextChunk (a : Archetype V) : ℕ := a.freeChunks.head?.getD a.chunks.length

variable [Inhabited V] {layout : ChunkLayout} {a : Archetype V} {pair : ArchetypePair V}

/-- A chunk with room is the next chunk. -/
theorem takeAFreeChunkIdx_next (layout : ChunkLayout) (a : Archetype V) :
    wp (takeAFreeChunkIdx layout) (fun i _ => i=Archetype.nextChunk a) (fun _ _ => False) a := by
  unfold wp takeAFreeChunkIdx Archetype.nextChunk
  cases a.freeChunks <;> rfl

/-- `push` writes to the next chunk. -/
theorem push_next {tick : ChangedTick} {ix : EntityInChunkIndices} {a' : Archetype V}
    (h : push layout e val tick a=(.ok ix,a')) : ix.chunkIdx=Archetype.nextChunk a := by
  refine wp_of_ok (Q:=fun ix _ => ix.chunkIdx=Archetype.nextChunk a) (E:=fun _ _ => True) ?_ h
  unfold push
  rw [wp_bind]
  refine wp_intro ?_ fun _ _ _ => trivial
  intro u s hu
  have hs : s=a := (congrArg Prod.snd hu).symm
  rw [hs,wp_bind]
  refine wp_mono (takeAFreeChunkIdx_next layout a) ?_ (fun _ _ hf => hf.elim)
  intro i s hi
  rw [wp_bind]
  refine wp_intro ?_ fun _ _ _ => trivial
  intro r t _
  exact hi

/-- A row that is taken over is written to the next chunk. -/
theorem takeRowFrom_next {srcE : EntityInChunkIndices} {migration : MigrationPlan}
    {write : ℕ → Faulting (Chunk V) Fault Unit} :
    wp (takeRowFrom srcE layout migration write)
      (fun r _ => r.newIndicesTook.chunkIdx=Archetype.nextChunk pair.dst) (fun _ _ => True) pair := by
  unfold takeRowFrom
  have hnext : wp (onDst (takeAFreeChunkIdx layout)) (fun i _ => i=Archetype.nextChunk pair.dst)
      (fun _ _ => False) pair := by
    have htake := takeAFreeChunkIdx_next layout pair.dst
    unfold wp at htake ⊢
    cases hr : takeAFreeChunkIdx layout pair.dst with
    | mk r a =>
      rw [hr] at htake
      rw [onDst_eq hr]
      cases r with
      | ok i => exact htake
      | error f => exact htake
  rw [wp_bind]
  refine wp_mono hnext ?_ (fun _ _ hf => hf.elim)
  intro i s hi
  rw [wp_bind,wp_getState]
  split
  · rw [wp_bind,wp_modifyState,wp_bind]
    refine wp_intro ?_ fun _ _ _ => trivial
    intro _ s₁ _
    rw [wp_bind]
    refine wp_intro ?_ fun _ _ _ => trivial
    intro _ s₂ _
    exact hi
  · trivial

/-- `take_and_write_from` as well. -/
theorem takeAndWriteFrom_next {srcE : EntityInChunkIndices} {srcLayout : ChunkLayout}
    {migration : MigrationPlan} {tick : ChangedTick} {r : ResultTake} {p : ArchetypePair V}
    (h : takeAndWriteFrom srcE srcLayout layout migration val tick pair=(.ok r,p)) :
    r.newIndicesTook.chunkIdx=Archetype.nextChunk pair.dst := by
  refine wp_of_ok (Q:=fun r _ => r.newIndicesTook.chunkIdx=Archetype.nextChunk pair.dst)
    (E:=fun _ _ => True) ?_ h
  unfold takeAndWriteFrom
  rw [wp_bind]
  refine wp_intro ?_ fun _ _ _ => trivial
  intro u s hu
  have hs : s=pair := (congrArg Prod.snd hu).symm
  rw [hs]
  exact takeRowFrom_next

/-- And `take_and_remove_from`. -/
theorem takeAndRemoveFrom_next {srcE : EntityInChunkIndices} {srcLayout : ChunkLayout}
    {migration : MigrationPlan} {r : ResultTake×Bundle V} {p : ArchetypePair V}
    (h : takeAndRemoveFrom T srcE srcLayout layout migration pair=(.ok r,p)) :
    r.1.newIndicesTook.chunkIdx=Archetype.nextChunk pair.dst := by
  refine wp_of_ok (Q:=fun r _ => r.1.newIndicesTook.chunkIdx=Archetype.nextChunk pair.dst)
    (E:=fun _ _ => True) ?_ h
  unfold takeAndRemoveFrom
  rw [wp_bind]
  refine wp_intro ?_ fun _ _ _ => trivial
  intro u s hu
  have hs : s=pair := (congrArg Prod.snd hu).symm
  rw [hs,wp_bind]
  refine wp_intro ?_ fun _ _ _ => trivial
  intro b s₁ hb
  have hdst : s₁.dst=pair.dst := by
    have hfix := onSrc_dst (onChunk srcE.chunkIdx (takeBundle srcLayout srcE.idxInChunk T)) pair
    rw [hb] at hfix
    exact hfix
  rw [wp_bind]
  have hnext : wp (takeRowFrom srcE layout migration fun _ => return ())
      (fun r _ => r.newIndicesTook.chunkIdx=Archetype.nextChunk s₁.dst) (fun _ _ => True) s₁ :=
    takeRowFrom_next
  rw [hdst] at hnext
  exact wp_mono hnext (fun _ _ hr => hr) (fun _ _ _ => trivial)

end Chunks

section Creating

/-- A place is the next one of its archetype, if that was there already and is as it
should be. -/
def NextOf (w : World V) (is : ArchetypeSpec V → Prop) (l : RowLoc) : Prop :=
  ∀ spec,w.archetypes.valueAt l.archId=some spec → is spec ∧ l.indices.chunkIdx=Archetype.nextChunk spec.arch

/-- An archetype that takes a new row of a type. -/
def TakesRow (T : TArchetype) (spec : ArchetypeSpec V) : Prop :=
  HasTypes spec.layout T ∧ spec.arch.canTakeARow=true

/-- Directories that agree on places and data are the same. -/
theorem directory_ext {K L X : Type} {d d' : Directory K L X} (h : d.Consistent) (h' : d'.Consistent)
    (hl : d.locate=d'.locate) (hc : d.contents=d'.contents) : d=d' := by
  have hrow : ∀ {d d' : Directory K L X},d.Consistent → d'.Consistent → d.locate=d'.locate →
      d.contents=d'.contents → ∀ l k x,d.rows l=some (k,x) → d'.rows l=some (k,x) := by
    intro d d' h h' hl hc l k x hrow
    have hloc := h.locate hrow
    rw [hl] at hloc
    obtain ⟨y,hy⟩ := h'.row hloc
    have hx := h.contents_of_row hrow
    rw [hc,h'.contents_of_row hy] at hx
    rw [hy,Option.some.inj hx]
  have hrows : d.rows=d'.rows := by
    funext l
    refine Option.ext fun p => ?_
    obtain ⟨k,x⟩ := p
    exact ⟨hrow h h' hl hc l k x,hrow h' h hl.symm hc.symm l k x⟩
  cases d
  cases d'
  dsimp only at hl hrows
  rw [hl,hrows]

/-- A row of a new entity was added. -/
structure RowAdded (w : World V) (e : Entity) (T : TArchetype) (d : Directory Entity RowLoc (RowData V)) :
    Prop where
  /-- The entity was nowhere. -/
  fresh : w.entityAllocator.locate e=none
  /-- It is at the next place of its archetype. -/
  added : ∃ l x,World.row w l=none ∧ NextOf w (TakesRow T) l ∧ d=(World.directory w).insert e l x

variable [Inhabited V]

/-- A handle is attached to the next place of its archetype. -/
theorem createComponentsFor_next (h : StoreInv D (e::reserved) w) (hD : D → val.ty.isDeclared=true) :
    wp (createComponentsFor e val) (fun _ w' => ∃ l,NextOf w (TakesRow val.ty) l ∧
      w'.entityAllocator=attachSlot w.entityAllocator e l) (fun _ _ => True) w := by
  unfold createComponentsFor consuming
  rw [wp_onFault]
  refine Registers.wp_bind (getOrCreateArchetypeAs_spec h.registry hD) ?_ (fun _ _ _ _ => trivial)
  rintro i w₁ hext hinv ⟨-,spec,hv,ht⟩
  refine Registers.wp_bind (getArchetype_spec hinv i) ?_ (fun _ _ _ _ => trivial)
  rintro spec' w₂ - - ⟨rfl,hv'⟩
  rw [hv] at hv'
  cases hv'
  split
  · trivial
  · rename_i hcan
    rw [wp_bind,wp_getState]
    refine wp_intro ?_ fun _ _ _ => trivial
    intro u w' hrun
    obtain ⟨-,slot,hslot,-⟩ := h.slots.reserved_slot e List.mem_cons_self
    cases hpush : push spec.layout e val w₂.tick spec.arch with
    | mk r a =>
      have hon := onArchetype_eq (x:=fun layout => push layout e val w₂.tick) hinv hv hpush
      cases r with
      | error f =>
        rw [bind_error hon] at hrun
        cases hrun
      | ok ix =>
        have hix := push_next hpush
        have hslot₂ : (World.setArch w₂ i a).entityAllocator.entities[e.idx]?=some slot := by
          change w₂.entityAllocator.entities[e.idx]?=some slot
          rw [hext.entityAllocator]
          exact hslot
        have hup := onAllocator_eq (updateEntitySpec_eq hslot₂ i ix)
        rw [bind_ok hon,hup] at hrun
        cases hrun
        refine ⟨⟨i,ix⟩,?_,?_⟩
        · intro spec' hs
          have he : spec'=spec := Option.some.inj ((hext.kept _ _ hs).symm.trans hv)
          rw [he]
          rw [Bool.not_eq_true,Bool.not_eq_false'] at hcan
          exact ⟨⟨ht,hcan⟩,hix⟩
        · change attachSlot w₂.entityAllocator e ⟨i,ix⟩=attachSlot w.entityAllocator e ⟨i,ix⟩
          rw [hext.entityAllocator]

/-- A create adds a row, or leaves all rows. -/
theorem tryCreate_rows (h : StoreInv D reserved w) (hD : D → val.ty.isDeclared=true) :
    wp (tryCreate val) (fun e w' => RowAdded w e val.ty (World.directory w'))
      (fun _ w' => World.directory w'=World.directory w) w := by
  unfold tryCreate
  rw [wp_bind,consuming,wp_onFault]
  refine wp_mono (onAllocator_newEntity h) ?_ ?_
  · rintro e w₁ ⟨a,ht,rfl,h₁⟩
    have hdir : World.directory (World.setSlots w a)=World.directory w := directory_congr rfl ht.locate
    rw [wp_bind]
    refine wp_mono (wp_and (createComponentsFor_spec h₁ hD) (createComponentsFor_next h₁ hD)) ?_ ?_
    · rintro - w' ⟨⟨hinv,l,x,ha,-,hcont,-⟩,l',hnext,ha'⟩
      obtain ⟨-,slot,hslot,hempty,-⟩ := h₁.slots.reserved_slot e List.mem_cons_self
      have hnot : slot.hasValue=true → slot.version=e.version := by
        intro hc
        rw [hempty] at hc
        cases hc
      have hfresh : w.entityAllocator.locate e=none := by
        rw [←ht.locate]
        exact h₁.slots.reserved_not_found List.mem_cons_self
      have hloc : w'.entityAllocator.locate=Function.update w.entityAllocator.locate e (some l') := by
        rw [ha',locate_attach hslot hnot l']
        change Function.update a.locate e (some l')=_
        rw [ht.locate]
      have hfree : World.row w l'=none := by
        rw [←Option.not_isSome_iff_eq_none,Option.isSome_iff_exists]
        rintro ⟨⟨k,y⟩,hrow⟩
        have hk : w.entityAllocator.locate k=some l' := h.consistent.locate (d:=World.directory w) hrow
        have hne : k≠e := by
          rintro rfl
          rw [hfresh] at hk
          cases hk
        have hk' : w'.entityAllocator.locate k=some l' := by
          rw [hloc,Function.update_of_ne hne]
          exact hk
        have he' : w'.entityAllocator.locate e=some l' := by rw [hloc,Function.update_self]
        exact hne (hinv.consistent.key_unique (d:=World.directory w') hk' he')
      refine ⟨hfresh,l',x,hfree,hnext,?_⟩
      refine directory_ext hinv.consistent (h.consistent.insert hfresh hfree x) hloc ?_
      rw [Directory.contents_insert h.consistent hfree]
      change World.contents w'=Function.update (World.contents w) e (some x)
      rw [hcont,World.contents,hdir]
      rfl
    · rintro f w' ⟨⟨-,hr⟩,-⟩
      exact hr.directory.trans hdir
  · rintro f w₁ rfl
    exact Refused.directory ⟨w₁,Extends.refl w₁,rfl⟩

end Creating

section Moving

variable {isRemove : Bool} {dstArchId : ℕ}

/-- The row of a live entity went to the next place of another archetype, and the last
row of its chunk filled the hole. -/
structure RowLed (isRemove : Bool) (w : World V) (e : Entity) (T : TArchetype) (slot : EntitySpec)
    (src : ArchetypeSpec V) (l : RowLoc) (d : Directory Entity RowLoc (RowData V)) : Prop where
  /-- The entity was in its slot. -/
  found : ∃ c,Found w e slot src c
  /-- Nothing stood in the way. -/
  may : MayMove isRemove w slot src T
  /-- The archetypes differ. -/
  other : l.archId≠slot.archId
  /-- The new place is the next of an archetype of the right components. -/
  next : NextOf w (fun spec => EdgeTypes isRemove src.layout spec.layout T) l
  /-- No other archetype has them. -/
  only : ∀ i spec,w.archetypes.valueAt i=some spec → EdgeTypes isRemove src.layout spec.layout T → i=l.archId
  /-- It was free once the row had left. -/
  free : ((World.directory w).remove e slot.loc (World.lastOf w slot.loc)).rows l=none
  /-- The row is there, and the hole is filled. -/
  led : ∃ x,d=((World.directory w).remove e slot.loc (World.lastOf w slot.loc)).insert e l x

/-- A move after the registry grew is one from before. -/
theorem RowLed.extend {w₁ : World V} (h : RegistryInv D w₁) (he : Extends w w₁) (hf : Found w e slot src c)
    (hf₁ : Found w₁ e slot src c) (may : MayMove isRemove w slot src T)
    (hr : EdgeReady isRemove ⟨slot.archId,T⟩ dstArchId src dst w₁) (hne : slot.archId≠dstArchId)
    {ix : EntityInChunkIndices} (hix : ix.chunkIdx=Archetype.nextChunk dst.arch)
    (hfree : ((World.directory w₁).remove e slot.loc (World.lastOf w₁ slot.loc)).rows ⟨dstArchId,ix⟩=none)
    {x : RowData V} (hdir : World.directory w'=((World.directory w₁).remove e slot.loc
      (World.lastOf w₁ slot.loc)).insert e ⟨dstArchId,ix⟩ x) :
    RowLed isRemove w e T slot src ⟨dstArchId,ix⟩ (World.directory w') := by
  rw [hf₁.lastOf,←hf.lastOf,Extends.directory he] at hfree hdir
  refine ⟨⟨c,hf⟩,may,Ne.symm hne,fun spec hs => ?_,fun i spec hs ht => ?_,hfree,x,hdir⟩
  · have hspec : spec=dst := Option.some.inj ((he.kept _ _ hs).symm.trans hr.target)
    rw [hspec]
    exact ⟨hr.types,hix⟩
  · exact archetype_unique h (he.kept _ _ hs) hr.target fun t => (ht t).trans (hr.types t).symm

variable [Inhabited V]

/-- Moving a row and writing to it leads it on, or leaves all rows. -/
theorem moveAndWrite_rows {w₁ : World V} {tick : ChangedTick} (h : StoreInv D reserved w₁) (he : Extends w w₁)
    (hf : Found w e slot src c) (hf₁ : Found w₁ e slot src c) (may : MayMove false w slot src val.ty)
    (hr : EdgeReady false ⟨slot.archId,val.ty⟩ dstArchId src dst w₁) :
    wp (moveAndWrite e slot ⟨slot.archId,val.ty⟩ dstArchId val tick)
      (fun _ w' => ∃ l,RowLed false w e val.ty slot src l (World.directory w'))
      (fun _ w' => w'=w₁) w₁ := by
  have hfault : ∀ f,moveAndWrite e slot ⟨slot.archId,val.ty⟩ dstArchId val tick w₁=(.error f,w₁) →
      wp (moveAndWrite e slot ⟨slot.archId,val.ty⟩ dstArchId val tick)
        (fun _ w' => ∃ l,RowLed false w e val.ty slot src l (World.directory w'))
        (fun _ w' => w'=w₁) w₁ := by
    intro f hrun
    unfold wp
    rw [hrun]
  by_cases hne : slot.archId=dstArchId
  · subst hne
    exact hfault _ (moveRow_same h.registry hr)
  · cases hval : validateArchetypeWritable val.ty dst.layout with
    | error err =>
      refine hfault (.err err) (moveRow_refused h.registry hr hne ?_)
      rw [bind_error (takeAndWriteFrom_refused hval)]
    | ok _ =>
      obtain ⟨ix,pair,d,hrun,h1,h2,h3,h4,h5,h6,h7,-⟩ := takeAndWriteFrom_spec
        ⟨dst.arch,src.arch⟩ (h.sound _ _ hr.target) (h.sound _ _ hf₁.archetype)
        (h.registry.wellFormed hr.target).maxLen_pos (h.registry.wellFormed hf₁.archetype) hf₁.chunk
        hf₁.lt (Accepts.mk hr.nodup (validateArchetypeWritable_ok.mp hval)) tick
      obtain ⟨w',hmove,-,-,-,hfree,hdir⟩ := moveRow_rows (e:=e) (v:=()) (x:=fun migration
          srcLayout dstLayout => do
            let result ← takeAndWriteFrom ⟨slot.chunkIdx,slot.idxInChunk⟩ srcLayout dstLayout
              migration val tick
            return (result,())) h hf₁ hr hne (by rw [bind_ok hrun]; rfl)
        (RowMoved.mk h1 h2 h3 h4 h5 h6 h7)
      have hrun' : moveAndWrite e slot ⟨slot.archId,val.ty⟩ dstArchId val tick w₁=(.ok (),w') := hmove
      unfold wp
      rw [hrun']
      exact ⟨_,RowLed.extend h.registry he hf hf₁ may hr hne (takeAndWriteFrom_next hrun) hfree hdir⟩

/-- Moving a row without some of its components leads it on. -/
theorem takeOut_rows {w₁ : World V} (h : StoreInv D reserved w₁) (he : Extends w w₁)
    (hf : Found w e slot src c) (hf₁ : Found w₁ e slot src c) (may : MayMove true w slot src T)
    (hr : EdgeReady true ⟨slot.archId,T⟩ dstArchId src dst w₁) :
    wp (moveRow true e slot ⟨slot.archId,T⟩ dstArchId (fun migration srcLayout dstLayout =>
        takeAndRemoveFrom T ⟨slot.chunkIdx,slot.idxInChunk⟩ srcLayout dstLayout migration))
      (fun _ w' => ∃ l,RowLed true w e T slot src l (World.directory w')) (fun _ w' => w'=w₁) w₁ := by
  by_cases hne : slot.archId=dstArchId
  · subst hne
    unfold wp
    rw [moveRow_same h.registry hr]
  · have hcomp : ∀ k∈T.components,k.storageType∈src.layout.componentColDescriptors := fun k hk =>
      may.fits _ (List.mem_map_of_mem hk)
    obtain ⟨ix,pair,d,b,hrun,h1,h2,h3,h4,h5,h6,h7,-⟩ := takeAndRemoveFrom_spec
      ⟨dst.arch,src.arch⟩ (h.sound _ _ hr.target) (h.sound _ _ hf₁.archetype)
      (h.registry.wellFormed hr.target).maxLen_pos (h.registry.wellFormed hf₁.archetype) hf₁.chunk hf₁.lt
      hcomp
    obtain ⟨w',hmove,-,-,-,hfree,hdir⟩ := moveRow_rows (e:=e) h hf₁ hr hne
      (x:=fun migration srcLayout dstLayout =>
        takeAndRemoveFrom T ⟨slot.chunkIdx,slot.idxInChunk⟩ srcLayout dstLayout migration) hrun
      (RowMoved.mk h1 h2 h3 h4 h5 h6 h7)
    unfold wp
    rw [hmove]
    exact ⟨_,RowLed.extend h.registry he hf hf₁ may hr hne (takeAndRemoveFrom_next hrun) hfree hdir⟩

/-- Adding components leads a row on, or leaves all rows. -/
theorem tryAddComponent_rows (h : StoreInv D reserved w) (hD : D → val.ty.isDeclared=true) :
    wp (tryAddComponent e val)
      (fun _ w' => ∃ slot src l,RowLed false w e val.ty slot src l (World.directory w'))
      (fun _ w' => World.directory w'=World.directory w) w := by
  refine tryAddComponent_rule h.registry hD (fun _ => rfl)
    (fun _ _ _ w₁ _ _ he _ _ => Refused.directory ⟨w₁,he,rfl⟩) ?_
  intro l slot w₁ dstArchId src dst hl hs he hi hready hmay _
  obtain ⟨c,hf,hf₁⟩ := StoreInv.found_extend h hl hs he hready.source
  refine wp_mono (moveAndWrite_rows (h.extend he hi) he hf hf₁ hmay hready) ?_ ?_
  · intro _ w' hled
    exact ⟨slot,src,hled⟩
  · rintro f w' rfl
    exact Refused.directory ⟨w',he,rfl⟩

/-- So does removing them. -/
theorem tryRemoveComponent_rows (h : StoreInv D reserved w) (hD : D → T.isDeclared=true) :
    wp (tryRemoveComponent T e)
      (fun _ w' => ∃ slot src l,RowLed true w e T slot src l (World.directory w'))
      (fun _ w' => World.directory w'=World.directory w) w := by
  refine tryRemoveComponent_rule h.registry hD (fun _ => rfl) (fun _ _ _ _ _ _ he _ _ => Extends.directory he) ?_
  intro l slot w₁ dstArchId src dst hl hs he hi hready hmay _
  obtain ⟨c,hf,hf₁⟩ := StoreInv.found_extend h hl hs he hready.source
  refine wp_mono (takeOut_rows (h.extend he hi) he hf hf₁ hmay hready) ?_ ?_
  · intro _ w' hled
    exact ⟨slot,src,hled⟩
  · rintro f w' rfl
    exact Extends.directory he

end Moving

section Commands

variable [Inhabited V] {thread : ℕ}

/-- What a command that succeeds does to the places of the rows. -/
def CmdCall.Places (w : World V) (d : Directory Entity RowLoc (RowData V)) : CmdCall V → Outcome V → Prop
  | .create val,.entity e => RowAdded w e val.ty d
  | .addComponent e val,.done => ∃ slot src l,RowLed false w e val.ty slot src l d
  | .removeComponent T e,.bundle _ => ∃ slot src l,RowLed true w e T slot src l d
  | .destroy e,.done => ∃ l,w.entityAllocator.locate e=some l ∧
    d=(World.directory w).remove e l (World.lastOf w l)
  | .mergeComponent _ _,_ => True
  | _,_ => False

/-- The commands that do not merge. -/
def CmdCall.mergeless : CmdCall V → Bool
  | .mergeComponent _ _ => false
  | _ => true

/-- Outside of a parallel step a command does what the call of the world does. -/
theorem CmdCall.wp_direct {c : CmdCall V} {Q : Outcome V → World V → Prop} {E : World V → Prop}
    (hp : w.inParallelCompute=false) (h : wp (c.direct.perform .returning) Q (fun _ w' => E w') w)
    (form : CallForm) : wp (c.perform thread form) Q (fun _ w' => E w') w := by
  refine CmdCall.wp_form ?_ form
  unfold wp
  rw [CmdCall.perform_direct c hp]
  exact h

/-- Outside of a parallel step a command that does not merge moves rows as said, or
leaves all of them. -/
theorem CmdCall.places (c : CmdCall V) (form : CallForm) (h : StoreInv D reserved w)
    (hp : w.inParallelCompute=false) (hD : D → ∀ T∈c.ty,T.isDeclared=true) (hc : CmdCall.mergeless c=true) :
    wp (c.perform thread form) (fun out w' => CmdCall.Places w (World.directory w') c out)
      (fun _ w' => World.directory w'=World.directory w) w := by
  refine CmdCall.wp_direct hp ?_ form
  cases c with
  | create val => exact wp_bind.mpr (tryCreate_rows h fun hd => hD hd _ rfl)
  | addComponent e val => exact wp_bind.mpr (tryAddComponent_rows h fun hd => hD hd _ rfl)
  | mergeComponent e val => cases hc
  | removeComponent T e => exact wp_bind.mpr (tryRemoveComponent_rows h fun hd => hD hd _ rfl)
  | destroy e =>
    refine wp_bind.mpr ?_
    cases hl : w.entityAllocator.locate e with
    | none =>
      unfold wp
      rw [tryDestroy_missing hl]
    | some l =>
      obtain ⟨w',hrun,-,-,-,hdir⟩ := tryDestroy_rows h hl
      unfold wp
      rw [hrun]
      exact ⟨l,hl,hdir⟩

end Commands

end XynokEcs.RowMoves
