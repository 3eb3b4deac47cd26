import XynokEcs.ArchetypeHomes

/-!
# How the registry answers

Asking for the archetype of a type, or for the archetype a structure change leads
to, either finds it, or creates it, or panics; it never returns an error. It
panics exactly when the archetype is not there and cannot be laid out. What is
created on the way to a structure change is not locked.
-/

namespace XynokEcs.EdgeOutcomes

open ComponentTypes EntityHandle SequenceValueMap ChunkLayouts FaultingState ArchetypeStore
  QueryShapes WorldState RegistryInvariants RegistrySteps StoreSteps ArchetypeHomes

variable {V : Type} {D : Prop} {w w' : World V} {T : TArchetype} {kind : ArchetypeKind}
  {isRemove : Bool}

/-- A fault that is a panic. -/
def Panics (f : Fault) : Prop := ∃ p,f=.panic p

/-- A fault that is an error of the crate. -/
def Errs (f : Fault) : Prop := ∃ err,f=.err err

/-- The archetypes of a world are those from before, and new ones with the given
flag. -/
def AddsOnly (flag : Bool) (w w' : World V) : Prop :=
  ∀ (j : ℕ) (spec : ArchetypeSpec V),w'.archetypes.valueAt j=some spec →
    w.archetypes.valueAt j=some spec ∨ spec.allowStructureChange=flag

theorem addsOnly_same {flag : Bool} (h : w'.archetypes=w.archetypes) : AddsOnly flag w w' := by
  intro j spec hv
  rw [h] at hv
  exact .inl hv

theorem AddsOnly.trans {flag : Bool} {w'' : World V} (h : AddsOnly flag w w')
    (h' : AddsOnly flag w' w'') : AddsOnly flag w w'' :=
  fun j spec hv => (h' j spec hv).elim (h j spec) .inr

/-- One more archetype, at the end. -/
theorem addsOnly_push {spec : ArchetypeSpec V}
    (h : ∀ j,w'.archetypes.valueAt j=if j=w.archetypes.len then some spec
      else w.archetypes.valueAt j) : AddsOnly spec.allowStructureChange w w' := by
  intro j spec' hv
  rw [h] at hv
  split at hv
  · cases hv
    exact .inr rfl
  · exact .inl hv

/-- The archetype of a type is there, or can be created. -/
def Resolvable (kind : ArchetypeKind) (w : World V) (T : TArchetype) : Prop :=
  (∃ i spec,Home w T i spec) ∨ Placeable kind w T

/-- Asking for the archetype of a type succeeds exactly when it is resolvable, and
panics otherwise. -/
theorem getOrCreate_outcome (h : RegistryInv D w) (hD : D → T.isDeclared=true) :
    wp (getOrCreateArchetypeAs T kind)
      (fun i w' => Resolvable kind w T ∧ Extends w w' ∧ RegistryInv D w' ∧
        AddsOnly (ArchetypeKind.allowStructureChange kind) w w' ∧ ∃ spec,Home w' T i spec)
      (fun f w' => ¬Resolvable kind w T ∧ Extends w w' ∧ RegistryInv D w' ∧ Panics f) w := by
  unfold wp
  by_cases hh : ∃ i spec,Home w T i spec
  · obtain ⟨i,spec,hh⟩ := hh
    obtain ⟨w',hrun,harch⟩ := getOrCreate_home h hD hh
    obtain ⟨hext,hinv⟩ := resolved h hD hrun
    rw [hrun]
    exact ⟨.inl ⟨i,spec,hh⟩,hext,hinv,addsOnly_same harch,spec,hh.extend hext⟩
  · push Not at hh
    by_cases hp : Placeable kind w T
    · obtain ⟨hn,hcap,layout,hl⟩ := hp
      obtain ⟨w',hrun,hv⟩ := getOrCreate_new h hD hn hh hcap hl
      obtain ⟨hext,hinv⟩ := resolved h hD hrun
      rw [hrun]
      exact ⟨.inr ⟨hn,hcap,layout,hl⟩,hext,hinv,addsOnly_push hv,_,by rw [hv,if_pos rfl],
        layoutFor_types hl hn⟩
    · obtain ⟨p,w',hrun⟩ := getOrCreate_unplaceable h hD hh hp
      obtain ⟨hext,hinv⟩ := resolved h hD hrun
      rw [hrun]
      refine ⟨?_,hext,hinv,p,rfl⟩
      rintro (⟨i,spec,hi⟩ | hp')
      · exact hh i spec hi
      · exact hp hp'

section Derived

variable {set : List ℕ} {aArchId bArchId : ℕ} {a b : ArchetypeSpec V}

/-- The archetype the code derives from two others. -/
def derivedSpec (isRemove : Bool) (w : World V) (aArchId bArchId : ℕ) (a b : ArchetypeSpec V) :
    Except XynokEcsError (ArchetypeSpec V) :=
  match isRemove with
  | true => newFromAExcludeB w.componentCounter (w.componentKeys aArchId a.layout) b.layout
  | false => newFromPair w.componentCounter (w.componentKeys aArchId a.layout)
    (w.componentKeys bArchId b.layout)

/-- An archetype with the derived types is there. -/
def DerivedHome (isRemove : Bool) (w : World V) (a b : ArchetypeSpec V) : Prop :=
  ∃ (j : ℕ) (dst : ArchetypeSpec V),w.archetypes.valueAt j=some dst ∧
    ∀ t,t∈dst.layout.componentColDescriptors ↔ DerivedType isRemove a.layout b.layout t

/-- The derived archetype is there, or can be created. -/
def Derivable (isRemove : Bool) (w : World V) (aArchId bArchId : ℕ) (a b : ArchetypeSpec V) : Prop :=
  DerivedHome isRemove w a b ∨ w.archetypes.len<vecCapacity ∧
    ∃ spec : ArchetypeSpec V,derivedSpec isRemove w aArchId bArchId a b=.ok spec

/-- A derived archetype is made of the components the code collects. -/
theorem derivedSpec_made {spec : ArchetypeSpec V}
    (h : derivedSpec isRemove w aArchId bArchId a b=.ok spec) :
    ∃ comps,derivedArchetype w.componentCounter comps=.ok spec := by
  cases isRemove with
  | true =>
    change newFromAExcludeB _ _ _=_ at h
    unfold newFromAExcludeB at h
    revert h
    cases appendComponentDescriptor w.componentCounter
      ((World.componentKeys w aArchId a.layout).filter (fun t => t∉b.layout.componentColDescriptors)) []
      with
    | error e => exact nofun
    | ok comps => exact fun h => ⟨comps,h⟩
  | false =>
    change newFromPair _ _ _=_ at h
    unfold newFromPair at h
    revert h
    cases appendComponentDescriptor w.componentCounter (World.componentKeys w aArchId a.layout) [] with
    | error e => exact nofun
    | ok first =>
      change (appendComponentDescriptor w.componentCounter
        (World.componentKeys w bArchId b.layout) first >>= _)=_ → _
      cases appendComponentDescriptor w.componentCounter (World.componentKeys w bArchId b.layout) first
        with
      | error e => exact nofun
      | ok comps => exact fun h => ⟨comps,h⟩

theorem derivedSpec_flag {spec : ArchetypeSpec V}
    (h : derivedSpec isRemove w aArchId bArchId a b=.ok spec) : spec.allowStructureChange=true := by
  obtain ⟨comps,hd⟩ := derivedSpec_made h
  unfold derivedArchetype at hd
  split at hd
  · cases hd
    rfl
  · cases hd

variable (isRemove) in
/-- Deriving an archetype registers what the code derives, or panics. -/
theorem createDerivedArchetypeId_eq (h : RegistryInv D w)
    (ha : w.archetypes.valueAt aArchId=some a) (hb : w.archetypes.valueAt bArchId=some b)
    (set : List ℕ) :
    createDerivedArchetypeId isRemove set aArchId bArchId w=
      (match derivedSpec isRemove w aArchId bArchId a b with
        | .ok spec => registerArchetypeSpec set spec
        | .error e => fault (.panic (.display e)) : Call V ℕ) w := by
  unfold createDerivedArchetypeId
  rw [bind_ok (getArchetype_eq h ha),bind_ok (getArchetype_eq h hb),getState_bind]
  cases isRemove <;> rfl

/-- Asking for a derived archetype succeeds exactly when it is derivable, and
panics otherwise. -/
theorem getOrCreateDerived_outcome (h : RegistryInv D w) (ha : w.archetypes.valueAt aArchId=some a)
    (hb : w.archetypes.valueAt bArchId=some b) (hs : set.Pairwise (· < ·))
    (hset : ∀ i,i∈set ↔
      ∃ t,DerivedType isRemove a.layout b.layout t ∧ w.componentCounter.indexOf t=some i) :
    wp (getOrCreateDerived isRemove set aArchId bArchId)
      (fun _ w' => Derivable isRemove w aArchId bArchId a b ∧ AddsOnly true w w')
      (fun f _ => ¬Derivable isRemove w aArchId bArchId a b ∧ Panics f) w := by
  unfold getOrCreateDerived
  rw [wp_bind,wp_getState]
  cases hl : w.componentSetCounter.lookup set with
  | some id =>
    obtain ⟨spec,hv,his⟩ := h.sets_sound set id hl
    exact ⟨.inl ⟨id,spec,hv,types_of_set his hset (fun t ht => h.registered hv ht)
      (derived_registered h ha hb)⟩,addsOnly_same rfl⟩
  | none =>
    have hhome : ¬DerivedHome isRemove w a b := by
      rintro ⟨j,dst,hv,ht⟩
      obtain ⟨set',his,hl'⟩ := h.sets_complete j dst hv
      have heq : set=set' := by
        refine hs.eq_of_mem_iff his.sorted fun i => ?_
        rw [hset,his.mem]
        simp only [ht]
      rw [heq,hl'] at hl
      cases hl
    have hcreate := createDerivedArchetypeId_eq isRemove h ha hb set
    change wp (createDerivedArchetypeId isRemove set aArchId bArchId) _ _ w
    unfold wp
    rw [hcreate]
    cases hd : derivedSpec isRemove w aArchId bArchId a b with
    | error e =>
      refine ⟨?_,_,rfl⟩
      rintro (hh | ⟨-,spec,hspec⟩)
      · exact hhome hh
      · rw [hd] at hspec
        cases hspec
    | ok spec =>
      change wp (registerArchetypeSpec set spec) _ _ w
      unfold wp
      by_cases hcap : w.archetypes.len<vecCapacity
      · have hnone : w.archetypes.indexOf w.archetypes.len=none := by
          rw [h.keys,if_neg (Nat.lt_irrefl _)]
        obtain ⟨w',hreg,hv⟩ := registerArchetypeSpec_ok hnone hcap
        rw [hreg]
        refine ⟨.inr ⟨hcap,spec,hd⟩,?_⟩
        have hadd := addsOnly_push hv
        rw [derivedSpec_flag hd] at hadd
        exact hadd
      · rw [registerArchetypeSpec_full (Nat.le_of_not_lt hcap)]
        refine ⟨?_,_,rfl⟩
        rintro (hh | ⟨hcap',-⟩)
        · exact hhome hh
        · exact hcap hcap'

end Derived

section Edges

variable {key : ArchetypeEdgeKey} {src b : ArchetypeSpec V} {i : ℕ}

/-- Every type of an archetype has an id. -/
theorem componentIds_some {specs : ComponentSpecs} {ts : List StorageType}
    (h : ∀ t∈ts,∃ id,specs.indexOf t=some id) : ∃ ids,componentIds specs ts=some ids := by
  induction ts with
  | nil => exact ⟨[],rfl⟩
  | cons t rest ih =>
    obtain ⟨id,hid⟩ := h t List.mem_cons_self
    obtain ⟨ids,hids⟩ := ih fun t' ht' => h t' (List.mem_cons_of_mem t ht')
    refine ⟨id::ids,?_⟩
    unfold componentIds at hids ⊢
    rw [List.mapM_cons,hid,hids]
    rfl

theorem archetypeComponentIds_ok (h : RegistryInv D w) (hv : w.archetypes.valueAt i=some b) :
    ∃ ids,archetypeComponentIds i w=(.ok ids,w) ∧
      ∀ id,id∈ids ↔ ∃ t∈b.layout.componentColDescriptors,w.componentCounter.indexOf t=some id := by
  obtain ⟨ids,hids⟩ : ∃ ids,componentIds w.componentCounter (World.componentKeys w i b.layout)=some ids :=
    componentIds_some fun t ht => h.registered hv (mem_componentKeys.mp ht)
  refine ⟨ids,?_,fun id => ?_⟩
  · unfold archetypeComponentIds
    simp only [getState_bind,h.get_eq,hv,hids]
    rfl
  · rw [componentIds_mem hids]
    simp only [mem_componentKeys]

/-- The cache takes an edge between archetypes that are there. -/
theorem insertEdge_ok (h : RegistryInv D w) {dstArchId : ℕ} {dst : ArchetypeSpec V}
    (hs : w.archetypes.valueAt key.srcArchId=some src) (hd : w.archetypes.valueAt dstArchId=some dst) :
    ∃ w',insertEdge isRemove key dstArchId w=(.ok (),w') ∧ w'.archetypes=w.archetypes := by
  unfold insertEdge
  rw [bind_ok (getArchetype_eq h hs),bind_ok (getArchetype_eq h hd)]
  cases isRemove <;> exact ⟨_,rfl,rfl⟩

/-- The world after the archetype of a type was asked for. -/
def World.resolving (w : World V) (T : TArchetype) : World V := (getOrCreateArchetypeId T w).2

/-- Where a structure change leads is cached, or can be worked out: the archetype of
the type is there or can be created, and after it so is the derived one. -/
def EdgeResolvable (isRemove : Bool) (w : World V) (key : ArchetypeEdgeKey) : Prop :=
  (∃ edge,(w.edges isRemove).lookup key=some edge) ∨
    Resolvable (.chunked defaultArchetypeCfg) w key.archetypeTypeId ∧
      ∀ bArchId src b,
        (World.resolving w key.archetypeTypeId).archetypes.valueAt key.srcArchId=some src →
        Home (World.resolving w key.archetypeTypeId) key.archetypeTypeId bArchId b →
        Derivable isRemove (World.resolving w key.archetypeTypeId) key.srcArchId bArchId src b

/-- Asking where a structure change leads succeeds exactly when that is resolvable,
and panics otherwise. -/
theorem getOrCreateEdge_outcome (h : RegistryInv D w)
    (hD : D → key.archetypeTypeId.isDeclared=true)
    (hs : w.archetypes.valueAt key.srcArchId=some src) :
    wp (getOrCreateEdge isRemove key)
      (fun _ w' => EdgeResolvable isRemove w key ∧ AddsOnly true w w')
      (fun f _ => ¬EdgeResolvable isRemove w key ∧ Panics f) w := by
  unfold getOrCreateEdge
  rw [wp_bind,wp_getState]
  cases hl : (w.edges isRemove).lookup key with
  | some edge => exact ⟨.inl ⟨edge,hl⟩,addsOnly_same rfl⟩
  | none =>
    have hcached : ¬∃ edge,(w.edges isRemove).lookup key=some edge := by
      rintro ⟨edge,he⟩
      rw [hl] at he
      cases he
    change wp (getOrCreateArchetypeId key.archetypeTypeId >>= _) _ _ w
    rw [wp_bind]
    apply wp_intro
    · intro bArchId w₁ hrun
      obtain ⟨hr,hext,hinv,hadd,b,hb⟩ := wp_of_ok
        (getOrCreate_outcome h hD) hrun
      have hw : World.resolving w key.archetypeTypeId=w₁ := congrArg Prod.snd hrun
      have hs₁ := hext.kept _ _ hs
      obtain ⟨aIds,haRun,haIds⟩ := archetypeComponentIds_ok hinv hs₁
      obtain ⟨bIds,hbRun,hbIds⟩ := archetypeComponentIds_ok hinv hb.1
      have hset := derivedIds isRemove haIds hbIds
      unfold wp
      rw [bind_ok haRun,bind_ok hbRun]
      change wp (getOrCreateDerived isRemove _ key.srcArchId bArchId >>= _) _ _ w₁
      rw [wp_bind]
      refine wp_mono (wp_and (getOrCreateDerived_outcome hinv hs₁ hb.1 (sorted_normalizeSet _) hset)
        (getOrCreateDerived_spec hinv hs₁ hb.1 (sorted_normalizeSet _) hset)) ?_ ?_
      · rintro dstArchId w₂ ⟨⟨hd,hadd₂⟩,hext₂,hinv₂,dst,hdst,-⟩
        obtain ⟨w₃,hins,harch⟩ := insertEdge_ok hinv₂
          (hext₂.kept _ _ hs₁) hdst
        unfold wp
        rw [bind_ok hins]
        refine ⟨.inr ⟨hr,?_⟩,hadd.trans (hadd₂.trans (addsOnly_same harch))⟩
        rw [hw]
        intro bArchId' src' b' hs' hb'
        obtain ⟨rfl,rfl⟩ := Home.unique hinv hb hb'
        rw [hs₁] at hs'
        cases hs'
        exact hd
      · rintro f w₂ ⟨⟨hd,hp⟩,-⟩
        refine ⟨?_,hp⟩
        rintro (hc | ⟨-,hall⟩)
        · exact hcached hc
        · rw [hw] at hall
          exact hd (hall bArchId src b hs₁ hb)
    · intro f w₁ hrun
      obtain ⟨hr,-,-,hp⟩ := wp_of_error (E:=fun f w' =>
        ¬Resolvable (.chunked defaultArchetypeCfg) w key.archetypeTypeId ∧ Extends w w' ∧
          RegistryInv D w' ∧ Panics f)
        (getOrCreate_outcome h hD) hrun
      refine ⟨?_,hp⟩
      rintro (hc | ⟨hr',-⟩)
      · exact hcached hc
      · exact hr hr'

end Edges

end XynokEcs.EdgeOutcomes
