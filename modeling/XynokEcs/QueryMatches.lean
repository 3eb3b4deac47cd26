import XynokEcs.AccessConflicts
import XynokEcs.WorldGrowth

/-!
# The archetypes a prepared query lists

A query spec is current while it carries the version of the archetype registry.
A current spec lists, in order, every archetype that has what the shape reads
and writes and nothing it excludes. Preparing a query makes its spec current and
leaves the current ones so.
-/

namespace XynokEcs.QueryMatches

open ComponentTypes ComponentBits ComponentIds SequenceValueMap FaultingState ChunkRows
  ChunkLayouts QueryShapes WorldState RegistryInvariants StoreInvariants QueryAccess QuerySources AccessConflicts
  WorldGrowth

variable {V : Type} {w w' : World V} {q : QueryShape Component}

section Exactness

/-- The archetype has what the shape reads and writes, and nothing it excludes. -/
def Matches (q : QueryShape Component) (layout : ChunkLayout) : Prop :=
  ∀ p∈QueryShape.accesses q,p.2.storageType∈layout.componentColDescriptors ↔ p.1≠.exclude

/-- The bits of a layout are the ids of its columns. -/
theorem layout_ids {specs : ComponentSpecs} {comps : List ComponentDescriptor} {layout : ChunkLayout}
    (h : layout.Of specs comps) {t : StorageType} {id : ℕ} (hid : specs.indexOf t=some id) :
    id∈ComponentBitSet.ids layout.componentBitSet ↔ t∈layout.componentColDescriptors := by
  rw [←ComponentBitSet.contains_iff,h.bits,h.mem_keys,List.mem_map]
  constructor
  · rintro ⟨des,hdes,hi⟩
    exact ⟨des,hdes,SequenceValueHashMap.indexOf_inj hi hid⟩
  · rintro ⟨des,hdes,rfl⟩
    exact ⟨des,hdes,hid⟩

/-- A set of types with everything the places read and write, and nothing they exclude. -/
def Carries (arch : Set StorageType) (acc : List (Access×StorageType)) : Prop :=
  ∀ p∈acc,p.2∈arch ↔ p.1≠.exclude

/-- A scope selects the archetypes that carry the places it describes. -/
theorem belongTo_carries {specs : ComponentSpecs} {comps : List ComponentDescriptor}
    {layout : ChunkLayout} {scope : AccessScope} {acc : List (Access×StorageType)}
    (h : layout.Of specs comps) (hd : Describes specs acc scope) (hr : AllRegistered specs acc) :
    scope.belongTo layout.componentBitSet=true ↔
      Carries {t | t∈layout.componentColDescriptors} acc := by
  have hside : ∀ {k : Access} {id : ℕ},id∈ComponentBitSet.ids (k.side scope) ↔
      ∃ t,(k,t)∈acc ∧ specs.indexOf t=some id := by
    intro k id
    rw [←ComponentBitSet.contains_iff,hd]
  rw [belongTo_iff,Selects,AccessScope.selector,Set.union_subset_iff]
  constructor
  · rintro ⟨⟨hread,hwrite⟩,hex⟩ ⟨k,t⟩ hm
    obtain ⟨id,hid⟩ := hr _ hm
    have hin : id∈ComponentBitSet.ids (k.side scope) := hside.mpr ⟨_,hm,hid⟩
    dsimp only at hid ⊢
    change t∈layout.componentColDescriptors ↔ _
    rw [←layout_ids h hid]
    cases k with
    | read => exact iff_of_true (hread hin) (by decide)
    | write => exact iff_of_true (hwrite hin) (by decide)
    | exclude => exact iff_of_false (fun hi => Set.disjoint_left.mp hex hi hin) fun hne => hne rfl
  · intro hmatch
    have hback : ∀ {k : Access} {id : ℕ},id∈ComponentBitSet.ids (k.side scope) →
        (id∈ComponentBitSet.ids layout.componentBitSet ↔ k≠.exclude) := by
      intro k id hin
      obtain ⟨t,ht,hid⟩ := hside.mp hin
      rw [layout_ids h hid]
      exact hmatch _ ht
    refine ⟨⟨fun id hin => (hback (k := .read) hin).mpr (by decide),
      fun id hin => (hback (k := .write) hin).mpr (by decide)⟩,Set.disjoint_left.mpr fun id hi hin => ?_⟩
    exact (hback (k := .exclude) hin).mp hi rfl

theorem matches_iff_carries {layout : ChunkLayout} : Matches q layout ↔
    Carries {t | t∈layout.componentColDescriptors} (storedAccesses (QueryShape.accesses q)) := by
  rw [Carries,storedAccesses,List.forall_mem_map]
  rfl

/-- A scope that describes a shape selects the archetypes that match it. -/
theorem belongTo_matches {specs : ComponentSpecs} {comps : List ComponentDescriptor}
    {layout : ChunkLayout} {scope : AccessScope} (h : layout.Of specs comps)
    (hd : Describes specs (storedAccesses (QueryShape.accesses q)) scope)
    (hr : AllRegistered specs (storedAccesses (QueryShape.accesses q))) :
    scope.belongTo layout.componentBitSet=true ↔ Matches q layout :=
  (belongTo_carries h hd hr).trans matches_iff_carries.symm

/-- The indices of the archetypes that match, once each and in order. -/
structure Exact (w : World V) (q : QueryShape Component) (idxs : List ℕ) : Prop where
  /-- Indices ascend, so that none comes twice. -/
  sorted : idxs.Pairwise (· < ·)
  /-- They are those of the archetypes that match. -/
  mem : ∀ i,i∈idxs ↔ ∃ spec : ArchetypeSpec V,w.archetypes.valueAt i=some spec ∧ Matches q spec.layout

/-- The spec of a shape is registered and up to date. -/
def Current (q : QueryShape Component) (w : World V) : Prop :=
  ∃ idx spec,w.queryCounter.indexOf q.shape=some idx ∧ w.queryCounter.valueAt idx=some spec ∧
    spec.version=w.globalArchetypeVersion.val

/-- The list of a current spec is exact. -/
theorem exact_of_current (h : CoreInv w) {idx : ℕ} {spec : QuerySpec}
    (hi : w.queryCounter.indexOf q.shape=some idx) (hv : w.queryCounter.valueAt idx=some spec)
    (hver : spec.version=w.globalArchetypeVersion.val) : Exact w q spec.archetypes := by
  obtain ⟨hd,hr,-,-,-,heq⟩ := h.queries.known idx q.shape spec
    (SequenceValueHashMap.keyAt_of_indexOf hi) hv
  rw [accesses_map] at hd hr
  rw [hver,RegistryInv.current h.registry,Nat.add_sub_cancel] at heq
  refine ⟨heq ▸ List.pairwise_lt_range.filter _,fun i => ?_⟩
  rw [heq,List.mem_filter,List.mem_range]
  constructor
  · rintro ⟨hlt,hb⟩
    obtain ⟨arch,ha⟩ := Option.isSome_iff_exists.mp (SequenceValueHashMap.valueAt_isSome.mpr hlt)
    obtain ⟨comps,hof⟩ := h.registry.layouts i arch ha
    rw [belongsAt,ha] at hb
    exact ⟨arch,ha,(belongTo_matches hof hd hr).mp hb⟩
  · rintro ⟨arch,ha,hm⟩
    obtain ⟨comps,hof⟩ := h.registry.layouts i arch ha
    refine ⟨SequenceValueHashMap.valueAt_isSome.mp (by rw [ha]; rfl),?_⟩
    rw [belongsAt,ha]
    exact (belongTo_matches hof hd hr).mpr hm

/-- `query_src_access` answers exactly for the current specs, with their lists. -/
theorem querySrcAccess_some {lastRunTick : ChangedTick} {accessor : QuerySpecAccessor} :
    querySrcAccess q lastRunTick w=some accessor ↔ ∃ idx spec,
      w.queryCounter.indexOf q.shape=some idx ∧ w.queryCounter.valueAt idx=some spec ∧
        spec.version=w.globalArchetypeVersion.val ∧ accessor=⟨idx,⟨lastRunTick,w.tick⟩⟩ := by
  unfold querySrcAccess
  cases hi : w.queryCounter.indexOf q.shape with
  | none => simp only [reduceCtorEq,false_and,exists_false]
  | some idx =>
    dsimp only
    cases hv : w.queryCounter.valueAt idx with
    | none =>
      simp only [reduceCtorEq,false_iff,not_exists,not_and]
      rintro idx' spec ⟨⟩ hs
      rw [hv] at hs
      cases hs
    | some spec =>
      dsimp only
      constructor
      · intro ha
        by_cases hver : spec.version=w.globalArchetypeVersion.val
        · rw [if_pos hver] at ha
          exact ⟨idx,spec,rfl,hv,hver,(Option.some.inj ha).symm⟩
        · rw [if_neg hver] at ha
          cases ha
      · rintro ⟨idx',spec',⟨⟩,hv',hver,rfl⟩
        rw [hv] at hv'
        cases hv'
        rw [if_pos hver]

theorem current_iff (lastRunTick : ChangedTick) :
    Current q w ↔ (querySrcAccess q lastRunTick w).isSome=true := by
  rw [Option.isSome_iff_exists]
  constructor
  · rintro ⟨idx,spec,hi,hv,hver⟩
    exact ⟨_,querySrcAccess_some.mpr ⟨idx,spec,hi,hv,hver,rfl⟩⟩
  · rintro ⟨accessor,ha⟩
    obtain ⟨idx,spec,hi,hv,hver,-⟩ := querySrcAccess_some.mp ha
    exact ⟨idx,spec,hi,hv,hver⟩

/-- The list behind an accessor is exact. -/
theorem accessor_exact (h : CoreInv w) {lastRunTick : ChangedTick} {accessor : QuerySpecAccessor}
    (ha : querySrcAccess q lastRunTick w=some accessor) :
    ∃ idxs,accessor.archIndices w=some idxs ∧ Exact w q idxs := by
  obtain ⟨idx,spec,hi,hv,hver,rfl⟩ := querySrcAccess_some.mp ha
  exact ⟨spec.archetypes,by rw [QuerySpecAccessor.archIndices,hv]; rfl,exact_of_current h hi hv hver⟩

end Exactness

section Preparing

/-- What decides whether specs are current. -/
def World.cached (w : World V) := (w.globalArchetypeVersion,w.queryCounter)

theorem Current.congr (h : Current q w) (hc : World.cached w'=World.cached w) : Current q w' := by
  have hg : w'.globalArchetypeVersion=w.globalArchetypeVersion := congrArg Prod.fst hc
  have hq : w'.queryCounter=w.queryCounter := congrArg Prod.snd hc
  unfold Current
  rw [hg,hq]
  exact h

/-- Registering components does not concern the specs. -/
theorem cached_onComponents {α : Type} (x : Faulting ComponentSpecs XynokEcsError α) :
    Fixes World.cached (onComponents x : Call V α) := by
  intro w
  unfold onComponents
  cases x w.componentCounter with
  | mk r specs => cases r <;> rfl

/-- A new spec leaves the current ones so. -/
theorem current_registerQuery {q' : QueryShape Component} (version : ℕ)
    (hn : w.queryCounter.indexOf q'.shape=none) (h : Current q w) :
    Current q (registerQuery q' version w).2 := by
  obtain ⟨idx,spec,hi,hv,hver⟩ := h
  unfold registerQuery
  have hc := cached_onComponents q'.accessScope w
  cases hr : onComponents q'.accessScope w with
  | mk r w₁ =>
    rw [hr] at hc
    have hg : w₁.globalArchetypeVersion=w.globalArchetypeVersion := congrArg Prod.fst hc
    have hq : w₁.queryCounter=w.queryCounter := congrArg Prod.snd hc
    cases r with
    | error e =>
      rw [bind_error hr]
      exact Current.congr ⟨idx,spec,hi,hv,hver⟩ hc
    | ok scope =>
      rw [bind_ok hr,getState_bind,modifyState_bind,pure_apply]
      rw [←hq] at hi hv hn
      rw [←hg] at hver
      have hlt := SequenceValueHashMap.indexOf_lt hi
      refine ⟨idx,spec,?_,?_,hver⟩
      · dsimp only
        rw [SequenceValueHashMap.insert_new hn,SequenceValueHashMap.indexOf_push,if_neg,hi]
        intro he
        rw [←he,hi] at hn
        cases hn
      · dsimp only
        rw [SequenceValueHashMap.insert_new hn,SequenceValueHashMap.valueAt_push,if_neg (by omega),hv]

theorem current_queryIndex {q' : QueryShape Component} (version : ℕ) (h : Current q w) :
    Current q (queryIndex q' version w).2 := by
  unfold queryIndex
  rw [getState_bind]
  cases hi : w.queryCounter.indexOf q'.shape with
  | some idx => exact h
  | none => exact current_registerQuery version hi h

/-- So does a refreshed one. -/
theorem current_refreshQuery {idx : ℕ} {spec : QuerySpec} (h : Current q w) :
    Current q (refreshQuery idx w.globalArchetypeVersion.val spec w).2 := by
  obtain ⟨j,spec',hi,hv,hver⟩ := h
  unfold refreshQuery
  rw [modifyState_apply]
  dsimp only
  by_cases hj : j=idx
  · subst hj
    refine ⟨j,{ spec with
      archetypes := buildArchetypeWhichContains w.archetypes spec.accessScope
      version := w.globalArchetypeVersion.val },?_,?_,rfl⟩
    · dsimp only
      rw [SequenceValueHashMap.indexOf_modifyAt,hi]
    · dsimp only
      rw [SequenceValueHashMap.valueAt_modifyAt,if_pos rfl,hv,Option.map_some]
  · refine ⟨j,spec',?_,?_,hver⟩
    · dsimp only
      rw [SequenceValueHashMap.indexOf_modifyAt,hi]
    · dsimp only
      rw [SequenceValueHashMap.valueAt_modifyAt,if_neg (Ne.symm hj),hv]

/-- The version of the registry is not that of the queries. -/
theorem version_queryIndex (q' : QueryShape Component) (version : ℕ) :
    Fixes World.globalArchetypeVersion (queryIndex q' version : Call V ℕ) := by
  refine Fixes.getState fun w => ?_
  cases w.queryCounter.indexOf q'.shape with
  | some idx => exact Fixes.pure idx
  | none =>
    have hfix : Fixes World.globalArchetypeVersion (onComponents q'.accessScope : Call V AccessScope) :=
      fun w => congrArg Prod.fst (cached_onComponents q'.accessScope w)
    refine Fixes.bind hfix fun scope => Fixes.getState fun w => ?_
    exact Fixes.bind (Fixes.modifyState fun _ => rfl) fun _ => Fixes.pure _

/-- Preparing a query leaves the current specs current. -/
theorem current_prepareQuery (q' : QueryShape Component) (h : Current q w) :
    Current q (prepareQuerySrcAccess q' w).2 := by
  have hver := version_queryIndex q' w.globalArchetypeVersion.val w
  unfold prepareQuerySrcAccess
  rw [getState_bind]
  refine holds_bind (current_queryIndex _ h) fun idx w₁ hr hidx => ?_
  rw [hr] at hver
  dsimp only at hver
  rw [getState_bind]
  cases hs : w₁.queryCounter.valueAt idx with
  | none => exact hidx
  | some spec =>
    dsimp only
    refine holds_bind (I:=Current q) ?_ fun _ _ _ hc => hc
    rw [←hver]
    unfold onlyIf
    split
    · exact current_refreshQuery hidx
    · exact hidx

/-- A query that was prepared is current, and so is every one that was. -/
theorem prepareQuery_current (h : CoreInv w) : wp (prepareQuerySrcAccess q)
    (fun _ w' => CoreInv w' ∧ Current q w' ∧ ∀ q',Current q' w → Current q' w')
    (fun _ w' => CoreInv w') w := by
  have hkeep : wp (prepareQuerySrcAccess q) (fun _ w' => ∀ q',Current q' w → Current q' w')
      (fun _ _ => True) w := by
    apply wp_intro
    · intro idx w' hr q' hc
      have hc' := current_prepareQuery q hc
      rw [hr] at hc'
      exact hc'
    · exact fun _ _ _ => trivial
  refine wp_mono (wp_and (prepareQuerySrcAccess_spec h.registry h.queries False.elim) hkeep) ?_ ?_
  · intro idx w' hq
    obtain ⟨⟨hq,hi,spec,hv,hver⟩,hall⟩ := hq
    exact ⟨⟨hq.registry,hq.queries⟩,⟨idx,spec,hi,hv,hver⟩,hall⟩
  · intro err w' hq
    exact ⟨hq.1.1.registry,hq.1.1.queries⟩

end Preparing

end XynokEcs.QueryMatches
