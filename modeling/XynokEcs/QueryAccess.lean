import XynokEcs.RegistrySteps

/-!
# What the access scope of a shape says

Folding a shape into bit sets of component ids loses nothing: each side of the
scope holds exactly the ids of the components the shape reads, writes or
excludes, and the fold is refused exactly when two places of the shape clash on
one component. Matching and conflicts are therefore questions about components.
-/

namespace XynokEcs.QueryAccess

open ComponentTypes SequenceValueMap ComponentBits ChunkLayouts FaultingState QueryShapes
  WorldState RegistrySteps

/-- How a shape touches a component. -/
inductive Access
  | read
  | write
  | exclude
deriving DecidableEq

/-- One side of a scope. -/
def Access.side : Access → AccessScope → ComponentBitSet
  | read => AccessScope.read
  | write => AccessScope.write
  | exclude => AccessScope.exclude

variable {C D : Type}

/-- How a column touches its component. -/
def QueryColumn.access : QueryColumn C → Access×C
  | .ref c => (.read,c)
  | .refMut c => (.write,c)

mutual

/-- The places of a shape, each with how it touches which component. -/
def QueryShape.accesses : QueryShape C → List (Access×C)
  | .column q => [QueryColumn.access q]
  | .entity => []
  | .filter _ q => [QueryColumn.access q]
  | .detail q => [QueryColumn.access q]
  | .without c => [(.exclude,c)]
  | .tuple elements => QueryShape.allAccesses elements

/-- The places of the elements of a tuple. -/
def QueryShape.allAccesses : List (QueryShape C) → List (Access×C)
  | [] => []
  | q::rest => QueryShape.accesses q++QueryShape.allAccesses rest

end

/-- The accesses of a shape to storage types. -/
def storedAccesses (acc : List (Access×Component)) : List (Access×StorageType) :=
  acc.map fun p => (p.1,p.2.storageType)

/-- Two places that would hand one component out mutably twice, or mutably next
to another access. -/
def Clash (a b : Access×StorageType) : Prop :=
  a.2=b.2 ∧ (a.1=.read ∧ b.1=.write ∨ a.1=.write ∧ b.1=.read ∨ a.1=.write ∧ b.1=.write)

instance (a b : Access×StorageType) : Decidable (Clash a b) := inferInstanceAs (Decidable (_ ∧ _))

/-- Clashing goes both ways. -/
theorem Clash.symm {a b : Access×StorageType} (h : Clash a b) : Clash b a := by
  obtain ⟨he,h1 | h1 | h1⟩ := h
  · exact ⟨he.symm,.inr (.inl h1.symm)⟩
  · exact ⟨he.symm,.inl h1.symm⟩
  · exact ⟨he.symm,.inr (.inr h1.symm)⟩

/-- No two places clash. -/
def Separate (acc : List (Access×StorageType)) : Prop := acc.Pairwise fun a b => ¬Clash a b

/-- The scope holds the ids of the components, each on its side. -/
def Describes (specs : ComponentSpecs) (acc : List (Access×StorageType)) (scope : AccessScope) :
    Prop :=
  ∀ (k : Access) (id : ℕ),(k.side scope).contains id=true ↔
    ∃ t,(k,t)∈acc ∧ specs.indexOf t=some id

/-- Every component is registered. -/
def AllRegistered (specs : ComponentSpecs) (acc : List (Access×StorageType)) : Prop :=
  ∀ p∈acc,∃ id,specs.indexOf p.2=some id

/-- The registry after some of the given components were registered. -/
def GrownBy (cs : List Component) (specs specs' : ComponentSpecs) : Prop :=
  ∃ used : List Component,(∀ c∈used,c∈cs) ∧
    specs'=(registerComponents (used.map Component.descriptor) specs).1

section Growth

variable {cs cs' : List Component} {specs specs' specs'' : ComponentSpecs}
  {acc acc' : List (Access×StorageType)} {scope scope' : AccessScope}

/-- Nothing need be registered. -/
theorem GrownBy.refl : GrownBy cs specs specs := ⟨[],fun _ h => absurd h List.not_mem_nil,rfl⟩

/-- Registering two lists is one after the other. -/
theorem registerComponents_append (a b : List ComponentDescriptor) (specs : ComponentSpecs) :
    (registerComponents (a++b) specs).1=(registerComponents b (registerComponents a specs).1).1 := by
  induction a generalizing specs with
  | nil => rfl
  | cons d a ih => exact ih _

/-- Registering goes on. -/
theorem GrownBy.trans (h : GrownBy cs specs specs') (h' : GrownBy cs specs' specs'') :
    GrownBy cs specs specs'' := by
  obtain ⟨u,hu,rfl⟩ := h
  obtain ⟨u',hu',rfl⟩ := h'
  refine ⟨u++u',?_,?_⟩
  · intro c hc
    rcases List.mem_append.mp hc with hc | hc
    · exact hu c hc
    · exact hu' c hc
  · rw [List.map_append,registerComponents_append]

/-- Components of a list are components of a longer one. -/
theorem GrownBy.mono (h : GrownBy cs specs specs') (hs : ∀ c∈cs,c∈cs') :
    GrownBy cs' specs specs' := by
  obtain ⟨u,hu,rfl⟩ := h
  exact ⟨u,fun c hc => hs c (hu c hc),rfl⟩

/-- Registering keeps the ids. -/
theorem GrownBy.indexOf (h : GrownBy cs specs specs') {t : StorageType} {i : ℕ}
    (hi : specs.indexOf t=some i) : specs'.indexOf t=some i := by
  obtain ⟨u,-,rfl⟩ := h
  exact (registerComponents_mono _ _).1 t i hi

/-- What is registered stays registered. -/
theorem AllRegistered.grow (h : AllRegistered specs acc) (hg : GrownBy cs specs specs') :
    AllRegistered specs' acc := by
  intro p hp
  obtain ⟨id,hi⟩ := h p hp
  exact ⟨id,hg.indexOf hi⟩

/-- Two lists that are registered are so together. -/
theorem AllRegistered.append (h : AllRegistered specs acc) (h' : AllRegistered specs acc') :
    AllRegistered specs (acc++acc') := by
  intro p hp
  rcases List.mem_append.mp hp with hp | hp
  · exact h p hp
  · exact h' p hp

/-- What a scope says of registered components stays true. -/
theorem Describes.grow (h : Describes specs acc scope) (hr : AllRegistered specs acc)
    (hi : ∀ t i,specs.indexOf t=some i → specs'.indexOf t=some i) :
    Describes specs' acc scope := by
  intro k id
  rw [h k id]
  constructor
  · rintro ⟨t,ht,hid⟩
    exact ⟨t,ht,hi t id hid⟩
  · rintro ⟨t,ht,hid⟩
    obtain ⟨j,hj⟩ := hr _ ht
    have := hi _ _ hj
    rw [hid] at this
    cases this
    exact ⟨t,ht,hj⟩

/-- The empty scope describes a shape that touches nothing. -/
theorem describes_none (specs : ComponentSpecs) : Describes specs [] AccessScope.none := by
  intro k id
  have hempty : (k.side AccessScope.none).contains id=false := by cases k <;> rfl
  rw [hempty]
  simp

/-- The union of two scopes describes both lists. -/
theorem Describes.union (h : Describes specs acc scope) (h' : Describes specs acc' scope') :
    Describes specs (acc++acc') ⟨scope.read.unionWith scope'.read,
      scope.write.unionWith scope'.write,scope.exclude.unionWith scope'.exclude⟩ := by
  intro k id
  have hside : (k.side ⟨scope.read.unionWith scope'.read,scope.write.unionWith scope'.write,
      scope.exclude.unionWith scope'.exclude⟩).contains id=
      ((k.side scope).contains id || (k.side scope').contains id) := by
    cases k <;> exact ComponentBitSet.contains_unionWith _ _ _
  rw [hside,Bool.or_eq_true,h k id,h' k id]
  simp only [List.mem_append,or_and_right,exists_or]

/-- Two sides meet exactly on a component both name. -/
theorem Describes.intersects (h : Describes specs acc scope) (h' : Describes specs acc' scope')
    (hr : AllRegistered specs acc) (k l : Access) :
    (k.side scope).intersects (l.side scope')=true ↔ ∃ t,(k,t)∈acc ∧ (l,t)∈acc' := by
  rw [ComponentBitSet.intersects_iff]
  constructor
  · rintro ⟨id,h1,h2⟩
    obtain ⟨t,ht,hi⟩ := (h k id).mp h1
    obtain ⟨u,hu,hj⟩ := (h' l id).mp h2
    rw [SequenceValueHashMap.indexOf_inj hi hj] at ht
    exact ⟨u,ht,hu⟩
  · rintro ⟨t,h1,h2⟩
    obtain ⟨id,hi⟩ := hr _ h1
    exact ⟨id,(h k id).mpr ⟨t,h1,hi⟩,(h' l id).mpr ⟨t,h2,hi⟩⟩

/-- Two scopes collide exactly when two of their places clash. -/
theorem collideWith_iff (h : Describes specs acc scope) (h' : Describes specs acc' scope')
    (hr : AllRegistered specs acc) :
    scope.collideWith scope'=true ↔ ∃ a∈acc,∃ b∈acc',Clash a b := by
  have hrw := h.intersects h' hr .read .write
  have hwr := h.intersects h' hr .write .read
  have hww := h.intersects h' hr .write .write
  simp only [Access.side] at hrw hwr hww
  rw [AccessScope.collideWith,Bool.or_eq_true,Bool.or_eq_true,hrw,hwr,hww]
  constructor
  · rintro ((⟨t,h1,h2⟩ | ⟨t,h1,h2⟩) | ⟨t,h1,h2⟩)
    · exact ⟨_,h1,_,h2,rfl,.inl ⟨rfl,rfl⟩⟩
    · exact ⟨_,h1,_,h2,rfl,.inr (.inl ⟨rfl,rfl⟩)⟩
    · exact ⟨_,h1,_,h2,rfl,.inr (.inr ⟨rfl,rfl⟩)⟩
  · rintro ⟨⟨k,t⟩,h1,⟨l,u⟩,h2,he,hk⟩
    dsimp only at he hk
    subst he
    rcases hk with ⟨rfl,rfl⟩ | ⟨rfl,rfl⟩ | ⟨rfl,rfl⟩
    · exact .inl (.inl ⟨t,h1,h2⟩)
    · exact .inl (.inr ⟨t,h1,h2⟩)
    · exact .inr ⟨t,h1,h2⟩

/-- One side excludes a component the other requires. -/
def KeptApart (acc acc' : List (Access×StorageType)) : Prop :=
  ∃ t,(.exclude,t)∈acc ∧ ((.read,t)∈acc' ∨ (.write,t)∈acc') ∨
    (.exclude,t)∈acc' ∧ ((.read,t)∈acc ∨ (.write,t)∈acc)

/-- Scopes keep archetypes apart just where the shapes do. -/
theorem disjointFrom_iff (h : Describes specs acc scope) (h' : Describes specs acc' scope')
    (hr : AllRegistered specs acc) (hr' : AllRegistered specs acc') :
    scope.matchesArchetypesDisjointFrom scope'=true ↔ KeptApart acc acc' := by
  have h1 := h.intersects h' hr .exclude .read
  have h2 := h.intersects h' hr .exclude .write
  have h3 := h'.intersects h hr' .exclude .read
  have h4 := h'.intersects h hr' .exclude .write
  simp only [Access.side] at h1 h2 h3 h4
  rw [AccessScope.matchesArchetypesDisjointFrom,Bool.or_eq_true,Bool.or_eq_true,Bool.or_eq_true,
    h1,h2,h3,h4,KeptApart]
  constructor
  · rintro (((⟨t,ha,hb⟩ | ⟨t,ha,hb⟩) | ⟨t,ha,hb⟩) | ⟨t,ha,hb⟩)
    · exact ⟨t,.inl ⟨ha,.inl hb⟩⟩
    · exact ⟨t,.inl ⟨ha,.inr hb⟩⟩
    · exact ⟨t,.inr ⟨ha,.inl hb⟩⟩
    · exact ⟨t,.inr ⟨ha,.inr hb⟩⟩
  · rintro ⟨t,⟨ha,hb | hb⟩ | ⟨ha,hb | hb⟩⟩
    · exact .inl (.inl (.inl ⟨t,ha,hb⟩))
    · exact .inl (.inl (.inr ⟨t,ha,hb⟩))
    · exact .inl (.inr ⟨t,ha,hb⟩)
    · exact .inr ⟨t,ha,hb⟩

end Growth

section Scopes

/-- What `access_scope` of a shape comes to, next to places that were folded in
before. -/
structure Folded (specs specs' : ComponentSpecs) (cs : List Component)
    (acc : List (Access×StorageType)) (scope : AccessScope) : Prop where
  /-- At most components of the shape were registered. -/
  grown : GrownBy cs specs specs'
  /-- The scope says what the places touch. -/
  describes : Describes specs' acc scope
  /-- All of their components have ids. -/
  registered : AllRegistered specs' acc
  /-- No two of the places clash. -/
  separate : Separate acc

/-- The components a list of places names. -/
def named (acc : List (Access×Component)) : List Component := acc.map Prod.snd

/-- Registering one component and putting its id on one side. -/
theorem componentIdFor_spec {α : Type} {specs : ComponentSpecs} {c : Component}
    {f : ℕ → Faulting ComponentSpecs XynokEcsError α} {Q : α → ComponentSpecs → Prop}
    {E : XynokEcsError → ComponentSpecs → Prop}
    (h : ∀ id specs',GrownBy [c] specs specs' → specs'.indexOf c.storageType=some id →
      wp (f id) Q E specs') : wp (componentIdFor c >>= f) Q E specs := by
  rw [wp_bind]
  refine h _ _ ⟨[c],fun _ hc => hc,rfl⟩ ?_
  exact SequenceValueHashMap.getOrInsertWith_index specs c.storageType c.descriptor

/-- The scope with one id on one side. -/
theorem folded_single {specs specs' : ComponentSpecs} {c : Component} {id : ℕ} (k : Access)
    (hg : GrownBy [c] specs specs') (hi : specs'.indexOf c.storageType=some id)
    {scope : AccessScope}
    (hs : ∀ l : Access,(l.side scope)=if l=k then ComponentBitSet.empty.insert id else .empty) :
    Folded specs specs' [c] [(k,c.storageType)] scope where
  grown := hg
  describes := by
    intro l j
    rw [hs l]
    by_cases hl : l=k
    · rw [if_pos hl,hl,ComponentBitSet.contains_insert]
      simp only [ComponentBitSet.contains_empty,Bool.or_false,List.mem_singleton,Prod.mk.injEq,
        true_and,exists_eq_left,hi,Option.some.injEq,decide_eq_true_eq]
      exact eq_comm
    · rw [if_neg hl]
      simp [hl]
  registered := by
    intro p hp
    rw [List.mem_singleton] at hp
    exact ⟨id,by rw [hp]; exact hi⟩
  separate := List.pairwise_singleton _ _

variable {specs : ComponentSpecs}

/-- The result of folding a shape: a scope that says what the shape does, or a
refusal because two places clash. -/
def FoldsTo (specs : ComponentSpecs) (acc : List (Access×Component))
    (x : Faulting ComponentSpecs XynokEcsError AccessScope) : Prop :=
  wp x (fun scope specs' => Folded specs specs' (named acc) (storedAccesses acc) scope)
    (fun err specs' => GrownBy (named acc) specs specs' ∧ err=.queryAccessScopeConflict ∧
      ¬Separate (storedAccesses acc)) specs

/-- The scope of a column says how it is touched. -/
theorem QueryColumn.accessScope_spec (q : QueryColumn Component) :
    FoldsTo specs [QueryColumn.access q] q.accessScope := by
  cases q with
  | ref c =>
    refine componentIdFor_spec fun id specs' hg hi => folded_single .read hg hi ?_
    intro l
    cases l <;> rfl
  | refMut c =>
    refine componentIdFor_spec fun id specs' hg hi => folded_single .write hg hi ?_
    intro l
    cases l <;> rfl

/-- Places are stored list by list. -/
theorem storedAccesses_append (a b : List (Access×Component)) :
    storedAccesses (a++b)=storedAccesses a++storedAccesses b := List.map_append

mutual

/-- `access_scope` says what the shape reads, writes and excludes, and refuses
exactly a shape that clashes with itself. -/
theorem QueryShape.accessScope_spec (q : QueryShape Component) (specs : ComponentSpecs) :
    FoldsTo specs (QueryShape.accesses q) q.accessScope := by
  cases q with
  | column q =>
    rw [QueryShape.accesses,QueryShape.accessScope]
    exact QueryColumn.accessScope_spec q
  | entity =>
    rw [QueryShape.accesses,QueryShape.accessScope]
    exact ⟨GrownBy.refl,describes_none specs,fun _ hp => absurd hp List.not_mem_nil,
      List.Pairwise.nil⟩
  | filter kind q =>
    rw [QueryShape.accesses,QueryShape.accessScope]
    exact QueryColumn.accessScope_spec q
  | detail q =>
    rw [QueryShape.accesses,QueryShape.accessScope]
    exact QueryColumn.accessScope_spec q
  | without c =>
    rw [QueryShape.accesses,QueryShape.accessScope]
    refine componentIdFor_spec fun id specs' hg hi => folded_single .exclude hg hi ?_
    intro l
    cases l <;> rfl
  | tuple elements =>
    rw [QueryShape.accesses,QueryShape.accessScope]
    exact QueryShape.extendAll_spec elements [] ⟨GrownBy.refl,describes_none specs,
      fun _ hp => absurd hp List.not_mem_nil,List.Pairwise.nil⟩

/-- Folding the elements of a tuple into the scope of what came before. -/
theorem QueryShape.extendAll_spec (elements : List (QueryShape Component))
    (before : List (Access×Component)) {specs₀ specs : ComponentSpecs} {scope : AccessScope}
    (h : Folded specs₀ specs (named before) (storedAccesses before) scope) :
    wp (QueryShape.extendAll elements scope)
      (fun scope specs' => Folded specs₀ specs' (named (before++QueryShape.allAccesses elements))
        (storedAccesses (before++QueryShape.allAccesses elements)) scope)
      (fun err specs' => GrownBy (named (before++QueryShape.allAccesses elements)) specs₀ specs' ∧
        err=.queryAccessScopeConflict ∧
        ¬Separate (storedAccesses (before++QueryShape.allAccesses elements))) specs := by
  cases elements with
  | nil =>
    rw [QueryShape.allAccesses,QueryShape.extendAll,List.append_nil]
    exact h
  | cons q rest =>
    rw [QueryShape.allAccesses,QueryShape.extendAll,wp_bind]
    have hleft : ∀ c∈named before,
        c∈named (before++(QueryShape.accesses q++QueryShape.allAccesses rest)) := by
      intro c hc
      rw [named,List.map_append]
      exact List.mem_append_left _ hc
    have hmid : ∀ c∈named (QueryShape.accesses q),
        c∈named (before++(QueryShape.accesses q++QueryShape.allAccesses rest)) := by
      intro c hc
      rw [named,List.map_append,List.map_append]
      exact List.mem_append_right _ (List.mem_append_left _ hc)
    refine wp_mono (QueryShape.accessScope_spec q specs) ?_ ?_
    · intro other specs₁ hq
      have hd := h.describes.grow h.registered (fun t i hi => hq.grown.indexOf hi)
      have hr := h.registered.grow hq.grown
      have hg := (h.grown.mono hleft).trans (hq.grown.mono hmid)
      rw [AccessScope.extend]
      split
      · rename_i hcol
        obtain ⟨a,ha,b,hb,hab⟩ := (collideWith_iff hd hq.describes hr).mp hcol
        refine ⟨hg,rfl,?_⟩
        intro hsep
        rw [storedAccesses_append,storedAccesses_append] at hsep
        refine (List.pairwise_append.mp hsep).2.2 a ha b (List.mem_append_left _ hb) hab
      · rename_i hcol
        change wp (QueryShape.extendAll rest _) _ _ specs₁
        rw [←List.append_assoc] at hg ⊢
        refine QueryShape.extendAll_spec rest (before++QueryShape.accesses q)
          ⟨?_,?_,?_,?_⟩
        · refine (h.grown.mono ?_).trans (hq.grown.mono ?_)
          · intro c hc
            rw [named,List.map_append]
            exact List.mem_append_left _ hc
          · intro c hc
            rw [named,List.map_append]
            exact List.mem_append_right _ hc
        · rw [storedAccesses_append]
          exact hd.union hq.describes
        · rw [storedAccesses_append]
          exact hr.append hq.registered
        · rw [storedAccesses_append,Separate,List.pairwise_append]
          refine ⟨h.separate,hq.separate,fun a ha b hb hab => hcol ?_⟩
          exact (collideWith_iff hd hq.describes hr).mpr ⟨a,ha,b,hb,hab⟩
    · rintro err specs₁ ⟨hg,rfl,hn⟩
      refine ⟨(h.grown.mono hleft).trans (hg.mono hmid),rfl,?_⟩
      intro hsep
      rw [storedAccesses_append,storedAccesses_append] at hsep
      exact hn (List.pairwise_append.mp (List.pairwise_append.mp hsep).2.1).1

end

end Scopes

end XynokEcs.QueryAccess
