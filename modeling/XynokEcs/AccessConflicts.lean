import XynokEcs.ComponentIds
import XynokEcs.QueryShapes

/-!
# When two access scopes conflict

A scope selects the component sets that hold what it requires and nothing it
excludes. Two such selections meet exactly at the union of what they require, so
four intersections decide whether any archetype feeds both scopes, and the
conflict check rejects no safe pair.
-/

namespace XynokEcs.AccessConflicts

open ComponentBits ComponentIds QueryShapes

section Selectors

variable {α : Type*} {s t : Set α×Set α} {x : Set α}

/-- A set holds everything required and nothing excluded. -/
def Selects (s : Set α×Set α) (x : Set α) : Prop := s.1 ⊆ x ∧ Disjoint x s.2

/-- A selection that does not rule itself out. -/
def Consistent (s : Set α×Set α) : Prop := Disjoint s.1 s.2

/-- What is excluded stays out of every smaller set that has what is required. -/
theorem Selects.mono {y : Set α} (h : Selects s y) (hx : s.1 ⊆ x) (hxy : x ⊆ y) : Selects s x :=
  ⟨hx,h.2.mono_left hxy⟩

/-- Two selections that meet anywhere meet at the union of their requirements. -/
theorem meet_union (hs : Selects s x) (ht : Selects t x) :
    Selects s (s.1 ∪ t.1) ∧ Selects t (s.1 ∪ t.1) := by
  have hle : s.1 ∪ t.1 ⊆ x := Set.union_subset hs.1 ht.1
  exact ⟨hs.mono Set.subset_union_left hle,ht.mono Set.subset_union_right hle⟩

/-- They meet there exactly when neither excludes what the other requires. -/
theorem meet_union_iff (hs : Consistent s) (ht : Consistent t) :
    (Selects s (s.1 ∪ t.1) ∧ Selects t (s.1 ∪ t.1)) ↔ Disjoint t.1 s.2 ∧ Disjoint s.1 t.2 := by
  constructor
  · rintro ⟨h1,h2⟩
    exact ⟨h1.2.mono_left Set.subset_union_right,h2.2.mono_left Set.subset_union_left⟩
  · rintro ⟨h1,h2⟩
    exact ⟨⟨Set.subset_union_left,Set.disjoint_union_left.mpr ⟨hs,h1⟩⟩,
      ⟨Set.subset_union_right,Set.disjoint_union_left.mpr ⟨h2,ht⟩⟩⟩

end Selectors

section Scopes

variable {a b : AccessScope} {arch : ComponentBitSet}

/-- What a scope requires and what it excludes, as sets of ids. -/
def AccessScope.selector (a : AccessScope) : Set ℕ×Set ℕ :=
  (ComponentBitSet.ids a.read ∪ ComponentBitSet.ids a.write,ComponentBitSet.ids a.exclude)

/-- A scope that does not exclude what it reads or writes. -/
def AccessScope.Consistent (a : AccessScope) : Prop :=
  ∀ id,a.exclude.contains id=true → a.read.contains id=false ∧ a.write.contains id=false

theorem consistent_selector (h : AccessScope.Consistent a) :
    AccessConflicts.Consistent (AccessScope.selector a) := by
  refine Set.disjoint_left.mpr fun id hid hex => ?_
  obtain ⟨hr,hw⟩ := h id ((ComponentBitSet.contains_iff _ _).mpr hex)
  obtain hid | hid := hid
  · rw [←ComponentBitSet.contains_iff,hr] at hid
    cases hid
  · rw [←ComponentBitSet.contains_iff,hw] at hid
    cases hid

/-- `belong_to` is selection. -/
theorem belongTo_iff (a : AccessScope) (arch : ComponentBitSet) :
    a.belongTo arch=true ↔ Selects (AccessScope.selector a) (ComponentBitSet.ids arch) := by
  rw [AccessScope.belongTo,Bool.and_eq_true,Bool.and_eq_true,ComponentBitSet.intersects,Bool.not_not,
    ComponentBitSet.containsAll_iff_ids,ComponentBitSet.containsAll_iff_ids,
    ComponentBitSet.isDisjoint_iff_ids,Selects,AccessScope.selector,Set.union_subset_iff]

/-- One of the scopes writes a component that the other reads or writes. -/
def CollideOn (a b : AccessScope) (id : ℕ) : Prop :=
  a.write.contains id=true ∧ (b.read.contains id=true ∨ b.write.contains id=true) ∨
    b.write.contains id=true ∧ (a.read.contains id=true ∨ a.write.contains id=true)

theorem CollideOn.symm {id : ℕ} (h : CollideOn a b id) : CollideOn b a id := Or.symm h

theorem collideWith_iff (a b : AccessScope) : a.collideWith b=true ↔ ∃ id,CollideOn a b id := by
  rw [AccessScope.collideWith,Bool.or_eq_true,Bool.or_eq_true,ComponentBitSet.intersects_iff,
    ComponentBitSet.intersects_iff,ComponentBitSet.intersects_iff]
  constructor
  · rintro ((⟨id,h1,h2⟩ | ⟨id,h1,h2⟩) | ⟨id,h1,h2⟩)
    · exact ⟨id,.inr ⟨h2,.inl h1⟩⟩
    · exact ⟨id,.inl ⟨h1,.inl h2⟩⟩
    · exact ⟨id,.inl ⟨h1,.inr h2⟩⟩
  · rintro ⟨id,⟨h1,h2 | h2⟩ | ⟨h1,h2 | h2⟩⟩
    · exact .inl (.inr ⟨id,h1,h2⟩)
    · exact .inr ⟨id,h1,h2⟩
    · exact .inl (.inl ⟨id,h2,h1⟩)
    · exact .inr ⟨id,h2,h1⟩

/-- The four intersections ask whether one side excludes what the other requires. -/
theorem disjointFrom_iff (a b : AccessScope) : a.matchesArchetypesDisjointFrom b=false ↔
    Disjoint (AccessScope.selector b).1 (AccessScope.selector a).2 ∧
      Disjoint (AccessScope.selector a).1 (AccessScope.selector b).2 := by
  have hneg : ∀ x y : ComponentBitSet,
      x.intersects y=false ↔ Disjoint (ComponentBitSet.ids y) (ComponentBitSet.ids x) := by
    intro x y
    rw [ComponentBitSet.intersects,Bool.not_eq_false',ComponentBitSet.isDisjoint_iff_ids]
    exact disjoint_comm
  rw [AccessScope.matchesArchetypesDisjointFrom,Bool.or_eq_false_iff,Bool.or_eq_false_iff,
    Bool.or_eq_false_iff,hneg,hneg,hneg,hneg,AccessScope.selector,AccessScope.selector,
    Set.disjoint_union_left,Set.disjoint_union_left,and_assoc]

/-- Some archetype feeds both scopes. -/
theorem feedsBoth_iff (ha : AccessScope.Consistent a) (hb : AccessScope.Consistent b) :
    (∃ arch : ComponentBitSet,a.belongTo arch=true ∧ b.belongTo arch=true) ↔
      a.matchesArchetypesDisjointFrom b=false := by
  rw [disjointFrom_iff,←meet_union_iff (consistent_selector ha) (consistent_selector hb)]
  constructor
  · rintro ⟨arch,h1,h2⟩
    exact meet_union ((belongTo_iff a arch).mp h1) ((belongTo_iff b arch).mp h2)
  · intro h
    obtain ⟨arch,hids⟩ : ∃ arch,ComponentBitSet.ids arch=
        (AccessScope.selector a).1 ∪ (AccessScope.selector b).1 := by
      refine ⟨(a.read.unionWith a.write).unionWith (b.read.unionWith b.write),?_⟩
      rw [ComponentBitSet.ids_unionWith,ComponentBitSet.ids_unionWith,ComponentBitSet.ids_unionWith]
      rfl
    refine ⟨arch,(belongTo_iff a arch).mpr ?_,(belongTo_iff b arch).mpr ?_⟩
    · exact hids ▸ h.1
    · exact hids ▸ h.2

/-- A collision lies on every archetype that feeds both. -/
theorem CollideOn.carried {id : ℕ} (h : CollideOn a b id) (ha : a.belongTo arch=true)
    (hb : b.belongTo arch=true) : arch.contains id=true := by
  have ha := ((belongTo_iff a arch).mp ha).1
  rw [ComponentBitSet.contains_iff]
  obtain ⟨hw,-⟩ | ⟨hw,-⟩ := h
  · exact ha (.inr ((ComponentBitSet.contains_iff _ _).mp hw))
  · exact ((belongTo_iff b arch).mp hb).1 (.inr ((ComponentBitSet.contains_iff _ _).mp hw))

theorem conflictsWith_comm (a b : AccessScope) : a.conflictsWith b=b.conflictsWith a := by
  have hcollide : a.collideWith b=b.collideWith a := by
    rw [Bool.eq_iff_iff,collideWith_iff,collideWith_iff]
    exact exists_congr fun id => ⟨CollideOn.symm,CollideOn.symm⟩
  have hapart : a.matchesArchetypesDisjointFrom b=b.matchesArchetypesDisjointFrom a := by
    rw [←Bool.not_inj_iff,Bool.eq_iff_iff,Bool.not_eq_true',Bool.not_eq_true',disjointFrom_iff,
      disjointFrom_iff]
    exact and_comm
  rw [AccessScope.conflictsWith,AccessScope.conflictsWith,hcollide,hapart]

/-- The conflict check says whether some archetype feeds both scopes and carries a
component one of them writes and the other reads or writes. -/
theorem conflictsWith_iff (ha : AccessScope.Consistent a) (hb : AccessScope.Consistent b) :
    (a.conflictsWith b=true ↔ ∃ arch : ComponentBitSet,a.belongTo arch=true ∧ b.belongTo arch=true ∧
      ∃ id,arch.contains id=true ∧ CollideOn a b id) ∧
    a.conflictsWith b=b.conflictsWith a := by
  refine ⟨?_,conflictsWith_comm a b⟩
  rw [AccessScope.conflictsWith,Bool.and_eq_true,Bool.not_eq_true',←feedsBoth_iff ha hb,
    collideWith_iff]
  constructor
  · rintro ⟨⟨arch,h1,h2⟩,id,hid⟩
    exact ⟨arch,h1,h2,id,hid.carried h1 h2,hid⟩
  · rintro ⟨arch,h1,h2,id,-,hid⟩
    exact ⟨⟨arch,h1,h2⟩,id,hid⟩

/-- A writer of component 70 and a reader of it that stays clear of component 1. -/
theorem conflictsWith_iff_wide :
    let a : AccessScope := ⟨.empty,ComponentBitSet.empty.insert 70,.empty⟩
    let b : AccessScope := ⟨ComponentBitSet.empty.insert 70,.empty,ComponentBitSet.empty.insert 1⟩
    (a.conflictsWith b=true ↔ ∃ arch : ComponentBitSet,a.belongTo arch=true ∧ b.belongTo arch=true ∧
      ∃ id,arch.contains id=true ∧ CollideOn a b id) ∧
    a.conflictsWith b=b.conflictsWith a := by
  intro a b
  refine conflictsWith_iff (fun id hid => ?_) fun id hid => ?_
  · rw [ComponentBitSet.contains_empty] at hid
    cases hid
  · rw [ComponentBitSet.contains_insert,ComponentBitSet.contains_empty,Bool.or_false,
      decide_eq_true_eq] at hid
    subst hid
    exact ⟨rfl,rfl⟩

end Scopes

end XynokEcs.AccessConflicts
