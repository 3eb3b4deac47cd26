import XynokEcs.ComponentBits
import XynokEcs.ChunkLayouts
import XynokEcs.FaultingState

/-!
# Query shapes and what they access

A shape is a column, the entity handle, a state filter over a column, a detail
column, an exclusion, or a tuple of shapes. It folds into one access scope: the
components read, written and excluded. Two scopes conflict when they can meet
on a row and one writes what the other touches.
-/

namespace XynokEcs.QueryShapes

open ComponentTypes ComponentBits SequenceValueMap ChunkLayouts FaultingState

/-- A plain column, `&T` or `&mut T`. -/
inductive QueryColumn (C : Type)
  | ref (c : C)
  | refMut (c : C)
deriving DecidableEq

/-- The component of a column. -/
def QueryColumn.component {C : Type} : QueryColumn C → C
  | ref c => c
  | refMut c => c

/-- The filters on a state of a row. -/
inductive FilterKind
  | added
  | changed
  | enabled
  | disabled
deriving DecidableEq

/-- A query parameter over components named by `C`. -/
inductive QueryShape (C : Type)
  | column (q : QueryColumn C)
  /-- `&Entity`. -/
  | entity
  /-- `Added<Q>`, `Changed<Q>`, `Enabled<Q>`, `Disabled<Q>`. -/
  | filter (kind : FilterKind) (q : QueryColumn C)
  /-- `Detail<Q>`. -/
  | detail (q : QueryColumn C)
  /-- `Without<T>`. -/
  | without (c : C)
  | tuple (elements : List (QueryShape C))

variable {C D : Type}

/-- Rename the component of a column. -/
def QueryColumn.map (f : C → D) : QueryColumn C → QueryColumn D
  | ref c => .ref (f c)
  | refMut c => .refMut (f c)

mutual

/-- Rename the components of a shape. -/
def QueryShape.map (f : C → D) : QueryShape C → QueryShape D
  | .column q => .column (q.map f)
  | .entity => .entity
  | .filter kind q => .filter kind (q.map f)
  | .detail q => .detail (q.map f)
  | .without c => .without (f c)
  | .tuple elements => .tuple (QueryShape.mapAll f elements)

/-- Rename the components of the elements of a tuple. -/
def QueryShape.mapAll (f : C → D) : List (QueryShape C) → List (QueryShape D)
  | [] => []
  | q::rest => q.map f::QueryShape.mapAll f rest

end

/-- `TQueryParam::Shape`, whose type id keys the query registry: components are
replaced by their storage types. -/
def QueryShape.shape (q : QueryShape Component) : QueryShape StorageType :=
  q.map Component.storageType

section Equality

variable [DecidableEq C]

mutual

/-- Equality of shapes. -/
def QueryShape.beq : QueryShape C → QueryShape C → Bool
  | .column p,.column q => p=q
  | .entity,.entity => true
  | .filter k p,.filter l q => k=l ∧ p=q
  | .detail p,.detail q => p=q
  | .without c,.without d => c=d
  | .tuple ps,.tuple qs => QueryShape.beqAll ps qs
  | _,_ => false

/-- Equality of the elements of tuples. -/
def QueryShape.beqAll : List (QueryShape C) → List (QueryShape C) → Bool
  | [],[] => true
  | p::ps,q::qs => QueryShape.beq p q && QueryShape.beqAll ps qs
  | _,_ => false

end

mutual

theorem QueryShape.beq_iff (p q : QueryShape C) : QueryShape.beq p q=true ↔ p=q := by
  cases p with
  | tuple ps => cases q with
    | tuple qs =>
      rw [QueryShape.beq,QueryShape.beqAll_iff ps qs]
      exact ⟨congrArg _,QueryShape.tuple.inj⟩
    | _ => simp [QueryShape.beq]
  | column p => cases q <;> simp [QueryShape.beq]
  | entity => cases q <;> simp [QueryShape.beq]
  | filter k p => cases q <;> simp [QueryShape.beq]
  | detail p => cases q <;> simp [QueryShape.beq]
  | without c => cases q <;> simp [QueryShape.beq]

theorem QueryShape.beqAll_iff (ps qs : List (QueryShape C)) :
    QueryShape.beqAll ps qs=true ↔ ps=qs := by
  cases ps with
  | nil => cases qs <;> simp [QueryShape.beqAll]
  | cons p ps => cases qs with
    | nil => simp [QueryShape.beqAll]
    | cons q qs =>
      rw [QueryShape.beqAll,Bool.and_eq_true,QueryShape.beq_iff p q,QueryShape.beqAll_iff ps qs,
        List.cons.injEq]

end

instance : DecidableEq (QueryShape C) := fun p q => decidable_of_iff _ (QueryShape.beq_iff p q)

end Equality

/-- What one query touches, and how. -/
structure AccessScope where
  /-- What is read. -/
  read : ComponentBitSet
  /-- What is written. -/
  write : ComponentBitSet
  /-- What an archetype must not have. -/
  exclude : ComponentBitSet
deriving DecidableEq

namespace AccessScope

/-- `AccessScope::default`. -/
def none : AccessScope := ⟨.empty,.empty,.empty⟩

/-- One side writes what the other reads or writes. -/
def collideWith (s other : AccessScope) : Bool :=
  s.read.intersects other.write || s.write.intersects other.read ||
    s.write.intersects other.write

/-- One side excludes what the other requires. -/
def matchesArchetypesDisjointFrom (s other : AccessScope) : Bool :=
  s.exclude.intersects other.read || s.exclude.intersects other.write ||
    other.exclude.intersects s.read || other.exclude.intersects s.write

/-- The two can reach the same row through incompatible access. -/
def conflictsWith (s other : AccessScope) : Bool :=
  !s.matchesArchetypesDisjointFrom other && s.collideWith other

/-- Fold another element of the same query in. -/
def extend (s other : AccessScope) : Except XynokEcsError AccessScope :=
  if s.collideWith other then .error .queryAccessScopeConflict
  else .ok ⟨s.read.unionWith other.read,s.write.unionWith other.write,
    s.exclude.unionWith other.exclude⟩

/-- Whether an archetype with these components is one the scope iterates. -/
def belongTo (s : AccessScope) (arch : ComponentBitSet) : Bool :=
  arch.containsAll s.read && arch.containsAll s.write && !arch.intersects s.exclude

end AccessScope

/-- `component_id_for`: the registry index of a component, registering it when
the world has not seen it yet. -/
def componentIdFor (c : Component) : Faulting ComponentSpecs XynokEcsError ℕ := fun specs =>
  let r := specs.getOrInsertWith c.storageType c.descriptor
  (.ok r.2,r.1)

/-- The scope of a column. -/
def QueryColumn.accessScope : QueryColumn Component →
    Faulting ComponentSpecs XynokEcsError AccessScope
  | .ref c => do
    let id ← componentIdFor c
    return { AccessScope.none with read := ComponentBitSet.empty.insert id }
  | .refMut c => do
    let id ← componentIdFor c
    return { AccessScope.none with write := ComponentBitSet.empty.insert id }

mutual

/-- `TQueryParam::access_scope`. -/
def QueryShape.accessScope : QueryShape Component →
    Faulting ComponentSpecs XynokEcsError AccessScope
  | .column q => q.accessScope
  | .entity => return AccessScope.none
  | .filter _ q => q.accessScope
  | .detail q => q.accessScope
  | .without c => do
    let id ← componentIdFor c
    return { AccessScope.none with exclude := ComponentBitSet.empty.insert id }
  | .tuple elements => QueryShape.extendAll elements AccessScope.none

/-- The elements of a tuple, each folded into the scope of those before it. -/
def QueryShape.extendAll : List (QueryShape Component) → AccessScope →
    Faulting ComponentSpecs XynokEcsError AccessScope
  | [],scope => return scope
  | q::rest,scope => do
    let other ← q.accessScope
    let scope ← ofExcept (scope.extend other)
    QueryShape.extendAll rest scope

end

mutual

/-- `EXCLUDE_ONLY`: the shape names no column to walk. -/
def QueryShape.excludeOnly : QueryShape C → Bool
  | .without _ => true
  | .tuple elements => QueryShape.allExcludeOnly elements
  | _ => false

/-- Every element of a tuple is exclude-only. -/
def QueryShape.allExcludeOnly : List (QueryShape C) → Bool
  | [] => true
  | q::rest => q.excludeOnly && QueryShape.allExcludeOnly rest

end

end XynokEcs.QueryShapes
