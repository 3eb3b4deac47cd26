import Mathlib

/-!
# Component types, archetype types and the errors that name them

A storage type stands for its own `TypeId`: it fixes one size, one alignment
and the state flags of its component implementation. A component type is one
declared by the component macro, one written by hand, or the `Enable` or
`Disable` wrapper of another. An archetype type is a component or a nonempty
tuple of components, and a bundle is a value of one.
-/

namespace XynokEcs.ComponentTypes

/-- Which per-row state a component keeps. -/
inductive StateDetection
  | none
  | enableAble
  | changeAble
  | enableAbleAndChangeAble
deriving DecidableEq, Repr

/-- `EnableAble | EnableAbleAndChangeAble`. -/
def StateDetection.needsEnable : StateDetection → Bool
  | .enableAble => true
  | .enableAbleAndChangeAble => true
  | _ => false

/-- `ChangeAble | EnableAbleAndChangeAble`. -/
def StateDetection.needsChange : StateDetection → Bool
  | .changeAble => true
  | .enableAbleAndChangeAble => true
  | _ => false

/-- `TMutPolicy`: what a mutable query hands out for a row. -/
inductive MutPolicy
  /-- `TrackChanges`: a `Mut`, which stamps the row when it is written. -/
  | trackChanges
  /-- `NoTracking`: the plain reference. -/
  | noTracking
deriving DecidableEq, Repr

/-- A type components are stored as. The compiler gives it one id, a power of
two as alignment and a size that is a multiple of it, zero included. -/
structure StorageType where
  /-- Which type this is. -/
  id : ℕ
  /-- `size_of` the type. -/
  byteSize : ℕ
  /-- `align_of` the type. -/
  align : ℕ
  /-- `STATE_DETECTION` of the type's own component implementation. -/
  stateDetection : StateDetection
  /-- Alignments are powers of two. -/
  align_pow : ∃ k,align=2^k
  /-- Elements of an array of the type stay aligned. -/
  size_aligned : align ∣ byteSize
deriving DecidableEq

/-- A type implementing `TComponent`. -/
inductive Component
  /-- Declared by the component macro: stored and queried as itself. -/
  | declared (t : StorageType)
  /-- An implementation written by hand, free in all its constants. -/
  | handWritten (id queryType : ℕ) (t : StorageType) (policy : MutPolicy) (state : StateDetection)
    (enable : Bool)
  /-- `Enable<T>`. -/
  | enable (c : Component)
  /-- `Disable<T>`. -/
  | disable (c : Component)
deriving DecidableEq

namespace Component

/-- `StorageType`; the wrappers pass their component's own. -/
def storageType : Component → StorageType
  | declared t => t
  | handWritten _ _ t _ _ _ => t
  | enable c => c.storageType
  | disable c => c.storageType

/-- The id of `QueryType`, printed by errors. -/
def queryType : Component → ℕ
  | declared t => t.id
  | handWritten _ q _ _ _ _ => q
  | enable c => c.queryType
  | disable c => c.queryType

/-- `STATE_DETECTION`; the wrappers pass their component's own. -/
def stateDetection : Component → StateDetection
  | declared t => t.stateDetection
  | handWritten _ _ _ _ s _ => s
  | enable c => c.stateDetection
  | disable c => c.stateDetection

/-- `MutPolicy`. The macro fills it in from the flags, the wrappers pass their
component's own. -/
def mutPolicy : Component → MutPolicy
  | declared t => if t.stateDetection.needsChange then .trackChanges else .noTracking
  | handWritten _ _ _ m _ _ => m
  | enable c => c.mutPolicy
  | disable c => c.mutPolicy

/-- `ENABLE_VALUE`: the state the enable bit starts with. -/
def enableValue : Component → Bool
  | declared _ => true
  | handWritten _ _ _ _ _ b => b
  | enable _ => true
  | disable _ => false

/-- Declared with the component macro, plain or wrapped. -/
def isDeclared : Component → Bool
  | declared _ => true
  | handWritten _ _ _ _ _ _ => false
  | enable c => c.isDeclared
  | disable c => c.isDeclared

/-- A declared component keeps exactly the state its storage type declares. -/
theorem stateDetection_of_isDeclared {c : Component} (h : c.isDeclared=true) :
    c.stateDetection=c.storageType.stateDetection := by
  induction c with
  | declared t => rfl
  | handWritten id q t m s b => cases h
  | enable c ih => exact ih h
  | disable c ih => exact ih h

/-- A declared component is handed out as a `Mut` exactly when its storage type
asks for change detection. -/
theorem mutPolicy_of_isDeclared {c : Component} (h : c.isDeclared=true) :
    c.mutPolicy=.trackChanges ↔ c.storageType.stateDetection.needsChange=true := by
  induction c with
  | declared t =>
    unfold mutPolicy storageType
    split
    · exact iff_of_true rfl ‹_›
    · exact iff_of_false MutPolicy.noConfusion ‹_›
  | handWritten id q t m s b => cases h
  | enable c ih => exact ih h
  | disable c ih => exact ih h

end Component

/-- `COMPONENT_DESCRIPTOR` of a component. Its name, size, alignment and drop
glue are those of the storage type. -/
structure ComponentDescriptor where
  /-- The storage type, which carries size and alignment. -/
  storageTypeId : StorageType
  /-- The flags of the component the descriptor was taken from. -/
  stateDetection : StateDetection
deriving DecidableEq

/-- `size_of::<StorageType>()`. -/
def ComponentDescriptor.byteSize (d : ComponentDescriptor) : ℕ := d.storageTypeId.byteSize

/-- `align_of::<StorageType>()`. -/
def ComponentDescriptor.align (d : ComponentDescriptor) : ℕ := d.storageTypeId.align

/-- The descriptor every component type carries as a constant. -/
def Component.descriptor (c : Component) : ComponentDescriptor :=
  ⟨c.storageType,c.stateDetection⟩

/-- A type implementing `TArchetype`: a component or a tuple of them. -/
inductive TArchetype
  | single (c : Component)
  | tuple (first : Component) (rest : List Component)
deriving DecidableEq

/-- The components of an archetype type in the order it names them. -/
def TArchetype.components : TArchetype → List Component
  | .single c => [c]
  | .tuple c cs => c::cs

/-- `COMPONENT_DESCRIPTORS`. -/
def TArchetype.descriptors (T : TArchetype) : List ComponentDescriptor :=
  T.components.map Component.descriptor

/-- `STORAGE_TYPE_IDS`. -/
def TArchetype.storageTypes (T : TArchetype) : List StorageType :=
  T.components.map Component.storageType

/-- Every component of the archetype type comes from the macro. -/
def TArchetype.isDeclared (T : TArchetype) : Bool := T.components.all Component.isDeclared

/-- No archetype type is empty. -/
theorem TArchetype.components_ne_nil (T : TArchetype) : T.components≠[] := by
  cases T <;> simp only [components,ne_eq,List.cons_ne_nil,not_false_eq_true]

/-- The descriptors name the storage types in the same order. -/
@[simp] theorem TArchetype.descriptors_storage (T : TArchetype) :
    T.descriptors.map ComponentDescriptor.storageTypeId=T.storageTypes := by
  simp only [descriptors,storageTypes,List.map_map]
  rfl

/-- A value of an archetype type: each component next to its value. -/
inductive Bundle (V : Type)
  | single (c : Component) (v : V)
  | tuple (first : Component×V) (rest : List (Component×V))
deriving DecidableEq

variable {V : Type}

/-- The archetype type of a bundle. -/
def Bundle.ty : Bundle V → TArchetype
  | .single c _ => .single c
  | .tuple p ps => .tuple p.1 (ps.map Prod.fst)

/-- The components of a bundle with their values. -/
def Bundle.items : Bundle V → List (Component×V)
  | .single c v => [(c,v)]
  | .tuple p ps => p::ps

/-- The items of a bundle follow the components of its type. -/
@[simp] theorem Bundle.items_fst (b : Bundle V) : b.items.map Prod.fst=b.ty.components := by
  cases b <;> rfl

/-- What dropping a bundle drops: every value, under its storage type. -/
def Bundle.drops (b : Bundle V) : List (StorageType×V) :=
  b.items.map fun p => (p.1.storageType,p.2)

/-- The storage types of a bundle are those of its type. -/
theorem Bundle.drops_fst (b : Bundle V) : b.drops.map Prod.fst=b.ty.storageTypes := by
  rw [TArchetype.storageTypes,←b.items_fst]
  simp only [drops,List.map_map]
  rfl

/-- How an archetype is printed: the name of the type that created it, or the
tuple of its storage types when a structure change derived it. -/
inductive ArchetypeName
  | typeName (T : TArchetype)
  | fromComponents (ts : List StorageType)
deriving DecidableEq

/-- The errors of the crate. A printed type name is given by the type. -/
inductive XynokEcsError
  | entityAmountOverflow (max : ℕ)
  | entityVersionOverflow (idx max : ℕ)
  | archetypeIsTooLarge
  | invalidChunkSize (size word : ℕ)
  | archetypeAlreadyCreatedWithDifferentChunkSize (T : TArchetype) (current asked : ℕ)
  | archetypeAlreadyCreatedWithDifferentStructureChange (T : TArchetype) (current asked : Bool)
  | structureChangeNotAllowed (idx version : ℕ) (T : TArchetype)
  | componentAlreadyExists (idx version : ℕ) (T : TArchetype)
  | componentNotFound (idx version : ℕ) (T : TArchetype)
  | singletonAlreadyExists (name : ArchetypeName)
  | archetypeIsNotSingleton (name : ArchetypeName)
  | archetypeIsSingleton (name : ArchetypeName)
  | chunkLayoutAllocation (size align : ℕ)
  | chunkDoesNotContainComponent (queryType : ℕ) (storage : StorageType)
  | idxIsOutOfChunkLen (idx len : ℕ)
  | chunkIdxIsNotInRange (idx len : ℕ)
  | componentSpecIsNotRegistered
  | duplicateComponentInArchetype (t : StorageType)
  | queryAccessScopeConflict
  | systemAccessScopeConflict
  | parallelGroupConflict (a b : ℕ)
  | systemSpecIsNotRegistered (name : ℕ)
  | componentStateNotAvailable (t : StorageType) (state : String)
  | entityDoesNotExist (idx version : ℕ)
  | querySpecVanishedAfterPrepared
  | singletonArchetypeIsNotRegistered (T : TArchetype)
  | singletonEntityIsNotSpawned (T : TArchetype)
  | preAllocateEntityAmountMustGreaterThanZero
  | workerSpecIsNotCreated
deriving DecidableEq

/-- The panics the modelled functions can raise. -/
inductive Panic
  /-- `panic!("{}", e)`. -/
  | display (e : XynokEcsError)
  | registerArchetypeFailed (T : TArchetype) (e : XynokEcsError)
  | registerSingletonFailed (T : TArchetype) (e : XynokEcsError)
  | createSingletonFailed (T : TArchetype) (e : XynokEcsError)
  | createArchetypeFailed (T : TArchetype) (e : XynokEcsError)
  /-- `Swapped {e} not found to update indices !`. -/
  | swappedNotFound (idx version : ℕ)
  /-- `unwrap` on `None`, or on the error of `get_disjoint_mut`. -/
  | unwrapFailed
  | archetypeNotFound (archId : ℕ)
  | unregisteredComponent (archId : ℕ)
  /-- `WORKER[{id}]: {e}`, raised while a queued command is applied. -/
  | worker (thread : ℕ) (e : XynokEcsError)
  | queryIndexVanished (idx : ℕ)
  | archetypeIndexMissing (idx : ℕ)
  /-- A matched archetype lacks a column the shape needs. -/
  | columnMissing (t : StorageType)
  /-- A matched archetype's column lacks a state region the shape needs. -/
  | stateRegionMissing (t : StorageType)
  | batchAmountTooSmall (amount : ℕ)
  /-- A vector that cannot grow any more. -/
  | capacityOverflow
  | queryNotPrepared
  /-- An index past the end of a slice. -/
  | indexOutOfBounds (idx len : ℕ)
deriving DecidableEq

/-- How a modelled function leaves other than by returning: with an error, with
a panic, or by an access the source performs without a bounds check. -/
inductive Fault
  | err (e : XynokEcsError)
  | panic (p : Panic)
  | undefinedBehaviour
deriving DecidableEq

end XynokEcs.ComponentTypes
