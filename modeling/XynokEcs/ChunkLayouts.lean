import XynokEcs.ComponentTypes
import XynokEcs.ComponentBits
import XynokEcs.SequenceValueMap

/-!
# Chunk layouts

The header keeps the state regions of every component and the entity handles,
the columns follow it. A layout for a given number of rows either fits the
chunk size or is refused; the largest row count that fits is found by binary
search below an estimate. A singleton layout probes one row first and then
sizes its chunk to that row.
-/

namespace XynokEcs.ChunkLayouts

open ComponentTypes ComponentBits SequenceValueMap

/-- `DEFAULT_CHUNK_SIZE_IN_BYTE`. -/
def defaultChunkSizeInByte : ℕ := 16*1024

/-- `BITS_PER_BYTE`. -/
def bitsPerByte : ℕ := 8

/-- `CPU_WORD`, the size of a `u64`. -/
def cpuWord : ℕ := 8

/-- `CHANGED_TICK_BYTE_SIZE`, the size of a `u32`. -/
def changedTickByteSize : ℕ := 4

/-- `Entity::BYTE_SIZE`. -/
def entityByteSize : ℕ := 8

/-- `Entity::ALIGN`. -/
def entityAlign : ℕ := 8

/-- The number of values of a `usize`. -/
def usizeRange : ℕ := 2^64

/-- `isize::MAX`. -/
def isizeMax : ℕ := 2^63-1

/-- Round up to a multiple of a power of two: `(offset + align - 1) & !(align - 1)`. -/
def alignUp (offset align : ℕ) : ℕ :=
  let x := offset+align-1
  x-(x &&& (align-1))

/-- `div_ceil`. -/
def divCeil (a b : ℕ) : ℕ := (a+b-1)/b

/-- `checked_mul` on `usize`. -/
def checkedMul (a b : ℕ) : Option ℕ := if a*b<usizeRange then some (a*b) else none

/-- `checked_add` on `usize`. -/
def checkedAdd (a b : ℕ) : Option ℕ := if a+b<usizeRange then some (a+b) else none

/-- `saturating_mul` on `usize`. -/
def saturatingMul (a b : ℕ) : ℕ := min (a*b) (usizeRange-1)

/-- `saturating_add` on `usize`. -/
def saturatingAdd (a b : ℕ) : ℕ := min (a+b) (usizeRange-1)

/-- `ArchetypeCfg`, what a regular archetype is registered with. -/
structure ArchetypeCfg where
  /-- Bytes allocated per chunk. -/
  chunkSizeInByte : ℕ
  /-- Whether entities may enter or leave by a structure change. -/
  allowStructureChange : Bool
deriving DecidableEq

/-- A chunk size is a positive multiple of the word. -/
def ArchetypeCfg.validate (cfg : ArchetypeCfg) : Except XynokEcsError Unit :=
  if cfg.chunkSizeInByte=0 ∨ cfg.chunkSizeInByte%cpuWord≠0
  then .error (.invalidChunkSize cfg.chunkSizeInByte cpuWord)
  else .ok ()

/-- Where the state regions of one component start, for those it keeps. -/
structure StateOffset where
  /-- Where the enable bits start. -/
  enableOffset : Option ℕ
  /-- Where the ticks of insertion start. -/
  addedOffset : Option ℕ
  /-- Where the ticks of the last change start. -/
  changedOffset : Option ℕ
deriving DecidableEq

/-- Where a component's column and state regions start. -/
structure ColumnDescriptor where
  /-- Where the values start. -/
  offset : ℕ
  /-- Where the states start. -/
  stateOffset : StateOffset
deriving DecidableEq

/-- A column with everything needed to touch it; its drop glue is the one of
the storage type. -/
structure ColumnEntry where
  /-- The type the column stores. -/
  storageTypeId : StorageType
  /-- Where the values start. -/
  offset : ℕ
  /-- How many bytes a value takes. -/
  byteSize : ℕ
  /-- Where the states start. -/
  stateOffset : StateOffset
deriving DecidableEq

/-- Where the handles start and how long the header is. -/
structure Header where
  /-- Where the handles start. -/
  entitiesOffset : ℕ
  /-- How many bytes come before the columns. -/
  size : ℕ
deriving DecidableEq

/-- The state regions of one component placed at `offset`, and where the next
component's regions start. -/
def Header.regions (maxEntities offset : ℕ) (e : ComponentDescriptor) : StateOffset×ℕ :=
  let enable := if e.stateDetection.needsEnable
    then (some offset,alignUp (offset+alignUp (divCeil maxEntities bitsPerByte) cpuWord) cpuWord)
    else (none,offset)
  if e.stateDetection.needsChange then
    let tickBytes := alignUp (maxEntities*changedTickByteSize) cpuWord
    let changed := alignUp (enable.2+tickBytes) cpuWord
    (⟨enable.1,some enable.2,some changed⟩,alignUp (changed+tickBytes) cpuWord)
  else (⟨enable.1,none,none⟩,enable.2)

/-- The state regions of every component, one after the other. -/
def Header.states (maxEntities : ℕ) :
    List ComponentDescriptor → ℕ → HashMap StorageType StateOffset →
      ℕ×HashMap StorageType StateOffset
  | [],offset,dst => (offset,dst)
  | e::rest,offset,dst =>
    let region := Header.regions maxEntities offset e
    Header.states maxEntities rest region.2 (dst.insert e.storageTypeId region.1)

/-- `Header::new`: the header, and the state offsets it filled in. -/
def Header.new (maxEntities : ℕ) (components : List ComponentDescriptor) :
    Header×HashMap StorageType StateOffset :=
  let states := Header.states maxEntities components 0 ∅
  let entitiesOffset := alignUp states.1 entityAlign
  let entitiesSize := maxEntities*entityByteSize
  (⟨entitiesOffset,alignUp (entitiesOffset+entitiesSize) cpuWord⟩,states.2)

/-- `std::alloc::Layout`. -/
structure AllocLayout where
  /-- How many bytes to allocate. -/
  size : ℕ
  /-- What their address is a multiple of. -/
  align : ℕ
deriving DecidableEq

/-- `Layout::from_size_align` for an alignment that is a power of two. -/
def AllocLayout.fromSizeAlign (size align : ℕ) : Except XynokEcsError AllocLayout :=
  if size>isizeMax+1-align then .error (.chunkLayoutAllocation size align) else .ok ⟨size,align⟩

/-- Everything about how the chunks of one archetype are laid out. -/
structure ChunkLayout where
  /-- How many rows a chunk holds. -/
  maxLen : ℕ
  /-- The part of a chunk before the columns. -/
  header : Header
  /-- How a chunk is allocated. -/
  allocLayout : AllocLayout
  /-- The registry ids of the columns. -/
  componentBitSet : ComponentBitSet
  /-- The columns by storage type. -/
  componentColDescriptors : HashMap StorageType ColumnDescriptor
  /-- The same columns in the order of the archetype's components. -/
  columns : List ColumnEntry

/-- `chunk_size_in_byte`. -/
def ChunkLayout.chunkSizeInByte (l : ChunkLayout) : ℕ := l.allocLayout.size

/-- The registry of components, keyed by storage type. -/
abbrev ComponentSpecs := SequenceValueHashMap StorageType ComponentDescriptor

/-- The bit set of an archetype's components. A component named twice finds its
bit set already, an unregistered one has no bit. -/
def buildComponentBitSet (specs : ComponentSpecs) :
    List ComponentDescriptor → ComponentBitSet → Except XynokEcsError ComponentBitSet
  | [],dst => .ok dst
  | des::rest,dst =>
    match specs.indexOf des.storageTypeId with
    | some id =>
      if dst.contains id then .error (.duplicateComponentInArchetype des.storageTypeId)
      else buildComponentBitSet specs rest (dst.insert id)
    | none => .error .componentSpecIsNotRegistered

/-- What `try_layout` accumulates while it places the columns. -/
structure LayoutCursor where
  /-- The first byte not yet taken. -/
  cursor : ℕ
  /-- The largest alignment met so far. -/
  maxAlign : ℕ
  /-- The state offsets of the components not placed yet. -/
  stateOffsets : HashMap StorageType StateOffset
  /-- The columns placed so far, by storage type. -/
  descriptors : HashMap StorageType ColumnDescriptor
  /-- The columns placed so far, in order. -/
  columns : List ColumnEntry

/-- Place one column: align the cursor, take the component's state offsets and
move past the column, unless it ends behind the chunk. -/
def layoutColumn (maxEntities chunkSize : ℕ) (st : LayoutCursor) (des : ComponentDescriptor) :
    Except XynokEcsError LayoutCursor :=
  let cursor := alignUp st.cursor des.align
  if cursor>chunkSize then .error .archetypeIsTooLarge
  else match st.stateOffsets.lookup des.storageTypeId with
    | none => .error (.duplicateComponentInArchetype des.storageTypeId)
    | some stateOffset =>
      match checkedMul des.byteSize maxEntities with
      | none => .error .archetypeIsTooLarge
      | some columnBytes =>
        match checkedAdd cursor columnBytes with
        | none => .error .archetypeIsTooLarge
        | some next =>
          if next>chunkSize then .error .archetypeIsTooLarge
          else .ok {
            cursor := next
            maxAlign := max st.maxAlign des.align
            stateOffsets := st.stateOffsets.erase des.storageTypeId
            descriptors := st.descriptors.insert des.storageTypeId ⟨cursor,stateOffset⟩
            columns := st.columns++[⟨des.storageTypeId,cursor,des.byteSize,stateOffset⟩] }

/-- Place the columns in the order of the components. -/
def layoutColumns (maxEntities chunkSize : ℕ) :
    List ComponentDescriptor → LayoutCursor → Except XynokEcsError LayoutCursor
  | [],st => .ok st
  | des::rest,st =>
    match layoutColumn maxEntities chunkSize st des with
    | .ok next => layoutColumns maxEntities chunkSize rest next
    | .error e => .error e

/-- `try_layout`: the layout for `maxEntities` rows in a chunk of a given size. -/
def tryLayout (maxEntities chunkSize : ℕ) (components : List ComponentDescriptor)
    (bits : ComponentBitSet) : Except XynokEcsError ChunkLayout :=
  let header := Header.new maxEntities components
  match layoutColumns maxEntities chunkSize components ⟨header.1.size,cpuWord,header.2,∅,[]⟩ with
  | .error e => .error e
  | .ok st =>
    match AllocLayout.fromSizeAlign chunkSize st.maxAlign with
    | .error e => .error e
    | .ok alloc => .ok ⟨maxEntities,header.1,alloc,bits,st.descriptors,st.columns⟩

/-- `estimate_max_entities`: an upper bound on the rows a chunk can hold. -/
def estimateMaxEntities (components : List ComponentDescriptor) (chunkSize : ℕ) : ℕ :=
  let bitsPerEntity := components.foldl (fun bits des =>
    let bits := saturatingAdd bits (saturatingMul des.byteSize bitsPerByte)
    let bits := if des.stateDetection.needsEnable then saturatingAdd bits 1 else bits
    if des.stateDetection.needsChange
    then saturatingAdd bits (saturatingMul (saturatingMul changedTickByteSize 2) bitsPerByte)
    else bits) (saturatingMul entityByteSize bitsPerByte)
  if bitsPerEntity=0 then 0 else saturatingMul chunkSize bitsPerByte/bitsPerEntity

/-- The binary search of `compute_layout` between `low` and `upper`. The fuel
bounds its rounds; every round shrinks the interval. -/
def searchLayout (chunkSize : ℕ) (components : List ComponentDescriptor) (bits : ComponentBitSet) :
    ℕ → ℕ → ℕ → Option ChunkLayout → Except XynokEcsError (Option ChunkLayout)
  | 0,_,_,best => .ok best
  | fuel+1,low,upper,best =>
    if low≤upper then
      let mid := low+(upper-low)/2
      match tryLayout mid chunkSize components bits with
      | .ok layout => searchLayout chunkSize components bits fuel (mid+1) upper (some layout)
      | .error .archetypeIsTooLarge => searchLayout chunkSize components bits fuel low (mid-1) best
      | .error e => .error e
    else .ok best

/-- `compute_layout`: the layout with the most rows that fits the chunk. -/
def computeLayout (specs : ComponentSpecs) (components : List ComponentDescriptor)
    (chunkSize : ℕ) : Except XynokEcsError ChunkLayout :=
  match buildComponentBitSet specs components .empty with
  | .error e => .error e
  | .ok bits =>
    let upper := estimateMaxEntities components chunkSize
    match searchLayout chunkSize components bits (upper+1) 1 upper none with
    | .error e => .error e
    | .ok none => .error .archetypeIsTooLarge
    | .ok (some layout) => .ok layout

/-- `ChunkLayout::new`. -/
def ChunkLayout.new (specs : ComponentSpecs) (components : List ComponentDescriptor)
    (chunkSize : ℕ) : Except XynokEcsError ChunkLayout := computeLayout specs components chunkSize

/-- `ChunkLayout::new_fitted`: probe one row, then fit the chunk to it. -/
def ChunkLayout.newFitted (specs : ComponentSpecs) (components : List ComponentDescriptor) :
    Except XynokEcsError ChunkLayout :=
  match buildComponentBitSet specs components .empty with
  | .error e => .error e
  | .ok bits =>
    match tryLayout 1 (isizeMax/2) components bits with
    | .error e => .error e
    | .ok probe =>
      let used := (probe.columns.map (fun c => c.offset+c.byteSize)).foldl max probe.header.size
      tryLayout 1 (alignUp (max used 1) probe.allocLayout.align) components bits

/-- The state regions of a column are those its component asked for. -/
structure StateOffset.Matches (o : StateOffset) (s : StateDetection) : Prop where
  /-- Enable bits for an enableable component, and for no other. -/
  enable : o.enableOffset.isSome=s.needsEnable
  /-- Ticks of insertion for a tracked component, and for no other. -/
  added : o.addedOffset.isSome=s.needsChange
  /-- Ticks of change for a tracked component, and for no other. -/
  changed : o.changedOffset.isSome=s.needsChange

/-- What every layout built for a list of components satisfies. -/
structure ChunkLayout.Of (specs : ComponentSpecs) (components : List ComponentDescriptor)
    (l : ChunkLayout) : Prop where
  /-- One column for each component, in order. -/
  columns_types : l.columns.map ColumnEntry.storageTypeId=
    components.map ComponentDescriptor.storageTypeId
  /-- No storage type comes twice. -/
  nodup : (components.map ComponentDescriptor.storageTypeId).Nodup
  /-- A column is found by its storage type. -/
  lookup_column : ∀ col∈l.columns,
    l.componentColDescriptors.lookup col.storageTypeId=some ⟨col.offset,col.stateOffset⟩
  /-- Nothing else is found. -/
  mem_keys : ∀ s,s∈l.componentColDescriptors ↔ s∈components.map ComponentDescriptor.storageTypeId
  /-- A column has the states that its component keeps. -/
  state_matches : ∀ des∈components,∀ d,
    l.componentColDescriptors.lookup des.storageTypeId=some d →
      d.stateOffset.Matches des.stateDetection
  /-- There is room for a row. -/
  maxLen_pos : 0<l.maxLen
  /-- Every component has an id. -/
  registered : ∀ des∈components,(specs.indexOf des.storageTypeId).isSome
  /-- The bit set names those ids. -/
  bits : ∀ i,l.componentBitSet.contains i=true ↔
    ∃ des∈components,specs.indexOf des.storageTypeId=some i

/-- Every region the header places is one its component asked for. -/
theorem Header.regions_matches (n offset : ℕ) (e : ComponentDescriptor) :
    (Header.regions n offset e).1.Matches e.stateDetection := by
  unfold Header.regions
  cases he : e.stateDetection.needsEnable <;> cases hc : e.stateDetection.needsChange <;>
    exact ⟨by simp [he],by simp [hc],by simp [hc]⟩

/-- The header fills in one entry for every component, with its own regions. -/
theorem Header.states_lookup {n : ℕ} {components : List ComponentDescriptor}
    (hn : (components.map ComponentDescriptor.storageTypeId).Nodup) (offset : ℕ)
    (dst : HashMap StorageType StateOffset) :
    (∀ des∈components,∃ o,
      (Header.states n components offset dst).2.lookup des.storageTypeId=some o ∧
        o.Matches des.stateDetection) ∧
    ∀ s,s∉components.map ComponentDescriptor.storageTypeId →
      (Header.states n components offset dst).2.lookup s=dst.lookup s := by
  induction components generalizing offset dst with
  | nil => exact ⟨fun des h => absurd h List.not_mem_nil,fun _ _ => rfl⟩
  | cons e rest ih =>
    rw [List.map_cons,List.nodup_cons] at hn
    have hr := ih hn.2 (Header.regions n offset e).2
      (dst.insert e.storageTypeId (Header.regions n offset e).1)
    simp only [Header.states]
    constructor
    · intro des hd
      rcases List.mem_cons.mp hd with rfl | hd
      · refine ⟨_,?_,Header.regions_matches n offset des⟩
        rw [hr.2 _ hn.1,AList.lookup_insert]
      · exact hr.1 des hd
    · intro s hs
      rw [List.map_cons,List.mem_cons,not_or] at hs
      rw [hr.2 s hs.2,AList.lookup_insert_ne hs.1]

/-- What placing one column leaves behind. -/
theorem layoutColumn_ok {n size : ℕ} {st next : LayoutCursor} {des : ComponentDescriptor}
    (h : layoutColumn n size st des=.ok next) : ∃ o offset,
      st.stateOffsets.lookup des.storageTypeId=some o ∧
      next.stateOffsets=st.stateOffsets.erase des.storageTypeId ∧
      next.descriptors=st.descriptors.insert des.storageTypeId ⟨offset,o⟩ ∧
      next.columns=st.columns++[⟨des.storageTypeId,offset,des.byteSize,o⟩] := by
  unfold layoutColumn at h
  dsimp only at h
  split at h
  · cases h
  · split at h
    · cases h
    · rename_i o ho
      split at h
      · cases h
      · split at h
        · cases h
        · split at h
          · cases h
          · cases h
            exact ⟨o,_,ho,rfl,rfl,rfl⟩

/-- Placing the columns adds one per component, in order, each with the state
offsets recorded for its component. -/
theorem layoutColumns_ok {n size : ℕ} {components : List ComponentDescriptor}
    {st out : LayoutCursor} (h : layoutColumns n size components st=.ok out)
    (hn : (components.map ComponentDescriptor.storageTypeId).Nodup)
    (hcol : ∀ col∈st.columns,
      st.descriptors.lookup col.storageTypeId=some ⟨col.offset,col.stateOffset⟩)
    (hdis : ∀ s∈components.map ComponentDescriptor.storageTypeId,
      s∉st.columns.map ColumnEntry.storageTypeId) :
    out.columns.map ColumnEntry.storageTypeId=st.columns.map ColumnEntry.storageTypeId++
      components.map ComponentDescriptor.storageTypeId ∧
    (∀ col∈out.columns,
      out.descriptors.lookup col.storageTypeId=some ⟨col.offset,col.stateOffset⟩) ∧
    (∀ s,s∈out.descriptors ↔
      s∈st.descriptors ∨ s∈components.map ComponentDescriptor.storageTypeId) ∧
    (∀ des∈components,∀ d,out.descriptors.lookup des.storageTypeId=some d →
      st.stateOffsets.lookup des.storageTypeId=some d.stateOffset) ∧
    ∀ s,s∉components.map ComponentDescriptor.storageTypeId →
      out.descriptors.lookup s=st.descriptors.lookup s := by
  induction components generalizing st with
  | nil =>
    cases h
    simp only [List.map_nil,List.append_nil,List.not_mem_nil,or_false,implies_true,
      false_implies,and_true,true_and]
    exact hcol
  | cons des rest ih =>
    unfold layoutColumns at h
    split at h
    · rename_i next hnext
      obtain ⟨o,offset,hlook,herase,hins,hcols⟩ := layoutColumn_ok hnext
      rw [List.map_cons,List.nodup_cons] at hn
      have hnotin := hdis des.storageTypeId (by simp only [List.map_cons,List.mem_cons,true_or])
      have hcol' : ∀ col∈next.columns,
          next.descriptors.lookup col.storageTypeId=some ⟨col.offset,col.stateOffset⟩ := by
        rw [hcols,hins]
        intro col hc
        rcases List.mem_append.mp hc with hc | hc
        · rw [AList.lookup_insert_ne]
          · exact hcol col hc
          · intro he
            exact hnotin (he ▸ List.mem_map_of_mem hc)
        · rw [List.mem_singleton] at hc
          subst hc
          exact AList.lookup_insert _
      have hdis' : ∀ s∈rest.map ComponentDescriptor.storageTypeId,
          s∉next.columns.map ColumnEntry.storageTypeId := by
        rw [hcols]
        intro s hs hc
        rw [List.map_append,List.mem_append,List.map_singleton,List.mem_singleton] at hc
        rcases hc with hc | rfl
        · exact hdis s (by simp only [List.map_cons,List.mem_cons,hs,or_true]) hc
        · exact hn.1 hs
      obtain ⟨h1,h2,h3,h4,h5⟩ := ih h hn.2 hcol' hdis'
      refine ⟨?_,h2,?_,?_,?_⟩
      · rw [h1,hcols,List.map_append,List.map_singleton,List.map_cons,List.append_assoc]
        rfl
      · intro s
        rw [h3,hins,AList.mem_insert,List.map_cons,List.mem_cons]
        tauto
      · intro d hd c hc
        rcases List.mem_cons.mp hd with rfl | hd
        · rw [h5 _ hn.1,hins,AList.lookup_insert] at hc
          cases hc
          exact hlook
        · have hne : d.storageTypeId≠des.storageTypeId := by
            intro he
            exact hn.1 (he ▸ List.mem_map_of_mem hd)
          have := h4 d hd c hc
          rwa [herase,AList.lookup_erase_ne hne] at this
      · intro s hs
        rw [List.map_cons,List.mem_cons,not_or] at hs
        rw [h5 s hs.2,hins,AList.lookup_insert_ne hs.1]
    · cases h

/-- Building the bit set succeeds only on distinct registered components, and
then holds their ids next to those it started from. -/
theorem buildComponentBitSet_ok {specs : ComponentSpecs} {components : List ComponentDescriptor}
    {dst out : ComponentBitSet} (h : buildComponentBitSet specs components dst=.ok out) :
    (components.map ComponentDescriptor.storageTypeId).Nodup ∧
    (∀ des∈components,∀ i,specs.indexOf des.storageTypeId=some i → dst.contains i=false) ∧
    (∀ des∈components,(specs.indexOf des.storageTypeId).isSome) ∧
    ∀ i,out.contains i=true ↔ dst.contains i=true ∨
      ∃ des∈components,specs.indexOf des.storageTypeId=some i := by
  induction components generalizing dst with
  | nil =>
    cases h
    simp
  | cons des rest ih =>
    unfold buildComponentBitSet at h
    split at h
    · rename_i id hid
      split at h
      · cases h
      · rename_i hc
        rw [Bool.not_eq_true] at hc
        obtain ⟨hnd,hfresh,hreg,hout⟩ := ih h
        refine ⟨?_,?_,?_,?_⟩
        · rw [List.map_cons,List.nodup_cons]
          refine ⟨?_,hnd⟩
          intro hm
          obtain ⟨d,hd,he⟩ := List.mem_map.mp hm
          have := hfresh d hd id (he ▸ hid)
          simp at this
        · intro d hd i hi
          rcases List.mem_cons.mp hd with rfl | hd
          · rw [hid] at hi
            cases hi
            exact hc
          · have := hfresh d hd i hi
            simp only [ComponentBitSet.contains_insert,Bool.or_eq_false_iff] at this
            exact this.2
        · intro d hd
          rcases List.mem_cons.mp hd with rfl | hd
          · rw [hid]
            rfl
          · exact hreg d hd
        · intro i
          rw [hout,ComponentBitSet.contains_insert,Bool.or_eq_true,decide_eq_true_eq,
            List.exists_mem_cons_iff,hid]
          constructor
          · rintro ((rfl | h) | h)
            · exact .inr (.inl rfl)
            · exact .inl h
            · exact .inr (.inr h)
          · rintro (h | h | h)
            · exact .inl (.inr h)
            · cases h
              exact .inl (.inl rfl)
            · exact .inr h
    · cases h

/-- A layout that fits satisfies the common specification. -/
theorem tryLayout_of {specs : ComponentSpecs} {components : List ComponentDescriptor}
    {bits : ComponentBitSet} {n size : ℕ} {l : ChunkLayout}
    (hbits : buildComponentBitSet specs components .empty=.ok bits)
    (h : tryLayout n size components bits=.ok l) (hn : 0<n) : l.Of specs components ∧ l.maxLen=n := by
  obtain ⟨hnd,-,hreg,hout⟩ := buildComponentBitSet_ok hbits
  unfold tryLayout at h
  dsimp only at h
  split at h
  · cases h
  · rename_i st hst
    split at h
    · cases h
    · cases h
      obtain ⟨h1,h2,h3,h4,-⟩ := layoutColumns_ok hst hnd
        (fun col hc => absurd hc List.not_mem_nil) (fun s _ => by simp only [List.map_nil,List.not_mem_nil,not_false_eq_true])
      have hstates := (Header.states_lookup (n:=n) hnd 0 ∅).1
      refine ⟨⟨h1,hnd,h2,?_,?_,hn,hreg,?_⟩,rfl⟩
      · intro s
        rw [h3]
        simp only [AList.notMem_empty,false_or]
      · intro des hd d hl
        obtain ⟨o,ho,hm⟩ := hstates des hd
        have := h4 des hd d hl
        change (Header.states n components 0 ∅).2.lookup des.storageTypeId=_ at this
        rw [ho] at this
        cases this
        exact hm
      · intro i
        rw [hout]
        simp only [ComponentBitSet.contains_empty,Bool.false_eq_true,false_or]

/-- The search only ever keeps layouts that satisfy the specification. -/
theorem searchLayout_of {specs : ComponentSpecs} {components : List ComponentDescriptor}
    {bits : ComponentBitSet} {size : ℕ}
    (hbits : buildComponentBitSet specs components .empty=.ok bits)
    {fuel low upper : ℕ} {best out : Option ChunkLayout}
    (h : searchLayout size components bits fuel low upper best=.ok out) (hlow : 0<low)
    (hbest : ∀ l∈best,l.Of specs components) : ∀ l∈out,l.Of specs components := by
  induction fuel generalizing low upper best with
  | zero =>
    cases h
    exact hbest
  | succ fuel ih =>
    unfold searchLayout at h
    split at h
    · dsimp only at h
      split at h
      · rename_i layout hl
        refine ih h (by omega) ?_
        rintro l ⟨⟩
        exact (tryLayout_of hbits hl (by omega)).1
      · exact ih h hlow hbest
      · cases h
    · cases h
      exact hbest

/-- Every regular layout satisfies the specification. -/
theorem ChunkLayout.new_of {specs : ComponentSpecs} {components : List ComponentDescriptor}
    {size : ℕ} {l : ChunkLayout} (h : ChunkLayout.new specs components size=.ok l) :
    l.Of specs components := by
  unfold ChunkLayout.new computeLayout at h
  split at h
  · cases h
  · rename_i bits hbits
    dsimp only at h
    split at h
    · cases h
    · cases h
    · rename_i layout hl
      cases h
      exact searchLayout_of hbits hl Nat.zero_lt_one (by rintro l ⟨⟩) l rfl

/-- Every singleton layout satisfies the specification and holds one row. -/
theorem ChunkLayout.newFitted_of {specs : ComponentSpecs} {components : List ComponentDescriptor}
    {l : ChunkLayout} (h : ChunkLayout.newFitted specs components=.ok l) :
    l.Of specs components ∧ l.maxLen=1 := by
  unfold ChunkLayout.newFitted at h
  split at h
  · cases h
  · rename_i bits hbits
    split at h
    · cases h
    · exact tryLayout_of hbits h Nat.zero_lt_one

end XynokEcs.ChunkLayouts
