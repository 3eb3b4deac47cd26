import XynokEcs.LayoutSearch

/-!
# The layout search never overflows

The same computation once more with every operation of the source that could leave
a `usize` checked. A row count the search tries needs no more bits than the chunk
has, and the padding is a few words for each component, so nothing comes near the
end of the range and the checked computation is the unchecked one.
-/

namespace XynokEcs.LayoutArithmetic

open ComponentTypes ComponentBits SequenceValueMap ChunkLayouts BlockPlacement LayoutPlacement
  LayoutRegions LayoutSearch

section Checked

/-- A subtraction that stays at or above zero. -/
def checkedSub (a b : ℕ) : Option ℕ := if b ≤ a then some (a-b) else none

/-- `align_up`. -/
def alignUpChecked (offset align : ℕ) : Option ℕ := do
  let sum ← checkedAdd offset align
  let x ← checkedSub sum 1
  let mask ← checkedSub align 1
  return x-(x &&& mask)

/-- The enable region of one component. -/
def enableChecked (maxEntities offset : ℕ) (e : ComponentDescriptor) : Option (Option ℕ×ℕ) :=
  if e.stateDetection.needsEnable then do
    let enableBytes ← alignUpChecked (divCeil maxEntities bitsPerByte) cpuWord
    let next ← checkedAdd offset enableBytes
    let next ← alignUpChecked next cpuWord
    return (some offset,next)
  else some (none,offset)

/-- The state regions of one component. -/
def regionsChecked (maxEntities offset : ℕ) (e : ComponentDescriptor) : Option (StateOffset×ℕ) := do
  let enable ← enableChecked maxEntities offset e
  if e.stateDetection.needsChange then do
    let tickBytes ← checkedMul maxEntities changedTickByteSize
    let tickBytes ← alignUpChecked tickBytes cpuWord
    let changed ← checkedAdd enable.2 tickBytes
    let changed ← alignUpChecked changed cpuWord
    let next ← checkedAdd changed tickBytes
    let next ← alignUpChecked next cpuWord
    return (⟨enable.1,some enable.2,some changed⟩,next)
  else some (⟨enable.1,none,none⟩,enable.2)

/-- The state regions of every component. -/
def statesChecked (maxEntities : ℕ) :
    List ComponentDescriptor → ℕ → HashMap StorageType StateOffset →
      Option (ℕ×HashMap StorageType StateOffset)
  | [],offset,dst => some (offset,dst)
  | e::rest,offset,dst => do
    let region ← regionsChecked maxEntities offset e
    statesChecked maxEntities rest region.2 (dst.insert e.storageTypeId region.1)

/-- `Header::new`. -/
def headerChecked (maxEntities : ℕ) (components : List ComponentDescriptor) :
    Option (Header×HashMap StorageType StateOffset) := do
  let states ← statesChecked maxEntities components 0 ∅
  let entitiesOffset ← alignUpChecked states.1 entityAlign
  let entitiesSize ← checkedMul maxEntities entityByteSize
  let stop ← checkedAdd entitiesOffset entitiesSize
  let size ← alignUpChecked stop cpuWord
  return (⟨entitiesOffset,size⟩,states.2)

/-- One column. The source itself checks all arithmetic but that of `align_up`. -/
def layoutColumnChecked (maxEntities chunkSize : ℕ) (st : LayoutCursor) (des : ComponentDescriptor) :
    Option (Except XynokEcsError LayoutCursor) := do
  let _ ← alignUpChecked st.cursor des.align
  return layoutColumn maxEntities chunkSize st des

/-- The columns. -/
def layoutColumnsChecked (maxEntities chunkSize : ℕ) :
    List ComponentDescriptor → LayoutCursor → Option (Except XynokEcsError LayoutCursor)
  | [],st => some (.ok st)
  | des::rest,st => do
    match ← layoutColumnChecked maxEntities chunkSize st des with
    | .ok next => layoutColumnsChecked maxEntities chunkSize rest next
    | .error e => return .error e

/-- `try_layout`. -/
def tryLayoutChecked (maxEntities chunkSize : ℕ) (components : List ComponentDescriptor)
    (bits : ComponentBitSet) : Option (Except XynokEcsError ChunkLayout) := do
  let header ← headerChecked maxEntities components
  match ← layoutColumnsChecked maxEntities chunkSize components
      ⟨header.1.size,cpuWord,header.2,∅,[]⟩ with
  | .error e => return .error e
  | .ok st => match AllocLayout.fromSizeAlign chunkSize st.maxAlign with
    | .error e => return .error e
    | .ok alloc => return .ok ⟨maxEntities,header.1,alloc,bits,st.descriptors,st.columns⟩

/-- The loop of `compute_layout`. -/
def searchChecked (chunkSize : ℕ) (components : List ComponentDescriptor) (bits : ComponentBitSet) :
    ℕ → ℕ → ℕ → Option ChunkLayout → Option (Except XynokEcsError (Option ChunkLayout))
  | 0,_,_,best => some (.ok best)
  | fuel+1,low,upper,best =>
    if low ≤ upper then do
      let gap ← checkedSub upper low
      let mid ← checkedAdd low (gap/2)
      match ← tryLayoutChecked mid chunkSize components bits with
      | .ok layout => do
        let low ← checkedAdd mid 1
        searchChecked chunkSize components bits fuel low upper (some layout)
      | .error .archetypeIsTooLarge => do
        let upper ← checkedSub mid 1
        searchChecked chunkSize components bits fuel low upper best
      | .error e => return .error e
    else some (.ok best)

/-- `compute_layout`. The estimate saturates and is not checked. -/
def computeLayoutChecked (specs : ComponentSpecs) (components : List ComponentDescriptor)
    (chunkSize : ℕ) : Option (Except XynokEcsError ChunkLayout) :=
  match buildComponentBitSet specs components .empty with
  | .error e => some (.error e)
  | .ok bits => do
    let upper := estimateMaxEntities components chunkSize
    match ← searchChecked chunkSize components bits (upper+1) 1 upper none with
    | .error e => return .error e
    | .ok none => return .error .archetypeIsTooLarge
    | .ok (some layout) => return .ok layout

end Checked

section Bounds

variable {n size : ℕ} {components : List ComponentDescriptor}

/-- A row count the search tries needs no more bits than the chunk has. -/
theorem bits_le_chunk (h8 : size*8<usizeRange) (hn : 0<n)
    (hle : n ≤ estimateMaxEntities components size) : n*bitsPerEntity components ≤ size*8 := by
  have hsat : saturatingMul size bitsPerByte=size*8 := Nat.min_eq_left (by rw [bitsPerByte]; omega)
  have hhandle : 0 < bitsPerEntity components := Nat.lt_of_lt_of_le (by decide) (Nat.le_add_right _ _)
  have hrange : 0 < usizeRange-1 := by decide
  rw [estimate_eq,hsat,Nat.le_div_iff_mul_le (by omega)] at hle
  have hmin := Nat.le_mul_of_pos_left (min (bitsPerEntity components) (usizeRange-1)) hn
  rw [usizeRange] at *
  have hsmall : bitsPerEntity components ≤ 2^64-1 := by omega
  rwa [Nat.min_eq_left hsmall] at hle

/-- Each component adds at most three regions to the header. -/
theorem length_stateRegions (components : List ComponentDescriptor) :
    (components.flatMap stateRegions).length ≤ 3*components.length := by
  induction components with
  | nil => exact Nat.le_refl 0
  | cons des rest ih =>
    have hdes : (stateRegions des).length ≤ 3 := by
      unfold stateRegions
      cases des.stateDetection.needsEnable <;> cases des.stateDetection.needsChange <;>
        simp only [if_true,if_false,Bool.false_eq_true,List.nil_append,List.append_nil,
          List.length_append,List.length_cons,List.length_nil] <;> omega
    rw [List.flatMap_cons,List.length_append,List.length_cons]
    omega

/-- The header rounds to words. -/
theorem headerAligns (n : ℕ) (components : List ComponentDescriptor) :
    ((blocksOf n (headerRegions components)).map Block.align).sum ≤
      cpuWord*(3*components.length+1) := by
  have hlen := length_stateRegions components
  have hconst : ∀ regions : List Region,(∀ r∈regions,(r.block n).align ≤ cpuWord) →
      ((blocksOf n regions).map Block.align).sum ≤ cpuWord*regions.length := by
    intro regions hall
    induction regions with
    | nil => exact Nat.le_refl 0
    | cons r rest ih =>
      have hr := hall r List.mem_cons_self
      have hrest := ih fun r hm => hall r (List.mem_cons_of_mem _ hm)
      change (r.block n).align+((blocksOf n rest).map Block.align).sum ≤ _
      rw [List.length_cons,Nat.mul_succ]
      omega
  have hword : ∀ r∈headerRegions components,(r.block n).align ≤ cpuWord := by
    intro r hr
    cases r with
    | column t => exact absurd hr (column_notMem_header t)
    | _ => exact Nat.le_refl _
  refine (hconst _ hword).trans (Nat.mul_le_mul_left _ ?_)
  rw [headerRegions,List.length_append,List.length_singleton]
  omega

/-- The state regions and the columns hold a byte of padding for each component at most. -/
theorem sizes_le (n : ℕ) (components : List ComponentDescriptor) : bitsPerByte*
    (((blocksOf n (components.flatMap stateRegions)).map Block.size).sum+
      ((columnBlocks n components).map Block.size).sum) ≤
        n*(components.map bitsOf).sum+bitsPerByte*components.length := by
  induction components with
  | nil => exact Nat.zero_le _
  | cons des rest ih =>
    have hdes := (component_bits n des).2
    rw [List.flatMap_cons,blocksOf_append,sizes_append,List.map_cons,List.sum_cons,List.length_cons]
    change bitsPerByte*(_+(des.byteSize*n+((columnBlocks n rest).map Block.size).sum)) ≤ _
    rw [Nat.mul_add] at ih hdes ⊢
    rw [Nat.mul_add,Nat.mul_add,Nat.mul_add,Nat.mul_add]
    omega

/-- The header of a row count the search tries ends at most a few words for each
component behind the chunk. -/
theorem header_le (h8 : size*8<usizeRange) (hn : 0<n)
    (hle : n ≤ estimateMaxEntities components size) :
    (Header.new n components).1.size ≤ size+25*components.length+8 := by
  have hsum := finish_le_sum (c:=0) (blocksOf_pos n (headerRegions components))
  rw [←(header_placed n components).2] at hsum
  have haligns := headerAligns n components
  have hsizes := sizes_le n components
  have hbits := bits_le_chunk h8 hn hle
  have hheader : ((blocksOf n (headerRegions components)).map Block.size).sum=
      ((blocksOf n (components.flatMap stateRegions)).map Block.size).sum+n*entityByteSize := by
    rw [headerRegions,blocksOf_append,sizes_append]
    rfl
  rw [bitsPerEntity,Nat.mul_add] at hbits
  rw [hheader] at hsum
  rw [bitsPerByte] at hsizes hbits
  rw [entityByteSize] at hsum hbits
  rw [cpuWord] at haligns
  omega

end Bounds

section Unchecked

variable {n size offset align : ℕ} {components : List ComponentDescriptor} {des : ComponentDescriptor}
  {bits : ComponentBitSet}

/-- A sum in range is that of naturals. -/
theorem checkedAdd_eq {a b : ℕ} (h : a+b<usizeRange) : checkedAdd a b=some (a+b) := if_pos h

/-- A product in range is that of naturals. -/
theorem checkedMul_eq {a b : ℕ} (h : a*b<usizeRange) : checkedMul a b=some (a*b) := if_pos h

/-- A difference that is not below zero is that of naturals. -/
theorem checkedSub_eq {a b : ℕ} (h : b ≤ a) : checkedSub a b=some (a-b) := if_pos h

/-- An aligned offset in range is that of naturals. -/
theorem alignUpChecked_eq (ha : 0<align) (h : offset+align<usizeRange) :
    alignUpChecked offset align=some (alignUp offset align) := by
  have hone : 1 ≤ offset+align := by omega
  unfold alignUpChecked
  simp only [checkedAdd_eq h,checkedSub_eq hone,checkedSub_eq (Nat.succ_le_of_lt ha),
    Option.bind_eq_bind,Option.bind_some,Option.pure_def]
  rfl

theorem word_le (x : ℕ) : x ≤ alignUp x cpuWord := by
  rw [alignUp_word]
  exact le_roundUp (by decide)

theorem alignWord_eq (offset : ℕ) (h : alignUp offset cpuWord+cpuWord<usizeRange) :
    alignUpChecked offset cpuWord=some (alignUp offset cpuWord) := by
  have hle := word_le offset
  exact alignUpChecked_eq (by decide) (by omega)

/-- One step of the header: add some bytes and round to a word. -/
theorem addWord_eq (offset bytes : ℕ) (h : alignUp (offset+bytes) cpuWord+cpuWord<usizeRange) :
    checkedAdd offset bytes=some (offset+bytes) ∧
      alignUpChecked (offset+bytes) cpuWord=some (alignUp (offset+bytes) cpuWord) := by
  have hle := word_le (offset+bytes)
  exact ⟨checkedAdd_eq (by omega),alignWord_eq _ h⟩

/-- The enable region stays below where it ends. -/
theorem enableChecked_eq {enable : Option ℕ×ℕ}
    (he : enable=if des.stateDetection.needsEnable
      then (some offset,alignUp (offset+alignUp (divCeil n bitsPerByte) cpuWord) cpuWord)
      else (none,offset)) (h : enable.2+cpuWord<usizeRange) :
    enableChecked n offset des=some enable := by
  subst he
  unfold enableChecked
  cases hn : des.stateDetection.needsEnable with
  | false => rfl
  | true =>
    simp only [hn,if_true] at h ⊢
    have hle := word_le (offset+alignUp (divCeil n bitsPerByte) cpuWord)
    obtain ⟨hadd,hround⟩ := addWord_eq _ _ h
    have hbytes := alignWord_eq (divCeil n bitsPerByte) (by omega)
    simp only [hbytes,hadd,hround,Option.bind_eq_bind,Option.bind_some,Option.pure_def]

/-- Every step of a component's regions stays below where they end. -/
theorem regionsChecked_eq (h : (Header.regions n offset des).2+cpuWord<usizeRange) :
    regionsChecked n offset des=some (Header.regions n offset des) := by
  unfold Header.regions at h ⊢
  unfold regionsChecked
  dsimp only at h ⊢
  generalize he : (if des.stateDetection.needsEnable
    then (some offset,alignUp (offset+alignUp (divCeil n bitsPerByte) cpuWord) cpuWord)
    else (none,offset))=enable at h ⊢
  cases hn : des.stateDetection.needsChange with
  | false =>
    rw [hn] at h
    rw [enableChecked_eq he.symm h]
    rfl
  | true =>
    simp only [hn,if_true] at h ⊢
    have hticks := word_le (n*changedTickByteSize)
    have hchanged := word_le (enable.2+alignUp (n*changedTickByteSize) cpuWord)
    have hnext := word_le (alignUp (enable.2+alignUp (n*changedTickByteSize) cpuWord) cpuWord+
      alignUp (n*changedTickByteSize) cpuWord)
    obtain ⟨hadd',hround'⟩ := addWord_eq _ _ h
    obtain ⟨hadd,hround⟩ := addWord_eq enable.2
      (alignUp (n*changedTickByteSize) cpuWord) (by omega)
    have hbytes := alignWord_eq (n*changedTickByteSize) (by omega)
    simp only [enableChecked_eq he.symm (by omega),checkedMul_eq (show n*changedTickByteSize<usizeRange
      by omega),hbytes,hadd,hround,hadd',hround',Option.bind_eq_bind,Option.bind_some,Option.pure_def]

/-- Regions end behind where they start. -/
theorem le_regions (n offset : ℕ) (des : ComponentDescriptor) :
    offset ≤ (Header.regions n offset des).2 := by
  unfold Header.regions
  dsimp only
  generalize he : (if des.stateDetection.needsEnable
    then (some offset,alignUp (offset+alignUp (divCeil n bitsPerByte) cpuWord) cpuWord)
    else (none,offset))=enable
  have henable : offset ≤ enable.2 := by
    subst he
    have hle := word_le (offset+alignUp (divCeil n bitsPerByte) cpuWord)
    split
    · exact (Nat.le_add_right _ _).trans hle
    · exact Nat.le_refl _
  split
  · have hchanged := word_le (enable.2+alignUp (n*changedTickByteSize) cpuWord)
    have hnext := word_le (alignUp (enable.2+alignUp (n*changedTickByteSize) cpuWord) cpuWord+
      alignUp (n*changedTickByteSize) cpuWord)
    dsimp only
    omega
  · exact henable

theorem le_states (n offset : ℕ) (components : List ComponentDescriptor)
    (dst : HashMap StorageType StateOffset) :
    offset ≤ (Header.states n components offset dst).1 := by
  induction components generalizing offset dst with
  | nil => exact Nat.le_refl _
  | cons des rest ih =>
    rw [Header.states]
    exact (le_regions n offset des).trans (ih _ _)

theorem statesChecked_eq {dst : HashMap StorageType StateOffset}
    (h : (Header.states n components offset dst).1+cpuWord<usizeRange) :
    statesChecked n components offset dst=some (Header.states n components offset dst) := by
  induction components generalizing offset dst with
  | nil => rfl
  | cons des rest ih =>
    rw [Header.states] at h ⊢
    have hle := le_states n (Header.regions n offset des).2 rest
      (dst.insert des.storageTypeId (Header.regions n offset des).1)
    have hregions : regionsChecked n offset des=some (Header.regions n offset des) :=
      regionsChecked_eq (by omega)
    rw [statesChecked,hregions,Option.bind_eq_bind,Option.bind_some]
    exact ih h

/-- `Header::new` does not overflow while the header ends a word below the range. -/
theorem headerChecked_eq (h : (Header.new n components).1.size+cpuWord<usizeRange) :
    headerChecked n components=some (Header.new n components) := by
  unfold Header.new at h ⊢
  dsimp only at h ⊢
  have hhandles : entityAlign=cpuWord := rfl
  unfold headerChecked
  rw [hhandles] at h ⊢
  have hend := word_le (alignUp (Header.states n components 0 ∅).1 cpuWord+n*entityByteSize)
  have hstart := word_le (Header.states n components 0 ∅).1
  obtain ⟨hadd,hround⟩ := addWord_eq _ _ h
  have hstates : statesChecked n components 0 ∅=some (Header.states n components 0 ∅) :=
    statesChecked_eq (by omega)
  have hentities := alignWord_eq (Header.states n components 0 ∅).1 (by omega)
  have hbytes := checkedMul_eq (a:=n) (b:=entityByteSize) (by omega)
  simp only [hstates,hentities,hbytes,hadd,hround,Option.bind_eq_bind,Option.bind_some,
    Option.pure_def]

/-- The columns do not overflow while no cursor gets within an alignment of the range. -/
theorem layoutColumnsChecked_eq {st : LayoutCursor}
    (hst : ∀ des∈components,st.cursor+des.align<usizeRange)
    (hsize : ∀ des∈components,size+des.align<usizeRange) :
    layoutColumnsChecked n size components st=some (layoutColumns n size components st) := by
  induction components generalizing st with
  | nil => rfl
  | cons des rest ih =>
    have halign := alignUpChecked_eq (align_pos des.storageTypeId) (hst des List.mem_cons_self)
    have hcolumn : layoutColumnChecked n size st des=some (layoutColumn n size st des) := by
      unfold layoutColumnChecked
      rw [ComponentDescriptor.align] at *
      rw [halign]
      rfl
    rw [layoutColumnsChecked,hcolumn,layoutColumns]
    cases hnext : layoutColumn n size st des with
    | error e => rfl
    | ok next =>
      refine ih ?_ fun des hd => hsize des (List.mem_cons_of_mem _ hd)
      intro des' hd
      have hle := (layoutColumn_eq hnext).1
      have := hsize des' (List.mem_cons_of_mem _ hd)
      omega

/-- `try_layout` does not overflow when the header and the chunk stay an alignment below
the range. -/
theorem tryLayoutChecked_eq (hword : (Header.new n components).1.size+cpuWord<usizeRange)
    (hheader : ∀ des∈components,(Header.new n components).1.size+des.align<usizeRange)
    (hsize : ∀ des∈components,size+des.align<usizeRange) :
    tryLayoutChecked n size components bits=some (tryLayout n size components bits) := by
  have hcolumns : layoutColumnsChecked n size components
      ⟨(Header.new n components).1.size,cpuWord,(Header.new n components).2,∅,[]⟩=
        some (layoutColumns n size components
          ⟨(Header.new n components).1.size,cpuWord,(Header.new n components).2,∅,[]⟩) :=
    layoutColumnsChecked_eq hheader hsize
  unfold tryLayoutChecked tryLayout
  rw [headerChecked_eq hword,Option.bind_eq_bind,Option.bind_some,hcolumns]
  dsimp only [Option.bind_eq_bind,Option.bind_some]
  generalize layoutColumns n size components _=columns
  cases columns with
  | error e => rfl
  | ok st =>
    dsimp only
    generalize AllocLayout.fromSizeAlign size st.maxAlign=alloc
    cases alloc <;> rfl

/-- The search does not overflow when nothing it tries does. -/
theorem searchChecked_eq {bound : ℕ} (hbound : bound+1<usizeRange)
    (htry : ∀ mid,0 < mid → mid ≤ bound →
      tryLayoutChecked mid size components bits=some (tryLayout mid size components bits))
    {fuel low upper : ℕ} (hlow : 0<low) (hupper : upper ≤ bound) (best : Option ChunkLayout) :
    searchChecked size components bits fuel low upper best=
      some (searchLayout size components bits fuel low upper best) := by
  induction fuel generalizing low upper best with
  | zero => rfl
  | succ fuel ih =>
    unfold searchChecked searchLayout
    by_cases hle : low ≤ upper
    · have hmid : low+(upper-low)/2 ≤ upper := by omega
      rw [if_pos hle,if_pos hle]
      simp only [checkedSub_eq hle,checkedAdd_eq (show low+(upper-low)/2<usizeRange by omega),
        Option.bind_eq_bind,Option.bind_some,htry (low+(upper-low)/2) (by omega) (by omega)]
      have hpos : 0 < low+(upper-low)/2 := by omega
      generalize low+(upper-low)/2=mid at hmid hpos ⊢
      cases tryLayout mid size components bits with
      | ok layout =>
        simp only [checkedAdd_eq (show mid+1<usizeRange by omega),Option.bind_some]
        exact ih (Nat.succ_pos mid) hupper _
      | error e => cases e with
        | archetypeIsTooLarge =>
          simp only [checkedSub_eq (Nat.succ_le_of_lt hpos),Option.bind_some]
          exact ih hlow (by omega) _
        | _ => rfl
    · rw [if_neg hle,if_neg hle]

end Unchecked

section Optimal

variable {components : List ComponentDescriptor} {specs : ComponentSpecs} {bits : ComponentBitSet}
  {size : ℕ}

/-- `size_of` a component descriptor: two type ids, four words and two flags. -/
def componentDescriptorByteSize : ℕ := 72

/-- What the search for the layout of a chunk size comes to. -/
structure Optimal (specs : ComponentSpecs) (components : List ComponentDescriptor)
    (bits : ComponentBitSet) (size : ℕ) : Prop where
  /-- A row count has a layout exactly when its last region ends inside the chunk. -/
  fits : ∀ n,(∃ l,tryLayout n size components bits=.ok l) ↔ rowsEnd n components ≤ size
  /-- When one row fits, the answer has the most rows that do. -/
  most : rowsEnd 1 components ≤ size → ∃ l,computeLayout specs components size=.ok l ∧
    1 ≤ l.maxLen ∧ rowsEnd l.maxLen components ≤ size ∧
      ∀ n,rowsEnd n components ≤ size → n ≤ l.maxLen
  /-- The error means that one row does not fit, and nothing else. -/
  tooLarge : computeLayout specs components size=.error .archetypeIsTooLarge ↔
    size < rowsEnd 1 components
  /-- Walking down from any bound on the row counts that fit gives the same answer. -/
  naive : ∀ bound,(∀ n,rowsEnd n components ≤ size → n ≤ bound) →
    computeLayout specs components size=naiveLayout size components bits bound
  /-- The loop is over by the time the estimate allows for, however much longer it might run. -/
  terminates : ∀ fuel,estimateMaxEntities components size ≤ fuel →
    searchLayout size components bits fuel 1 (estimateMaxEntities components size) none=
      searchLayout size components bits (estimateMaxEntities components size+1) 1
        (estimateMaxEntities components size) none
  /-- For components that fit in memory, as those of every slice do, nothing overflows. -/
  noOverflow : components.length*componentDescriptorByteSize ≤ isizeMax →
    computeLayoutChecked specs components size=some (computeLayout specs components size)

/-- No alignment is larger than the largest. -/
theorem align_le_max (a : ℕ) (components : List ComponentDescriptor) : a ≤ maxAlignOf a components ∧
    ∀ des∈components,des.align ≤ maxAlignOf a components := by
  induction components generalizing a with
  | nil => exact ⟨Nat.le_refl a,fun des hd => absurd hd List.not_mem_nil⟩
  | cons des rest ih =>
    obtain ⟨hle,hall⟩ := ih (max a des.align)
    refine ⟨(Nat.le_max_left _ _).trans hle,fun e he => ?_⟩
    obtain rfl | he := List.mem_cons.mp he
    · exact (Nat.le_max_right _ _).trans hle
    · exact hall e he

/-- The search tries nothing that overflows. -/
theorem search_noOverflow (hpos : 0<size) (h8 : size*8<usizeRange) {alloc : AllocLayout}
    (halloc : AllocLayout.fromSizeAlign size (maxAlignOf 0 components)=.ok alloc)
    (hslice : components.length*componentDescriptorByteSize ≤ isizeMax) (bits : ComponentBitSet) :
    searchChecked size components bits (estimateMaxEntities components size+1) 1
        (estimateMaxEntities components size) none=
      some (searchLayout size components bits (estimateMaxEntities components size+1) 1
        (estimateMaxEntities components size) none) := by
  have halign : ∀ des∈components,size+des.align ≤ 2^63 := by
    intro des hdes
    have hle := (align_le_max 0 components).2 des hdes
    unfold AllocLayout.fromSizeAlign at halloc
    split at halloc
    · cases halloc
    · rename_i hfits
      rw [isizeMax] at hfits
      omega
  have hestimate : estimateMaxEntities components size ≤ size*8 := by
    have hsat : saturatingMul size bitsPerByte ≤ size*8 := Nat.min_le_left _ _
    rw [estimate_eq]
    exact (Nat.div_le_self _ _).trans hsat
  rw [componentDescriptorByteSize,isizeMax] at hslice
  rw [usizeRange] at h8
  refine searchChecked_eq (by rw [usizeRange]; omega) (fun mid hmid hle => ?_) Nat.zero_lt_one
    (Nat.le_refl _) none
  have hheader : (Header.new mid components).1.size ≤ size+25*components.length+8 :=
    header_le (by rw [usizeRange]; omega) hmid hle
  refine tryLayoutChecked_eq (by rw [usizeRange,cpuWord]; omega) (fun des hdes => ?_) fun des hdes => ?_
  · have := halign des hdes
    rw [usizeRange]
    omega
  · have := halign des hdes
    rw [usizeRange]
    omega

end Optimal

end XynokEcs.LayoutArithmetic
