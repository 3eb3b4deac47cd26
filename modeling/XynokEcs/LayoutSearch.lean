import XynokEcs.LayoutRegions

/-!
# The layout search finds the most rows

Where the last region ends grows with the row count, so the row counts that fit are
an initial segment and the binary search finds its end. The estimate it starts from
counts the bits of a row without any padding, so no row count above it fits. The
fitted layout of a singleton repeats its probe in a chunk cut to the row.
-/

namespace XynokEcs.LayoutSearch

open ComponentTypes ComponentBits SequenceValueMap ChunkLayouts BlockPlacement LayoutPlacement
  LayoutRegions

variable {m n size : ℕ} {components : List ComponentDescriptor} {specs : ComponentSpecs}
  {bits : ComponentBitSet} {l : ChunkLayout}

section Growth

/-- A region grows with the row count. -/
theorem block_mono (r : Region) (h : m ≤ n) :
    (r.block m).align=(r.block n).align ∧ (r.block m).size ≤ (r.block n).size := by
  cases r with
  | enable t => exact ⟨rfl,Nat.div_le_div_right (by omega)⟩
  | added t | changed t => exact ⟨rfl,Nat.mul_le_mul_right _ h⟩
  | entities => exact ⟨rfl,Nat.mul_le_mul_right _ h⟩
  | column t => exact ⟨rfl,Nat.mul_le_mul_left _ h⟩

/-- More rows end later, padding included. -/
theorem rowsEnd_mono (h : m ≤ n) : rowsEnd m components ≤ rowsEnd n components := by
  refine finish_mono ?_ (Nat.le_refl 0)
  rw [blocksOf,blocksOf,List.forall₂_map_left_iff,List.forall₂_map_right_iff,List.forall₂_same]
  exact fun r _ => block_mono r h

end Growth

section Estimate

/-- The bits one row of a component takes. -/
def bitsOf (des : ComponentDescriptor) : ℕ :=
  des.byteSize*bitsPerByte+(if des.stateDetection.needsEnable then 1 else 0)+
    if des.stateDetection.needsChange then changedTickByteSize*2*bitsPerByte else 0

/-- The bits one row takes. -/
def bitsPerEntity (components : List ComponentDescriptor) : ℕ :=
  entityByteSize*bitsPerByte+(components.map bitsOf).sum

theorem saturatingAdd_min (a b : ℕ) :
    saturatingAdd (min a (usizeRange-1)) (min b (usizeRange-1))=min (a+b) (usizeRange-1) := by
  rw [saturatingAdd]
  omega

theorem saturatingAdd_one (a : ℕ) :
    saturatingAdd (min a (usizeRange-1)) 1=min (a+1) (usizeRange-1) := by
  have hrange : 1 ≤ usizeRange-1 := by decide
  rw [saturatingAdd]
  omega

/-- One step of the estimate adds the bits of a component and saturates. -/
theorem estimate_step (a : ℕ) (des : ComponentDescriptor) :
    (let bits := saturatingAdd (min a (usizeRange-1)) (saturatingMul des.byteSize bitsPerByte)
      let bits := if des.stateDetection.needsEnable then saturatingAdd bits 1 else bits
      if des.stateDetection.needsChange
      then saturatingAdd bits (saturatingMul (saturatingMul changedTickByteSize 2) bitsPerByte)
      else bits)=min (a+bitsOf des) (usizeRange-1) := by
  have hticks : saturatingMul (saturatingMul changedTickByteSize 2) bitsPerByte=
      min (changedTickByteSize*2*bitsPerByte) (usizeRange-1) := by decide
  dsimp only
  rw [hticks,saturatingMul,saturatingAdd_min,bitsOf]
  cases des.stateDetection.needsEnable <;> cases des.stateDetection.needsChange <;>
    simp only [if_true,if_false,Bool.false_eq_true,Nat.add_zero]
  · rw [saturatingAdd_min,Nat.add_assoc]
  · rw [saturatingAdd_one,Nat.add_assoc]
  · rw [saturatingAdd_one,saturatingAdd_min]
    simp only [Nat.add_assoc]

/-- The estimate divides the bits of the chunk by those of a row. -/
theorem estimate_eq (components : List ComponentDescriptor) (size : ℕ) :
    estimateMaxEntities components size=
      saturatingMul size bitsPerByte/min (bitsPerEntity components) (usizeRange-1) := by
  have hfold : ∀ a,components.foldl (fun bits des =>
      let bits := saturatingAdd bits (saturatingMul des.byteSize bitsPerByte)
      let bits := if des.stateDetection.needsEnable then saturatingAdd bits 1 else bits
      if des.stateDetection.needsChange
      then saturatingAdd bits (saturatingMul (saturatingMul changedTickByteSize 2) bitsPerByte)
      else bits) (min a (usizeRange-1))=min (a+(components.map bitsOf).sum) (usizeRange-1) := by
    induction components with
    | nil => exact fun a => rfl
    | cons des rest ih =>
      intro a
      rw [List.foldl_cons,estimate_step,ih,List.map_cons,List.sum_cons,Nat.add_assoc]
  have hpos : min (bitsPerEntity components) (usizeRange-1)≠0 := by
    have hhandle : 0 < entityByteSize*bitsPerByte := by decide
    have hrange : 0 < usizeRange-1 := by decide
    rw [bitsPerEntity]
    omega
  exact (congrArg (fun bits => if bits=0 then 0 else saturatingMul size bitsPerByte/bits)
    (hfold (entityByteSize*bitsPerByte))).trans (if_neg hpos)

/-- The bytes of some regions. -/
theorem sizes_append (a b : List Block) :
    ((a++b).map Block.size).sum=(a.map Block.size).sum+(b.map Block.size).sum := by
  rw [List.map_append,List.sum_append]

/-- A component's regions hold the bits of all its rows, and at most a byte of padding. -/
theorem component_bits (n : ℕ) (des : ComponentDescriptor) :
    n*bitsOf des ≤ bitsPerByte*(((blocksOf n (stateRegions des)).map Block.size).sum+des.byteSize*n) ∧
    bitsPerByte*(((blocksOf n (stateRegions des)).map Block.size).sum+des.byteSize*n)<
      n*bitsOf des+bitsPerByte := by
  have henable : n ≤ 8*divCeil n 8 ∧ 8*divCeil n 8<n+8 := by
    rw [divCeil]
    omega
  have hvalue : n*(des.byteSize*8)=8*(des.byteSize*n) := by
    rw [Nat.mul_comm des.byteSize 8,Nat.mul_left_comm,Nat.mul_comm n]
  unfold stateRegions bitsOf
  cases des.stateDetection.needsEnable <;> cases des.stateDetection.needsChange <;>
    simp only [blocksOf,if_true,if_false,Bool.false_eq_true,List.append_nil,List.nil_append,
      List.cons_append,List.map_nil,List.map_cons,List.sum_nil,List.sum_cons,Region.block,
      bitsPerByte,changedTickByteSize,Nat.mul_add,hvalue] <;> omega

/-- The regions together hold the bits of all rows. -/
theorem bits_le_rowsEnd (n : ℕ) (components : List ComponentDescriptor) :
    n*bitsPerEntity components ≤ bitsPerByte*rowsEnd n components := by
  have hsum := sum_le_finish (c:=0) (blocksOf_pos n (regionsOf components))
  have hcomponents : n*(components.map bitsOf).sum ≤ bitsPerByte*
      (((blocksOf n (components.flatMap stateRegions)).map Block.size).sum+
        ((columnBlocks n components).map Block.size).sum) := by
    clear hsum
    induction components with
    | nil => exact Nat.le_of_eq (Nat.mul_zero n)
    | cons des rest ih =>
      have hdes := (component_bits n des).1
      rw [List.flatMap_cons,blocksOf_append,sizes_append,List.map_cons,List.sum_cons]
      change _ ≤ bitsPerByte*(_+(des.byteSize*n+((columnBlocks n rest).map Block.size).sum))
      rw [Nat.mul_add] at ih hdes ⊢
      rw [Nat.mul_add,Nat.mul_add,Nat.mul_add]
      omega
  have hall : ((blocksOf n (regionsOf components)).map Block.size).sum=
      ((blocksOf n (components.flatMap stateRegions)).map Block.size).sum+n*entityByteSize+
        ((columnBlocks n components).map Block.size).sum := by
    rw [regionsOf,headerRegions,blocksOf_append,blocksOf_append,sizes_append,sizes_append,
      blocksOf_columns]
    rfl
  rw [Nat.zero_add,hall] at hsum
  have hscaled := Nat.mul_le_mul_left bitsPerByte hsum
  rw [bitsPerEntity,Nat.mul_add,rowsEnd]
  refine Nat.le_trans ?_ hscaled
  rw [Nat.mul_add] at hcomponents
  rw [Nat.mul_add,Nat.mul_add]
  have hhandles : n*(entityByteSize*bitsPerByte)=bitsPerByte*(n*entityByteSize) := by
    rw [Nat.mul_comm bitsPerByte,Nat.mul_assoc]
  omega

/-- No row count above the estimate fits. -/
theorem le_estimate (h8 : size*8<usizeRange) (h : rowsEnd n components ≤ size) :
    n ≤ estimateMaxEntities components size := by
  have hbits := bits_le_rowsEnd n components
  have hscaled : bitsPerByte*rowsEnd n components ≤ size*8 := by
    rw [Nat.mul_comm]
    exact Nat.mul_le_mul_right 8 h
  have hsat : saturatingMul size bitsPerByte=size*8 := Nat.min_eq_left (by rw [bitsPerByte]; omega)
  have hhandle : 0 < bitsPerEntity components := Nat.lt_of_lt_of_le (by decide) (Nat.le_add_right _ _)
  rw [estimate_eq,hsat]
  by_cases hlt : bitsPerEntity components ≤ usizeRange-1
  · rw [Nat.min_eq_left hlt,Nat.le_div_iff_mul_le hhandle]
    omega
  · have hn : n=0 := by
      by_contra hne
      have hone := Nat.le_mul_of_pos_left (bitsPerEntity components) (Nat.pos_of_ne_zero hne)
      omega
    rw [hn]
    exact Nat.zero_le _

end Estimate

section Search

/-- The walk downwards from a bound that the search stands for: the first row count
that does not fail for its size. -/
def naiveLayout (size : ℕ) (components : List ComponentDescriptor) (bits : ComponentBitSet) :
    ℕ → Except XynokEcsError ChunkLayout
  | 0 => .error .archetypeIsTooLarge
  | n+1 => match tryLayout (n+1) size components bits with
    | .ok layout => .ok layout
    | .error .archetypeIsTooLarge => naiveLayout size components bits n
    | .error e => .error e

/-- The layouts of a chunk size are there for the row counts that fit, and for no other. -/
structure FitsExactly (size : ℕ) (components : List ComponentDescriptor) (bits : ComponentBitSet) :
    Prop where
  /-- A row count that fits has its layout. -/
  fits : ∀ n,rowsEnd n components ≤ size →
    ∃ l,tryLayout n size components bits=.ok l ∧ l.maxLen=n
  /-- One that does not fit is refused. -/
  tooLarge : ∀ n,size < rowsEnd n components →
    tryLayout n size components bits=.error .archetypeIsTooLarge

/-- The largest alignment of the chunk is that of a word or of a component. -/
theorem maxAlignOf_max (a b : ℕ) (components : List ComponentDescriptor) :
    maxAlignOf (max a b) components=max a (maxAlignOf b components) := by
  induction components generalizing b with
  | nil => rfl
  | cons des rest ih =>
    change maxAlignOf (max (max a b) des.align) rest=_
    rw [Nat.max_assoc,ih]
    rfl

/-- A chunk size the allocator takes with the largest alignment has a layout for
every row count that fits. -/
theorem fitsExactly (hne : components≠[])
    (hn : (components.map ComponentDescriptor.storageTypeId).Nodup) (h8 : size*8<usizeRange)
    {alloc : AllocLayout} (halloc : AllocLayout.fromSizeAlign size (maxAlignOf 0 components)=.ok alloc)
    (bits : ComponentBitSet) : FitsExactly size components bits := by
  have hsize : size<usizeRange := by omega
  have hmax : maxAlignOf cpuWord components=max cpuWord (maxAlignOf 0 components) :=
    maxAlignOf_max cpuWord 0 components
  have htaken : AllocLayout.fromSizeAlign size (maxAlignOf cpuWord components)=
      .ok ⟨size,maxAlignOf cpuWord components⟩ := by
    unfold AllocLayout.fromSizeAlign at halloc ⊢
    split at halloc
    · cases halloc
    · refine if_neg ?_
      rw [hmax,cpuWord]
      rw [usizeRange] at h8
      rw [isizeMax] at *
      omega
  refine ⟨fun n hle => ?_,fun n hlt => ?_⟩
  · have hfits := (tryLayout_placed hn hsize (fun he => absurd he hne) bits).1 hle
    rw [htaken] at hfits
    obtain ⟨l,hl,hp⟩ := hfits
    exact ⟨l,hl,hp.maxLen⟩
  · exact (tryLayout_placed hn hsize (fun he => absurd he hne) bits).2 hlt

/-- The layout for a row count that fits, none for no row at all. -/
def layoutFor (size : ℕ) (components : List ComponentDescriptor) (bits : ComponentBitSet)
    (n : ℕ) : Option ChunkLayout :=
  if n=0 then none else (tryLayout n size components bits).toOption

/-- The binary search ends with the layout of the most rows that fit. -/
theorem searchLayout_spec (h : FitsExactly size components bits) {fuel low upper : ℕ} (hlow : 0<low)
    (hfits : low=1 ∨ rowsEnd (low-1) components ≤ size)
    (hupper : ∀ n,rowsEnd n components ≤ size → n ≤ upper) (hfuel : upper+1 ≤ low+fuel) : ∃ n,
    (n=0 ∨ rowsEnd n components ≤ size) ∧ (∀ k,rowsEnd k components ≤ size → k ≤ n) ∧
      searchLayout size components bits fuel low upper (layoutFor size components bits (low-1))=
        .ok (layoutFor size components bits n) := by
  have hdone : upper<low → (low-1=0 ∨ rowsEnd (low-1) components ≤ size) ∧
      ∀ k,rowsEnd k components ≤ size → k ≤ low-1 := by
    intro hlt
    refine ⟨hfits.imp (fun he => by omega) id,fun k hk => ?_⟩
    have := hupper k hk
    omega
  induction fuel generalizing low upper with
  | zero =>
    obtain ⟨hfit,hbest⟩ := hdone (by omega)
    exact ⟨low-1,hfit,hbest,rfl⟩
  | succ fuel ih =>
    unfold searchLayout
    by_cases hle : low ≤ upper
    · rw [if_pos hle]
      have hmid : low ≤ low+(upper-low)/2 ∧ low+(upper-low)/2 ≤ upper := by omega
      dsimp only
      generalize low+(upper-low)/2=mid at hmid ⊢
      by_cases hfit : rowsEnd mid components ≤ size
      · obtain ⟨l,hl,-⟩ := h.fits mid hfit
        have hbest : layoutFor size components bits mid=some l := by
          rw [layoutFor,if_neg (by omega),hl]
          rfl
        rw [hl]
        dsimp only
        rw [←hbest]
        refine ih (Nat.succ_pos mid) (.inr hfit) hupper (by omega) fun hlt => ?_
        exact ⟨.inr hfit,fun k hk => (hupper k hk).trans (by omega)⟩
      · rw [h.tooLarge mid (Nat.lt_of_not_le hfit)]
        dsimp only
        have hupper' : ∀ n,rowsEnd n components ≤ size → n ≤ mid-1 := by
          intro n hn
          by_contra hlt
          exact hfit ((rowsEnd_mono (by omega)).trans hn)
        refine ih hlow hfits hupper' (by omega) fun hlt => ?_
        refine ⟨hfits.imp (fun he => by omega) id,fun k hk => ?_⟩
        have := hupper' k hk
        omega
    · rw [if_neg hle]
      obtain ⟨hfit,hbest⟩ := hdone (by omega)
      exact ⟨low-1,hfit,hbest,rfl⟩

/-- What a search that found some row count answers. -/
def answer (best : Option ChunkLayout) : Except XynokEcsError ChunkLayout :=
  match best with
  | some layout => .ok layout
  | none => .error .archetypeIsTooLarge

/-- The walk downwards stops at the same row count from wherever it starts above it. -/
theorem naiveLayout_spec (h : FitsExactly size components bits) {best bound : ℕ}
    (hfit : best=0 ∨ rowsEnd best components ≤ size)
    (hbest : ∀ k,rowsEnd k components ≤ size → k ≤ best) (hbound : best ≤ bound) :
    naiveLayout size components bits bound=answer (layoutFor size components bits best) := by
  induction bound with
  | zero =>
    rw [Nat.le_zero.mp hbound]
    rfl
  | succ bound ih =>
    rw [naiveLayout]
    by_cases he : best=bound+1
    · obtain ⟨l,hl,-⟩ := h.fits (bound+1) (he ▸ hfit.resolve_left (by omega))
      rw [he,layoutFor,if_neg (Nat.succ_ne_zero bound),hl]
      rfl
    · have hlarge : size < rowsEnd (bound+1) components := by
        by_contra hle
        have := hbest (bound+1) (Nat.le_of_not_lt hle)
        omega
      rw [h.tooLarge _ hlarge]
      exact ih (by omega)

/-- `compute_layout` answers with the most rows that fit, and any round bound from the
estimate on lets its search finish. -/
theorem computeLayout_best (hbits : buildComponentBitSet specs components .empty=.ok bits)
    (h : FitsExactly size components bits) (h8 : size*8<usizeRange) : ∃ n,
    (n=0 ∨ rowsEnd n components ≤ size) ∧ (∀ k,rowsEnd k components ≤ size → k ≤ n) ∧
      computeLayout specs components size=answer (layoutFor size components bits n) ∧
      ∀ fuel,estimateMaxEntities components size ≤ fuel →
        searchLayout size components bits fuel 1 (estimateMaxEntities components size) none=
          .ok (layoutFor size components bits n) := by
  have hsearch : ∀ fuel,estimateMaxEntities components size ≤ fuel → ∃ n,
      (n=0 ∨ rowsEnd n components ≤ size) ∧ (∀ k,rowsEnd k components ≤ size → k ≤ n) ∧
        searchLayout size components bits fuel 1 (estimateMaxEntities components size) none=
          .ok (layoutFor size components bits n) := fun fuel hfuel =>
    searchLayout_spec h Nat.zero_lt_one (.inl rfl) (fun n hn => le_estimate h8 hn) (by omega)
  obtain ⟨n,hfit,hbest,hrun⟩ := hsearch (estimateMaxEntities components size+1) (Nat.le_succ _)
  refine ⟨n,hfit,hbest,?_,fun fuel hfuel => ?_⟩
  · unfold computeLayout
    rw [hbits]
    dsimp only
    rw [hrun]
    cases layoutFor size components bits n <;> rfl
  · obtain ⟨n',hfit',hbest',hrun'⟩ := hsearch fuel hfuel
    have hle : n' ≤ n := hfit'.elim (fun he => by omega) (hbest n')
    have hge : n ≤ n' := hfit.elim (fun he => by omega) (hbest' n)
    rwa [Nat.le_antisymm hle hge] at hrun'

end Search

section Fitting

/-- A placed column, none of whose offsets mentions the size of the chunk. -/
theorem layoutColumn_eq {st next : LayoutCursor} {des : ComponentDescriptor}
    (h : layoutColumn n size st des=.ok next) : next.cursor ≤ size ∧ ∃ o,
      st.stateOffsets.lookup des.storageTypeId=some o ∧ next={
        cursor := alignUp st.cursor des.align+des.byteSize*n
        maxAlign := max st.maxAlign des.align
        stateOffsets := st.stateOffsets.erase des.storageTypeId
        descriptors := st.descriptors.insert des.storageTypeId ⟨alignUp st.cursor des.align,o⟩
        columns := st.columns++[⟨des.storageTypeId,alignUp st.cursor des.align,des.byteSize,o⟩] } := by
  unfold layoutColumn at h
  dsimp only at h
  split at h
  · cases h
  · split at h
    · cases h
    · rename_i o ho
      split at h
      · cases h
      · rename_i bytes hbytes
        split at h
        · cases h
        · rename_i next hnext
          split at h
          · cases h
          · rename_i hle
            unfold checkedMul at hbytes
            unfold checkedAdd at hnext
            split at hbytes
            · cases hbytes
              split at hnext
              · cases hnext
                cases h
                exact ⟨Nat.le_of_not_lt hle,o,ho,rfl⟩
              · cases hnext
            · cases hbytes

/-- The columns of a layout do not depend on the chunk they are placed in. -/
theorem layoutColumns_size {size' : ℕ} {st out out' : LayoutCursor}
    (h : layoutColumns n size components st=.ok out)
    (h' : layoutColumns n size' components st=.ok out') : out'=out := by
  induction components generalizing st with
  | nil =>
    cases h
    cases h'
    rfl
  | cons des rest ih =>
    rw [layoutColumns] at h h'
    cases hstep : layoutColumn n size st des with
    | error e =>
      rw [hstep] at h
      cases h
    | ok next => cases hstep' : layoutColumn n size' st des with
      | error e =>
        rw [hstep'] at h'
        cases h'
      | ok next' =>
        have hnext : next'=next := by
          obtain ⟨-,o,ho,hn⟩ := layoutColumn_eq hstep
          obtain ⟨-,o',ho',hn'⟩ := layoutColumn_eq hstep'
          rw [ho] at ho'
          cases ho'
          rw [hn,hn']
        rw [hstep] at h
        rw [hstep',hnext] at h'
        exact ih h h'

/-- A second layout for the same rows repeats the first in a chunk of its own size. -/
theorem tryLayout_size_eq {size' : ℕ} {l' : ChunkLayout} (h : tryLayout n size components bits=.ok l)
    (h' : tryLayout n size' components bits=.ok l') :
    l'={ l with allocLayout := ⟨size',l.allocLayout.align⟩ } := by
  unfold tryLayout at h h'
  dsimp only at h h'
  split at h
  · cases h
  · rename_i out hout
    split at h'
    · cases h'
    · rename_i out' hout'
      cases layoutColumns_size hout hout'
      unfold AllocLayout.fromSizeAlign at h h'
      split at h
      · cases h
      · rename_i alloc halloc
        split at h'
        · cases h'
        · rename_i alloc' halloc'
          split at halloc
          · cases halloc
          · split at halloc'
            · cases halloc'
            · cases halloc
              cases halloc'
              cases h
              cases h'
              rfl

/-- The end of the row, reconstructed from the columns of a layout. -/
theorem used_eq (hp : Placed 1 size components l) :
    (l.columns.map fun c => c.offset+c.byteSize).foldl max l.header.size=rowsEnd 1 components := by
  have hcols : ∀ c (os : List StateOffset) components,os.length=components.length →
      (columnsFrom 1 c components os).map (fun col => col.offset+col.byteSize)=
        (placed c (columnBlocks 1 components)).map fun p => p.1+p.2.size := by
    intro c os components hlen
    induction components generalizing c os with
    | nil => rfl
    | cons des rest ih => cases os with
      | nil => cases hlen
      | cons o os =>
        have hblocks : columnBlocks 1 (des::rest)=
          ⟨des.align,des.byteSize*1⟩::columnBlocks 1 rest := rfl
        rw [columnsFrom,hblocks,placed_cons,List.map_cons,List.map_cons,ih _ _ (Nat.succ.inj hlen)]
        dsimp only
        rw [Nat.mul_one]
  rw [hp.columns,hp.header,hcols _ _ _ (length_statesFrom 1 0 components),
    finish_eq_max (columnBlocks_pos 1 components),rowsEnd_eq]

/-- The fitted layout of a singleton has the offsets of its probe, in the smallest chunk
that is a multiple of the alignment and holds the row. -/
theorem newFitted_repeats {probe : ChunkLayout}
    (hbits : buildComponentBitSet specs components .empty=.ok bits)
    (hprobe : tryLayout 1 (isizeMax/2) components bits=.ok probe) : ∃ l,
    ChunkLayout.newFitted specs components=.ok l ∧ l.maxLen=1 ∧ l.header=probe.header ∧
      l.columns=probe.columns ∧ l.componentColDescriptors=probe.componentColDescriptors ∧
      l.allocLayout.align=probe.allocLayout.align ∧ l.allocLayout.align ∣ l.chunkSizeInByte ∧
      rowsEnd 1 components ≤ l.chunkSizeInByte ∧
      l.chunkSizeInByte < rowsEnd 1 components+l.allocLayout.align := by
  obtain ⟨hn,-,-,-⟩ := buildComponentBitSet_ok hbits
  have hempty : components=[] → rowsEnd 1 components ≤ isizeMax/2 := by
    rintro rfl
    decide
  obtain ⟨hp,hle⟩ := tryLayout_inside hn hempty hprobe
  obtain ⟨⟨k,hk⟩,-,-⟩ := maxAlignOf_dvd (a:=cpuWord) components ⟨3,rfl⟩
  let chunk := roundUp (rowsEnd 1 components) (2^k)
  have hpos : 0 < 2^k := Nat.two_pow_pos k
  have halign : probe.allocLayout.align=2^k := by rw [hp.allocLayout,←hk]
  have hpow : k ≤ 62 := by
    have htaken := (tryLayout_placed hn (tryLayout_size hprobe) hempty bits).1 hle
    rw [hk] at htaken
    have hbound : 2^k < 2^63 := by
      by_contra hge
      have hrefused : AllocLayout.fromSizeAlign (isizeMax/2) (2^k)=
          .error (.chunkLayoutAllocation (isizeMax/2) (2^k)) := by
        refine if_pos ?_
        rw [isizeMax]
        omega
      rw [hrefused] at htaken
      rw [hprobe] at htaken
      cases htaken
    exact Nat.le_of_lt_succ ((Nat.pow_lt_pow_iff_right (by decide)).mp hbound)
  have hrow : 0 < rowsEnd 1 components := by
    have hbits := bits_le_rowsEnd 1 components
    rw [bitsPerEntity] at hbits
    by_contra hzero
    rw [Nat.eq_zero_of_not_pos hzero] at hbits
    have hhandle : 0 < entityByteSize*bitsPerByte := by decide
    omega
  have hchunk : chunk ≤ 2^62 := by
    have hmax : rowsEnd 1 components ≤ 2^62 := hle.trans (by decide)
    refine (roundUp_mono hmax).trans_eq (roundUp_eq_self hpos (Nat.pow_dvd_pow 2 hpow))
  have hsmall : 2^k ≤ 2^62 := Nat.pow_le_pow_right (by decide) hpow
  have htaken : AllocLayout.fromSizeAlign chunk (maxAlignOf cpuWord components)=
      .ok ⟨chunk,maxAlignOf cpuWord components⟩ := by
    refine if_neg ?_
    rw [hk,isizeMax]
    omega
  have hholds : rowsEnd 1 components ≤ chunk := le_roundUp hpos
  have hsecond := (tryLayout_placed hn (show chunk<usizeRange by rw [usizeRange]; omega)
    (fun _ => hholds) bits).1 hholds
  rw [htaken] at hsecond
  obtain ⟨l,hl,hpl⟩ := hsecond
  have hsame := tryLayout_size_eq hprobe hl
  have hfitted : ChunkLayout.newFitted specs components=.ok l := by
    unfold ChunkLayout.newFitted
    rw [hbits]
    dsimp only
    rw [hprobe]
    dsimp only
    rw [used_eq hp,Nat.max_eq_left hrow,halign,alignUp_eq ⟨k,rfl⟩]
    exact hl
  have hsize : l.chunkSizeInByte=chunk := by rw [hsame]; rfl
  have halign' : l.allocLayout.align=2^k := by rw [hsame]; exact halign
  refine ⟨l,hfitted,hpl.maxLen,by rw [hsame],by rw [hsame],by rw [hsame],halign'.trans halign.symm,?_,
    ?_,?_⟩
  · rw [hsize,halign']
    exact dvd_roundUp _ _
  · rw [hsize]
    exact hholds
  · rw [hsize,halign']
    exact roundUp_lt hpos

theorem newFitted_repeats_mixed : ∃ bits probe,
    buildComponentBitSet mixedSpecs mixedComponents .empty=.ok bits ∧
    tryLayout 1 (isizeMax/2) mixedComponents bits=.ok probe ∧ ∃ l,
    ChunkLayout.newFitted mixedSpecs mixedComponents=.ok l ∧ l.maxLen=1 ∧ l.header=probe.header ∧
      l.columns=probe.columns ∧ l.componentColDescriptors=probe.componentColDescriptors ∧
      l.allocLayout.align=probe.allocLayout.align ∧ l.allocLayout.align ∣ l.chunkSizeInByte ∧
      rowsEnd 1 mixedComponents ≤ l.chunkSizeInByte ∧
      l.chunkSizeInByte < rowsEnd 1 mixedComponents+l.allocLayout.align :=
  ⟨_,_,rfl,rfl,newFitted_repeats rfl rfl⟩

end Fitting

end XynokEcs.LayoutSearch
