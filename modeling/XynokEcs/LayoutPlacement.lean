import XynokEcs.BlockPlacement
import XynokEcs.ChunkLayouts
import Mathlib.Data.List.Forall2

/-!
# A chunk layout is a placement of its regions

The state regions of the components, the handles and the columns are blocks laid
one after another. The offsets the header and the column pass come to are the
offsets of that placement, and a layout exists exactly when the last block ends
inside the chunk.
-/

namespace XynokEcs.LayoutPlacement

open ComponentTypes ComponentBits SequenceValueMap ChunkLayouts BlockPlacement

variable {n size : ℕ} {components : List ComponentDescriptor} {des : ComponentDescriptor}

section Rounding

/-- `align_up` rounds up. -/
theorem alignUp_eq {align : ℕ} (h : ∃ k,align=2^k) (x : ℕ) : alignUp x align=roundUp x align := by
  obtain ⟨k,rfl⟩ := h
  have hdiv := Nat.div_add_mod (x+2^k-1) (2^k)
  rw [alignUp,Nat.and_two_pow_sub_one_eq_mod,roundUp,Nat.mul_comm]
  omega

/-- Aligning to a word is rounding up to its multiple. -/
theorem alignUp_word (x : ℕ) : alignUp x cpuWord=roundUp x cpuWord := alignUp_eq ⟨3,rfl⟩ x

/-- No alignment is zero. -/
theorem align_pos (t : StorageType) : 0 < t.align := by
  obtain ⟨k,hk⟩ := t.align_pow
  rw [hk]
  exact Nat.two_pow_pos k

end Rounding

section Regions

/-- The parts of a chunk. -/
inductive Region
  | enable (t : StorageType)
  | added (t : StorageType)
  | changed (t : StorageType)
  | entities
  | column (t : StorageType)
deriving DecidableEq

/-- The block a region is for a number of rows. The header rounds to words. -/
def Region.block (n : ℕ) : Region → Block
  | enable _ => ⟨cpuWord,divCeil n bitsPerByte⟩
  | added _ | changed _ => ⟨cpuWord,n*changedTickByteSize⟩
  | entities => ⟨entityAlign,n*entityByteSize⟩
  | column t => ⟨t.align,t.byteSize*n⟩

/-- No block is aligned to zero. -/
theorem Region.block_align_pos (r : Region) (n : ℕ) : 0 < (r.block n).align := by
  cases r with
  | column t => exact align_pos t
  | _ => exact Nat.succ_pos 7

/-- The state regions of a component, in order. -/
def stateRegions (des : ComponentDescriptor) : List Region :=
  (if des.stateDetection.needsEnable then [.enable des.storageTypeId] else [])++
    if des.stateDetection.needsChange then [.added des.storageTypeId,.changed des.storageTypeId]
    else []

/-- The regions of the header. -/
def headerRegions (components : List ComponentDescriptor) : List Region :=
  components.flatMap stateRegions++[.entities]

/-- All regions of a chunk, in order. -/
def regionsOf (components : List ComponentDescriptor) : List Region :=
  headerRegions components++components.map fun des => .column des.storageTypeId

/-- The blocks some regions are for a number of rows. -/
def blocksOf (n : ℕ) (regions : List Region) : List Block := regions.map (Region.block n)

/-- None of several blocks is aligned to zero. -/
theorem blocksOf_pos (n : ℕ) (regions : List Region) : ∀ b∈blocksOf n regions,0 < b.align := by
  intro b hb
  obtain ⟨r,-,rfl⟩ := List.mem_map.mp hb
  exact r.block_align_pos n

/-- Blocks are listed region by region. -/
theorem blocksOf_append (n : ℕ) (a b : List Region) :
    blocksOf n (a++b)=blocksOf n a++blocksOf n b := List.map_append

end Regions

section Header

variable {offset c : ℕ}

/-- The starts of the state regions a component has. -/
def StateOffset.starts (o : StateOffset) : List ℕ :=
  o.enableOffset.toList++(o.addedOffset.toList++o.changedOffset.toList)

/-- Rounding up one of two summands first makes no difference. -/
theorem roundUp_roundUp (x y : ℕ) :
    roundUp (roundUp x cpuWord+roundUp y cpuWord) cpuWord=roundUp (roundUp x cpuWord+y) cpuWord := by
  have hx := dvd_roundUp x cpuWord
  have hw : 0 < cpuWord := by decide
  have hle := le_roundUp (x:=y) hw
  rw [roundUp_eq_self hw (Nat.dvd_add hx (dvd_roundUp y cpuWord))]
  obtain ⟨k,hk⟩ := hx
  rw [hk,roundUp,roundUp,cpuWord]
  omega

/-- The state regions of one component are placed after what came before. -/
theorem regions_placed (h : roundUp c cpuWord=offset) :
    StateOffset.starts (Header.regions n offset des).1=offsets c (blocksOf n (stateRegions des)) ∧
      (Header.regions n offset des).2=roundUp (finish c (blocksOf n (stateRegions des))) cpuWord := by
  subst h
  unfold Header.regions stateRegions
  cases des.stateDetection.needsEnable <;> cases des.stateDetection.needsChange <;>
    simp only [alignUp_word,roundUp_roundUp,if_true,if_false,Bool.false_eq_true] <;>
    exact ⟨rfl,rfl⟩

/-- The state offsets of the components, in order. -/
def statesFrom (n : ℕ) : ℕ → List ComponentDescriptor → List StateOffset
  | _,[] => []
  | offset,des::rest => (Header.regions n offset des).1::
      statesFrom n (Header.regions n offset des).2 rest

/-- Each component has its state offsets. -/
theorem length_statesFrom (n offset : ℕ) (components : List ComponentDescriptor) :
    (statesFrom n offset components).length=components.length := by
  induction components generalizing offset with
  | nil => rfl
  | cons des rest ih => rw [statesFrom,List.length_cons,List.length_cons,ih]

/-- The state regions of all components are placed one after another. -/
theorem states_placed (h : roundUp c cpuWord=offset)
    (dst : HashMap StorageType StateOffset) :
    (statesFrom n offset components).flatMap StateOffset.starts=
      offsets c (blocksOf n (components.flatMap stateRegions)) ∧
    (Header.states n components offset dst).1=
      roundUp (finish c (blocksOf n (components.flatMap stateRegions))) cpuWord := by
  induction components generalizing c offset dst with
  | nil => exact ⟨rfl,h.symm⟩
  | cons des rest ih =>
    obtain ⟨hstarts,hend⟩ := regions_placed h
    obtain ⟨hstarts',hend'⟩ := ih hend.symm (dst.insert des.storageTypeId
      (Header.regions n offset des).1)
    rw [List.flatMap_cons,blocksOf_append,offsets_append,finish_append]
    refine ⟨?_,hend'⟩
    rw [statesFrom,List.flatMap_cons,hstarts,hstarts']

/-- The header looks its state offsets up by storage type. -/
theorem states_lookup (hn : (components.map ComponentDescriptor.storageTypeId).Nodup) (offset : ℕ)
    (dst : HashMap StorageType StateOffset) :
    List.Forall₂ (fun des o =>
        (Header.states n components offset dst).2.lookup des.storageTypeId=some o)
      components (statesFrom n offset components) := by
  induction components generalizing offset dst with
  | nil => exact .nil
  | cons des rest ih =>
    rw [List.map_cons,List.nodup_cons] at hn
    refine .cons ?_ (ih hn.2 _ _)
    rw [Header.states,(Header.states_lookup hn.2 _ _).2 _ hn.1,AList.lookup_insert]

/-- The header is the placement of its regions. -/
theorem header_placed (n : ℕ) (components : List ComponentDescriptor) :
    (statesFrom n 0 components).flatMap StateOffset.starts++[(Header.new n components).1.entitiesOffset]=
      offsets 0 (blocksOf n (headerRegions components)) ∧
    (Header.new n components).1.size=finish 0 (blocksOf n (headerRegions components)) := by
  have hzero : roundUp 0 cpuWord=0 := by decide
  obtain ⟨hstarts,hend⟩ : (statesFrom n 0 components).flatMap StateOffset.starts=
      offsets 0 (blocksOf n (components.flatMap stateRegions)) ∧
    (Header.states n components 0 ∅).1=
      roundUp (finish 0 (blocksOf n (components.flatMap stateRegions))) cpuWord :=
    states_placed hzero ∅
  have hself : ∀ x,roundUp (roundUp x cpuWord) cpuWord=roundUp x cpuWord := fun x =>
    roundUp_eq_self (by decide) (dvd_roundUp x cpuWord)
  have hentities : (Header.new n components).1.entitiesOffset=
      roundUp (finish 0 (blocksOf n (components.flatMap stateRegions))) cpuWord := by
    change alignUp (Header.states n components 0 ∅).1 cpuWord=_
    rw [alignUp_word,hend,hself]
  rw [headerRegions,blocksOf_append,offsets_append,finish_append,←hstarts,hentities]
  refine ⟨rfl,?_⟩
  have hdvd : cpuWord ∣ (Header.new n components).1.entitiesOffset+n*entityByteSize := by
    rw [hentities]
    exact Nat.dvd_add (dvd_roundUp _ _) (Nat.dvd_mul_left cpuWord n)
  change alignUp ((Header.new n components).1.entitiesOffset+n*entityByteSize) cpuWord=_
  rw [alignUp_word,roundUp_eq_self (by decide) hdvd,hentities]
  rfl

end Header

section Columns

/-- The blocks of the columns. -/
def columnBlocks (n : ℕ) (components : List ComponentDescriptor) : List Block :=
  components.map fun des => ⟨des.align,des.byteSize*n⟩

/-- No column is aligned to zero. -/
theorem columnBlocks_pos (n : ℕ) (components : List ComponentDescriptor) :
    ∀ b∈columnBlocks n components,0 < b.align := by
  intro b hb
  obtain ⟨des,-,rfl⟩ := List.mem_map.mp hb
  exact align_pos des.storageTypeId

/-- The columns with their offsets, in order. -/
def columnsFrom (n : ℕ) : ℕ → List ComponentDescriptor → List StateOffset → List ColumnEntry
  | c,des::rest,o::os => ⟨des.storageTypeId,roundUp c des.align,des.byteSize,o⟩::
      columnsFrom n (roundUp c des.align+des.byteSize*n) rest os
  | _,_,_ => []

/-- The largest alignment. -/
def maxAlignOf (a : ℕ) (components : List ComponentDescriptor) : ℕ :=
  components.foldl (fun a des => max a des.align) a

/-- Columns start where their blocks are placed. -/
theorem columnsFrom_offsets (n c : ℕ) {os : List StateOffset} (h : os.length=components.length) :
    (columnsFrom n c components os).map ColumnEntry.offset=offsets c (columnBlocks n components) := by
  induction components generalizing c os with
  | nil => rfl
  | cons des rest ih => cases os with
    | nil => cases h
    | cons o os =>
      rw [columnsFrom,List.map_cons,ih _ (Nat.succ.inj h)]
      rfl

/-- Taking one component's state offsets leaves those of the others. -/
theorem lookup_erased {m : HashMap StorageType StateOffset} {t : StorageType}
    {os : List StateOffset}
    (h : List.Forall₂ (fun des o => m.lookup des.storageTypeId=some o) components os)
    (ht : t∉components.map ComponentDescriptor.storageTypeId) :
    List.Forall₂ (fun des o => (m.erase t).lookup des.storageTypeId=some o) components os := by
  induction h with
  | nil => exact .nil
  | cons hlook _ ih =>
    rw [List.map_cons,List.mem_cons,not_or] at ht
    refine .cons ?_ (ih ht.2)
    rwa [AList.lookup_erase_ne (Ne.symm ht.1)]

/-- The column pass places the columns, and stops exactly when the last one does not
end inside the chunk. -/
theorem layoutColumns_placed (hn : (components.map ComponentDescriptor.storageTypeId).Nodup)
    (hsize : size<usizeRange) {st : LayoutCursor} {os : List StateOffset}
    (hos : List.Forall₂ (fun des o => st.stateOffsets.lookup des.storageTypeId=some o) components os)
    (hc : components=[] → st.cursor ≤ size) :
    (finish st.cursor (columnBlocks n components) ≤ size → ∃ out,
      layoutColumns n size components st=.ok out ∧
      out.maxAlign=maxAlignOf st.maxAlign components ∧
      out.columns=st.columns++columnsFrom n st.cursor components os) ∧
    (size < finish st.cursor (columnBlocks n components) →
      layoutColumns n size components st=.error .archetypeIsTooLarge) := by
  induction components generalizing st os with
  | nil =>
    refine ⟨fun _ => ⟨st,rfl,rfl,(List.append_nil _).symm⟩,fun hlt => ?_⟩
    exact absurd hlt (Nat.not_lt.mpr (hc rfl))
  | cons des rest ih =>
    rw [List.map_cons,List.nodup_cons] at hn
    obtain _ | ⟨hlook,hrest⟩ := hos
    rename_i o os
    let start := roundUp st.cursor des.align
    have hstart : alignUp st.cursor des.align=start := alignUp_eq des.storageTypeId.align_pow _
    have hend := le_finish (c:=start+des.byteSize*n) (columnBlocks_pos n rest)
    have hfinish : finish st.cursor (columnBlocks n (des::rest))=
        finish (start+des.byteSize*n) (columnBlocks n rest) := rfl
    rw [hfinish,layoutColumns]
    by_cases hfit : start+des.byteSize*n ≤ size
    · let next : LayoutCursor := {
        cursor := start+des.byteSize*n
        maxAlign := max st.maxAlign des.align
        stateOffsets := st.stateOffsets.erase des.storageTypeId
        descriptors := st.descriptors.insert des.storageTypeId ⟨start,o⟩
        columns := st.columns++[⟨des.storageTypeId,start,des.byteSize,o⟩] }
      have hnext : layoutColumn n size st des=.ok next := by
        unfold layoutColumn
        dsimp only
        rw [hstart,if_neg (by omega),hlook]
        dsimp only
        rw [checkedMul,if_pos (by omega)]
        dsimp only
        rw [checkedAdd,if_pos (by omega)]
        exact if_neg (by omega)
      have hlater : List.Forall₂ (fun des o => next.stateOffsets.lookup des.storageTypeId=some o)
          rest os := lookup_erased hrest hn.1
      rw [hnext]
      obtain ⟨h1,h2⟩ := ih hn.2 hlater fun _ => hfit
      refine ⟨fun hle => ?_,h2⟩
      obtain ⟨out,hrun,halign,hcols⟩ := h1 hle
      refine ⟨out,hrun,halign,?_⟩
      rw [hcols,List.append_assoc]
      rfl
    · have hlarge : layoutColumn n size st des=.error .archetypeIsTooLarge := by
        unfold layoutColumn
        dsimp only
        rw [hstart]
        split
        · rfl
        · rw [hlook]
          dsimp only
          unfold checkedMul
          split
          · rename_i hm
            split at hm
            · cases hm
            · rfl
          · rename_i m hm
            split at hm
            · cases hm
              unfold checkedAdd
              split
              · rfl
              · rename_i hadd
                split at hadd
                · cases hadd
                  exact if_pos (by omega)
                · cases hadd
            · cases hm
      rw [hlarge]
      exact ⟨fun hle => absurd (hend.trans hle) hfit,fun _ => rfl⟩

end Columns

section Layouts

variable {bits : ComponentBitSet} {l : ChunkLayout}

/-- Where the last region of a chunk with that many rows ends. -/
def rowsEnd (n : ℕ) (components : List ComponentDescriptor) : ℕ :=
  finish 0 (blocksOf n (regionsOf components))

/-- The blocks of the columns are those of their regions. -/
theorem blocksOf_columns (n : ℕ) (components : List ComponentDescriptor) :
    blocksOf n (components.map fun des => .column des.storageTypeId)=columnBlocks n components := by
  rw [blocksOf,List.map_map]
  rfl

/-- The rows end where the last column does. -/
theorem rowsEnd_eq (n : ℕ) (components : List ComponentDescriptor) :
    rowsEnd n components=finish (Header.new n components).1.size (columnBlocks n components) := by
  rw [rowsEnd,regionsOf,blocksOf_append,finish_append,blocksOf_columns,(header_placed n components).2]

/-- The header alone ends where the handles do. -/
theorem header_le_rowsEnd (n : ℕ) (components : List ComponentDescriptor) :
    (Header.new n components).1.size ≤ rowsEnd n components := by
  rw [rowsEnd_eq]
  exact le_finish (columnBlocks_pos n components)

/-- A layout with its regions in place. -/
structure Placed (n size : ℕ) (components : List ComponentDescriptor) (l : ChunkLayout) : Prop where
  /-- The capacity that was tried. -/
  maxLen : l.maxLen=n
  /-- The header of that many rows. -/
  header : l.header=(Header.new n components).1
  /-- As many bytes as were given, aligned for every component. -/
  allocLayout : l.allocLayout=⟨size,maxAlignOf cpuWord components⟩
  /-- The columns come after the header, in order. -/
  columns : l.columns=
    columnsFrom n (Header.new n components).1.size components (statesFrom n 0 components)

/-- `try_layout` places the regions when the last one ends inside the chunk and the
allocator takes the chunk, and says which of the two failed otherwise. -/
theorem tryLayout_placed (hn : (components.map ComponentDescriptor.storageTypeId).Nodup)
    (hsize : size<usizeRange) (hc : components=[] → rowsEnd n components ≤ size)
    (bits : ComponentBitSet) :
    (rowsEnd n components ≤ size → match
      AllocLayout.fromSizeAlign size (maxAlignOf cpuWord components) with
      | .ok _ => ∃ l,tryLayout n size components bits=.ok l ∧ Placed n size components l
      | .error e => tryLayout n size components bits=.error e) ∧
    (size < rowsEnd n components → tryLayout n size components bits=.error .archetypeIsTooLarge) := by
  have hcursor : components=[] → (Header.new n components).1.size ≤ size := fun he =>
    (header_le_rowsEnd n components).trans (hc he)
  let start : LayoutCursor :=
    ⟨(Header.new n components).1.size,cpuWord,(Header.new n components).2,∅,[]⟩
  have hlook : List.Forall₂ (fun des o => start.stateOffsets.lookup des.storageTypeId=some o)
      components (statesFrom n 0 components) := states_lookup hn 0 ∅
  obtain ⟨hfits,hlarge⟩ := layoutColumns_placed (n:=n) hn hsize hlook hcursor
  rw [rowsEnd_eq]
  constructor
  · intro hle
    obtain ⟨out,hrun,halign,hcols⟩ := hfits hle
    have halign : out.maxAlign=maxAlignOf cpuWord components := halign
    unfold tryLayout
    dsimp only
    rw [hrun]
    dsimp only
    rw [halign]
    cases hal : AllocLayout.fromSizeAlign size (maxAlignOf cpuWord components) with
    | error e => rfl
    | ok alloc =>
      have halloc : alloc=⟨size,maxAlignOf cpuWord components⟩ := by
        unfold AllocLayout.fromSizeAlign at hal
        split at hal
        · cases hal
        · exact (Except.ok.inj hal).symm
      exact ⟨_,rfl,rfl,rfl,halloc,hcols⟩
  · intro hlt
    unfold tryLayout
    dsimp only
    rw [hlarge hlt]

/-- A layout comes with a chunk size the allocator takes. -/
theorem tryLayout_size (h : tryLayout n size components bits=.ok l) : size<usizeRange := by
  unfold tryLayout at h
  dsimp only at h
  split at h
  · cases h
  · split at h
    · cases h
    · rename_i alloc halloc
      unfold AllocLayout.fromSizeAlign at halloc
      split at halloc
      · cases halloc
      · rename_i hle
        rw [usizeRange]
        rw [isizeMax] at hle
        omega

/-- A layout of some components is a placement inside its chunk. -/
theorem tryLayout_inside (hn : (components.map ComponentDescriptor.storageTypeId).Nodup)
    (hc : components=[] → rowsEnd n components ≤ size)
    (h : tryLayout n size components bits=.ok l) :
    Placed n size components l ∧ rowsEnd n components ≤ size := by
  obtain ⟨hfits,hlarge⟩ := tryLayout_placed hn (tryLayout_size h) hc bits
  by_cases hle : rowsEnd n components ≤ size
  · have hfits := hfits hle
    split at hfits
    · obtain ⟨l',hl',hp⟩ := hfits
      rw [h] at hl'
      cases hl'
      exact ⟨hp,hle⟩
    · rw [h] at hfits
      cases hfits
  · rw [hlarge (Nat.lt_of_not_le hle)] at h
    cases h

end Layouts

end XynokEcs.LayoutPlacement
