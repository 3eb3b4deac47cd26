import XynokEcs.LayoutPlacement

/-!
# Every region of a chunk has a place of its own

A layout that was built names a start for each region its components ask for and
for no other. The regions, each sized for all rows, lie inside the chunk, are
aligned for what they hold and do not overlap, and the chunk itself is allocated
at a multiple of every alignment in it.
-/

namespace XynokEcs.LayoutRegions

open ComponentTypes ComponentBits SequenceValueMap ChunkLayouts BlockPlacement LayoutPlacement

variable {n size : ℕ} {components : List ComponentDescriptor} {specs : ComponentSpecs}
  {bits : ComponentBitSet} {l : ChunkLayout}

section Starts

/-- Where a region of a layout starts, when it has it. -/
def regionStart (l : ChunkLayout) : Region → Option ℕ
  | .enable t => (l.componentColDescriptors.lookup t).bind fun d => d.stateOffset.enableOffset
  | .added t => (l.componentColDescriptors.lookup t).bind fun d => d.stateOffset.addedOffset
  | .changed t => (l.componentColDescriptors.lookup t).bind fun d => d.stateOffset.changedOffset
  | .entities => some l.header.entitiesOffset
  | .column t => (l.componentColDescriptors.lookup t).map ColumnDescriptor.offset

theorem columnsFrom_states (n c : ℕ) {os : List StateOffset} (h : os.length=components.length) :
    (columnsFrom n c components os).map ColumnEntry.stateOffset=os := by
  induction components generalizing c os with
  | nil => exact (List.length_eq_zero_iff.mp h).symm
  | cons des rest ih => cases os with
    | nil => cases h
    | cons o os => rw [columnsFrom,List.map_cons,ih _ (Nat.succ.inj h)]

/-- Looking the components up finds the columns, in order. -/
theorem lookup_columns (h : l.Of specs components) :
    components.map (fun des => l.componentColDescriptors.lookup des.storageTypeId)=
      l.columns.map fun col => some ⟨col.offset,col.stateOffset⟩ := by
  have hmap : components.map (fun des => l.componentColDescriptors.lookup des.storageTypeId)=
      (components.map ComponentDescriptor.storageTypeId).map fun t =>
        l.componentColDescriptors.lookup t := by
    rw [List.map_map]
    rfl
  rw [hmap,←h.columns_types,List.map_map]
  exact List.map_congr_left fun col hcol => h.lookup_column col hcol

/-- The state regions a component asked for start where its state offsets say. -/
theorem stateRegions_starts {des : ComponentDescriptor} {o : StateOffset}
    (hlook : (l.componentColDescriptors.lookup des.storageTypeId).map ColumnDescriptor.stateOffset=
      some o) (hm : o.Matches des.stateDetection) :
    (stateRegions des).map (regionStart l)=(StateOffset.starts o).map some := by
  obtain ⟨d,hd,rfl⟩ := Option.map_eq_some_iff.mp hlook
  have he := hm.enable
  have ha := hm.added
  have hc := hm.changed
  obtain ⟨x,e,a,c⟩ := d
  unfold stateRegions
  cases e <;> cases a <;> cases c <;>
    simp_all [regionStart,StateOffset.starts]

theorem states_starts {os : List StateOffset}
    (hlook : components.map (fun des =>
      (l.componentColDescriptors.lookup des.storageTypeId).map ColumnDescriptor.stateOffset)=
        os.map some)
    (hm : ∀ des∈components,∀ d,l.componentColDescriptors.lookup des.storageTypeId=some d →
      d.stateOffset.Matches des.stateDetection) :
    (components.flatMap stateRegions).map (regionStart l)=
      (os.flatMap StateOffset.starts).map some := by
  induction components generalizing os with
  | nil =>
    rw [List.map_nil] at hlook
    rw [List.map_eq_nil_iff.mp hlook.symm]
    rfl
  | cons des rest ih => cases os with
    | nil => cases hlook
    | cons o os =>
      rw [List.map_cons,List.map_cons,List.cons_eq_cons] at hlook
      obtain ⟨hdes,hrest⟩ := hlook
      have hmatch : o.Matches des.stateDetection := by
        obtain ⟨d,hd,rfl⟩ := Option.map_eq_some_iff.mp hdes
        exact hm des List.mem_cons_self d hd
      rw [List.flatMap_cons,List.flatMap_cons,List.map_append,List.map_append,
        stateRegions_starts hdes hmatch,
        ih hrest fun d hd => hm d (List.mem_cons_of_mem _ hd)]

/-- The regions start where the placement puts them. -/
theorem regions_starts (h : l.Of specs components) (hp : Placed n size components l) :
    (regionsOf components).map (regionStart l)=
      (offsets 0 (blocksOf n (regionsOf components))).map some := by
  have hlen := length_statesFrom n 0 components
  have hstates : components.map (fun des =>
      (l.componentColDescriptors.lookup des.storageTypeId).map ColumnDescriptor.stateOffset)=
        (statesFrom n 0 components).map some := by
    have hcols := congrArg (List.map (Option.map ColumnDescriptor.stateOffset)) (lookup_columns h)
    rw [List.map_map,List.map_map,hp.columns] at hcols
    have hos := columnsFrom_states n (Header.new n components).1.size hlen
    have hsome := congrArg (List.map some) hos
    rw [List.map_map] at hsome
    exact hcols.trans hsome
  have hcolumns : components.map (fun des => regionStart l (.column des.storageTypeId))=
      (offsets (Header.new n components).1.size (columnBlocks n components)).map some := by
    have hcols := congrArg (List.map (Option.map ColumnDescriptor.offset)) (lookup_columns h)
    rw [List.map_map,List.map_map,hp.columns] at hcols
    have hos := columnsFrom_offsets n (Header.new n components).1.size hlen
    have hsome := congrArg (List.map some) hos
    rw [List.map_map] at hsome
    exact hcols.trans hsome
  have hentities : regionStart l .entities=some (Header.new n components).1.entitiesOffset := by
    rw [regionStart,hp.header]
  obtain ⟨hheader,hend⟩ := header_placed n components
  rw [regionsOf,blocksOf_append,offsets_append,List.map_append,List.map_append,←hheader,
    blocksOf_columns,←hend,←hcolumns,headerRegions,List.map_append,List.map_append,
    states_starts hstates h.state_matches,List.map_map,List.map_singleton,List.map_singleton,hentities]
  rfl

/-- Only the components' own regions have a start. -/
theorem regionStart_isSome (h : l.Of specs components) (hp : Placed n size components l)
    (r : Region) : (regionStart l r).isSome=true ↔ r∈regionsOf components := by
  have hlook : ∀ {t d},l.componentColDescriptors.lookup t=some d →
      ∃ des∈components,des.storageTypeId=t ∧ d.stateOffset.Matches des.stateDetection := by
    intro t d hd
    have hmem := (h.mem_keys t).mp (AList.lookup_isSome.mp (by rw [hd]; rfl))
    obtain ⟨des,hdes,rfl⟩ := List.mem_map.mp hmem
    exact ⟨des,hdes,rfl,h.state_matches des hdes d hd⟩
  have hstates : ∀ des∈components,r∈stateRegions des → r∈regionsOf components := fun des hdes hr =>
    List.mem_append_left _ (List.mem_append_left _ (List.mem_flatMap.mpr ⟨des,hdes,hr⟩))
  constructor
  · intro hs
    cases r with
    | entities =>
      exact List.mem_append_left _ (List.mem_append_right _ List.mem_cons_self)
    | column t =>
      obtain ⟨d,hd⟩ := Option.isSome_iff_exists.mp ((Option.isSome_map ..).symm.trans hs)
      obtain ⟨des,hdes,rfl,-⟩ := hlook hd
      exact List.mem_append_right _ (List.mem_map.mpr ⟨des,hdes,rfl⟩)
    | enable t =>
      obtain ⟨x,hx⟩ := Option.isSome_iff_exists.mp hs
      obtain ⟨d,hd,ho⟩ := Option.bind_eq_some_iff.mp hx
      obtain ⟨des,hdes,rfl,hm⟩ := hlook hd
      have hneeds := hm.enable
      rw [ho,Option.isSome_some] at hneeds
      refine hstates des hdes ?_
      rw [stateRegions,if_pos hneeds.symm]
      exact List.mem_append_left _ List.mem_cons_self
    | added t =>
      obtain ⟨x,hx⟩ := Option.isSome_iff_exists.mp hs
      obtain ⟨d,hd,ho⟩ := Option.bind_eq_some_iff.mp hx
      obtain ⟨des,hdes,rfl,hm⟩ := hlook hd
      have hneeds := hm.added
      rw [ho,Option.isSome_some] at hneeds
      refine hstates des hdes ?_
      rw [stateRegions,if_pos hneeds.symm]
      exact List.mem_append_right _ List.mem_cons_self
    | changed t =>
      obtain ⟨x,hx⟩ := Option.isSome_iff_exists.mp hs
      obtain ⟨d,hd,ho⟩ := Option.bind_eq_some_iff.mp hx
      obtain ⟨des,hdes,rfl,hm⟩ := hlook hd
      have hneeds := hm.changed
      rw [ho,Option.isSome_some] at hneeds
      refine hstates des hdes ?_
      rw [stateRegions,if_pos hneeds.symm]
      exact List.mem_append_right _ (List.mem_cons_of_mem _ List.mem_cons_self)
  · intro hr
    have hmem := List.mem_map_of_mem (f:=regionStart l) hr
    rw [regions_starts h hp] at hmem
    obtain ⟨x,-,hx⟩ := List.mem_map.mp hmem
    rw [←hx]
    rfl

end Starts

section Alignment

variable {a : ℕ}

theorem dvd_of_pow_le {i j : ℕ} (h : 2^i ≤ 2^j) : 2^i ∣ 2^j :=
  Nat.pow_dvd_pow 2 ((Nat.pow_le_pow_iff_right (by decide)).mp h)

/-- The largest alignment is a multiple of all of them. -/
theorem maxAlignOf_dvd (components : List ComponentDescriptor) (ha : ∃ k,a=2^k) : (∃ k,maxAlignOf a components=2^k) ∧
    a ∣ maxAlignOf a components ∧ ∀ des∈components,des.align ∣ maxAlignOf a components := by
  induction components generalizing a with
  | nil => exact ⟨ha,Nat.dvd_refl a,fun des hd => absurd hd List.not_mem_nil⟩
  | cons des rest ih =>
    obtain ⟨i,rfl⟩ := ha
    obtain ⟨j,hj⟩ := des.storageTypeId.align_pow
    have hj : des.align=2^j := hj
    have hmax : (∃ k,max (2^i) des.align=2^k) ∧ 2^i ∣ max (2^i) des.align ∧
        des.align ∣ max (2^i) des.align := by
      rw [hj]
      obtain hle | hle := Nat.le_total (2^i) (2^j)
      · rw [Nat.max_eq_right hle]
        exact ⟨⟨j,rfl⟩,dvd_of_pow_le hle,Nat.dvd_refl _⟩
      · rw [Nat.max_eq_left hle]
        exact ⟨⟨i,rfl⟩,Nat.dvd_refl _,dvd_of_pow_le hle⟩
    obtain ⟨hpow,hdvd,hall⟩ := ih hmax.1
    refine ⟨hpow,hmax.2.1.trans hdvd,fun e he => ?_⟩
    obtain rfl | he := List.mem_cons.mp he
    · exact hmax.2.2.trans hdvd
    · exact hall e he

end Alignment

section WellFormed

/-- The alignment of what a region holds: bytes of bits, ticks, handles, values. -/
def Region.elementAlign : Region → ℕ
  | .enable _ => 1
  | .added _ | .changed _ => changedTickByteSize
  | .entities => entityAlign
  | .column t => t.align

/-- The bytes a region takes for a number of rows. -/
def Region.bytes (n : ℕ) : Region → ℕ
  | .enable _ => divCeil n bitsPerByte
  | .added _ | .changed _ => n*changedTickByteSize
  | .entities => n*entityByteSize
  | .column t => n*t.byteSize

/-- The regions of a layout have places of their own inside the chunk. -/
structure WellFormed (components : List ComponentDescriptor) (l : ChunkLayout) : Prop where
  /-- Every region the components ask for has a place, and no other has. -/
  regions : ∀ r,(regionStart l r).isSome=true ↔ r∈regionsOf components
  /-- Regions start aligned for their elements. -/
  aligned : ∀ r x,regionStart l r=some x → Region.elementAlign r ∣ x
  /-- Regions end inside the chunk. -/
  inside : ∀ r x,regionStart l r=some x → x+Region.bytes l.maxLen r ≤ l.chunkSizeInByte
  /-- No two regions overlap. -/
  disjoint : ∀ r r' x x',r≠r' → regionStart l r=some x → regionStart l r'=some x' →
    x+Region.bytes l.maxLen r ≤ x' ∨ x'+Region.bytes l.maxLen r' ≤ x
  /-- The chunk itself is aligned for each of them. -/
  allocated : ∀ r x,regionStart l r=some x → Region.elementAlign r ∣ l.allocLayout.align

theorem elementAlign_dvd (r : Region) (n : ℕ) : Region.elementAlign r ∣ (r.block n).align := by
  cases r with
  | enable t => exact Nat.one_dvd _
  | added t | changed t => exact ⟨2,rfl⟩
  | entities | column t => exact Nat.dvd_refl _

theorem bytes_eq (r : Region) (n : ℕ) : Region.bytes n r=(r.block n).size := by
  cases r with
  | column t => exact Nat.mul_comm n t.byteSize
  | _ => rfl

/-- A region with a start is one of the placed blocks. -/
theorem mem_placed {regions : List Region} {start : Region → Option ℕ} {c : ℕ}
    (h : regions.map start=(offsets c (blocksOf n regions)).map some) {r : Region} {x : ℕ}
    (hr : r∈regions) (hx : start r=some x) : (x,r)∈(offsets c (blocksOf n regions)).zip regions := by
  induction regions generalizing c with
  | nil => exact absurd hr List.not_mem_nil
  | cons r' rest ih =>
    rw [List.map_cons] at h
    change _=some (roundUp c (r'.block n).align)::
      (offsets (roundUp c (r'.block n).align+(r'.block n).size) (blocksOf n rest)).map some at h
    rw [List.cons_eq_cons] at h
    obtain rfl | hr := List.mem_cons.mp hr
    · rw [hx] at h
      cases Option.some.inj h.1
      exact List.mem_cons_self
    · exact List.mem_cons_of_mem _ (ih h.2 hr)

/-- The placed blocks, each with the region it stands for. -/
theorem zip_regions (c n : ℕ) (regions : List Region) :
    placed c (blocksOf n regions)=
      ((offsets c (blocksOf n regions)).zip regions).map fun p => (p.1,p.2.block n) := by
  rw [placed,blocksOf,List.zip_map_right]
  rfl

/-- The header has no column. -/
theorem column_notMem_header (t : StorageType) : .column t∉headerRegions components := by
  intro hm
  obtain hm | hm := List.mem_append.mp hm
  · obtain ⟨des,-,hm⟩ := List.mem_flatMap.mp hm
    unfold stateRegions at hm
    cases des.stateDetection.needsEnable <;> cases des.stateDetection.needsChange <;> simp at hm
  · cases List.mem_singleton.mp hm

/-- The columns are those of the components. -/
theorem column_mem {t : StorageType} :
    .column t∈regionsOf components ↔ t∈components.map ComponentDescriptor.storageTypeId := by
  rw [regionsOf,List.mem_append,or_iff_right (column_notMem_header t),List.mem_map,List.mem_map]
  simp only [Region.column.injEq]

/-- One of two placed regions ends before the other starts. -/
def Apart (n : ℕ) (p q : ℕ×Region) : Prop :=
  p.1+(p.2.block n).size ≤ q.1 ∨ q.1+(q.2.block n).size ≤ p.1

instance (n : ℕ) : Std.Symm (Apart n) := ⟨fun _ _ h => h.symm⟩

/-- A placement inside the chunk is well formed. -/
theorem wellFormed_of_placed (h : l.Of specs components) (hp : Placed n size components l)
    (hle : rowsEnd n components ≤ size) : WellFormed components l := by
  have hmem : ∀ {r x},regionStart l r=some x →
      (x,r)∈(offsets 0 (blocksOf n (regionsOf components))).zip (regionsOf components) := by
    intro r x hx
    have hr := (regionStart_isSome h hp r).mp (by rw [hx]; rfl)
    exact mem_placed (regions_starts h hp) hr hx
  have hpos := blocksOf_pos n (regionsOf components)
  have hinside : ∀ {r x},regionStart l r=some x →
      (r.block n).align ∣ x ∧ 0 ≤ x ∧ x+(r.block n).size ≤ rowsEnd n components := by
    intro r x hx
    have hin := placed_inside (c:=0) hpos (x,r.block n)
    refine hin ?_
    rw [zip_regions]
    exact List.mem_map.mpr ⟨(x,r),hmem hx,rfl⟩
  have halign : l.allocLayout.align=maxAlignOf cpuWord components := by rw [hp.allocLayout]
  have hsize : l.chunkSizeInByte=size := by rw [ChunkLayout.chunkSizeInByte,hp.allocLayout]
  obtain ⟨-,hword,hall⟩ := maxAlignOf_dvd (a:=cpuWord) components ⟨3,rfl⟩
  refine ⟨regionStart_isSome h hp,?_,?_,?_,?_⟩
  · intro r x hx
    exact (elementAlign_dvd r n).trans (hinside hx).1
  · intro r x hx
    rw [hp.maxLen,hsize,bytes_eq]
    exact (hinside hx).2.2.trans hle
  · intro r r' x x' hne hx hx'
    have hpair := placed_disjoint (c:=0) hpos
    rw [zip_regions,List.pairwise_map] at hpair
    have hapart : ((offsets 0 (blocksOf n (regionsOf components))).zip
        (regionsOf components)).Pairwise (Apart n) := hpair.imp fun hpq => .inl hpq
    rw [hp.maxLen,bytes_eq,bytes_eq]
    exact hapart.forall (hmem hx) (hmem hx') fun he => hne (Prod.mk.inj he).2
  · intro r x hx
    rw [halign]
    cases r with
    | enable t => exact Nat.one_dvd _
    | added t | changed t => exact Nat.dvd_trans ⟨2,rfl⟩ hword
    | entities => exact hword
    | column t =>
      obtain ⟨des,hdes,rfl⟩ := List.mem_map.mp (column_mem.mp
        ((regionStart_isSome h hp _).mp (by rw [hx]; rfl)))
      exact hall des hdes

end WellFormed

section Built

/-- A layout the crate can come by: a regular one of any chunk size, or a fitted one. -/
def Built (specs : ComponentSpecs) (components : List ComponentDescriptor) (l : ChunkLayout) : Prop :=
  (∃ size,ChunkLayout.new specs components size=.ok l) ∨
    ChunkLayout.newFitted specs components=.ok l

/-- The search returns a layout it tried, for at most as many rows as it started from. -/
theorem searchLayout_tried {fuel low upper bound : ℕ} {best out : Option ChunkLayout}
    (h : searchLayout size components bits fuel low upper best=.ok out) (hlow : 0<low)
    (hupper : upper ≤ bound)
    (hbest : ∀ l∈best,∃ n,0<n ∧ n ≤ bound ∧ tryLayout n size components bits=.ok l) :
    ∀ l∈out,∃ n,0<n ∧ n ≤ bound ∧ tryLayout n size components bits=.ok l := by
  induction fuel generalizing low upper best with
  | zero =>
    cases h
    exact hbest
  | succ fuel ih =>
    unfold searchLayout at h
    split at h
    · dsimp only at h
      split at h
      · rename_i layout hl
        refine ih h (by omega) hupper ?_
        intro l' hl'
        cases hl'
        exact ⟨_,by omega,by omega,hl⟩
      · exact ih h hlow (by omega) hbest
      · cases h
    · cases h
      exact hbest

/-- Without components only the handles take room, and the estimate leaves it. -/
theorem rowsEnd_nil (h : n ≤ estimateMaxEntities [] size) : rowsEnd n [] ≤ size := by
  have hend : rowsEnd n []=roundUp 0 entityAlign+n*8 := rfl
  have hzero : roundUp 0 entityAlign=0 := rfl
  have hbits : estimateMaxEntities [] size=saturatingMul size bitsPerByte/64 := rfl
  have hsat : saturatingMul size bitsPerByte ≤ size*8 := Nat.min_le_left _ _
  omega

/-- Every layout is a placement inside its chunk. -/
theorem built_placed (h : Built specs components l) : ∃ n size,
    l.Of specs components ∧ Placed n size components l ∧ rowsEnd n components ≤ size := by
  obtain ⟨size,h⟩ | h := h
  · have hof := ChunkLayout.new_of h
    unfold ChunkLayout.new computeLayout at h
    split at h
    · cases h
    · rename_i bits hbits
      dsimp only at h
      split at h
      · cases h
      · cases h
      · rename_i layout hl
        cases h
        obtain ⟨n,-,hn,htry⟩ := searchLayout_tried hl Nat.zero_lt_one (Nat.le_refl _)
          (fun l hl => absurd hl (Option.not_mem_none l)) l rfl
        refine ⟨n,size,hof,tryLayout_inside hof.nodup ?_ htry⟩
        rintro rfl
        exact rowsEnd_nil hn
  · have hof := (ChunkLayout.newFitted_of h).1
    unfold ChunkLayout.newFitted at h
    split at h
    · cases h
    · split at h
      · cases h
      · rename_i probe hprobe
        refine ⟨1,_,hof,tryLayout_inside hof.nodup ?_ h⟩
        rintro rfl
        unfold tryLayout at hprobe
        cases hprobe
        have hfits : rowsEnd 1 [] ≤ alignUp (max 8 1) cpuWord := by decide
        exact hfits

/-- Every layout is well formed. -/
theorem built_wellFormed (h : Built specs components l) : WellFormed components l := by
  obtain ⟨n,size,hof,hp,hle⟩ := built_placed h
  exact wellFormed_of_placed hof hp hle

/-- A three byte flag with every state beside an overaligned pair without any. -/
def mixedComponents : List ComponentDescriptor :=
  [⟨⟨0,3,1,.enableAbleAndChangeAble,⟨0,rfl⟩,Nat.one_dvd 3⟩,.enableAbleAndChangeAble⟩,
    ⟨⟨1,32,16,.none,⟨4,rfl⟩,⟨2,rfl⟩⟩,.none⟩]

/-- The registry that knows both. -/
def mixedSpecs : ComponentSpecs :=
  mixedComponents.foldl (fun specs des => (specs.insert des.storageTypeId des).1) .empty

end Built

end XynokEcs.LayoutRegions
