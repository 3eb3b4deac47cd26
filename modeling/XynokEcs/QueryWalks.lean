import XynokEcs.ChangeTicks
import XynokEcs.Scheduling

/-!
# Walking the rows of a query

A walk resolves the shape once in every matched archetype, passes over the
non-empty chunks and hands out the rows that the filters accept. It remembers
how many rows a chunk had when it came to it, and reads everything else as it
goes. What is left to visit is a list of places, and every call of `next` cuts
off a front of it.
-/

namespace XynokEcs.QueryWalks

open ComponentTypes EntityHandle SequenceValueMap ChunkRows ArchetypeStore ChunkLayouts QueryShapes
  EntityAllocation WorldState StoreInvariants QueryAccess QuerySources SingletonEntities ChangeTicks

section Resolving

/-- The region a filter reads. -/
def FilterKind.offset : FilterKind → StateOffset → Option ℕ
  | .added,o => o.addedOffset
  | .changed,o => o.changedOffset
  | .enabled,o => o.enableOffset
  | .disabled,o => o.enableOffset

/-- What `&T` or `&mut T` resolves in an archetype: the column, and where it
records writes. -/
structure ColumnState where
  /-- The component asked for. -/
  component : Component
  /-- Whether it may be written. -/
  mutable : Bool
  /-- Where its values and states start. -/
  column : ColumnDescriptor
deriving DecidableEq

/-- `ArchState`: what a shape resolves in an archetype. -/
inductive ArchState
  | column (c : ColumnState)
  | entity
  | filter (kind : FilterKind) (c : ColumnState) (stateOffset : ℕ)
  | detail (c : ColumnState) (enableOffset : ℕ)
  | without
  | tuple (elements : List ArchState)

/-- The state region of a component that a filter or a detail needs. -/
def stateRegion (layout : ChunkLayout) (t : StorageType) (offset : StateOffset → Option ℕ) :
    Except Fault ℕ := do
  let column ← columnDescriptor layout t
  match offset column.stateOffset with
  | some o => return o
  | none => .error (.panic (.stateRegionMissing t))

/-- `arch_state` of `&T` and `&mut T`. -/
def QueryColumn.archState (layout : ChunkLayout) (p : QueryColumn Component) :
    Except Fault ColumnState := do
  let column ← columnDescriptor layout p.component.storageType
  return ⟨p.component,(QueryColumn.access p).1=.write,column⟩

mutual

/-- `arch_state`. -/
def QueryShape.archState (layout : ChunkLayout) : QueryShape Component → Except Fault ArchState
  | .column p => do
    let c ← QueryColumn.archState layout p
    return .column c
  | .entity => return .entity
  | .filter kind p => do
    let o ← stateRegion layout p.component.storageType (FilterKind.offset kind)
    let c ← QueryColumn.archState layout p
    return .filter kind c o
  | .detail p => do
    let o ← stateRegion layout p.component.storageType StateOffset.enableOffset
    let c ← QueryColumn.archState layout p
    return .detail c o
  | .without _ => return .without
  | .tuple elements => do
    let states ← QueryShape.archStates layout elements
    return .tuple states

/-- The elements of a tuple, in order. -/
def QueryShape.archStates (layout : ChunkLayout) :
    List (QueryShape Component) → Except Fault (List ArchState)
  | [] => return []
  | q::rest => do
    let state ← QueryShape.archState layout q
    let states ← QueryShape.archStates layout rest
    return state::states

end

variable {V : Type}

/-- Does a row's state pass a filter? -/
def FilterKind.accepts (ticks : QueryTicks) (cell : Cell V) : FilterKind → Bool
  | .added => isNewerThan cell.added ticks.lastRun ticks.thisRun
  | .changed => isNewerThan cell.changed ticks.lastRun ticks.thisRun
  | .enabled => cell.enable
  | .disabled => !cell.enable

mutual

/-- `accepts`. -/
def ArchState.accepts (ticks : QueryTicks) (chunk : Chunk V) (row : ℕ) : ArchState → Bool
  | .filter kind c _ => FilterKind.accepts ticks (chunk.cells c.component.storageType row) kind
  | .tuple elements => ArchState.acceptsAll ticks chunk row elements
  | _ => true

def ArchState.acceptsAll (ticks : QueryTicks) (chunk : Chunk V) (row : ℕ) : List ArchState → Bool
  | [] => true
  | state::rest => ArchState.accepts ticks chunk row state && ArchState.acceptsAll ticks chunk row rest

end

/-- One row handed out: where it is, and what the shape resolved there. -/
structure QueryItem where
  /-- The row. -/
  loc : RowLoc
  /-- The ticks that the row is shown with. -/
  ticks : QueryTicks
  /-- The columns of the row's archetype. -/
  state : ArchState

/-- A column an item gives access to, with the enable region of a detail. -/
structure ItemColumn where
  /-- The column. -/
  state : ColumnState
  /-- Where the enable bits start, if the item is a detail. -/
  enableOffset : Option ℕ
deriving DecidableEq

mutual

/-- The columns of an item, element by element. -/
def ArchState.columns : ArchState → List ItemColumn
  | .column c => [⟨c,none⟩]
  | .entity => []
  | .filter _ c _ => [⟨c,none⟩]
  | .detail c enableOffset => [⟨c,some enableOffset⟩]
  | .without => []
  | .tuple elements => ArchState.allColumns elements

def ArchState.allColumns : List ArchState → List ItemColumn
  | [] => []
  | state::rest => ArchState.columns state++ArchState.allColumns rest

end

end Resolving

section Cursor

variable {V : Type}

/-- The chunks of an archetype. -/
def World.chunks (w : World V) (archId : ℕ) : List (Chunk V) :=
  ((w.archetypes.valueAt archId).map fun spec => spec.arch.chunks).getD []

/-- The number of rows in use in a chunk. -/
def World.chunkLen (w : World V) (archId chunkIdx : ℕ) : ℕ :=
  (((World.chunks w archId)[chunkIdx]?).map Chunk.len).getD 0

/-- Pointers resolved from one chunk. -/
structure Fetch where
  /-- The archetype of the chunk. -/
  archId : ℕ
  /-- The chunk. -/
  chunkIdx : ℕ
  /-- The columns of that archetype. -/
  state : ArchState

/-- `ChunkCursor`: the matched archetypes still to come, the one being walked
and the next chunk of it. -/
structure ChunkCursor where
  /-- The archetypes still to come. -/
  archIndices : List ℕ
  /-- The archetype being walked, with its columns. -/
  arch : Option (ℕ×ArchState)
  /-- The chunk of it that comes next. -/
  chunkIdx : ℕ

/-- The next non-empty chunk of the archetype being walked. -/
def ChunkCursor.scan (w : World V) (arch : Option (ℕ×ArchState)) (chunkIdx : ℕ) : Option Fetch :=
  match arch with
  | none => none
  | some (archId,state) =>
    ((List.range' chunkIdx ((World.chunks w archId).length-chunkIdx)).find? fun k =>
      World.chunkLen w archId k≠0).map fun k => ⟨archId,k,state⟩

/-- Where the cursor stands in an archetype it has finished. -/
def ChunkCursor.finished (w : World V) (arch : Option (ℕ×ArchState)) (chunkIdx : ℕ) : ℕ :=
  match arch with
  | none => chunkIdx
  | some (archId,_) => max chunkIdx (World.chunks w archId).length

/-- Resolve the shape in a matched archetype. -/
def enterArch (q : QueryShape Component) (w : World V) (i : ℕ) : Except Fault (ℕ×ArchState) :=
  match w.archetypes.valueAt i with
  | none => .error (.panic (.archetypeIndexMissing i))
  | some spec => do
    let state ← QueryShape.archState spec.layout q
    return (i,state)

/-- An archetype is entered under its own id. -/
theorem enterArch_fst {q : QueryShape Component} {w : World V} {i : ℕ} {entered : ℕ×ArchState}
    (h : enterArch q w i=.ok entered) : entered.1=i := by
  unfold enterArch at h
  cases hv : w.archetypes.valueAt i with
  | none =>
    rw [hv] at h
    cases h
  | some spec =>
    rw [hv] at h
    cases hs : QueryShape.archState spec.layout q with
    | error e =>
      dsimp only at h
      rw [hs] at h
      cases h
    | ok state =>
      dsimp only at h
      rw [hs] at h
      cases h
      rfl

/-- `next_chunk`. -/
def ChunkCursor.nextChunk (q : QueryShape Component) (w : World V) : List ℕ →
    Option (ℕ×ArchState) → ℕ → Except Fault (Option Fetch×ChunkCursor)
  | [],arch,chunkIdx => match ChunkCursor.scan w arch chunkIdx with
    | some fetch => .ok (some fetch,⟨[],arch,fetch.chunkIdx+1⟩)
    | none => .ok (none,⟨[],arch,ChunkCursor.finished w arch chunkIdx⟩)
  | i::rest,arch,chunkIdx => match ChunkCursor.scan w arch chunkIdx with
    | some fetch => .ok (some fetch,⟨i::rest,arch,fetch.chunkIdx+1⟩)
    | none => match enterArch q w i with
      | .error e => .error e
      | .ok entered => ChunkCursor.nextChunk q w rest (some entered) 0

/-- `QueryIter`. -/
structure QueryIter where
  /-- The chunks still to come. -/
  cursor : ChunkCursor
  /-- The pointers into the chunk being walked. -/
  fetch : Option Fetch
  /-- The row that comes next. -/
  row : ℕ
  /-- The row after the last of the chunk. -/
  endRow : ℕ
  /-- The ticks that the filters compare with. -/
  ticks : QueryTicks

/-- `QueryIter::new`. -/
def QueryIter.new (q : QueryShape Component) (accessor : QuerySpecAccessor) (w : World V) : QueryIter where
  cursor := ⟨if q.excludeOnly then [] else (accessor.archIndices w).getD [],none,0⟩
  fetch := none
  row := 0
  endRow := 0
  ticks := accessor.ticks

/-- Does the row of a chunk pass the filters? -/
def Fetch.accepts (w : World V) (ticks : QueryTicks) (fetch : Fetch) (row : ℕ) : Bool :=
  match (World.chunks w fetch.archId)[fetch.chunkIdx]? with
  | some chunk => ArchState.accepts ticks chunk row fetch.state
  | none => false

/-- The first row left in the current chunk that passes the filters. -/
def QueryIter.scanRows (w : World V) (it : QueryIter) : Option (QueryItem×QueryIter) :=
  match it.fetch with
  | none => none
  | some fetch =>
    ((List.range' it.row (it.endRow-it.row)).find? (Fetch.accepts w it.ticks fetch)).map fun row =>
      (⟨⟨fetch.archId,⟨fetch.chunkIdx,row⟩⟩,it.ticks,fetch.state⟩,{ it with row := row+1 })

/-- Some rows of a chunk. -/
def rowPlaces (archId chunkIdx row count : ℕ) : List RowLoc :=
  (List.range' row count).map fun r => ⟨archId,⟨chunkIdx,r⟩⟩

/-- The rows in use in a chunk. -/
def World.chunkPlaces (w : World V) (archId chunkIdx : ℕ) : List RowLoc :=
  rowPlaces archId chunkIdx 0 (World.chunkLen w archId chunkIdx)

/-- The rows of an archetype, from a chunk on. -/
def World.archPlaces (w : World V) (archId chunkIdx : ℕ) : List RowLoc :=
  (List.range' chunkIdx ((World.chunks w archId).length-chunkIdx)).flatMap (World.chunkPlaces w archId)

/-- The places a cursor has still to pass. -/
def ChunkCursor.upcoming (w : World V) (archIndices : List ℕ) (arch : Option (ℕ×ArchState))
    (chunkIdx : ℕ) : List RowLoc :=
  (match arch with
    | none => []
    | some a => World.archPlaces w a.1 chunkIdx)++
    archIndices.flatMap fun i => World.archPlaces w i 0

/-- A search through a range stops at the first hit. -/
theorem find?_range' {p : ℕ → Bool} {a n k : ℕ} (h : (List.range' a n).find? p=some k) :
    p k=true ∧ (∀ j∈List.range' a (k-a),p j=false) ∧ a ≤ k ∧ k<a+n ∧
      List.range' a n=List.range' a (k-a)++k::List.range' (k+1) (a+n-(k+1)) := by
  induction n generalizing a with
  | zero => cases h
  | succ n ih =>
    rw [List.range'_succ,List.find?_cons] at h
    cases hp : p a with
    | true =>
      rw [hp] at h
      cases h
      have hn : k+(n+1)-(k+1)=n := by omega
      rw [Nat.sub_self,hn,List.range'_succ]
      exact ⟨hp,nofun,Nat.le_refl _,by omega,rfl⟩
    | false =>
      rw [hp] at h
      obtain ⟨hk,hbefore,hle,hlt,happ⟩ := ih h
      have hsub : k-a=(k-(a+1))+1 := by omega
      have hend : a+(n+1)-(k+1)=a+1+n-(k+1) := by omega
      rw [hsub,hend,List.range'_succ,List.range'_succ,List.cons_append,←happ]
      refine ⟨hk,fun j hj => ?_,by omega,by omega,rfl⟩
      cases List.mem_cons.mp hj with
      | inl he => exact he ▸ hp
      | inr hj => exact hbefore j hj

/-- A chunk without rows has no places. -/
theorem chunkPlaces_eq_nil {w : World V} {archId chunkIdx : ℕ} :
    World.chunkPlaces w archId chunkIdx=[] ↔ World.chunkLen w archId chunkIdx=0 := by
  rw [World.chunkPlaces,rowPlaces,List.map_eq_nil_iff,List.range'_eq_nil_iff]

/-- A scan passes over empty chunks only. -/
theorem scan_spec (w : World V) (arch : Option (ℕ×ArchState)) (chunkIdx : ℕ) (archIndices : List ℕ) :
    match ChunkCursor.scan w arch chunkIdx with
    | some fetch => arch=some (fetch.archId,fetch.state) ∧ fetch.chunkIdx<(World.chunks w fetch.archId).length ∧
      World.chunkLen w fetch.archId fetch.chunkIdx≠0 ∧ ChunkCursor.upcoming w archIndices arch chunkIdx=
        World.chunkPlaces w fetch.archId fetch.chunkIdx++
          ChunkCursor.upcoming w archIndices arch (fetch.chunkIdx+1)
    | none => ChunkCursor.upcoming w archIndices arch chunkIdx=
        archIndices.flatMap fun i => World.archPlaces w i 0 := by
  unfold ChunkCursor.scan
  cases arch with
  | none => rfl
  | some a =>
    obtain ⟨archId,state⟩ := a
    dsimp only [ChunkCursor.upcoming]
    cases hk : (List.range' chunkIdx ((World.chunks w archId).length-chunkIdx)).find? fun k =>
        World.chunkLen w archId k≠0 with
    | none =>
      have hall := List.find?_eq_none.mp hk
      have hnil : World.archPlaces w archId chunkIdx=[] := by
        refine List.flatMap_eq_nil_iff.mpr fun k hm => chunkPlaces_eq_nil.mpr ?_
        simpa using hall k hm
      dsimp only [Option.map_none]
      rw [hnil,List.nil_append]
    | some k =>
      obtain ⟨hp,hbefore,hle,hlt,happ⟩ := find?_range' hk
      have hnil : (List.range' chunkIdx (k-chunkIdx)).flatMap (World.chunkPlaces w archId)=[] := by
        refine List.flatMap_eq_nil_iff.mpr fun j hm => chunkPlaces_eq_nil.mpr ?_
        simpa using hbefore j hm
      have hend : chunkIdx+((World.chunks w archId).length-chunkIdx)-(k+1)=
          (World.chunks w archId).length-(k+1) := by omega
      have harch : World.archPlaces w archId chunkIdx=
          World.chunkPlaces w archId k++World.archPlaces w archId (k+1) := by
        rw [World.archPlaces,happ,hend,List.flatMap_append,hnil,List.nil_append,List.flatMap_cons]
        rfl
      dsimp only [Option.map_some]
      rw [harch,List.append_assoc]
      exact ⟨rfl,by omega,by simpa using hp,rfl⟩

/-- What the cursor comes to next. -/
theorem nextChunk_spec {q : QueryShape Component} {w : World V} {archIndices : List ℕ}
    {arch : Option (ℕ×ArchState)} {chunkIdx : ℕ} {found : Option Fetch} {cursor : ChunkCursor}
    (h : ChunkCursor.nextChunk q w archIndices arch chunkIdx=.ok (found,cursor)) :
    match found with
    | some fetch => cursor.arch=some (fetch.archId,fetch.state) ∧
      fetch.chunkIdx<(World.chunks w fetch.archId).length ∧
      World.chunkLen w fetch.archId fetch.chunkIdx≠0 ∧
      ChunkCursor.upcoming w archIndices arch chunkIdx=World.chunkPlaces w fetch.archId fetch.chunkIdx++
        ChunkCursor.upcoming w cursor.archIndices cursor.arch cursor.chunkIdx
    | none => ChunkCursor.upcoming w archIndices arch chunkIdx=[] ∧
      ChunkCursor.upcoming w cursor.archIndices cursor.arch cursor.chunkIdx=[] := by
  induction archIndices generalizing arch chunkIdx with
  | nil =>
    have hscan := scan_spec w arch chunkIdx []
    unfold ChunkCursor.nextChunk at h
    cases hs : ChunkCursor.scan w arch chunkIdx with
    | some fetch =>
      rw [hs] at h hscan
      cases h
      obtain ⟨harch,hlt,hlen,happ⟩ := hscan
      exact ⟨harch,hlt,hlen,happ⟩
    | none =>
      rw [hs] at h hscan
      cases h
      refine ⟨hscan,?_⟩
      cases arch with
      | none => rfl
      | some a =>
        have hsub : (World.chunks w a.1).length-max chunkIdx (World.chunks w a.1).length=0 := by omega
        dsimp only [ChunkCursor.finished,ChunkCursor.upcoming]
        rw [World.archPlaces,hsub]
        rfl
  | cons i rest ih =>
    have hscan := scan_spec w arch chunkIdx (i::rest)
    unfold ChunkCursor.nextChunk at h
    cases hs : ChunkCursor.scan w arch chunkIdx with
    | some fetch =>
      rw [hs] at h hscan
      cases h
      obtain ⟨harch,hlt,hlen,happ⟩ := hscan
      exact ⟨harch,hlt,hlen,happ⟩
    | none =>
      rw [hs] at h hscan
      dsimp only at h hscan
      cases he : enterArch q w i with
      | error e =>
        rw [he] at h
        cases h
      | ok entered =>
        rw [he] at h
        have hrest := ih h
        have hidx := enterArch_fst he
        have hup : ChunkCursor.upcoming w (i::rest) arch chunkIdx=
            ChunkCursor.upcoming w rest (some entered) 0 := by
          rw [hscan,List.flatMap_cons,ChunkCursor.upcoming,hidx]
        rw [hup]
        cases found with
        | none => exact hrest
        | some fetch => exact hrest

/-- The archetype the cursor ends up in was the one it was in, or was resolved. -/
theorem nextChunk_arch {q : QueryShape Component} {w : World V} {archIndices : List ℕ}
    {arch : Option (ℕ×ArchState)} {chunkIdx : ℕ} {found : Option Fetch} {cursor : ChunkCursor}
    (h : ChunkCursor.nextChunk q w archIndices arch chunkIdx=.ok (found,cursor)) :
    cursor.arch=arch ∨ ∃ a,cursor.arch=some a ∧ enterArch q w a.1=.ok a := by
  induction archIndices generalizing arch chunkIdx with
  | nil =>
    unfold ChunkCursor.nextChunk at h
    cases hs : ChunkCursor.scan w arch chunkIdx <;> rw [hs] at h <;> cases h <;> exact .inl rfl
  | cons i rest ih =>
    unfold ChunkCursor.nextChunk at h
    cases hs : ChunkCursor.scan w arch chunkIdx with
    | some fetch =>
      rw [hs] at h
      cases h
      exact .inl rfl
    | none =>
      rw [hs] at h
      dsimp only at h
      cases he : enterArch q w i with
      | error e =>
        rw [he] at h
        cases h
      | ok entered =>
        rw [he] at h
        cases ih h with
        | inr hr => exact .inr hr
        | inl heq =>
          have hi := enterArch_fst he
          subst hi
          exact .inr ⟨entered,heq,he⟩

/-- Going on to a chunk leaves less to come. -/
theorem nextChunk_shorter {q : QueryShape Component} {w : World V} {archIndices : List ℕ}
    {arch : Option (ℕ×ArchState)} {chunkIdx : ℕ} {fetch : Fetch} {cursor : ChunkCursor}
    (h : ChunkCursor.nextChunk q w archIndices arch chunkIdx=.ok (some fetch,cursor)) :
    (ChunkCursor.upcoming w cursor.archIndices cursor.arch cursor.chunkIdx).length <
      (ChunkCursor.upcoming w archIndices arch chunkIdx).length := by
  obtain ⟨-,-,hlen,happ⟩ := nextChunk_spec h
  have hpos : 0<(World.chunkPlaces w fetch.archId fetch.chunkIdx).length :=
    List.length_pos_iff.mpr fun hnil => hlen (chunkPlaces_eq_nil.mp hnil)
  rw [happ,List.length_append]
  omega

/-- `next`. -/
def QueryIter.next (q : QueryShape Component) (w : World V) (it : QueryIter) :
    Except Fault (Option QueryItem×QueryIter) :=
  match QueryIter.scanRows w it with
  | some (item,it') => .ok (some item,it')
  | none =>
    match _hnext : ChunkCursor.nextChunk q w it.cursor.archIndices it.cursor.arch it.cursor.chunkIdx with
    | .error e => .error e
    | .ok (none,cursor) => .ok (none,{ it with cursor := cursor, row := max it.row it.endRow })
    | .ok (some fetch,cursor) => QueryIter.next q w { it with
        cursor := cursor
        fetch := some fetch
        row := 0
        endRow := World.chunkLen w fetch.archId fetch.chunkIdx }
termination_by (ChunkCursor.upcoming w it.cursor.archIndices it.cursor.arch it.cursor.chunkIdx).length
decreasing_by exact nextChunk_shorter _hnext

end Cursor

section Places

variable {V : Type} {q : QueryShape Component} {w : World V} {it : QueryIter} {ticks : QueryTicks}

/-- The places a walk has still to visit. -/
def QueryIter.upcoming (w : World V) (it : QueryIter) : List RowLoc :=
  (match it.fetch with
    | none => []
    | some fetch => rowPlaces fetch.archId fetch.chunkIdx it.row (it.endRow-it.row))++
    ChunkCursor.upcoming w it.cursor.archIndices it.cursor.arch it.cursor.chunkIdx

/-- Does the row at a place pass the filters of a shape? -/
def acceptsAt (q : QueryShape Component) (w : World V) (ticks : QueryTicks) (l : RowLoc) : Bool :=
  match enterArch q w l.archId with
  | .ok entered => Fetch.accepts w ticks ⟨l.archId,l.indices.chunkIdx,entered.2⟩ l.indices.idxInChunk
  | .error _ => false

/-- What a walk has resolved is what the archetypes say. -/
structure QueryIter.Resolved (q : QueryShape Component) (w : World V) (it : QueryIter) : Prop where
  /-- The pointers are those of the archetype of the chunk. -/
  fetch : ∀ fetch,it.fetch=some fetch → enterArch q w fetch.archId=.ok (fetch.archId,fetch.state)
  /-- So are the columns the cursor holds. -/
  arch : ∀ a,it.cursor.arch=some a → enterArch q w a.1=.ok a

/-- An item is the first place to come that passes the filters. -/
structure Yields (q : QueryShape Component) (w : World V) (it : QueryIter) (item : QueryItem)
    (it' : QueryIter) : Prop where
  /-- The rows before it were passed over by the filters. -/
  passed : ∃ skipped,QueryIter.upcoming w it=skipped++item.loc::QueryIter.upcoming w it' ∧
    ∀ l∈skipped,acceptsAt q w it.ticks l=false
  /-- The row itself passes them. -/
  accepted : acceptsAt q w it.ticks item.loc=true
  /-- The item has the columns of its archetype. -/
  state : enterArch q w item.loc.archId=.ok (item.loc.archId,item.state)
  /-- The item carries the ticks of the walk. -/
  ticks : item.ticks=it.ticks

/-- What a call of `next` leaves to visit. -/
def NextSpec (q : QueryShape Component) (w : World V) (it : QueryIter) :
    Except Fault (Option QueryItem×QueryIter) → Prop
  | .ok (some item,it') => Yields q w it item it' ∧ QueryIter.Resolved q w it' ∧ it'.ticks=it.ticks
  | .ok (none,it') => (∀ l∈QueryIter.upcoming w it,acceptsAt q w it.ticks l=false) ∧
    QueryIter.upcoming w it'=[] ∧ QueryIter.Resolved q w it' ∧ it'.ticks=it.ticks
  | .error e => ∃ i,enterArch q w i=.error e

/-- Filters read the chunk of the row. -/
theorem acceptsAt_fetch {fetch : Fetch} (h : enterArch q w fetch.archId=.ok (fetch.archId,fetch.state))
    (row : ℕ) : acceptsAt q w ticks ⟨fetch.archId,⟨fetch.chunkIdx,row⟩⟩=
      Fetch.accepts w ticks fetch row := by
  rw [acceptsAt,h]

/-- The rows left in the current chunk. -/
theorem scanRows_spec (h : QueryIter.Resolved q w it) : match QueryIter.scanRows w it with
    | some (item,it') => Yields q w it item it' ∧ QueryIter.Resolved q w it' ∧ it'.ticks=it.ticks
    | none => ∃ before,QueryIter.upcoming w it=before++
        ChunkCursor.upcoming w it.cursor.archIndices it.cursor.arch it.cursor.chunkIdx ∧
          ∀ l∈before,acceptsAt q w it.ticks l=false := by
  unfold QueryIter.scanRows QueryIter.upcoming
  cases hf : it.fetch with
  | none => exact ⟨[],rfl,nofun⟩
  | some fetch =>
    have hres := h.fetch fetch hf
    dsimp only
    cases hk : (List.range' it.row (it.endRow-it.row)).find? (Fetch.accepts w it.ticks fetch) with
    | none =>
      refine ⟨_,rfl,fun l hl => ?_⟩
      obtain ⟨row,hrow,rfl⟩ := List.mem_map.mp hl
      rw [acceptsAt_fetch hres]
      simpa using List.find?_eq_none.mp hk row hrow
    | some row =>
      obtain ⟨hp,hbefore,hle,hlt,happ⟩ := find?_range' hk
      have hend : it.row+(it.endRow-it.row)-(row+1)=it.endRow-(row+1) := by omega
      dsimp only [Option.map_some]
      refine ⟨⟨⟨rowPlaces fetch.archId fetch.chunkIdx it.row (row-it.row),?_,fun l hl => ?_⟩,?_,hres,rfl⟩,
        ⟨fun f he => h.fetch f (hf.trans he),h.arch⟩,rfl⟩
      · unfold QueryIter.upcoming
        rw [hf]
        dsimp only
        rw [rowPlaces,happ,hend,List.map_append,List.map_cons,List.append_assoc,List.cons_append]
        rfl
      · obtain ⟨r,hr,rfl⟩ := List.mem_map.mp hl
        rw [acceptsAt_fetch hres]
        exact hbefore r hr
      · rw [acceptsAt_fetch hres]
        exact hp

/-- Only an archetype that lacks what the shape needs ends a walk. -/
theorem nextChunk_error {archIndices : List ℕ} {arch : Option (ℕ×ArchState)} {chunkIdx : ℕ} {e : Fault}
    (h : ChunkCursor.nextChunk q w archIndices arch chunkIdx=.error e) :
    ∃ i∈archIndices,enterArch q w i=.error e := by
  induction archIndices generalizing arch chunkIdx with
  | nil =>
    unfold ChunkCursor.nextChunk at h
    cases hs : ChunkCursor.scan w arch chunkIdx with
    | some fetch =>
      rw [hs] at h
      cases h
    | none =>
      rw [hs] at h
      cases h
  | cons i rest ih =>
    unfold ChunkCursor.nextChunk at h
    cases hs : ChunkCursor.scan w arch chunkIdx with
    | some fetch =>
      rw [hs] at h
      cases h
    | none =>
      rw [hs] at h
      dsimp only at h
      cases he : enterArch q w i with
      | error e' =>
        rw [he] at h
        cases h
        exact ⟨i,List.mem_cons_self,he⟩
      | ok entered =>
        rw [he] at h
        obtain ⟨j,hj,hje⟩ := ih h
        exact ⟨j,List.mem_cons_of_mem _ hj,hje⟩

/-- The cursor holds the columns of the archetype it entered. -/
theorem resolved_arch (h : QueryIter.Resolved q w it) {found : Option Fetch} {cursor : ChunkCursor}
    (hn : ChunkCursor.nextChunk q w it.cursor.archIndices it.cursor.arch it.cursor.chunkIdx=
      .ok (found,cursor)) : ∀ a,cursor.arch=some a → enterArch q w a.1=.ok a := by
  intro a ha
  cases nextChunk_arch hn with
  | inl heq => exact h.arch a (heq ▸ ha)
  | inr hr =>
    obtain ⟨b,hb,he⟩ := hr
    rw [ha] at hb
    cases hb
    exact he

/-- Places that no filter accepts do not show in what is handed out. -/
theorem nextSpec_skip {it₁ : QueryIter} {before : List RowLoc}
    {r : Except Fault (Option QueryItem×QueryIter)} {rest : List RowLoc}
    (happ : QueryIter.upcoming w it=before++rest) (hnext : QueryIter.upcoming w it₁=rest)
    (hbefore : ∀ l∈before,acceptsAt q w it.ticks l=false) (ht : it₁.ticks=it.ticks)
    (h : NextSpec q w it₁ r) : NextSpec q w it r := by
  cases r with
  | error e => exact h
  | ok r =>
    obtain ⟨item,it'⟩ := r
    cases item with
    | none =>
      obtain ⟨hall,hleft,hres,hticks⟩ := h
      refine ⟨fun l hl => ?_,hleft,hres,hticks.trans ht⟩
      rw [happ,←hnext] at hl
      cases List.mem_append.mp hl with
      | inl hl => exact hbefore l hl
      | inr hl => exact ht ▸ hall l hl
    | some item =>
      obtain ⟨⟨⟨skipped,hsplit,hskipped⟩,hacc,hstate,hitem⟩,hres,hticks⟩ := h
      refine ⟨⟨⟨before++skipped,?_,fun l hl => ?_⟩,ht ▸ hacc,hstate,hitem.trans ht⟩,hres,hticks.trans ht⟩
      · rw [happ,←hnext,hsplit,List.append_assoc]
      · cases List.mem_append.mp hl with
        | inl hl => exact hbefore l hl
        | inr hl => exact ht ▸ hskipped l hl

/-- `next` hands out the first place to come that the filters accept. -/
theorem next_spec (h : QueryIter.Resolved q w it) : NextSpec q w it (QueryIter.next q w it) := by
  fun_induction QueryIter.next q w it with
  | case1 it item it' hs =>
    have hscan := scanRows_spec h
    rw [hs] at hscan
    exact hscan
  | case2 it hs e hn =>
    obtain ⟨i,-,hi⟩ := nextChunk_error hn
    exact ⟨i,hi⟩
  | case3 it hs cursor hn =>
    have hscan := scanRows_spec h
    rw [hs] at hscan
    obtain ⟨before,happ,hbefore⟩ := hscan
    obtain ⟨hnil,hleft⟩ := nextChunk_spec hn
    refine ⟨fun l hl => hbefore l ?_,?_,⟨h.fetch,resolved_arch h hn⟩,rfl⟩
    · rw [happ,hnil,List.append_nil] at hl
      exact hl
    · have hsub : it.endRow-max it.row it.endRow=0 := by omega
      unfold QueryIter.upcoming
      dsimp only
      rw [hleft,hsub]
      cases it.fetch <;> rfl
  | case4 it hs fetch cursor hn ih =>
    have hscan := scanRows_spec h
    rw [hs] at hscan
    obtain ⟨before,happ,hbefore⟩ := hscan
    obtain ⟨harch,hlt,hlen,hup⟩ := nextChunk_spec hn
    have harches := resolved_arch h hn
    have hfetch : enterArch q w fetch.archId=.ok (fetch.archId,fetch.state) := harches _ harch
    have hnext : QueryIter.upcoming w { it with
        cursor := cursor
        fetch := some fetch
        row := 0
        endRow := World.chunkLen w fetch.archId fetch.chunkIdx }=
          ChunkCursor.upcoming w it.cursor.archIndices it.cursor.arch it.cursor.chunkIdx := hup.symm
    refine nextSpec_skip happ hnext hbefore rfl (ih ⟨fun f he => ?_,harches⟩)
    cases he
    exact hfetch

/-- Worlds whose chunks hold the same rows, under the same layouts. -/
structure SamePlaces (w w' : World V) : Prop where
  /-- The layouts agree. -/
  layouts : ∀ i,(w'.archetypes.valueAt i).map ArchetypeSpec.layout=
    (w.archetypes.valueAt i).map ArchetypeSpec.layout
  /-- The chunks are as long. -/
  lens : ∀ i,(World.chunks w' i).map Chunk.len=(World.chunks w i).map Chunk.len

variable {w' : World V}

/-- Chunks are as long in both. -/
theorem SamePlaces.chunkLen (h : SamePlaces w w') (i k : ℕ) :
    World.chunkLen w' i k=World.chunkLen w i k := by
  rw [World.chunkLen,World.chunkLen,←List.getElem?_map,←List.getElem?_map,h.lens]

/-- Archetypes have as many chunks in both. -/
theorem SamePlaces.chunk_count (h : SamePlaces w w') (i : ℕ) :
    (World.chunks w' i).length=(World.chunks w i).length := by
  have hl := congrArg List.length (h.lens i)
  rwa [List.length_map,List.length_map] at hl

/-- Archetypes have the same rows in both. -/
theorem SamePlaces.archPlaces (h : SamePlaces w w') (i k : ℕ) :
    World.archPlaces w' i k=World.archPlaces w i k := by
  have hchunk : World.chunkPlaces w' i=World.chunkPlaces w i := by
    funext j
    rw [World.chunkPlaces,World.chunkPlaces,h.chunkLen]
  rw [World.archPlaces,World.archPlaces,h.chunk_count,hchunk]

/-- What is left to visit does not depend on the cells. -/
theorem SamePlaces.upcoming (h : SamePlaces w w') (it : QueryIter) :
    QueryIter.upcoming w' it=QueryIter.upcoming w it := by
  have hcursor : ChunkCursor.upcoming w' it.cursor.archIndices it.cursor.arch it.cursor.chunkIdx=
      ChunkCursor.upcoming w it.cursor.archIndices it.cursor.arch it.cursor.chunkIdx := by
    simp only [ChunkCursor.upcoming,h.archPlaces]
  rw [QueryIter.upcoming,QueryIter.upcoming,hcursor]

/-- Entering an archetype comes to the same. -/
theorem SamePlaces.enterArch (h : SamePlaces w w') (q : QueryShape Component) (i : ℕ) :
    enterArch q w' i=enterArch q w i := by
  have hl := h.layouts i
  unfold QueryWalks.enterArch
  cases hv : w.archetypes.valueAt i with
  | none =>
    rw [hv] at hl
    rw [Option.map_eq_none_iff.mp hl]
  | some spec =>
    rw [hv] at hl
    obtain ⟨spec',hv',he⟩ := Option.map_eq_some_iff.mp hl
    rw [hv']
    dsimp only
    rw [he]

/-- What a walk resolved stays right. -/
theorem SamePlaces.resolved (h : SamePlaces w w') (hr : QueryIter.Resolved q w it) :
    QueryIter.Resolved q w' it where
  fetch := fun fetch hf => (h.enterArch q _).trans (hr.fetch fetch hf)
  arch := fun a ha => (h.enterArch q _).trans (hr.arch a ha)

/-- The places of a run of rows. -/
theorem mem_rowPlaces {i k row count : ℕ} {l : RowLoc} : l∈rowPlaces i k row count ↔
    l.archId=i ∧ l.indices.chunkIdx=k ∧ row ≤ l.indices.idxInChunk ∧ l.indices.idxInChunk<row+count := by
  obtain ⟨archId,chunkIdx,idxInChunk⟩ := l
  simp only [rowPlaces,List.mem_map,List.mem_range'_1,RowLoc.mk.injEq,EntityInChunkIndices.mk.injEq]
  constructor
  · rintro ⟨r,hr,rfl,rfl,rfl⟩
    exact ⟨rfl,rfl,hr⟩
  · rintro ⟨rfl,rfl,hr⟩
    exact ⟨_,hr,rfl,rfl,rfl⟩

/-- A place holds a row when it is within the rows in use. -/
theorem row_isSome (l : RowLoc) : (World.row w l).isSome=true ↔
    l.indices.idxInChunk<World.chunkLen w l.archId l.indices.chunkIdx := by
  unfold World.row World.chunkLen World.chunks
  cases w.archetypes.valueAt l.archId with
  | none => simp
  | some spec =>
    rw [Option.bind_some,Option.map_some,Option.getD_some,Archetype.row]
    cases spec.arch.chunks[l.indices.chunkIdx]? with
    | none => simp
    | some c =>
      rw [Option.bind_some,Option.map_some,Option.getD_some,Chunk.row]
      split <;> simp_all

/-- The places of an archetype are its rows. -/
theorem mem_archPlaces {i : ℕ} {l : RowLoc} : l∈World.archPlaces w i 0 ↔
    l.archId=i ∧ (World.row w l).isSome=true := by
  rw [World.archPlaces,List.mem_flatMap,row_isSome]
  constructor
  · rintro ⟨k,-,hl⟩
    obtain ⟨rfl,rfl,-,hlt⟩ := mem_rowPlaces.mp hl
    rw [Nat.zero_add] at hlt
    exact ⟨rfl,hlt⟩
  · rintro ⟨rfl,hlt⟩
    refine ⟨l.indices.chunkIdx,List.mem_range'_1.mpr ⟨Nat.zero_le _,?_⟩,
      mem_rowPlaces.mpr ⟨rfl,rfl,Nat.zero_le _,by omega⟩⟩
    by_contra hk
    have hnone : (World.chunks w l.archId)[l.indices.chunkIdx]?=none := by
      rw [List.getElem?_eq_none_iff]
      omega
    rw [World.chunkLen,hnone] at hlt
    cases hlt

/-- An archetype has no row twice. -/
theorem nodup_archPlaces (i : ℕ) : (World.archPlaces w i 0).Nodup := by
  have hinj : ∀ k row count,(rowPlaces i k row count).Nodup := by
    intro k row count
    refine List.Nodup.map (fun a b hab => ?_) List.nodup_range'
    cases hab
    rfl
  have hrange : (List.range' 0 ((World.chunks w i).length-0)).Nodup := List.nodup_range'
  refine List.nodup_flatMap.mpr ⟨fun k _ => hinj k 0 _,?_⟩
  refine hrange.imp fun {a b} hab l ha hb => hab ?_
  exact (mem_rowPlaces.mp ha).2.1.symm.trans (mem_rowPlaces.mp hb).2.1

/-- A walk begins before every row of the archetypes it goes through. -/
theorem upcoming_new (q : QueryShape Component) (accessor : QuerySpecAccessor) (w : World V) :
    QueryIter.upcoming w (QueryIter.new q accessor w)=
      (if q.excludeOnly then [] else (accessor.archIndices w).getD []).flatMap
        fun i => World.archPlaces w i 0 := rfl

/-- A new walk has no row ahead twice. -/
theorem nodup_upcoming_new {accessor : QuerySpecAccessor} {idxs : List ℕ}
    (hi : accessor.archIndices w=some idxs) (hs : idxs.Nodup) :
    (QueryIter.upcoming w (QueryIter.new q accessor w)).Nodup := by
  rw [upcoming_new,hi,Option.getD_some]
  refine List.nodup_flatMap.mpr ⟨fun i _ => nodup_archPlaces i,?_⟩
  have hsub : (if q.excludeOnly then [] else idxs).Nodup := by
    split
    · exact List.nodup_nil
    · exact hs
  refine hsub.imp fun {a b} hab l ha hb => hab ?_
  exact (mem_archPlaces.mp ha).1.symm.trans (mem_archPlaces.mp hb).1

/-- A new walk has resolved nothing yet. -/
theorem resolved_new (q : QueryShape Component) (accessor : QuerySpecAccessor) (w : World V) :
    QueryIter.Resolved q w (QueryIter.new q accessor w) := ⟨nofun,nofun⟩

end Places

section Columns

variable {V : Type} {layout : ChunkLayout}

/-- A column of an item is a column of the archetype; it is mutable only where
the shape writes. -/
structure ColumnOf (layout : ChunkLayout) (accesses : List (Access×Component)) (c : ItemColumn) :
    Prop where
  /-- The layout has the column, where the item says. -/
  column : layout.componentColDescriptors.lookup c.state.component.storageType=some c.state.column
  /-- A mutable column is one the shape writes. -/
  writes : c.state.mutable=true → (.write,c.state.component)∈accesses
  /-- Enable bits are those of the column. -/
  enable : ∀ o,c.enableOffset=some o → c.state.column.stateOffset.enableOffset=some o

/-- A column is within any larger set of accesses. -/
theorem ColumnOf.mono {a b : List (Access×Component)} {c : ItemColumn} (h : ColumnOf layout a c)
    (hab : ∀ p∈a,p∈b) : ColumnOf layout b c :=
  ⟨h.column,fun hm => hab _ (h.writes hm),h.enable⟩

/-- A descriptor that is found is that of the layout. -/
theorem columnDescriptor_ok {t : StorageType} {d : ColumnDescriptor}
    (h : columnDescriptor layout t=.ok d) : layout.componentColDescriptors.lookup t=some d := by
  unfold columnDescriptor at h
  cases hl : layout.componentColDescriptors.lookup t with
  | none =>
    rw [hl] at h
    cases h
  | some d' =>
    rw [hl] at h
    cases h
    rfl

/-- A chain that succeeds succeeded at each link. -/
theorem ok_of_bind {ε α β : Type} {x : Except ε α} {f : α → Except ε β} {b : β}
    (h : (x >>= f)=.ok b) : ∃ a,x=.ok a ∧ f a=.ok b := by
  cases x with
  | error e => cases h
  | ok a => exact ⟨a,rfl,h⟩

/-- A resolved column is the one asked for. -/
theorem column_archState {p : QueryColumn Component} {c : ColumnState}
    (h : QueryColumn.archState layout p=.ok c) :
    c.component=p.component ∧ ColumnOf layout [QueryColumn.access p] ⟨c,none⟩ := by
  obtain ⟨d,hd,hc⟩ := ok_of_bind h
  cases hc
  refine ⟨rfl,columnDescriptor_ok hd,fun hm => ?_,nofun⟩
  cases p with
  | ref c => cases hm
  | refMut c => exact List.mem_singleton.mpr rfl

/-- A region that is found is that of the column. -/
theorem stateRegion_ok {t : StorageType} {offset : StateOffset → Option ℕ} {o : ℕ} {d : ColumnDescriptor}
    (h : stateRegion layout t offset=.ok o) (hd : layout.componentColDescriptors.lookup t=some d) :
    offset d.stateOffset=some o := by
  obtain ⟨d',hd',ho⟩ := ok_of_bind h
  rw [columnDescriptor_ok hd'] at hd
  cases hd
  cases hs : offset d.stateOffset with
  | none =>
    rw [hs] at ho
    cases ho
  | some o' =>
    rw [hs] at ho
    cases ho
    rfl

mutual

/-- The columns of an item are those its shape names. -/
theorem archState_columns (q : QueryShape Component) {state : ArchState}
    (h : QueryShape.archState layout q=.ok state) :
    ∀ c∈ArchState.columns state,ColumnOf layout (QueryShape.accesses q) c := by
  intro c hc
  cases q with
  | column p =>
    obtain ⟨s,hs,he⟩ := ok_of_bind h
    cases he
    cases List.mem_singleton.mp hc
    exact (column_archState hs).2
  | entity =>
    cases h
    cases hc
  | filter kind p =>
    obtain ⟨o,ho,h⟩ := ok_of_bind h
    obtain ⟨s,hs,he⟩ := ok_of_bind h
    cases he
    cases List.mem_singleton.mp hc
    exact (column_archState hs).2
  | detail p =>
    obtain ⟨o,ho,h⟩ := ok_of_bind h
    obtain ⟨s,hs,he⟩ := ok_of_bind h
    cases he
    cases List.mem_singleton.mp hc
    obtain ⟨hcomp,hcol⟩ := column_archState hs
    refine ⟨hcol.column,hcol.writes,fun o' he => ?_⟩
    cases he
    exact stateRegion_ok ho (hcomp ▸ hcol.column)
  | without c =>
    cases h
    cases hc
  | tuple elements =>
    obtain ⟨states,hs,he⟩ := ok_of_bind h
    cases he
    exact archStates_columns elements hs c hc

/-- The columns of a tuple are those of its elements. -/
theorem archStates_columns (elements : List (QueryShape Component)) {states : List ArchState}
    (h : QueryShape.archStates layout elements=.ok states) :
    ∀ c∈ArchState.allColumns states,ColumnOf layout (QueryShape.allAccesses elements) c := by
  intro c hc
  cases elements with
  | nil =>
    cases h
    cases hc
  | cons q rest =>
    obtain ⟨state,hs,h⟩ := ok_of_bind h
    obtain ⟨states',hr,he⟩ := ok_of_bind h
    cases he
    cases List.mem_append.mp hc with
    | inl hc => exact (archState_columns q hs c hc).mono fun p hp => List.mem_append_left _ hp
    | inr hc => exact (archStates_columns rest hr c hc).mono fun p hp => List.mem_append_right _ hp

end

end Columns

end XynokEcs.QueryWalks
