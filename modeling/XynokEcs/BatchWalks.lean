import XynokEcs.QueryWalks
import XynokEcs.SpanCuts

/-!
# Chunks, batches and jobs

The rows of a query may also be walked a chunk at a time, in batches of a
bounded number of rows, or by jobs that start from positions of their own. All
of them go through the rows of `iter` in the same order, and the batches of the
two cutters are the same.
-/

namespace XynokEcs.BatchWalks

open ComponentTypes EntityHandle SequenceValueMap ChunkRows ArchetypeStore ChunkLayouts QueryShapes
  EntityAllocation WorldState StoreInvariants QuerySources QueryWalks SpanCuts

section Walkers

variable {V : Type}

/-- `MIN_BATCH_AMOUNT`. -/
def minBatchAmount : ℕ := 8

/-- `RowRange`: rows `start..end` of one chunk. -/
structure RowRange where
  /-- The pointers into the chunk of the rows. -/
  fetch : Fetch
  /-- The first row. -/
  start : ℕ
  /-- The row after the last. -/
  endRow : ℕ

/-- The item of a row of a range. -/
def RowRange.item (range : RowRange) (ticks : QueryTicks) (row : ℕ) : QueryItem :=
  ⟨⟨range.fetch.archId,⟨range.fetch.chunkIdx,row⟩⟩,ticks,range.fetch.state⟩

/-- `ChunkIter`. -/
structure ChunkIter where
  /-- The rows still to come. -/
  range : RowRange
  /-- The ticks that the filters compare with. -/
  ticks : QueryTicks

/-- `ChunkIter::next`: the next row of the range that passes the filters. -/
def ChunkIter.next (w : World V) (it : ChunkIter) : Option QueryItem×ChunkIter :=
  match (List.range' it.range.start (it.range.endRow-it.range.start)).find?
      (Fetch.accepts w it.ticks it.range.fetch) with
  | some row => (some (it.range.item it.ticks row),{ it with range := { it.range with start := row+1 } })
  | none => (none,{ it with range := { it.range with start := max it.range.start it.range.endRow } })

/-- `ChunkCursor::new`. A shape with no column starts out finished. -/
def ChunkCursor.new (q : QueryShape Component) (accessor : QuerySpecAccessor) (w : World V) : ChunkCursor :=
  ⟨if q.excludeOnly then [] else (accessor.archIndices w).getD [],none,0⟩

/-- `QueryChunk`. -/
structure QueryChunk where
  /-- The rows of the chunk. -/
  range : RowRange
  /-- The ticks that the filters compare with. -/
  ticks : QueryTicks

/-- `QueryChunk::iter`. -/
def QueryChunk.iter (chunk : QueryChunk) : ChunkIter := ⟨chunk.range,chunk.ticks⟩

/-- `QueryChunks`. -/
structure QueryChunks where
  /-- The chunks still to come. -/
  cursor : ChunkCursor
  /-- The ticks that the filters compare with. -/
  ticks : QueryTicks

/-- `QueryChunks::new`. -/
def QueryChunks.new (q : QueryShape Component) (accessor : QuerySpecAccessor) (w : World V) : QueryChunks :=
  ⟨ChunkCursor.new q accessor w,accessor.ticks⟩

/-- The whole of a chunk. -/
def Fetch.whole (w : World V) (fetch : Fetch) : RowRange :=
  ⟨fetch,0,World.chunkLen w fetch.archId fetch.chunkIdx⟩

/-- `QueryChunks::next`. -/
def QueryChunks.next (q : QueryShape Component) (w : World V) (it : QueryChunks) :
    Except Fault (Option QueryChunk×QueryChunks) :=
  match ChunkCursor.nextChunk q w it.cursor.archIndices it.cursor.arch it.cursor.chunkIdx with
  | .error e => .error e
  | .ok (none,cursor) => .ok (none,{ it with cursor := cursor })
  | .ok (some fetch,cursor) => .ok (some ⟨Fetch.whole w fetch,it.ticks⟩,{ it with cursor := cursor })

/-- `QueryBatch`. -/
structure QueryBatch where
  /-- The pieces of chunks that make up the batch. -/
  ranges : List RowRange
  /-- The ticks that the filters compare with. -/
  ticks : QueryTicks

/-- `QueryBatch::len`. -/
def QueryBatch.len (batch : QueryBatch) : ℕ := (batch.ranges.map fun r => r.endRow-r.start).sum

/-- `BatchIter`, with the ranges not begun yet. -/
structure BatchIter where
  /-- The pieces after the current one. -/
  ranges : List RowRange
  /-- The rest of the current piece. -/
  rows : Option ChunkIter
  /-- The ticks that the filters compare with. -/
  ticks : QueryTicks

/-- `QueryBatch::iter`. -/
def QueryBatch.iter (batch : QueryBatch) : BatchIter := ⟨batch.ranges,none,batch.ticks⟩

/-- `BatchIter::next`. -/
def BatchIter.nextFrom (w : World V) (ticks : QueryTicks) :
    List RowRange → Option ChunkIter → Option QueryItem×BatchIter
  | [],none => (none,⟨[],none,ticks⟩)
  | [],some rows => match ChunkIter.next w rows with
    | (found,rows') => (found,⟨[],some rows',ticks⟩)
  | range::rest,none => BatchIter.nextFrom w ticks rest (some ⟨range,ticks⟩)
  | range::rest,some rows => match ChunkIter.next w rows with
    | (some item,rows') => (some item,⟨range::rest,some rows',ticks⟩)
    | (none,_) => BatchIter.nextFrom w ticks rest (some ⟨range,ticks⟩)

def BatchIter.next (w : World V) (it : BatchIter) : Option QueryItem×BatchIter :=
  BatchIter.nextFrom w it.ticks it.ranges it.rows

/-- `QueryBatches`. -/
structure QueryBatches where
  /-- The chunks still to come. -/
  cursor : ChunkCursor
  /-- The ticks that the filters compare with. -/
  ticks : QueryTicks
  /-- How many rows a batch is to have at most. -/
  batchAmount : ℕ
  /-- The rest of a chunk that the last batch cut. -/
  leftover : Option RowRange

/-- `QueryBatches::new`. -/
def QueryBatches.new (q : QueryShape Component) (accessor : QuerySpecAccessor) (batchAmount : ℕ)
    (w : World V) : Except Fault QueryBatches :=
  if minBatchAmount ≤ batchAmount then
    .ok ⟨ChunkCursor.new q accessor w,accessor.ticks,batchAmount,none⟩
  else .error (.panic (.batchAmountTooSmall batchAmount))

/-- Where a range is cut: at its end where there is room, else at a byte border. -/
def splitRow (start endRow room : ℕ) : ℕ :=
  if start+room ≥ endRow then endRow else (start+room)/minBatchAmount*minBatchAmount

/-- The range a batch goes on with: what the batch before left over, or the next chunk. -/
def nextRange (q : QueryShape Component) (w : World V) (cursor : ChunkCursor) :
    Option RowRange → Except Fault (Option RowRange×ChunkCursor)
  | some range => .ok (some range,cursor)
  | none => match ChunkCursor.nextChunk q w cursor.archIndices cursor.arch cursor.chunkIdx with
    | .error e => .error e
    | .ok (none,cursor) => .ok (none,cursor)
    | .ok (some fetch,cursor) => .ok (some (Fetch.whole w fetch),cursor)

/-- What the loop of `QueryBatches::next` ends with. -/
structure Filled where
  /-- The pieces gathered for the batch. -/
  ranges : List RowRange
  /-- The chunks still to come. -/
  cursor : ChunkCursor
  /-- The rest of a chunk that the batch cut. -/
  leftover : Option RowRange

/-- The loop of `QueryBatches::next`. Each pass but the last takes a row at
least, so that `room` passes are enough. -/
def fill (q : QueryShape Component) (w : World V) :
    ℕ → ℕ → ChunkCursor → Option RowRange → List RowRange → Except Fault Filled
  | 0,_,cursor,leftover,ranges => .ok ⟨ranges,cursor,leftover⟩
  | passes+1,room,cursor,leftover,ranges =>
    if room=0 then .ok ⟨ranges,cursor,leftover⟩
    else match nextRange q w cursor leftover with
      | .error e => .error e
      | .ok (none,cursor) => .ok ⟨ranges,cursor,none⟩
      | .ok (some range,cursor) =>
        if splitRow range.start range.endRow room=range.start then .ok ⟨ranges,cursor,some range⟩
        else fill q w passes (room-(splitRow range.start range.endRow room-range.start)) cursor
          (if splitRow range.start range.endRow room<range.endRow then
            some { range with start := splitRow range.start range.endRow room } else none)
          (ranges++[{ range with endRow := splitRow range.start range.endRow room }])

/-- `QueryBatches::next`. -/
def QueryBatches.next (q : QueryShape Component) (w : World V) (it : QueryBatches) :
    Except Fault (Option QueryBatch×QueryBatches) :=
  match fill q w it.batchAmount it.batchAmount it.cursor it.leftover [] with
  | .error e => .error e
  | .ok filled => .ok (if filled.ranges.isEmpty then none else some ⟨filled.ranges,it.ticks⟩,
      { it with cursor := filled.cursor, leftover := filled.leftover })

end Walkers

section Jobs

variable {V ι : Type}

/-- `RowPos`: a row of a query, where a job starts. -/
structure RowPos where
  /-- Which of the matched archetypes. -/
  archPos : ℕ
  /-- Which chunk of that archetype. -/
  chunkIdx : ℕ
  /-- Which row of that chunk. -/
  row : ℕ
deriving DecidableEq

/-- `ParWalker`. -/
structure ParWalker where
  /-- The matched archetypes, in the order they are walked. -/
  archIndices : List ℕ
  /-- The ticks that the filters compare with. -/
  ticks : QueryTicks

/-- `ParWalker::new`. -/
def ParWalker.new (q : QueryShape Component) (accessor : QuerySpecAccessor) (w : World V) : ParWalker :=
  ⟨if q.excludeOnly then [] else (accessor.archIndices w).getD [],accessor.ticks⟩

/-- `arch_at`. -/
def ParWalker.archAt (walker : ParWalker) (w : World V) (archPos : ℕ) : Except Fault ℕ :=
  match walker.archIndices[archPos]? with
  | none => .error (.panic (.indexOutOfBounds archPos walker.archIndices.length))
  | some i => match w.archetypes.valueAt i with
    | none => .error (.panic (.archetypeIndexMissing i))
    | some _ => .ok i

/-- The length of `chunk_at`. -/
def lenAt (w : World V) (archId chunkIdx : ℕ) : Except Fault ℕ :=
  match (World.chunks w archId)[chunkIdx]? with
  | none => .error (.panic (.indexOutOfBounds chunkIdx (World.chunks w archId).length))
  | some chunk => .ok chunk.len

/-- The first non-empty chunk of an archetype, from a chunk on. -/
def firstChunk (w : World V) (archId chunkIdx : ℕ) : Option ℕ :=
  (List.range' chunkIdx ((World.chunks w archId).length-chunkIdx)).find? fun k =>
    World.chunkLen w archId k≠0

/-- The loop of `next_non_empty`, over the archetypes from a position on. -/
def nextNonEmptyFrom (w : World V) : List ℕ → ℕ → ℕ → Except Fault (Option RowPos)
  | [],_,_ => .ok none
  | i::rest,archPos,chunkIdx => match w.archetypes.valueAt i with
    | none => .error (.panic (.archetypeIndexMissing i))
    | some _ => match firstChunk w i chunkIdx with
      | some k => .ok (some ⟨archPos,k,0⟩)
      | none => nextNonEmptyFrom w rest (archPos+1) 0

/-- `next_non_empty`. -/
def ParWalker.nextNonEmpty (walker : ParWalker) (w : World V) (archPos chunkIdx : ℕ) :
    Except Fault (Option RowPos) :=
  nextNonEmptyFrom w (walker.archIndices.drop archPos) archPos chunkIdx

/-- `std::iter::successors`: hands out a value and works out the one after it. -/
def successors {α ε : Type} (succ : α → Except ε (Option α)) : Option α → Except ε (Option α×Option α)
  | none => .ok (none,none)
  | some a => match succ a with
    | .error e => .error e
    | .ok next => .ok (some a,next)

/-- `chunk_starts`, after the first. -/
def ParWalker.chunkStarts (walker : ParWalker) (w : World V) :
    Option RowPos → Except Fault (Option RowPos×Option RowPos) :=
  successors fun pos => walker.nextNonEmpty w pos.archPos (pos.chunkIdx+1)

/-- A piece of a chunk that a job covers. -/
structure Piece where
  /-- The archetype of the piece. -/
  archId : ℕ
  /-- The chunk of the piece. -/
  chunkIdx : ℕ
  /-- The first row. -/
  row : ℕ
  /-- The row after the last. -/
  endRow : ℕ

/-- The chunk of a position, with its length. -/
def ParWalker.chunkOf (walker : ParWalker) (w : World V) (pos : RowPos) : Except Fault (ℕ×ℕ) := do
  let archId ← walker.archAt w pos.archPos
  let len ← lenAt w archId pos.chunkIdx
  return (archId,len)

/-- `cut_batch`, with what `visit` gave for each piece and where the next batch
starts. Each pass but the last takes a row at least. -/
def ParWalker.cutBatch (walker : ParWalker) (w : World V) (visit : Piece → Except Fault (List ι)) :
    ℕ → ℕ → RowPos → List ι → Except Fault (List ι×Option RowPos)
  | 0,_,pos,visited => .ok (visited,some pos)
  | passes+1,room,pos,visited =>
    if room=0 then .ok (visited,some pos)
    else match walker.chunkOf w pos with
      | .error e => .error e
      | .ok (archId,len) =>
        if splitRow pos.row len room=pos.row then .ok (visited,some pos)
        else match visit ⟨archId,pos.chunkIdx,pos.row,splitRow pos.row len room⟩ with
          | .error e => .error e
          | .ok more =>
            if splitRow pos.row len room<len then
              .ok (visited++more,some { pos with row := splitRow pos.row len room })
            else match walker.nextNonEmpty w pos.archPos (pos.chunkIdx+1) with
              | .error e => .error e
              | .ok none => .ok (visited++more,none)
              | .ok (some next) => ParWalker.cutBatch walker w visit passes
                (room-(splitRow pos.row len room-pos.row)) next (visited++more)

/-- `batch_starts`, after the first. -/
def ParWalker.batchStarts (walker : ParWalker) (w : World V) (batchAmount : ℕ) :
    Option RowPos → Except Fault (Option RowPos×Option RowPos) :=
  successors fun pos => (walker.cutBatch w (fun _ => .ok ([] : List Unit)) batchAmount batchAmount pos []).map
    Prod.snd

/-- `batch_starts`, with the first. -/
def ParWalker.firstBatch (walker : ParWalker) (w : World V) (batchAmount : ℕ) :
    Except Fault (Option RowPos) :=
  if minBatchAmount ≤ batchAmount then walker.nextNonEmpty w 0 0
  else .error (.panic (.batchAmountTooSmall batchAmount))

/-- What a `ChunkIter` hands out until it is exhausted, as `for_each` does. -/
def ChunkIter.items (w : World V) (it : ChunkIter) : List QueryItem :=
  ((List.range' it.range.start (it.range.endRow-it.range.start)).filter
    (Fetch.accepts w it.ticks it.range.fetch)).map (it.range.item it.ticks)

/-- `walk_rows`, with the items `f` is called on. -/
def ParWalker.walkRows (walker : ParWalker) (q : QueryShape Component) (w : World V) (piece : Piece) :
    Except Fault (List QueryItem) := do
  let entered ← enterArch q w piece.archId
  return ChunkIter.items w
    ⟨⟨⟨piece.archId,piece.chunkIdx,entered.2⟩,piece.row,piece.endRow⟩,walker.ticks⟩

/-- `walk_chunk`. -/
def ParWalker.walkChunk (walker : ParWalker) (q : QueryShape Component) (w : World V) (start : RowPos) :
    Except Fault (List QueryItem) := do
  let chunk ← walker.chunkOf w start
  walker.walkRows q w ⟨chunk.1,start.chunkIdx,0,chunk.2⟩

/-- `walk_batch`. -/
def ParWalker.walkBatch (walker : ParWalker) (q : QueryShape Component) (w : World V) (start : RowPos)
    (batchAmount : ℕ) : Except Fault (List QueryItem) := do
  let cut ← walker.cutBatch w (walker.walkRows q w) batchAmount batchAmount start []
  return cut.1

end Jobs

section Spans

variable {V : Type} {q : QueryShape Component} {w : World V}

/-- The non-empty chunks of an archetype, from a chunk on. -/
def World.archSpans (w : World V) (archId chunkIdx : ℕ) : List (Span (ℕ×ℕ)) :=
  ((List.range' chunkIdx ((World.chunks w archId).length-chunkIdx)).filter fun k =>
    World.chunkLen w archId k≠0).map fun k => ⟨(archId,k),0,World.chunkLen w archId k⟩

/-- The non-empty chunks of some archetypes. -/
def World.archesSpans (w : World V) (archIndices : List ℕ) : List (Span (ℕ×ℕ)) :=
  archIndices.flatMap fun i => World.archSpans w i 0

/-- The row of a chunk, as a place. -/
def place (p : (ℕ×ℕ)×ℕ) : RowLoc := ⟨p.1.1,⟨p.1.2,p.2⟩⟩

/-- The rows of some spans. -/
def places (spans : List (Span (ℕ×ℕ))) : List RowLoc := (rows spans).map place

/-- Places are listed span by span. -/
theorem places_append (a b : List (Span (ℕ×ℕ))) : places (a++b)=places a++places b := by
  rw [places,places,places,rows,List.flatMap_append,List.map_append]
  rfl

/-- The first non-empty chunk comes before the others. -/
theorem firstChunk_spec (w : World V) (archId chunkIdx : ℕ) : match firstChunk w archId chunkIdx with
    | some k => k<(World.chunks w archId).length ∧ World.archSpans w archId chunkIdx=
        ⟨(archId,k),0,World.chunkLen w archId k⟩::World.archSpans w archId (k+1)
    | none => World.archSpans w archId chunkIdx=[] := by
  cases hk : firstChunk w archId chunkIdx with
  | none =>
    have hall := List.find?_eq_none.mp hk
    dsimp only
    rw [World.archSpans,List.map_eq_nil_iff,List.filter_eq_nil_iff]
    exact hall
  | some k =>
    obtain ⟨hp,hbefore,hle,hlt,happ⟩ := find?_range' hk
    have hend : chunkIdx+((World.chunks w archId).length-chunkIdx)-(k+1)=
        (World.chunks w archId).length-(k+1) := by omega
    have hnil : (List.range' chunkIdx (k-chunkIdx)).filter (fun k => World.chunkLen w archId k≠0)=[] :=
      List.filter_eq_nil_iff.mpr fun j hj => Bool.eq_false_iff.mp (hbefore j hj)
    refine ⟨by omega,?_⟩
    rw [World.archSpans,happ,hend,List.filter_append,hnil,List.nil_append,List.filter_cons,if_pos hp]
    rfl

/-- The rows of an archetype are those of its non-empty chunks. -/
theorem places_archSpans (w : World V) (archId chunkIdx : ℕ) :
    places (World.archSpans w archId chunkIdx)=World.archPlaces w archId chunkIdx := by
  unfold World.archSpans World.archPlaces
  induction List.range' chunkIdx ((World.chunks w archId).length-chunkIdx) with
  | nil => rfl
  | cons k ks ih =>
    rw [List.flatMap_cons,←ih]
    by_cases hk : World.chunkLen w archId k=0
    · have hnil : World.chunkPlaces w archId k=[] := chunkPlaces_eq_nil.mpr hk
      rw [hnil,List.nil_append,List.filter_cons_of_neg (by simpa using hk)]
    · rw [List.filter_cons_of_pos (by simpa using hk),List.map_cons,places,rows_cons,List.map_append]
      congr 1
      rw [Span.rows,List.map_map]
      rfl

/-- The spans of some archetypes have the places of these. -/
theorem places_archesSpans (w : World V) (archIndices : List ℕ) :
    places (World.archesSpans w archIndices)=archIndices.flatMap fun i => World.archPlaces w i 0 := by
  induction archIndices with
  | nil => rfl
  | cons i rest ih =>
    rw [List.flatMap_cons,←ih,←places_archSpans,←places_append]
    rfl

/-- Chunks can be cut: none is empty and each is there once. -/
theorem tidy_archesSpans {archIndices : List ℕ} (h : archIndices.Nodup) :
    Tidy minBatchAmount (World.archesSpans w archIndices) where
  nonempty := by
    intro s hs
    obtain ⟨i,-,hs⟩ := List.mem_flatMap.mp hs
    obtain ⟨k,hk,rfl⟩ := List.mem_map.mp hs
    have hlen : World.chunkLen w i k≠0 := of_decide_eq_true (List.mem_filter.mp hk).2
    exact Nat.pos_of_ne_zero hlen
  onGrid := by
    intro s hs
    obtain ⟨i,-,hs⟩ := List.mem_flatMap.mp hs
    obtain ⟨k,-,rfl⟩ := List.mem_map.mp hs
    exact Nat.dvd_zero _
  keys := by
    have hkeys : (World.archesSpans w archIndices).map Span.key=archIndices.flatMap fun i =>
        ((List.range' 0 ((World.chunks w i).length-0)).filter fun k =>
          World.chunkLen w i k≠0).map fun k => (i,k) := by
      unfold World.archesSpans World.archSpans
      rw [List.map_flatMap]
      simp only [List.map_map]
      rfl
    rw [hkeys]
    refine List.nodup_flatMap.mpr ⟨fun i _ => ?_,?_⟩
    · refine List.Nodup.map (fun a b hab => ?_) (List.Nodup.filter _ List.nodup_range')
      cases hab
      rfl
    · refine h.imp fun {a b} hab p ha hb => hab ?_
      obtain ⟨k,-,rfl⟩ := List.mem_map.mp ha
      obtain ⟨k',-,he⟩ := List.mem_map.mp hb
      cases he
      rfl

end Spans

section Cursors

variable {V : Type} {q : QueryShape Component} {w : World V} {ticks : QueryTicks}

/-- The chunks a cursor has still to come to. -/
def ChunkCursor.spans (w : World V) (archIndices : List ℕ) (arch : Option (ℕ×ArchState))
    (chunkIdx : ℕ) : List (Span (ℕ×ℕ)) :=
  (match arch with
    | none => []
    | some a => World.archSpans w a.1 chunkIdx)++World.archesSpans w archIndices

/-- A cursor whose archetypes all have what the shape needs. -/
structure CursorOk (q : QueryShape Component) (w : World V) (cursor : ChunkCursor) : Prop where
  /-- The archetype that is being walked was entered without a panic. -/
  arch : ∀ a,cursor.arch=some a → enterArch q w a.1=.ok a
  /-- The archetypes still to come can be entered. -/
  indices : ∀ i∈cursor.archIndices,∃ a,enterArch q w i=.ok a

def RowRange.span (range : RowRange) : Span (ℕ×ℕ) :=
  ⟨(range.fetch.archId,range.fetch.chunkIdx),range.start,range.endRow⟩

/-- A range whose archetype was resolved. -/
def RangeOk (q : QueryShape Component) (w : World V) (range : RowRange) : Prop :=
  enterArch q w range.fetch.archId=.ok (range.fetch.archId,range.fetch.state)

/-- A scan comes to the first chunk of the archetype that is not empty. -/
theorem scan_left (w : World V) (archIndices : List ℕ) (arch : Option (ℕ×ArchState)) (chunkIdx : ℕ) :
    match ChunkCursor.scan w arch chunkIdx with
    | none => ChunkCursor.spans w archIndices arch chunkIdx=World.archesSpans w archIndices
    | some fetch => arch=some (fetch.archId,fetch.state) ∧
      ChunkCursor.spans w archIndices arch chunkIdx=(Fetch.whole w fetch).span::
        ChunkCursor.spans w archIndices arch (fetch.chunkIdx+1) := by
  cases arch with
  | none => rfl
  | some a =>
    have hscan : ChunkCursor.scan w (some a) chunkIdx=
        (firstChunk w a.1 chunkIdx).map fun k => ⟨a.1,k,a.2⟩ := rfl
    have hfirst := firstChunk_spec w a.1 chunkIdx
    rw [hscan]
    unfold ChunkCursor.spans
    cases hk : firstChunk w a.1 chunkIdx with
    | none =>
      rw [hk] at hfirst
      dsimp only [Option.map_none]
      rw [hfirst,List.nil_append]
    | some k =>
      rw [hk] at hfirst
      dsimp only [Option.map_some]
      rw [hfirst.2]
      exact ⟨rfl,rfl⟩

/-- A cursor that is finished has nothing left. -/
theorem finished_left (w : World V) (arch : Option (ℕ×ArchState)) (chunkIdx : ℕ) :
    ChunkCursor.spans w [] arch (ChunkCursor.finished w arch chunkIdx)=[] := by
  cases arch with
  | none => rfl
  | some a =>
    have hsub : (World.chunks w a.1).length-max chunkIdx (World.chunks w a.1).length=0 := by omega
    unfold ChunkCursor.spans ChunkCursor.finished
    dsimp only
    rw [World.archSpans,hsub]
    rfl

/-- A cursor hands out the chunks to come, one after the other. -/
theorem nextChunk_left {archIndices : List ℕ} {arch : Option (ℕ×ArchState)} {chunkIdx : ℕ}
    (h : CursorOk q w ⟨archIndices,arch,chunkIdx⟩) : ∃ found cursor,
      ChunkCursor.nextChunk q w archIndices arch chunkIdx=.ok (found,cursor) ∧ CursorOk q w cursor ∧
      match found with
      | none => ChunkCursor.spans w archIndices arch chunkIdx=[] ∧
        ChunkCursor.spans w cursor.archIndices cursor.arch cursor.chunkIdx=[]
      | some fetch => RangeOk q w (Fetch.whole w fetch) ∧ ChunkCursor.spans w archIndices arch chunkIdx=
        (Fetch.whole w fetch).span::
          ChunkCursor.spans w cursor.archIndices cursor.arch cursor.chunkIdx := by
  induction archIndices generalizing arch chunkIdx with
  | nil =>
    have hscan := scan_left w [] arch chunkIdx
    unfold ChunkCursor.nextChunk
    cases hs : ChunkCursor.scan w arch chunkIdx with
    | none =>
      rw [hs] at hscan
      exact ⟨none,_,rfl,⟨h.arch,fun i hi => by cases hi⟩,hscan,finished_left w arch chunkIdx⟩
    | some fetch =>
      rw [hs] at hscan
      exact ⟨some fetch,_,rfl,⟨h.arch,fun i hi => by cases hi⟩,h.arch _ hscan.1,hscan.2⟩
  | cons i rest ih =>
    have hscan := scan_left w (i::rest) arch chunkIdx
    unfold ChunkCursor.nextChunk
    cases hs : ChunkCursor.scan w arch chunkIdx with
    | none =>
      rw [hs] at hscan
      obtain ⟨a,ha⟩ := h.indices i List.mem_cons_self
      have hi : a.1=i := enterArch_fst ha
      have hspans : ChunkCursor.spans w (i::rest) arch chunkIdx=ChunkCursor.spans w rest (some a) 0 := by
        rw [ChunkCursor.spans,hi]
        exact hscan
      dsimp only
      rw [ha,hspans]
      refine ih ⟨fun b hb => ?_,fun j hj => h.indices j (List.mem_cons_of_mem i hj)⟩
      cases hb
      rw [hi]
      exact ha
    | some fetch =>
      rw [hs] at hscan
      exact ⟨some fetch,_,rfl,⟨h.arch,h.indices⟩,h.arch _ hscan.1,hscan.2⟩

/-- What is left of a walk in batches. -/
def leftSpans (w : World V) (cursor : ChunkCursor) (leftover : Option RowRange) : List (Span (ℕ×ℕ)) :=
  (leftover.map RowRange.span).toList++
    ChunkCursor.spans w cursor.archIndices cursor.arch cursor.chunkIdx

/-- A walk in batches whose archetypes all have what the shape needs. -/
structure BatchesOk (q : QueryShape Component) (w : World V) (cursor : ChunkCursor)
    (leftover : Option RowRange) : Prop where
  /-- The cursor can go on. -/
  cursor : CursorOk q w cursor
  /-- The pending rows have an archetype that can be entered. -/
  leftover : ∀ range,leftover=some range → RangeOk q w range

/-- The next range is the first of what is left. -/
theorem nextRange_left {cursor : ChunkCursor} {leftover : Option RowRange}
    (h : BatchesOk q w cursor leftover) : ∃ found cursor',
      nextRange q w cursor leftover=.ok (found,cursor') ∧ BatchesOk q w cursor' found ∧
      match found with
      | none => leftSpans w cursor leftover=[] ∧ leftSpans w cursor' none=[]
      | some range => leftSpans w cursor leftover=
        range.span::ChunkCursor.spans w cursor'.archIndices cursor'.arch cursor'.chunkIdx := by
  cases leftover with
  | some range => exact ⟨some range,cursor,rfl,h,rfl⟩
  | none =>
    obtain ⟨found,cursor',hn,hok,hleft⟩ := nextChunk_left h.cursor
    unfold nextRange
    rw [hn]
    cases found with
    | none => exact ⟨none,cursor',rfl,⟨hok,nofun⟩,hleft⟩
    | some fetch =>
      refine ⟨some (Fetch.whole w fetch),cursor',rfl,⟨hok,fun range hr => ?_⟩,hleft.2⟩
      cases hr
      exact hleft.1

/-- A range that fits is not cut. -/
theorem splitRow_fits {start endRow room : ℕ} (h : endRow ≤ start+room) :
    splitRow start endRow room=endRow := if_pos h

/-- Any other is cut at the last border before the batch is full. -/
theorem splitRow_cuts {start endRow room : ℕ} (h : ¬endRow ≤ start+room) :
    splitRow start endRow room=(start+room)/minBatchAmount*minBatchAmount := if_neg h

/-- What holds of a list and one item more holds of both. -/
theorem forall_snoc {α : Type} {P : α → Prop} {l : List α} {a : α} (hl : ∀ x∈l,P x) (ha : P a) :
    ∀ x∈l++[a],P x := by
  intro x hx
  cases List.mem_append.mp hx with
  | inl hx => exact hl x hx
  | inr hx => exact List.mem_singleton.mp hx ▸ ha

/-- The loop takes the batch that `cut` takes. -/
theorem fill_left {passes room : ℕ} {cursor : ChunkCursor} {leftover : Option RowRange}
    (ranges : List RowRange) (h : BatchesOk q w cursor leftover) (hroom : room ≤ passes)
    (htidy : Tidy minBatchAmount (leftSpans w cursor leftover)) (hranges : ∀ r∈ranges,RangeOk q w r) :
    ∃ filled,fill q w passes room cursor leftover ranges=.ok filled ∧
      filled.ranges.map RowRange.span=
        ranges.map RowRange.span++(cut minBatchAmount room (leftSpans w cursor leftover)).1 ∧
      leftSpans w filled.cursor filled.leftover=(cut minBatchAmount room (leftSpans w cursor leftover)).2 ∧
      BatchesOk q w filled.cursor filled.leftover ∧ ∀ r∈filled.ranges,RangeOk q w r := by
  induction passes generalizing room cursor leftover ranges with
  | zero =>
    have h0 : room=0 := by omega
    rw [h0,cut_zero,List.append_nil]
    exact ⟨⟨ranges,cursor,leftover⟩,rfl,rfl,rfl,h,hranges⟩
  | succ passes ih =>
    rw [fill]
    by_cases h0 : room=0
    · rw [if_pos h0,h0,cut_zero,List.append_nil]
      exact ⟨⟨ranges,cursor,leftover⟩,rfl,rfl,rfl,h,hranges⟩
    · obtain ⟨found,cursor',hn,hok,hleft⟩ := nextRange_left h
      rw [if_neg h0,hn]
      cases found with
      | none =>
        rw [hleft.1,cut,List.append_nil]
        exact ⟨⟨ranges,cursor',none⟩,rfl,rfl,hleft.2,hok,hranges⟩
      | some range =>
        have hrange := hok.leftover range rfl
        have hlt : range.start<range.endRow := by
          refine htidy.nonempty range.span ?_
          rw [hleft]
          exact List.mem_cons_self
        have hgrid : minBatchAmount∣range.start := by
          refine htidy.onGrid range.span ?_
          rw [hleft]
          exact List.mem_cons_self
        rw [hleft] at htidy ⊢
        by_cases hfits : range.endRow ≤ range.start+room
        · have hne : ¬range.endRow=range.start := by omega
          have hnot : ¬range.endRow<range.endRow := Nat.lt_irrefl _
          dsimp only
          rw [splitRow_fits hfits,if_neg hne,if_neg hnot,cut_fits h0 hfits]
          have hrest : leftSpans w cursor' none=
            ChunkCursor.spans w cursor'.archIndices cursor'.arch cursor'.chunkIdx := rfl
          have hall : ∀ r∈ranges++[range],RangeOk q w r := forall_snoc hranges hrange
          have hok' : BatchesOk q w cursor' none := ⟨hok.cursor,fun r hr => by cases hr⟩
          obtain ⟨filled,hfill,hspans,hafter,hok',hall⟩ := ih _ hok'
            (by omega : room-(range.endRow-range.start) ≤ passes) (hrest ▸ htidy.tail) hall
          rw [hrest] at hspans hafter
          refine ⟨filled,hfill,?_,hafter,hok',hall⟩
          rw [hspans,List.map_append,List.append_assoc]
          rfl
        · dsimp only
          rw [splitRow_cuts hfits]
          by_cases hsplit : (range.start+room)/minBatchAmount*minBatchAmount=range.start
          · rw [if_pos hsplit,cut_stays hfits hsplit,List.append_nil]
            exact ⟨⟨ranges,cursor',some range⟩,rfl,rfl,rfl,hok,hranges⟩
          · have hbetween : range.start<(range.start+room)/minBatchAmount*minBatchAmount ∧
                (range.start+room)/minBatchAmount*minBatchAmount<range.endRow ∧ _ :=
              cut_between (s:=range.span) hgrid hfits hsplit
            obtain ⟨hlo,hhi,-⟩ := hbetween
            have htidy' := cut_tidy room htidy
            rw [cut_inside h0 hfits hsplit] at htidy'
            rw [if_neg hsplit,if_pos hhi,cut_inside h0 hfits hsplit]
            have hall : ∀ r∈ranges++[{ range with
                endRow := (range.start+room)/minBatchAmount*minBatchAmount }],RangeOk q w r :=
              forall_snoc hranges hrange
            have hok' : BatchesOk q w cursor' (some { range with
                start := (range.start+room)/minBatchAmount*minBatchAmount }) :=
              ⟨hok.cursor,fun r hr => Option.some.inj hr ▸ hrange⟩
            obtain ⟨filled,hfill,hspans,hafter,hok',hall⟩ := ih _ hok'
              (by omega : room-((range.start+room)/minBatchAmount*minBatchAmount-range.start) ≤ passes)
              htidy' hall
            have hagain : cut minBatchAmount
                (room-((range.start+room)/minBatchAmount*minBatchAmount-range.start))
                (leftSpans w cursor' (some { range with
                  start := (range.start+room)/minBatchAmount*minBatchAmount }))=([],_) :=
              cut_again (s:=range.span) hfits hlo.le
            rw [hagain] at hspans hafter
            rw [List.append_nil,List.map_append] at hspans
            exact ⟨filled,hfill,hspans,hafter,hok',hall⟩

/-- The chunk that a span stands for. -/
structure ChunkOf (q : QueryShape Component) (w : World V) (ticks : QueryTicks) (s : Span (ℕ×ℕ))
    (chunk : QueryChunk) : Prop where
  /-- The chunk holds the rows of the span. -/
  span : chunk.range.span=s
  /-- Its pointers are those of its archetype. -/
  ok : RangeOk q w chunk.range
  /-- It carries the ticks of the walk. -/
  ticks : chunk.ticks=ticks

/-- `iter_chunk` hands out the chunks to come and ends. -/
theorem chunks_exhaust (ticks : QueryTicks) {cursor : ChunkCursor} (h : CursorOk q w cursor) : ∃ chunks,
    Exhausts (QueryChunks.next q w) ⟨cursor,ticks⟩ chunks ∧ List.Forall₂ (ChunkOf q w ticks)
      (ChunkCursor.spans w cursor.archIndices cursor.arch cursor.chunkIdx) chunks := by
  refine exhausts_of_left (fun it spans => CursorOk q w it.cursor ∧ it.ticks=ticks ∧
    ChunkCursor.spans w it.cursor.archIndices it.cursor.arch it.cursor.chunkIdx=spans)
    (fun it hleft => ?_) (fun it s rest hleft => ?_) ⟨h,rfl,rfl⟩
  · obtain ⟨hok,-,hspans⟩ := hleft
    obtain ⟨found,cursor',hn,-,hfound⟩ := nextChunk_left hok
    unfold QueryChunks.next
    rw [hn]
    cases found with
    | none => exact ⟨_,rfl⟩
    | some fetch => cases hspans.symm.trans hfound.2
  · obtain ⟨hok,hticks,hspans⟩ := hleft
    obtain ⟨found,cursor',hn,hok',hfound⟩ := nextChunk_left hok
    unfold QueryChunks.next
    rw [hn]
    cases found with
    | none => cases hspans.symm.trans hfound.1
    | some fetch =>
      cases hspans.symm.trans hfound.2
      exact ⟨_,_,rfl,⟨rfl,hfound.1,hticks⟩,hok',hticks,rfl⟩

/-- The batch that some spans stand for. -/
structure BatchOf (q : QueryShape Component) (w : World V) (ticks : QueryTicks) (b : List (Span (ℕ×ℕ)))
    (batch : QueryBatch) : Prop where
  /-- The pieces hold the rows of the spans, in order. -/
  spans : batch.ranges.map RowRange.span=b
  /-- The pointers of each piece are those of its archetype. -/
  ok : ∀ r∈batch.ranges,RangeOk q w r
  /-- The batch carries the ticks of the walk. -/
  ticks : batch.ticks=ticks

/-- What is left of `iter_batch`. -/
structure BatchesLeft (q : QueryShape Component) (w : World V) (ticks : QueryTicks) (n : ℕ)
    (it : QueryBatches) (batches : List (List (Span (ℕ×ℕ)))) : Prop where
  /-- The walk can go on. -/
  ok : BatchesOk q w it.cursor it.leftover
  /-- The rows to come are one run for each chunk, from the border of a byte on. -/
  tidy : Tidy minBatchAmount (leftSpans w it.cursor it.leftover)
  /-- Cutting them gives the batches to come. -/
  batches : Batches minBatchAmount n (leftSpans w it.cursor it.leftover) batches
  /-- The batch amount stays that of the walk. -/
  amount : it.batchAmount=n
  /-- The ticks stay those of the walk. -/
  ticks : it.ticks=ticks

/-- `iter_batch` hands out the batches of what is left and ends. -/
theorem batches_exhaust {n : ℕ} (hn : minBatchAmount ≤ n) {it : QueryBatches}
    {batches : List (List (Span (ℕ×ℕ)))} (h : BatchesLeft q w ticks n it batches) : ∃ bs,
    Exhausts (QueryBatches.next q w) it bs ∧ List.Forall₂ (BatchOf q w ticks) batches bs := by
  refine exhausts_of_left (BatchesLeft q w ticks n) (fun it hleft => ?_)
    (fun it b rest hleft => ?_) h
  · obtain ⟨filled,hfill,hspans,-,-,-⟩ := fill_left [] hleft.ok (Nat.le_refl it.batchAmount)
      hleft.tidy nofun
    have hnil : leftSpans w it.cursor it.leftover=[] := by
      cases hb : leftSpans w it.cursor it.leftover with
      | nil => rfl
      | cons s rest =>
        have hleft := hleft.batches
        rw [hb] at hleft
        cases hleft
    rw [hnil,cut] at hspans
    have hempty : filled.ranges=[] := List.map_eq_nil_iff.mp hspans
    unfold QueryBatches.next
    rw [hfill]
    dsimp only
    rw [hempty]
    exact ⟨_,rfl⟩
  · obtain ⟨filled,hfill,hspans,hafter,hok',hall⟩ := fill_left [] hleft.ok
      (Nat.le_refl it.batchAmount) hleft.tidy nofun
    rw [hleft.amount] at hspans hafter
    have hcut := hleft.batches
    obtain ⟨hb,hrest⟩ := hcut.head
    have hne : ¬filled.ranges.isEmpty=true := by
      intro he
      have hpos := cut_ne_nil (by decide : 0 < minBatchAmount) hn hcut.ne_nil hleft.tidy
      rw [List.map_nil,List.nil_append,List.isEmpty_iff.mp he] at hspans
      rw [←hspans] at hpos
      exact Nat.lt_irrefl _ hpos
    unfold QueryBatches.next
    rw [hfill]
    dsimp only
    rw [if_neg hne]
    refine ⟨_,_,rfl,⟨?_,hall,hleft.ticks⟩,⟨hok',?_,?_,hleft.amount,hleft.ticks⟩⟩
    · rw [hspans,hb]
      rfl
    · dsimp only
      rw [hafter]
      exact cut_tidy n hleft.tidy
    · dsimp only
      rw [hafter]
      exact hrest

end Cursors

section Starts

variable {V ι : Type} {q : QueryShape Component} {w : World V} {walker : ParWalker}

/-- The chunks after a position of a walker. -/
def ParWalker.spansFrom (walker : ParWalker) (w : World V) (archPos archId chunkIdx : ℕ) :
    List (Span (ℕ×ℕ)) :=
  World.archSpans w archId chunkIdx++World.archesSpans w (walker.archIndices.drop (archPos+1))

/-- What a job that starts at a position has before it. -/
inductive StartsAt (walker : ParWalker) (w : World V) : Option RowPos → List (Span (ℕ×ℕ)) → Prop
  | finished : StartsAt walker w none []
  | before {pos : RowPos} {archId : ℕ} : walker.archIndices[pos.archPos]?=some archId →
    pos.chunkIdx<(World.chunks w archId).length →
    StartsAt walker w (some pos) (⟨(archId,pos.chunkIdx),pos.row,World.chunkLen w archId pos.chunkIdx⟩::
      walker.spansFrom w pos.archPos archId (pos.chunkIdx+1))

/-- A walk that finds no start is over. -/
theorem StartsAt.of_none {spans : List (Span (ℕ×ℕ))} (h : StartsAt walker w none spans) : spans=[] := by
  cases h
  rfl

/-- A start has rows ahead. -/
theorem StartsAt.of_some {pos : RowPos} {spans : List (Span (ℕ×ℕ))}
    (h : StartsAt walker w (some pos) spans) : spans≠[] := by
  cases h
  exact List.cons_ne_nil _ _

/-- The archetypes a walker goes through are all there. -/
def WalkerOk (w : World V) (walker : ParWalker) : Prop :=
  ∀ i∈walker.archIndices,(w.archetypes.valueAt i).isSome=true

/-- The chunks of some archetypes, from a chunk of the first on. -/
def World.spansAfter (w : World V) : List ℕ → ℕ → List (Span (ℕ×ℕ))
  | [],_ => []
  | i::rest,chunkIdx => World.archSpans w i chunkIdx++World.archesSpans w rest

/-- From the first chunk on, all spans are to come. -/
theorem spansAfter_zero (w : World V) (indices : List ℕ) :
    World.spansAfter w indices 0=World.archesSpans w indices := by
  cases indices <;> rfl

/-- The search for a start finds the first chunk with rows. -/
theorem nextNonEmptyFrom_spec (h : WalkerOk w walker) (indices : List ℕ) (archPos chunkIdx : ℕ)
    (hdrop : walker.archIndices.drop archPos=indices) : ∃ found,
      nextNonEmptyFrom w indices archPos chunkIdx=.ok found ∧
      StartsAt walker w found (World.spansAfter w indices chunkIdx) ∧
      ∀ pos,found=some pos → pos.row=0 := by
  induction indices generalizing archPos chunkIdx with
  | nil => exact ⟨none,rfl,.finished,nofun⟩
  | cons i rest ih =>
    have hget : walker.archIndices[archPos]?=some i := by
      have hhead := congrArg List.head? hdrop
      rw [List.head?_drop] at hhead
      exact hhead
    have htail : walker.archIndices.drop (archPos+1)=rest := by
      have htail := congrArg List.tail hdrop
      rw [List.tail_drop] at htail
      exact htail
    obtain ⟨spec,hspec⟩ := Option.isSome_iff_exists.mp (h i (List.mem_of_getElem? hget))
    have hfirst := firstChunk_spec w i chunkIdx
    rw [nextNonEmptyFrom,hspec,World.spansAfter]
    dsimp only
    cases hk : firstChunk w i chunkIdx with
    | none =>
      rw [hk] at hfirst
      dsimp only at hfirst
      rw [hfirst,List.nil_append,←spansAfter_zero]
      exact ih (archPos+1) 0 htail
    | some k =>
      rw [hk] at hfirst
      refine ⟨some ⟨archPos,k,0⟩,rfl,?_,fun pos hp => ?_⟩
      · rw [hfirst.2,←htail]
        exact .before hget hfirst.1
      · cases hp
        rfl

/-- `next_non_empty` finds the first of the chunks from a position on. -/
theorem nextNonEmpty_spec (h : WalkerOk w walker) {archPos archId : ℕ} (chunkIdx : ℕ)
    (hget : walker.archIndices[archPos]?=some archId) : ∃ found,
      walker.nextNonEmpty w archPos chunkIdx=.ok found ∧
      StartsAt walker w found (walker.spansFrom w archPos archId chunkIdx) ∧
      ∀ pos,found=some pos → pos.row=0 := by
  obtain ⟨hlt,hat⟩ := List.getElem?_eq_some_iff.mp hget
  have hdrop : walker.archIndices.drop archPos=archId::walker.archIndices.drop (archPos+1) := by
    rw [List.drop_eq_getElem_cons hlt,hat]
  unfold ParWalker.nextNonEmpty
  rw [hdrop]
  exact nextNonEmptyFrom_spec h _ archPos chunkIdx hdrop

/-- The first start has every chunk before it. -/
theorem firstStart_spec (h : WalkerOk w walker) : ∃ found,walker.nextNonEmpty w 0 0=.ok found ∧
    StartsAt walker w found (World.archesSpans w walker.archIndices) ∧
    ∀ pos,found=some pos → pos.row=0 := by
  rw [←spansAfter_zero]
  exact nextNonEmptyFrom_spec h _ 0 0 rfl

theorem chunkOf_spec (h : WalkerOk w walker) {pos : RowPos} {archId : ℕ}
    (hget : walker.archIndices[pos.archPos]?=some archId)
    (hlt : pos.chunkIdx<(World.chunks w archId).length) :
    walker.chunkOf w pos=.ok (archId,World.chunkLen w archId pos.chunkIdx) := by
  obtain ⟨spec,hspec⟩ := Option.isSome_iff_exists.mp (h archId (List.mem_of_getElem? hget))
  have hchunk := List.getElem?_eq_getElem hlt
  have harch : walker.archAt w pos.archPos=.ok archId := by
    unfold ParWalker.archAt
    rw [hget]
    dsimp only
    rw [hspec]
  have hlen : lenAt w archId pos.chunkIdx=.ok (World.chunkLen w archId pos.chunkIdx) := by
    unfold lenAt World.chunkLen
    rw [hchunk]
    rfl
  unfold ParWalker.chunkOf
  rw [harch]
  change (lenAt w archId pos.chunkIdx >>= fun len => pure (archId,len))=_
  rw [hlen]
  rfl

/-- The piece of a chunk that a span stands for. -/
def pieceOf (s : Span (ℕ×ℕ)) : Piece := ⟨s.key.1,s.key.2,s.start,s.stop⟩

/-- `cut_batch` visits the batch that `cut` takes, and returns where the next one starts. -/
theorem cutBatch_spec (h : WalkerOk w walker) (visit : Piece → Except Fault (List ι))
    (out : Span (ℕ×ℕ) → List ι)
    (hvisit : ∀ s : Span (ℕ×ℕ),s.key.1∈walker.archIndices → visit (pieceOf s)=.ok (out s))
    {passes room : ℕ} {pos : RowPos} {spans : List (Span (ℕ×ℕ))} {visited : List ι}
    (hat : StartsAt walker w (some pos) spans) (hroom : room ≤ passes)
    (htidy : Tidy minBatchAmount spans) : ∃ next,
      walker.cutBatch w visit passes room pos visited=
        .ok (visited++(cut minBatchAmount room spans).1.flatMap out,next) ∧
      StartsAt walker w next (cut minBatchAmount room spans).2 := by
  induction passes generalizing room pos spans visited with
  | zero =>
    have h0 : room=0 := by omega
    rw [h0,cut_zero,List.flatMap_nil,List.append_nil]
    exact ⟨some pos,rfl,hat⟩
  | succ passes ih =>
    rw [ParWalker.cutBatch]
    by_cases h0 : room=0
    · rw [if_pos h0,h0,cut_zero,List.flatMap_nil,List.append_nil]
      exact ⟨some pos,rfl,hat⟩
    · cases hat with
      | @before _ archId hget hlt =>
        have hlen : pos.row<World.chunkLen w archId pos.chunkIdx := htidy.nonempty _ List.mem_cons_self
        have hgrid : minBatchAmount∣pos.row := htidy.onGrid _ List.mem_cons_self
        rw [if_neg h0,chunkOf_spec h hget hlt]
        dsimp only
        by_cases hfits : World.chunkLen w archId pos.chunkIdx ≤ pos.row+room
        · have hne : ¬World.chunkLen w archId pos.chunkIdx=pos.row := by omega
          have hnot : ¬World.chunkLen w archId pos.chunkIdx<World.chunkLen w archId pos.chunkIdx :=
            Nat.lt_irrefl _
          obtain ⟨found,hfound,hat',-⟩ := nextNonEmpty_spec h (pos.chunkIdx+1) hget
          have hv := hvisit ⟨(archId,pos.chunkIdx),pos.row,World.chunkLen w archId pos.chunkIdx⟩
            (List.mem_of_getElem? hget)
          unfold pieceOf at hv
          rw [splitRow_fits hfits,if_neg hne,hv,cut_fits h0 hfits]
          dsimp only
          rw [if_neg hnot,hfound,List.flatMap_cons,←List.append_assoc]
          cases found with
          | none =>
            have hnil := hat'.of_none
            rw [hnil] at hat'
            rw [hnil,cut,List.flatMap_nil,List.append_nil]
            exact ⟨none,rfl,hat'⟩
          | some pos' =>
            exact ih hat' (by omega) htidy.tail
        · rw [splitRow_cuts hfits]
          by_cases hsplit : (pos.row+room)/minBatchAmount*minBatchAmount=pos.row
          · rw [if_pos hsplit,cut_stays hfits hsplit,List.flatMap_nil,List.append_nil]
            exact ⟨some pos,rfl,.before hget hlt⟩
          · have hbetween : pos.row<(pos.row+room)/minBatchAmount*minBatchAmount ∧
                (pos.row+room)/minBatchAmount*minBatchAmount<World.chunkLen w archId pos.chunkIdx ∧ _ :=
              cut_between (htidy.onGrid _ List.mem_cons_self) hfits hsplit
            obtain ⟨-,hhi,-⟩ := hbetween
            have hv := hvisit ⟨(archId,pos.chunkIdx),pos.row,(pos.row+room)/minBatchAmount*minBatchAmount⟩
              (List.mem_of_getElem? hget)
            unfold pieceOf at hv
            rw [if_neg hsplit,hv,cut_inside h0 hfits hsplit]
            dsimp only
            rw [if_pos hhi,List.flatMap_cons,List.flatMap_nil,List.append_nil]
            exact ⟨_,rfl,.before hget hlt⟩

/-- A start of a chunk. -/
def ChunkStart (walker : ParWalker) (w : World V) (s : Span (ℕ×ℕ)) (pos : RowPos) : Prop :=
  ∃ rest,StartsAt walker w (some pos) (s::rest) ∧ pos.row=0

/-- `chunk_starts` hands out where each chunk starts. -/
theorem chunkStarts_exhaust (h : WalkerOk w walker) {found : Option RowPos} {spans : List (Span (ℕ×ℕ))}
    (hat : StartsAt walker w found spans) (hrow : ∀ pos,found=some pos → pos.row=0) : ∃ starts,
      Exhausts (walker.chunkStarts w) found starts ∧ List.Forall₂ (ChunkStart walker w) spans starts := by
  refine exhausts_of_left (fun found spans => StartsAt walker w found spans ∧
    ∀ pos,found=some pos → pos.row=0) (fun found hleft => ?_) (fun found s rest hleft => ?_) ⟨hat,hrow⟩
  · cases found with
    | none => exact ⟨none,rfl⟩
    | some pos => exact (hleft.1.of_some rfl).elim
  · obtain ⟨hat,hrow⟩ := hleft
    have hstart := hat
    cases hat with
    | before hget hlt =>
      obtain ⟨next,hnext,hat',hrow'⟩ := nextNonEmpty_spec h _ hget
      refine ⟨_,next,?_,⟨_,hstart,hrow _ rfl⟩,hat',hrow'⟩
      unfold ParWalker.chunkStarts successors
      dsimp only
      rw [hnext]

/-- A start of a batch. -/
def BatchStart (walker : ParWalker) (w : World V) (n : ℕ) (b : List (Span (ℕ×ℕ))) (pos : RowPos) : Prop :=
  ∃ spans,StartsAt walker w (some pos) spans ∧ Tidy minBatchAmount spans ∧ b=(cut minBatchAmount n spans).1

/-- `batch_starts` hands out where each batch starts. -/
theorem batchStarts_exhaust (h : WalkerOk w walker) {n : ℕ} {found : Option RowPos}
    {spans : List (Span (ℕ×ℕ))} {batches : List (List (Span (ℕ×ℕ)))} (hat : StartsAt walker w found spans)
    (htidy : Tidy minBatchAmount spans) (hb : Batches minBatchAmount n spans batches) : ∃ starts,
      Exhausts (walker.batchStarts w n) found starts ∧
      List.Forall₂ (BatchStart walker w n) batches starts := by
  refine exhausts_of_left (fun found batches => ∃ spans,StartsAt walker w found spans ∧
    Tidy minBatchAmount spans ∧ Batches minBatchAmount n spans batches)
    (fun found hleft => ?_) (fun found b rest hleft => ?_) ⟨spans,hat,htidy,hb⟩
  · obtain ⟨spans,hat,-,hb⟩ := hleft
    cases found with
    | none => exact ⟨none,rfl⟩
    | some pos =>
      cases hb with
      | nil => exact (hat.of_some rfl).elim
  · obtain ⟨spans,hat,htidy,hb⟩ := hleft
    cases found with
    | none => exact (hb.ne_nil hat.of_none).elim
    | some pos =>
      obtain ⟨hhead,hrest⟩ := hb.head
      obtain ⟨next,hcut,hat'⟩ := cutBatch_spec h (fun _ => .ok ([] : List Unit)) (fun _ => [])
        (fun _ _ => rfl) hat (Nat.le_refl n) htidy
      refine ⟨pos,next,?_,⟨spans,hat,htidy,hhead⟩,_,hat',cut_tidy n htidy,hrest⟩
      unfold ParWalker.batchStarts successors
      dsimp only
      rw [hcut]
      rfl

end Starts

section Items

variable {V : Type} {q : QueryShape Component} {w : World V} {ticks : QueryTicks}

/-- The item of a place, where the row passes the filters. -/
def itemAt (q : QueryShape Component) (w : World V) (ticks : QueryTicks) (l : RowLoc) : Option QueryItem :=
  match enterArch q w l.archId with
  | .ok entered =>
    if Fetch.accepts w ticks ⟨l.archId,l.indices.chunkIdx,entered.2⟩ l.indices.idxInChunk then
      some ⟨l,ticks,entered.2⟩
    else none
  | .error _ => none

/-- The items of some places. -/
def itemsAt (q : QueryShape Component) (w : World V) (ticks : QueryTicks) (ls : List RowLoc) :
    List QueryItem := ls.filterMap (itemAt q w ticks)

theorem itemsAt_append (a b : List RowLoc) :
    itemsAt q w ticks (a++b)=itemsAt q w ticks a++itemsAt q w ticks b := List.filterMap_append

theorem itemAt_isSome (q : QueryShape Component) (w : World V) (ticks : QueryTicks) (l : RowLoc) : (itemAt q w ticks l).isSome=acceptsAt q w ticks l := by
  unfold itemAt acceptsAt
  cases enterArch q w l.archId with
  | error e => rfl
  | ok a =>
    dsimp only
    split
    · rename_i ha
      rw [ha]
      rfl
    · rename_i ha
      rw [Bool.eq_false_of_not_eq_true ha]
      rfl

theorem itemAt_loc {l : RowLoc} {item : QueryItem} (h : itemAt q w ticks l=some item) : item.loc=l := by
  unfold itemAt at h
  cases he : enterArch q w l.archId with
  | error e =>
    rw [he] at h
    cases h
  | ok a =>
    rw [he] at h
    dsimp only at h
    split at h
    · cases h
      rfl
    · cases h

/-- The items are at the places that the filters accept. -/
theorem itemsAt_loc (ls : List RowLoc) :
    (itemsAt q w ticks ls).map QueryItem.loc=ls.filter (acceptsAt q w ticks) := by
  induction ls with
  | nil => rfl
  | cons l ls ih =>
    unfold itemsAt at ih ⊢
    have hsome := itemAt_isSome q w ticks l
    cases hl : itemAt q w ticks l with
    | none =>
      rw [hl] at hsome
      rw [List.filterMap_cons_none hl,List.filter_cons,←hsome,ih]
      rfl
    | some item =>
      rw [hl] at hsome
      rw [List.filterMap_cons_some hl,List.map_cons,List.filter_cons,←hsome,ih,itemAt_loc hl]
      rfl

theorem itemAt_range {range : RowRange} (h : RangeOk q w range) (ticks : QueryTicks) (row : ℕ) :
    itemAt q w ticks ⟨range.fetch.archId,⟨range.fetch.chunkIdx,row⟩⟩=
      if Fetch.accepts w ticks range.fetch row then some (range.item ticks row) else none := by
  unfold itemAt
  rw [h]
  rfl

/-- What a chunk hands out are the items of its rows. -/
theorem chunkIter_items {range : RowRange} (h : RangeOk q w range) (ticks : QueryTicks) :
    ChunkIter.items w ⟨range,ticks⟩=itemsAt q w ticks (places [range.span]) := by
  have hplaces : places [range.span]=
      rowPlaces range.fetch.archId range.fetch.chunkIdx range.start (range.endRow-range.start) := by
    rw [places,rows,List.flatMap_singleton,Span.rows,List.map_map]
    rfl
  rw [hplaces]
  unfold ChunkIter.items itemsAt rowPlaces
  rw [List.filterMap_map]
  dsimp only
  induction List.range' range.start (range.endRow-range.start) with
  | nil => rfl
  | cons row rows ih =>
    have hrow := itemAt_range h ticks row
    rw [List.filterMap_cons,←ih,List.filter_cons]
    dsimp only [Function.comp]
    rw [hrow]
    cases Fetch.accepts w ticks range.fetch row <;> rfl

/-- `next` hands out the first of the items. -/
theorem chunkIter_next (w : World V) (it : ChunkIter) :
    TakesFirst (ChunkIter.items w) it (ChunkIter.next w it) := by
  unfold ChunkIter.next
  cases hk : (List.range' it.range.start (it.range.endRow-it.range.start)).find?
      (Fetch.accepts w it.ticks it.range.fetch) with
  | none =>
    dsimp only [TakesFirst]
    rw [ChunkIter.items,List.filter_eq_nil_iff.mpr (List.find?_eq_none.mp hk),List.map_nil]
  | some row =>
    obtain ⟨hp,hbefore,hle,hlt,happ⟩ := find?_range' hk
    have hend : it.range.start+(it.range.endRow-it.range.start)-(row+1)=it.range.endRow-(row+1) := by omega
    have hnil : (List.range' it.range.start (row-it.range.start)).filter
        (Fetch.accepts w it.ticks it.range.fetch)=[] :=
      List.filter_eq_nil_iff.mpr fun j hj => Bool.eq_false_iff.mp (hbefore j hj)
    dsimp only [TakesFirst]
    rw [ChunkIter.items,happ,hend,List.filter_append,hnil,List.nil_append,List.filter_cons,if_pos hp,List.map_cons]
    rfl

/-- A chunk's iterator hands out its items and ends. -/
theorem chunkIter_exhausts (w : World V) (it : ChunkIter) :
    Exhausts (fun it => (.ok (ChunkIter.next w it) : Except Fault _)) it (ChunkIter.items w it) :=
  exhausts_of_next (ChunkIter.items w) (chunkIter_next w) it

/-- What a batch hands out until it is exhausted. -/
def BatchIter.items (w : World V) (it : BatchIter) : List QueryItem :=
  (match it.rows with
    | none => []
    | some rows => ChunkIter.items w rows)++it.ranges.flatMap fun r => ChunkIter.items w ⟨r,it.ticks⟩

theorem batchIter_nextFrom (w : World V) (ticks : QueryTicks) (ranges : List RowRange)
    (rows : Option ChunkIter) :
    TakesFirst (BatchIter.items w) ⟨ranges,rows,ticks⟩ (BatchIter.nextFrom w ticks ranges rows) := by
  induction ranges generalizing rows with
  | nil =>
    cases rows with
    | none => rfl
    | some rows =>
      have hnext := chunkIter_next w rows
      rw [BatchIter.nextFrom]
      cases hn : ChunkIter.next w rows with
      | mk found rows' =>
        rw [hn] at hnext
        cases found with
        | none =>
          dsimp only [TakesFirst,BatchIter.items] at hnext ⊢
          rw [hnext]
          rfl
        | some item =>
          dsimp only [TakesFirst,BatchIter.items] at hnext ⊢
          rw [hnext]
          rfl
  | cons range rest ih =>
    cases rows with
    | none =>
      rw [BatchIter.nextFrom]
      exact ih (some ⟨range,ticks⟩)
    | some rows =>
      have hnext := chunkIter_next w rows
      rw [BatchIter.nextFrom]
      cases hn : ChunkIter.next w rows with
      | mk found rows' =>
        rw [hn] at hnext
        cases found with
        | none =>
          have hskip : BatchIter.items w ⟨range::rest,some rows,ticks⟩=
              BatchIter.items w ⟨rest,some ⟨range,ticks⟩,ticks⟩ := by
            dsimp only [TakesFirst,BatchIter.items] at hnext ⊢
            rw [hnext]
            rfl
          have hrest := ih (some ⟨range,ticks⟩)
          cases hr : BatchIter.nextFrom w ticks rest (some ⟨range,ticks⟩) with
          | mk found it' =>
            rw [hr] at hrest
            cases found with
            | none => exact hskip.trans hrest
            | some item => exact hskip.trans hrest
        | some item =>
          dsimp only [TakesFirst,BatchIter.items] at hnext ⊢
          rw [hnext]
          rfl

/-- A batch's iterator hands out its items and ends. -/
theorem batchIter_exhausts (w : World V) (it : BatchIter) :
    Exhausts (fun it => (.ok (BatchIter.next w it) : Except Fault _)) it (BatchIter.items w it) :=
  exhausts_of_next (BatchIter.items w)
    (fun it => batchIter_nextFrom w it.ticks it.ranges it.rows) it

/-- A walk whose archetypes have what the shape needs does not fail. -/
theorem next_ok {it : QueryIter} (h : CursorOk q w it.cursor) : ∃ found it',
    QueryIter.next q w it=.ok (found,it') ∧ CursorOk q w it'.cursor := by
  fun_induction QueryIter.next q w it with
  | case1 it item it' hs =>
    refine ⟨some item,it',rfl,?_⟩
    unfold QueryIter.scanRows at hs
    cases hf : it.fetch with
    | none =>
      rw [hf] at hs
      cases hs
    | some fetch =>
      rw [hf] at hs
      obtain ⟨row,-,he⟩ := Option.map_eq_some_iff.mp hs
      cases he
      exact h
  | case2 it hs e hn =>
    obtain ⟨found,cursor,hn',-⟩ := nextChunk_left h
    cases hn.symm.trans hn'
  | case3 it hs cursor hn =>
    obtain ⟨found,cursor',hn',hok,-⟩ := nextChunk_left h
    cases hn.symm.trans hn'
    exact ⟨none,_,rfl,hok⟩
  | case4 it hs fetch cursor hn ih =>
    obtain ⟨found,cursor',hn',hok,-⟩ := nextChunk_left h
    cases hn.symm.trans hn'
    exact ih hok

theorem itemsAt_skipped {ls : List RowLoc} (h : ∀ l∈ls,acceptsAt q w ticks l=false) :
    itemsAt q w ticks ls=[] := by
  refine List.filterMap_eq_nil_iff.mpr fun l hl => ?_
  have hsome := itemAt_isSome q w ticks l
  rw [h l hl] at hsome
  exact Option.not_isSome_iff_eq_none.mp (Bool.eq_false_iff.mp hsome)

theorem itemAt_yields {it it' : QueryIter} {item : QueryItem} (h : Yields q w it item it') :
    itemAt q w it.ticks item.loc=some item := by
  have hacc := h.accepted
  unfold acceptsAt at hacc
  unfold itemAt
  rw [h.state] at hacc ⊢
  dsimp only at hacc ⊢
  rw [if_pos hacc,←h.ticks]

/-- `iter` hands out the items of the rows to come and ends. -/
theorem queryIter_exhausts {it : QueryIter} (hres : QueryIter.Resolved q w it)
    (hok : CursorOk q w it.cursor) :
    Exhausts (QueryIter.next q w) it (itemsAt q w it.ticks (QueryIter.upcoming w it)) := by
  have hstep : ∀ it : QueryIter,QueryIter.Resolved q w it → CursorOk q w it.cursor → ∃ found it',
      QueryIter.next q w it=.ok (found,it') ∧ QueryIter.Resolved q w it' ∧ CursorOk q w it'.cursor ∧
      TakesFirst (fun it => itemsAt q w it.ticks (QueryIter.upcoming w it)) it (found,it') := by
    intro it hres hok
    obtain ⟨found,it',hn,hok'⟩ := next_ok hok
    have hspec := next_spec hres
    rw [hn] at hspec
    refine ⟨found,it',hn,?_⟩
    cases found with
    | none =>
      obtain ⟨hall,-,hres',-⟩ := hspec
      exact ⟨hres',hok',itemsAt_skipped hall⟩
    | some item =>
      obtain ⟨hyields,hres',hticks⟩ := hspec
      obtain ⟨skipped,happ,hskipped⟩ := hyields.passed
      refine ⟨hres',hok',?_⟩
      dsimp only [TakesFirst]
      rw [happ,itemsAt_append,itemsAt_skipped hskipped,List.nil_append,hticks,itemsAt,
        List.filterMap_cons_some (itemAt_yields hyields)]
      rfl
  refine exhausts_of_items (fun it xs => QueryIter.Resolved q w it ∧ CursorOk q w it.cursor ∧
    itemsAt q w it.ticks (QueryIter.upcoming w it)=xs)
    (fun it h => ?_) (fun it x xs h => ?_) ⟨hres,hok,rfl⟩
  · obtain ⟨found,it',hn,-,-,htakes⟩ := hstep it h.1 h.2.1
    cases found with
    | none => exact ⟨it',hn⟩
    | some item => cases h.2.2.symm.trans htakes
  · obtain ⟨found,it',hn,hres',hok',htakes⟩ := hstep it h.1 h.2.1
    cases found with
    | none => cases h.2.2.symm.trans htakes
    | some item =>
      cases h.2.2.symm.trans htakes
      exact ⟨it',hn,hres',hok',rfl⟩

end Items

section Agreement

variable {V : Type} {q : QueryShape Component} {w : World V} {ticks : QueryTicks}

/-- The rows of a chunk. -/
def QueryChunk.places (chunk : QueryChunk) : List RowLoc := BatchWalks.places [chunk.range.span]

/-- The rows of a batch. -/
def QueryBatch.places (batch : QueryBatch) : List RowLoc :=
  BatchWalks.places (batch.ranges.map RowRange.span)

/-- The rows of a piece of a chunk. -/
def Piece.places (piece : Piece) : List RowLoc :=
  BatchWalks.places [⟨(piece.archId,piece.chunkIdx),piece.row,piece.endRow⟩]

/-- The walks of a query, each run to its end. -/
structure Walks where
  /-- The rows in the order all walks pass them. -/
  rows : List RowLoc
  /-- What `iter` hands out. -/
  items : List QueryItem
  /-- What `iter_chunk` hands out. -/
  chunks : List QueryChunk
  /-- What `iter_batch` hands out. -/
  batches : List QueryBatch
  /-- Where the jobs of `par_for_each_chunk` start. -/
  chunkStarts : List RowPos
  /-- Where the jobs of `par_for_each_batch` start. -/
  batchStarts : List RowPos

/-- All walks of a query go through the same rows, in the same order, and both
ways of batching cut at the same borders. -/
structure WalksAgree (q : QueryShape Component) (accessor : QuerySpecAccessor) (w : World V)
    (batchAmount : ℕ) (x : Walks) : Prop where
  /-- The rows are those in use in the matched archetypes, each once. -/
  rows_once : x.rows.Nodup ∧ ∀ l,l∈x.rows ↔ q.excludeOnly=false ∧
    l.archId∈(accessor.archIndices w).getD [] ∧ (World.row w l).isSome=true
  /-- The items are those of `iter`, run to its end. -/
  iter : Exhausts (QueryIter.next q w) (QueryIter.new q accessor w) x.items
  /-- They are the rows that pass the filters, in order. -/
  iter_rows : x.items.map QueryItem.loc=x.rows.filter (acceptsAt q w accessor.ticks)
  /-- The chunks are those of `iter_chunk`, run to its end. -/
  chunks : Exhausts (QueryChunks.next q w) (QueryChunks.new q accessor w) x.chunks
  /-- The chunks hold all rows, in order. -/
  chunk_rows : x.chunks.flatMap QueryChunk.places=x.rows
  /-- Walked one by one, the chunks hand out the items of `iter`. -/
  chunk_items : ∃ parts,List.Forall₂ (fun (chunk : QueryChunk) items =>
    Exhausts (fun it => (.ok (ChunkIter.next w it) : Except Fault _)) chunk.iter items) x.chunks parts ∧
      parts.flatten=x.items
  /-- The batches are those of `iter_batch`, run to its end. -/
  batches : ∃ it,QueryBatches.new q accessor batchAmount w=.ok it ∧
    Exhausts (QueryBatches.next q w) it x.batches
  /-- The batches hold all rows, in order. -/
  batch_rows : x.batches.flatMap QueryBatch.places=x.rows
  /-- Walked one by one, the batches hand out the items of `iter`. -/
  batch_items : ∃ parts,List.Forall₂ (fun (batch : QueryBatch) items =>
    Exhausts (fun it => (.ok (BatchIter.next w it) : Except Fault _)) batch.iter items) x.batches parts ∧
      parts.flatten=x.items
  /-- The starts are those that `par_for_each_chunk` steps through. -/
  chunkStarts : ∃ first,(ParWalker.new q accessor w).nextNonEmpty w 0 0=.ok first ∧
    Exhausts ((ParWalker.new q accessor w).chunkStarts w) first x.chunkStarts
  /-- The jobs of the chunks hand out the items of `iter`. -/
  walkChunk : ∃ parts,List.Forall₂ (fun start items =>
    (ParWalker.new q accessor w).walkChunk q w start=.ok items) x.chunkStarts parts ∧
      parts.flatten=x.items
  /-- The starts are those that `par_for_each_batch` steps through. -/
  batchStarts : ∃ first,(ParWalker.new q accessor w).firstBatch w batchAmount=.ok first ∧
    Exhausts ((ParWalker.new q accessor w).batchStarts w batchAmount) first x.batchStarts
  /-- The jobs of the batches hand out the items of `iter`. -/
  walkBatch : ∃ parts,List.Forall₂ (fun start items =>
    (ParWalker.new q accessor w).walkBatch q w start batchAmount=.ok items) x.batchStarts parts ∧
      parts.flatten=x.items
  /-- Batch number `k` covers the rows that a job from start number `k` visits. -/
  same_batches : List.Forall₂ (fun (batch : QueryBatch) start => ∃ next,
    (ParWalker.new q accessor w).cutBatch w (fun piece => .ok piece.places) batchAmount batchAmount start []=
      .ok (batch.places,next)) x.batches x.batchStarts
  /-- No batch is empty or over the amount. -/
  batch_len : ∀ batch∈x.batches,0<batch.len ∧ batch.len ≤ batchAmount
  /-- Only the last batch may fall short by more than a byte of rows. -/
  batch_full : ∀ batch∈x.batches.dropLast,batchAmount<batch.len+minBatchAmount
  /-- No two batches have rows whose enable bits share a byte. -/
  batch_apart : x.batches.Pairwise fun a b => ∀ l∈a.places,∀ l'∈b.places,l.archId=l'.archId →
    l.indices.chunkIdx=l'.indices.chunkIdx →
      l.indices.idxInChunk/minBatchAmount≠l'.indices.idxInChunk/minBatchAmount

theorem len_eq (spans : List (Span (ℕ×ℕ))) : (rows spans).length=(spans.map Span.size).sum := by
  unfold rows
  rw [List.length_flatMap]
  simp only [Span.length_rows]

theorem batch_len_eq (batch : QueryBatch) : batch.len=(rows (batch.ranges.map RowRange.span)).length := by
  rw [len_eq,List.map_map]
  rfl

/-- Items are listed span by span. -/
theorem itemsAt_flatMap (spans : List (Span (ℕ×ℕ))) :
    itemsAt q w ticks (places spans)=spans.flatMap fun s => itemsAt q w ticks (places [s]) := by
  induction spans with
  | nil => rfl
  | cons s rest ih =>
    rw [List.flatMap_cons,←ih,←itemsAt_append,←places_append]
    rfl

/-- What a batch hands out are the items of its rows. -/
theorem batchIter_items {batch : QueryBatch} (h : ∀ r∈batch.ranges,RangeOk q w r) :
    BatchIter.items w batch.iter=itemsAt q w batch.ticks batch.places := by
  unfold QueryBatch.places
  rw [itemsAt_flatMap,List.flatMap_map]
  exact List.flatMap_congr fun r hr => chunkIter_items (h r hr) batch.ticks

/-- What a job hands out for a piece are the items of its rows. -/
theorem walkRows_items {walker : ParWalker} (h : ∀ i∈walker.archIndices,∃ a,enterArch q w i=.ok a)
    (s : Span (ℕ×ℕ)) (hs : s.key.1∈walker.archIndices) :
    walker.walkRows q w (pieceOf s)=.ok (itemsAt q w walker.ticks (places [s])) := by
  obtain ⟨a,ha⟩ := h _ hs
  have hidx : a.1=s.key.1 := enterArch_fst ha
  have hok : RangeOk q w ⟨⟨s.key.1,s.key.2,a.2⟩,s.start,s.stop⟩ := by
    unfold RangeOk
    dsimp only
    rw [ha,←hidx]
  have hitems := chunkIter_items hok walker.ticks
  unfold ParWalker.walkRows pieceOf
  dsimp only
  rw [ha]
  exact congrArg Except.ok hitems

variable {walker : ParWalker}

/-- `walk_chunk` hands out the items of the chunk of its start. -/
theorem walkChunk_items (h : ∀ i∈walker.archIndices,∃ a,enterArch q w i=.ok a) (hok : WalkerOk w walker)
    {s : Span (ℕ×ℕ)} {pos : RowPos} (hstart : ChunkStart walker w s pos) :
    walker.walkChunk q w pos=.ok (itemsAt q w walker.ticks (places [s])) := by
  obtain ⟨rest,hat,hrow⟩ := hstart
  cases hat with
  | @before _ archId hget hlt =>
    have hitems := walkRows_items h ⟨(archId,pos.chunkIdx),pos.row,World.chunkLen w archId pos.chunkIdx⟩
      (List.mem_of_getElem? hget)
    unfold ParWalker.walkChunk
    rw [chunkOf_spec hok hget hlt]
    rw [hrow] at hitems ⊢
    exact hitems

/-- `walk_batch` hands out the items of the batch of its start. -/
theorem walkBatch_items (h : ∀ i∈walker.archIndices,∃ a,enterArch q w i=.ok a) (hok : WalkerOk w walker)
    {n : ℕ} {b : List (Span (ℕ×ℕ))} {pos : RowPos} (hstart : BatchStart walker w n b pos) :
    walker.walkBatch q w pos n=.ok (itemsAt q w walker.ticks (places b)) := by
  obtain ⟨spans,hat,htidy,rfl⟩ := hstart
  obtain ⟨next,hcut,-⟩ := cutBatch_spec hok (walker.walkRows q w) _ (walkRows_items h) hat
    (Nat.le_refl n) htidy
  unfold ParWalker.walkBatch
  rw [hcut,itemsAt_flatMap]
  rfl

/-- The rows of a batch, as its job visits them. -/
theorem cutBatch_places (hok : WalkerOk w walker) {n : ℕ} {b : List (Span (ℕ×ℕ))} {pos : RowPos}
    (hstart : BatchStart walker w n b pos) : ∃ next,
      walker.cutBatch w (fun piece => .ok piece.places) n n pos []=.ok (places b,next) := by
  obtain ⟨spans,hat,htidy,rfl⟩ := hstart
  obtain ⟨next,hcut,-⟩ := cutBatch_spec hok (fun piece => .ok piece.places) (fun s => places [s])
    (fun _ _ => rfl) hat (Nat.le_refl n) htidy
  refine ⟨next,?_⟩
  rw [hcut,List.nil_append]
  refine congrArg (fun l => (.ok (l,next) : Except Fault (List RowLoc×Option RowPos))) ?_
  induction (cut minBatchAmount n spans).1 with
  | nil => rfl
  | cons s rest ih =>
    rw [List.flatMap_cons,ih,←places_append]
    rfl

/-- The items of batches, one after the other. -/
theorem itemsAt_batches (batches : List (List (Span (ℕ×ℕ)))) :
    (batches.map fun b => itemsAt q w ticks (places b)).flatten=
      itemsAt q w ticks ((batches.flatMap rows).map place) := by
  induction batches with
  | nil => rfl
  | cons b rest ih =>
    rw [List.map_cons,List.flatten_cons,ih,List.flatMap_cons,List.map_append,itemsAt_append]
    rfl

/-- The matched archetypes that a walk goes through. -/
def matched (q : QueryShape Component) (accessor : QuerySpecAccessor) (w : World V) : List ℕ :=
  if q.excludeOnly then [] else (accessor.archIndices w).getD []

/-- The archetypes walked are those matched, unless the query only excludes. -/
theorem mem_matched {accessor : QuerySpecAccessor} {i : ℕ} : i∈matched q accessor w ↔
    q.excludeOnly=false ∧ i∈(accessor.archIndices w).getD [] := by
  unfold matched
  cases q.excludeOnly with
  | true => exact ⟨fun h => (List.not_mem_nil h).elim,fun h => (Bool.noConfusion h.1)⟩
  | false => exact ⟨fun h => ⟨rfl,h⟩,fun h => h.2⟩

/-- None is walked twice. -/
theorem nodup_matched {accessor : QuerySpecAccessor} (h : ((accessor.archIndices w).getD []).Nodup) :
    (matched q accessor w).Nodup := by
  unfold matched
  split
  · exact List.nodup_nil
  · exact h

/-- No row is walked twice. -/
theorem nodup_places {indices : List ℕ} (h : indices.Nodup) : (places (World.archesSpans w indices)).Nodup := by
  rw [places_archesSpans]
  refine List.nodup_flatMap.mpr ⟨fun i _ => nodup_archPlaces i,?_⟩
  refine h.imp fun {a b} hab l ha hb => hab ?_
  exact (mem_archPlaces.mp ha).1.symm.trans (mem_archPlaces.mp hb).1

/-- The rows walked are the rows in use. -/
theorem mem_places {indices : List ℕ} {l : RowLoc} : l∈places (World.archesSpans w indices) ↔
    l.archId∈indices ∧ (World.row w l).isSome=true := by
  rw [places_archesSpans,List.mem_flatMap]
  constructor
  · intro ⟨i,hi,hl⟩
    obtain ⟨hidx,hrow⟩ := mem_archPlaces.mp hl
    exact ⟨hidx ▸ hi,hrow⟩
  · intro ⟨hi,hrow⟩
    exact ⟨_,hi,mem_archPlaces.mpr ⟨rfl,hrow⟩⟩

/-- Chunks hold the rows of their ranges. -/
theorem places_chunks (chunks : List QueryChunk) : chunks.flatMap QueryChunk.places=
    places (chunks.map fun chunk => chunk.range.span) := by
  induction chunks with
  | nil => rfl
  | cons chunk rest ih =>
    rw [List.flatMap_cons,ih,QueryChunk.places,←places_append]
    rfl

/-- Batches hold the rows of their ranges. -/
theorem places_batches (batches : List QueryBatch) : batches.flatMap QueryBatch.places=
    ((batches.map fun batch => batch.ranges.map RowRange.span).flatMap rows).map place := by
  induction batches with
  | nil => rfl
  | cons batch rest ih =>
    rw [List.flatMap_cons,ih,List.map_cons,List.flatMap_cons,List.map_append]
    rfl

/-- All ways of walking a query agree, for any matched archetypes and any
lengths of their chunks. -/
theorem walks_agree (q : QueryShape Component) (accessor : QuerySpecAccessor) (w : World V)
    (batchAmount : ℕ) (hamount : minBatchAmount ≤ batchAmount)
    (hnodup : ((accessor.archIndices w).getD []).Nodup)
    (hres : ∀ i∈(accessor.archIndices w).getD [],∃ a,enterArch q w i=.ok a) :
    ∃ x,WalksAgree q accessor w batchAmount x := by
  have hmatched : ∀ i∈matched q accessor w,∃ a,enterArch q w i=.ok a :=
    fun i hi => hres i (mem_matched.mp hi).2
  have hwalker : WalkerOk w (ParWalker.new q accessor w) := by
    intro i hi
    obtain ⟨a,ha⟩ := hmatched i hi
    cases hv : w.archetypes.valueAt i with
    | none =>
      unfold enterArch at ha
      rw [hv] at ha
      cases ha
    | some spec => rfl
  have hcursor : CursorOk q w (ChunkCursor.new q accessor w) := ⟨nofun,hmatched⟩
  have htidy : Tidy minBatchAmount (World.archesSpans w (matched q accessor w)) :=
    tidy_archesSpans (nodup_matched hnodup)
  obtain ⟨bs,hbs⟩ := exists_batches (by decide : 0 < minBatchAmount) hamount htidy
  obtain ⟨chunks,hchunks,hchunkOf⟩ := chunks_exhaust accessor.ticks hcursor
  have hleft : BatchesLeft q w accessor.ticks batchAmount
      ⟨ChunkCursor.new q accessor w,accessor.ticks,batchAmount,none⟩ bs :=
    ⟨⟨hcursor,nofun⟩,htidy,hbs,rfl,rfl⟩
  obtain ⟨batches,hbatches,hbatchOf⟩ := batches_exhaust hamount hleft
  obtain ⟨first,hfirst,hat,hrow⟩ := firstStart_spec hwalker
  obtain ⟨chunkStarts,hcs,hcsOf⟩ := chunkStarts_exhaust hwalker hat hrow
  obtain ⟨batchStarts,hbss,hbssOf⟩ := batchStarts_exhaust hwalker hat htidy hbs
  have hspans : chunks.map (fun chunk => chunk.range.span)=World.archesSpans w (matched q accessor w) :=
    map_eq_of_forall₂ hchunkOf fun s chunk h => h.span
  have hbatch : batches.map (fun batch => batch.ranges.map RowRange.span)=bs :=
    map_eq_of_forall₂ hbatchOf fun b batch h => h.spans
  have hitems : (bs.map fun b => itemsAt q w accessor.ticks (places b)).flatten=
      itemsAt q w accessor.ticks (places (World.archesSpans w (matched q accessor w))) := by
    rw [itemsAt_batches,hbs.rows htidy]
    rfl
  have hbatch_mem : ∀ batch∈batches,batch.ranges.map RowRange.span∈bs := by
    intro batch hb
    rw [←hbatch]
    exact List.mem_map_of_mem hb
  refine ⟨⟨places (World.archesSpans w (matched q accessor w)),
    itemsAt q w accessor.ticks (places (World.archesSpans w (matched q accessor w))),
    chunks,batches,chunkStarts,batchStarts⟩,{
      rows_once := ⟨nodup_places (nodup_matched hnodup),fun l => ?_⟩
      iter := ?_
      iter_rows := itemsAt_loc _
      chunks := hchunks
      chunk_rows := (places_chunks chunks).trans (congrArg places hspans)
      chunk_items := ⟨_,forall₂_map_of hchunkOf fun s chunk h => ?_,(itemsAt_flatMap _).symm⟩
      batches := ⟨_,if_pos hamount,hbatches⟩
      batch_rows := ?_
      batch_items := ⟨_,forall₂_map_of hbatchOf fun b batch h => ?_,hitems⟩
      chunkStarts := ⟨first,hfirst,hcs⟩
      walkChunk := ⟨_,forall₂_map_of hcsOf fun s pos h => walkChunk_items hmatched hwalker h,
        (itemsAt_flatMap _).symm⟩
      batchStarts := ⟨first,(if_pos hamount).trans hfirst,hbss⟩
      walkBatch := ⟨_,forall₂_map_of hbssOf fun b pos h => walkBatch_items hmatched hwalker h,hitems⟩
      same_batches := forall₂_join hbatchOf hbssOf fun b batch pos hb hpos => ?_
      batch_len := fun batch hb => ?_
      batch_full := fun batch hb => ?_
      batch_apart := ?_ }⟩
  · rw [mem_places,mem_matched,and_assoc]
  · have hrows := queryIter_exhausts (resolved_new q accessor w) hcursor
    rw [upcoming_new,←places_archesSpans] at hrows
    exact hrows
  · have hiter := chunkIter_exhausts w chunk.iter
    have hticks := chunkIter_items h.ok chunk.ticks
    rw [h.span,h.ticks] at hticks
    unfold QueryChunk.iter at hiter ⊢
    rw [h.ticks] at hiter ⊢
    rw [hticks] at hiter
    exact hiter
  · rw [places_batches,hbatch,hbs.rows htidy]
    rfl
  · have hiter := batchIter_exhausts w batch.iter
    rw [batchIter_items h.ok,h.ticks,QueryBatch.places,h.spans] at hiter
    exact hiter
  · obtain ⟨next,hcut⟩ := cutBatch_places hwalker hpos
    refine ⟨next,hcut.trans ?_⟩
    rw [QueryBatch.places,hb.spans]
  · rw [batch_len_eq]
    exact hbs.size (by decide) hamount htidy _ (hbatch_mem batch hb)
  · rw [batch_len_eq]
    refine hbs.full (by decide) htidy _ ?_
    rw [←hbatch,←List.map_dropLast]
    exact List.mem_map_of_mem hb
  · have hapart := hbs.apart (by decide : 0 < minBatchAmount) htidy
    rw [←hbatch,List.pairwise_map] at hapart
    refine hapart.imp fun {a b} hab l hl l' hl' hi hk => ?_
    obtain ⟨p,hp,rfl⟩ := List.mem_map.mp hl
    obtain ⟨p',hp',rfl⟩ := List.mem_map.mp hl'
    exact hab p hp p' hp' (Prod.ext hi hk)

section Samples

open ActionRuns WorldRuns

/-- Rows of two archetypes, and a query that both match. -/
def twoArchetypes : List (Action ℕ) := [
  .world .returning (.create (.single (plain 0) 1)),
  .world .returning (.create (.single (plain 0) 2)),
  .world .returning (.create (.tuple (plain 0,3) [(plain 1,4)])),
  .prepareQuery (.column (.ref (plain 0)))]

/-- The same with rows enough to cut their chunk at a border of two bytes. -/
def longChunk : List (Action ℕ) :=
  List.replicate 20 (.world .returning (.create (.single (plain 0) 1)))++twoArchetypes

set_option maxRecDepth 20000 in
/-- A batch of twelve rows ends after eight, at the border of two bytes. -/
theorem walks_agree_longChunk :
    let w : World ℕ := runAll Action.step longChunk (World.new inOrder)
    (∃ x,WalksAgree (.column (.ref (plain 0))) ⟨0,⟨0,1⟩⟩ w 12 x) ∧ World.chunkLen w 0 0=22 ∧
      World.chunkLen w 1 0=1 ∧ splitRow 0 22 12=8 := by
  intro w
  have hmatched : (QuerySpecAccessor.archIndices ⟨0,⟨0,1⟩⟩ w).getD []=[0,1] := by decide +kernel
  have hall : ∀ i∈[0,1],(enterArch (.column (.ref (plain 0))) w i).toOption.isSome=true := by
    decide +kernel
  refine ⟨walks_agree _ _ _ 12 (by decide) ?_ fun i hi => ?_,by decide +kernel,by decide +kernel,by decide⟩
  · rw [hmatched]
    decide
  · rw [hmatched] at hi
    have hsome := hall i hi
    cases he : enterArch (.column (.ref (plain 0))) w i with
    | ok a => exact ⟨a,rfl⟩
    | error e =>
      rw [he] at hsome
      cases hsome

end Samples

end Agreement

end XynokEcs.BatchWalks
