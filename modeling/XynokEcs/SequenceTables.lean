import XynokEcs.SequenceValueMap
import XynokEcs.PairedRuns

/-!
# The three tables of an append-only map

A hash map from keys to indices, the keys and the values, each grown by its own
step and read through indices that are not checked again. Every run of calls on
the tables answers what the entry list answers, as long as no closure panics that
is called to build a value: the key is registered before its value is built.
-/

namespace XynokEcs.SequenceTables

open SequenceValueMap FaultingState ActionRuns PairedRuns

/-- What a call can panic with. -/
inductive MapPanic
  /-- `values[idx]` past the end. -/
  | indexOutOfBounds (idx len : ℕ)
  /-- The closure that builds a missing value. -/
  | builder (message : String)
deriving DecidableEq

/-- The fields of an append-only map as they are stored. -/
structure MapTables (K V : Type) where
  /-- The index of each key. -/
  indices : HashMap K ℕ
  /-- The keys, in insertion order. -/
  keys : List K
  /-- The values, in insertion order. -/
  values : List V

variable {K V : Type}

namespace MapTables

/-- `new`: no keys and no values. -/
def new : MapTables K V := ⟨∅,[],[]⟩

/-- `len`: the number of values. -/
def len (t : MapTables K V) : ℕ := t.values.length

/-- `is_empty`. -/
def isEmpty (t : MapTables K V) : Bool := t.values.isEmpty

/-- `value_at`. -/
def valueAt (t : MapTables K V) (idx : ℕ) : Option V := t.values[idx]?

/-- `key_at`. -/
def keyAt (t : MapTables K V) (idx : ℕ) : Option K := t.keys[idx]?

/-- `iter`: each key with the value at its position; `zip` stops at the shorter table. -/
def iter (t : MapTables K V) : List (K×V) := t.keys.zip t.values

/-- What a caller of `value_mut_at` writes, when there is a value. -/
def valueMutAt (idx : ℕ) (f : V → V) (t : MapTables K V) : MapTables K V :=
  { t with values := t.values.modify idx f }

/-- What a caller of `values_mut` writes. -/
def valuesMut (f : V → V) (t : MapTables K V) : MapTables K V := { t with values := t.values.map f }

/-- What a caller of `iter_mut` writes; `zip` stops at the shorter table. -/
def iterMut (f : K → V → V) (t : MapTables K V) : MapTables K V :=
  { t with values := t.keys.zipWith f t.values++t.values.drop t.keys.length }

/-- `keys.push`. -/
def pushKey (k : K) (t : MapTables K V) : MapTables K V := { t with keys := t.keys++[k] }

/-- `values.push`. -/
def pushValue (v : V) (t : MapTables K V) : MapTables K V := { t with values := t.values++[v] }

variable [DecidableEq K]

/-- The vacant entry of a key takes its index. -/
def setIndex (k : K) (idx : ℕ) (t : MapTables K V) : MapTables K V :=
  { t with indices := t.indices.insert k idx }

/-- `index_of`. -/
def indexOf (t : MapTables K V) (k : K) : Option ℕ := t.indices.lookup k

/-- `contains_key`. -/
def containsKey (t : MapTables K V) (k : K) : Bool := decide (k∈t.indices)

end MapTables

/-- A call on the tables. -/
abbrev TableStep (K V α : Type) := Faulting (MapTables K V) MapPanic α

section Calls

variable [DecidableEq K]

/-- `values[idx]`, which is checked against the length. -/
def valueIndex (idx : ℕ) : TableStep K V V := do
  let t ← getState
  match t.values[idx]? with
  | some v => return v
  | none => fault (.indexOutOfBounds idx t.values.length)

/-- `get`. -/
def get (k : K) : TableStep K V (Option V) := do
  let t ← getState
  match t.indexOf k with
  | some idx => return some (← valueIndex idx)
  | none => return none

/-- `get_mut`, and what its caller writes; whether the key was there. -/
def getMut (k : K) (f : V → V) : TableStep K V Bool := do
  let t ← getState
  match t.indexOf k with
  | some idx =>
    let _ ← valueIndex idx
    modifyState (MapTables.valueMutAt idx f)
    return true
  | none => return false

/-- `insert`. -/
def insert (k : K) (val : V) : TableStep K V ℕ := do
  let t ← getState
  match t.indexOf k with
  | some idx =>
    let _ ← valueIndex idx
    modifyState (MapTables.valueMutAt idx fun _ => val)
    return idx
  | none =>
    let idx := t.len
    modifyState (MapTables.pushKey k)
    modifyState (MapTables.setIndex k idx)
    modifyState (MapTables.pushValue val)
    return idx

/-- `get_or_insert_with`: the closure runs after the key is registered. -/
def getOrInsertWith (k : K) (f : Unit → Except MapPanic V) : TableStep K V ℕ := do
  let t ← getState
  match t.indexOf k with
  | some idx => return idx
  | none =>
    let idx := t.len
    modifyState (MapTables.pushKey k)
    modifyState (MapTables.setIndex k idx)
    let val ← ofExcept (f ())
    modifyState (MapTables.pushValue val)
    return idx

end Calls

/-- A call of the map. -/
inductive MapCall (K V : Type)
  | insert (k : K) (val : V)
  | getOrInsertWith (k : K) (f : Unit → Except MapPanic V)
  | indexOf (k : K)
  | containsKey (k : K)
  | get (k : K)
  | getMut (k : K) (f : V → V)
  | len
  | isEmpty
  | valueAt (idx : ℕ)
  | valueMutAt (idx : ℕ) (f : V → V)
  | keyAt (idx : ℕ)
  | keys
  | values
  | valuesMut (f : V → V)
  | iter
  | iterMut (f : K → V → V)

/-- What a call answers. -/
inductive MapAnswer (K V : Type)
  | index (idx : ℕ)
  | maybeIndex (idx : Option ℕ)
  | flag (b : Bool)
  | value (v : Option V)
  | key (k : Option K)
  | keys (ks : List K)
  | values (vs : List V)
  | entries (es : List (K×V))
  | done

section Runs

variable [DecidableEq K]

/-- A read of the tables. -/
def readTables (read : MapTables K V → MapAnswer K V) : TableStep K V (MapAnswer K V) := do
  let t ← getState
  return read t

/-- A write to the values. -/
def writeTables (write : MapTables K V → MapTables K V) : TableStep K V (MapAnswer K V) := do
  modifyState write
  return .done

/-- A call on the tables. -/
def tableCall : MapCall K V → TableStep K V (MapAnswer K V)
  | .insert k val => do return .index (← insert k val)
  | .getOrInsertWith k f => do return .index (← getOrInsertWith k f)
  | .indexOf k => readTables fun t => .maybeIndex (t.indexOf k)
  | .containsKey k => readTables fun t => .flag (t.containsKey k)
  | .get k => do return .value (← get k)
  | .getMut k f => do return .flag (← getMut k f)
  | .len => readTables fun t => .index t.len
  | .isEmpty => readTables fun t => .flag t.isEmpty
  | .valueAt idx => readTables fun t => .value (t.valueAt idx)
  | .valueMutAt idx f => writeTables (MapTables.valueMutAt idx f)
  | .keyAt idx => readTables fun t => .key (t.keyAt idx)
  | .keys => readTables fun t => .keys t.keys
  | .values => readTables fun t => .values t.values
  | .valuesMut f => writeTables (MapTables.valuesMut f)
  | .iter => readTables fun t => .entries t.iter
  | .iterMut f => writeTables (MapTables.iterMut f)

/-- What a caller of `values_mut` or `iter_mut` writes, on the entries. -/
def rewriteAll (f : K → V → V) (m : SequenceValueHashMap K V) : SequenceValueHashMap K V where
  entries := m.entries.map fun p => (p.1,f p.1 p.2)
  keys_nodup := by
    rw [List.map_map]
    exact m.keys_nodup

/-- A read of the entries. -/
def readEntries (read : SequenceValueHashMap K V → MapAnswer K V) :
    Faulting (SequenceValueHashMap K V) MapPanic (MapAnswer K V) := do
  let m ← getState
  return read m

/-- A call on the entries that answers and leaves what a function says. -/
def stepEntries (step : SequenceValueHashMap K V → SequenceValueHashMap K V×MapAnswer K V) :
    Faulting (SequenceValueHashMap K V) MapPanic (MapAnswer K V) := fun m =>
  (.ok (step m).2,(step m).1)

/-- What a call means on the entries. -/
def entryCall : MapCall K V → Faulting (SequenceValueHashMap K V) MapPanic (MapAnswer K V)
  | .insert k val => stepEntries fun m => ((m.insert k val).1,.index (m.insert k val).2)
  | .getOrInsertWith k f => do
    let m ← getState
    match m.indexOf k with
    | some idx => return .index idx
    | none =>
      let val ← ofExcept (f ())
      stepEntries fun m => ((m.getOrInsertWith k val).1,.index (m.getOrInsertWith k val).2)
  | .indexOf k => readEntries fun m => .maybeIndex (m.indexOf k)
  | .containsKey k => readEntries fun m => .flag (m.containsKey k)
  | .get k => readEntries fun m => .value (m.get k)
  | .getMut k f => stepEntries fun m => (m.modify k f,.flag (m.containsKey k))
  | .len => readEntries fun m => .index m.len
  | .isEmpty => readEntries fun m => .flag (decide (m.len=0))
  | .valueAt idx => readEntries fun m => .value (m.valueAt idx)
  | .valueMutAt idx f => stepEntries fun m => (m.modifyAt idx f,.done)
  | .keyAt idx => readEntries fun m => .key (m.keyAt idx)
  | .keys => readEntries fun m => .keys m.keys
  | .values => readEntries fun m => .values m.values
  | .valuesMut f => stepEntries fun m => (rewriteAll (fun _ => f) m,.done)
  | .iter => readEntries fun m => .entries m.entries
  | .iterMut f => stepEntries fun m => (rewriteAll f m,.done)

/-- The tables after a list of calls. -/
def tablesAfter (calls : List (MapCall K V)) : MapTables K V :=
  runAll (fun c t => (tableCall c t).2) calls MapTables.new

/-- The entries after a list of calls. -/
def entriesAfter (calls : List (MapCall K V)) : SequenceValueHashMap K V :=
  runAll (fun c m => (entryCall c m).2) calls SequenceValueHashMap.empty

/-- A closure that is called to build a missing value returns it. -/
def Builds : MapCall K V → SequenceValueHashMap K V → Prop
  | .getOrInsertWith k f,m => m.indexOf k=none → ∃ val,f ()=.ok val
  | _,_ => True

end Runs

section Standing

variable [DecidableEq K]

/-- The tables hold the entries: both lists run in lockstep, and the hash map knows each
position. -/
structure Stands (t : MapTables K V) (m : SequenceValueHashMap K V) : Prop where
  /-- The list of keys is that of the entries. -/
  keys : t.keys=m.keys
  /-- The list of values is that of the entries. -/
  values : t.values=m.values
  /-- The hash map gives each key its position. -/
  indices : ∀ k,t.indexOf k=m.indexOf k

/-- New tables stand for the empty map. -/
theorem stands_new : Stands (MapTables.new : MapTables K V) SequenceValueHashMap.empty :=
  ⟨rfl,rfl,fun _ => rfl⟩

omit [DecidableEq K] in
/-- A value is found by its position in the list of values. -/
theorem valueAt_eq (m : SequenceValueHashMap K V) (i : ℕ) : m.valueAt i=m.values[i]? :=
  (List.getElem?_map).symm

omit [DecidableEq K] in
/-- A key is found by its position in the list of keys. -/
theorem keyAt_eq (m : SequenceValueHashMap K V) (i : ℕ) : m.keyAt i=m.keys[i]? :=
  (List.getElem?_map).symm

omit [DecidableEq K] in
/-- Rewriting an entry rewrites one value. -/
theorem values_modifyAt (m : SequenceValueHashMap K V) (i : ℕ) (f : V → V) :
    (m.modifyAt i f).values=m.values.modify i f := by
  apply List.ext_getElem?
  intro j
  rw [←valueAt_eq,SequenceValueHashMap.valueAt_modifyAt,List.getElem?_modify,valueAt_eq]
  split <;> simp

omit [DecidableEq K] in
/-- Rewriting an entry keeps the keys. -/
theorem keys_modifyAt (m : SequenceValueHashMap K V) (i : ℕ) (f : V → V) :
    (m.modifyAt i f).keys=m.keys := by
  apply List.ext_getElem?
  intro j
  rw [←keyAt_eq,SequenceValueHashMap.keyAt_modifyAt,keyAt_eq]

/-- A new entry adds its value at the end. -/
theorem values_push (m : SequenceValueHashMap K V) (k : K) (v : V) (h : m.indexOf k=none) :
    (m.push k v h).values=m.values++[v] := List.map_append

variable {t : MapTables K V} {m : SequenceValueHashMap K V} {k : K} {idx : ℕ}

/-- `len` agrees. -/
theorem Stands.len (h : Stands t m) : t.len=m.len := by
  rw [MapTables.len,h.values,SequenceValueHashMap.values,List.length_map]
  rfl

/-- `value_at` agrees. -/
theorem Stands.valueAt (h : Stands t m) (i : ℕ) : t.valueAt i=m.valueAt i := by
  rw [valueAt_eq,←h.values,MapTables.valueAt]

/-- `key_at` agrees. -/
theorem Stands.keyAt (h : Stands t m) (i : ℕ) : t.keyAt i=m.keyAt i := by
  rw [keyAt_eq,←h.keys,MapTables.keyAt]

/-- `contains_key` agrees. -/
theorem Stands.containsKey (h : Stands t m) (k : K) : t.containsKey k=m.containsKey k := by
  rw [SequenceValueHashMap.containsKey,←h.indices,MapTables.containsKey,MapTables.indexOf,
    Bool.eq_iff_iff,decide_eq_true_eq,AList.lookup_isSome]

/-- `is_empty` agrees. -/
theorem Stands.isEmpty (h : Stands t m) : t.isEmpty=decide (m.len=0) := by
  rw [←h.len,MapTables.len,MapTables.isEmpty,Bool.eq_iff_iff,decide_eq_true_eq,List.isEmpty_iff,
    List.length_eq_zero_iff]

/-- `iter` goes through the entries. -/
theorem Stands.iter (h : Stands t m) : t.iter=m.entries := by
  rw [MapTables.iter,h.keys,h.values]
  exact (List.zip_of_prod rfl rfl).symm

/-- `value_mut_at` keeps the tables in step. -/
theorem Stands.modifyAt (h : Stands t m) (i : ℕ) (f : V → V) :
    Stands (t.valueMutAt i f) (m.modifyAt i f) where
  keys := h.keys.trans (keys_modifyAt m i f).symm
  values := by rw [values_modifyAt,←h.values,MapTables.valueMutAt]
  indices k := (h.indices k).trans (SequenceValueHashMap.indexOf_modifyAt m i f k).symm

omit [DecidableEq K] in
/-- Rewriting every value keeps the keys. -/
theorem keys_rewriteAll (f : K → V → V) (m : SequenceValueHashMap K V) :
    (rewriteAll f m).keys=m.keys := by
  unfold rewriteAll SequenceValueHashMap.keys
  rw [List.map_map]
  rfl

omit [DecidableEq K] in
/-- Each value is rewritten under its key. -/
theorem values_rewriteAll (f : K → V → V) (m : SequenceValueHashMap K V) :
    (rewriteAll f m).values=m.keys.zipWith f m.values := by
  unfold rewriteAll SequenceValueHashMap.values SequenceValueHashMap.keys
  rw [List.map_map,List.zipWith_map,List.zipWith_self]
  rfl

/-- Positions stay. -/
theorem indexOf_rewriteAll (f : K → V → V) (m : SequenceValueHashMap K V) (k : K) :
    (rewriteAll f m).indexOf k=m.indexOf k := by
  apply Option.ext
  intro i
  rw [SequenceValueHashMap.indexOf_eq_some_iff,SequenceValueHashMap.indexOf_eq_some_iff,keyAt_eq,
    keys_rewriteAll,keyAt_eq]

/-- `iter_mut` keeps the tables in step. -/
theorem Stands.iterMut (h : Stands t m) (f : K → V → V) : Stands (t.iterMut f) (rewriteAll f m) where
  keys := h.keys.trans (keys_rewriteAll f m).symm
  values := by
    have hlen : m.values.length=m.keys.length := by
      rw [SequenceValueHashMap.values,SequenceValueHashMap.keys,List.length_map,List.length_map]
    rw [values_rewriteAll,MapTables.iterMut,h.keys,h.values,←hlen,List.drop_length,List.append_nil]
  indices k := (h.indices k).trans (indexOf_rewriteAll f m k).symm

/-- `values_mut` keeps the tables in step. -/
theorem Stands.valuesMut (h : Stands t m) (f : V → V) :
    Stands (t.valuesMut f) (rewriteAll (fun _ => f) m) where
  keys := h.keys.trans (keys_rewriteAll _ m).symm
  values := by
    unfold rewriteAll SequenceValueHashMap.values
    rw [MapTables.valuesMut,h.values,SequenceValueHashMap.values,List.map_map,List.map_map]
    rfl
  indices k := (h.indices k).trans (indexOf_rewriteAll _ m k).symm

/-- A key is registered at the next index, and its value follows. -/
theorem Stands.push (h : Stands t m) (hk : m.indexOf k=none) (v : V) :
    Stands (((t.pushKey k).setIndex k t.len).pushValue v) (m.push k v hk) where
  keys := by
    rw [SequenceValueHashMap.keys_push,←h.keys]
    rfl
  values := by
    rw [values_push,←h.values]
    rfl
  indices k' := by
    have hlookup : (((t.pushKey k).setIndex k t.len).pushValue v).indexOf k'=
        (t.indices.insert k t.len).lookup k' := rfl
    rw [hlookup,SequenceValueHashMap.indexOf_push,←h.len]
    by_cases he : k'=k
    · rw [if_pos he,he,AList.lookup_insert]
    · rw [if_neg he,AList.lookup_insert_ne he,←h.indices]
      rfl

section Steps

variable (h : Stands t m)

include h

/-- The index of a key has a value. -/
theorem Stands.valueIndex (hk : m.indexOf k=some idx) :
    ∃ v,m.valueAt idx=some v ∧ valueIndex idx t=(.ok v,t) := by
  obtain ⟨v,hv⟩ := Option.isSome_iff_exists.mp
    (SequenceValueHashMap.valueAt_isSome.mpr (SequenceValueHashMap.indexOf_lt hk))
  have hread : t.values[idx]?=some v := (h.valueAt idx).trans hv
  refine ⟨v,hv,?_⟩
  rw [SequenceTables.valueIndex,getState_bind,hread]
  rfl

/-- `get` agrees. -/
theorem Stands.get (k : K) : get k t=(.ok (m.get k),t) := by
  rw [SequenceTables.get,getState_bind,h.indices,SequenceValueHashMap.get]
  cases hk : m.indexOf k with
  | none => rfl
  | some idx =>
    obtain ⟨v,hv,hrun⟩ := h.valueIndex hk
    rw [Option.bind_some,hv]
    exact bind_ok hrun

/-- `get_mut` agrees and keeps the tables in step. -/
theorem Stands.getMut (k : K) (f : V → V) :
    ∃ t',getMut k f t=(.ok (m.containsKey k),t') ∧ Stands t' (m.modify k f) := by
  rw [SequenceTables.getMut,getState_bind,h.indices,SequenceValueHashMap.containsKey,
    SequenceValueHashMap.modify]
  cases hk : m.indexOf k with
  | none => exact ⟨t,rfl,h⟩
  | some idx =>
    obtain ⟨v,-,hrun⟩ := h.valueIndex hk
    exact ⟨_,bind_ok hrun,h.modifyAt idx f⟩

/-- `insert` agrees and keeps the tables in step. -/
theorem Stands.insert (k : K) (v : V) :
    ∃ t',insert k v t=(.ok (m.insert k v).2,t') ∧ Stands t' (m.insert k v).1 := by
  rw [SequenceTables.insert,getState_bind,h.indices]
  cases hk : m.indexOf k with
  | none =>
    rw [SequenceValueHashMap.insert_new hk,←h.len]
    exact ⟨_,rfl,h.push hk v⟩
  | some idx =>
    obtain ⟨u,-,hrun⟩ := h.valueIndex hk
    have hold : m.insert k v=(m.modifyAt idx (fun _ => v),idx) := by
      unfold SequenceValueHashMap.insert
      split
      · rename_i i hi
        cases hk.symm.trans hi
        rfl
      · rename_i hi
        cases hk.symm.trans hi
    rw [hold]
    exact ⟨_,bind_ok hrun,h.modifyAt idx fun _ => v⟩

/-- A value is built when its key is missing. -/
theorem Stands.getOrInsertWith {f : Unit → Except MapPanic V} (hf : Builds (.getOrInsertWith k f) m) :
    ∃ m',entryCall (.getOrInsertWith k f) m=(.ok (.index (m.indexOf k |>.getD m.len)),m') ∧
      ∃ t',getOrInsertWith k f t=(.ok (m.indexOf k |>.getD m.len),t') ∧ Stands t' m' := by
  rw [SequenceTables.getOrInsertWith,entryCall,getState_bind,getState_bind,h.indices]
  cases hk : m.indexOf k with
  | some idx => exact ⟨m,rfl,t,rfl,h⟩
  | none =>
    obtain ⟨v,hv⟩ := hf hk
    have hnew : m.getOrInsertWith k v=(m.push k v hk,m.len) := by
      unfold SequenceValueHashMap.getOrInsertWith
      split
      · rename_i i hi
        cases hk.symm.trans hi
      · rfl
    refine ⟨m.push k v hk,?_,_,?_,h.push hk v⟩
    · dsimp only
      rw [hv,ofExcept_ok_bind,stepEntries,hnew]
      rfl
    · dsimp only
      rw [hv,h.len]
      rfl

/-- A call answers the same on the tables, and does not panic. -/
theorem call_stands {c : MapCall K V} (hc : Builds c m) :
    (∃ a,(entryCall c m).1=.ok a) ∧ SameExit (fun _ => Stands) Stands (tableCall c t) (entryCall c m) := by
  cases c with
  | insert k val =>
    obtain ⟨t',hrun,hstands⟩ := h.insert k val
    refine ⟨⟨_,rfl⟩,?_⟩
    rw [tableCall,bind_ok hrun]
    exact .ok hstands
  | getOrInsertWith k f =>
    obtain ⟨m',hentry,t',hrun,hstands⟩ := h.getOrInsertWith hc
    rw [hentry,tableCall,bind_ok hrun]
    exact ⟨⟨_,rfl⟩,.ok hstands⟩
  | get k =>
    refine ⟨⟨_,rfl⟩,?_⟩
    rw [tableCall,bind_ok (h.get k)]
    exact .ok h
  | getMut k f =>
    obtain ⟨t',hrun,hstands⟩ := h.getMut k f
    refine ⟨⟨_,rfl⟩,?_⟩
    rw [tableCall,bind_ok hrun]
    exact .ok hstands
  | valueMutAt idx f => exact ⟨⟨_,rfl⟩,.ok (h.modifyAt idx f)⟩
  | valuesMut f => exact ⟨⟨_,rfl⟩,.ok (h.valuesMut f)⟩
  | iterMut f => exact ⟨⟨_,rfl⟩,.ok (h.iterMut f)⟩
  | _ =>
    refine ⟨⟨_,rfl⟩,simulates_getState (R:=Stands) (fun t m hst => ?_) t m h⟩
    simp only [hst.indices,hst.containsKey,hst.len,hst.isEmpty,hst.valueAt,hst.keyAt,hst.keys,
      hst.values,hst.iter]
    exact .ok hst

end Steps

/-- An index stays the index of its key. -/
theorem indexOf_entryCall (c : MapCall K V) (h : m.indexOf k=some idx) :
    (entryCall c m).2.indexOf k=some idx := by
  cases c with
  | insert k' val =>
    have hpush : (m.insert k' val).1.indexOf k=some idx := by
      unfold SequenceValueHashMap.insert
      split
      · exact (SequenceValueHashMap.indexOf_modifyAt m _ _ k).trans h
      · rename_i hk
        rw [SequenceValueHashMap.indexOf_push,if_neg]
        · exact h
        · intro he
          rw [he,hk] at h
          cases h
    exact hpush
  | getOrInsertWith k' f =>
    rw [entryCall,getState_bind]
    cases hk : m.indexOf k' with
    | some i => exact h
    | none => cases hf : f () with
      | error e => exact h
      | ok v => exact SequenceValueHashMap.getOrInsertWith_indexOf v h
  | getMut k' f =>
    have hmod : (m.modify k' f).indexOf k=some idx := by
      unfold SequenceValueHashMap.modify
      split
      · exact (SequenceValueHashMap.indexOf_modifyAt m _ _ k).trans h
      · exact h
    exact hmod
  | valueMutAt i f => exact (SequenceValueHashMap.indexOf_modifyAt m i f k).trans h
  | valuesMut f => exact (indexOf_rewriteAll _ m k).trans h
  | iterMut f => exact (indexOf_rewriteAll f m k).trans h
  | _ => exact h

/-- And so it does over a run. -/
theorem indexOf_run (calls : List (MapCall K V)) (h : m.indexOf k=some idx) :
    (runAll (fun c m => (entryCall c m).2) calls m).indexOf k=some idx := by
  induction calls generalizing m with
  | nil => exact h
  | cons c calls ih => exact ih (indexOf_entryCall c h)

end Standing

section Results

variable [DecidableEq K]

/-- The runs in which no closure panics that is called to build a value. -/
def AllBuild (calls : List (MapCall K V)) : Prop :=
  Along (fun c m => (entryCall c m).2) Builds calls SequenceValueHashMap.empty

/-- Calls whose closures build are answered alike. -/
theorem AllBuild.stands {calls : List (MapCall K V)} (h : AllBuild calls) :
    outcomes tableCall calls MapTables.new=outcomes entryCall calls SequenceValueHashMap.empty ∧
      Stands (tablesAfter calls) (entriesAfter calls) := by
  have hid : calls.map id=calls := List.map_id calls
  have hstep : ∀ (c : MapCall K V) t m,Builds (id c) m → Stands t m →
      SameExit (fun _ => Stands) Stands (tableCall c t) (entryCall (id c) m) :=
    fun c t m hok hst => (call_stands hst hok).2
  have hrun := simulates_run hstep (hid.symm ▸ h) stands_new
  rw [hid] at hrun
  exact hrun

/-- Nothing panics in such a run. -/
theorem outcomes_ok {calls : List (MapCall K V)} {t : MapTables K V} {m : SequenceValueHashMap K V}
    (h : Along (fun c m => (entryCall c m).2) Builds calls m) (hst : Stands t m) :
    ∀ r∈outcomes entryCall calls m,∃ a,r=.ok a := by
  induction calls generalizing t m with
  | nil =>
    intro r hr
    cases hr
  | cons c calls ih =>
    intro r hr
    obtain ⟨hok,hexit⟩ := call_stands hst h.1
    cases List.mem_cons.mp hr with
    | inl he => exact he ▸ hok
    | inr hr => exact ih h.2 hexit.states r hr

/-- Every run of calls on the tables answers what it answers on the entries and never panics, and
an index stays the one of its key. -/
theorem tables_refine_entries {calls : List (MapCall K V)} (h : AllBuild calls) :
    outcomes tableCall calls MapTables.new=outcomes entryCall calls SequenceValueHashMap.empty ∧
    (∀ r∈outcomes tableCall calls MapTables.new,∃ a,r=.ok a) ∧
    Stands (tablesAfter calls) (entriesAfter calls) ∧
    ∀ earlier later,calls=earlier++later → ∀ k idx,(tablesAfter earlier).indexOf k=some idx →
      (tablesAfter calls).indexOf k=some idx ∧ (tablesAfter calls).keyAt idx=some k ∧
        ∃ v,(tablesAfter calls).valueAt idx=some v := by
  obtain ⟨hout,hstands⟩ := h.stands
  refine ⟨hout,hout ▸ outcomes_ok h stands_new,hstands,?_⟩
  intro earlier later hsplit k idx hidx
  have hbefore : AllBuild earlier := (along_append.mp (hsplit ▸ h)).1
  rw [hbefore.stands.2.indices] at hidx
  have hlate : (entriesAfter calls).indexOf k=some idx := by
    rw [hsplit,entriesAfter,runAll_append]
    exact indexOf_run later hidx
  have hvalue := SequenceValueHashMap.valueAt_isSome.mpr (SequenceValueHashMap.indexOf_lt hlate)
  rw [hstands.indices,hstands.keyAt,hstands.valueAt]
  exact ⟨hlate,SequenceValueHashMap.keyAt_of_indexOf hlate,Option.isSome_iff_exists.mp hvalue⟩

/-- A run with a new key, a built value and an overwritten one. -/
def overwriting : List (MapCall ℕ ℕ) :=
  [.insert 7 10,.getOrInsertWith 9 (fun _ => .ok 20),.insert 7 11,.get 7]

theorem overwriting_builds : AllBuild overwriting := ⟨trivial,fun _ => ⟨20,rfl⟩,trivial,trivial,trivial⟩

/-- A value is built, found and overwritten. -/
theorem tables_refine_entries_overwriting :
    outcomes tableCall overwriting MapTables.new=
        [.ok (.index 0),.ok (.index 1),.ok (.index 0),.ok (.value (some 11))] ∧
      (tablesAfter overwriting).indexOf 9=some 1 := by
  have h := tables_refine_entries overwriting_builds
  exact ⟨h.1.trans rfl,(h.2.2.1.indices 9).trans rfl⟩

/-- What a closure leaves behind that panics while it builds the value of a missing key: the key
keeps an index without a value, and the next new key takes the same index. -/
theorem unbuilt_key_shares_index {calls : List (MapCall K V)} (h : AllBuild calls) {k : K}
    (hk : (tablesAfter calls).indexOf k=none) {f : Unit → Except MapPanic V} {e : MapPanic}
    (hf : f ()=.error e) : ∃ t',getOrInsertWith k f (tablesAfter calls)=(.error e,t') ∧
      (get k t').1=.error (.indexOutOfBounds t'.len t'.len) ∧
      ∀ k',k'≠k → (tablesAfter calls).indexOf k'=none → ∀ v,∃ t'',insert k' v t'=(.ok t'.len,t'') ∧
        t''.indexOf k=some t'.len ∧ t''.indexOf k'=some t'.len ∧
        get k t''=(.ok (some v),t'') ∧ t''.keyAt t'.len=some k := by
  have hst := h.stands.2
  have hlen : (tablesAfter calls).keys.length=(tablesAfter calls).values.length := by
    rw [hst.keys,hst.values,SequenceValueHashMap.keys,SequenceValueHashMap.values,List.length_map,
      List.length_map]
  generalize tablesAfter calls=t at hk hlen
  let t' := (t.pushKey k).setIndex k t.len
  have hown : t'.indexOf k=some t.len := AList.lookup_insert t.indices
  refine ⟨t',?_,?_,?_⟩
  · rw [getOrInsertWith,getState_bind,hk]
    dsimp only
    rw [hf]
    rfl
  · have hnone : t'.values[t.len]?=none := List.getElem?_eq_none (le_refl _)
    have hindex : valueIndex t.len t'=(.error (.indexOutOfBounds t.len t.len),t') := by
      rw [valueIndex,getState_bind,hnone]
      rfl
    rw [get,getState_bind,hown]
    dsimp only
    rw [bind_error hindex]
    rfl
  · intro k' hne hk' v
    have hmissing : t'.indexOf k'=none := (AList.lookup_insert_ne hne).trans hk'
    let t'' := ((t'.pushKey k').setIndex k' t'.len).pushValue v
    have hother : t''.indexOf k=some t.len := (AList.lookup_insert_ne hne.symm).trans hown
    have hvalue : t''.values[t.len]?=some v := List.getElem?_concat_length
    have hindex : valueIndex t.len t''=(.ok v,t'') := by
      rw [valueIndex,getState_bind,hvalue]
      rfl
    refine ⟨t'',?_,hother,AList.lookup_insert _,?_,?_⟩
    · rw [insert,getState_bind,hmissing]
      rfl
    · rw [get,getState_bind,hother]
      exact bind_ok hindex
    · have hkeys : t''.keys=t.keys++[k]++[k'] := rfl
      have hpos : t'.len=t.keys.length := hlen.symm
      rw [MapTables.keyAt,hkeys,hpos,List.append_assoc,List.getElem?_append_right (le_refl _),
        Nat.sub_self]
      rfl

/-- A lookup of the key without a value is out of bounds. -/
theorem unbuilt_key_shares_index_overwriting :
    ∃ t',getOrInsertWith 8 (fun _ => .error (.builder "no value")) (tablesAfter overwriting)=
        (.error (.builder "no value"),t') ∧
      (get 8 t').1=.error (.indexOutOfBounds 2 2) := by
  have hrefines := overwriting_builds.stands.2
  obtain ⟨t',hrun,hget,-⟩ := unbuilt_key_shares_index overwriting_builds (k:=8)
    (by rw [hrefines.indices]; rfl) (f:=fun _ => .error (.builder "no value")) rfl
  have hlen : t'.len=2 := by
    have ht' := congrArg (fun r => r.2.len) hrun
    exact ht'.symm.trans rfl
  exact ⟨t',hrun,hlen ▸ hget⟩

end Results

end XynokEcs.SequenceTables
