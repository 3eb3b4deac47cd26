import Mathlib.Data.List.Basic
import Mathlib.Data.List.Forall2
import Mathlib.Algebra.Order.Group.Nat
import Mathlib.Tactic.Common

/-!
# Cutting spans into batches

An iterator that can be run until it is exhausted, and spans of rows, each under
a key, that are cut into batches of bounded size. A cut inside a span lands on
a grid, so that two batches never share a cell of the grid.
-/

namespace XynokEcs.SpanCuts

section Exhausting

variable {ε σ ι : Type}

/-- What an iterator hands out, call after call, until it has nothing more. -/
inductive Exhausts (next : σ → Except ε (Option ι×σ)) : σ → List ι → Prop
  | done {s s' : σ} : next s=.ok (none,s') → Exhausts next s []
  | item {s s' : σ} {x : ι} {xs : List ι} :
    next s=.ok (some x,s') → Exhausts next s' xs → Exhausts next s (x::xs)

variable {next : σ → Except ε (Option ι×σ)}

/-- A relation of states to what is left, kept by each call, tells the run. -/
theorem exhausts_of_left {α : Type} (Left : σ → List α → Prop) {Out : α → ι → Prop}
    (hdone : ∀ s,Left s [] → ∃ s',next s=.ok (none,s'))
    (hitem : ∀ s a as,Left s (a::as) → ∃ x s',next s=.ok (some x,s') ∧ Out a x ∧ Left s' as)
    {s : σ} {as : List α} (h : Left s as) : ∃ xs,Exhausts next s xs ∧ List.Forall₂ Out as xs := by
  induction as generalizing s with
  | nil =>
    obtain ⟨s',hs⟩ := hdone s h
    exact ⟨[],.done hs,.nil⟩
  | cons a as ih =>
    obtain ⟨x,s',hs,hout,hleft⟩ := hitem s a as h
    obtain ⟨xs,hxs,hall⟩ := ih hleft
    exact ⟨x::xs,.item hs hxs,.cons hout hall⟩

/-- The same, where what is left is the items themselves. -/
theorem exhausts_of_items (Left : σ → List ι → Prop) (hdone : ∀ s,Left s [] → ∃ s',next s=.ok (none,s'))
    (hitem : ∀ s x xs,Left s (x::xs) → ∃ s',next s=.ok (some x,s') ∧ Left s' xs)
    {s : σ} {xs : List ι} (h : Left s xs) : Exhausts next s xs := by
  have hstep : ∀ s x xs,Left s (x::xs) → ∃ y s',next s=.ok (some y,s') ∧ x=y ∧ Left s' xs := by
    intro s x xs hleft
    obtain ⟨s',hs,hleft'⟩ := hitem s x xs hleft
    exact ⟨x,s',hs,rfl,hleft'⟩
  obtain ⟨ys,hys,hall⟩ := exhausts_of_left Left hdone hstep h
  rw [List.forall₂_eq_eq_eq] at hall
  exact hall ▸ hys

/-- What a call hands out is the first of what was left. -/
def TakesFirst (items : σ → List ι) (s : σ) : Option ι×σ → Prop
  | (none,_) => items s=[]
  | (some x,s') => items s=x::items s'

/-- An iterator that cannot fail, with what it has left. -/
theorem exhausts_of_next {next : σ → Option ι×σ} (items : σ → List ι)
    (hnext : ∀ s,TakesFirst items s (next s)) (s : σ) :
    Exhausts (fun s => (.ok (next s) : Except ε _)) s (items s) := by
  refine exhausts_of_items (fun s xs => items s=xs) (fun s h => ?_) (fun s x xs h => ?_) rfl
  · have hs := hnext s
    cases hn : next s with
    | mk found s' =>
      rw [hn] at hs
      cases found with
      | none => exact ⟨s',rfl⟩
      | some x => cases h.symm.trans hs
  · have hs := hnext s
    cases hn : next s with
    | mk found s' =>
      rw [hn] at hs
      cases found with
      | none => cases h.symm.trans hs
      | some x' =>
        cases h.symm.trans hs
        exact ⟨s',rfl,rfl⟩

/-- There is one such run. -/
theorem Exhausts.unique {s : σ} {xs ys : List ι} (hx : Exhausts next s xs) (hy : Exhausts next s ys) :
    xs=ys := by
  induction hx generalizing ys with
  | done hs =>
    cases hy with
    | done _ => rfl
    | item hs' _ => cases hs.symm.trans hs'
  | item hs _ ih =>
    cases hy with
    | done hs' => cases hs.symm.trans hs'
    | item hs' htail =>
      cases hs.symm.trans hs'
      rw [ih htail]

section Pairs

variable {α β γ : Type} {R : α → β → Prop} {as : List α} {bs : List β}

/-- What one list says of the other, element by element. -/
theorem map_eq_of_forall₂ (h : List.Forall₂ R as bs) {f : β → α} (hf : ∀ a b,R a b → f b=a) :
    bs.map f=as := by
  induction h with
  | nil => rfl
  | cons hab _ ih => rw [List.map_cons,hf _ _ hab,ih]

/-- A relation carries over to images. -/
theorem forall₂_map_of {S : β → γ → Prop} (h : List.Forall₂ R as bs) {f : α → γ}
    (hf : ∀ a b,R a b → S b (f a)) : List.Forall₂ S bs (as.map f) := by
  induction h with
  | nil => exact .nil
  | cons hab _ ih => exact .cons (hf _ _ hab) ih

/-- Two lists related to a third are related. -/
theorem forall₂_join {δ : Type} {S : α → δ → Prop} {T : β → δ → Prop} {ds : List δ}
    (h : List.Forall₂ R as bs) (h' : List.Forall₂ S as ds) (hT : ∀ a b d,R a b → S a d → T b d) :
    List.Forall₂ T bs ds := by
  induction h generalizing ds with
  | nil =>
    cases h'
    exact .nil
  | cons hab _ ih =>
    cases h' with
    | cons had hrest => exact .cons (hT _ _ _ hab had) (ih hrest)

end Pairs

end Exhausting

section Spans

variable {κ : Type}

/-- The rows `start..stop` under a key. -/
structure Span (κ : Type) where
  /-- What the rows belong to. -/
  key : κ
  /-- The first row. -/
  start : ℕ
  /-- The row after the last. -/
  stop : ℕ

def Span.size (s : Span κ) : ℕ := s.stop-s.start

def Span.rows (s : Span κ) : List (κ×ℕ) := (List.range' s.start s.size).map fun r => (s.key,r)

/-- The rows of some spans, in order. -/
def rows (spans : List (Span κ)) : List (κ×ℕ) := spans.flatMap Span.rows

/-- The rows of spans are those of the first and of the rest. -/
theorem rows_cons (s : Span κ) (spans : List (Span κ)) : rows (s::spans)=s.rows++rows spans := rfl

/-- A span has as many rows as its size says. -/
theorem Span.length_rows (s : Span κ) : s.rows.length=s.size := by
  rw [Span.rows,List.length_map,List.length_range']

/-- The rows of a span lie between its ends, under its key. -/
theorem mem_span_rows {s : Span κ} {p : κ×ℕ} : p∈s.rows ↔ p.1=s.key ∧ s.start ≤ p.2 ∧ p.2<s.stop := by
  obtain ⟨key,r⟩ := p
  simp only [Span.rows,List.mem_map,List.mem_range'_1,Prod.mk.injEq,Span.size]
  constructor
  · intro ⟨r',hr,hk,he⟩
    exact ⟨hk.symm,by omega,by omega⟩
  · intro ⟨hk,hle,hlt⟩
    exact ⟨r,⟨hle,by omega⟩,hk.symm,rfl⟩

/-- A row of spans is one of a span. -/
theorem mem_rows {spans : List (Span κ)} {p : κ×ℕ} : p∈rows spans ↔ ∃ s∈spans,p∈s.rows :=
  List.mem_flatMap

/-- A span cut in two. -/
theorem rows_split {s : Span κ} {m : ℕ} (h₁ : s.start ≤ m) (h₂ : m ≤ s.stop) :
    { s with stop := m }.rows++{ s with start := m }.rows=s.rows := by
  have hm : s.start+1*(m-s.start)=m := by omega
  have hsize : m-s.start+(s.stop-m)=s.stop-s.start := by omega
  have happ : List.range' s.start (m-s.start)++List.range' (s.start+1*(m-s.start)) (s.stop-m)=
      List.range' s.start (m-s.start+(s.stop-m)) := List.range'_append
  rw [hm,hsize] at happ
  unfold Span.rows Span.size
  dsimp only
  rw [←List.map_append,happ]

/-- Spans to cut: none is empty, each starts on the grid, and each has its own key. -/
structure Tidy (g : ℕ) (spans : List (Span κ)) : Prop where
  /-- No span is empty. -/
  nonempty : ∀ s∈spans,s.start<s.stop
  /-- Spans start on the grid. -/
  onGrid : ∀ s∈spans,g∣s.start
  /-- No two spans have the same key. -/
  keys : (spans.map Span.key).Nodup

/-- What comes after the first span is tidy. -/
theorem Tidy.tail {g : ℕ} {s : Span κ} {rest : List (Span κ)} (h : Tidy g (s::rest)) : Tidy g rest :=
  ⟨fun x hx => h.nonempty x (List.mem_cons_of_mem s hx),
    fun x hx => h.onGrid x (List.mem_cons_of_mem s hx),(List.nodup_cons.mp h.keys).2⟩

/-- A batch of at most `room` rows from the front, and what is left. A span that
does not fit is cut at the last grid line, unless that leaves it whole. -/
def cut (g : ℕ) : ℕ → List (Span κ) → List (Span κ)×List (Span κ)
  | _,[] => ([],[])
  | room,s::rest =>
    if room=0 then ([],s::rest)
    else if s.stop ≤ s.start+room then (s::(cut g (room-s.size) rest).1,(cut g (room-s.size) rest).2)
    else if (s.start+room)/g*g=s.start then ([],s::rest)
    else ([{ s with stop := (s.start+room)/g*g }],{ s with start := (s.start+room)/g*g }::rest)

variable {g : ℕ}

/-- Where there is no room nothing is cut off. -/
theorem cut_zero (spans : List (Span κ)) : cut g 0 spans=([],spans) := by
  cases spans with
  | nil => rfl
  | cons s rest => rw [cut,if_pos rfl]

section Equations

variable {s : Span κ} {rest : List (Span κ)} {room : ℕ}

/-- A span that fits is taken whole. -/
theorem cut_fits (h0 : room≠0) (h : s.stop ≤ s.start+room) : cut g room (s::rest)=
    (s::(cut g (room-s.size) rest).1,(cut g (room-s.size) rest).2) := by
  rw [cut,if_neg h0,if_pos h]

/-- One that would be cut at its start is left. -/
theorem cut_stays (h : ¬s.stop ≤ s.start+room) (he : (s.start+room)/g*g=s.start) :
    cut g room (s::rest)=([],s::rest) := by
  rw [cut,if_neg h,if_pos he,ite_self]

/-- Any other is cut on the grid. -/
theorem cut_inside (h0 : room≠0) (h : ¬s.stop ≤ s.start+room) (he : (s.start+room)/g*g≠s.start) :
    cut g room (s::rest)=([{ s with stop := (s.start+room)/g*g }],
      { s with start := (s.start+room)/g*g }::rest) := by
  rw [cut,if_neg h0,if_neg h,if_neg he]

end Equations

/-- After a cut inside a span, there is no room for more. -/
theorem cut_again {s : Span κ} {rest : List (Span κ)} {room : ℕ} (h : ¬s.stop ≤ s.start+room)
    (hle : s.start ≤ (s.start+room)/g*g) :
    cut g (room-((s.start+room)/g*g-s.start)) ({ s with start := (s.start+room)/g*g }::rest)=
      ([],{ s with start := (s.start+room)/g*g }::rest) := by
  have hdiv : (s.start+room)/g*g ≤ s.start+room := Nat.div_mul_le_self _ g
  have hsum : (s.start+room)/g*g+(room-((s.start+room)/g*g-s.start))=s.start+room := by omega
  refine cut_stays ?_ ?_
  · dsimp only
    rw [hsum]
    exact h
  · dsimp only
    rw [hsum]

/-- Where a span is cut. -/
theorem cut_between {s : Span κ} {room : ℕ} (hg : g∣s.start) (hfits : ¬s.stop ≤ s.start+room)
    (hne : (s.start+room)/g*g≠s.start) : s.start<(s.start+room)/g*g ∧ (s.start+room)/g*g<s.stop ∧
      (s.start+room)/g*g ≤ s.start+room := by
  obtain ⟨a,ha⟩ := hg
  have hle : (s.start+room)/g*g ≤ s.start+room := Nat.div_mul_le_self _ g
  have hge : s.start/g*g ≤ (s.start+room)/g*g :=
    Nat.mul_le_mul_right g (Nat.div_le_div_right (Nat.le_add_right _ _))
  have hs : s.start/g*g=s.start := Nat.div_mul_cancel ⟨a,ha⟩
  omega

/-- A cut takes the rows of the front. -/
theorem cut_rows (room : ℕ) {spans : List (Span κ)} (h : Tidy g spans) :
    rows (cut g room spans).1++rows (cut g room spans).2=rows spans := by
  induction spans generalizing room with
  | nil => rfl
  | cons s rest ih =>
    by_cases h0 : room=0
    · rw [h0,cut_zero]
      rfl
    · by_cases hfits : s.stop ≤ s.start+room
      · rw [cut_fits h0 hfits,rows_cons,List.append_assoc,ih _ h.tail,rows_cons]
      · by_cases hsplit : (s.start+room)/g*g=s.start
        · rw [cut_stays hfits hsplit]
          rfl
        · obtain ⟨hlo,hhi,-⟩ := cut_between (h.onGrid s List.mem_cons_self) hfits hsplit
          rw [cut_inside h0 hfits hsplit,rows_cons,rows_cons,rows_cons,←List.append_assoc]
          congr 1
          rw [rows,List.flatMap_nil,List.append_nil]
          exact rows_split hlo.le hhi.le

/-- What a cut leaves can be cut again. -/
theorem cut_tidy (room : ℕ) {spans : List (Span κ)} (h : Tidy g spans) : Tidy g (cut g room spans).2 := by
  induction spans generalizing room with
  | nil => exact h
  | cons s rest ih =>
    by_cases h0 : room=0
    · rw [h0,cut_zero]
      exact h
    · by_cases hfits : s.stop ≤ s.start+room
      · rw [cut_fits h0 hfits]
        exact ih _ h.tail
      · by_cases hsplit : (s.start+room)/g*g=s.start
        · rw [cut_stays hfits hsplit]
          exact h
        · obtain ⟨-,hhi,-⟩ := cut_between (h.onGrid s List.mem_cons_self) hfits hsplit
          rw [cut_inside h0 hfits hsplit]
          refine ⟨fun x hx => ?_,fun x hx => ?_,h.keys⟩
          · cases List.mem_cons.mp hx with
            | inl he =>
              rw [he]
              exact hhi
            | inr hx => exact h.tail.nonempty x hx
          · cases List.mem_cons.mp hx with
            | inl he =>
              rw [he]
              exact Nat.dvd_mul_left g _
            | inr hx => exact h.tail.onGrid x hx

/-- A batch holds no more rows than there is room for, and if rows are left,
less than a cell of the grid stays free. -/
theorem cut_length (hg : 0<g) (room : ℕ) {spans : List (Span κ)} (h : Tidy g spans) :
    (rows (cut g room spans).1).length ≤ room ∧
      ((cut g room spans).2≠[] → room<(rows (cut g room spans).1).length+g) := by
  induction spans generalizing room with
  | nil => exact ⟨Nat.zero_le _,fun hne => (hne rfl).elim⟩
  | cons s rest ih =>
    have hs := h.nonempty s List.mem_cons_self
    by_cases h0 : room=0
    · rw [h0,cut_zero]
      exact ⟨Nat.zero_le _,fun _ => by omega⟩
    · by_cases hfits : s.stop ≤ s.start+room
      · obtain ⟨hle,hfull⟩ := ih (room-s.size) h.tail
        rw [cut_fits h0 hfits,rows_cons,List.length_append,Span.length_rows]
        unfold Span.size at hle hfull ⊢
        exact ⟨by omega,fun hne => by have hlt := hfull hne; omega⟩
      · have hmod : (s.start+room)/g*g+(s.start+room)%g=s.start+room := by
          rw [Nat.mul_comm]
          exact Nat.div_add_mod _ g
        have hlt := Nat.mod_lt (s.start+room) hg
        by_cases hsplit : (s.start+room)/g*g=s.start
        · have hroom : room<0+g := by omega
          rw [cut_stays hfits hsplit]
          exact ⟨Nat.zero_le _,fun _ => hroom⟩
        · obtain ⟨hlo,-,-⟩ := cut_between (h.onGrid s List.mem_cons_self) hfits hsplit
          rw [cut_inside h0 hfits hsplit]
          dsimp only
          rw [rows_cons,List.length_append,Span.length_rows,Span.size,rows,List.flatMap_nil,List.length_nil]
          dsimp only
          exact ⟨by omega,fun _ => by omega⟩

/-- A batch takes something where there is room for a cell of the grid. -/
theorem cut_ne_nil {room : ℕ} (hg : 0<g) (hroom : g ≤ room) {spans : List (Span κ)} (hne : spans≠[])
    (h : Tidy g spans) : 0<(rows (cut g room spans).1).length := by
  cases spans with
  | nil => exact (hne rfl).elim
  | cons s rest =>
    by_cases hleft : (cut g room (s::rest)).2=[]
    · have hrows := cut_rows room h
      have hnone : rows (cut g room (s::rest)).2=[] := congrArg rows hleft
      rw [hnone,List.append_nil,rows_cons] at hrows
      have hs := h.nonempty s List.mem_cons_self
      have hlen := congrArg List.length hrows
      rw [List.length_append,Span.length_rows,Span.size] at hlen
      omega
    · have hfull := (cut_length hg room h).2 hleft
      omega

/-- Keys are only lost. -/
theorem cut_keys (room : ℕ) {spans : List (Span κ)} :
    ∀ s∈(cut g room spans).2,s.key∈spans.map Span.key := by
  induction spans generalizing room with
  | nil => exact fun s hs => nomatch hs
  | cons x rest ih =>
    unfold cut
    intro s hs
    split at hs
    · exact List.mem_map_of_mem hs
    · split at hs
      · exact List.mem_cons_of_mem _ (ih _ s hs)
      · split at hs
        · exact List.mem_map_of_mem hs
        · cases List.mem_cons.mp hs with
          | inl he =>
            rw [he]
            exact List.mem_cons_self
          | inr hs => exact List.mem_cons_of_mem _ (List.mem_map_of_mem hs)

/-- No row of a batch shares a cell of the grid with a row that is left. -/
theorem cut_apart (hg : 0<g) (room : ℕ) {spans : List (Span κ)} (h : Tidy g spans) :
    ∀ p∈rows (cut g room spans).1,∀ p'∈rows (cut g room spans).2,p.1=p'.1 → p.2/g<p'.2/g := by
  induction spans generalizing room with
  | nil => exact fun p hp => nomatch hp
  | cons s rest ih =>
    have hkey := (List.nodup_cons.mp h.keys).1
    by_cases h0 : room=0
    · rw [h0,cut_zero]
      exact fun p hp => nomatch hp
    · by_cases hfits : s.stop ≤ s.start+room
      · rw [cut_fits h0 hfits]
        intro p hp p' hp' heq
        cases List.mem_append.mp hp with
        | inl hp =>
          obtain ⟨x,hx,hpx⟩ := mem_rows.mp hp'
          have hx := cut_keys _ x hx
          rw [←(mem_span_rows.mp hpx).1,←heq,(mem_span_rows.mp hp).1] at hx
          exact (hkey hx).elim
        | inr hp => exact ih _ h.tail p hp p' hp' heq
      · by_cases hsplit : (s.start+room)/g*g=s.start
        · rw [cut_stays hfits hsplit]
          exact fun p hp => nomatch hp
        · rw [cut_inside h0 hfits hsplit]
          intro p hp p' hp' heq
          rw [rows_cons,rows,List.flatMap_nil,List.append_nil] at hp
          have hp := mem_span_rows.mp hp
          cases List.mem_append.mp hp' with
          | inr hp' =>
            obtain ⟨x,hx,hpx⟩ := mem_rows.mp hp'
            have hx := List.mem_map_of_mem (f:=Span.key) hx
            rw [←(mem_span_rows.mp hpx).1,←heq,hp.1] at hx
            exact (hkey hx).elim
          | inl hp' =>
            have hlo : (s.start+room)/g*g ≤ p'.2 := (mem_span_rows.mp hp').2.1
            have hlt : p.2/g<(s.start+room)/g := Nat.div_lt_of_lt_mul (Nat.mul_comm g _ ▸ hp.2.2)
            exact hlt.trans_le ((Nat.le_div_iff_mul_le hg).mpr hlo)

/-- Cutting spans until none is left. -/
inductive Batches (g n : ℕ) : List (Span κ) → List (List (Span κ)) → Prop
  | nil : Batches g n [] []
  | cons {spans : List (Span κ)} {batches : List (List (Span κ))} : spans≠[] →
    Batches g n (cut g n spans).2 batches → Batches g n spans ((cut g n spans).1::batches)

variable {n : ℕ} {spans : List (Span κ)} {batches : List (List (Span κ))}

/-- It ends, as each batch takes at least one row. -/
theorem exists_batches (hg : 0<g) (hn : g ≤ n) (h : Tidy g spans) : ∃ batches,Batches g n spans batches := by
  induction hk : (rows spans).length using Nat.strong_induction_on generalizing spans with
  | _ k ih =>
    by_cases hne : spans=[]
    · rw [hne]
      exact ⟨[],.nil⟩
    · have hlen := congrArg List.length (cut_rows n h)
      rw [List.length_append] at hlen
      have hpos := cut_ne_nil hg hn hne h
      obtain ⟨batches,hb⟩ := ih _ (by omega) (cut_tidy n h) rfl
      exact ⟨_,.cons hne hb⟩

/-- Batches are cut off spans. -/
theorem Batches.ne_nil {b : List (Span κ)} (hb : Batches g n spans (b::batches)) : spans≠[] := by
  intro he
  rw [he] at hb
  cases hb with
  | cons hne _ => exact hne rfl

/-- The first batch is the first cut. -/
theorem Batches.head {b : List (Span κ)} (hb : Batches g n spans (b::batches)) :
    b=(cut g n spans).1 ∧ Batches g n (cut g n spans).2 batches := by
  cases hb with
  | cons _ hrest => exact ⟨rfl,hrest⟩

/-- The batches are the rows, in order. -/
theorem Batches.rows (hb : Batches g n spans batches) (h : Tidy g spans) :
    batches.flatMap SpanCuts.rows=SpanCuts.rows spans := by
  induction hb with
  | nil => rfl
  | cons _ _ ih => rw [List.flatMap_cons,ih (cut_tidy n h),cut_rows n h]

/-- Every batch has rows, and no more than it has room for. -/
theorem Batches.size (hb : Batches g n spans batches) (hg : 0<g) (hn : g ≤ n) (h : Tidy g spans) :
    ∀ b∈batches,0<(SpanCuts.rows b).length ∧ (SpanCuts.rows b).length ≤ n := by
  induction hb with
  | nil => exact fun b hb => nomatch hb
  | cons hne _ ih =>
    intro b hb
    cases List.mem_cons.mp hb with
    | inl he =>
      rw [he]
      exact ⟨cut_ne_nil hg hn hne h,(cut_length hg n h).1⟩
    | inr hb => exact ih (cut_tidy n h) b hb

/-- Every batch but the last is full up to less than a cell. -/
theorem Batches.full (hb : Batches g n spans batches) (hg : 0<g) (h : Tidy g spans) :
    ∀ b∈batches.dropLast,n<(SpanCuts.rows b).length+g := by
  induction hb with
  | nil => exact fun b hb => nomatch hb
  | @cons spans batches hne hrest ih =>
    cases batches with
    | nil => exact fun b hb => nomatch hb
    | cons b' batches =>
      intro b hb
      rw [List.dropLast_cons_cons] at hb
      cases List.mem_cons.mp hb with
      | inl he =>
        rw [he]
        exact (cut_length hg n h).2 hrest.ne_nil
      | inr hb => exact ih (cut_tidy n h) b hb

/-- Rows of two batches share no cell of the grid. -/
theorem Batches.apart (hb : Batches g n spans batches) (hg : 0<g) (h : Tidy g spans) :
    batches.Pairwise fun b b' =>
      ∀ p∈SpanCuts.rows b,∀ p'∈SpanCuts.rows b',p.1=p'.1 → p.2/g≠p'.2/g := by
  induction hb with
  | nil => exact .nil
  | @cons spans batches _ hrest ih =>
    refine .cons (fun b' hb' p hp p' hp' heq => ?_) (ih (cut_tidy n h))
    have hleft : p'∈SpanCuts.rows (cut g n spans).2 := by
      rw [←hrest.rows (cut_tidy n h)]
      exact List.mem_flatMap.mpr ⟨b',hb',hp'⟩
    exact (cut_apart hg n h p hp p' hleft heq).ne

end Spans

end XynokEcs.SpanCuts
