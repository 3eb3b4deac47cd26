import Mathlib.Data.List.Basic
import Mathlib.Tactic.Common

/-!
# Interleavings of independent processes

Processes take turns on a shared state. Where the turns of any two of them
commute and neither sees what the other does, only the number of turns of each
process matters. All schedules that let every process finish then end alike, and
one of them runs the processes one after the other. Nothing here depends on what
the processes and the state are.
-/

namespace XynokEcs.Interleavings

variable {σ P : Type}

/-- The process at a place takes a turn. -/
def turnAt (turn : P → σ → P×σ) (k : ℕ) (r : List P×σ) : List P×σ :=
  match r.1[k]? with
  | none => r
  | some p => (r.1.set k (turn p r.2).1,(turn p r.2).2)

/-- The processes at the given places take their turns, one after the other. -/
def takeTurns (turn : P → σ → P×σ) : List ℕ → List P×σ → List P×σ
  | [],r => r
  | k::picks,r => takeTurns turn picks (turnAt turn k r)

/-- A process that does nothing any more. -/
def Ended (turn : P → σ → P×σ) (p : P) : Prop := ∀ s,turn p s=(p,s)

/-- All processes have ended. -/
def Complete (turn : P → σ → P×σ) (r : List P×σ) : Prop := ∀ p∈r.1,Ended turn p

/-- A process that has not ended, and what a turn makes of it. -/
def Follows (turn : P → σ → P×σ) (p' p : P) : Prop := ¬Ended turn p ∧ ∃ s,p'=(turn p s).1

/-- Why the order of turns does not matter: the turns of two processes that are
apart commute up to an equivalence of states, and neither process sees the other. -/
structure Commutes (turn : P → σ → P×σ) (good : P → Prop) (fine : σ → Prop) (apart : P → P → Prop)
    (same : σ → σ → Prop) : Prop where
  /-- States are told apart up to an equivalence. -/
  equiv : Equivalence same
  /-- Apart goes both ways. -/
  symm : ∀ {p q},apart p q → apart q p
  /-- A process is good after its turn. -/
  good_turn : ∀ {p s},good p → fine s → good (turn p s).1
  /-- A state is fine after a turn. -/
  fine_turn : ∀ {p s},good p → fine s → fine (turn p s).2
  /-- A turn keeps processes apart. -/
  apart_turn : ∀ {p q s},apart p q → apart (turn p s).1 q
  /-- A turn does not tell equivalent states apart. -/
  congr : ∀ {p s t},good p → fine s → fine t → same s t →
    (turn p s).1=(turn p t).1 ∧ same (turn p s).2 (turn p t).2
  /-- A process does not see the turn of another. -/
  unseen : ∀ {p q s},good p → good q → apart p q → fine s → (turn q (turn p s).2).1=(turn q s).1
  /-- Two turns come to the same state in either order. -/
  swap : ∀ {p q s},good p → good q → apart p q → fine s →
    same (turn q (turn p s).2).2 (turn p (turn q s).2).2

variable {turn : P → σ → P×σ} {good : P → Prop} {fine : σ → Prop} {apart : P → P → Prop}
  {same : σ → σ → Prop} {r r' : List P×σ} {p : P} {k j : ℕ} {picks picks' : List ℕ}

section Turns

/-- A turn at a position is one of the process there. -/
theorem turnAt_some (h : r.1[k]?=some p) :
    turnAt turn k r=(r.1.set k (turn p r.2).1,(turn p r.2).2) := by
  unfold turnAt
  rw [h]

/-- Where there is no process nothing happens. -/
theorem turnAt_none (h : r.1[k]?=none) : turnAt turn k r=r := by
  unfold turnAt
  rw [h]

/-- The other processes are where they were. -/
theorem getElem?_turnAt (hj : j≠k) : (turnAt turn k r).1[j]?=r.1[j]? := by
  cases h : r.1[k]? with
  | none => rw [turnAt_none h]
  | some p => rw [turnAt_some h,List.getElem?_set_ne hj.symm]

/-- The process that took the turn. -/
theorem getElem?_turnAt_self (h : r.1[k]?=some p) :
    (turnAt turn k r).1[k]?=some (turn p r.2).1 := by
  rw [turnAt_some h,List.getElem?_set_self (List.getElem?_eq_some_iff.mp h).1]

/-- Turns are taken one after the other. -/
theorem takeTurns_append : takeTurns turn (picks++picks') r=
    takeTurns turn picks' (takeTurns turn picks r) := by
  induction picks generalizing r with
  | nil => rfl
  | cons k picks ih => exact ih

/-- A process that has ended does nothing. -/
theorem turnAt_ended (h : r.1[k]?=some p) (he : Ended turn p) : turnAt turn k r=r := by
  rw [turnAt_some h,he r.2]
  obtain ⟨hk,rfl⟩ := List.getElem?_eq_some_iff.mp h
  exact Prod.ext (List.set_getElem_self hk) rfl

/-- Once all processes have ended, further turns do nothing. -/
theorem takeTurns_complete (h : Complete turn r) : takeTurns turn picks r=r := by
  induction picks with
  | nil => rfl
  | cons k picks ih =>
    have hturn : turnAt turn k r=r := by
      cases hk : r.1[k]? with
      | none => exact turnAt_none hk
      | some p => exact turnAt_ended hk (h p (List.mem_of_getElem? hk))
    rw [takeTurns,hturn,ih]

end Turns

section Pools

/-- Good processes, any two of them apart, on a state that is fine. -/
structure Pool (good : P → Prop) (fine : σ → Prop) (apart : P → P → Prop) (r : List P×σ) : Prop where
  /-- Each process is good. -/
  good_at : ∀ {k : ℕ} {p : P},r.1[k]?=some p → good p
  /-- Any two processes are apart. -/
  apart_at : ∀ {j k : ℕ} {p q : P},j≠k → r.1[j]?=some p → r.1[k]?=some q → apart p q
  /-- The state is fine. -/
  fine_state : fine r.2

/-- The same processes on states that are the same up to the equivalence. -/
def Agree (same : σ → σ → Prop) (r r' : List P×σ) : Prop := r.1=r'.1 ∧ same r.2 r'.2

/-- Agreement goes on. -/
theorem Agree.trans (hs : Equivalence same) {r'' : List P×σ} (h : Agree same r r')
    (h' : Agree same r' r'') : Agree same r r'' := ⟨h.1.trans h'.1,hs.trans h.2 h'.2⟩

variable (hc : Commutes turn good fine apart same)

include hc

/-- A turn keeps the processes good and apart. -/
theorem pool_turnAt (h : Pool good fine apart r) (k : ℕ) :
    Pool good fine apart (turnAt turn k r) := by
  cases hk : r.1[k]? with
  | none =>
    rw [turnAt_none hk]
    exact h
  | some p =>
    have hp := h.good_at hk
    have hself : (turnAt turn k r).1[k]?=some (turn p r.2).1 := getElem?_turnAt_self hk
    have hother : ∀ {j : ℕ} {q : P},j≠k → (turnAt turn k r).1[j]?=some q →
        r.1[j]?=some q := by
      intro j q hj hq
      rw [getElem?_turnAt hj] at hq
      exact hq
    constructor
    · intro j q hq
      by_cases hj : j=k
      · subst hj
        rw [hself] at hq
        cases hq
        exact hc.good_turn hp h.fine_state
      · exact h.good_at (hother hj hq)
    · intro i j q q' hij hq hq'
      by_cases hi : i=k
      · subst hi
        rw [hself] at hq
        cases hq
        exact hc.apart_turn (h.apart_at hij hk (hother hij.symm hq'))
      · by_cases hj : j=k
        · subst hj
          rw [hself] at hq'
          cases hq'
          exact hc.symm (hc.apart_turn (h.apart_at (Ne.symm hi) hk (hother hi hq)))
        · exact h.apart_at hij (hother hi hq) (hother hj hq')
    · rw [turnAt_some hk]
      exact hc.fine_turn hp h.fine_state

/-- The same turn on configurations that agree. -/
theorem agree_turnAt (h : Pool good fine apart r) (h' : Pool good fine apart r')
    (ha : Agree same r r') (k : ℕ) : Agree same (turnAt turn k r) (turnAt turn k r') := by
  have hget : r'.1[k]?=r.1[k]? := by rw [ha.1]
  cases hk : r.1[k]? with
  | none =>
    rw [turnAt_none hk,turnAt_none (hget.trans hk)]
    exact ha
  | some p =>
    obtain ⟨hnext,hsame⟩ := hc.congr (h.good_at hk) h.fine_state h'.fine_state ha.2
    rw [turnAt_some hk,turnAt_some (hget.trans hk)]
    refine ⟨?_,hsame⟩
    dsimp only
    rw [ha.1,hnext]

/-- Turns do not tell apart what agrees. -/
theorem agree_takeTurns (h : Pool good fine apart r) (h' : Pool good fine apart r')
    (ha : Agree same r r') : Agree same (takeTurns turn picks r) (takeTurns turn picks r') := by
  induction picks generalizing r r' with
  | nil => exact ha
  | cons k picks ih => exact ih (pool_turnAt hc h k) (pool_turnAt hc h' k) (agree_turnAt hc h h' ha k)

/-- Two turns in either order. -/
theorem turnAt_swap (h : Pool good fine apart r) (j k : ℕ) :
    Agree same (turnAt turn k (turnAt turn j r)) (turnAt turn j (turnAt turn k r)) := by
  by_cases hjk : j=k
  · subst hjk
    exact ⟨rfl,hc.equiv.refl _⟩
  cases hj : r.1[j]? with
  | none =>
    have hj' : (turnAt turn k r).1[j]?=none := (getElem?_turnAt hjk).trans hj
    rw [turnAt_none hj,turnAt_none hj']
    exact ⟨rfl,hc.equiv.refl _⟩
  | some p =>
    cases hk : r.1[k]? with
    | none =>
      have hk' : (turnAt turn j r).1[k]?=none := (getElem?_turnAt (Ne.symm hjk)).trans hk
      rw [turnAt_none hk,turnAt_none hk']
      exact ⟨rfl,hc.equiv.refl _⟩
    | some q =>
      have hj' : (turnAt turn k r).1[j]?=some p := (getElem?_turnAt hjk).trans hj
      have hk' : (turnAt turn j r).1[k]?=some q := (getElem?_turnAt (Ne.symm hjk)).trans hk
      have hp := h.good_at hj
      have hq := h.good_at hk
      have hpq := h.apart_at hjk hj hk
      have hqp := hc.symm hpq
      rw [turnAt_some hk',turnAt_some hj',turnAt_some hj,turnAt_some hk]
      refine ⟨?_,hc.swap hp hq hpq h.fine_state⟩
      dsimp only
      rw [hc.unseen hp hq hpq h.fine_state,hc.unseen hq hp hqp h.fine_state,List.set_comm _ _ hjk]

/-- Only the number of turns of each process matters. -/
theorem takeTurns_perm (hp : picks.Perm picks') (h : Pool good fine apart r) :
    Agree same (takeTurns turn picks r) (takeTurns turn picks' r) := by
  induction hp generalizing r with
  | nil => exact ⟨rfl,hc.equiv.refl _⟩
  | cons k _ ih => exact ih (pool_turnAt hc h k)
  | swap j k picks =>
    exact agree_takeTurns hc (pool_turnAt hc (pool_turnAt hc h k) j)
      (pool_turnAt hc (pool_turnAt hc h j) k) (turnAt_swap hc h k j)
  | trans _ _ ih₁ ih₂ => exact (ih₁ h).trans hc.equiv (ih₂ h)

/-- Two schedules that let every process finish end alike. -/
theorem complete_agree (h : Pool good fine apart r) (hl : Complete turn (takeTurns turn picks r))
    (hr : Complete turn (takeTurns turn picks' r)) :
    Agree same (takeTurns turn picks r) (takeTurns turn picks' r) := by
  have hperm : Agree same (takeTurns turn (picks++picks') r) (takeTurns turn (picks'++picks) r) :=
    takeTurns_perm hc List.perm_append_comm h
  rw [takeTurns_append,takeTurns_append,takeTurns_complete hl,takeTurns_complete hr] at hperm
  exact hperm

end Pools

section Serial

/-- The places of processes that run one after the other, each with its number of turns. -/
def serial (blocks : List (ℕ×ℕ)) : List ℕ := blocks.flatMap fun b => List.replicate b.2 b.1

/-- The process at a place, if there is one, has ended. -/
def EndedAt (turn : P → σ → P×σ) (k : ℕ) (r : List P×σ) : Prop := ∀ p,r.1[k]?=some p → Ended turn p

/-- What has ended stays so in a turn of any process. -/
theorem endedAt_turnAt (h : EndedAt turn k r) (j : ℕ) : EndedAt turn k (turnAt turn j r) := by
  by_cases hjk : k=j
  · subst hjk
    cases hk : r.1[k]? with
    | none =>
      rw [turnAt_none hk]
      exact h
    | some p =>
      rw [turnAt_ended hk (h p hk)]
      exact h
  · intro p hp
    rw [getElem?_turnAt hjk] at hp
    exact h p hp

/-- So it does in any number of turns. -/
theorem endedAt_takeTurns (h : EndedAt turn k r) : EndedAt turn k (takeTurns turn picks r) := by
  induction picks generalizing r with
  | nil => exact h
  | cons j picks ih => exact ih (endedAt_turnAt h j)

/-- What a process can become ends after finitely many turns. -/
theorem exists_block (hp : Acc (Follows turn) p) (hk : r.1[k]?=some p) :
    ∃ n,EndedAt turn k (takeTurns turn (List.replicate n k) r) := by
  induction hp generalizing r with
  | intro p _ ih =>
    by_cases he : Ended turn p
    · refine ⟨0,fun q hq => ?_⟩
      cases hk.symm.trans hq
      exact he
    · obtain ⟨n,hn⟩ := ih _ ⟨he,r.2,rfl⟩ (getElem?_turnAt_self hk)
      exact ⟨n+1,hn⟩

/-- The accessibility of the processes goes along with turns. -/
theorem acc_turnAt (h : ∀ p∈r.1,Acc (Follows turn) p) (k : ℕ) :
    ∀ p∈(turnAt turn k r).1,Acc (Follows turn) p := by
  cases hk : r.1[k]? with
  | none =>
    rw [turnAt_none hk]
    exact h
  | some p =>
    have hp := h p (List.mem_of_getElem? hk)
    intro q hq
    rw [turnAt_some hk] at hq
    cases List.mem_or_eq_of_mem_set hq with
    | inl hq => exact h q hq
    | inr hq =>
      by_cases he : Ended turn p
      · rw [hq,he r.2]
        exact hp
      · exact hp.inv ⟨he,r.2,hq⟩

/-- Turns leave processes whose turns come to an end. -/
theorem acc_takeTurns (h : ∀ p∈r.1,Acc (Follows turn) p) :
    ∀ p∈(takeTurns turn picks r).1,Acc (Follows turn) p := by
  induction picks generalizing r with
  | nil => exact h
  | cons k picks ih => exact ih (acc_turnAt h k)

/-- No process comes or goes. -/
theorem length_takeTurns : (takeTurns turn picks r).1.length=r.1.length := by
  induction picks generalizing r with
  | nil => rfl
  | cons k picks ih =>
    refine Eq.trans ih ?_
    cases hk : r.1[k]? with
    | none => rw [turnAt_none hk]
    | some p => rw [turnAt_some hk,List.length_set]

/-- Processes run to their ends one after the other, in any order. -/
theorem exists_serial (order : List ℕ) (h : ∀ p∈r.1,Acc (Follows turn) p) :
    ∃ blocks : List (ℕ×ℕ),blocks.map Prod.fst=order ∧
      ∀ k∈order,EndedAt turn k (takeTurns turn (serial blocks) r) := by
  induction order generalizing r with
  | nil => exact ⟨[],rfl,fun _ hk => absurd hk List.not_mem_nil⟩
  | cons k order ih =>
    have hblock : ∃ n,EndedAt turn k (takeTurns turn (List.replicate n k) r) := by
      cases hk : r.1[k]? with
      | none =>
        refine ⟨0,fun p hp => ?_⟩
        cases hk.symm.trans hp
      | some p => exact exists_block (h p (List.mem_of_getElem? hk)) hk
    obtain ⟨n,hn⟩ := hblock
    have hacc : ∀ p∈(takeTurns turn (List.replicate n k) r).1,Acc (Follows turn) p := acc_takeTurns h
    obtain ⟨blocks,hmap,hend⟩ := ih hacc
    refine ⟨(k,n)::blocks,by rw [List.map_cons,hmap],?_⟩
    have hsplit : takeTurns turn (serial ((k,n)::blocks)) r=
        takeTurns turn (serial blocks) (takeTurns turn (List.replicate n k) r) := by
      rw [serial,List.flatMap_cons,takeTurns_append]
      rfl
    rw [hsplit]
    intro j hj
    cases List.mem_cons.mp hj with
    | inl hj =>
      rw [hj]
      exact endedAt_takeTurns hn
    | inr hj => exact hend j hj

/-- The processes can run one after the other, in whatever order, and every schedule
that lets all of them finish ends as that does. -/
theorem agrees_with_serial (hc : Commutes turn good fine apart same) (h : Pool good fine apart r)
    (hacc : ∀ p∈r.1,Acc (Follows turn) p) (order : List ℕ) (ho : ∀ k<r.1.length,k∈order) :
    ∃ blocks : List (ℕ×ℕ),blocks.map Prod.fst=order ∧
      Complete turn (takeTurns turn (serial blocks) r) ∧
      ∀ picks,Complete turn (takeTurns turn picks r) →
        Agree same (takeTurns turn picks r) (takeTurns turn (serial blocks) r) := by
  obtain ⟨blocks,hmap,hend⟩ := exists_serial order hacc
  have hcomplete : Complete turn (takeTurns turn (serial blocks) r) := by
    intro p hp
    obtain ⟨k,hk⟩ := List.mem_iff_getElem?.mp hp
    have hlt := (List.getElem?_eq_some_iff.mp hk).1
    rw [length_takeTurns] at hlt
    exact hend k (ho k hlt) p hk
  exact ⟨blocks,hmap,hcomplete,fun picks hl => complete_agree hc h hl hcomplete⟩

end Serial

end XynokEcs.Interleavings
