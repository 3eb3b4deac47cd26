import XynokEcs.Interleavings
import Mathlib

/-!
# Programs on shared cells

A program loads and stores single cells of a memory it shares with others. Where
no two programs touch the same cell, each of them ends as if it had run alone,
whatever the order of the loads and stores of all of them. Nothing here depends
on what the cells are for.
-/

namespace XynokEcs.CellPrograms

open Interleavings

/-- Loads and stores of cells `A` that hold a `B`, ending in an `α`. -/
inductive Program (A B α : Type)
  | done (x : α)
  | load (a : A) (next : B → Program A B α)
  | store (a : A) (b : B) (next : Program A B α)

variable {A B α β : Type}

namespace Program

/-- One program after the other. -/
def bind : Program A B α → (α → Program A B β) → Program A B β
  | done x,f => f x
  | load a next,f => load a fun b => (next b).bind f
  | store a b next,f => store a b (next.bind f)

/-- Every cell a program touches is one of a set. -/
def Within (s : Set A) : Program A B α → Prop
  | done _ => True
  | load a next => a∈s ∧ ∀ b,(next b).Within s
  | store a _ next => a∈s ∧ next.Within s

variable {s t : Set A} {p : Program A B α}

/-- A program that keeps to some cells keeps to more. -/
theorem Within.mono (h : p.Within s) (hst : s ⊆ t) : p.Within t := by
  induction p with
  | done x => trivial
  | load a next ih => exact ⟨hst h.1,fun b => ih b (h.2 b)⟩
  | store a b next ih => exact ⟨hst h.1,ih h.2⟩

/-- One program after the other keeps to the same cells. -/
theorem Within.bind {f : α → Program A B β} (h : p.Within s) (hf : ∀ x,(f x).Within s) :
    (p.bind f).Within s := by
  induction p with
  | done x => exact hf x
  | load a next ih => exact ⟨h.1,fun b => ih b (h.2 b)⟩
  | store a b next ih => exact ⟨h.1,ih h.2⟩

variable [DecidableEq A] {m m' : A → B} {a : A}

/-- Run a program to its end. -/
def run : Program A B α → (A → B) → α×(A → B)
  | done x,m => (x,m)
  | load a next,m => (next (m a)).run m
  | store a b next,m => next.run (Function.update m a b)

/-- One load or store. -/
def turn : Program A B α → (A → B) → Program A B α×(A → B)
  | done x,m => (done x,m)
  | load a next,m => (next (m a),m)
  | store a b next,m => (next,Function.update m a b)

/-- Run alone, one starts from what the other left. -/
theorem run_bind (p : Program A B α) (f : α → Program A B β) (m : A → B) :
    (p.bind f).run m=(f (p.run m).1).run (p.run m).2 := by
  induction p generalizing m with
  | done x => rfl
  | load a next ih => exact ih (m a) m
  | store a b next ih => exact ih (Function.update m a b)

/-- A turn is the first step of the run. -/
theorem run_turn (p : Program A B α) (m : A → B) : (p.turn m).1.run (p.turn m).2=p.run m := by
  cases p <;> rfl

/-- What is left after a turn keeps to the same cells. -/
theorem Within.turn (h : p.Within s) (m : A → B) : (p.turn m).1.Within s := by
  cases p with
  | done x => trivial
  | load a next => exact h.2 (m a)
  | store a b next => exact h.2

/-- A turn leaves every other cell alone. -/
theorem Within.turn_outside (h : p.Within s) (ha : a∉s) : (p.turn m).2 a=m a := by
  cases p with
  | done x => rfl
  | load c next => rfl
  | store c b next =>
    refine Function.update_of_ne ?_ b m
    intro he
    exact ha (he ▸ h.1)

/-- What a program does depends on its cells only. -/
theorem Within.run_congr (h : p.Within s) (hm : ∀ a∈s,m a=m' a) :
    (p.run m).1=(p.run m').1 ∧ ∀ a∈s,(p.run m).2 a=(p.run m').2 a := by
  induction p generalizing m m' with
  | done x => exact ⟨rfl,hm⟩
  | load c next ih =>
    rw [run,run,hm c h.1]
    exact ih _ (h.2 _) hm
  | store c b next ih =>
    refine ih h.2 fun a ha => ?_
    rw [Function.update_apply,Function.update_apply,hm a ha]

/-- A program leaves every other cell alone. -/
theorem Within.run_outside (h : p.Within s) (ha : a∉s) : (p.run m).2 a=m a := by
  induction p generalizing m with
  | done x => rfl
  | load c next ih => exact ih _ (h.2 _)
  | store c b next ih =>
    refine (ih h.2).trans (Function.update_of_ne ?_ b m)
    intro he
    exact ha (he ▸ h.1)

omit [DecidableEq A] in
/-- A program that has more to do is not what comes after it. -/
theorem next_ne {next : B → Program A B α} {b : B} (p : Program A B α) (h : p=load a next) :
    next b≠p := by
  induction p generalizing a next b with
  | done x => cases h
  | store c d p ih => cases h
  | load c q ih =>
    cases h
    intro he
    exact ih b he rfl

omit [DecidableEq A] in
/-- A program that has taken a turn is another one. -/
theorem store_ne {b : B} (p : Program A B α) : p≠store a b p := by
  induction p generalizing a b with
  | done x => exact fun h => by cases h
  | load c q ih => exact fun h => by cases h
  | store c d p ih =>
    intro h
    injection h with _ _ hp
    exact ih hp

/-- Only a program that is done takes no more turns. -/
theorem ended_iff [Inhabited B] : Ended turn p ↔ ∃ x,p=done x := by
  constructor
  · intro h
    have hturn := congrArg Prod.fst (h fun _ => default)
    cases p with
    | done x => exact ⟨x,rfl⟩
    | load a next => exact (next_ne _ rfl hturn).elim
    | store a b next => exact (store_ne next hturn).elim
  · rintro ⟨x,rfl⟩ m
    rfl

/-- Every program ends. -/
theorem acc_follows (p : Program A B α) : Acc (Follows turn) p := by
  induction p with
  | done x =>
    refine ⟨_,fun q hq => (hq.1 ?_).elim⟩
    exact fun _ => rfl
  | load a next ih =>
    refine ⟨_,fun q hq => ?_⟩
    obtain ⟨-,m,rfl⟩ := hq
    exact ih (m a)
  | store a b next ih =>
    refine ⟨_,fun q hq => ?_⟩
    obtain ⟨-,m,rfl⟩ := hq
    exact ih

end Program

section Sharing

variable [DecidableEq A] {S : ℕ → Set A} {r r' : List (Program A B α)×(A → B)} {picks : List ℕ}

/-- Each program keeps to cells of its own. -/
structure Separate (S : ℕ → Set A) (programs : List (Program A B α)) : Prop where
  /-- A program reads and writes its own cells only. -/
  within : ∀ {k : ℕ} {p : Program A B α},programs[k]?=some p → p.Within (S k)
  /-- No two programs have a cell in common. -/
  apart : ∀ {j k : ℕ},j≠k → Disjoint (S j) (S k)

/-- What is left of each program does what the program would have done alone. -/
structure Alone (S : ℕ → Set A) (r r' : List (Program A B α)×(A → B)) : Prop where
  /-- What is left of the programs keeps to its cells. -/
  separate : Separate S r'.1
  /-- What is left of a program ends as the whole program would have. -/
  runs : ∀ {k : ℕ} {p : Program A B α},r.1[k]?=some p → ∃ p',r'.1[k]?=some p' ∧
    (p'.run r'.2).1=(p.run r.2).1 ∧ ∀ a∈S k,(p'.run r'.2).2 a=(p.run r.2).2 a
  /-- Cells of no program stay. -/
  rest : ∀ a,(∀ k<r.1.length,a∉S k) → r'.2 a=r.2 a

/-- Before the first turn everything is left. -/
theorem alone_refl (h : Separate S r.1) : Alone S r r :=
  ⟨h,fun hp => ⟨_,hp,rfl,fun _ _ => rfl⟩,fun _ _ => rfl⟩

/-- One load or store of one program. -/
theorem Alone.turnAt (h : Alone S r r') (hlen : r'.1.length=r.1.length) (k : ℕ) :
    Alone S r (turnAt Program.turn k r') := by
  cases hk : r'.1[k]? with
  | none =>
    rw [turnAt_none hk]
    exact h
  | some q =>
    have hq := h.separate.within hk
    have hself : (Interleavings.turnAt Program.turn k r').1[k]?=some (q.turn r'.2).1 :=
      getElem?_turnAt_self hk
    have hmem : (Interleavings.turnAt Program.turn k r').2=(q.turn r'.2).2 := by rw [turnAt_some hk]
    constructor
    · refine ⟨fun {j p} hp => ?_,h.separate.apart⟩
      by_cases hj : j=k
      · subst hj
        cases hself.symm.trans hp
        exact hq.turn r'.2
      · rw [getElem?_turnAt hj] at hp
        exact h.separate.within hp
    · intro j p hp
      obtain ⟨p',hp',hrun,hcells⟩ := h.runs hp
      rw [hmem]
      by_cases hj : j=k
      · subst hj
        cases hk.symm.trans hp'
        refine ⟨_,hself,?_⟩
        rw [Program.run_turn]
        exact ⟨hrun,hcells⟩
      · have hkept : ∀ a∈S j,(q.turn r'.2).2 a=r'.2 a := fun a ha =>
          hq.turn_outside fun hak => (Set.disjoint_left.mp (h.separate.apart hj)) ha hak
        have hsame := (h.separate.within hp').run_congr hkept
        rw [getElem?_turnAt hj]
        exact ⟨p',hp',hsame.1.trans hrun,fun a ha => (hsame.2 a ha).trans (hcells a ha)⟩
    · intro a ha
      have hlt := (List.getElem?_eq_some_iff.mp hk).1
      rw [hmem]
      exact (hq.turn_outside (ha k (hlen ▸ hlt))).trans (h.rest a ha)

/-- Turns in any order leave each program what it would do alone. -/
theorem takeTurns_alone (h : Alone S r r') (hlen : r'.1.length=r.1.length) :
    Alone S r (takeTurns Program.turn picks r') := by
  induction picks generalizing r' with
  | nil => exact h
  | cons k picks ih =>
    have hstep : (takeTurns Program.turn [k] r').1.length=r'.1.length := length_takeTurns
    exact ih (h.turnAt hlen k) (hstep.trans hlen)

/-- Every program has ended in a value. -/
def AllDone (programs : List (Program A B α)) : Prop := ∀ p∈programs,∃ x,p=.done x

/-- In every order of loads and stores, programs that share no cell end as they do alone. -/
theorem ends_alone (h : Separate S r.1) (hend : AllDone (takeTurns Program.turn picks r).1) :
    (∀ {k : ℕ} {p : Program A B α},r.1[k]?=some p →
      (takeTurns Program.turn picks r).1[k]?=some (.done (p.run r.2).1) ∧
      ∀ a∈S k,(takeTurns Program.turn picks r).2 a=(p.run r.2).2 a) ∧
    ∀ a,(∀ k<r.1.length,a∉S k) → (takeTurns Program.turn picks r).2 a=r.2 a := by
  have halone : Alone S r (takeTurns Program.turn picks r) := takeTurns_alone (alone_refl h) rfl
  refine ⟨fun {k p} hp => ?_,halone.rest⟩
  obtain ⟨p',hp',hrun,hcells⟩ := halone.runs hp
  obtain ⟨x,rfl⟩ := hend p' (List.mem_of_getElem? hp')
  exact ⟨hp'.trans (congrArg (fun y => some (Program.done y)) hrun),hcells⟩

/-- One program after the other, each to its end. -/
def inSequence (programs : List (Program A B α)) (m : A → B) : A → B :=
  programs.foldl (fun m p => (p.run m).2) m

/-- Programs that share no cell end as they do alone when they run in sequence. -/
theorem sequence_alone {programs : List (Program A B α)} (h : Separate S programs) (m : A → B) :
    (∀ {k : ℕ} {p : Program A B α},programs[k]?=some p → ∀ a∈S k,inSequence programs m a=(p.run m).2 a) ∧
      ∀ a,(∀ k<programs.length,a∉S k) → inSequence programs m a=m a := by
  induction programs generalizing S m with
  | nil =>
    refine ⟨fun {k p} hp => ?_,fun _ _ => rfl⟩
    cases hp
  | cons q programs ih =>
    have hq : q.Within (S 0) := h.within (k:=0) rfl
    have hrest : Separate (fun k => S (k+1)) programs :=
      ⟨fun {k p} hp => h.within (k:=k+1) hp,fun hjk => h.apart fun he => hjk (Nat.succ.inj he)⟩
    obtain ⟨hcells,hkept⟩ := ih hrest (q.run m).2
    have hother : ∀ k,∀ a∈S (k+1),a∉S 0 := fun k a ha h0 =>
      Set.disjoint_left.mp (h.apart (Nat.succ_ne_zero k)) ha h0
    constructor
    · intro k p hp a ha
      cases k with
      | zero =>
        cases hp
        exact hkept a fun k _ hk => hother k a hk ha
      | succ k =>
        refine (hcells hp a ha).trans ?_
        have hsame : ∀ a∈S (k+1),(q.run m).2 a=m a := fun a ha => hq.run_outside (hother k a ha)
        exact ((h.within (k:=k+1) hp).run_congr hsame).2 a ha
    · intro a ha
      have hlater : ∀ k<programs.length,a∉S (k+1) := fun k hk => ha (k+1) (Nat.succ_lt_succ hk)
      exact (hkept a hlater).trans (hq.run_outside (ha 0 (Nat.succ_pos _)))

/-- In every order of loads and stores, programs that share no cell end as in sequence. -/
theorem ends_as_sequence (h : Separate S r.1) (hend : AllDone (takeTurns Program.turn picks r).1) :
    (takeTurns Program.turn picks r).2=inSequence r.1 r.2 := by
  obtain ⟨hcells,hkept⟩ := ends_alone h hend
  obtain ⟨hcells',hkept'⟩ := sequence_alone h r.2
  funext a
  by_cases ha : ∃ k<r.1.length,a∈S k
  · obtain ⟨k,hk,ha⟩ := ha
    have hp := List.getElem?_eq_getElem hk
    exact ((hcells hp).2 a ha).trans (hcells' hp a ha).symm
  · have hnone : ∀ k<r.1.length,a∉S k := fun k hk hin => ha ⟨k,hk,hin⟩
    exact (hkept a hnone).trans (hkept' a hnone).symm

/-- And there is such an order. -/
theorem exists_end [Inhabited B] (r : List (Program A B α)×(A → B)) :
    ∃ picks,AllDone (takeTurns Program.turn picks r).1 := by
  have hacc : ∀ p∈r.1,Acc (Follows Program.turn) p := fun p _ => p.acc_follows
  obtain ⟨blocks,-,hend⟩ := exists_serial (List.range r.1.length) hacc
  refine ⟨serial blocks,fun p hp => Program.ended_iff.mp ?_⟩
  obtain ⟨k,hk⟩ := List.mem_iff_getElem?.mp hp
  have hlt := (List.getElem?_eq_some_iff.mp hk).1
  rw [length_takeTurns] at hlt
  exact hend k (List.mem_range.mpr hlt) p hk

end Sharing

end XynokEcs.CellPrograms
