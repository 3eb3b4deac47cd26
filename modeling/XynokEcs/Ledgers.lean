import XynokEcs.ActionRuns
import XynokEcs.FiniteSums

/-!
# Ledgers

A ledger has what is held and what was spent. A step takes something in, gives
something out and spends something; what it takes in and does not give out or
spend is held afterwards. Balances compose, they carry over from a part to the
whole, and over a run the amounts add up. Nothing here depends on what is held.
-/

namespace XynokEcs.Ledgers

open ActionRuns FiniteSums

variable {M α S A : Type}

/-- What is held, and what was spent so far. -/
abbrev Ledger (M : Type) := M×M

section Balances

variable [AddCommMonoid M] {x y z : Ledger M} {inp out gone inp' out' gone' : M}

/-- From `x` to `y`, `inp` came in, `out` was given out and `gone` was spent. -/
def Balance (inp out gone : M) (x y : Ledger M) : Prop := y+(out+gone,0)=x+(inp,gone)

theorem balance_iff :
    Balance inp out gone x y ↔ y.1+(out+gone)=x.1+inp ∧ y.2=x.2+gone := by
  constructor
  · intro h
    have h2 := congrArg Prod.snd h
    simp only [Prod.snd_add,add_zero] at h2
    exact ⟨congrArg Prod.fst h,h2⟩
  · intro h
    refine Prod.ext h.1 ?_
    simp only [Prod.snd_add,add_zero]
    exact h.2

theorem Balance.held (h : Balance inp out gone x y) : y.1+(out+gone)=x.1+inp :=
  (balance_iff.mp h).1

theorem Balance.spent (h : Balance inp out gone x y) : y.2=x.2+gone := (balance_iff.mp h).2

/-- Held and spent together grow by what came in and was not given out. -/
theorem Balance.total (h : Balance inp out gone x y) : y.1+y.2+out=x.1+x.2+inp := by
  have hsum : y.1+y.2+out=y.1+(out+gone)+x.2 := by
    rw [h.spent]
    abel
  rw [hsum,h.held]
  abel

theorem Balance.refl (x : Ledger M) : Balance 0 0 0 x x := by
  unfold Balance
  rw [add_zero]

/-- What comes in can be spent at once. -/
theorem balance_spend (x : Ledger M) (inp : M) : Balance inp 0 inp x (x.1,x.2+inp) := by
  rw [balance_iff,zero_add]
  exact ⟨rfl,rfl⟩

theorem Balance.trans (h : Balance inp out gone x y) (h' : Balance inp' out' gone' y z) :
    Balance (inp+inp') (out+out') (gone+gone') x z := by
  have hsplit : z+(out+out'+(gone+gone'),0)=z+(out'+gone',0)+(out+gone,0) := by
    ext <;> simp only [Prod.fst_add,Prod.snd_add] <;> abel
  have hmove : y+(inp',gone')+(out+gone,0)=y+(out+gone,0)+(inp',gone') := add_right_comm _ _ _
  unfold Balance
  rw [hsplit,h',hmove,h]
  ext <;> simp only [Prod.fst_add,Prod.snd_add] <;> abel

/-- What was given out is spent after all. -/
theorem Balance.spend_out (h : Balance inp out gone x y) :
    Balance inp 0 (gone+out) x (y.1,y.2+out) := by
  refine balance_iff.mpr ⟨?_,?_⟩
  · rw [zero_add,add_comm gone]
    exact h.held
  · change y.2+out=x.2+(gone+out)
    rw [h.spent,add_assoc]

/-- A balance of a part next to a rest that stays is one of both. -/
theorem Balance.beside (h : Balance inp out gone x y) (rest : Ledger M) :
    Balance inp out gone (rest+x) (rest+y) := by
  unfold Balance
  rw [add_assoc,h,add_assoc]

end Balances

section Parts

variable [AddCancelCommMonoid M] {x y whole whole' : Ledger M} {inp out gone : M}

/-- What was given out of the part is given out of a whole that exchanged it. -/
theorem Balance.of_part (h : Balance inp out gone x y) (he : whole'+x=whole+y) :
    Balance inp out gone whole whole' := by
  refine add_right_cancel (b:=x) ?_
  have hl : whole'+(out+gone,0)+x=whole'+x+(out+gone,0) := add_right_comm _ _ _
  rw [hl,he,add_assoc,h,←add_assoc]
  exact add_right_comm _ _ _

/-- What came in and was given out again does not count. -/
theorem Balance.cancel {a : M} (h : Balance a a 0 x y) : Balance 0 0 0 x y := by
  refine balance_iff.mpr ⟨?_,h.spent⟩
  have hh := h.held
  rw [add_zero] at hh
  rw [add_zero,add_zero,add_zero]
  exact add_right_cancel hh

/-- Replacing an entry of a list by a balanced one balances their sum. -/
theorem Balance.of_entry {f : α → Ledger M} {l : List α} {i : ℕ} {a b : α} (hl : l[i]?=some a)
    (h : Balance inp out gone (f a) (f b)) :
    Balance inp out gone (l.map f).sum ((l.set i b).map f).sum :=
  h.of_part (sum_set f hl b)

end Parts

section Runs

variable [AddCommMonoid M] {step : A → S → S} {ok : A → S → Prop} {ledger : S → Ledger M}
  {inp out : A → S → M} {as : List A} {s : S}

/-- An amount added up along a run. -/
def alongSum (step : A → S → S) (amount : A → S → M) : List A → S → M
  | [],_ => 0
  | a::as,s => amount a s+alongSum step amount as (step a s)

/-- When every allowed step balances, so does a run, by what its steps add up to. -/
theorem balance_run {P : S → Prop} (ha : Along step ok as s)
    (hP : ∀ a t,ok a t → P t → P (step a t))
    (hstep : ∀ a t,ok a t → P t →
      ∃ gone,Balance (inp a t) (out a t) gone (ledger t) (ledger (step a t))) (hs : P s) :
    ∃ gone,Balance (alongSum step inp as s) (alongSum step out as s) gone (ledger s)
      (ledger (runAll step as s)) := by
  induction as generalizing s with
  | nil => exact ⟨0,Balance.refl _⟩
  | cons a as ih =>
    obtain ⟨gone,h⟩ := hstep a s ha.1 hs
    obtain ⟨rest,hrest⟩ := ih ha.2 (hP a s ha.1 hs)
    exact ⟨gone+rest,h.trans hrest⟩

end Runs

end XynokEcs.Ledgers
