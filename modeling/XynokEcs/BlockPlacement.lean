import Mathlib

/-!
# Blocks placed one after another

Each block starts at the next multiple of its alignment. Blocks placed this way
never overlap, and where the last one ends grows with every size: it is at least
the sum of the sizes, and passes it by less than the alignments add up to.
-/

namespace XynokEcs.BlockPlacement

/-- The next multiple of an alignment. -/
def roundUp (x a : ℕ) : ℕ := (x+a-1)/a*a

section Rounding

variable {x y a : ℕ}

/-- Rounding up comes to a multiple. -/
theorem dvd_roundUp (x a : ℕ) : a ∣ roundUp x a := Nat.dvd_mul_left a _

/-- It does not come below. -/
theorem le_roundUp (ha : 0 < a) : x ≤ roundUp x a := by
  have := Nat.div_add_mod (x+a-1) a
  have := Nat.mod_lt (x+a-1) ha
  rw [roundUp,Nat.mul_comm]
  omega

/-- It comes to the next multiple. -/
theorem roundUp_lt (ha : 0 < a) : roundUp x a < x+a := by
  have := Nat.div_mul_le_self (x+a-1) a
  rw [roundUp]
  omega

/-- It keeps the order. -/
theorem roundUp_mono (h : x ≤ y) : roundUp x a ≤ roundUp y a :=
  Nat.mul_le_mul_right a (Nat.div_le_div_right (by omega))

/-- A multiple stays. -/
theorem roundUp_eq_self (ha : 0 < a) (h : a ∣ x) : roundUp x a=x := by
  obtain ⟨k,rfl⟩ := h
  have hlt := roundUp_lt (x:=a*k) ha
  have hle := le_roundUp (x:=a*k) ha
  obtain ⟨m,hm⟩ := dvd_roundUp (a*k) a
  rw [hm] at hlt hle ⊢
  have h1 : k ≤ m := Nat.le_of_mul_le_mul_left hle ha
  have h2 : m < k+1 := Nat.lt_of_mul_lt_mul_left (a:=a) (by rw [Nat.mul_add,Nat.mul_one]; exact hlt)
  have : m=k := by omega
  rw [this]

end Rounding

/-- A block to be placed. -/
structure Block where
  /-- What the start of the block is a multiple of. -/
  align : ℕ
  /-- How many bytes the block takes. -/
  size : ℕ
deriving DecidableEq

/-- Where the blocks start. -/
def offsets : ℕ → List Block → List ℕ
  | _,[] => []
  | c,b::bs => roundUp c b.align::offsets (roundUp c b.align+b.size) bs

/-- Where the last block ends. -/
def finish : ℕ → List Block → ℕ
  | c,[] => c
  | c,b::bs => finish (roundUp c b.align+b.size) bs

section Placing

variable {c d : ℕ} {bs cs : List Block}

/-- Each block has an offset. -/
@[simp] theorem length_offsets (c : ℕ) (bs : List Block) : (offsets c bs).length=bs.length := by
  induction bs generalizing c with
  | nil => rfl
  | cons b bs ih => rw [offsets,List.length_cons,List.length_cons,ih]

/-- Blocks are placed list by list. -/
theorem offsets_append (c : ℕ) (bs cs : List Block) :
    offsets c (bs++cs)=offsets c bs++offsets (finish c bs) cs := by
  induction bs generalizing c with
  | nil => rfl
  | cons b bs ih => rw [List.cons_append,offsets,offsets,finish,ih,List.cons_append]

/-- The second of two lists ends where both do. -/
theorem finish_append (c : ℕ) (bs cs : List Block) :
    finish c (bs++cs)=finish (finish c bs) cs := by
  induction bs generalizing c with
  | nil => rfl
  | cons b bs ih => rw [List.cons_append,finish,finish,ih]

/-- Placing moves forward. -/
theorem le_finish (h : ∀ b∈bs,0 < b.align) : c ≤ finish c bs := by
  induction bs generalizing c with
  | nil => exact Nat.le_refl c
  | cons b bs ih =>
    have hb := le_roundUp (x:=c) (h b List.mem_cons_self)
    have hrest := ih (c:=roundUp c b.align+b.size) fun b hm => h b (List.mem_cons_of_mem _ hm)
    rw [finish]
    omega

/-- A placed block: where it starts, and what it is. -/
def placed (c : ℕ) (bs : List Block) : List (ℕ×Block) := (offsets c bs).zip bs

theorem placed_cons (c : ℕ) (b : Block) (bs : List Block) :
    placed c (b::bs)=(roundUp c b.align,b)::placed (roundUp c b.align+b.size) bs := rfl

/-- Every block is aligned, starts after the beginning and ends before the end. -/
theorem placed_inside (h : ∀ b∈bs,0 < b.align) : ∀ p∈placed c bs,
    p.2.align ∣ p.1 ∧ c ≤ p.1 ∧ p.1+p.2.size ≤ finish c bs := by
  induction bs generalizing c with
  | nil => exact fun p hp => absurd hp List.not_mem_nil
  | cons b bs ih =>
    have hb := le_roundUp (x:=c) (h b List.mem_cons_self)
    have hrest : ∀ b∈bs,0 < b.align := fun b hm => h b (List.mem_cons_of_mem _ hm)
    intro p hp
    rw [placed_cons] at hp
    obtain rfl | hp := List.mem_cons.mp hp
    · exact ⟨dvd_roundUp c b.align,hb,le_finish hrest⟩
    · obtain ⟨h1,h2,h3⟩ := ih hrest p hp
      exact ⟨h1,by omega,h3⟩

/-- No block starts before an earlier one ends. -/
theorem placed_disjoint (h : ∀ b∈bs,0 < b.align) :
    (placed c bs).Pairwise fun p q => p.1+p.2.size ≤ q.1 := by
  induction bs generalizing c with
  | nil => exact List.Pairwise.nil
  | cons b bs ih =>
    have hrest : ∀ b∈bs,0 < b.align := fun b hm => h b (List.mem_cons_of_mem _ hm)
    rw [placed_cons,List.pairwise_cons]
    exact ⟨fun p hp => (placed_inside hrest p hp).2.1,ih hrest⟩

/-- Smaller blocks end earlier. -/
theorem finish_mono (h : List.Forall₂ (fun b b' => b.align=b'.align ∧ b.size ≤ b'.size) bs cs)
    (hc : c ≤ d) : finish c bs ≤ finish d cs := by
  induction h generalizing c d with
  | nil => exact hc
  | cons hb _ ih =>
    refine ih (Nat.add_le_add ?_ hb.2)
    rw [hb.1]
    exact roundUp_mono hc

/-- The end leaves room for every block. -/
theorem sum_le_finish (h : ∀ b∈bs,0 < b.align) : c+(bs.map Block.size).sum ≤ finish c bs := by
  induction bs generalizing c with
  | nil => exact Nat.le_refl _
  | cons b bs ih =>
    have hb := le_roundUp (x:=c) (h b List.mem_cons_self)
    have hrest := ih (c:=roundUp c b.align+b.size) fun b hm => h b (List.mem_cons_of_mem _ hm)
    rw [List.map_cons,List.sum_cons,finish]
    omega

/-- Only alignment wastes room. -/
theorem finish_le_sum (h : ∀ b∈bs,0 < b.align) :
    finish c bs ≤ c+(bs.map Block.size).sum+(bs.map Block.align).sum := by
  induction bs generalizing c with
  | nil => exact Nat.le_refl _
  | cons b bs ih =>
    have hb := roundUp_lt (x:=c) (h b List.mem_cons_self)
    have hrest := ih (c:=roundUp c b.align+b.size) fun b hm => h b (List.mem_cons_of_mem _ hm)
    rw [List.map_cons,List.sum_cons,List.map_cons,List.sum_cons,finish]
    omega

/-- The end is the largest end of a block, once there is one. -/
theorem finish_eq_max (h : ∀ b∈bs,0 < b.align) :
    ((placed c bs).map fun p => p.1+p.2.size).foldl max c=finish c bs := by
  induction bs generalizing c with
  | nil => rfl
  | cons b bs ih =>
    have hb := le_roundUp (x:=c) (h b List.mem_cons_self)
    have hrest := ih (c:=roundUp c b.align+b.size) fun b hm => h b (List.mem_cons_of_mem _ hm)
    have hmax : max c (roundUp c b.align+b.size)=roundUp c b.align+b.size := by omega
    rw [placed_cons,List.map_cons,List.foldl_cons,hmax,finish]
    exact hrest

end Placing

end XynokEcs.BlockPlacement
