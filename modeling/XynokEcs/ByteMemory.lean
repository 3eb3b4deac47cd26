import Mathlib.Data.UInt
import Mathlib.Data.Nat.Bitwise
import Mathlib.Data.List.Basic
import Mathlib.Tactic.IntervalCases

/-!
# Bytes behind a pointer

A memory gives every offset a byte. A span of it is read and filled as a list of
bytes, an integer is stored with its low byte first, and a bit is one of the eight
of its byte. Filling a span or setting a bit says exactly what is read afterwards.
-/

namespace XynokEcs.ByteMemory

/-- The bytes behind a pointer, by offset. -/
abbrev Memory := ℕ → UInt8

section Spans

variable {m m' : Memory} {start size : ℕ} {bs : List UInt8}

/-- The bytes of a span. -/
def span (m : Memory) (start size : ℕ) : List UInt8 := (List.range size).map fun i => m (start+i)

/-- Overwrite a span. -/
def fill (m : Memory) (start : ℕ) (bs : List UInt8) : Memory := fun a =>
  if start ≤ a ∧ a < start+bs.length then bs.getD (a-start) 0 else m a

@[simp] theorem length_span (m : Memory) (start size : ℕ) : (span m start size).length=size := by
  rw [span,List.length_map,List.length_range]

theorem span_congr (h : ∀ a,start ≤ a → a < start+size → m a=m' a) :
    span m start size=span m' start size := by
  refine List.map_congr_left fun i hi => h _ (Nat.le_add_right start i) ?_
  have := List.mem_range.mp hi
  omega

/-- A filled span holds what it was filled with. -/
theorem span_fill (h : bs.length=size) : span (fill m start bs) start size=bs := by
  subst h
  refine List.ext_getElem (length_span _ _ _) fun i hi hb => ?_
  have hin : start ≤ start+i ∧ start+i < start+bs.length := ⟨Nat.le_add_right start i,by omega⟩
  have hsub : start+i-start=i := by omega
  simp only [span,List.getElem_map,List.getElem_range]
  rw [fill,if_pos hin,hsub,List.getD_eq_getElem?_getD,List.getElem?_eq_getElem hb,Option.getD_some]

/-- Every other byte stays. -/
theorem fill_outside {a : ℕ} (h : a < start ∨ start+bs.length ≤ a) : fill m start bs a=m a :=
  if_neg (by omega)

/-- A span that was not touched reads as before. -/
theorem span_fill_outside {other : ℕ} (h : other+size ≤ start ∨ start+bs.length ≤ other) :
    span (fill m start bs) other size=span m other size :=
  span_congr fun a ha hb => fill_outside (by omega)

end Spans

section Integers

/-- The number some bytes stand for, low byte first. -/
def ofBytes : List UInt8 → ℕ
  | [] => 0
  | b::bs => b.toNat+2^8*ofBytes bs

/-- The bytes of a number, low byte first. -/
def toBytes : ℕ → ℕ → List UInt8
  | 0,_ => []
  | k+1,n => UInt8.ofNat n::toBytes k (n/2^8)

@[simp] theorem length_toBytes (k n : ℕ) : (toBytes k n).length=k := by
  induction k generalizing n with
  | zero => rfl
  | succ k ih => rw [toBytes,List.length_cons,ih]

/-- A number that fits its bytes comes back. -/
theorem ofBytes_toBytes {k n : ℕ} (h : n < (2^8)^k) : ofBytes (toBytes k n)=n := by
  induction k generalizing n with
  | zero =>
    rw [pow_zero] at h
    rw [toBytes,ofBytes]
    omega
  | succ k ih =>
    have hrest : n/2^8 < (2^8)^k := by
      rw [pow_succ] at h
      exact Nat.div_lt_of_lt_mul (by rw [Nat.mul_comm]; exact h)
    rw [toBytes,ofBytes,ih hrest,UInt8.toNat_ofNat']
    exact Nat.mod_add_div n (2^8)

end Integers

section Bits

variable {b : UInt8} {i j : ℕ}

/-- One bit of a byte: `(byte >> i) & 1 == 1`. -/
def bitOf (b : UInt8) (i : ℕ) : Bool := (b >>> UInt8.ofNat i) &&& 1==1

/-- A byte with one bit set or cleared, through the mask `1u8 << i`. -/
def withBit (b : UInt8) (i : ℕ) (value : Bool) : UInt8 :=
  if value then b ||| (1<<<UInt8.ofNat i) else b &&& ~~~(1<<<UInt8.ofNat i)

theorem bitOf_eq (b : UInt8) (hi : i<8) : bitOf b i=b.toNat.testBit i := by
  have hnat : (UInt8.ofNat i).toNat=i := by
    rw [UInt8.toNat_ofNat']
    omega
  have hshift : (b >>> UInt8.ofNat i).toNat=b.toNat/2^i := by
    rw [UInt8.toNat_shiftRight,hnat,Nat.mod_eq_of_lt hi,Nat.shiftRight_eq_div_pow]
  rw [Bool.eq_iff_iff,bitOf,beq_iff_eq,←UInt8.toNat_inj,UInt8.toNat_and,hshift,
    Nat.testBit_eq_decide_div_mod_eq,decide_eq_true_eq]
  exact iff_of_eq (congrArg (·=1) (Nat.and_one_is_mod _))

/-- Setting a bit of a byte sets that one of the eight. -/
theorem bitOf_withBit (b : UInt8) (value : Bool) (hi : i<8) (hj : j<8) :
    bitOf (withBit b i value) j=if j=i then value else bitOf b j := by
  rw [bitOf_eq _ hj,bitOf_eq _ hj]
  cases value
  · have hmask : (~~~((1 : UInt8)<<<UInt8.ofNat i)).toNat.testBit j=!decide (j=i) := by
      interval_cases i <;> interval_cases j <;> decide
    rw [withBit,if_neg Bool.false_ne_true,UInt8.toNat_and,Nat.testBit_and,hmask]
    by_cases h : j=i <;> simp [h]
  · have hmask : ((1 : UInt8)<<<UInt8.ofNat i).toNat.testBit j=decide (j=i) := by
      interval_cases i <;> interval_cases j <;> decide
    rw [withBit,if_pos rfl,UInt8.toNat_or,Nat.testBit_or,hmask]
    by_cases h : j=i <;> simp [h]

end Bits

end XynokEcs.ByteMemory
