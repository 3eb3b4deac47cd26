import XynokEcs.ComponentTypes
import Mathlib.Data.UInt
import Mathlib.Tactic.Linarith

/-!
# Entity handles packed into one word

Bits 0 to 40 hold the slot index, bits 40 to 64 the version. Packing refuses an
index or a version past its field and lifts version 0, which belongs to the
null handle. A handle is determined by its two fields.
-/

namespace XynokEcs.EntityHandle

open ComponentTypes

/-- Stores an index and a version, packed into a `u64`. -/
structure Entity where
  /-- The packed word. -/
  raw : UInt64
deriving DecidableEq

namespace Entity

/-- An empty entity: index 0, version 0. -/
def null : Entity := ⟨0⟩

/-- `INITIALIZE_VERSION`. -/
def initializeVersion : ℕ := 1

/-- `IDX_BITS`. -/
def idxBits : UInt64 := 40

/-- `VERSION_BITS`. -/
def versionBits : UInt64 := 24

/-- `IDX_MASK`. -/
def idxMask : UInt64 := (1<<< idxBits)-1

/-- `VERSION_MASK`. -/
def versionMask : UInt64 := (1<<<versionBits)-1

/-- `MAX_IDX`, the largest index a handle can name. -/
def maxIdx : ℕ := idxMask.toNat

/-- `MAX_VERSION`, the largest version a handle can carry. -/
def maxVersion : ℕ := versionMask.toNat

/-- Pack an index and a version. Past its maximum either is refused; below the
initial version the version is lifted. -/
def new (idx version : ℕ) : Except XynokEcsError Entity :=
  if idx>maxIdx then .error (.entityAmountOverflow maxIdx)
  else if version>maxVersion then .error (.entityVersionOverflow idx maxVersion)
  else
    let version := max version initializeVersion
    .ok ⟨(UInt64.ofNat idx &&& idxMask) ||| ((UInt64.ofNat version &&& versionMask)<<< idxBits)⟩

/-- The slot index of a handle. -/
def idx (e : Entity) : ℕ := (e.raw &&& idxMask).toNat

/-- The version of a handle. -/
def version (e : Entity) : ℕ := ((e.raw>>>idxBits) &&& versionMask).toNat

theorem maxIdx_eq : maxIdx=2^40-1 := by decide

theorem maxVersion_eq : maxVersion=2^24-1 := by decide

/-- The index is the low 40 bits of the word. -/
theorem idx_eq_mod (e : Entity) : e.idx=e.raw.toNat%2^40 := by
  have hm : idxMask.toNat=2^40-1 := by decide
  rw [idx,UInt64.toNat_and,hm,Nat.and_two_pow_sub_one_eq_mod]

/-- The version is what is left above them. -/
theorem version_eq_div (e : Entity) : e.version=e.raw.toNat/2^40 := by
  have hm : versionMask.toNat=2^24-1 := by decide
  have hb : idxBits.toNat%64=40 := by decide
  have hlt := e.raw.toNat_lt
  rw [version,UInt64.toNat_and,hm,Nat.and_two_pow_sub_one_eq_mod,UInt64.toNat_shiftRight,hb,
    Nat.shiftRight_eq_div_pow]
  exact Nat.mod_eq_of_lt (by omega)

/-- A handle is determined by its index and its version. -/
theorem ext_fields {e f : Entity} (hi : e.idx=f.idx) (hv : e.version=f.version) : e=f := by
  rw [idx_eq_mod,idx_eq_mod] at hi
  rw [version_eq_div,version_eq_div] at hv
  have hn : e.raw.toNat=f.raw.toNat := by omega
  cases e
  cases f
  exact congrArg mk (UInt64.toNat_inj.mp hn)

/-- The word that packing builds out of fields in range. -/
theorem packed_toNat {i v : ℕ} (hi : i ≤ maxIdx) (hv : v ≤ maxVersion) :
    ((UInt64.ofNat i &&& idxMask) ||| ((UInt64.ofNat v &&& versionMask)<<< idxBits)).toNat=
      i+v*2^40 := by
  have hm : idxMask.toNat=2^40-1 := by decide
  have hm' : versionMask.toNat=2^24-1 := by decide
  have hb : idxBits.toNat%64=40 := by decide
  rw [maxIdx_eq] at hi
  rw [maxVersion_eq] at hv
  have hI : (UInt64.ofNat i &&& idxMask).toNat=i := by
    rw [UInt64.toNat_and,hm,Nat.and_two_pow_sub_one_eq_mod,UInt64.toNat_ofNat']
    omega
  have hV : ((UInt64.ofNat v &&& versionMask)<<< idxBits).toNat=v<<<40 := by
    rw [UInt64.toNat_shiftLeft,hb,UInt64.toNat_and,hm',Nat.and_two_pow_sub_one_eq_mod,
      UInt64.toNat_ofNat']
    have he : v%2^64%2^24=v := by omega
    rw [he,Nat.shiftLeft_eq]
    exact Nat.mod_eq_of_lt (by omega)
  rw [UInt64.toNat_or,hI,hV,Nat.or_comm,←Nat.shiftLeft_add_eq_or_of_lt (by omega),Nat.shiftLeft_eq,
    Nat.add_comm]

/-- Packing gives back both fields, the version lifted to the initial one. -/
theorem new_fields {i v : ℕ} {e : Entity} (h : new i v=.ok e) :
    e.idx=i ∧ e.version=max v 1 := by
  unfold new at h
  split at h
  · cases h
  · rename_i hi
    split at h
    · cases h
    · rename_i hv
      cases h
      have hmax : max v initializeVersion ≤ maxVersion := by
        have := maxVersion_eq
        simp only [initializeVersion]
        omega
      have hp := packed_toNat (Nat.le_of_not_gt hi) hmax
      have := maxIdx_eq
      constructor
      · rw [idx_eq_mod,hp]
        omega
      · rw [version_eq_div,hp]
        simp only [initializeVersion]
        omega

/-- Packing succeeds exactly on the two ranges. -/
theorem new_isOk_iff {i v : ℕ} : (∃ e,new i v=.ok e) ↔ i ≤ maxIdx ∧ v ≤ maxVersion := by
  unfold new
  split
  · rename_i h
    constructor
    · rintro ⟨e,he⟩
      cases he
    · rintro ⟨hi,-⟩
      exact absurd h (Nat.not_lt.mpr hi)
  · rename_i h
    split
    · rename_i h'
      constructor
      · rintro ⟨e,he⟩
        cases he
      · rintro ⟨-,hv⟩
        exact absurd h' (Nat.not_lt.mpr hv)
    · rename_i h'
      exact ⟨fun _ => ⟨Nat.le_of_not_gt h,Nat.le_of_not_gt h'⟩,fun _ => ⟨_,rfl⟩⟩

/-- A packed handle with a version of at least 1 is not the null handle. -/
theorem ne_null_of_version {e : Entity} (h : 1≤e.version) : e≠null := by
  rintro rfl
  have hz : null.version=0 := by decide
  omega

/-- Packing the fields of a handle that was packed gives the handle back. -/
theorem new_of_new {i v : ℕ} {e : Entity} (h : new i v=.ok e) : new e.idx e.version=.ok e := by
  obtain ⟨hidx,hversion⟩ := new_fields h
  obtain ⟨hi,hv⟩ := new_isOk_iff.mp ⟨e,h⟩
  have hmax : max v 1 ≤ maxVersion := by
    have := maxVersion_eq
    omega
  obtain ⟨e',he'⟩ := new_isOk_iff.mpr ⟨hi,hmax⟩
  obtain ⟨hidx',hversion'⟩ := new_fields he'
  have hsame : e'=e := ext_fields (hidx'.trans hidx.symm) (by omega)
  rw [hidx,hversion,he',hsame]

/-- Packing refuses what is past a field and nothing else. What it packs gives
back its fields, is never null, is packed from no other fields, and packs again
to the same word. -/
theorem packing_faithful (i v : ℕ) :
    ((∃ err,new i v=.error err) ↔ i>2^40-1 ∨ v>2^24-1) ∧
    ∀ e,new i v=.ok e →
      e.idx=i ∧ e.version=max v 1 ∧ e≠null ∧ new e.idx e.version=.ok e ∧
      ∀ j u e',new j u=.ok e' → e.raw=e'.raw → 1 ≤ v → 1 ≤ u → i=j ∧ v=u := by
  refine ⟨?_,fun e h => ?_⟩
  · have hiff := new_isOk_iff (i:=i) (v:=v)
    rw [maxIdx_eq,maxVersion_eq] at hiff
    cases hn : new i v with
    | error err =>
      have hout : ¬(i ≤ 2^40-1 ∧ v ≤ 2^24-1) := by
        intro hin
        obtain ⟨e,he⟩ := hiff.mpr hin
        cases hn.symm.trans he
      exact ⟨fun _ => by omega,fun _ => ⟨err,rfl⟩⟩
    | ok e =>
      have hin := hiff.mp ⟨e,hn⟩
      constructor
      · intro ⟨err,herr⟩
        cases herr
      · intro hout
        omega
  · obtain ⟨hidx,hversion⟩ := new_fields h
    refine ⟨hidx,hversion,ne_null_of_version (by omega),new_of_new h,fun j u e' h' hraw hv hu => ?_⟩
    obtain ⟨hidx',hversion'⟩ := new_fields h'
    have hsame : e=e' := by
      cases e
      cases e'
      exact congrArg mk hraw
    rw [hsame] at hidx hversion
    omega

end Entity

end XynokEcs.EntityHandle
