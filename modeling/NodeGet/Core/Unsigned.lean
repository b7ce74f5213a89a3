import Mathlib.Algebra.Order.Ring.Nat

/-! The saturating operations of `u64`. -/
namespace NodeGet.Core

def u64Max : Nat := 2 ^ 64 - 1

def saturatingAdd (a b : UInt64) : UInt64 := UInt64.ofNat (min (a.toNat + b.toNat) u64Max)

def saturatingSub (a b : UInt64) : UInt64 := UInt64.ofNat (a.toNat - b.toNat)

def saturatingMul (a b : UInt64) : UInt64 := UInt64.ofNat (min (a.toNat * b.toNat) u64Max)

@[simp] theorem toNat_saturatingAdd (a b : UInt64) :
    (saturatingAdd a b).toNat = min (a.toNat + b.toNat) u64Max := by
  apply UInt64.toNat_ofNat_of_lt'
  simp only [UInt64.size, u64Max]
  omega

@[simp] theorem toNat_saturatingSub (a b : UInt64) : (saturatingSub a b).toNat = a.toNat - b.toNat := by
  apply UInt64.toNat_ofNat_of_lt'
  have := a.toNat_lt
  simp only [UInt64.size]
  omega

@[simp] theorem toNat_saturatingMul (a b : UInt64) :
    (saturatingMul a b).toNat = min (a.toNat * b.toNat) u64Max := by
  apply UInt64.toNat_ofNat_of_lt'
  simp only [UInt64.size, u64Max]
  omega

theorem le_saturatingAdd (a b : UInt64) : a ≤ saturatingAdd a b := by
  rw [UInt64.le_iff_toNat_le, toNat_saturatingAdd]
  have := a.toNat_lt
  simp only [u64Max]
  omega

@[simp] theorem saturatingAdd_zero (a : UInt64) : saturatingAdd a 0 = a := by
  apply UInt64.toNat.inj
  rw [toNat_saturatingAdd]
  have := a.toNat_lt
  simp only [u64Max, UInt64.toNat_zero]
  omega

@[simp] theorem saturatingSub_self (a : UInt64) : saturatingSub a a = 0 := by
  apply UInt64.toNat.inj
  rw [toNat_saturatingSub, Nat.sub_self, UInt64.toNat_zero]

end NodeGet.Core
