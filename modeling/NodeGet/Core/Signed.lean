import Mathlib.Order.Basic

/-! `i64`: its range, its saturating operations and how it is read from a text. -/
namespace NodeGet.Core

def i64Min : Int := -9223372036854775808

def i64Max : Int := 9223372036854775807

/-- A difference that fits is computed as such. -/
theorem toInt_sub_of_fits {a b : Int64} (hmin : i64Min ≤ a.toInt - b.toInt) (hmax : a.toInt - b.toInt ≤ i64Max) :
    (a - b).toInt = a.toInt - b.toInt := by
  simp only [i64Min, i64Max] at hmin hmax
  rw [Int64.toInt_sub]
  apply Int.bmod_eq_of_le <;> omega

/-- `u64::cast_signed` takes the upper half of the range to the negative numbers. -/
theorem toInt_toInt64 (x : UInt64) :
    x.toInt64.toInt = if (x.toNat : Int) ≤ i64Max then (x.toNat : Int) else x.toNat - 18446744073709551616 := by
  have hbits : x.toInt64.toInt = x.toBitVec.toInt := rfl
  rw [hbits, BitVec.toInt_eq_toNat_cond, UInt64.toNat_toBitVec]
  by_cases h : (x.toNat : Int) ≤ i64Max
  · rw [if_pos h]
    simp only [i64Max] at h
    rw [if_pos (by omega)]
  · rw [if_neg h]
    simp only [i64Max] at h
    rw [if_neg (by omega)]
    omega

/-- `i64::saturating_add` -/
def saturatingAddI64 (a b : Int64) : Int64 := Int64.ofInt (max i64Min (min i64Max (a.toInt + b.toInt)))

/-- `i64::saturating_sub` -/
def saturatingSubI64 (a b : Int64) : Int64 := Int64.ofInt (max i64Min (min i64Max (a.toInt - b.toInt)))

theorem toInt_saturatingSubI64 (a b : Int64) :
    (saturatingSubI64 a b).toInt = max i64Min (min i64Max (a.toInt - b.toInt)) := by
  apply Int64.toInt_ofInt_of_le <;> simp only [i64Min, i64Max] <;> omega

/-- Nothing is less than a difference that saturates at the least value, so saturation does
not show when the subtrahend is not negative. -/
theorem lt_saturatingSubI64 {t a b : Int64} (hb : 0 ≤ b.toInt) :
    t < saturatingSubI64 a b ↔ t.toInt < a.toInt - b.toInt := by
  have := a.toInt_lt
  have := t.le_toInt
  rw [Int64.lt_iff_toInt_lt, toInt_saturatingSubI64]
  simp only [i64Min, i64Max]
  omega

theorem max_eq_ite (a b : Int64) : max a b = if a ≤ b then b else a := rfl

instance instLawfulOrderMaxInt64 : Std.LawfulOrderMax Int64 := by
  refine .of_max_le_iff ?_ ?_
  · intro a b c
    rw [max_eq_ite]
    split
    next h => exact ⟨fun hbc => ⟨Int64.le_trans h hbc, hbc⟩, fun hboth => hboth.2⟩
    next h =>
      have hba := Int64.le_of_lt (Int64.not_le.mp h)
      exact ⟨fun hac => ⟨hac, Int64.le_trans hba hac⟩, fun hboth => hboth.1⟩
  · intro a b
    rw [max_eq_ite]
    split
    · exact .inr rfl
    · exact .inl rfl

def i64OfInt (value : Int) : Option Int64 :=
  if i64Min ≤ value ∧ value ≤ i64Max then some (Int64.ofInt value) else none

/-- The number a non-empty text of decimal digits denotes. -/
def parseDigits (digits : List Char) : Option Nat :=
  if digits = [] then none
  else digits.foldlM (fun n c => if '0' ≤ c ∧ c ≤ '9' then some (10 * n + (c.toNat - 48)) else none) 0

/-- `str::parse::<i64>` -/
def parseI64 : List Char → Option Int64
  | '+' :: digits => (parseDigits digits).bind fun n => i64OfInt n
  | '-' :: digits => (parseDigits digits).bind fun n => i64OfInt (-n)
  | digits => (parseDigits digits).bind fun n => i64OfInt n

end NodeGet.Core
