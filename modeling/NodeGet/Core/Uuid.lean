import Mathlib.Data.BitVec

/-! Agent identifiers and their text: 32 hexadecimal digits in groups of 8, 4, 4,
4 and 12. -/
namespace NodeGet.Core

abbrev Uuid := BitVec 128

/-- The `k`-th hexadecimal digit from the left. -/
def Uuid.digit (uuid : Uuid) (k : Nat) : Char :=
  let n := uuid.toNat / 16 ^ (31 - k) % 16
  Char.ofNat (if n < 10 then 48 + n else 87 + n)

/-- `Uuid::to_string` -/
def Uuid.text (uuid : Uuid) : String :=
  let group (start count : Nat) := (List.range count).map fun k => Uuid.digit uuid (start + k)
  String.ofList (group 0 8 ++ '-' :: group 8 4 ++ '-' :: group 12 4 ++ '-' :: group 16 4 ++
    '-' :: group 20 12)

theorem hexDigit_injective {m n : Nat} (hm : m < 16) (hn : n < 16)
    (h : Char.ofNat (if m < 10 then 48 + m else 87 + m) = Char.ofNat (if n < 10 then 48 + n else 87 + n)) : m = n := by
  have hall : ∀ m < 16, ∀ n < 16, Char.ofNat (if m < 10 then 48 + m else 87 + m) =
      Char.ofNat (if n < 10 then 48 + n else 87 + n) → m = n := by decide
  exact hall m hm n hn h

/-- The bits of a number, four at a time. -/
theorem testBit_nibble (n i : Nat) : n.testBit i = (n / 16 ^ (i / 4) % 16).testBit (i % 4) := by
  have hpow : 16 ^ (i / 4) = 2 ^ (4 * (i / 4)) := (Nat.pow_mul 2 4 (i / 4)).symm
  rw [hpow, show 16 = 2 ^ 4 from rfl, Nat.testBit_mod_two_pow, Nat.testBit_div_two_pow, Nat.mod_add_div,
    decide_eq_true (Nat.mod_lt i (by decide)), Bool.true_and]

/-- An identifier is known by its digits. -/
theorem Uuid.eq_of_digits {a b : Uuid} (h : ∀ k < 32, Uuid.digit a k = Uuid.digit b k) : a = b := by
  have hnibble : ∀ k < 32, a.toNat / 16 ^ k % 16 = b.toNat / 16 ^ k % 16 := by
    intro k hk
    have hdigit := h (31 - k) (by omega)
    rw [Uuid.digit, Uuid.digit, show 31 - (31 - k) = k by omega] at hdigit
    exact hexDigit_injective (Nat.mod_lt _ (by decide)) (Nat.mod_lt _ (by decide)) hdigit
  apply BitVec.eq_of_toNat_eq
  apply Nat.eq_of_testBit_eq
  intro i
  by_cases hi : i < 128
  · rw [testBit_nibble, hnibble (i / 4) (by omega), ← testBit_nibble]
  · have hhigh : ∀ uuid : Uuid, uuid.toNat.testBit i = false := by
      intro uuid
      exact Nat.testBit_lt_two_pow (uuid.isLt.trans_le (Nat.pow_le_pow_right (by decide) (by omega)))
    rw [hhigh, hhigh]

/-- The text of an identifier says which one it is. -/
theorem Uuid.text_injective {a b : Uuid} (h : Uuid.text a = Uuid.text b) : a = b := by
  -- the five groups have the same lengths on both sides
  have hlist := String.ofList_injective h
  obtain ⟨hlist, h20⟩ := List.append_inj' hlist (by simp)
  obtain ⟨hlist, h16⟩ := List.append_inj' hlist (by simp)
  obtain ⟨hlist, h12⟩ := List.append_inj' hlist (by simp)
  obtain ⟨h0, h8⟩ := List.append_inj' hlist (by simp)
  have hgroup : ∀ {start count : Nat},
      (List.range count).map (fun k => Uuid.digit a (start + k)) =
        (List.range count).map (fun k => Uuid.digit b (start + k)) →
      ∀ k, start ≤ k → k < start + count → Uuid.digit a k = Uuid.digit b k := by
    intro start count heq k hstart hend
    have hk := List.map_inj_left.mp heq (k - start) (List.mem_range.mpr (by omega))
    rwa [Nat.add_sub_cancel' hstart] at hk
  apply Uuid.eq_of_digits
  intro k hk
  by_cases hk8 : k < 8
  · exact hgroup h0 k (by omega) (by omega)
  by_cases hk12 : k < 12
  · exact hgroup (List.cons.inj h8).2 k (by omega) (by omega)
  by_cases hk16 : k < 16
  · exact hgroup (List.cons.inj h12).2 k (by omega) (by omega)
  by_cases hk20 : k < 20
  · exact hgroup (List.cons.inj h16).2 k (by omega) (by omega)
  · exact hgroup (List.cons.inj h20).2 k (by omega) (by omega)

end NodeGet.Core
