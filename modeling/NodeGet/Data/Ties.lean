import Mathlib.Logic.Equiv.Basic
import NodeGet.Data.SortedHalves
import NodeGet.Data.Table

/-! `SELECT … ORDER BY … LIMIT n` when rows compare equal: the order of such rows is up to the
database, so any sorted list of the rows may be the one that is cut off after `n`.

A row is in every answer, or in none, as soon as its ties are all on one side of the cut. So all
answers have the same rows exactly when the cut splits no class of ties (`answers_agree_iff`):
otherwise a row before the cut can change places with a tie behind it. -/
namespace NodeGet.Data

variable {α : Type*} {le : α → α → Bool} {n : Nat} {rows answer : List α}

/-- What the statement may answer. -/
def Answers (le : α → α → Bool) (n : Nat) (rows answer : List α) : Prop :=
  ∃ sorted : List α, sorted.Perm rows ∧ (sorted.Pairwise fun a b => le a b = true) ∧ answer = sorted.take n

/-- The ties of a row are all before the cut or all behind it: with the rows strictly before them
they are at most `n`, or those alone are at least `n`. -/
def CutsNoTie (le : α → α → Bool) (n : Nat) (rows : List α) : Prop :=
  ∀ a ∈ rows, n ≤ rows.countP (fun b => !le a b) ∨ rows.countP (fun b => le b a) ≤ n

instance decidableCutsNoTie (le : α → α → Bool) (n : Nat) (rows : List α) : Decidable (CutsNoTie le n rows) :=
  inferInstanceAs (Decidable (∀ a ∈ rows, _ ∨ _))

/-- A comparison of which the order by keys of the database is an example. -/
structure Compares (le : α → α → Bool) : Prop where
  trans : ∀ a b c, le a b = true → le b c = true → le a c = true
  total : ∀ a b, (le a b || le b a) = true

namespace Compares

theorem refl (h : Compares le) (a : α) : le a a = true := by simpa using h.total a a

/-- Sorting is one way to answer. -/
theorem answers_mergeSort (h : Compares le) (n : Nat) (rows : List α) :
    Answers le n rows ((rows.mergeSort le).take n) :=
  ⟨_, List.mergeSort_perm rows le, List.pairwise_mergeSort h.trans h.total rows, rfl⟩

/-! ### Rows that are sure to be in, or out -/

variable {sorted : List α} {a x y : α}

theorem length_take_of_mem_drop (h : a ∈ sorted.drop n) : (sorted.take n).length = n := by
  have hlength := List.length_pos_of_mem h
  rw [List.length_drop] at hlength
  rw [List.length_take]
  omega

theorem mem_take_of_count_le (h : Compares le) (hsorted : sorted.Pairwise fun a b => le a b = true) (ha : a ∈ sorted)
    (hcount : sorted.countP (fun b => le b a) ≤ n) : a ∈ sorted.take n := by
  rw [← List.take_append_drop n sorted] at ha hsorted
  rcases List.mem_append.mp ha with hin | hout
  · exact hin
  · -- everything before the cut is at most `a`, and so is `a`
    have hbefore : (sorted.take n).countP (fun b => le b a) = n := by
      rw [List.countP_eq_length.mpr fun b hb => (List.pairwise_append.mp hsorted).2.2 b hb a hout]
      exact length_take_of_mem_drop hout
    have hself : 0 < (sorted.drop n).countP fun b => le b a := List.countP_pos_iff.mpr ⟨a, hout, h.refl a⟩
    rw [← List.take_append_drop n sorted, List.countP_append] at hcount
    omega

theorem notMem_take_of_le_count (h : Compares le) (hsorted : sorted.Pairwise fun a b => le a b = true)
    (hcount : n ≤ sorted.countP fun b => !le a b) : a ∉ sorted.take n := by
  intro hin
  rw [← List.take_append_drop n sorted] at hsorted
  -- what is strictly before `a` is before the cut, and `a` is not among it
  have hbehind : (sorted.drop n).countP (fun b => !le a b) = 0 := by
    refine List.countP_eq_zero.mpr fun b hb => ?_
    simp [(List.pairwise_append.mp hsorted).2.2 a hin b hb]
  have hbefore : (sorted.take n).countP (fun b => !le a b) < (sorted.take n).length := by
    refine lt_of_le_of_ne List.countP_le_length fun heq => ?_
    simpa [h.refl a] using List.countP_eq_length.mp heq a hin
  rw [← List.take_append_drop n sorted, List.countP_append, hbehind] at hcount
  have hlength := List.length_take_le n sorted
  omega

/-- Where the cut splits no ties, the rows of an answer are known. -/
theorem mem_answer_iff (h : Compares le) (hcut : CutsNoTie le n rows) (hanswer : Answers le n rows answer) (a : α) :
    a ∈ answer ↔ a ∈ rows ∧ rows.countP (fun b => le b a) ≤ n := by
  obtain ⟨sorted, hperm, hsorted, rfl⟩ := hanswer
  constructor
  · intro hin
    have ha : a ∈ rows := hperm.mem_iff.mp (List.mem_of_mem_take hin)
    refine ⟨ha, (hcut a ha).resolve_left fun hcount => ?_⟩
    rw [← hperm.countP_eq] at hcount
    exact h.notMem_take_of_le_count hsorted hcount hin
  · intro hcount
    rw [← hperm.countP_eq] at hcount
    exact h.mem_take_of_count_le hsorted (hperm.mem_iff.mpr hcount.1) hcount.2

/-! ### Two ties on both sides of the cut -/

theorem ne_of_mem_take_drop (hsorted : sorted.Nodup) (hx : x ∈ sorted.take n) (hy : y ∈ sorted.drop n) : x ≠ y := by
  rw [← List.take_append_drop n sorted] at hsorted
  exact (List.nodup_append.mp hsorted).2.2 x hx y hy

theorem exists_split_tie (h : Compares le) (hsorted : sorted.Pairwise fun a b => le a b = true)
    (hbefore : sorted.countP (fun b => !le a b) < n) (hcount : n < sorted.countP fun b => le b a) :
    ∃ x ∈ sorted.take n, ∃ y ∈ sorted.drop n, le x y = true ∧ le y x = true := by
  obtain ⟨y, hy, hya⟩ : ∃ y ∈ sorted.drop n, le y a = true := by
    refine List.countP_pos_iff.mp ?_
    have hle : (sorted.take n).countP (fun b => le b a) ≤ (sorted.take n).length := List.countP_le_length
    have hlength := List.length_take_le n sorted
    rw [← List.take_append_drop n sorted, List.countP_append] at hcount
    omega
  obtain ⟨x, hx, hax⟩ : ∃ x ∈ sorted.take n, le a x = true := by
    by_contra hnone
    simp only [not_exists, not_and, Bool.not_eq_true] at hnone
    have hall : (sorted.take n).countP (fun b => !le a b) = n := by
      rw [List.countP_eq_length.mpr fun b hb => by simp [hnone b hb]]
      exact length_take_of_mem_drop hy
    rw [← List.take_append_drop n sorted, List.countP_append] at hbefore
    omega
  rw [← List.take_append_drop n sorted] at hsorted
  exact ⟨x, hx, y, hy, (List.pairwise_append.mp hsorted).2.2 x hx y hy, h.trans y a x hya hax⟩

open Classical in
/-- Ties can change places. -/
theorem answers_swap (h : Compares le) (hperm : sorted.Perm rows) (hrows : rows.Nodup)
    (hsorted : sorted.Pairwise fun a b => le a b = true) (hx : x ∈ sorted) (hy : y ∈ sorted) (hxy : le x y = true)
    (hyx : le y x = true) : Answers le n rows ((sorted.take n).map (Equiv.swap x y)) := by
  have htie : ∀ z, le (Equiv.swap x y z) z = true ∧ le z (Equiv.swap x y z) = true := by
    intro z
    by_cases hzx : z = x
    · subst hzx
      rw [Equiv.swap_apply_left]
      exact ⟨hyx, hxy⟩
    · by_cases hzy : z = y
      · subst hzy
        rw [Equiv.swap_apply_right]
        exact ⟨hxy, hyx⟩
      · rw [Equiv.swap_apply_of_ne_of_ne hzx hzy]
        exact ⟨h.refl z, h.refl z⟩
  refine ⟨sorted.map (Equiv.swap x y), ?_, ?_, List.map_take⟩
  · have hnodup : sorted.Nodup := hperm.nodup_iff.mpr hrows
    have hswapped : (sorted.map (Equiv.swap x y)).Perm sorted := by
      refine (List.perm_ext_iff_of_nodup (hnodup.map (Equiv.swap x y).injective) hnodup).mpr fun z => ?_
      rw [List.mem_map]
      constructor
      · intro hz
        obtain ⟨w, hw, rfl⟩ := hz
        rw [Equiv.swap_apply_def]
        split
        · exact hy
        · split
          · exact hx
          · exact hw
      · intro hz
        refine ⟨Equiv.swap x y z, ?_, Equiv.swap_apply_self x y z⟩
        rw [Equiv.swap_apply_def]
        split
        · exact hy
        · split
          · exact hx
          · exact hz
    exact hswapped.trans hperm
  · refine List.pairwise_map.mpr (hsorted.imp fun {a b} hab => ?_)
    exact h.trans _ a _ (htie a).1 (h.trans a b _ hab (htie b).2)

/-- **All answers have the same rows exactly when the cut splits no ties.** -/
theorem answers_agree_iff (h : Compares le) (hrows : rows.Nodup) (hanswer : Answers le n rows answer) :
    (∀ answer', Answers le n rows answer' → ∀ a, a ∈ answer' ↔ a ∈ answer) ↔ CutsNoTie le n rows := by
  constructor
  · intro hagree
    by_contra hcut
    simp only [CutsNoTie, not_forall, not_or, not_le] at hcut
    obtain ⟨a, -, hbefore, hcount⟩ := hcut
    obtain ⟨sorted, hperm, hsorted, rfl⟩ := hanswer
    rw [← hperm.countP_eq] at hbefore hcount
    obtain ⟨x, hx, y, hy, hxy, hyx⟩ := h.exists_split_tie hsorted hbefore hcount
    classical
    have hswapped := h.answers_swap (n := n) hperm hrows hsorted (List.mem_of_mem_take hx) (List.mem_of_mem_drop hy)
      hxy hyx
    have hin : y ∈ sorted.take n :=
      (hagree _ hswapped y).mp (List.mem_map.mpr ⟨x, hx, Equiv.swap_apply_left x y⟩)
    exact ne_of_mem_take_drop (hperm.nodup_iff.mpr hrows) hin hy rfl
  · intro hcut answer' hanswer' a
    rw [h.mem_answer_iff hcut hanswer', h.mem_answer_iff hcut hanswer]

end Compares

theorem SortsUniquely.compares {l : List α} (h : SortsUniquely le l) : Compares le := ⟨h.trans, h.total⟩

/-- An order without ties. -/
theorem SortsUniquely.cutsNoTie (h : SortsUniquely le rows) (hrows : rows.Nodup) (n : Nat) : CutsNoTie le n rows := by
  by_contra hcut
  simp only [CutsNoTie, not_forall, not_or, not_le] at hcut
  obtain ⟨a, -, hbefore, hcount⟩ := hcut
  have hperm := List.mergeSort_perm rows le
  rw [← hperm.countP_eq] at hbefore hcount
  obtain ⟨x, hx, y, hy, hxy, hyx⟩ :=
    h.compares.exists_split_tie (List.pairwise_mergeSort h.trans h.total rows) hbefore hcount
  have heq : x = y := h.antisymm x (hperm.mem_iff.mp (List.mem_of_mem_take hx)) y
    (hperm.mem_iff.mp (List.mem_of_mem_drop hy)) hxy hyx
  exact Compares.ne_of_mem_take_drop (hperm.nodup_iff.mpr hrows) hx hy heq

/-! ### Tables -/

namespace Table.Keyed
variable {ρ κ : Type*} [DecidableEq κ] {key : ρ → κ}

/-- What a `SELECT` of the rows that pass may answer. -/
def Selects (t : Keyed key) (p : ρ → Bool) (before : ρ → ρ → Bool) (n : Nat) (answer : List ρ) : Prop :=
  Answers before n (t.rows.filter p) answer

/-- What a `DELETE` of the rows that pass may leave: with a limit their keys are read first. -/
def Deletes (t : Keyed key) (p : ρ → Bool) (before : ρ → ρ → Bool) (limit : Option Nat) (after : Keyed key) : Prop :=
  match limit with
  | none => after = t.filter fun r => !p r
  | some n => ∃ answer, t.Selects p before n answer ∧ after = t.filter fun r => !(answer.map key).contains (key r)

variable {t : Keyed key} {p : ρ → Bool} {n : Nat} {answer : List ρ} {le : ρ → ρ → Bool}

omit [DecidableEq κ] in
theorem selects_select (h : Compares le) (n : Nat) : t.Selects p le n (t.select p le n) := h.answers_mergeSort n _

theorem deletes_delete (h : Compares le) (limit : Option Nat) : t.Deletes p le limit (t.delete p le limit) := by
  cases limit with
  | none => rfl
  | some n => exact ⟨_, selects_select h n, rfl⟩

/-- The rows that are gone are those of the answer that was read. -/
theorem mem_deleted_iff {before : ρ → ρ → Bool} (hanswer : t.Selects p before n answer) (r : ρ) :
    r ∈ t.rows ∧ r ∉ (t.filter fun r => !(answer.map key).contains (key r)).rows ↔ r ∈ answer := by
  have hrows : ∀ r ∈ answer, r ∈ t.rows := by
    obtain ⟨sorted, hperm, -, rfl⟩ := hanswer
    exact fun r hr => (List.mem_filter.mp (hperm.mem_iff.mp (List.mem_of_mem_take hr))).1
  constructor
  · intro hgone
    have hkey : key r ∈ answer.map key := by simpa [filter, hgone.1] using hgone.2
    obtain ⟨found, hfound, heq⟩ := List.mem_map.mp hkey
    exact List.inj_on_of_nodup_map t.nodup (hrows found hfound) hgone.1 heq ▸ hfound
  · intro hr
    refine ⟨hrows r hr, fun hleft => ?_⟩
    have hkey : key r ∉ answer.map key := by simpa using (List.mem_filter.mp hleft).2
    exact hkey (List.mem_map_of_mem hr)

/-- **What is deleted is what is selected.** A `SELECT` by one order and a `DELETE` by a finer one
without ties reach the same rows, whatever the database makes of ties, exactly when the cut splits
none. -/
theorem deletes_selected_iff {finer : ρ → ρ → Bool} (h : Compares le) (hfiner : SortsUniquely finer (t.rows.filter p))
    (hrefines : ∀ a b, finer a b = true → le a b = true) :
    (∀ answer after, t.Selects p le n answer → t.Deletes p finer (some n) after →
      ∀ r, r ∈ answer ↔ r ∈ t.rows ∧ r ∉ after.rows) ↔ CutsNoTie le n (t.rows.filter p) := by
  have hnodup : (t.rows.filter p).Nodup := (List.Nodup.of_map key t.nodup).filter p
  have hread := hfiner.compares.answers_mergeSort n (t.rows.filter p)
  have hread' : Answers le n (t.rows.filter p) (((t.rows.filter p).mergeSort finer).take n) := by
    refine ⟨_, List.mergeSort_perm _ _, ?_, rfl⟩
    exact (List.pairwise_mergeSort hfiner.trans hfiner.total _).imp fun {a b} hab => hrefines a b hab
  rw [← h.answers_agree_iff hnodup hread']
  constructor
  · intro hsame answer hanswer r
    rw [hsame answer _ hanswer ⟨_, hread, rfl⟩, mem_deleted_iff hread]
  · intro hagree answer after hanswer hafter r
    obtain ⟨deleted, hdeleted, rfl⟩ := hafter
    rw [mem_deleted_iff hdeleted, hagree answer hanswer]
    -- there is but one way to read the keys
    have hunique := hfiner.compares.answers_agree_iff hnodup hread
    exact ((hunique.mpr (hfiner.cutsNoTie hnodup n)) deleted hdeleted r).symm

/-- One order without ties for both statements. -/
theorem same_rows_of_unique (h : SortsUniquely le (t.rows.filter p)) (n : Nat) {after : Keyed key}
    (hanswer : t.Selects p le n answer) (hafter : t.Deletes p le (some n) after) (r : ρ) :
    r ∈ answer ↔ r ∈ t.rows ∧ r ∉ after.rows := by
  have hnodup : (t.rows.filter p).Nodup := (List.Nodup.of_map key t.nodup).filter p
  exact (deletes_selected_iff h.compares h fun _ _ hab => hab).mpr (h.cutsNoTie hnodup n) answer after hanswer hafter r

end Table.Keyed

end NodeGet.Data
