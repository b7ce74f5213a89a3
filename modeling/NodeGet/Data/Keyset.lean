import Mathlib.Data.List.Sort

/-! Reading a table in key order, a few rows at a time.

A reader that takes the first rows beyond its cursor and moves the cursor to the
last of them never needs an offset: what is left to read is always the rows beyond
the cursor, in key order (`after`). With unique keys, moving the cursor to the last
row read drops exactly the rows read (`after_getLast`), and rows at or below the
cursor may come and go without changing what is left (`after_filter`). The first rows
are those with the fewest rows below them (`mem_take_iff`). -/
namespace NodeGet.Data.Keyset

variable {ρ κ : Type*} [LinearOrder κ] (key : ρ → κ)

/-- The row lies beyond the cursor; without a cursor every row does. -/
def beyond (cursor : Option κ) (r : ρ) : Bool := cursor.all fun c => decide (c < key r)

/-- The rows beyond the cursor, in key order. -/
def after (rows : List ρ) (cursor : Option κ) : List ρ :=
  (rows.filter (beyond key cursor)).insertionSort fun a b => key a ≤ key b

variable {key} {rows : List ρ} {cursor : Option κ}

@[simp] theorem beyond_none (r : ρ) : beyond key none r = true := rfl

@[simp] theorem beyond_some (c : κ) (r : ρ) : beyond key (some c) r = true ↔ c < key r := by
  simp [beyond]

theorem beyond_trans {r s : ρ} (h : beyond key cursor r = true) (hrs : key r < key s) :
    beyond key cursor s = true := by
  cases cursor with
  | none => rfl
  | some c => exact (beyond_some c s).mpr (((beyond_some c r).mp h).trans hrs)

theorem after_perm : (after key rows cursor).Perm (rows.filter (beyond key cursor)) :=
  List.perm_insertionSort ..

theorem after_none_perm : (after key rows none).Perm rows := by
  have hall : rows.filter (beyond key none) = rows := List.filter_eq_self.mpr fun r _ => beyond_none r
  exact after_perm.trans (.of_eq hall)

theorem mem_after {r : ρ} : r ∈ after key rows cursor ↔ r ∈ rows ∧ beyond key cursor r = true := by
  rw [after_perm.mem_iff, List.mem_filter]

/-- Rows with unique keys are sorted into strictly increasing key order. -/
theorem sort_strict (h : (rows.map key).Nodup) :
    (rows.insertionSort fun a b => key a ≤ key b).Pairwise fun a b => key a < key b := by
  have : Std.Total fun a b : ρ => key a ≤ key b := ⟨fun a b => le_total (key a) (key b)⟩
  have : IsTrans ρ fun a b => key a ≤ key b := ⟨fun _ _ _ => le_trans⟩
  have hsorted := rows.pairwise_insertionSort fun a b => key a ≤ key b
  have hperm := List.perm_insertionSort (fun a b => key a ≤ key b) rows
  have hkeys := List.pairwise_map.mp ((hperm.map key).nodup_iff.mpr h)
  exact (hsorted.and hkeys).imp fun hab => lt_of_le_of_ne hab.1 hab.2

theorem after_strict (h : (rows.map key).Nodup) (cursor : Option κ) :
    (after key rows cursor).Pairwise fun a b => key a < key b :=
  sort_strict (h.sublist (List.filter_sublist.map key))

/-- Lists in strictly increasing key order are known by their members. -/
theorem eq_of_strict {xs ys : List ρ} (hxs : xs.Pairwise fun a b => key a < key b)
    (hys : ys.Pairwise fun a b => key a < key b) (h : ∀ r, r ∈ xs ↔ r ∈ ys) : xs = ys := by
  have : Std.Irrefl fun a b : ρ => key a < key b := ⟨fun a => lt_irrefl (key a)⟩
  have : Std.Antisymm fun a b : ρ => key a < key b := ⟨fun _ _ hab hba => (lt_asymm hab hba).elim⟩
  exact hxs.eq_of_mem_iff hys h

theorem le_getLast {xs : List ρ} (hxs : xs.Pairwise fun a b => key a < key b) {x : ρ}
    (hx : xs.getLast? = some x) {r : ρ} (hr : r ∈ xs) : key r ≤ key x := by
  obtain ⟨ys, rfl⟩ := List.getLast?_eq_some_iff.mp hx
  rcases List.mem_append.mp hr with hy | hy
  · exact ((List.pairwise_append.mp hxs).2.2 r hy x (List.mem_singleton.mpr rfl)).le
  · exact (congrArg key (List.mem_singleton.mp hy)).le

/-- With the cursor on a row of the list, what is left is the rest of the list. -/
theorem after_eq_of_append (h : (rows.map key).Nodup) {xs ys : List ρ} {x : ρ}
    (hsplit : after key rows cursor = xs ++ x :: ys) : after key rows (some (key x)) = ys := by
  have hstrict := after_strict h cursor
  rw [hsplit, List.pairwise_append] at hstrict
  obtain ⟨-, htail, hcross⟩ := hstrict
  obtain ⟨hx, hys⟩ := List.pairwise_cons.mp htail
  have hmem : ∀ r, r ∈ rows ∧ beyond key cursor r = true ↔ r ∈ xs ∨ r = x ∨ r ∈ ys := by
    intro r
    rw [← mem_after, hsplit, List.mem_append, List.mem_cons]
  refine eq_of_strict (after_strict h _) hys fun r => ?_
  rw [mem_after, beyond_some]
  constructor
  · intro hr
    have hcursor : beyond key cursor r = true := beyond_trans ((hmem x).mpr (.inr (.inl rfl))).2 hr.2
    rcases (hmem r).mp ⟨hr.1, hcursor⟩ with hmem | rfl | hmem
    · exact absurd hr.2 (hcross r hmem x List.mem_cons_self).asymm
    · exact absurd hr.2 (lt_irrefl _)
    · exact hmem
  · intro hr
    exact ⟨((hmem r).mpr (.inr (.inr hr))).1, hx r hr⟩

/-- **One page**: with the cursor on the last of the first `n` rows, what is left is
what was left without those rows. -/
theorem after_getLast (h : (rows.map key).Nodup) {n : Nat} {x : ρ}
    (hx : ((after key rows cursor).take n).getLast? = some x) :
    after key rows (some (key x)) = (after key rows cursor).drop n := by
  obtain ⟨xs, hxs⟩ := List.getLast?_eq_some_iff.mp hx
  refine after_eq_of_append h (?_ : after key rows cursor = xs ++ x :: _)
  rw [← List.singleton_append, ← List.append_assoc, ← hxs, List.take_append_drop]

/-- Rows that the reader has not reached decide what is left. -/
theorem after_filter (h : (rows.map key).Nodup) (p : ρ → Bool) :
    after key (rows.filter p) cursor = (after key rows cursor).filter p := by
  have hp : ((rows.filter p).map key).Nodup := h.sublist (List.filter_sublist.map key)
  refine eq_of_strict (after_strict hp _) ((after_strict h _).sublist List.filter_sublist) fun r => ?_
  simp only [mem_after, List.mem_filter, and_right_comm]

/-- In strict order, the first `n` rows are those with fewer than `n` rows below them. -/
theorem mem_take_iff {xs : List ρ} (hxs : xs.Pairwise fun a b => key a < key b) {r : ρ} (hr : r ∈ xs) (n : Nat) :
    r ∈ xs.take n ↔ (xs.filter fun x => key x < key r).length < n := by
  induction xs generalizing n with
  | nil => cases hr
  | cons x rest ih =>
    obtain ⟨hx, hrest⟩ := List.pairwise_cons.mp hxs
    cases n with
    | zero => simp
    | succ n =>
      rw [List.take_succ_cons, List.mem_cons]
      rcases List.mem_cons.mp hr with rfl | hmem
      · have hnone : (rest.filter fun x => key x < key r) = [] := by
          rw [List.filter_eq_nil_iff]
          intro y hy
          simpa using (hx y hy).le
        simp [hnone]
      · have hne : r ≠ x := fun h => (hx r hmem).ne (congrArg key h.symm)
        rw [List.filter_cons_of_pos (by simpa using hx r hmem), List.length_cons, ih hrest hmem]
        simp only [hne, false_or]
        omega

end NodeGet.Data.Keyset
