import Mathlib.Data.List.Basic

/-! A list sorted by two comparisons that disagree on which of two classes comes first.

Inside a class both put the entries in the same order. So the two sorts are the same when
the list has entries of one class only, and already their first entries differ when it has
both (`take_mergeSort_eq_iff`). -/
namespace NodeGet.Data

variable {α : Type*}

/-- What makes a sort of the list unique. -/
structure SortsUniquely (le : α → α → Bool) (l : List α) : Prop where
  trans : ∀ a b c, le a b = true → le b c = true → le a c = true
  total : ∀ a b, (le a b || le b a) = true
  antisymm : ∀ a ∈ l, ∀ b ∈ l, le a b = true → le b a = true → a = b

/-- Entries with `p` come before those without. -/
def PutsFirst (le : α → α → Bool) (p : α → Bool) : Prop := ∀ a b, p a = true → p b = false → le b a = false

variable {le le' : α → α → Bool} {p : α → Bool} {l : List α}

theorem PutsFirst.flip (h : PutsFirst le p) : PutsFirst (fun a b => le b a) fun a => !p a :=
  fun a b ha hb => h b a (by simpa using hb) (by simpa using ha)

namespace SortsUniquely

theorem flip (h : SortsUniquely le l) : SortsUniquely (fun a b => le b a) l where
  trans a b c hab hbc := h.trans c b a hbc hab
  total a b := h.total b a
  antisymm a ha b hb hab hba := h.antisymm a ha b hb hba hab

/-- The first entry of the sorted list is below every other. -/
theorem head_le (h : SortsUniquely le l) {a : α} (ha : (l.mergeSort le).head? = some a) {b : α} (hb : b ∈ l) :
    le a b = true := by
  obtain ⟨rest, hsorted⟩ := List.head?_eq_some_iff.mp ha
  have hmem : b ∈ a :: rest := hsorted ▸ List.mem_mergeSort.mpr hb
  have hpairs : (a :: rest).Pairwise fun x y => le x y = true := hsorted ▸ List.pairwise_mergeSort h.trans h.total l
  rcases List.mem_cons.mp hmem with rfl | hrest
  · simpa using h.total b b
  · exact List.rel_of_pairwise_cons hpairs hrest

/-- If the class that is put first occurs, the sorted list begins with it. -/
theorem head_first (h : SortsUniquely le l) (hfirst : PutsFirst le p) {a b : α}
    (ha : (l.mergeSort le).head? = some a) (hb : b ∈ l) (hp : p b = true) : p a = true := by
  by_contra hnot
  have hbelow := h.head_le ha hb
  rw [hfirst b a hp (by simpa using hnot)] at hbelow
  cases hbelow

/-- Comparisons that agree on the entries sort them the same way. -/
theorem mergeSort_congr (h : SortsUniquely le l) (h' : SortsUniquely le' l)
    (hagree : ∀ a ∈ l, ∀ b ∈ l, le a b = le' a b) : l.mergeSort le = l.mergeSort le' := by
  have hsorted : (l.mergeSort le').Pairwise fun a b => le a b = true := by
    refine (List.pairwise_mergeSort h'.trans h'.total l).imp_of_mem fun ha hb hab => ?_
    rw [hagree _ (List.mem_mergeSort.mp ha) _ (List.mem_mergeSort.mp hb)]
    exact hab
  refine List.Perm.eq_of_pairwise ?_ (List.pairwise_mergeSort h.trans h.total l) hsorted
    ((List.mergeSort_perm l le).trans (List.mergeSort_perm l le').symm)
  intro a b ha hb
  exact h.antisymm a (List.mem_mergeSort.mp ha) b (List.mem_mergeSort.mp hb)

end SortsUniquely

/-- **The first `n` entries are the same exactly when there are none or one class is missing.** -/
theorem take_mergeSort_eq_iff (h : SortsUniquely le l) (h' : SortsUniquely le' l) (hfirst : PutsFirst le p)
    (hlast : PutsFirst le' fun a => !p a) (hagree : ∀ a b, p a = p b → le a b = le' a b) (n : Nat) :
    (l.mergeSort le).take n = (l.mergeSort le').take n ↔
      n = 0 ∨ (∀ a ∈ l, p a = true) ∨ ∀ a ∈ l, p a = false := by
  constructor
  · intro heq
    by_contra hmixed
    simp only [not_or, not_forall, Bool.not_eq_true, Bool.not_eq_false] at hmixed
    obtain ⟨hn, ⟨a, ha, hpa⟩, b, hb, hpb⟩ := hmixed
    have hmem : a ∈ l.mergeSort le := List.mem_mergeSort.mpr ha
    obtain ⟨x, hx⟩ := Option.isSome_iff_exists.mp (List.isSome_head?.mpr (List.ne_nil_of_mem hmem))
    have hx' : (l.mergeSort le').head? = some x := by
      have hheads := congrArg List.head? heq
      rw [List.head?_take, List.head?_take, if_neg hn, if_neg hn, hx] at hheads
      exact hheads.symm
    -- the first entry of one sort has the property, that of the other does not
    have hp := h.head_first hfirst hx hb hpb
    have hnot := h'.head_first hlast hx' ha (by simp [hpa])
    simp [hp] at hnot
  · intro hcases
    rcases hcases with rfl | hall | hall
    · rfl
    · rw [h.mergeSort_congr h' fun a ha b hb => hagree a b ((hall a ha).trans (hall b hb).symm)]
    · rw [h.mergeSort_congr h' fun a ha b hb => hagree a b ((hall a ha).trans (hall b hb).symm)]

/-- The same from the other end. -/
theorem take_mergeSort_flip_eq_iff (h : SortsUniquely le l) (h' : SortsUniquely le' l) (hfirst : PutsFirst le p)
    (hlast : PutsFirst le' fun a => !p a) (hagree : ∀ a b, p a = p b → le a b = le' a b) (n : Nat) :
    (l.mergeSort fun a b => le b a).take n = (l.mergeSort fun a b => le' b a).take n ↔
      n = 0 ∨ (∀ a ∈ l, p a = true) ∨ ∀ a ∈ l, p a = false := by
  have hfirst' : PutsFirst (fun a b => le' b a) p := fun a b ha hb => hlast b a (by simp [hb]) (by simp [ha])
  rw [eq_comm]
  exact take_mergeSort_eq_iff h'.flip h.flip hfirst' hfirst.flip (fun a b hp => (hagree b a hp.symm).symm) n

end NodeGet.Data
