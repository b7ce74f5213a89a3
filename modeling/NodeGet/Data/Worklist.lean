import Mathlib.Data.List.Flatten
import Mathlib.Data.List.Perm.Basic

/-! A queue of work that grows by what each element has below it.

Where what is below an element has a smaller rank, the queue runs empty, and what was emitted
on the way is what all elements below the first ones emit, in some order (`worklist_perm`). -/
namespace NodeGet.Data

variable {α β : Type*}

/-- The first element is taken from the queue, and its children go to the end. -/
def worklist (children : α → List α) (emit : α → List β) : Nat → List α → List β → Option (List β)
  | 0, _, _ => none
  | _ + 1, [], out => some out
  | fuel + 1, a :: queue, out => worklist children emit fuel (queue ++ children a) (out ++ emit a)

structure Ranked (children : α → List α) where
  rank : α → Nat
  lt : ∀ a, ∀ b ∈ children a, rank b < rank a

namespace Ranked
variable {children : α → List α} (R : Ranked children)

include R in
theorem induction {P : α → Prop} (h : ∀ a, (∀ b ∈ children a, P b) → P a) (a : α) : P a := by
  induction hn : R.rank a using Nat.strongRecOn generalizing a with
  | _ n ih =>
    subst hn
    exact h a fun b hb => ih (R.rank b) (R.lt a b hb) b rfl

/-- An element and everything below it. -/
def below (R : Ranked children) (a : α) : List α := a :: (children a).attach.flatMap fun b => below R b.val
termination_by R.rank a
decreasing_by exact R.lt a b.val b.property

theorem below_eq (a : α) : R.below a = a :: (children a).flatMap R.below := by
  rw [below]
  simp

theorem length_flatMap_below (a : α) (queue : List α) :
    ((a :: queue).flatMap R.below).length = ((queue ++ children a).flatMap R.below).length + 1 := by
  rw [List.flatMap_cons, R.below_eq, List.flatMap_append]
  simp only [List.cons_append, List.length_cons, List.length_append]
  omega

/-- The queue runs empty, and everything below it has emitted. -/
theorem worklist_perm (emit : α → List β) (queue : List α) (out : List β) :
    ∃ result, (∀ fuel, (queue.flatMap R.below).length < fuel → worklist children emit fuel queue out = some result) ∧
      result.Perm (out ++ (queue.flatMap R.below).flatMap emit) := by
  induction hn : (queue.flatMap R.below).length generalizing queue out with
  | zero =>
    cases queue with
    | nil =>
      refine ⟨out, fun fuel hfuel => ?_, by simp⟩
      obtain ⟨fuel, rfl⟩ := Nat.exists_eq_add_one_of_ne_zero (Nat.ne_of_gt hfuel)
      rfl
    | cons a queue =>
      rw [R.length_flatMap_below] at hn
      cases hn
  | succ n ih =>
    cases queue with
    | nil => cases hn
    | cons a queue =>
      rw [R.length_flatMap_below] at hn
      obtain ⟨result, hresult, hperm⟩ := ih (queue ++ children a) (out ++ emit a) (Nat.succ.inj hn)
      refine ⟨result, fun fuel hfuel => ?_, hperm.trans ?_⟩
      · obtain ⟨fuel, rfl⟩ := Nat.exists_eq_add_one_of_ne_zero (Nat.ne_of_gt (Nat.zero_lt_of_lt hfuel))
        exact hresult fuel (Nat.lt_of_succ_lt_succ hfuel)
      · rw [List.flatMap_cons, R.below_eq, List.flatMap_append, List.cons_append, List.flatMap_cons,
          List.append_assoc]
        refine ((List.Perm.flatMap_right emit List.perm_append_comm).append_left _).append_left _

end Ranked

end NodeGet.Data
