import Mathlib.Data.List.Basic
import NodeGet.Machine.Run

/-! `slice::chunks`: a list cut into pieces of a given length, the last one shorter
when the lengths do not match. A loop that takes one piece after the other goes over
these pieces (`run_chunks`). -/
namespace NodeGet.Data
open NodeGet.Machine

variable {α : Type*}

/-- The pieces, as many as `fuel` allows. -/
def chunksAux (n : Nat) : Nat → List α → List (List α)
  | 0, _ => []
  | _ + 1, [] => []
  | fuel + 1, x :: rest => (x :: rest).take n :: chunksAux n fuel ((x :: rest).drop n)

def chunks (n : Nat) (l : List α) : List (List α) := chunksAux n l.length l

theorem flatten_chunksAux {n : Nat} (hn : 0 < n) (fuel : Nat) (l : List α) (h : l.length ≤ fuel) :
    (chunksAux n fuel l).flatten = l := by
  induction fuel generalizing l with
  | zero =>
    cases l with
    | nil => rfl
    | cons x rest => simp at h
  | succ fuel ih =>
    cases l with
    | nil => rfl
    | cons x rest =>
      have hlen : ((x :: rest).drop n).length ≤ fuel := by
        simp only [List.length_drop, List.length_cons] at h ⊢
        omega
      rw [chunksAux, List.flatten_cons, ih _ hlen, List.take_append_drop]

@[simp] theorem flatten_chunks {n : Nat} (hn : 0 < n) (l : List α) : (chunks n l).flatten = l :=
  flatten_chunksAux hn l.length l (Nat.le_refl _)

section Loop
variable {σ τ β : Type*} {step : σ → β → Option σ} {a : β} (loop : τ → List α → σ) (next : τ → List α → τ)
  {n total : Nat} (hn : 0 < total → 0 < n)
  (hstep : ∀ t l, l ≠ [] → l.length ≤ total → step (loop t l) a = some (loop (next t (l.take n)) (l.drop n)))
include hn hstep

theorem run_chunksAux (fuel : Nat) (t : τ) (l : List α) (hfuel : l.length ≤ fuel) (hl : l.length ≤ total) :
    run step (loop t l) (List.replicate (chunksAux n fuel l).length a) =
      some (loop ((chunksAux n fuel l).foldl next t) []) := by
  induction fuel generalizing t l with
  | zero =>
    rw [List.length_eq_zero_iff.mp (Nat.le_zero.mp hfuel)]
    rfl
  | succ fuel ih =>
    cases l with
    | nil => rfl
    | cons x rest =>
      have hpos := hn (Nat.lt_of_lt_of_le (Nat.succ_pos _) hl)
      simp only [chunksAux, List.length_cons, List.replicate_succ, run_cons, hstep t _ (List.cons_ne_nil x rest) hl,
        Option.bind_some, List.foldl_cons]
      refine ih _ _ ?_ ?_
      · simp only [List.length_drop, List.length_cons] at hfuel ⊢
        omega
      · rw [List.length_drop]
        omega

/-- `loop t l` is the loop with `l` left to do, and `t` what it has done. -/
theorem run_chunks (t : τ) (l : List α) (hl : l.length ≤ total) :
    run step (loop t l) (List.replicate (chunks n l).length a) = some (loop ((chunks n l).foldl next t) []) :=
  run_chunksAux loop next hn hstep l.length t l (Nat.le_refl _) hl

end Loop

end NodeGet.Data
