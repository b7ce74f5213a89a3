import Mathlib.Data.List.Nodup

/-! Blocks of keys offered one after another to a set of keys that must stay distinct. A block
is taken whole, or, where one of its keys is there already or comes twice, not at all. -/
namespace NodeGet.Data

variable {κ : Type} [DecidableEq κ]

def offer (stored block : List κ) : List κ := if (stored ++ block).Nodup then stored ++ block else stored

/-- The keys of the block are distinct, none is stored, and none is in an earlier block that
enters. -/
def Enters (stored : List κ) (blocks : List (List κ)) (i : Nat) : Prop :=
  (blocks.getD i []).Nodup ∧ (∀ k ∈ blocks.getD i [], k ∉ stored) ∧
    ∀ j, j < i → Enters stored blocks j → ∀ k ∈ blocks.getD i [], k ∉ blocks.getD j []
termination_by i

theorem offer_nodup {stored : List κ} (h : stored.Nodup) (block : List κ) : (offer stored block).Nodup := by
  rw [offer]
  split
  next hnew => exact hnew
  next => exact h

/-- After the first blocks there is what was there before and what entered. -/
theorem mem_foldl_offer_take {stored : List κ} (hstored : stored.Nodup) (blocks : List (List κ)) (n : Nat) :
    ((blocks.take n).foldl offer stored).Nodup ∧
      ∀ k, k ∈ (blocks.take n).foldl offer stored ↔
        k ∈ stored ∨ ∃ i, i < n ∧ Enters stored blocks i ∧ k ∈ blocks.getD i [] := by
  induction n with
  | zero => exact ⟨by simpa using hstored, fun k => by simp⟩
  | succ n ih =>
    obtain ⟨hnodup, hmem⟩ := ih
    have hlast : (blocks.take (n + 1)).foldl offer stored =
        offer ((blocks.take n).foldl offer stored) (blocks.getD n []) := by
      rw [List.take_add_one, List.foldl_append, List.getD_eq_getElem?_getD]
      cases blocks[n]? with
      | none => simp [offer]
      | some block => rfl
    have henters : ((blocks.take n).foldl offer stored ++ blocks.getD n []).Nodup ↔ Enters stored blocks n := by
      rw [List.nodup_append', and_iff_right hnodup, Enters]
      refine and_congr_right fun _ => ⟨fun h => ⟨fun k hk hin => ?_, fun j hj hbefore k hk hin => ?_⟩, fun h k hin hk => ?_⟩
      · exact h ((hmem k).mpr (.inl hin)) hk
      · exact h ((hmem k).mpr (.inr ⟨j, hj, hbefore, hin⟩)) hk
      · rcases (hmem k).mp hin with hin | ⟨j, hj, hbefore, hin⟩
        · exact h.1 k hk hin
        · exact h.2 j hj hbefore k hk hin
    rw [hlast]
    refine ⟨offer_nodup hnodup _, fun k => ?_⟩
    have hsplit : (∃ i, i < n + 1 ∧ Enters stored blocks i ∧ k ∈ blocks.getD i []) ↔
        (∃ i, i < n ∧ Enters stored blocks i ∧ k ∈ blocks.getD i []) ∨ Enters stored blocks n ∧ k ∈ blocks.getD n [] := by
      simp only [Nat.lt_succ_iff_lt_or_eq, or_and_right, exists_or, exists_eq_left]
    rw [hsplit, ← or_assoc, ← hmem, offer]
    split
    next hnew => rw [List.mem_append, and_iff_right (henters.mp hnew)]
    next hold => simp [mt henters.mpr hold]

/-- At the end there is what was there before and what entered. -/
theorem mem_foldl_offer {stored : List κ} (hstored : stored.Nodup) (blocks : List (List κ)) (k : κ) :
    k ∈ blocks.foldl offer stored ↔ k ∈ stored ∨ ∃ i, Enters stored blocks i ∧ k ∈ blocks.getD i [] := by
  have h := (mem_foldl_offer_take hstored blocks blocks.length).2 k
  rw [List.take_length] at h
  rw [h]
  refine or_congr_right (exists_congr fun i => and_iff_right_of_imp fun hi => ?_)
  by_contra hout
  rw [List.getD_eq_getElem?_getD, List.getElem?_eq_none (Nat.le_of_not_lt hout)] at hi
  exact absurd hi.2 List.not_mem_nil

omit [DecidableEq κ] in
theorem exists_mem_getD_iff (blocks : List (List κ)) (k : κ) : (∃ i, k ∈ blocks.getD i []) ↔ k ∈ blocks.flatten := by
  rw [List.mem_flatten]
  constructor
  · intro h
    obtain ⟨i, hk⟩ := h
    rw [List.getD_eq_getElem?_getD] at hk
    cases hblock : blocks[i]? with
    | none =>
      rw [hblock] at hk
      exact absurd hk List.not_mem_nil
    | some block =>
      rw [hblock] at hk
      exact ⟨block, List.mem_of_getElem? hblock, hk⟩
  · intro h
    obtain ⟨block, hblock, hk⟩ := h
    obtain ⟨i, hi⟩ := List.mem_iff_getElem?.mp hblock
    exact ⟨i, by rw [List.getD_eq_getElem?_getD, hi]; exact hk⟩

end NodeGet.Data
