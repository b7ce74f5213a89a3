import Mathlib.Data.List.Infix
import Mathlib.Data.List.Forall2

/-! SQL `LIKE` with an escape character.

A pattern is read into items: `%` stands for any text, `_` for one character, and
what follows the escape character for itself. Characters are compared by `same`,
which is where a database that ignores case puts its rule. A pattern of literals
between two `%` finds the literals anywhere in the text (`matchItems_infix_iff`). -/
namespace NodeGet.Data.Like

variable {α : Type*}

inductive Item (α : Type*) where
  | any
  | one
  | lit (c : α)
deriving DecidableEq

/-- The items of a pattern; an escape character at its end leaves none. -/
def parse (escape : Char) : List Char → Option (List (Item Char))
  | [] => some []
  | c :: rest =>
    if c = escape then
      match rest with
      | [] => none
      | d :: rest => (parse escape rest).map (.lit d :: ·)
    else
      let item := if c = '%' then Item.any else if c = '_' then .one else .lit c
      (parse escape rest).map (item :: ·)

def matchItems (same : α → α → Bool) : List (Item α) → List α → Bool
  | [], text => text.isEmpty
  | .any :: items, text => text.tails.any (matchItems same items)
  | .one :: _, [] => false
  | .one :: items, _ :: text => matchItems same items text
  | .lit _ :: _, [] => false
  | .lit c :: items, d :: text => same c d && matchItems same items text

/-! ### Reading a pattern -/

theorem parse_escaped (escape d : Char) (rest : List Char) :
    parse escape (escape :: d :: rest) = (parse escape rest).map (.lit d :: ·) := by
  rw [parse.eq_def]
  exact if_pos rfl

theorem parse_plain {escape c : Char} (rest : List Char) (he : c ≠ escape) (hany : c ≠ '%') (hone : c ≠ '_') :
    parse escape (c :: rest) = (parse escape rest).map (.lit c :: ·) := by
  rw [parse.eq_def]
  simp only [if_neg he, if_neg hany, if_neg hone]

theorem parse_any {escape : Char} (rest : List Char) (he : '%' ≠ escape) :
    parse escape ('%' :: rest) = (parse escape rest).map (.any :: ·) := by
  rw [parse.eq_def]
  simp only [if_neg he, if_pos]

/-! ### Literals -/

variable {same : α → α → Bool}

/-- Literals followed by other items match the text's beginning, character by character. -/
theorem matchItems_lits_append (key : List α) (items : List (Item α)) (text : List α) :
    matchItems same (key.map .lit ++ items) text = true ↔
      ∃ first rest, text = first ++ rest ∧ List.Forall₂ (fun c d => same c d = true) key first ∧
        matchItems same items rest = true := by
  induction key generalizing text with
  | nil =>
    constructor
    · intro h
      exact ⟨[], text, rfl, .nil, h⟩
    · rintro ⟨first, rest, rfl, hfirst, h⟩
      cases hfirst
      exact h
  | cons c key ih =>
    cases text with
    | nil =>
      constructor
      · intro h
        cases h
      · rintro ⟨first, rest, htext, hfirst, -⟩
        cases hfirst
        cases htext
    | cons d text =>
      show (same c d && matchItems same (key.map .lit ++ items) text) = true ↔ _
      rw [Bool.and_eq_true, ih]
      constructor
      · rintro ⟨hsame, first, rest, rfl, hfirst, h⟩
        exact ⟨d :: first, rest, rfl, .cons hsame hfirst, h⟩
      · rintro ⟨first, rest, htext, hfirst, h⟩
        cases hfirst with
        | cons hsame htail =>
          obtain ⟨rfl, rfl⟩ := List.cons.inj htext
          exact ⟨hsame, _, rest, rfl, htail, h⟩

theorem matchItems_any (text : List α) : matchItems same [.any] text = true := by
  show text.tails.any (matchItems same []) = true
  exact List.any_eq_true.mpr ⟨[], by simp, rfl⟩

/-- **Literals between two `%` are found wherever they stand in the text.** -/
theorem matchItems_infix_iff (key text : List α) :
    matchItems same (.any :: (key.map .lit ++ [.any])) text = true ↔
      ∃ found, found <:+: text ∧ List.Forall₂ (fun c d => same c d = true) key found := by
  show text.tails.any (matchItems same (key.map .lit ++ [.any])) = true ↔ _
  rw [List.any_eq_true]
  constructor
  · rintro ⟨tail, htail, h⟩
    obtain ⟨before, rfl⟩ := (List.mem_tails tail _).mp htail
    obtain ⟨found, rest, rfl, hfound, -⟩ := (matchItems_lits_append key [.any] tail).mp h
    exact ⟨found, ⟨before, rest, by rw [List.append_assoc]⟩, hfound⟩
  · rintro ⟨found, ⟨before, rest, rfl⟩, hfound⟩
    refine ⟨found ++ rest, (List.mem_tails _ _).mpr ⟨before, by rw [List.append_assoc]⟩, ?_⟩
    exact (matchItems_lits_append key [.any] (found ++ rest)).mpr ⟨found, rest, rfl, hfound, matchItems_any rest⟩

end NodeGet.Data.Like
