import Mathlib.Algebra.Order.Ring.Nat
import Mathlib.Data.List.Basic

/-! The string operations of the standard library that the server's logic turns
on, over characters. -/
namespace NodeGet.Core

/-- `str::strip_suffix` with one character. -/
def stripSuffix (s : String) (c : Char) : Option (List Char) :=
  if s.toList.getLast? = some c then some s.toList.dropLast else none

theorem stripSuffix_eq_some_iff {s : String} {c : Char} {stem : List Char} :
    stripSuffix s c = some stem ↔ s.toList = stem ++ [c] := by
  unfold stripSuffix
  constructor
  · intro h
    split at h
    next hlast =>
      cases h
      obtain ⟨ys, hys⟩ := List.getLast?_eq_some_iff.mp hlast
      rw [hys, List.dropLast_concat]
    next => cases h
  · intro h
    rw [h, List.getLast?_concat, if_pos rfl, List.dropLast_concat]

def splitOnceList (c : Char) : List Char → Option (List Char × List Char)
  | [] => none
  | x :: rest =>
    if x = c then some ([], rest) else (splitOnceList c rest).map fun p => (x :: p.1, p.2)

/-- `str::split_once` with one character: the parts around its first occurrence. -/
def splitOnce (s : String) (c : Char) : Option (String × String) :=
  (splitOnceList c s.toList).map fun p => (String.ofList p.1, String.ofList p.2)

theorem splitOnceList_append {c : Char} {l : List Char} (h : c ∉ l) (rest : List Char) :
    splitOnceList c (l ++ c :: rest) = some (l, rest) := by
  induction l with
  | nil => simp [splitOnceList]
  | cons x l ih =>
    obtain ⟨hx, hl⟩ := not_or.mp (mt List.mem_cons.mpr h)
    rw [List.cons_append, splitOnceList, if_neg (Ne.symm hx), ih hl]
    rfl

theorem splitOnceList_eq_none {c : Char} {l : List Char} (h : c ∉ l) : splitOnceList c l = none := by
  induction l with
  | nil => rfl
  | cons x l ih =>
    obtain ⟨hx, hl⟩ := not_or.mp (mt List.mem_cons.mpr h)
    rw [splitOnceList, if_neg (Ne.symm hx), ih hl]
    rfl

/-- `str::len`: the number of bytes. -/
def utf8Len (text : List Char) : Nat := (text.map Char.utf8Size).sum

@[simp] theorem utf8Len_append (a b : List Char) : utf8Len (a ++ b) = utf8Len a + utf8Len b := by simp [utf8Len]

@[simp] theorem utf8Len_cons (c : Char) (text : List Char) : utf8Len (c :: text) = c.utf8Size + utf8Len text := by
  simp [utf8Len]

/-- The characters `str::trim` removes. -/
def isWhitespace (c : Char) : Bool :=
  let n := c.toNat
  (9 ≤ n && n ≤ 13) || n == 0x20 || n == 0x85 || n == 0xA0 || n == 0x1680 ||
    (0x2000 ≤ n && n ≤ 0x200A) || n == 0x2028 || n == 0x2029 || n == 0x202F || n == 0x205F || n == 0x3000

/-- `str::trim` -/
def trim (s : String) : List Char :=
  ((s.toList.dropWhile isWhitespace).reverse.dropWhile isWhitespace).reverse

/-- `s.trim().is_empty()` -/
def isBlank (s : String) : Bool := s.toList.all isWhitespace

end NodeGet.Core
