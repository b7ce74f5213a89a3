import Mathlib.Data.List.Infix
import Mathlib.Tactic.SplitIfs
import NodeGet.Core.Text

/-! The output of a command (`agent/src/tasks/execute.rs`: `execute_command`, `read_capped`).

Of each stream only as many bytes as the limit are kept. The two are decoded and merged, and what
is longer than the limit is cut at both ends with a notice in between. Texts are lists of
characters, and lengths and positions count their bytes. -/
namespace NodeGet.Agent.Execute
open NodeGet.Core

/-- The first `maxCapture` bytes, decoded with `from_utf8_lossy`: a character that is cut is replaced. -/
def readCapped (maxCapture : Nat) : List Char → List Char
  | [] => []
  | c :: rest =>
    if c.utf8Size ≤ maxCapture then c :: readCapped (maxCapture - c.utf8Size) rest
    else if maxCapture = 0 then [] else [Char.ofNat 0xFFFD]

/-- The exit code, if the process was not ended by a signal. -/
abbrev ExitStatus := Option Int32

def ExitStatus.success (status : ExitStatus) : Bool := status == some 0

def merge (stdout stderr : List Char) (status : ExitStatus) : List Char :=
  let result := stdout ++ (if stderr ≠ [] ∧ stdout ≠ [] then "\n--- STDERR ---\n".toList else []) ++ stderr
  let result := if result = [] then "(No Output)".toList else result
  if status.success then result
  else result ++ ("\n\n[Process exited with code " ++ toString (status.getD (-1)).toInt ++ "]").toList

def isCharBoundary : List Char → Nat → Bool
  | _, 0 => true
  | [], _ + 1 => false
  | c :: rest, k + 1 => decide (c.utf8Size ≤ k + 1) && isCharBoundary rest (k + 1 - c.utf8Size)

/-- The text up to a boundary, and what comes from there. -/
def splitAt : List Char → Nat → List Char × List Char
  | text, 0 => ([], text)
  | [], _ + 1 => ([], [])
  | c :: rest, k + 1 => ((c :: (splitAt rest (k + 1 - c.utf8Size)).1), (splitAt rest (k + 1 - c.utf8Size)).2)

/-- Down to a boundary. -/
def shrink (text : List Char) : Nat → Nat
  | 0 => 0
  | k + 1 => if isCharBoundary text (k + 1) then k + 1 else shrink text k

/-- Up to a boundary, by at most the given number of bytes. -/
def advance (text : List Char) (k : Nat) : Nat → Nat
  | 0 => k
  | n + 1 => if isCharBoundary text k then k else advance text (k + 1) n

inductive Output where
  | whole (text : List Char)
  /-- With the numbers that the notice between the two parts states. -/
  | cut (head : List Char) (skipped originalLen : Nat) (tail : List Char)
deriving DecidableEq

def Output.text : Output → List Char
  | whole text => text
  | cut head skipped originalLen tail =>
    head ++ ("\n[... Output truncated, " ++ toString skipped ++ " bytes omitted (original " ++ toString originalLen ++
      " bytes) ...]\n").toList ++ tail

def truncate (maxChars : Nat) (result : List Char) : Output :=
  let originalLen := utf8Len result
  if originalLen ≤ maxChars then .whole result
  else
    let headBudget := maxChars / 2
    let tailBudget := maxChars - headBudget
    let headEnd := shrink result (min headBudget originalLen)
    let tailRaw := max (originalLen - tailBudget) headEnd
    let tailStart := advance result tailRaw (originalLen - tailRaw)
    if tailStart ≤ headEnd then .whole (splitAt result headEnd).1
    else .cut (splitAt result headEnd).1 (tailStart - headEnd) originalLen (splitAt result tailStart).2

def executeCommand (maxChars : Nat) (stdout stderr : List Char) (status : ExitStatus) : Output :=
  truncate maxChars (merge (readCapped maxChars stdout) (readCapped maxChars stderr) status)

/-- The full text, or a part of its start and one of its end with a notice that is right. -/
def Output.Faithful (limit : Nat) (full : List Char) : Output → Prop
  | whole text => utf8Len full ≤ limit ∧ text = full
  | cut head skipped originalLen tail =>
    limit < utf8Len full ∧ head <+: full ∧ tail <:+ full ∧ utf8Len head + utf8Len tail ≤ limit ∧
      utf8Len head + skipped + utf8Len tail = utf8Len full ∧ originalLen = utf8Len full

/-- What is kept has the length of the full text, and it begins and ends as that does, as far as the
two budgets reach. -/
def SameEnds (limit : Nat) (full kept : List Char) : Prop :=
  utf8Len kept = utf8Len full ∧ (∀ head, head <+: kept → utf8Len head ≤ limit / 2 → head <+: full) ∧
    ∀ tail, tail <:+ kept → utf8Len tail ≤ limit - limit / 2 → tail <:+ full

variable {text head tail : List Char} {limit k n : Nat}

theorem readCapped_all (h : utf8Len text ≤ n) : readCapped n text = text := by
  induction text generalizing n with
  | nil => rfl
  | cons c rest ih =>
    rw [utf8Len_cons] at h
    rw [readCapped, if_pos (by omega), ih (by omega)]

/-! ### Boundaries -/

theorem splitAt_spec (h : isCharBoundary text k = true) :
    (splitAt text k).1 ++ (splitAt text k).2 = text ∧ utf8Len (splitAt text k).1 = k := by
  induction text generalizing k with
  | nil =>
    cases k with
    | zero => exact ⟨rfl, rfl⟩
    | succ k => cases h
  | cons c rest ih =>
    cases k with
    | zero => exact ⟨rfl, rfl⟩
    | succ k =>
      simp only [isCharBoundary, Bool.and_eq_true, decide_eq_true_eq] at h
      obtain ⟨happend, hlen⟩ := ih h.2
      refine ⟨by simp [splitAt, happend], ?_⟩
      rw [splitAt, utf8Len_cons, hlen]
      omega

theorem boundary_append (head rest : List Char) : isCharBoundary (head ++ rest) (utf8Len head) = true := by
  induction head with
  | nil => cases rest <;> rfl
  | cons c head ih =>
    have hpos := c.utf8Size_pos
    obtain ⟨k, hk⟩ : ∃ k, utf8Len (c :: head) = k + 1 := ⟨utf8Len (c :: head) - 1, by rw [utf8Len_cons]; omega⟩
    rw [utf8Len_cons] at hk
    rw [utf8Len_cons, hk, List.cons_append, isCharBoundary, ← hk, Nat.add_sub_cancel_left, ih]
    simp

/-- The last boundary up to the given byte. -/
theorem shrink_spec (text : List Char) (k : Nat) :
    isCharBoundary text (shrink text k) = true ∧ shrink text k ≤ k ∧
      ∀ j ≤ k, isCharBoundary text j = true → j ≤ shrink text k := by
  induction k with
  | zero => exact ⟨by cases text <;> rfl, le_rfl, fun j hj _ => hj⟩
  | succ k ih =>
    obtain ⟨hboundary, hle, hlast⟩ := ih
    rw [shrink]
    split_ifs with h
    · exact ⟨h, le_rfl, fun j hj _ => hj⟩
    · refine ⟨hboundary, by omega, fun j hj hat => ?_⟩
      have hne : j ≠ k + 1 := by
        rintro rfl
        exact h hat
      exact hlast j (by omega) hat

/-- The first boundary from the given byte on. -/
theorem advance_spec (h : k + n = utf8Len text) :
    isCharBoundary text (advance text k n) = true ∧ k ≤ advance text k n ∧ advance text k n ≤ utf8Len text ∧
      ∀ j, k ≤ j → isCharBoundary text j = true → advance text k n ≤ j := by
  induction n generalizing k with
  | zero =>
    rw [Nat.add_zero] at h
    have hend := boundary_append text []
    rw [List.append_nil] at hend
    rw [advance, h]
    exact ⟨hend, le_rfl, le_rfl, fun j hj _ => hj⟩
  | succ n ih =>
    rw [advance]
    split_ifs with hboundary
    · exact ⟨hboundary, le_rfl, by omega, fun j hj _ => hj⟩
    · obtain ⟨hend, hge, hle, hfirst⟩ := ih (k := k + 1) (by omega)
      refine ⟨hend, by omega, hle, fun j hj hat => ?_⟩
      have hne : j ≠ k := by
        rintro rfl
        exact hboundary hat
      exact hfirst j (by omega) hat

/-! ### Cutting -/

/-- The longest ends of a text that the two budgets allow. -/
structure Ends (limit : Nat) (text head tail : List Char) : Prop where
  head_part : head <+: text
  head_le : utf8Len head ≤ limit / 2
  head_longest : ∀ part, part <+: text → utf8Len part ≤ limit / 2 → part <+: head
  tail_part : tail <:+ text
  tail_le : utf8Len tail ≤ limit - limit / 2
  tail_longest : ∀ part, part <:+ text → utf8Len part ≤ limit - limit / 2 → part <:+ tail

theorem eq_nil_of_utf8Len (h : utf8Len text = 0) : text = [] := by
  cases text with
  | nil => rfl
  | cons c rest =>
    have hpos := c.utf8Size_pos
    rw [utf8Len_cons] at h
    omega

theorem prefix_of_utf8Len_le {part : List Char} (hpart : part <+: text) (hhead : head <+: text)
    (hle : utf8Len part ≤ utf8Len head) : part <+: head := by
  have hcases := List.prefix_or_prefix_of_prefix hpart hhead
  refine hcases.elim id fun h => ?_
  obtain ⟨rest, rfl⟩ := h
  rw [utf8Len_append] at hle
  have hrest : rest = [] := eq_nil_of_utf8Len (by omega)
  rw [hrest, List.append_nil]

theorem suffix_of_utf8Len_le {part : List Char} (hpart : part <:+ text) (htail : tail <:+ text)
    (hle : utf8Len part ≤ utf8Len tail) : part <:+ tail := by
  have hcases := List.suffix_or_suffix_of_suffix hpart htail
  refine hcases.elim id fun h => ?_
  obtain ⟨rest, rfl⟩ := h
  rw [utf8Len_append] at hle
  have hrest : rest = [] := eq_nil_of_utf8Len (by omega)
  rw [hrest, List.nil_append]

theorem truncate_cut (h : limit < utf8Len text) :
    ∃ head skipped tail, truncate limit text = .cut head skipped (utf8Len text) tail ∧ Ends limit text head tail ∧
      utf8Len head + skipped + utf8Len tail = utf8Len text := by
  have hmin : min (limit / 2) (utf8Len text) = limit / 2 := by omega
  obtain ⟨hhead, hheadLe, hlast⟩ := shrink_spec text (limit / 2)
  obtain ⟨hheadText, hheadLen⟩ := splitAt_spec hhead
  -- The head ends within its half, and the tail starts behind that.
  have hmax : max (utf8Len text - (limit - limit / 2)) (shrink text (limit / 2)) =
      utf8Len text - (limit - limit / 2) := by omega
  have hspan : utf8Len text - (limit - limit / 2) + (utf8Len text - (utf8Len text - (limit - limit / 2))) =
      utf8Len text := by omega
  obtain ⟨htail, htailGe, htailLe, hfirst⟩ := advance_spec hspan
  obtain ⟨htailText, htailLen⟩ := splitAt_spec htail
  simp only [truncate, hmin, hmax]
  set headEnd := shrink text (limit / 2)
  set tailStart := advance text (utf8Len text - (limit - limit / 2))
    (utf8Len text - (utf8Len text - (limit - limit / 2)))
  have hsum := congrArg utf8Len htailText
  rw [utf8Len_append, htailLen] at hsum
  rw [if_neg (by omega), if_neg (by omega)]
  refine ⟨_, _, _, rfl, ⟨⟨_, hheadText⟩, by omega, fun part hpart hle => ?_, ⟨_, htailText⟩, by omega,
    fun part hpart hle => ?_⟩, by omega⟩
  · refine prefix_of_utf8Len_le hpart ⟨_, hheadText⟩ ?_
    obtain ⟨rest, rfl⟩ := hpart
    rw [hheadLen]
    exact hlast _ hle (boundary_append part rest)
  · refine suffix_of_utf8Len_le hpart ⟨_, htailText⟩ ?_
    obtain ⟨before, hbefore⟩ := hpart
    have hlen := congrArg utf8Len hbefore
    rw [utf8Len_append] at hlen
    have hat := boundary_append before part
    rw [hbefore] at hat
    have hstart := hfirst _ (by omega) hat
    omega

theorem truncate_whole (h : utf8Len text ≤ limit) : truncate limit text = .whole text := by
  rw [truncate, if_pos h]

theorem truncate_faithful (limit : Nat) (text : List Char) : (truncate limit text).Faithful limit text := by
  by_cases h : utf8Len text ≤ limit
  · rw [truncate_whole h]
    exact ⟨h, rfl⟩
  · obtain ⟨head, skipped, tail, hcut, hends, hsum⟩ := truncate_cut (not_le.mp h)
    have hheadLe := hends.head_le
    have htailLe := hends.tail_le
    rw [hcut]
    exact ⟨not_le.mp h, hends.head_part, hends.tail_part, by omega, hsum, rfl⟩

theorem utf8Len_merge (stdout stderr : List Char) (status : ExitStatus) :
    utf8Len stdout ≤ utf8Len (merge stdout stderr status) ∧ utf8Len stderr ≤ utf8Len (merge stdout stderr status) := by
  simp only [merge]
  split_ifs <;> simp_all <;> omega

/-- What is cut is two ends of a text with a right notice exactly if it has that length and those ends. -/
theorem cut_faithful_iff {full : List Char} (hfull : limit < utf8Len full) (hkept : limit < utf8Len text) :
    (truncate limit text).Faithful limit full ↔ SameEnds limit full text := by
  obtain ⟨head, skipped, tail, hcut, hends, hsum⟩ := truncate_cut hkept
  have hheadLe := hends.head_le
  have htailLe := hends.tail_le
  rw [hcut]
  constructor
  · rintro ⟨-, hhead, htail, -, -, hlen⟩
    exact ⟨hlen, fun part hpart hle => (hends.head_longest part hpart hle).trans hhead,
      fun part hpart hle => (hends.tail_longest part hpart hle).trans htail⟩
  · rintro ⟨hlen, hhead, htail⟩
    exact ⟨hfull, hhead head hends.head_part hheadLe, htail tail hends.tail_part htailLe, by omega, by omega, hlen⟩

/-- **The output is the full text, or its two ends with a notice that is right**, exactly if neither
stream is longer than the limit, or if the text merged from what is kept of the streams has the
length and the ends of the full one. The second happens: a cut character of three bytes is replaced
by one of three bytes. -/
theorem output_faithful_iff (limit : Nat) (stdout stderr : List Char) (status : ExitStatus) :
    (executeCommand limit stdout stderr status).Faithful limit (merge stdout stderr status) ↔
      utf8Len stdout ≤ limit ∧ utf8Len stderr ≤ limit ∨
        SameEnds limit (merge stdout stderr status)
          (merge (readCapped limit stdout) (readCapped limit stderr) status) := by
  by_cases hfit : utf8Len stdout ≤ limit ∧ utf8Len stderr ≤ limit
  · rw [executeCommand, readCapped_all hfit.1, readCapped_all hfit.2]
    exact iff_of_true (truncate_faithful ..) (.inl hfit)
  · obtain ⟨hout, herr⟩ := utf8Len_merge stdout stderr status
    have hfull : limit < utf8Len (merge stdout stderr status) := by omega
    rw [or_iff_right hfit, executeCommand]
    by_cases hkept : limit < utf8Len (merge (readCapped limit stdout) (readCapped limit stderr) status)
    · exact cut_faithful_iff hfull hkept
    · rw [truncate_whole (not_lt.mp hkept)]
      exact iff_of_false (fun h => absurd h.1 (not_le.mpr hfull)) fun h => absurd h.1 (by omega)

/-- Of eight bytes the four that are kept are all that is left, without a notice. -/
theorem output_cut_unnoticed :
    executeCommand 4 "abcdefgh".toList [] (some 0) = .whole "abcd".toList ∧
      ¬(executeCommand 4 "abcdefgh".toList [] (some 0)).Faithful 4 (merge "abcdefgh".toList [] (some 0)) := by
  have houtput : executeCommand 4 "abcdefgh".toList [] (some 0) = .whole "abcd".toList := by decide +kernel
  refine ⟨houtput, ?_⟩
  rw [houtput]
  intro h
  exact absurd h.1 (by decide +kernel)

end NodeGet.Agent.Execute
