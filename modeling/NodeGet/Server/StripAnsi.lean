import Mathlib.Data.List.Basic

/-! Removing escape sequences from a text (`server/src/logging/mod.rs`: `strip_ansi`).

Three places take from one iterator: the loop over the text, the look at the character behind an
escape, which is gone whatever it is, and the loop that runs to the letter a sequence ends with. -/
namespace NodeGet.Server.StripAnsi

def esc : Char := '\x1b'

/-- The inner loop: it stops behind the first ASCII letter, or with the text. -/
def skipParameters : List Char → List Char
  | [] => []
  | c :: chars => if c.isAlpha then chars else skipParameters chars

/-- What an escape leaves of the characters behind it. -/
def skipSequence : List Char → List Char
  | [] => []
  | c :: chars => if c = '[' then skipParameters chars else chars

theorem length_skipParameters_le (chars : List Char) : (skipParameters chars).length ≤ chars.length := by
  induction chars with
  | nil => exact Nat.le_refl _
  | cons c chars ih =>
    rw [skipParameters, List.length_cons]
    split
    next => exact Nat.le_succ _
    next => exact Nat.le_succ_of_le ih

theorem length_skipSequence_le (chars : List Char) : (skipSequence chars).length ≤ chars.length := by
  cases chars with
  | nil => exact Nat.le_refl _
  | cons c chars =>
    rw [skipSequence, List.length_cons]
    split
    next => exact Nat.le_succ_of_le (length_skipParameters_le chars)
    next => exact Nat.le_succ _

/-- The outer loop, with what it has pushed so far. -/
def strip (result : List Char) : List Char → List Char
  | [] => result
  | c :: chars => if c = esc then strip result (skipSequence chars) else strip (result ++ [c]) chars
termination_by chars => chars.length
decreasing_by
  · exact Nat.lt_succ_of_le (length_skipSequence_le chars)
  · exact Nat.lt_succ_self _

def stripAnsi (s : String) : String := String.ofList (strip [] s.toList)

/-! ### Any text -/

variable {result chars : List Char}

theorem esc_notMem_strip (h : esc ∉ result) : esc ∉ strip result chars := by
  fun_induction strip result chars with
  | case1 result => exact h
  | case2 result chars ih => exact ih h
  | case3 result c chars hc ih =>
    refine ih ?_
    rw [List.mem_append, List.mem_singleton, not_or]
    exact ⟨h, Ne.symm hc⟩

/-- A text without escapes is pushed as it is. -/
theorem strip_of_esc_notMem (h : esc ∉ chars) : strip result chars = result ++ chars := by
  induction chars generalizing result with
  | nil => rw [strip, List.append_nil]
  | cons c chars ih =>
    obtain ⟨hc, hchars⟩ := not_or.mp (mt List.mem_cons.mpr h)
    rw [strip, if_neg (Ne.symm hc), ih hchars, List.append_assoc, List.singleton_append]

/-! ### Texts with sequences in them -/

/-- `ESC [`, parameters without a letter, and the letter they end with. -/
structure Sequence where
  parameters : List Char
  letter : Char
  noLetter : ∀ c ∈ parameters, c.isAlpha = false
  isLetter : letter.isAlpha = true

def Sequence.text (q : Sequence) : List Char := esc :: '[' :: (q.parameters ++ [q.letter])

/-- The second text is the first with sequences put in, anywhere and any number of them. -/
inductive Inserted : List Char → List Char → Prop where
  | nil : Inserted [] []
  | char (c : Char) {text marked : List Char} (h : Inserted text marked) : Inserted (c :: text) (c :: marked)
  | sequence (q : Sequence) {text marked : List Char} (h : Inserted text marked) : Inserted text (q.text ++ marked)

/-- The inner loop takes what belongs to the sequence, and nothing else. -/
theorem skipParameters_append {parameters : List Char} {letter : Char} (hno : ∀ c ∈ parameters, c.isAlpha = false)
    (hletter : letter.isAlpha = true) : skipParameters (parameters ++ letter :: chars) = chars := by
  induction parameters with
  | nil => rw [List.nil_append, skipParameters, if_pos hletter]
  | cons c parameters ih =>
    obtain ⟨hc, hrest⟩ := List.forall_mem_cons.mp hno
    rw [List.cons_append, skipParameters, if_neg (Bool.eq_false_iff.mp hc), ih hrest]

theorem strip_sequence (q : Sequence) : strip result (q.text ++ chars) = strip result chars := by
  have hbehind : skipSequence ('[' :: (q.parameters ++ [q.letter] ++ chars)) = chars := by
    rw [skipSequence, if_pos rfl, List.append_assoc]
    exact skipParameters_append q.noLetter q.isLetter
  rw [Sequence.text, List.cons_append, List.cons_append, strip, if_pos rfl, hbehind]

theorem strip_inserted {text marked : List Char} (h : Inserted text marked) (htext : esc ∉ text) :
    strip result marked = result ++ text := by
  induction h generalizing result with
  | nil => rw [strip, List.append_nil]
  | char c _ ih =>
    obtain ⟨hc, hrest⟩ := not_or.mp (mt List.mem_cons.mpr htext)
    rw [strip, if_neg (Ne.symm hc), ih hrest, List.append_assoc, List.singleton_append]
  | sequence q _ ih => rw [strip_sequence, ih htext]

/-- No escape is left of any text, so stripping once is enough; and a text without escapes comes back
from whatever sequences were put into it. -/
theorem stripAnsi_removes_sequences :
    (∀ s : String, esc ∉ (stripAnsi s).toList ∧ stripAnsi (stripAnsi s) = stripAnsi s) ∧
      ∀ text marked : String, esc ∉ text.toList → Inserted text.toList marked.toList → stripAnsi marked = text := by
  have hnone (s : String) : esc ∉ (stripAnsi s).toList := by
    rw [stripAnsi, String.toList_ofList]
    exact esc_notMem_strip List.not_mem_nil
  refine ⟨fun s => ⟨hnone s, ?_⟩, fun text marked htext hinserted => ?_⟩
  · rw [stripAnsi, strip_of_esc_notMem (hnone s), List.nil_append, String.ofList_toList]
  · rw [stripAnsi, strip_inserted hinserted htext, List.nil_append, String.ofList_toList]

/-- A bold word whose letters are marked one by one, with a sequence that has no parameters behind it. -/
theorem stripAnsi_bold : esc ∉ "ok".toList ∧ stripAnsi "\x1b[1;3mo\x1b[0mk\x1b[K" = "ok" := by
  have htext : esc ∉ "ok".toList := by decide
  refine ⟨htext, stripAnsi_removes_sequences.2 "ok" _ htext ?_⟩
  exact .sequence ⟨['1', ';', '3'], 'm', by simp, by decide⟩ (.char 'o' (.sequence ⟨['0'], 'm', by simp, by decide⟩
    (.char 'k' (.sequence ⟨[], 'K', by simp, by decide⟩ .nil))))

end NodeGet.Server.StripAnsi
