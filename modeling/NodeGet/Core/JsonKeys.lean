import Mathlib.Data.List.Infix
import NodeGet.Core.JsonText

/-! Where a quoted word with a colon behind it stands in the text of a JSON value.

A quote that is not escaped opens or closes a string, and only the closing quote of a
member's name is followed by a colon. A word without quotes and backslashes is therefore
found exactly at the end of the names that are the word, or that end in a quote and the
word (`quotedKey_infix_text_iff`); what the strings of the value say does not matter. -/
namespace NodeGet.Core

namespace Json

mutual

/-- The names of the members of a value and of what is inside it. -/
def keys : Json → List String
  | arr items => itemKeys items
  | obj members => memberKeys members
  | _ => []

def itemKeys : List Json → List String
  | [] => []
  | item :: rest => keys item ++ itemKeys rest

def memberKeys : List (String × Json) → List String
  | [] => []
  | (key, value) :: rest => key :: keys value ++ memberKeys rest

end

theorem itemKeys_eq (items : List Json) : itemKeys items = items.flatMap keys := by
  induction items with
  | nil => rfl
  | cons item rest ih => rw [itemKeys, ih, List.flatMap_cons]

theorem memberKeys_eq (members : List (String × Json)) :
    memberKeys members = members.flatMap fun member => member.1 :: keys member.2 := by
  induction members with
  | nil => rfl
  | cons member rest ih =>
    obtain ⟨key, value⟩ := member
    rw [memberKeys, ih, List.flatMap_cons]

end Json

/-- A word that is written as it is and is told from what may follow a string. -/
structure PlainWord (word : List Char) : Prop where
  nonempty : word ≠ []
  written : ∀ c ∈ word, c ∉ escapedChars
  noDelimiter : ∀ c ∈ word, c ∉ [',', ':', ']', Char.ofNat 125]

def quotedKey (word : List Char) : List Char := '"' :: word ++ ['"', ':']

variable {word : List Char}

theorem PlainWord.escaped (h : PlainWord word) : word.flatMap escapeChar = word := by
  have hall : ∀ w : List Char, (∀ c ∈ w, c ∉ escapedChars) → w.flatMap escapeChar = w := by
    intro w hw
    induction w with
    | nil => rfl
    | cons c w ih =>
      rw [List.flatMap_cons, escapeChar_plain (hw c List.mem_cons_self), ih fun d hd => hw d (List.mem_cons_of_mem c hd)]
      rfl
  exact hall word h.written

/-! ### Passing over a text -/

variable {c : Char} {text rest : List Char} {number : JsonNumber → List Char}

theorem quotedKey_infix_cons (hc : c ≠ '"') (rest : List Char) :
    quotedKey word <:+: c :: rest ↔ quotedKey word <:+: rest := by
  rw [List.infix_cons_iff]
  refine or_iff_right fun h => hc ?_
  obtain ⟨tail, htail⟩ := h
  exact (List.cons.inj htail).1.symm

theorem quotedKey_infix_append (h : '"' ∉ text) (rest : List Char) :
    quotedKey word <:+: text ++ rest ↔ quotedKey word <:+: rest := by
  induction text with
  | nil => rfl
  | cons c text ih =>
    rw [List.mem_cons, not_or] at h
    rw [List.cons_append, quotedKey_infix_cons (Ne.symm h.1), ih h.2]

theorem quotedKey_infix_quote (rest : List Char) :
    quotedKey word <:+: '"' :: rest ↔ word ++ ['"', ':'] <+: rest ∨ quotedKey word <:+: rest := by
  rw [List.infix_cons_iff, quotedKey, List.cons_append, List.cons_prefix_cons]
  simp

/-- Behind an opening quote the word is the string itself. -/
theorem word_prefix_escaped_iff (h : PlainWord word) (s rest : List Char) :
    word ++ ['"', ':'] <+: s.flatMap escapeChar ++ '"' :: rest ↔ s = word ∧ rest.head? = some ':' := by
  constructor
  · intro hbegins
    obtain ⟨tail, htail⟩ := hbegins
    rw [List.append_assoc] at htail
    nth_rewrite 1 [← h.escaped] at htail
    obtain ⟨heq, hrest⟩ := escaped_append_inj htail
    exact ⟨heq.symm, by rw [← hrest]; rfl⟩
  · intro h'
    obtain ⟨heq, hcolon⟩ := h'
    obtain ⟨tail, htail⟩ := List.head?_eq_some_iff.mp hcolon
    rw [heq, h.escaped, htail]
    exact ⟨tail, by simp⟩

theorem quote_notMem_escapeChar (h : c ≠ '"') : '"' ∉ escapeChar c := by
  have hall : ∀ c ∈ escapedChars, c ≠ '"' → '"' ∉ escapeChar c := forall_mem_of_all (by decide +kernel)
  by_cases hc : c ∈ escapedChars
  · exact hall c hc h
  · rw [escapeChar_plain hc, List.mem_singleton]
    exact Ne.symm h

/-- The word at the end of a name, behind its opening quote or behind a quote in it. -/
def EndsName (word : List Char) (name : String) : Prop := ('"' :: word) <:+ '"' :: name.toList

theorem quotedKey_infix_escaped (h : PlainWord word) (s : List Char) (hrest : ¬word ++ ['"', ':'] <+: rest) :
    quotedKey word <:+: s.flatMap escapeChar ++ '"' :: rest ↔
      (('"' :: word) <:+ s ∧ rest.head? = some ':') ∨ quotedKey word <:+: rest := by
  induction s with
  | nil => simp [quotedKey_infix_quote, hrest]
  | cons c s ih =>
    rw [List.flatMap_cons, List.append_assoc, List.suffix_cons_iff]
    by_cases hc : c = '"'
    · -- an escaped quote, behind which the rest of the string may be the word
      subst hc
      show quotedKey word <:+: '\\' :: '"' :: (s.flatMap escapeChar ++ '"' :: rest) ↔ _
      rw [quotedKey_infix_cons (by decide), quotedKey_infix_quote, word_prefix_escaped_iff h, ih, ← or_assoc,
        ← or_and_right]
      simp [eq_comm]
    · rw [quotedKey_infix_append (quote_notMem_escapeChar hc), ih]
      simp [Ne.symm hc]

theorem quotedKey_infix_string (h : PlainWord word) (s : String) (hrest : ¬word ++ ['"', ':'] <+: rest) :
    quotedKey word <:+: stringText s ++ rest ↔
      (EndsName word s ∧ rest.head? = some ':') ∨ quotedKey word <:+: rest := by
  rw [stringText_append, quotedKey_infix_quote, word_prefix_escaped_iff h, quotedKey_infix_escaped h _ hrest,
    EndsName, List.suffix_cons_iff, ← or_assoc, ← or_and_right]
  simp [eq_comm]

/-! ### Values -/

/-- What may stand behind a value. -/
def Closes (rest : List Char) : Prop := ∀ c, rest.head? = some c → c ∈ [',', ']', Char.ofNat 125]

theorem Closes.not_word (hrest : Closes rest) (h : PlainWord word) : ¬word ++ ['"', ':'] <+: rest := by
  intro hbegins
  obtain ⟨c, w, rfl⟩ := List.exists_cons_of_ne_nil h.nonempty
  obtain ⟨tail, rfl⟩ := hbegins
  have hc := hrest c rfl
  have hno := h.noDelimiter c List.mem_cons_self
  simp only [List.mem_cons, List.not_mem_nil, or_false, not_or] at hc hno
  rcases hc with hc | hc | hc
  · exact hno.1 hc
  · exact hno.2.2.1 hc
  · exact hno.2.2.2 hc

theorem PlainWord.not_colon (h : PlainWord word) (rest : List Char) : ¬word ++ ['"', ':'] <+: ':' :: rest := by
  intro hbegins
  obtain ⟨c, w, rfl⟩ := List.exists_cons_of_ne_nil h.nonempty
  obtain ⟨tail, htail⟩ := hbegins
  have hc : c = ':' := (List.cons.inj htail).1
  exact h.noDelimiter c List.mem_cons_self (by simp [hc])

/-- In the text, whatever stands behind it, the word is found at the end of these names only. -/
def FoundAt (word : List Char) (names : List String) (text : List Char) : Prop :=
  ∀ rest, Closes rest →
    (quotedKey word <:+: text ++ rest ↔ (∃ name ∈ names, EndsName word name) ∨ quotedKey word <:+: rest)

theorem foundAt_of_noQuote (h : '"' ∉ text) : FoundAt word [] text := by
  intro rest _
  rw [quotedKey_infix_append h]
  simp

theorem foundAt_string (h : PlainWord word) (s : String) : FoundAt word [] (stringText s) := by
  intro rest hrest
  have hcolon : rest.head? ≠ some ':' := fun hc => absurd (hrest ':' hc) (by decide)
  rw [quotedKey_infix_string h s (hrest.not_word h)]
  simp [hcolon]

theorem FoundAt.member (h : PlainWord word) (name : String) {names : List String} (htext : FoundAt word names text) :
    FoundAt word (name :: names) (stringText name ++ ':' :: text) := by
  intro rest hrest
  rw [List.append_assoc, List.cons_append, quotedKey_infix_string h name (h.not_colon _),
    quotedKey_infix_cons (by decide), htext rest hrest]
  simp [or_assoc]

theorem FoundAt.bracketed {names : List String} {text : List Char} (htext : FoundAt word names text) {opening close : Char}
    (hopening : opening ≠ '"') (hclose : close ∈ [']', Char.ofNat 125]) :
    FoundAt word names (opening :: text ++ [close]) := by
  intro rest _
  have hquote : close ≠ '"' := by
    intro heq
    rw [heq] at hclose
    exact absurd hclose (by decide)
  have hcloses : Closes (close :: rest) := by
    intro c hc
    cases hc
    exact List.mem_cons_of_mem _ hclose
  rw [List.cons_append, List.cons_append, List.append_assoc, quotedKey_infix_cons hopening, List.singleton_append,
    htext _ hcloses, quotedKey_infix_cons hquote]

/-- The parts of an array or an object, with the names of each. -/
theorem FoundAt.separated {α : Type*} {text : α → List Char} {names : α → List String} (parts : List α)
    (h : ∀ part ∈ parts, FoundAt word (names part) (text part)) :
    FoundAt word (parts.flatMap names) (commaSeparated (parts.map text)) := by
  induction parts with
  | nil => exact foundAt_of_noQuote List.not_mem_nil
  | cons part parts ih =>
    have hpart := h part List.mem_cons_self
    have hparts := ih fun p hp => h p (List.mem_cons_of_mem part hp)
    cases parts with
    | nil => simpa [commaSeparated] using hpart
    | cons next parts =>
      intro rest hrest
      have hcomma : Closes (',' :: (commaSeparated ((next :: parts).map text) ++ rest)) := by
        intro c hc
        cases hc
        exact List.mem_cons_self
      show quotedKey word <:+: text part ++ ',' :: commaSeparated ((next :: parts).map text) ++ rest ↔ _
      rw [List.append_assoc, List.cons_append, hpart _ hcomma, quotedKey_infix_cons (by decide), hparts rest hrest,
        show (part :: next :: parts).flatMap names = names part ++ (next :: parts).flatMap names from List.flatMap_cons]
      simp only [List.mem_append, or_and_right, exists_or, or_assoc]

theorem foundAt_text (hnumber : ∀ value, '"' ∉ number value) (h : PlainWord word) (v : Json) :
    FoundAt word v.keys (v.text number) := by
  induction v with
  | null => exact foundAt_of_noQuote (by simp [Json.text])
  | bool value => exact foundAt_of_noQuote (by cases value <;> simp [Json.text])
  | num value => exact foundAt_of_noQuote (hnumber value)
  | str value => exact foundAt_string h value
  | arr items ih =>
    rw [Json.keys, Json.text, Json.itemKeys_eq, Json.itemTexts_eq]
    exact (FoundAt.separated items ih).bracketed (by decide) (by decide)
  | obj members ih =>
    rw [Json.keys, Json.text, Json.memberKeys_eq, Json.memberTexts_eq]
    refine (FoundAt.separated members fun member hmember => ?_).bracketed (by decide) (by decide)
    exact (ih member hmember).member h member.1

/-- **A quoted word with a colon is found in the text of a value exactly at the end of the names
of its members.** -/
theorem quotedKey_infix_text_iff (hnumber : ∀ value, '"' ∉ number value) (h : PlainWord word) (v : Json) :
    quotedKey word <:+: v.text number ↔ ∃ name ∈ v.keys, EndsName word name := by
  have hfound := foundAt_text hnumber h v [] (fun c hc => by cases hc)
  rw [List.append_nil] at hfound
  rw [hfound]
  simp [quotedKey]

end NodeGet.Core
