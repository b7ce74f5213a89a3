import NodeGet.Core.Json

/-! The compact text of a JSON value, as `serde_json` writes it and as the database
keeps it in a text column. How a number is written is a parameter.

A string literal says where it ends (`stringText_append_inj`), and no control character
stands in a text (`control_notMem_text`). -/
namespace NodeGet.Core

def hexDigit (n : Nat) : Char := "0123456789abcdef".toList.getD n '0'

/-- A character inside a string literal. -/
def escapeChar (c : Char) : List Char :=
  if c = '"' then ['\\', '"']
  else if c = '\\' then ['\\', '\\']
  else if c.toNat = 8 then ['\\', 'b']
  else if c.toNat = 9 then ['\\', 't']
  else if c.toNat = 10 then ['\\', 'n']
  else if c.toNat = 12 then ['\\', 'f']
  else if c.toNat = 13 then ['\\', 'r']
  else if c.toNat < 32 then ['\\', 'u', '0', '0', hexDigit (c.toNat / 16), hexDigit (c.toNat % 16)]
  else [c]

def stringText (s : String) : List Char := '"' :: s.toList.flatMap escapeChar ++ ['"']

/-- What stands between the brackets of an array or an object. -/
def commaSeparated : List (List Char) → List Char
  | [] => []
  | [item] => item
  | item :: rest => item ++ ',' :: commaSeparated rest

namespace Json
variable (number : JsonNumber → List Char)

mutual

def text : Json → List Char
  | null => "null".toList
  | bool value => (if value then "true" else "false").toList
  | num value => number value
  | str value => stringText value
  | arr items => '[' :: commaSeparated (itemTexts items) ++ [']']
  | obj members => Char.ofNat 123 :: commaSeparated (memberTexts members) ++ [Char.ofNat 125]

def itemTexts : List Json → List (List Char)
  | [] => []
  | item :: rest => text item :: itemTexts rest

def memberTexts : List (String × Json) → List (List Char)
  | [] => []
  | (key, value) :: rest => (stringText key ++ ':' :: text value) :: memberTexts rest

end

theorem itemTexts_eq (items : List Json) : itemTexts number items = items.map (text number) := by
  induction items with
  | nil => rfl
  | cons item rest ih => rw [itemTexts, ih, List.map_cons]

/-- A member's name and its value. -/
def memberText (member : String × Json) : List Char := stringText member.1 ++ ':' :: text number member.2

theorem memberTexts_eq (members : List (String × Json)) :
    memberTexts number members = members.map (memberText number) := by
  induction members with
  | nil => rfl
  | cons member rest ih =>
    obtain ⟨key, value⟩ := member
    rw [memberTexts, ih, List.map_cons]
    rfl

end Json

/-! ### Reading a string back -/

/-- What is checked for each element of a list. A `∀` over characters is decided over all
characters there are where the type is known to be finite. -/
theorem forall_mem_of_all {α : Type} {l : List α} {P : α → Prop} [DecidablePred P]
    (h : (l.all fun a => decide (P a)) = true) : ∀ a ∈ l, P a :=
  fun a ha => of_decide_eq_true (List.all_eq_true.mp h a ha)

/-- The characters that are not written as themselves. -/
def escapedChars : List Char := '"' :: '\\' :: (List.range 32).map Char.ofNat

variable {c : Char} {rest rest' : List Char}

theorem mem_escapedChars_of_control (h : c.toNat < 32) : c ∈ escapedChars :=
  List.mem_cons_of_mem _ (List.mem_cons_of_mem _
    (List.mem_map.mpr ⟨c.toNat, List.mem_range.mpr h, Char.ofNat_toNat c⟩))

theorem escapeChar_plain (h : c ∉ escapedChars) : escapeChar c = [c] := by
  have hcontrol : ¬c.toNat < 32 := fun hc => h (mem_escapedChars_of_control hc)
  have hquote : c ≠ '"' := by
    rintro rfl
    exact h (by decide)
  have hbackslash : c ≠ '\\' := by
    rintro rfl
    exact h (by decide)
  unfold escapeChar
  rw [if_neg hquote, if_neg hbackslash, if_neg (by omega), if_neg (by omega), if_neg (by omega), if_neg (by omega),
    if_neg (by omega), if_neg hcontrol]

theorem escapeChar_escaped (h : c ∈ escapedChars) : (escapeChar c).head? = some '\\' := by
  have hall : ∀ c ∈ escapedChars, (escapeChar c).head? = some '\\' := forall_mem_of_all (by decide +kernel)
  exact hall c h

theorem head?_escapeChar_append (c : Char) (rest : List Char) :
    (escapeChar c ++ rest).head? = some (if c ∈ escapedChars then '\\' else c) := by
  split
  next h => rw [List.head?_append, escapeChar_escaped h, Option.some_or]
  next h => rw [escapeChar_plain h, List.singleton_append, List.head?_cons]

/-- What is written for a character is not the beginning of what is written for another. -/
theorem escapeChar_append_inj {d : Char} (h : escapeChar c ++ rest = escapeChar d ++ rest') : c = d ∧ rest = rest' := by
  have hpairs : ∀ c ∈ escapedChars, (escapedChars.all fun d => decide (escapeChar c <+: escapeChar d → c = d)) = true :=
    forall_mem_of_all (by decide +kernel)
  have hall : ∀ c ∈ escapedChars, ∀ d ∈ escapedChars, escapeChar c <+: escapeChar d → c = d :=
    fun c hc => forall_mem_of_all (hpairs c hc)
  have heq : c = d := by
    have hhead := congrArg List.head? h
    rw [head?_escapeChar_append, head?_escapeChar_append, Option.some.injEq] at hhead
    have hbackslash : '\\' ∈ escapedChars := by decide
    split at hhead
    next hc =>
      split at hhead
      next hd =>
        rcases List.prefix_or_prefix_of_prefix (List.prefix_append _ rest) (h ▸ List.prefix_append _ rest') with hpre | hpre
        · exact hall c hc d hd hpre
        · exact (hall d hd c hc hpre).symm
      next hd => exact absurd (hhead ▸ hbackslash) hd
    next hc =>
      split at hhead
      next => exact absurd (hhead ▸ hbackslash) hc
      next => exact hhead
  subst heq
  exact ⟨rfl, List.append_cancel_left h⟩

/-- The first quote that is not escaped ends a literal. -/
theorem escaped_append_inj {s s' : List Char}
    (h : s.flatMap escapeChar ++ '"' :: rest = s'.flatMap escapeChar ++ '"' :: rest') : s = s' ∧ rest = rest' := by
  have hquote : ∀ (c : Char) (more tail : List Char), '"' :: tail ≠ escapeChar c ++ more := by
    intro c more tail heq
    have hhead := congrArg List.head? heq
    rw [head?_escapeChar_append, List.head?_cons, Option.some.injEq] at hhead
    split at hhead
    next => exact absurd hhead (by decide)
    next hc => exact hc (hhead ▸ by decide)
  induction s generalizing s' with
  | nil =>
    cases s' with
    | nil => exact ⟨rfl, (List.cons.inj h).2⟩
    | cons d s' =>
      rw [List.flatMap_cons, List.append_assoc] at h
      exact absurd h (hquote d _ _)
  | cons c s ih =>
    rw [List.flatMap_cons, List.append_assoc] at h
    cases s' with
    | nil => exact absurd h.symm (hquote c _ _)
    | cons d s' =>
      rw [List.flatMap_cons, List.append_assoc] at h
      obtain ⟨rfl, htail⟩ := escapeChar_append_inj h
      obtain ⟨rfl, hrest⟩ := ih htail
      exact ⟨rfl, hrest⟩

theorem stringText_append (s : String) (rest : List Char) :
    stringText s ++ rest = '"' :: (s.toList.flatMap escapeChar ++ '"' :: rest) := by
  simp [stringText]

theorem stringText_append_inj {s s' : String} (h : stringText s ++ rest = stringText s' ++ rest') :
    s = s' ∧ rest = rest' := by
  rw [stringText_append, stringText_append] at h
  obtain ⟨hs, hrest⟩ := escaped_append_inj (List.cons.inj h).2
  exact ⟨String.toList_inj.mp hs, hrest⟩

/-! ### Control characters -/

theorem control_notMem_escapeChar (hc : c.toNat < 32) (d : Char) : c ∉ escapeChar d := by
  have hall : ∀ d ∈ escapedChars, ((escapeChar d).all fun e => decide (32 ≤ e.toNat)) = true :=
    forall_mem_of_all (by decide +kernel)
  intro hmem
  by_cases hd : d ∈ escapedChars
  · have hprintable : 32 ≤ c.toNat := forall_mem_of_all (hall d hd) c hmem
    omega
  · rw [escapeChar_plain hd, List.mem_singleton] at hmem
    exact hd (hmem ▸ mem_escapedChars_of_control hc)

theorem control_notMem_stringText (hc : c.toNat < 32) (s : String) : c ∉ stringText s := by
  intro hmem
  unfold stringText at hmem
  simp only [List.cons_append, List.mem_cons, List.mem_append, List.mem_flatMap, List.not_mem_nil, or_false] at hmem
  rcases hmem with rfl | ⟨d, -, hd⟩ | rfl
  · exact absurd hc (by decide)
  · exact control_notMem_escapeChar hc d hd
  · exact absurd hc (by decide)

theorem mem_commaSeparated {items : List (List Char)} (h : c ∈ commaSeparated items) :
    c = ',' ∨ ∃ item ∈ items, c ∈ item := by
  induction items with
  | nil => exact absurd h List.not_mem_nil
  | cons item rest ih =>
    cases rest with
    | nil => exact .inr ⟨item, List.mem_cons_self, h⟩
    | cons next rest =>
      rcases List.mem_append.mp h with h | h
      · exact .inr ⟨item, List.mem_cons_self, h⟩
      · rcases List.mem_cons.mp h with rfl | h
        · exact .inl rfl
        · exact (ih h).imp id fun ⟨item, hmem, hc⟩ => ⟨item, List.mem_cons_of_mem _ hmem, hc⟩

/-- A text is on one line and has no other control character either. -/
theorem control_notMem_text {number : JsonNumber → List Char} (hc : c.toNat < 32) (hnumber : ∀ value, c ∉ number value)
    (v : Json) : c ∉ v.text number := by
  have hne : ∀ d : Char, 32 ≤ d.toNat → c ≠ d := by
    intro d hd heq
    rw [heq] at hc
    omega
  induction v with
  | null => simp [Json.text, hne]
  | bool value => cases value <;> simp [Json.text, hne]
  | num value => exact hnumber value
  | str value => exact control_notMem_stringText hc value
  | arr items ih =>
    intro hmem
    simp only [Json.text, Json.itemTexts_eq, List.cons_append, List.mem_cons, List.mem_append, List.not_mem_nil,
      or_false] at hmem
    rcases hmem with h | h | h
    · exact hne '[' (by decide) h
    · rcases mem_commaSeparated h with h | ⟨text, htext, h⟩
      · exact hne ',' (by decide) h
      · obtain ⟨item, hitem, rfl⟩ := List.mem_map.mp htext
        exact ih item hitem h
    · exact hne ']' (by decide) h
  | obj members ih =>
    intro hmem
    simp only [Json.text, Json.memberTexts_eq, List.cons_append, List.mem_cons, List.mem_append, List.not_mem_nil,
      or_false] at hmem
    rcases hmem with h | h | h
    · exact hne (Char.ofNat 123) (by decide) h
    · rcases mem_commaSeparated h with h | ⟨text, htext, h⟩
      · exact hne ',' (by decide) h
      · obtain ⟨member, hmember, rfl⟩ := List.mem_map.mp htext
        rcases List.mem_append.mp h with h | h
        · exact control_notMem_stringText hc member.1 h
        · rcases List.mem_cons.mp h with h | h
          · exact hne ':' (by decide) h
          · exact ih member hmember h
    · exact hne (Char.ofNat 125) (by decide) h

end NodeGet.Core
