import Mathlib.Data.Rat.Encodable
import NodeGet.Core.JsonText

/-! A JSON text belongs to one value, whatever stands behind it (`text_readable`).

The first character tells the kind of value. A string, an array and an object say where they
end; a number ends where something follows that is no part of a number. -/
namespace NodeGet.Core

def numberChars : List Char := "0123456789+-.e".toList

/-- How `serde_json` writes numbers, as far as it matters where they end. -/
structure NumberWriter where
  write : JsonNumber → List Char
  inj : ∀ a b, write a = write b → a = b
  nonempty : ∀ a, write a ≠ []
  chars : ∀ a, ∀ c ∈ write a, c ∈ numberChars

/-- What can stand behind a value. -/
def delimiters : List Char := [',', ']', Char.ofNat 125, '\n']

def Delimited (rest : List Char) : Prop := ∀ c ∈ rest.head?, c ∈ delimiters

theorem Delimited.nil : Delimited [] := fun _ h => by cases h

variable {c close : Char} {rest rest' : List Char} {n : Nat} {v w : Json}

theorem Delimited.cons (h : c ∈ delimiters) (rest : List Char) : Delimited (c :: rest) := by
  intro d hd
  cases hd
  exact h

theorem NumberWriter.write_append_inj (N : NumberWriter) {a b : JsonNumber} (hrest : Delimited rest)
    (hrest' : Delimited rest') (h : N.write a ++ rest = N.write b ++ rest') : a = b ∧ rest = rest' := by
  have hends : ∀ rest, Delimited rest → rest.takeWhile (· ∈ numberChars) = [] := by
    have hdelimiters : ∀ c ∈ delimiters, c ∉ numberChars := forall_mem_of_all (by decide)
    intro rest hrest
    cases rest with
    | nil => rfl
    | cons c rest => exact List.takeWhile_cons_of_neg (by simpa using hdelimiters c (hrest c rfl))
  have hwrite : ∀ value rest, Delimited rest → (N.write value ++ rest).takeWhile (· ∈ numberChars) = N.write value := by
    intro value rest hrest
    rw [List.takeWhile_append_of_pos fun c hc => decide_eq_true (N.chars value c hc), hends rest hrest, List.append_nil]
  have heq : N.write a = N.write b := by
    rw [← hwrite a rest hrest, h, hwrite b rest' hrest']
  rw [heq] at h
  exact ⟨N.inj a b heq, List.append_cancel_left h⟩

/-- Numbers can be counted, so there is such a writer. -/
instance NumberWriter.instNonempty : Nonempty NumberWriter := by
  let code : JsonNumber → (Int ⊕ ℚ) ⊕ Unit
    | .int n => .inl (.inl n)
    | .float q => .inl (.inr q)
    | .negZero => .inr ()
  have hcode : Function.Injective code := by
    intro a b h
    cases a <;> cases b <;> simp_all [code]
  have : Countable JsonNumber := hcode.countable
  obtain ⟨index, hindex⟩ := exists_injective_nat JsonNumber
  refine ⟨⟨fun a => List.replicate (index a + 1) '0', fun a b h => hindex ?_, fun a => ?_, fun a c hc => ?_⟩⟩
  · simpa using congrArg List.length h
  · simp
  · rw [List.eq_of_mem_replicate hc]
    decide

/-! ### Kinds of values -/

def Json.kind : Json → Nat
  | .null => 0
  | .bool _ => 1
  | .num _ => 2
  | .str _ => 3
  | .arr _ => 4
  | .obj _ => 5

/-- The kind that a text with this first character has. -/
def kindOf (c : Char) : Nat :=
  if c = 'n' then 0
  else if c = 't' ∨ c = 'f' then 1
  else if c ∈ numberChars then 2
  else if c = '"' then 3
  else if c = '[' then 4
  else 5

variable (N : NumberWriter)

theorem text_head (v : Json) : ∃ c tail, v.text N.write = c :: tail ∧ kindOf c = v.kind ∧ c ∉ delimiters := by
  cases v with
  | null => exact ⟨'n', _, rfl, by decide⟩
  | bool value =>
    cases value with
    | true => exact ⟨'t', _, rfl, by decide⟩
    | false => exact ⟨'f', _, rfl, by decide⟩
  | num value =>
    have hnumber : ∀ c ∈ numberChars, kindOf c = 2 ∧ c ∉ delimiters := forall_mem_of_all (by decide)
    cases htext : N.write value with
    | nil => exact absurd htext (N.nonempty value)
    | cons c tail => exact ⟨c, tail, htext, hnumber c (N.chars value c (htext ▸ List.mem_cons_self))⟩
  | str value => exact ⟨'"', _, rfl, (by decide : kindOf '"' = 3 ∧ '"' ∉ delimiters)⟩
  | arr items => exact ⟨'[', _, rfl, (by decide : kindOf '[' = 4 ∧ '[' ∉ delimiters)⟩
  | obj members =>
    exact ⟨Char.ofNat 123, _, rfl, (by decide : kindOf (Char.ofNat 123) = 5 ∧ Char.ofNat 123 ∉ delimiters)⟩

theorem kind_eq_of_append (h : v.text N.write ++ rest = w.text N.write ++ rest') : v.kind = w.kind := by
  obtain ⟨c, tail, hv, hkind, -⟩ := text_head N v
  obtain ⟨d, tail', hw, hkind', -⟩ := text_head N w
  rw [hv, hw, List.cons_append, List.cons_append] at h
  rw [← hkind, ← hkind', (List.cons.inj h).1]

/-! ### Lists -/

/-- What `f` writes tells what it was written for, when something follows that delimits it. -/
def Readable {α : Type} (f : α → List Char) (a : α) : Prop :=
  ∀ b rest rest', Delimited rest → Delimited rest' → f a ++ rest = f b ++ rest' → a = b ∧ rest = rest'

/-- What stands behind the first of several items. -/
def behindFirst (close : Char) (others : List (List Char)) (rest : List Char) : List Char :=
  match others with
  | [] => close :: rest
  | _ => ',' :: (commaSeparated others ++ close :: rest)

theorem commaSeparated_cons_append (first : List Char) (others : List (List Char)) (close : Char) (rest : List Char) :
    commaSeparated (first :: others) ++ close :: rest = first ++ behindFirst close others rest := by
  cases others with
  | nil => rfl
  | cons second others => exact List.append_assoc ..

theorem delimited_behindFirst (hclose : close ∈ delimiters) (others : List (List Char)) (rest : List Char) :
    Delimited (behindFirst close others rest) := by
  cases others with
  | nil => exact .cons hclose _
  | cons second others => exact .cons (by decide) _

theorem commaSeparated_append_inj {α : Type} {f : α → List Char} (hclose : close ∈ delimiters) (hcomma : close ≠ ',')
    (hstart : ∀ a rest, (f a ++ rest).head? ≠ some close) {l l' : List α} (hl : ∀ a ∈ l, Readable f a)
    (h : commaSeparated (l.map f) ++ close :: rest = commaSeparated (l'.map f) ++ close :: rest') :
    l = l' ∧ rest = rest' := by
  induction l generalizing l' with
  | nil =>
    cases l' with
    | nil => exact ⟨rfl, (List.cons.inj h).2⟩
    | cons b l' =>
      rw [List.map_cons, commaSeparated_cons_append] at h
      exact absurd (congrArg List.head? h).symm (hstart b _)
  | cons a l ih =>
    cases l' with
    | nil =>
      rw [List.map_cons, commaSeparated_cons_append] at h
      exact absurd (congrArg List.head? h) (hstart a _)
    | cons b l' =>
      rw [List.map_cons, List.map_cons, commaSeparated_cons_append, commaSeparated_cons_append] at h
      obtain ⟨rfl, hbehind⟩ := hl a List.mem_cons_self b _ _ (delimited_behindFirst hclose _ _)
        (delimited_behindFirst hclose _ _) h
      cases l with
      | nil =>
        cases l' with
        | nil => exact ⟨rfl, (List.cons.inj hbehind).2⟩
        | cons second l' => exact absurd (List.cons.inj hbehind).1 hcomma
      | cons second l =>
        cases l' with
        | nil => exact absurd (List.cons.inj hbehind).1.symm hcomma
        | cons second' l' =>
          obtain ⟨hrest, hend⟩ := ih (fun c hc => hl c (List.mem_cons_of_mem _ hc)) (List.cons.inj hbehind).2
          rw [hrest]
          exact ⟨rfl, hend⟩

/-! ### Values -/

theorem text_arr_append (items : List Json) (rest : List Char) :
    (Json.arr items).text N.write ++ rest =
      '[' :: (commaSeparated (items.map (Json.text N.write)) ++ ']' :: rest) := by
  simp [Json.text, Json.itemTexts_eq]

theorem text_obj_append (members : List (String × Json)) (rest : List Char) :
    (Json.obj members).text N.write ++ rest =
      Char.ofNat 123 :: (commaSeparated (members.map (Json.memberText N.write)) ++ Char.ofNat 125 :: rest) := by
  simp [Json.text, Json.memberTexts_eq]

theorem head?_text_append (v : Json) (rest : List Char) (hc : c ∈ delimiters) :
    (v.text N.write ++ rest).head? ≠ some c := by
  obtain ⟨d, tail, htext, -, hd⟩ := text_head N v
  rw [htext, List.cons_append, List.head?_cons]
  intro heq
  cases heq
  exact hd hc

theorem memberText_readable {member : String × Json} (h : Readable (Json.text N.write) member.2) :
    Readable (Json.memberText N.write) member := by
  intro member' rest rest' hrest hrest' heq
  rw [Json.memberText, Json.memberText, List.append_assoc, List.append_assoc] at heq
  obtain ⟨hkey, hvalue⟩ := stringText_append_inj heq
  obtain ⟨hvalue, hend⟩ := h _ rest rest' hrest hrest' (List.cons.inj hvalue).2
  exact ⟨Prod.ext hkey hvalue, hend⟩

theorem text_readable (v : Json) : Readable (Json.text N.write) v := by
  induction v with
  | null =>
    intro w rest rest' _ _ h
    have hkind := kind_eq_of_append N h
    cases w with
    | null => exact ⟨rfl, List.append_cancel_left h⟩
    | _ => cases hkind
  | bool value =>
    intro w rest rest' _ _ h
    have hkind := kind_eq_of_append N h
    cases w with
    | bool value' =>
      cases value with
      | true =>
        cases value' with
        | true => exact ⟨rfl, List.append_cancel_left h⟩
        | false => cases h
      | false =>
        cases value' with
        | true => cases h
        | false => exact ⟨rfl, List.append_cancel_left h⟩
    | _ => cases hkind
  | num value =>
    intro w rest rest' hrest hrest' h
    have hkind := kind_eq_of_append N h
    cases w with
    | num value' =>
      obtain ⟨rfl, hend⟩ := N.write_append_inj hrest hrest' h
      exact ⟨rfl, hend⟩
    | _ => cases hkind
  | str value =>
    intro w rest rest' _ _ h
    have hkind := kind_eq_of_append N h
    cases w with
    | str value' =>
      obtain ⟨rfl, hend⟩ := stringText_append_inj h
      exact ⟨rfl, hend⟩
    | _ => cases hkind
  | arr items ih =>
    intro w rest rest' _ _ h
    have hkind := kind_eq_of_append N h
    cases w with
    | arr items' =>
      rw [text_arr_append, text_arr_append] at h
      obtain ⟨rfl, hend⟩ := commaSeparated_append_inj (by decide) (by decide)
        (fun v rest => head?_text_append N v rest (by decide)) ih (List.cons.inj h).2
      exact ⟨rfl, hend⟩
    | _ => cases hkind
  | obj members ih =>
    intro w rest rest' _ _ h
    have hkind := kind_eq_of_append N h
    cases w with
    | obj members' =>
      rw [text_obj_append, text_obj_append] at h
      obtain ⟨rfl, hend⟩ := commaSeparated_append_inj (by decide) (by decide)
        (fun member rest => by simp [Json.memberText, stringText]) (fun member hmember => memberText_readable N (ih member hmember))
        (List.cons.inj h).2
      exact ⟨rfl, hend⟩
    | _ => cases hkind

/-- **A text belongs to one value.** -/
theorem text_inj (h : v.text N.write = w.text N.write) : v = w :=
  (text_readable N v w [] [] .nil .nil (by rw [h])).1

end NodeGet.Core
