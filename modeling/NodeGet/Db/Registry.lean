import Mathlib.Logic.Function.Basic
import NodeGet.Core.Error

/-! The table of user databases (`db_registry`): a key and a name for each, both
unique. It is kept as the two maps its unique indexes are, each the inverse of the
other, so that a table with a repeated name cannot be written down. -/
namespace NodeGet.Db
open NodeGet.Core Function

/-- `validate_db_name` (`ng-db/src/rpc/db/auth.rs`). -/
def validateDbName (name : String) : Except NodegetError Unit :=
  if name.isEmpty then .error (.invalidInput "db name cannot be empty")
  else if name.utf8ByteSize > 128 then .error (.invalidInput "db name too long (max 128 chars)")
  else if ¬name.toList.all (fun c => c.isAlphanum || c == '_' || c == '-' || c == '.') then
    .error (.invalidInput "db name contains invalid characters (only [A-Za-z0-9_.-] allowed)")
  else if name = "." ∨ name = ".." then .error (.invalidInput "db name cannot be '.' or '..'")
  else .ok ()

structure Registry where
  idOf : String → Option Nat
  nameOf : Nat → Option String
  nextId : Nat
  inverse : ∀ name id, idOf name = some id ↔ nameOf id = some name
  below : ∀ id name, nameOf id = some name → id < nextId

namespace Registry
variable (r : Registry) {name : String} {id : Nat}

theorem id_lt (h : r.idOf name = some id) : id < r.nextId := r.below id name ((r.inverse name id).mp h)

/-- `DELETE` by key; nothing happens if the row is gone. -/
def delete (id : Nat) : Registry where
  idOf name := if r.idOf name = some id then none else r.idOf name
  nameOf := update r.nameOf id none
  nextId := r.nextId
  inverse name i := by
    by_cases hi : i = id
    · subst hi
      simp [update_self]
    · rw [update_of_ne hi, ← r.inverse]
      split
      · rename_i h
        simp [h, Ne.symm hi]
      · rfl
  below i name h := by
    by_cases hi : i = id
    · subst hi
      simp at h
    · exact r.below i name (by simpa [update_of_ne hi] using h)

/-- `INSERT` of a new row, refused if the name is taken. -/
def insert (name : String) : Option Registry :=
  if h : r.idOf name = none then
    some {
      idOf := update r.idOf name (some r.nextId)
      nameOf := update r.nameOf r.nextId (some name)
      nextId := r.nextId + 1
      inverse := fun n i => by
        have hfresh : r.idOf n ≠ some r.nextId := fun hn => Nat.lt_irrefl _ (r.id_lt hn)
        by_cases hn : n = name <;> by_cases hi : i = r.nextId
        · simp [hn, hi]
        · have hnone : r.nameOf i ≠ some name := fun hname => by
            have hid := (r.inverse name i).mpr hname
            simp [h] at hid
          simp [hn, update_of_ne hi, hnone, Ne.symm hi]
        · subst hi
          simp [update_of_ne hn, hfresh, Ne.symm hn]
        · rw [update_of_ne hn, update_of_ne hi, r.inverse]
      below := fun i n hn => by
        by_cases hi : i = r.nextId
        · omega
        · rw [update_of_ne hi] at hn
          exact Nat.lt_succ_of_lt (r.below i n hn) }
  else none

/-- `UPDATE` of the name by key, refused if the row is gone or another has the name. -/
def rename (id : Nat) (name : String) : Option Registry :=
  if h : (r.nameOf id).isSome ∧ (r.idOf name = none ∨ r.idOf name = some id) then
    some {
      idOf := fun n => if n = name then some id else if r.idOf n = some id then none else r.idOf n
      nameOf := update r.nameOf id (some name)
      nextId := r.nextId
      inverse := fun n i => by
        by_cases hn : n = name <;> by_cases hi : i = id
        · simp [hn, hi]
        · have hother : r.nameOf i ≠ some name := fun hname => by
            have hid := (r.inverse name i).mpr hname
            rcases h.2 with hnone | hsame
            · simp [hnone] at hid
            · exact hi (Option.some.inj (hid.symm.trans hsame))
          simp [hn, update_of_ne hi, hother, Ne.symm hi]
        · subst hi
          simp [hn, Ne.symm hn]
        · rw [if_neg hn, update_of_ne hi, ← r.inverse]
          split
          · rename_i hid
            simp [hid, Ne.symm hi]
          · rfl
      below := fun i n hn => by
        by_cases hi : i = id
        · obtain ⟨old, hold⟩ := Option.isSome_iff_exists.mp h.1
          exact hi ▸ r.below id old hold
        · rw [update_of_ne hi] at hn
          exact r.below i n hn }
  else none

end Registry

end NodeGet.Db
