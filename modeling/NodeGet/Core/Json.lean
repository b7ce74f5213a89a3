import Mathlib.Data.Rat.Defs
import Mathlib.Logic.Function.Basic

/-! `serde_json::Value` as far as the server computes with it. Objects are lists
of members in key order, as the `BTreeMap` behind `serde_json::Map` iterates.
A number is an integer or a float; floats are read as the rational they denote, and `-0.0`, which is
written otherwise than `0.0`, is a number of its own. -/
namespace NodeGet.Core
open Function

inductive JsonNumber where
  | int (value : Int)
  | float (value : ℚ)
  | negZero
deriving DecidableEq

inductive Json where
  | null
  | bool (value : Bool)
  | num (value : JsonNumber)
  | str (value : String)
  | arr (items : List Json)
  | obj (members : List (String × Json))

namespace Json

/-- What holds of a container if it holds of its parts holds of every value. -/
@[elab_as_elim, induction_eliminator]
theorem induct {P : Json → Prop} (null : P null) (bool : ∀ value, P (bool value)) (num : ∀ value, P (num value))
    (str : ∀ value, P (str value)) (arr : ∀ items, (∀ item ∈ items, P item) → P (arr items))
    (obj : ∀ members, (∀ member ∈ members, P member.2) → P (obj members)) (v : Json) : P v :=
  Json.rec null bool num str arr obj (fun _ h => absurd h List.not_mem_nil)
    (fun _ _ hitem hrest _ h => (List.mem_cons.mp h).elim (fun heq => heq ▸ hitem) (hrest _))
    (fun _ h => absurd h List.not_mem_nil)
    (fun _ _ hmember hrest _ h => (List.mem_cons.mp h).elim (fun heq => heq ▸ hmember) (hrest _)) (fun _ _ h => h) v

def get? (key : String) : Json → Option Json
  | obj members => members.lookup key
  | _ => none

/-- Apply `f` to the member `key`, when the value is an object that has one. -/
def modifyMember (key : String) (f : Json → Json) : Json → Json
  | obj members => obj (members.map fun m => if m.1 = key then (m.1, f m.2) else m)
  | other => other

end Json

/-- `serde_json::Map`, by what each key holds. It iterates in key order, so two
maps that agree on every key are written as the same text. -/
abbrev JsonMap := String → Option Json

namespace JsonMap

def empty : JsonMap := fun _ => none

def insert (m : JsonMap) (key : String) (value : Json) : JsonMap := update m key (some value)

def remove (m : JsonMap) (key : String) : JsonMap := update m key none

@[simp] theorem insert_self (m : JsonMap) (key : String) (value : Json) : m.insert key value key = some value :=
  update_self ..

theorem insert_of_ne (m : JsonMap) {key k : String} (value : Json) (h : k ≠ key) :
    m.insert key value k = m k :=
  update_of_ne h ..

@[simp] theorem remove_self (m : JsonMap) (key : String) : m.remove key key = none := update_self ..

theorem remove_of_ne (m : JsonMap) {key k : String} (h : k ≠ key) : m.remove key k = m k :=
  update_of_ne h ..

end JsonMap

end NodeGet.Core
