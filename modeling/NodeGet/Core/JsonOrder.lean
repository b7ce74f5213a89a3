import Mathlib.Data.List.Nodup
import Mathlib.Data.String.Basic
import NodeGet.Core.Json

/-! JSON values up to the order of the members of their objects.

Two values are the same up to order when one comes from the other by reordering members, at any
depth (`Reordered`). Where no object has a key twice, that is so exactly when they are the same
with all members sorted (`sorted_eq_iff`). -/
namespace NodeGet.Core.Json

/-- Members anywhere in the value may change places. -/
inductive Reordered : Json → Json → Prop
  | refl (v : Json) : Reordered v v
  | trans {u v w : Json} : Reordered u v → Reordered v w → Reordered u w
  | members {members members' : List (String × Json)} :
      members.Perm members' → Reordered (obj members) (obj members')
  | item (before after : List Json) {v w : Json} :
      Reordered v w → Reordered (arr (before ++ v :: after)) (arr (before ++ w :: after))
  | member (before after : List (String × Json)) (key : String) {v w : Json} :
      Reordered v w → Reordered (obj (before ++ (key, v) :: after)) (obj (before ++ (key, w) :: after))

variable {v w : Json} {α : Type} {members : List (String × α)}

theorem Reordered.symm (h : Reordered v w) : Reordered w v := by
  induction h with
  | refl v => exact .refl v
  | trans _ _ ih ih' => exact .trans ih' ih
  | members hperm => exact .members hperm.symm
  | item before after _ ih => exact .item before after ih
  | member before after key _ ih => exact .member before after key ih

/-- No object in the value has a key twice. -/
inductive DistinctKeys : Json → Prop
  | null : DistinctKeys null
  | bool (value : Bool) : DistinctKeys (bool value)
  | num (value : JsonNumber) : DistinctKeys (num value)
  | str (value : String) : DistinctKeys (str value)
  | arr {items : List Json} : (∀ item ∈ items, DistinctKeys item) → DistinctKeys (arr items)
  | obj {members : List (String × Json)} : (members.map (·.1)).Nodup → (∀ member ∈ members, DistinctKeys member.2) →
      DistinctKeys (obj members)

theorem Reordered.distinctKeys (h : Reordered v w) (hv : DistinctKeys v) : DistinctKeys w := by
  induction h with
  | refl => exact hv
  | trans _ _ ih ih' => exact ih' (ih hv)
  | members hperm =>
    cases hv with
    | obj hkeys hvalues =>
      exact .obj ((hperm.map _).nodup_iff.mp hkeys) fun member hmember => hvalues member (hperm.mem_iff.mpr hmember)
  | item before after _ ih =>
    cases hv with
    | arr hitems =>
      refine .arr fun item hitem => ?_
      rcases List.mem_append.mp hitem with hitem | hitem
      · exact hitems item (List.mem_append_left _ hitem)
      · rcases List.mem_cons.mp hitem with rfl | hitem
        · exact ih (hitems _ (List.mem_append_right _ List.mem_cons_self))
        · exact hitems item (List.mem_append_right _ (List.mem_cons_of_mem _ hitem))
  | member before after key _ ih =>
    cases hv with
    | obj hkeys hvalues =>
      refine .obj (by simpa using hkeys) fun member hmember => ?_
      rcases List.mem_append.mp hmember with hmember | hmember
      · exact hvalues member (List.mem_append_left _ hmember)
      · rcases List.mem_cons.mp hmember with rfl | hmember
        · exact ih (hvalues _ (List.mem_append_right _ List.mem_cons_self))
        · exact hvalues member (List.mem_append_right _ (List.mem_cons_of_mem _ hmember))

/-! ### Sorting the members -/

def keyLe {α : Type} (a b : String × α) : Bool := decide (a.1 ≤ b.1)

def sortByKey {α : Type} (members : List (String × α)) : List (String × α) := members.mergeSort keyLe

theorem sortByKey_perm (members : List (String × α)) : (sortByKey members).Perm members :=
  List.mergeSort_perm ..

theorem pairwise_sortByKey (members : List (String × α)) : (sortByKey members).Pairwise fun a b => a.1 ≤ b.1 := by
  have htrans : ∀ a b c : String × α, keyLe a b = true → keyLe b c = true → keyLe a c = true :=
    fun a b c hab hbc => decide_eq_true (le_trans (of_decide_eq_true hab) (of_decide_eq_true hbc))
  have htotal : ∀ a b : String × α, (keyLe a b || keyLe b a) = true :=
    fun a b => by simpa [keyLe] using le_total a.1 b.1
  exact (List.pairwise_mergeSort htrans htotal members).imp fun h => of_decide_eq_true h

theorem sortByKey_eq_of_perm {members' : List (String × α)} (h : members.Perm members')
    (hkeys : (members.map (·.1)).Nodup) : sortByKey members = sortByKey members' := by
  refine List.Perm.eq_of_pairwise ?_ (pairwise_sortByKey members) (pairwise_sortByKey members')
    ((sortByKey_perm members).trans (h.trans (sortByKey_perm members').symm))
  intro a b ha hb hab hba
  exact List.inj_on_of_nodup_map hkeys ((sortByKey_perm members).mem_iff.mp ha)
    (h.mem_iff.mpr ((sortByKey_perm members').mem_iff.mp hb)) (le_antisymm hab hba)

mutual

/-- The value with the members of every object in the order of their keys. -/
def sorted : Json → Json
  | .arr items => .arr (sortedItems items)
  | .obj members => .obj (sortByKey (sortedValues members))
  | other => other

def sortedItems : List Json → List Json
  | [] => []
  | item :: rest => sorted item :: sortedItems rest

def sortedValues : List (String × Json) → List (String × Json)
  | [] => []
  | (key, value) :: rest => (key, sorted value) :: sortedValues rest

end

theorem sortedItems_eq (items : List Json) : sortedItems items = items.map sorted := by
  induction items with
  | nil => rfl
  | cons item rest ih => rw [sortedItems, ih, List.map_cons]

theorem sortedValues_eq (members : List (String × Json)) :
    sortedValues members = members.map fun member => (member.1, sorted member.2) := by
  induction members with
  | nil => rfl
  | cons member rest ih =>
    obtain ⟨key, value⟩ := member
    rw [sortedValues, ih, List.map_cons]

theorem keys_sortedValues (members : List (String × Json)) :
    (sortedValues members).map (·.1) = members.map (·.1) := by
  rw [sortedValues_eq, List.map_map]
  rfl

theorem Reordered.sorted_eq (h : Reordered v w) (hv : DistinctKeys v) : sorted v = sorted w := by
  induction h with
  | refl => rfl
  | trans h _ ih ih' => exact (ih hv).trans (ih' (h.distinctKeys hv))
  | members hperm =>
    cases hv with
    | obj hkeys _ =>
      rw [sorted, sorted, sortByKey_eq_of_perm _ ((keys_sortedValues _).symm ▸ hkeys)]
      rw [sortedValues_eq, sortedValues_eq]
      exact hperm.map _
  | item before after _ ih =>
    cases hv with
    | arr hitems =>
      have hitem := ih (hitems _ (List.mem_append_right _ List.mem_cons_self))
      simp only [sorted, sortedItems_eq, List.map_append, List.map_cons, hitem]
  | member before after key _ ih =>
    cases hv with
    | obj _ hvalues =>
      have hvalue := ih (hvalues _ (List.mem_append_right _ List.mem_cons_self))
      simp only [sorted, sortedValues_eq, List.map_append, List.map_cons, hvalue]

theorem reordered_items (before : List Json) {items : List Json} (f : Json → Json)
    (h : ∀ item ∈ items, Reordered item (f item)) :
    Reordered (.arr (before ++ items)) (.arr (before ++ items.map f)) := by
  induction items generalizing before with
  | nil => exact .refl _
  | cons item rest ih =>
    have hfirst := Reordered.item before rest (h item List.mem_cons_self)
    have hrest := ih (before ++ [f item]) fun other hother => h other (List.mem_cons_of_mem _ hother)
    rw [List.append_assoc, List.append_assoc, List.singleton_append, List.singleton_append] at hrest
    exact hfirst.trans hrest

theorem reordered_values (before : List (String × Json)) {members : List (String × Json)} (f : Json → Json)
    (h : ∀ member ∈ members, Reordered member.2 (f member.2)) :
    Reordered (.obj (before ++ members)) (.obj (before ++ members.map fun member => (member.1, f member.2))) := by
  induction members generalizing before with
  | nil => exact .refl _
  | cons member rest ih =>
    have hfirst := Reordered.member before rest member.1 (h member List.mem_cons_self)
    have hrest := ih (before ++ [(member.1, f member.2)]) fun other hother => h other (List.mem_cons_of_mem _ hother)
    rw [List.append_assoc, List.append_assoc, List.singleton_append, List.singleton_append] at hrest
    exact hfirst.trans hrest

theorem reordered_sorted (v : Json) : Reordered v (sorted v) := by
  induction v with
  | null => exact .refl _
  | bool value => exact .refl _
  | num value => exact .refl _
  | str value => exact .refl _
  | arr items ih =>
    rw [sorted, sortedItems_eq]
    exact reordered_items [] sorted ih
  | obj members ih =>
    have hvalues := reordered_values [] sorted ih
    rw [sorted, sortedValues_eq]
    exact hvalues.trans (.members (sortByKey_perm _).symm)

/-- **The same up to order is the same when sorted.** -/
theorem sorted_eq_iff (hv : DistinctKeys v) : sorted v = sorted w ↔ Reordered v w := by
  constructor
  · intro h
    have hw := (reordered_sorted w).symm
    rw [← h] at hw
    exact (reordered_sorted v).trans hw
  · exact fun h => h.sorted_eq hv

/-! ### Members in order -/

/-- The members of every object come in the order of their keys, as those of a
`serde_json::Map` do. -/
inductive InOrder : Json → Prop
  | null : InOrder null
  | bool (value : Bool) : InOrder (bool value)
  | num (value : JsonNumber) : InOrder (num value)
  | str (value : String) : InOrder (str value)
  | arr {items : List Json} : (∀ item ∈ items, InOrder item) → InOrder (arr items)
  | obj {members : List (String × Json)} : members.Pairwise (fun a b => a.1 < b.1) →
      (∀ member ∈ members, InOrder member.2) → InOrder (obj members)

theorem InOrder.distinctKeys (h : InOrder v) : DistinctKeys v := by
  induction h with
  | null => exact .null
  | bool value => exact .bool value
  | num value => exact .num value
  | str value => exact .str value
  | arr _ ih => exact .arr ih
  | obj hkeys _ ih => exact .obj (List.pairwise_map.mpr (hkeys.imp fun hlt => ne_of_lt hlt)) ih

theorem InOrder.sorted_eq (h : InOrder v) : sorted v = v := by
  induction h with
  | null => rfl
  | bool value => rfl
  | num value => rfl
  | str value => rfl
  | arr _ ih => rw [sorted, sortedItems_eq, List.map_congr_left ih, List.map_id']
  | @obj members hkeys _ ih =>
    have hvalues : sortedValues members = members := by
      have hmember : ∀ member ∈ members, (member.1, sorted member.2) = member :=
        fun member h => Prod.ext rfl (ih member h)
      rw [sortedValues_eq, List.map_congr_left hmember, List.map_id']
    have hsorted : members.Pairwise fun a b => keyLe a b = true := hkeys.imp fun hlt => decide_eq_true (le_of_lt hlt)
    rw [sorted, hvalues, sortByKey, List.mergeSort_of_pairwise hsorted]

end NodeGet.Core.Json
