import Mathlib.Data.List.Nodup

/-! Counted references to a shared value.

Whoever owns a reference is named, and each owner has one. That the count is the number of
owners is part of the type (`counts`), so what a program reads off the count it learns about
the owners: with a count of one, whoever owns a reference owns the only one. -/
namespace NodeGet.Machine

structure RefCount (ω : Type*) where
  count : Nat
  /-- History: who owns a reference. -/
  owners : List ω
  distinct : owners.Nodup
  counts : count = owners.length

namespace RefCount
variable {ω : Type*}

def unowned : RefCount ω := ⟨0, [], List.nodup_nil, rfl⟩

@[simp] theorem owners_unowned : (unowned : RefCount ω).owners = [] := rfl

variable {r : RefCount ω} {owner x : ω}

/-- With a count of at most one there is one owner. -/
theorem owner_unique {a b : ω} (hcount : r.count ≤ 1) (ha : a ∈ r.owners) (hb : b ∈ r.owners) : a = b := by
  rw [r.counts] at hcount
  match howners : r.owners, hcount, ha, hb with
  | [x], _, ha, hb => rw [List.mem_singleton.mp ha, List.mem_singleton.mp hb]

variable [DecidableEq ω]

/-- A further reference, for an owner that has none. -/
def clone (r : RefCount ω) (owner : ω) : RefCount ω :=
  if h : owner ∈ r.owners then r
  else ⟨r.count + 1, owner :: r.owners, List.nodup_cons.mpr ⟨h, r.distinct⟩, congrArg (· + 1) r.counts⟩

def drop (r : RefCount ω) (owner : ω) : RefCount ω :=
  if h : owner ∈ r.owners then
    ⟨r.count - 1, r.owners.erase owner, r.distinct.erase owner, by rw [List.length_erase_of_mem h, r.counts]⟩
  else r

/-- A reference passes from one owner to another, and their number stays. -/
def handOver (r : RefCount ω) (giver taker : ω) : RefCount ω := (r.clone taker).drop giver

@[simp] theorem mem_clone : x ∈ (r.clone owner).owners ↔ x = owner ∨ x ∈ r.owners := by
  rw [clone]
  split
  next h =>
    refine ⟨.inr, fun hx => ?_⟩
    rcases hx with rfl | hx
    · exact h
    · exact hx
  next => exact List.mem_cons

@[simp] theorem mem_drop : x ∈ (r.drop owner).owners ↔ x ≠ owner ∧ x ∈ r.owners := by
  rw [drop]
  split
  next => exact r.distinct.mem_erase_iff
  next h =>
    refine ⟨fun hx => ⟨?_, hx⟩, And.right⟩
    intro heq
    exact h (heq ▸ hx)

@[simp] theorem mem_handOver {giver taker : ω} :
    x ∈ (r.handOver giver taker).owners ↔ x ≠ giver ∧ (x = taker ∨ x ∈ r.owners) := by
  rw [handOver, mem_drop, mem_clone]

end RefCount

end NodeGet.Machine
