import Mathlib.Algebra.Order.Ring.Nat
import Mathlib.Data.List.Perm.Subperm
import Mathlib.Data.UInt
import NodeGet.Data.Table
import NodeGet.Machine.Run

/-! The audit of the calls that scripts make (`ng-js-runtime/src/js_audit.rs`: `enter_worker`,
`record`), on one thread and while the audit is on.

A scope writes its worker's name over the current one and puts the old one back when it is
dropped. A call is counted under the current worker and its method, and once the table is full,
under the overflow key unless its own key is there. The overflow key is a key like any other: a
worker may have that name. Then its own calls and those folded into its entry are counted
together (`audit_exact_iff`). Counts are numbers of 64 bits and wrap around. -/
namespace NodeGet.JsRuntime.Audit
open NodeGet.Data NodeGet.Machine

/-! ### The table -/

/-- A worker and a method. -/
abbrev Key := String × String

structure Entry where
  count : UInt64
  firstSeenMs : Int
  lastSeenMs : Int
  warned : UInt32

abbrev AuditTable := List (Key × Entry)

def maxEntries : Nat := 4096

def maxKeyChars : Nat := 128

def unknownWorker : String := "<unknown>"

def overflowKey : Key := ("<overflow>", "<overflow>")

def bounded (value : String) : String :=
  if value.length ≤ maxKeyChars then value
  else String.ofList (value.toList.take maxKeyChars) ++ "…(" ++ toString value.length ++ " chars)"

/-- The worker a call is counted under, and a hint that says something else. -/
def attribution (current workerHint : Option String) : String × Option String :=
  match current with
  | some real => (real, workerHint.filter (· != real))
  | none => (unknownWorker, workerHint)

def AuditTable.keys (counters : AuditTable) : List Key := counters.map (·.1)

/-- The key of the entry that counts a call. -/
def AuditTable.slot (counters : AuditTable) (key : Key) : Key :=
  if maxEntries ≤ counters.length ∧ key ∉ counters.keys then overflowKey else key

def Entry.touch (entry : Entry) (now : Int) : Entry :=
  let count := entry.count + 1
  { entry with
    count
    lastSeenMs := now
    warned := if count ≤ 3 ∨ count % 60 = 0 then entry.warned + 1 else entry.warned }

def AuditTable.count (counters : AuditTable) (key : Key) (now : Int) : AuditTable :=
  Table.upsert Prod.fst (fun old _ => (old.1, old.2.touch now)) counters
    (counters.slot key, Entry.touch ⟨0, now, now, 0⟩ now)

def AuditTable.countOf (counters : AuditTable) (key : Key) : UInt64 :=
  (Table.lookup Prod.fst counters key).elim 0 fun row => row.2.count

def AuditTable.total (counters : AuditTable) : UInt64 := (counters.map fun row => row.2.count).sum

section Table
variable (counters : AuditTable) (key : Key) (now : Int)

theorem slot_cases :
    counters.slot key = key ∧ (key ∈ counters.keys ∨ counters.length < maxEntries) ∨
      counters.slot key = overflowKey ∧ maxEntries ≤ counters.length ∧ key ∉ counters.keys := by
  rw [AuditTable.slot]
  split
  next h => exact .inr ⟨rfl, h⟩
  next h =>
    rw [not_and_or, not_le, not_not] at h
    exact .inl ⟨rfl, h.symm⟩

theorem countOf_count (k : Key) :
    (counters.count key now).countOf k = counters.countOf k + if counters.slot key = k then 1 else 0 := by
  rw [AuditTable.countOf, AuditTable.count, Table.lookup_upsert (by simp), AuditTable.countOf]
  split
  next => cases Table.lookup Prod.fst counters k <;> simp [Entry.touch]
  next => exact (UInt64.add_zero _).symm

theorem keys_upsert {merge : Key × Entry → Key × Entry → Key × Entry} (hmerge : ∀ old new, (merge old new).1 = old.1)
    (new : Key × Entry) : (Table.upsert Prod.fst merge counters new).map (·.1) =
      if new.1 ∈ counters.map (·.1) then counters.map (·.1) else counters.map (·.1) ++ [new.1] := by
  induction counters with
  | nil => rfl
  | cons row rows ih =>
    rw [Table.upsert]
    by_cases h : row.1 = new.1
    · simp [h, hmerge]
    · rw [if_neg h, List.map_cons, ih]
      by_cases hmem : new.1 ∈ rows.map (·.1)
      · simp [hmem]
      · simp [hmem, Ne.symm h]

theorem keys_count : (counters.count key now).keys =
    if counters.slot key ∈ counters.keys then counters.keys else counters.keys ++ [counters.slot key] :=
  keys_upsert counters (by simp) (counters.slot key, _)

theorem total_count : (counters.count key now).total = counters.total + 1 := by
  rw [AuditTable.count]
  generalize counters.slot key = k
  induction counters with
  | nil => rfl
  | cons row rows ih =>
    rw [Table.upsert]
    split
    next =>
      simp only [AuditTable.total, List.map_cons, List.sum_cons, Entry.touch]
      ac_rfl
    next =>
      simp only [AuditTable.total, List.map_cons, List.sum_cons] at ih ⊢
      rw [ih]
      ac_rfl

variable {counters key}

theorem countOf_of_notMem {k : Key} (h : k ∉ counters.keys) : counters.countOf k = 0 := by
  rw [AuditTable.countOf, Table.lookup_eq_none_of_notMem h]
  rfl

end Table

/-! ### One thread -/

structure State where
  /-- `CURRENT_WORKER` -/
  current : Option String
  /-- What the scopes that are open will put back. -/
  scopes : List (Option String)
  counters : AuditTable
  /-- History: the names of the open scopes, the innermost first. -/
  opened : List (Option String)
  /-- History: the calls, with the worker of the innermost scope. -/
  calls : List Key
  /-- History: how many calls were counted under a key that is not theirs. -/
  folded : Nat

def started : State := ⟨none, [], [], [], [], 0⟩

inductive Action where
  | enterWorker (name : Option String)
  | drop
  | record (workerHint : Option String) (method : String) (now : Int)

/-- The key of a call in the innermost of the open scopes. -/
def callKey (opened : List (Option String)) (method : String) : Key :=
  (bounded (opened.head?.join.getD unknownWorker), bounded method)

def record (s : State) (workerHint : Option String) (method : String) (now : Int) : AuditTable :=
  s.counters.count (bounded (attribution s.current workerHint).1, bounded method) now

def step (s : State) : Action → Option State
  | .enterWorker name => some { s with current := name, scopes := s.current :: s.scopes, opened := name :: s.opened }
  | .drop =>
    match s.scopes with
    | [] => none
    | previous :: scopes => some { s with current := previous, scopes, opened := s.opened.tail }
  | .record workerHint method now =>
    let key := callKey s.opened method
    some { s with
      counters := record s workerHint method now
      calls := s.calls ++ [key]
      folded := if s.counters.slot key = key then s.folded else s.folded + 1 }

/-- The current worker is the innermost scope's. -/
def Innermost (s : State) : Prop := s.current :: s.scopes = s.opened ++ [none]

structure Books (s : State) : Prop where
  innermost : Innermost s
  size : s.counters.length ≤ maxEntries + 1
  total : s.counters.total = .ofNat s.calls.length
  /-- Before the table is full it has the keys of all calls. -/
  unseen : s.counters.length < maxEntries → ∀ k ∉ s.counters.keys, k ∉ s.calls
  /-- The entry beyond the limit is the overflow entry. -/
  beyond : maxEntries < s.counters.length → overflowKey ∈ s.counters.keys
  kept : s.folded = 0 → ∀ k ∈ s.calls, k ∈ s.counters.keys
  own : ∀ k ∈ s.counters.keys, k ≠ overflowKey → s.counters.countOf k = .ofNat (s.calls.count k)
  overflow : s.counters.countOf overflowKey = .ofNat (s.calls.count overflowKey) + .ofNat s.folded
  folded_le : s.folded ≤ s.calls.length

theorem started_books : Books started where
  innermost := rfl
  size := Nat.zero_le _
  total := rfl
  unseen _ _ _ h := nomatch h
  beyond h := absurd h (by decide)
  kept _ _ h := nomatch h
  own _ h := nomatch h
  overflow := rfl
  folded_le := Nat.le_refl 0

variable {s t : State}

theorem Innermost.current_eq (h : Innermost s) : s.current = s.opened.head?.join := by
  rw [Innermost] at h
  cases hopened : s.opened with
  | nil => exact (List.cons.inj (hopened ▸ h)).1
  | cons name names => exact (List.cons.inj (hopened ▸ h)).1

theorem Innermost.record_eq (h : Innermost s) (workerHint : Option String) (method : String) (now : Int) :
    record s workerHint method now = s.counters.count (callKey s.opened method) now := by
  have hworker : (attribution s.current workerHint).1 = s.current.getD unknownWorker := by
    cases s.current <;> rfl
  rw [record, hworker, h.current_eq]
  rfl

theorem length_keys (counters : AuditTable) : counters.keys.length = counters.length := List.length_map _

/-- One more call, for a table and its history. -/
theorem Books.count (h : Books s) (key : Key) (now : Int) :
    Books { s with
      counters := s.counters.count key now
      calls := s.calls ++ [key]
      folded := if s.counters.slot key = key then s.folded else s.folded + 1 } := by
  have hkeys := keys_count s.counters key now
  have hlength := length_keys (s.counters.count key now)
  have hold := length_keys s.counters
  have hcountOf := countOf_count s.counters key now
  have hcases := slot_cases s.counters key
  have hcount (k : Key) : UInt64.ofNat ((s.calls ++ [key]).count k) =
      .ofNat (s.calls.count k) + if key = k then 1 else 0 := by
    rw [List.count_append, List.count_singleton]
    by_cases hk : key = k <;> simp [hk]
  have hfold : UInt64.ofNat (s.folded + 1) = .ofNat s.folded + 1 := UInt64.ofNat_add ..
  have hnone (k : Key) (hk : k ∉ s.counters.keys) : s.counters.countOf k = 0 := countOf_of_notMem hk
  have hzero (k : Key) (hk : k ∉ s.calls) : UInt64.ofNat (s.calls.count k) = 0 := by
    rw [List.count_eq_zero_of_not_mem hk]
    rfl
  obtain ⟨hinnermost, hsize, htotal, hunseen, hbeyond, hkept, hown, hoverflow, hfolded⟩ := h
  constructor
  case innermost => exact hinnermost
  case total =>
    rw [total_count, htotal, List.length_append, List.length_singleton, UInt64.ofNat_add]
    rfl
  case size => grind
  case unseen => grind
  case beyond => grind
  case kept => grind
  case own => grind
  case overflow => grind
  case folded_le => grind

theorem Books.overflow_exact (h : Books s) :
    s.counters.countOf overflowKey = .ofNat (s.calls.count overflowKey) ↔ 2 ^ 64 ∣ s.folded := by
  have hzero : UInt64.ofNat s.folded = 0 ↔ 2 ^ 64 ∣ s.folded := by
    rw [UInt64.ofNat_eq_iff_mod_eq_toNat, Nat.dvd_iff_mod_eq_zero]
    rfl
  rw [h.overflow, ← hzero]
  grind

theorem step_books (s : State) (a : Action) (t : State) (hs : Books s) (h : step s a = some t) : Books t := by
  cases a with
  | enterWorker name =>
    cases h
    exact { hs with innermost := congrArg (name :: ·) hs.innermost }
  | drop =>
    simp only [step] at h
    split at h
    next => cases h
    next previous scopes hscopes =>
      cases h
      refine { hs with innermost := ?_ }
      have htail := congrArg List.tail hs.innermost
      rw [hscopes] at htail
      revert htail
      cases s.opened with
      | nil => exact fun htail => nomatch htail
      | cons name names => exact id
  | record workerHint method now =>
    cases h
    rw [hs.innermost.record_eq]
    exact hs.count _ now

theorem step_keys {a : Action} {k : Key} (h : step s a = some t) (hk : k ∈ s.counters.keys) : k ∈ t.counters.keys := by
  cases a with
  | enterWorker name =>
    cases h
    exact hk
  | drop =>
    simp only [step] at h
    split at h
    next => cases h
    next =>
      cases h
      exact hk
  | record workerHint method now =>
    cases h
    show k ∈ (s.counters.count _ now).keys
    rw [keys_count]
    split
    · exact hk
    · exact List.mem_append_left _ hk

/-- The key was in the table before there were more entries than the table is to have. -/
def Early (actions : List Action) (k : Key) : Prop :=
  ∃ first u, first <+: actions ∧ run step started first = some u ∧ u.counters.length ≤ maxEntries ∧
    k ∈ u.counters.keys

/-- Every call of the run adds one to the count of one key: its own, under the worker of the
innermost scope, or the overflow key. -/
def CountsCalls (actions : List Action) : Prop :=
  ∀ first workerHint method now rest u v, actions = first ++ .record workerHint method now :: rest →
    run step started first = some u → step u (.record workerHint method now) = some v →
    ∀ k, v.counters.countOf k = u.counters.countOf k + if u.counters.slot (callKey u.opened method) = k then 1 else 0

theorem countsCalls (actions : List Action) : CountsCalls actions := by
  intro first workerHint method now rest u v _ hfirst hstep k
  have hu : Books u := run_preserves step_books started_books hfirst
  cases hstep
  rw [hu.innermost.record_eq]
  exact countOf_count ..

/-- **The audit table.** On every run the table keeps to its size and counts every call once, under
the worker of the innermost scope or, once it is full, under the overflow key. Keys that were there
early are counted exactly, unless the overflow key is one of them and other calls were folded into
its entry (as many as leave a trace in a number of 64 bits). -/
theorem audit_exact_iff (actions : List Action) (hrun : run step started actions = some s) :
    (s.counters.length ≤ maxEntries + 1 ∧ s.counters.total = .ofNat s.calls.length ∧ CountsCalls actions ∧
      ∀ k, Early actions k → s.counters.countOf k = .ofNat (s.calls.count k)) ↔
    (Early actions overflowKey → 2 ^ 64 ∣ s.folded) := by
  have hs : Books s := run_preserves step_books started_books hrun
  constructor
  · intro h hearly
    exact hs.overflow_exact.mp (h.2.2.2 overflowKey hearly)
  · intro h
    refine ⟨hs.size, hs.total, countsCalls actions, fun k hearly => ?_⟩
    by_cases hk : k = overflowKey
    · subst hk
      exact hs.overflow_exact.mpr (h hearly)
    · obtain ⟨first, u, ⟨rest, rfl⟩, hfirst, -, hmem⟩ := hearly
      refine hs.own k (run_preserves (P := fun s => k ∈ s.counters.keys) ?_ hmem (run_of_append hrun hfirst)) hk
      exact fun _ _ _ hk hstep => step_keys hstep hk

/-- A worker calls another in between. -/
private def nested : List Action :=
  [.enterWorker (some "outer"), .record (some "else") "kv_get" 1, .enterWorker (some "inner"), .record none "kv_get" 2,
    .drop, .record none "kv_get" 3]

theorem audit_exact_nested :
    ∃ s, run step started nested = some s ∧ Early nested ("outer", "kv_get") ∧
      s.counters.countOf ("outer", "kv_get") = 2 := by
  obtain ⟨s, hrun, hfolded, hcalls⟩ : ∃ s, run step started nested = some s ∧ s.folded = 0 ∧
      s.calls.count ("outer", "kv_get") = 2 := by decide +kernel
  have hearly : Early nested ("outer", "kv_get") := by
    obtain ⟨u, hu, hlength, hkey⟩ : ∃ u, run step started (nested.take 2) = some u ∧ u.counters.length ≤ maxEntries ∧
        ("outer", "kv_get") ∈ u.counters.keys := by decide +kernel
    exact ⟨_, u, List.take_prefix 2 nested, hu, hlength, hkey⟩
  refine ⟨s, hrun, hearly, ?_⟩
  rw [((audit_exact_iff nested hrun).mpr fun _ => hfolded ▸ Nat.dvd_zero _).2.2.2 _ hearly, hcalls]
  rfl

/-! ### A worker with the name of the overflow entry -/

theorem run_records (methods : List String) (s : State) :
    ∃ t, run step s (methods.map fun method => .record none method 0) = some t ∧
      t.calls = s.calls ++ methods.map (callKey s.opened) := by
  induction methods generalizing s with
  | nil => exact ⟨s, rfl, (List.append_nil _).symm⟩
  | cons method methods ih =>
    obtain ⟨t, hrun, hcalls⟩ := ih ((step s (.record none method 0)).getD s)
    refine ⟨t, run_cons_some.mpr ⟨_, rfl, hrun⟩, ?_⟩
    rw [hcalls, List.map_cons]
    exact List.append_cons .. |>.symm

/-- More methods than the table has entries. -/
private def manyMethods : List String := (List.range 4098).map fun i => String.singleton (Char.ofNat (i + 256))

private def overflowing : List Action :=
  [.enterWorker (some "<overflow>"), .record none "<overflow>" 0] ++ manyMethods.map fun method => .record none method 0

private theorem manyMethods_nodup : (manyMethods.map (callKey [some "<overflow>"])).Nodup := by
  rw [manyMethods, List.map_map]
  refine List.Nodup.map_on ?_ List.nodup_range
  intro i hi j hj h
  have hbounded (c : Char) : bounded (String.singleton c) = String.singleton c := if_pos (by simp [maxKeyChars])
  simp only [Function.comp_apply, callKey, hbounded, Prod.mk.injEq, true_and] at h
  have hchar : Char.ofNat (i + 256) = Char.ofNat (j + 256) := by simpa using congrArg String.toList h
  have hi : (i + 256).isValidChar := .inl (by have := List.mem_range.mp hi; omega)
  have hj : (j + 256).isValidChar := .inl (by have := List.mem_range.mp hj; omega)
  rw [Char.ofNat, dif_pos hi, Char.ofNat, dif_pos hj] at hchar
  have hnat : i + 256 = j + 256 := congrArg Char.toNat hchar
  omega

theorem overflow_worker_miscounted :
    ∃ s, run step started overflowing = some s ∧ Early overflowing overflowKey ∧
      s.counters.countOf overflowKey ≠ .ofNat (s.calls.count overflowKey) := by
  obtain ⟨u, hu, hlength, hkey, hopened, hone⟩ : ∃ u, run step started (overflowing.take 2) = some u ∧
      u.counters.length ≤ maxEntries ∧ overflowKey ∈ u.counters.keys ∧ u.opened = [some "<overflow>"] ∧
      u.calls.length = 1 := by
    decide +kernel
  obtain ⟨s, hs, hcalls⟩ := run_records manyMethods u
  have hrun : run step started overflowing = some s := run_append hu hs
  refine ⟨s, hrun, ⟨_, u, List.take_prefix 2 _, hu, hlength, hkey⟩, fun hexact => ?_⟩
  have hbooks : Books s := run_preserves step_books started_books hrun
  have hfew : s.folded < 2 ^ 64 := by
    refine Nat.lt_of_le_of_lt hbooks.folded_le ?_
    rw [hcalls, List.length_append, List.length_map, manyMethods, List.length_map, List.length_range, hone]
    decide
  have hfolded : s.folded = 0 := Nat.eq_zero_of_dvd_of_lt (hbooks.overflow_exact.mp hexact) hfew
  -- then all of the calls would have their own entries
  have hsub : manyMethods.map (callKey [some "<overflow>"]) ⊆ s.counters.keys := by
    intro k hk
    refine hbooks.kept hfolded k ?_
    rw [hcalls, hopened]
    exact List.mem_append_right _ hk
  have hle := (List.Nodup.subperm manyMethods_nodup hsub).length_le
  rw [length_keys, List.length_map, manyMethods, List.length_map, List.length_range] at hle
  exact absurd (hle.trans hbooks.size) (by decide)

end NodeGet.JsRuntime.Audit
