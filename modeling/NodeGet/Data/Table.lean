import Mathlib.Data.List.AList

/-! Tables with a key: rows in a list, found by their key.

`upsert` is an `INSERT … ON CONFLICT DO UPDATE`: a row whose key is there is merged
into the old one, another is appended. With unique keys, in the table and in what
is written, a whole batch of upserts acts on each key on its own
(`lookup_foldl_upsert`), and so does loading the table into a map
(`lookup_foldl_insert`). `insertNew` is an `INSERT … ON CONFLICT DO NOTHING`: what is
there stays, and of several new rows with one key the first is taken
(`lookup_foldl_insertNew`). -/
namespace NodeGet.Data.Table

variable {ρ κ : Type*} [DecidableEq κ] (key : ρ → κ)

def lookup (rows : List ρ) (k : κ) : Option ρ := rows.find? fun r => key r = k

def upsert (merge : ρ → ρ → ρ) : List ρ → ρ → List ρ
  | [], new => [new]
  | r :: rest, new => if key r = key new then merge r new :: rest else r :: upsert merge rest new

def insertNew (rows : List ρ) (new : ρ) : List ρ :=
  if key new ∈ rows.map key then rows else rows ++ [new]

variable {key}

@[simp] theorem lookup_nil (k : κ) : lookup key [] k = none := rfl

theorem lookup_cons (r : ρ) (rows : List ρ) (k : κ) :
    lookup key (r :: rows) k = if key r = k then some r else lookup key rows k := by
  by_cases h : key r = k <;> simp [lookup, h]

variable {rows : List ρ} {k : κ}

theorem lookup_eq_none_of_notMem (h : k ∉ rows.map key) : lookup key rows k = none := by
  rw [lookup, List.find?_eq_none]
  intro r hr hk
  exact h (List.mem_map.mpr ⟨r, hr, by simpa using hk⟩)

theorem lookup_eq_some_iff (h : (rows.map key).Nodup) {r : ρ} : lookup key rows k = some r ↔ r ∈ rows ∧ key r = k := by
  constructor
  · intro hr
    exact ⟨List.mem_of_find?_eq_some hr, by simpa using List.find?_some hr⟩
  · intro ⟨hr, hk⟩
    cases hfound : lookup key rows k with
    | none =>
      rw [lookup, List.find?_eq_none] at hfound
      simpa [hk] using hfound r hr
    | some r' =>
      have hr' : key r' = k := by simpa using List.find?_some hfound
      rw [List.inj_on_of_nodup_map h (List.mem_of_find?_eq_some hfound) hr (hr'.trans hk.symm)]

theorem lookup_append (rows rows' : List ρ) (k : κ) :
    lookup key (rows ++ rows') k = (lookup key rows k).or (lookup key rows' k) := List.find?_append

theorem lookup_ne_none (h : k ∈ rows.map key) : lookup key rows k ≠ none := by
  obtain ⟨r, hr, hk⟩ := List.mem_map.mp h
  intro hnone
  simpa [hk] using List.find?_eq_none.mp hnone r hr

/-! ### Rows that are only added -/

theorem lookup_insertNew (rows : List ρ) (new : ρ) (k : κ) :
    lookup key (insertNew key rows new) k = (lookup key rows k).or (lookup key [new] k) := by
  rw [insertNew]
  split
  next hmem =>
    by_cases hk : key new = k
    · obtain ⟨r, hr⟩ := Option.ne_none_iff_exists'.mp (lookup_ne_none (hk ▸ hmem))
      rw [hr, Option.some_or]
    · rw [lookup_cons, if_neg hk, lookup_nil, Option.or_none]
  next => exact lookup_append ..

theorem nodup_keys_insertNew (h : (rows.map key).Nodup) (new : ρ) : ((insertNew key rows new).map key).Nodup := by
  rw [insertNew]
  split
  next => exact h
  next hnew =>
    rw [List.map_append]
    refine List.nodup_append.mpr ⟨h, List.nodup_singleton _, ?_⟩
    simpa using fun r hr heq => hnew (List.mem_map.mpr ⟨r, hr, heq⟩)

theorem isPrefix_insertNew (rows : List ρ) (new : ρ) : rows <+: insertNew key rows new := by
  rw [insertNew]
  split
  next => exact List.prefix_rfl
  next => exact List.prefix_append ..

theorem length_insertNew_le (rows : List ρ) (new : ρ) : (insertNew key rows new).length ≤ rows.length + 1 := by
  rw [insertNew]
  split
  next => omega
  next => simp

/-- After a batch each key has the row it had, or else its first row of the batch. -/
theorem lookup_foldl_insertNew (rows news : List ρ) (k : κ) :
    lookup key (news.foldl (insertNew key) rows) k = (lookup key rows k).or (lookup key news k) := by
  induction news generalizing rows with
  | nil => simp
  | cons new rest ih =>
    rw [List.foldl_cons, ih, lookup_insertNew, Option.or_assoc, ← lookup_append, List.singleton_append]

theorem nodup_keys_foldl_insertNew (h : (rows.map key).Nodup) (news : List ρ) :
    ((news.foldl (insertNew key) rows).map key).Nodup := by
  induction news generalizing rows with
  | nil => exact h
  | cons new rest ih => exact ih (nodup_keys_insertNew h new)

theorem isPrefix_foldl_insertNew (rows news : List ρ) : rows <+: news.foldl (insertNew key) rows := by
  induction news generalizing rows with
  | nil => exact List.prefix_rfl
  | cons new rest ih => exact (isPrefix_insertNew rows new).trans (ih _)

theorem length_foldl_insertNew_le (rows news : List ρ) :
    (news.foldl (insertNew key) rows).length ≤ rows.length + news.length := by
  induction news generalizing rows with
  | nil => exact Nat.le_refl _
  | cons new rest ih =>
    have := ih (insertNew key rows new)
    have hone : (insertNew key rows new).length ≤ rows.length + 1 := length_insertNew_le rows new
    rw [List.foldl_cons, List.length_cons]
    omega

/-- A batch whose keys are all there changes nothing. -/
theorem foldl_insertNew_of_mem {news : List ρ} (h : ∀ new ∈ news, key new ∈ rows.map key) :
    news.foldl (insertNew key) rows = rows := by
  induction news with
  | nil => rfl
  | cons new rest ih =>
    rw [List.foldl_cons, insertNew, if_pos (h new List.mem_cons_self)]
    exact ih fun r hr => h r (List.mem_cons_of_mem _ hr)

/-! ### Rows that are merged -/

variable {merge : ρ → ρ → ρ} (hmerge : ∀ old new, key (merge old new) = key old)
include hmerge

theorem lookup_upsert (rows : List ρ) (new : ρ) (k : κ) :
    lookup key (upsert key merge rows new) k =
      if key new = k then some ((lookup key rows k).elim new fun old => merge old new)
      else lookup key rows k := by
  induction rows with
  | nil => simp [upsert, lookup_cons]
  | cons r rest ih =>
    simp only [upsert]
    by_cases hr : key r = key new
    · rw [if_pos hr, lookup_cons, lookup_cons, hmerge, hr]
      split <;> rfl
    · rw [if_neg hr, lookup_cons, lookup_cons, ih]
      by_cases hk : key new = k
      · subst hk
        rw [if_neg hr, if_neg hr]
      · rw [if_neg hk, if_neg hk]

theorem mem_keys_upsert {new : ρ} (h : k ∈ (upsert key merge rows new).map key) : k = key new ∨ k ∈ rows.map key := by
  induction rows with
  | nil => exact .inl (by simpa [upsert] using h)
  | cons r rest ih =>
    by_cases hr : key r = key new
    · right
      simpa [upsert, hr, hmerge] using h
    · simp only [upsert, if_neg hr, List.map_cons, List.mem_cons] at h ⊢
      rcases h with hk | hk
      · exact .inr (.inl hk)
      · exact (ih hk).imp_right .inr

theorem nodup_keys_upsert (h : (rows.map key).Nodup) (new : ρ) : ((upsert key merge rows new).map key).Nodup := by
  induction rows with
  | nil => simp [upsert]
  | cons r rest ih =>
    obtain ⟨hr, hrest⟩ := List.nodup_cons.mp h
    by_cases hnew : key r = key new
    · simpa [upsert, hnew, hmerge] using h
    · rw [upsert, if_neg hnew, List.map_cons]
      refine List.nodup_cons.mpr ⟨fun hmem => ?_, ih hrest⟩
      rcases mem_keys_upsert hmerge hmem with hk | hk
      · exact hnew hk
      · exact hr hk

theorem nodup_keys_foldl_upsert (h : (rows.map key).Nodup) (news : List ρ) :
    ((news.foldl (upsert key merge) rows).map key).Nodup := by
  induction news generalizing rows with
  | nil => exact h
  | cons new rest ih => exact ih (nodup_keys_upsert hmerge h new)

theorem lookup_foldl_upsert (rows news : List ρ) (hnews : (news.map key).Nodup) (k : κ) :
    lookup key (news.foldl (upsert key merge) rows) k =
      match lookup key news k with
      | none => lookup key rows k
      | some new => some ((lookup key rows k).elim new fun old => merge old new) := by
  induction news generalizing rows with
  | nil => rfl
  | cons new rest ih =>
    obtain ⟨hnew, hrest⟩ := List.nodup_cons.mp hnews
    rw [List.foldl_cons, ih _ hrest, lookup_cons, lookup_upsert hmerge]
    by_cases hk : key new = k
    · subst hk
      rw [lookup_eq_none_of_notMem hnew]
      simp
    · simp only [if_neg hk]

omit hmerge

theorem lookup_foldl_insert {β : Type*} (f : ρ → β) (rows : List ρ) (hrows : (rows.map key).Nodup)
    (m : AList fun _ : κ => β) (k : κ) :
    (rows.foldl (fun m r => m.insert (key r) (f r)) m).lookup k =
      match lookup key rows k with
      | none => m.lookup k
      | some r => some (f r) := by
  induction rows generalizing m with
  | nil => rfl
  | cons r rest ih =>
    obtain ⟨hr, hrest⟩ := List.nodup_cons.mp hrows
    rw [List.foldl_cons, ih hrest, lookup_cons]
    by_cases hk : key r = k
    · subst hk
      rw [lookup_eq_none_of_notMem hr]
      simp
    · simp only [if_neg hk, AList.lookup_insert_ne (Ne.symm hk)]

section
variable {β : Type*} {f : κ → β → ρ} (hf : ∀ k b, key (f k b) = k)
include hf

/-- The rows made from a map are found by its keys. -/
theorem lookup_map_entries (m : AList fun _ : κ => β) (k : κ) :
    lookup key (m.entries.map fun e => f e.1 e.2) k = (m.lookup k).map (f k) := by
  show _ = (m.entries.dlookup k).map (f k)
  generalize m.entries = entries
  induction entries with
  | nil => rfl
  | cons e rest ih =>
    obtain ⟨k', b⟩ := e
    rw [List.map_cons, lookup_cons, hf]
    by_cases hk : k' = k
    · subst hk
      simp
    · rw [if_neg hk, ih, List.dlookup_cons_ne _ _ (Ne.symm hk)]

omit [DecidableEq κ] in
theorem nodup_keys_map_entries (m : AList fun _ : κ => β) :
    ((m.entries.map fun e => f e.1 e.2).map key).Nodup := by
  have hkeys : (m.entries.map fun e => f e.1 e.2).map key = m.entries.keys := by
    simp [hf, List.keys]
  rw [hkeys]
  exact m.nodupKeys

end

/-! ### Rows that are selected -/

/-- A table whose keys are unique. -/
structure Keyed (key : ρ → κ) where
  rows : List ρ
  nodup : (rows.map key).Nodup

namespace Keyed

def filter (t : Keyed key) (p : ρ → Bool) : Keyed key where
  rows := t.rows.filter p
  nodup := t.nodup.sublist (List.filter_sublist.map _)

/-- `SELECT … ORDER BY … LIMIT n` -/
def select (t : Keyed key) (p : ρ → Bool) (before : ρ → ρ → Bool) (n : Nat) : List ρ :=
  ((t.rows.filter p).mergeSort before).take n

/-- `DELETE` of the rows that pass. With a limit their keys are read first, and the rows are then
found by their keys. -/
def delete (t : Keyed key) (p : ρ → Bool) (before : ρ → ρ → Bool) : Option Nat → Keyed key
  | none => t.filter fun r => !p r
  | some n =>
    let keys := (t.select p before n).map key
    t.filter fun r => !keys.contains (key r)

variable {t : Keyed key} {p : ρ → Bool} {before : ρ → ρ → Bool} {r : ρ}

omit [DecidableEq κ] in
theorem mem_select {n : Nat} (h : r ∈ t.select p before n) : r ∈ t.rows ∧ p r = true :=
  List.mem_filter.mp (List.mem_mergeSort.mp (List.mem_of_mem_take h))

/-- A row that is gone passed: a key is found again in its own row only. -/
theorem passes_of_deleted {limit : Option Nat} (hrow : r ∈ t.rows) (hgone : r ∉ (t.delete p before limit).rows) :
    p r = true := by
  cases limit with
  | none => simpa [delete, filter, hrow] using hgone
  | some n =>
    have hkey : key r ∈ (t.select p before n).map key := by simpa [delete, filter, hrow] using hgone
    obtain ⟨found, hfound, heq⟩ := List.mem_map.mp hkey
    obtain ⟨hmem, hpasses⟩ := mem_select hfound
    exact List.inj_on_of_nodup_map t.nodup hmem hrow heq ▸ hpasses

end Keyed

end NodeGet.Data.Table
