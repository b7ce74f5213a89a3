import NodeGet.Data.Keyset

/-! Deleting the rows of a table that meet a condition, in chunks
(`ng-task/src/retention.rs`, `purge`).

A chunk is the first rows beyond the cursor in id order; it is counted and, except in a
dry run, deleted. Statements are numbered, and `fault` says which of them the database
fails: then the purge ends at once, and what earlier statements deleted stays deleted.

Whatever fails, only matching rows go, those with the smallest ids first
(`purgeChunks_eq_purgeRows`), and a dry run removes none. Without failures the matching rows that
fit in the number of chunks are counted, and gone after a real purge (`purge_chunked`):
all of them if there are fewer than a million (`purge_complete`). -/
namespace NodeGet.Task.Retention
open NodeGet.Data

/-- A table with a primary key. -/
structure IdTable (ρ : Type) (id : ρ → Int64) where
  rows : List ρ
  unique : (rows.map id).Nodup

variable {ρ : Type} {id : ρ → Int64}

namespace IdTable

def insert (t : IdTable ρ id) (r : ρ) (hnew : id r ∉ t.rows.map id) : IdTable ρ id where
  rows := r :: t.rows
  unique := List.nodup_cons.mpr ⟨hnew, t.unique⟩

def insertMany (t : IdTable ρ id) (rows : List ρ) (hnew : (rows.map id ++ t.rows.map id).Nodup) : IdTable ρ id where
  rows := rows ++ t.rows
  unique := by rwa [List.map_append]

/-- `UPDATE … WHERE cond`, of columns other than the key. -/
def update (t : IdTable ρ id) (cond : ρ → Bool) (f : ρ → ρ) (hf : ∀ r, id (f r) = id r) : IdTable ρ id where
  rows := t.rows.map fun r => if cond r then f r else r
  unique := by
    have hids : (t.rows.map fun r => if cond r then f r else r).map id = t.rows.map id := by
      rw [List.map_map]
      refine List.map_congr_left fun r _ => ?_
      show id (if cond r then f r else r) = id r
      split
      · exact hf r
      · rfl
    rw [hids]
    exact t.unique

theorem eq_of_id (t : IdTable ρ id) {r r' : ρ} (hr : r ∈ t.rows) (hr' : r' ∈ t.rows) (h : id r = id r') : r = r' :=
  List.inj_on_of_nodup_map t.unique hr hr' h

@[ext] theorem ext {t t' : IdTable ρ id} (h : t.rows = t'.rows) : t = t' := by
  cases t
  cases t'
  cases h
  rfl

/-- The rows that are left when those that meet `cond` are gone. -/
def without (t : IdTable ρ id) (cond : ρ → Bool) : IdTable ρ id where
  rows := t.rows.filter fun r => !cond r
  unique := t.unique.sublist (List.filter_sublist.map id)

def deleteIds (t : IdTable ρ id) (ids : List Int64) : IdTable ρ id where
  rows := t.rows.filter fun r => id r ∉ ids
  unique := t.unique.sublist (List.filter_sublist.map id)

/-- A dry run deletes nothing. -/
def deleteChunk (t : IdTable ρ id) (dryRun : Bool) (ids : List Int64) : IdTable ρ id :=
  if dryRun then t else t.deleteIds ids

/-- Ids are ordered as the numbers they are. -/
def key (id : ρ → Int64) (r : ρ) : Int := (id r).toInt

/-- `WHERE cond AND id > cursor ORDER BY id` -/
def matching (t : IdTable ρ id) (cond : ρ → Bool) (cursor : Option Int) : List ρ :=
  Keyset.after (key id) (t.rows.filter cond) cursor

end IdTable

def chunkSize : Nat := 500

def maxChunksPerTarget : Nat := 2000

/-- What a purge leaves: the table, the number of the next statement, and how many rows it
counted unless a statement failed. -/
structure Purged (ρ : Type) (id : ρ → Int64) where
  table : IdTable ρ id
  clock : Nat
  count : Option Nat

/-- A chunk is one statement, and one more when it is deleted. -/
def statements (dryRun : Bool) : Nat := if dryRun then 1 else 2

section
variable (fault : Nat → Bool) (dryRun : Bool) (cond : ρ → Bool)

def purgeChunks : Nat → IdTable ρ id → Nat → Option Int → Nat → Purged ρ id
  | 0, t, clock, _, total => ⟨t, clock, some total⟩
  | chunks + 1, t, clock, cursor, total =>
    if fault clock then ⟨t, clock + 1, none⟩
    else
      let ids := ((t.matching cond cursor).take chunkSize).map id
      match ids.getLast? with
      | none => ⟨t, clock + 1, some total⟩
      | some last =>
        let total := total + ids.length
        if !dryRun && fault (clock + 1) then ⟨t, clock + 2, none⟩
        else
          let t := t.deleteChunk dryRun ids
          let clock := clock + statements dryRun
          if ids.length < chunkSize then ⟨t, clock, some total⟩
          else purgeChunks chunks t clock (some last.toInt) total

def purge (t : IdTable ρ id) (clock : Nat) : Purged ρ id :=
  purgeChunks fault dryRun cond maxChunksPerTarget t clock none 0

end

/-! ### What a purge may remove -/

/-- `t'` is `t` without some of the rows that meet `cond`. -/
structure Removes (cond : ρ → Bool) (t t' : IdTable ρ id) : Prop where
  subset : t'.rows ⊆ t.rows
  removed : ∀ r ∈ t.rows, r ∉ t'.rows → cond r = true

theorem Removes.refl (cond : ρ → Bool) (t : IdTable ρ id) : Removes cond t t :=
  ⟨List.Subset.refl _, fun _ hr hr' => absurd hr hr'⟩

theorem Removes.trans {cond : ρ → Bool} {t t' t'' : IdTable ρ id} (h : Removes cond t t')
    (h' : Removes cond t' t'') : Removes cond t t'' := by
  refine ⟨List.Subset.trans h'.subset h.subset, fun r hr hgone => ?_⟩
  by_cases hr' : r ∈ t'.rows
  · exact h'.removed r hr' hgone
  · exact h.removed r hr hr'

theorem deleteChunk_removes (dryRun : Bool) (cond : ρ → Bool) (t : IdTable ρ id) (cursor : Option Int) (n : Nat) :
    Removes cond t (t.deleteChunk dryRun (((t.matching cond cursor).take n).map id)) := by
  cases dryRun with
  | true => exact .refl cond t
  | false =>
    refine ⟨List.filter_subset_self _, fun r hr hgone => ?_⟩
    have hid : id r ∈ ((t.matching cond cursor).take n).map id := by
      by_contra hid
      exact hgone (List.mem_filter.mpr ⟨hr, by simpa using hid⟩)
    obtain ⟨r', hr', heq⟩ := List.mem_map.mp hid
    obtain ⟨hrow, hcond⟩ := List.mem_filter.mp (Keyset.mem_after.mp (List.mem_of_mem_take hr')).1
    rwa [← List.inj_on_of_nodup_map t.unique hrow hr heq]

/-! ### What a purge does remove -/

section
variable (t : IdTable ρ id) (cond : ρ → Bool) (dryRun : Bool)

theorem IdTable.nodup_keys : ((t.rows.filter cond).map (IdTable.key id)).Nodup := by
  have hids := (t.unique.sublist (List.filter_sublist.map id) : ((t.rows.filter cond).map id).Nodup)
  rw [show IdTable.key id = Int64.toInt ∘ id from rfl, ← List.map_map]
  exact hids.map fun _ _ => Int64.toInt_inj.mp

theorem IdTable.nodup_matching (cursor : Option Int) : ((t.matching cond cursor).map id).Nodup := by
  have hstrict := Keyset.after_strict (t.nodup_keys cond) cursor
  exact List.pairwise_map.mpr (hstrict.imp fun hab heq => hab.ne (congrArg Int64.toInt heq))

theorem deleteIds_append (xs ys : List Int64) : (t.deleteIds xs).deleteIds ys = t.deleteIds (xs ++ ys) := by
  simp only [IdTable.deleteIds, List.filter_filter, List.mem_append, not_or, Bool.decide_and, Bool.and_comm]

theorem deleteChunk_nil : t.deleteChunk dryRun [] = t := by
  cases dryRun with
  | true => rfl
  | false => simp [IdTable.deleteChunk, IdTable.deleteIds]

theorem deleteChunk_append (xs ys : List Int64) :
    (t.deleteChunk dryRun xs).deleteChunk dryRun ys = t.deleteChunk dryRun (xs ++ ys) := by
  cases dryRun with
  | true => rfl
  | false => exact deleteIds_append t xs ys

/-- Once a chunk is handled, what is left to match is what was left without it, whether it
was deleted or only counted. -/
theorem matching_deleteChunk (cursor : Option Int) {n : Nat} {last : ρ}
    (hlast : ((t.matching cond cursor).take n).getLast? = some last) :
    (t.deleteChunk dryRun (((t.matching cond cursor).take n).map id)).matching cond (some (id last).toInt) =
      (t.matching cond cursor).drop n := by
  have hrest : t.matching cond (some (id last).toInt) = (t.matching cond cursor).drop n :=
    Keyset.after_getLast (t.nodup_keys cond) hlast
  cases dryRun with
  | true => exact hrest
  | false =>
    generalize hids : ((t.matching cond cursor).take n).map id = ids
    show Keyset.after _ ((t.rows.filter fun r => id r ∉ ids).filter cond) _ = _
    rw [List.filter_comm, Keyset.after_filter (t.nodup_keys cond)]
    show (t.matching cond (some (id last).toInt)).filter _ = _
    rw [hrest, List.filter_eq_self]
    intro r hr
    have hnodup := t.nodup_matching cond cursor
    rw [← List.take_append_drop n (t.matching cond cursor), List.map_append, hids] at hnodup
    have hdisjoint := (List.nodup_append.mp hnodup).2.2
    simpa using fun hr' => hdisjoint _ hr' _ (List.mem_map_of_mem hr) rfl

/-- How many rows a purge of `n` matching rows handles, and what it returns: both depend
on the number of rows and on the statements that fail, and on nothing else. -/
def purgeRows (fault : Nat → Bool) (dryRun : Bool) : Nat → Nat → Nat → Nat × Option Nat
  | 0, _, _ => (0, some 0)
  | chunks + 1, clock, n =>
    if fault clock then (0, none)
    else if n = 0 then (0, some 0)
    else if !dryRun && fault (clock + 1) then (0, none)
    else if n < chunkSize then (n, some n)
    else
      let rest := purgeRows fault dryRun chunks (clock + statements dryRun) (n - chunkSize)
      (chunkSize + rest.1, rest.2.map (chunkSize + ·))

/-- **A purge by numbers**: the first matching rows are handled, as many as `purgeRows`
says. -/
theorem purgeChunks_eq_purgeRows (fault : Nat → Bool) (chunks clock : Nat) (cursor : Option Int)
    (total : Nat) :
    (purgeChunks fault dryRun cond chunks t clock cursor total).table =
        t.deleteChunk dryRun (((t.matching cond cursor).take
          (purgeRows fault dryRun chunks clock (t.matching cond cursor).length).1).map id) ∧
      (purgeChunks fault dryRun cond chunks t clock cursor total).count =
        (purgeRows fault dryRun chunks clock (t.matching cond cursor).length).2.map (total + ·) := by
  induction chunks generalizing t clock cursor total with
  | zero => exact ⟨(deleteChunk_nil t dryRun).symm, rfl⟩
  | succ chunks ih =>
    rw [purgeChunks, purgeRows]
    by_cases hselect : fault clock = true
    · rw [if_pos hselect, if_pos hselect]
      exact ⟨(deleteChunk_nil t dryRun).symm, rfl⟩
    · rw [if_neg hselect, if_neg hselect]
      cases hlast : ((t.matching cond cursor).take chunkSize).getLast? with
      | none =>
        have hnil : t.matching cond cursor = [] := by
          rw [List.getLast?_eq_none_iff, List.take_eq_nil_iff] at hlast
          exact hlast.resolve_left (by decide)
        rw [hnil]
        exact ⟨(deleteChunk_nil t dryRun).symm, rfl⟩
      | some last =>
        have hpos : (t.matching cond cursor).length ≠ 0 := by
          intro hzero
          rw [List.eq_nil_of_length_eq_zero hzero] at hlast
          cases hlast
        have hrest := matching_deleteChunk t cond dryRun cursor hlast
        simp only [List.getLast?_map, hlast, Option.map_some, List.length_map, List.length_take, if_neg hpos]
        by_cases hdelete : (!dryRun && fault (clock + 1)) = true
        · rw [if_pos hdelete, if_pos hdelete]
          exact ⟨(deleteChunk_nil t dryRun).symm, rfl⟩
        · rw [if_neg hdelete, if_neg hdelete]
          by_cases hshort : (t.matching cond cursor).length < chunkSize
          · rw [if_pos (by omega), if_pos hshort, List.take_of_length_le (by omega), List.take_length,
              Nat.min_eq_right (by omega)]
            exact ⟨rfl, rfl⟩
          · -- the chunk is full, and the loop goes on with the rows after it
            rw [if_neg (by omega), if_neg hshort]
            obtain ⟨htable, hcount⟩ := ih
              (t.deleteChunk dryRun (((t.matching cond cursor).take chunkSize).map id)) (clock + statements dryRun)
              (some (id last).toInt) (total + min chunkSize (t.matching cond cursor).length)
            rw [hrest, List.length_drop] at htable hcount
            rw [htable, hcount]
            refine ⟨?_, ?_⟩
            · rw [deleteChunk_append, ← List.map_append, ← List.take_add]
            · rw [Option.map_map, Nat.min_eq_left (by omega)]
              congr 1
              funext k
              exact Nat.add_assoc ..

/-- A count that is returned is of the rows handled, and of all that the chunks hold. -/
theorem purgeRows_count {fault : Nat → Bool} {dryRun : Bool} {chunks clock n count : Nat}
    (h : (purgeRows fault dryRun chunks clock n).2 = some count) :
    count = min (chunkSize * chunks) n ∧ (purgeRows fault dryRun chunks clock n).1 = count := by
  induction chunks generalizing clock n count with
  | zero =>
    cases h
    exact ⟨by omega, rfl⟩
  | succ chunks ih =>
    have hroom : chunkSize * (chunks + 1) = chunkSize * chunks + chunkSize := Nat.mul_succ ..
    rw [purgeRows] at h ⊢
    by_cases hselect : fault clock = true
    · rw [if_pos hselect] at h
      cases h
    · rw [if_neg hselect] at h ⊢
      by_cases hzero : n = 0
      · rw [if_pos hzero] at h ⊢
        cases h
        exact ⟨by omega, rfl⟩
      · rw [if_neg hzero] at h ⊢
        by_cases hdelete : (!dryRun && fault (clock + 1)) = true
        · rw [if_pos hdelete] at h
          cases h
        · rw [if_neg hdelete] at h ⊢
          by_cases hshort : n < chunkSize
          · rw [if_pos hshort] at h ⊢
            cases h
            exact ⟨by omega, rfl⟩
          · rw [if_neg hshort] at h ⊢
            obtain ⟨rest, hrest, rfl⟩ := Option.map_eq_some_iff.mp h
            obtain ⟨hvalue, hhandled⟩ := ih hrest
            exact ⟨by omega, congrArg (chunkSize + ·) hhandled⟩

/-- Without failures there is a count. -/
theorem purgeRows_count_isSome (chunks clock n : Nat) :
    (purgeRows (fun _ => false) dryRun chunks clock n).2.isSome = true := by
  induction chunks generalizing clock n with
  | zero => rfl
  | succ chunks ih =>
    simp only [purgeRows, Bool.false_eq_true, if_false, Bool.and_false]
    split
    next => rfl
    next =>
      split
      next => rfl
      next => simpa using ih ..

theorem purge_removes (fault : Nat → Bool) (clock : Nat) :
    Removes cond t (purge fault dryRun cond t clock).table := by
  rw [purge, (purgeChunks_eq_purgeRows t cond dryRun fault maxChunksPerTarget clock none 0).1]
  exact deleteChunk_removes ..

/-- A purge ends within its number of chunks. -/
theorem purgeChunks_clock (fault : Nat → Bool) (chunks clock : Nat) (cursor : Option Int) (total : Nat) :
    (purgeChunks fault dryRun cond chunks t clock cursor total).clock ≤ clock + chunks * statements dryRun := by
  induction chunks generalizing t clock cursor total with
  | zero => exact Nat.le_add_right ..
  | succ chunks ih =>
    have hone : 1 ≤ statements dryRun := by cases dryRun <;> decide
    simp only [purgeChunks, Nat.succ_mul]
    split
    next => simp only; omega
    next =>
      split
      next => simp only; omega
      next =>
        split
        next hfault =>
          cases dryRun with
          | true => simp at hfault
          | false =>
            have htwo : statements false = 2 := rfl
            simp only [htwo]
            omega
        next =>
          split
          next => simp only; omega
          next =>
            refine (ih ..).trans ?_
            omega

theorem length_matching : (t.matching cond none).length = (t.rows.filter cond).length :=
  Keyset.after_none_perm.length_eq

/-- A purge without failures counts the first matching rows and deletes them. -/
theorem purge_spec (clock : Nat) :
    (purge (fun _ => false) dryRun cond t clock).count =
        some (min (chunkSize * maxChunksPerTarget) (t.rows.filter cond).length) ∧
      (purge (fun _ => false) dryRun cond t clock).table =
        t.deleteChunk dryRun (((t.matching cond none).take (chunkSize * maxChunksPerTarget)).map id) := by
  obtain ⟨htable, hcount⟩ := purgeChunks_eq_purgeRows t cond dryRun (fun _ => false) maxChunksPerTarget clock none 0
  obtain ⟨count, hsome⟩ := Option.isSome_iff_exists.mp
    (purgeRows_count_isSome dryRun maxChunksPerTarget clock (t.matching cond none).length)
  obtain ⟨hvalue, hhandled⟩ := purgeRows_count hsome
  rw [purge, htable, hcount, hsome, hhandled, hvalue, length_matching]
  refine ⟨congrArg some (Nat.zero_add _), ?_⟩
  rw [← length_matching, ← List.take_eq_take_min]

/-- How many matching rows have a smaller id. -/
def IdTable.rank (t : IdTable ρ id) (cond : ρ → Bool) (r : ρ) : Nat :=
  ((t.rows.filter cond).filter fun r' => IdTable.key id r' < IdTable.key id r).length

/-- The rows that are gone with the first `n` matching ids. -/
theorem mem_ids_take_iff {r : ρ} (hr : r ∈ t.rows) (n : Nat) :
    id r ∈ ((t.matching cond none).take n).map id ↔ cond r = true ∧ t.rank cond r < n := by
  have hperm : (t.matching cond none).Perm (t.rows.filter cond) := Keyset.after_none_perm
  have hstrict := Keyset.after_strict (t.nodup_keys cond) none
  have hrank : ((t.matching cond none).filter fun r' => IdTable.key id r' < IdTable.key id r).length =
      t.rank cond r := (hperm.filter _).length_eq
  rw [← hrank, List.mem_map]
  constructor
  · intro h
    obtain ⟨r', htake, heq⟩ := h
    have hmem := List.mem_of_mem_take htake
    obtain ⟨hrow, hcond⟩ := List.mem_filter.mp (hperm.mem_iff.mp hmem)
    obtain rfl := t.eq_of_id hrow hr heq
    exact ⟨hcond, (Keyset.mem_take_iff hstrict hmem n).mp htake⟩
  · intro h
    have hmem : r ∈ t.matching cond none := hperm.mem_iff.mpr (List.mem_filter.mpr ⟨hr, h.1⟩)
    exact ⟨r, (Keyset.mem_take_iff hstrict hmem n).mpr h.2, rfl⟩

theorem rank_lt {r : ρ} (hr : r ∈ t.rows) (hcond : cond r = true) :
    t.rank cond r < (t.rows.filter cond).length := by
  have hmem : r ∈ t.matching cond none :=
    Keyset.after_none_perm.mem_iff.mpr (List.mem_filter.mpr ⟨hr, hcond⟩)
  have hids := List.mem_map_of_mem (f := id) hmem
  rw [← List.take_length (l := t.matching cond none)] at hids
  rw [← length_matching]
  exact ((mem_ids_take_iff t cond hr _).mp hids).2

/-- **A chunked purge is one bounded delete**: it ends within its chunks, a dry run leaves
the table alone, and without failures the matching rows with the smallest ids are counted
and deleted, as many as the chunks hold. -/
theorem purge_chunked (clock : Nat) :
    (∀ fault dryRun,
      (purge fault dryRun cond t clock).clock ≤ clock + maxChunksPerTarget * statements dryRun) ∧
    (∀ fault, (purge fault true cond t clock).table = t) ∧
    (∀ dryRun, (purge (fun _ => false) dryRun cond t clock).count =
      some (min (chunkSize * maxChunksPerTarget) (t.rows.filter cond).length)) ∧
    (purge (fun _ => false) false cond t clock).table.rows =
      t.rows.filter fun r => !(cond r && decide (t.rank cond r < chunkSize * maxChunksPerTarget)) := by
  refine ⟨?_, ?_, fun dryRun => (purge_spec t cond dryRun clock).1, ?_⟩
  · intro fault dryRun
    exact purgeChunks_clock ..
  · intro fault
    exact (purgeChunks_eq_purgeRows t cond true fault maxChunksPerTarget clock none 0).1
  · rw [(purge_spec t cond false clock).2]
    refine List.filter_congr ?_
    intro r hr
    rw [Bool.eq_iff_iff, decide_eq_true_iff, mem_ids_take_iff t cond hr]
    cases cond r <;> simp

/-- **A purge without failures** counts the matching rows, and deletes them unless it is a
dry run, when they fit in its chunks. -/
theorem purge_complete (clock : Nat) (hlen : (t.rows.filter cond).length < 1000000) :
    (purge (fun _ => false) dryRun cond t clock).count = some (t.rows.filter cond).length ∧
    (purge (fun _ => false) dryRun cond t clock).table.rows =
      if dryRun then t.rows else t.rows.filter fun r => !cond r := by
  obtain ⟨hcount, htable⟩ := purge_spec t cond dryRun clock
  have hroom : chunkSize * maxChunksPerTarget = 1000000 := rfl
  rw [hcount, htable, hroom, Nat.min_eq_right (by omega)]
  refine ⟨rfl, ?_⟩
  cases dryRun with
  | true => rfl
  | false =>
    refine List.filter_congr ?_
    intro r hr
    have hrank := rank_lt t cond hr
    rw [Bool.eq_iff_iff, decide_eq_true_iff, mem_ids_take_iff t cond hr]
    cases hcond : cond r with
    | true => simpa [hcond] using Nat.lt_trans (hrank hcond) hlen
    | false => simp

end

/-! ### The rows a purge deletes -/

section
variable {t : IdTable ρ id} {ids : List Int64}

/-- The table shrinks by the rows that are deleted, and by no row of another kind. -/
theorem length_filter_deleteIds (hnodup : ids.Nodup) (kind : ρ → Bool)
    (h : ∀ i ∈ ids, ∃ r ∈ t.rows, kind r = true ∧ id r = i) :
    (t.rows.filter kind).length = ((t.deleteIds ids).rows.filter kind).length + ids.length := by
  have hids : ((t.rows.filter fun r => kind r && decide (id r ∈ ids)).map id).Perm ids := by
    refine (List.perm_ext_iff_of_nodup (t.unique.sublist (List.filter_sublist.map id)) hnodup).mpr ?_
    intro i
    rw [List.mem_map]
    constructor
    · intro hi
      obtain ⟨r, hr, hid⟩ := hi
      have hmem := (List.mem_filter.mp hr).2
      simp only [Bool.and_eq_true, decide_eq_true_eq] at hmem
      exact hid ▸ hmem.2
    · intro hi
      obtain ⟨r, hrow, hkind, hid⟩ := h i hi
      exact ⟨r, List.mem_filter.mpr ⟨hrow, by simp [hkind, hid, hi]⟩, hid⟩
  have hsplit := List.length_eq_length_filter_add (l := t.rows.filter kind) fun r => !decide (id r ∈ ids)
  have hkept : (t.rows.filter kind).filter (fun r => !decide (id r ∈ ids)) = (t.deleteIds ids).rows.filter kind := by
    show _ = (t.rows.filter fun r => decide (id r ∉ ids)).filter kind
    rw [List.filter_comm]
    simp only [decide_not]
  have hgone : (t.rows.filter kind).filter (fun r => !!decide (id r ∈ ids)) =
      t.rows.filter fun r => kind r && decide (id r ∈ ids) := by
    rw [List.filter_filter]
    simp only [Bool.not_not, Bool.and_comm]
  rw [hsplit, hkept, hgone, ← hids.length_eq, List.length_map]

end

end NodeGet.Task.Retention
