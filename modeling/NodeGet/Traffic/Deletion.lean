import NodeGet.Task.Purge
import NodeGet.Traffic.Detail

/-! Deleting old total-traffic snapshots in batches
(`ng-monitoring/src/rpc/agent/delete_traffic_snapshot.rs`).

A batch is one statement that deletes the rows a query selects. The query has a `LIMIT`
and no order, so the database is free to choose which of the matching rows it returns
(`Limit`), and it may choose differently each time. The loop ends at the first batch that
is not full. Whatever is chosen, the matching rows are gone then, each counted once, and
nothing else is (`deleteSnapshots_eq_deleteAll`). -/
namespace NodeGet.TrafficDeletion
open NodeGet.Core NodeGet.Data
open NodeGet.TrafficDetail (TrafficSnapshot)
open NodeGet.Task.Retention (IdTable length_filter_deleteIds)

/-! ### The tables -/

/-- A row of `traffic_snapshot`; the database numbers rows from one. -/
structure SnapshotRow (Name : Type) extends TrafficSnapshot Name where
  id : Int64
  idPos : 0 < id.toInt

abbrev SnapshotTable (Name : Type) := IdTable (SnapshotRow Name) SnapshotRow.id

variable {Name : Type}

/-- `snapshot_time <= end_time`, and of the agent if one is given. -/
def expired (endTime : Int64) (uuidId : Option Int16) (r : SnapshotRow Name) : Bool :=
  decide (r.snapshotTime ≤ endTime) && uuidId.all (r.uuidId == ·)

/-- What a query with `LIMIT n` and without an order returns of the rows it finds. -/
structure Limit (ρ : Type) where
  rows : Nat → List ρ → List ρ
  subperm : ∀ n found, (rows n found).Subperm found
  length : ∀ n found, (rows n found).length = min n found.length

/-! ### The loop -/

section
variable (endTime : Int64) (uuidId : Option Int16) (batchSize : UInt64)

/-- `DELETE … WHERE id IN (SELECT id … LIMIT batch_size)`, with the number of rows affected. -/
def deleteBatch (limit : Limit (SnapshotRow Name)) (t : SnapshotTable Name) : UInt64 × SnapshotTable Name :=
  let batch := (limit.rows batchSize.toNat (t.rows.filter (expired endTime uuidId))).map SnapshotRow.id
  let t' := t.deleteIds batch
  (UInt64.ofNat (t.rows.length - t'.rows.length), t')

/-- At most `rounds` rounds of the loop from the `k`-th statement on, which the database
fails or answers; nothing is returned when the rounds are used up. -/
def deleteRounds (statement : Nat → Except String (Limit (SnapshotRow Name))) :
    (rounds k : Nat) → UInt64 → SnapshotTable Name → Option (Except String UInt64) × SnapshotTable Name
  | 0, _, _, t => (none, t)
  | rounds + 1, k, deletedTotal, t =>
    match statement k with
    | .error e => (some (.error e), t)
    | .ok limit =>
      let (deleted, t') := deleteBatch endTime uuidId batchSize limit t
      let deletedTotal := deletedTotal + deleted
      if deleted < batchSize then (some (.ok deletedTotal), t')
      else deleteRounds statement rounds (k + 1) deletedTotal t'

def deleteSnapshots (statement : Nat → Except String (Limit (SnapshotRow Name))) (rounds : Nat)
    (t : SnapshotTable Name) : Option (Except String UInt64) × SnapshotTable Name :=
  deleteRounds endTime uuidId batchSize statement rounds 0 0 t

end

/-- One delete of all matching rows, with their number. -/
def deleteAll (endTime : Int64) (uuidId : Option Int16) (t : SnapshotTable Name) : Nat × SnapshotTable Name :=
  ((t.rows.filter (expired endTime uuidId)).length, t.without (expired endTime uuidId))

/-! ### One batch -/

/-- What a batch leaves of a table: the rows that do not match, and the matching ones but
for as many as the batch holds. -/
structure Shrinks (endTime : Int64) (uuidId : Option Int16) (batchSize : UInt64) (t t' : SnapshotTable Name)
    (deleted : UInt64) : Prop where
  count : deleted.toNat = min batchSize.toNat (deleteAll endTime uuidId t).1
  left : (deleteAll endTime uuidId t).1 = (deleteAll endTime uuidId t').1 + deleted.toNat
  others : (deleteAll endTime uuidId t').2 = (deleteAll endTime uuidId t).2

section
variable (endTime : Int64) (uuidId : Option Int16) (batchSize : UInt64)

theorem deleteBatch_shrinks (limit : Limit (SnapshotRow Name)) (t : SnapshotTable Name) :
    Shrinks endTime uuidId batchSize t (deleteBatch endTime uuidId batchSize limit t).2
      (deleteBatch endTime uuidId batchSize limit t).1 := by
  set found := t.rows.filter (expired endTime uuidId) with hfound
  set ids := (limit.rows batchSize.toNat found).map SnapshotRow.id with hids
  have hmem : ∀ i ∈ ids, ∃ r ∈ t.rows, expired endTime uuidId r = true ∧ r.id = i := by
    intro i hi
    obtain ⟨r, hr, hid⟩ := List.mem_map.mp hi
    obtain ⟨hrow, hexpired⟩ := List.mem_filter.mp ((limit.subperm _ _).subset hr)
    exact ⟨r, hrow, hexpired, hid⟩
  have hnodup : ids.Nodup := by
    obtain ⟨chosen, hperm, hsub⟩ := limit.subperm batchSize.toNat found
    refine (hperm.map SnapshotRow.id).nodup_iff.mp (t.unique.sublist (List.Sublist.map _ ?_))
    exact hsub.trans List.filter_sublist
  have hlength : ids.length = min batchSize.toNat found.length := by
    rw [hids, List.length_map, limit.length]
  have hcount : (deleteBatch endTime uuidId batchSize limit t).1.toNat = ids.length := by
    have hall := length_filter_deleteIds hnodup (fun _ => true) fun i hi => by
      obtain ⟨r, hrow, -, hid⟩ := hmem i hi
      exact ⟨r, hrow, rfl, hid⟩
    rw [List.filter_true, List.filter_true] at hall
    have hbatch := batchSize.toNat_lt
    have hsize : UInt64.size = 18446744073709551616 := rfl
    show (UInt64.ofNat (t.rows.length - (t.deleteIds ids).rows.length)).toNat = ids.length
    rw [UInt64.toNat_ofNat_of_lt' (by omega)]
    omega
  refine ⟨hcount.trans hlength, ?_, ?_⟩
  · rw [hcount]
    exact length_filter_deleteIds hnodup (expired endTime uuidId) hmem
  · -- a row that does not match has no id of the batch
    apply IdTable.ext
    show ((t.rows.filter fun r => decide (r.id ∉ ids)).filter fun r => !expired endTime uuidId r) =
      t.rows.filter fun r => !expired endTime uuidId r
    rw [List.filter_comm]
    refine List.filter_eq_self.mpr ?_
    intro r hr
    obtain ⟨hrow, hnot⟩ := List.mem_filter.mp hr
    rw [decide_eq_true_iff]
    intro hid
    obtain ⟨r', hrow', hexpired, hid'⟩ := hmem r.id hid
    rw [t.eq_of_id hrow hrow' hid'.symm, hexpired] at hnot
    cases hnot

/-! ### The loop -/

/-- A table without matching rows is what deleting them leaves. -/
theorem eq_of_none {t : SnapshotTable Name} (h : (deleteAll endTime uuidId t).1 = 0) :
    t = (deleteAll endTime uuidId t).2 := by
  refine IdTable.ext (List.filter_eq_self.mpr ?_).symm
  intro r hr
  have hnot := List.filter_eq_nil_iff.mp (List.length_eq_zero_iff.mp h) r hr
  simpa using hnot

variable {batchSize}

/-- Every round but the last deletes a full batch. -/
theorem deleteRounds_spec (limit : Nat → Limit (SnapshotRow Name)) (hbatch : 1 ≤ batchSize)
    {rounds : Nat} {t : SnapshotTable Name}
    (hrounds : (deleteAll endTime uuidId t).1 / batchSize.toNat < rounds) (k : Nat) (total : UInt64) :
    deleteRounds endTime uuidId batchSize (fun k => .ok (limit k)) rounds k total t =
      (some (.ok (total + UInt64.ofNat (deleteAll endTime uuidId t).1)), (deleteAll endTime uuidId t).2) := by
  induction rounds generalizing k total t with
  | zero => exact absurd hrounds (Nat.not_lt_zero _)
  | succ rounds ih =>
    obtain ⟨hcount, hleft, hothers⟩ := deleteBatch_shrinks endTime uuidId batchSize (limit k) t
    set batch := deleteBatch endTime uuidId batchSize (limit k) t with hbatchEq
    have hsum : UInt64.ofNat (deleteAll endTime uuidId t).1 =
        batch.1 + UInt64.ofNat (deleteAll endTime uuidId batch.2).1 := by
      rw [hleft, UInt64.ofNat_add, UInt64.ofNat_toNat, UInt64.add_comm]
    simp only [deleteRounds, ← hbatchEq]
    rw [hsum, ← UInt64.add_assoc, ← hothers]
    split
    next hlast =>
      rw [UInt64.lt_iff_toNat_lt] at hlast
      have hnone : (deleteAll endTime uuidId batch.2).1 = 0 := by omega
      rw [← eq_of_none endTime uuidId hnone, hnone]
      simp
    next hfull =>
      rw [UInt64.lt_iff_toNat_lt] at hfull
      have hmore : batchSize.toNat ≤ (deleteAll endTime uuidId t).1 := by omega
      have hdiv := Nat.div_eq_sub_div (UInt64.le_iff_toNat_le.mp hbatch) hmore
      have hrest : (deleteAll endTime uuidId batch.2).1 = (deleteAll endTime uuidId t).1 - batchSize.toNat := by omega
      refine ih ?_ (k + 1) (total + batch.1)
      rw [hrest]
      omega

/-- A table has no more rows than there are numbers for them. -/
theorem toNat_deleteAll (t : SnapshotTable Name) :
    (UInt64.ofNat (deleteAll endTime uuidId t).1).toNat = (deleteAll endTime uuidId t).1 := by
  have hnumbers : (t.rows.map fun r => r.id.toInt.toNat).Nodup := by
    refine List.pairwise_map.mpr ((List.pairwise_map.mp t.unique).imp ?_)
    intro a b hne heq
    have ha := a.idPos
    have hb := b.idPos
    exact hne (Int64.toInt_inj.mp (by omega))
  have hsub : (t.rows.map fun r => r.id.toInt.toNat) ⊆ List.range 9223372036854775808 := by
    intro n hn
    obtain ⟨r, -, rfl⟩ := List.mem_map.mp hn
    have hle := r.id.toInt_lt
    have hpos := r.idPos
    rw [List.mem_range]
    omega
  have hlength := (List.subperm_of_subset hnumbers hsub).length_le
  rw [List.length_map, List.length_range] at hlength
  have hmatching : (deleteAll endTime uuidId t).1 ≤ t.rows.length := List.length_filter_le ..
  have hsize : UInt64.size = 18446744073709551616 := rfl
  exact UInt64.toNat_ofNat_of_lt' (by omega)

/-- **Batched deletion is one delete**: with batches of at least one row, whatever rows each
query returns, the loop ends after one round more than there are full batches, has deleted
exactly the matching rows, and returns their number. -/
theorem deleteSnapshots_eq_deleteAll (limit : Nat → Limit (SnapshotRow Name)) (hbatch : 1 ≤ batchSize)
    (t : SnapshotTable Name) (rounds : Nat)
    (hrounds : (deleteAll endTime uuidId t).1 / batchSize.toNat + 1 ≤ rounds) :
    ∃ deleted, deleteSnapshots endTime uuidId batchSize (fun k => .ok (limit k)) rounds t =
        (some (.ok deleted), (deleteAll endTime uuidId t).2) ∧
      deleted.toNat = (deleteAll endTime uuidId t).1 := by
  refine ⟨UInt64.ofNat (deleteAll endTime uuidId t).1, ?_, toNat_deleteAll endTime uuidId t⟩
  rw [deleteSnapshots, deleteRounds_spec endTime uuidId limit hbatch hrounds, UInt64.zero_add]

end

/-- A database that returns rows as it stores them. -/
def Limit.first (ρ : Type) : Limit ρ where
  rows n found := found.take n
  subperm n found := (List.take_sublist n found).subperm
  length _ _ := List.length_take

/-- Four snapshots of one agent, two of another. -/
def sixSnapshots : SnapshotTable String where
  rows := [⟨⟨1, "eth0", 1, 0, 0⟩, 21, by decide⟩, ⟨⟨1, "eth0", 2, 0, 0⟩, 22, by decide⟩,
    ⟨⟨1, "eth0", 3, 0, 0⟩, 23, by decide⟩, ⟨⟨1, "eth0", 4, 0, 0⟩, 24, by decide⟩,
    ⟨⟨2, "eth0", 1, 0, 0⟩, 25, by decide⟩, ⟨⟨2, "eth0", 2, 0, 0⟩, 26, by decide⟩]
  unique := by decide

/-- Four rows in batches of two: two full batches and one that shows the end. -/
theorem deleteSnapshots_eq_deleteAll_two :
    (deleteAll 2 none sixSnapshots).1 = 4 ∧
    ∃ deleted, deleteSnapshots 2 none 2 (fun _ => .ok (Limit.first _)) 3 sixSnapshots =
        (some (.ok deleted), (deleteAll 2 none sixSnapshots).2) ∧
      deleted.toNat = (deleteAll 2 none sixSnapshots).1 :=
  ⟨rfl, deleteSnapshots_eq_deleteAll 2 none (fun _ => Limit.first _) (by decide) sixSnapshots 3 (by decide)⟩

end NodeGet.TrafficDeletion
