import NodeGet.Data.Admission
import NodeGet.Data.Chunks
import NodeGet.Monitoring.Flush
import NodeGet.Monitoring.StaticReport

/-! Duplicates in a flush of static rows (`ng-monitoring/src/monitoring_buffer.rs`: `do_flush`;
`ng-db/migration`: `m20260113_044428_create_static_monitoring`).

On SQLite the statement has `ON CONFLICT (id) DO NOTHING`, on PostgreSQL it has no clause.
Neither names the unique index on the agent and the hash, so one row that is there already, or
twice in the statement, makes the whole sub-batch fail, and it is dropped. A sub-batch is
written when all its pairs are new (`Enters`), and a flush stores all pairs exactly when those
of the other sub-batches are stored anyway (`flush_stores_iff`). -/
namespace NodeGet.Monitoring.StaticDuplicates
open NodeGet.Core NodeGet.Data NodeGet.Machine NodeGet.Monitoring.StaticReport

/-! ### The table -/

def keys (rows : List (Row StaticRecord)) : List (Int16 × List UInt8) := (rows.map (·.record)).map indexKey

theorem keys_insertRows (nextId : Nat) (rows : List (Row StaticRecord)) (records : List StaticRecord) :
    keys (insertRows nextId rows records) = keys rows ++ records.map indexKey := by
  rw [keys, records_insertRows, List.map_append]
  rfl

theorem conflicts_eq_false_iff {rows : List (Row StaticRecord)} {subBatch : List StaticRecord} :
    conflicts rows subBatch = false ↔ (keys rows ++ subBatch.map indexKey).Nodup := by
  rw [conflicts, Bool.not_eq_false', decide_eq_true_iff]
  rfl

/-- The rows and their unique index. -/
structure StaticTable where
  rows : List (Row StaticRecord)
  nextId : Nat
  unique : (keys rows).Nodup

/-- One statement, which fails as a whole. -/
def StaticTable.insertMany (t : StaticTable) (subBatch : List StaticRecord) : Option StaticTable :=
  if h : conflicts t.rows subBatch = false then
    some ⟨insertRows t.nextId t.rows subBatch, t.nextId + subBatch.length,
      by rw [keys_insertRows]; exact conflicts_eq_false_iff.mp h⟩
  else none

theorem keys_insertMany (t : StaticTable) (subBatch : List StaticRecord) :
    keys ((t.insertMany subBatch).getD t).rows = offer (keys t.rows) (subBatch.map indexKey) := by
  rw [StaticTable.insertMany, offer]
  split
  next h => rw [if_pos (conflicts_eq_false_iff.mp h), Option.getD_some, keys_insertRows]
  next h => rw [if_neg (mt conflicts_eq_false_iff.mpr h), Option.getD_none]

/-! ### The flush -/

def subBatches (backend : Backend) (batch : List StaticRecord) : List (List StaticRecord) :=
  chunks (chunkSize backend numColumns batch.length) batch

def doFlush (backend : Backend) (t : StaticTable) (batch : List StaticRecord) : StaticTable :=
  (subBatches backend batch).foldl (fun t subBatch => (t.insertMany subBatch).getD t) t

theorem chunkSize_pos (backend : Backend) {total : Nat} (h : 0 < total) : 0 < chunkSize backend numColumns total := by
  cases backend with
  | sqlite => exact Nat.lt_min.mpr ⟨by decide, h⟩
  | postgres => exact h

theorem take_chunkSize (backend : Backend) {batch : List StaticRecord} {total : Nat} (h : batch.length ≤ total) :
    batch.take (chunkSize backend numColumns batch.length) = batch.take (chunkSize backend numColumns total) := by
  rw [List.take_eq_take_iff]
  cases backend with
  | sqlite =>
    simp only [chunkSize]
    omega
  | postgres =>
    simp only [chunkSize]
    omega

section Steps
variable {ι : Type} [DecidableEq ι] (backend : Backend) (idOf : Uuid → Option Int16) (report : ι → Report)

/-- A state with this table and this batch. -/
def StaticTable.within (t : StaticTable) (s : State ι) (batch : List StaticRecord) : State ι :=
  { s with rows := t.rows, nextId := t.nextId, batch }

theorem step_insert (t : StaticTable) (s : State ι) (batch : List StaticRecord) :
    StaticReport.step backend idOf report (t.within s batch) (.insert true) =
      some (((t.insertMany ((t.within s batch).subBatch backend)).getD t).within s
        (batch.drop ((t.within s batch).subBatch backend).length)) := by
  rw [StaticTable.insertMany]
  simp only [StaticReport.step, Bool.true_and]
  split
  next h =>
    rw [dif_pos (Bool.not_eq_true' _ ▸ h)]
    rfl
  next h =>
    have hconflicts : ¬conflicts t.rows ((t.within s batch).subBatch backend) = false :=
      fun hnone => h (congrArg (!·) hnone)
    rw [dif_neg hconflicts]
    rfl

/-- The flush is what the steps next to the reports do when the database takes every statement that
breaks no index. -/
theorem run_insert (t : StaticTable) (s : State ι) (batch : List StaticRecord) :
    run (StaticReport.step backend idOf report) (t.within s batch)
      (List.replicate (subBatches backend batch).length (.insert true)) = some ((doFlush backend t batch).within s []) := by
  refine run_chunks (StaticTable.within · s) (fun t sub => (t.insertMany sub).getD t) (chunkSize_pos backend)
    (fun t rest _ hrest => ?_) t batch (Nat.le_refl _)
  have hsub : (t.within s rest).subBatch backend = rest.take (chunkSize backend numColumns batch.length) :=
    take_chunkSize backend hrest
  rw [step_insert, hsub, List.length_take, ← List.drop_eq_drop_min]

/-- The task behind the buffer executes the statements of the flush. -/
theorem run_flush {l : Flush.Loop} (htable : l.table = .staticMonitoring) {s : Flush.State StaticRecord} {last : Bool}
    (hpc : s.pc = .flushing last) (hbuf : s.buf ≠ []) :
    (run (Flush.step l) s (.flush true :: List.replicate (subBatches l.backend s.buf).length (.insert true))).map (·.executed) =
      some (s.executed ++ subBatches l.backend s.buf) := by
  have hflush : Flush.step l s (.flush true) = some { s with
      buf := [], pc := .inserting last (chunkSize l.backend numColumns s.buf.length) s.buf } := by
    simp only [Flush.step, hpc, Flush.State.flush, List.isEmpty_iff, if_neg hbuf, htable]
    rfl
  rw [run_cons, hflush, Option.bind_some]
  refine (congrArg (Option.map _) (run_chunks (fun executed rest => { s with
      buf := [], executed, pc := .inserting last (chunkSize l.backend numColumns s.buf.length) rest })
    (fun executed sub => executed ++ [sub]) (chunkSize_pos l.backend) (fun executed rest hrest _ => ?_)
    s.executed s.buf (Nat.le_refl _))).trans ?_
  · simp only [Flush.step, Flush.State.insert, List.isEmpty_iff, if_neg hrest]
    rw [← List.take_eq_take_min, ← List.drop_eq_drop_min]
    rfl
  · rw [Option.map_some, List.foldl_append_eq_append, ← List.flatMap_def, List.flatMap_singleton']
    rfl

end Steps

/-- The pairs of the sub-batches. -/
def pairs (backend : Backend) (batch : List StaticRecord) : List (List (Int16 × List UInt8)) :=
  (subBatches backend batch).map (·.map indexKey)

variable (backend : Backend) (t : StaticTable) (batch : List StaticRecord)

theorem keys_foldl_insertMany (subs : List (List StaticRecord)) :
    keys (subs.foldl (fun t subBatch => (t.insertMany subBatch).getD t) t).rows =
      (subs.map (·.map indexKey)).foldl offer (keys t.rows) := by
  induction subs generalizing t with
  | nil => rfl
  | cons sub rest ih => rw [List.foldl_cons, ih, keys_insertMany, List.map_cons, List.foldl_cons]

theorem mem_keys_doFlush (k : Int16 × List UInt8) :
    k ∈ keys (doFlush backend t batch).rows ↔
      k ∈ keys t.rows ∨ ∃ i, Enters (keys t.rows) (pairs backend batch) i ∧ k ∈ (pairs backend batch).getD i [] := by
  rw [doFlush, keys_foldl_insertMany, mem_foldl_offer t.unique]
  rfl

theorem flatten_subBatches : (subBatches backend batch).flatten = batch := by
  cases batch with
  | nil => rfl
  | cons r rest => exact flatten_chunks (chunkSize_pos backend (Nat.succ_pos _)) _

theorem exists_mem_pairs_iff (k : Int16 × List UInt8) :
    (∃ i, k ∈ (pairs backend batch).getD i []) ↔ k ∈ batch.map indexKey := by
  rw [exists_mem_getD_iff, pairs, ← List.map_flatten, flatten_subBatches]

/-- **Duplicates in static batches**: a flush stores every pair of the batch exactly when each
pair of a sub-batch that cannot enter is stored already or in one that enters. -/
theorem flush_stores_iff (backend : Backend) (t : StaticTable) (batch : List StaticRecord) :
    (∀ r ∈ batch, indexKey r ∈ keys (doFlush backend t batch).rows) ↔
      ∀ i, ¬Enters (keys t.rows) (pairs backend batch) i → ∀ k ∈ (pairs backend batch).getD i [],
        k ∈ keys t.rows ∨ ∃ j, Enters (keys t.rows) (pairs backend batch) j ∧ k ∈ (pairs backend batch).getD j [] := by
  simp only [mem_keys_doFlush]
  constructor
  · intro h i _ k hk
    obtain ⟨r, hr, rfl⟩ := List.mem_map.mp ((exists_mem_pairs_iff backend batch k).mp ⟨i, hk⟩)
    exact h r hr
  · intro h r hr
    obtain ⟨i, hi⟩ := (exists_mem_pairs_iff backend batch _).mpr (List.mem_map_of_mem hr)
    by_cases henters : Enters (keys t.rows) (pairs backend batch) i
    · exact .inr ⟨i, henters, hi⟩
    · exact h i henters _ hi

private def emptyTable : StaticTable := ⟨[], 1, List.nodup_nil⟩

private def hashed (hash : UInt8) : StaticRecord := ⟨⟨1, 0, none⟩, fun _ => .null, [hash]⟩

/-- One report sent twice into one batch, on either backend: no row of it is written. With the
first row stored, the second makes the next batch lose a new one. -/
theorem repeated_pair_is_lost :
    ¬(∀ r ∈ [hashed 7, hashed 7], indexKey r ∈ keys (doFlush .sqlite emptyTable [hashed 7, hashed 7]).rows) ∧
      ¬(∀ r ∈ [hashed 7, hashed 7], indexKey r ∈ keys (doFlush .postgres emptyTable [hashed 7, hashed 7]).rows) ∧
      indexKey (hashed 8) ∉
        keys (doFlush .sqlite (doFlush .sqlite emptyTable [hashed 7]) [hashed 7, hashed 8]).rows := by
  decide +kernel

end NodeGet.Monitoring.StaticDuplicates
