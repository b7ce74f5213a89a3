import NodeGet.Data.Ties
import NodeGet.Results.Access
import NodeGet.Task.QueryOrder

/-! Which rows are deleted, and which are shown (`query.rs` and `delete.rs` of `ng-task/src/rpc`,
`ng-crontab/src/rpc/crontab_result` and `ng-js-worker/src/js_result`).

The three tables are read with `Last` or `Limit` by time, newest first, and cut off; a deletion
reads the ids in the same way and then deletes by id. A super token passes every check. Rows of
the same time are put in the order of their ids, by all of these statements but one: the query
of `crontab_result` leaves their order to the database. When the cut falls among rows of one
time, what is shown need not be what is deleted (`same_rows_iff`). -/
namespace NodeGet.Results
open NodeGet.Core NodeGet.Data NodeGet.Data.Table
open NodeGet.Task (TaskQueryCondition timestampLe timestampLe_trans timestampLe_total timestampLe_antisymm rowLe
  rowLe_sortsUniquely defaultResultQueryLimit)

/-! ### The requests of a super token -/

namespace Crontab
variable (backend : Backend) (conditions : List CrontabResultQueryCondition) (table : Table)

/-- By time alone. -/
def newer (a b : CrontabResult) : Bool := timestampLe backend b.runTime a.runTime

def superQuery (answer : List CrontabResult) : Prop :=
  table.Selects (selects conditions) (newer backend)
    (if isLast conditions then 1 else (limitCount conditions).getD 1000) answer

def superDelete (after : Table) : Prop :=
  table.Deletes (selects conditions) (newerFirst backend CrontabResult.runTime CrontabResult.id)
    (if isLast conditions then some 1 else limitCount conditions) after

end Crontab

namespace Js
variable (backend : Backend) (conditions : List JsResultQueryCondition) (table : Table)

/-- Without a named worker, the workers of all results. -/
def superWorkers : Option (List String) :=
  if (requestedWorkerNames conditions).isEmpty then some (table.rows.map (·.jsWorkerName)).dedup else none

def superQuery (answer : List JsResult) : Prop :=
  if superWorkers conditions table = some [] then answer = []
  else
    table.Selects (selects conditions (superWorkers conditions table))
      (newerFirst backend JsResult.startTime JsResult.id)
      (if isLast conditions then 1 else (limitCount conditions).getD defaultResultQueryLimit) answer

def superDelete (after : Table) : Prop :=
  if superWorkers conditions table = some [] then after = table
  else
    table.Deletes (selects conditions (superWorkers conditions table))
      (newerFirst backend JsResult.startTime JsResult.id)
      (if isLast conditions then some 1 else limitCount conditions) after

end Js

namespace Tasks
variable (number : JsonNumber → List Char) (backend : Backend) (conditions : List TaskQueryCondition)
  (table : NodeGet.Task.Table)

/-- By time and id, from the newest with `Last` or `Limit` and from the oldest otherwise. -/
def superQuery (answer : List NodeGet.Task.Row) : Prop :=
  if NodeGet.Task.isLast conditions then
    table.Selects (NodeGet.Task.selects number backend conditions) (fun a b => rowLe backend b a) 1 answer
  else
    match NodeGet.Task.limitCount conditions with
    | some n => table.Selects (NodeGet.Task.selects number backend conditions) (fun a b => rowLe backend b a) n answer
    | none =>
      table.Selects (NodeGet.Task.selects number backend conditions) (rowLe backend) defaultResultQueryLimit answer

def superDelete (after : NodeGet.Task.Table) : Prop :=
  table.Deletes (NodeGet.Task.selects number backend conditions) (fun a b => rowLe backend b a)
    (if NodeGet.Task.isLast conditions then some 1 else NodeGet.Task.limitCount conditions) after

end Tasks

inductive Request where
  | task (conditions : List TaskQueryCondition) (table : NodeGet.Task.Table)
  | crontabResult (conditions : List CrontabResultQueryCondition) (table : Crontab.Table)
  | jsResult (conditions : List JsResultQueryCondition) (table : Js.Table)

namespace Request

/-- The conditions have `Last` or `Limit`. -/
def isCut : Request → Bool
  | task conditions _ => NodeGet.Task.isLast conditions || (NodeGet.Task.limitCount conditions).isSome
  | crontabResult conditions _ => Crontab.isLast conditions || (Crontab.limitCount conditions).isSome
  | jsResult conditions _ => Js.isLast conditions || (Js.limitCount conditions).isSome

/-- The rows that a deletion removes are those that a query returns, whatever order the database
gives to rows that compare equal. -/
def SameRows (number : JsonNumber → List Char) (backend : Backend) : Request → Prop
  | task conditions table => ∀ answer after, Tasks.superQuery number backend conditions table answer →
      Tasks.superDelete number backend conditions table after → ∀ row, row ∈ answer ↔ row ∈ table.rows ∧ row ∉ after.rows
  | crontabResult conditions table => ∀ answer after, Crontab.superQuery backend conditions table answer →
      Crontab.superDelete backend conditions table after → ∀ row, row ∈ answer ↔ row ∈ table.rows ∧ row ∉ after.rows
  | jsResult conditions table => ∀ answer after, Js.superQuery backend conditions table answer →
      Js.superDelete backend conditions table after → ∀ row, row ∈ answer ↔ row ∈ table.rows ∧ row ∉ after.rows

/-- The cut does not fall among results of scheduled jobs that ran at the same time. -/
def CutsNoTie (backend : Backend) : Request → Prop
  | crontabResult conditions table =>
    Data.CutsNoTie (Crontab.newer backend)
      (if Crontab.isLast conditions then 1 else (Crontab.limitCount conditions).getD 1000)
      (table.rows.filter (Crontab.selects conditions))
  | task .. | jsResult .. => True

end Request

/-! ### The orders -/

section Orders
variable {ρ : Type} {backend : Backend} {time : ρ → Option Int} {id : ρ → Int}

theorem newerFirst_iff (a b : ρ) : newerFirst backend time id a b = true ↔
    timestampLe backend (time b) (time a) = true ∧ (time a = time b → id b ≤ id a) := by
  unfold newerFirst
  split
  next heq =>
    have hself : timestampLe backend (time b) (time b) = true := by
      simpa using timestampLe_total backend (time b) (time b)
    simp [heq, hself]
  next hne => simp [hne]

/-- Rows have different ids, so by time and id there is one way to sort them. -/
theorem newerFirst_sortsUniquely (table : Keyed id) (p : ρ → Bool) :
    SortsUniquely (newerFirst backend time id) (table.rows.filter p) where
  trans a b c hab hbc := by
    rw [newerFirst_iff] at *
    refine ⟨timestampLe_trans backend hbc.1 hab.1, fun heq => ?_⟩
    have hmiddle : time a = time b := (timestampLe_antisymm hab.1 (heq ▸ hbc.1)).symm
    exact Int.le_trans (hbc.2 (hmiddle.symm.trans heq)) (hab.2 hmiddle)
  total a b := by
    rw [Bool.or_eq_true, newerFirst_iff, newerFirst_iff]
    by_cases heq : time a = time b
    · have hself : timestampLe backend (time b) (time b) = true := by
        simpa using timestampLe_total backend (time b) (time b)
      rw [heq]
      exact (Int.le_total (id b) (id a)).imp (fun h => ⟨hself, fun _ => h⟩) fun h => ⟨hself, fun _ => h⟩
    · exact (timestampLe_total backend (time b) (time a)).imp (fun h => ⟨h, fun he => absurd he heq⟩)
        fun h => ⟨h, fun he => absurd he.symm heq⟩
  antisymm a ha b hb hab hba := by
    rw [newerFirst_iff] at hab hba
    have htime : time a = time b := timestampLe_antisymm hba.1 hab.1
    exact List.inj_on_of_nodup_map table.nodup (List.mem_filter.mp ha).1 (List.mem_filter.mp hb).1
      (Int.le_antisymm (hba.2 htime.symm) (hab.2 htime))

theorem newer_compares (backend : Backend) : Compares (Crontab.newer backend) where
  trans _ _ _ hab hbc := timestampLe_trans backend hbc hab
  total a b := by
    rw [Bool.or_eq_true]
    exact timestampLe_total backend b.runTime a.runTime

end Orders

/-! ### The requests of any token

What a request answers that passed its checks is what it answers a super token, for results of
scripts if the token may touch those of all workers. -/

section Requests
variable {number : JsonNumber → List Char} {backend : Backend} {grant : Grant} {now : Int}

theorem Crontab.query_superQuery {conditions : List CrontabResultQueryCondition} {table : Crontab.Table}
    {rows : List CrontabResult} (h : Crontab.query backend grant now conditions table = .ok rows) :
    Crontab.superQuery backend conditions table rows := by
  obtain ⟨-, -, hrows⟩ := ok_of_bind h
  cases hrows
  exact Keyed.selects_select (newer_compares backend) _

theorem Crontab.delete_superDelete {conditions : List CrontabResultQueryCondition} {table : Crontab.Table}
    {result : Nat × Crontab.Table} (h : Crontab.delete backend grant now conditions table = .ok result) :
    Crontab.superDelete backend conditions table result.2 := by
  obtain ⟨-, -, hresult⟩ := ok_of_bind h
  cases hresult
  exact Keyed.deletes_delete (newerFirst_sortsUniquely table fun _ => true).compares _

section Js
variable {conditions : List JsResultQueryCondition} {table : Js.Table}

theorem Js.query_superQuery {rows : List JsResult}
    (hall : Js.allowedWorkers grant now conditions .read table = .ok (Js.superWorkers conditions table))
    (h : Js.query backend grant now conditions table = .ok rows) : Js.superQuery backend conditions table rows := by
  obtain ⟨allowed, hallowed, hrows⟩ := ok_of_bind h
  cases hall.symm.trans hallowed
  rw [superQuery]
  split at hrows <;> cases hrows
  next hnone => rw [if_pos hnone]
  next hsome =>
    rw [if_neg hsome]
    exact Keyed.selects_select (newerFirst_sortsUniquely table fun _ => true).compares _

theorem Js.delete_superDelete {result : Nat × Js.Table}
    (hall : Js.allowedWorkers grant now conditions .delete table = .ok (Js.superWorkers conditions table))
    (h : Js.delete backend grant now conditions table = .ok result) :
    Js.superDelete backend conditions table result.2 := by
  obtain ⟨allowed, hallowed, hresult⟩ := ok_of_bind h
  cases hall.symm.trans hallowed
  rw [superDelete]
  split at hresult <;> cases hresult
  next hnone => rw [if_pos hnone]
  next hsome =>
    rw [if_neg hsome]
    exact Keyed.deletes_delete (newerFirst_sortsUniquely table fun _ => true).compares _

end Js

section Tasks
variable {conditions : List TaskQueryCondition} {table : NodeGet.Task.Table}

theorem Tasks.query_superQuery {rows : List NodeGet.Task.Row}
    (h : NodeGet.Task.query number backend grant now conditions table = .ok rows) :
    Tasks.superQuery number backend conditions table rows := by
  have hle := rowLe_sortsUniquely backend table fun _ => true
  unfold NodeGet.Task.query at h
  split at h <;> cases h
  rw [superQuery]
  split
  next => exact Keyed.selects_select hle.flip.compares _
  next =>
    cases NodeGet.Task.limitCount conditions with
    | some n => exact Keyed.selects_select hle.flip.compares n
    | none => exact Keyed.selects_select hle.compares _

theorem Tasks.delete_superDelete {result : Nat × NodeGet.Task.Table}
    (h : NodeGet.Task.delete number backend grant now conditions table = .ok result) :
    Tasks.superDelete number backend conditions table result.2 := by
  unfold NodeGet.Task.delete at h
  split at h <;> cases h
  exact Keyed.deletes_delete (rowLe_sortsUniquely backend table fun _ => true).flip.compares _

end Tasks
end Requests

/-- Both statements are cut off at the same number of rows. -/
theorem cut_eq {last : Bool} {count : Option Nat} (h : (last || count.isSome) = true) (default : Nat) :
    (if last then some 1 else count) = some (if last then 1 else count.getD default) := by
  cases last with
  | true => rfl
  | false =>
    obtain ⟨n, rfl⟩ := Option.isSome_iff_exists.mp h
    rfl

theorem Tasks.same_rows (number : JsonNumber → List Char) (backend : Backend) {conditions : List TaskQueryCondition}
    (table : NodeGet.Task.Table)
    (hcut : (NodeGet.Task.isLast conditions || (NodeGet.Task.limitCount conditions).isSome) = true) :
    (Request.task conditions table).SameRows number backend := by
  intro answer after hanswer hafter
  have hunique := (rowLe_sortsUniquely backend table (NodeGet.Task.selects number backend conditions)).flip
  rw [superDelete, cut_eq hcut defaultResultQueryLimit] at hafter
  rw [superQuery] at hanswer
  split at hanswer
  next hlast =>
    rw [if_pos hlast] at hafter
    exact Keyed.same_rows_of_unique hunique 1 hanswer hafter
  next hlast =>
    rw [if_neg hlast] at hafter
    split at hanswer
    next n hn =>
      rw [hn] at hafter
      exact Keyed.same_rows_of_unique hunique n hanswer hafter
    next hnone => simp [hlast, hnone] at hcut

theorem Js.same_rows (number : JsonNumber → List Char) (backend : Backend)
    {conditions : List JsResultQueryCondition} (table : Js.Table)
    (hcut : (Js.isLast conditions || (Js.limitCount conditions).isSome) = true) :
    (Request.jsResult conditions table).SameRows number backend := by
  intro answer after hanswer hafter row
  rw [superQuery] at hanswer
  rw [superDelete, cut_eq hcut defaultResultQueryLimit] at hafter
  split at hanswer
  next hnone =>
    rw [if_pos hnone] at hafter
    rw [hanswer, hafter]
    simp
  next hsome =>
    rw [if_neg hsome] at hafter
    exact Keyed.same_rows_of_unique (newerFirst_sortsUniquely table _) _ hanswer hafter row

/-- **With `Last` or `Limit` the rows deleted are the rows shown exactly when the cut does not
fall among results of scheduled jobs with the same time.** For tasks and for results of scripts
they always are. -/
theorem same_rows_iff (number : JsonNumber → List Char) (backend : Backend) (request : Request)
    (hcut : request.isCut = true) : request.SameRows number backend ↔ request.CutsNoTie backend := by
  cases request with
  | task conditions table => exact iff_of_true (Tasks.same_rows number backend table hcut) trivial
  | jsResult conditions table => exact iff_of_true (Js.same_rows number backend table hcut) trivial
  | crontabResult conditions table =>
    simp only [Request.SameRows, Request.CutsNoTie, Crontab.superQuery, Crontab.superDelete, cut_eq hcut 1000]
    exact Keyed.deletes_selected_iff (newer_compares backend) (newerFirst_sortsUniquely table _)
      fun a b hab => ((newerFirst_iff a b).mp hab).1

section Example

private def ran (id time : Int) : CrontabResult := ⟨id, 1, "backup", none, some time, some true, none⟩

/-- Two runs at different times, and two at the same. -/
private def apart : Crontab.Table := ⟨[ran 1 5, ran 2 6], by decide⟩

private def together : Crontab.Table := ⟨[ran 3 7, ran 4 7], by decide⟩

theorem same_rows_apart :
    (Request.crontabResult [.last] apart).isCut = true ∧
      (Request.crontabResult [.last] apart).SameRows (fun _ => []) .sqlite :=
  ⟨rfl, (same_rows_iff _ _ _ rfl).mpr
    (by decide : Data.CutsNoTie (Crontab.newer .sqlite) 1 (apart.rows.filter (Crontab.selects [.last])))⟩

/-- The query may show the older of the two, and the deletion removes the newer. -/
theorem another_run_is_deleted : ¬(Request.crontabResult [.last] together).SameRows (fun _ => []) .sqlite := by
  intro hsame
  have hshown : Crontab.superQuery .sqlite [.last] together [ran 3 7] :=
    ⟨[ran 3 7, ran 4 7], List.Perm.refl _, by decide, rfl⟩
  have hdeleted : Crontab.superDelete .sqlite [.last] together ⟨[ran 3 7], by decide⟩ :=
    ⟨[ran 4 7], ⟨[ran 4 7, ran 3 7], List.Perm.swap .., by decide, rfl⟩, rfl⟩
  have hrow := (hsame [ran 3 7] ⟨[ran 3 7], by decide⟩ hshown hdeleted (ran 3 7)).mp List.mem_cons_self
  exact hrow.2 List.mem_cons_self

end Example

end NodeGet.Results
