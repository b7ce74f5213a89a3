import Mathlib.Data.List.Sort
import NodeGet.Core.Error
import NodeGet.Monitoring.Record

/-! The conditions of monitoring queries and deletes
(`ng-monitoring/src/query.rs`, `rpc/agent/delete_common.rs`): how they select rows,
and what a delete removes. The same code serves the static, the dynamic and the
summary table. -/
namespace NodeGet.Monitoring
open NodeGet.Core

inductive QueryCondition where
  | uuid (uuid : Uuid)
  | timestampFromTo (start stop : Int64)
  | timestampFrom (start : Int64)
  | timestampTo (stop : Int64)
  | storageTimeFromTo (start stop : Int64)
  | storageTimeFrom (start : Int64)
  | storageTimeTo (stop : Int64)
  | limit (n : UInt64)
  | last
deriving DecidableEq

inductive ResolvedCondition where
  | uuidId (uuidId : Int16)
  | timestampFromTo (start stop : Int64)
  | timestampFrom (start : Int64)
  | timestampTo (stop : Int64)
  | storageTimeFromTo (start stop : Int64)
  | storageTimeFrom (start : Int64)
  | storageTimeTo (stop : Int64)
deriving DecidableEq

def maxQueryLimit : UInt64 := 10000

/-- The last limit given, cut to the maximum, and whether `Last` is given. -/
def extractLimitAndLast (conditions : List QueryCondition) : Option UInt64 × Bool :=
  conditions.foldl (fun acc cond =>
    match cond with
    | .limit n => (some (min n maxQueryLimit), acc.2)
    | .last => (acc.1, true)
    | _ => acc) (none, false)

/-- Agents by number; an agent the registry does not know fails the request. -/
def resolveConditions (idOf : Uuid → Option Int16) :
    List QueryCondition → Except NodegetError (List ResolvedCondition)
  | [] => .ok []
  | .uuid uuid :: rest =>
    match idOf uuid with
    | none => .error (.notFound ("Agent UUID not found in monitoring registry: " ++ Uuid.text uuid))
    | some uuidId => (resolveConditions idOf rest).map (.uuidId uuidId :: ·)
  | .timestampFromTo start stop :: rest => (resolveConditions idOf rest).map (.timestampFromTo start stop :: ·)
  | .timestampFrom start :: rest => (resolveConditions idOf rest).map (.timestampFrom start :: ·)
  | .timestampTo stop :: rest => (resolveConditions idOf rest).map (.timestampTo stop :: ·)
  | .storageTimeFromTo start stop :: rest =>
    (resolveConditions idOf rest).map (.storageTimeFromTo start stop :: ·)
  | .storageTimeFrom start :: rest => (resolveConditions idOf rest).map (.storageTimeFrom start :: ·)
  | .storageTimeTo stop :: rest => (resolveConditions idOf rest).map (.storageTimeTo stop :: ·)
  | .limit _ :: rest => resolveConditions idOf rest
  | .last :: rest => resolveConditions idOf rest

/-- A comparison with a missing storage time is not true. -/
def ResolvedCondition.holds (r : Columns) : ResolvedCondition → Bool
  | .uuidId agent => r.uuidId == agent
  | .timestampFromTo start stop => start ≤ r.timestamp && r.timestamp ≤ stop
  | .timestampFrom start => start ≤ r.timestamp
  | .timestampTo stop => r.timestamp ≤ stop
  | .storageTimeFromTo start stop => r.storageTime.any fun t => start ≤ t && t ≤ stop
  | .storageTimeFrom start => r.storageTime.any fun t => start ≤ t
  | .storageTimeTo stop => r.storageTime.any fun t => t ≤ stop

/-- A row of a monitoring table with its primary key. -/
structure Row (ρ : Type) where
  id : Nat
  record : ρ

section Delete
variable {ρ : Type} (columns : ρ → Columns)

/-- The rows that stay. With `Last` or a limit the newest matching rows go, else all
matching rows. -/
def deleteRows (idOf : Uuid → Option Int16) (conditions : List QueryCondition) (rows : List (Row ρ)) :
    Except NodegetError (List (Row ρ)) :=
  let (limitCount, isLast) := extractLimitAndLast conditions
  (resolveConditions idOf conditions).map fun resolved =>
    let selected := rows.filter fun row => resolved.all (·.holds (columns row.record))
    if isLast || limitCount.isSome then
      let limit := if isLast then 1 else (limitCount.getD 0).toNat
      let newestFirst := selected.insertionSort fun a b =>
        (columns b.record).timestamp ≤ (columns a.record).timestamp
      let ids := (newestFirst.take limit).map (·.id)
      rows.filter fun row => row.id ∉ ids
    else rows.filter fun row => !resolved.all (·.holds (columns row.record))

variable {columns}

theorem deleteRows_subset {idOf : Uuid → Option Int16} {conditions : List QueryCondition}
    {rows rows' : List (Row ρ)} (h : deleteRows columns idOf conditions rows = .ok rows') : rows' ⊆ rows := by
  unfold deleteRows at h
  cases hres : resolveConditions idOf conditions with
  | error e =>
    simp only [hres, Except.map] at h
    cases h
  | ok resolved =>
    simp only [hres, Except.map, Except.ok.injEq] at h
    rw [← h]
    split
    · exact List.filter_subset_self _
    · exact List.filter_subset_self _

end Delete

/-! ### Inserting -/

/-- Records written in order, under fresh keys. -/
def insertRows {ρ : Type} (nextId : Nat) (rows : List (Row ρ)) (records : List ρ) : List (Row ρ) :=
  rows ++ List.zipWith Row.mk (List.range' nextId records.length) records

theorem records_insertRows {ρ : Type} (nextId : Nat) (rows : List (Row ρ)) (records : List ρ) :
    (insertRows nextId rows records).map (·.record) = rows.map (·.record) ++ records := by
  have hzip : ∀ n, (List.zipWith Row.mk (List.range' n records.length) records).map (·.record) = records := by
    induction records with
    | nil => exact fun _ => rfl
    | cons r rest ih => exact fun n => congrArg (r :: ·) (ih (n + 1))
  rw [insertRows, List.map_append, hzip]

end NodeGet.Monitoring
