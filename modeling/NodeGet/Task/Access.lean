import Mathlib.Data.List.Nodup
import NodeGet.Core.Error
import NodeGet.Core.Permission
import NodeGet.Data.Table
import NodeGet.Task.Conditions

/-! `task_query` and `task_delete` (`ng-task/src/rpc/query.rs`, `delete.rs`): which rows a
token gets to see or to remove.

A request is checked by what it asks for: the agents and task types named in its
conditions, or everything where it names none. The rows are then selected by the
conditions alone. So a row stays inside the grant when the type condition that
selects it is its own type; on PostgreSQL it always is (`stays_inside_postgres`), on
SQLite the searched text holds more than the name of the task. -/
namespace NodeGet.Task
open NodeGet.Core NodeGet.Data.Table

/-- The two requests, which differ in the permission they need. -/
inductive TaskOp where
  | query
  | delete
deriving DecidableEq

def TaskOp.permission (op : TaskOp) (name : String) : Permission :=
  match op with
  | .query => .task (.read name)
  | .delete => .task (.delete name)

def maxQueryLimit : Nat := 10000

def defaultResultQueryLimit : Nat := 1000

/-! ### What a request asks for -/

def requestedUuids (conditions : List TaskQueryCondition) : List Uuid :=
  conditions.filterMap fun
    | .uuid uuid => some uuid
    | _ => none

def requestedTypes (conditions : List TaskQueryCondition) : List String :=
  conditions.filterMap fun
    | .taskType key => some key
    | _ => none

def scopes (conditions : List TaskQueryCondition) : List Scope :=
  if (requestedUuids conditions).isEmpty then [.global] else (requestedUuids conditions).map .agentUuid

def permissions (op : TaskOp) (conditions : List TaskQueryCondition) : List Permission :=
  (if (requestedTypes conditions).isEmpty then allTaskTypes else requestedTypes conditions).map op.permission

def isLast (conditions : List TaskQueryCondition) : Bool := conditions.any (· == .last)

/-- The last `Limit` counts, up to the maximum. -/
def limitCount (conditions : List TaskQueryCondition) : Option Nat :=
  conditions.foldl (fun count condition =>
    match condition with
    | .limit n => some (min n.toNat maxQueryLimit)
    | _ => count) none

/-! ### The table -/

abbrev Table := Keyed Row.id

/-- Where `NULL` stands: before all times on SQLite, after them on PostgreSQL. -/
def timestampLe (backend : Backend) : Option Int → Option Int → Bool
  | some a, some b => a ≤ b
  | none, none => true
  | none, some _ => backend = .sqlite
  | some _, none => backend = .postgres

/-- By time and then by id. -/
def rowLe (backend : Backend) (a b : Row) : Bool :=
  if a.timestamp = b.timestamp then a.id ≤ b.id else timestampLe backend a.timestamp b.timestamp

section Requests
variable (number : JsonNumber → List Char) (backend : Backend)

/-- The newest rows that pass, at most `n`. -/
def newest (conditions : List TaskQueryCondition) (table : Table) (n : Nat) : List Row :=
  table.select (selects number backend conditions) (fun a b => rowLe backend b a) n

def query (grant : Grant) (now : Int) (conditions : List TaskQueryCondition) (table : Table) :
    Except NodegetError (List Row) :=
  if checkTokenLimit grant now (scopes conditions) (permissions .query conditions) then
    .ok <|
      if isLast conditions then newest number backend conditions table 1
      else match limitCount conditions with
        | some n => newest number backend conditions table n
        | none => table.select (selects number backend conditions) (rowLe backend) defaultResultQueryLimit
  else .error (.permissionDenied "Permission Denied: Insufficient permissions to read requested task types")

/-- The number of rows deleted and the table after it. -/
def delete (grant : Grant) (now : Int) (conditions : List TaskQueryCondition) (table : Table) :
    Except NodegetError (Nat × Table) :=
  if checkTokenLimit grant now (scopes conditions) (permissions .delete conditions) then
    let limit := if isLast conditions then some 1 else limitCount conditions
    let after := table.delete (selects number backend conditions) (fun a b => rowLe backend b a) limit
    .ok (table.rows.length - after.rows.length, after)
  else .error (.permissionDenied "Permission Denied: Insufficient permissions to delete requested task types")

/-- The request returns the row, or removes it. -/
def Touches (op : TaskOp) (grant : Grant) (now : Int) (conditions : List TaskQueryCondition) (table : Table)
    (row : Row) : Prop :=
  match op with
  | .query => ∃ rows, query number backend grant now conditions table = .ok rows ∧ row ∈ rows
  | .delete => ∃ result, delete number backend grant now conditions table = .ok result ∧
      row ∈ table.rows ∧ row ∉ result.2.rows

end Requests

/-- The token covers the task of the row on its agent or everywhere. -/
def Covered (op : TaskOp) (grant : Grant) (row : Row) : Prop :=
  checkLimitsCover grant.tokenLimit (.agentUuid row.uuid) (op.permission row.taskEventType.taskName) = true ∨
    checkLimitsCover grant.tokenLimit .global (op.permission row.taskEventType.taskName) = true

/-! ### Which rows a request reaches -/

/-- The request has room for a row. -/
def HasRoom (conditions : List TaskQueryCondition) : Prop := limitCount conditions = some 0 → isLast conditions = true

section Reach
variable {number : JsonNumber → List Char} {backend : Backend} {grant : Grant} {now : Int}
  {conditions : List TaskQueryCondition} {table : Table} {row : Row}

variable {n : Nat}

theorem mem_newest (h : row ∈ newest number backend conditions table n) :
    selects number backend conditions row = true ∧ n ≠ 0 := by
  refine ⟨(Keyed.mem_select h).2, ?_⟩
  rintro rfl
  exact absurd h List.not_mem_nil

/-- A returned row passes the conditions of a request that was allowed. -/
theorem query_spec {rows : List Row} (h : query number backend grant now conditions table = .ok rows)
    (hrow : row ∈ rows) :
    checkTokenLimit grant now (scopes conditions) (permissions .query conditions) = true ∧
      selects number backend conditions row = true ∧ HasRoom conditions := by
  unfold query at h
  split at h
  · rename_i hallowed
    refine ⟨hallowed, ?_⟩
    obtain rfl := Except.ok.inj h
    by_cases hlast : isLast conditions = true
    · rw [if_pos hlast] at hrow
      exact ⟨(mem_newest hrow).1, fun _ => hlast⟩
    · rw [if_neg hlast] at hrow
      cases hlimit : limitCount conditions with
      | some n =>
        rw [hlimit] at hrow
        obtain ⟨hselects, hn⟩ := mem_newest hrow
        refine ⟨hselects, fun hzero => absurd ?_ hn⟩
        exact Option.some.inj (hlimit.symm.trans hzero)
      | none =>
        rw [hlimit] at hrow
        refine ⟨(Keyed.mem_select hrow).2, fun hzero => ?_⟩
        rw [hlimit] at hzero
        cases hzero
  · cases h

/-- A removed row passes the conditions of a request that was allowed. -/
theorem delete_spec {result : Nat × Table} (h : delete number backend grant now conditions table = .ok result)
    (hrow : row ∈ table.rows) (hgone : row ∉ result.2.rows) :
    checkTokenLimit grant now (scopes conditions) (permissions .delete conditions) = true ∧
      selects number backend conditions row = true ∧ HasRoom conditions := by
  unfold delete at h
  split at h
  · rename_i hallowed
    refine ⟨hallowed, ?_⟩
    obtain rfl := Except.ok.inj h
    refine ⟨Keyed.passes_of_deleted hrow hgone, fun hzero => ?_⟩
    by_contra hlast
    -- a limit of zero reads no id
    simp [hlast, hzero, Keyed.delete, Keyed.select, Keyed.filter, hrow] at hgone
  · cases h

theorem touches_spec {op : TaskOp} (h : Touches number backend op grant now conditions table row) :
    checkTokenLimit grant now (scopes conditions) (permissions op conditions) = true ∧
      selects number backend conditions row = true ∧ HasRoom conditions := by
  cases op with
  | query =>
    obtain ⟨rows, hquery, hrow⟩ := h
    exact query_spec hquery hrow
  | delete =>
    obtain ⟨result, hdelete, hrow, hgone⟩ := h
    exact delete_spec hdelete hrow hgone

/-- The table with the one row. -/
def Table.single (row : Row) : Table := ⟨[row], List.nodup_singleton _⟩

theorem newest_single (hselects : selects number backend conditions row = true) (hn : n ≠ 0) :
    newest number backend conditions (.single row) n = [row] := by
  obtain ⟨m, rfl⟩ := Nat.exists_eq_succ_of_ne_zero hn
  simp [newest, Keyed.select, Table.single, hselects]

/-- Alone in the table, a row that passes is reached by every request that is allowed. -/
theorem touches_single (op : TaskOp)
    (hallowed : checkTokenLimit grant now (scopes conditions) (permissions op conditions) = true)
    (hselects : selects number backend conditions row = true) (hroom : HasRoom conditions) :
    Touches number backend op grant now conditions (.single row) row := by
  have hpos : isLast conditions ≠ true → ∀ n, limitCount conditions = some n → n ≠ 0 := by
    rintro hlast n hn rfl
    exact hlast (hroom hn)
  cases op with
  | query =>
    refine ⟨[row], ?_, List.mem_singleton_self row⟩
    unfold query
    rw [if_pos hallowed]
    by_cases hlast : isLast conditions = true
    · rw [if_pos hlast, newest_single hselects Nat.one_ne_zero]
    · rw [if_neg hlast]
      cases hlimit : limitCount conditions with
      | some n =>
        show Except.ok (newest number backend conditions (.single row) n) = _
        rw [newest_single hselects (hpos hlast n hlimit)]
      | none => simp [Keyed.select, Table.single, hselects, defaultResultQueryLimit]
  | delete =>
    unfold Touches delete
    rw [if_pos hallowed]
    refine ⟨_, rfl, List.mem_singleton_self row, ?_⟩
    cases hlimit : if isLast conditions = true then some 1 else limitCount conditions with
    | none => simp [Keyed.delete, Keyed.filter, Table.single, hselects]
    | some n =>
      have hn : n ≠ 0 := by
        split at hlimit
        next => simp [← Option.some.inj hlimit]
        next hlast => exact hpos hlast n hlimit
      have hread : Keyed.select (Table.single row) _ _ n = [row] := newest_single hselects hn
      simp [Keyed.delete, Keyed.filter, hread]

end Reach

/-! ### What a grant covers -/

/-- A granted name that covers `name` and no task of another name. -/
def ownPattern (name : String) : String := if name.toList.getLast? = some '*' then name ++ "*" else name

theorem wildcard_ownPattern (name : String) : wildcardMatchesPattern name (ownPattern name) = true := by
  unfold wildcardMatchesPattern ownPattern stripSuffix
  split
  · simp
  · exact beq_self_eq_true name

theorem eq_of_wildcard_ownPattern {name task : String} (htask : '*' ∉ task.toList)
    (h : wildcardMatchesPattern task (ownPattern name) = true) : task = name := by
  unfold wildcardMatchesPattern ownPattern stripSuffix at h
  split at h
  · rename_i hstar
    -- the pattern's stem is the name itself, which ends in a star
    have hstem : name.toList <+: task.toList := by simpa using h
    exact absurd (hstem.subset (List.mem_of_getLast? hstar)) htask
  · rename_i hplain
    simpa [hplain] using h

theorem permissionMatches_op (op : TaskOp) (granted required : String) :
    permissionMatches (op.permission granted) (op.permission required) = true ↔
      granted = required ∨ wildcardMatchesPattern required granted = true := by
  cases op <;> simp [permissionMatches, TaskOp.permission]

/-- A token for exactly these names, everywhere and at any time. -/
def exactGrant (op : TaskOp) (names : List String) : Grant where
  timestampFrom := none
  timestampTo := none
  tokenLimit := [{ scopes := [.global], permissions := names.map fun name => op.permission (ownPattern name) }]

theorem exactGrant_covers_iff (op : TaskOp) (names : List String) (scope : Scope) (name : String) :
    checkLimitsCover (exactGrant op names).tokenLimit scope (op.permission name) = true ↔
      ∃ n ∈ names, permissionMatches (op.permission (ownPattern n)) (op.permission name) = true := by
  simp [checkLimitsCover, exactGrant, scopeMatches]

variable {conditions : List TaskQueryCondition} {row : Row} {number : JsonNumber → List Char} {backend : Backend}

theorem exactGrant_allows (op : TaskOp) (htypes : requestedTypes conditions ≠ []) (now : Int) :
    checkTokenLimit (exactGrant op (requestedTypes conditions)) now (scopes conditions)
      (permissions op conditions) = true := by
  have hcovers : ∀ scope, ∀ permission ∈ permissions op conditions,
      checkLimitsCover (exactGrant op (requestedTypes conditions)).tokenLimit scope permission = true := by
    intro scope permission hpermission
    unfold permissions at hpermission
    rw [List.isEmpty_eq_false_iff.mpr htypes] at hpermission
    obtain ⟨name, hname, rfl⟩ := List.mem_map.mp hpermission
    refine (exactGrant_covers_iff op _ scope name).mpr ⟨name, hname, ?_⟩
    exact (permissionMatches_op op _ name).mpr (.inr (wildcard_ownPattern name))
  have hall : ((scopes conditions).all fun scope => (permissions op conditions).all
      (checkLimitsCover (exactGrant op (requestedTypes conditions)).tokenLimit scope)) = true :=
    List.all_eq_true.mpr fun scope _ => List.all_eq_true.mpr (hcovers scope)
  unfold checkTokenLimit
  rw [hall]
  rfl

theorem exactGrant_covers_task {op : TaskOp} {names : List String} (h : Covered op (exactGrant op names) row) :
    row.taskEventType.taskName ∈ names := by
  have hstar := star_notMem_taskName row.taskEventType
  obtain ⟨name, hname, hmatch⟩ : ∃ name ∈ names, permissionMatches (op.permission (ownPattern name))
      (op.permission row.taskEventType.taskName) = true := by
    rcases h with h | h
    · exact (exactGrant_covers_iff op names _ _).mp h
    · exact (exactGrant_covers_iff op names _ _).mp h
  rcases (permissionMatches_op op _ _).mp hmatch with heq | hwild
  · unfold ownPattern at heq
    split at heq
    · exact absurd (heq ▸ by simp) hstar
    · exact heq ▸ hname
  · rw [eq_of_wildcard_ownPattern hstar hwild]
    exact hname

/-! ### Inside the grant -/

/-- If the conditions select the row and leave room for it, its own type is asked for, or none is. -/
def StaysInside (number : JsonNumber → List Char) (backend : Backend) (conditions : List TaskQueryCondition)
    (row : Row) : Prop :=
  selects number backend conditions row = true → HasRoom conditions →
    requestedTypes conditions = [] ∨ row.taskEventType.taskName ∈ requestedTypes conditions

theorem holds_of_mem (h : selects number backend conditions row = true) {condition : TaskQueryCondition}
    (hmem : condition ∈ conditions) : condition.holds number backend row = true :=
  List.all_eq_true.mp h condition hmem

theorem mem_requestedTypes {key : String} : key ∈ requestedTypes conditions ↔ .taskType key ∈ conditions := by
  unfold requestedTypes
  rw [List.mem_filterMap]
  constructor
  · rintro ⟨condition, hmem, hkey⟩
    split at hkey
    · obtain rfl := Option.some.inj hkey
      exact hmem
    · cases hkey
  · intro hmem
    exact ⟨_, hmem, rfl⟩

theorem mem_requestedUuids {uuid : Uuid} (h : uuid ∈ requestedUuids conditions) : .uuid uuid ∈ conditions := by
  unfold requestedUuids at h
  obtain ⟨condition, hmem, huuid⟩ := List.mem_filterMap.mp h
  split at huuid
  · obtain rfl := Option.some.inj huuid
    exact hmem
  · cases huuid

/-- On PostgreSQL every row stays inside. -/
theorem stays_inside_postgres (number : JsonNumber → List Char) (conditions : List TaskQueryCondition) (row : Row) :
    StaysInside number .postgres conditions row := by
  intro hselects _
  rcases List.eq_nil_or_concat (requestedTypes conditions) with hnil | ⟨before, key, hkey⟩
  · exact .inl hnil
  · have hmem : key ∈ requestedTypes conditions := by simp [hkey]
    have hholds : typeHolds number .postgres key row.taskEventType = true :=
      holds_of_mem hselects (mem_requestedTypes.mp hmem)
    rw [typeHolds_postgres] at hholds
    exact .inr (hholds ▸ hmem)

/-- The scope a request was checked on is that of the row's agent, or is everything. -/
theorem scope_of_row (h : selects number backend conditions row = true) :
    .agentUuid row.uuid ∈ scopes conditions ∨ .global ∈ scopes conditions := by
  unfold scopes
  cases huuids : requestedUuids conditions with
  | nil => exact .inr (List.mem_singleton_self _)
  | cons uuid rest =>
    have hmem : uuid ∈ requestedUuids conditions := huuids ▸ List.mem_cons_self
    have hholds : (row.uuid == uuid) = true := holds_of_mem h (mem_requestedUuids hmem)
    refine .inl (List.mem_map.mpr ⟨uuid, List.mem_cons_self, ?_⟩)
    rw [eq_of_beq hholds]

theorem permission_of_row (op : TaskOp)
    (h : requestedTypes conditions = [] ∨ row.taskEventType.taskName ∈ requestedTypes conditions) :
    op.permission row.taskEventType.taskName ∈ permissions op conditions := by
  unfold permissions
  rcases h with hnil | hmem
  · rw [hnil]
    exact List.mem_map_of_mem (taskName_mem row.taskEventType)
  · rw [List.isEmpty_eq_false_iff.mpr (List.ne_nil_of_mem hmem)]
    exact List.mem_map_of_mem hmem

/-- **A row that a request returns or removes is covered by the token, whatever the token
and the table, exactly when it stays inside the types of the request.** -/
theorem rows_covered_iff (number : JsonNumber → List Char) (backend : Backend) (op : TaskOp)
    (conditions : List TaskQueryCondition) (row : Row) :
    (∀ grant now table, Touches number backend op grant now conditions table row → Covered op grant row) ↔
      StaysInside number backend conditions row := by
  constructor
  · intro h hselects hroom
    by_cases htypes : requestedTypes conditions = []
    · exact .inl htypes
    · -- a token for exactly the types of the request
      have hallowed := exactGrant_allows op htypes 0
      exact .inr (exactGrant_covers_task (h _ 0 _ (touches_single op hallowed hselects hroom)))
  · intro h grant now table htouches
    obtain ⟨hallowed, hselects, hroom⟩ := touches_spec htouches
    have hpermission := permission_of_row op (h hselects hroom)
    rcases scope_of_row hselects with hscope | hscope
    · exact .inl (checkTokenLimit_covers hallowed hscope hpermission)
    · exact .inr (checkTokenLimit_covers hallowed hscope hpermission)

section Example

/-- An HTTP request with a header named `ping`. -/
def headerRow : Row where
  id := 1
  uuid := 0
  cronSource := none
  timestamp := none
  success := none
  errorMessage := none
  taskEventType := .httpRequest
    { url := "http://a/", method := "GET", headers := ⟨[("ping", "1")], List.pairwise_singleton _ _⟩, body := none,
      bodyBase64 := none, ip := none }
  taskEventResult := none

/-- On SQLite a token for `ping` alone reads and deletes the HTTP request. -/
theorem http_request_leaked :
    (Touches (fun _ => []) .sqlite .query (exactGrant .query ["ping"]) 0 [.taskType "ping"] (.single headerRow)
        headerRow ∧ ¬Covered .query (exactGrant .query ["ping"]) headerRow) ∧
      Touches (fun _ => []) .sqlite .delete (exactGrant .delete ["ping"]) 0 [.taskType "ping"] (.single headerRow)
        headerRow ∧ ¬Covered .delete (exactGrant .delete ["ping"]) headerRow := by
  have hselects : selects (fun _ => []) .sqlite [.taskType "ping"] headerRow = true := by decide +kernel
  have hroom : HasRoom [.taskType "ping"] := fun h => by cases h
  have hallowed : ∀ op, checkTokenLimit (exactGrant op ["ping"]) 0 (scopes [.taskType "ping"])
      (permissions op [.taskType "ping"]) = true := by
    intro op
    cases op <;> decide
  have hother : headerRow.taskEventType.taskName ∉ ["ping"] := by decide
  have hreached : ∀ op, Touches (fun _ => []) .sqlite op (exactGrant op ["ping"]) 0 [.taskType "ping"]
      (.single headerRow) headerRow ∧ ¬Covered op (exactGrant op ["ping"]) headerRow := fun op =>
    ⟨touches_single op (hallowed op) hselects hroom, fun h => hother (exactGrant_covers_task h)⟩
  exact ⟨hreached .query, hreached .delete⟩

end Example

end NodeGet.Task
