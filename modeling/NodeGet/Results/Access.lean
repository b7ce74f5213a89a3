import NodeGet.Core.Json
import NodeGet.Data.Table
import NodeGet.Task.Access

/-! The results of scheduled jobs and of scripts (`ng-crontab/src/rpc/crontab_result`,
`ng-js-worker/src/js_result`, `ng-js-worker/src/auth.rs`): which rows a token gets to see or to
remove.

Both requests name the rows they want by conditions. When they name jobs or workers, the token
is checked for each of the names. When they do not, the two tables differ: the workers whose
results the token may touch are looked up and become one more condition, but for scheduled jobs
the token is asked for the name `*`. Granted names are patterns, and the pattern `**` matches the
name `*`: it stands for the names that begin with a star. So a token for `**` reaches every row
(`double_star_reaches_backup`), and without it each row is covered by itself; `result_rows_covered`
says exactly when. -/
namespace NodeGet.Results
open NodeGet.Core NodeGet.Data.Table
open NodeGet.Task (timestampLe maxQueryLimit defaultResultQueryLimit)

/-- The two requests, which differ in the permission they need. -/
inductive ResultAction where
  | read
  | delete
deriving DecidableEq

/-- The `Debug` text. -/
def ResultAction.debug : ResultAction → String
  | read => "Read"
  | delete => "Delete"

/-- Newer rows first, by time and then by id. -/
def newerFirst {ρ : Type} (backend : Backend) (time : ρ → Option Int) (id : ρ → Int) (a b : ρ) : Bool :=
  if time a = time b then id b ≤ id a else timestampLe backend (time b) (time a)

/-- What is left of a `u64` that a client sends as a limit. -/
def clampLimit (limit : UInt64) : Nat := min limit.toNat maxQueryLimit

/-! ### Results of scheduled jobs -/

structure CrontabResult where
  id : Int
  cronId : Int
  cronName : String
  relativeId : Option Int
  runTime : Option Int
  success : Option Bool
  message : Option String
deriving DecidableEq

inductive CrontabResultQueryCondition where
  | id (id : Int)
  | cronId (cronId : Int)
  | cronName (name : String)
  | runTimeFromTo (start finish : Int)
  | runTimeFrom (start : Int)
  | runTimeTo (finish : Int)
  | isSuccess
  | isFailure
  | limit (limit : UInt64)
  | last
deriving DecidableEq

namespace CrontabResultQueryCondition

/-- A comparison with `NULL` does not hold. -/
def holds (row : CrontabResult) : CrontabResultQueryCondition → Bool
  | id n => row.id == n
  | cronId n => row.cronId == n
  | cronName name => row.cronName == name
  | runTimeFromTo start finish => row.runTime.any fun t => start ≤ t && t ≤ finish
  | runTimeFrom start => row.runTime.any (start ≤ ·)
  | runTimeTo finish => row.runTime.any (· ≤ finish)
  | isSuccess => row.success == some true
  | isFailure => row.success == some false
  | limit _ | last => true

def cronName? : CrontabResultQueryCondition → Option String
  | cronName name => some name
  | _ => none

def limit? : CrontabResultQueryCondition → Option Nat
  | limit n => some (clampLimit n)
  | _ => none

end CrontabResultQueryCondition

namespace Crontab

def permission (action : ResultAction) (name : String) : Permission :=
  match action with
  | .read => .crontabResult (.read name)
  | .delete => .crontabResult (.delete name)

abbrev Table := Keyed CrontabResult.id

section Requests
variable (backend : Backend) (grant : Grant) (now : Int)

/-- The permission for all names, or else for the name at hand. -/
def checkPermission (action : ResultAction) (verb : String) (name : Option String) : Except NodegetError Unit :=
  if checkTokenLimit grant now [.global] [permission action "*"] then .ok ()
  else if name.any fun name => checkTokenLimit grant now [.global] [permission action name] then .ok ()
  else .error (.permissionDenied
    ("No " ++ verb ++ " permission for crontab_result with cron_name '" ++ name.getD "*" ++ "'"))

def checkCrontabResultReadPermission (cronName : String) : Except NodegetError Unit :=
  checkPermission grant now .read "read" (some cronName)

def checkCrontabResultDeletePermission (cronName : Option String) : Except NodegetError Unit :=
  checkPermission grant now .delete "delete" cronName

variable (conditions : List CrontabResultQueryCondition)

def cronNames : List String := conditions.filterMap (·.cronName?)

def selects (row : CrontabResult) : Bool := conditions.all (·.holds row)

def isLast : Bool := conditions.contains .last

/-- The last `Limit` counts. -/
def limitCount : Option Nat := (conditions.filterMap (·.limit?)).getLast?

/-- Each name needs the permission; without one, the name `*` does. The order of the names decides
only which refusal is reported. -/
def checkRead : Except NodegetError Unit :=
  if (cronNames conditions).isEmpty then checkCrontabResultReadPermission grant now "*"
  else (cronNames conditions).forM (checkCrontabResultReadPermission grant now)

def checkDelete : Except NodegetError Unit :=
  if (cronNames conditions).isEmpty then checkCrontabResultDeletePermission grant now none
  else (cronNames conditions).forM fun name => checkCrontabResultDeletePermission grant now (some name)

/-- Rows of the same time come in any order. -/
def query (table : Table) : Except NodegetError (List CrontabResult) := do
  checkRead grant now conditions
  let limit := if isLast conditions then 1 else (limitCount conditions).getD 1000
  return table.select (selects conditions) (fun a b => timestampLe backend b.runTime a.runTime) limit

/-- The number of deleted rows, and the table after it. -/
def delete (table : Table) : Except NodegetError (Nat × Table) := do
  checkDelete grant now conditions
  let limit := if isLast conditions then some 1 else limitCount conditions
  let after := table.delete (selects conditions) (newerFirst backend CrontabResult.runTime CrontabResult.id) limit
  return (table.rows.length - after.rows.length, after)

/-- The request returns the row, or removes it. -/
def Touches (action : ResultAction) (table : Table) (row : CrontabResult) : Prop :=
  match action with
  | .read => ∃ rows, query backend grant now conditions table = .ok rows ∧ row ∈ rows
  | .delete => ∃ result, delete backend grant now conditions table = .ok result ∧
      row ∈ table.rows ∧ row ∉ result.2.rows

end Requests

end Crontab

/-! ### Results of scripts -/

structure JsResult where
  id : Int
  jsWorkerId : Int
  jsWorkerName : String
  runType : String
  startTime : Option Int
  finishTime : Option Int
  param : Option Json
  result : Option Json
  errorMessage : Option String

inductive JsResultQueryCondition where
  | id (id : Int)
  | jsWorkerId (id : Int)
  | jsWorkerName (name : String)
  | runType (runType : String)
  | startTimeFromTo (start finish : Int)
  | startTimeFrom (start : Int)
  | startTimeTo (finish : Int)
  | finishTimeFromTo (start finish : Int)
  | finishTimeFrom (start : Int)
  | finishTimeTo (finish : Int)
  | isSuccess
  | isFailure
  | isRunning
  | limit (limit : UInt64)
  | last
deriving DecidableEq

namespace JsResultQueryCondition

def holds (row : JsResult) : JsResultQueryCondition → Bool
  | id n => row.id == n
  | jsWorkerId n => row.jsWorkerId == n
  | jsWorkerName name => row.jsWorkerName == name
  | runType type => row.runType == type
  | startTimeFromTo start finish => row.startTime.any fun t => start ≤ t && t ≤ finish
  | startTimeFrom start => row.startTime.any (start ≤ ·)
  | startTimeTo finish => row.startTime.any (· ≤ finish)
  | finishTimeFromTo start finish => row.finishTime.any fun t => start ≤ t && t ≤ finish
  | finishTimeFrom start => row.finishTime.any (start ≤ ·)
  | finishTimeTo finish => row.finishTime.any (· ≤ finish)
  | isSuccess => row.result.isSome && row.errorMessage.isNone
  | isFailure => row.errorMessage.isSome
  | isRunning => row.result.isNone && row.errorMessage.isNone
  | limit _ | last => true

def jsWorkerName? : JsResultQueryCondition → Option String
  | jsWorkerName name => some name
  | _ => none

def limit? : JsResultQueryCondition → Option Nat
  | limit n => some (clampLimit n)
  | _ => none

end JsResultQueryCondition

namespace Js

/-- `build_required_permission` -/
def permission (action : ResultAction) (name : String) : Permission :=
  match action with
  | .read => .jsResult (.read name)
  | .delete => .jsResult (.delete name)

abbrev Table := Keyed JsResult.id

section Requests
variable (backend : Backend) (grant : Grant) (now : Int)

def ensureJsResultPermission (action : ResultAction) (workerName : String) : Except NodegetError Unit :=
  if checkTokenLimit grant now [.jsWorker workerName] [permission action workerName] then .ok ()
  else .error (.permissionDenied
    ("Permission denied for js_result on worker '" ++ workerName ++ "', action: " ++ action.debug))

def tokenTimeValid : Bool := !grant.timestampFrom.any (now < ·) && !grant.timestampTo.any (· < now)

/-- The workers with results that the token may touch. -/
def resolveAccessibleJsResultWorkers (action : ResultAction) (table : Table) : List String :=
  if tokenTimeValid grant now then
    (table.rows.map (·.jsWorkerName)).dedup.filter fun name =>
      checkLimitsCover grant.tokenLimit (.jsWorker name) (permission action name)
  else []

variable (conditions : List JsResultQueryCondition)

def requestedWorkerNames : List String :=
  ((conditions.filterMap (·.jsWorkerName?)).mergeSort fun a b => a ≤ b).dedup

def isLast : Bool := conditions.contains .last

def limitCount : Option Nat := (conditions.filterMap (·.limit?)).getLast?

/-- Which workers a request may touch: all that it names, which are then its conditions, or those
of the token. -/
def allowedWorkers (action : ResultAction) (table : Table) : Except NodegetError (Option (List String)) :=
  if (requestedWorkerNames conditions).isEmpty then
    .ok (some (resolveAccessibleJsResultWorkers grant now action table))
  else do
    (requestedWorkerNames conditions).forM (ensureJsResultPermission grant now action)
    return none

def selects (allowed : Option (List String)) (row : JsResult) : Bool :=
  allowed.all (·.contains row.jsWorkerName) && conditions.all (·.holds row)

/-- Without a worker that the token may touch there is nothing to ask the table for. -/
def query (table : Table) : Except NodegetError (List JsResult) := do
  let allowed ← allowedWorkers grant now conditions .read table
  if allowed = some [] then return []
  else
    let limit := if isLast conditions then 1 else (limitCount conditions).getD defaultResultQueryLimit
    return table.select (selects conditions allowed) (newerFirst backend JsResult.startTime JsResult.id) limit

def delete (table : Table) : Except NodegetError (Nat × Table) := do
  let allowed ← allowedWorkers grant now conditions .delete table
  if allowed = some [] then return (0, table)
  else
    let limit := if isLast conditions then some 1 else limitCount conditions
    let after := table.delete (selects conditions allowed) (newerFirst backend JsResult.startTime JsResult.id) limit
    return (table.rows.length - after.rows.length, after)

/-- The request returns the row, or removes it. -/
def Touches (action : ResultAction) (table : Table) (row : JsResult) : Prop :=
  match action with
  | .read => ∃ rows, query backend grant now conditions table = .ok rows ∧ row ∈ rows
  | .delete => ∃ result, delete backend grant now conditions table = .ok result ∧
      row ∈ table.rows ∧ row ∉ result.2.rows

end Requests

end Js

/-! ### What a grant covers -/

/-- One of the limits has the global scope and the very permission. -/
def Granted (limits : List Limit) (granted : Permission) : Prop :=
  ∃ limit ∈ limits, .global ∈ limit.scopes ∧ granted ∈ limit.permissions

instance (limits : List Limit) (granted : Permission) : Decidable (Granted limits granted) :=
  inferInstanceAs (Decidable (∃ limit ∈ limits, _ ∧ _))

theorem scopeMatches_global {scope : Scope} : scopeMatches scope .global = true ↔ scope = .global := by
  cases scope <;> simp [scopeMatches]

theorem covers_global_iff {limits : List Limit} {required : Permission} :
    checkLimitsCover limits .global required = true ↔
      ∃ granted, Granted limits granted ∧ permissionMatches granted required = true := by
  simp only [checkLimitsCover, List.any_eq_true, Bool.and_eq_true, scopeMatches_global, exists_eq_right]
  constructor
  · intro h
    obtain ⟨limit, hlimit, hscope, granted, hgranted, hmatches⟩ := h
    exact ⟨granted, ⟨limit, hlimit, hscope, hgranted⟩, hmatches⟩
  · intro h
    obtain ⟨granted, ⟨limit, hlimit, hscope, hgranted⟩, hmatches⟩ := h
    exact ⟨limit, hlimit, hscope, granted, hgranted, hmatches⟩

theorem permissionMatches_crontab {action : ResultAction} {granted : Permission} {name : String} :
    permissionMatches granted (Crontab.permission action name) = true ↔
      ∃ pattern, granted = Crontab.permission action pattern ∧ wildcardMatchesPattern name pattern = true := by
  constructor
  · intro h
    rcases Bool.or_eq_true_iff.mp h with heq | hmatch
    · exact ⟨name, by simpa using heq, wildcardMatchesPattern_self name⟩
    · cases action with
      | read => split at hmatch <;> simp_all [Crontab.permission]
      | delete => split at hmatch <;> simp_all [Crontab.permission]
  · intro h
    obtain ⟨pattern, rfl, hmatch⟩ := h
    cases action with
    | read => exact Bool.or_eq_true_iff.mpr (.inr hmatch)
    | delete => exact Bool.or_eq_true_iff.mpr (.inr hmatch)

theorem checkTokenLimit_global {grant : Grant} {now : Int} {required : Permission} :
    checkTokenLimit grant now [.global] [required] = true ↔
      Js.tokenTimeValid grant now = true ∧ checkLimitsCover grant.tokenLimit .global required = true := by
  simp [checkTokenLimit, Js.tokenTimeValid]

/-- Who is granted `*` or nothing like it, and may touch the name `*`, may touch every name. -/
theorem covers_every_name {limits : List Limit} {action : ResultAction}
    (hstar : Granted limits (Crontab.permission action "**") → Granted limits (Crontab.permission action "*"))
    (h : checkLimitsCover limits .global (Crontab.permission action "*") = true) (name : String) :
    checkLimitsCover limits .global (Crontab.permission action name) = true := by
  have hsingle : "*".toList = [] ++ ['*'] := rfl
  have hall : Granted limits (Crontab.permission action "*") →
      checkLimitsCover limits .global (Crontab.permission action name) = true := by
    intro hgranted
    refine covers_global_iff.mpr ⟨_, hgranted, permissionMatches_crontab.mpr ⟨"*", rfl, ?_⟩⟩
    exact (wildcardMatchesPattern_of_stem hsingle).mpr List.nil_prefix
  obtain ⟨granted, hgranted, hmatches⟩ := covers_global_iff.mp h
  obtain ⟨pattern, rfl, hpattern⟩ := permissionMatches_crontab.mp hmatches
  by_cases hdouble : pattern = "**"
  · exact hall (hstar (hdouble ▸ hgranted))
  · refine covers_global_iff.mpr ⟨_, hgranted, permissionMatches_crontab.mpr ⟨pattern, rfl, ?_⟩⟩
    exact wildcardMatchesPattern_of_matches_pattern hsingle hpattern hdouble List.nil_prefix

/-! ### Scheduled jobs -/

section Crontab
open NodeGet.Results.Crontab
variable {backend : Backend} {grant : Grant} {now : Int} {action : ResultAction}
  {conditions : List CrontabResultQueryCondition} {table : Crontab.Table} {row : CrontabResult}

theorem Crontab.checkPermission_ok {verb : String} {name : Option String}
    (h : checkPermission grant now action verb name = .ok ()) :
    checkTokenLimit grant now [.global] [permission action "*"] = true ∨
      ∃ n, name = some n ∧ checkTokenLimit grant now [.global] [permission action n] = true := by
  unfold checkPermission at h
  split at h
  next hall => exact .inl hall
  next =>
    split at h
    next hname =>
      cases name with
      | none => cases hname
      | some n => exact .inr ⟨n, rfl, hname⟩
    next => cases h

theorem Crontab.cronName_eq (hselects : selects conditions row = true) {name : String}
    (hname : name ∈ cronNames conditions) : row.cronName = name := by
  obtain ⟨condition, hcondition, hsome⟩ := List.mem_filterMap.mp hname
  have hholds := List.all_eq_true.mp hselects condition hcondition
  cases condition with
  | cronName n =>
    cases hsome
    exact eq_of_beq hholds
  | id n | cronId n | runTimeFromTo start finish | runTimeFrom start | runTimeTo finish | isSuccess | isFailure
  | limit n | last => cases hsome

/-- A row that passes has the name that was checked. -/
theorem Crontab.named_covers {verb : String} (hselects : selects conditions row = true)
    (hnames : (cronNames conditions).isEmpty = false)
    (hchecks : ((cronNames conditions).forM fun name => checkPermission grant now action verb (some name)) = .ok ()) :
    checkTokenLimit grant now [.global] [permission action "*"] = true ∨
      checkTokenLimit grant now [.global] [permission action row.cronName] = true := by
  obtain ⟨name, hname⟩ := List.exists_mem_of_ne_nil _ (List.isEmpty_eq_false_iff.mp hnames)
  rcases checkPermission_ok (forM_ok hchecks hname) with hall | ⟨n, hn, hcovers⟩
  · exact .inl hall
  · cases hn
    exact .inr (cronName_eq hselects hname ▸ hcovers)

/-- What was checked for a row that the request touches: the name `*`, or its own. -/
theorem Crontab.touches_covers (h : Touches backend grant now conditions action table row) :
    checkTokenLimit grant now [.global] [permission action "*"] = true ∨
      checkTokenLimit grant now [.global] [permission action row.cronName] = true := by
  cases action with
  | read =>
    obtain ⟨rows, hquery, hrow⟩ := h
    obtain ⟨hcheck, hrows⟩ := check_ok_iff.mp hquery
    cases hrows
    obtain ⟨-, hselects⟩ := Keyed.mem_select hrow
    unfold checkRead at hcheck
    split at hcheck
    next =>
      rcases checkPermission_ok hcheck with hall | ⟨n, hn, hcovers⟩
      · exact .inl hall
      · cases hn
        exact .inl hcovers
    next hnames => exact named_covers hselects (Bool.eq_false_of_not_eq_true hnames) hcheck
  | delete =>
    obtain ⟨result, hdelete, hrow, hgone⟩ := h
    obtain ⟨hcheck, hresult⟩ := check_ok_iff.mp hdelete
    cases hresult
    have hselects := Keyed.passes_of_deleted hrow hgone
    unfold checkDelete at hcheck
    split at hcheck
    next =>
      rcases checkPermission_ok hcheck with hall | ⟨n, hn, -⟩
      · exact .inl hall
      · cases hn
    next hnames => exact named_covers hselects (Bool.eq_false_of_not_eq_true hnames) hcheck

/-- A table of one row. -/
def Crontab.only (row : CrontabResult) : Crontab.Table := ⟨[row], List.nodup_singleton _⟩

/-- A result of the job of that name. -/
def rowNamed (name : String) : CrontabResult where
  id := 1
  cronId := 1
  cronName := name
  relativeId := none
  runTime := some 0
  success := some true
  message := none

/-- Without a condition, who may touch the name `*` touches any row. -/
theorem Crontab.touches_only (h : checkTokenLimit grant now [.global] [permission action "*"] = true)
    (row : CrontabResult) : Touches backend grant now [] action (only row) row := by
  have hcheck (verb : String) (name : Option String) : checkPermission grant now action verb name = .ok () := if_pos h
  cases action with
  | read =>
    have hread : checkRead grant now [] = .ok () := hcheck _ _
    have hselect : (only row).select (selects []) (fun a b => timestampLe backend b.runTime a.runTime) 1000 = [row] := by
      rw [Keyed.select, show (only row).rows.filter (selects []) = [row] from rfl, List.mergeSort_singleton]
      rfl
    refine ⟨[row], ?_, List.mem_singleton_self _⟩
    rw [query, hread]
    exact congrArg Except.ok hselect
  | delete =>
    have hdelete : checkDelete grant now [] = .ok () := hcheck _ _
    refine ⟨(1, ⟨[], List.nodup_nil⟩), ?_, List.mem_singleton_self _, List.not_mem_nil⟩
    rw [delete, hdelete]
    rfl

end Crontab

/-! ### Scripts -/

section Js
open NodeGet.Results.Js
variable {backend : Backend} {grant : Grant} {now : Int} {action : ResultAction}
  {conditions : List JsResultQueryCondition} {table : Js.Table} {row : JsResult}

theorem Js.jsWorkerName_eq (hholds : conditions.all (·.holds row) = true) {name : String}
    (hname : name ∈ requestedWorkerNames conditions) : row.jsWorkerName = name := by
  obtain ⟨condition, hcondition, hsome⟩ :=
    List.mem_filterMap.mp (List.mem_mergeSort.mp (List.mem_dedup.mp hname))
  have hholds := List.all_eq_true.mp hholds condition hcondition
  cases condition with
  | jsWorkerName n =>
    cases hsome
    exact eq_of_beq hholds
  | id n | jsWorkerId n | runType type | startTimeFromTo start finish | startTimeFrom start | startTimeTo finish
  | finishTimeFromTo start finish | finishTimeFrom start | finishTimeTo finish | isSuccess | isFailure | isRunning
  | limit n | last => cases hsome

/-- A row that passes has a name that was checked, or one of those the token may touch. -/
theorem Js.selected_covers {allowed : Option (List String)}
    (hallowed : allowedWorkers grant now conditions action table = .ok allowed)
    (hselects : selects conditions allowed row = true) :
    checkLimitsCover grant.tokenLimit (.jsWorker row.jsWorkerName) (permission action row.jsWorkerName) = true := by
  obtain ⟨hname, hholds⟩ := Bool.and_eq_true_iff.mp hselects
  unfold allowedWorkers at hallowed
  split at hallowed
  next =>
    cases hallowed
    have hmem : row.jsWorkerName ∈ resolveAccessibleJsResultWorkers grant now action table := by simpa using hname
    unfold resolveAccessibleJsResultWorkers at hmem
    split at hmem
    next => exact (List.mem_filter.mp hmem).2
    next => cases hmem
  next hnames =>
    obtain ⟨hchecks, -⟩ := check_ok_iff.mp hallowed
    obtain ⟨name, hrequested⟩ := List.exists_mem_of_ne_nil (requestedWorkerNames conditions) (by simpa using hnames)
    have hcheck := forM_ok hchecks hrequested
    unfold ensureJsResultPermission at hcheck
    split at hcheck
    next hcovers =>
      rw [jsWorkerName_eq hholds hrequested]
      exact checkTokenLimit_covers hcovers List.mem_cons_self List.mem_cons_self
    next => cases hcheck

theorem Js.touches_covers (h : Touches backend grant now conditions action table row) :
    checkLimitsCover grant.tokenLimit (.jsWorker row.jsWorkerName) (permission action row.jsWorkerName) = true := by
  cases action with
  | read =>
    obtain ⟨rows, hquery, hrow⟩ := h
    obtain ⟨allowed, hallowed, hrows⟩ := ok_of_bind hquery
    split at hrows
    next =>
      cases hrows
      cases hrow
    next =>
      cases hrows
      exact selected_covers hallowed (Keyed.mem_select hrow).2
  | delete =>
    obtain ⟨result, hdelete, hrow, hgone⟩ := h
    obtain ⟨allowed, hallowed, hresult⟩ := ok_of_bind hdelete
    split at hresult
    next =>
      cases hresult
      exact absurd hrow hgone
    next =>
      cases hresult
      exact selected_covers hallowed (Keyed.passes_of_deleted hrow hgone)

end Js

/-- **Result rows are individually permitted.** Each result of a scheduled job that a request
returns or removes is covered by its own name, whatever is in the table and whatever the request
asks for, exactly if the token is not in force, is not granted the name `**` globally, is granted
`*` as well, or covers every name. Each result of a script is covered on its own worker by the
name of that worker, for every token. -/
theorem result_rows_covered (backend : Backend) (grant : Grant) (now : Int) (action : ResultAction) :
    ((∀ conditions table row, Crontab.Touches backend grant now conditions action table row →
        checkLimitsCover grant.tokenLimit .global (Crontab.permission action row.cronName) = true) ↔
      (Js.tokenTimeValid grant now = true → Granted grant.tokenLimit (Crontab.permission action "**") →
        Granted grant.tokenLimit (Crontab.permission action "*") ∨
          ∀ name, checkLimitsCover grant.tokenLimit .global (Crontab.permission action name) = true)) ∧
    ∀ conditions table row, Js.Touches backend grant now conditions action table row →
      checkLimitsCover grant.tokenLimit (.jsWorker row.jsWorkerName) (Js.permission action row.jsWorkerName) = true := by
  refine ⟨⟨fun hrows hvalid hdouble => .inr fun name => ?_, fun hstar conditions table row htouches => ?_⟩,
    fun conditions table row htouches => Js.touches_covers htouches⟩
  · -- Some table has a row of that name, and `**` reaches it.
    have hall : checkLimitsCover grant.tokenLimit .global (Crontab.permission action "*") = true :=
      covers_global_iff.mpr ⟨_, hdouble, permissionMatches_crontab.mpr ⟨"**", rfl, by decide +kernel⟩⟩
    exact hrows [] _ _ (Crontab.touches_only (checkTokenLimit_global.mpr ⟨hvalid, hall⟩) (rowNamed name))
  · rcases Crontab.touches_covers htouches with hall | hown
    · obtain ⟨hvalid, hcovers⟩ := checkTokenLimit_global.mp hall
      by_cases hevery : ∀ name, checkLimitsCover grant.tokenLimit .global (Crontab.permission action name) = true
      · exact hevery row.cronName
      · exact covers_every_name (fun hdouble => (hstar hvalid hdouble).resolve_right hevery) hcovers row.cronName
    · exact (checkTokenLimit_global.mp hown).2

/-- A token for the names of one pattern, globally and at any time. -/
private def patternGrant (pattern : String) : Grant where
  timestampFrom := none
  timestampTo := none
  tokenLimit := [{
    scopes := [.global]
    permissions := [Crontab.permission .read pattern, Crontab.permission .delete pattern] }]

/-- A token for `**`, which stands for the names that begin with a star, reads and deletes the
result of `backup`. -/
theorem double_star_reaches_backup :
    (Crontab.Touches .sqlite (patternGrant "**") 0 [] .read (Crontab.only (rowNamed "backup")) (rowNamed "backup") ∧
      checkLimitsCover (patternGrant "**").tokenLimit .global (Crontab.permission .read "backup") = false) ∧
    Crontab.Touches .sqlite (patternGrant "**") 0 [] .delete (Crontab.only (rowNamed "backup")) (rowNamed "backup") ∧
      checkLimitsCover (patternGrant "**").tokenLimit .global (Crontab.permission .delete "backup") = false :=
  ⟨⟨Crontab.touches_only (by decide +kernel) _, by decide +kernel⟩,
    Crontab.touches_only (by decide +kernel) _, by decide +kernel⟩

end NodeGet.Results
