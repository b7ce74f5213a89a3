import NodeGet.Core.Text
import NodeGet.Core.Uuid

/-! The permission model: scopes, permissions and limits
(`ng-core/src/permission/data_structure.rs`) and how a token's limits cover a
request (`ng-token/src/get.rs`).

A limit grants every one of its permissions on every one of its scopes; a list of
limits covers a request when one limit covers both its scope and its permission.
A granted name may end in `*` and then stands for every name it begins. -/
namespace NodeGet.Core

inductive Scope where
  | global
  | agentUuid (uuid : Uuid)
  | kvNamespace (name : String)
  | jsWorker (name : String)
  | staticBucket (name : String)
  | db (name : String)
deriving DecidableEq, Repr

inductive StaticDataQueryField where
  | cpu | system | gpu
deriving DecidableEq, Repr

inductive DynamicDataQueryField where
  | cpu | ram | load | system | disk | network | gpu
deriving DecidableEq, Repr

namespace DynamicDataQueryField

def all : List DynamicDataQueryField := [.cpu, .ram, .load, .system, .disk, .network, .gpu]

def columnName : DynamicDataQueryField → String
  | .cpu => "cpu_data"
  | .ram => "ram_data"
  | .load => "load_data"
  | .system => "system_data"
  | .disk => "disk_data"
  | .network => "network_data"
  | .gpu => "gpu_data"

def jsonKey : DynamicDataQueryField → String
  | .cpu => "cpu"
  | .ram => "ram"
  | .load => "load"
  | .system => "system"
  | .disk => "disk"
  | .network => "network"
  | .gpu => "gpu"

end DynamicDataQueryField

/-! ### The operations of each module -/

inductive NodeGetPermission where
  | listAllAgentUuid | getRtPool | deleteAgentUuid | execSql | getDatabaseType
deriving DecidableEq, Repr

inductive MonitoringUuidPermission where
  | list | delete
deriving DecidableEq, Repr

inductive StaticMonitoringPermission where
  | read (field : StaticDataQueryField) | write | delete
deriving DecidableEq, Repr

inductive DynamicMonitoringPermission where
  | read (field : DynamicDataQueryField) | write | delete
deriving DecidableEq, Repr

inductive DynamicMonitoringSummaryPermission where
  | read | write | delete
deriving DecidableEq, Repr

inductive TaskPermission where
  | create (name : String) | read (name : String) | write (name : String) | delete (name : String)
  | listen
deriving DecidableEq, Repr

inductive CrontabPermission where
  | read | write | delete
deriving DecidableEq, Repr

inductive CrontabResultPermission where
  | read (name : String) | delete (name : String)
deriving DecidableEq, Repr

inductive KvPermission where
  | listAllNamespace | listAllKeys
  | read (key : String) | write (key : String) | delete (key : String)
deriving DecidableEq, Repr

inductive TerminalPermission where
  | connect
deriving DecidableEq, Repr

inductive JsWorkerPermission where
  | listAllJsWorker | create | read | write | delete | runDefinedJsWorker | runRawJsWorker
deriving DecidableEq, Repr

inductive JsResultPermission where
  | read (name : String) | delete (name : String)
deriving DecidableEq, Repr

inductive StaticBucketPermission where
  | read | write | delete
deriving DecidableEq, Repr

inductive StaticBucketFilePermission where
  | read | write | delete | list
deriving DecidableEq, Repr

inductive DbPermission where
  | list | read | create | update | delete | execSql
deriving DecidableEq, Repr

inductive Permission where
  | staticMonitoring (op : StaticMonitoringPermission)
  | dynamicMonitoring (op : DynamicMonitoringPermission)
  | task (op : TaskPermission)
  | crontab (op : CrontabPermission)
  | crontabResult (op : CrontabResultPermission)
  | kv (op : KvPermission)
  | terminal (op : TerminalPermission)
  | nodeGet (op : NodeGetPermission)
  | monitoringUuid (op : MonitoringUuidPermission)
  | jsWorker (op : JsWorkerPermission)
  | jsResult (op : JsResultPermission)
  | dynamicMonitoringSummary (op : DynamicMonitoringSummaryPermission)
  | staticBucket (op : StaticBucketPermission)
  | staticBucketFile (op : StaticBucketFilePermission)
  | db (op : DbPermission)
deriving DecidableEq, Repr

structure Limit where
  scopes : List Scope
  permissions : List Permission
deriving DecidableEq, Repr

/-! ### Matching -/

def wildcardMatchesPattern (value pattern : String) : Bool :=
  (stripSuffix pattern '*').elim (value == pattern) fun stem => stem.isPrefixOf value.toList

theorem wildcardMatchesPattern_of_stem {value pattern : String} {stem : List Char}
    (hstem : pattern.toList = stem ++ ['*']) :
    wildcardMatchesPattern value pattern = true ↔ stem <+: value.toList := by
  rw [wildcardMatchesPattern, stripSuffix_eq_some_iff.mpr hstem, Option.elim_some, List.isPrefixOf_iff_prefix]

theorem wildcardMatchesPattern_self (s : String) : wildcardMatchesPattern s s = true := by
  rw [wildcardMatchesPattern]
  cases h : stripSuffix s '*' with
  | none => simp
  | some stem =>
    rw [Option.elim_some, List.isPrefixOf_iff_prefix, stripSuffix_eq_some_iff.mp h]
    exact List.prefix_append ..

/-- What matches the text `stem*`, other than the same with one more star, matches every value
that begins with the stem. -/
theorem wildcardMatchesPattern_of_matches_pattern {value pattern granted : String} {stem : List Char}
    (hstem : pattern.toList = stem ++ ['*']) (hmatch : wildcardMatchesPattern pattern granted = true)
    (hother : granted ≠ pattern ++ "*") (hvalue : stem <+: value.toList) :
    wildcardMatchesPattern value granted = true := by
  cases hstrip : stripSuffix granted '*' with
  | none =>
    have hgranted : pattern = granted := by simpa [wildcardMatchesPattern, hstrip] using hmatch
    rw [← hgranted, stripSuffix_eq_some_iff.mpr hstem] at hstrip
    cases hstrip
  | some stem' =>
    have hgranted := stripSuffix_eq_some_iff.mp hstrip
    rw [wildcardMatchesPattern_of_stem hgranted, hstem, List.prefix_concat_iff] at hmatch
    rw [wildcardMatchesPattern_of_stem hgranted]
    rcases hmatch with hsame | hshorter
    · refine absurd ?_ hother
      rw [← String.ofList_toList (s := granted), hgranted, hsame, ← hstem, String.ofList_append, String.ofList_toList]
    · exact hshorter.trans hvalue

def permissionMatches (granted required : Permission) : Bool :=
  granted == required ||
    match granted, required with
    | .kv (.read pattern), .kv (.read key)
    | .kv (.write pattern), .kv (.write key)
    | .kv (.delete pattern), .kv (.delete key) => wildcardMatchesPattern key pattern
    | .crontabResult (.read pattern), .crontabResult (.read cronName)
    | .crontabResult (.delete pattern), .crontabResult (.delete cronName) =>
      wildcardMatchesPattern cronName pattern
    | .jsResult (.read pattern), .jsResult (.read workerName)
    | .jsResult (.delete pattern), .jsResult (.delete workerName) =>
      wildcardMatchesPattern workerName pattern
    | .task (.create pattern), .task (.create taskName)
    | .task (.read pattern), .task (.read taskName)
    | .task (.write pattern), .task (.write taskName)
    | .task (.delete pattern), .task (.delete taskName) => wildcardMatchesPattern taskName pattern
    | _, _ => false

def scopeMatches (limitScope reqScope : Scope) : Bool :=
  match limitScope, reqScope with
  | .global, _ => true
  | .agentUuid limitId, .agentUuid reqId => limitId == reqId
  | .kvNamespace limitNs, .kvNamespace reqNs => limitNs == reqNs
  | .jsWorker limitName, .jsWorker reqName => wildcardMatchesPattern reqName limitName
  | .staticBucket limitName, .staticBucket reqName => wildcardMatchesPattern reqName limitName
  | .db limitName, .db reqName => wildcardMatchesPattern reqName limitName
  | _, _ => false

def checkLimitsCover (limits : List Limit) (reqScope : Scope) (reqPerm : Permission) : Bool :=
  limits.any fun limit =>
    limit.scopes.any (scopeMatches · reqScope) && limit.permissions.any (permissionMatches · reqPerm)

/-- What a token that is not the super token grants, and from when to when. -/
structure Grant where
  timestampFrom : Option Int
  timestampTo : Option Int
  tokenLimit : List Limit

/-- `check_token_limit` for such a token: it is in force, and its limits cover every
permission on every scope. -/
def checkTokenLimit (grant : Grant) (now : Int) (scopes : List Scope) (permissions : List Permission) : Bool :=
  !grant.timestampFrom.any (now < ·) && !grant.timestampTo.any (· < now) &&
    scopes.all fun scope => permissions.all (checkLimitsCover grant.tokenLimit scope)

theorem checkTokenLimit_covers {grant : Grant} {now : Int} {scopes : List Scope} {permissions : List Permission}
    (h : checkTokenLimit grant now scopes permissions = true) {scope : Scope} (hscope : scope ∈ scopes)
    {permission : Permission} (hpermission : permission ∈ permissions) :
    checkLimitsCover grant.tokenLimit scope permission = true := by
  have hall := (Bool.and_eq_true_iff.mp h).2
  exact List.all_eq_true.mp (List.all_eq_true.mp hall scope hscope) permission hpermission

end NodeGet.Core
