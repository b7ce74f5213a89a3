import Mathlib.Data.Finset.Insert
import Mathlib.Data.Fintype.Defs
import Mathlib.Logic.Function.Basic
import NodeGet.Core.Backend
import NodeGet.Core.Signed
import NodeGet.Core.Unsigned
import NodeGet.Machine.Program

/-! The set-up of TimescaleDB when the server starts (`ng-db/src/timescale.rs`, and the
configuration in `ng-core/src/config.rs`).

Any statement may fail, and a failure only makes the set-up do less: it skips the rest, or the
table at hand. A retention policy is a background job of the database that drops chunks, so
with `retention_days = 0` the policies that are there have to be removed on every way out. Which
statements fail is a parameter (`fails`); a statement is executed at most once in a set-up.

`retention_off_iff` says when the policies are gone: a table with a policy keeps it when the
probe for the extension fails, when the current schema is not found, or when one of the
statements fails by which the table is looked at before its policies are. -/
namespace NodeGet.Db.Timescale
open NodeGet.Core NodeGet.Machine Function
open NodeGet.Machine.Program (Keeps Ensures)

/-! ### Configuration -/

structure TimescaleConfig where
  enabled : Option Bool := none
  chunkIntervalHours : Option UInt64 := none
  compressAfterHours : Option UInt64 := none
  chunkIntervalDays : Option UInt64 := none
  compressAfterDays : Option UInt64 := none
  retentionDays : UInt64 := 0

def defaultChunkIntervalHours : UInt64 := 6

def defaultCompressAfterHours : UInt64 := 12

def hoursPerDay : UInt64 := 24

def maxRetentionDays : UInt64 := 9223372036854775807 / (hoursPerDay * 3600 * 1000)

namespace TimescaleConfig

def isEnabled (config : TimescaleConfig) : Bool := config.enabled.getD true

def effectiveChunkIntervalHours (config : TimescaleConfig) : UInt64 :=
  (config.chunkIntervalHours.or (config.chunkIntervalDays.map (saturatingMul · hoursPerDay))).getD
    defaultChunkIntervalHours

def effectiveCompressAfterHours (config : TimescaleConfig) : UInt64 :=
  (config.compressAfterHours.or (config.compressAfterDays.map (saturatingMul · hoursPerDay))).getD
    defaultCompressAfterHours

def validate (config : TimescaleConfig) : Except String Unit :=
  if config.retentionDays > maxRetentionDays then
    .error ("retention_days（" ++ toString config.retentionDays ++ "）过大：换算成毫秒会溢出（上限 "
      ++ toString maxRetentionDays ++ " 天）")
  else if config.effectiveChunkIntervalHours = 0 then
    .error "chunk_interval_hours / chunk_interval_days 必须大于 0（当前换算为 0 小时）"
  else .ok ()

end TimescaleConfig

/-! ### Durations -/

def msPerHour : UInt64 := 3600000

def msPerDay : UInt64 := 86400000

/-- The product has to fit `u64`, and then the `BIGINT` of the database. -/
def durationToMs (value unitMs : UInt64) (unit : String) : Except String UInt64 :=
  let tooLarge := "timescale 时长配置过大（" ++ toString value ++ " " ++ unit ++ "），超出 SQL BIGINT 毫秒上限"
  if value.toNat * unitMs.toNat ≤ u64Max then
    if ((value * unitMs).toNat : Int) ≤ i64Max then .ok (value * unitMs) else .error tooLarge
  else .error tooLarge

def hoursToMs (hours : UInt64) : Except String UInt64 := durationToMs hours msPerHour "小时"

def daysToMs (days : UInt64) : Except String UInt64 := durationToMs days msPerDay "天"

/-- The interval the hypertable really has; the configured one when there is none or it makes no
sense. -/
def compressionScheduleMs (actualChunkMs : Option Int64) (fallbackMs : UInt64) : UInt64 :=
  match actualChunkMs with
  | some ms => if 0 < ms then ms.toUInt64 else fallbackMs
  | none => fallbackMs

/-! ### Database -/

/-- The tables that are managed. -/
inductive Table where
  | dynamicMonitoring
  | dynamicMonitoringSummary
  | trafficSnapshot
deriving DecidableEq

namespace Table

instance : Fintype Table where
  elems := {dynamicMonitoring, dynamicMonitoringSummary, trafficSnapshot}
  complete t := by cases t <;> decide

def name : Table → String
  | dynamicMonitoring => "dynamic_monitoring"
  | dynamicMonitoringSummary => "dynamic_monitoring_summary"
  | trafficSnapshot => "traffic_snapshot"

def timeColumn : Table → String
  | dynamicMonitoring | dynamicMonitoringSummary => "timestamp"
  | trafficSnapshot => "snapshot_time"

end Table

def timescaleTables : List Table := [.dynamicMonitoring, .dynamicMonitoringSummary, .trafficSnapshot]

theorem mem_timescaleTables (t : Table) : t ∈ timescaleTables := by
  cases t <;> decide

/-- Policies and settings are those of a hypertable: a plain table has none. -/
structure Hypertable where
  chunkMs : Option Int64
  integerNowFunc : Bool := false
  /-- The retention policy: the age in milliseconds at which chunks are dropped. -/
  retention : Option UInt64 := none
  compression : Bool := false
  /-- The compression policy: the age at which chunks are compressed, and the schedule. -/
  compressionPolicy : Option (UInt64 × UInt64) := none

structure TableState where
  /-- There are rows whose time is NULL. -/
  nullTime : Bool := false
  /-- The primary key is `(id, time)`. -/
  keyWidened : Bool := false
  hypertable : Option Hypertable := none

structure Database where
  extension : Bool
  /-- `current_schema()`, which may be NULL. -/
  schema : Option String
  nowFunction : Bool := false
  table : Table → TableState

namespace Database

def setTable (db : Database) (t : Table) (f : TableState → TableState) : Database :=
  { db with table := update db.table t (f (db.table t)) }

def setHypertable (db : Database) (t : Table) (f : Hypertable → Hypertable) : Database :=
  db.setTable t fun s => { s with hypertable := s.hypertable.map f }

def retention (db : Database) (t : Table) : Option UInt64 := (db.table t).hypertable.bind (·.retention)

end Database

/-- Where the current schema is asked for: at the start of the set-up, or when it is skipped. -/
inductive Site where
  | setup
  | skip
deriving DecidableEq

inductive Stmt where
  | hasTimescaleExtension
  | currentSchema (site : Site)
  | createNowFunction
  | isHypertable (t : Table)
  | nullCheck (t : Table)
  | widenKey (t : Table)
  | createHypertable (t : Table)
  | hasIntegerNowFunc (t : Table)
  | setIntegerNowFunc (t : Table)
  | removeRetention (t : Table)
  | replaceRetention (t : Table)
  | isCompressionEnabled (t : Table)
  | enableCompression (t : Table)
  | chunkInterval (t : Table)
  | replaceCompression (t : Table)

inductive Failure where
  | statement (s : Stmt)
  | message (text : String)

/-- With what the set-up returns; the last has the number of tables that are not fully set up. -/
inductive Outcome where
  | notPostgres
  | disabled
  | notInstalled
  | probeFailed
  | invalidConfig
  | schemaUnknown
  | nowFunctionUnavailable
  | applied (failures : Nat)

section Setup
variable (fails : Stmt → Bool)

/-! ### Statements -/

/-- A statement that fails changes nothing. -/
def execute {α : Type} (s : Stmt) (effect : Program Database Failure α) : Program Database Failure α :=
  if fails s then .fail (.statement s) else effect

def hasTimescaleExtension : Program Database Failure Bool :=
  execute fails .hasTimescaleExtension (.read (·.extension))

def currentSchema (site : Site) : Program Database Failure String := do
  match ← execute fails (.currentSchema site) (.read (·.schema)) with
  | some schema => if schema = "" then .fail (.message "current_schema() returned NULL/empty") else return schema
  | none => .fail (.message "current_schema() returned NULL/empty")

def createNowFunction : Program Database Failure Unit :=
  execute fails .createNowFunction (.write fun db => { db with nowFunction := true })

def isHypertable (t : Table) : Program Database Failure Bool :=
  execute fails (.isHypertable t) (.read fun db => (db.table t).hypertable.isSome)

def hasIntegerNowFunc (t : Table) : Program Database Failure Bool :=
  execute fails (.hasIntegerNowFunc t) (.read fun db => (db.table t).hypertable.any (·.integerNowFunc))

def isCompressionEnabled (t : Table) : Program Database Failure Bool :=
  execute fails (.isCompressionEnabled t) (.read fun db => (db.table t).hypertable.any (·.compression))

def chunkIntervalMs (t : Table) : Program Database Failure (Option Int64) :=
  execute fails (.chunkInterval t) (.read fun db => (db.table t).hypertable.bind (·.chunkMs))

/-- `remove_retention_policy(…, if_exists => true)` -/
def removeRetention (t : Table) : Program Database Failure Unit :=
  execute fails (.removeRetention t) (.write (·.setHypertable t fun h => { h with retention := none }))

/-! ### One table -/

def nullTimeMessage (t : Table) : String :=
  "table " ++ t.name ++ " has rows with NULL " ++ t.timeColumn
    ++ "; cannot convert to hypertable. Remediation: `UPDATE \"" ++ t.name ++ "\" SET \"" ++ t.timeColumn
    ++ "\" = 0 WHERE \"" ++ t.timeColumn ++ "\" IS NULL` (or delete those rows), then restart"

/-- The part of `setup_table` that makes a hypertable of a plain table. -/
def convert (config : TimescaleConfig) (t : Table) : Program Database Failure Unit := do
  let chunkMs ← Program.ofExcept ((hoursToMs config.effectiveChunkIntervalHours).mapError .message)
  if ← execute fails (.nullCheck t) (.read fun db => (db.table t).nullTime) then
    .fail (.message (nullTimeMessage t))
  else
    execute fails (.widenKey t) (.write (·.setTable t fun s => { s with keyWidened := true }))
    execute fails (.createHypertable t)
      (.write (·.setTable t fun s => { s with hypertable := some { chunkMs := some chunkMs.toInt64 } }))

def ensureHypertable (config : TimescaleConfig) (t : Table) : Program Database Failure Unit := do
  if ← isHypertable fails t then return () else convert fails config t

/-- A function that is registered a second time is an error. -/
def ensureIntegerNowFunc (t : Table) : Program Database Failure Unit := do
  if ← hasIntegerNowFunc fails t then return ()
  else execute fails (.setIntegerNowFunc t) (.write (·.setHypertable t fun h => { h with integerNowFunc := true }))

/-- The part of `setup_table` before the policies. -/
def prepare (config : TimescaleConfig) (t : Table) : Program Database Failure Unit := do
  ensureHypertable fails config t
  ensureIntegerNowFunc fails t

def applyRetentionPolicy (config : TimescaleConfig) (t : Table) : Program Database Failure Bool := do
  if config.retentionDays > 0 then
    match daysToMs config.retentionDays with
    | .error _ => return false
    | .ok ms =>
      let outcome ← (execute fails (.replaceRetention t)
        (.write (·.setHypertable t fun h => { h with retention := some ms }))).attempt
      return outcome.isOk
  else
    let outcome ← (removeRetention fails t).attempt
    return outcome.isOk

def ensureCompression (t : Table) : Program Database Failure Unit := do
  if ← isCompressionEnabled fails t then return ()
  else execute fails (.enableCompression t) (.write (·.setHypertable t fun h => { h with compression := true }))

def applyCompression (config : TimescaleConfig) (t : Table) : Program Database Failure Unit := do
  ensureCompression fails t
  let configuredChunkMs ← Program.ofExcept ((hoursToMs config.effectiveChunkIntervalHours).mapError .message)
  let actualChunkMs ← chunkIntervalMs fails t
  let compressAfterMs ← Program.ofExcept ((hoursToMs config.effectiveCompressAfterHours).mapError .message)
  execute fails (.replaceCompression t) (.write (·.setHypertable t fun h => { h with
    compressionPolicy := some (compressAfterMs, compressionScheduleMs actualChunkMs configuredChunkMs) }))

/-- `false` when a policy is not in place. -/
def setupTable (config : TimescaleConfig) (t : Table) : Program Database Failure Bool := do
  prepare fails config t
  let retentionOk ← applyRetentionPolicy fails config t
  let compression ← (applyCompression fails config t).attempt
  return compression.isOk && retentionOk

/-! ### The set-up -/

/-- A removal that fails is only logged; a plain table has nothing to remove. -/
def removeFrom (t : Table) : Program Database Failure Unit := do
  match ← (isHypertable fails t).attempt with
  | .ok false => return ()
  | _ =>
    match ← (removeRetention fails t).attempt with
    | .ok () => return ()
    | .error _ => return ()

def removeFromAll : List Table → Program Database Failure Unit
  | [] => return ()
  | t :: rest => do
    removeFrom fails t
    removeFromAll rest

/-- Removes the policies when nothing is to be dropped, or the age cannot be expressed. -/
def reconcileRetentionOnSkip (config : TimescaleConfig) : Program Database Failure Unit := do
  let retentionUnusable := config.retentionDays > 0 ∧ !(daysToMs config.retentionDays).isOk
  if config.retentionDays = 0 ∨ retentionUnusable then
    match ← (currentSchema fails .skip).attempt with
    | .ok _ => removeFromAll fails timescaleTables
    | .error _ => return ()
  else return ()

/-- How many tables are not fully set up. -/
def setupTables (config : TimescaleConfig) : List Table → Program Database Failure Nat
  | [] => return 0
  | t :: rest => do
    let outcome ← (setupTable fails config t).attempt
    let failures ← setupTables config rest
    match outcome with
    | .ok true => return failures
    | _ => return failures + 1

/-- The set-up once the extension is found and the configuration is valid. -/
def setupDetected (config : TimescaleConfig) : Program Database Failure Outcome := do
  match ← (currentSchema fails .setup).attempt with
  | .error _ => return .schemaUnknown
  | .ok _ =>
    match ← (createNowFunction fails).attempt with
    | .error _ =>
      reconcileRetentionOnSkip fails config
      return .nowFunctionUnavailable
    | .ok () =>
      let failures ← setupTables fails config timescaleTables
      return .applied failures

/-- The set-up with the configuration in force. -/
def setupWith (config : TimescaleConfig) : Program Database Failure Outcome := do
  if !config.isEnabled then
    match ← (hasTimescaleExtension fails).attempt with
    | .ok true =>
      reconcileRetentionOnSkip fails config
      return .disabled
    | _ => return .disabled
  else
    match ← (hasTimescaleExtension fails).attempt with
    | .ok false => return .notInstalled
    | .error _ => return .probeFailed
    | .ok true =>
      match config.validate with
      | .error _ =>
        reconcileRetentionOnSkip fails config
        return .invalidConfig
      | .ok () => setupDetected fails config

def setupTimescaleIfAvailable (backend : Backend) (config : Option TimescaleConfig) :
    Program Database Failure Outcome :=
  if backend ≠ .postgres then return .notPostgres else setupWith fails (config.getD {})

/-! ### When a table's policy is removed -/

/-- The statements before the policies of a table that is a hypertable succeed. -/
def Prepared (t : Table) (s : TableState) : Prop :=
  fails (.isHypertable t) = false ∧ fails (.hasIntegerNowFunc t) = false ∧
    (s.hypertable.any (·.integerNowFunc) = true ∨ fails (.setIntegerNowFunc t) = false)

instance (t : Table) (s : TableState) : Decidable (Prepared fails t s) := inferInstanceAs (Decidable (_ ∧ _ ∧ _))

def SchemaKnown (site : Site) (db : Database) : Prop :=
  fails (.currentSchema site) = false ∧ db.schema.any (· ≠ "") = true

instance (site : Site) (db : Database) : Decidable (SchemaKnown fails site db) := inferInstanceAs (Decidable (_ ∧ _))

/-- The set-up is to go over the tables. -/
def Attempted (config : TimescaleConfig) : Prop := config.isEnabled = true ∧ config.validate.isOk = true

instance (config : TimescaleConfig) : Decidable (Attempted config) := inferInstanceAs (Decidable (_ ∧ _))

/-- No statement fails without which a table's policy is not removed. -/
def Reaches (config : TimescaleConfig) (db : Database) (t : Table) : Prop :=
  fails .hasTimescaleExtension = false ∧
    if Attempted config then
      SchemaKnown fails .setup db ∧
        if fails .createNowFunction then SchemaKnown fails .skip db else Prepared fails t (db.table t)
    else SchemaKnown fails .skip db

instance (config : TimescaleConfig) (db : Database) (t : Table) : Decidable (Reaches fails config db t) :=
  inferInstanceAs (Decidable (_ ∧ _))

/-! ### What the statements leave alone -/

variable {fails} {config : TimescaleConfig} {t t' : Table} {db : Database}

variable {α γ : Type} {s : Stmt} {f : Database → γ} {effect : Program Database Failure α} {ts : List Table}

theorem execute_of_fails (h : fails s = true) (effect : Program Database Failure α) :
    execute fails s effect = .fail (.statement s) :=
  if_pos h

theorem execute_of_succeeds (h : fails s = false) (effect : Program Database Failure α) :
    execute fails s effect = effect :=
  if_neg (by simp [h])

theorem execute_keeps (h : Keeps f effect) : Keeps f (execute fails s effect) :=
  Keeps.ite (Keeps.fail _) h

theorem execute_ensures {P Q : Database → Prop} (hfail : ∀ db, P db → Q db) (heffect : Ensures P effect Q) :
    Ensures P (execute fails s effect) Q :=
  Ensures.ite hfail heffect

theorem setTable_table_of_ne (h : t' ≠ t) (f : TableState → TableState) : (db.setTable t f).table t' = db.table t' :=
  update_of_ne h ..

theorem setHypertable_retention {f : Hypertable → Hypertable} (h : ∀ hyper, (f hyper).retention = hyper.retention) :
    (db.setHypertable t f).retention t' = db.retention t' := by
  by_cases ht : t' = t
  · subst ht
    simp only [Database.retention, Database.setHypertable, Database.setTable, update_self]
    cases (db.table t').hypertable with
    | none => rfl
    | some hyper => exact h hyper
  · rw [Database.retention, Database.setHypertable, setTable_table_of_ne ht, Database.retention]

theorem write_setTable_keeps (h : t' ≠ t) (f : TableState → TableState) :
    Keeps (·.table t') (.write (·.setTable t f) : Program Database Failure Unit) :=
  Keeps.write fun _ => setTable_table_of_ne h f

theorem write_setHypertable_keeps (h : t' ≠ t) (f : Hypertable → Hypertable) :
    Keeps (·.table t') (.write (·.setHypertable t f) : Program Database Failure Unit) :=
  write_setTable_keeps h _

/-- The set-up of a table does not touch another. -/
theorem prepare_other (h : t' ≠ t) : Keeps (·.table t') (prepare fails config t) := by
  have hconvert : Keeps (·.table t') (convert fails config t) :=
    (Keeps.ofExcept _).bind fun _ => (execute_keeps (Keeps.read _)).bind fun _ => Keeps.ite (Keeps.fail _)
      ((execute_keeps (write_setTable_keeps h _)).bind fun _ => execute_keeps (write_setTable_keeps h _))
  have hhyper : Keeps (·.table t') (ensureHypertable fails config t) :=
    (execute_keeps (Keeps.read _)).bind fun _ => Keeps.ite (Keeps.pure _) hconvert
  have hnow : Keeps (·.table t') (ensureIntegerNowFunc fails t) :=
    (execute_keeps (Keeps.read _)).bind fun _ =>
      Keeps.ite (Keeps.pure _) (execute_keeps (write_setHypertable_keeps h _))
  exact hhyper.bind fun _ => hnow

theorem applyRetentionPolicy_other (h : t' ≠ t) : Keeps (·.table t') (applyRetentionPolicy fails config t) := by
  refine Keeps.ite ?_ ?_
  · split
    · exact Keeps.pure _
    · exact (execute_keeps (write_setHypertable_keeps h _)).attempt.bind fun _ => Keeps.pure _
  · exact (execute_keeps (write_setHypertable_keeps h _)).attempt.bind fun _ => Keeps.pure _

/-- What compression does to a hypertable it does to nothing else. -/
theorem applyCompression_keeps
    (h : ∀ db (g : Hypertable → Hypertable), (∀ hyper, (g hyper).retention = hyper.retention) → f (db.setHypertable t g) = f db) :
    Keeps f (applyCompression fails config t) := by
  have hensure : Keeps f (ensureCompression fails t) :=
    (execute_keeps (Keeps.read _)).bind fun _ =>
      Keeps.ite (Keeps.pure _) (execute_keeps (Keeps.write fun db => h db _ fun _ => rfl))
  exact hensure.bind fun _ => (Keeps.ofExcept _).bind fun _ => (execute_keeps (Keeps.read _)).bind fun _ =>
    (Keeps.ofExcept _).bind fun _ => execute_keeps (Keeps.write fun db => h db _ fun _ => rfl)

theorem setupTable_other (h : t' ≠ t) : Keeps (·.table t') (setupTable fails config t) :=
  (prepare_other h).bind fun _ => (applyRetentionPolicy_other h).bind fun _ =>
    (applyCompression_keeps fun _ _ _ => setTable_table_of_ne h _).attempt.bind fun _ => Keeps.pure _

/-! ### One table -/

/-- A new hypertable has no policy, as the plain table had none. -/
theorem convert_retention {policy : Option UInt64} :
    Ensures (fun db => (db.table t).hypertable = none ∧ db.retention t' = policy) (convert fails config t)
      (fun db => db.retention t' = policy) := by
  have hplain : ∀ db : Database, (db.table t).hypertable = none → ∀ f : TableState → TableState,
      (f (db.table t)).hypertable.bind (·.retention) = none → (db.setTable t f).retention t' = db.retention t' := by
    intro db hnone f hf
    by_cases ht : t' = t
    · subst ht
      simp only [Database.retention, Database.setTable, update_self, hf, hnone, Option.bind_none]
    · rw [Database.retention, setTable_table_of_ne ht, Database.retention]
  refine Ensures.bind (fun _ h => h) (fun _ h => h.2) fun ms => ?_
  refine Ensures.bind (execute_ensures (fun _ h => h) fun _ h => h) (fun _ h => h.2) fun hasNull => ?_
  refine Ensures.ite (fun _ h => h.2) ?_
  refine Ensures.bind (execute_ensures (fun _ h => h) (Ensures.write fun db h => ?_)) (fun _ h => h.2) fun _ => ?_
  · refine ⟨?_, (hplain db h.1 _ ?_).trans h.2⟩
    · simpa [Database.setTable] using h.1
    · simp [h.1]
  · exact execute_ensures (fun _ h => h.2) (Ensures.write fun db h => (hplain db h.1 _ rfl).trans h.2)

theorem run_isHypertable (h : fails (.isHypertable t) = false) :
    (isHypertable fails t).run db = (.ok (db.table t).hypertable.isSome, db) := by
  rw [isHypertable, execute_of_succeeds h, Program.run_read]

theorem ensureHypertable_retention : Keeps (·.retention t') (ensureHypertable fails config t) := by
  intro db
  show ((ensureHypertable fails config t).run db).2.retention t' = db.retention t'
  cases hfails : fails (.isHypertable t) with
  | true =>
    rw [ensureHypertable, isHypertable, execute_of_fails hfails]
    rfl
  | false =>
    rw [ensureHypertable, Program.run_bind_of_ok (run_isHypertable hfails)]
    cases hhyper : (db.table t).hypertable with
    | none =>
      rw [Option.isSome_none, if_neg Bool.false_ne_true]
      exact convert_retention db ⟨hhyper, rfl⟩
    | some hyper =>
      rw [Option.isSome_some, if_pos rfl]
      rfl

theorem prepare_retention : Keeps (·.retention t') (prepare fails config t) :=
  ensureHypertable_retention.bind fun _ => (execute_keeps (Keeps.read _)).bind fun _ =>
    Keeps.ite (Keeps.pure _) (execute_keeps (Keeps.write fun _ => setHypertable_retention fun _ => rfl))

theorem prepare_isOk (h : (db.table t).hypertable.isSome = true) :
    ((prepare fails config t).run db).1.isOk = true ↔ Prepared fails t (db.table t) := by
  rw [prepare, ensureHypertable, isHypertable, ensureIntegerNowFunc, hasIntegerNowFunc, Prepared]
  cases hhyper : fails (.isHypertable t) with
  | true => simp [Program.run_bind, execute_of_fails hhyper]
  | false =>
    cases hnow : fails (.hasIntegerNowFunc t) with
    | true =>
      simp [Program.run_bind, execute_of_succeeds hhyper, h, execute_of_fails hnow]
    | false =>
      cases hregistered : (db.table t).hypertable.any (·.integerNowFunc) with
      | true =>
        simp [Program.run_bind, execute_of_succeeds hhyper, h, execute_of_succeeds hnow, hregistered]
      | false =>
        cases hset : fails (.setIntegerNowFunc t) with
        | true =>
          simp [Program.run_bind, execute_of_succeeds hhyper, h, execute_of_succeeds hnow, hregistered,
            execute_of_fails hset]
        | false =>
          simp [Program.run_bind, execute_of_succeeds hhyper, h, execute_of_succeeds hnow, hregistered,
            execute_of_succeeds hset]

/-- With retention off, the removal is what happens to a policy. -/
theorem applyRetentionPolicy_off (hoff : config.retentionDays = 0) (hremove : fails (.removeRetention t) = false) :
    (applyRetentionPolicy fails config t).run db =
      (.ok true, db.setHypertable t fun h => { h with retention := none }) := by
  rw [applyRetentionPolicy, hoff, if_neg (by decide), removeRetention, execute_of_succeeds hremove]
  rfl

theorem removed_retention : (db.setHypertable t fun h => { h with retention := none }).retention t = none := by
  simp only [Database.retention, Database.setHypertable, Database.setTable, update_self]
  cases (db.table t).hypertable with
  | none => rfl
  | some hyper => rfl

theorem setupTable_retention (hoff : config.retentionDays = 0) (hremove : fails (.removeRetention t) = false) :
    ((setupTable fails config t).run db).2.retention t = none ↔
      db.retention t = none ∨ Prepared fails t (db.table t) := by
  have hkept : ((prepare fails config t).run db).2.retention t = db.retention t := prepare_retention db
  have hisOk : db.retention t ≠ none →
      (((prepare fails config t).run db).1.isOk = true ↔ Prepared fails t (db.table t)) := by
    intro hpolicy
    refine prepare_isOk ?_
    cases hhyper : (db.table t).hypertable with
    | none => simp [Database.retention, hhyper] at hpolicy
    | some hyper => rfl
  rw [setupTable]
  cases hprepare : (prepare fails config t).run db with
  | mk outcome prepared =>
    rw [hprepare] at hkept hisOk
    cases outcome with
    | error e =>
      rw [Program.run_bind_of_error hprepare]
      refine ⟨fun hnone => .inl (hkept ▸ hnone), fun hor => ?_⟩
      by_contra hpolicy
      have hpolicy : db.retention t ≠ none := hkept ▸ hpolicy
      cases (hisOk hpolicy).mpr (hor.resolve_left hpolicy)
    | ok u =>
      rw [Program.run_bind_of_ok hprepare, Program.run_bind_of_ok (applyRetentionPolicy_off hoff hremove), Program.run_attempt_bind]
      refine ⟨fun _ => ?_, fun _ => ?_⟩
      · by_cases hpolicy : db.retention t = none
        · exact .inl hpolicy
        · exact .inr ((hisOk hpolicy).mp rfl)
      · exact (applyCompression_keeps (f := (·.retention t)) (fun _ _ h => setHypertable_retention h) _).trans
          removed_retention

/-! ### The set-up -/

theorem removeFrom_retention (hremove : fails (.removeRetention t) = false) :
    ((removeFrom fails t).run db).2.retention t' = if t' = t then none else db.retention t' := by
  have hother : t' ≠ t → (db.setHypertable t fun h => { h with retention := none }).retention t' = db.retention t' := by
    intro ht
    rw [Database.retention, Database.setHypertable, setTable_table_of_ne ht, Database.retention]
  have hremoved : (db.setHypertable t fun h => { h with retention := none }).retention t' =
      if t' = t then none else db.retention t' := by
    split
    next ht => rw [ht, removed_retention]
    next ht => exact hother ht
  rw [removeFrom, isHypertable, removeRetention, execute_of_succeeds hremove, Program.run_attempt_bind]
  cases hfails : fails (.isHypertable t) with
  | true => simpa [execute_of_fails hfails] using hremoved
  | false =>
    cases hhyper : (db.table t).hypertable with
    | some hyper => simpa [execute_of_succeeds hfails, hhyper] using hremoved
    | none =>
      simp only [execute_of_succeeds hfails, Program.run_read, hhyper, Option.isSome_none, Program.run_pure]
      split
      next ht => simp [ht, Database.retention, hhyper]
      next => rfl

theorem removeFrom_ok : ((removeFrom fails t).run db).1 = .ok () := by
  have hremoved : ∀ db, ((do
      match ← ((removeRetention fails t).attempt : Program Database Failure (Except Failure Unit)) with
      | .ok () => return ()
      | .error _ => return () : Program Database Failure Unit).run db).1 = .ok () := by
    intro db
    rw [Program.run_attempt_bind]
    cases ((removeRetention fails t).run db).1 with
    | error e => rfl
    | ok u => rfl
  rw [removeFrom, Program.run_attempt_bind]
  cases ((isHypertable fails t).run db).1 with
  | error e => exact hremoved _
  | ok b =>
    cases b with
    | false => rfl
    | true => exact hremoved _

/-- With removals that succeed, no table of the list has a policy. -/
theorem removeFromAll_retention (hremove : ∀ t, fails (.removeRetention t) = false) (ts : List Table) :
    ((removeFromAll fails ts).run db).2.retention t = if t ∈ ts then none else db.retention t := by
  induction ts generalizing db with
  | nil => rfl
  | cons a rest ih =>
    have hfirst : (removeFrom fails a).run db = (.ok (), ((removeFrom fails a).run db).2) := Prod.ext removeFrom_ok rfl
    rw [removeFromAll, Program.run_bind_of_ok hfirst, ih, removeFrom_retention (hremove a)]
    by_cases hrest : t ∈ rest
    · simp [hrest]
    · simp [hrest]

theorem currentSchema_isOk (site : Site) :
    ((currentSchema fails site).run db).1.isOk = true ↔ SchemaKnown fails site db := by
  rw [currentSchema, SchemaKnown]
  cases hfails : fails (.currentSchema site) with
  | true => simp [execute_of_fails hfails, Program.run_bind]
  | false =>
    cases hschema : db.schema with
    | none => simp [execute_of_succeeds hfails, Program.run_bind, hschema]
    | some schema =>
      by_cases hempty : schema = ""
      · simp [execute_of_succeeds hfails, Program.run_bind, hschema, hempty]
      · simp [execute_of_succeeds hfails, Program.run_bind, hschema, hempty]

theorem currentSchema_keeps (site : Site) : Keeps id (currentSchema fails site) := by
  refine (execute_keeps (Keeps.read _)).bind fun schema => ?_
  cases schema with
  | none => exact Keeps.fail _
  | some schema => exact Keeps.ite (Keeps.fail _) (Keeps.pure _)

theorem setupTables_state {a : Table} {rest : List Table} :
    ((setupTables fails config (a :: rest)).run db).2 =
      ((setupTables fails config rest).run ((setupTable fails config a).run db).2).2 := by
  rw [setupTables, Program.run_attempt_bind]
  refine Program.run_bind_snd (fun failures s => ?_) _
  cases ((setupTable fails config a).run db).1 with
  | error e => rfl
  | ok b => cases b <;> rfl

theorem setupTables_other (h : t ∉ ts) : Keeps (·.table t) (setupTables fails config ts) := by
  induction ts with
  | nil => exact Keeps.pure _
  | cons a rest ih =>
    intro db
    have hne : t ≠ a := List.ne_of_not_mem_cons h
    show ((setupTables fails config (a :: rest)).run db).2.table t = db.table t
    rw [setupTables_state]
    exact (ih (List.not_mem_of_not_mem_cons h) _).trans (setupTable_other hne db)

theorem retention_congr {db' : Database} (h : db'.table t = db.table t) : db'.retention t = db.retention t := by
  rw [Database.retention, h, Database.retention]

/-- What is returned after the policies are reconciled is only logged. -/
theorem reconcile_bind (outcome : Outcome) :
    ((do reconcileRetentionOnSkip fails config; return outcome : Program Database Failure Outcome).run db).2 =
      ((reconcileRetentionOnSkip fails config).run db).2 :=
  Program.run_bind_snd (fun _ _ => rfl) _

section Off
variable (hoff : config.retentionDays = 0) (hremove : ∀ t, fails (.removeRetention t) = false)
include hoff hremove

theorem reconcile_retention :
    ((reconcileRetentionOnSkip fails config).run db).2.retention t = none ↔
      db.retention t = none ∨ SchemaKnown fails .skip db := by
  have hkept : ((currentSchema fails .skip).run db).2 = db := currentSchema_keeps .skip db
  rw [reconcileRetentionOnSkip, if_pos (.inl hoff), Program.run_attempt_bind, hkept, ← currentSchema_isOk]
  cases ((currentSchema fails .skip).run db).1 with
  | error e => simp
  | ok schema => simp [removeFromAll_retention hremove, mem_timescaleTables]

/-- The tables are set up one by one, each in the state it was in at the start. -/
theorem setupTables_retention (hnodup : ts.Nodup) (ht : t ∈ ts) :
    ((setupTables fails config ts).run db).2.retention t = none ↔
      db.retention t = none ∨ Prepared fails t (db.table t) := by
  induction ts generalizing db with
  | nil => cases ht
  | cons a rest ih =>
    obtain ⟨hfresh, hdistinct⟩ := List.nodup_cons.mp hnodup
    rw [setupTables_state]
    by_cases hne : t = a
    · subst hne
      rw [retention_congr (setupTables_other hfresh _)]
      exact setupTable_retention hoff (hremove t)
    · have hearlier : ((setupTable fails config a).run db).2.table t = db.table t := setupTable_other hne db
      rw [ih hdistinct ((List.mem_cons.mp ht).resolve_left hne), retention_congr hearlier, hearlier]

theorem setupDetected_retention :
    ((setupDetected fails config).run db).2.retention t = none ↔
      db.retention t = none ∨ SchemaKnown fails .setup db ∧
        if fails .createNowFunction then SchemaKnown fails .skip db else Prepared fails t (db.table t) := by
  have hkept : ((currentSchema fails .setup).run db).2 = db := currentSchema_keeps .setup db
  rw [setupDetected, Program.run_attempt_bind, hkept, ← currentSchema_isOk .setup]
  cases ((currentSchema fails .setup).run db).1 with
  | error e => simp
  | ok schema =>
    simp only [Program.isOk_ok, true_and]
    cases hnow : fails .createNowFunction with
    | true =>
      rw [createNowFunction, execute_of_fails hnow, Program.run_attempt_bind, if_pos rfl]
      show ((do reconcileRetentionOnSkip fails config; return Outcome.nowFunctionUnavailable :
        Program Database Failure Outcome).run db).2.retention t = none ↔ _
      rw [reconcile_bind]
      exact reconcile_retention hoff hremove
    | false =>
      rw [createNowFunction, execute_of_succeeds hnow, Program.run_attempt_bind, if_neg Bool.false_ne_true]
      show ((do return Outcome.applied (← setupTables fails config timescaleTables) :
        Program Database Failure Outcome).run { db with nowFunction := true }).2.retention t = none ↔ _
      rw [Program.run_bind_snd fun _ _ => rfl]
      exact setupTables_retention hoff hremove (by decide) (mem_timescaleTables t)

theorem setupWith_retention (hextension : db.extension = true) :
    ((setupWith fails config).run db).2.retention t = none ↔ db.retention t = none ∨ Reaches fails config db t := by
  have hskip : ((reconcileRetentionOnSkip fails config).run db).2.retention t = none ↔
      db.retention t = none ∨ SchemaKnown fails .skip db := reconcile_retention hoff hremove
  rw [setupWith, Reaches]
  cases hprobe : fails .hasTimescaleExtension with
  | true =>
    have hrun : (hasTimescaleExtension fails).run db = (.error (.statement .hasTimescaleExtension), db) := by
      rw [hasTimescaleExtension, execute_of_fails hprobe, Program.run_fail]
    cases henabled : config.isEnabled with
    | false => simp [Program.run_attempt_bind, hrun]
    | true => simp [Program.run_attempt_bind, hrun]
  | false =>
    have hrun : (hasTimescaleExtension fails).run db = (.ok true, db) := by
      rw [hasTimescaleExtension, execute_of_succeeds hprobe, Program.run_read, hextension]
    cases henabled : config.isEnabled with
    | false => simpa [Program.run_attempt_bind, hrun, Attempted, henabled, reconcile_bind] using hskip
    | true =>
      cases hvalid : config.validate with
      | error text =>
        simpa [Program.run_attempt_bind, hrun, Attempted, henabled, hvalid, reconcile_bind] using hskip
      | ok u =>
        have hattempted : Attempted config := ⟨henabled, by rw [hvalid]; rfl⟩
        rw [if_pos hattempted, eq_self, true_and, ← setupDetected_retention hoff hremove]
        simp [Program.run_attempt_bind, hrun]

end Off

/-- **Retention off.** With `retention_days = 0`, on a PostgreSQL database with the extension and
with removals that succeed: after the set-up no managed table has a retention policy, exactly
when for each table that had one no statement failed without which its policy is not removed. All
other statements may fail. -/
theorem retention_off_iff (fails : Stmt → Bool) (config : Option TimescaleConfig) (db : Database)
    (hoff : (config.getD {}).retentionDays = 0) (hextension : db.extension = true)
    (hremove : ∀ t, fails (.removeRetention t) = false) :
    (∀ t, ((setupTimescaleIfAvailable fails .postgres config).run db).2.retention t = none) ↔
      ∀ t, db.retention t ≠ none → Reaches fails (config.getD {}) db t := by
  have hsetup : ∀ t, ((setupTimescaleIfAvailable fails .postgres config).run db).2.retention t = none ↔
      db.retention t = none ∨ Reaches fails (config.getD {}) db t :=
    fun t => setupWith_retention hoff hremove hextension
  constructor
  · intro hnone t hpolicy
    exact ((hsetup t).mp (hnone t)).resolve_left hpolicy
  · intro hreaches t
    by_cases hpolicy : db.retention t = none
    · exact (hsetup t).mpr (.inl hpolicy)
    · exact (hsetup t).mpr (.inr (hreaches t hpolicy))

end Setup

/-- All tables are hypertables whose chunks are dropped after a week. -/
private def dropping : Database where
  extension := true
  schema := some "public"
  table _ := { hypertable := some { chunkMs := some 21600000, integerNowFunc := true, retention := some 604800000 } }

private def noNowFunction : Stmt → Bool
  | .createNowFunction => true
  | _ => false

private def firstNotLookedAt : Stmt → Bool
  | .hasIntegerNowFunc .dynamicMonitoring => true
  | _ => false

/-- A set-up that is skipped for want of the function still removes the policies. -/
theorem retention_off_now_function_unavailable :
    (∀ t, dropping.retention t = some 604800000) ∧
    ∀ t, ((setupTimescaleIfAvailable noNowFunction .postgres none).run dropping).2.retention t = none :=
  ⟨fun _ => rfl, (retention_off_iff noNowFunction none dropping rfl rfl fun _ => rfl).mpr (by decide +kernel)⟩

/-- One query about one table fails: the policy of that table stays, and those of the others go. -/
theorem policy_stays_after_failed_query :
    (∀ t, firstNotLookedAt (.removeRetention t) = false) ∧ dropping.extension = true ∧
    ((none : Option TimescaleConfig).getD {}).retentionDays = 0 ∧
    (timescaleTables.map fun t =>
        ((setupTimescaleIfAvailable firstNotLookedAt .postgres none).run dropping).2.retention t) =
      [some 604800000, none, none] := by
  decide +kernel

end NodeGet.Db.Timescale
