import NodeGet.Core.Signed
import NodeGet.Core.Text
import NodeGet.Core.Uuid
import NodeGet.Kv.Store
import NodeGet.Task.Purge

/-! The retention sweep over tasks and results (`ng-task/src/retention.rs`).

A sweep purges the task table agent by agent, then its legacy rows without a creation
time, then the rows of agents that are not registered, and last the two result tables.
How long rows are kept is read from the key-value store; a value that cannot be read or
lies below a floor counts as absent. Legacy rows have no age: those go whose id lies at
least a margin below the largest id that is left when their turn comes.

Any statement may fail (`fault`), so what a sweep may delete (`sweep_deletes`) holds for
sweeps that stop anywhere. -/
namespace NodeGet.Task.Retention
open NodeGet.Core NodeGet.Data

def softDeleteGraceMs : Int64 := 600000

def minTaskLimitMs : Int64 := 600000

def minResultLimitMs : Int64 := 3600000

def minLegacyIdMargin : Int64 := 1000

/-! ### Limits -/

inductive Target where
  | task | crontabResult | jsResult
deriving DecidableEq

namespace Target

def all : List Target := [task, crontabResult, jsResult]

/-- The key its limit is stored under. -/
def limitKey : Target → String
  | task => "database_limit_task"
  | crontabResult => "database_limit_crontab_result"
  | jsResult => "database_limit_js_result"

def minLimitMs : Target → Int64
  | task => minTaskLimitMs
  | crontabResult | jsResult => minResultLimitMs

theorem limitKey_injective {a b : Target} (h : a.limitKey = b.limitKey) : a = b := by
  cases a <;> cases b <;> first | rfl | (revert h; decide)

end Target

def globalNamespace : String := "global"

/-- A JSON integer or a text that denotes one, not negative. -/
def parseLimitMs (value : Json) : Option Int64 :=
  let ms :=
    match value with
    | .num (.int n) => i64OfInt n
    | .str text => parseI64 (trim text)
    | _ => none
  ms.filter fun ms => 0 ≤ ms

abbrev Limits := AList fun _ : String × String => Int64

def loadLimit (limits : Limits) (row : Kv.Row) : Limits :=
  match Target.all.find? (·.limitKey == row.key) with
  | none => limits
  | some target =>
    match parseLimitMs row.value with
    | none => limits
    | some ms => if ms < target.minLimitMs then limits else limits.insert (row.ns, row.key) ms

def loadLimits (rows : List Kv.Row) : Limits := rows.foldl loadLimit ∅

def limitFor (limits : Limits) (ns : String) (target : Target) : Option Int64 :=
  limits.lookup (ns, target.limitKey)

/-! ### Tables -/

/-- The columns of `task` that the sweep reads. Rows are numbered from one. -/
structure TaskRow where
  id : Int64
  uuid : Uuid
  createdAt : Option Int64
  positive : 0 < id.toInt
deriving DecidableEq

/-- The columns of `crontab_result` and of `js_result` that the sweep reads: when it ran. -/
structure ResultRow where
  id : Int64
  time : Option Int64
deriving DecidableEq

structure Agent where
  uuid : Uuid
  softDelete : Bool
deriving DecidableEq

structure Database where
  task : IdTable TaskRow TaskRow.id
  crontabResult : IdTable ResultRow ResultRow.id
  jsResult : IdTable ResultRow ResultRow.id
  kv : Kv.KvTable
  agents : List Agent
  uniqueAgents : (agents.map (·.uuid)).Nodup

structure SweepReport where
  taskActive : Nat := 0
  taskSoftDeleted : Nat := 0
  taskLegacy : Nat := 0
  taskOrphan : Nat := 0
  agentsWithoutLimit : Nat := 0
  crontabResult : Nat := 0
  jsResult : Nat := 0
  errors : Nat := 0
deriving DecidableEq

def SweepReport.addAgent (report : SweepReport) (agent : Agent) (n : Nat) : SweepReport :=
  if agent.softDelete then {report with taskSoftDeleted := report.taskSoftDeleted + n}
  else {report with taskActive := report.taskActive + n}

def SweepReport.skipAgent (report : SweepReport) : SweepReport :=
  {report with agentsWithoutLimit := report.agentsWithoutLimit + 1}

/-! ### Conditions -/

/-- `time IS NOT NULL AND time < now - limit` -/
def olderThan (now limit : Int64) (time : Option Int64) : Bool := time.any (· < saturatingSubI64 now limit)

/-- The limit of an agent's tasks: its own, or else the global one. -/
def taskLimit (limits : Limits) (uuid : Uuid) : Option Int64 :=
  (limitFor limits (Uuid.text uuid) .task).or (limitFor limits globalNamespace .task)

/-- The tasks of an agent that go; none when it has no limit. -/
def agentFilter (limits : Limits) (now : Int64) (agent : Agent) : Option (TaskRow → Bool) :=
  if agent.softDelete then
    some fun r => r.uuid == agent.uuid && olderThan now softDeleteGraceMs r.createdAt
  else
    (taskLimit limits agent.uuid).map fun limit r => r.uuid == agent.uuid && olderThan now limit r.createdAt

def legacyFilter (maxId margin : Int64) (r : TaskRow) : Bool :=
  r.createdAt.isNone && r.id ≤ saturatingSubI64 maxId margin

def orphanFilter (now limit : Int64) (agents : List Agent) (r : TaskRow) : Bool :=
  olderThan now limit r.createdAt && agents.all (·.uuid != r.uuid)

/-! ### The sweep -/

/-- How far a sweep has come with the task table. -/
structure Progress where
  task : IdTable TaskRow TaskRow.id
  clock : Nat
  report : SweepReport

section
variable (fault : Nat → Bool) (dryRun : Bool)

/-- `purge_isolated`: a failed target is counted as an error and the sweep goes on. -/
def Progress.purgeTask (p : Progress) (cond : TaskRow → Bool) (count : SweepReport → Nat → SweepReport) : Progress :=
  let purged := purge fault dryRun cond p.task p.clock
  let report :=
    match purged.count with
    | some n => count p.report n
    | none => count {p.report with errors := p.report.errors + 1} 0
  ⟨purged.table, purged.clock, report⟩

def sweepAgent (limits : Limits) (now : Int64) (p : Progress) (agent : Agent) : Progress :=
  match agentFilter limits now agent with
  | none => {p with report := p.report.skipAgent}
  | some cond => p.purgeTask fault dryRun cond fun report n => report.addAgent agent n

def sweepAgents (limits : Limits) (now : Int64) (agents : List Agent) (p : Progress) : Progress :=
  agents.foldl (sweepAgent fault dryRun limits now) p

/-- `ORDER BY id DESC LIMIT 1` -/
def maxId (t : IdTable TaskRow TaskRow.id) : Option Int64 :=
  (t.matching (fun _ => true) none).getLast?.map (·.id)

def sweepLegacy (margin : Int64) (p : Progress) : Progress :=
  match maxId p.task with
  | none => p
  | some maxId => p.purgeTask fault dryRun (legacyFilter maxId margin) fun report n => {report with taskLegacy := n}

def sweepOrphans (limits : Limits) (now : Int64) (agents : List Agent) (p : Progress) : Progress :=
  match limitFor limits globalNamespace .task with
  | none => p
  | some limit =>
    if agents.isEmpty then p
    else p.purgeTask fault dryRun (orphanFilter now limit agents) fun report n => {report with taskOrphan := n}

/-- One of the result tables, when its limit is set. -/
def sweepResults (limits : Limits) (now : Int64) (target : Target) (t : IdTable ResultRow ResultRow.id)
    (clock : Nat) : Purged ResultRow ResultRow.id :=
  match limitFor limits globalNamespace target with
  | none => ⟨t, clock, some 0⟩
  | some limit => purge fault dryRun (fun r => olderThan now limit r.time) t clock

/-- The task table when the legacy step runs. -/
def afterAgents (db : Database) (now : Int64) : IdTable TaskRow TaskRow.id :=
  (sweepAgents fault dryRun (loadLimits db.kv.rows) now db.agents ⟨db.task, 2, {}⟩).task

/-- One sweep. The limits, the agents and the largest id are read by statements of their
own; when one of these fails the sweep ends without a report. -/
def sweepOnce (db : Database) (now margin : Int64) : Database × Option SweepReport :=
  let margin := max margin minLegacyIdMargin
  if fault 0 then (db, none)
  else
    let limits := loadLimits db.kv.rows
    if fault 1 then (db, none)
    else
      let p := sweepAgents fault dryRun limits now db.agents ⟨db.task, 2, {}⟩
      if fault p.clock then ({db with task := p.task}, none)
      else
        let p := sweepLegacy fault dryRun margin {p with clock := p.clock + 1}
        let p := sweepOrphans fault dryRun limits now db.agents p
        let crontab := sweepResults fault dryRun limits now .crontabResult db.crontabResult p.clock
        let js := sweepResults fault dryRun limits now .jsResult db.jsResult crontab.clock
        ({db with task := p.task, crontabResult := crontab.table, jsResult := js.table},
          some {p.report with
            crontabResult := crontab.count.getD 0
            jsResult := js.count.getD 0
            errors := p.report.errors + crontab.count.isNone.toNat + js.count.isNone.toNat})

end

/-! ### What a sweep reads -/

/-- Every limit that is used has passed its floor. -/
theorem minLimitMs_le {limits : Limits} {rows : List Kv.Row} {ns : String} {target : Target} {ms : Int64}
    (hlimits : ∀ {ms}, limitFor limits ns target = some ms → target.minLimitMs ≤ ms)
    (h : limitFor (rows.foldl loadLimit limits) ns target = some ms) : target.minLimitMs ≤ ms := by
  induction rows generalizing limits with
  | nil => exact hlimits h
  | cons row rest ih =>
    refine ih (fun {ms} h => ?_) h
    simp only [loadLimit] at h
    split at h
    next => exact hlimits h
    next found hfound =>
      split at h
      next => exact hlimits h
      next ms' _ =>
        split at h
        next => exact hlimits h
        next hfloor =>
          by_cases hrow : (ns, target.limitKey) = (row.ns, row.key)
          · have hkey : found.limitKey = row.key := by simpa using List.find?_some hfound
            obtain rfl := Target.limitKey_injective (hkey.trans (congrArg Prod.snd hrow).symm)
            rw [limitFor, hrow, AList.lookup_insert] at h
            cases h
            exact Int64.not_lt.mp hfloor
          · rw [limitFor, AList.lookup_insert_ne hrow] at h
            exact hlimits h

theorem minLimitMs_le_limitFor {rows : List Kv.Row} {ns : String} {target : Target} {ms : Int64}
    (h : limitFor (loadLimits rows) ns target = some ms) : target.minLimitMs.toInt ≤ ms.toInt :=
  Int64.le_iff_toInt_le.mp (minLimitMs_le (fun h => by cases h) h)

theorem le_taskLimit {rows : List Kv.Row} {uuid : Uuid} {ms : Int64}
    (h : taskLimit (loadLimits rows) uuid = some ms) : 600000 ≤ ms.toInt := by
  rcases Option.or_eq_some_iff.mp h with h | h
  · exact minLimitMs_le_limitFor h
  · exact minLimitMs_le_limitFor h.2

theorem olderThan_iff {now limit : Int64} {time : Option Int64} (hlimit : 0 ≤ limit.toInt) :
    olderThan now limit time = true ↔ ∃ t, time = some t ∧ t.toInt < now.toInt - limit.toInt := by
  simp [olderThan, Option.any_eq_true, lt_saturatingSubI64 hlimit]

theorem maxId_eq_some {t : IdTable TaskRow TaskRow.id} {m : Int64} (h : maxId t = some m) :
    ∃ last ∈ t.rows, last.id = m ∧ ∀ r ∈ t.rows, r.id.toInt ≤ last.id.toInt := by
  obtain ⟨last, hlast, rfl⟩ := Option.map_eq_some_iff.mp h
  have hperm : (t.matching (fun _ => true) none).Perm t.rows := by
    have hall : t.rows.filter (fun _ => true) = t.rows := List.filter_eq_self.mpr fun _ _ => rfl
    exact Keyset.after_none_perm.trans (.of_eq hall)
  refine ⟨last, hperm.mem_iff.mp (List.mem_of_getLast? hlast), rfl, fun r hr => ?_⟩
  exact Keyset.le_getLast (Keyset.after_strict (t.nodup_keys _) none) hlast (hperm.mem_iff.mpr hr)

/-! ### What a sweep deletes -/

theorem Removes.mono {ρ : Type} {id : ρ → Int64} {cond cond' : ρ → Bool} {t t' : IdTable ρ id}
    (h : Removes cond t t') (hcond : ∀ r, cond r = true → cond' r = true) : Removes cond' t t' :=
  ⟨h.subset, fun r hr hgone => hcond r (h.removed r hr hgone)⟩

/-- The row expires in the agents' pass. -/
def expired (limits : Limits) (now : Int64) (agents : List Agent) (r : TaskRow) : Bool :=
  agents.any fun agent => (agentFilter limits now agent).any fun cond => cond r

section
variable (fault : Nat → Bool) (dryRun : Bool) (limits : Limits) (now : Int64)

theorem sweepAgents_removes (agents : List Agent) (p : Progress) :
    Removes (expired limits now agents) p.task (sweepAgents fault dryRun limits now agents p).task := by
  induction agents generalizing p with
  | nil => exact .refl _ _
  | cons agent rest ih =>
    have hagent : Removes (expired limits now (agent :: rest)) p.task
        (sweepAgent fault dryRun limits now p agent).task := by
      simp only [sweepAgent]
      split
      next => exact .refl _ _
      next cond hcond =>
        refine (purge_removes p.task cond dryRun fault p.clock).mono fun r hr => ?_
        simp [expired, hcond, hr]
    refine hagent.trans ((ih _).mono fun r hr => ?_)
    exact List.any_cons.trans (Bool.or_eq_true_iff.mpr (.inr hr))

theorem sweepLegacy_removes (margin : Int64) (p : Progress) :
    Removes (fun r => (maxId p.task).any fun m => legacyFilter m margin r) p.task
      (sweepLegacy fault dryRun margin p).task := by
  simp only [sweepLegacy]
  split
  next => exact .refl _ _
  next m hm => exact (purge_removes ..).mono fun r hr => by simpa [hm] using hr

theorem sweepOrphans_removes (agents : List Agent) (p : Progress) :
    Removes (fun r => (limitFor limits globalNamespace .task).any fun limit => orphanFilter now limit agents r)
      p.task (sweepOrphans fault dryRun limits now agents p).task := by
  simp only [sweepOrphans]
  split
  next => exact .refl _ _
  next limit hlimit =>
    split
    next => exact .refl _ _
    next => exact (purge_removes ..).mono fun r hr => by simpa [hlimit] using hr

theorem sweepResults_removes (target : Target) (t : IdTable ResultRow ResultRow.id) (clock : Nat) :
    Removes (fun r => (limitFor limits globalNamespace target).any fun limit => olderThan now limit r.time)
      t (sweepResults fault dryRun limits now target t clock).table := by
  simp only [sweepResults]
  split
  next => exact .refl _ _
  next limit hlimit => exact (purge_removes ..).mono fun r hr => by simpa [hlimit] using hr

end

/-- What a sweep removes from each table, wherever it stops. -/
structure Swept (limits : Limits) (now margin : Int64) (mid : IdTable TaskRow TaskRow.id) (db db' : Database) :
    Prop where
  task : ∀ r ∈ db.task.rows, r ∉ db'.task.rows →
    expired limits now db.agents r = true ∨
    ((maxId mid).any fun m => legacyFilter m (max margin minLegacyIdMargin) r) = true ∨
    ((limitFor limits globalNamespace .task).any fun limit => orphanFilter now limit db.agents r) = true
  crontabResult : Removes (fun r => (limitFor limits globalNamespace .crontabResult).any fun limit =>
    olderThan now limit r.time) db.crontabResult db'.crontabResult
  jsResult : Removes (fun r => (limitFor limits globalNamespace .jsResult).any fun limit =>
    olderThan now limit r.time) db.jsResult db'.jsResult

theorem sweepOnce_swept (fault : Nat → Bool) (dryRun : Bool) (db : Database) (now margin : Int64) :
    Swept (loadLimits db.kv.rows) now margin (afterAgents fault dryRun db now) db
      (sweepOnce fault dryRun db now margin).1 := by
  have hagents := sweepAgents_removes fault dryRun (loadLimits db.kv.rows) now db.agents ⟨db.task, 2, {}⟩
  simp only [sweepOnce]
  split
  next => exact ⟨fun r hr hgone => absurd hr hgone, .refl _ _, .refl _ _⟩
  next =>
    split
    next => exact ⟨fun r hr hgone => absurd hr hgone, .refl _ _, .refl _ _⟩
    next =>
      split
      next => exact ⟨fun r hr hgone => .inl (hagents.removed r hr hgone), .refl _ _, .refl _ _⟩
      next =>
        refine ⟨fun r hr hgone => ?_, sweepResults_removes .., sweepResults_removes ..⟩
        by_cases hmid : r ∈ (afterAgents fault dryRun db now).rows
        · right
          generalize hlegacy : sweepLegacy fault dryRun _ _ = legacy at hgone
          have hleft := sweepLegacy_removes fault dryRun (max margin minLegacyIdMargin)
            {sweepAgents fault dryRun (loadLimits db.kv.rows) now db.agents ⟨db.task, 2, {}⟩ with
              clock := (sweepAgents fault dryRun (loadLimits db.kv.rows) now db.agents ⟨db.task, 2, {}⟩).clock + 1}
          rw [hlegacy] at hleft
          by_cases hr' : r ∈ legacy.task.rows
          · exact .inr ((sweepOrphans_removes fault dryRun _ now db.agents legacy).removed r hr' hgone)
          · exact .inl (hleft.removed r hmid hr')
        · exact .inl (hagents.removed r hr hmid)

/-- Why a task created at `t` may go. -/
inductive Due (limits : Limits) (now : Int64) (agents : List Agent) (uuid : Uuid) (t : Int64) : Prop
  | active (agent : Agent) (hagent : agent ∈ agents) (huuid : agent.uuid = uuid) (hactive : agent.softDelete = false)
      (limit : Int64) (hlimit : taskLimit limits uuid = some limit) (hold : t.toInt < now.toInt - limit.toInt)
  | softDeleted (agent : Agent) (hagent : agent ∈ agents) (huuid : agent.uuid = uuid)
      (hdeleted : agent.softDelete = true) (hold : t.toInt < now.toInt - 600000)
  | orphan (hunregistered : ∀ agent ∈ agents, agent.uuid ≠ uuid) (limit : Int64)
      (hlimit : limitFor limits globalNamespace .task = some limit) (hold : t.toInt < now.toInt - limit.toInt)

section
variable {kv : List Kv.Row} {now : Int64} {agents : List Agent} {r : TaskRow}

theorem due_of_expired (h : expired (loadLimits kv) now agents r = true) :
    ∃ t, r.createdAt = some t ∧ Due (loadLimits kv) now agents r.uuid t := by
  obtain ⟨agent, hagent, hfilter⟩ := List.any_eq_true.mp h
  obtain ⟨cond, hcond, hr⟩ := (Option.any_eq_true _ _).mp hfilter
  simp only [agentFilter] at hcond
  split at hcond
  next hdeleted =>
    cases hcond
    obtain ⟨huuid, hold⟩ := Bool.and_eq_true_iff.mp hr
    obtain ⟨t, ht, hlt⟩ := (olderThan_iff (by decide)).mp hold
    exact ⟨t, ht, .softDeleted agent hagent (beq_iff_eq.mp huuid).symm hdeleted hlt⟩
  next hactive =>
    obtain ⟨limit, hlimit, rfl⟩ := Option.map_eq_some_iff.mp hcond
    obtain ⟨huuid, hold⟩ := Bool.and_eq_true_iff.mp hr
    have hfloor := le_taskLimit hlimit
    obtain ⟨t, ht, hlt⟩ := (olderThan_iff (by omega)).mp hold
    have huuid : agent.uuid = r.uuid := (beq_iff_eq.mp huuid).symm
    exact ⟨t, ht, .active agent hagent huuid (by simpa using hactive) limit (huuid ▸ hlimit) hlt⟩

theorem due_of_orphan
    (h : ((limitFor (loadLimits kv) globalNamespace .task).any fun limit => orphanFilter now limit agents r) = true) :
    ∃ t, r.createdAt = some t ∧ Due (loadLimits kv) now agents r.uuid t := by
  obtain ⟨limit, hlimit, hr⟩ := (Option.any_eq_true _ _).mp h
  obtain ⟨hold, hall⟩ := Bool.and_eq_true_iff.mp hr
  have hfloor : 600000 ≤ limit.toInt := minLimitMs_le_limitFor hlimit
  obtain ⟨t, ht, hlt⟩ := (olderThan_iff (by omega)).mp hold
  refine ⟨t, ht, .orphan (fun agent hagent => ?_) limit hlimit hlt⟩
  simpa using List.all_eq_true.mp hall agent hagent

/-- All limits have floors, so what is due is old. -/
theorem Due.old {uuid : Uuid} {t : Int64} (h : Due (loadLimits kv) now agents uuid t) :
    t.toInt < now.toInt - 600000 := by
  cases h with
  | active agent hagent huuid hactive limit hlimit hold =>
    have := le_taskLimit hlimit
    omega
  | softDeleted agent hagent huuid hdeleted hold => exact hold
  | orphan hunregistered limit hlimit hold =>
    have : 600000 ≤ limit.toInt := minLimitMs_le_limitFor hlimit
    omega

/-- A registered agent that is not soft-deleted loses tasks only to a limit. -/
theorem Due.limited {limits : Limits} (hunique : (agents.map (·.uuid)).Nodup) {agent : Agent}
    (hagent : agent ∈ agents) (hactive : agent.softDelete = false) {t : Int64}
    (h : Due limits now agents agent.uuid t) : (taskLimit limits agent.uuid).isSome = true := by
  cases h with
  | active agent' hagent' huuid hactive' limit hlimit hold => exact Option.isSome_of_eq_some hlimit
  | softDeleted agent' hagent' huuid hdeleted hold =>
    rw [List.inj_on_of_nodup_map hunique hagent' hagent huuid, hactive] at hdeleted
    cases hdeleted
  | orphan hunregistered limit hlimit hold => exact absurd rfl (hunregistered agent hagent)

theorem legacy_below {mid : IdTable TaskRow TaskRow.id} {margin : Int64}
    (h : ((maxId mid).any fun m => legacyFilter m (max margin minLegacyIdMargin) r) = true) :
    r.createdAt = none ∧ ∃ last ∈ mid.rows, (∀ x ∈ mid.rows, x.id.toInt ≤ last.id.toInt) ∧
      r.id.toInt ≤ last.id.toInt - 1000 := by
  obtain ⟨m, hm, hr⟩ := (Option.any_eq_true _ _).mp h
  obtain ⟨hnone, hid⟩ := Bool.and_eq_true_iff.mp hr
  obtain ⟨last, hlast, rfl, hmax⟩ := maxId_eq_some hm
  refine ⟨by simpa using hnone, last, hlast, hmax, ?_⟩
  have hmargin : 1000 ≤ (max margin minLegacyIdMargin).toInt := Int64.le_iff_toInt_le.mp Std.right_le_max
  have hle := Int64.le_iff_toInt_le.mp (of_decide_eq_true hid)
  have hlast := last.positive
  have hr := r.positive
  have := (max margin minLegacyIdMargin).toInt_lt
  rw [toInt_saturatingSubI64] at hle
  simp only [i64Min, i64Max] at hle
  omega

end

/-- What may be gone after a sweep. -/
structure Safe (limits : Limits) (now : Int64) (mid : IdTable TaskRow TaskRow.id) (db db' : Database) : Prop where
  /-- A task with a creation time has a reason to go, and is older than ten minutes. -/
  task : ∀ r ∈ db.task.rows, r ∉ db'.task.rows → ∀ t, r.createdAt = some t →
    Due limits now db.agents r.uuid t ∧ t.toInt < now.toInt - 600000
  /-- No agent without a limit loses such a task. -/
  limited : ∀ r ∈ db.task.rows, r ∉ db'.task.rows → r.createdAt ≠ none →
    ∀ agent ∈ db.agents, agent.uuid = r.uuid → agent.softDelete = false → (taskLimit limits agent.uuid).isSome = true
  /-- A legacy task lies at least a thousand below the largest id. -/
  legacy : ∀ r ∈ db.task.rows, r ∉ db'.task.rows → r.createdAt = none →
    ∃ last ∈ mid.rows, (∀ x ∈ mid.rows, x.id.toInt ≤ last.id.toInt) ∧ r.id.toInt ≤ last.id.toInt - 1000
  /-- A result has a time, and is older than an hour. -/
  crontabResult : ∀ r ∈ db.crontabResult.rows, r ∉ db'.crontabResult.rows →
    ∃ t, r.time = some t ∧ t.toInt < now.toInt - 3600000
  jsResult : ∀ r ∈ db.jsResult.rows, r ∉ db'.jsResult.rows →
    ∃ t, r.time = some t ∧ t.toInt < now.toInt - 3600000

theorem result_old {kv : List Kv.Row} {now : Int64} {target : Target} (hfloor : target.minLimitMs = minResultLimitMs)
    {t t' : IdTable ResultRow ResultRow.id}
    (h : Removes (fun r => (limitFor (loadLimits kv) globalNamespace target).any fun limit =>
      olderThan now limit r.time) t t') :
    ∀ r ∈ t.rows, r ∉ t'.rows → ∃ time, r.time = some time ∧ time.toInt < now.toInt - 3600000 := by
  intro r hr hgone
  obtain ⟨limit, hlimit, hold⟩ := (Option.any_eq_true _ _).mp (h.removed r hr hgone)
  have hle : 3600000 ≤ limit.toInt := by
    have hle := minLimitMs_le_limitFor hlimit
    rwa [hfloor] at hle
  obtain ⟨time, htime, hlt⟩ := (olderThan_iff (by omega)).mp hold
  exact ⟨time, htime, by omega⟩

/-- **What a sweep deletes**, whatever statements fail: tasks past the limit of their agent,
past the grace of a soft-deleted agent, or of no registered agent and past the global limit;
legacy tasks a thousand ids below the largest; results past their limit. -/
theorem sweep_deletes (fault : Nat → Bool) (db : Database) (now margin : Int64) :
    Safe (loadLimits db.kv.rows) now (afterAgents fault false db now) db
      (sweepOnce fault false db now margin).1 := by
  have hswept := sweepOnce_swept fault false db now margin
  have hcases : ∀ r ∈ db.task.rows, r ∉ (sweepOnce fault false db now margin).1.task.rows →
      (∃ t, r.createdAt = some t ∧ Due (loadLimits db.kv.rows) now db.agents r.uuid t) ∨
      (r.createdAt = none ∧ ∃ last ∈ (afterAgents fault false db now).rows,
        (∀ x ∈ (afterAgents fault false db now).rows, x.id.toInt ≤ last.id.toInt) ∧
        r.id.toInt ≤ last.id.toInt - 1000) := by
    intro r hr hgone
    rcases hswept.task r hr hgone with h | h | h
    · exact .inl (due_of_expired h)
    · exact .inr (legacy_below h)
    · exact .inl (due_of_orphan h)
  refine ⟨fun r hr hgone t ht => ?_, fun r hr hgone hknown agent hagent huuid hactive => ?_,
    fun r hr hgone hnone => ?_, result_old rfl hswept.crontabResult, result_old rfl hswept.jsResult⟩
  · obtain ⟨t', ht', hdue⟩ | ⟨hnone, _⟩ := hcases r hr hgone
    · cases ht.symm.trans ht'
      exact ⟨hdue, hdue.old⟩
    · cases ht.symm.trans hnone
  · obtain ⟨t', ht', hdue⟩ | ⟨hnone, _⟩ := hcases r hr hgone
    · exact Due.limited db.uniqueAgents hagent hactive (huuid ▸ hdue)
    · exact absurd hnone hknown
  · obtain ⟨t', ht', hdue⟩ | ⟨_, hlast⟩ := hcases r hr hgone
    · cases ht'.symm.trans hnone
    · exact hlast

/-- An agent without any limit, a legacy task of it and a new one. -/
def unlimitedAgent : Database where
  task := ⟨[⟨1, 7, none, by decide⟩, ⟨1001, 7, some 5000000, by decide⟩], by decide⟩
  crontabResult := ⟨[], List.nodup_nil⟩
  jsResult := ⟨[], List.nodup_nil⟩
  kv := .empty
  agents := [⟨7, false⟩]
  uniqueAgents := by decide

/-- The legacy task goes although its agent has no limit, and although its id is within a
thousand of the largest: the distance of exactly a thousand is not kept. -/
theorem unlimited_legacy_deleted :
    (sweepOnce (fun _ => false) false unlimitedAgent 5000000 0).1.task.rows =
        [⟨1001, 7, some 5000000, by decide⟩] ∧
      taskLimit (loadLimits unlimitedAgent.kv.rows) 7 = none := by
  decide +kernel

end NodeGet.Task.Retention
