import NodeGet.Task.Retention

/-! Whether a dry run predicts the sweep (`ng-task/src/retention.rs`, `sweep_once`).

Without failures both reports are counted from the table the sweep starts with
(`sweepOnce_report`), except for the legacy tasks: the real sweep looks for the largest id
after the agents' pass has deleted rows, the dry run before. When the newest rows expire,
the real sweep's boundary is lower and fewer legacy tasks lie below it. -/
namespace NodeGet.Task.Retention
open NodeGet.Core NodeGet.Data

/-! ### One target -/

section
variable {ρ : Type} {id : ρ → Int64}

/-- What a purge leaves. -/
def IdTable.purged (t : IdTable ρ id) (dryRun : Bool) (cond : ρ → Bool) : IdTable ρ id :=
  if dryRun then t else t.without cond

variable (t : IdTable ρ id) (dryRun : Bool)

theorem purged_purged (cond cond' : ρ → Bool) :
    (t.purged dryRun cond).purged dryRun cond' = t.purged dryRun fun r => cond r || cond' r := by
  cases dryRun with
  | true => rfl
  | false =>
    ext1
    show (t.rows.filter _).filter _ = t.rows.filter _
    simp [List.filter_filter, Bool.and_comm]

theorem purged_false : t.purged dryRun (fun _ => false) = t := by
  cases dryRun with
  | true => rfl
  | false =>
    ext1
    exact List.filter_eq_self.mpr fun _ _ => rfl

theorem purged_subset (cond : ρ → Bool) : (t.purged dryRun cond).rows ⊆ t.rows := by
  cases dryRun with
  | true => exact List.Subset.refl _
  | false => exact List.filter_subset_self _

variable {t dryRun} {cond : ρ → Bool}

/-- A purge does not show to a condition that shares no row with it. -/
theorem filter_purged {cond' : ρ → Bool} (h : ∀ r, cond' r = true → cond r = false) :
    (t.purged dryRun cond).rows.filter cond' = t.rows.filter cond' := by
  cases dryRun with
  | true => rfl
  | false =>
    show (t.rows.filter _).filter cond' = _
    rw [List.filter_filter]
    refine List.filter_congr fun r _ => ?_
    cases hr : cond' r with
    | false => rfl
    | true => simp [h r hr]

theorem purge_table (hlen : (t.rows.filter cond).length < 1000000) (dryRun : Bool) (clock : Nat) :
    (purge (fun _ => false) dryRun cond t clock).table = t.purged dryRun cond := by
  ext1
  rw [(purge_complete t cond dryRun clock hlen).2]
  cases dryRun <;> rfl

end

variable {p : Progress} {margin now : Int64} {limits : Limits} {t : IdTable TaskRow TaskRow.id} {r : TaskRow}

theorem purgeTask_complete {cond : TaskRow → Bool} (hlen : (p.task.rows.filter cond).length < 1000000) (dryRun : Bool)
    (count : SweepReport → Nat → SweepReport) :
    (p.purgeTask (fun _ => false) dryRun cond count).task = p.task.purged dryRun cond ∧
    (p.purgeTask (fun _ => false) dryRun cond count).report = count p.report (p.task.rows.filter cond).length := by
  refine ⟨purge_table hlen dryRun p.clock, ?_⟩
  simp only [Progress.purgeTask, (purge_complete p.task cond dryRun p.clock hlen).1]

/-! ### The agents' pass -/

section
variable (limits : Limits) (now : Int64)

/-- What the agents' pass counts for one agent in a table that no other agent touches. -/
def countAgent (rows : List TaskRow) (report : SweepReport) (agent : Agent) : SweepReport :=
  match agentFilter limits now agent with
  | none => report.skipAgent
  | some cond => report.addAgent agent (rows.filter cond).length

/-- The agents' pass reports only what it counts. -/
theorem foldl_countAgent (rows : List TaskRow) (agents : List Agent) (report : SweepReport) :
    (agents.foldl (countAgent limits now rows) report).taskLegacy = report.taskLegacy ∧
    (agents.foldl (countAgent limits now rows) report).taskOrphan = report.taskOrphan ∧
    (agents.foldl (countAgent limits now rows) report).errors = report.errors := by
  induction agents generalizing report with
  | nil => exact ⟨rfl, rfl, rfl⟩
  | cons agent rest ih =>
    have hagent : (countAgent limits now rows report agent).taskLegacy = report.taskLegacy ∧
        (countAgent limits now rows report agent).taskOrphan = report.taskOrphan ∧
        (countAgent limits now rows report agent).errors = report.errors := by
      simp only [countAgent]
      split
      next => exact ⟨rfl, rfl, rfl⟩
      next =>
        rw [SweepReport.addAgent]
        split <;> exact ⟨rfl, rfl, rfl⟩
    rw [List.foldl_cons, ← hagent.1, ← hagent.2.1, ← hagent.2.2]
    exact ih _

variable {limits now}

variable {agent : Agent} {r : TaskRow} {t : IdTable TaskRow TaskRow.id}

theorem uuid_of_agentFilter {cond : TaskRow → Bool} (h : agentFilter limits now agent = some cond) (hr : cond r = true) :
    r.uuid = agent.uuid := by
  simp only [agentFilter] at h
  split at h
  next =>
    cases h
    exact beq_iff_eq.mp (Bool.and_eq_true_iff.mp hr).1
  next =>
    obtain ⟨limit, _, rfl⟩ := Option.map_eq_some_iff.mp h
    exact beq_iff_eq.mp (Bool.and_eq_true_iff.mp hr).1

theorem uuid_of_expired {agents : List Agent} (h : expired limits now agents r = true) :
    r.uuid ∈ agents.map (·.uuid) := by
  obtain ⟨agent, hagent, hfilter⟩ := List.any_eq_true.mp h
  obtain ⟨cond, hcond, hr⟩ := (Option.any_eq_true _ _).mp hfilter
  exact List.mem_map.mpr ⟨agent, hagent, (uuid_of_agentFilter hcond hr).symm⟩

theorem expired_concat (done : List Agent) (agent : Agent) :
    expired limits now (done ++ [agent]) = fun r =>
      expired limits now done r || (agentFilter limits now agent).any fun cond => cond r := by
  funext r
  simp [expired]

/-- Rows of one agent are no other agent's, so an agent's rows are counted as if the pass
started with it. -/
theorem sweepAgent_complete (dryRun : Bool) {done : List Agent} (hnew : agent.uuid ∉ done.map (·.uuid))
    (hfew : ∀ cond, agentFilter limits now agent = some cond → (t.rows.filter cond).length < 1000000)
    (htask : p.task = t.purged dryRun (expired limits now done)) :
    (sweepAgent (fun _ => false) dryRun limits now p agent).task =
      t.purged dryRun (expired limits now (done ++ [agent])) ∧
    (sweepAgent (fun _ => false) dryRun limits now p agent).report =
      countAgent limits now t.rows p.report agent := by
  rw [expired_concat]
  simp only [sweepAgent, countAgent]
  cases hcond : agentFilter limits now agent with
  | none => exact ⟨by simpa using htask, rfl⟩
  | some cond =>
    have hrows : p.task.rows.filter cond = t.rows.filter cond := by
      rw [htask]
      refine filter_purged fun r hr => Bool.eq_false_iff.mpr fun hdone => hnew ?_
      rw [← uuid_of_agentFilter hcond hr]
      exact uuid_of_expired hdone
    obtain ⟨htable, hreport⟩ := purgeTask_complete (hrows ▸ hfew cond hcond) dryRun fun report n =>
      report.addAgent agent n
    rw [hrows] at hreport
    refine ⟨?_, hreport⟩
    show (p.purgeTask (fun _ => false) dryRun cond _).task = _
    rw [htable, htask, purged_purged]
    rfl

theorem sweepAgents_complete (dryRun : Bool) (rest : List Agent) (p : Progress) (done : List Agent)
    (hunique : ((done ++ rest).map (·.uuid)).Nodup)
    (hfew : ∀ agent ∈ rest, ∀ cond, agentFilter limits now agent = some cond → (t.rows.filter cond).length < 1000000)
    (htask : p.task = t.purged dryRun (expired limits now done)) :
    (sweepAgents (fun _ => false) dryRun limits now rest p).task =
      t.purged dryRun (expired limits now (done ++ rest)) ∧
    (sweepAgents (fun _ => false) dryRun limits now rest p).report =
      rest.foldl (countAgent limits now t.rows) p.report := by
  induction rest generalizing p done with
  | nil =>
    rw [List.append_nil]
    exact ⟨htask, rfl⟩
  | cons agent rest ih =>
    have hnew : agent.uuid ∉ done.map (·.uuid) := by
      rw [List.map_append, List.nodup_append] at hunique
      exact fun hmem => hunique.2.2 _ hmem agent.uuid List.mem_cons_self rfl
    obtain ⟨htable, hreport⟩ := sweepAgent_complete dryRun hnew (hfew agent List.mem_cons_self) htask
    rw [← List.singleton_append, ← List.append_assoc] at hunique ⊢
    obtain ⟨htable', hreport'⟩ := ih (sweepAgent (fun _ => false) dryRun limits now p agent) (done ++ [agent]) hunique
      (fun agent' hagent' => hfew agent' (List.mem_cons_of_mem _ hagent')) htable
    rw [hreport] at hreport'
    exact ⟨htable', hreport'⟩

end

/-! ### The reports -/

/-- The legacy tasks of a table. -/
def isLegacy (t : IdTable TaskRow TaskRow.id) (margin : Int64) (r : TaskRow) : Bool :=
  (maxId t).any fun m => legacyFilter m margin r

/-- The tasks of unregistered agents that go. -/
def isOrphan (limits : Limits) (now : Int64) (agents : List Agent) (r : TaskRow) : Bool :=
  !agents.isEmpty && (limitFor limits globalNamespace .task).any fun limit => orphanFilter now limit agents r

def isOldResult (limits : Limits) (now : Int64) (target : Target) (r : ResultRow) : Bool :=
  (limitFor limits globalNamespace target).any fun limit => olderThan now limit r.time

/-- Fewer rows match each target than fit in a purge's chunks. -/
structure FewRows (db : Database) (now margin : Int64) : Prop where
  agents : ∀ agent ∈ db.agents, ∀ cond, agentFilter (loadLimits db.kv.rows) now agent = some cond →
    (db.task.rows.filter cond).length < 1000000
  legacy : (db.task.rows.filter (isLegacy db.task (max margin minLegacyIdMargin))).length < 1000000
  orphans : (db.task.rows.filter (isOrphan (loadLimits db.kv.rows) now db.agents)).length < 1000000
  crontabResult :
    (db.crontabResult.rows.filter (isOldResult (loadLimits db.kv.rows) now .crontabResult)).length < 1000000
  jsResult : (db.jsResult.rows.filter (isOldResult (loadLimits db.kv.rows) now .jsResult)).length < 1000000

/-! A target is skipped when none of its rows can match; otherwise the rows it purges are those
its condition names. -/

theorem sweepLegacy_complete (dryRun : Bool) (hlen : (p.task.rows.filter (isLegacy p.task margin)).length < 1000000)
    (hzero : p.report.taskLegacy = 0) :
    (sweepLegacy (fun _ => false) dryRun margin p).task = p.task.purged dryRun (isLegacy p.task margin) ∧
    (sweepLegacy (fun _ => false) dryRun margin p).report =
      {p.report with taskLegacy := (p.task.rows.filter (isLegacy p.task margin)).length} := by
  simp only [sweepLegacy]
  cases hmax : maxId p.task with
  | none =>
    have hnone : isLegacy p.task margin = fun _ => false := funext fun r => by simp [isLegacy, hmax]
    rw [hnone, purged_false, List.filter_false, List.length_nil, ← hzero]
    exact ⟨rfl, rfl⟩
  | some m =>
    have hlegacy : isLegacy p.task margin = legacyFilter m margin := funext fun r => by simp [isLegacy, hmax]
    rw [hlegacy] at hlen ⊢
    exact purgeTask_complete hlen dryRun _

theorem sweepOrphans_complete {agents : List Agent} (dryRun : Bool)
    (hlen : (p.task.rows.filter (isOrphan limits now agents)).length < 1000000) (hzero : p.report.taskOrphan = 0) :
    (sweepOrphans (fun _ => false) dryRun limits now agents p).task = p.task.purged dryRun (isOrphan limits now agents) ∧
    (sweepOrphans (fun _ => false) dryRun limits now agents p).report =
      {p.report with taskOrphan := (p.task.rows.filter (isOrphan limits now agents)).length} := by
  have hskip (hnone : isOrphan limits now agents = fun _ => false) :
      p.task = p.task.purged dryRun (isOrphan limits now agents) ∧
      p.report = {p.report with taskOrphan := (p.task.rows.filter (isOrphan limits now agents)).length} := by
    rw [hnone, purged_false, List.filter_false, List.length_nil, ← hzero]
    exact ⟨rfl, rfl⟩
  simp only [sweepOrphans]
  cases hlimit : limitFor limits globalNamespace .task with
  | none => exact hskip (funext fun r => by simp [isOrphan, hlimit])
  | some limit =>
    cases hempty : agents.isEmpty with
    | true => exact hskip (funext fun r => by simp [isOrphan, hempty])
    | false =>
      have horphan : isOrphan limits now agents = orphanFilter now limit agents :=
        funext fun r => by simp [isOrphan, hlimit, hempty]
      rw [horphan] at hlen ⊢
      exact purgeTask_complete hlen dryRun fun report n => {report with taskOrphan := n}

theorem sweepResults_complete {target : Target} {t : IdTable ResultRow ResultRow.id} (dryRun : Bool) (clock : Nat)
    (hlen : (t.rows.filter (isOldResult limits now target)).length < 1000000) :
    (sweepResults (fun _ => false) dryRun limits now target t clock).table =
      t.purged dryRun (isOldResult limits now target) ∧
    (sweepResults (fun _ => false) dryRun limits now target t clock).count =
      some (t.rows.filter (isOldResult limits now target)).length := by
  simp only [sweepResults]
  cases hlimit : limitFor limits globalNamespace target with
  | none =>
    have hnone : isOldResult limits now target = fun _ => false := funext fun r => by simp [isOldResult, hlimit]
    rw [hnone, purged_false, List.filter_false, List.length_nil]
    exact ⟨rfl, rfl⟩
  | some limit =>
    have hold : isOldResult limits now target = fun r => olderThan now limit r.time :=
      funext fun r => by simp [isOldResult, hlimit]
    rw [hold] at hlen ⊢
    exact ⟨purge_table hlen dryRun clock, (purge_complete t _ dryRun clock hlen).1⟩

theorem maxId_isSome (hr : r ∈ t.rows) : (maxId t).isSome = true := by
  have hmem : r ∈ t.matching (fun _ => true) none :=
    Keyset.mem_after.mpr ⟨List.mem_filter.mpr ⟨hr, rfl⟩, rfl⟩
  rw [maxId, Option.isSome_map, List.getLast?_eq_some_getLast (List.ne_nil_of_mem hmem), Option.isSome_some]

/-- A legacy task lies at least the margin below some row. -/
theorem isLegacy_iff (hmargin : 0 ≤ margin.toInt) :
    isLegacy t margin r = true ↔ r.createdAt = none ∧ ∃ x ∈ t.rows, r.id.toInt ≤ x.id.toInt - margin.toInt := by
  have hbelow (x : TaskRow) : r.id ≤ saturatingSubI64 x.id margin ↔ r.id.toInt ≤ x.id.toInt - margin.toInt := by
    have := r.positive
    have := x.positive
    have := x.id.toInt_lt
    have := margin.toInt_lt
    rw [Int64.le_iff_toInt_le, toInt_saturatingSubI64]
    simp only [i64Min, i64Max]
    omega
  constructor
  · intro h
    obtain ⟨m, hm, hr⟩ := (Option.any_eq_true _ _).mp h
    obtain ⟨last, hlast, rfl, _⟩ := maxId_eq_some hm
    obtain ⟨hnone, hid⟩ := Bool.and_eq_true_iff.mp hr
    exact ⟨by simpa using hnone, last, hlast, (hbelow last).mp (of_decide_eq_true hid)⟩
  · intro h
    obtain ⟨hnone, x, hx, hid⟩ := h
    obtain ⟨m, hm⟩ := Option.isSome_iff_exists.mp (maxId_isSome hx)
    obtain ⟨last, _, rfl, hmax⟩ := maxId_eq_some hm
    have := hmax x hx
    have hle := (hbelow last).mpr (by omega)
    simp [isLegacy, hm, legacyFilter, hnone, hle]

/-- With fewer rows fewer tasks lie below the boundary. -/
theorem isLegacy_mono {t' : IdTable TaskRow TaskRow.id} (hmargin : 0 ≤ margin.toInt) (hsub : t'.rows ⊆ t.rows)
    (h : isLegacy t' margin r = true) : isLegacy t margin r = true := by
  obtain ⟨hnone, x, hx, hid⟩ := (isLegacy_iff hmargin).mp h
  exact (isLegacy_iff hmargin).mpr ⟨hnone, x, hsub hx, hid⟩

theorem legacyMargin_nonneg (margin : Int64) : 0 ≤ (max margin minLegacyIdMargin).toInt :=
  Int.le_trans (by decide) (Int64.le_iff_toInt_le.mp Std.right_le_max)

/-- The report of a sweep that counts `legacy` legacy tasks: all else is counted in the
table the sweep starts with. -/
def reportOf (db : Database) (now : Int64) (legacy : Nat) : SweepReport :=
  let limits := loadLimits db.kv.rows
  {db.agents.foldl (countAgent limits now db.task.rows) {} with
    taskLegacy := legacy
    taskOrphan := (db.task.rows.filter (isOrphan limits now db.agents)).length
    crontabResult := (db.crontabResult.rows.filter (isOldResult limits now .crontabResult)).length
    jsResult := (db.jsResult.rows.filter (isOldResult limits now .jsResult)).length}

section
variable {db : Database} {now margin : Int64}

variable {r : TaskRow}

theorem not_expired_of_null (h : r.createdAt = none) : expired (loadLimits db.kv.rows) now db.agents r = false := by
  refine Bool.eq_false_iff.mpr fun hexpired => ?_
  obtain ⟨t, ht, _⟩ := due_of_expired hexpired
  cases h.symm.trans ht

theorem not_removed_of_isOrphan (h : isOrphan limits now db.agents r = true) :
    (expired limits now db.agents r || isLegacy t margin r) = false := by
  obtain ⟨_, horphan⟩ := Bool.and_eq_true_iff.mp h
  obtain ⟨limit, _, hr⟩ := (Option.any_eq_true _ _).mp horphan
  obtain ⟨hold, hall⟩ := Bool.and_eq_true_iff.mp hr
  have hexpired : expired limits now db.agents r = false := by
    refine Bool.eq_false_iff.mpr fun hexpired => ?_
    obtain ⟨agent, hagent, huuid⟩ := List.mem_map.mp (uuid_of_expired hexpired)
    simpa [huuid] using List.all_eq_true.mp hall agent hagent
  have hlegacy : isLegacy t margin r = false := by
    cases hcreated : r.createdAt with
    | none => simp [olderThan, hcreated] at hold
    | some _ => simp [isLegacy, legacyFilter, hcreated]
  rw [hexpired, hlegacy, Bool.or_false]

/-- The task table when the legacy step runs, in a sweep without failures. -/
def midTable (db : Database) (now : Int64) (dryRun : Bool) : IdTable TaskRow TaskRow.id :=
  db.task.purged dryRun (expired (loadLimits db.kv.rows) now db.agents)

/-- Legacy tasks never expire, and the boundary only moves down. -/
theorem legacy_mid (hmargin : 0 ≤ margin.toInt) (dryRun : Bool) :
    (midTable db now dryRun).rows.filter (isLegacy (midTable db now dryRun) margin) =
      db.task.rows.filter (isLegacy (midTable db now dryRun) margin) :=
  filter_purged fun _ hr => not_expired_of_null ((isLegacy_iff hmargin).mp hr).1

theorem isLegacy_of_mid (hmargin : 0 ≤ margin.toInt) {dryRun : Bool}
    (h : isLegacy (midTable db now dryRun) margin r = true) : isLegacy db.task margin r = true :=
  isLegacy_mono hmargin (purged_subset _ _ _) h

/-- The tasks that a sweep without failures deletes. -/
def isSwept (db : Database) (now margin : Int64) (dryRun : Bool) (r : TaskRow) : Bool :=
  (expired (loadLimits db.kv.rows) now db.agents r ||
    isLegacy (midTable db now dryRun) (max margin minLegacyIdMargin) r) ||
    isOrphan (loadLimits db.kv.rows) now db.agents r

/-- A sweep without failures, as a whole: which rows it leaves and what it reports. -/
theorem sweepOnce_complete (hfew : FewRows db now margin) (dryRun : Bool) :
    sweepOnce (fun _ => false) dryRun db now margin =
      ({db with
        task := db.task.purged dryRun (isSwept db now margin dryRun)
        crontabResult := db.crontabResult.purged dryRun (isOldResult (loadLimits db.kv.rows) now .crontabResult)
        jsResult := db.jsResult.purged dryRun (isOldResult (loadLimits db.kv.rows) now .jsResult)},
      some (reportOf db now
        (db.task.rows.filter (isLegacy (midTable db now dryRun) (max margin minLegacyIdMargin))).length)) := by
  have hmargin := legacyMargin_nonneg margin
  have hlegacyLen := hfew.legacy
  have hswept : isSwept db now margin dryRun = fun r => (expired (loadLimits db.kv.rows) now db.agents r ||
      isLegacy (midTable db now dryRun) (max margin minLegacyIdMargin) r) ||
      isOrphan (loadLimits db.kv.rows) now db.agents r := rfl
  rw [hswept]
  simp only [sweepOnce, Bool.false_eq_true, if_false]
  generalize max margin minLegacyIdMargin = margin' at hmargin hlegacyLen ⊢
  -- the agents' pass
  obtain ⟨htask, hreport⟩ := sweepAgents_complete dryRun db.agents ⟨db.task, 2, {}⟩ [] db.uniqueAgents
    hfew.agents (purged_false db.task dryRun).symm
  have hzero := foldl_countAgent (loadLimits db.kv.rows) now db.task.rows db.agents {}
  rw [← hreport] at hzero
  generalize sweepAgents (fun _ => false) dryRun (loadLimits db.kv.rows) now db.agents ⟨db.task, 2, {}⟩ = p
    at htask hreport hzero ⊢
  -- the legacy tasks
  have hlegacy : p.task.rows.filter (isLegacy p.task margin') =
      db.task.rows.filter (isLegacy (midTable db now dryRun) margin') := by
    rw [htask]
    exact legacy_mid hmargin dryRun
  have hsub : (p.task.rows.filter (isLegacy p.task margin')).length < 1000000 := by
    rw [hlegacy]
    refine Nat.lt_of_le_of_lt (List.Sublist.length_le ?_) hlegacyLen
    exact List.monotone_filter_right _ fun _ hr => isLegacy_of_mid hmargin hr
  obtain ⟨htask', hreport'⟩ := sweepLegacy_complete (p := {p with clock := p.clock + 1}) dryRun hsub hzero.1
  generalize sweepLegacy (fun _ => false) dryRun margin' {p with clock := p.clock + 1} = q at htask' hreport' ⊢
  have hq : q.task = db.task.purged dryRun fun r =>
      expired (loadLimits db.kv.rows) now db.agents r || isLegacy (midTable db now dryRun) margin' r := by
    rw [htask', htask, purged_purged]
    rfl
  -- the tasks of unregistered agents
  have horphan : q.task.rows.filter (isOrphan (loadLimits db.kv.rows) now db.agents) =
      db.task.rows.filter (isOrphan (loadLimits db.kv.rows) now db.agents) := by
    rw [hq]
    exact filter_purged fun _ hr => not_removed_of_isOrphan hr
  obtain ⟨htask'', hreport''⟩ := sweepOrphans_complete dryRun (horphan ▸ hfew.orphans) (hreport' ▸ hzero.2.1)
  -- the two result tables
  obtain ⟨hcrontab, hcrontabCount⟩ := sweepResults_complete dryRun
    (sweepOrphans (fun _ => false) dryRun (loadLimits db.kv.rows) now db.agents q).clock hfew.crontabResult
  generalize sweepResults (fun _ => false) dryRun (loadLimits db.kv.rows) now .crontabResult db.crontabResult _ =
    crontab at hcrontab hcrontabCount ⊢
  obtain ⟨hjs, hjsCount⟩ := sweepResults_complete dryRun crontab.clock hfew.jsResult
  rw [hcrontab, hjs, htask'', hcrontabCount, hjsCount, hreport'', hreport', horphan, hq, purged_purged]
  show (_, some _) = (_, some _)
  rw [hlegacy, hreport]
  rfl

theorem sweepOnce_report (hfew : FewRows db now margin) (dryRun : Bool) :
    (sweepOnce (fun _ => false) dryRun db now margin).2 = some (reportOf db now
      (db.task.rows.filter (isLegacy (midTable db now dryRun) (max margin minLegacyIdMargin))).length) :=
  congrArg Prod.snd (sweepOnce_complete hfew dryRun)

end

/-- **A dry run predicts the sweep** exactly when every legacy task that lies the margin
below some row lies the margin below a row that does not expire. -/
theorem dryRun_predicts_iff (db : Database) (now margin : Int64) (hfew : FewRows db now margin) :
    ∃ dry real, (sweepOnce (fun _ => false) true db now margin).2 = some dry ∧
      (sweepOnce (fun _ => false) false db now margin).2 = some real ∧
      (dry = real ↔ ∀ r ∈ db.task.rows, r.createdAt = none →
        (∃ x ∈ db.task.rows, r.id.toInt ≤ x.id.toInt - (max margin minLegacyIdMargin).toInt) →
        ∃ x ∈ db.task.rows, expired (loadLimits db.kv.rows) now db.agents x = false ∧
          r.id.toInt ≤ x.id.toInt - (max margin minLegacyIdMargin).toInt) := by
  have hmargin := legacyMargin_nonneg margin
  refine ⟨_, _, sweepOnce_report hfew true, sweepOnce_report hfew false, ?_⟩
  generalize max margin minLegacyIdMargin = margin' at hmargin ⊢
  have hsub : (db.task.rows.filter (isLegacy (midTable db now false) margin')).Sublist
      (db.task.rows.filter (isLegacy db.task margin')) :=
    List.monotone_filter_right _ fun _ hr => isLegacy_of_mid hmargin hr
  constructor
  · intro heq r hr hnone hbelow
    have hlen := (congrArg SweepReport.taskLegacy heq).symm
    have hdry : r ∈ db.task.rows.filter (isLegacy db.task margin') :=
      List.mem_filter.mpr ⟨hr, (isLegacy_iff hmargin).mpr ⟨hnone, hbelow⟩⟩
    rw [← hsub.eq_of_length hlen] at hdry
    obtain ⟨_, x, hx, hid⟩ := (isLegacy_iff hmargin).mp (List.mem_filter.mp hdry).2
    obtain ⟨hx, hkept⟩ := List.mem_filter.mp hx
    exact ⟨x, hx, by simpa using hkept, hid⟩
  · intro h
    have hfilter : db.task.rows.filter (isLegacy db.task margin') =
        db.task.rows.filter (isLegacy (midTable db now false) margin') := by
      refine List.filter_congr fun r hr => Bool.eq_iff_iff.mpr ⟨fun hlegacy => ?_, isLegacy_of_mid hmargin⟩
      obtain ⟨hnone, hbelow⟩ := (isLegacy_iff hmargin).mp hlegacy
      obtain ⟨x, hx, hkept, hid⟩ := h r hr hnone hbelow
      exact (isLegacy_iff hmargin).mpr ⟨hnone, x, List.mem_filter.mpr ⟨hx, by simpa using hkept⟩, hid⟩
    exact congrArg (fun rows => reportOf db now rows.length) hfilter

theorem fewRows_of_length {db : Database} (htask : db.task.rows.length < 1000000)
    (hcrontab : db.crontabResult.rows.length < 1000000) (hjs : db.jsResult.rows.length < 1000000)
    (now margin : Int64) : FewRows db now margin where
  agents _ _ _ _ := Nat.lt_of_le_of_lt (List.length_filter_le ..) htask
  legacy := Nat.lt_of_le_of_lt (List.length_filter_le ..) htask
  orphans := Nat.lt_of_le_of_lt (List.length_filter_le ..) htask
  crontabResult := Nat.lt_of_le_of_lt (List.length_filter_le ..) hcrontab
  jsResult := Nat.lt_of_le_of_lt (List.length_filter_le ..) hjs

theorem dryRun_predicts_unlimited :
    ∃ dry real, (sweepOnce (fun _ => false) true unlimitedAgent 5000000 0).2 = some dry ∧
      (sweepOnce (fun _ => false) false unlimitedAgent 5000000 0).2 = some real ∧ dry = real := by
  obtain ⟨dry, real, hdry, hreal, hiff⟩ := dryRun_predicts_iff unlimitedAgent 5000000 0
    (fewRows_of_length (by decide) (by decide) (by decide) _ _)
  exact ⟨dry, real, hdry, hreal, hiff.mpr (by decide +kernel)⟩

/-- A legacy task, and a new row of a soft-deleted agent that is past the grace. -/
def expiredNewest : Database where
  task := ⟨[⟨2, 7, none, by decide⟩, ⟨2000, 7, some 0, by decide⟩], by decide⟩
  crontabResult := ⟨[], List.nodup_nil⟩
  jsResult := ⟨[], List.nodup_nil⟩
  kv := .empty
  agents := [⟨7, true⟩]
  uniqueAgents := by decide

/-- The dry run announces the legacy task; the real sweep keeps it. -/
theorem dryRun_overcounts :
    ((sweepOnce (fun _ => false) true expiredNewest 5000000 1000).2.map (·.taskLegacy)) = some 1 ∧
      ((sweepOnce (fun _ => false) false expiredNewest 5000000 1000).2.map (·.taskLegacy)) = some 0 := by
  decide +kernel

end NodeGet.Task.Retention
