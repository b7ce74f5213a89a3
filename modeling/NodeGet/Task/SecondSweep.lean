import NodeGet.Task.DryRun

/-! A second sweep right after the first (`ng-task/src/retention.rs`, `sweep_once`).

The first sweep deletes every row that meets one of its conditions, and all conditions
but one depend on the row alone. The boundary of the legacy tasks depends on the largest
id that is left, which later passes may lower: the second sweep's boundary is then lower
than the first's (`isLegacy_mono`), so nothing new falls below it. -/
namespace NodeGet.Task.Retention
open NodeGet.Core NodeGet.Data

section
variable {ρ : Type} {id : ρ → Int64}

/-- Nothing is left of the rows that were purged. -/
theorem filter_purged_eq_nil {t : IdTable ρ id} {cond cond' : ρ → Bool}
    (h : ∀ r, cond' r = true → cond r = true) : (t.purged false cond).rows.filter cond' = [] := by
  rw [List.filter_eq_nil_iff]
  intro r hr hcond
  have hkept : cond r = false := by simpa using (List.mem_filter.mp hr).2
  rw [h r hcond] at hkept
  cases hkept

/-- A purge of nothing. -/
theorem purged_of_filter_eq_nil {t : IdTable ρ id} {cond : ρ → Bool} (h : t.rows.filter cond = []) :
    t.purged false cond = t := by
  ext1
  rw [List.filter_eq_nil_iff] at h
  exact List.filter_eq_self.mpr fun r hr => by simpa using h r hr

end

section
variable (limits : Limits) (now : Int64)

/-- Which agents are skipped does not depend on the rows. -/
theorem agentsWithoutLimit_foldl (rows rows' : List TaskRow) (agents : List Agent) (report report' : SweepReport)
    (h : report.agentsWithoutLimit = report'.agentsWithoutLimit) :
    (agents.foldl (countAgent limits now rows) report).agentsWithoutLimit =
      (agents.foldl (countAgent limits now rows') report').agentsWithoutLimit := by
  induction agents generalizing report report' with
  | nil => exact h
  | cons agent rest ih =>
    apply ih
    simp only [countAgent]
    cases agentFilter limits now agent with
    | none => exact congrArg (· + 1) h
    | some cond =>
      simp only [SweepReport.addAgent]
      split <;> exact h

/-- Where no agent's condition finds a row, the agents' pass only counts the skipped. -/
theorem foldl_countAgent_of_none {rows : List TaskRow} {agents : List Agent} (report : SweepReport)
    (h : ∀ agent ∈ agents, ∀ cond, agentFilter limits now agent = some cond → rows.filter cond = []) :
    ∃ skipped, agents.foldl (countAgent limits now rows) report = {report with agentsWithoutLimit := skipped} := by
  induction agents generalizing report with
  | nil => exact ⟨report.agentsWithoutLimit, rfl⟩
  | cons agent rest ih =>
    have hagent : ∃ skipped, countAgent limits now rows report agent =
        {report with agentsWithoutLimit := skipped} := by
      cases hcond : agentFilter limits now agent with
      | none => exact ⟨report.agentsWithoutLimit + 1, by simp only [countAgent, hcond, SweepReport.skipAgent]⟩
      | some cond =>
        refine ⟨report.agentsWithoutLimit, ?_⟩
        simp only [countAgent, hcond, h agent List.mem_cons_self cond hcond, List.length_nil,
          SweepReport.addAgent, Nat.add_zero]
        split <;> rfl
    obtain ⟨skipped, hagent⟩ := hagent
    rw [List.foldl_cons, hagent]
    exact ih _ fun agent' hagent' => h agent' (List.mem_cons_of_mem _ hagent')

end

section
variable {db : Database} {now margin : Int64}

/-- No row meets a condition of the sweep. -/
structure NothingDue (db : Database) (now margin : Int64) : Prop where
  task : db.task.rows.filter (isSwept db now margin false) = []
  crontabResult : db.crontabResult.rows.filter (isOldResult (loadLimits db.kv.rows) now .crontabResult) = []
  jsResult : db.jsResult.rows.filter (isOldResult (loadLimits db.kv.rows) now .jsResult) = []

theorem NothingDue.filter_task (h : NothingDue db now margin) {cond : TaskRow → Bool}
    (hcond : ∀ r, cond r = true → isSwept db now margin false r = true) : db.task.rows.filter cond = [] := by
  rw [List.filter_eq_nil_iff]
  intro r hr hmeets
  exact List.filter_eq_nil_iff.mp h.task r hr (hcond r hmeets)

/-- The agents the sweep skips for want of a limit. -/
def skippedAgents (db : Database) (now : Int64) : Nat :=
  (db.agents.foldl (countAgent (loadLimits db.kv.rows) now db.task.rows) {}).agentsWithoutLimit

theorem NothingDue.report (h : NothingDue db now margin) :
    reportOf db now 0 = {agentsWithoutLimit := skippedAgents db now} := by
  have hagents : ∀ agent ∈ db.agents, ∀ cond, agentFilter (loadLimits db.kv.rows) now agent = some cond →
      db.task.rows.filter cond = [] := by
    intro agent hagent cond hcond
    refine h.filter_task ?_
    intro r hr
    have hexpired : expired (loadLimits db.kv.rows) now db.agents r = true :=
      List.any_eq_true.mpr ⟨agent, hagent, by simp [hcond, hr]⟩
    simp [isSwept, hexpired]
  have horphan : db.task.rows.filter (isOrphan (loadLimits db.kv.rows) now db.agents) = [] :=
    h.filter_task fun r hr => Bool.or_eq_true_iff.mpr (.inr hr)
  obtain ⟨skipped, hfold⟩ := foldl_countAgent_of_none (loadLimits db.kv.rows) now {} hagents
  simp only [reportOf, skippedAgents, hfold, horphan, h.crontabResult, h.jsResult, List.length_nil]

theorem sweepOnce_of_nothingDue (hfew : FewRows db now margin) (h : NothingDue db now margin) :
    sweepOnce (fun _ => false) false db now margin = (db, some {agentsWithoutLimit := skippedAgents db now}) := by
  have hlegacy : db.task.rows.filter (isLegacy (midTable db now false) (max margin minLegacyIdMargin)) = [] :=
    h.filter_task fun r hr => by simp [isSwept, hr]
  rw [sweepOnce_complete hfew false, purged_of_filter_eq_nil h.task, purged_of_filter_eq_nil h.crontabResult,
    purged_of_filter_eq_nil h.jsResult, hlegacy, List.length_nil, h.report]

/-- The database after a sweep without failures. -/
def sweptDb (db : Database) (now margin : Int64) : Database :=
  {db with
    task := db.task.purged false (isSwept db now margin false)
    crontabResult := db.crontabResult.purged false (isOldResult (loadLimits db.kv.rows) now .crontabResult)
    jsResult := db.jsResult.purged false (isOldResult (loadLimits db.kv.rows) now .jsResult)}

/-- What the second sweep sees when it looks for the largest id, the first one saw too. -/
theorem midTable_sweptDb_subset : (midTable (sweptDb db now margin) now false).rows ⊆ (midTable db now false).rows := by
  intro r hr
  obtain ⟨hrow, hswept⟩ := List.mem_filter.mp (purged_subset _ _ _ hr)
  refine List.mem_filter.mpr ⟨hrow, ?_⟩
  cases hexpired : expired (loadLimits db.kv.rows) now db.agents r with
  | true => simp [isSwept, hexpired] at hswept
  | false => rfl

/-- Whatever the second sweep would delete, the first one has deleted. -/
theorem isSwept_of_sweptDb {r : TaskRow} (h : isSwept (sweptDb db now margin) now margin false r = true) :
    isSwept db now margin false r = true := by
  simp only [isSwept, Bool.or_eq_true] at h ⊢
  obtain (hexpired | hlegacy) | horphan := h
  · exact .inl (.inl hexpired)
  · exact .inl (.inr (isLegacy_mono (legacyMargin_nonneg margin) midTable_sweptDb_subset hlegacy))
  · exact .inr horphan

theorem nothingDue_sweptDb : NothingDue (sweptDb db now margin) now margin where
  task := filter_purged_eq_nil fun _ hr => isSwept_of_sweptDb hr
  crontabResult := filter_purged_eq_nil fun _ hr => hr
  jsResult := filter_purged_eq_nil fun _ hr => hr

theorem fewRows_sweptDb (h : FewRows db now margin) : FewRows (sweptDb db now margin) now margin := by
  have hsub : (sweptDb db now margin).task.rows.Sublist db.task.rows := List.filter_sublist
  refine ⟨?_, ?_, ?_, ?_, ?_⟩
  · intro agent hagent cond hcond
    exact Nat.lt_of_le_of_lt (hsub.filter cond).length_le (h.agents agent hagent cond hcond)
  · refine Nat.lt_of_le_of_lt ?_ h.legacy
    refine Nat.le_trans (hsub.filter _).length_le (List.Sublist.length_le ?_)
    exact List.monotone_filter_right _ fun _ hr => isLegacy_mono (legacyMargin_nonneg margin) hsub.subset hr
  · exact Nat.lt_of_le_of_lt (hsub.filter _).length_le h.orphans
  · exact Nat.lt_of_le_of_lt (List.filter_sublist.filter _).length_le h.crontabResult
  · exact Nat.lt_of_le_of_lt (List.filter_sublist.filter _).length_le h.jsResult

end

/-- **A sweep right after a sweep** without failures deletes nothing, and reports nothing
but the agents it has skipped again. -/
theorem second_sweep_empty (db : Database) (now margin : Int64) (hfew : FewRows db now margin) :
    ∃ db' first, sweepOnce (fun _ => false) false db now margin = (db', some first) ∧
      sweepOnce (fun _ => false) false db' now margin =
        (db', some {agentsWithoutLimit := first.agentsWithoutLimit}) := by
  refine ⟨sweptDb db now margin, _, sweepOnce_complete hfew false, ?_⟩
  have hskipped : skippedAgents (sweptDb db now margin) now = skippedAgents db now :=
    agentsWithoutLimit_foldl (loadLimits db.kv.rows) now _ _ db.agents {} {} rfl
  rw [sweepOnce_of_nothingDue (fewRows_sweptDb hfew) nothingDue_sweptDb, hskipped]
  rfl

/-- The soft-deleted agent's row goes, and with it the boundary that the legacy task lay
below; the second sweep finds nothing to do. -/
theorem second_sweep_empty_expired :
    ∃ db' first, sweepOnce (fun _ => false) false expiredNewest 5000000 1000 = (db', some first) ∧
      sweepOnce (fun _ => false) false db' 5000000 1000 =
        (db', some {agentsWithoutLimit := first.agentsWithoutLimit}) :=
  second_sweep_empty expiredNewest 5000000 1000 (fewRows_of_length (by decide) (by decide) (by decide) _ _)

end NodeGet.Task.Retention
