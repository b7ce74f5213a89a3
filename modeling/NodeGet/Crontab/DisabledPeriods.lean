import NodeGet.Crontab.Scheduler
import NodeGet.Machine.Run

/-! A job that is switched off and on again (`ng-crontab/src/server_cron.rs`: `process_crontab`,
`set_crontab_enable_by_name`).

Whether a wake runs a job depends on the fire instants since its last run and on whether it is
enabled at the wake, not on whether it was enabled at those instants. A job that is enabled again
is therefore run once for the fire instants it has slept through; `runs_justified_iff` says that
this is the only way in which a run comes without a fire instant of an enabled time. -/
namespace NodeGet.Crontab.DisabledPeriods
open NodeGet.Core NodeGet.Machine

variable {τ : Type}

/-- A start of the job: the start before it, the wake, and the calls until then. -/
structure Run where
  previous : Option DateTime
  now : DateTime
  calls : List (DateTime × Bool)
deriving DecidableEq

/-- The row of the job, and the cache with this and other jobs. -/
structure State (τ : Type) where
  row : Model
  cache : CrontabCache τ
  /-- History: when `set_enable` was called, and with what. -/
  calls : List (DateTime × Bool)
  /-- History: the last run. -/
  last : Option DateTime
  /-- History: the runs. -/
  runs : List Run

def start (row : Model) (cache : CrontabCache τ) (last : Option DateTime) : State τ := ⟨row, cache, [], last, []⟩

inductive Action where
  | wake (now : DateTime)
  | setEnable (now : DateTime) (enable : Bool)

section Machine
variable (parseSchedule : String → Option Schedule) (parseType : Json → Option τ)

/-- A wake writes the last run to the rows of the jobs it starts. -/
def step (s : State τ) : Action → Option (State τ)
  | .wake now =>
    let (due, cache) := processCrontab s.cache now
    if due.any fun job => job.id = s.row.id then
      some { s with
        row := { s.row with lastRunTime := some now.timestampMillis }
        cache
        last := some now
        runs := s.runs ++ [⟨s.last, now, s.calls⟩] }
    else some { s with cache }
  | .setEnable now enable =>
    let row := { s.row with enable }
    some { s with row, cache := s.cache.upsert parseSchedule parseType row, calls := s.calls ++ [(now, enable)] }

/-! ### What justifies a run -/

/-- The job exists since `created`, then with the flag `enable`, and each call sets it from its
time on. -/
def enabledAt (created : DateTime) (enable : Bool) (calls : List (DateTime × Bool)) (instant : Int) : Bool :=
  decide (created.nanos ≤ instant) && (calls.filter fun call => call.1.nanos ≤ instant).getLast?.elim enable (·.2)

/-- There is a fire instant after the previous run and not after the wake at which the job was
enabled. -/
def Run.Justified (schedule : Schedule) (created : DateTime) (enable : Bool) (r : Run) : Prop :=
  ∃ f ∈ schedule.instants, (∀ previous, r.previous = some previous → previous.nanos < f) ∧ f ≤ r.now.nanos ∧
    enabledAt created enable r.calls f = true

/-- The instant is before the job's creation, or the last call until then has switched the job off,
or it was off from the beginning and there was no call until then. -/
def OffAt (created : DateTime) (enable : Bool) (calls : List (DateTime × Bool)) (instant : Int) : Prop :=
  instant < created.nanos ∨ (enable = false ∧ ∀ call ∈ calls, instant < call.1.nanos) ∨
    ∃ before time after, calls = before ++ (time, false) :: after ∧ time.nanos ≤ instant ∧
      ∀ call ∈ after, instant < call.1.nanos

/-- A wake that finds the job enabled and due does not find it off at all fire instants since its
last run. -/
def NotSleptThrough (schedule : Schedule) (created : DateTime) (enable : Bool) (s : State τ) : Action → Prop
  | .wake now => s.row.enable = true →
      schedule.dueBy (lastRun now (s.last.map DateTime.timestampMillis)) now.nanos = true →
      ¬∀ f ∈ schedule.instants, (∀ previous, s.last = some previous → previous.nanos < f) → f ≤ now.nanos →
        OffAt created enable s.calls f
  | .setEnable .. => True

theorem enabledAt_eq_false {created : DateTime} {enable : Bool} {calls : List (DateTime × Bool)} {instant : Int} :
    enabledAt created enable calls instant = false ↔ OffAt created enable calls instant := by
  simp only [enabledAt, OffAt, Bool.and_eq_false_iff, decide_eq_false_iff_not, not_le]
  refine or_congr_right ⟨fun h => ?_, ?_⟩
  · cases hlast : (calls.filter fun call => call.1.nanos ≤ instant).getLast? with
    | none =>
      rw [hlast] at h
      exact .inl ⟨h, by simpa using hlast⟩
    | some call =>
      rw [hlast] at h
      obtain ⟨earlier, hfilter⟩ := List.getLast?_eq_some_iff.mp hlast
      obtain ⟨first, rest, rfl, -, hrest⟩ := List.filter_eq_append_iff.mp hfilter
      obtain ⟨between, after, rfl, -, hcall, hafter⟩ := List.filter_eq_cons_iff.mp hrest
      have hoff : call = (call.1, false) := Prod.ext rfl h
      refine .inr ⟨first ++ between, call.1, after, ?_, of_decide_eq_true hcall, by simpa using hafter⟩
      rw [← hoff, List.append_assoc]
  · rintro (⟨henable, hcalls⟩ | ⟨before, time, after, rfl, htime, hafter⟩)
    · rw [List.filter_eq_nil_iff.mpr (by simpa using hcalls)]
      exact henable
    · have hnone : after.filter (fun call => call.1.nanos ≤ instant) = [] :=
        List.filter_eq_nil_iff.mpr (by simpa using hafter)
      simp [htime, hnone]

theorem Run.justified_iff {schedule : Schedule} {created : DateTime} {enable : Bool} {r : Run} :
    r.Justified schedule created enable ↔ ¬∀ f ∈ schedule.instants,
      (∀ previous, r.previous = some previous → previous.nanos < f) → f ≤ r.now.nanos →
        OffAt created enable r.calls f := by
  simp only [← enabledAt_eq_false, not_forall, Bool.not_eq_false, exists_prop, Run.Justified]

/-! ### The cache follows the row -/

structure Mirrored (schedule : Schedule) (s : State τ) : Prop where
  parses : parseSchedule s.row.cronExpression = some schedule ∧ ∃ cronType, parseType s.row.cronType = some cronType
  last : s.row.lastRunTime = s.last.map DateTime.timestampMillis
  entry : ∃ entry ∈ s.cache.byId, entry.model.id = s.row.id ∧ entry.model.enable = s.row.enable ∧
    entry.schedule = schedule ∧ s.cache.effectiveLast entry = s.last.map DateTime.timestampMillis

variable {parseSchedule parseType} {schedule : Schedule} {s t : State τ}

/-- The job is started exactly when it is enabled and due. -/
theorem Mirrored.due_iff (hs : Mirrored parseSchedule parseType schedule s) (now : DateTime) :
    ((processCrontab s.cache now).1.any fun job => job.id = s.row.id) = true ↔ s.row.enable = true ∧
      schedule.dueBy (lastRun now (s.last.map DateTime.timestampMillis)) now.nanos = true := by
  obtain ⟨entry, hentry, hid, henable, hschedule, hlast⟩ := hs.entry
  have hshould : shouldRun s.cache now entry =
      schedule.dueBy (lastRun now (s.last.map DateTime.timestampMillis)) now.nanos := by
    rw [shouldRun, hlast, hschedule]
  rw [← hid, ← henable, ← hshould, List.any_eq_true]
  constructor
  · intro h
    obtain ⟨job, hjob, heq⟩ := h
    have heq : job.id = entry.model.id := by simpa using heq
    -- the entry that is started is the one of the job
    obtain ⟨other, hother, rfl⟩ := List.mem_map.mp hjob
    obtain ⟨henabled, hrun⟩ := List.mem_filter.mp hother
    obtain ⟨hmem, henabled⟩ := List.mem_filter.mp henabled
    obtain rfl := s.cache.eq_of_id_eq hmem hentry heq
    exact ⟨henabled, hrun⟩
  · intro h
    obtain ⟨hjob, hid⟩ := (mem_dueJobs hentry h.1).mpr ⟨h.2, rfl⟩
    exact ⟨_, hjob, by simpa using hid⟩

theorem wake_cases {now : DateTime} (hs : Mirrored parseSchedule parseType schedule s)
    (h : step parseSchedule parseType s (.wake now) = some t) :
    (s.row.enable = true ∧ schedule.dueBy (lastRun now (s.last.map DateTime.timestampMillis)) now.nanos = true ∧
      t = { s with
        row := { s.row with lastRunTime := some now.timestampMillis }
        cache := (processCrontab s.cache now).2
        last := some now
        runs := s.runs ++ [⟨s.last, now, s.calls⟩] }) ∨
    ¬(s.row.enable = true ∧ schedule.dueBy (lastRun now (s.last.map DateTime.timestampMillis)) now.nanos = true) ∧
      t = { s with cache := (processCrontab s.cache now).2 } := by
  simp only [step] at h
  split at h
  next hdue =>
    obtain ⟨henable, hdue⟩ := (hs.due_iff now).mp hdue
    exact .inl ⟨henable, hdue, (Option.some.inj h).symm⟩
  next hdue => exact .inr ⟨fun hboth => hdue ((hs.due_iff now).mpr hboth), (Option.some.inj h).symm⟩

/-- A wake moves the last run of the job exactly when it starts it, enabled or not. -/
theorem processCrontab_effectiveLast_any (cache : CrontabCache τ) (now : DateTime) (entry : CachedCrontab τ) :
    (processCrontab cache now).2.effectiveLast entry =
      if (processCrontab cache now).1.any fun job => job.id = entry.model.id then some now.timestampMillis
      else cache.effectiveLast entry := by
  unfold processCrontab CrontabCache.effectiveLast CrontabCache.getLastRunTime
  rw [(foldl_updateLastRunTime (dueJobs cache now) cache now.timestampMillis entry.model.id).2]
  by_cases hdue : ∃ job ∈ dueJobs cache now, job.id = entry.model.id
  · rw [if_pos hdue, if_pos (by simpa using hdue)]
    rfl
  · rw [if_neg hdue, if_neg (by simpa using hdue)]

theorem step_mirrored (s : State τ) (a : Action) (t : State τ) (hs : Mirrored parseSchedule parseType schedule s)
    (h : step parseSchedule parseType s a = some t) : Mirrored parseSchedule parseType schedule t := by
  obtain ⟨entry, hentry, hid, henable, hschedule, hlast⟩ := hs.entry
  cases a with
  | wake now =>
    have hnext := processCrontab_effectiveLast_any s.cache now entry
    rw [hid] at hnext
    obtain ⟨hon, hdue, rfl⟩ | ⟨hnot, rfl⟩ := wake_cases hs h
    · rw [if_pos ((hs.due_iff now).mpr ⟨hon, hdue⟩)] at hnext
      exact ⟨hs.parses, rfl, entry, processCrontab_mem hentry, hid, henable, hschedule, hnext⟩
    · rw [if_neg fun hdue => hnot ((hs.due_iff now).mp hdue)] at hnext
      exact ⟨hs.parses, hs.last, entry, processCrontab_mem hentry, hid, henable, hschedule, hnext.trans hlast⟩
  | setEnable now enable =>
    cases h
    obtain ⟨hparse, cronType, htype⟩ := hs.parses
    refine ⟨hs.parses, hs.last, ⟨{ s.row with enable }, schedule, cronType⟩, ?_, rfl, rfl, rfl, ?_⟩
    · refine (CrontabCache.mem_upsert ..).mpr (.inl ?_)
      simp [parseOne, hparse, htype]
    · -- the override is what it was, and the row has the last run
      have hoverride : (s.cache.upsert parseSchedule parseType { s.row with enable }).lastRunTimes =
          s.cache.lastRunTimes := by
        unfold CrontabCache.upsert
        split <;> rfl
      unfold CrontabCache.effectiveLast CrontabCache.getLastRunTime at hlast ⊢
      rw [hid] at hlast
      rw [hoverride]
      show (s.cache.lastRunTimes s.row.id).or s.row.lastRunTime = _
      cases htimes : s.cache.lastRunTimes s.row.id with
      | none => exact hs.last
      | some time =>
        rw [htimes] at hlast
        exact hlast

/-! ### Runs and their fire instants -/

/-- **Every run of a job is justified by a fire instant at which the job was enabled exactly when
no wake finds it enabled and due after it has slept through all fire instants since its last
run.** Wakes and calls may come in any order and at any times. -/
theorem runs_justified_iff (parseSchedule : String → Option Schedule) (parseType : Json → Option τ) (row : Model)
    (entry : CachedCrontab τ) (cache : CrontabCache τ) (created : DateTime) (last : Option DateTime)
    (hparse : parseOne parseSchedule parseType row = some entry) (hmem : entry ∈ cache.byId)
    (hrow : row.lastRunTime = last.map DateTime.timestampMillis)
    (hlast : cache.effectiveLast entry = last.map DateTime.timestampMillis) (history : List Action)
    (hrun : run (step parseSchedule parseType) (start row cache last) history = some s) :
    (∀ r ∈ s.runs, r.Justified entry.schedule created row.enable) ↔
      Along (step parseSchedule parseType) (NotSleptThrough entry.schedule created row.enable) (start row cache last)
        history := by
  have hmodel := parseOne_model hparse
  have hstart : Mirrored parseSchedule parseType entry.schedule (start row cache last) := by
    refine ⟨?_, hrow, entry, hmem, congrArg Model.id hmodel, congrArg Model.enable hmodel, rfl, hlast⟩
    obtain ⟨schedule, hschedule, h⟩ := Option.bind_eq_some_iff.mp hparse
    obtain ⟨cronType, htype, rfl⟩ := Option.map_eq_some_iff.mp h
    exact ⟨hschedule, cronType, htype⟩
  refine (run_iff_along (P := fun s => ∀ r ∈ s.runs, r.Justified entry.schedule created row.enable)
    step_mirrored ?_ hstart hrun).trans (and_iff_right fun _ h => nomatch h)
  intro s a t hs hstep
  cases a with
  | wake now =>
    obtain ⟨hon, hdue, rfl⟩ | ⟨hnot, rfl⟩ := wake_cases hs hstep
    · simp [NotSleptThrough, hon, hdue, or_imp, forall_and, Run.justified_iff]
    · exact (and_iff_left fun hon hdue => absurd ⟨hon, hdue⟩ hnot).symm
  | setEnable now enable =>
    cases hstep
    exact (and_iff_left trivial).symm

end Machine

section Example

/-- A time of the first day. -/
private def clock (seconds : Nat) : DateTime where
  nanos := (seconds % 86400 : Nat) * second
  inRange := by
    unfold minMillis maxMillis milli second
    omega

private def parseEveryMinute : String → Option Schedule := fun _ => some everyMinute

private def parseUnit : Json → Option Unit := fun _ => some ()

/-- Switched off and on again between two fire instants. -/
private def betweenTwo : List Action :=
  [.wake (clock 3600), .setEnable (clock 3610) false, .setEnable (clock 3650) true, .wake (clock 3660)]

theorem runs_justified_between_two :
    ∃ s, run (step parseEveryMinute parseUnit) (start backup.model newJob none) betweenTwo = some s ∧
      s.runs.length = 2 ∧
      Along (step parseEveryMinute parseUnit) (NotSleptThrough everyMinute (clock 3590) true)
        (start backup.model newJob none) betweenTwo := by
  obtain ⟨s, hrun, hruns⟩ : ∃ s,
      run (step parseEveryMinute parseUnit) (start backup.model newJob none) betweenTwo = some s ∧
      s.runs = [⟨none, clock 3600, []⟩, ⟨some (clock 3600), clock 3660, [(clock 3610, false), (clock 3650, true)]⟩] := by
    decide +kernel
  refine ⟨s, hrun, by rw [hruns]; rfl, ?_⟩
  refine (runs_justified_iff parseEveryMinute parseUnit backup.model backup newJob (clock 3590) none rfl
    List.mem_cons_self rfl rfl betweenTwo hrun).mp ?_
  rw [hruns]
  intro r hr
  obtain rfl | hr := List.mem_cons.mp hr
  · exact ⟨3600 * second, ⟨3600, rfl, rfl⟩, fun _ h => (Option.some_ne_none _ h.symm).elim, by decide, by decide⟩
  · obtain rfl := List.mem_singleton.mp hr
    refine ⟨3660 * second, ⟨3660, rfl, rfl⟩, fun previous h => ?_, by decide, by decide⟩
    rw [← Option.some.inj h]
    decide

/-- Switched off over the fire instant of 3660 seconds. -/
private def overOne : List Action :=
  [.wake (clock 3600), .setEnable (clock 3610) false, .setEnable (clock 3670) true, .wake (clock 3671)]

/-- The job is run for the fire instant at which it was disabled. -/
theorem slept_through_is_run :
    ∃ s, run (step parseEveryMinute parseUnit) (start backup.model newJob none) overOne = some s ∧
      ¬∀ r ∈ s.runs, r.Justified everyMinute (clock 3590) true := by
  obtain ⟨s, hrun, hruns⟩ : ∃ s,
      run (step parseEveryMinute parseUnit) (start backup.model newJob none) overOne = some s ∧
      s.runs = [⟨none, clock 3600, []⟩, ⟨some (clock 3600), clock 3671, [(clock 3610, false), (clock 3670, true)]⟩] := by
    decide +kernel
  refine ⟨s, hrun, fun hall => ?_⟩
  rw [hruns] at hall
  obtain ⟨f, ⟨seconds, hfires, rfl⟩, hprevious, hnow, henabled⟩ := hall _ (List.mem_cons_of_mem _ List.mem_cons_self)
  have hafter : 3600 * second < seconds * second := hprevious (clock 3600) rfl
  have hbefore : seconds * second ≤ 3671 * second := hnow
  have hminute : seconds % 60 = 0 := hfires
  have hseconds : seconds = 3660 := by
    unfold second at hafter hbefore
    omega
  rw [hseconds] at henabled
  exact absurd henabled (by decide)

end Example

end NodeGet.Crontab.DisabledPeriods
