import NodeGet.Crontab.Cache
import NodeGet.Machine.Poll

/-! The crontab scheduler (`ng-crontab/src/server_cron.rs`).

At each wake `process_crontab` runs the enabled jobs that have a fire instant after
their last run and not after the wake, and notes the wake as their last run. For
one job, whatever happens to the others, that is a poller with a mark
(`run_iff_poll`): the mark is the last run in milliseconds, and a job that has
never run looks back one second.

That second is the whole difference. A job with a last run misses nothing however
late a wake comes; a new job whose first fire instant is met by a wake a second
late or more is not run then. -/
namespace NodeGet.Crontab
open NodeGet.Core NodeGet.Machine

variable {τ : Type}

/-- What is handed to `run_job_logic`. -/
structure Cron (τ : Type) where
  id : Int
  name : String
  enable : Bool
  cronExpression : String
  cronType : τ
  lastRunTime : Option Int

/-- The instant after which a wake at `now` looks for a fire instant. A last run that is
no valid time is taken as the epoch. -/
def lastRun (now : DateTime) (effectiveLast : Option Int) : Int :=
  effectiveLast.elim (now.nanos - second) fun t => (timestampMillisOpt t).getD 0

def Schedule.dueBy (schedule : Schedule) (last now : Int) : Bool :=
  (schedule.after last).any fun next => next * second ≤ now

def shouldRun (cache : CrontabCache τ) (now : DateTime) (entry : CachedCrontab τ) : Bool :=
  entry.schedule.dueBy (lastRun now (cache.effectiveLast entry)) now.nanos

def CachedCrontab.job (cache : CrontabCache τ) (entry : CachedCrontab τ) : Cron τ where
  id := entry.model.id
  name := entry.model.name
  enable := entry.model.enable
  cronExpression := entry.model.cronExpression
  cronType := entry.cronType
  lastRunTime := cache.effectiveLast entry

def dueJobs (cache : CrontabCache τ) (now : DateTime) : List (Cron τ) :=
  (cache.getEnabledEntries.filter (shouldRun cache now)).map (CachedCrontab.job cache)

/-- The jobs that are started, and the cache after that. The override is moved on
whether or not the database has taken the new last run. -/
def processCrontab (cache : CrontabCache τ) (now : DateTime) : List (Cron τ) × CrontabCache τ :=
  let due := dueJobs cache now
  (due, due.foldl (fun cache job => cache.updateLastRunTime job.id now.timestampMillis) cache)

/-- The longest sleep, in milliseconds. -/
def cap : Int := 60000

/-- Like `lastRun`, but a last run that is no valid time is taken as now. -/
def deadlineLast (now : DateTime) (effectiveLast : Option Int) : Int :=
  effectiveLast.elim (now.nanos - second) fun t => (timestampMillisOpt t).getD now.nanos

def nextRuns (cache : CrontabCache τ) (now : DateTime) : List Int :=
  cache.getEnabledEntries.filterMap fun entry => entry.schedule.after (deadlineLast now (cache.effectiveLast entry))

/-- How long the scheduler sleeps after a wake, in milliseconds. -/
def computeNextDeadline (cache : CrontabCache τ) (now : DateTime) : Int :=
  let earliest := (nextRuns cache now).min?.elim (now.nanos + 60 * second) (· * second)
  min (max ((earliest - now.nanos).tdiv milli) 0) cap

/-- The scheduler never sleeps past a fire instant that one of its jobs waits for, nor
longer than a minute. -/
theorem computeNextDeadline_le (cache : CrontabCache τ) (now : DateTime) :
    computeNextDeadline cache now ≤ cap ∧
    ∀ entry ∈ cache.getEnabledEntries, ∀ next,
      entry.schedule.after (deadlineLast now (cache.effectiveLast entry)) = some next →
      now.nanos + computeNextDeadline cache now * milli ≤ max now.nanos (next * second) := by
  refine ⟨min_le_right _ _, fun entry hentry next hnext => ?_⟩
  have hmem : next ∈ nextRuns cache now := List.mem_filterMap.mpr ⟨entry, hentry, hnext⟩
  obtain ⟨first, hfirst⟩ : ∃ first, (nextRuns cache now).min? = some first :=
    Option.isSome_iff_exists.mp (List.isSome_min?_of_mem hmem)
  have hle : first ≤ next := (List.min?_eq_some_iff.mp hfirst).2 next hmem
  have hdelay : computeNextDeadline cache now ≤ max ((first * second - now.nanos).tdiv milli) 0 := by
    unfold computeNextDeadline
    rw [hfirst]
    exact min_le_left _ _
  rcases le_total (first * second - now.nanos) 0 with hpast | hahead
  · have hzero : (first * second - now.nanos).tdiv milli ≤ 0 := by
      rw [← Int.neg_neg (first * second - now.nanos), Int.neg_tdiv, Int.neg_nonpos_iff]
      exact Int.tdiv_nonneg (by omega) (by decide)
    unfold milli at *
    omega
  · rw [Int.tdiv_eq_ediv_of_nonneg hahead] at hdelay
    unfold milli second at *
    omega

/-! ### One wake -/

variable {cache : CrontabCache τ} {now : DateTime} {entry : CachedCrontab τ} {job : Cron τ}

theorem mem_dueJobs (hmem : entry ∈ cache.byId) (henable : entry.model.enable = true) :
    job ∈ dueJobs cache now ∧ job.id = entry.model.id ↔ shouldRun cache now entry = true ∧ job = entry.job cache := by
  unfold dueJobs CrontabCache.getEnabledEntries
  constructor
  · rintro ⟨hjob, hid⟩
    obtain ⟨other, hother, rfl⟩ := List.mem_map.mp hjob
    obtain ⟨henabled, hrun⟩ := List.mem_filter.mp hother
    obtain rfl := cache.eq_of_id_eq (List.mem_filter.mp henabled).1 hmem hid
    exact ⟨hrun, rfl⟩
  · rintro ⟨hrun, rfl⟩
    exact ⟨List.mem_map_of_mem (List.mem_filter.mpr ⟨List.mem_filter.mpr ⟨hmem, henable⟩, hrun⟩), rfl⟩

theorem foldl_updateLastRunTime (jobs : List (Cron τ)) (cache : CrontabCache τ) (t id : Int) :
    (jobs.foldl (fun cache job => cache.updateLastRunTime job.id t) cache).byId = cache.byId ∧
    (jobs.foldl (fun cache job => cache.updateLastRunTime job.id t) cache).lastRunTimes id =
      if ∃ job ∈ jobs, job.id = id then some t else cache.lastRunTimes id := by
  induction jobs generalizing cache with
  | nil => simp
  | cons job rest ih =>
    obtain ⟨hbyId, hlast⟩ := ih (cache.updateLastRunTime job.id t)
    refine ⟨hbyId, ?_⟩
    rw [List.foldl_cons, hlast]
    by_cases hjob : job.id = id
    · simp [CrontabCache.updateLastRunTime, hjob]
    · simp [CrontabCache.updateLastRunTime, hjob, Function.update_of_ne (Ne.symm hjob)]

theorem processCrontab_mem (hmem : entry ∈ cache.byId) : entry ∈ (processCrontab cache now).2.byId := by
  unfold processCrontab
  rw [(foldl_updateLastRunTime (dueJobs cache now) cache now.timestampMillis 0).1]
  exact hmem

/-- A wake moves the last run of the job exactly when it runs it. -/
theorem processCrontab_effectiveLast (now : DateTime) (hmem : entry ∈ cache.byId)
    (henable : entry.model.enable = true) :
    (processCrontab cache now).2.effectiveLast entry =
      if shouldRun cache now entry = true then some now.timestampMillis else cache.effectiveLast entry := by
  have hdue : (∃ job ∈ dueJobs cache now, job.id = entry.model.id) ↔ shouldRun cache now entry = true := by
    constructor
    · rintro ⟨job, hjob, hid⟩
      exact ((mem_dueJobs hmem henable).mp ⟨hjob, hid⟩).1
    · intro hrun
      obtain ⟨hjob, hid⟩ := (mem_dueJobs hmem henable).mpr ⟨hrun, rfl⟩
      exact ⟨_, hjob, hid⟩
  unfold processCrontab CrontabCache.effectiveLast CrontabCache.getLastRunTime
  rw [(foldl_updateLastRunTime (dueJobs cache now) cache now.timestampMillis entry.model.id).2]
  simp only [hdue]
  split <;> rfl

/-! ### Whole runs -/

/-- A wake, or a change of the cache by one of the calls. -/
inductive Action where
  | wake (now : DateTime)
  | upsert (model : Model)
  | removeByName (name : String)

section Run
variable (parseSchedule : String → Option Schedule) (parseType : Json → Option τ)

/-- The wakes of a run with the jobs each of them starts. -/
def trace (cache : CrontabCache τ) : List Action → List (DateTime × List (Cron τ))
  | [] => []
  | .wake now :: rest => (now, (processCrontab cache now).1) :: trace (processCrontab cache now).2 rest
  | .upsert model :: rest => trace (cache.upsert parseSchedule parseType model) rest
  | .removeByName name :: rest => trace (cache.removeByName name) rest

end Run

def wakes : List Action → List DateTime
  | [] => []
  | .wake now :: rest => now :: wakes rest
  | _ :: rest => wakes rest

/-- The action is not about the job. -/
def Unchanged (entry : CachedCrontab τ) : Action → Prop
  | .wake _ => True
  | .upsert model => entry.model.id ≠ model.id
  | .removeByName name => entry.model.name ≠ name

/-- The run starts the job at `now`. -/
def Starts (runs : List (DateTime × List (Cron τ))) (entry : CachedCrontab τ) (now : DateTime) (job : Cron τ) :
    Prop := ∃ due, (now, due) ∈ runs ∧ job ∈ due ∧ job.id = entry.model.id

theorem starts_cons {runs : List (DateTime × List (Cron τ))} {first : DateTime} {due : List (Cron τ)} :
    Starts ((first, due) :: runs) entry now job ↔
      now = first ∧ (job ∈ due ∧ job.id = entry.model.id) ∨ Starts runs entry now job := by
  constructor
  · rintro ⟨d, hd, hjob⟩
    rcases List.mem_cons.mp hd with heq | hrest
    · obtain ⟨rfl, rfl⟩ := Prod.mk.inj heq
      exact .inl ⟨rfl, hjob⟩
    · exact .inr ⟨d, hrest, hjob⟩
  · rintro (⟨rfl, hjob⟩ | ⟨d, hd, hjob⟩)
    · exact ⟨due, List.mem_cons_self, hjob⟩
    · exact ⟨d, List.mem_cons_of_mem _ hd, hjob⟩

/-! ### One job is a poller -/

def back (now : Int) : Int := now - second

def toMillis (now : Int) : Int := now / milli * milli

/-- The fire instants in nanoseconds. -/
def Schedule.instants (schedule : Schedule) : Set Int := { f | ∃ s ∈ schedule.fires, f = s * second }

/-- The schedule's `after` finds what a window holds, and milliseconds are fine enough for it. -/
theorem dueBy_exact (schedule : Schedule) : Poll.Exact schedule.dueBy toMillis schedule.instants where
  due_iff last now := by
    have hiff := schedule.after_le_iff last now
    have hany : schedule.dueBy last now = true ↔ ∃ next, schedule.after last = some next ∧ next * second ≤ now := by
      simp [Schedule.dueBy, Option.any_eq_true]
    rw [hany, hiff]
    constructor
    · rintro ⟨s, hs, hlt, hle⟩
      exact ⟨s * second, ⟨s, hs, rfl⟩, hlt, hle⟩
    · rintro ⟨f, ⟨s, hs, rfl⟩, hlt, hle⟩
      exact ⟨s, hs, hlt, hle⟩
  round_le now := by
    unfold toMillis milli
    omega
  le_round := by
    rintro f ⟨s, -, rfl⟩ now hle
    unfold toMillis milli
    unfold second at *
    omega

/-- The mark of the poller is the last run the cache has for the job. -/
inductive Marked : Option Int → Option Int → Prop
  | never : Marked none none
  | ran (t : DateTime) : Marked (some t.timestampMillis) (some (toMillis t.nanos))

theorem Marked.since {last mark : Option Int} (h : Marked last mark) (now : DateTime) :
    Poll.since back mark now.nanos = lastRun now last := by
  cases h with
  | never => rfl
  | ran t =>
    show toMillis t.nanos = (timestampMillisOpt t.timestampMillis).getD 0
    rw [timestampMillisOpt_timestampMillis]
    rfl

section Refinement
variable (parseSchedule : String → Option Schedule) (parseType : Json → Option τ) {entry : CachedCrontab τ}

/-- **The runs of an unchanged job are the hits of the poller**, with the same windows,
whatever becomes of the other jobs. -/
theorem run_iff_poll (henable : entry.model.enable = true) {actions : List Action}
    (hunchanged : ∀ a ∈ actions, Unchanged entry a) (hmem : entry ∈ cache.byId) {mark : Option Int}
    (hmark : Marked (cache.effectiveLast entry) mark) (last now : Int) :
    (last, now) ∈ Poll.polls entry.schedule.dueBy back toMillis mark ((wakes actions).map DateTime.nanos) ↔
      ∃ w job, w.nanos = now ∧ lastRun w job.lastRunTime = last ∧
        Starts (trace parseSchedule parseType cache actions) entry w job := by
  induction actions generalizing cache mark with
  | nil => simp [wakes, trace, Starts, Poll.polls]
  | cons a rest ih =>
    have hrest : ∀ b ∈ rest, Unchanged entry b := fun b hb => hunchanged b (List.mem_cons_of_mem a hb)
    have ha := hunchanged a List.mem_cons_self
    cases a with
    | upsert model =>
      have hsame := cache.upsert_sameJob parseSchedule parseType ha
      exact ih hrest (hsame.mem hmem) (hsame.effectiveLast ▸ hmark)
    | removeByName name =>
      have hsame := cache.removeByName_sameJob hmem ha
      exact ih hrest (hsame.mem hmem) (hsame.effectiveLast ▸ hmark)
    | wake first =>
      have hsince := hmark.since first
      have hnext := processCrontab_effectiveLast first hmem henable
      simp only [trace, wakes, List.map_cons, starts_cons]
      by_cases hrun : shouldRun cache first entry = true
      · rw [Poll.polls_of_due (by rw [hsince]; exact hrun), List.mem_cons, hsince]
        rw [if_pos hrun] at hnext
        rw [ih hrest (processCrontab_mem hmem) (hnext ▸ Marked.ran first)]
        constructor
        · rintro (heq | ⟨w, job, hw, hlast, hjob⟩)
          · obtain ⟨rfl, rfl⟩ := Prod.mk.inj heq
            exact ⟨first, entry.job cache, rfl, rfl, .inl ⟨rfl, (mem_dueJobs hmem henable).mpr ⟨hrun, rfl⟩⟩⟩
          · exact ⟨w, job, hw, hlast, .inr hjob⟩
        · rintro ⟨w, job, rfl, rfl, ⟨rfl, hjob⟩ | hjob⟩
          · obtain ⟨-, rfl⟩ := (mem_dueJobs hmem henable).mp hjob
            exact .inl rfl
          · exact .inr ⟨w, job, rfl, rfl, hjob⟩
      · rw [Poll.polls_of_not_due (by rw [hsince]; exact hrun)]
        rw [if_neg hrun] at hnext
        rw [ih hrest (processCrontab_mem hmem) (hnext ▸ hmark)]
        constructor
        · rintro ⟨w, job, hw, hlast, hjob⟩
          exact ⟨w, job, hw, hlast, .inr hjob⟩
        · rintro ⟨w, job, hw, hlast, ⟨-, hjob⟩ | hjob⟩
          · exact absurd ((mem_dueJobs hmem henable).mp hjob).1 hrun
          · exact ⟨w, job, hw, hlast, hjob⟩

end Refinement

/-! ### Neither missed nor doubled -/

def wakeTimes (actions : List Action) : List Int := (wakes actions).map DateTime.nanos

/-- The fire instant lies in the window that a start of the job at `now` has looked at. -/
def LeadsTo (f : Int) (now : DateTime) (job : Cron τ) : Prop := lastRun now job.lastRunTime < f ∧ f ≤ now.nanos

/-- Each fire instant after the creation of the job is met at the first wake at or after it. -/
def NotMissed (runs : List (DateTime × List (Cron τ))) (entry : CachedCrontab τ) (created : DateTime)
    (actions : List Action) : Prop :=
  ∀ f ∈ entry.schedule.instants, created.nanos < f → ∀ now, Poll.First (wakeTimes actions) f now →
    ∃ w job, w.nanos = now ∧ Starts runs entry w job

/-- No fire instant leads to starts at two wakes. -/
def NotDoubled (runs : List (DateTime × List (Cron τ))) (entry : CachedCrontab τ) : Prop :=
  ∀ f ∈ entry.schedule.instants, ∀ v a w b, Starts runs entry v a → LeadsTo f v a →
    Starts runs entry w b → LeadsTo f w b → v = w

/-- By the first wake that has a fire instant after the creation behind it, a wake has
come less than a second after a fire instant. -/
def FirstInTime (schedule : Schedule) (created : DateTime) (actions : List Action) : Prop :=
  ∀ u, Poll.FirstSince schedule.instants created.nanos (wakeTimes actions) u →
    ∃ v ∈ wakeTimes actions, v ≤ u ∧ ∃ f ∈ schedule.instants, f ≤ v ∧ v - f < second

/-- The window of a job that has never run. -/
theorem dueBy_back_iff (schedule : Schedule) (v : Int) :
    schedule.dueBy (back v) v = true ↔ ∃ f ∈ schedule.instants, f ≤ v ∧ v - f < second := by
  rw [(dueBy_exact schedule).due_iff]
  refine exists_congr fun f => and_congr_right fun _ => ?_
  unfold back
  constructor
  · rintro ⟨hlt, hle⟩
    exact ⟨hle, by omega⟩
  · rintro ⟨hle, hlt⟩
    exact ⟨by omega, hle⟩

section Claim
variable (parseSchedule : String → Option Schedule) (parseType : Json → Option τ)

/-- Nothing is missed exactly when the first fire instant is met in time. -/
theorem notMissed_iff (entry : CachedCrontab τ) (created : DateTime) (cache : CrontabCache τ)
    (actions : List Action) (hmem : entry ∈ cache.byId) (henable : entry.model.enable = true)
    (hnew : cache.effectiveLast entry = none) (hunchanged : ∀ a ∈ actions, Unchanged entry a)
    (hwakes : (wakeTimes actions).Pairwise (· < ·)) :
    NotMissed (trace parseSchedule parseType cache actions) entry created actions ↔
      FirstInTime entry.schedule created actions := by
  have hmark : Marked (cache.effectiveLast entry) none := hnew ▸ Marked.never
  have hpoll := run_iff_poll parseSchedule parseType henable hunchanged hmem hmark
  have hiff := Poll.covered_iff back (dueBy_exact entry.schedule) hwakes created.nanos
  simp only [dueBy_back_iff] at hiff
  refine Iff.trans ?_ hiff
  refine forall₄_congr fun f _ _ now => imp_congr_right fun _ => ?_
  constructor
  · rintro ⟨w, job, hw, hjob⟩
    exact ⟨_, (hpoll _ now).mpr ⟨w, job, hw, rfl, hjob⟩⟩
  · rintro ⟨last, hlast⟩
    obtain ⟨w, job, hw, -, hjob⟩ := (hpoll last now).mp hlast
    exact ⟨w, job, hw, hjob⟩

/-- Nothing is done twice, however late the wakes come. -/
theorem notDoubled (entry : CachedCrontab τ) (cache : CrontabCache τ)
    (actions : List Action) (hmem : entry ∈ cache.byId) (henable : entry.model.enable = true)
    (hnew : cache.effectiveLast entry = none) (hunchanged : ∀ a ∈ actions, Unchanged entry a)
    (hwakes : (wakeTimes actions).Pairwise (· < ·)) :
    NotDoubled (trace parseSchedule parseType cache actions) entry := by
  have hmark : Marked (cache.effectiveLast entry) none := hnew ▸ Marked.never
  have hpoll := run_iff_poll parseSchedule parseType henable hunchanged hmem hmark
  intro f hf v a w b ha hva hb hwb
  have hv := (hpoll _ v.nanos).mpr ⟨v, a, rfl, rfl, ha⟩
  have hw := (hpoll _ w.nanos).mpr ⟨w, b, rfl, rfl, hb⟩
  have heq := Poll.window_unique (dueBy_exact entry.schedule) hwakes hf hv hva hw hwb
  cases v
  cases w
  cases heq
  rfl

/-- **A new job that stays as it is misses no fire instant and runs for none twice exactly
when its first one is met in time.** Afterwards the wakes may come as late as they like. -/
theorem fires_met_iff (entry : CachedCrontab τ) (created : DateTime) (cache : CrontabCache τ)
    (actions : List Action) (hmem : entry ∈ cache.byId) (henable : entry.model.enable = true)
    (hnew : cache.effectiveLast entry = none) (hunchanged : ∀ a ∈ actions, Unchanged entry a)
    (hwakes : (wakeTimes actions).Pairwise (· < ·)) :
    NotMissed (trace parseSchedule parseType cache actions) entry created actions ∧
      NotDoubled (trace parseSchedule parseType cache actions) entry ↔
    FirstInTime entry.schedule created actions := by
  rw [and_iff_left (notDoubled parseSchedule parseType entry cache actions hmem henable hnew hunchanged hwakes)]
  exact notMissed_iff parseSchedule parseType entry created cache actions hmem henable hnew hunchanged hwakes

end Claim

section Example

def everyMinute : Schedule where
  fires := { s | s % 60 = 0 }
  after t := some ((t / second / 60 + 1) * 60)
  after_eq_some t s := by
    unfold second
    simp only [Option.some.injEq, Set.mem_ofPred_eq]
    constructor
    · rintro rfl
      refine ⟨by omega, by omega, fun r hr hlt => by omega⟩
    · rintro ⟨hs, hlt, hmin⟩
      have := hmin ((t / 1000000000 / 60 + 1) * 60) (by omega) (by omega)
      omega

def backup : CachedCrontab Unit where
  model := { id := 1, name := "backup", enable := true, cronExpression := "0 * * * * *", cronType := .null,
             lastRunTime := none }
  schedule := everyMinute
  cronType := ()

def newJob : CrontabCache Unit where
  byId := [backup]
  nodup := List.nodup_singleton _
  lastRunTimes _ := none

/-- The job is created ten seconds after the epoch. -/
def tenSeconds : DateTime := ⟨10 * second, by decide⟩

/-- A wake 200 ms after the first fire instant, and one half an hour later. -/
def onTime : List Action := [.wake ⟨60 * second + 200 * milli, by decide⟩, .wake ⟨1860 * second, by decide⟩]

theorem fires_met_onTime :
    NotMissed (trace (fun _ => none) (fun _ => some ()) newJob onTime) backup tenSeconds onTime ∧
      NotDoubled (trace (fun _ => none) (fun _ => some ()) newJob onTime) backup := by
  refine (fires_met_iff _ _ backup tenSeconds newJob onTime List.mem_cons_self rfl rfl ?_ ?_).mpr ?_
  · intro a ha
    rcases List.mem_pair.mp ha with rfl | rfl
    · trivial
    · trivial
  · exact List.pairwise_pair.mpr (by decide)
  · rintro u ⟨hu, -⟩
    refine ⟨60 * second + 200 * milli, List.mem_cons_self, ?_, 60 * second, ⟨60, rfl, rfl⟩, by decide, by decide⟩
    rcases List.mem_pair.mp hu with rfl | rfl
    · decide
    · decide

/-- A wake before the first fire instant, and the next one a second and a half after it. -/
def late : List Action := [.wake ⟨50 * second, by decide⟩, .wake ⟨61 * second + 500 * milli, by decide⟩]

/-- The wake a second and a half after its first fire instant does not run the new job. -/
theorem late_fire_missed :
    ¬NotMissed (trace (fun _ => none) (fun _ => some ()) newJob late) backup tenSeconds late := by
  intro h
  obtain ⟨w, job, -, due, hdue, hjob, -⟩ := h (60 * second) ⟨60, rfl, rfl⟩ (by decide) (61 * second + 500 * milli)
    ⟨List.mem_cons_of_mem _ List.mem_cons_self, by decide, by decide⟩
  rcases List.mem_pair.mp hdue with heq | heq
  · obtain ⟨-, rfl⟩ := Prod.mk.inj heq
    exact absurd hjob List.not_mem_nil
  · obtain ⟨-, rfl⟩ := Prod.mk.inj heq
    exact absurd hjob List.not_mem_nil

end Example

end NodeGet.Crontab
