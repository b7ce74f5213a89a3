import Mathlib.Data.Int.LeastGreatest
import Mathlib.Data.List.Nodup
import Mathlib.Logic.Function.Basic
import NodeGet.Core.Json

/-! The crontab cache (`ng-crontab/src/cache.rs`) and the times it works with.

An instant is a number of nanoseconds since the epoch, as `DateTime<Utc>` has it; the
last run of a job is kept in milliseconds. A cron schedule is a set of whole
seconds; of its parser and of `after` only the meaning is used: the next fire
instant strictly after a given one. -/
namespace NodeGet.Crontab
open NodeGet.Core

/-! ### Time -/

/-- Nanoseconds in a second and in a millisecond. -/
def second : Int := 1000000000

def milli : Int := 1000000

def minMillis : Int := -8334601228800000

def maxMillis : Int := 8210266876799999

/-- `DateTime<Utc>`: nanoseconds since the epoch, within the years the type can hold. -/
structure DateTime where
  nanos : Int
  inRange : minMillis * milli ≤ nanos ∧ nanos < (maxMillis + 1) * milli
deriving DecidableEq

/-- `timestamp_millis`, rounded down. -/
def DateTime.timestampMillis (t : DateTime) : Int := t.nanos / milli

/-- `timestamp_millis_opt`, in nanoseconds. -/
def timestampMillisOpt (millis : Int) : Option Int :=
  if minMillis ≤ millis ∧ millis ≤ maxMillis then some (millis * milli) else none

theorem timestampMillisOpt_timestampMillis (t : DateTime) :
    timestampMillisOpt t.timestampMillis = some (t.timestampMillis * milli) := by
  have h := t.inRange
  refine if_pos ?_
  unfold DateTime.timestampMillis minMillis maxMillis milli at *
  omega

/-- `cron::Schedule`: its fire instants in whole seconds, and `after(..).next()`. -/
structure Schedule where
  fires : Set Int
  after : Int → Option Int
  after_eq_some : ∀ t s, after t = some s ↔
    s ∈ fires ∧ t < s * second ∧ ∀ r ∈ fires, t < r * second → s ≤ r

/-- A fire instant follows `t` no later than `now` exactly when the next one does. -/
theorem Schedule.after_le_iff (schedule : Schedule) (t now : Int) :
    (∃ next, schedule.after t = some next ∧ next * second ≤ now) ↔
      ∃ s ∈ schedule.fires, t < s * second ∧ s * second ≤ now := by
  constructor
  · rintro ⟨next, hnext, hle⟩
    obtain ⟨hfire, hlt, -⟩ := (schedule.after_eq_some t next).mp hnext
    exact ⟨next, hfire, hlt, hle⟩
  · rintro ⟨s, hs, hlt, hle⟩
    obtain ⟨next, ⟨hfire, hnext⟩, hmin⟩ :=
      Int.exists_least_of_bdd (P := fun r => r ∈ schedule.fires ∧ t < r * second)
        ⟨t / second, fun r hr => by unfold second at *; omega⟩ ⟨s, hs, hlt⟩
    refine ⟨next, (schedule.after_eq_some t next).mpr ⟨hfire, hnext, fun r hr hr' => hmin r ⟨hr, hr'⟩⟩, ?_⟩
    have hns := hmin s ⟨hs, hlt⟩
    unfold second at *
    omega

/-! ### The cache -/

/-- A row of the table `crontab`. -/
structure Model where
  id : Int
  name : String
  enable : Bool
  cronExpression : String
  cronType : Json
  lastRunTime : Option Int

/-- A row with its parsed schedule and job type `τ`. -/
structure CachedCrontab (τ : Type) where
  model : Model
  schedule : Schedule
  cronType : τ

/-- Entries by id, and the last run times that go before those of the entries. -/
structure CrontabCache (τ : Type) where
  byId : List (CachedCrontab τ)
  nodup : (byId.map fun entry => entry.model.id).Nodup
  lastRunTimes : Int → Option Int

variable {τ : Type}

def parseOne (parseSchedule : String → Option Schedule) (parseType : Json → Option τ) (model : Model) : Option (CachedCrontab τ) :=
  (parseSchedule model.cronExpression).bind fun schedule =>
    (parseType model.cronType).map fun cronType => { model, schedule, cronType }

theorem parseOne_model {parseSchedule : String → Option Schedule} {parseType : Json → Option τ} {model : Model}
    {entry : CachedCrontab τ} (h : parseOne parseSchedule parseType model = some entry) : entry.model = model := by
  unfold parseOne at h
  obtain ⟨schedule, -, h⟩ := Option.bind_eq_some_iff.mp h
  obtain ⟨cronType, -, rfl⟩ := Option.map_eq_some_iff.mp h
  rfl

namespace CrontabCache

/-- `by_id.remove`. -/
def erase (byId : List (CachedCrontab τ)) (id : Int) : List (CachedCrontab τ) :=
  byId.filter fun entry => entry.model.id ≠ id

variable {byId : List (CachedCrontab τ)} {id : Int} {entry : CachedCrontab τ} {cache new : CrontabCache τ}
  {model : Model} {name : String}

theorem mem_erase : entry ∈ erase byId id ↔ entry ∈ byId ∧ entry.model.id ≠ id := by
  simp [erase]

theorem erase_nodup (id : Int) (h : (byId.map fun entry => entry.model.id).Nodup) :
    ((erase byId id).map fun entry => entry.model.id).Nodup :=
  h.sublist (List.filter_sublist.map _)

/-- Puts the parsed row in the place of the old one; a row that does not parse leaves none. -/
def upsert (parseSchedule : String → Option Schedule) (parseType : Json → Option τ) (cache : CrontabCache τ)
    (model : Model) : CrontabCache τ :=
  match h : parseOne parseSchedule parseType model with
  | some entry =>
    { cache with
      byId := entry :: erase cache.byId model.id
      nodup := by
        refine List.nodup_cons.mpr ⟨?_, erase_nodup model.id cache.nodup⟩
        intro hmem
        obtain ⟨other, hother, heq⟩ := List.mem_map.mp hmem
        exact (mem_erase.mp hother).2 (heq.trans (congrArg Model.id (parseOne_model h))) }
  | none => { cache with byId := erase cache.byId model.id, nodup := erase_nodup model.id cache.nodup }

def remove (cache : CrontabCache τ) (id : Int) : CrontabCache τ where
  byId := erase cache.byId id
  nodup := erase_nodup id cache.nodup
  lastRunTimes := Function.update cache.lastRunTimes id none

def removeByName (cache : CrontabCache τ) (name : String) : CrontabCache τ :=
  ((cache.byId.filter fun entry => entry.model.name = name).map fun entry => entry.model.id).foldl remove cache

def getEnabledEntries (cache : CrontabCache τ) : List (CachedCrontab τ) :=
  cache.byId.filter fun entry => entry.model.enable

def getLastRunTime (cache : CrontabCache τ) (id : Int) (modelLast : Option Int) : Option Int :=
  (cache.lastRunTimes id).or modelLast

def updateLastRunTime (cache : CrontabCache τ) (id timestamp : Int) : CrontabCache τ :=
  { cache with lastRunTimes := Function.update cache.lastRunTimes id (some timestamp) }

/-- The last run the scheduler goes by. -/
def effectiveLast (cache : CrontabCache τ) (entry : CachedCrontab τ) : Option Int :=
  cache.getLastRunTime entry.model.id entry.model.lastRunTime

/-! ### What an operation leaves to the other jobs -/

/-- The job is in both caches or in neither, with the same last run. -/
structure SameJob (cache new : CrontabCache τ) (entry : CachedCrontab τ) : Prop where
  mem : entry ∈ cache.byId → entry ∈ new.byId
  last : new.lastRunTimes entry.model.id = cache.lastRunTimes entry.model.id

theorem SameJob.trans {mid : CrontabCache τ} (h : SameJob cache mid entry) (h' : SameJob mid new entry) :
    SameJob cache new entry :=
  ⟨fun hmem => h'.mem (h.mem hmem), h'.last.trans h.last⟩

theorem SameJob.effectiveLast (h : SameJob cache new entry) : new.effectiveLast entry = cache.effectiveLast entry := by
  unfold CrontabCache.effectiveLast getLastRunTime
  rw [h.last]

theorem upsert_sameJob (cache : CrontabCache τ) (parseSchedule : String → Option Schedule) (parseType : Json → Option τ)
    (h : entry.model.id ≠ model.id) : SameJob cache (cache.upsert parseSchedule parseType model) entry := by
  unfold upsert
  split
  · exact ⟨fun hmem => List.mem_cons_of_mem _ (mem_erase.mpr ⟨hmem, h⟩), rfl⟩
  · exact ⟨fun hmem => mem_erase.mpr ⟨hmem, h⟩, rfl⟩

theorem remove_sameJob (cache : CrontabCache τ) (h : entry.model.id ≠ id) : SameJob cache (cache.remove id) entry := by
  refine ⟨fun hmem => mem_erase.mpr ⟨hmem, h⟩, ?_⟩
  show Function.update cache.lastRunTimes id none entry.model.id = cache.lastRunTimes entry.model.id
  rw [Function.update_of_ne h]

theorem foldl_remove_sameJob (ids : List Int) (cache : CrontabCache τ) (h : entry.model.id ∉ ids) :
    SameJob cache (ids.foldl remove cache) entry := by
  induction ids generalizing cache with
  | nil => exact ⟨id, rfl⟩
  | cons first rest ih =>
    rw [List.mem_cons, not_or] at h
    exact (remove_sameJob cache h.1).trans (ih (cache.remove first) h.2)

/-! ### What an operation leaves in the cache -/

theorem mem_upsert (cache : CrontabCache τ) (parseSchedule : String → Option Schedule) (parseType : Json → Option τ) :
    entry ∈ (cache.upsert parseSchedule parseType model).byId ↔
      parseOne parseSchedule parseType model = some entry ∨ entry ∈ cache.byId ∧ entry.model.id ≠ model.id := by
  unfold upsert
  split
  next parsed hparse =>
    show entry ∈ parsed :: erase cache.byId model.id ↔ _
    rw [List.mem_cons, mem_erase, hparse, Option.some.injEq, eq_comm (a := parsed)]
  next hparse =>
    show entry ∈ erase cache.byId model.id ↔ _
    simp [mem_erase, hparse]

theorem mem_foldl_remove (ids : List Int) (cache : CrontabCache τ) :
    entry ∈ (ids.foldl remove cache).byId ↔ entry ∈ cache.byId ∧ entry.model.id ∉ ids := by
  induction ids generalizing cache with
  | nil => simp
  | cons first rest ih =>
    rw [List.foldl_cons, ih, List.mem_cons, not_or, ← and_assoc]
    exact and_congr_left fun _ => mem_erase

/-- Entries with one id are one entry. -/
theorem eq_of_id_eq (cache : CrontabCache τ) {a b : CachedCrontab τ} (ha : a ∈ cache.byId) (hb : b ∈ cache.byId)
    (h : a.model.id = b.model.id) : a = b := List.inj_on_of_nodup_map cache.nodup ha hb h

theorem mem_removeByName (cache : CrontabCache τ) :
    entry ∈ (cache.removeByName name).byId ↔ entry ∈ cache.byId ∧ entry.model.name ≠ name := by
  rw [removeByName, mem_foldl_remove]
  refine and_congr_right fun hmem => not_congr ⟨fun hid => ?_, fun hname => ?_⟩
  · obtain ⟨other, hother, heq⟩ := List.mem_map.mp hid
    obtain ⟨hmem', hname⟩ := List.mem_filter.mp hother
    rw [cache.eq_of_id_eq hmem' hmem heq] at hname
    simpa using hname
  · exact List.mem_map.mpr ⟨entry, List.mem_filter.mpr ⟨hmem, by simpa using hname⟩, rfl⟩

theorem removeByName_sameJob (cache : CrontabCache τ) (hmem : entry ∈ cache.byId) (h : entry.model.name ≠ name) :
    SameJob cache (cache.removeByName name) entry := by
  refine foldl_remove_sameJob _ cache fun hid => ?_
  obtain ⟨other, hother, heq⟩ := List.mem_map.mp hid
  obtain ⟨hmem', hname⟩ := List.mem_filter.mp hother
  rw [cache.eq_of_id_eq hmem' hmem heq] at hname
  exact h (by simpa using hname)

end CrontabCache

end NodeGet.Crontab
