import Mathlib.Data.Fintype.Basic
import NodeGet.Machine.Run

/-! The limits of a pooled worker (`ng-js-runtime/src/runtime_pool.rs`, `ng-js-worker`).

A run of a script reads its row, and creates the pooled worker, if there is none, with the heap and
stack limits of the row it has read. An update writes the row and evicts the pooled worker, so that the
next run makes a new one. Between a run's read and its creation the row may be written and the eviction
may come and go: the worker then has the limits the row had before, and keeps them.

A creation from limits that the row does not have is made good only by a later eviction
(`limits_up_to_date_iff`). -/
namespace NodeGet.JsRuntime.WorkerLimits
open NodeGet.Machine

/-! ### Limits -/

structure RuntimeLimits where
  maxRunTimeMs : UInt64
  maxStackSizeBytes : UInt64
  maxHeapSizeBytes : UInt64
deriving DecidableEq

def defaultMaxRunTimeMs : UInt64 := 30000

def defaultMaxStackSizeBytes : UInt64 := 1024 * 1024

def defaultMaxHeapSizeBytes : UInt64 := 8 * 1024 * 1024

/-- `pos_u64` and `pos_usize` -/
def positiveOr (default : UInt64) : Option Int64 → UInt64
  | some n => if 0 < n then n.toUInt64 else default
  | none => default

/-- A row of `js_worker`: its bytecode and its limits. -/
structure Model where
  jsByteCode : Option (List UInt8)
  maxRunTime : Option Int64
  maxStackSize : Option Int64
  maxHeapSize : Option Int64
deriving DecidableEq

def RuntimeLimits.fromModel (model : Model) : RuntimeLimits where
  maxRunTimeMs := positiveOr defaultMaxRunTimeMs model.maxRunTime
  maxStackSizeBytes := positiveOr defaultMaxStackSizeBytes model.maxStackSize
  maxHeapSizeBytes := positiveOr defaultMaxHeapSizeBytes model.maxHeapSize

/-! ### State and steps -/

/-- Where `enqueue_defined_js_worker_run` stands, up to the worker it gets. -/
inductive RunPc where
  | start
  | read (model : Model)
  /-- The bytecode was of another version of the engine. -/
  | recompiled (model : Model) (bytecode : List UInt8)
  | stored (model : Model)
  | ready (limits : RuntimeLimits)
  | missing (limits : RuntimeLimits)
  | finished
  | failed
deriving DecidableEq

inductive UpdatePc where
  | start
  | found
  | written
  | finished
  | failed
deriving DecidableEq

/-- What an update asks for. -/
structure Update (ν : Type) where
  name : ν
  maxRunTime : Option Int64
  maxStackSize : Option Int64
  maxHeapSize : Option Int64

structure State (ι κ ν : Type) where
  rows : ν → Option Model
  /-- The pooled workers, by the limits with which they were created. -/
  workers : ν → Option RuntimeLimits
  run : ι → RunPc
  update : κ → UpdatePc

inductive Action (ι κ : Type) where
  | read (call : ι)
  | ensureBytecodeVersion (call : ι) (compiled : Option (List UInt8))
  | store (call : ι)
  | evictStale (call : ι)
  | lookup (call : ι)
  | create (call : ι) (spawned : Bool)
  /-- An error of the database. -/
  | fail (call : ι)
  | find (update : κ)
  | write (update : κ) (bytecode : List UInt8)
  | evict (update : κ)
  | failUpdate (update : κ)

variable {ι κ ν : Type} [DecidableEq ι] [DecidableEq κ] [DecidableEq ν]

/-- The server has started: no worker is in the pool. -/
def State.started (rows : ν → Option Model) : State ι κ ν :=
  ⟨rows, fun _ => none, fun _ => .start, fun _ => .start⟩

def State.goto (s : State ι κ ν) (call : ι) (pc : RunPc) : State ι κ ν :=
  { s with run := Function.update s.run call pc }

def State.moveTo (s : State ι κ ν) (update : κ) (pc : UpdatePc) : State ι κ ν :=
  { s with update := Function.update s.update update pc }

/-- `UPDATE js_worker`: the columns that are set, in a row that is there. -/
def State.set (s : State ι κ ν) (name : ν) (change : Model → Model) : State ι κ ν :=
  { s with rows := Function.update s.rows name ((s.rows name).map change) }

def State.evictWorker (s : State ι κ ν) (name : ν) : State ι κ ν :=
  { s with workers := Function.update s.workers name none }

def State.insert (s : State ι κ ν) (name : ν) (limits : RuntimeLimits) : State ι κ ν :=
  { s with workers := Function.update s.workers name (some limits) }

/-- The columns of an update. -/
def Update.change (u : Update ν) (bytecode : List UInt8) (_ : Model) : Model :=
  ⟨some bytecode, u.maxRunTime, u.maxStackSize, u.maxHeapSize⟩

variable (version : UInt8) (script : ι → ν) (request : κ → Update ν)

/-- `ensure_bytecode_version`, up to its write. -/
def ensured (model : Model) (compiled : Option (List UInt8)) : RunPc :=
  match model.jsByteCode.bind (·.head?) with
  | none => .failed
  | some stored =>
    if stored = version then .ready (.fromModel model)
    else
      match compiled with
      | none => .failed
      | some bytecode => .recompiled model bytecode

def step (s : State ι κ ν) : Action ι κ → Option (State ι κ ν)
  | .read call =>
    match s.run call with
    | .start =>
      some (match s.rows (script call) with
        | some model => s.goto call (.read model)
        | none => s.goto call .failed)
    | _ => none
  | .ensureBytecodeVersion call compiled =>
    match s.run call with
    | .read model => some (s.goto call (ensured version model compiled))
    | _ => none
  | .store call =>
    match s.run call with
    | .recompiled model bytecode =>
      some ((s.set (script call) fun row => { row with jsByteCode := some bytecode }).goto call (.stored model))
    | _ => none
  | .evictStale call =>
    match s.run call with
    | .stored model => some ((s.evictWorker (script call)).goto call (.ready (.fromModel model)))
    | _ => none
  | .lookup call =>
    match s.run call with
    | .ready limits => some (s.goto call (if (s.workers (script call)).isSome then .finished else .missing limits))
    | _ => none
  | .create call spawned =>
    match s.run call with
    | .missing limits =>
      -- under the write lock, after a second look
      if (s.workers (script call)).isSome then some (s.goto call .finished)
      else if spawned then some ((s.insert (script call) limits).goto call .finished)
      else some (s.goto call .failed)
    | _ => none
  | .fail call =>
    match s.run call with
    | .start | .read _ | .recompiled _ _ | .ready _ => some (s.goto call .failed)
    | _ => none
  | .find u =>
    match s.update u with
    | .start => some (s.moveTo u (if (s.rows (request u).name).isSome then .found else .failed))
    | _ => none
  | .write u bytecode =>
    match s.update u with
    | .found => some ((s.set (request u).name ((request u).change bytecode)).moveTo u .written)
    | _ => none
  | .evict u =>
    match s.update u with
    | .written => some ((s.evictWorker (request u).name).moveTo u .finished)
    | _ => none
  | .failUpdate u =>
    match s.update u with
    | .start | .found => some (s.moveTo u .failed)
    | _ => none

/-! ### Limits that take effect -/

/-- The limits that the row gives. -/
def State.stored (s : State ι κ ν) (name : ν) : Option RuntimeLimits := (s.rows name).map .fromModel

/-- The heap and stack limits are those of the row. -/
def Agrees (limits : RuntimeLimits) (stored : Option RuntimeLimits) : Prop :=
  stored.map (·.maxStackSizeBytes) = some limits.maxStackSizeBytes ∧
    stored.map (·.maxHeapSizeBytes) = some limits.maxHeapSizeBytes

instance Agrees.decidable (limits : RuntimeLimits) (stored : Option RuntimeLimits) :
    Decidable (Agrees limits stored) := inferInstanceAs (Decidable (_ ∧ _))

def UpToDate (s : State ι κ ν) : Prop := ∀ name, ∀ limits ∈ s.workers name, Agrees limits (s.stored name)

instance UpToDate.decidable [Fintype ν] (s : State ι κ ν) : Decidable (UpToDate s) :=
  inferInstanceAs (Decidable (∀ name, ∀ limits ∈ s.workers name, Agrees limits (s.stored name)))

def RunPc.done : RunPc → Bool
  | .start | .finished | .failed => true
  | _ => false

def UpdatePc.done : UpdatePc → Bool
  | .start | .finished | .failed => true
  | _ => false

/-- Whoever has begun has finished. -/
def State.Finished (s : State ι κ ν) : Prop := (∀ call, (s.run call).done) ∧ ∀ u, (s.update u).done

instance State.Finished.decidable [Fintype ι] [Fintype κ] (s : State ι κ ν) : Decidable s.Finished :=
  inferInstanceAs (Decidable (_ ∧ _))

/-- The script whose worker the action evicts. -/
def Action.evicts : Action ι κ → Option ν
  | .evictStale call => some (script call)
  | .evict u => some (request u).name
  | _ => none

/-- A worker is created from the limits its row has, or it is evicted later. -/
def Current (s : State ι κ ν) (rest : List (Action ι κ)) : Action ι κ → Prop
  | .create call true => ∀ limits, s.run call = .missing limits → s.workers (script call) = none →
      (∃ later ∈ rest, later.evicts script request = some (script call)) ∨ Agrees limits (s.stored (script call))
  | _ => True

/-- Every creation is `Current`. -/
def Covered (s : State ι κ ν) : List (Action ι κ) → Prop
  | [] => True
  | action :: rest =>
    Current script request s rest action ∧ ∀ t, step version script request s action = some t → Covered t rest

/-! ### What a step can do -/

/-- What a step does to the workers and to the limits of the rows. -/
inductive Effect (s : State ι κ ν) : Action ι κ → State ι κ ν → Prop where
  | evicts {action : Action ι κ} {t : State ι κ ν} {name : ν} (hevicts : action.evicts script request = some name)
      (hworkers : t.workers = Function.update s.workers name none) (hstored : ∀ n, t.stored n = s.stored n) :
      Effect s action t
  | writes {u : κ} {bytecode : List UInt8} {t : State ι κ ν} (hpc : t.update u = .written)
      (hworkers : t.workers = s.workers) (hstored : ∀ n, n ≠ (request u).name → t.stored n = s.stored n) :
      Effect s (.write u bytecode) t
  | creates {call : ι} {limits : RuntimeLimits} {t : State ι κ ν} (hpc : s.run call = .missing limits)
      (hnone : s.workers (script call) = none)
      (hworkers : t.workers = Function.update s.workers (script call) (some limits))
      (hstored : ∀ n, t.stored n = s.stored n) : Effect s (.create call true) t
  | none {action : Action ι κ} {t : State ι κ ν} (hevicts : action.evicts script request = .none)
      (hcurrent : ∀ rest, Current script request s rest action) (hworkers : t.workers = s.workers)
      (hstored : ∀ n, t.stored n = s.stored n) : Effect s action t

variable {version script request}

omit [DecidableEq ι] [DecidableEq κ] in
/-- Setting the bytecode leaves the limits. -/
theorem stored_set_bytecode (s : State ι κ ν) (name n : ν) (bytecode : Option (List UInt8)) :
    (s.set name fun row => { row with jsByteCode := bytecode }).stored n = s.stored n := by
  by_cases hn : n = name
  · subst hn
    simp only [State.stored, State.set, Function.update_self, Option.map_map]
    rfl
  · simp only [State.stored, State.set, Function.update_of_ne hn]

variable {s t : State ι κ ν} {action : Action ι κ} {u : κ} {actions : List (Action ι κ)}

theorem step_cases (h : step version script request s action = some t) : Effect script request s action t := by
  cases action <;> simp only [step] at h
  case read call =>
    split at h
    next =>
      split at h <;> cases h <;> exact .none rfl (fun _ => trivial) rfl fun _ => rfl
    next => cases h
  case store call =>
    split at h
    next model bytecode hpc =>
      cases h
      exact .none rfl (fun _ => trivial) rfl fun n => stored_set_bytecode s (script call) n (some bytecode)
    next => cases h
  case evictStale call =>
    split at h
    next =>
      cases h
      exact .evicts rfl rfl fun _ => rfl
    next => cases h
  case create call spawned =>
    split at h
    next limits hpc =>
      cases hfound : s.workers (script call) with
      | some existing =>
        rw [hfound] at h
        cases h
        refine .none rfl (fun rest => ?_) rfl fun _ => rfl
        cases spawned with
        | true =>
          intro _ _ hnone
          rw [hfound] at hnone
          cases hnone
        | false => trivial
      | none =>
        rw [hfound] at h
        cases spawned with
        | true =>
          cases h
          exact .creates hpc hfound rfl fun _ => rfl
        | false =>
          cases h
          exact .none rfl (fun _ => trivial) rfl fun _ => rfl
    next => cases h
  case write u bytecode =>
    split at h
    next =>
      cases h
      refine .writes (Function.update_self ..) rfl fun n hn => ?_
      simp only [State.stored, State.moveTo, State.set, Function.update_of_ne hn]
    next => cases h
  case evict u =>
    split at h
    next =>
      cases h
      exact .evicts rfl rfl fun _ => rfl
    next => cases h
  all_goals
    split at h <;> cases h <;> exact .none rfl (fun _ => trivial) rfl fun _ => rfl

omit [DecidableEq ι] [DecidableEq ν] in
theorem update_moveTo {v : κ} {pc : UpdatePc} (hpc : s.update u = .written) (hv : s.update v ≠ .written) :
    (s.moveTo v pc).update u = .written := by
  have hne : u ≠ v := by
    intro heq
    exact hv (heq ▸ hpc)
  exact (Function.update_of_ne hne ..).trans hpc

/-- An update that has written goes on by its eviction only. -/
theorem step_written (h : step version script request s action = some t) (hpc : s.update u = .written) :
    t.update u = .written ∨ action = .evict u := by
  cases action <;> simp only [step] at h
  case read call =>
    split at h
    next => split at h <;> cases h <;> exact .inl hpc
    next => cases h
  case create call spawned =>
    split at h
    next =>
      split at h
      next =>
        cases h
        exact .inl hpc
      next => split at h <;> cases h <;> exact .inl hpc
    next => cases h
  case find v =>
    split at h
    next hv =>
      cases h
      exact .inl (update_moveTo hpc (by rw [hv]; decide))
    next => cases h
  case write v bytecode =>
    split at h
    next hv =>
      cases h
      exact .inl (update_moveTo hpc (show s.update v ≠ .written by rw [hv]; decide))
    next => cases h
  case failUpdate v =>
    split at h
    next hv =>
      cases h
      exact .inl (update_moveTo hpc (by rw [hv]; decide))
    next hv =>
      cases h
      exact .inl (update_moveTo hpc (by rw [hv]; decide))
    next => cases h
  case evict v =>
    split at h
    next =>
      cases h
      by_cases hv : u = v
      · exact .inr (hv ▸ rfl)
      · exact .inl ((Function.update_of_ne hv ..).trans hpc)
    next => cases h
  all_goals split at h <;> cases h <;> exact .inl hpc

/-- An update that has written has its eviction before it finishes. -/
theorem evicts_of_written (hrun : run (step version script request) s actions = some t) (hpc : s.update u = .written)
    (ht : t.Finished) : ∃ later ∈ actions, later.evicts script request = some (request u).name := by
  have hdone : t.update u ≠ .written := by
    intro h
    have hdone := ht.2 u
    rw [h] at hdone
    cases hdone
  obtain ⟨first, action, rest, v, w, rfl, -, hv, hstep, hw, -⟩ :=
    run_becomes (P := fun x => x.update u ≠ .written) hrun (not_not.mpr hpc) hdone
  obtain rfl := (step_written hstep (not_not.mp hv)).resolve_left hw
  exact ⟨.evict u, by simp, rfl⟩

/-! ### Whole runs -/

/-- A worker in the pool agrees with its row, or is evicted by one of the actions to come. -/
def SettledAt (script : ι → ν) (request : κ → Update ν) (s : State ι κ ν) (actions : List (Action ι κ)) (name : ν) :
    Prop :=
  ∀ limits ∈ s.workers name,
    (∃ later ∈ actions, later.evicts script request = some name) ∨ Agrees limits (s.stored name)

def Settled (script : ι → ν) (request : κ → Update ν) (s : State ι κ ν) (actions : List (Action ι κ)) : Prop :=
  ∀ name, SettledAt script request s actions name

section Settled
variable {s u t : State ι κ ν} {action : Action ι κ} {rest : List (Action ι κ)} {name : ν}

omit [DecidableEq ι] [DecidableEq κ] [DecidableEq ν] in
theorem settledAt_congr (hworkers : u.workers name = s.workers name) (hstored : u.stored name = s.stored name)
    (hevicts : action.evicts script request ≠ some name) :
    SettledAt script request u rest name ↔ SettledAt script request s (action :: rest) name := by
  have hlater : (∃ later ∈ action :: rest, later.evicts script request = some name) ↔
      ∃ later ∈ rest, later.evicts script request = some name := by
    simp only [List.mem_cons, exists_eq_or_imp]
    exact or_iff_right hevicts
  rw [SettledAt, SettledAt, hworkers, hstored, hlater]

variable {actions : List (Action ι κ)}

omit [DecidableEq ι] [DecidableEq κ] [DecidableEq ν] in
theorem settledAt_of_evicts (h : ∃ later ∈ actions, later.evicts script request = some name) :
    SettledAt script request s actions name :=
  fun _ _ => .inl h

omit [DecidableEq ι] [DecidableEq κ] [DecidableEq ν] in
theorem settledAt_of_none (h : s.workers name = none) : SettledAt script request s actions name := by
  intro limits hlimits
  rw [h] at hlimits
  cases hlimits

omit [DecidableEq ι] [DecidableEq κ] [DecidableEq ν] in
theorem current_of_evicts (h : action.evicts script request = some name) : Current script request s rest action := by
  cases action <;> trivial

/-- A step leaves the workers settled if they were, and the one it creates is. -/
theorem settled_step (h : step version script request s action = some u)
    (hrest : run (step version script request) u rest = some t) (ht : t.Finished) :
    Settled script request u rest ↔ Settled script request s (action :: rest) ∧ Current script request s rest action := by
  cases step_cases h with
  | @evicts _ _ evicted hevicts hworkers hstored =>
    refine Iff.trans (forall_congr' fun n => ?_) (and_iff_left (current_of_evicts hevicts)).symm
    by_cases hn : n = evicted
    · subst hn
      refine iff_of_true (settledAt_of_none ?_) (settledAt_of_evicts ⟨action, List.mem_cons_self, hevicts⟩)
      rw [hworkers, Function.update_self]
    · refine settledAt_congr ?_ (hstored n) ?_
      · rw [hworkers, Function.update_of_ne hn]
      · rw [hevicts]
        exact fun heq => hn (Option.some.inj heq).symm
  | @writes v bytecode _ hpc hworkers hstored =>
    refine Iff.trans (forall_congr' fun n => ?_) (and_iff_left trivial).symm
    by_cases hn : n = (request v).name
    · -- whatever was written: the eviction of this update is still to come
      subst hn
      obtain ⟨later, hmem, hevicts⟩ := evicts_of_written hrest hpc ht
      exact iff_of_true (settledAt_of_evicts ⟨later, hmem, hevicts⟩)
        (settledAt_of_evicts ⟨later, List.mem_cons_of_mem _ hmem, hevicts⟩)
    · exact settledAt_congr (congrFun hworkers n) (hstored n hn) (Option.some_ne_none n).symm
  | @creates call limits _ hpc hnone hworkers hstored =>
    have hothers (n : ν) (hn : n ≠ script call) :
        SettledAt script request u rest n ↔ SettledAt script request s (.create call true :: rest) n := by
      refine settledAt_congr ?_ (hstored n) (Option.some_ne_none n).symm
      rw [hworkers, Function.update_of_ne hn]
    have hnew : limits ∈ u.workers (script call) := by rw [hworkers, Function.update_self]; rfl
    constructor
    · intro h
      constructor
      · intro n
        by_cases hn : n = script call
        · subst hn
          exact settledAt_of_none hnone
        · exact (hothers n hn).mp (h n)
      · intro limits' hpc' _
        cases hpc.symm.trans hpc'
        rw [← hstored]
        exact h (script call) limits hnew
    · intro h n
      by_cases hn : n = script call
      · subst hn
        intro limits' hlimits'
        cases Option.some.inj (hnew.symm.trans hlimits')
        rw [hstored]
        exact h.2 limits hpc hnone
      · exact (hothers n hn).mpr (h.1 n)
  | none hevicts hcurrent hworkers hstored =>
    refine Iff.trans (forall_congr' fun n => ?_) (and_iff_left (hcurrent rest)).symm
    refine settledAt_congr (congrFun hworkers n) (hstored n) ?_
    rw [hevicts]
    exact (Option.some_ne_none n).symm

end Settled

/-- What a run leaves in the pool agrees with the rows if what it found there settles and each worker
it creates does. -/
theorem run_upToDate (hrun : run (step version script request) s actions = some t) (ht : t.Finished) :
    UpToDate t ↔ Settled script request s actions ∧ Covered version script request s actions := by
  induction actions generalizing s with
  | nil =>
    cases hrun
    refine ⟨fun h => ⟨fun name limits hlimits => .inr (h name limits hlimits), trivial⟩, fun h name limits hlimits => ?_⟩
    obtain ⟨_, hmem, _⟩ | hagrees := h.1 name limits hlimits
    · cases hmem
    · exact hagrees
  | cons action rest ih =>
    obtain ⟨u, hu, hrest⟩ := run_cons_some.mp hrun
    have hcovered : Covered version script request s (action :: rest) ↔
        Current script request s rest action ∧ Covered version script request u rest := by
      refine and_congr_right fun _ => ⟨fun h => h u hu, fun h v hv => ?_⟩
      rw [hu] at hv
      cases hv
      exact h
    rw [ih hrest, settled_step hu hrest ht, hcovered, and_assoc]

/-- Once all updates and runs have finished, the pooled workers have the limits stored in their rows exactly
when each worker that no later eviction removed was created from the limits its row had then. -/
theorem limits_up_to_date_iff {rows : ν → Option Model} {schedule : List (Action ι κ)} {s : State ι κ ν}
    (hrun : run (step version script request) (.started rows) schedule = some s) (hfinished : s.Finished) :
    UpToDate s ↔ Covered version script request (.started rows) schedule := by
  have hempty : Settled script request (.started rows : State ι κ ν) schedule := fun _ _ h => by cases h
  rw [run_upToDate hrun hfinished]
  exact and_iff_right hempty

/-- A script of one megabyte of heap. -/
def oneScript (_ : Unit) : Option Model := some ⟨some [1], none, none, some 1000000⟩

/-- An update that doubles it. -/
def doubled (_ : Unit) : Update Unit := ⟨(), none, none, some 2000000⟩

/-- A run before the update and one after it. -/
def beforeAndAfter : List (Action Bool Unit) :=
  [.read true, .ensureBytecodeVersion true none, .lookup true, .create true true, .find (), .write () [1], .evict (),
    .read false, .ensureBytecodeVersion false none, .lookup false, .create false true]

theorem limits_up_to_date_before_and_after :
    ∃ s, run (step 1 (fun _ : Bool => ()) doubled) (.started oneScript) beforeAndAfter = some s ∧ s.Finished ∧
      UpToDate s ∧ Covered 1 (fun _ : Bool => ()) doubled (.started oneScript) beforeAndAfter := by
  obtain ⟨s, hrun, hfinished, hupToDate⟩ :
      ∃ s, run (step 1 (fun _ : Bool => ()) doubled) (.started oneScript) beforeAndAfter = some s ∧ s.Finished ∧
        UpToDate s := by
    decide +kernel
  exact ⟨s, hrun, hfinished, hupToDate, (limits_up_to_date_iff hrun hfinished).mp hupToDate⟩

/-- A run reads the row, the update writes it and finds no worker to evict, and then the run creates one. -/
theorem worker_keeps_old_limits : ∃ s, run (step 1 (fun _ : Unit => ()) doubled) (.started oneScript)
    [.read (), .ensureBytecodeVersion () none, .find (), .write () [1], .evict (), .lookup (), .create () true] =
      some s ∧ s.Finished ∧ ¬UpToDate s := by
  decide +kernel

end NodeGet.JsRuntime.WorkerLimits
