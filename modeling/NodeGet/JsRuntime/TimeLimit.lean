import NodeGet.Machine.Run

/-! Script code and its time limit (`ng-js-runtime/src/runtime_pool.rs`: `execute_on_worker`).

Code of a script runs in up to four phases of a call: the evaluation of the module, when the runtime state
has not the call's bytecode loaded; the handler; the clean-up, when the script has put code of its own
behind the globals that it uses; and the drain of the jobs that are left. Which of them there are depends
on the calls before: a first call, other bytecode, a load that failed or a state that was dropped all make
the next call evaluate its module, and what a script does to the globals stays with the runtime state. The
watch is registered before the handler and cancelled after it, so the handler is under it and the other
three are not (`watched_iff`). -/
namespace NodeGet.JsRuntime.TimeLimit
open NodeGet.Machine Function

/-! ### State and steps -/

/-- What a command says of the call: the hash of its bytecode and its time limit. -/
structure Call where
  bytecodeHash : UInt64
  maxRunTimeMs : UInt64
deriving DecidableEq

/-- A phase in which code of the script runs. -/
inductive Phase where
  | evaluation
  | handler
  /-- Clearing the timers and reading whether `fetch` was used. -/
  | cleanUp
  /-- The bounded `idle` at the end. -/
  | drain
deriving DecidableEq

/-- Where a worker's thread stands in `execute_on_worker`. -/
inductive Pc where
  | idle
  | begun (call : Call)
  /-- There is a runtime state, and its kill flag is cleared. -/
  | ready (call : Call)
  | loaded (call : Call)
  | watched (call : Call)
  | invoked (call : Call)
  | cancelled (call : Call)
  /-- The timers are cleared; jobs that run code of the script are left, or none are. -/
  | cleaned (call : Call) (pending : Bool)
deriving DecidableEq

/-- How loading a module ends: the engine does not take the bytecode, evaluating the module fails (or it
has no default export to take), or all goes well. -/
inductive Load where
  | rejected
  | failed
  | evaluated
deriving DecidableEq

/-- A phase was entered, with the limit of the watch that was registered and not cancelled. -/
structure Entry where
  call : Call
  phase : Phase
  watch : Option UInt64
deriving DecidableEq

structure RuntimeState where
  loadedBytecodeHash : Option UInt64
  /-- Code of the script stands behind `__nodeget_clear_all_timers` or `__nodeget_fetch_used`. -/
  replaced : Bool
deriving DecidableEq

/-- The workers are named by their scripts. -/
structure State (ν : Type) where
  runtime : ν → Option RuntimeState
  pc : ν → Pc
  /-- The limit of the watch that the worker's call has registered and not cancelled. -/
  watch : ν → Option UInt64
  /-- History: the phases entered. -/
  entered : List Entry

/-- Where code of the script may run, the action says whether it leaves the globals of the clean-up replaced. -/
inductive Action (ν : Type) where
  | begin (name : ν) (call : Call)
  | create (name : ν) (created : Bool)
  | load (name : ν) (outcome : Load) (replaced : Bool)
  | register (name : ν)
  | invoke (name : ν) (prepared replaced : Bool)
  | cancel (name : ν)
  /-- The state is dropped after a kill. -/
  | cleanUp (name : ν) (killed pending replaced : Bool)
  /-- The state is dropped when its pending work does not end. -/
  | drain (name : ν) (ended replaced : Bool)
  /-- The worker is removed from the pool, and the next one starts without a state. -/
  | shutDown (name : ν)

variable {ν : Type} [DecidableEq ν]

/-- No call goes on; the states are those that earlier calls have left. -/
def State.resting (runtime : ν → Option RuntimeState) : State ν := ⟨runtime, fun _ => .idle, fun _ => none, []⟩

def State.goto (s : State ν) (name : ν) (pc : Pc) : State ν := { s with pc := update s.pc name pc }

def State.setRuntime (s : State ν) (name : ν) (runtime : Option RuntimeState) : State ν :=
  { s with runtime := update s.runtime name runtime }

def State.setWatch (s : State ν) (name : ν) (watch : Option UInt64) : State ν :=
  { s with watch := update s.watch name watch }

/-- A phase in which code of the script runs, or none does. -/
def State.enter (s : State ν) (name : ν) (call : Call) (phase : Phase) (runs replaced : Bool) : State ν :=
  if runs then
    { s.setRuntime name ((s.runtime name).map ({ · with replaced })) with
      entered := s.entered ++ [⟨call, phase, s.watch name⟩] }
  else s

def State.loaded (s : State ν) (name : ν) : Option UInt64 := (s.runtime name).bind (·.loadedBytecodeHash)

def State.replaced (s : State ν) (name : ν) : Bool := (s.runtime name).any (·.replaced)

def step (s : State ν) : Action ν → Option (State ν)
  | .begin name call =>
    match s.pc name with
    | .idle => some (s.goto name (.begun call))
    | _ => none
  | .create name created =>
    match s.pc name with
    | .begun call =>
      if (s.runtime name).isSome then some (s.goto name (.ready call))
      else if created then some ((s.setRuntime name (some ⟨none, false⟩)).goto name (.ready call))
      else some (s.goto name .idle)
    | _ => none
  | .load name outcome replaced =>
    match s.pc name with
    | .ready call =>
      if s.loaded name = some call.bytecodeHash then some (s.goto name (.loaded call))
      else
        let s := s.enter name call .evaluation (outcome ≠ .rejected) replaced
        if outcome = .evaluated then
          some ((s.setRuntime name (some ⟨some call.bytecodeHash, replaced⟩)).goto name (.loaded call))
        else some (s.goto name .idle)
    | _ => none
  | .register name =>
    match s.pc name with
    | .loaded call => some ((s.setWatch name (some call.maxRunTimeMs)).goto name (.watched call))
    | _ => none
  | .invoke name prepared replaced =>
    match s.pc name with
    | .watched call => some ((s.enter name call .handler prepared replaced).goto name (.invoked call))
    | _ => none
  | .cancel name =>
    match s.pc name with
    | .invoked call => some ((s.setWatch name none).goto name (.cancelled call))
    | _ => none
  | .cleanUp name killed pending replaced =>
    match s.pc name with
    | .cancelled call =>
      let s := s.enter name call .cleanUp (s.replaced name) replaced
      if killed then some ((s.setRuntime name none).goto name .idle) else some (s.goto name (.cleaned call pending))
    | _ => none
  | .drain name ended replaced =>
    match s.pc name with
    | .cleaned call pending =>
      let s := s.enter name call .drain pending replaced
      if ended then some (s.goto name .idle) else some ((s.setRuntime name none).goto name .idle)
    | _ => none
  | .shutDown name =>
    match s.pc name with
    | .idle => some (s.setRuntime name none)
    | _ => none

/-! ### Phases under a watch -/

/-- Every phase was entered under a watch with its call's limit. -/
def Watched (s : State ν) : Prop := ∀ e ∈ s.entered, e.watch = some e.call.maxRunTimeMs

instance Watched.decidable (s : State ν) : Decidable (Watched s) :=
  inferInstanceAs (Decidable (∀ e ∈ s.entered, e.watch = some e.call.maxRunTimeMs))

/-- Before it is watched the call finds its bytecode loaded, or bytecode that the engine does not take, and
after it there is no code of the script in the clean-up and no job left. -/
def OnlyHandler (s : State ν) : Action ν → Prop
  | .load name outcome _ =>
    ∀ call, s.pc name = .ready call → s.loaded name = some call.bytecodeHash ∨ outcome = .rejected
  | .cleanUp name _ _ _ => s.replaced name = false
  | .drain name _ _ => ∀ call, s.pc name ≠ .cleaned call true
  | _ => True

/-- The watch a call has when it stands at the given place. -/
def Pc.watch : Pc → Option UInt64
  | .watched call | .invoked call => some call.maxRunTimeMs
  | .idle | .begun _ | .ready _ | .loaded _ | .cancelled _ | .cleaned _ _ => none

def Tracked (s : State ν) : Prop := ∀ name, s.watch name = (s.pc name).watch

section Steps
variable {s t : State ν} {name : ν}

theorem Tracked.goto (hs : Tracked s) {pc : Pc} (hpc : pc.watch = (s.pc name).watch) : Tracked (s.goto name pc) := by
  intro n
  by_cases hn : n = name
  · subst hn
    simp only [State.goto, update_self]
    rw [hs n, hpc]
  · simp only [State.goto, update_of_ne hn]
    exact hs n

theorem Tracked.setWatch (hs : Tracked s) (pc : Pc) : Tracked ((s.setWatch name pc.watch).goto name pc) := by
  intro n
  by_cases hn : n = name
  · subst hn
    simp only [State.goto, State.setWatch, update_self]
  · simp only [State.goto, State.setWatch, update_of_ne hn]
    exact hs n

section Enter
variable {call : Call} {phase : Phase} {runs replaced : Bool}

theorem Tracked.enter_goto (hs : Tracked s) {pc : Pc} (hpc : pc.watch = (s.pc name).watch) :
    Tracked ((s.enter name call phase runs replaced).goto name pc) := by
  cases runs <;> exact Tracked.goto hs hpc

theorem Tracked.enter_set (hs : Tracked s) {pc : Pc} {runtime : Option RuntimeState}
    (hpc : pc.watch = (s.pc name).watch) :
    Tracked (((s.enter name call phase runs replaced).setRuntime name runtime).goto name pc) := by
  cases runs <;> exact Tracked.goto hs hpc

theorem watched_enter : Watched (s.enter name call phase runs replaced) ↔
    Watched s ∧ (runs = true → s.watch name = some call.maxRunTimeMs) := by
  cases runs with
  | false => exact (and_iff_left fun h => by cases h).symm
  | true =>
    simp only [Watched, State.enter, if_true, List.forall_mem_append, List.forall_mem_singleton, forall_const]

/-- Without a watch, no code of the script may run. -/
theorem unwatched_enter (hs : Tracked s) (hpc : (s.pc name).watch = none) :
    Watched (s.enter name call phase runs replaced) ↔ Watched s ∧ runs = false := by
  rw [watched_enter, hs name, hpc, ← Bool.not_eq_true]
  simp only [reduceCtorEq, imp_false]

end Enter

/-- A step keeps track of the watches, and enters phases under one as far as it is the handler that runs. -/
theorem step_watched {action : Action ν} (hs : Tracked s) (h : step s action = some t) :
    Tracked t ∧ (Watched t ↔ Watched s ∧ OnlyHandler s action) := by
  cases action <;> simp only [step] at h
  case load n outcome replaced =>
    split at h
    next call hpc =>
      have hnone : (s.pc n).watch = none := by rw [hpc]; rfl
      split at h
      next hloaded =>
        cases h
        refine ⟨hs.goto hnone.symm, (and_iff_left fun c hc => .inl ?_).symm⟩
        cases hpc.symm.trans hc
        exact hloaded
      next hother =>
        have hentered : Watched (s.enter n call .evaluation (outcome ≠ .rejected) replaced) ↔
            Watched s ∧ OnlyHandler s (.load n outcome replaced) := by
          rw [unwatched_enter hs hnone, decide_eq_false_iff_not, not_not]
          refine and_congr_right fun _ => ⟨fun h _ _ => .inr h, fun h => (h call hpc).resolve_left hother⟩
        split at h
        all_goals
          cases h
          refine ⟨?_, hentered⟩
        · exact hs.enter_set hnone.symm
        · exact hs.enter_goto hnone.symm
    next => cases h
  case cleanUp n killed pending replaced =>
    split at h
    next call hpc =>
      have hnone : (s.pc n).watch = none := by rw [hpc]; rfl
      have hentered : Watched (s.enter n call .cleanUp (s.replaced n) replaced) ↔ Watched s ∧ s.replaced n = false :=
        unwatched_enter hs hnone
      cases killed <;> cases h
      · exact ⟨hs.enter_goto hnone.symm, hentered⟩
      · exact ⟨hs.enter_set hnone.symm, hentered⟩
    next => cases h
  case drain n ended replaced =>
    split at h
    next call pending hpc =>
      have hnone : (s.pc n).watch = none := by rw [hpc]; rfl
      have hentered : Watched (s.enter n call .drain pending replaced) ↔
          Watched s ∧ OnlyHandler s (.drain n ended replaced) := by
        rw [unwatched_enter hs hnone]
        refine and_congr_right fun _ => ?_
        simp [OnlyHandler, hpc]
      cases ended <;> cases h
      · exact ⟨hs.enter_set hnone.symm, hentered⟩
      · exact ⟨hs.enter_goto hnone.symm, hentered⟩
    next => cases h
  case invoke n prepared replaced =>
    split at h
    next call hpc =>
      have hwatch : s.watch n = some call.maxRunTimeMs := by rw [hs n, hpc]; rfl
      cases h
      refine ⟨hs.enter_goto (by rw [hpc]; rfl), ?_⟩
      rw [and_iff_left (show OnlyHandler s (.invoke n prepared replaced) from trivial)]
      exact watched_enter.trans (and_iff_left fun _ => hwatch)
    next => cases h
  case create n created =>
    split at h
    next call hpc =>
      have hnone : (s.pc n).watch = none := by rw [hpc]; rfl
      split at h
      next =>
        cases h
        exact ⟨hs.goto hnone.symm, (and_iff_left trivial).symm⟩
      next =>
        cases created <;> cases h
        · exact ⟨hs.goto hnone.symm, (and_iff_left trivial).symm⟩
        · exact ⟨Tracked.goto (s := s.setRuntime n _) hs hnone.symm, (and_iff_left trivial).symm⟩
    next => cases h
  case register n =>
    split at h
    next call hpc =>
      cases h
      exact ⟨hs.setWatch (.watched call), (and_iff_left trivial).symm⟩
    next => cases h
  case cancel n =>
    split at h
    next call hpc =>
      cases h
      exact ⟨hs.setWatch (.cancelled call), (and_iff_left trivial).symm⟩
    next => cases h
  case begin n call =>
    split at h
    next hpc =>
      cases h
      exact ⟨hs.goto (by rw [hpc]; rfl), (and_iff_left trivial).symm⟩
    next => cases h
  case shutDown n =>
    split at h
    next =>
      cases h
      exact ⟨hs, (and_iff_left trivial).symm⟩
    next => cases h

end Steps

/-! ### Whole sequences of calls -/

/-- Every phase in which code of a script runs is under a watch with its call's limit exactly when every call
that comes to its module finds it loaded, or is turned down by the engine, every clean-up finds its globals as
the runtime has set them up, and every drain finds no job left. -/
theorem watched_iff {runtime : ν → Option RuntimeState} {schedule : List (Action ν)} {s : State ν}
    (hrun : run step (.resting runtime) schedule = some s) :
    Watched s ↔ Along step OnlyHandler (.resting runtime) schedule := by
  have hrest : Watched (.resting runtime : State ν) := fun _ h => by cases h
  rw [run_iff_along (fun s a t hs h => (step_watched hs h).1) (fun s a t hs h => (step_watched hs h).2)
    (fun _ => rfl) hrun]
  exact and_iff_right hrest

/-- One call of a script, from its command to its answer. -/
def oneCall (call : Call) (replaced pending : Bool) : List (Action Unit) :=
  [.begin () call, .create () true, .load () .evaluated false, .register (), .invoke () true replaced, .cancel (),
    .cleanUp () false pending replaced, .drain () true replaced]

/-- Two calls with the bytecode that an earlier call has left loaded, which leave nothing behind. -/
theorem watched_reused_state :
    ∃ s, run step (.resting fun _ => some ⟨some 7, false⟩) (oneCall ⟨7, 1000⟩ false false ++ oneCall ⟨7, 500⟩ false false) =
        some s ∧ s.entered.length = 2 ∧ Watched s ∧
      Along step OnlyHandler (.resting fun _ => some ⟨some 7, false⟩)
        (oneCall ⟨7, 1000⟩ false false ++ oneCall ⟨7, 500⟩ false false) := by
  obtain ⟨s, hrun, hentered, hwatched⟩ :
      ∃ s, run step (.resting fun _ => some ⟨some 7, false⟩)
          (oneCall ⟨7, 1000⟩ false false ++ oneCall ⟨7, 500⟩ false false) = some s ∧
        s.entered.length = 2 ∧ Watched s := by
    decide +kernel
  exact ⟨s, hrun, hentered, hwatched, (watched_iff hrun).mp hwatched⟩

/-- The first call of a script evaluates its module, and no watch is registered. With the module loaded, a
handler that replaces the globals of the clean-up, or leaves a job, has code run after its watch is cancelled. -/
theorem first_call_evaluates_unwatched :
    (∃ s, run step (.resting fun _ => none) (oneCall ⟨7, 1000⟩ false false) = some s ∧ ¬Watched s) ∧
    (∃ s, run step (.resting fun _ => some ⟨some 7, false⟩) (oneCall ⟨7, 1000⟩ true false) = some s ∧ ¬Watched s) ∧
    ∃ s, run step (.resting fun _ => some ⟨some 7, false⟩) (oneCall ⟨7, 1000⟩ false true) = some s ∧ ¬Watched s := by
  decide +kernel

end NodeGet.JsRuntime.TimeLimit
