import NodeGet.Core.Signed
import NodeGet.Machine.Channel
import NodeGet.Machine.RefCount
import NodeGet.Machine.Run

/-! The workers of the script runtime pool (`ng-js-runtime/src/runtime_pool.rs`).

The pool maps a script to the handle of its worker. A call of `execute_script` clones the handle
under a lock of the map, and keeps its clone while it counts itself in, sends its command, waits for
the answer and counts itself out. A clean-up pass looks at every entry under the read lock (clean-up
time, active requests, handles, time of last use: one load each, calls going on between them) and
looks again at its candidates under the write lock; those it still finds idle it removes, and sends
their threads a shutdown command.

What a command carries is in `JsRuntime/Pool.lean`; workers are not evicted here. -/
namespace NodeGet.JsRuntime.WorkerPool
open NodeGet.Core NodeGet.Machine Function

/-! ### Workers -/

inductive Command (ι : Type) where
  | execute (call : ι)
  | shutdown
deriving DecidableEq

/-- Where a worker's thread stands in `worker_loop`. -/
inductive Thread (ι : Type) where
  | starting
  | serving
  | running (call : ι)
  /-- It has no host runtime, and answers every command with an error. -/
  | hostless
  /-- It has taken a shutdown command. -/
  | stopping
  | stopped
  /-- It has panicked, or the last handle is gone. -/
  | ended
deriving DecidableEq

/-- Who owns a handle: the map, a call or the clean-up pass. -/
inductive Owner (ι : Type) where
  | pool
  | call (call : ι)
  | pass
deriving DecidableEq

def queueCapacity : Nat := 256

/-- A `RuntimeWorkerHandle` behind its `Arc`, with its channel and its thread. -/
structure Worker (ι : Type) where
  handle : RefCount (Owner ι)
  channel : Channel (Command ι) queueCapacity
  activeRequests : Nat
  lastUsedMs : Int64
  runtimeCleanTimeMs : Int64
  thread : Thread ι
  /-- History: whose commands were executed. -/
  executed : List ι
  /-- History: whose commands were answered by a thread without a host runtime. -/
  turnedDown : List ι

def runtimeCleanTimeNone : Int64 := -1

/-- What stands for a worker that has not been spawned. -/
def Worker.unspawned {ι : Type} : Worker ι := ⟨.unowned, .empty, 0, 0, runtimeCleanTimeNone, .starting, [], []⟩

section Worker
variable {ι : Type} [DecidableEq ι]

/-- `spawn_worker`, with the clone that goes into the map -/
def Worker.spawned (creator : ι) (now : Int64) : Worker ι :=
  { Worker.unspawned with handle := (RefCount.unowned.clone (.call creator)).clone .pool, lastUsedMs := now }

def Worker.runtimeCleanTime (w : Worker ι) : Option Int64 :=
  if w.runtimeCleanTimeMs < 0 then none else some w.runtimeCleanTimeMs

/-- The receiving end of the channel is there. -/
def Worker.listening (w : Worker ι) : Bool := w.thread ≠ .stopped && w.thread ≠ .ended

/-- Something has come, or never will, on the channel of the call's answer. -/
def Worker.answers (w : Worker ι) (call : ι) : Bool := call ∈ w.executed || call ∈ w.turnedDown || !w.listening

inductive ThreadEvent where
  | boot (hosted : Bool)
  | take
  | finish
  | leave
  | hangUp
  | crash

/-- `worker_loop` -/
def Worker.step (w : Worker ι) : ThreadEvent → Option (Worker ι)
  | .boot hosted =>
    if w.thread = .starting then some { w with thread := if hosted then .serving else .hostless } else none
  | .take =>
    match w.thread, w.channel.recv with
    | .serving, some (.execute call, channel) => some { w with channel, thread := .running call }
    | .serving, some (.shutdown, channel) => some { w with channel, thread := .stopping }
    | .hostless, some (.execute call, channel) => some { w with channel, turnedDown := w.turnedDown ++ [call] }
    | .hostless, some (.shutdown, channel) => some { w with channel }
    | _, _ => none
  | .finish =>
    match w.thread with
    | .running call => some { w with thread := .serving, executed := w.executed ++ [call] }
    | _ => none
  | .leave => if w.thread = .stopping then some { w with thread := .stopped } else none
  | .hangUp =>
    -- the channel is empty and no handle is left to send on it
    if (w.thread = .serving ∨ w.thread = .hostless) ∧ w.channel.queue = [] ∧ w.handle.count = 0 then
      some { w with thread := .ended }
    else none
  | .crash =>
    match w.thread with
    | .running _ => some { w with thread := .ended }
    | _ => none

end Worker

/-! ### Clean-up passes -/

/-- The loads by which an entry is found idle, in their order; the clean-up time is kept. -/
inductive Check where
  | cleanTime
  | activeRequests (cleanMs : Int64)
  | strongCount (cleanMs : Int64)
  | lastUsed (cleanMs : Int64)
deriving DecidableEq

inductive Verdict where
  | keep
  | goOn (next : Check)
  | idle

/-- What one load says of the entry. -/
def Check.verdict {ι : Type} (now : Int64) (w : Worker ι) : Check → Verdict
  | .cleanTime =>
    match w.runtimeCleanTime with
    | none => .keep
    | some cleanMs => if cleanMs ≤ 0 then .keep else .goOn (.activeRequests cleanMs)
  | .activeRequests cleanMs => if 0 < w.activeRequests then .keep else .goOn (.strongCount cleanMs)
  | .strongCount cleanMs => if 1 < w.handle.count then .keep else .goOn (.lastUsed cleanMs)
  | .lastUsed cleanMs => if cleanMs ≤ saturatingSubI64 now w.lastUsedMs then .idle else .keep

/-- The two loops of a pass: over the map, with the candidates so far, and over the candidates. -/
inductive Phase (ν : Type) where
  | collect (candidates : List ν)
  | remove

/-- Where `cleanup_idle_workers` stands, with the names its loop has still to look at. -/
inductive Pass (ι ν : Type) where
  | idle
  | scanning (now : Int64) (phase : Phase ν) (names : List ν)
  | checking (now : Int64) (phase : Phase ν) (name : ν) (check : Check) (names : List ν)
  | passed (now : Int64) (phase : Phase ν) (name : ν) (names : List ν)
  | collected (now : Int64) (candidates : List ν)
  | shutting (now : Int64) (worker : ι) (names : List ν)
  | dropping (now : Int64) (worker : ι) (names : List ν)

section Pass
variable {ι ν : Type}

/-- Where the pass goes after a load. -/
def Pass.after (now : Int64) (phase : Phase ν) (name : ν) (names : List ν) : Verdict → Pass ι ν
  | .keep => .scanning now phase names
  | .goOn next => .checking now phase name next names
  | .idle => .passed now phase name names

def Phase.writes : Phase ν → Bool
  | .collect _ => false
  | .remove => true

/-- The pass holds the write lock of the map. -/
def Pass.writes : Pass ι ν → Bool
  | .scanning _ phase _ | .checking _ phase _ _ _ | .passed _ phase _ _ => phase.writes
  | .shutting _ _ _ | .dropping _ _ _ => true
  | .idle | .collected _ _ => false

/-- The pass holds a lock of the map. -/
def Pass.locks : Pass ι ν → Bool
  | .idle | .collected _ _ => false
  | _ => true

/-- The entry of which the pass knows, under the write lock, that only the map owns its handle. -/
def Pass.clears : Pass ι ν → Option ν
  | .checking _ .remove name (.lastUsed _) _ | .passed _ .remove name _ => some name
  | _ => none

/-- The worker that the pass has removed and has still to shut down. -/
def Pass.shuts : Pass ι ν → Option ι
  | .shutting _ worker _ => some worker
  | _ => none

variable {pass : Pass ι ν}

theorem Pass.writes_of_clears {name : ν} (h : pass.clears = some name) : pass.writes = true := by
  unfold Pass.clears at h
  split at h <;> first | rfl | cases h

theorem Pass.writes_of_shuts {k : ι} (h : pass.shuts = some k) : pass.writes = true := by
  cases pass <;> first | rfl | cases h

theorem Pass.writes_of_locks (h : pass.locks = false) : pass.writes = false := by
  cases pass <;> first | rfl | cases h

end Pass

/-! ### Calls and the whole pool -/

/-- Where a call of `execute_script` stands, with the worker whose handle it owns. -/
inductive Pc (ι : Type) where
  | start
  | missing
  | got (worker : ι)
  | cleanTimeSet (worker : ι)
  | counted (worker : ι)
  | waiting (worker : ι)
  /-- It has an answer, or its command was not accepted. -/
  | settled (worker : ι)
  | stamped (worker : ι)
  | uncounted (worker : ι)
  | finished
  /-- No thread could be spawned. -/
  | failed
deriving DecidableEq

def Pc.handle {ι : Type} : Pc ι → Option ι
  | .got k | .cleanTimeSet k | .counted k | .waiting k | .settled k | .stamped k | .uncounted k => some k
  | .start | .missing | .finished | .failed => none

/-- The call may still create a worker. -/
def Pc.seeking {ι : Type} : Pc ι → Bool
  | .start | .missing => true
  | _ => false

theorem Pc.handle_of_seeking {ι : Type} {pc : Pc ι} (h : pc.seeking) : pc.handle = none := by
  cases pc <;> first | rfl | cases h

/-- A worker is named by the call that created it. -/
structure State (ι ν : Type) where
  workers : ν → Option ι
  worker : ι → Worker ι
  pc : ι → Pc ι
  pass : Pass ι ν

inductive CallEvent where
  | lookup
  | create (spawned : Bool) (now : Int64)
  | setCleanTime
  | count
  | send
  | answer
  /-- The future of the call is dropped at its only await. -/
  | cancel
  | stamp (now : Option Int64)
  | uncount
  | drop

inductive Action (ι ν : Type) where
  | call (call : ι) (event : CallEvent)
  | thread (worker : ι) (event : ThreadEvent)
  /-- A pass reads the clock and begins with the names of the map, in some order. (Nothing here says
  that it looks at all of them.) -/
  | begin (now : Int64) (names : List ν)
  | advance

variable {ι ν : Type} [DecidableEq ι] [DecidableEq ν]

def State.started : State ι ν := ⟨fun _ => none, fun _ => Worker.unspawned, fun _ => .start, .idle⟩

def State.goto (s : State ι ν) (call : ι) (pc : Pc ι) : State ι ν := { s with pc := update s.pc call pc }

def State.put (s : State ι ν) (k : ι) (w : Worker ι) : State ι ν := { s with worker := update s.worker k w }

def Worker.own (w : Worker ι) (owner : Owner ι) : Worker ι := { w with handle := w.handle.clone owner }

def Worker.disown (w : Worker ι) (owner : Owner ι) : Worker ι := { w with handle := w.handle.drop owner }

/-- The call clones the handle it found in the map. -/
def State.clone (s : State ι ν) (call k : ι) : State ι ν := (s.put k ((s.worker k).own (.call call))).goto call (.got k)

/-- The call spawns a worker and puts it in the map. -/
def State.insert (script : ι → ν) (s : State ι ν) (call : ι) (now : Int64) : State ι ν :=
  { (s.put call (.spawned call now)).goto call (.got call) with
    workers := update s.workers (script call) (some call) }

variable (script : ι → ν) (cleanTime : ι → Option Int64)

/-- `execute_script` -/
def stepCall (s : State ι ν) (call : ι) : CallEvent → Option (State ι ν)
  | .lookup =>
    if s.pc call = .start ∧ s.pass.writes = false then
      some (match s.workers (script call) with
        | some k => s.clone call k
        | none => s.goto call .missing)
    else none
  | .create spawned now =>
    if s.pc call = .missing ∧ s.pass.locks = false then
      some (match s.workers (script call) with
        | some k => s.clone call k
        | none => if spawned then s.insert script call now else s.goto call .failed)
    else none
  | .setCleanTime =>
    match s.pc call with
    | .got k =>
      let w := { s.worker k with runtimeCleanTimeMs := (cleanTime call).getD runtimeCleanTimeNone }
      some ((s.put k w).goto call (.cleanTimeSet k))
    | _ => none
  | .count =>
    match s.pc call with
    | .cleanTimeSet k =>
      let w := { s.worker k with activeRequests := (s.worker k).activeRequests + 1 }
      some ((s.put k w).goto call (.counted k))
    | _ => none
  | .send =>
    match s.pc call with
    | .counted k =>
      if (s.worker k).listening then
        some (match (s.worker k).channel.trySend (.execute call) with
          | some channel => (s.put k { s.worker k with channel }).goto call (.waiting k)
          | none => s.goto call (.settled k))
      else some (s.goto call (.settled k))
    | _ => none
  | .answer =>
    match s.pc call with
    | .waiting k => if (s.worker k).answers call then some (s.goto call (.settled k)) else none
    | _ => none
  | .cancel =>
    match s.pc call with
    | .waiting k => some (s.goto call (.stamped k))
    | _ => none
  | .stamp now =>
    match s.pc call with
    | .settled k =>
      let w := { s.worker k with lastUsedMs := now.getD (s.worker k).lastUsedMs }
      some ((s.put k w).goto call (.stamped k))
    | _ => none
  | .uncount =>
    match s.pc call with
    | .stamped k =>
      let w := { s.worker k with activeRequests := (s.worker k).activeRequests - 1 }
      some ((s.put k w).goto call (.uncounted k))
    | _ => none
  | .drop =>
    match s.pc call with
    | .uncounted k => some ((s.put k ((s.worker k).disown (.call call))).goto call .finished)
    | _ => none

/-- The next step of a pass that has begun. -/
def advance (s : State ι ν) : Option (State ι ν) :=
  match s.pass with
  | .idle => none
  | .scanning now (.collect candidates) [] =>
    some { s with pass := if candidates.isEmpty then .idle else .collected now candidates }
  | .scanning _ .remove [] => some { s with pass := .idle }
  | .scanning now phase (name :: names) => some { s with pass := .checking now phase name .cleanTime names }
  | .checking now phase name check names =>
    match s.workers name with
    | none => some { s with pass := .scanning now phase names }
    | some k => some { s with pass := .after now phase name names (check.verdict now (s.worker k)) }
  | .passed now (.collect candidates) name names =>
    some { s with pass := .scanning now (.collect (candidates ++ [name])) names }
  | .collected now candidates => some { s with pass := .scanning now .remove candidates }
  | .passed now .remove name names =>
    match s.workers name with
    | none => some { s with pass := .scanning now .remove names }
    | some k =>
      some { s.put k { s.worker k with handle := (s.worker k).handle.handOver .pool .pass } with
        workers := update s.workers name none
        pass := .shutting now k names }
  | .shutting now k names =>
    if (s.worker k).listening then
      -- `send` waits for room
      ((s.worker k).channel.trySend .shutdown).map fun channel =>
        { s.put k { s.worker k with channel } with pass := .dropping now k names }
    else some { s with pass := .dropping now k names }
  | .dropping now k names => some { s.put k ((s.worker k).disown .pass) with pass := .scanning now .remove names }

def step (s : State ι ν) : Action ι ν → Option (State ι ν)
  | .call call event => stepCall script cleanTime s call event
  | .thread k event => ((s.worker k).step event).map (s.put k)
  | .begin now names =>
    match s.pass with
    | .idle => some { s with pass := .scanning now (.collect []) names }
    | _ => none
  | .advance => advance s

/-! ### What a step can do -/

/-- What a call does in one step. -/
inductive CallStep (s : State ι ν) (call : ι) : State ι ν → Prop where
  | finds {k : ι} (hseeking : (s.pc call).seeking) (hwrites : s.pass.writes = false)
      (hfound : s.workers (script call) = some k) : CallStep s call (s.clone call k)
  | creates {now : Int64} (hseeking : (s.pc call).seeking) (hwrites : s.pass.writes = false)
      (hnone : s.workers (script call) = none) : CallStep s call (s.insert script call now)
  | moves {pc : Pc ι} (hhandle : pc.handle = (s.pc call).handle) (hseeking : pc.seeking → (s.pc call).seeking) :
      CallStep s call (s.goto call pc)
  | edits {k : ι} {pc : Pc ι} {w : Worker ι} (hheld : (s.pc call).handle = some k) (hpc : pc.handle = some k)
      (hhandle : w.handle = (s.worker k).handle) (hchannel : w.channel = (s.worker k).channel)
      (hthread : w.thread = (s.worker k).thread) (hexecuted : w.executed = (s.worker k).executed) :
      CallStep s call ((s.put k w).goto call pc)
  | sends {k : ι} {channel : Channel (Command ι) queueCapacity} (hheld : (s.pc call).handle = some k)
      (hsent : (s.worker k).channel.trySend (.execute call) = some channel) :
      CallStep s call ((s.put k { s.worker k with channel }).goto call (.waiting k))
  | drops {k : ι} (hheld : (s.pc call).handle = some k) :
      CallStep s call ((s.put k ((s.worker k).disown (.call call))).goto call .finished)

variable {script cleanTime}

variable {s t : State ι ν} {now : Int64} {w : Worker ι} {check : Check}

theorem stepCall_cases {call : ι} {event : CallEvent} (h : stepCall script cleanTime s call event = some t) :
    CallStep script s call t := by
  cases event <;> simp only [stepCall] at h
  case lookup =>
    obtain ⟨⟨hpc, hwrites⟩, h⟩ := Option.ite_none_right_eq_some.mp h
    cases hfound : s.workers (script call) <;> rw [hfound] at h <;> cases h
    · exact .moves (by rw [hpc]; rfl) fun _ => by rw [hpc]; rfl
    · exact .finds (by rw [hpc]; rfl) hwrites hfound
  case create spawned now =>
    obtain ⟨⟨hpc, hlocks⟩, h⟩ := Option.ite_none_right_eq_some.mp h
    have hwrites := Pass.writes_of_locks hlocks
    cases hfound : s.workers (script call) <;> rw [hfound] at h <;> cases h
    · cases spawned
      · exact .moves (by rw [hpc]; rfl) fun _ => by rw [hpc]; rfl
      · exact .creates (by rw [hpc]; rfl) hwrites hfound
    · exact .finds (by rw [hpc]; rfl) hwrites hfound
  case send =>
    split at h
    next k hpc =>
      have hheld : (s.pc call).handle = some k := by rw [hpc]; rfl
      split at h
      next =>
        cases hsent : (s.worker k).channel.trySend (.execute call) <;> rw [hsent] at h <;> cases h
        · exact .moves hheld.symm fun hseeking => absurd hseeking Bool.false_ne_true
        · exact .sends hheld hsent
      next =>
        cases h
        exact .moves hheld.symm fun hseeking => absurd hseeking Bool.false_ne_true
    next => cases h
  case answer =>
    split at h
    next k hpc =>
      obtain ⟨-, h⟩ := Option.ite_none_right_eq_some.mp h
      cases h
      exact .moves (by rw [hpc]; rfl) fun hseeking => absurd hseeking Bool.false_ne_true
    next => cases h
  case cancel =>
    split at h
    next k hpc =>
      cases h
      exact .moves (by rw [hpc]; rfl) fun hseeking => absurd hseeking Bool.false_ne_true
    next => cases h
  case drop =>
    split at h
    next k hpc =>
      cases h
      exact .drops (by rw [hpc]; rfl)
    next => cases h
  all_goals
    split at h
    next k hpc =>
      cases h
      exact .edits (by rw [hpc]; rfl) rfl rfl rfl rfl rfl
    next => cases h

/-- What a pass does in one step. -/
inductive PassStep (s : State ι ν) : State ι ν → Prop where
  | looks {pass : Pass ι ν} (hshuts : pass.shuts = none)
      (hclears : ∀ name, pass.clears = some name → s.pass.clears = some name ∨
        ∀ k, s.workers name = some k → (s.worker k).handle.count ≤ 1) :
      PassStep s { s with pass }
  | removes {now : Int64} {name : ν} {k : ι} {names : List ν} (hclears : s.pass.clears = some name)
      (hfound : s.workers name = some k) :
      PassStep s { s.put k { s.worker k with handle := (s.worker k).handle.handOver .pool .pass } with
        workers := update s.workers name none
        pass := .shutting now k names }
  | shuts {now : Int64} {k : ι} {names : List ν} {channel : Channel (Command ι) queueCapacity}
      (hshuts : s.pass.shuts = some k) (hsent : (s.worker k).channel.trySend .shutdown = some channel) :
      PassStep s { s.put k { s.worker k with channel } with pass := .dropping now k names }
  | drops {now : Int64} {k : ι} {names : List ν} :
      PassStep s { s.put k ((s.worker k).disown .pass) with pass := .scanning now .remove names }

omit [DecidableEq ι] in
theorem count_of_verdict {cleanMs : Int64} (h : check.verdict now w = .goOn (.lastUsed cleanMs)) :
    w.handle.count ≤ 1 := by
  cases check <;> simp only [Check.verdict] at h
  case strongCount =>
    split at h
    next => cases h
    next hcount => exact Nat.not_lt.mp hcount
  case cleanTime =>
    split at h
    next => cases h
    next => split at h <;> cases h
  all_goals split at h <;> cases h

omit [DecidableEq ι] in
theorem lastUsed_of_verdict (h : check.verdict now w = .idle) : ∃ cleanMs, check = .lastUsed cleanMs := by
  cases check <;> simp only [Check.verdict] at h
  case lastUsed cleanMs => exact ⟨cleanMs, rfl⟩
  case cleanTime =>
    split at h
    next => cases h
    next => split at h <;> cases h
  all_goals split at h <;> cases h

/-- Only the load of the handles' number clears an entry that was not cleared before. -/
theorem looks_checking {phase : Phase ν} {name : ν} {names : List ν} {k : ι}
    (hpass : s.pass = .checking now phase name check names) (hfound : s.workers name = some k) :
    PassStep s { s with pass := .after now phase name names (check.verdict now (s.worker k)) } := by
  cases hverdict : check.verdict now (s.worker k) with
  | keep => exact .looks rfl fun _ h => by cases h
  | goOn next =>
    refine .looks rfl fun cleared h => .inr ?_
    cases phase with
    | collect => cases h
    | remove =>
      cases next with
      | lastUsed =>
        cases h
        intro k' hk'
        cases hfound.symm.trans hk'
        exact count_of_verdict hverdict
      | _ => cases h
  | idle =>
    refine .looks rfl fun cleared h => .inl ?_
    cases phase with
    | collect => cases h
    | remove =>
      obtain ⟨cleanMs, rfl⟩ := lastUsed_of_verdict hverdict
      rw [hpass]
      exact h

theorem advance_cases (h : advance s = some t) : PassStep s t := by
  unfold advance at h
  split at h
  case h_1 => cases h
  case h_2 candidates _ =>
    cases h
    cases candidates <;> exact .looks rfl fun _ h => by cases h
  case h_3 =>
    cases h
    exact .looks rfl fun _ h => by cases h
  case h_4 phase _ _ _ =>
    cases h
    cases phase <;> exact .looks rfl fun _ h => by cases h
  case h_5 now phase name check names hpass =>
    split at h
    next =>
      cases h
      exact .looks rfl fun _ h => by cases h
    next k hfound =>
      cases h
      exact looks_checking hpass hfound
  case h_6 =>
    cases h
    exact .looks rfl fun _ h => by cases h
  case h_7 =>
    cases h
    exact .looks rfl fun _ h => by cases h
  case h_8 hpass =>
    split at h
    next =>
      cases h
      exact .looks rfl fun _ h => by cases h
    next k hfound =>
      cases h
      exact .removes (by rw [hpass]; rfl) hfound
  case h_9 hpass =>
    split at h
    next =>
      obtain ⟨channel, hsent, rfl⟩ := Option.map_eq_some_iff.mp h
      exact .shuts (by rw [hpass]; rfl) hsent
    next =>
      cases h
      exact .looks rfl fun _ h => by cases h
  case h_10 =>
    cases h
    exact .drops

end NodeGet.JsRuntime.WorkerPool
