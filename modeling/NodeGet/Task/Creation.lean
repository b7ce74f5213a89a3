import NodeGet.Task.Blocking
import NodeGet.Task.ClosedSink
import NodeGet.Task.Event

/-! Creating tasks (`ng-task/src/rpc/create_task.rs`, `ng-task/src/rpc/create_task_blocking.rs`,
and `send_event` and the waiters of `TaskManager` in `ng-task/src/rpc/mod.rs`).

A call looks whether its agent has a session, writes a row, enrols the agent in the table of
agents (whether that worked is only logged), enters a waiter if it is to block, and sends the
event. When the event is not accepted, the waiter and the row are removed again. The sessions
are those of `Sessions`, where the events are named after the calls that send them; the steps of
`send_event` are taken by the calls here.

The database works, and no request deletes rows other than the calls that take their own row
back. Beside all that a call's future may be dropped wherever it awaits something.

What a call owns at each of its places is said once (`Local`): whether its row is in the table,
what became of its event, and whether a waiter of its own may be entered. -/
namespace NodeGet.Task.Creation
open NodeGet.Core NodeGet.Machine NodeGet.Task.Retention Function
open Blocking (TaskEventResponse Waiters newRow sendAnswer channelClosed timedOut checkUpload storeResult writeResult)

/-! ### Calls and their places -/

structure TaskEvent where
  taskId : UInt64
  taskToken : String
  taskEventType : TaskEventType

inductive Call (ρ : Type) where
  | create (targetUuid : Uuid) (taskType : TaskEventType)
  | createBlocking (targetUuid : Uuid) (taskType : TaskEventType) (timeoutMs : UInt64)
  | upload (response : TaskEventResponse ρ)

/-- The task a call creates. -/
def Call.task? {ρ : Type} : Call ρ → Option (Uuid × TaskEventType)
  | .create targetUuid taskType | .createBlocking targetUuid taskType _ => some (targetUuid, taskType)
  | .upload _ => none

def Call.blocks {ρ : Type} : Call ρ → Bool
  | .createBlocking .. => true
  | .create .. | .upload _ => false

def Call.target {ρ : Type} : Call ρ → Uuid
  | .create targetUuid _ | .createBlocking targetUuid _ _ => targetUuid
  | .upload response => response.agentUuid

inductive Answer (ρ : Type) where
  | created (id : Int64)
  | response (response : TaskEventResponse ρ)

inductive Pc (ρ : Type) where
  | start
  /-- The agent has a session. -/
  | online
  | inserted (row : Blocking.Row)
  | enrolled (row : Blocking.Row)
  /-- In `send_event`; a blocking call has entered its waiter. -/
  | sending (row : Blocking.Row)
  | waiting (row : Blocking.Row)
  /-- The event was not accepted, and the waiter has to go. -/
  | unsent (row : Blocking.Row) (e : TaskSendError)
  /-- The event was not accepted, and the row has to go. -/
  | withdrawing (row : Blocking.Row) (e : TaskSendError)
  | withdrawn (row : Blocking.Row) (e : TaskSendError)
  /-- The wait is over without a response. -/
  | expired (row : Blocking.Row) (e : NodegetError)
  /-- The call has returned: before it wrote a row, with a row, and with its row taken back. -/
  | refused (e : NodegetError)
  | done (row : Blocking.Row) (answer : Except NodegetError (Answer ρ))
  | rolledBack (row : Blocking.Row) (e : NodegetError)
  /-- The call's future was dropped. -/
  | dropped (row : Option Blocking.Row)
  /-- An upload has found its row without a result. -/
  | checked
  /-- An upload has written the row. -/
  | stored
  | uploaded (id : UInt64)

namespace Pc
variable {ρ : Type}

/-- The row a call has written. -/
def row : Pc ρ → Option Blocking.Row
  | inserted row | enrolled row | sending row | waiting row | unsent row _ | withdrawing row _ | withdrawn row _
  | expired row _ | done row _ | rolledBack row _ => some row
  | dropped row => row
  | start | online | refused _ | checked | stored | uploaded _ => none

/-- What a call that creates a task has returned. -/
def answer : Pc ρ → Option (Except NodegetError (Answer ρ))
  | refused e | rolledBack _ e => some (.error e)
  | done _ answer => some answer
  | start | online | inserted _ | enrolled _ | sending _ | waiting _ | unsent .. | withdrawing .. | withdrawn ..
  | expired .. | dropped _ | checked | stored | uploaded _ => none

def isSending : Pc ρ → Bool
  | sending _ => true
  | _ => false

/-- The call has begun and is neither answered nor dropped. -/
def underWay : Pc ρ → Bool
  | online | inserted _ | enrolled _ | sending _ | waiting _ | unsent .. | withdrawing .. | withdrawn ..
  | expired .. | checked | stored => true
  | start | refused _ | done .. | rolledBack .. | dropped _ | uploaded _ => false

/-- The places with an `await`, other than the one in `send_event`: there the statement may have
been executed or not. -/
def awaits : Pc ρ → Bool
  | start | online | inserted _ | waiting _ | withdrawing .. | withdrawn .. | checked | stored => true
  | enrolled _ | sending _ | unsent .. | expired .. | refused _ | done .. | rolledBack .. | dropped _
  | uploaded _ => false

end Pc

/-! ### State -/

/-- Sessions are named by their registration. -/
structure State (σ ι ρ : Type) where
  sessions : Sessions.State σ ι
  table : IdTable Blocking.Row Blocking.Row.id
  waiters : Waiters ι ρ
  pc : ι → Pc ρ
  /-- History: the event a call has made. -/
  event : ι → Option TaskEvent
  /-- History: the ids of the rows there have been. -/
  used : List Int64

def start {σ ι ρ : Type} (sessions : Sessions.State σ ι) (table : IdTable Blocking.Row Blocking.Row.id) :
    State σ ι ρ where
  sessions := sessions
  table := table
  waiters := ⟨fun _ => none, fun _ => .empty⟩
  pc := fun _ => .start
  event := fun _ => none
  used := table.rows.map (·.id)

/-! ### Steps -/

/-- Whose `send_event` the step belongs to. -/
def caller {σ ι : Type} : Sessions.Action σ ι → Option ι
  | .look c | .send c | .drop c => some c
  | .register _ | .take _ | .close _ | .forward _ | .fail _ | .remove _ | .finish _ => none

inductive Action (σ ι : Type) where
  /-- A session, or a call that is in `send_event`, moves on. -/
  | session (a : Sessions.Action σ ι)
  /-- The call ends before its first statement. -/
  | refuse (i : ι) (e : NodegetError)
  | precheck (i : ι)
  /-- The database gives the id, and the call has drawn a token. -/
  | insert (i : ι) (id : Int64) (token : String)
  | enroll (i : ι)
  /-- The event is made, after the waiter of a blocking call has been entered. -/
  | prepare (i : ι)
  /-- `send_event` has returned. -/
  | sent (i : ι)
  | unregister (i : ι)
  | rollback (i : ι)
  | reply (i : ι)
  | receive (i : ι)
  | expire (i : ι)
  | discard (i : ι)
  /-- With what the row's task type and the caller's permissions say. -/
  | check (i : ι) (verdict : Except NodegetError Unit)
  | store (i : ι)
  | notify (i : ι)
  | cancel (i : ι)

/-- Whose step it is. -/
def Action.actor {σ ι : Type} : Action σ ι → Option ι
  | .session a => caller a
  | .refuse i _ | .precheck i | .insert i _ _ | .enroll i | .prepare i | .sent i | .unregister i | .rollback i
  | .reply i | .receive i | .expire i | .discard i | .check i _ | .store i | .notify i | .cancel i => some i

section Machine
variable {σ ι ρ : Type} [DecidableEq ι] (agent regId : σ → Uuid)
  (serialize : ρ → Except String Json) (calls : ι → Call ρ)

def State.goto (s : State σ ι ρ) (i : ι) (pc : Pc ρ) : State σ ι ρ := { s with pc := update s.pc i pc }

def event (row : Blocking.Row) (taskType : TaskEventType) : TaskEvent := ⟨row.id.toUInt64, row.token, taskType⟩

/-- A call that waits for the lock of the sessions may be dropped there. -/
def State.droppable (s : State σ ι ρ) (i : ι) : Bool :=
  match s.pc i, s.sessions.call i with
  | .sending _, .start => true
  | pc, _ => pc.awaits

variable [DecidableEq σ] in
def step (s : State σ ι ρ) : Action σ ι → Option (State σ ι ρ)
  | .session a =>
    if (caller a).all fun i => (s.pc i).isSending then
      (Sessions.step agent regId (fun i => (calls i).target) s.sessions a).map fun sessions => { s with sessions }
    else none
  | .refuse i e =>
    match s.pc i with
    | .start | .online => some (s.goto i (.refused e))
    | _ => none
  | .precheck i =>
    match (calls i).task?, s.pc i with
    | some (targetUuid, _), .start =>
      if ClosedSink.isConnected s.sessions targetUuid then some (s.goto i .online)
      else some (s.goto i (.refused (.agentOffline ("Agent " ++ targetUuid.text ++ " is not connected"))))
    | _, _ => none
  | .insert i id token =>
    match (calls i).task?, s.pc i with
    | some (targetUuid, taskType), .online =>
      if hnew : id ∉ s.used ∧ id ∉ s.table.rows.map (·.id) then
        let row := newRow id targetUuid token taskType.toJson
        some ({ s with table := s.table.insert row hnew.2, used := id :: s.used }.goto i (.inserted row))
      else none
    | _, _ => none
  | .enroll i =>
    match s.pc i with
    | .inserted row => some (s.goto i (.enrolled row))
    | _ => none
  | .prepare i =>
    match calls i, s.pc i with
    | .create _ taskType, .enrolled row =>
      some ({ s with event := update s.event i (some (event row taskType)) }.goto i (.sending row))
    | .createBlocking _ taskType _, .enrolled row =>
      some ({ s with
        waiters := s.waiters.registerBlockingWaiter row.id.toUInt64 i
        event := update s.event i (some (event row taskType)) }.goto i (.sending row))
    | _, _ => none
  | .sent i =>
    match calls i, s.pc i, s.sessions.call i with
    | .create .., .sending row, .returned (.ok ()) => some (s.goto i (.done row (.ok (.created row.id))))
    | .create .., .sending row, .returned (.error e) => some (s.goto i (.withdrawing row e))
    | .createBlocking .., .sending row, .returned (.ok ()) => some (s.goto i (.waiting row))
    | .createBlocking .., .sending row, .returned (.error e) => some (s.goto i (.unsent row e))
    | _, _, _ => none
  | .unregister i =>
    match s.pc i with
    | .unsent row e => some ({ s with waiters := s.waiters.removeBlockingWaiter row.id.toUInt64 }.goto i (.withdrawing row e))
    | _ => none
  | .rollback i =>
    match s.pc i with
    | .withdrawing row e => some ({ s with table := s.table.deleteIds [row.id] }.goto i (.withdrawn row e))
    | _ => none
  | .reply i =>
    match s.pc i with
    | .withdrawn row e => some (s.goto i (.rolledBack row (sendAnswer (calls i).target e true)))
    | _ => none
  | .receive i =>
    match s.pc i, s.waiters.channel i with
    | .waiting row, .delivered response => some (s.goto i (.done row (.ok (.response response))))
    | .waiting row, .closed => some (s.goto i (.expired row channelClosed))
    | _, _ => none
  | .expire i =>
    match calls i, s.pc i, s.waiters.channel i with
    | .createBlocking _ _ timeoutMs, .waiting row, .empty => some (s.goto i (.expired row (timedOut row.id timeoutMs)))
    | _, _, _ => none
  | .discard i =>
    match s.pc i with
    | .expired row e => some ({ s with waiters := s.waiters.removeBlockingWaiter row.id.toUInt64 }.goto i (.done row (.error e)))
    | _ => none
  | .check i verdict =>
    match calls i, s.pc i with
    | .upload response, .start =>
      match checkUpload s.table response verdict with
      | .ok () => some (s.goto i .checked)
      | .error e => some (s.goto i (.refused e))
    | _, _ => none
  | .store i =>
    match calls i, s.pc i with
    | .upload response, .checked =>
      match storeResult serialize s.table response with
      | .ok table => some ({ s with table }.goto i .stored)
      | .error e => some (s.goto i (.refused e))
    | _, _ => none
  | .notify i =>
    match calls i, s.pc i with
    | .upload response, .stored =>
      some ({ s with waiters := s.waiters.notifyBlockingWaiter response.taskId response }.goto i (.uploaded response.taskId))
    | _, _ => none
  | .cancel i => if s.droppable i then some (s.goto i (.dropped (s.pc i).row)) else none

/-! ### Blocking calls by themselves

Where every call that creates a task waits for its result, and none is dropped, a run is one of
`Blocking`: the sessions, the agent's enrolment and the last part of taking a row back are not seen. -/

def Call.view : Call ρ → Blocking.Call ρ
  | .create targetUuid taskType => .blocking targetUuid taskType.toJson 0
  | .createBlocking targetUuid taskType timeoutMs => .blocking targetUuid taskType.toJson timeoutMs
  | .upload response => .upload response

theorem Call.target_view (call : Call ρ) : call.view.target = call.target := by
  cases call <;> rfl

/-- Where the call stands there; one that has taken its row back has its answer already. -/
def Pc.view (target : Uuid) : Pc ρ → Blocking.Pc ρ
  | start | online => .start
  | inserted row | enrolled row => .inserted row.id
  | sending row => .registered row.id
  | waiting row | done row (.ok (.created _)) => .waiting row.id
  | unsent row e => .unsent row.id e
  | withdrawing row e => .unregistered row.id e
  | withdrawn _ e => .failed (sendAnswer target e true)
  | expired row e => .expired row.id e
  | refused e | done _ (.error e) | rolledBack _ e => .failed e
  | done row (.ok (.response response)) => .answered row.id response
  | dropped _ => .failed channelClosed
  | checked => .checked
  | stored => .stored
  | uploaded _ => .accepted

@[simps]
def State.view (s : State σ ι ρ) : Blocking.State ι ρ :=
  ⟨s.table, s.waiters, fun i => (s.pc i).view (calls i).target, s.used⟩

section View
variable {s t : State σ ι ρ}

theorem view_goto (i : ι) (pc : Pc ρ) :
    (s.goto i pc).view calls = (s.view calls).goto i (pc.view (calls i).target) :=
  congrArg (Blocking.State.mk s.table s.waiters · s.used)
    (funext (apply_update (fun j => Pc.view (calls j).target) s.pc i pc))

theorem view_goto_same {i : ι} {old pc : Pc ρ} (hpc : s.pc i = old)
    (hsame : pc.view (calls i).target = old.view (calls i).target) : (s.goto i pc).view calls = s.view calls := by
  rw [view_goto, hsame, ← hpc]
  exact congrArg (Blocking.State.mk s.table s.waiters · s.used) (update_eq_self i _)

variable [DecidableEq σ]

/-- A step is one of the blocking calls, or is not seen there. -/
theorem step_view {a : Action σ ι} (hblocking : ∀ i targetUuid taskType, calls i ≠ .create targetUuid taskType)
    (hlive : ∀ i, a ≠ .cancel i) (h : step agent regId serialize calls s a = some t) :
    t.view calls = s.view calls ∨
      ∃ b, Blocking.step serialize (fun i => (calls i).view) (s.view calls) b = some (t.view calls) := by
  cases a <;> simp only [step] at h
  case session a =>
    obtain ⟨-, h⟩ := Option.ite_none_right_eq_some.mp h
    obtain ⟨sessions, -, rfl⟩ := Option.map_eq_some_iff.mp h
    exact .inl rfl
  case cancel i => exact absurd rfl (hlive i)
  case enroll i | reply i =>
    split at h
    next hpc =>
      cases h
      exact .inl (view_goto_same calls hpc rfl)
    next => cases h
  case precheck i =>
    split at h
    next targetUuid _ _ hpc =>
      split at h
      all_goals cases h
      · exact .inl (view_goto_same calls hpc rfl)
      · refine .inr ⟨.refuse i (.agentOffline ("Agent " ++ targetUuid.text ++ " is not connected")), ?_⟩
        simp only [Blocking.step, State.view_pc, hpc, Pc.view, view_goto]
    next => cases h
  case insert i id token =>
    refine .inr ⟨.insert i id token, ?_⟩
    split at h
    next htask hpc =>
      obtain ⟨hnew, h⟩ := Option.dite_none_right_eq_some.mp h
      cases h
      cases hcall : calls i <;> rw [hcall] at htask <;> cases htask
      · exact absurd hcall (hblocking _ _ _)
      · simp only [Blocking.step, hcall, Call.view, State.view_pc, hpc, Pc.view, view_goto]
        exact dif_pos hnew
    next => cases h
  case sent i =>
    split at h
    next hcall _ _ => exact absurd hcall (hblocking _ _ _)
    next hcall _ _ => exact absurd hcall (hblocking _ _ _)
    next hpc _ =>
      cases h
      exact .inr ⟨.send i (.ok ()), by simp only [Blocking.step, State.view_pc, hpc, Pc.view, view_goto]⟩
    next e _ hpc _ =>
      cases h
      exact .inr ⟨.send i (.error e), by simp only [Blocking.step, State.view_pc, hpc, Pc.view, view_goto]⟩
    next => cases h
  case rollback i =>
    refine .inr ⟨.rollback i true, ?_⟩
    split at h
    next hpc =>
      cases h
      simp only [Blocking.step, State.view_pc, hpc, Pc.view, view_goto, Call.target_view]
      rfl
    next => cases h
  -- The others are steps of the same name there, out of the place that is seen.
  case' refuse i e => refine .inr ⟨.refuse i e, ?_⟩
  case' prepare i => refine .inr ⟨.register i, ?_⟩
  case' unregister i => refine .inr ⟨.unregister i, ?_⟩
  case' receive i => refine .inr ⟨.receive i, ?_⟩
  case' expire i => refine .inr ⟨.expire i, ?_⟩
  case' discard i => refine .inr ⟨.discard i, ?_⟩
  case' check i verdict => refine .inr ⟨.check i verdict, ?_⟩
  case' store i => refine .inr ⟨.store i, ?_⟩
  case' notify i => refine .inr ⟨.notify i, ?_⟩
  all_goals
    repeat' split at h
    all_goals cases h
    all_goals simp_all [Blocking.step, Call.view, Pc.view, view_goto, Blocking.State.goto]
    all_goals rfl

/-- **Blocking calls by themselves.** A run in which every created task is waited for and no call is
dropped is a run of the blocking calls and uploads alone. -/
theorem run_view {actions : List (Action σ ι)} (hblocking : ∀ i targetUuid taskType, calls i ≠ .create targetUuid taskType)
    (hlive : ∀ i, .cancel i ∉ actions) (hrun : run (step agent regId serialize calls) s actions = some t) :
    ∃ schedule, run (Blocking.step serialize fun i => (calls i).view) (s.view calls) schedule = some (t.view calls) := by
  refine run_invariant (P := fun t => ∃ schedule, run (Blocking.step serialize _) (s.view calls) schedule = some (t.view calls))
    (fun u a v hu ha h => ?_) ⟨[], rfl⟩ (Along.of_mem (P := fun a => ∀ i, a ≠ .cancel i) ?_) hrun
  · obtain ⟨schedule, hu⟩ := hu
    obtain hsame | ⟨b, hb⟩ := step_view agent regId serialize calls hblocking ha h
    · exact ⟨schedule, hsame ▸ hu⟩
    · exact ⟨schedule ++ [b], run_append hu (run_cons_some.mpr ⟨_, hb, rfl⟩)⟩
  · intro a ha i heq
    exact hlive i (heq ▸ ha)

end View

/-! ### What a call owns -/

/-- The row is that of a task, apart from the result an upload may have added. -/
structure SameTask (r row : Blocking.Row) : Prop where
  id : r.id = row.id
  uuid : r.uuid = row.uuid
  token : r.token = row.token
  taskEventType : r.taskEventType = row.taskEventType

namespace Pc

/-- The call's row is in the table. -/
def keeps : Pc ρ → Bool
  | inserted _ | enrolled _ | sending _ | waiting _ | unsent .. | withdrawing .. | expired .. | done .. => true
  | start | online | withdrawn .. | refused _ | rolledBack .. | dropped _ | checked | stored | uploaded _ => false

/-- The call has taken its row back. -/
def gone : Pc ρ → Bool
  | withdrawn .. | rolledBack .. => true
  | _ => false

def hasEvent : Pc ρ → Bool
  | sending _ | waiting _ | unsent .. | withdrawing .. | withdrawn .. | expired .. | done .. | rolledBack .. => true
  | start | online | inserted _ | enrolled _ | refused _ | dropped _ | checked | stored | uploaded _ => false

/-- The call has not come to its waiter yet. -/
def begins : Pc ρ → Bool
  | start | online | inserted _ | enrolled _ => true
  | _ => false

/-- The row whose result the call's waiter may be entered for. -/
def awaiting : Pc ρ → Option Blocking.Row
  | sending row | waiting row | unsent row _ | expired row _ => some row
  | dropped row => row
  | start | online | inserted _ | enrolled _ | withdrawing .. | withdrawn .. | refused _ | done .. | rolledBack ..
  | checked | stored | uploaded _ => none

/-- Where the call's `send_event` is. -/
def Sends : Pc ρ → Sessions.CallPc σ → Prop
  | waiting _, c | expired .., c | done .., c => c = .returned (.ok ())
  | unsent _ e, c | withdrawing _ e, c | withdrawn _ e, c => c = .returned (.error e)
  | rolledBack .., c => ∃ e, c = .returned (.error e)
  | sending _, _ | dropped _, _ => True
  | start, c | online, c | inserted _, c | enrolled _, c | refused _, c | checked, c | stored, c | uploaded _, c =>
    c = .start

def isDropped : Pc ρ → Bool
  | .dropped _ => true
  | _ => false

/-- What a place says of the row, the event and the channel is said at the other place as well. -/
def within (pc old : Pc ρ) : Bool :=
  (!pc.keeps || old.keeps) && (!pc.gone || old.gone) && (!pc.hasEvent || old.hasEvent) && (!pc.begins || old.begins)

variable {pc : Pc ρ}

theorem within_iff {old : Pc ρ} : pc.within old = true ↔
    (pc.keeps = true → old.keeps = true) ∧ (pc.gone = true → old.gone = true) ∧
      (pc.hasEvent = true → old.hasEvent = true) ∧ (pc.begins = true → old.begins = true) := by
  simp only [within, Bool.and_eq_true, Bool.or_eq_true, Bool.not_eq_true', and_assoc, imp_iff_not_or,
    Bool.not_eq_true]

theorem awaiting_of_begins (h : pc.begins = true) : pc.awaiting = none := by
  cases pc with
  | start | online | inserted row | enrolled row => rfl
  | _ => cases h

theorem row_of_awaiting {row : Blocking.Row} (h : pc.awaiting = some row) : pc.row = some row := by
  cases pc <;> first | exact h | cases h

end Pc

structure Local (table₀ : IdTable Blocking.Row Blocking.Row.id) (s : State σ ι ρ) (i : ι) (pc : Pc ρ) : Prop where
  row : ∀ row, pc.row = some row →
    row.id ∈ s.used ∧ row.id ∉ table₀.rows.map (·.id) ∧ row.uuid = (calls i).target
  same : ∀ row, pc.row = some row → ∀ r ∈ s.table.rows, r.id = row.id → SameTask r row
  present : ∀ row, pc.row = some row → pc.keeps = true → ∃ r ∈ s.table.rows, r.id = row.id
  absent : ∀ row, pc.row = some row → pc.gone = true → ∀ r ∈ s.table.rows, r.id ≠ row.id
  event : ∀ ev, s.event i = some ev → ∃ row taskType, pc.row = some row ∧ ev = event row taskType
  hasEvent : pc.hasEvent = true → (s.event i).isSome = true
  sends : pc.Sends (s.sessions.call i)
  channel : pc.begins = true → s.waiters.channel i = .empty
  blocks : ∀ key, s.waiters.entry key = some i → (calls i).blocks = true
  waiter : ∀ key, s.waiters.entry key = some i →
    s.waiters.channel i = .empty ∧ ∃ row, pc.awaiting = some row ∧ row.id.toUInt64 = key

structure Sound (table₀ : IdTable Blocking.Row Blocking.Row.id) (s : State σ ι ρ) : Prop where
  sessions : Sessions.Sound agent regId (fun i => (calls i).target) s.sessions
  first : ∀ r ∈ table₀.rows, r.id ∈ s.used
  rowUsed : ∀ r ∈ s.table.rows, r.id ∈ s.used
  own : ∀ i j row row', (s.pc i).row = some row → (s.pc j).row = some row' → row.id = row'.id → i = j
  calls : ∀ i, Local calls table₀ s i (s.pc i)

variable {agent regId serialize calls} {table₀ : IdTable Blocking.Row Blocking.Row.id} {s t : State σ ι ρ} {i : ι}

omit [DecidableEq ι] in
theorem start_sound {sessions : Sessions.State σ ι}
    (hsessions : Sessions.Sound agent regId (fun i => (calls i).target) sessions)
    (hcalls : ∀ i, sessions.call i = .start) (table : IdTable Blocking.Row Blocking.Row.id) :
    Sound agent regId calls table (start sessions table : State σ ι ρ) where
  sessions := hsessions
  first := fun _ hr => List.mem_map_of_mem hr
  rowUsed := fun _ hr => List.mem_map_of_mem hr
  own := fun _ _ _ _ h => nomatch h
  calls := by
    intro i
    constructor
    case row => exact fun _ h => nomatch h
    case same => exact fun _ h => nomatch h
    case present => exact fun _ h => nomatch h
    case absent => exact fun _ h => nomatch h
    case event => exact fun _ h => nomatch h
    case hasEvent => exact fun h => nomatch h
    case sends => exact hcalls i
    case channel => exact fun _ => rfl
    case blocks => exact fun _ h => nomatch h
    case waiter => exact fun _ h => nomatch h

/-! ### One call moves on -/

theorem goto_self (s : State σ ι ρ) (i : ι) (pc : Pc ρ) : (s.goto i pc).pc i = pc := update_self ..

variable {j : ι} {pc old : Pc ρ} {row : Blocking.Row} {key : UInt64} {waiters : Waiters ι ρ}
  {table table' : IdTable Blocking.Row Blocking.Row.id} {id : Int64} {r : TaskEventResponse ρ} {result : Option Json}
  {a : Sessions.Action σ ι} {e : NodegetError} {token : String}

theorem goto_of_ne (s : State σ ι ρ) (h : j ≠ i) (pc : Pc ρ) : (s.goto i pc).pc j = s.pc j :=
  update_of_ne h ..

theorem Local.goto {pc' : Pc ρ} (h : Local calls table₀ s j pc) : Local calls table₀ (s.goto i pc') j pc :=
  ⟨h.row, h.same, h.present, h.absent, h.event, h.hasEvent, h.sends, h.channel, h.blocks, h.waiter⟩

/-- What the calls share has changed, and one of them moves on. -/
theorem Sound.move {s' : State σ ι ρ} (hs : Sound agent regId calls table₀ s) (hpc : s'.pc = s.pc)
    (hused : s.used ⊆ s'.used) (hrowUsed : ∀ r ∈ s'.table.rows, r.id ∈ s'.used) (hsessions : s'.sessions = s.sessions)
    (hothers : ∀ j, j ≠ i → Local calls table₀ s' j (s.pc j)) (hself : Local calls table₀ s' i pc)
    (hown : ∀ row, pc.row = some row → ∀ j row', j ≠ i → (s.pc j).row = some row' → row.id ≠ row'.id) :
    Sound agent regId calls table₀ (s'.goto i pc) where
  sessions := hsessions ▸ hs.sessions
  first := fun r hr => hused (hs.first r hr)
  rowUsed := hrowUsed
  own := by
    intro j k row row' hj hk hid
    by_cases hji : j = i
    · by_cases hki : k = i
      · rw [hji, hki]
      · rw [hji, goto_self] at hj
        rw [goto_of_ne s' hki, hpc] at hk
        exact absurd hid (hown row hj k row' hki hk)
    · rw [goto_of_ne s' hji, hpc] at hj
      by_cases hki : k = i
      · rw [hki, goto_self] at hk
        exact absurd hid.symm (hown row' hk j row hji hj)
      · rw [goto_of_ne s' hki, hpc] at hk
        exact hs.own j k row row' hj hk hid
  calls := by
    intro j
    by_cases hji : j = i
    · rw [hji, goto_self]
      exact hself.goto
    · rw [goto_of_ne s' hji, hpc]
      exact (hothers j hji).goto

omit [DecidableEq ι] in
/-- No other call has written the row of a call. -/
theorem Sound.own_row (hs : Sound agent regId calls table₀ s) (hrow : (s.pc i).row = some row) :
    ∀ j row', j ≠ i → (s.pc j).row = some row' → row.id ≠ row'.id :=
  fun j row' hji hj hid => hji (hs.own i j row row' hrow hj hid).symm

omit [DecidableEq ι] in
/-- A call goes to a place with the same row. -/
theorem Local.next (h : Local calls table₀ s i old) (hrow : pc.row = old.row) (hwithin : pc.within old = true)
    (hsends : pc.Sends (s.sessions.call i))
    (hwaiter : ∀ key row, s.waiters.entry key = some i → old.awaiting = some row → pc.awaiting = some row) :
    Local calls table₀ s i pc := by
  obtain ⟨hkeeps, hgone, hevent, hbegins⟩ := Pc.within_iff.mp hwithin
  constructor
  case row => exact fun row hpc => h.row row (hrow ▸ hpc)
  case same => exact fun row hpc => h.same row (hrow ▸ hpc)
  case present => exact fun row hpc hkept => h.present row (hrow ▸ hpc) (hkeeps hkept)
  case absent => exact fun row hpc hg => h.absent row (hrow ▸ hpc) (hgone hg)
  case event =>
    rw [hrow]
    exact h.event
  case hasEvent => exact fun hmade => h.hasEvent (hevent hmade)
  case sends => exact hsends
  case channel => exact fun hbeginning => h.channel (hbegins hbeginning)
  case blocks => exact h.blocks
  case waiter =>
    intro key hkey
    obtain ⟨hempty, row, hawaiting, hid⟩ := h.waiter key hkey
    exact ⟨hempty, row, hwaiter key row hkey hawaiting, hid⟩

/-- A call moves on, and nothing else. -/
theorem Sound.goto_next (hs : Sound agent regId calls table₀ s) (hold : s.pc i = old) (hrow : pc.row = old.row)
    (hwithin : pc.within old = true) (hsends : old.Sends (s.sessions.call i) → pc.Sends (s.sessions.call i))
    (hwaiter : ∀ key row, s.waiters.entry key = some i → old.awaiting = some row → pc.awaiting = some row) :
    Sound agent regId calls table₀ (s.goto i pc) := by
  subst hold
  refine hs.move rfl (fun _ h => h) hs.rowUsed rfl (fun j _ => hs.calls j) ?_ ?_
  · exact (hs.calls i).next hrow hwithin (hsends (hs.calls i).sends) hwaiter
  · exact fun row hpc => hs.own_row (hrow ▸ hpc)

/-! ### The waiters -/

omit [DecidableEq ι] in
/-- A call has at most one waiter. -/
theorem Local.key_unique (h : Local calls table₀ s i pc) {key' : UInt64} (hkey : s.waiters.entry key = some i)
    (hkey' : s.waiters.entry key' = some i) : key = key' := by
  obtain ⟨-, row, hrow, rfl⟩ := h.waiter key hkey
  obtain ⟨-, row', hrow', rfl⟩ := h.waiter key' hkey'
  cases hrow.symm.trans hrow'
  rfl

omit [DecidableEq ι] in
/-- An entry is taken out; the others stay, and their channels as they are. -/
theorem Local.setWaiters (h : Local calls table₀ s i pc)
    (hentry : waiters.entry = update s.waiters.entry key none)
    (hchannel : ∀ j, s.waiters.entry key ≠ some j → waiters.channel j = s.waiters.channel j) :
    Local calls table₀ { s with waiters } i pc := by
  have hkept : ∀ key', waiters.entry key' = some i → key' ≠ key ∧ s.waiters.entry key' = some i := by
    intro key' hkey'
    rw [hentry] at hkey'
    have hne : key' ≠ key := by
      intro heq
      simp [heq] at hkey'
    rw [update_of_ne hne] at hkey'
    exact ⟨hne, hkey'⟩
  refine { h with channel := ?_, blocks := fun key' hkey' => h.blocks key' (hkept key' hkey').2, waiter := ?_ }
  · intro hbegins
    show waiters.channel i = .empty
    rw [hchannel i fun hkey => ?_, h.channel hbegins]
    obtain ⟨-, row, hrow, -⟩ := h.waiter key hkey
    exact nomatch (Pc.awaiting_of_begins hbegins).symm.trans hrow
  · intro key' hkey'
    obtain ⟨hne, hkey'⟩ := hkept key' hkey'
    obtain ⟨hempty, hrow⟩ := h.waiter key' hkey'
    refine ⟨?_, hrow⟩
    show waiters.channel i = .empty
    rw [hchannel i fun hkey => hne (h.key_unique hkey' hkey), hempty]

omit [DecidableEq ι] in
theorem Sound.setWaiters (hs : Sound agent regId calls table₀ s)
    (hentry : waiters.entry = update s.waiters.entry key none)
    (hchannel : ∀ j, s.waiters.entry key ≠ some j → waiters.channel j = s.waiters.channel j) :
    Sound agent regId calls table₀ { s with waiters } :=
  ⟨hs.sessions, hs.first, hs.rowUsed, hs.own, fun j => (hs.calls j).setWaiters hentry hchannel⟩

theorem Sound.remove (hs : Sound agent regId calls table₀ s) (key : UInt64) :
    Sound agent regId calls table₀ { s with waiters := s.waiters.removeBlockingWaiter key } :=
  hs.setWaiters (Blocking.Waiters.remove_entry s.waiters key) fun _ => Blocking.Waiters.remove_channel

theorem Sound.notify (hs : Sound agent regId calls table₀ s) (key : UInt64) (r : TaskEventResponse ρ) :
    Sound agent regId calls table₀ { s with waiters := s.waiters.notifyBlockingWaiter key r } :=
  hs.setWaiters (Blocking.Waiters.notify_entry s.waiters key r) fun _ h => Blocking.Waiters.notify_channel h r

theorem id_of_key {a b : Int64} (h : a.toUInt64 = b.toUInt64) : a = b := by
  rw [← Int64.toInt64_toUInt64 a, h, Int64.toInt64_toUInt64]

omit [DecidableEq ι] in
/-- The entry under the id of a row is that of the call that has written the row. -/
theorem Sound.entry_own (hs : Sound agent regId calls table₀ s) (hrow : (s.pc i).row = some row)
    (hj : s.waiters.entry row.id.toUInt64 = some j) : j = i := by
  obtain ⟨-, row', hrow', hid⟩ := (hs.calls j).waiter _ hj
  exact hs.own j i row' row (Pc.row_of_awaiting hrow') hrow (id_of_key hid)

/-- A call that has removed the entry for its row has none left. -/
theorem Sound.no_entry_removed (hs : Sound agent regId calls table₀ s) (hrow : (s.pc i).row = some row) (key : UInt64) :
    (s.waiters.removeBlockingWaiter row.id.toUInt64).entry key ≠ some i := by
  intro hkey
  rw [Blocking.Waiters.remove_entry] at hkey
  have hne : key ≠ row.id.toUInt64 := by
    intro heq
    simp [heq] at hkey
  rw [update_of_ne hne] at hkey
  obtain ⟨-, row', hrow', hid⟩ := (hs.calls i).waiter key hkey
  cases (Pc.row_of_awaiting hrow').symm.trans hrow
  exact hne hid.symm

/-! ### The table of tasks -/

omit [DecidableEq ι] in
/-- The table changes; a call keeps what it owns if its row stays, and nothing else comes under
the row's id. -/
theorem Local.setTable (h : Local calls table₀ s i pc) {used : List Int64} (hused : s.used ⊆ used)
    (hold : ∀ row, pc.row = some row → ∀ r ∈ table.rows, r.id = row.id → ∃ r₀ ∈ s.table.rows, SameTask r r₀)
    (hkept : ∀ row, pc.row = some row → pc.keeps = true → ∀ r ∈ s.table.rows, r.id = row.id →
      ∃ r' ∈ table.rows, r'.id = row.id) : Local calls table₀ { s with table, used } i pc := by
  refine { h with row := ?_, same := ?_, present := ?_, absent := ?_ }
  · intro row hrow
    obtain ⟨hin, hrest⟩ := h.row row hrow
    exact ⟨hused hin, hrest⟩
  · intro row hrow r hr hid
    obtain ⟨r₀, hr₀, hsame⟩ := hold row hrow r hr hid
    have hrow₀ := h.same row hrow r₀ hr₀ (hsame.id.symm.trans hid)
    exact ⟨hid, hsame.uuid.trans hrow₀.uuid, hsame.token.trans hrow₀.token,
      hsame.taskEventType.trans hrow₀.taskEventType⟩
  · intro row hrow hkeeps
    obtain ⟨r, hr, hid⟩ := h.present row hrow hkeeps
    exact hkept row hrow hkeeps r hr hid
  · intro row hrow hgone r hr hid
    obtain ⟨r₀, hr₀, hsame⟩ := hold row hrow r hr hid
    exact h.absent row hrow hgone r₀ hr₀ (hsame.id.symm.trans hid)

theorem SameTask.refl (r : Blocking.Row) : SameTask r r := ⟨rfl, rfl, rfl, rfl⟩

omit [DecidableEq ι] in
/-- A row under a new id. -/
theorem Local.insert (h : Local calls table₀ s i pc) (row : Blocking.Row) (hnew : row.id ∉ s.used)
    (hfree : row.id ∉ s.table.rows.map (·.id)) :
    Local calls table₀ { s with table := s.table.insert row hfree, used := row.id :: s.used } i pc := by
  refine h.setTable (fun _ hid => List.mem_cons_of_mem _ hid) ?_ ?_
  · intro row' hrow' r hr hid
    obtain rfl | hr := List.mem_cons.mp hr
    · exact absurd (hid ▸ (h.row row' hrow').1) hnew
    · exact ⟨r, hr, SameTask.refl r⟩
  · exact fun _ _ _ r hr hid => ⟨r, List.mem_cons_of_mem _ hr, hid⟩

omit [DecidableEq ι] in
/-- A row that goes, and is not one the call has in the table. -/
theorem Local.delete (h : Local calls table₀ s i pc)
    (hother : ∀ row, pc.row = some row → pc.keeps = true → row.id ≠ id) :
    Local calls table₀ { s with table := s.table.deleteIds [id] } i pc := by
  refine h.setTable (fun _ hid => hid) ?_ ?_
  · exact fun _ _ r hr _ => ⟨r, (List.mem_filter.mp hr).1, SameTask.refl r⟩
  · intro row hrow hkeeps r hr hid
    refine ⟨r, List.mem_filter.mpr ⟨hr, ?_⟩, hid⟩
    simpa [hid] using hother row hrow hkeeps

/-- A result that is written leaves the rows what they are. -/
theorem mem_writeResult (h : writeResult table r result = some table') :
    (∀ row ∈ table'.rows, ∃ row₀ ∈ table.rows, SameTask row row₀) ∧
      ∀ row₀ ∈ table.rows, ∃ row ∈ table'.rows, row.id = row₀.id := by
  cases (Blocking.writeResult_eq_some h).2
  constructor
  · intro row hrow
    obtain ⟨row₀, hrow₀, rfl⟩ := List.mem_map.mp hrow
    refine ⟨row₀, hrow₀, ?_⟩
    split <;> exact ⟨rfl, rfl, rfl, rfl⟩
  · intro row₀ hrow₀
    refine ⟨_, List.mem_map_of_mem hrow₀, ?_⟩
    split <;> rfl

omit [DecidableEq ι] in
theorem Local.write (h : Local calls table₀ s i pc) (hwrite : writeResult s.table r result = some table) :
    Local calls table₀ { s with table } i pc := by
  obtain ⟨hold, hkept⟩ := mem_writeResult hwrite
  refine h.setTable (fun _ hid => hid) (fun _ _ row hrow _ => hold row hrow) ?_
  intro row _ _ r hr hid
  obtain ⟨r', hr', hid'⟩ := hkept r hr
  exact ⟨r', hr', hid'.trans hid⟩

/-! ### The sessions -/

section Moves
variable [DecidableEq σ]

/-- A step of the sessions leaves the calls where they are, but for the one that takes it. -/
theorem call_of_not_caller {target : ι → Uuid} {s t : Sessions.State σ ι}
    (h : Sessions.step agent regId target s a = some t) (hj : caller a ≠ some j) : t.call j = s.call j := by
  cases a with
  | look c =>
    have hne : j ≠ c := fun heq => hj (by rw [heq]; rfl)
    obtain ⟨-, ⟨r, k, -, rfl⟩ | ⟨-, rfl⟩⟩ := Sessions.look_cases h
    · exact update_of_ne hne ..
    · exact update_of_ne hne ..
  | send c =>
    have hne : j ≠ c := fun heq => hj (by rw [heq]; rfl)
    obtain ⟨k, -, ⟨e, rfl⟩ | ⟨channel, -, rfl⟩⟩ := Sessions.send_cases h
    · exact update_of_ne hne ..
    · exact update_of_ne hne ..
  | drop c =>
    have hne : j ≠ c := fun heq => hj (by rw [heq]; rfl)
    obtain ⟨k, outcome, -, rfl⟩ := Sessions.drop_cases h
    exact update_of_ne hne ..
  | register k => obtain ⟨-, rfl⟩ := Sessions.register_cases h; rfl
  | take k => obtain ⟨c, channel, -, -, rfl⟩ := Sessions.take_cases h; rfl
  | close k => obtain ⟨-, -, rfl⟩ := Sessions.close_cases h; rfl
  | forward k => obtain ⟨c, -, rfl⟩ := Sessions.forward_cases h; rfl
  | fail k => obtain ⟨c, -, rfl⟩ := Sessions.fail_cases h; rfl
  | remove k => obtain ⟨e, -, rfl⟩ := Sessions.remove_cases h; rfl
  | finish k => obtain ⟨e, -, rfl⟩ := Sessions.finish_cases h; rfl

/-! ### What a step changes -/

variable (agent regId calls) in
/-- A step of the sessions, or of one call. -/
inductive Moves (s : State σ ι ρ) : Action σ ι → State σ ι ρ → Prop where
  | session {a : Sessions.Action σ ι} {sessions : Sessions.State σ ι}
      (hsending : ∀ i, caller a = some i → (s.pc i).isSending = true)
      (hstep : Sessions.step agent regId (fun i => (calls i).target) s.sessions a = some sessions) :
      Moves s (.session a) { s with sessions }
  /-- The call goes to another place, and nothing else happens. -/
  | goes {a : Action σ ι} {i : ι} {old pc : Pc ρ} (hpc : s.pc i = old) (hrow : pc.row = old.row)
      (hwithin : pc.within old = true) (hsends : old.Sends (s.sessions.call i) → pc.Sends (s.sessions.call i))
      (hwaiter : ∀ row, old.awaiting = some row →
        pc.awaiting = some row ∨ (calls i).blocks = false ∨ s.waiters.channel i ≠ .empty)
      (hlive : old.isDropped = false ∧ pc.isDropped = false := by exact ⟨rfl, rfl⟩)
      (hquiet : ∀ j, a ≠ .notify j := by rintro _ ⟨⟩) : Moves s a (s.goto i pc)
  | insert {i : ι} {id : Int64} {token : String} {taskType : TaskEventType} (hpc : s.pc i = .online)
      (hnew : id ∉ s.used ∧ id ∉ s.table.rows.map (·.id)) :
      Moves s (.insert i id token) ({ s with
        table := s.table.insert (newRow id (calls i).target token taskType.toJson) hnew.2
        used := id :: s.used }.goto i (.inserted (newRow id (calls i).target token taskType.toJson)))
  | prepare {i : ι} {row : Blocking.Row} {taskType : TaskEventType} (hpc : s.pc i = .enrolled row) :
      Moves s (.prepare i) ({ s with event := update s.event i (some (event row taskType)) }.goto i (.sending row))
  | register {i : ι} {row : Blocking.Row} {taskType : TaskEventType} (hpc : s.pc i = .enrolled row)
      (hblocks : (calls i).blocks = true) :
      Moves s (.prepare i) ({ s with
        waiters := s.waiters.registerBlockingWaiter row.id.toUInt64 i
        event := update s.event i (some (event row taskType)) }.goto i (.sending row))
  /-- The call removes the waiter under the id of its row. -/
  | remove {a : Action σ ι} {i : ι} {row : Blocking.Row} {old pc : Pc ρ} (hpc : s.pc i = old)
      (hold : old.row = some row) (hrow : pc.row = old.row) (hwithin : pc.within old = true)
      (hsends : old.Sends (s.sessions.call i) → pc.Sends (s.sessions.call i))
      (hlive : old.isDropped = false ∧ pc.isDropped = false := by exact ⟨rfl, rfl⟩)
      (hquiet : ∀ j, a ≠ .notify j := by rintro _ ⟨⟩) :
      Moves s a ({ s with waiters := s.waiters.removeBlockingWaiter row.id.toUInt64 }.goto i pc)
  | rollback {i : ι} {row : Blocking.Row} {e : TaskSendError} (hpc : s.pc i = .withdrawing row e) :
      Moves s (.rollback i) ({ s with table := s.table.deleteIds [row.id] }.goto i (.withdrawn row e))
  | write {i : ι} {r : TaskEventResponse ρ} {result : Option Json} {table : IdTable Blocking.Row Blocking.Row.id}
      (hcall : calls i = .upload r) (hpc : s.pc i = .checked) (hwrite : writeResult s.table r result = some table) :
      Moves s (.store i) ({ s with table }.goto i .stored)
  | notify {i : ι} {r : TaskEventResponse ρ} (hcall : calls i = .upload r) (hpc : s.pc i = .stored) :
      Moves s (.notify i) ({ s with waiters := s.waiters.notifyBlockingWaiter r.taskId r }.goto i (.uploaded r.taskId))
  | cancel {i : ι} (hdroppable : s.droppable i = true) : Moves s (.cancel i) (s.goto i (.dropped (s.pc i).row))

theorem Call.target_of_task? {call : Call ρ} {targetUuid : Uuid} {taskType : TaskEventType}
    (h : call.task? = some (targetUuid, taskType)) : call.target = targetUuid := by
  cases call <;> cases h <;> rfl

theorem step_moves {a : Action σ ι} (h : step agent regId serialize calls s a = some t) :
    Moves agent regId calls s a t := by
  cases a <;> simp only [step] at h
  case session a =>
    split at h
    next hsending =>
      obtain ⟨sessions, hstep, rfl⟩ := Option.map_eq_some_iff.mp h
      exact .session (fun i hi => by simpa [hi] using hsending) hstep
    next => cases h
  case insert i id token =>
    split at h
    next targetUuid taskType htask hpc =>
      obtain ⟨hnew, h⟩ := Option.dite_none_right_eq_some.mp h
      cases Call.target_of_task? htask
      cases h
      exact .insert hpc hnew
    next => cases h
  case prepare i =>
    split at h
    next hpc =>
      cases h
      exact .prepare hpc
    next hcall hpc =>
      cases h
      exact .register hpc (by rw [hcall]; rfl)
    next => cases h
  case rollback i =>
    split at h
    next hpc =>
      cases h
      exact .rollback hpc
    next => cases h
  case store i =>
    split at h
    next r hcall hpc =>
      split at h
      next hstore =>
        cases h
        obtain ⟨result, -, hwrite⟩ := Blocking.storeResult_ok hstore
        exact .write hcall hpc hwrite
      next =>
        cases h
        exact .goes hpc rfl rfl id (fun _ h => by cases h)
    next => cases h
  case notify i =>
    split at h
    next r hcall hpc =>
      cases h
      exact .notify hcall hpc
    next => cases h
  case cancel i =>
    split at h
    next hdroppable =>
      cases h
      exact .cancel hdroppable
    next => cases h
  -- the waiter goes with the call's place
  case unregister i | discard i =>
    split at h
    next hpc =>
      cases h
      exact .remove hpc rfl rfl rfl id
    next => cases h
  -- whether the event was accepted is in the place it goes to
  case sent i =>
    split at h
    next hcall hpc houtcome =>
      cases h
      exact .goes hpc rfl rfl (fun _ => houtcome) (fun _ _ => .inr (.inl (by rw [hcall]; rfl)))
    next hcall hpc houtcome =>
      cases h
      exact .goes hpc rfl rfl (fun _ => houtcome) (fun _ _ => .inr (.inl (by rw [hcall]; rfl)))
    next hpc houtcome =>
      cases h
      exact .goes hpc rfl rfl (fun _ => houtcome) (fun _ hrow => .inl hrow)
    next hpc houtcome =>
      cases h
      exact .goes hpc rfl rfl (fun _ => houtcome) (fun _ hrow => .inl hrow)
    next => cases h
  case receive i =>
    split at h
    next hpc hchannel =>
      cases h
      exact .goes hpc rfl rfl id (fun _ _ => .inr (.inr (by simp [hchannel])))
    next hpc _ =>
      cases h
      exact .goes hpc rfl rfl id (fun _ hrow => .inl hrow)
    next => cases h
  case expire i =>
    split at h
    next hpc _ =>
      cases h
      exact .goes hpc rfl rfl id (fun _ hrow => .inl hrow)
    next => cases h
  case reply i =>
    split at h
    next e hpc =>
      cases h
      exact .goes hpc rfl rfl (fun houtcome => ⟨e, houtcome⟩) (fun _ h => by cases h)
    next => cases h
  -- before a call has a waiter
  case refuse i e | precheck i | enroll i | check i verdict =>
    repeat' split at h
    all_goals cases h
    all_goals
      have hpc := ‹s.pc i = _›
      exact .goes hpc rfl rfl id (fun _ h => by cases h)

end Moves

/-! ### What a step keeps -/

theorem Pc.sends_of_isSending (h : pc.isSending = true) (c : Sessions.CallPc σ) : pc.Sends c := by
  cases pc with
  | sending row => trivial
  | _ => cases h

variable [DecidableEq σ] in
theorem Sound.setSessions (hregId : Injective regId) (hs : Sound agent regId calls table₀ s)
    (hsending : ∀ i, caller a = some i → (s.pc i).isSending = true) {sessions : Sessions.State σ ι}
    (hstep : Sessions.step agent regId (fun i => (calls i).target) s.sessions a = some sessions) :
    Sound agent regId calls table₀ { s with sessions } := by
  refine ⟨Sessions.step_sound hregId s.sessions a sessions hs.sessions hstep, hs.first, hs.rowUsed, hs.own, ?_⟩
  intro j
  refine { hs.calls j with sends := ?_ }
  by_cases hj : caller a = some j
  · exact Pc.sends_of_isSending (hsending j hj) _
  · show (s.pc j).Sends (sessions.call j)
    rw [call_of_not_caller hstep hj]
    exact (hs.calls j).sends

section Steps
variable (hs : Sound agent regId calls table₀ s)
include hs

omit [DecidableEq ι] in
theorem Sound.sends (hpc : s.pc i = pc) : pc.Sends (s.sessions.call i) :=
  hpc ▸ (hs.calls i).sends

omit [DecidableEq ι] in
theorem Sound.no_entry (hpc : s.pc i = pc) (hnone : pc.awaiting = none)
    (key : UInt64) : s.waiters.entry key ≠ some i := by
  intro hkey
  obtain ⟨-, row, hrow, -⟩ := (hs.calls i).waiter key hkey
  rw [hpc, hnone] at hrow
  cases hrow

/-- A new row is the call's that wrote it. -/
theorem Sound.insert {taskType : TaskEventType} (hpc : s.pc i = .online)
    (hnew : id ∉ s.used ∧ id ∉ s.table.rows.map (·.id)) :
    Sound agent regId calls table₀ ({ s with
      table := s.table.insert (newRow id (calls i).target token taskType.toJson) hnew.2
      used := id :: s.used }.goto i (.inserted (newRow id (calls i).target token taskType.toJson))) := by
  set row := newRow id (calls i).target token taskType.toJson with hrow
  have hinsert := fun j => (hs.calls j).insert row hnew.1 hnew.2
  refine hs.move rfl (fun _ hid => List.mem_cons_of_mem _ hid) ?_ rfl (fun j _ => hinsert j) ?_ ?_
  · intro r hr
    obtain rfl | hr := List.mem_cons.mp hr
    · exact List.mem_cons_self
    · exact List.mem_cons_of_mem _ (hs.rowUsed r hr)
  · have hevent : s.event i = none := by
      cases hevent : s.event i with
      | none => rfl
      | some ev =>
        obtain ⟨row, taskType, hrow, -⟩ := (hs.calls i).event ev hevent
        rw [hpc] at hrow
        cases hrow
    constructor
    case row =>
      intro row' hrow'
      cases hrow'
      refine ⟨List.mem_cons_self, fun hmem => ?_, rfl⟩
      obtain ⟨r, hr, hid⟩ := List.mem_map.mp hmem
      have hused := hs.first r hr
      rw [hid] at hused
      exact hnew.1 hused
    case same =>
      intro row' hrow' r hr hid
      cases hrow'
      obtain rfl | hr := List.mem_cons.mp hr
      · exact SameTask.refl _
      · exact absurd (List.mem_map.mpr ⟨r, hr, hid⟩) hnew.2
    case present =>
      intro row' hrow' _
      cases hrow'
      exact ⟨row, List.mem_cons_self, rfl⟩
    case absent => exact fun _ _ hgone => nomatch hgone
    case event => exact fun ev hev => nomatch hevent.symm.trans hev
    case hasEvent => exact fun hmade => nomatch hmade
    case sends => exact (hs.sends hpc : Pc.online.Sends _)
    case channel => exact fun _ => (hs.calls i).channel (by rw [hpc]; rfl)
    case blocks => exact (hs.calls i).blocks
    case waiter => exact fun key hkey => absurd hkey (hs.no_entry hpc rfl key)
  · intro row' hrow' j row'' _ hj hid
    cases hrow'
    have hused := ((hs.calls j).row row'' hj).1
    rw [← hid] at hused
    exact hnew.1 hused

/-- The event is made, for the row that the call has written. -/
theorem Sound.setEvent (hrow : (s.pc i).row = some row)
    (taskType : TaskEventType) :
    Sound agent regId calls table₀ { s with event := update s.event i (some (event row taskType)) } := by
  refine ⟨hs.sessions, hs.first, hs.rowUsed, hs.own, fun j => ?_⟩
  refine { hs.calls j with event := ?_, hasEvent := ?_ }
  · intro ev hev
    by_cases hj : j = i
    · subst hj
      obtain rfl : Creation.event row taskType = ev := by simpa using hev
      exact ⟨row, taskType, hrow, rfl⟩
    · exact (hs.calls j).event ev (by simpa [update_of_ne hj] using hev)
  · intro hmade
    by_cases hj : j = i
    · subst hj
      simp
    · simpa [update_of_ne hj] using (hs.calls j).hasEvent hmade

/-- The waiter of a blocking call is entered under the id of its row. -/
theorem Sound.register (hpc : s.pc i = .sending row)
    (hblocks : (calls i).blocks = true) (hempty : s.waiters.channel i = .empty)
    (hnone : ∀ key, s.waiters.entry key ≠ some i) :
    Sound agent regId calls table₀ { s with waiters := s.waiters.registerBlockingWaiter row.id.toUInt64 i } := by
  have hremoved := hs.remove row.id.toUInt64
  have hchannel : (s.waiters.registerBlockingWaiter row.id.toUInt64 i).channel i = .empty :=
    (Blocking.Waiters.remove_channel (hnone _)).trans hempty
  have hentry : ∀ key j, (s.waiters.registerBlockingWaiter row.id.toUInt64 i).entry key = some j →
      key = row.id.toUInt64 ∧ j = i ∨ (s.waiters.removeBlockingWaiter row.id.toUInt64).entry key = some j := by
    intro key j hkey
    rw [Blocking.Waiters.register_entry] at hkey
    rw [Blocking.Waiters.remove_entry]
    by_cases heq : key = row.id.toUInt64
    · subst heq
      rw [update_self] at hkey
      exact .inl ⟨rfl, (Option.some.inj hkey).symm⟩
    · rw [update_of_ne heq] at hkey ⊢
      exact .inr hkey
  refine ⟨hs.sessions, hs.first, hs.rowUsed, hs.own, fun j => ?_⟩
  refine { hremoved.calls j with blocks := ?_, waiter := ?_ }
  · intro key hkey
    obtain ⟨-, rfl⟩ | hold := hentry key j hkey
    · exact hblocks
    · exact (hremoved.calls j).blocks key hold
  · intro key hkey
    obtain ⟨rfl, rfl⟩ | hold := hentry key j hkey
    · exact ⟨hchannel, row, by rw [hpc]; rfl, rfl⟩
    · exact (hremoved.calls j).waiter key hold

/-- The event is there before the place says so. -/
theorem Sound.goto_sending (hpc : s.pc i = .enrolled row)
    (hevent : (s.event i).isSome = true) : Sound agent regId calls table₀ (s.goto i (.sending row)) := by
  have hrow : (s.pc i).row = some row := by rw [hpc]; rfl
  refine hs.move rfl (fun _ hid => hid) hs.rowUsed rfl (fun j _ => hs.calls j) ?_ ?_
  · have hlocal := hs.calls i
    rw [hpc] at hlocal
    refine { hlocal with
      absent := (fun _ _ hgone => nomatch hgone)
      hasEvent := (fun _ => hevent)
      sends := trivial
      channel := (fun hbegins => nomatch hbegins)
      waiter := (fun key hkey => absurd hkey (hs.no_entry hpc rfl key)) }
  · exact fun row' hrow' => hs.own_row (hrow' ▸ hrow)

/-- The row goes when no call counts on it any more. -/
theorem Sound.rollback {e : TaskSendError} (hpc : s.pc i = .withdrawing row e) :
    Sound agent regId calls table₀ ({ s with table := s.table.deleteIds [row.id] }.goto i (.withdrawn row e)) := by
  have hrow : (s.pc i).row = some row := by rw [hpc]; rfl
  refine hs.move rfl (fun _ hid => hid) ?_ rfl ?_ ?_ ?_
  · exact fun r hr => hs.rowUsed r (List.mem_filter.mp hr).1
  · intro j hji
    exact (hs.calls j).delete fun row' hrow' _ hid => hs.own_row hrow j row' hji hrow' hid.symm
  · have hlocal := hs.calls i
    rw [hpc] at hlocal
    refine { hlocal with
      same := (fun row' hrow' r hr => hlocal.same row' hrow' r (List.mem_filter.mp hr).1)
      present := (fun _ _ hkeeps => nomatch hkeeps)
      absent := ?_
      channel := (fun hbegins => nomatch hbegins) }
    intro row' hrow' _ r hr hid
    cases hrow'
    simpa [hid] using (List.mem_filter.mp hr).2
  · exact fun row' hrow' => hs.own_row (hrow' ▸ hrow)

omit [DecidableEq ι] in
theorem Sound.write (hwrite : writeResult s.table r result = some table) :
    Sound agent regId calls table₀ { s with table } := by
  refine ⟨hs.sessions, hs.first, ?_, hs.own, fun j => (hs.calls j).write hwrite⟩
  intro row hrow
  obtain ⟨row₀, hrow₀, hsame⟩ := (mem_writeResult hwrite).1 row hrow
  rw [hsame.id]
  exact hs.rowUsed row₀ hrow₀

end Steps

variable [DecidableEq σ] in
theorem step_sound (hregId : Injective regId) (s : State σ ι ρ) (a : Action σ ι) (t : State σ ι ρ)
    (hs : Sound agent regId calls table₀ s) (h : step agent regId serialize calls s a = some t) :
    Sound agent regId calls table₀ t := by
  cases step_moves h with
  | session hsending hstep => exact hs.setSessions hregId hsending hstep
  | @goes _ i _ _ hpc hrow hwithin hsends hwaiter =>
    refine hs.goto_next hpc hrow hwithin hsends fun key row hkey hawaiting => ?_
    obtain hrow | hplain | hreceived := hwaiter row hawaiting
    · exact hrow
    · cases hplain.symm.trans ((hs.calls i).blocks key hkey)
    · exact absurd ((hs.calls i).waiter key hkey).1 hreceived
  | insert hpc hnew => exact hs.insert hpc hnew
  | @prepare _ _ taskType hpc =>
    exact (hs.setEvent (by rw [hpc]; rfl) taskType).goto_sending hpc (by simp)
  | @register i _ taskType hpc hblocks =>
    have hmoved := (hs.setEvent (by rw [hpc]; rfl) taskType).goto_sending hpc (by simp)
    exact hmoved.register (goto_self ..) hblocks ((hs.calls i).channel (by rw [hpc]; rfl)) (hs.no_entry hpc rfl)
  | @remove _ _ row _ _ hpc hold hrow hwithin hsends =>
    have hnone := hs.no_entry_removed (hpc ▸ hold)
    exact (hs.remove row.id.toUInt64).goto_next hpc hrow hwithin hsends fun key _ hkey => absurd hkey (hnone key)
  | rollback hpc => exact hs.rollback hpc
  | write _ hpc hwrite => exact (hs.write hwrite).goto_next hpc rfl rfl id fun _ _ _ h => by cases h
  | @notify _ r _ hpc => exact (hs.notify r.taskId r).goto_next hpc rfl rfl id fun _ _ _ h => by cases h
  | cancel => exact hs.goto_next rfl rfl rfl (fun _ => trivial) fun _ _ _ hrow => Pc.row_of_awaiting hrow

/-! ### All or nothing -/

/-- An event with the row's id and token was accepted by a session of the row's agent. -/
def State.Accepts (agent : σ → Uuid) (s : State σ ι ρ) (row : Blocking.Row) : Prop :=
  ∃ k i ev, agent k = row.uuid ∧ i ∈ (s.sessions.channel k).accepted ∧ s.event i = some ev ∧
    ev.taskId = row.id.toUInt64 ∧ ev.taskToken = row.token

section Outcomes
variable (hs : Sound agent regId calls table₀ s)
omit [DecidableEq ι]
include hs

/-- The event with the id of a call's row is that call's. -/
theorem Sound.accepts_iff (hrow : (s.pc i).row = some row)
    (hevent : (s.pc i).hasEvent = true) : s.Accepts agent row ↔ (s.sessions.call i).outcome = some (.ok ()) := by
  constructor
  · intro haccepts
    obtain ⟨k, j, ev, -, hmem, hev, hid, -⟩ := haccepts
    obtain ⟨row', taskType, hrow', rfl⟩ := (hs.calls j).event ev hev
    obtain rfl := hs.own j i row' row hrow' hrow (id_of_key hid)
    exact (hs.sessions.fate j k hmem).2
  · intro hok
    obtain ⟨k, hmem⟩ := hs.sessions.somewhere i hok
    obtain ⟨ev, hev⟩ := Option.isSome_iff_exists.mp ((hs.calls i).hasEvent hevent)
    obtain ⟨row', taskType, hrow', rfl⟩ := (hs.calls i).event ev hev
    cases hrow.symm.trans hrow'
    refine ⟨k, i, event row taskType, ?_, hmem, hev, rfl, rfl⟩
    rw [(hs.sessions.fate i k hmem).1, ((hs.calls i).row row hrow).2.2]

/-- A call that has returned with its row has had its event accepted. -/
theorem Sound.done {answer : Except NodegetError (Answer ρ)}
    (hpc : s.pc i = .done row answer) :
    s.Accepts agent row ∧ ∃ r ∈ s.table.rows, r.id ∉ table₀.rows.map (·.id) ∧ SameTask r row := by
  have hlocal := hs.calls i
  have hrow : (s.pc i).row = some row := by rw [hpc]; rfl
  constructor
  · refine (hs.accepts_iff hrow (by rw [hpc]; rfl)).mpr ?_
    rw [show s.sessions.call i = .returned (.ok ()) from hs.sends hpc]
    rfl
  · obtain ⟨r, hr, hid⟩ := hlocal.present row hrow (by rw [hpc]; rfl)
    refine ⟨r, hr, ?_, hlocal.same row hrow r hr hid⟩
    rw [hid]
    exact (hlocal.row row hrow).2.1

/-- A call that has taken its row back has left nothing. -/
theorem Sound.rolledBack (hpc : s.pc i = .rolledBack row e) :
    ¬s.Accepts agent row ∧ s.waiters.entry row.id.toUInt64 = none ∧ ∀ r ∈ s.table.rows, r.id ≠ row.id := by
  have hrow : (s.pc i).row = some row := by rw [hpc]; rfl
  refine ⟨?_, ?_, (hs.calls i).absent row hrow (by rw [hpc]; rfl)⟩
  · rw [hs.accepts_iff hrow (by rw [hpc]; rfl)]
    obtain ⟨e, houtcome⟩ : ∃ e, s.sessions.call i = .returned (.error e) := hs.sends hpc
    rw [houtcome]
    simp [Sessions.CallPc.outcome]
  · cases hentry : s.waiters.entry row.id.toUInt64 with
    | none => rfl
    | some j =>
      obtain rfl := hs.entry_own hrow hentry
      exact absurd hentry (hs.no_entry hpc rfl _)

end Outcomes

variable [DecidableEq σ]

/-- A call that creates a task changes no row but its own. -/
theorem step_frame {a : Action σ ι} (hactor : a.actor = some i) (htask : (calls i).task? ≠ none)
    (h : step agent regId serialize calls s a = some t) {r : Blocking.Row}
    (hother : ∀ row, (t.pc i).row = some row → r.id ≠ row.id) : r ∈ t.table.rows ↔ r ∈ s.table.rows := by
  cases step_moves h with
  | @insert j id token taskType =>
    cases hactor
    rw [goto_self] at hother
    show r ∈ _ :: s.table.rows ↔ _
    rw [List.mem_cons, or_iff_right]
    intro heq
    exact hother _ rfl (by rw [heq])
  | @rollback j row =>
    cases hactor
    rw [goto_self] at hother
    show r ∈ s.table.rows.filter _ ↔ _
    rw [List.mem_filter, and_iff_left]
    simpa using hother row rfl
  | write hcall =>
    cases hactor
    exact absurd (by rw [hcall]; rfl) htask
  | session | goes | prepare | register | remove | notify | cancel => exact Iff.rfl

/-- **Task creation is all or nothing.** Whatever the sessions are and whatever registrations,
forwarders, uploads and other calls do meanwhile, a call that has returned leaves a new row
exactly when an event with that row's id and token was accepted by a session of the row's agent.
Otherwise it answers an error, there is neither a row nor a waiter under its id, and none of its
steps touched another row. -/
theorem task_creation_all_or_nothing (agent regId : σ → Uuid) (serialize : ρ → Except String Json)
    (calls : ι → Call ρ) (hregId : Injective regId) (sessions : Sessions.State σ ι)
    (hsessions : Sessions.Sound agent regId (fun i => (calls i).target) sessions)
    (hcalls : ∀ i, sessions.call i = .start) (table : IdTable Blocking.Row Blocking.Row.id)
    (schedule : List (Action σ ι))
    (hrun : run (step agent regId serialize calls) (start sessions table) schedule = some s) (i : ι)
    (htask : (calls i).task? ≠ none) (answer : Except NodegetError (Answer ρ))
    (hanswer : (s.pc i).answer = some answer) :
    ((∃ r ∈ s.table.rows, r.id ∉ table.rows.map (·.id) ∧ ∃ row, (s.pc i).row = some row ∧ SameTask r row) ↔
      ∃ row, (s.pc i).row = some row ∧ s.Accepts agent row) ∧
    ((¬∃ row, (s.pc i).row = some row ∧ s.Accepts agent row) → (∃ e, answer = .error e) ∧
      ∀ row, (s.pc i).row = some row → s.waiters.entry row.id.toUInt64 = none ∧ ∀ r ∈ s.table.rows, r.id ≠ row.id) ∧
    ∀ u a v, a.actor = some i → step agent regId serialize calls u a = some v →
      ∀ r, (∀ row, (v.pc i).row = some row → r.id ≠ row.id) → (r ∈ v.table.rows ↔ r ∈ u.table.rows) := by
  have hs : Sound agent regId calls table s :=
    run_preserves (step_sound hregId) (start_sound hsessions hcalls table) hrun
  rw [← and_assoc]
  refine ⟨?_, fun u a v hactor hstep r => step_frame hactor htask hstep⟩
  cases hpc : s.pc i with
  | done row a =>
    obtain ⟨haccepts, r, hr, hnew, hsame⟩ := hs.done hpc
    have hsent : ∃ row', (Pc.done row a).row = some row' ∧ s.Accepts agent row' := ⟨row, rfl, haccepts⟩
    exact ⟨iff_of_true ⟨r, hr, hnew, row, rfl, hsame⟩ hsent, fun hnot => absurd hsent hnot⟩
  | rolledBack row e =>
    obtain ⟨hrefused, hentry, habsent⟩ := hs.rolledBack hpc
    rw [hpc] at hanswer
    cases hanswer
    refine ⟨iff_of_false ?_ ?_, fun _ => ⟨⟨e, rfl⟩, ?_⟩⟩
    · intro hleft
      obtain ⟨r, hr, -, row', hrow', hsame⟩ := hleft
      cases hrow'
      exact habsent r hr hsame.id
    · intro hsent
      obtain ⟨row', hrow', haccepts⟩ := hsent
      cases hrow'
      exact hrefused haccepts
    · intro row' hrow'
      cases hrow'
      exact ⟨hentry, habsent⟩
  | refused e =>
    rw [hpc] at hanswer
    cases hanswer
    refine ⟨iff_of_false ?_ ?_, fun _ => ⟨⟨e, rfl⟩, fun _ hrow => nomatch hrow⟩⟩
    · intro hleft
      obtain ⟨r, -, -, row, hrow, -⟩ := hleft
      cases hrow
    · intro hsent
      obtain ⟨row, hrow, -⟩ := hsent
      cases hrow
  | start | online | inserted _ | enrolled _ | sending _ | waiting _ | unsent _ _ | withdrawing _ _
  | withdrawn _ _ | expired _ _ | dropped _ | checked | stored | uploaded _ =>
    rw [hpc] at hanswer
    cases hanswer

end Machine

/-- Two calls for one agent: the first waits for its result. -/
private def twoTasks : Bool → Call String
  | false => .createBlocking 7 .ip 1000
  | true => .create 7 .version

private def agentSeven : Unit → Uuid := fun _ => 7

/-- The session takes the second call's event and ends over it, before the first call's is sent. -/
private def vanishing : List (Action Unit Bool) :=
  [.session (.register ()), .precheck false, .precheck true, .insert true 1 "a", .enroll true, .prepare true,
    .session (.look true), .session (.send true), .session (.drop true), .sent true, .insert false 2 "b",
    .enroll false, .prepare false, .session (.take ()), .session (.fail ()), .session (.remove ()),
    .session (.look false), .sent false, .unregister false, .rollback false, .reply false]

theorem task_creation_vanishing :
    ∃ s : State Unit Bool String,
      run (step agentSeven agentSeven (fun text => .ok (.str text)) twoTasks)
        (start Sessions.started ⟨[], List.nodup_nil⟩) vanishing = some s ∧
      (s.table.rows.map (·.id) = [1] ∧ (s.pc true).answer.map (·.toBool) = some true ∧
        (s.pc false).answer.map (·.toBool) = some false) ∧
      ∃ row, (s.pc true).row = some row ∧ s.Accepts agentSeven row := by
  obtain ⟨s, hrun, hrows, htrue, hfalse⟩ : ∃ s : State Unit Bool String,
      run (step agentSeven agentSeven (fun text => .ok (.str text)) twoTasks)
        (start Sessions.started ⟨[], List.nodup_nil⟩) vanishing = some s ∧
      s.table.rows.map (·.id) = [1] ∧ (s.pc true).answer.map (·.toBool) = some true ∧
        (s.pc false).answer.map (·.toBool) = some false := by decide +kernel
  refine ⟨s, hrun, ⟨hrows, htrue, hfalse⟩, ?_⟩
  obtain ⟨answer, hanswer, hok⟩ := Option.map_eq_some_iff.mp htrue
  by_contra hnot
  obtain ⟨⟨e, rfl⟩, -⟩ := (task_creation_all_or_nothing agentSeven agentSeven (fun text => .ok (.str text)) twoTasks
    (fun _ _ _ => rfl) Sessions.started Sessions.started_sound (fun _ => rfl) ⟨[], List.nodup_nil⟩ vanishing hrun true
    (by simp [twoTasks, Call.task?]) answer hanswer).2.1 hnot
  cases hok

end NodeGet.Task.Creation
