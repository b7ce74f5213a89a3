import NodeGet.Core.Error
import NodeGet.Core.Json
import NodeGet.Core.Uuid
import NodeGet.Machine.Run
import NodeGet.Task.Purge
import NodeGet.Task.Sessions

/-! Results of tasks that are waited for (`ng-task/src/rpc/create_task_blocking.rs`,
`ng-task/src/rpc/upload_task_result.rs`, and the waiters of `TaskManager` in
`ng-task/src/rpc/mod.rs`).

A blocking call writes a row, registers a waiter under the row's id, sends the task to the
agent and waits for a response or until its time is up. An upload looks for the row by id,
agent and token, writes its result into the row if there is none yet, and then hands the
response to the waiter, if there is one. The statements of the database and the accesses to
the table of waiters are the steps; between them anything else may happen.

The write is what decides (`Sound.stored`): an upload that has written finds its own result in
the row ever after, so no second one writes, and whatever reaches a waiter was written to the
row of the waiter's call (`results_delivered_once`). -/
namespace NodeGet.Task.Blocking
open NodeGet.Core NodeGet.Machine NodeGet.Task.Retention Function

/-! ### Rows and responses -/

/-- The columns of `task` that the calls read or write. -/
structure Row where
  id : Int64
  uuid : Uuid
  token : String
  timestamp : Option Int64
  success : Option Bool
  errorMessage : Option String
  taskEventType : Json
  taskEventResult : Option Json

structure TaskEventResponse (ρ : Type) where
  taskId : UInt64
  agentUuid : Uuid
  taskToken : String
  timestamp : UInt64
  success : Bool
  errorMessage : Option String
  taskEventResult : Option ρ

inductive Call (ρ : Type) where
  | blocking (targetUuid : Uuid) (taskType : Json) (timeoutMs : UInt64)
  | upload (response : TaskEventResponse ρ)

def Call.target {ρ : Type} : Call ρ → Uuid
  | .blocking targetUuid _ _ => targetUuid
  | .upload response => response.agentUuid

/-- What a call answers when its task could not be sent. -/
def sendAnswer (targetUuid : Uuid) (e : TaskSendError) (deleted : Bool) : NodegetError :=
  let tail := if deleted then "" else "; rollback also failed, see logs (task row may need manual cleanup)"
  if e.isNotConnected then .agentOffline ("Agent " ++ targetUuid.text ++ " is not connected" ++ tail)
  else .agentConnectionError ("Error sending task event: " ++ e.message ++ tail)

def invalidTask : NodegetError := .notFound "Task validation failed: Invalid ID, UUID, or Token"

def alreadyUploaded : NodegetError := .invalidInput "Task result has already been uploaded"

def channelClosed : NodegetError := .other "Blocking waiter channel closed unexpectedly"

def timedOut (id : Int64) (timeoutMs : UInt64) : NodegetError :=
  .other ("Task " ++ toString id.toUInt64 ++ " timed out after " ++ toString timeoutMs ++ "ms")

/-! ### State -/

inductive Pc (ρ : Type) where
  | start
  /-- The row is written. -/
  | inserted (id : Int64)
  /-- The waiter is in the table. -/
  | registered (id : Int64)
  | waiting (id : Int64)
  /-- The task could not be sent; the waiter and then the row have to go. -/
  | unsent (id : Int64) (e : TaskSendError)
  | unregistered (id : Int64) (e : TaskSendError)
  /-- The wait is over without a response. -/
  | expired (id : Int64) (e : NodegetError)
  | answered (id : Int64) (response : TaskEventResponse ρ)
  /-- An upload has found its row without a result. -/
  | checked
  /-- An upload has written the row. -/
  | stored
  | accepted
  | failed (e : NodegetError)

/-- A `oneshot` channel: what its receiver gets. -/
inductive Channel (ρ : Type) where
  | empty
  | delivered (response : TaskEventResponse ρ)
  | closed

/-- The sender is dropped. -/
def Channel.drop {ρ : Type} : Channel ρ → Channel ρ
  | .empty => .closed
  | c => c

/-- The call that waits for the result of a task, and the `oneshot` channel of a call. -/
structure Waiters (ι ρ : Type) where
  entry : UInt64 → Option ι
  channel : ι → Channel ρ

namespace Waiters
variable {ι ρ : Type} [DecidableEq ι]

/-- The entry goes, and its sender with it. -/
def removeBlockingWaiter (w : Waiters ι ρ) (key : UInt64) : Waiters ι ρ :=
  match w.entry key with
  | none => w
  | some j =>
    { entry := update w.entry key none
      channel := update w.channel j (w.channel j).drop }

def registerBlockingWaiter (w : Waiters ι ρ) (key : UInt64) (i : ι) : Waiters ι ρ :=
  let w := w.removeBlockingWaiter key
  { w with entry := update w.entry key (some i) }

def notifyBlockingWaiter (w : Waiters ι ρ) (key : UInt64) (response : TaskEventResponse ρ) : Waiters ι ρ :=
  match w.entry key with
  | none => w
  | some j =>
    { entry := update w.entry key none
      channel := update w.channel j (.delivered response) }

end Waiters

structure State (ι ρ : Type) where
  table : IdTable Row Row.id
  waiters : Waiters ι ρ
  pc : ι → Pc ρ
  /-- History: the ids of the rows there have been. -/
  used : List Int64

def start {ι ρ : Type} (table : IdTable Row Row.id) : State ι ρ where
  table := table
  waiters := ⟨fun _ => none, fun _ => .empty⟩
  pc := fun _ => .start
  used := table.rows.map (·.id)

/-! ### Steps -/

inductive Action (ι : Type) where
  /-- The call ends before its first statement. -/
  | refuse (i : ι) (e : NodegetError)
  /-- The database gives the id, and the call has drawn a token. -/
  | insert (i : ι) (id : Int64) (token : String)
  | register (i : ι)
  | send (i : ι) (outcome : Except TaskSendError Unit)
  | unregister (i : ι)
  | rollback (i : ι) (deleted : Bool)
  | receive (i : ι)
  | expire (i : ι)
  | discard (i : ι)
  /-- With what the row's task type and the caller's permissions say. -/
  | check (i : ι) (verdict : Except NodegetError Unit)
  | store (i : ι)
  | notify (i : ι)

section Machine
variable {ι ρ : Type} [DecidableEq ι] (serialize : ρ → Except String Json) (calls : ι → Call ρ)

def State.goto (s : State ι ρ) (i : ι) (pc : Pc ρ) : State ι ρ := { s with pc := update s.pc i pc }

def TaskEventResponse.matches (r : TaskEventResponse ρ) (row : Row) : Bool :=
  row.id = r.taskId.toInt64 ∧ row.uuid = r.agentUuid ∧ row.token = r.taskToken

def serializeResult : Option ρ → Except String (Option Json)
  | none => .ok none
  | some result => (serialize result).map some

def TaskEventResponse.fill (r : TaskEventResponse ρ) (result : Option Json) (row : Row) : Row :=
  { row with
    timestamp := some r.timestamp.toInt64
    success := some r.success
    errorMessage := r.errorMessage
    taskEventResult := result }

def newRow (id : Int64) (uuid : Uuid) (token : String) (taskType : Json) : Row :=
  ⟨id, uuid, token, none, none, none, taskType, none⟩

theorem fill_id (r : TaskEventResponse ρ) (result : Option Json) (row : Row) : (r.fill result row).id = row.id := rfl

/-- The statement of an upload, if it changes a row. -/
def writeResult (table : IdTable Row Row.id) (r : TaskEventResponse ρ) (result : Option Json) :
    Option (IdTable Row Row.id) :=
  let cond (row : Row) := r.matches row && row.success.isNone
  if table.rows.any cond then some (table.update cond (r.fill result) (fill_id r result)) else none

/-- The first part of an upload: its row is there and has no result, and the caller may write it. -/
def checkUpload (table : IdTable Row Row.id) (r : TaskEventResponse ρ) (verdict : Except NodegetError Unit) :
    Except NodegetError Unit :=
  match table.rows.find? r.matches with
  | none => .error invalidTask
  | some row => if row.success.isSome then .error alreadyUploaded else verdict

/-- The second part, which writes the result. -/
def storeResult (table : IdTable Row Row.id) (r : TaskEventResponse ρ) : Except NodegetError (IdTable Row Row.id) :=
  match serializeResult serialize r.taskEventResult with
  | .error e => .error (.serializationError ("Serialization error: Failed to serialize task event result: " ++ e))
  | .ok result =>
    match writeResult table r result with
    | none => .error alreadyUploaded
    | some table => .ok table

def step (s : State ι ρ) : Action ι → Option (State ι ρ)
  | .refuse i e =>
    match s.pc i with
    | .start => some (s.goto i (.failed e))
    | _ => none
  | .insert i id token =>
    match calls i, s.pc i with
    | .blocking targetUuid taskType _, .start =>
      if hnew : id ∉ s.used ∧ id ∉ s.table.rows.map (·.id) then
        let table := s.table.insert (newRow id targetUuid token taskType) hnew.2
        some ({ s with table := table, used := id :: s.used }.goto i (.inserted id))
      else none
    | _, _ => none
  | .register i =>
    match s.pc i with
    | .inserted id =>
      some ({ s with waiters := s.waiters.registerBlockingWaiter id.toUInt64 i }.goto i (.registered id))
    | _ => none
  | .send i outcome =>
    match s.pc i, outcome with
    | .registered id, .ok () => some (s.goto i (.waiting id))
    | .registered id, .error e => some (s.goto i (.unsent id e))
    | _, _ => none
  | .unregister i =>
    match s.pc i with
    | .unsent id e =>
      some ({ s with waiters := s.waiters.removeBlockingWaiter id.toUInt64 }.goto i (.unregistered id e))
    | _ => none
  | .rollback i deleted =>
    match s.pc i with
    | .unregistered id e =>
      let table := if deleted then s.table.deleteIds [id] else s.table
      some ({ s with table }.goto i (.failed (sendAnswer (calls i).target e deleted)))
    | _ => none
  | .receive i =>
    match s.pc i, s.waiters.channel i with
    | .waiting id, .delivered response => some (s.goto i (.answered id response))
    | .waiting id, .closed => some (s.goto i (.expired id channelClosed))
    | _, _ => none
  | .expire i =>
    match calls i, s.pc i, s.waiters.channel i with
    | .blocking _ _ timeoutMs, .waiting id, .empty => some (s.goto i (.expired id (timedOut id timeoutMs)))
    | _, _, _ => none
  | .discard i =>
    match s.pc i with
    | .expired id e => some ({ s with waiters := s.waiters.removeBlockingWaiter id.toUInt64 }.goto i (.failed e))
    | _ => none
  | .check i verdict =>
    match calls i, s.pc i with
    | .upload response, .start =>
      match checkUpload s.table response verdict with
      | .ok () => some (s.goto i .checked)
      | .error e => some (s.goto i (.failed e))
    | _, _ => none
  | .store i =>
    match calls i, s.pc i with
    | .upload response, .checked =>
      match storeResult serialize s.table response with
      | .ok table => some ({ s with table }.goto i .stored)
      | .error e => some (s.goto i (.failed e))
    | _, _ => none
  | .notify i =>
    match calls i, s.pc i with
    | .upload response, .stored =>
      some ({ s with waiters := s.waiters.notifyBlockingWaiter response.taskId response }.goto i .accepted)
    | _, _ => none

/-! ### What holds between rows, waiters and responses -/

/-- The row a call has written and not withdrawn. -/
def Pc.created : Pc ρ → Option Int64
  | .inserted id | .registered id | .waiting id | .unsent id _ | .unregistered id _ | .expired id _
  | .answered id _ => some id
  | .start | .checked | .stored | .accepted | .failed _ => none

/-- The row whose result a call's waiter may be in the table for. -/
def Pc.awaiting : Pc ρ → Option Int64
  | .registered id | .waiting id | .unsent id _ | .expired id _ | .answered id _ => some id
  | .start | .inserted _ | .unregistered .. | .checked | .stored | .accepted | .failed _ => none

/-- An upload has succeeded: it has written its result, whether it has said so or not. -/
def Pc.hasStored : Pc ρ → Bool
  | .stored | .accepted => true
  | _ => false

def Pc.isFailed : Pc ρ → Bool
  | .failed _ => true
  | _ => false

/-- The row holds the response. -/
structure Row.Stores (row : Row) (r : TaskEventResponse ρ) : Prop where
  id : row.id = r.taskId.toInt64
  uuid : row.uuid = r.agentUuid
  token : row.token = r.taskToken
  timestamp : row.timestamp = some r.timestamp.toInt64
  success : row.success = some r.success
  errorMessage : row.errorMessage = r.errorMessage
  taskEventResult : serializeResult serialize r.taskEventResult = .ok row.taskEventResult

/-- The response is that of an upload that has written the row. -/
def Uploaded (s : State ι ρ) (id : Int64) (r : TaskEventResponse ρ) : Prop :=
  r.taskId.toInt64 = id ∧ ∃ j, calls j = .upload r ∧ (s.pc j).hasStored = true

structure Sound (s : State ι ρ) : Prop where
  rowUsed : ∀ row ∈ s.table.rows, row.id ∈ s.used
  createdUsed : ∀ i id, (s.pc i).created = some id → id ∈ s.used
  own : ∀ i j id, (s.pc i).created = some id → (s.pc j).created = some id → i = j
  row : ∀ i id, (s.pc i).created = some id → ∃ row ∈ s.table.rows, row.id = id
  waiter : ∀ key i, s.waiters.entry key = some i → ∃ id, (s.pc i).awaiting = some id ∧ id.toUInt64 = key
  storedUsed : ∀ j r, calls j = .upload r → (s.pc j).hasStored = true → r.taskId.toInt64 ∈ s.used
  stored : ∀ j r, calls j = .upload r → (s.pc j).hasStored = true →
    ∀ row ∈ s.table.rows, row.id = r.taskId.toInt64 → row.Stores serialize r
  once : ∀ i j r r', calls i = .upload r → calls j = .upload r' → (s.pc i).hasStored = true →
    (s.pc j).hasStored = true → r.taskId = r'.taskId → i = j
  delivered : ∀ i r, s.waiters.channel i = .delivered r →
    (s.pc i).isFailed = true ∨ ∃ id, (s.pc i).created = some id ∧ Uploaded calls s id r
  answered : ∀ i id r, s.pc i = .answered id r → Uploaded calls s id r

variable {serialize calls} {s t : State ι ρ} {i : ι} {pc old : Pc ρ} {id : Int64} {r : TaskEventResponse ρ}
  {result : Option Json} {row : Row} {token : String} {deleted : Bool}

theorem Pc.created_of_awaiting (h : pc.awaiting = some id) : pc.created = some id := by
  cases pc <;> first | exact h | cases h

omit [DecidableEq ι] in
theorem start_sound (table : IdTable Row Row.id) : Sound serialize calls (start table : State ι ρ) where
  rowUsed := fun _ hrow => List.mem_map_of_mem hrow
  createdUsed := fun _ _ h => nomatch h
  own := fun _ _ _ h => nomatch h
  row := fun _ _ h => nomatch h
  waiter := fun _ _ h => nomatch h
  storedUsed := fun _ _ _ h => nomatch h
  stored := fun _ _ _ h => nomatch h
  once := fun _ _ _ _ _ _ h => nomatch h
  delivered := fun _ _ h => nomatch h
  answered := fun _ _ _ h => nomatch h

/-! ### A call moves on -/

theorem goto_self (s : State ι ρ) (i : ι) (pc : Pc ρ) : (s.goto i pc).pc i = pc := update_self ..

theorem goto_of_ne (s : State ι ρ) {i j : ι} (h : j ≠ i) (pc : Pc ρ) : (s.goto i pc).pc j = s.pc j :=
  update_of_ne h ..

/-- A property of every call at its place, when one call moves on. -/
theorem forall_goto {P : ι → Pc ρ → Prop} (hself : P i pc) (hothers : ∀ j, P j (s.pc j)) :
    ∀ j, P j ((s.goto i pc).pc j) :=
  (forall_update_iff s.pc P).mpr ⟨hself, fun j _ => hothers j⟩

/-- What only one call can have, when one call moves on. -/
theorem unique_goto {β : Type} {P : ι → Pc ρ → β → Prop} (hself : ∀ b, P i pc b → ∀ j, P j (s.pc j) b → j = i)
    (hothers : ∀ j k b, P j (s.pc j) b → P k (s.pc k) b → j = k) :
    ∀ j k b, P j ((s.goto i pc).pc j) b → P k ((s.goto i pc).pc k) b → j = k := by
  refine forall_goto (P := fun j pcj => ∀ k b, P j pcj b → P k ((s.goto i pc).pc k) b → j = k) ?_ ?_
  · refine forall_goto (P := fun k pck => ∀ b, P i pc b → P k pck b → i = k) (fun _ _ _ => rfl) ?_
    exact fun k b hi hk => (hself b hi k hk).symm
  · intro j
    exact forall_goto (P := fun k pck => ∀ b, P j (s.pc j) b → P k pck b → j = k)
      (fun b hj hi => hself b hi j hj) (hothers j)

theorem Uploaded.goto (h : Uploaded calls s id r) (hstored : (s.pc i).hasStored = true → pc.hasStored = true) :
    Uploaded calls (s.goto i pc) id r := by
  obtain ⟨hid, j, hj, hpc⟩ := h
  refine ⟨hid, j, hj, ?_⟩
  by_cases hji : j = i
  · rw [hji, goto_self]
    exact hstored (hji ▸ hpc)
  · rw [goto_of_ne s hji]
    exact hpc

/-- What a call may claim of itself when it moves on. -/
structure Fits (serialize : ρ → Except String Json) (calls : ι → Call ρ) (s : State ι ρ) (i : ι) (pc : Pc ρ) :
    Prop where
  created : ∀ id, pc.created = some id →
    id ∈ s.used ∧ (∃ row ∈ s.table.rows, row.id = id) ∧ ∀ j, (s.pc j).created = some id → j = i
  waiter : ∀ key, s.waiters.entry key = some i → ∃ id, pc.awaiting = some id ∧ id.toUInt64 = key
  delivered : ∀ r, s.waiters.channel i = .delivered r →
    pc.isFailed = true ∨ pc.created = (s.pc i).created ∧ ¬(s.pc i).isFailed = true
  answered : ∀ id r, pc = .answered id r → Uploaded calls s id r
  kept : (s.pc i).hasStored = true → pc.hasStored = true
  stored : pc.hasStored = true → ∀ r, calls i = .upload r → r.taskId.toInt64 ∈ s.used ∧
    (∀ row ∈ s.table.rows, row.id = r.taskId.toInt64 → row.Stores serialize r) ∧
    ∀ j r', calls j = .upload r' → (s.pc j).hasStored = true → r'.taskId = r.taskId → j = i

section Moves
variable (hs : Sound serialize calls s)
include hs

theorem Sound.goto (hfits : Fits serialize calls s i pc) :
    Sound serialize calls (s.goto i pc) where
  rowUsed := hs.rowUsed
  createdUsed :=
    forall_goto (P := fun _ pc => ∀ id, pc.created = some id → id ∈ s.used)
      (fun id h => (hfits.created id h).1) hs.createdUsed
  own :=
    unique_goto (P := fun _ pc id => pc.created = some id) (fun id h => (hfits.created id h).2.2) hs.own
  row :=
    forall_goto (P := fun _ pc => ∀ id, pc.created = some id → ∃ row ∈ s.table.rows, row.id = id)
      (fun id h => (hfits.created id h).2.1) hs.row
  waiter := by
    intro key j
    exact forall_goto (P := fun j pc => s.waiters.entry key = some j → ∃ id, pc.awaiting = some id ∧ id.toUInt64 = key)
      (hfits.waiter key) (hs.waiter key) j
  storedUsed :=
    forall_goto (P := fun j pc => ∀ r, calls j = .upload r → pc.hasStored = true → r.taskId.toInt64 ∈ s.used)
      (fun r hcall h => (hfits.stored h r hcall).1) hs.storedUsed
  stored :=
    forall_goto (P := fun j pc => ∀ r, calls j = .upload r → pc.hasStored = true →
        ∀ row ∈ s.table.rows, row.id = r.taskId.toInt64 → row.Stores serialize r)
      (fun r hcall h => (hfits.stored h r hcall).2.1) hs.stored
  once := by
    intro j k r r' hcallj hcallk hj hk hid
    refine unique_goto
      (P := fun j pc id => ∃ r, calls j = .upload r ∧ pc.hasStored = true ∧ r.taskId = id) ?_ ?_
      j k r.taskId ⟨r, hcallj, hj, rfl⟩ ⟨r', hcallk, hk, hid.symm⟩
    · intro id hi j hj
      obtain ⟨r, hcall, h, rfl⟩ := hi
      obtain ⟨r', hcallj, hj, hid⟩ := hj
      exact (hfits.stored h r hcall).2.2 j r' hcallj hj hid
    · intro j k id hj hk
      obtain ⟨r, hcallj, hj, rfl⟩ := hj
      obtain ⟨r', hcallk, hk, hid⟩ := hk
      exact hs.once j k r r' hcallj hcallk hj hk hid.symm
  delivered := by
    intro j r
    refine forall_goto (P := fun j pc => s.waiters.channel j = .delivered r →
      pc.isFailed = true ∨ ∃ id, pc.created = some id ∧ Uploaded calls (s.goto i _) id r) ?_ ?_ j
    · intro h
      obtain hfailed | ⟨hsame, hlive⟩ := hfits.delivered r h
      · exact .inl hfailed
      · obtain ⟨id, hid, huploaded⟩ := (hs.delivered i r h).resolve_left hlive
        exact .inr ⟨id, hsame.trans hid, huploaded.goto hfits.kept⟩
    · intro j h
      exact (hs.delivered j r h).imp_right fun hrow => hrow.imp fun id hid => ⟨hid.1, hid.2.goto hfits.kept⟩
  answered :=
    forall_goto (P := fun _ pc' => ∀ id r, pc' = .answered id r → Uploaded calls (s.goto i pc) id r)
      (fun id r h => (hfits.answered id r h).goto hfits.kept) fun j id r h => (hs.answered j id r h).goto hfits.kept

/-- A move that changes neither the call's row nor what it has stored. -/
theorem Sound.goto_same (hpc : s.pc i = old) (pc : Pc ρ) (hcreated : pc.created = old.created)
    (hawaiting : ∀ key id, s.waiters.entry key = some i → old.awaiting = some id → pc.awaiting = some id)
    (hstored : pc.hasStored = old.hasStored) (hlive : old.isFailed = false)
    (hanswered : ∀ id r, pc = .answered id r → Uploaded calls s id r := by rintro _ _ ⟨⟩) :
    Sound serialize calls (s.goto i pc) := by
  subst hpc
  refine hs.goto ?_
  constructor
  case created =>
    intro id h
    rw [hcreated] at h
    exact ⟨hs.createdUsed i id h, hs.row i id h, fun j hj => hs.own j i id hj h⟩
  case waiter => exact fun key h => (hs.waiter key i h).imp fun id hid => ⟨hawaiting key id h hid.1, hid.2⟩
  case delivered => exact fun _ _ => .inr ⟨hcreated, Bool.eq_false_iff.mp hlive⟩
  case answered => exact hanswered
  case kept => exact fun h => hstored.trans h
  case stored =>
    intro h r hcall
    rw [hstored] at h
    exact ⟨hs.storedUsed i r hcall h, hs.stored i r hcall h,
      fun j r' hj hpc hid => hs.once j i r' r hj hcall hpc h hid⟩

/-- A call without a waiter in the table may fail. -/
theorem Sound.goto_failed {e : NodegetError} (hpc : s.pc i = old) (hwaiter : ∀ key, s.waiters.entry key ≠ some i)
    (hstored : old.hasStored = false) : Sound serialize calls (s.goto i (.failed e)) := by
  subst hpc
  refine hs.goto ?_
  constructor
  case created => exact fun _ h => nomatch h
  case waiter => exact fun key h => absurd h (hwaiter key)
  case delivered => exact fun _ _ => .inl rfl
  case answered => exact fun _ _ h => nomatch h
  case kept => exact fun h => Bool.noConfusion (hstored.symm.trans h)
  case stored => exact fun h => nomatch h

omit [DecidableEq ι] in
theorem Sound.no_waiter (hpc : s.pc i = old) (h : old.awaiting = none) (key : UInt64) :
    s.waiters.entry key ≠ some i := by
  intro hwaiter
  obtain ⟨id, hid, -⟩ := hs.waiter key i hwaiter
  rw [hpc, h] at hid
  cases hid

omit [DecidableEq ι] in
/-- Nothing has been delivered to a call that has no row. -/
theorem Sound.not_delivered (hpc : s.pc i = old) (hcreated : old.created = none) (hlive : old.isFailed = false)
    (r : TaskEventResponse ρ) : s.waiters.channel i ≠ .delivered r := by
  intro hr
  have hdelivered := hs.delivered i r hr
  rw [hpc, hcreated, hlive] at hdelivered
  obtain hfailed | ⟨id, hid, -⟩ := hdelivered
  · cases hfailed
  · cases hid

end Moves

/-! ### The table of waiters -/

theorem Channel.drop_delivered {c : Channel ρ} (h : c.drop = .delivered r) : c = .delivered r := by
  cases c <;> first | exact h | cases h

namespace Waiters
variable {w : Waiters ι ρ} {key : UInt64}

theorem remove_entry (w : Waiters ι ρ) (key : UInt64) :
    (w.removeBlockingWaiter key).entry = update w.entry key none := by
  rw [removeBlockingWaiter]
  split
  next h => rw [← h, update_eq_self]
  next => rfl

theorem remove_channel (h : w.entry key ≠ some i) : (w.removeBlockingWaiter key).channel i = w.channel i := by
  rw [removeBlockingWaiter]
  split
  next => rfl
  next j hj =>
    refine update_of_ne ?_ ..
    intro heq
    exact h (by rw [hj, heq])

theorem remove_delivered (h : (w.removeBlockingWaiter key).channel i = .delivered r) : w.channel i = .delivered r := by
  rw [removeBlockingWaiter] at h
  split at h
  next => exact h
  next j hj =>
    by_cases hi : i = j
    · subst hi
      exact Channel.drop_delivered (by simpa using h)
    · simpa [update_of_ne hi] using h

theorem notify_entry (w : Waiters ι ρ) (key : UInt64) (r : TaskEventResponse ρ) :
    (w.notifyBlockingWaiter key r).entry = update w.entry key none := by
  rw [notifyBlockingWaiter]
  split
  next h => rw [← h, update_eq_self]
  next => rfl

theorem notify_channel (h : w.entry key ≠ some i) (r : TaskEventResponse ρ) :
    (w.notifyBlockingWaiter key r).channel i = w.channel i := by
  rw [notifyBlockingWaiter]
  split
  next => rfl
  next j hj =>
    refine update_of_ne ?_ ..
    intro heq
    exact h (by rw [hj, heq])

theorem notify_delivered {r' : TaskEventResponse ρ} (h : (w.notifyBlockingWaiter key r).channel i = .delivered r') :
    w.channel i = .delivered r' ∨ w.entry key = some i ∧ r = r' := by
  by_cases hi : w.entry key = some i
  · rw [notifyBlockingWaiter, hi] at h
    exact .inr ⟨hi, by simpa using h⟩
  · exact .inl ((notify_channel hi r).symm.trans h)

theorem register_entry (w : Waiters ι ρ) (key : UInt64) (i : ι) :
    (w.registerBlockingWaiter key i).entry = update w.entry key (some i) := by
  show update (w.removeBlockingWaiter key).entry key (some i) = _
  rw [remove_entry, update_idem]

end Waiters

section Tables
variable (hs : Sound serialize calls s)
include hs

omit [DecidableEq ι] in
/-- An entry is taken out, and what is delivered then was delivered before or uploaded for the call's row. -/
theorem Sound.setWaiters {key : UInt64} {waiters : Waiters ι ρ}
    (hentry : waiters.entry = update s.waiters.entry key none)
    (hchannel : ∀ i r, waiters.channel i = .delivered r →
      s.waiters.channel i = .delivered r ∨ ∃ id, (s.pc i).created = some id ∧ Uploaded calls s id r) :
    Sound serialize calls { s with waiters } := by
  refine { hs with waiter := ?_, delivered := ?_ }
  · intro key' i h
    refine hs.waiter key' i ?_
    rw [hentry] at h
    by_cases hkey : key' = key
    · simp [hkey] at h
    · simpa [update_of_ne hkey] using h
  · exact fun i r h => (hchannel i r h).elim (hs.delivered i r) .inr

theorem Sound.removeBlockingWaiter (key : UInt64) :
    Sound serialize calls { s with waiters := s.waiters.removeBlockingWaiter key } :=
  hs.setWaiters (Waiters.remove_entry s.waiters key) fun _ _ h => .inl (Waiters.remove_delivered h)

/-- A call that removes its entry has none left. -/
theorem Sound.no_waiter_removed (hid : (s.pc i).awaiting = some id) (key : UInt64) :
    (s.waiters.removeBlockingWaiter id.toUInt64).entry key ≠ some i := by
  intro h
  obtain ⟨id', hid', hkey⟩ := (hs.removeBlockingWaiter id.toUInt64).waiter key i h
  cases hid.symm.trans hid'
  rw [← hkey, Waiters.remove_entry, update_self] at h
  cases h

omit [DecidableEq ι] in
/-- The waiter of a call is entered under the id of its row. -/
theorem Sound.addWaiter (hid : (s.pc i).awaiting = some id) :
    Sound serialize calls
      { s with waiters := { s.waiters with entry := update s.waiters.entry id.toUInt64 (some i) } } := by
  refine { hs with waiter := ?_ }
  intro key j h
  by_cases hkey : key = id.toUInt64
  · rw [hkey] at h
    obtain rfl : i = j := by simpa using h
    exact ⟨id, hid, hkey.symm⟩
  · exact hs.waiter key j (by simpa [update_of_ne hkey] using h)

/-- Only the waiter of the row's own call gets the response. -/
theorem Sound.notifyBlockingWaiter (hcall : calls i = .upload r) (hstored : (s.pc i).hasStored = true) :
    Sound serialize calls { s with waiters := s.waiters.notifyBlockingWaiter r.taskId r } := by
  refine hs.setWaiters (Waiters.notify_entry s.waiters r.taskId r) fun j r' h => ?_
  obtain hold | ⟨hj, rfl⟩ := Waiters.notify_delivered h
  · exact .inl hold
  · obtain ⟨id, hid, hkey⟩ := hs.waiter r.taskId j hj
    refine .inr ⟨id, Pc.created_of_awaiting hid, ?_, i, hcall, hstored⟩
    rw [← hkey, Int64.toInt64_toUInt64]

/-! ### The table of tasks -/

omit [DecidableEq ι] in
theorem Sound.insert (row : Row) (hused : row.id ∉ s.used) (hnew : row.id ∉ s.table.rows.map (·.id)) :
    Sound serialize calls { s with table := s.table.insert row hnew, used := row.id :: s.used } := by
  refine { hs with rowUsed := ?_, createdUsed := ?_, row := ?_, storedUsed := ?_, stored := ?_ }
  · intro row' h
    obtain rfl | hold := List.mem_cons.mp h
    · exact List.mem_cons_self
    · exact List.mem_cons_of_mem _ (hs.rowUsed row' hold)
  · exact fun i id h => List.mem_cons_of_mem _ (hs.createdUsed i id h)
  · exact fun i id h => (hs.row i id h).imp fun row hrow => ⟨List.mem_cons_of_mem _ hrow.1, hrow.2⟩
  · exact fun j r hcall h => List.mem_cons_of_mem _ (hs.storedUsed j r hcall h)
  · intro j r hcall h row' hrow hid
    obtain rfl | hold := List.mem_cons.mp hrow
    · exact absurd (hid ▸ hs.storedUsed j r hcall h) hused
    · exact hs.stored j r hcall h row' hold hid

omit [DecidableEq ι] in
/-- A row goes that no call counts on. -/
theorem Sound.delete (hfree : ∀ i, (s.pc i).created ≠ some id) :
    Sound serialize calls { s with table := s.table.deleteIds [id] } := by
  refine { hs with rowUsed := ?_, row := ?_, stored := ?_ }
  · exact fun row h => hs.rowUsed row (List.mem_filter.mp h).1
  · intro i id' h
    obtain ⟨row, hrow, hid⟩ := hs.row i id' h
    refine ⟨row, List.mem_filter.mpr ⟨hrow, ?_⟩, hid⟩
    have hne : row.id ≠ id := fun heq => hfree i (by rw [h, ← hid, heq])
    simpa using hne
  · exact fun j r hcall h row hrow => hs.stored j r hcall h row (List.mem_filter.mp hrow).1

end Tables

theorem fill_stores (hmatches : r.matches row = true)
    (hresult : serializeResult serialize r.taskEventResult = .ok result) : (r.fill result row).Stores serialize r := by
  obtain ⟨hid, huuid, htoken⟩ := of_decide_eq_true hmatches
  exact ⟨hid, huuid, htoken, rfl, rfl, rfl, hresult⟩

variable {table table' : IdTable Row Row.id}

theorem writeResult_eq_some (h : writeResult table r result = some table') :
    (∃ row ∈ table.rows, r.matches row = true ∧ row.success = none) ∧
      table' = table.update (fun row => r.matches row && row.success.isNone) (r.fill result) (fill_id r result) := by
  simp only [writeResult] at h
  split at h
  next hany =>
    obtain ⟨row, hrow, hcond⟩ := List.any_eq_true.mp hany
    rw [Bool.and_eq_true, Option.isNone_iff_eq_none] at hcond
    exact ⟨⟨row, hrow, hcond⟩, (Option.some.inj h).symm⟩
  next => cases h

theorem storeResult_ok (h : storeResult serialize table r = .ok table') :
    ∃ result, serializeResult serialize r.taskEventResult = .ok result ∧ writeResult table r result = some table' := by
  simp only [storeResult] at h
  split at h
  next => cases h
  next result hresult =>
    split at h
    next => cases h
    next hwrite =>
      cases h
      exact ⟨result, hresult, hwrite⟩

theorem mem_writeResult (hwrite : writeResult table r result = some table') (h : row ∈ table'.rows) :
    (row ∈ table.rows ∧ ¬(r.matches row = true ∧ row.success = none)) ∨
      ∃ old ∈ table.rows, r.matches old = true ∧ old.success = none ∧ row = r.fill result old := by
  obtain ⟨-, rfl⟩ := writeResult_eq_some hwrite
  obtain ⟨old, hold, rfl⟩ := List.mem_map.mp h
  split
  next hcond =>
    rw [Bool.and_eq_true, Option.isNone_iff_eq_none] at hcond
    exact .inr ⟨old, hold, hcond.1, hcond.2, rfl⟩
  next hcond =>
    rw [Bool.and_eq_true, Option.isNone_iff_eq_none] at hcond
    exact .inl ⟨hold, hcond⟩

omit [DecidableEq ι] in
/-- A row that has a result is not written. -/
theorem Sound.writeResult (hs : Sound serialize calls s) (hwrite : writeResult s.table r result = some table) :
    Sound serialize calls { s with table } := by
  refine { hs with rowUsed := ?_, row := ?_, stored := ?_ }
  · intro row h
    obtain ⟨hold, -⟩ | ⟨old, hold, -, -, rfl⟩ := mem_writeResult hwrite h
    · exact hs.rowUsed row hold
    · exact hs.rowUsed old hold
  · intro i id h
    obtain ⟨row, hrow, hid⟩ := hs.row i id h
    obtain ⟨-, rfl⟩ := writeResult_eq_some hwrite
    refine ⟨_, List.mem_map_of_mem hrow, ?_⟩
    split <;> exact hid
  · intro j r' hcall h row hrow hid
    obtain ⟨hold, -⟩ | ⟨old, hold, -, hnone, rfl⟩ := mem_writeResult hwrite hrow
    · exact hs.stored j r' hcall h row hold hid
    · have hsome := (hs.stored j r' hcall h old hold hid).success
      rw [hnone] at hsome
      cases hsome

/-! ### Steps that write the table -/

theorem insert_cases (h : step serialize calls s (.insert i id token) = some t) :
    s.pc i = .start ∧ ∃ targetUuid taskType, ∃ hnew : id ∉ s.used ∧ id ∉ s.table.rows.map (·.id),
      t = { s with
        table := s.table.insert (newRow id targetUuid token taskType) hnew.2
        used := id :: s.used }.goto i (.inserted id) := by
  simp only [step] at h
  split at h
  next targetUuid taskType timeoutMs hcall hpc =>
    obtain ⟨hnew, heq⟩ := Option.dite_none_right_eq_some.mp h
    exact ⟨hpc, targetUuid, taskType, hnew, (Option.some.inj heq).symm⟩
  next => cases h

theorem rollback_cases (h : step serialize calls s (.rollback i deleted) = some t) :
    ∃ id e answer, s.pc i = .unregistered id e ∧
      t = { s with table := if deleted then s.table.deleteIds [id] else s.table }.goto i (.failed answer) := by
  simp only [step] at h
  split at h
  next id e hpc =>
    cases h
    exact ⟨id, e, _, hpc, rfl⟩
  next => cases h

/-- An upload writes its result, or fails. -/
theorem store_cases (h : step serialize calls s (.store i) = some t) :
    ∃ r, calls i = .upload r ∧ s.pc i = .checked ∧
      ((∃ e, t = s.goto i (.failed e)) ∨
        ∃ table, storeResult serialize s.table r = .ok table ∧ t = { s with table }.goto i .stored) := by
  simp only [step] at h
  split at h
  next r hcall hpc =>
    refine ⟨r, hcall, hpc, ?_⟩
    split at h
    next table hstore =>
      cases h
      exact .inr ⟨table, hstore, rfl⟩
    next e _ =>
      cases h
      exact .inl ⟨e, rfl⟩
  next => cases h

/-! ### Runs -/

section Steps
variable (hs : Sound serialize calls s)
include hs

theorem insert_sound (h : step serialize calls s (.insert i id token) = some t) : Sound serialize calls t := by
  obtain ⟨hpc, targetUuid, taskType, hnew, rfl⟩ := insert_cases h
  refine (hs.insert (newRow id targetUuid token taskType) hnew.1 hnew.2).goto ?_
  constructor
  case created =>
    intro id' hid'
    cases hid'
    refine ⟨List.mem_cons_self, ⟨_, List.mem_cons_self, rfl⟩, fun j hj => ?_⟩
    exact absurd (hs.createdUsed j id hj) hnew.1
  case waiter => exact fun key hkey => absurd hkey (hs.no_waiter hpc rfl key)
  case delivered => exact fun r hr => absurd hr (hs.not_delivered hpc rfl rfl r)
  case answered => exact fun _ _ hanswered => nomatch hanswered
  case kept => exact fun hstored => nomatch (congrArg Pc.hasStored hpc).symm.trans hstored
  case stored => exact fun hstored => nomatch hstored

theorem register_sound (h : step serialize calls s (.register i) = some t) : Sound serialize calls t := by
  simp only [step] at h
  split at h
  next id hpc =>
    cases h
    have hmoved := (hs.removeBlockingWaiter id.toUInt64).goto_same hpc (.registered id) rfl
      (fun _ _ _ hid => nomatch hid) rfl rfl
    refine hmoved.addWaiter ?_
    rw [goto_self]
    rfl
  next => cases h

theorem send_sound {outcome : Except TaskSendError Unit} (h : step serialize calls s (.send i outcome) = some t) :
    Sound serialize calls t := by
  simp only [step] at h
  split at h
  next id hpc =>
    cases h
    exact hs.goto_same hpc _ rfl (fun _ _ _ hid => hid) rfl rfl
  next id e hpc =>
    cases h
    exact hs.goto_same hpc _ rfl (fun _ _ _ hid => hid) rfl rfl
  next => cases h

theorem unregister_sound (h : step serialize calls s (.unregister i) = some t) : Sound serialize calls t := by
  simp only [step] at h
  split at h
  next id e hpc =>
    cases h
    have hid : (s.pc i).awaiting = some id := by rw [hpc]; rfl
    have hnone := hs.no_waiter_removed hid
    exact (hs.removeBlockingWaiter id.toUInt64).goto_same hpc _ rfl
      (fun key _ hkey => absurd hkey (hnone key)) rfl rfl
  next => cases h

/-- The row goes when no call counts on it any more. -/
theorem rollback_sound (h : step serialize calls s (.rollback i deleted) = some t) : Sound serialize calls t := by
  obtain ⟨id, e, answer, hpc, rfl⟩ := rollback_cases h
  have hmoved := hs.goto_failed (e := answer) hpc (hs.no_waiter hpc rfl) rfl
  cases deleted with
  | false => exact hmoved
  | true =>
    refine hmoved.delete ?_
    intro j hj
    by_cases hji : j = i
    · rw [hji, goto_self] at hj
      cases hj
    · rw [goto_of_ne s hji] at hj
      exact hji (hs.own j i id hj (by rw [hpc]; rfl))

/-- A response that is taken was uploaded for the call's row. -/
theorem receive_sound (h : step serialize calls s (.receive i) = some t) : Sound serialize calls t := by
  simp only [step] at h
  split at h
  next id response hpc hchannel =>
    cases h
    refine hs.goto_same hpc _ rfl (fun _ _ _ hid => hid) rfl rfl ?_
    intro id' r hanswered
    cases hanswered
    have hdelivered := hs.delivered i response hchannel
    rw [hpc] at hdelivered
    obtain hfailed | ⟨id', hid', huploaded⟩ := hdelivered
    · cases hfailed
    · cases hid'
      exact huploaded
  next id hpc hchannel =>
    cases h
    exact hs.goto_same hpc _ rfl (fun _ _ _ hid => hid) rfl rfl
  next => cases h

theorem expire_sound (h : step serialize calls s (.expire i) = some t) : Sound serialize calls t := by
  simp only [step] at h
  split at h
  next hpc _ =>
    cases h
    exact hs.goto_same hpc _ rfl (fun _ _ _ hid => hid) rfl rfl
  next => cases h

theorem discard_sound (h : step serialize calls s (.discard i) = some t) : Sound serialize calls t := by
  simp only [step] at h
  split at h
  next id e hpc =>
    cases h
    have hid : (s.pc i).awaiting = some id := by rw [hpc]; rfl
    have hnone := hs.no_waiter_removed hid
    exact (hs.removeBlockingWaiter id.toUInt64).goto_failed hpc hnone rfl
  next => cases h

theorem check_sound {verdict : Except NodegetError Unit} (h : step serialize calls s (.check i verdict) = some t) :
    Sound serialize calls t := by
  simp only [step] at h
  split at h
  next response hcall hpc =>
    split at h
    next =>
      cases h
      exact hs.goto_same hpc _ rfl (fun _ _ _ hid => nomatch hid) rfl rfl
    next =>
      cases h
      exact hs.goto_failed hpc (hs.no_waiter hpc rfl) rfl
  next => cases h

omit [DecidableEq ι] in
/-- The first upload for a row writes it, and then the row has that upload's result. -/
theorem stored_fits (hcall : calls i = .upload r) (hpc : s.pc i = .checked)
    (hresult : serializeResult serialize r.taskEventResult = .ok result)
    (hwrite : writeResult s.table r result = some table) : Fits serialize calls { s with table } i .stored := by
  obtain ⟨⟨row, hrow, hmatches, hnone⟩, -⟩ := writeResult_eq_some hwrite
  have hid : row.id = r.taskId.toInt64 := (of_decide_eq_true hmatches).1
  constructor
  case created => exact fun _ hid => nomatch hid
  case waiter => exact fun key hkey => absurd hkey (hs.no_waiter hpc rfl key)
  case delivered => exact fun r' hr' => absurd hr' (hs.not_delivered hpc rfl rfl r')
  case answered => exact fun _ _ hanswered => nomatch hanswered
  case kept => exact fun _ => rfl
  case stored =>
    intro _ r' hcall'
    obtain rfl : r = r' := Call.upload.inj (hcall.symm.trans hcall')
    refine ⟨hid ▸ hs.rowUsed row hrow, ?_, ?_⟩
    · intro row' hrow' hid'
      obtain ⟨hold, hkept⟩ | ⟨old, -, hold, -, rfl⟩ := mem_writeResult hwrite hrow'
      · have hsame : row' = row := s.table.eq_of_id hold hrow (hid'.trans hid.symm)
        exact absurd (hsame ▸ ⟨hmatches, hnone⟩) hkept
      · exact fill_stores hold hresult
    · intro j r' hj hstored hsame
      have hsuccess := (hs.stored j r' hj hstored row hrow (hsame ▸ hid)).success
      rw [hnone] at hsuccess
      cases hsuccess

theorem store_sound (h : step serialize calls s (.store i) = some t) : Sound serialize calls t := by
  obtain ⟨r, hcall, hpc, ⟨e, rfl⟩ | ⟨table, hstore, rfl⟩⟩ := store_cases h
  · exact hs.goto_failed hpc (hs.no_waiter hpc rfl) rfl
  · obtain ⟨result, hresult, hwrite⟩ := storeResult_ok hstore
    exact (hs.writeResult hwrite).goto (stored_fits hs hcall hpc hresult hwrite)

theorem notify_sound (h : step serialize calls s (.notify i) = some t) : Sound serialize calls t := by
  simp only [step] at h
  split at h
  next response hcall hpc =>
    cases h
    have hmoved := hs.goto_same hpc .accepted rfl (fun _ _ _ hid => nomatch hid) rfl rfl
    exact hmoved.notifyBlockingWaiter hcall (by rw [goto_self]; rfl)
  next => cases h

end Steps

theorem step_sound (s : State ι ρ) (a : Action ι) (t : State ι ρ) (hs : Sound serialize calls s)
    (h : step serialize calls s a = some t) : Sound serialize calls t := by
  cases a with
  | refuse i e =>
    simp only [step] at h
    split at h
    next hpc =>
      cases h
      exact hs.goto_failed hpc (hs.no_waiter hpc rfl) rfl
    next => cases h
  | insert i id token => exact insert_sound hs h
  | register i => exact register_sound hs h
  | send i outcome => exact send_sound hs h
  | unregister i => exact unregister_sound hs h
  | rollback i deleted => exact rollback_sound hs h
  | receive i => exact receive_sound hs h
  | expire i => exact expire_sound hs h
  | discard i => exact discard_sound hs h
  | check i verdict => exact check_sound hs h
  | store i => exact store_sound hs h
  | notify i => exact notify_sound hs h

/-- A row with a result stays as it is, or goes for good. -/
def Final (row : Row) (s : State ι ρ) : Prop :=
  row.id ∈ s.used ∧ ∀ row' ∈ s.table.rows, row'.id = row.id → row' = row

theorem step_final (hresult : row.success ≠ none) (s : State ι ρ) (a : Action ι) (t : State ι ρ) (hs : Final row s)
    (h : step serialize calls s a = some t) : Final row t := by
  cases a with
  | insert i id token =>
    obtain ⟨-, targetUuid, taskType, hnew, rfl⟩ := insert_cases h
    refine ⟨List.mem_cons_of_mem _ hs.1, fun row' hrow' hid => ?_⟩
    obtain rfl | hold := List.mem_cons.mp hrow'
    · have hsame : id = row.id := hid
      exact absurd (hsame ▸ hs.1) hnew.1
    · exact hs.2 row' hold hid
  | store i =>
    obtain ⟨r, -, -, ⟨e, rfl⟩ | ⟨table, hstore, rfl⟩⟩ := store_cases h
    · exact hs
    · obtain ⟨result, -, hwrite⟩ := storeResult_ok hstore
      refine ⟨hs.1, fun row' hrow' hid => ?_⟩
      obtain ⟨hold, -⟩ | ⟨old, hold, -, hnone, rfl⟩ := mem_writeResult hwrite hrow'
      · exact hs.2 row' hold hid
      · exact absurd (hs.2 old hold hid ▸ hnone) hresult
  | rollback i deleted =>
    obtain ⟨id, e, answer, -, rfl⟩ := rollback_cases h
    refine ⟨hs.1, fun row' hrow' hid => hs.2 row' ?_ hid⟩
    cases deleted with
    | false => exact hrow'
    | true => exact (List.mem_filter.mp hrow').1
  | refuse i e | register i | send i outcome | unregister i | receive i | expire i | discard i | check i verdict
  | notify i =>
    have hsame : t.table = s.table ∧ t.used = s.used := by
      simp only [step] at h
      repeat' split at h
      all_goals cases h
      all_goals exact ⟨rfl, rfl⟩
    rw [Final, hsame.1, hsame.2]
    exact hs

/-- **Results are delivered once and to the right waiter.** In every run of blocking calls and
uploads, at most one upload succeeds for a row; a row that has a result stays as it is as long
as it is there; and the response a blocking call returns is the one its row holds. -/
theorem results_delivered_once (serialize : ρ → Except String Json) (calls : ι → Call ρ)
    (table : IdTable Row Row.id) (schedule : List (Action ι))
    (hrun : run (step serialize calls) (start table) schedule = some s) :
    (∀ i j r r', calls i = .upload r → calls j = .upload r' → (s.pc i).hasStored = true →
      (s.pc j).hasStored = true → r.taskId = r'.taskId → i = j) ∧
    (∀ rest t, run (step serialize calls) s rest = some t → ∀ row ∈ s.table.rows, row.success ≠ none →
      ∀ row' ∈ t.table.rows, row'.id = row.id → row' = row) ∧
    ∀ i id r, s.pc i = .answered id r → ∃ row ∈ s.table.rows, row.id = id ∧ row.Stores serialize r := by
  have hs : Sound serialize calls s := run_preserves step_sound (start_sound table) hrun
  refine ⟨hs.once, ?_, ?_⟩
  · intro rest t hrest row hrow hresult
    have hfinal : Final row s := ⟨hs.rowUsed row hrow, fun row' hrow' hid => s.table.eq_of_id hrow' hrow hid⟩
    exact (run_preserves (step_final hresult) hfinal hrest).2
  · intro i id r hanswered
    obtain ⟨hid, j, hj, hstored⟩ := hs.answered i id r hanswered
    obtain ⟨row, hrow, hrowid⟩ := hs.row i id (by rw [hanswered]; rfl)
    exact ⟨row, hrow, hrowid, hs.stored j r hj hstored row hrow (hrowid.trans hid.symm)⟩

end Machine

private def address : TaskEventResponse String := ⟨1, 7, "secret", 5, true, none, some "10.0.0.1"⟩

/-- A call that waits, the agent's response to it, and the same response once more. -/
private def asking : ℕ → Call String
  | 0 => .blocking 7 (.str "ip") 1000
  | _ => .upload address

/-- Both uploads find the row without a result before one of them writes it. -/
private def racing : List (Action ℕ) :=
  [.insert 0 1 "secret", .register 0, .send 0 (.ok ()), .check 1 (.ok ()), .check 2 (.ok ()), .store 2, .store 1,
    .notify 2, .receive 0]

theorem results_delivered_once_racing :
    ∃ s : State ℕ String,
      run (step (fun text => .ok (.str text)) asking) (start ⟨[], List.nodup_nil⟩) racing = some s ∧
      (s.pc 1).isFailed = true ∧ s.pc 0 = .answered 1 address ∧
      ∃ row ∈ s.table.rows, row.id = 1 ∧ row.Stores (fun text => .ok (.str text)) address := by
  refine ⟨_, rfl, rfl, rfl, ?_⟩
  exact (results_delivered_once (fun text => .ok (.str text)) asking ⟨[], List.nodup_nil⟩ racing rfl).2.2 0 1 address rfl

end NodeGet.Task.Blocking
