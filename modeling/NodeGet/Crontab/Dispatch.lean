import NodeGet.Task.Conditions
import NodeGet.Task.Creation

/-! Sending a cron job to its agents (`ng-crontab/src/task.rs`: `crontab_task`).

A run asks which of its targets have a session. When none has, it looks for a report of that from
the last ten minutes, and writes one if there is none. Otherwise it writes a task for each target
with a session, in one statement, starts a send for each, and collects what the sends return in
the order in which they end. The tasks that were not delivered are deleted in one statement, and
the results of the run are written in another.

Runs share the sessions and the two tables with each other and with other senders and writers.
Events are named by the run and by the target's place in the run's list, so that an agent may
stand in the list more than once. The database works, and nobody else deletes tasks.

What the loop collects is said in closed form for any list of sends (`collected_eq`). Whatever
the order, in the end that list is the outcome of every send of the run (`Local.joined_perm`). -/
namespace NodeGet.Crontab.Dispatch
open NodeGet.Core NodeGet.Machine NodeGet.Data NodeGet.Task Function
open NodeGet.Task.Retention (IdTable)
open NodeGet.Task.Blocking (TaskEventResponse newRow)
open NodeGet.Task.Creation (TaskEvent SameTask caller id_of_key)

/-! ### Jobs and rows -/

/-- The arguments of `crontab_task`. -/
structure Job where
  cronId : Int64
  cronName : String
  uuids : List Uuid
  taskEventType : TaskEventType

structure TaskRow extends Blocking.Row where
  cronSource : Option String
  createdAt : Option Int

abbrev Tasks := IdTable TaskRow fun row => row.id

/-- A new row of `crontab_result`; its id is left to the database. -/
structure CrontabResult where
  cronId : Int64
  cronName : String
  relativeId : Option Int64
  runTime : Option Int
  success : Option Bool
  message : Option String
deriving DecidableEq

def allOfflineThrottleMs : Int := 10 * 60 * 1000

def allOfflineMessagePrefix : String := "全部目标 Agent 离线"

def allOfflineLikePattern : String := allOfflineMessagePrefix ++ "%"

namespace Job

def result (job : Job) (relativeId : Option Int64) (now : Int) (success : Bool) (message : String) : CrontabResult :=
  ⟨job.cronId, job.cronName, relativeId, some now, some success, some message⟩

def allOfflineRow (job : Job) (now : Int) (skippedAtPrecheck : Nat) : CrontabResult :=
  job.result none now false
    (allOfflineMessagePrefix ++ ("（" ++ toString skippedAtPrecheck ++ " 个），本次未下发；" ++
      "请检查 Agent 是否在线且 allow_task 已开启（同一 cron 10 分钟内只记一条）"))

def failureRow (job : Job) (now : Int) (uuid : Uuid) (detail : String) : CrontabResult :=
  job.result none now false ("任务下发失败，Agent：[" ++ uuid.text ++ "]，错误：" ++ detail)

def successRow (job : Job) (now : Int) (uuid : Uuid) (taskId : Int64) : CrontabResult :=
  job.result (some taskId) now true
    ("任务下发成功，Agent：[" ++ uuid.text ++ "]，relative_id：" ++ toString taskId.toInt)

def summaryRow (job : Job) (now : Int) (relativeId : Option Int64) (successCount skippedTotal : Nat) : CrontabResult :=
  job.result relativeId now true
    ("任务下发成功，Agent 数：" ++ toString successCount ++ "/" ++ toString job.uuids.length ++
      if 0 < skippedTotal then "，离线跳过：" ++ toString skippedTotal else "")

def newTask (job : Job) (now : Int) (uuid : Uuid) (id : Int64) (token : String) : TaskRow where
  toRow := newRow id uuid token job.taskEventType.toJson
  cronSource := some job.cronName
  createdAt := some now

/-- `connected_uuids`, with the places of the targets. -/
def connected (job : Job) (isConnected : Uuid → Bool) : List (Uuid × Nat) :=
  job.uuids.zipIdx.filter fun target => isConnected target.1

end Job

/-- `LIKE`: SQLite does not tell the case of letters apart. -/
def like : Backend → (pattern text : String) → Bool
  | .sqlite, pattern, text => sqliteLike pattern.toList text.toList
  | .postgres, pattern, text => (Like.parse '\\' pattern.toList).any fun items => Like.matchItems (· == ·) items text.toList

/-- A report that all targets of the job were offline. -/
def CrontabResult.isAllOffline (backend : Backend) (cronId : Int64) (row : CrontabResult) : Bool :=
  row.cronId == cronId && row.success == some false && row.message.any (like backend allOfflineLikePattern)

def CrontabResult.since (row : CrontabResult) (time : Int) : Bool := row.runTime.any (time ≤ ·)

/-! ### What the sends return -/

/-- What `join_next` gives, and the target's place in the list. -/
structure Sent where
  place : Nat
  uuid : Uuid
  taskId : Int64
  sendResult : Except TaskSendError Unit

namespace Sent

def accepted (sent : Sent) : Bool :=
  match sent.sendResult with
  | .ok () => true
  | .error _ => false

/-- The agent has gone offline since the pre-check. -/
def gone (sent : Sent) : Bool :=
  match sent.sendResult with
  | .ok () => false
  | .error e => e.isNotConnected

def full (sent : Sent) : Bool :=
  match sent.sendResult with
  | .ok () => false
  | .error e => !e.isNotConnected

def detail (sent : Sent) : String :=
  match sent.sendResult with
  | .ok () => ""
  | .error e => e.message

end Sent

/-- The accumulators of the loop. -/
structure Collected where
  crontabResults : List CrontabResult := []
  undeliveredTaskIds : List Int64 := []
  successCount : Nat := 0
  skippedOnSend : Nat := 0
  soleSuccessTaskId : Option Int64 := none
  successRows : List CrontabResult := []

section Loop
variable (job : Job) (now : Int) (aggregateSuccess : Bool)

/-- The body of the loop. -/
def collect (c : Collected) (sent : Sent) : Collected :=
  match sent.sendResult with
  | .ok () =>
    { c with
      soleSuccessTaskId := if job.uuids.length = 1 then some sent.taskId else c.soleSuccessTaskId
      successCount := c.successCount + 1
      successRows :=
        if aggregateSuccess then c.successRows else c.successRows ++ [job.successRow now sent.uuid sent.taskId] }
  | .error e =>
    let c := { c with undeliveredTaskIds := c.undeliveredTaskIds ++ [sent.taskId] }
    if e.isNotConnected then { c with skippedOnSend := c.skippedOnSend + 1 }
    else { c with crontabResults := c.crontabResults ++ [job.failureRow now sent.uuid e.message] }

def collected (sents : List Sent) : Collected := sents.foldl (collect job now aggregateSuccess) {}

/-- The results that are written after the loop. -/
def crontabResults (skippedAtPrecheck : Nat) (c : Collected) : List CrontabResult :=
  if aggregateSuccess then
    if 0 < c.successCount then
      c.crontabResults ++ [job.summaryRow now (if job.uuids.length = 1 then c.soleSuccessTaskId else none) c.successCount
        (skippedAtPrecheck + c.skippedOnSend)]
    else c.crontabResults
  else c.crontabResults ++ c.successRows

/-- What the policy asks for in the way of successes: a row for each, or one for all, with the
task if the job has one target. -/
def successRows (skippedTotal : Nat) (accepted : List Sent) : List CrontabResult :=
  if aggregateSuccess then
    match accepted with
    | [] => []
    | sent :: _ =>
      [job.summaryRow now (if job.uuids.length = 1 then some sent.taskId else none) accepted.length skippedTotal]
  else accepted.map fun sent => job.successRow now sent.uuid sent.taskId

variable {job now aggregateSuccess}

theorem foldl_collect (c : Collected) (sents : List Sent) :
    sents.foldl (collect job now aggregateSuccess) c = {
      crontabResults :=
        c.crontabResults ++ (sents.filter Sent.full).map fun sent => job.failureRow now sent.uuid sent.detail
      undeliveredTaskIds := c.undeliveredTaskIds ++ (sents.filter fun sent => !sent.accepted).map (·.taskId)
      successCount := c.successCount + (sents.filter Sent.accepted).length
      skippedOnSend := c.skippedOnSend + (sents.filter Sent.gone).length
      soleSuccessTaskId :=
        if job.uuids.length = 1 then ((sents.filter Sent.accepted).getLast?.map (·.taskId)).or c.soleSuccessTaskId
        else c.soleSuccessTaskId
      successRows :=
        if aggregateSuccess then c.successRows
        else c.successRows ++ (sents.filter Sent.accepted).map fun sent => job.successRow now sent.uuid sent.taskId } := by
  induction sents generalizing c with
  | nil => simp
  | cons sent sents ih =>
    rw [List.foldl_cons, ih]
    cases hresult : sent.sendResult with
    | ok =>
      have haccepted : sent.accepted = true := by simp [Sent.accepted, hresult]
      have hgone : sent.gone = false := by simp [Sent.gone, hresult]
      have hfull : sent.full = false := by simp [Sent.full, hresult]
      simp only [collect, hresult, List.filter_cons, haccepted, hgone, hfull]
      rw [Collected.mk.injEq]
      refine ⟨rfl, rfl, ?_, rfl, ?_, ?_⟩
      · simp only [if_true, List.length_cons]
        omega
      · split
        next => cases hlast : (sents.filter Sent.accepted).getLast? <;> simp [List.getLast?_cons, hlast]
        next => rfl
      · split <;> simp
    | error e =>
      have haccepted : sent.accepted = false := by simp [Sent.accepted, hresult]
      have hgone : sent.gone = e.isNotConnected := by simp [Sent.gone, hresult]
      have hfull : sent.full = !e.isNotConnected := by simp [Sent.full, hresult]
      have hdetail : sent.detail = e.message := by simp [Sent.detail, hresult]
      cases hconnected : e.isNotConnected with
      | true =>
        simp only [collect, hresult, List.filter_cons, haccepted, hgone, hfull, hconnected]
        rw [Collected.mk.injEq]
        refine ⟨rfl, by simp, rfl, ?_, rfl, rfl⟩
        simp only [if_true, List.length_cons]
        omega
      | false => simp [collect, hresult, haccepted, hgone, hfull, hdetail, hconnected]

/-- What the loop has collected, from the sends in the order in which they ended. -/
theorem collected_eq (sents : List Sent) :
    collected job now aggregateSuccess sents = {
      crontabResults := (sents.filter Sent.full).map fun sent => job.failureRow now sent.uuid sent.detail
      undeliveredTaskIds := (sents.filter fun sent => !sent.accepted).map (·.taskId)
      successCount := (sents.filter Sent.accepted).length
      skippedOnSend := (sents.filter Sent.gone).length
      soleSuccessTaskId :=
        if job.uuids.length = 1 then (sents.filter Sent.accepted).getLast?.map (·.taskId) else none
      successRows :=
        if aggregateSuccess then []
        else (sents.filter Sent.accepted).map fun sent => job.successRow now sent.uuid sent.taskId } := by
  simp [collected, foldl_collect]

/-- A send is accepted, or finds the agent gone, or finds the queue full. -/
theorem length_by_outcome (sents : List Sent) :
    (sents.filter Sent.accepted).length + (sents.filter Sent.gone).length + (sents.filter Sent.full).length =
      sents.length := by
  induction sents with
  | nil => rfl
  | cons sent sents ih =>
    cases hresult : sent.sendResult with
    | ok =>
      simp only [List.filter_cons, Sent.accepted, Sent.gone, Sent.full, hresult, if_true, List.length_cons]
      simp only [Bool.false_eq_true, if_false]
      omega
    | error e =>
      cases hconnected : e.isNotConnected <;>
        simp [Sent.accepted, Sent.gone, Sent.full, hresult, hconnected] <;> omega

theorem crontabResults_collected {sents : List Sent} (hone : job.uuids.length = 1 → sents.length ≤ 1)
    (skippedAtPrecheck : Nat) :
    crontabResults job now aggregateSuccess skippedAtPrecheck (collected job now aggregateSuccess sents) =
      ((sents.filter Sent.full).map fun sent => job.failureRow now sent.uuid sent.detail) ++
        successRows job now aggregateSuccess (skippedAtPrecheck + (sents.filter Sent.gone).length)
          (sents.filter Sent.accepted) := by
  have hlast : job.uuids.length = 1 → (sents.filter Sent.accepted).getLast? = (sents.filter Sent.accepted).head? := by
    intro h
    have hle : (sents.filter Sent.accepted).length ≤ 1 := (List.length_filter_le ..).trans (hone h)
    match sents.filter Sent.accepted, hle with
    | [], _ => rfl
    | [_], _ => rfl
  rw [collected_eq, crontabResults]
  cases aggregateSuccess with
  | false => rfl
  | true =>
    simp only [successRows, if_true]
    split
    next hpos =>
      obtain ⟨sent, rest, haccepted⟩ := List.exists_cons_of_length_pos hpos
      by_cases h : job.uuids.length = 1
      · have hlast := hlast h
        rw [haccepted] at hlast
        simp [h, hlast, haccepted]
      · simp [h, haccepted]
    next hzero => simp [List.eq_nil_of_length_eq_zero (Nat.eq_zero_of_not_pos hzero)]

/-- The order of the sends does not matter to the rows. -/
theorem successRows_perm {accepted accepted' : List Sent} (hperm : accepted.Perm accepted')
    (hone : job.uuids.length = 1 → accepted.length ≤ 1) (skippedTotal : Nat) :
    (successRows job now aggregateSuccess skippedTotal accepted).Perm
      (successRows job now aggregateSuccess skippedTotal accepted') := by
  cases aggregateSuccess with
  | false => exact hperm.map _
  | true =>
    match accepted, accepted', hperm with
    | [], [], _ => exact .refl _
    | [], _ :: _, hperm => exact nomatch hperm.length_eq
    | _ :: _, [], hperm => exact nomatch hperm.length_eq
    | sent :: rest, sent' :: rest', hperm =>
      have hhead : job.uuids.length = 1 → sent.taskId = sent'.taskId := by
        intro h
        have hrest : rest = [] := List.eq_nil_of_length_eq_zero (Nat.le_zero.mp (Nat.le_of_succ_le_succ (hone h)))
        subst hrest
        cases List.perm_singleton.mp hperm.symm
        rfl
      have hlength := hperm.length_eq
      simp only [List.length_cons, Nat.add_right_cancel_iff] at hlength
      by_cases h : job.uuids.length = 1
      · simp [successRows, h, hhead h, hlength]
      · simp [successRows, h, hlength]

end Loop

/-! ### State -/

/-- An event of a run is named by its target's place in the list. -/
inductive Event (ι κ : Type) where
  | cron (i : ι) (place : Nat)
  | other (c : κ)
deriving DecidableEq

/-- What a run has inserted, at the time it has read before, and the policy it has read after. -/
structure Batch where
  now : Int
  aggregateSuccess : Bool
  /-- The tasks, with the places of their targets. -/
  rows : List (Nat × TaskRow)
  unique : ((rows.map (·.2)).map (·.id)).Nodup

inductive Pc where
  | start
  /-- None of the targets has a session. -/
  | offline (now : Int)
  /-- And there is no recent report of that. -/
  | unreported (now : Int)
  | online (now : Int) (connected : List (Uuid × Nat))
  /-- In the loop, with the sends it has joined. -/
  | sending (batch : Batch) (joined : List Sent)
  /-- The tasks that were not delivered are gone. -/
  | cleaned (batch : Batch) (joined : List Sent)
  /-- The run has ended: it had no targets, found a recent report, wrote one, or has sent. -/
  | skipped
  | throttled (now : Int) (row : CrontabResult)
  | reported (now : Int)
  | done (batch : Batch) (joined : List Sent)

namespace Pc

def batch : Pc → Option Batch
  | sending batch _ | cleaned batch _ | done batch _ => some batch
  | start | offline _ | unreported _ | online .. | skipped | throttled .. | reported _ => none

def joined : Pc → List Sent
  | sending _ joined | cleaned _ joined | done _ joined => joined
  | start | offline _ | unreported _ | online .. | skipped | throttled .. | reported _ => []

def ended : Pc → Bool
  | skipped | throttled .. | reported _ | done .. => true
  | start | offline _ | unreported _ | online .. | sending .. | cleaned .. => false

/-- The run has found no target with a session. -/
def stays : Pc → Bool
  | offline _ | unreported _ | skipped | throttled .. | reported _ => true
  | start | online .. | sending .. | cleaned .. | done .. => false

/-- The sends have all been joined. -/
def left : Pc → Bool
  | cleaned .. | done .. => true
  | start | offline _ | unreported _ | online .. | sending .. | skipped | throttled .. | reported _ => false

end Pc

/-- A row of `crontab_result` and, as history, the run that has written it. -/
structure Written (ι : Type) where
  author : Option ι
  row : CrontabResult

/-- Sessions are named by their registration. -/
structure State (σ ι κ : Type) where
  sessions : Sessions.State σ (Event ι κ)
  tasks : Tasks
  results : List (Written ι)
  pc : ι → Pc
  /-- History: the agents that had a session at the run's pre-check. -/
  found : ι → Uuid → Bool
  /-- History: the ids of the tasks there have been. -/
  used : List Int64

def start {σ ι κ : Type} (sessions : Sessions.State σ (Event ι κ)) (tasks : Tasks) (results : List CrontabResult) :
    State σ ι κ where
  sessions := sessions
  tasks := tasks
  results := results.map fun row => ⟨none, row⟩
  pc := fun _ => .start
  found := fun _ _ => false
  used := tasks.rows.map (·.id)

/-! ### Steps -/

inductive Action (σ ι κ : Type) where
  /-- A session, or a send that has been started, moves on. -/
  | session (a : Sessions.Action σ (Event ι κ))
  /-- With the time that is read then. -/
  | precheck (i : ι) (now : Int)
  | lookup (i : ι)
  | report (i : ι)
  /-- The database gives the ids, the run has drawn the tokens, and it reads the policy. -/
  | insert (i : ι) (keys : List (Int64 × String)) (aggregateSuccess : Bool)
  | join (i : ι) (place : Nat)
  | clean (i : ι)
  | save (i : ι)
  /-- An agent answers; the result of a task has been serialised. -/
  | upload (response : TaskEventResponse Json)
  /-- Another task is created. -/
  | create (row : TaskRow)
  /-- Another result is written. -/
  | record (row : CrontabResult)

section Machine
variable {σ ι κ : Type} [DecidableEq ι] (agent regId : σ → Uuid) (backend : Backend)
  (other : κ → Uuid) (jobs : ι → Job)

def State.goto (s : State σ ι κ) (i : ι) (pc : Pc) : State σ ι κ := { s with pc := update s.pc i pc }

def target : Event ι κ → Uuid
  | .cron i place => (jobs i).uuids.getD place 0
  | .other c => other c

/-- The send has been started. -/
def State.spawned (s : State σ ι κ) : Event ι κ → Bool
  | .cron i place => (s.pc i).batch.any fun batch => batch.rows.any fun task => task.1 == place
  | .other _ => true

def recentlyReported (job : Job) (now : Int) (w : Written ι) : Bool :=
  w.row.isAllOffline backend job.cronId && w.row.since (now - allOfflineThrottleMs)

/-- The tasks of a run, with the places of their targets. -/
def newTasks (job : Job) (now : Int) (connected : List (Uuid × Nat)) (keys : List (Int64 × String)) :
    List (Nat × TaskRow) :=
  (connected.zip keys).map fun (target, key) => (target.2, job.newTask now target.1 key.1 key.2)

def Batch.collected (batch : Batch) (job : Job) (joined : List Sent) : Collected :=
  Dispatch.collected job batch.now batch.aggregateSuccess joined

def Batch.crontabResults (batch : Batch) (job : Job) (joined : List Sent) : List CrontabResult :=
  Dispatch.crontabResults job batch.now batch.aggregateSuccess (job.uuids.length - batch.rows.length)
    (batch.collected job joined)

def State.write (s : State σ ι κ) (author : Option ι) (rows : List CrontabResult) : State σ ι κ :=
  { s with results := s.results ++ rows.map fun row => ⟨author, row⟩ }

def State.insertMany (s : State σ ι κ) (rows : List TaskRow)
    (hnew : (rows.map (·.id) ++ s.tasks.rows.map (·.id)).Nodup) : State σ ι κ :=
  { s with tasks := s.tasks.insertMany rows hnew, used := rows.map (·.id) ++ s.used }

def upload (tasks : Tasks) (response : TaskEventResponse Json) : Tasks :=
  tasks.update (fun row => response.matches row.toRow && row.success.isNone)
    (fun row => { row with toRow := response.fill response.taskEventResult row.toRow }) fun _ => rfl

/-- `DELETE … WHERE id IN`, unless there are no ids. -/
def deleteMany (tasks : Tasks) (ids : List Int64) : Tasks := if ids = [] then tasks else tasks.deleteIds ids

variable [DecidableEq σ] [DecidableEq κ] in
def step (s : State σ ι κ) : Action σ ι κ → Option (State σ ι κ)
  | .session a =>
    if (caller a).all s.spawned then
      (Sessions.step agent regId (target other jobs) s.sessions a).map fun sessions => { s with sessions }
    else none
  | .precheck i now =>
    match s.pc i with
    | .start =>
      if (jobs i).uuids = [] then some (s.goto i .skipped)
      else
        let isConnected := ClosedSink.isConnected s.sessions
        let connected := (jobs i).connected isConnected
        let s := { s with found := update s.found i isConnected }
        some (s.goto i (if connected = [] then .offline now else .online now connected))
    | _ => none
  | .lookup i =>
    match s.pc i with
    | .offline now =>
      match s.results.find? (recentlyReported backend (jobs i) now) with
      | some w => some (s.goto i (.throttled now w.row))
      | none => some (s.goto i (.unreported now))
    | _ => none
  | .report i =>
    match s.pc i with
    | .unreported now =>
      some ((s.write (some i) [(jobs i).allOfflineRow now (jobs i).uuids.length]).goto i (.reported now))
    | _ => none
  | .insert i keys aggregateSuccess =>
    match s.pc i with
    | .online now connected =>
      let rows := newTasks (jobs i) now connected keys
      if hnew : keys.length = connected.length ∧ (∀ task ∈ rows, task.2.id ∉ s.used) ∧
          ((rows.map (·.2)).map (·.id) ++ s.tasks.rows.map (·.id)).Nodup then
        some ((s.insertMany (rows.map (·.2)) hnew.2.2).goto i
          (.sending ⟨now, aggregateSuccess, rows, hnew.2.2.of_append_left⟩ []))
      else none
    | _ => none
  | .join i place =>
    match s.pc i with
    | .sending batch joined =>
      match batch.rows.find? fun task => task.1 == place, s.sessions.call (.cron i place) with
      | some task, .returned sendResult =>
        if place ∈ joined.map (·.place) then none
        else some (s.goto i (.sending batch (joined ++ [⟨task.1, task.2.uuid, task.2.id, sendResult⟩])))
      | _, _ => none
    | _ => none
  | .clean i =>
    match s.pc i with
    | .sending batch joined =>
      if joined.length = batch.rows.length then
        let ids := (batch.collected (jobs i) joined).undeliveredTaskIds
        some ({ s with tasks := deleteMany s.tasks ids }.goto i (.cleaned batch joined))
      else none
    | _ => none
  | .save i =>
    match s.pc i with
    | .cleaned batch joined =>
      some ((s.write (some i) (batch.crontabResults (jobs i) joined)).goto i (.done batch joined))
    | _ => none
  | .upload response => some { s with tasks := upload s.tasks response }
  | .create row =>
    if hnew : row.id ∉ s.used ∧ ([row].map (·.id) ++ s.tasks.rows.map (·.id)).Nodup then
      some (s.insertMany [row] hnew.2)
    else none
  | .record row => some (s.write none [row])

/-! ### What a run owns -/

/-- What the sends of a run have returned so far, in the order of the targets. -/
def State.sends (s : State σ ι κ) (i : ι) (batch : Batch) : List Sent :=
  batch.rows.filterMap fun task =>
    match s.sessions.call (.cron i task.1) with
    | .returned sendResult => some ⟨task.1, task.2.uuid, task.2.id, sendResult⟩
    | _ => none

/-- The results a run has written. -/
def State.written (s : State σ ι κ) (i : ι) : List CrontabResult :=
  (s.results.filter fun w => w.author = some i).map (·.row)

namespace Pc

/-- The tasks that the run has deleted. -/
def withdrawn (job : Job) : Pc → List Int64
  | cleaned batch joined | done batch joined => (batch.collected job joined).undeliveredTaskIds
  | start | offline _ | unreported _ | online .. | sending .. | skipped | throttled .. | reported _ => []

def written (job : Job) : Pc → List CrontabResult
  | reported now => [job.allOfflineRow now job.uuids.length]
  | done batch joined => batch.crontabResults job joined
  | start | offline _ | unreported _ | online .. | sending .. | cleaned .. | skipped | throttled .. => []

end Pc

structure Local (s : State σ ι κ) (i : ι) (pc : Pc) : Prop where
  offline : pc.stays = true → ∀ uuid ∈ (jobs i).uuids, s.found i uuid = false
  online : ∀ now connected, pc = .online now connected → connected = (jobs i).connected (s.found i)
  targets : ∀ batch, pc.batch = some batch →
    batch.rows.map (fun task => (task.2.uuid, task.1)) = (jobs i).connected (s.found i)
  used : ∀ batch, pc.batch = some batch → ∀ task ∈ batch.rows, task.2.id ∈ s.used
  same : ∀ batch, pc.batch = some batch → ∀ task ∈ batch.rows, ∀ r ∈ s.tasks.rows, r.id = task.2.id →
    SameTask r.toRow task.2.toRow
  present : ∀ batch, pc.batch = some batch → ∀ task ∈ batch.rows, task.2.id ∉ pc.withdrawn (jobs i) →
    ∃ r ∈ s.tasks.rows, r.id = task.2.id
  absent : ∀ id ∈ pc.withdrawn (jobs i), ∀ r ∈ s.tasks.rows, r.id ≠ id
  joined : ∀ batch, pc.batch = some batch → pc.joined ⊆ s.sends i batch
  once : (pc.joined.map (·.place)).Nodup
  all : pc.left = true → ∀ batch, pc.batch = some batch → pc.joined.length = batch.rows.length
  written : s.written i = pc.written (jobs i)

structure Sound (s : State σ ι κ) : Prop where
  sessions : Sessions.Sound agent regId (target other jobs) s.sessions
  taskUsed : ∀ r ∈ s.tasks.rows, r.id ∈ s.used
  own : ∀ i j batch batch', (s.pc i).batch = some batch → (s.pc j).batch = some batch' →
    ∀ task ∈ batch.rows, ∀ task' ∈ batch'.rows, task.2.id = task'.2.id → i = j
  runs : ∀ i, Local jobs s i (s.pc i)

variable {agent regId backend other jobs} {s t : State σ ι κ} {i : ι}

variable {batch : Batch} {pc : Pc} {job : Job} {id : Int64} {s' : State σ ι κ} {sessions : Sessions.State σ (Event ι κ)}
  {a : Sessions.Action σ (Event ι κ)} {ids : List Int64} {j : ι} {isConnected : Uuid → Bool} {place : Nat} {now : Int}
  {keys : List (Int64 × String)} {aggregateSuccess : Bool} {task : Nat × TaskRow} {joined : List Sent}

omit [DecidableEq ι] in
theorem mem_sends {sent : Sent} : sent ∈ s.sends i batch ↔
    ∃ task ∈ batch.rows, s.sessions.call (.cron i task.1) = .returned sent.sendResult ∧
      sent = ⟨task.1, task.2.uuid, task.2.id, sent.sendResult⟩ := by
  simp only [State.sends, List.mem_filterMap]
  constructor
  · intro h
    obtain ⟨task, htask, hsent⟩ := h
    split at hsent
    next sendResult hcall =>
      cases hsent
      exact ⟨task, htask, hcall, rfl⟩
    next => cases hsent
  · intro h
    obtain ⟨task, htask, hcall, hsent⟩ := h
    refine ⟨task, htask, ?_⟩
    rw [hcall, hsent]

theorem undelivered_eq (batch : Batch) (job : Job) (joined : List Sent) :
    (batch.collected job joined).undeliveredTaskIds = (joined.filter fun sent => !sent.accepted).map (·.taskId) := by
  rw [Batch.collected, collected_eq]

/-- A run that has not written tasks has nothing to lose. -/
theorem Pc.idle (h : pc.batch = none) (job : Job) : pc.joined = [] ∧ pc.withdrawn job = [] ∧ pc.left = false := by
  cases pc with
  | sending | cleaned | done => cases h
  | _ => exact ⟨rfl, rfl, rfl⟩

theorem Pc.withdrawn_eq (h : id ∈ pc.withdrawn job) :
    ∃ batch, pc.batch = some batch ∧ ∃ sent ∈ pc.joined, sent.accepted = false ∧ sent.taskId = id := by
  cases pc with
  | cleaned batch joined | done batch joined =>
    simp only [Pc.withdrawn, undelivered_eq] at h
    obtain ⟨sent, hsent, rfl⟩ := List.mem_map.mp h
    obtain ⟨hjoined, haccepted⟩ := List.mem_filter.mp hsent
    exact ⟨batch, rfl, sent, hjoined, by simpa using haccepted, rfl⟩
  | _ => cases h

theorem Local.withdrawn_used (h : Local jobs s i pc) (hid : id ∈ pc.withdrawn (jobs i)) : id ∈ s.used := by
  obtain ⟨batch, hbatch, sent, hsent, -, rfl⟩ := Pc.withdrawn_eq hid
  obtain ⟨task, htask, -, hsent⟩ := mem_sends.mp (h.joined batch hbatch hsent)
  rw [hsent]
  exact h.used batch hbatch task htask

theorem Local.idle (hbatch : pc.batch = none)
    (hoffline : pc.stays = true → ∀ uuid ∈ (jobs i).uuids, s.found i uuid = false)
    (honline : ∀ now connected, pc = .online now connected → connected = (jobs i).connected (s.found i))
    (hwritten : s.written i = pc.written (jobs i)) : Local jobs s i pc := by
  obtain ⟨hjoined, hwithdrawn, hleft⟩ := Pc.idle hbatch (jobs i)
  have hnone : ∀ batch, pc.batch ≠ some batch := fun batch h => nomatch hbatch.symm.trans h
  constructor
  case offline => exact hoffline
  case online => exact honline
  case targets => exact fun batch h => absurd h (hnone batch)
  case used => exact fun batch h => absurd h (hnone batch)
  case same => exact fun batch h => absurd h (hnone batch)
  case present => exact fun batch h => absurd h (hnone batch)
  case absent =>
    rw [hwithdrawn]
    exact fun _ h => nomatch h
  case joined => exact fun batch h => absurd h (hnone batch)
  case once =>
    rw [hjoined]
    exact List.nodup_nil
  case all => exact fun h => nomatch hleft.symm.trans h
  case written => exact hwritten

/-! ### What the others do -/

/-- A run keeps what it owns as long as its tasks stay, nothing else comes under their ids, and
the outcomes of its sends stay what they are. -/
theorem Local.frame (h : Local jobs s i pc) (hfound : s'.found i = s.found i) (hused : s.used ⊆ s'.used)
    (hsends : ∀ batch, pc.batch = some batch → s.sends i batch ⊆ s'.sends i batch)
    (hwritten : s'.written i = s.written i)
    (hold : ∀ r ∈ s'.tasks.rows, (∃ r₀ ∈ s.tasks.rows, SameTask r.toRow r₀.toRow) ∨ r.id ∉ s.used)
    (hkept : ∀ batch, pc.batch = some batch → ∀ task ∈ batch.rows, task.2.id ∉ pc.withdrawn (jobs i) →
      ∀ r ∈ s.tasks.rows, r.id = task.2.id → ∃ r' ∈ s'.tasks.rows, r'.id = task.2.id) : Local jobs s' i pc := by
  constructor
  case offline =>
    rw [hfound]
    exact h.offline
  case online =>
    rw [hfound]
    exact h.online
  case targets =>
    rw [hfound]
    exact h.targets
  case used => exact fun batch hbatch task htask => hused (h.used batch hbatch task htask)
  case same =>
    intro batch hbatch task htask r hr hid
    obtain ⟨r₀, hr₀, hsame⟩ | hnew := hold r hr
    · have hold := h.same batch hbatch task htask r₀ hr₀ (hsame.id.symm.trans hid)
      exact ⟨hid, hsame.uuid.trans hold.uuid, hsame.token.trans hold.token,
        hsame.taskEventType.trans hold.taskEventType⟩
    · exact absurd (hid ▸ h.used batch hbatch task htask) hnew
  case present =>
    intro batch hbatch task htask hid
    obtain ⟨r, hr, hrid⟩ := h.present batch hbatch task htask hid
    exact hkept batch hbatch task htask hid r hr hrid
  case absent =>
    intro id hid r hr heq
    obtain ⟨r₀, hr₀, hsame⟩ | hnew := hold r hr
    · exact h.absent id hid r₀ hr₀ (hsame.id.symm.trans heq)
    · exact hnew (heq ▸ h.withdrawn_used hid)
  case joined => exact fun batch hbatch sent hsent => hsends batch hbatch (h.joined batch hbatch hsent)
  case once => exact h.once
  case all => exact h.all
  case written => exact hwritten.trans h.written

section Sessions
variable [DecidableEq σ] [DecidableEq κ]

/-- A send that has returned stays so. -/
theorem call_returned {sessions' : Sessions.State σ (Event ι κ)} {target : Event ι κ → Uuid} {c : Event ι κ}
    {sendResult : Except TaskSendError Unit} (h : Sessions.step agent regId target sessions a = some sessions')
    (hc : sessions.call c = .returned sendResult) : sessions'.call c = .returned sendResult := by
  by_cases hcaller : caller a = some c
  · cases a with
    | look c' =>
      cases hcaller
      cases hc.symm.trans (Sessions.look_cases h).1
    | send c' =>
      cases hcaller
      obtain ⟨k, hholding, -⟩ := Sessions.send_cases h
      cases hc.symm.trans hholding
    | drop c' =>
      cases hcaller
      obtain ⟨k, outcome, hsent, -⟩ := Sessions.drop_cases h
      cases hc.symm.trans hsent
    | _ => cases hcaller
  · rw [Creation.call_of_not_caller h hcaller, hc]

theorem Local.setSessions (h : Local jobs s i pc)
    (hstep : Sessions.step agent regId (target other jobs) s.sessions a = some sessions) :
    Local jobs { s with sessions } i pc := by
  refine h.frame rfl (fun _ hid => hid) ?_ rfl (fun r hr => .inl ⟨r, hr, .refl _⟩) fun _ _ _ _ _ r hr hid => ⟨r, hr, hid⟩
  intro batch _ sent hsent
  obtain ⟨task, htask, hcall, hsent⟩ := mem_sends.mp hsent
  exact mem_sends.mpr ⟨task, htask, call_returned hstep hcall, hsent⟩

end Sessions

/-- Tasks under new ids. -/
theorem Local.insertMany (h : Local jobs s i pc) {rows : List TaskRow}
    (hnew : (rows.map (·.id) ++ s.tasks.rows.map (·.id)).Nodup) (hfresh : ∀ r ∈ rows, r.id ∉ s.used) :
    Local jobs (s.insertMany rows hnew) i pc := by
  refine h.frame rfl (List.subset_append_right ..) (fun _ _ _ hsent => hsent) rfl ?_ ?_
  · intro r hr
    obtain hr | hr := List.mem_append.mp hr
    · exact .inr (hfresh r hr)
    · exact .inl ⟨r, hr, .refl _⟩
  · exact fun _ _ _ _ _ r hr hid => ⟨r, List.mem_append_right _ hr, hid⟩

theorem mem_upload (tasks : Tasks) (response : TaskEventResponse Json) :
    (∀ r ∈ (upload tasks response).rows, ∃ r₀ ∈ tasks.rows, SameTask r.toRow r₀.toRow) ∧
      ∀ r₀ ∈ tasks.rows, ∃ r ∈ (upload tasks response).rows, r.id = r₀.id := by
  constructor
  · intro r hr
    obtain ⟨r₀, hr₀, rfl⟩ := List.mem_map.mp hr
    refine ⟨r₀, hr₀, ?_⟩
    split <;> exact ⟨rfl, rfl, rfl, rfl⟩
  · intro r₀ hr₀
    refine ⟨_, List.mem_map_of_mem hr₀, ?_⟩
    split <;> rfl

theorem Local.upload (h : Local jobs s i pc) (response : TaskEventResponse Json) :
    Local jobs { s with tasks := upload s.tasks response } i pc := by
  obtain ⟨hold, hkept⟩ := mem_upload s.tasks response
  refine h.frame rfl (fun _ hid => hid) (fun _ _ _ hsent => hsent) rfl (fun r hr => .inl (hold r hr)) ?_
  intro _ _ task _ _ r hr hid
  obtain ⟨r', hr', hid'⟩ := hkept r hr
  exact ⟨r', hr', hid'.trans hid⟩

theorem mem_deleteMany {tasks : Tasks} {r : TaskRow} :
    r ∈ (deleteMany tasks ids).rows ↔ r ∈ tasks.rows ∧ r.id ∉ ids := by
  rw [deleteMany]
  split
  next h => simp [h]
  next => simp [IdTable.deleteIds]

theorem Local.deleteMany (h : Local jobs s i pc)
    (hother : ∀ batch, pc.batch = some batch → ∀ task ∈ batch.rows, task.2.id ∉ pc.withdrawn (jobs i) → task.2.id ∉ ids) :
    Local jobs { s with tasks := deleteMany s.tasks ids } i pc := by
  refine h.frame rfl (fun _ hid => hid) (fun _ _ _ hsent => hsent) rfl ?_ ?_
  · exact fun r hr => .inl ⟨r, (mem_deleteMany.mp hr).1, .refl _⟩
  · intro batch hbatch task htask hid r hr hrid
    exact ⟨r, mem_deleteMany.mpr ⟨hr, hrid ▸ hother batch hbatch task htask hid⟩, hrid⟩

theorem written_write (s : State σ ι κ) (author : Option ι) (rows : List CrontabResult) (i : ι) :
    (s.write author rows).written i = s.written i ++ if author = some i then rows else [] := by
  simp only [State.written, State.write, List.filter_append, List.map_append, List.filter_map, List.map_map]
  congr 1
  split
  next h => simp [h, Function.comp_def]
  next h => simp [h, Function.comp_def]

theorem Local.write (h : Local jobs s i pc) {author : Option ι} (hauthor : author ≠ some i) (rows : List CrontabResult) :
    Local jobs (s.write author rows) i pc := by
  refine h.frame rfl (fun _ hid => hid) (fun _ _ _ hsent => hsent) ?_ (fun r hr => .inl ⟨r, hr, .refl _⟩)
    fun _ _ _ _ _ r hr hid => ⟨r, hr, hid⟩
  rw [written_write, if_neg hauthor, List.append_nil]

/-! ### One run moves on -/

theorem goto_self (s : State σ ι κ) (i : ι) (pc : Pc) : (s.goto i pc).pc i = pc := update_self ..

theorem goto_of_ne (s : State σ ι κ) (h : j ≠ i) (pc : Pc) : (s.goto i pc).pc j = s.pc j :=
  update_of_ne h ..

theorem Local.goto {pc' : Pc} (h : Local jobs s j pc) : Local jobs (s.goto i pc') j pc :=
  ⟨h.offline, h.online, h.targets, h.used, h.same, h.present, h.absent, h.joined, h.once, h.all, h.written⟩

/-- What the runs share has changed, and one of them moves on. -/
theorem Sound.move (hs : Sound agent regId other jobs s) (hpc : s'.pc = s.pc) (hsessions : s'.sessions = s.sessions)
    (htaskUsed : ∀ r ∈ s'.tasks.rows, r.id ∈ s'.used) (hothers : ∀ j, j ≠ i → Local jobs s' j (s.pc j))
    (hself : Local jobs s' i pc)
    (hown : ∀ batch, pc.batch = some batch → ∀ j batch', j ≠ i → (s.pc j).batch = some batch' →
      ∀ task ∈ batch.rows, ∀ task' ∈ batch'.rows, task.2.id ≠ task'.2.id) :
    Sound agent regId other jobs (s'.goto i pc) where
  sessions := hsessions ▸ hs.sessions
  taskUsed := htaskUsed
  own := by
    intro j k batch batch' hj hk task htask task' htask' hid
    by_cases hji : j = i
    · by_cases hki : k = i
      · rw [hji, hki]
      · rw [hji, goto_self] at hj
        rw [goto_of_ne s' hki, hpc] at hk
        exact absurd hid (hown batch hj k batch' hki hk task htask task' htask')
    · rw [goto_of_ne s' hji, hpc] at hj
      by_cases hki : k = i
      · rw [hki, goto_self] at hk
        exact absurd hid.symm (hown batch' hk j batch hji hj task' htask' task htask)
      · rw [goto_of_ne s' hki, hpc] at hk
        exact hs.own j k batch batch' hj hk task htask task' htask' hid
  runs := by
    intro j
    by_cases hji : j = i
    · rw [hji, goto_self]
      exact hself.goto
    · rw [goto_of_ne s' hji, hpc]
      exact (hothers j hji).goto

theorem Sound.at (hs : Sound agent regId other jobs s) (hpc : s.pc i = pc) : Local jobs s i pc := hpc ▸ hs.runs i

/-- The tasks of a run are not those of another. -/
theorem Sound.own_tasks {old : Pc} (hs : Sound agent regId other jobs s) (hpc : s.pc i = old)
    (hsame : pc.batch = old.batch) : ∀ batch, pc.batch = some batch → ∀ j batch', j ≠ i → (s.pc j).batch = some batch' →
      ∀ task ∈ batch.rows, ∀ task' ∈ batch'.rows, task.2.id ≠ task'.2.id := by
  subst hpc
  intro batch hbatch j batch' hji hj task htask task' htask' hid
  exact hji (hs.own i j batch batch' (hsame.symm.trans hbatch) hj task htask task' htask' hid).symm

/-- A run without tasks moves on, and nothing else. -/
theorem Sound.goto_idle (hs : Sound agent regId other jobs s) (hbatch : pc.batch = none)
    (hoffline : pc.stays = true → ∀ uuid ∈ (jobs i).uuids, s.found i uuid = false)
    (honline : ∀ now connected, pc = .online now connected → connected = (jobs i).connected (s.found i))
    (hwritten : s.written i = pc.written (jobs i)) : Sound agent regId other jobs (s.goto i pc) := by
  refine hs.move rfl rfl hs.taskUsed (fun j _ => hs.runs j) (.idle hbatch hoffline honline hwritten) ?_
  exact fun batch hpc => nomatch hbatch.symm.trans hpc

/-! ### The targets -/

theorem map_fst_connected (job : Job) (isConnected : Uuid → Bool) :
    (job.connected isConnected).map (·.1) = job.uuids.filter isConnected := by
  have hmap := List.filter_map (p := isConnected) (f := fun target : Uuid × Nat => target.1) (l := job.uuids.zipIdx)
  rw [show job.uuids.zipIdx.map (fun target => target.1) = job.uuids from List.zipIdx_map_fst 0 job.uuids] at hmap
  rw [hmap]
  rfl

theorem connected_eq_nil : job.connected isConnected = [] ↔ ∀ uuid ∈ job.uuids, isConnected uuid = false := by
  rw [← List.map_eq_nil_iff, map_fst_connected, List.filter_eq_nil_iff]
  simp

theorem target_of_connected {uuid : Uuid} (h : (uuid, place) ∈ job.connected isConnected) :
    job.uuids.getD place 0 = uuid := by
  have hplace := List.mem_zipIdx_iff_getElem?.mp (List.mem_filter.mp h).1
  rw [List.getD_eq_getElem?_getD, hplace, Option.getD_some]

theorem newTasks_targets {connected : List (Uuid × Nat)} (h : keys.length = connected.length) :
    (newTasks job now connected keys).map (fun task => (task.2.uuid, task.1)) = connected := by
  rw [newTasks, List.map_map]
  exact List.map_fst_zip h.ge

/-! ### The steps of a run -/

theorem start_sound (hsessions : Sessions.Sound agent regId (target other jobs) sessions) (tasks : Tasks)
    (results : List CrontabResult) :
    Sound agent regId other jobs (start sessions tasks results) where
  sessions := hsessions
  taskUsed := fun _ hr => List.mem_map_of_mem hr
  own := fun _ _ _ _ h => nomatch h
  runs := by
    intro i
    refine .idle rfl (fun h => nomatch h) (fun _ _ h => nomatch h) ?_
    simp [State.written, start, Pc.written]

section Steps
variable (hs : Sound agent regId other jobs s)
include hs

/-- A run that has not started finds out which agents have a session. -/
theorem Sound.setFound (hpc : s.pc i = .start) (isConnected : Uuid → Bool) :
    Sound agent regId other jobs { s with found := update s.found i isConnected } := by
  refine ⟨hs.sessions, hs.taskUsed, hs.own, fun j => ?_⟩
  by_cases hji : j = i
  · subst hji
    refine .idle ?_ ?_ ?_ (hs.runs j).written
    all_goals rw [show State.pc _ j = .start from hpc]
    · rfl
    · exact fun h => nomatch h
    · exact fun _ _ h => nomatch h
  · exact (hs.runs j).frame (update_of_ne hji ..) (fun _ hid => hid) (fun _ _ _ hsent => hsent) rfl
      (fun r hr => .inl ⟨r, hr, .refl _⟩) fun _ _ _ _ _ r hr hid => ⟨r, hr, hid⟩

/-- The tasks of a run are written, under new ids. -/
theorem Sound.insertBatch (batch : Batch) {connected : List (Uuid × Nat)} (hpc : s.pc i = .online now connected)
    (htargets : batch.rows.map (fun task => (task.2.uuid, task.1)) = connected)
    (hfresh : ∀ task ∈ batch.rows, task.2.id ∉ s.used)
    (hnew : ((batch.rows.map (·.2)).map (·.id) ++ s.tasks.rows.map (·.id)).Nodup) :
    Sound agent regId other jobs ((s.insertMany (batch.rows.map (·.2)) hnew).goto i (.sending batch [])) := by
  have hlocal := hs.at hpc
  have hrows : ∀ r ∈ batch.rows.map (·.2), r.id ∉ s.used := by
    intro r hr
    obtain ⟨task, htask, rfl⟩ := List.mem_map.mp hr
    exact hfresh task htask
  refine hs.move rfl rfl ?_ (fun j _ => (hs.runs j).insertMany hnew hrows) ?_ ?_
  · intro r hr
    obtain hr | hr := List.mem_append.mp hr
    · exact List.mem_append_left _ (List.mem_map_of_mem hr)
    · exact List.mem_append_right _ (hs.taskUsed r hr)
  · have hmem : ∀ task ∈ batch.rows, task.2 ∈ (s.insertMany (batch.rows.map (·.2)) hnew).tasks.rows :=
      fun task htask => List.mem_append_left _ (List.mem_map_of_mem htask)
    constructor
    case offline => exact fun h => nomatch h
    case online => exact fun _ _ h => nomatch h
    case targets =>
      intro batch' hbatch
      cases hbatch
      exact htargets.trans (hlocal.online now connected rfl)
    case used =>
      intro batch' hbatch task htask
      cases hbatch
      exact List.mem_append_left _ (List.mem_map_of_mem (List.mem_map_of_mem htask))
    case same =>
      intro batch' hbatch task htask r hr hid
      cases hbatch
      -- ids are unique, so the row under the id is the new one
      rw [(s.insertMany _ hnew).tasks.eq_of_id hr (hmem task htask) hid]
      exact .refl _
    case present =>
      intro batch' hbatch task htask _
      cases hbatch
      exact ⟨task.2, hmem task htask, rfl⟩
    case absent => exact fun _ h => nomatch h
    case joined => exact fun _ _ _ h => nomatch h
    case once => exact List.nodup_nil
    case all => exact fun h => nomatch h
    case written => exact hlocal.written
  · intro batch' hbatch j batch'' _ hj task htask task' htask' hid
    cases hbatch
    exact hfresh task htask (hid ▸ (hs.runs j).used batch'' hj task' htask')

/-- A send is joined. -/
theorem Sound.join {sent : Sent} (hpc : s.pc i = .sending batch joined) (hsent : sent ∈ s.sends i batch)
    (hnot : sent.place ∉ joined.map (·.place)) :
    Sound agent regId other jobs (s.goto i (.sending batch (joined ++ [sent]))) := by
  have hlocal := hs.at hpc
  refine hs.move rfl rfl hs.taskUsed (fun j _ => hs.runs j) ?_ (hs.own_tasks hpc rfl)
  refine { hlocal with joined := ?_, once := ?_, online := (fun _ _ h => nomatch h), all := (fun h => nomatch h) }
  · intro batch' hbatch' sent' hsent'
    cases hbatch'
    obtain hsent' | hsent' := List.mem_append.mp hsent'
    · exact hlocal.joined batch rfl hsent'
    · rw [List.mem_singleton.mp hsent']
      exact hsent
  · show ((joined ++ [sent]).map (·.place)).Nodup
    rw [List.map_append, List.nodup_append_comm]
    exact List.nodup_cons.mpr ⟨hnot, hlocal.once⟩

theorem Sound.upload (response : TaskEventResponse Json) :
    Sound agent regId other jobs { s with tasks := upload s.tasks response } := by
  refine ⟨hs.sessions, ?_, hs.own, fun j => (hs.runs j).upload response⟩
  intro r hr
  obtain ⟨r₀, hr₀, hsame⟩ := (mem_upload s.tasks response).1 r hr
  rw [hsame.id]
  exact hs.taskUsed r₀ hr₀

variable [DecidableEq σ] [DecidableEq κ]

theorem session_sound (hregId : Injective regId) (h : step agent regId backend other jobs s (.session a) = some t) :
    Sound agent regId other jobs t := by
  obtain ⟨-, h⟩ := Option.ite_none_right_eq_some.mp h
  obtain ⟨sessions, hstep, rfl⟩ := Option.map_eq_some_iff.mp h
  exact ⟨Sessions.step_sound hregId s.sessions a sessions hs.sessions hstep, hs.taskUsed, hs.own,
    fun j => (hs.runs j).setSessions hstep⟩

theorem precheck_sound (h : step agent regId backend other jobs s (.precheck i now) = some t) :
    Sound agent regId other jobs t := by
  simp only [step] at h
  split at h
  next hpc =>
    have hwritten := (hs.at hpc).written
    split at h
    next hnone =>
      cases h
      refine hs.goto_idle rfl ?_ (fun _ _ h => nomatch h) hwritten
      rw [hnone]
      exact fun _ _ h => nomatch h
    next =>
      cases h
      have hfound := hs.setFound hpc (ClosedSink.isConnected s.sessions)
      split
      next hnone =>
        refine hfound.goto_idle rfl (fun _ => ?_) (fun _ _ h => nomatch h) hwritten
        simpa using connected_eq_nil.mp hnone
      next =>
        refine hfound.goto_idle rfl (fun h => nomatch h) ?_ hwritten
        intro now connected heq
        cases heq
        simp
  next => cases h

theorem lookup_sound (h : step agent regId backend other jobs s (.lookup i) = some t) :
    Sound agent regId other jobs t := by
  simp only [step] at h
  split at h
  next now hpc =>
    have hlocal := hs.at hpc
    split at h
    all_goals
      cases h
      exact hs.goto_idle rfl (fun _ => hlocal.offline rfl) (fun _ _ h => nomatch h) hlocal.written
  next => cases h

theorem report_sound (h : step agent regId backend other jobs s (.report i) = some t) :
    Sound agent regId other jobs t := by
  simp only [step] at h
  split at h
  next now hpc =>
    cases h
    have hlocal := hs.at hpc
    refine hs.move rfl rfl hs.taskUsed (fun j hji => (hs.runs j).write (fun heq => hji (Option.some.inj heq).symm) _) ?_
      fun batch hbatch => nomatch hbatch
    refine .idle rfl (fun _ => hlocal.offline rfl) (fun _ _ h => nomatch h) ?_
    rw [written_write, hlocal.written, if_pos rfl]
    rfl
  next => cases h

theorem insert_sound (h : step agent regId backend other jobs s (.insert i keys aggregateSuccess) = some t) :
    Sound agent regId other jobs t := by
  simp only [step] at h
  split at h
  next now connected hpc =>
    obtain ⟨hnew, heq⟩ := Option.dite_none_right_eq_some.mp h
    cases heq
    exact hs.insertBatch ⟨now, aggregateSuccess, newTasks (jobs i) now connected keys, hnew.2.2.of_append_left⟩ hpc
      (newTasks_targets hnew.1) hnew.2.1 hnew.2.2
  next => cases h

theorem join_sound (h : step agent regId backend other jobs s (.join i place) = some t) :
    Sound agent regId other jobs t := by
  simp only [step] at h
  split at h
  next batch joined hpc =>
    split at h
    next task sendResult hfind hcall =>
      obtain ⟨hnot, heq⟩ := Option.ite_none_left_eq_some.mp h
      cases heq
      have hplace : task.1 = place := by simpa using List.find?_some hfind
      subst hplace
      exact hs.join hpc (mem_sends.mpr ⟨task, List.mem_of_find?_eq_some hfind, hcall, rfl⟩) hnot
    next => cases h
  next => cases h

theorem clean_sound (h : step agent regId backend other jobs s (.clean i) = some t) :
    Sound agent regId other jobs t := by
  simp only [step] at h
  split at h
  next batch joined hpc =>
    obtain ⟨hall, heq⟩ := Option.ite_none_right_eq_some.mp h
    cases heq
    have hlocal := hs.at hpc
    refine hs.move rfl rfl (fun r hr => hs.taskUsed r (mem_deleteMany.mp hr).1) ?_ ?_ (hs.own_tasks hpc rfl)
    · intro j hji
      refine (hs.runs j).deleteMany fun batch' hbatch' task htask _ hid => ?_
      -- the ids are those of this run's tasks
      have hid : task.2.id ∈ Pc.withdrawn (jobs i) (.cleaned batch joined) := hid
      obtain ⟨-, -, sent, hsent, -, heq⟩ := Pc.withdrawn_eq hid
      obtain ⟨task', htask', -, hsent⟩ := mem_sends.mp (hlocal.joined batch rfl hsent)
      refine hs.own_tasks hpc rfl batch rfl j batch' hji hbatch' task' htask' task htask ?_
      rw [← heq, hsent]
    · refine { hlocal with
        online := (fun _ _ h => nomatch h), same := ?_, present := ?_, absent := ?_, all := ?_, written := hlocal.written }
      · exact fun batch' hbatch' task htask r hr => hlocal.same batch' hbatch' task htask r (mem_deleteMany.mp hr).1
      · intro batch' hbatch' task htask hid
        obtain ⟨r, hr, hrid⟩ := hlocal.present batch' hbatch' task htask fun h => nomatch h
        refine ⟨r, mem_deleteMany.mpr ⟨hr, ?_⟩, hrid⟩
        rw [hrid]
        exact hid
      · exact fun id hid r hr heq => (mem_deleteMany.mp hr).2 (heq ▸ hid)
      · intro _ batch' hbatch'
        cases hbatch'
        exact hall
  next => cases h

theorem save_sound (h : step agent regId backend other jobs s (.save i) = some t) :
    Sound agent regId other jobs t := by
  simp only [step] at h
  split at h
  next batch joined hpc =>
    cases h
    have hlocal := hs.at hpc
    refine hs.move rfl rfl hs.taskUsed (fun j hji => (hs.runs j).write (fun heq => hji (Option.some.inj heq).symm) _) ?_
      (hs.own_tasks hpc rfl)
    refine { hlocal with online := (fun _ _ h => nomatch h), written := ?_ }
    rw [written_write, hlocal.written, if_pos rfl]
    rfl
  next => cases h

theorem create_sound {row : TaskRow} (h : step agent regId backend other jobs s (.create row) = some t) :
    Sound agent regId other jobs t := by
  simp only [step] at h
  obtain ⟨hnew, heq⟩ := Option.dite_none_right_eq_some.mp h
  cases heq
  refine ⟨hs.sessions, ?_, hs.own, fun j => (hs.runs j).insertMany hnew.2 ?_⟩
  · intro r hr
    obtain rfl | hr := List.mem_cons.mp hr
    · exact List.mem_cons_self
    · exact List.mem_cons_of_mem _ (hs.taskUsed r hr)
  · intro r hr
    rw [List.mem_singleton.mp hr]
    exact hnew.1

omit hs in
theorem step_sound (hregId : Injective regId) (s : State σ ι κ) (a : Action σ ι κ) (t : State σ ι κ)
    (hs : Sound agent regId other jobs s) (h : step agent regId backend other jobs s a = some t) :
    Sound agent regId other jobs t := by
  cases a with
  | session a => exact session_sound hs hregId h
  | precheck i now => exact precheck_sound hs h
  | lookup i => exact lookup_sound hs h
  | report i => exact report_sound hs h
  | insert i keys aggregateSuccess => exact insert_sound hs h
  | join i place => exact join_sound hs h
  | clean i => exact clean_sound hs h
  | save i => exact save_sound hs h
  | upload response =>
    cases h
    exact hs.upload response
  | create row => exact create_sound hs h
  | record row =>
    cases h
    exact ⟨hs.sessions, hs.taskUsed, hs.own, fun j => (hs.runs j).write (Option.some_ne_none j).symm _⟩

end Steps

/-! ### The books at the end -/

/-- The event that is sent for a task (`pair_task_ids`). -/
def taskEvent (job : Job) (row : TaskRow) : TaskEvent := ⟨row.id.toUInt64, row.token, job.taskEventType⟩

/-- An event with the row's id and token was accepted by a session of the row's agent. -/
def State.Accepts (agent : σ → Uuid) (jobs : ι → Job) (s : State σ ι κ) (row : TaskRow) : Prop :=
  ∃ k i batch, (s.pc i).batch = some batch ∧ ∃ task ∈ batch.rows, agent k = row.uuid ∧
    .cron i task.1 ∈ (s.sessions.channel k).accepted ∧ (taskEvent (jobs i) task.2).taskId = row.id.toUInt64 ∧
      (taskEvent (jobs i) task.2).taskToken = row.token

theorem Batch.eq_of_id (batch : Batch) {task' : Nat × TaskRow} (htask : task ∈ batch.rows) (htask' : task' ∈ batch.rows)
    (h : task.2.id = task'.2.id) : task = task' := by
  have hunique := batch.unique
  rw [List.map_map] at hunique
  exact List.inj_on_of_nodup_map hunique htask htask' h

/-- The event with the id of a run's task is that run's, for that task. -/
theorem Sound.accepts_iff (hs : Sound agent regId other jobs s) (hbatch : (s.pc i).batch = some batch)
    (htask : task ∈ batch.rows) :
    s.Accepts agent jobs task.2 ↔ (s.sessions.call (.cron i task.1)).outcome = some (.ok ()) := by
  constructor
  · intro haccepts
    obtain ⟨k, j, batch', hbatch', task', htask', -, hmem, hid, -⟩ := haccepts
    have hid : task'.2.id = task.2.id := id_of_key hid
    obtain rfl := hs.own j i batch' batch hbatch' hbatch task' htask' task htask hid
    cases hbatch.symm.trans hbatch'
    rw [← batch.eq_of_id htask' htask hid]
    exact (hs.sessions.fate _ k hmem).2
  · intro hok
    obtain ⟨k, hmem⟩ := hs.sessions.somewhere _ hok
    refine ⟨k, i, batch, hbatch, task, htask, ?_, hmem, rfl, rfl⟩
    rw [(hs.sessions.fate _ k hmem).1]
    have htarget : (task.2.uuid, task.1) ∈ (jobs i).connected (s.found i) := by
      rw [← (hs.runs i).targets batch hbatch]
      exact List.mem_map_of_mem htask
    exact target_of_connected htarget

/-- **When the loop is over, it has joined every send once**, whatever the order. -/
theorem Local.joined_perm (h : Local jobs s i pc) (hleft : pc.left = true) (hbatch : pc.batch = some batch) :
    pc.joined.Perm (s.sends i batch) := by
  refine (List.Nodup.subperm h.once.of_map (h.joined batch hbatch)).perm_of_length_le ?_
  rw [h.all hleft batch hbatch]
  exact List.length_filterMap_le ..

theorem Local.length_sends (h : Local jobs s i pc) (hleft : pc.left = true) (hbatch : pc.batch = some batch) :
    (s.sends i batch).length = batch.rows.length := by
  rw [← (h.joined_perm hleft hbatch).length_eq, h.all hleft batch hbatch]

/-- Every send has returned. -/
theorem Local.returned (h : Local jobs s i pc) (hleft : pc.left = true) (hbatch : pc.batch = some batch)
    (htask : task ∈ batch.rows) : ∃ sendResult, s.sessions.call (.cron i task.1) = .returned sendResult := by
  have hsome := List.filterMap_length_eq_length.mp (h.length_sends hleft hbatch) task htask
  split at hsome
  next sendResult hcall => exact ⟨sendResult, hcall⟩
  next => cases hsome

/-- The tasks that are deleted are those whose event was not accepted. -/
theorem Local.mem_withdrawn (h : Local jobs s i (.done batch joined)) (htask : task ∈ batch.rows) :
    task.2.id ∈ Pc.withdrawn (jobs i) (.done batch joined) ↔
      (s.sessions.call (.cron i task.1)).outcome ≠ some (.ok ()) := by
  obtain ⟨sendResult, hcall⟩ := h.returned rfl rfl htask
  rw [hcall]
  constructor
  · intro hid hok
    obtain ⟨-, -, sent, hsent, haccepted, htaskId⟩ := Pc.withdrawn_eq hid
    obtain ⟨task', htask', hcall', heq⟩ := mem_sends.mp (h.joined batch rfl hsent)
    obtain rfl := batch.eq_of_id htask' htask (by rw [← htaskId, heq])
    cases hcall.symm.trans hcall'
    rw [Sent.accepted, Option.some.inj hok] at haccepted
    cases haccepted
  · intro hnot
    rw [Pc.withdrawn, undelivered_eq]
    refine List.mem_map.mpr ⟨⟨task.1, task.2.uuid, task.2.id, sendResult⟩, List.mem_filter.mpr ⟨?_, ?_⟩, rfl⟩
    · exact (h.joined_perm rfl rfl).mem_iff.mpr (mem_sends.mpr ⟨task, htask, hcall, rfl⟩)
    · cases sendResult with
      | ok => exact absurd rfl hnot
      | error e => rfl

/-- The books of a run that has written the tasks of `batch`. -/
structure Booked (agent : σ → Uuid) (jobs : ι → Job) (s : State σ ι κ) (i : ι) (batch : Batch) : Prop where
  /-- It has written a task for each target that was connected. -/
  targets : batch.rows.map (·.2.uuid) = (jobs i).uuids.filter (s.found i)
  /-- Those of its tasks are left whose event, with their id and token, was accepted by a session
  of their agent. -/
  tasks : ∀ task ∈ batch.rows, (∃ r ∈ s.tasks.rows, SameTask r.toRow task.2.toRow) ↔ s.Accepts agent jobs task.2
  /-- Accepted, offline before or at sending, and queue full make up the targets. -/
  counted : ((s.sends i batch).filter Sent.accepted).length +
      (((jobs i).uuids.filter fun uuid => !s.found i uuid).length + ((s.sends i batch).filter Sent.gone).length) +
      ((s.sends i batch).filter Sent.full).length = (jobs i).uuids.length
  /-- One failure for each full queue, and the successes as the policy wants them. -/
  results : (s.written i).Perm
    ((((s.sends i batch).filter Sent.full).map fun sent => (jobs i).failureRow batch.now sent.uuid sent.detail) ++
      successRows (jobs i) batch.now batch.aggregateSuccess
        (((jobs i).uuids.filter fun uuid => !s.found i uuid).length + ((s.sends i batch).filter Sent.gone).length)
        ((s.sends i batch).filter Sent.accepted))

omit [DecidableEq ι] in
theorem length_targets (h : batch.rows.map (·.2.uuid) = (jobs i).uuids.filter (s.found i)) :
    batch.rows.length + ((jobs i).uuids.filter fun uuid => !s.found i uuid).length = (jobs i).uuids.length := by
  rw [← List.length_map (f := fun task : Nat × TaskRow => task.2.uuid), h]
  exact (List.length_eq_length_filter_add (s.found i)).symm

theorem Local.map_uuid (h : Local jobs s i pc) (hbatch : pc.batch = some batch) :
    batch.rows.map (·.2.uuid) = (jobs i).uuids.filter (s.found i) := by
  rw [← map_fst_connected, ← h.targets batch hbatch, List.map_map]
  rfl

theorem Sound.booked (hs : Sound agent regId other jobs s) (hpc : s.pc i = .done batch joined) :
    Booked agent jobs s i batch := by
  have hlocal := hs.at hpc
  have hbatch : (s.pc i).batch = some batch := by rw [hpc]; rfl
  have htargets : batch.rows.map (·.2.uuid) = (jobs i).uuids.filter (s.found i) := hlocal.map_uuid rfl
  have hlength := length_targets htargets
  have hsends : (s.sends i batch).length = batch.rows.length := hlocal.length_sends rfl rfl
  have hperm : joined.Perm (s.sends i batch) := hlocal.joined_perm rfl rfl
  refine ⟨htargets, ?_, ?_, ?_⟩
  · intro task htask
    rw [hs.accepts_iff hbatch htask]
    constructor
    · intro hleft
      obtain ⟨r, hr, hsame⟩ := hleft
      by_contra hnot
      exact hlocal.absent _ ((hlocal.mem_withdrawn htask).mpr hnot) r hr hsame.id
    · intro hok
      obtain ⟨r, hr, hid⟩ := hlocal.present batch rfl task htask fun hid => (hlocal.mem_withdrawn htask).mp hid hok
      exact ⟨r, hr, hlocal.same batch rfl task htask r hr hid⟩
  · have houtcome := length_by_outcome (s.sends i batch)
    omega
  · have hone : (jobs i).uuids.length = 1 → joined.length ≤ 1 := by
      have hjoined := hperm.length_eq
      omega
    have hskipped : (jobs i).uuids.length - batch.rows.length =
        ((jobs i).uuids.filter fun uuid => !s.found i uuid).length := by omega
    rw [hlocal.written, Pc.written, Batch.crontabResults, Batch.collected, crontabResults_collected hone, hskipped,
      (hperm.filter Sent.gone).length_eq]
    refine ((hperm.filter _).map _).append (successRows_perm (hperm.filter _) (fun h => ?_) _)
    exact (List.length_filter_le ..).trans (hone h)

variable [DecidableEq σ] [DecidableEq κ]

/-- **The books of a dispatch are right.** Whatever the sessions are, however the sends end and
in whatever order, a run that has ended and had a target with a session at its pre-check has left
exactly the tasks that were accepted, its counts add up to the number of its targets, and it has
written one failure for each full queue and the successes that the policy asks for. -/
theorem dispatch_booked (agent regId : σ → Uuid) (backend : Backend) (other : κ → Uuid) (jobs : ι → Job)
    (hregId : Injective regId) (sessions : Sessions.State σ (Event ι κ))
    (hsessions : Sessions.Sound agent regId (target other jobs) sessions) (tasks : Tasks)
    (results : List CrontabResult) (schedule : List (Action σ ι κ))
    (hrun : run (step agent regId backend other jobs) (start sessions tasks results) schedule = some s) (i : ι)
    (hended : (s.pc i).ended = true) (hconnected : ∃ uuid ∈ (jobs i).uuids, s.found i uuid = true) :
    ∃ batch, (s.pc i).batch = some batch ∧ Booked agent jobs s i batch := by
  have hs : Sound agent regId other jobs s :=
    run_preserves (step_sound hregId) (start_sound hsessions tasks results) hrun
  obtain ⟨uuid, huuid, hfound⟩ := hconnected
  have hdispatched : (s.pc i).stays ≠ true := fun hstays =>
    nomatch ((hs.runs i).offline hstays uuid huuid).symm.trans hfound
  cases hpc : s.pc i with
  | done batch joined => exact ⟨batch, rfl, hs.booked hpc⟩
  | skipped | throttled | reported => exact absurd (by rw [hpc]; rfl) hdispatched
  | start | offline | unreported | online | sending | cleaned =>
    rw [hpc] at hended
    cases hended

end Machine

/-- Three targets, of which the second never has a session. -/
private def threeTargets : Unit → Job := fun _ => ⟨1, "ping", [7, 8, 9], .ip⟩

private def sevenOrNine : Bool → Uuid
  | true => 7
  | false => 9

/-- The session of the third target ends over another event before the run's is sent, and its
send is joined first. -/
private def losingOne : List (Action Bool Unit Unit) :=
  [.session (.register true), .session (.register false), .session (.look (.other ())), .session (.send (.other ())),
    .session (.drop (.other ())), .precheck () 1000, .insert () [(1, "a"), (2, "b")] true, .session (.take false),
    .session (.fail false), .session (.remove false), .session (.look (.cron () 2)), .join () 2,
    .session (.look (.cron () 0)), .session (.send (.cron () 0)), .session (.drop (.cron () 0)), .join () 0, .clean (),
    .save ()]

theorem dispatch_losing_one :
    ∃ s : State Bool Unit Unit,
      run (step sevenOrNine sevenOrNine .sqlite (fun _ => 9) threeTargets)
        (start Sessions.started ⟨[], List.nodup_nil⟩ []) losingOne = some s ∧
      (s.tasks.rows.map (·.id) = [1] ∧ (s.written ()).map (·.success) = [some true]) ∧
      ∃ batch, (s.pc ()).batch = some batch ∧ Booked sevenOrNine threeTargets s () batch := by
  obtain ⟨s, hrun, hrows, hwritten, hended, hfound⟩ : ∃ s : State Bool Unit Unit,
      run (step sevenOrNine sevenOrNine .sqlite (fun _ => 9) threeTargets)
        (start Sessions.started ⟨[], List.nodup_nil⟩ []) losingOne = some s ∧
      s.tasks.rows.map (·.id) = [1] ∧ (s.written ()).map (·.success) = [some true] ∧ (s.pc ()).ended = true ∧
        s.found () 7 = true := by decide +kernel
  refine ⟨s, hrun, ⟨hrows, hwritten⟩, ?_⟩
  exact dispatch_booked sevenOrNine sevenOrNine .sqlite (fun _ => 9) threeTargets (by decide) Sessions.started
    Sessions.started_sound ⟨[], List.nodup_nil⟩ [] losingOne hrun () hended ⟨7, List.mem_cons_self, hfound⟩

end NodeGet.Crontab.Dispatch
