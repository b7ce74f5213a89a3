import NodeGet.Machine.Run
import NodeGet.Monitoring.Buffer

/-! The task behind a write buffer (`flush_loop` and `do_flush` of
`ng-monitoring/src/monitoring_buffer.rs`), with the reporters that send to it.

The task waits for a row or for its timer, collects what the channel holds up to
the configured batch size, and writes the batch in sub-batches. Every interleaving
of sends, the close, the timer and the task's own steps is a run of `step`; `Step`
lists what one action can do. Of every state a run reaches, `Sized` bounds what the
task holds and has written, and `Placed` says where the task can be. -/
namespace NodeGet.Monitoring.Flush
open NodeGet.Core NodeGet.Machine

/-! ### Configuration -/

inductive MonitoringTable where
  | staticMonitoring
  | dynamicMonitoring
  | dynamicMonitoringSummary
deriving DecidableEq

/-- The column counts `init` passes on. -/
def MonitoringTable.numColumns : MonitoringTable → Nat
  | .staticMonitoring => 8
  | .dynamicMonitoring => 11
  | .dynamicMonitoringSummary => 27

structure MonitoringBufferConfig where
  flushIntervalMs : Option UInt64
  maxBatchSize : Option UInt64
  channelCapacity : Option UInt64

def flushIntervalMs (config : Option MonitoringBufferConfig) : Nat :=
  ((config.bind (·.flushIntervalMs)).getD 500).toNat

def maxBatchSize (config : Option MonitoringBufferConfig) : Nat :=
  ((config.bind (·.maxBatchSize)).getD 1000).toNat

def channelCapacity (config : Option MonitoringBufferConfig) : Nat :=
  ((config.bind (·.channelCapacity)).getD 10000).toNat

/-- One of the three tasks `init` starts. -/
structure Loop where
  config : Option MonitoringBufferConfig
  table : MonitoringTable
  backend : Backend
  /-- The size of a row in memory, in bytes. -/
  rowSize : Nat
  /-- The parameters a row binds: its columns but for those left to the database. -/
  boundColumns : Nat
  boundColumns_pos : 0 < boundColumns
  boundColumns_le : boundColumns ≤ table.numColumns
  /-- `mpsc::channel` refuses a capacity of zero. -/
  channelCapacity_pos : 0 < channelCapacity config

/-- `isize::MAX`, the most bytes a `Vec` may take. -/
def isizeMax : Nat := 9223372036854775807

/-- The task comes as far as its loop: `interval` panics on a period of zero,
`Vec::with_capacity` on a buffer of too many bytes. -/
def Loop.Starts (l : Loop) : Prop :=
  0 < flushIntervalMs l.config ∧ maxBatchSize l.config * l.rowSize ≤ isizeMax

instance (l : Loop) : Decidable l.Starts := inferInstanceAs (Decidable (_ ∧ _))

/-- The rows of the largest batch: the row that woke the task is collected whatever the batch size. -/
def Loop.largestBatch (l : Loop) : Nat := max 1 (maxBatchSize l.config)

/-! ### The machine -/

variable {α : Type}

/-- Where the task is. `last` tells the flush at the close of the channel from the others. -/
inductive Pc (α : Type) where
  | spawned
  | waiting
  | draining
  | flushing (last : Bool)
  | inserting (last : Bool) (chunk : Nat) (batch : List α)
  | exited
  | panicked

/-- The channel, the task with its buffer, and three histories: the rows the channel accepted, the
executed statements, the rows given up. -/
structure State (α : Type) where
  sender : BufferSender α
  pc : Pc α
  buf : List α
  accepted : List α
  executed : List (List α)
  lost : List α

def initial (l : Loop) : State α :=
  { sender := { queue := [], cap := channelCapacity l.config, dropped := 0, closed := false }
    pc := .spawned, buf := [], accepted := [], executed := [], lost := [] }

inductive Action (α : Type) where
  | send (item : α)
  | close
  | start
  | recv
  | tick
  | drain
  /-- The call of `do_flush`; whether the database is initialized is the outside's answer. -/
  | flush (initialized : Bool)
  | insert (succeeds : Bool)

/-- An action of the task, not of its clients. -/
def Action.IsTask : Action α → Prop
  | .send _ | .close => False
  | _ => True

/-- No write fails. -/
def Action.Succeeds : Action α → Prop
  | .flush initialized => initialized = true
  | .insert succeeds => succeeds = true
  | _ => True

/-- With the task its receiver is gone, and a send to it fails as on a full channel. -/
def State.send (s : State α) (item : α) : State α :=
  match s.pc with
  | .panicked =>
    if s.sender.closed then s else { s with sender := { s.sender with dropped := s.sender.dropped + 1 } }
  | _ =>
    { s with sender := s.sender.send item,
             accepted := if s.sender.Accepts then s.accepted ++ [item] else s.accepted }

def State.close (s : State α) : State α := { s with sender := { s.sender with closed := true } }

def State.goto (s : State α) (pc : Pc α) : State α := { s with pc := pc }

/-- What comes before the loop; a panic drops the receiver with all it holds. -/
def State.start (l : Loop) (s : State α) : State α :=
  if l.Starts then s.goto .waiting
  else { s with sender := { s.sender with queue := [] }, pc := .panicked }

/-- A received row goes to the buffer, and the task looks for more. -/
def State.push (s : State α) (item : α) (rest : List α) : State α :=
  { s with sender := { s.sender with queue := rest }, buf := s.buf ++ [item], pc := .draining }

def afterFlush (last : Bool) : Pc α := if last then .exited else .waiting

/-- A flush, unless there is nothing to flush. -/
def State.flushRest (s : State α) (last : Bool) : State α :=
  s.goto (if s.buf.isEmpty then afterFlush last else .flushing last)

def State.recv (s : State α) : Option (State α) :=
  match s.sender.queue with
  | item :: rest => some (s.push item rest)
  | [] => if s.sender.closed then some (s.flushRest true) else none

/-- One turn of the collecting loop, or its end. -/
def State.drain (l : Loop) (s : State α) : State α :=
  if s.buf.length < maxBatchSize l.config then
    match s.sender.queue with
    | item :: rest => s.push item rest
    | [] => s.flushRest false
  else s.flushRest false

/-- `do_flush` up to its loop. -/
def State.flush (l : Loop) (s : State α) (last initialized : Bool) : State α :=
  if s.buf.isEmpty then s.goto (afterFlush last)
  else if initialized then
    { s with buf := [], pc := .inserting last (chunkSize l.backend l.table.numColumns s.buf.length) s.buf }
  else { s with buf := [], lost := s.lost ++ s.buf, pc := afterFlush last }

/-- One turn of the splitting loop, or its end. A failed sub-batch is given up. -/
def State.insert (s : State α) (last : Bool) (chunk : Nat) (batch : List α) (succeeds : Bool) : State α :=
  if batch.isEmpty then s.goto (afterFlush last)
  else
    let take := min chunk batch.length
    { s with executed := s.executed ++ [batch.take take],
             lost := if succeeds then s.lost else s.lost ++ batch.take take,
             pc := .inserting last chunk (batch.drop take) }

/-- The `select!` is biased: the timer is looked at only while there is nothing to receive. -/
def step (l : Loop) (s : State α) : Action α → Option (State α)
  | .send item => some (s.send item)
  | .close => some s.close
  | .start =>
    match s.pc with
    | .spawned => some (s.start l)
    | _ => none
  | .recv =>
    match s.pc with
    | .waiting => s.recv
    | _ => none
  | .tick =>
    match s.pc with
    | .waiting => if s.sender.queue.isEmpty && !s.sender.closed then some (s.goto .draining) else none
    | _ => none
  | .drain =>
    match s.pc with
    | .draining => some (s.drain l)
    | _ => none
  | .flush initialized =>
    match s.pc with
    | .flushing last => some (s.flush l last initialized)
    | _ => none
  | .insert succeeds =>
    match s.pc with
    | .inserting last chunk batch => some (s.insert last chunk batch succeeds)
    | _ => none

/-- Every way the state can change, with what was true before. -/
inductive Step (l : Loop) (s : State α) : Action α → State α → Prop where
  | send (item : α) : Step l s (.send item) (s.send item)
  | close : Step l s .close s.close
  | enter (hpc : s.pc = .spawned) (hstarts : l.Starts) : Step l s .start (s.goto .waiting)
  | crash (hpc : s.pc = .spawned) (hstarts : ¬ l.Starts) :
    Step l s .start { s with sender := { s.sender with queue := [] }, pc := .panicked }
  | wake (item : α) (rest : List α) (hpc : s.pc = .waiting) (hqueue : s.sender.queue = item :: rest) :
    Step l s .recv (s.push item rest)
  | leave (hpc : s.pc = .waiting) (hqueue : s.sender.queue = []) (hclosed : s.sender.closed = true) :
    Step l s .recv (s.flushRest true)
  | tick (hpc : s.pc = .waiting) (hqueue : s.sender.queue = []) (hopen : s.sender.closed = false) :
    Step l s .tick (s.goto .draining)
  | collect (item : α) (rest : List α) (hpc : s.pc = .draining) (hroom : s.buf.length < maxBatchSize l.config)
    (hqueue : s.sender.queue = item :: rest) : Step l s .drain (s.push item rest)
  | collected (hpc : s.pc = .draining) : Step l s .drain (s.flushRest false)
  | nothing (last initialized : Bool) (hpc : s.pc = .flushing last) (hbuf : s.buf = []) :
    Step l s (.flush initialized) (s.goto (afterFlush last))
  | take (last : Bool) (hpc : s.pc = .flushing last) (hbuf : s.buf ≠ []) :
    Step l s (.flush true)
      { s with buf := [], pc := .inserting last (chunkSize l.backend l.table.numColumns s.buf.length) s.buf }
  | giveUp (last : Bool) (hpc : s.pc = .flushing last) (hbuf : s.buf ≠ []) :
    Step l s (.flush false) { s with buf := [], lost := s.lost ++ s.buf, pc := afterFlush last }
  | written (last : Bool) (chunk : Nat) (succeeds : Bool) (hpc : s.pc = .inserting last chunk []) :
    Step l s (.insert succeeds) (s.goto (afterFlush last))
  | write (last : Bool) (chunk : Nat) (batch : List α) (succeeds : Bool)
    (hpc : s.pc = .inserting last chunk batch) (hbatch : batch ≠ []) :
    Step l s (.insert succeeds)
      { s with executed := s.executed ++ [batch.take (min chunk batch.length)],
               lost := if succeeds then s.lost else s.lost ++ batch.take (min chunk batch.length),
               pc := .inserting last chunk (batch.drop (min chunk batch.length)) }

variable {l : Loop} {s s' : State α} {a : Action α}

theorem Step.of_start (hpc : s.pc = .spawned) : Step l s .start (s.start l) := by
  unfold State.start
  split
  · next hstarts => exact .enter hpc hstarts
  · next hstarts => exact .crash hpc hstarts

theorem Step.of_recv (hpc : s.pc = .waiting) (h : s.recv = some s') : Step l s .recv s' := by
  unfold State.recv at h
  split at h
  · next item rest hqueue =>
    cases h
    exact .wake item rest hpc hqueue
  · next hqueue =>
    split at h
    · next hclosed =>
      cases h
      exact .leave hpc hqueue hclosed
    · cases h

theorem Step.of_drain (hpc : s.pc = .draining) : Step l s .drain (s.drain l) := by
  unfold State.drain
  split
  · next hroom =>
    split
    · next item rest hqueue => exact .collect item rest hpc hroom hqueue
    · exact .collected hpc
  · exact .collected hpc

theorem Step.of_flush {last : Bool} (hpc : s.pc = .flushing last) (initialized : Bool) :
    Step l s (.flush initialized) (s.flush l last initialized) := by
  unfold State.flush
  split
  · next hbuf => exact .nothing last initialized hpc (List.isEmpty_iff.mp hbuf)
  · next hbuf =>
    have hne : s.buf ≠ [] := fun hnil => hbuf (List.isEmpty_iff.mpr hnil)
    cases initialized with
    | false => exact .giveUp last hpc hne
    | true => exact .take last hpc hne

theorem Step.of_insert {last : Bool} {chunk : Nat} {batch : List α} (hpc : s.pc = .inserting last chunk batch)
    (succeeds : Bool) : Step l s (.insert succeeds) (s.insert last chunk batch succeeds) := by
  unfold State.insert
  split
  · next hbatch =>
    rw [List.isEmpty_iff.mp hbatch] at hpc
    exact .written last chunk succeeds hpc
  · next hbatch => exact .write last chunk batch succeeds hpc fun hnil => hbatch (List.isEmpty_iff.mpr hnil)

theorem Step.of_step (h : step l s a = some s') : Step l s a s' := by
  cases a with
  | send item =>
    cases h
    exact .send item
  | close =>
    cases h
    exact .close
  | start =>
    simp only [step] at h
    split at h
    · next hpc =>
      cases h
      exact .of_start hpc
    · cases h
  | recv =>
    simp only [step] at h
    split at h
    · next hpc => exact .of_recv hpc h
    · cases h
  | tick =>
    simp only [step] at h
    split at h
    · next hpc =>
      split at h
      · next hidle =>
        cases h
        simp only [Bool.and_eq_true, List.isEmpty_iff, Bool.not_eq_true'] at hidle
        exact .tick hpc hidle.1 hidle.2
      · cases h
    · cases h
  | drain =>
    simp only [step] at h
    split at h
    · next hpc =>
      cases h
      exact .of_drain hpc
    · cases h
  | flush initialized =>
    simp only [step] at h
    split at h
    · next last hpc =>
      cases h
      exact .of_flush hpc initialized
    · cases h
  | insert succeeds =>
    simp only [step] at h
    split at h
    · next last chunk batch hpc =>
      cases h
      exact .of_insert hpc succeeds
    · cases h

/-! ### What the task holds -/

/-- The phases in which the buffer may hold rows. -/
def Pc.Collects : Pc α → Prop
  | .draining | .flushing _ => True
  | _ => False

/-- The rows in the task's hands. -/
def State.held (s : State α) : List α :=
  match s.pc with
  | .inserting _ _ batch => batch
  | _ => s.buf

@[simp] theorem State.send_pc (s : State α) (item : α) : (s.send item).pc = s.pc := by
  unfold send
  split
  · split <;> rfl
  · rfl

@[simp] theorem State.send_buf (s : State α) (item : α) : (s.send item).buf = s.buf := by
  unfold send
  split
  · split <;> rfl
  · rfl

@[simp] theorem State.send_executed (s : State α) (item : α) : (s.send item).executed = s.executed := by
  unfold send
  split
  · split <;> rfl
  · rfl

@[simp] theorem State.send_held (s : State α) (item : α) : (s.send item).held = s.held := by
  simp only [held, send_pc, send_buf]

theorem State.send_of_alive (hpc : s.pc ≠ .panicked) (item : α) :
    (s.send item).sender = s.sender.send item ∧
      (s.send item).accepted = if s.sender.Accepts then s.accepted ++ [item] else s.accepted := by
  unfold send
  split
  · next h => exact absurd h hpc
  · exact ⟨rfl, rfl⟩

theorem State.send_of_accepts (hpc : s.pc ≠ .panicked) (h : s.sender.Accepts) (item : α) :
    s.send item = { s with sender := { s.sender with queue := s.sender.queue ++ [item] },
                           accepted := s.accepted ++ [item] } := by
  unfold send
  split
  · next heq => exact absurd heq hpc
  · rw [if_pos h, BufferSender.send, if_neg (by simp [h.1]), if_pos h.2]

theorem afterFlush_ne_inserting (last last' : Bool) (chunk : Nat) (batch : List α) :
    afterFlush last ≠ .inserting last' chunk batch := by
  cases last <;> simp [afterFlush]

/-- The length of a sub-batch cut from a batch the task can collect. -/
def Loop.IsChunk (l : Loop) (chunk : Nat) : Prop :=
  ∃ total, 0 < total ∧ total ≤ l.largestBatch ∧ chunk = chunkSize l.backend l.table.numColumns total

/-- The sizes of what the task holds and of what it wrote. -/
structure Sized (l : Loop) (s : State α) : Prop where
  idle : ¬ s.pc.Collects → s.buf = []
  buf_le : s.buf.length ≤ l.largestBatch
  chunk : ∀ last chunk batch, s.pc = .inserting last chunk batch → l.IsChunk chunk
  executed : ∀ sub ∈ s.executed, ∃ chunk, l.IsChunk chunk ∧ sub.length ≤ chunk

theorem Sized.initial (l : Loop) : Sized l (initial l : State α) where
  idle _ := rfl
  buf_le := Nat.zero_le _
  chunk _ _ _ h := by cases h
  executed _ h := absurd h List.not_mem_nil

/-- Only the channel changed. -/
theorem Sized.congr (h : Sized l s) (hpc : s'.pc = s.pc) (hbuf : s'.buf = s.buf)
    (hexecuted : s'.executed = s.executed) : Sized l s' where
  idle := hpc ▸ hbuf ▸ h.idle
  buf_le := hbuf ▸ h.buf_le
  chunk := hpc ▸ h.chunk
  executed := hexecuted ▸ h.executed

theorem Sized.goto (h : Sized l s) {pc : Pc α} (hidle : ¬ pc.Collects → s.buf = [])
    (hpc : ∀ last chunk batch, pc ≠ .inserting last chunk batch) : Sized l (s.goto pc) where
  idle := hidle
  buf_le := h.buf_le
  chunk last chunk batch heq := absurd heq (hpc last chunk batch)
  executed := h.executed

theorem Sized.flushRest (h : Sized l s) (last : Bool) : Sized l (s.flushRest last) := by
  unfold State.flushRest
  split
  · next hbuf => exact h.goto (fun _ => List.isEmpty_iff.mp hbuf) (afterFlush_ne_inserting last)
  · exact h.goto (fun hpc => absurd trivial hpc) (by simp)

theorem Sized.push (h : Sized l s) (hroom : s.buf.length < l.largestBatch) (item : α) (rest : List α) :
    Sized l (s.push item rest) where
  idle hpc := absurd trivial hpc
  buf_le := by
    rw [State.push, List.length_append]
    exact hroom
  chunk _ _ _ hpc := by cases hpc
  executed := h.executed

theorem Sized.step (h : Sized l s) (hstep : Step l s a s') : Sized l s' := by
  cases hstep with
  | send item => exact h.congr (s.send_pc item) (s.send_buf item) (s.send_executed item)
  | close => exact h.congr rfl rfl rfl
  | enter hpc hstarts =>
    exact h.goto (fun _ => h.idle (hpc ▸ id)) (by simp)
  | crash hpc hstarts =>
    have hgone : Sized l (s.goto .panicked) := h.goto (fun _ => h.idle (hpc ▸ id)) (by simp)
    exact hgone.congr rfl rfl rfl
  | wake item rest hpc hqueue =>
    -- the buffer is empty while the task waits, so one row fits whatever the batch size
    refine h.push ?_ item rest
    rw [h.idle (hpc ▸ id)]
    exact Nat.le_max_left ..
  | leave hpc hqueue hclosed => exact h.flushRest true
  | tick hpc hqueue hopen => exact h.goto (fun hne => absurd trivial hne) (by simp)
  | collect item rest hpc hroom hqueue => exact h.push (Nat.lt_of_lt_of_le hroom (Nat.le_max_right ..)) item rest
  | collected hpc => exact h.flushRest false
  | nothing last initialized hpc hbuf => exact h.goto (fun _ => hbuf) (afterFlush_ne_inserting last)
  | take last hpc hbuf =>
    refine ⟨fun _ => rfl, Nat.zero_le _, ?_, h.executed⟩
    intro last' chunk batch heq
    cases heq
    exact ⟨s.buf.length, List.length_pos_iff.mpr hbuf, h.buf_le, rfl⟩
  | giveUp last hpc hbuf =>
    exact ⟨fun _ => rfl, Nat.zero_le _, fun _ _ _ heq => afterFlush_ne_inserting _ _ _ _ heq |>.elim, h.executed⟩
  | written last chunk succeeds hpc =>
    exact h.goto (fun _ => h.idle (hpc ▸ id)) (afterFlush_ne_inserting last)
  | write last chunk batch succeeds hpc hbatch =>
    have hchunk := h.chunk last chunk batch hpc
    refine ⟨fun _ => h.idle (hpc ▸ id), h.buf_le, ?_, ?_⟩
    · intro last' chunk' batch' heq
      cases heq
      exact hchunk
    · intro sub hsub
      rcases List.mem_append.mp hsub with hsub | hsub
      · exact h.executed sub hsub
      · rw [List.mem_singleton.mp hsub, List.length_take]
        exact ⟨chunk, hchunk, by omega⟩

/-- The phases of the loop and its end. -/
def Pc.Runs : Pc α → Prop
  | .spawned | .panicked => False
  | _ => True

/-- The phases that end with the task's return. -/
def Pc.IsLast : Pc α → Prop
  | .flushing last | .inserting last _ _ => last = true
  | .exited => True
  | _ => False

theorem Pc.Runs.ne_panicked {pc : Pc α} (h : pc.Runs) : pc ≠ .panicked := by
  intro heq
  rw [heq] at h
  exact h

theorem runs_afterFlush (last : Bool) : (afterFlush last : Pc α).Runs := by
  cases last <;> exact trivial

theorem isLast_afterFlush {last : Bool} (h : (afterFlush last : Pc α).IsLast) : last = true := by
  cases last
  · exact h.elim
  · rfl

/-- Where the task can be: it panics at its start or never, and returns with a closed and empty channel. -/
structure Placed (l : Loop) (s : State α) : Prop where
  unstarted : ¬ l.Starts → (s.pc = .spawned ∨ s.pc = .panicked) ∧ s.executed = []
  alive : l.Starts → s.pc ≠ .panicked
  last : s.pc.IsLast → s.sender.queue = [] ∧ s.sender.closed = true

theorem Placed.initial (l : Loop) : Placed l (initial l : State α) where
  unstarted _ := ⟨.inl rfl, rfl⟩
  alive _ h := by cases h
  last h := h.elim

/-- A running task has started. -/
theorem Placed.starts (h : Placed l s) (hruns : s.pc.Runs) : l.Starts := by
  by_contra hstarts
  rcases (h.unstarted hstarts).1 with hpc | hpc
  · rw [hpc] at hruns
    exact hruns
  · rw [hpc] at hruns
    exact hruns

/-- From a running task to a running task. -/
theorem Placed.goOn (h : Placed l s) (hruns : s.pc.Runs) (hruns' : s'.pc.Runs)
    (hlast : s'.pc.IsLast → s'.sender.queue = [] ∧ s'.sender.closed = true) : Placed l s' :=
  ⟨fun hstarts => absurd (h.starts hruns) hstarts, fun _ => hruns'.ne_panicked, hlast⟩

theorem Placed.send (h : Placed l s) (item : α) : Placed l (s.send item) := by
  refine ⟨?_, ?_, ?_⟩
  · rw [s.send_pc item, s.send_executed item]
    exact h.unstarted
  · rw [s.send_pc item]
    exact h.alive
  · rw [s.send_pc item]
    intro hpc
    obtain ⟨hqueue, hclosed⟩ := h.last hpc
    have halive : s.pc ≠ .panicked := fun heq => by
      rw [heq] at hpc
      exact hpc
    rw [(State.send_of_alive halive item).1, BufferSender.send, if_pos hclosed]
    exact ⟨hqueue, hclosed⟩

theorem Placed.flushRest (h : Placed l s) (hruns : s.pc.Runs) (last : Bool)
    (hlast : last = true → s.sender.queue = [] ∧ s.sender.closed = true) : Placed l (s.flushRest last) := by
  unfold State.flushRest
  split
  · exact h.goOn hruns (runs_afterFlush last) fun hpc => hlast (isLast_afterFlush hpc)
  · exact h.goOn hruns trivial hlast

theorem Placed.step (h : Placed l s) (hstep : Step l s a s') : Placed l s' := by
  cases hstep with
  | send item => exact h.send item
  | close => exact ⟨h.unstarted, h.alive, fun hpc => ⟨(h.last hpc).1, rfl⟩⟩
  | enter hpc hstarts => exact ⟨fun hnot => absurd hstarts hnot, fun _ => Pc.Runs.ne_panicked trivial, False.elim⟩
  | crash hpc hstarts =>
    exact ⟨fun _ => ⟨.inr rfl, (h.unstarted hstarts).2⟩, fun hst => absurd hst hstarts, False.elim⟩
  | wake item rest hpc hqueue => exact h.goOn (hpc ▸ trivial) trivial False.elim
  | leave hpc hqueue hclosed => exact h.flushRest (hpc ▸ trivial) true fun _ => ⟨hqueue, hclosed⟩
  | tick hpc hqueue hopen => exact h.goOn (hpc ▸ trivial) trivial False.elim
  | collect item rest hpc hroom hqueue => exact h.goOn (hpc ▸ trivial) trivial False.elim
  | collected hpc => exact h.flushRest (hpc ▸ trivial) false Bool.noConfusion
  | nothing last initialized hpc hbuf | written last chunk succeeds hpc | giveUp last hpc hbuf =>
    refine h.goOn (hpc ▸ trivial) (runs_afterFlush last) fun hlast => h.last ?_
    exact hpc ▸ isLast_afterFlush hlast
  | take last hpc hbuf | write last chunk batch succeeds hpc hbatch =>
    exact h.goOn (hpc ▸ trivial) trivial fun hlast => h.last (hpc ▸ hlast)

/-- What holds of every state a run reaches. -/
structure Reached (l : Loop) (s : State α) : Prop where
  sized : Sized l s
  placed : Placed l s

theorem Reached.step (h : Reached l s) (hstep : step l s a = some s') : Reached l s' :=
  ⟨h.sized.step (.of_step hstep), h.placed.step (.of_step hstep)⟩

theorem reached {actions : List (Action α)} (hrun : run (step l) (initial l) actions = some s) : Reached l s :=
  run_preserves (fun _ _ _ h hstep => h.step hstep) ⟨.initial l, .initial l⟩ hrun

end NodeGet.Monitoring.Flush
