import NodeGet.Monitoring.Flush

/-! The parameters of an `INSERT` of the write buffer.

On SQLite a batch is cut so that its statements keep to the limit. On PostgreSQL it is
one statement, and the limit is the batch size's to keep (`within_limit_iff`): rows
that are sent while the task collects join the batch, so a full one can be reached
whatever the capacity of the channel. -/
namespace NodeGet.Monitoring.Flush
open NodeGet.Core NodeGet.Machine

variable {α : Type} {l : Loop} {s : State α}

/-- No statement binds more parameters than the database allows. -/
def WithinLimit (α : Type) (l : Loop) : Prop :=
  ∀ (actions : List (Action α)) (s : State α), run (step l) (initial l) actions = some s →
    ∀ sub ∈ s.executed, sub.length * l.boundColumns ≤ l.backend.maxVariables

theorem Loop.IsChunk.le_largestBatch {chunk : Nat} (h : l.IsChunk chunk) : chunk ≤ l.largestBatch := by
  obtain ⟨total, -, hle, rfl⟩ := h
  exact Nat.le_trans (chunkSize_le ..) hle

theorem Loop.IsChunk.fits_sqlite {chunk : Nat} (h : l.IsChunk chunk) (hbackend : l.backend = .sqlite) :
    chunk * l.boundColumns ≤ l.backend.maxVariables := by
  obtain ⟨total, -, -, rfl⟩ := h
  rw [hbackend]
  have hcolumns : l.boundColumns ≤ max l.table.numColumns 1 := Nat.le_trans l.boundColumns_le (Nat.le_max_left ..)
  calc chunkSize .sqlite l.table.numColumns total * l.boundColumns
      ≤ Backend.sqlite.maxVariables / max l.table.numColumns 1 * max l.table.numColumns 1 :=
        Nat.mul_le_mul (Nat.min_le_left ..) hcolumns
    _ ≤ Backend.sqlite.maxVariables := Nat.div_mul_le_self ..

/-- The task has collected so many rows, one at a time. -/
structure Filled (l : Loop) (item : α) (n : Nat) (s : State α) : Prop where
  pc : s.pc = .draining
  buf : s.buf = List.replicate n item
  queue : s.sender.queue = []
  isOpen : s.sender.closed = false
  cap : s.sender.cap = channelCapacity l.config
  executed : s.executed = []

theorem filled_one (hstarts : l.Starts) (item : α) :
    ∃ s, run (step l) (initial l) [.start, .send item, .recv] = some s ∧ Filled l item 1 s := by
  have hroom := l.channelCapacity_pos
  simp only [run, step, initial, State.start, if_pos hstarts, State.goto, State.send, BufferSender.send,
    List.length_nil, if_pos hroom, Bool.false_eq_true, if_false, Option.bind_some, List.nil_append, State.recv,
    State.push]
  exact ⟨_, rfl, ⟨rfl, rfl, rfl, rfl, rfl, rfl⟩⟩

/-- A row sent while the task collects goes into the same batch, as long as the batch size allows. -/
theorem Filled.more {item : α} {n : Nat} (h : Filled l item n s) (hroom : n < maxBatchSize l.config) :
    ∃ t, run (step l) s [.send item, .drain] = some t ∧ Filled l item (n + 1) t := by
  have haccepts : s.sender.Accepts := by
    refine ⟨h.isOpen, ?_⟩
    rw [h.queue, h.cap]
    exact l.channelCapacity_pos
  have hsend := State.send_of_accepts (s := s) (by simp [h.pc]) haccepts item
  rw [h.queue, List.nil_append] at hsend
  have hlen : (s.send item).buf.length < maxBatchSize l.config := by
    rw [s.send_buf, h.buf, List.length_replicate]
    exact hroom
  have hdrain : step l (s.send item) .drain = some ((s.send item).push item []) := by
    simp only [step, s.send_pc, h.pc, State.drain, if_pos hlen]
    simp only [hsend]
  refine ⟨(s.send item).push item [], run_cons_some.mpr ⟨_, rfl, run_cons_some.mpr ⟨_, hdrain, rfl⟩⟩, ?_⟩
  rw [hsend]
  refine ⟨rfl, ?_, rfl, h.isOpen, h.cap, h.executed⟩
  rw [List.replicate_succ', ← h.buf]
  rfl

/-- The task can collect a batch of any size up to the largest, whatever the capacity of the channel. -/
theorem filled (hstarts : l.Starts) (item : α) (n : Nat) (hn : n < l.largestBatch) :
    ∃ actions s, run (step l) (initial l) actions = some s ∧ Filled l item (n + 1) s := by
  induction n with
  | zero =>
    obtain ⟨s, hrun, hs⟩ := filled_one hstarts item
    exact ⟨_, s, hrun, hs⟩
  | succ n ih =>
    obtain ⟨actions, s, hrun, hs⟩ := ih (Nat.lt_of_succ_lt hn)
    have hroom : n + 1 < maxBatchSize l.config := by
      unfold Loop.largestBatch at hn
      omega
    obtain ⟨t, hmore, ht⟩ := hs.more hroom
    exact ⟨_, t, run_append hrun hmore, ht⟩

/-- On PostgreSQL what was collected goes into one statement. -/
theorem Filled.written {item : α} {n : Nat} (h : Filled l item (n + 1) s) (hbackend : l.backend = .postgres) :
    ∃ t, run (step l) s [.drain, .flush true, .insert true] = some t ∧
      t.executed = [List.replicate (n + 1) item] := by
  have hbuf : s.buf.isEmpty = false := by
    rw [h.buf]
    rfl
  have hdrain : step l s .drain = some (s.goto (.flushing false)) := by
    have hrest : s.flushRest false = s.goto (.flushing false) := by
      rw [State.flushRest, hbuf]
      rfl
    simp only [step, h.pc, State.drain, h.queue, hrest, ite_self]
  have hflush : step l (s.goto (.flushing false)) (.flush true) =
      some { s with buf := [], pc := .inserting false (n + 1) (List.replicate (n + 1) item) } := by
    simp only [step, State.goto, State.flush, hbackend, chunkSize, h.buf, List.length_replicate, if_true]
    rfl
  refine ⟨_, run_cons_some.mpr ⟨_, hdrain, run_cons_some.mpr ⟨_, hflush, rfl⟩⟩, ?_⟩
  simp [State.insert, h.executed]

/-- The largest batch can be written as one statement on PostgreSQL. -/
theorem largest_batch_written (hstarts : l.Starts) (hbackend : l.backend = .postgres) (item : α) :
    ∃ actions s, run (step l) (initial l) actions = some s ∧
      s.executed = [List.replicate l.largestBatch item] := by
  obtain ⟨n, hn⟩ := Nat.exists_eq_add_of_le' (Nat.le_max_left 1 (maxBatchSize l.config))
  have hlargest : l.largestBatch = n + 1 := hn
  obtain ⟨actions, s, hrun, hs⟩ := filled hstarts item n (by omega)
  obtain ⟨t, hwritten, ht⟩ := hs.written hbackend
  exact ⟨_, t, run_append hrun hwritten, hlargest ▸ ht⟩

/-- SQLite's limit is always kept. PostgreSQL's is kept exactly when a batch of the configured size keeps it, or
when the task cannot start at all. -/
theorem within_limit_iff [Inhabited α] (l : Loop) :
    WithinLimit α l ↔ l.backend = .sqlite ∨ max 1 (maxBatchSize l.config) * l.boundColumns ≤ 65535 ∨ ¬ l.Starts := by
  constructor
  · intro h
    by_cases hstarts : l.Starts
    · cases hbackend : l.backend with
      | sqlite => exact .inl rfl
      | postgres =>
        obtain ⟨actions, s, hrun, hexecuted⟩ := largest_batch_written hstarts hbackend (default : α)
        have hle := h actions s hrun (List.replicate l.largestBatch default) (by simp [hexecuted])
        rw [List.length_replicate, hbackend] at hle
        exact .inr (.inl hle)
    · exact .inr (.inr hstarts)
  · intro h actions s hrun sub hsub
    have hreached := reached hrun
    obtain ⟨chunk, hchunk, hlen⟩ := hreached.sized.executed sub hsub
    have hstarts : l.Starts := by
      by_contra hnot
      rw [(hreached.placed.unstarted hnot).2] at hsub
      cases hsub
    cases hbackend : l.backend with
    | sqlite =>
      rw [← hbackend]
      exact Nat.le_trans (Nat.mul_le_mul_right _ hlen) (hchunk.fits_sqlite hbackend)
    | postgres =>
      have hlimit : l.largestBatch * l.boundColumns ≤ 65535 := by
        rcases h with hsqlite | hlimit | hnot
        · cases hbackend.symm.trans hsqlite
        · exact hlimit
        · exact absurd hstarts hnot
      exact Nat.le_trans (Nat.mul_le_mul_right _ (Nat.le_trans hlen hchunk.le_largestBatch)) hlimit

/-- A batch size ten times the default one, on PostgreSQL. -/
def wide : Loop where
  config := some { flushIntervalMs := none, maxBatchSize := some 10000, channelCapacity := none }
  table := .dynamicMonitoring
  backend := .postgres
  rowSize := 512
  boundColumns := 10
  boundColumns_pos := by decide
  boundColumns_le := by decide
  channelCapacity_pos := by decide

/-- A full batch becomes one statement of a hundred thousand parameters. -/
theorem wide_exceeds :
    (∃ (actions : List (Action Nat)) (s : State Nat), run (step wide) (initial wide) actions = some s ∧
      ∃ sub ∈ s.executed, sub.length * wide.boundColumns = 100000 ∧ wide.backend.maxVariables = 65535) ∧
    ¬ WithinLimit Nat wide := by
  obtain ⟨actions, s, hrun, hexecuted⟩ := largest_batch_written (l := wide) (by decide +kernel) rfl (5 : Nat)
  have hmem : List.replicate wide.largestBatch 5 ∈ s.executed := by simp [hexecuted]
  have hlen : (List.replicate wide.largestBatch 5).length * wide.boundColumns = 100000 := by
    rw [List.length_replicate]
    rfl
  refine ⟨⟨actions, s, hrun, _, hmem, hlen, rfl⟩, fun h => ?_⟩
  have hle := h actions s hrun _ hmem
  rw [hlen] at hle
  exact absurd hle (by decide)

end NodeGet.Monitoring.Flush
