import NodeGet.Monitoring.Flush

/-! What a write buffer promises: every accepted row is written once and in order,
and the task ends after the close.

A row is in the channel, then in the task's hands, then in an executed `INSERT`;
`Delivered` says that these three, in this order, are the accepted rows, whatever the
interleaving. That the task ends is a measure every step of it lowers once nothing
more is sent. Both hold exactly when the task can start on its configuration
(`delivers_iff`): a batch size whose buffer cannot be allocated ends the task before
its loop, with what the channel had accepted. -/
namespace NodeGet.Monitoring.Flush
open NodeGet.Machine

variable {α : Type} {l : Loop} {s s' : State α} {a : Action α}

/-! ### Every accepted row once, in order -/

/-- What was written, what the task holds and what the channel holds are the accepted rows. -/
def Delivered (s : State α) : Prop :=
  s.pc ≠ .panicked → s.accepted = s.executed.flatten ++ s.held ++ s.sender.queue

theorem Delivered.initial (l : Loop) : Delivered (initial l : State α) := fun _ => rfl

theorem Delivered.send (h : Delivered s) (item : α) : Delivered (s.send item) := by
  intro halive
  rw [s.send_pc item] at halive
  obtain ⟨hsender, haccepted⟩ := State.send_of_alive halive item
  rw [haccepted, hsender, s.send_executed, s.send_held]
  by_cases hacc : s.sender.Accepts
  · rw [if_pos hacc, BufferSender.queue_send_of_accepts hacc, h halive, List.append_assoc _ s.sender.queue]
  · rw [if_neg hacc, BufferSender.queue_send_of_refuses hacc, h halive]

theorem State.held_flushRest (s : State α) (last : Bool) : (s.flushRest last).held = s.buf := by
  unfold flushRest
  cases last <;> split <;> rfl

theorem State.held_afterFlush (s : State α) (last : Bool) : (s.goto (afterFlush last)).held = s.buf := by
  cases last <;> rfl

theorem Delivered.push (h : s.accepted = s.executed.flatten ++ s.buf ++ s.sender.queue) {item : α}
    {rest : List α} (hqueue : s.sender.queue = item :: rest) : Delivered (s.push item rest) := by
  intro _
  rw [hqueue] at h
  show s.accepted = s.executed.flatten ++ (s.buf ++ [item]) ++ rest
  rw [h]
  simp only [List.append_assoc, List.singleton_append]

/-- The phases in which the rows in hand are the buffer. -/
def Pc.Buffers : Pc α → Prop
  | .inserting .. | .panicked => False
  | _ => True

theorem Delivered.of_buffers (h : Delivered s) (hpc : s.pc.Buffers) :
    s.accepted = s.executed.flatten ++ s.buf ++ s.sender.queue := by
  have halive : s.pc ≠ .panicked := by
    intro heq
    rw [heq] at hpc
    exact hpc
  have hheld : s.held = s.buf := by
    unfold State.held
    split
    · next heq =>
      rw [heq] at hpc
      exact hpc.elim
    · rfl
  rw [← hheld]
  exact h halive

theorem Delivered.step (h : Delivered s) (hsized : Sized l s) (hsucceeds : a.Succeeds) (hstep : Step l s a s') :
    Delivered s' := by
  cases hstep with
  | send item => exact h.send item
  | close => exact h
  | enter hpc hstarts => exact fun _ => h.of_buffers (hpc ▸ trivial)
  | crash hpc hstarts => exact fun halive => absurd rfl halive
  | wake item rest hpc hqueue => exact .push (h.of_buffers (hpc ▸ trivial)) hqueue
  | leave hpc hqueue hclosed =>
    intro _
    rw [s.held_flushRest]
    exact h.of_buffers (hpc ▸ trivial)
  | tick hpc hqueue hopen => exact fun _ => h.of_buffers (hpc ▸ trivial)
  | collect item rest hpc hroom hqueue => exact .push (h.of_buffers (hpc ▸ trivial)) hqueue
  | collected hpc =>
    intro _
    rw [s.held_flushRest]
    exact h.of_buffers (hpc ▸ trivial)
  | nothing last initialized hpc hnil =>
    intro _
    rw [s.held_afterFlush]
    exact h.of_buffers (hpc ▸ trivial)
  | take last hpc hne => exact fun _ => h.of_buffers (hpc ▸ trivial)
  | giveUp last hpc hne => exact Bool.noConfusion hsucceeds
  | written last chunk succeeds hpc =>
    intro _
    have hall := h (by simp [hpc])
    simp only [State.held, hpc] at hall
    rw [s.held_afterFlush, hsized.idle (hpc ▸ id)]
    exact hall
  | write last chunk batch succeeds hpc hne =>
    intro _
    have hall := h (by simp [hpc])
    simp only [State.held, hpc] at hall
    show s.accepted = (s.executed ++ [batch.take (min chunk batch.length)]).flatten ++
      batch.drop (min chunk batch.length) ++ s.sender.queue
    rw [hall, List.flatten_append, List.flatten_singleton, List.append_assoc _ (batch.take _),
      List.take_append_drop]

/-! ### The task ends -/

/-- How far the phase is from the next wait. -/
def Pc.rank : Pc α → Nat
  | .exited | .panicked => 0
  | .waiting => 1
  | .spawned | .inserting .. => 2
  | .flushing _ => 3
  | .draining => 4

/-- A bound on the steps left once nothing more is sent. A queued row costs its receipt, its share of an
`INSERT` and at most one round through the phases, a row in hand its share of an `INSERT`. -/
def State.remaining (s : State α) : Nat := 6 * s.sender.queue.length + 2 * s.held.length + s.pc.rank

theorem Loop.IsChunk.pos {chunk : Nat} (h : l.IsChunk chunk) : 0 < chunk := by
  obtain ⟨total, hpos, -, rfl⟩ := h
  cases l.backend with
  | sqlite =>
    refine Nat.lt_min.mpr ⟨?_, hpos⟩
    cases l.table <;> decide
  | postgres => exact hpos

theorem rank_afterFlush (last : Bool) : (afterFlush last : Pc α).rank ≤ 1 := by
  cases last <;> simp [afterFlush, Pc.rank]

theorem State.remaining_flushRest (s : State α) (last : Bool) :
    (s.flushRest last).remaining ≤ 6 * s.sender.queue.length + 2 * s.buf.length + 3 := by
  have hrank : (s.flushRest last).pc.rank ≤ 3 := by
    unfold flushRest goto
    split
    · exact Nat.le_trans (rank_afterFlush last) (by decide)
    · exact Nat.le_refl _
  unfold remaining
  rw [s.held_flushRest]
  exact Nat.add_le_add_left hrank _

theorem State.remaining_afterFlush (s : State α) (last : Bool) :
    (s.goto (afterFlush last)).remaining ≤ 6 * s.sender.queue.length + 2 * s.buf.length + 1 := by
  unfold remaining
  rw [s.held_afterFlush]
  exact Nat.add_le_add_left (rank_afterFlush last) _

theorem State.remaining_push (s : State α) (item : α) (rest : List α) :
    (s.push item rest).remaining = 6 * rest.length + 2 * (s.buf.length + 1) + 4 := by
  simp [remaining, push, held, Pc.rank]

/-- After the close every step of the task brings its end nearer. -/
theorem remaining_lt (hsized : Sized l s) (hclosed : s.sender.closed = true) (htask : a.IsTask)
    (hstep : Step l s a s') : s'.remaining < s.remaining := by
  cases hstep with
  | send item => exact htask.elim
  | close => exact htask.elim
  | enter hpc hstarts =>
    simp only [State.remaining, State.held, State.goto, hpc, Pc.rank]
    omega
  | crash hpc hstarts =>
    simp only [State.remaining, State.held, hpc, Pc.rank, List.length_nil]
    omega
  | wake item rest hpc hqueue =>
    rw [s.remaining_push]
    simp only [State.remaining, State.held, hpc, hqueue, Pc.rank, List.length_cons]
    omega
  | leave hpc hqueue _ =>
    -- nothing is in hand while the task waits, so it returns at once
    have hnil : s.buf = [] := hsized.idle (hpc ▸ id)
    simp only [State.remaining, State.flushRest, State.goto, State.held, afterFlush, hpc, hqueue, hnil, Pc.rank,
      List.isEmpty_nil, if_true, List.length_nil]
    omega
  | tick hpc hqueue hopen => exact absurd (hopen.symm.trans hclosed) Bool.noConfusion
  | collect item rest hpc hroom hqueue =>
    rw [s.remaining_push]
    simp only [State.remaining, State.held, hpc, hqueue, Pc.rank, List.length_cons]
    omega
  | collected hpc =>
    refine Nat.lt_of_le_of_lt (s.remaining_flushRest false) ?_
    simp only [State.remaining, State.held, hpc, Pc.rank]
    omega
  | nothing last initialized hpc hnil =>
    refine Nat.lt_of_le_of_lt (s.remaining_afterFlush last) ?_
    simp only [State.remaining, State.held, hpc, Pc.rank]
    omega
  | take last hpc hne =>
    simp only [State.remaining, State.held, hpc, Pc.rank]
    omega
  | giveUp last hpc hne =>
    refine Nat.lt_of_le_of_lt (State.remaining_afterFlush { s with buf := [], lost := s.lost ++ s.buf } last) ?_
    simp only [State.remaining, State.held, hpc, Pc.rank, List.length_nil]
    omega
  | written last chunk succeeds hpc =>
    refine Nat.lt_of_le_of_lt (s.remaining_afterFlush last) ?_
    simp only [State.remaining, State.held, hpc, Pc.rank, hsized.idle (hpc ▸ id), List.length_nil]
    omega
  | write last chunk batch succeeds hpc hne =>
    have hchunk := (hsized.chunk last chunk batch hpc).pos
    have hbatch := List.length_pos_iff.mpr hne
    simp only [State.remaining, State.held, hpc, Pc.rank, List.length_drop]
    omega

/-- The splitting loop ends, whatever the database answers: its turns are counted by the batch alone. -/
theorem splitting_ends (l : Loop) (last : Bool) {chunk : Nat} (hchunk : 0 < chunk) (batch : List α) :
    ∃ turns, ∀ s : State α, s.pc = .inserting last chunk batch → ∀ outcomes : List Bool, outcomes.length = turns →
      ∃ t, run (step l) s (outcomes.map .insert) = some t ∧ t.pc = afterFlush last := by
  induction hn : batch.length using Nat.strongRecOn generalizing batch with
  | ind n ih =>
    cases batch with
    | nil =>
      refine ⟨1, fun s hpc outcomes hlen => ?_⟩
      obtain ⟨succeeds, rfl⟩ := List.length_eq_one_iff.mp hlen
      refine ⟨s.goto (afterFlush last), ?_, rfl⟩
      simp [run, step, hpc, State.insert]
    | cons item rest =>
      have hlt : ((item :: rest).drop (min chunk (item :: rest).length)).length < n := by
        simp only [List.length_drop, List.length_cons] at hn ⊢
        omega
      obtain ⟨turns, hturns⟩ := ih _ hlt _ rfl
      refine ⟨turns + 1, fun s hpc outcomes hlen => ?_⟩
      obtain ⟨succeeds, outcomes, rfl⟩ := List.exists_cons_of_length_eq_add_one hlen
      have hstep : step l s (.insert succeeds) = some (s.insert last chunk (item :: rest) succeeds) := by
        simp [step, hpc]
      obtain ⟨t, hrun, ht⟩ := hturns (s.insert last chunk (item :: rest) succeeds) rfl outcomes (by simpa using hlen)
      exact ⟨t, run_cons_some.mpr ⟨_, hstep, hrun⟩, ht⟩

/-- The task can do nothing more. -/
def Rests (l : Loop) (s : State α) : Prop := ∀ a : Action α, a.IsTask → step l s a = none

/-- A task that started rests after the close only at its end. -/
theorem exited_of_rests (h : Placed l s) (hstarts : l.Starts) (hclosed : s.sender.closed = true)
    (hrests : Rests l s) : s.pc = .exited := by
  cases hpc : s.pc with
  | exited => rfl
  | panicked => exact absurd hpc (h.alive hstarts)
  | spawned =>
    have hstart := hrests .start trivial
    simp [step, hpc] at hstart
  | waiting =>
    have hrecv := hrests .recv trivial
    cases hqueue : s.sender.queue <;> simp [step, hpc, State.recv, hqueue, hclosed] at hrecv
  | draining =>
    have hdrain := hrests .drain trivial
    simp [step, hpc] at hdrain
  | flushing last =>
    have hflush := hrests (.flush true) trivial
    simp [step, hpc] at hflush
  | inserting last chunk batch =>
    have hinsert := hrests (.insert true) trivial
    simp [step, hpc] at hinsert

theorem rests_of_panicked (l : Loop) (hpc : s.pc = .panicked) : Rests l s := by
  intro a htask
  cases a with
  | send item | close => exact htask.elim
  | start | recv | tick | drain | flush _ | insert _ => simp [step, hpc]

theorem delivered {actions : List (Action α)} (hrun : run (step l) (initial l) actions = some s)
    (hsucceeds : ∀ a ∈ actions, a.Succeeds) : Delivered s := by
  have hall : Reached l s ∧ Delivered s := by
    refine run_invariant (G := fun _ a => a.Succeeds) (P := fun s => Reached l s ∧ Delivered s) ?_
      ⟨⟨.initial l, .initial l⟩, .initial l⟩ (.of_mem hsucceeds) hrun
    intro t a t' ht ha hstep
    exact ⟨ht.1.step hstep, ht.2.step ht.1.sized ha (.of_step hstep)⟩
  exact hall.2

/-- No send reopens the channel. -/
theorem closed_step (hclosed : s.sender.closed = true) (hstep : Step l s a s') : s'.sender.closed = true := by
  cases hstep with
  | send item =>
    unfold State.send
    split
    · rw [if_pos hclosed]
      exact hclosed
    · exact (BufferSender.closed_send ..).trans hclosed
  | close => rfl
  | _ => exact hclosed

/-- After the close the task can take only so many steps. -/
theorem length_le_remaining (h : Reached l s) (hclosed : s.sender.closed = true) {more : List (Action α)}
    {t : State α} (htask : ∀ a ∈ more, a.IsTask) (hrun : run (step l) s more = some t) :
    more.length ≤ s.remaining := by
  have hle := run_length_add_le (G := fun _ a => a.IsTask)
    (P := fun s => Reached l s ∧ s.sender.closed = true)
    (fun t a t' ht _ hstep => ⟨ht.1.step hstep, closed_step ht.2 (.of_step hstep)⟩)
    (fun t a t' ht ha hstep => remaining_lt ht.1.sized ht.2 ha (.of_step hstep))
    ⟨h, hclosed⟩ (.of_mem htask) hrun
  omega

/-- The buffer's promise, on every run without a failing write: a batch is split in finitely many turns; once
the channel is closed the task comes to rest, and then every accepted row has been written, in the order of the
sends and once, and none is left. -/
def Delivers (α : Type) (l : Loop) : Prop :=
  ∀ (actions : List (Action α)) (s : State α), run (step l) (initial l) actions = some s →
    (∀ a ∈ actions, a.Succeeds) →
    (∀ last chunk batch, s.pc = .inserting last chunk batch → ∃ turns, ∀ outcomes : List Bool,
      outcomes.length = turns → ∃ t, run (step l) s (outcomes.map .insert) = some t ∧ t.pc = afterFlush last) ∧
    (s.sender.closed = true →
      (∃ bound, ∀ more t, (∀ a ∈ more, a.IsTask) → run (step l) s more = some t → more.length ≤ bound) ∧
      (Rests l s → s.executed.flatten = s.accepted ∧ s.held = [] ∧ s.sender.queue = []))

theorem Delivers.of_starts (hstarts : l.Starts) : Delivers α l := by
  intro actions s hrun hsucceeds
  have h := reached hrun
  refine ⟨?_, fun hclosed => ⟨⟨s.remaining, ?_⟩, ?_⟩⟩
  · intro last chunk batch hpc
    obtain ⟨turns, hturns⟩ := splitting_ends l last (h.sized.chunk last chunk batch hpc).pos batch
    exact ⟨turns, hturns s hpc⟩
  · intro more t htask hmore
    exact length_le_remaining h hclosed htask hmore
  · intro hrests
    have hpc := exited_of_rests h.placed hstarts hclosed hrests
    have hqueue : s.sender.queue = [] := (h.placed.last (hpc ▸ trivial)).1
    have hheld : s.held = [] := by
      simp only [State.held, hpc]
      exact h.sized.idle (hpc ▸ id)
    have hall := delivered hrun hsucceeds (by simp [hpc])
    rw [hheld, hqueue, List.append_nil, List.append_nil] at hall
    exact ⟨hall.symm, hheld, hqueue⟩

/-- A row accepted before a task that cannot start is lost with it. -/
theorem lost_of_not_starts (hstarts : ¬ l.Starts) (item : α) :
    ∃ s, run (step l) (initial l) [.send item, .start, .close] = some s ∧ s.pc = .panicked ∧
      s.sender.closed = true ∧ s.accepted = [item] ∧ s.executed = [] := by
  have haccepts : (initial l : State α).sender.Accepts := ⟨rfl, l.channelCapacity_pos⟩
  have haccepted : ((initial l : State α).send item).accepted = [item] :=
    (State.send_of_alive (by simp [initial]) item).2.trans (if_pos haccepts)
  refine ⟨(((initial l).send item).start l).close, rfl, ?_⟩
  rw [State.start, if_neg hstarts]
  exact ⟨rfl, rfl, haccepted, rfl⟩

/-- The promise is kept exactly when the task can start on its configuration. -/
theorem delivers_iff [Inhabited α] (l : Loop) :
    Delivers α l ↔ 0 < flushIntervalMs l.config ∧ maxBatchSize l.config * l.rowSize ≤ isizeMax := by
  constructor
  · intro h
    by_contra hstarts
    obtain ⟨s, hrun, hpc, hclosed, haccepted, hexecuted⟩ := lost_of_not_starts hstarts (default : α)
    have hsucceeds : ∀ a ∈ [Action.send (default : α), .start, .close], a.Succeeds := by
      simp [Action.Succeeds]
    obtain ⟨-, hend⟩ := h _ s hrun hsucceeds
    have hall := ((hend hclosed).2 (rests_of_panicked l hpc)).1
    rw [haccepted, hexecuted] at hall
    cases hall
  · exact Delivers.of_starts

/-- The largest batch size a configuration file can hold, as an integer. -/
def boundless : Loop where
  config := some { flushIntervalMs := none, maxBatchSize := some 9223372036854775807, channelCapacity := none }
  table := .staticMonitoring
  backend := .sqlite
  rowSize := 128
  boundColumns := 7
  boundColumns_pos := by decide
  boundColumns_le := by decide
  channelCapacity_pos := by decide

/-- The row was accepted, the channel is closed, the task is gone, and nothing was written. -/
theorem boundless_loses :
    (∃ s : State Nat, run (step boundless) (initial boundless) [.send 5, .start, .close] = some s ∧
      s.sender.closed = true ∧ Rests boundless s ∧ s.accepted = [5] ∧ s.executed = []) ∧
    ¬ Delivers Nat boundless := by
  obtain ⟨s, hrun, hpc, hclosed, haccepted, hexecuted⟩ :=
    lost_of_not_starts (l := boundless) (by decide +kernel) (5 : Nat)
  have hrests := rests_of_panicked boundless hpc
  refine ⟨⟨s, hrun, hclosed, hrests, haccepted, hexecuted⟩, fun h => ?_⟩
  obtain ⟨-, hend⟩ := h _ s hrun (by simp [Action.Succeeds])
  have hall := ((hend hclosed).2 hrests).1
  rw [haccepted, hexecuted] at hall
  cases hall

end NodeGet.Monitoring.Flush
