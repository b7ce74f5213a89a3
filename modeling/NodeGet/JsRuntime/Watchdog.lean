import NodeGet.Core.Unsigned
import NodeGet.Machine.Run

/-! The script watchdog (`ng-js-runtime/src/server_runtime.rs`).

One thread serves all script executions. An execution registers a deadline on a
channel and cancels it when it is done; the thread collects registrations, drops
the cancelled ones, waits, and sets the kill flag of those whose deadline has
passed. It reads the channel in two places: `try_recv` keeps what it reads, and
the wait (`recv_timeout`, there to be woken early) throws it away.

So a deadline can only be missed through a registration that ends a wait. In
every run in which waits end by timeout, each iteration sets every flag that is
due (`deadline_kills`). -/
namespace NodeGet.JsRuntime.Watchdog
open NodeGet.Core NodeGet.Machine Function

/-! ### State and steps -/

/-- A registration, named by the execution it is for. -/
structure Watch (ι : Type) where
  id : ι
  deadlineMs : UInt64
deriving DecidableEq

/-- The channel an execution cancels through: messages not yet read, and whether
the sender is gone. -/
structure CancelChannel where
  messages : Nat
  dropped : Bool

inductive TryRecv where
  | received
  | empty
  | disconnected
deriving DecidableEq

def CancelChannel.tryRecv (c : CancelChannel) : TryRecv × CancelChannel :=
  match c.messages with
  | n + 1 => (.received, { c with messages := n })
  | 0 => (if c.dropped then .disconnected else .empty, c)

/-- Where the thread stands in its loop. -/
inductive Phase where
  | idle
  | collecting
  | sweeping
  | waiting
  | checking
deriving DecidableEq

structure State (ι : Type) where
  channel : List (Watch ι)
  active : List (Watch ι)
  cancel : ι → CancelChannel
  phase : Phase
  /-- The executions whose kill flag the thread has set. -/
  killed : ι → Bool
  /-- History: the executions that cancelled, by a message or by dropping the sender. -/
  cancelled : ι → Bool
  /-- History: all registrations sent. -/
  sent : List (Watch ι)
  /-- History: those sent before the iteration began. -/
  begun : List (Watch ι)

inductive Action (ι : Type) where
  | register (id : ι) (now durationMs : UInt64)
  | cancelMessage (id : ι)
  | cancelDrop (id : ι)
  | begin
  | collect
  | sweep
  | wait (now : UInt64)
  | check (now : UInt64)

variable {ι : Type} [DecidableEq ι]

def State.started : State ι :=
  ⟨[], [], fun _ => ⟨0, false⟩, .idle, fun _ => false, fun _ => false, [], []⟩

/-- The wait: to the nearest deadline, at most 50 ms. -/
def sleepMs (active : List (Watch ι)) (now : UInt64) : UInt64 :=
  ((active.map (·.deadlineMs)).min?).elim 50 fun d => min (saturatingSub d now) 50

def step (s : State ι) : Action ι → Option (State ι)
  | .register id now durationMs =>
    let watch : Watch ι := ⟨id, now + durationMs⟩
    some { s with channel := s.channel ++ [watch], sent := s.sent ++ [watch] }
  | .cancelMessage id =>
    some { s with
      cancel := update s.cancel id { s.cancel id with messages := (s.cancel id).messages + 1 }
      cancelled := update s.cancelled id true }
  | .cancelDrop id =>
    some { s with
      cancel := update s.cancel id { s.cancel id with dropped := true }
      cancelled := update s.cancelled id true }
  | .begin => if s.phase = .idle then some { s with phase := .collecting, begun := s.sent } else none
  | .collect =>
    if s.phase = .collecting then
      match s.channel with
      | watch :: rest => some { s with channel := rest, active := s.active ++ [watch] }
      | [] => some { s with phase := .sweeping }
    else none
  | .sweep =>
    if s.phase = .sweeping then
      some { s with
        active := s.active.filter fun w => (s.cancel w.id).tryRecv.1 ≠ .disconnected
        cancel := fun i => if i ∈ s.active.map (·.id) then (s.cancel i).tryRecv.2 else s.cancel i
        phase := .waiting }
    else none
  | .wait now =>
    if s.phase = .waiting then
      -- what `recv_timeout` returns is not looked at
      some { s with
        channel := if sleepMs s.active now = 0 then s.channel else s.channel.tail
        phase := .checking }
    else none
  | .check now =>
    if s.phase = .checking then
      some { s with
        active := s.active.filter fun w => ¬w.deadlineMs ≤ now
        killed := fun i => s.killed i || s.active.any fun w => w.id = i ∧ w.deadlineMs ≤ now
        phase := .idle }
    else none

/-! ### No registration is lost -/

/-- The wait reads nothing: it is not entered, or it ends by timeout. -/
def Quiet (s : State ι) : Action ι → Prop
  | .wait now => sleepMs s.active now = 0 ∨ s.channel = []
  | _ => True

def Handled (s : State ι) (w : Watch ι) : Prop :=
  w ∈ s.active ∨ s.killed w.id = true ∨ s.cancelled w.id = true

/-- The thread is past reading the channel. -/
def Phase.Collected (p : Phase) : Prop := p = .sweeping ∨ p = .waiting ∨ p = .checking

structure Tracked (s : State ι) : Prop where
  kept : ∀ w ∈ s.sent, w ∈ s.channel ∨ Handled s w
  begunSent : s.begun ⊆ s.sent
  collected : s.phase.Collected → ∀ w ∈ s.begun, Handled s w
  dropped : ∀ i, (s.cancel i).dropped = true → s.cancelled i = true

theorem CancelChannel.dropped_tryRecv (c : CancelChannel) : c.tryRecv.2.dropped = c.dropped := by
  obtain ⟨messages, dropped⟩ := c
  cases messages <;> rfl

theorem CancelChannel.dropped_of_disconnected {c : CancelChannel} (h : c.tryRecv.1 = .disconnected) :
    c.dropped = true := by
  obtain ⟨messages, dropped⟩ := c
  cases messages with
  | zero =>
    cases dropped
    · cases h
    · rfl
  | succ n => cases h

variable {s t : State ι} {a : Action ι} {w : Watch ι}

/-- Once handled, a registration stays so: it leaves the active list only cancelled
or with its flag set. -/
theorem Handled.of_step (hdropped : ∀ i, (s.cancel i).dropped = true → s.cancelled i = true) (h : step s a = some t)
    (hw : Handled s w) : Handled t w := by
  cases a with
  | register id now durationMs =>
    cases h
    exact hw
  | cancelMessage id | cancelDrop id =>
    cases h
    refine hw.imp_right (.imp_right fun hc => ?_)
    by_cases hid : w.id = id
    · simp [hid]
    · simpa [update_of_ne hid] using hc
  | begin =>
    obtain ⟨-, h⟩ := Option.ite_none_right_eq_some.mp h
    cases h
    exact hw
  | collect =>
    obtain ⟨-, h⟩ := Option.ite_none_right_eq_some.mp h
    split at h
    · cases h
      exact hw.imp_left (List.mem_append_left _)
    · cases h
      exact hw
  | sweep =>
    obtain ⟨-, h⟩ := Option.ite_none_right_eq_some.mp h
    cases h
    rcases hw with hactive | hdone
    · by_cases hgone : (s.cancel w.id).tryRecv.1 = .disconnected
      · exact .inr (.inr (hdropped w.id (CancelChannel.dropped_of_disconnected hgone)))
      · exact .inl (List.mem_filter.mpr ⟨hactive, by simpa using hgone⟩)
    · exact .inr hdone
  | wait now =>
    obtain ⟨-, h⟩ := Option.ite_none_right_eq_some.mp h
    cases h
    exact hw
  | check now =>
    obtain ⟨-, h⟩ := Option.ite_none_right_eq_some.mp h
    cases h
    rcases hw with hactive | hkilled | hcancelled
    · by_cases hdue : w.deadlineMs ≤ now
      · refine .inr (.inl ?_)
        have hany : s.active.any (fun v => v.id = w.id ∧ v.deadlineMs ≤ now) = true :=
          List.any_eq_true.mpr ⟨w, hactive, by simpa using hdue⟩
        show (s.killed w.id || s.active.any fun v => v.id = w.id ∧ v.deadlineMs ≤ now) = true
        rw [hany, Bool.or_true]
      · exact .inl (List.mem_filter.mpr ⟨hactive, by simpa using hdue⟩)
    · exact .inr (.inl (by simp [hkilled]))
    · exact .inr (.inr hcancelled)

/-- What is in the channel stays there or becomes active, if the wait reads nothing. -/
theorem channel_step (hG : Quiet s a) (h : step s a = some t) (hw : w ∈ s.channel) : w ∈ t.channel ∨ w ∈ t.active := by
  cases a with
  | register id now durationMs =>
    cases h
    exact .inl (List.mem_append_left _ hw)
  | cancelMessage id | cancelDrop id =>
    cases h
    exact .inl hw
  | begin | sweep | check now =>
    obtain ⟨-, h⟩ := Option.ite_none_right_eq_some.mp h
    cases h
    exact .inl hw
  | collect =>
    obtain ⟨-, h⟩ := Option.ite_none_right_eq_some.mp h
    split at h
    · rename_i watch rest hchannel
      cases h
      rw [hchannel] at hw
      rcases List.mem_cons.mp hw with rfl | hw
      · exact .inr (List.mem_append_right _ (List.mem_singleton_self _))
      · exact .inl hw
    · cases h
      exact .inl hw
  | wait now =>
    obtain ⟨-, h⟩ := Option.ite_none_right_eq_some.mp h
    cases h
    rcases hG with hsleep | hempty
    · exact .inl (by simpa [hsleep] using hw)
    · rw [hempty] at hw
      cases hw

/-- Only a registration sends, and it sends to the channel. -/
theorem sent_step (h : step s a = some t) : t.sent = s.sent ∨ ∃ w, t.sent = s.sent ++ [w] ∧ w ∈ t.channel := by
  cases a with
  | register id now durationMs =>
    cases h
    exact .inr ⟨_, rfl, List.mem_append_right _ (List.mem_singleton_self _)⟩
  | cancelMessage id | cancelDrop id =>
    cases h
    exact .inl rfl
  | begin | sweep | wait now | check now =>
    obtain ⟨-, h⟩ := Option.ite_none_right_eq_some.mp h
    cases h
    exact .inl rfl
  | collect =>
    obtain ⟨-, h⟩ := Option.ite_none_right_eq_some.mp h
    split at h <;> cases h <;> exact .inl rfl

/-- An iteration begins with what was sent until then, and it goes on to its sweep
when the channel is empty. -/
theorem phase_step (h : step s a = some t) :
    t.begun = s.begun ∧ (t.phase.Collected → s.phase.Collected ∨ s.channel = []) ∨
      t.begun = s.sent ∧ ¬t.phase.Collected := by
  have not_collected : ¬Phase.Collected .idle ∧ ¬Phase.Collected .collecting := by
    constructor <;> rintro (h | h | h) <;> cases h
  cases a with
  | register id now durationMs | cancelMessage id | cancelDrop id =>
    cases h
    exact .inl ⟨rfl, .inl⟩
  | begin =>
    obtain ⟨-, h⟩ := Option.ite_none_right_eq_some.mp h
    cases h
    exact .inr ⟨rfl, not_collected.2⟩
  | collect =>
    obtain ⟨-, h⟩ := Option.ite_none_right_eq_some.mp h
    split at h
    · cases h
      exact .inl ⟨rfl, .inl⟩
    · rename_i hempty
      cases h
      exact .inl ⟨rfl, fun _ => .inr hempty⟩
  | sweep =>
    obtain ⟨hphase, h⟩ := Option.ite_none_right_eq_some.mp h
    cases h
    exact .inl ⟨rfl, fun _ => .inl (.inl hphase)⟩
  | wait now =>
    obtain ⟨hphase, h⟩ := Option.ite_none_right_eq_some.mp h
    cases h
    exact .inl ⟨rfl, fun _ => .inl (.inr (.inl hphase))⟩
  | check now =>
    obtain ⟨-, h⟩ := Option.ite_none_right_eq_some.mp h
    cases h
    exact .inl ⟨rfl, fun hphase => absurd hphase not_collected.1⟩

theorem dropped_step (hdropped : ∀ i, (s.cancel i).dropped = true → s.cancelled i = true) (h : step s a = some t)
    (i : ι) (hi : (t.cancel i).dropped = true) : t.cancelled i = true := by
  cases a with
  | register id now durationMs =>
    cases h
    exact hdropped i hi
  | cancelMessage id | cancelDrop id =>
    cases h
    by_cases hid : i = id
    · subst hid
      exact update_self ..
    · simp only [update_of_ne hid] at hi ⊢
      exact hdropped i hi
  | begin | wait now | check now =>
    obtain ⟨-, h⟩ := Option.ite_none_right_eq_some.mp h
    cases h
    exact hdropped i hi
  | collect =>
    obtain ⟨-, h⟩ := Option.ite_none_right_eq_some.mp h
    split at h <;> cases h <;> exact hdropped i hi
  | sweep =>
    obtain ⟨-, h⟩ := Option.ite_none_right_eq_some.mp h
    cases h
    apply hdropped i
    simp only at hi
    split at hi
    · rwa [CancelChannel.dropped_tryRecv] at hi
    · exact hi

theorem step_tracked (s : State ι) (a : Action ι) (t : State ι) (hs : Tracked s) (hG : Quiet s a)
    (h : step s a = some t) : Tracked t := by
  have hhandled : ∀ w, Handled s w → Handled t w := fun w => Handled.of_step hs.dropped h
  have hold : ∀ w ∈ s.sent, w ∈ t.channel ∨ Handled t w := by
    intro w hw
    rcases hs.kept w hw with hchannel | hdone
    · exact (channel_step hG h hchannel).imp_right .inl
    · exact .inr (hhandled w hdone)
  have hsent : s.sent ⊆ t.sent := by
    rcases sent_step h with hsent | ⟨w, hsent, -⟩ <;> rw [hsent]
    · exact List.Subset.refl _
    · exact List.subset_append_left ..
  refine ⟨?_, ?_, ?_, dropped_step hs.dropped h⟩
  · rcases sent_step h with hsent | ⟨w, hsent, hchannel⟩
    · exact hsent ▸ hold
    · intro v hv
      rw [hsent, List.mem_append, List.mem_singleton] at hv
      rcases hv with hv | rfl
      · exact hold v hv
      · exact .inl hchannel
  · rcases phase_step h with ⟨hbegun, -⟩ | ⟨hbegun, -⟩ <;> rw [hbegun]
    · exact List.Subset.trans hs.begunSent hsent
    · exact hsent
  · intro hphase w hw
    rcases phase_step h with ⟨hbegun, hcollected⟩ | ⟨-, hnot⟩
    · rw [hbegun] at hw
      rcases hcollected hphase with hcollected | hempty
      · exact hhandled w (hs.collected hcollected w hw)
      · rcases hs.kept w (hs.begunSent hw) with hchannel | hdone
        · rw [hempty] at hchannel
          cases hchannel
        · exact hhandled w hdone
    · exact absurd hphase hnot

/-! ### Deadlines -/

/-- **No deadline is missed** in a run whose waits end by timeout: an iteration that
reads the time `now` at its check ends with the flag of every registration set that
was sent before it began, is due and was not cancelled. -/
theorem deadline_kills (actions : List (Action ι)) {s t : State ι} (now : UInt64)
    (hG : Along step Quiet .started actions) (hrun : run step .started actions = some s)
    (hcheck : step s (.check now) = some t) :
    ∀ w ∈ s.begun, w.deadlineMs ≤ now → s.cancelled w.id = false → t.killed w.id = true := by
  have hstart : Tracked (State.started : State ι) := by
    refine ⟨?_, List.Subset.refl _, ?_, ?_⟩
    · intro w hw
      cases hw
    · intro _ w hw
      cases hw
    · intro i hi
      cases hi
  have hs : Tracked s := run_invariant step_tracked hstart hG hrun
  intro w hw hdue hlive
  obtain ⟨hphase, ht⟩ := Option.ite_none_right_eq_some.mp hcheck
  have hhandled := Handled.of_step hs.dropped hcheck (hs.collected (.inr (.inr hphase)) w hw)
  cases ht
  rcases hhandled with hactive | hkilled | hcancelled
  · -- an active registration that is due has just left the list
    have hlate := (List.mem_filter.mp hactive).2
    simp [hdue] at hlate
  · exact hkilled
  · rw [show s.cancelled w.id = true from hcancelled] at hlive
    cases hlive

theorem deadline_kills_due :
    ∃ s t : State Nat, run step .started [.register 0 5 1, .begin, .collect, .collect, .sweep, .wait 6] = some s ∧
      step s (.check 6) = some t ∧ t.killed 0 = true := by
  refine ⟨_, _, rfl, rfl, ?_⟩
  refine deadline_kills [.register 0 5 1, .begin, .collect, .collect, .sweep, .wait 6] 6 ?_ rfl rfl ⟨0, 6⟩
    (List.mem_singleton_self _) (by decide) rfl
  exact .cons rfl trivial (.cons rfl trivial (.cons rfl trivial (.cons rfl trivial (.cons rfl trivial
    (.cons rfl (.inr rfl) trivial)))))

/-- A registration that arrives while the thread waits ends the wait and is gone:
the next iterations never see it, whatever time they read. -/
theorem registration_lost_in_wait :
    ∃ s t : State Nat,
      run step .started [.begin, .collect, .sweep, .register 0 5 1, .wait 5, .check 5, .begin, .collect, .sweep,
        .wait 100] = some s ∧
      step s (.check 100) = some t ∧ ⟨0, 6⟩ ∈ s.begun ∧ s.cancelled 0 = false ∧ t.killed 0 = false :=
  ⟨_, _, rfl, rfl, List.mem_singleton_self _, rfl, rfl⟩

end NodeGet.JsRuntime.Watchdog
