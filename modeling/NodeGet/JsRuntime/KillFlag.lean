import Mathlib.Data.List.Nodup
import Mathlib.Data.List.Perm.Subperm
import NodeGet.JsRuntime.Watchdog

/-! The kill flag of a pool worker (`ng-js-runtime/src/runtime_pool.rs`: `execute_on_worker`)
under the watchdog.

The runs of a worker follow one another and share the flag of its runtime. A run clears the
flag, loads the script, registers its deadline, runs, cancels by a message and ends; only
then is the sender of the message dropped. The watchdog's sweep looks for dropped senders: a
message makes it keep the registration for one more round, and nothing between the sweep and
the deadline check looks at the channel again. So a run that ends shortly before its deadline
can have the flag set when the next run already goes (`finished_run_kills_next`).

The flag is set for live runs only as long as every run that was not killed ends early enough
for the thread to sweep twice before its deadline is checked (`Early`, `kills_are_live`). -/
namespace NodeGet.JsRuntime.KillFlag
open NodeGet.Machine NodeGet.JsRuntime.Watchdog Function

/-! ### The worker and the thread -/

/-- What the watchdog's thread does. -/
inductive Thread where
  | begin | collect | sweep
  | wait (now : UInt64)
  | check (now : UInt64)

def Thread.action : Thread → Watchdog.Action Nat
  | .begin => .begin
  | .collect => .collect
  | .sweep => .sweep
  | .wait now => .wait now
  | .check now => .check now

/-- Where the worker stands in a run. -/
inductive Worker where
  | idle
  | cleared
  | running
  | cancelled
  /-- The flag has been looked at; whether the run counts as killed. -/
  | inspected (killed : Bool)
  /-- The runtime is given up, and the flag with it. -/
  | discarded

/-- The flag was set by the watch of a run; whether the run had cancelled it. -/
structure Kill where
  run : Nat
  cancelled : Bool
deriving DecidableEq

structure State where
  watchdog : Watchdog.State Nat
  flag : Bool
  /-- The runs are numbered, and a registration is known by its run's number. -/
  run : Nat
  worker : Worker
  /-- History: the sweeps since a run ended that found its registration taken from the channel. -/
  sweeps : Nat → Nat
  /-- History: how the flag was set. -/
  kills : List Kill

def State.started : State := ⟨.started, false, 0, .idle, fun _ => 0, []⟩

inductive Action where
  | clear
  | loadFailed
  | register (now durationMs : UInt64)
  | cancel
  | inspect (failed : Bool)
  | finish (idleOk : Bool)
  | thread (a : Thread)

/-- The registrations whose flag a step of the thread sets. -/
def due (w : Watchdog.State Nat) : Thread → List (Watch Nat)
  | .check now => w.active.filter (·.deadlineMs ≤ now)
  | _ => []

def countSweep (w : Watchdog.State Nat) (sweeps : Nat → Nat) : Thread → Nat → Nat
  | .sweep, i => if (w.cancel i).dropped = true ∧ i ∉ w.channel.map (·.id) then sweeps i + 1 else sweeps i
  | _, i => sweeps i

def step (s : State) : Action → Option State
  | .clear =>
    match s.worker with
    | .idle => some { s with flag := false, worker := .cleared }
    | _ => none
  | .loadFailed =>
    match s.worker with
    | .cleared => some { s with run := s.run + 1, worker := .idle }
    | _ => none
  | .register now durationMs =>
    match s.worker with
    | .cleared =>
      (Watchdog.step s.watchdog (.register s.run now durationMs)).map fun w =>
        { s with watchdog := w, worker := .running }
    | _ => none
  | .cancel =>
    match s.worker with
    | .running =>
      (Watchdog.step s.watchdog (.cancelMessage s.run)).map fun w => { s with watchdog := w, worker := .cancelled }
    | _ => none
  | .inspect failed =>
    match s.worker with
    | .cancelled =>
      let killed := s.flag && failed
      some { s with flag := s.flag && !killed, worker := .inspected killed }
    | _ => none
  | .finish idleOk =>
    match s.worker with
    | .inspected killed =>
      (Watchdog.step s.watchdog (.cancelDrop s.run)).map fun w =>
        { s with watchdog := w, run := s.run + 1, worker := if killed || !idleOk then .discarded else .idle }
    | _ => none
  | .thread a =>
    (Watchdog.step s.watchdog a.action).map fun w =>
      { s with
        watchdog := w
        flag := s.flag || !(due s.watchdog a).isEmpty
        sweeps := countSweep s.watchdog s.sweeps a
        kills := s.kills ++ (due s.watchdog a).map fun v => ⟨v.id, s.watchdog.cancelled v.id⟩ }

/-! ### Registrations the thread may still act on -/

def held (w : Watchdog.State Nat) : List (Watch Nat) := w.channel ++ w.active

/-- The numbers below which runs have registered. -/
def State.registered (s : State) : Nat :=
  match s.worker with
  | .running | .cancelled | .inspected _ => s.run + 1
  | .idle | .cleared | .discarded => s.run

/-- The numbers below which runs have cancelled. -/
def State.cancelBound (s : State) : Nat :=
  match s.worker with
  | .cancelled | .inspected _ => s.run + 1
  | .idle | .cleared | .running | .discarded => s.run

/-- What is known of a registration that is held: it is its run's only one, the flag was not
set through it, and since its run ended the thread has come upon it at most once, taking the
message. Runs have registered, cancelled and ended up to the numbers given. -/
structure Sound (w : Watchdog.State Nat) (sweeps : Nat → Nat) (registered cancelled ended : Nat) : Prop where
  known : ∀ v ∈ held w, v ∈ w.sent
  once : ((held w).map (·.id)).Nodup
  live : ∀ v ∈ held w, w.killed v.id = false
  sentBefore : ∀ v ∈ w.sent, v.id < registered
  killedBefore : ∀ i, w.killed i = true → i < registered
  cancelledBefore : ∀ i, w.cancelled i = true → i < cancelled
  droppedBefore : ∀ i, (w.cancel i).dropped = true → i < ended
  untouched : ∀ i, w.cancelled i = false → (w.cancel i).messages = 0
  message : ∀ i, (w.cancel i).messages ≤ 1
  sweptDropped : ∀ i, sweeps i ≠ 0 → (w.cancel i).dropped = true
  waiting : ∀ v ∈ w.channel, sweeps v.id = 0
  sweptOnce : ∀ v ∈ w.active, sweeps v.id = 0 ∨ sweeps v.id = 1 ∧ (w.cancel v.id).messages = 0

/-- A check comes before the deadline of every run that has cancelled without being killed,
unless the thread has swept twice since that run ended. -/
def Early (s : State) : Action → Prop
  | .thread (.check now) => ∀ v ∈ s.watchdog.sent, s.watchdog.cancelled v.id = true →
      s.watchdog.killed v.id = false → s.sweeps v.id < 2 → now < v.deadlineMs
  | _ => True

instance (s : State) (a : Action) : Decidable (Early s a) := by
  unfold Early
  split <;> infer_instance

/-! ### The worker's steps -/

section Steps
variable {w w' : Watchdog.State Nat} {sweeps : Nat → Nat} {n registered cancelled ended : Nat}

theorem mem_held {v : Watch Nat} : v ∈ held w ↔ v ∈ w.channel ∨ v ∈ w.active := List.mem_append

theorem Sound.mono (hs : Sound w sweeps registered cancelled ended) {registered' cancelled' ended' : Nat}
    (hregistered : registered ≤ registered') (hcancelled : cancelled ≤ cancelled') (hended : ended ≤ ended') :
    Sound w sweeps registered' cancelled' ended' :=
  { hs with
    sentBefore := fun v hv => (hs.sentBefore v hv).trans_le hregistered
    killedBefore := fun i hi => (hs.killedBefore i hi).trans_le hregistered
    cancelledBefore := fun i hi => (hs.cancelledBefore i hi).trans_le hcancelled
    droppedBefore := fun i hi => (hs.droppedBefore i hi).trans_le hended }

/-- A run that has not ended has not been swept. -/
theorem Sound.sweeps_eq_zero (hs : Sound w sweeps registered cancelled n) : sweeps n = 0 := by
  by_contra hne
  exact absurd (hs.droppedBefore n (hs.sweptDropped n hne)) (Nat.lt_irrefl n)

/-- The new registration is the only one of its run. -/
theorem sound_register {now durationMs : UInt64} (hs : Sound w sweeps n n n)
    (h : Watchdog.step w (.register n now durationMs) = some w') : Sound w' sweeps (n + 1) n n := by
  cases h
  have hheld : ∀ {v : Watch Nat}, v ∈ (w.channel ++ [⟨n, now + durationMs⟩]) ++ w.active →
      v ∈ held w ∨ v = ⟨n, now + durationMs⟩ := by
    intro v hv
    simp only [List.mem_append, List.mem_singleton] at hv
    rw [mem_held]
    tauto
  have hperm : ((w.channel ++ [(⟨n, now + durationMs⟩ : Watch Nat)]) ++ w.active).Perm
      (⟨n, now + durationMs⟩ :: held w) := by
    rw [List.append_assoc]
    exact List.perm_middle
  refine { hs with
    known := ?known, once := ?once, live := ?live, sentBefore := ?sentBefore, killedBefore := ?killedBefore
    waiting := ?waiting }
  case known => exact fun v hv => List.mem_append.mpr ((hheld hv).imp (hs.known v) List.mem_singleton.mpr)
  case once =>
    refine (hperm.map (·.id)).nodup_iff.mpr (List.nodup_cons.mpr ⟨fun hmem => ?_, hs.once⟩)
    obtain ⟨v, hv, heq⟩ := List.mem_map.mp hmem
    have hlt : v.id < n := hs.sentBefore v (hs.known v hv)
    exact hlt.ne heq
  case live =>
    intro v hv
    obtain hold | rfl := hheld hv
    · exact hs.live v hold
    · exact Bool.eq_false_iff.mpr fun hkilled => absurd (hs.killedBefore n hkilled) (Nat.lt_irrefl n)
  case sentBefore =>
    intro v hv
    obtain hold | hnew := List.mem_append.mp hv
    · exact Nat.lt_succ_of_lt (hs.sentBefore v hold)
    · rw [List.mem_singleton.mp hnew]
      exact Nat.lt_succ_self n
  case killedBefore => exact fun i hi => Nat.lt_succ_of_lt (hs.killedBefore i hi)
  case waiting =>
    intro v hv
    obtain hold | hnew := List.mem_append.mp hv
    · exact hs.waiting v hold
    · rw [List.mem_singleton.mp hnew]
      exact hs.sweeps_eq_zero

/-- A run that has not ended says on its channel that it is done; a message is its only one. -/
theorem sound_cancel {c : CancelChannel} {ended' : Nat} (hs : Sound w sweeps (n + 1) cancelled n)
    (hmessage : c.messages ≤ 1) (hended : c.dropped = true → n < ended') (hcancelled : cancelled ≤ n + 1)
    (hle : n ≤ ended') :
    Sound { w with
      cancel := update w.cancel n c
      cancelled := update w.cancelled n true } sweeps (n + 1) (n + 1) ended' := by
  refine { hs with
    cancelledBefore := ?cancelledBefore, droppedBefore := ?droppedBefore, untouched := ?untouched
    message := ?message, sweptDropped := ?sweptDropped, sweptOnce := ?sweptOnce }
  case cancelledBefore =>
    exact (forall_update_iff w.cancelled fun i b => b = true → i < n + 1).mpr
      ⟨fun _ => Nat.lt_succ_self n, fun i _ hi => (hs.cancelledBefore i hi).trans_le hcancelled⟩
  case droppedBefore =>
    exact (forall_update_iff w.cancel fun i c => c.dropped = true → i < ended').mpr
      ⟨hended, fun i _ hi => (hs.droppedBefore i hi).trans_le hle⟩
  case message =>
    exact (forall_update_iff w.cancel fun _ c => c.messages ≤ 1).mpr ⟨hmessage, fun i _ => hs.message i⟩
  case sweptDropped =>
    exact (forall_update_iff w.cancel fun i c => sweeps i ≠ 0 → c.dropped = true).mpr
      ⟨fun hne => absurd hs.sweeps_eq_zero hne, fun i _ => hs.sweptDropped i⟩
  case untouched =>
    intro i hi
    have hne : i ≠ n := fun heq => by simp [heq] at hi
    dsimp only at hi ⊢
    rw [update_of_ne hne] at hi ⊢
    exact hs.untouched i hi
  case sweptOnce =>
    intro v hv
    by_cases hne : v.id = n
    · exact .inl (hne ▸ hs.sweeps_eq_zero)
    · dsimp only
      rw [update_of_ne hne]
      exact hs.sweptOnce v hv

/-! ### The thread's steps -/

theorem messages_tryRecv (c : CancelChannel) : c.tryRecv.2.messages = c.messages - 1 := by
  obtain ⟨messages, dropped⟩ := c
  cases messages <;> rfl

variable (hs : Sound w sweeps registered cancelled ended)
include hs

/-- A registration goes from the channel to the active ones, or out of sight. -/
theorem sound_moved (hsent : w'.sent = w.sent) (hkilled : w'.killed = w.killed)
    (hcancelled : w'.cancelled = w.cancelled) (hcancel : w'.cancel = w.cancel) (hheld : (held w').Subperm (held w))
    (hchannel : w'.channel ⊆ w.channel) (hactive : ∀ v ∈ w'.active, v ∈ w.active ∨ v ∈ w.channel) :
    Sound w' sweeps registered cancelled ended := by
  constructor
  case known => exact fun v hv => hsent ▸ hs.known v (hheld.subset hv)
  case once =>
    obtain ⟨l, hperm, hsublist⟩ := hheld
    exact (hperm.map (·.id)).nodup_iff.mp (hs.once.sublist (hsublist.map _))
  case live => exact fun v hv => hkilled ▸ hs.live v (hheld.subset hv)
  case sentBefore => exact hsent ▸ hs.sentBefore
  case killedBefore => exact hkilled ▸ hs.killedBefore
  case cancelledBefore => exact hcancelled ▸ hs.cancelledBefore
  case droppedBefore => exact hcancel ▸ hs.droppedBefore
  case untouched => rw [hcancelled, hcancel]; exact hs.untouched
  case message => exact hcancel ▸ hs.message
  case sweptDropped => exact hcancel ▸ hs.sweptDropped
  case waiting => exact fun v hv => hs.waiting v (hchannel hv)
  case sweptOnce =>
    intro v hv
    rw [hcancel]
    exact (hactive v hv).elim (hs.sweptOnce v) fun hold => .inl (hs.waiting v hold)

theorem sound_collect (h : Watchdog.step w .collect = some w') : Sound w' sweeps registered cancelled ended := by
  obtain ⟨-, h⟩ := Option.ite_none_right_eq_some.mp h
  split at h
  next v rest hchannel =>
    cases h
    refine sound_moved hs rfl rfl rfl rfl ?_ ?_ ?_
    · have hperm : (rest ++ (w.active ++ [v])).Perm (held w) := by
        rw [held, hchannel, ← List.append_assoc]
        exact List.perm_append_singleton v _
      exact hperm.subperm
    · rw [hchannel]
      exact List.subset_cons_self v rest
    · intro u hu
      rw [hchannel]
      refine (List.mem_append.mp hu).imp_right fun hu => ?_
      rw [List.mem_singleton.mp hu]
      exact List.mem_cons_self
  next =>
    cases h
    exact sound_moved hs rfl rfl rfl rfl (List.Subperm.refl _) (List.Subset.refl _) fun _ => .inl

theorem sound_wait {now : UInt64} (h : Watchdog.step w (.wait now) = some w') :
    Sound w' sweeps registered cancelled ended := by
  obtain ⟨-, h⟩ := Option.ite_none_right_eq_some.mp h
  cases h
  have htail : (if sleepMs w.active now = 0 then w.channel else w.channel.tail).Sublist w.channel := by
    split
    · exact List.Sublist.refl _
    · exact List.tail_sublist _
  exact sound_moved hs rfl rfl rfl rfl (htail.append_right _).subperm htail.subset fun _ => .inl

/-- The thread reads the message of a run that has ended once, and drops the registration the
next time. -/
theorem sound_sweep (h : Watchdog.step w .sweep = some w') :
    Sound w' (countSweep w sweeps .sweep) registered cancelled ended := by
  obtain ⟨-, h⟩ := Option.ite_none_right_eq_some.mp h
  cases h
  have hheld : (w.channel ++ w.active.filter fun v => (w.cancel v.id).tryRecv.1 ≠ .disconnected).Sublist (held w) :=
    List.filter_sublist.append_left _
  have hdropped : ∀ i, (if i ∈ w.active.map (·.id) then (w.cancel i).tryRecv.2 else w.cancel i).dropped =
      (w.cancel i).dropped := by
    intro i
    split
    · exact CancelChannel.dropped_tryRecv _
    · rfl
  have hmessages : ∀ i, (if i ∈ w.active.map (·.id) then (w.cancel i).tryRecv.2 else w.cancel i).messages ≤
      (w.cancel i).messages := by
    intro i
    split
    · exact (messages_tryRecv _).trans_le (Nat.sub_le _ 1)
    · exact Nat.le_refl _
  refine { hs with
    known := fun v hv => hs.known v (hheld.subset hv), once := hs.once.sublist (hheld.map _)
    live := fun v hv => hs.live v (hheld.subset hv), droppedBefore := ?droppedBefore, untouched := ?untouched
    message := ?message, sweptDropped := ?sweptDropped, waiting := ?waiting, sweptOnce := ?sweptOnce }
  case droppedBefore => exact fun i hi => hs.droppedBefore i ((hdropped i).symm.trans hi)
  case untouched => exact fun i hi => Nat.le_zero.mp ((hmessages i).trans (hs.untouched i hi).le)
  case message => exact fun i => (hmessages i).trans (hs.message i)
  case sweptDropped =>
    intro i hi
    refine (hdropped i).trans ?_
    rw [countSweep] at hi
    split at hi
    next hcounted => exact hcounted.1
    next => exact hs.sweptDropped i hi
  case waiting =>
    intro v hv
    rw [countSweep, if_neg fun hcounted => hcounted.2 (List.mem_map_of_mem hv)]
    exact hs.waiting v hv
  case sweptOnce =>
    intro v hv
    obtain ⟨hactive, hkept⟩ := List.mem_filter.mp hv
    dsimp only
    rw [if_pos (List.mem_map_of_mem hactive), messages_tryRecv]
    by_cases hzero : (w.cancel v.id).messages = 0
    · -- kept without a message: the run has not ended
      have hlive : (w.cancel v.id).dropped = false := by
        refine Bool.eq_false_iff.mpr fun hdropped => ?_
        simp [CancelChannel.tryRecv, hzero, hdropped] at hkept
      have hnone : sweeps v.id = 0 := by
        by_contra hne
        rw [hs.sweptDropped v.id hne] at hlive
        cases hlive
      left
      rw [countSweep, if_neg fun hcounted => by rw [hlive] at hcounted; cases hcounted.1]
      exact hnone
    · have hone := hs.message v.id
      have hnone : sweeps v.id = 0 := (hs.sweptOnce v hactive).resolve_right fun hv => hzero hv.2
      rw [countSweep, hnone]
      split
      · exact .inr ⟨rfl, by omega⟩
      · exact .inl rfl

/-- The flag is set through registrations that are then no longer held. -/
theorem sound_check {now : UInt64} (h : Watchdog.step w (.check now) = some w') :
    Sound w' sweeps registered cancelled ended := by
  obtain ⟨-, h⟩ := Option.ite_none_right_eq_some.mp h
  cases h
  have hheld : (w.channel ++ w.active.filter fun v => ¬v.deadlineMs ≤ now).Sublist (held w) :=
    List.filter_sublist.append_left _
  refine { hs with
    known := fun v hv => hs.known v (hheld.subset hv), once := hs.once.sublist (hheld.map _), live := ?live
    killedBefore := ?killedBefore, sweptOnce := fun v hv => hs.sweptOnce v (List.mem_filter.mp hv).1 }
  case live =>
    intro v hv
    refine Bool.or_eq_false_iff.mpr ⟨hs.live v (hheld.subset hv), Bool.eq_false_iff.mpr fun hany => ?_⟩
    obtain ⟨u, hu, heq⟩ := List.any_eq_true.mp hany
    simp only [decide_eq_true_eq] at heq
    obtain ⟨hid, hdue⟩ := heq
    have hsame : u = v := List.inj_on_of_nodup_map hs.once (mem_held.mpr (.inr hu)) (hheld.subset hv) hid
    subst hsame
    obtain hchannel | hlate := List.mem_append.mp hv
    · have hdisjoint := List.disjoint_of_nodup_append (List.Nodup.of_map _ hs.once)
      exact hdisjoint hchannel hu
    · simpa [hdue] using (List.mem_filter.mp hlate).2
  case killedBefore =>
    intro i hi
    obtain hold | hany := (Bool.or_eq_true _ _).mp hi
    · exact hs.killedBefore i hold
    · obtain ⟨u, hu, heq⟩ := List.any_eq_true.mp hany
      simp only [decide_eq_true_eq] at heq
      exact heq.1 ▸ hs.sentBefore u (hs.known u (mem_held.mpr (.inr hu)))

theorem sound_thread {a : Thread} (h : Watchdog.step w a.action = some w') :
    Sound w' (countSweep w sweeps a) registered cancelled ended := by
  cases a with
  | begin =>
    obtain ⟨-, h⟩ := Option.ite_none_right_eq_some.mp h
    cases h
    exact sound_moved hs rfl rfl rfl rfl (List.Subperm.refl _) (List.Subset.refl _) fun _ => .inl
  | collect => exact sound_collect hs h
  | sweep => exact sound_sweep hs h
  | wait now => exact sound_wait hs h
  | check now => exact sound_check hs h

end Steps

/-! ### Runs -/

structure Inv (s : State) : Prop where
  sound : Sound s.watchdog s.sweeps s.registered s.cancelBound s.run
  kills : ∀ k ∈ s.kills, k.cancelled = false

/-- A due registration that is held has not been cancelled, if the check comes early. -/
theorem due_live {s : State} (hs : Inv s) {a : Thread} (hearly : Early s (.thread a)) {v : Watch Nat}
    (hv : v ∈ due s.watchdog a) : s.watchdog.cancelled v.id = false := by
  cases a with
  | check now =>
    obtain ⟨hactive, hdue⟩ := List.mem_filter.mp hv
    have hheld : v ∈ held s.watchdog := mem_held.mpr (.inr hactive)
    refine Bool.eq_false_iff.mpr fun hcancelled => ?_
    have hlate := hearly v (hs.sound.known v hheld) hcancelled (hs.sound.live v hheld) (by
      have := hs.sound.sweptOnce v hactive
      omega)
    exact UInt64.not_le.mpr hlate (of_decide_eq_true hdue)
  | begin | collect | sweep | wait => cases hv

theorem step_inv (s : State) (a : Action) (t : State) (hs : Inv s) (hearly : Early s a) (h : step s a = some t) :
    Inv t := by
  have hsound := hs.sound
  cases a with
  | clear =>
    simp only [step] at h
    split at h
    next hworker =>
      cases h
      rw [State.registered, State.cancelBound, hworker] at hsound
      exact ⟨hsound, hs.kills⟩
    next => cases h
  | loadFailed =>
    simp only [step] at h
    split at h
    next hworker =>
      cases h
      rw [State.registered, State.cancelBound, hworker] at hsound
      exact ⟨hsound.mono (Nat.le_succ _) (Nat.le_succ _) (Nat.le_succ _), hs.kills⟩
    next => cases h
  | register now durationMs =>
    simp only [step] at h
    split at h
    next hworker =>
      obtain ⟨w, hw, rfl⟩ := Option.map_eq_some_iff.mp h
      rw [State.registered, State.cancelBound, hworker] at hsound
      exact ⟨sound_register hsound hw, hs.kills⟩
    next => cases h
  | cancel =>
    simp only [step] at h
    split at h
    next hworker =>
      cases h
      rw [State.registered, State.cancelBound, hworker] at hsound
      have hlive : s.watchdog.cancelled s.run = false :=
        Bool.eq_false_iff.mpr fun hcancelled => Nat.lt_irrefl _ (hsound.cancelledBefore s.run hcancelled)
      have hnone := hsound.untouched s.run hlive
      refine ⟨sound_cancel hsound ?_ (hsound.droppedBefore s.run) (Nat.le_succ _) (Nat.le_refl _), hs.kills⟩
      exact Nat.succ_le_succ hnone.le
    next => cases h
  | inspect failed =>
    simp only [step] at h
    split at h
    next hworker =>
      cases h
      rw [State.registered, State.cancelBound, hworker] at hsound
      exact ⟨hsound, hs.kills⟩
    next => cases h
  | finish idleOk =>
    simp only [step] at h
    split at h
    next killed hworker =>
      cases h
      rw [State.registered, State.cancelBound, hworker] at hsound
      have hnext := sound_cancel hsound (c := { s.watchdog.cancel s.run with dropped := true })
        (hsound.message s.run) (fun _ => Nat.lt_succ_self _) (Nat.le_refl _) (Nat.le_succ _)
      refine ⟨?_, hs.kills⟩
      cases killed <;> cases idleOk <;> exact hnext
    next => cases h
  | thread a =>
    obtain ⟨w, hw, rfl⟩ := Option.map_eq_some_iff.mp h
    refine ⟨sound_thread hsound hw, fun k hk => ?_⟩
    obtain hold | hnew := List.mem_append.mp hk
    · exact hs.kills k hold
    · obtain ⟨v, hv, rfl⟩ := List.mem_map.mp hnew
      exact due_live hs hearly hv

/-- **In a run whose checks come early, the flag is set by the watches of runs only that have
not cancelled them.** -/
theorem kills_are_live (actions : List Action) {s : State} (hearly : Along step Early .started actions)
    (hrun : run step .started actions = some s) : ∀ k ∈ s.kills, k.cancelled = false := by
  have hstart : Inv .started := by
    refine ⟨?_, fun k hk => absurd hk List.not_mem_nil⟩
    constructor
    case once => exact List.nodup_nil
    case message => exact fun _ => Nat.zero_le 1
    case untouched => exact fun _ _ => rfl
    case sweptDropped => exact fun _ hne => absurd rfl hne
    case killedBefore | cancelledBefore | droppedBefore => exact fun _ hi => Bool.noConfusion hi
    all_goals exact fun _ hv => absurd hv List.not_mem_nil
  exact (run_invariant step_inv hstart hearly hrun).kills

/-- A run that ends early, and one whose time is up. -/
private def inTime : List Action :=
  [.clear, .register 5 60, .cancel, .inspect false, .finish true, .thread .begin, .thread .collect, .thread .collect,
    .thread .sweep, .thread (.wait 6), .thread (.check 56), .clear, .register 56 10, .thread .begin,
    .thread .collect, .thread .collect, .thread .sweep, .thread (.wait 60), .thread (.check 66)]

theorem kills_are_live_in_time :
    ∃ s, run step .started inTime = some s ∧ s.kills.map (·.run) = [1] ∧ ∀ k ∈ s.kills, k.cancelled = false := by
  have hearly : Along step Early .started inTime := by decide +kernel
  have hends : ∃ s, run step .started inTime = some s ∧ s.kills.map (·.run) = [1] := by decide +kernel
  obtain ⟨s, hrun, hkills⟩ := hends
  exact ⟨s, hrun, hkills, kills_are_live inTime hearly hrun⟩

/-- The first run cancels and ends before the sweep, which takes its message and keeps the
registration. The check then sets the flag while the second run goes, with its own deadline
far away. -/
theorem finished_run_kills_next :
    ∃ s, run step .started [.clear, .register 5 1, .thread .begin, .thread .collect, .thread .collect, .cancel,
      .inspect false, .finish true, .thread .sweep, .thread (.wait 5), .clear, .register 5 100,
      .thread (.check 6)] = some s ∧ s.flag = true ∧ s.run = 1 ∧ s.kills = [⟨0, true⟩] := by
  decide +kernel

end NodeGet.JsRuntime.KillFlag
