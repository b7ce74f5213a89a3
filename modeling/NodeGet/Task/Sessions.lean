import Mathlib.Data.List.Nodup
import NodeGet.Core.Uuid
import NodeGet.Machine.Channel
import NodeGet.Machine.Run

/-! The sessions of agents that wait for tasks (`ng-task/src/rpc/mod.rs`: `register_task` and the
`TaskManager`).

A registration makes a channel, enters its sender into the table of sessions under the agent's
identifier, in the place of the entry that is there, and starts a forwarder that reads the
channel. Sending looks the entry up under the lock and clones its sender, then puts the event
into the channel without the lock: meanwhile the session may be replaced or end. A forwarder
leaves its loop when its channel is empty and all senders are gone, or on an error, and then
removes its entry from the table, if it is still its own: entries carry the identifier that the
registration has drawn at random (`Uuid::new_v4`), and those are taken to differ.

The senders that are left of a channel are the entry in the table and the clones that calls
hold; a forwarder that left without an error had none (`Sound.closed`), so nothing can have
been put into its channel since. -/
namespace NodeGet.Task
open NodeGet.Core NodeGet.Machine Function

inductive TaskSendError where
  | notConnected (uuid : Uuid)
  | queueFull (uuid : Uuid)
deriving DecidableEq

namespace TaskSendError

def isNotConnected : TaskSendError → Bool
  | notConnected _ => true
  | queueFull _ => false

def message : TaskSendError → String
  | notConnected uuid => "Agent " ++ uuid.text ++ " is not connected"
  | queueFull uuid => "Agent " ++ uuid.text ++ " task queue is full"

end TaskSendError

namespace Sessions

/-! ### State -/

def queueCapacity : Nat := 32

/-- Why a forwarder left its loop: the senders were gone, or an event could not be serialised or
sent. -/
inductive Exit (κ : Type) where
  | closed
  | failed (event : κ)
deriving DecidableEq

inductive Forwarder (κ : Type) where
  | unborn
  | looping
  | handling (event : κ)
  | leaving (exit : Exit κ)
  /-- Its entry is no longer in the table. -/
  | removed (exit : Exit κ)
  /-- The receiver is dropped. -/
  | ended (exit : Exit κ)

namespace Forwarder
variable {κ : Type}

def exit : Forwarder κ → Option (Exit κ)
  | leaving e | removed e | ended e => some e
  | unborn | looping | handling _ => none

def hasRemoved : Forwarder κ → Bool
  | removed _ | ended _ => true
  | _ => false

def hasEnded : Forwarder κ → Bool
  | ended _ => true
  | _ => false

/-- The event it has taken and not passed on. -/
def inHand : Forwarder κ → List κ
  | handling event | leaving (.failed event) | removed (.failed event) | ended (.failed event) => [event]
  | unborn | looping | leaving .closed | removed .closed | ended .closed => []

end Forwarder

/-- A call of `send_event`. -/
inductive CallPc (ι : Type) where
  | start
  | holding (session : ι)
  | sent (session : ι) (outcome : Except TaskSendError Unit)
  | returned (outcome : Except TaskSendError Unit)

def CallPc.outcome {ι : Type} : CallPc ι → Option (Except TaskSendError Unit)
  | sent _ outcome | returned outcome => some outcome
  | start | holding _ => none

/-- Sessions are named by their registration, events by the call that sends them. -/
structure State (ι κ : Type) where
  peers : Uuid → Option (Uuid × ι)
  channel : ι → Channel κ queueCapacity
  /-- The calls that hold a clone of the session's sender. -/
  holders : ι → List κ
  forwarder : ι → Forwarder κ
  call : κ → CallPc ι
  /-- History: the events that reached the agent. -/
  forwarded : ι → List κ
  /-- History: the last registration of an agent. -/
  latest : Uuid → Option ι

def started {ι κ : Type} : State ι κ where
  peers := fun _ => none
  channel := fun _ => .empty
  holders := fun _ => []
  forwarder := fun _ => .unborn
  call := fun _ => .start
  forwarded := fun _ => []
  latest := fun _ => none

inductive Action (ι κ : Type) where
  | register (k : ι)
  | look (c : κ)
  | send (c : κ)
  | drop (c : κ)
  | take (k : ι)
  | close (k : ι)
  | forward (k : ι)
  | fail (k : ι)
  | remove (k : ι)
  | finish (k : ι)

section Machine
variable {ι κ : Type} [DecidableEq ι] [DecidableEq κ] (agent regId : ι → Uuid) (target : κ → Uuid)

def removeSession (peers : Uuid → Option (Uuid × ι)) (uuid reg : Uuid) : Uuid → Option (Uuid × ι) :=
  match peers uuid with
  | some (current, _) => if current = reg then update peers uuid none else peers
  | none => peers

/-- All senders of the session's channel are gone. -/
def State.Senderless (s : State ι κ) (k : ι) : Prop :=
  s.holders k = [] ∧ (s.peers (agent k)).map (·.2) ≠ some k

instance (s : State ι κ) (k : ι) : Decidable (s.Senderless agent k) := inferInstanceAs (Decidable (_ ∧ _))

def step (s : State ι κ) : Action ι κ → Option (State ι κ)
  | .register k =>
    match s.forwarder k with
    | .unborn =>
      some { s with
        peers := update s.peers (agent k) (some (regId k, k))
        forwarder := update s.forwarder k .looping
        latest := update s.latest (agent k) (some k) }
    | _ => none
  | .look c =>
    match s.call c with
    | .start =>
      match s.peers (target c) with
      | some (_, k) =>
        some { s with
          holders := update s.holders k (c :: s.holders k)
          call := update s.call c (.holding k) }
      | none => some { s with call := update s.call c (.returned (.error (.notConnected (target c)))) }
    | _ => none
  | .send c =>
    match s.call c with
    | .holding k =>
      if (s.forwarder k).hasEnded then
        some { s with call := update s.call c (.sent k (.error (.notConnected (target c)))) }
      else
        match (s.channel k).trySend c with
        | some channel =>
          some { s with
            channel := update s.channel k channel
            call := update s.call c (.sent k (.ok ())) }
        | none => some { s with call := update s.call c (.sent k (.error (.queueFull (target c)))) }
    | _ => none
  | .drop c =>
    match s.call c with
    | .sent k outcome =>
      some { s with
        holders := update s.holders k ((s.holders k).erase c)
        call := update s.call c (.returned outcome) }
    | _ => none
  | .take k =>
    match s.forwarder k, (s.channel k).recv with
    | .looping, some (c, channel) =>
      some { s with
        channel := update s.channel k channel
        forwarder := update s.forwarder k (.handling c) }
    | _, _ => none
  | .close k =>
    match s.forwarder k with
    | .looping =>
      if (s.channel k).queue = [] ∧ s.Senderless agent k then
        some { s with forwarder := update s.forwarder k (.leaving .closed) }
      else none
    | _ => none
  | .forward k =>
    match s.forwarder k with
    | .handling c =>
      some { s with
        forwarder := update s.forwarder k .looping
        forwarded := update s.forwarded k (s.forwarded k ++ [c]) }
    | _ => none
  | .fail k =>
    match s.forwarder k with
    | .handling c => some { s with forwarder := update s.forwarder k (.leaving (.failed c)) }
    | _ => none
  | .remove k =>
    match s.forwarder k with
    | .leaving e =>
      some { s with
        peers := removeSession s.peers (agent k) (regId k)
        forwarder := update s.forwarder k (.removed e) }
    | _ => none
  | .finish k =>
    match s.forwarder k with
    | .removed e => some { s with forwarder := update s.forwarder k (.ended e) }
    | _ => none

/-! ### What holds of sessions and events -/

structure Sound (s : State ι κ) : Prop where
  entry : ∀ a r k, s.peers a = some (r, k) → r = regId k ∧ agent k = a ∧ s.latest a = some k
  current : ∀ a k, s.latest a = some k → s.peers a = none → (s.forwarder k).hasRemoved = true
  holding : ∀ c k, s.call c = .holding k → c ∈ s.holders k ∧ agent k = target c
  fate : ∀ c k, c ∈ (s.channel k).accepted → agent k = target c ∧ (s.call c).outcome = some (.ok ())
  somewhere : ∀ c, (s.call c).outcome = some (.ok ()) → ∃ k, c ∈ (s.channel k).accepted
  unique : ∀ c k k', c ∈ (s.channel k).accepted → c ∈ (s.channel k').accepted → k = k'
  once : ∀ k, (s.channel k).accepted.Nodup
  closed : ∀ k, (s.forwarder k).exit = some .closed → (s.channel k).queue = [] ∧ s.Senderless agent k
  handed : ∀ k, (s.channel k).taken = s.forwarded k ++ (s.forwarder k).inHand

variable {agent regId target} {s t : State ι κ}

omit [DecidableEq ι] [DecidableEq κ] in
theorem started_sound : Sound agent regId target (started : State ι κ) where
  entry := fun _ _ _ h => nomatch h
  current := fun _ _ h => nomatch h
  holding := fun _ _ h => nomatch h
  fate := fun _ _ h => nomatch h
  somewhere := fun _ h => nomatch h
  unique := fun _ _ _ h => nomatch h
  once := fun _ => List.nodup_nil
  closed := fun _ h => nomatch h
  handed := fun _ => rfl

/-! ### What each step does -/

variable {k : ι} {c : κ} {channel : Channel κ queueCapacity} {old f : Forwarder κ}

theorem register_cases (h : step agent regId target s (.register k) = some t) :
    s.forwarder k = .unborn ∧ t = { s with
      peers := update s.peers (agent k) (some (regId k, k))
      forwarder := update s.forwarder k .looping
      latest := update s.latest (agent k) (some k) } := by
  simp only [step] at h
  split at h
  next hunborn => exact ⟨hunborn, (Option.some.inj h).symm⟩
  next => cases h

theorem look_cases (h : step agent regId target s (.look c) = some t) :
    s.call c = .start ∧
      ((∃ r k, s.peers (target c) = some (r, k) ∧ t = { s with
          holders := update s.holders k (c :: s.holders k)
          call := update s.call c (.holding k) }) ∨
        s.peers (target c) = none ∧
          t = { s with call := update s.call c (.returned (.error (.notConnected (target c)))) }) := by
  simp only [step] at h
  split at h
  next hcall =>
    refine ⟨hcall, ?_⟩
    split at h
    next r k hentry => exact .inl ⟨r, k, hentry, (Option.some.inj h).symm⟩
    next hnone => exact .inr ⟨hnone, (Option.some.inj h).symm⟩
  next => cases h

theorem send_cases (h : step agent regId target s (.send c) = some t) :
    ∃ k, s.call c = .holding k ∧
      ((∃ e, t = { s with call := update s.call c (.sent k (.error e)) }) ∨
        ∃ channel, (s.channel k).trySend c = some channel ∧ t = { s with
          channel := update s.channel k channel
          call := update s.call c (.sent k (.ok ())) }) := by
  simp only [step] at h
  split at h
  next k hcall =>
    refine ⟨k, hcall, ?_⟩
    split at h
    next => exact .inl ⟨_, (Option.some.inj h).symm⟩
    next =>
      split at h
      next channel hsend => exact .inr ⟨channel, hsend, (Option.some.inj h).symm⟩
      next => exact .inl ⟨_, (Option.some.inj h).symm⟩
  next => cases h

theorem drop_cases (h : step agent regId target s (.drop c) = some t) :
    ∃ k outcome, s.call c = .sent k outcome ∧ t = { s with
      holders := update s.holders k ((s.holders k).erase c)
      call := update s.call c (.returned outcome) } := by
  simp only [step] at h
  split at h
  next k outcome hcall => exact ⟨k, outcome, hcall, (Option.some.inj h).symm⟩
  next => cases h

theorem take_cases (h : step agent regId target s (.take k) = some t) :
    ∃ c channel, s.forwarder k = .looping ∧ (s.channel k).recv = some (c, channel) ∧ t = { s with
      channel := update s.channel k channel
      forwarder := update s.forwarder k (.handling c) } := by
  simp only [step] at h
  split at h
  next c channel hlooping hrecv => exact ⟨c, channel, hlooping, hrecv, (Option.some.inj h).symm⟩
  next => cases h

theorem close_cases (h : step agent regId target s (.close k) = some t) :
    s.forwarder k = .looping ∧ ((s.channel k).queue = [] ∧ s.Senderless agent k) ∧
      t = { s with forwarder := update s.forwarder k (.leaving .closed) } := by
  simp only [step] at h
  split at h
  next hlooping =>
    split at h
    next hclosed => exact ⟨hlooping, hclosed, (Option.some.inj h).symm⟩
    next => cases h
  next => cases h

theorem forward_cases (h : step agent regId target s (.forward k) = some t) :
    ∃ c, s.forwarder k = .handling c ∧ t = { s with
      forwarder := update s.forwarder k .looping
      forwarded := update s.forwarded k (s.forwarded k ++ [c]) } := by
  simp only [step] at h
  split at h
  next c hhandling => exact ⟨c, hhandling, (Option.some.inj h).symm⟩
  next => cases h

theorem fail_cases (h : step agent regId target s (.fail k) = some t) :
    ∃ c, s.forwarder k = .handling c ∧
      t = { s with forwarder := update s.forwarder k (.leaving (.failed c)) } := by
  simp only [step] at h
  split at h
  next c hhandling => exact ⟨c, hhandling, (Option.some.inj h).symm⟩
  next => cases h

theorem remove_cases (h : step agent regId target s (.remove k) = some t) :
    ∃ e, s.forwarder k = .leaving e ∧ t = { s with
      peers := removeSession s.peers (agent k) (regId k)
      forwarder := update s.forwarder k (.removed e) } := by
  simp only [step] at h
  split at h
  next e hleaving => exact ⟨e, hleaving, (Option.some.inj h).symm⟩
  next => cases h

theorem finish_cases (h : step agent regId target s (.finish k) = some t) :
    ∃ e, s.forwarder k = .removed e ∧ t = { s with forwarder := update s.forwarder k (.ended e) } := by
  simp only [step] at h
  split at h
  next e hremoved => exact ⟨e, hremoved, (Option.some.inj h).symm⟩
  next => cases h

/-! ### The forwarders -/

section Steps
variable (hs : Sound agent regId target s)
include hs

omit [DecidableEq κ] in
/-- A forwarder moves on, with its channel and what it has passed on. -/
theorem Sound.atSession {forwarded : List κ} (hold : s.forwarder k = old)
    (haccepted : channel.accepted = (s.channel k).accepted) (hremoved : old.hasRemoved = true → f.hasRemoved = true)
    (hclosed : f.exit = some .closed → channel.queue = [] ∧ s.Senderless agent k)
    (hhanded : channel.taken = forwarded ++ f.inHand) :
    Sound agent regId target { s with
      channel := update s.channel k channel
      forwarder := update s.forwarder k f
      forwarded := update s.forwarded k forwarded } := by
  subst hold
  have hsame : ∀ k', (update s.channel k channel k').accepted = (s.channel k').accepted := by
    intro k'
    by_cases hk : k' = k
    · rw [hk, update_self, haccepted]
    · rw [update_of_ne hk]
  refine { hs with current := ?_, fate := ?_, somewhere := ?_, unique := ?_, once := ?_, closed := ?_, handed := ?_ }
  · intro a k' hlatest hnone
    have hold := hs.current a k' hlatest hnone
    by_cases hk : k' = k
    · subst hk
      simpa using hremoved hold
    · simpa [update_of_ne hk] using hold
  · intro c k' hc
    exact hs.fate c k' (hsame k' ▸ hc)
  · intro c hc
    exact (hs.somewhere c hc).imp fun k' hk' => (hsame k').symm ▸ hk'
  · intro c k₁ k₂ h₁ h₂
    exact hs.unique c k₁ k₂ (hsame k₁ ▸ h₁) (hsame k₂ ▸ h₂)
  · intro k'
    exact (hsame k').symm ▸ hs.once k'
  · intro k' hexit
    by_cases hk : k' = k
    · subst hk
      simp only [update_self] at hexit ⊢
      exact hclosed hexit
    · simp only [update_of_ne hk] at hexit ⊢
      exact hs.closed k' hexit
  · intro k'
    by_cases hk : k' = k
    · subst hk
      simpa using hhanded
    · simpa [update_of_ne hk] using hs.handed k'

omit [DecidableEq κ] in
/-- A forwarder moves on, and nothing else. -/
theorem Sound.setForwarder (hold : s.forwarder k = old)
    (hremoved : old.hasRemoved = true → f.hasRemoved = true)
    (hclosed : f.exit = some .closed → (s.channel k).queue = [] ∧ s.Senderless agent k)
    (hinHand : f.inHand = old.inHand) :
    Sound agent regId target { s with forwarder := update s.forwarder k f } := by
  have hhanded : (s.channel k).taken = s.forwarded k ++ f.inHand := by rw [hinHand, ← hold, hs.handed k]
  have hmoved := hs.atSession hold rfl hremoved hclosed hhanded
  rwa [update_eq_self, update_eq_self] at hmoved

omit [DecidableEq ι] [DecidableEq κ] in
/-- A forwarder removes its own entry, and no other. -/
theorem Sound.removeSession (hregId : Injective regId)
    (hremoved : (s.forwarder k).hasRemoved = true) :
    Sound agent regId target { s with peers := removeSession s.peers (agent k) (regId k) } := by
  rw [Sessions.removeSession]
  split
  next current j hentry =>
    split
    next heq =>
      obtain ⟨hreg, -, hlatest⟩ := hs.entry _ _ _ hentry
      obtain rfl : j = k := hregId (hreg.symm.trans heq)
      refine { hs with entry := ?_, current := ?_, closed := ?_ }
      · intro a r k' h
        by_cases ha : a = agent j
        · simp [ha] at h
        · exact hs.entry a r k' (by simpa [update_of_ne ha] using h)
      · intro a k' hlatest' hnone
        by_cases ha : a = agent j
        · rw [ha, hlatest] at hlatest'
          cases hlatest'
          exact hremoved
        · exact hs.current a k' hlatest' (by simpa [update_of_ne ha] using hnone)
      · intro k' hexit
        obtain ⟨hqueue, hholders, hgone⟩ := hs.closed k' hexit
        refine ⟨hqueue, hholders, ?_⟩
        by_cases ha : agent k' = agent j
        · simp [ha]
        · simpa [update_of_ne ha] using hgone
    next => exact hs
  next => exact hs

/-- The new session is the agent's last, whatever was there. -/
theorem register_sound (h : step agent regId target s (.register k) = some t) : Sound agent regId target t := by
  obtain ⟨hunborn, rfl⟩ := register_cases h
  have hborn : Sound agent regId target { s with forwarder := update s.forwarder k .looping } :=
    hs.setForwarder hunborn (fun hremoved => nomatch hremoved) (fun hexit => nomatch hexit) rfl
  refine { hborn with entry := ?_, current := ?_, closed := ?_ }
  · intro a r k' hentry
    by_cases ha : a = agent k
    · subst ha
      obtain ⟨rfl, rfl⟩ : regId k = r ∧ k = k' := by simpa using hentry
      exact ⟨rfl, rfl, by simp⟩
    · simp only [update_of_ne ha] at hentry ⊢
      exact hs.entry a r k' hentry
  · intro a k' hlatest hnone
    by_cases ha : a = agent k
    · simp [ha] at hnone
    · simp only [update_of_ne ha] at hlatest hnone
      exact hborn.current a k' hlatest hnone
  · intro k' hexit
    obtain ⟨hqueue, hholders, hgone⟩ := hborn.closed k' hexit
    have hne : k' ≠ k := by
      intro heq
      simp [heq, Forwarder.exit] at hexit
    refine ⟨hqueue, hholders, ?_⟩
    by_cases ha : agent k' = agent k
    · simpa [ha] using hne.symm
    · simpa [update_of_ne ha] using hgone

/-! ### The calls -/

omit [DecidableEq ι] [DecidableEq κ] in
theorem Sound.not_accepted (h : (s.call c).outcome = none) (k : ι) : c ∉ (s.channel k).accepted := by
  intro hmem
  have hok := (hs.fate c k hmem).2
  rw [h] at hok
  cases hok

omit [DecidableEq ι] in
/-- A call moves on without an event being accepted. -/
theorem Sound.setCall {pc : CallPc ι}
    (houtcome : pc.outcome = some (.ok ()) ↔ (s.call c).outcome = some (.ok ()))
    (hholding : ∀ k, pc = .holding k → c ∈ s.holders k ∧ agent k = target c) :
    Sound agent regId target { s with call := update s.call c pc } := by
  have hok : ∀ c', (update s.call c pc c').outcome = some (.ok ()) ↔ (s.call c').outcome = some (.ok ()) := by
    intro c'
    by_cases hc : c' = c
    · rw [hc, update_self, houtcome]
    · rw [update_of_ne hc]
  refine { hs with holding := ?_, fate := ?_, somewhere := ?_ }
  · intro c' k hcall
    by_cases hc : c' = c
    · subst hc
      exact hholding k (by simpa using hcall)
    · exact hs.holding c' k (by simpa [update_of_ne hc] using hcall)
  · intro c' k hmem
    obtain ⟨hagent, hold⟩ := hs.fate c' k hmem
    exact ⟨hagent, (hok c').mpr hold⟩
  · intro c' hnew
    exact hs.somewhere c' ((hok c').mp hnew)

omit [DecidableEq κ] in
/-- Which calls hold a sender is known, and a channel without senders gets none. -/
theorem Sound.setHolders {holders : List κ} (hholding : ∀ c, s.call c = .holding k → c ∈ holders)
    (hclosed : (s.forwarder k).exit = some .closed → holders = []) :
    Sound agent regId target { s with holders := update s.holders k holders } := by
  refine { hs with holding := ?_, closed := ?_ }
  · intro c k' hcall
    obtain ⟨hmem, hagent⟩ := hs.holding c k' hcall
    refine ⟨?_, hagent⟩
    by_cases hk : k' = k
    · subst hk
      simpa using hholding c hcall
    · simpa [update_of_ne hk] using hmem
  · intro k' hexit
    obtain ⟨hqueue, hholders, hgone⟩ := hs.closed k' hexit
    refine ⟨hqueue, ?_, hgone⟩
    by_cases hk : k' = k
    · subst hk
      simpa using hclosed hexit
    · simpa [update_of_ne hk] using hholders

theorem look_sound (h : step agent regId target s (.look c) = some t) : Sound agent regId target t := by
  obtain ⟨hcall, ⟨r, k, hentry, rfl⟩ | ⟨-, rfl⟩⟩ := look_cases h
  · obtain ⟨-, hagent, -⟩ := hs.entry _ _ _ hentry
    have hheld : Sound agent regId target { s with holders := update s.holders k (c :: s.holders k) } := by
      refine hs.setHolders (fun c' hc' => List.mem_cons_of_mem c (hs.holding c' k hc').1) fun hexit => ?_
      -- a session without senders has no entry
      obtain ⟨-, -, hgone⟩ := hs.closed k hexit
      exact absurd (by rw [hagent, hentry]; rfl) hgone
    refine hheld.setCall (c := c) ?_ ?_
    · simp [CallPc.outcome, hcall]
    · intro k' hk'
      cases hk'
      exact ⟨by simp, hagent⟩
  · refine hs.setCall ?_ fun _ hholding => nomatch hholding
    simp [CallPc.outcome, hcall]

/-- The event is put into the queue of the session whose sender the call holds. -/
theorem accept_sound (hcall : s.call c = .holding k)
    (hsend : (s.channel k).trySend c = some channel) :
    Sound agent regId target { s with
      channel := update s.channel k channel
      call := update s.call c (.sent k (.ok ())) } := by
  obtain ⟨haccepted, htaken⟩ := Channel.trySend_eq_some hsend
  obtain ⟨hholder, hagent⟩ := hs.holding c k hcall
  have hnew : ∀ k', c ∉ (s.channel k').accepted := hs.not_accepted (by rw [hcall]; rfl)
  have hmem : ∀ c' k', c' ∈ (update s.channel k channel k').accepted ↔
      c' ∈ (s.channel k').accepted ∨ c' = c ∧ k' = k := by
    intro c' k'
    by_cases hk : k' = k
    · subst hk
      rw [update_self, haccepted, List.mem_append, List.mem_singleton]
      simp
    · rw [update_of_ne hk]
      simp [hk]
  refine { hs with
    holding := ?_, fate := ?_, somewhere := ?_, unique := ?_, once := ?_, closed := ?_, handed := ?_ }
  · intro c' k' hcall'
    by_cases hc : c' = c
    · simp [hc] at hcall'
    · exact hs.holding c' k' (by simpa [update_of_ne hc] using hcall')
  · intro c' k' hc'
    obtain hold | ⟨rfl, rfl⟩ := (hmem c' k').mp hc'
    · have hne : c' ≠ c := fun heq => hnew k' (heq ▸ hold)
      simpa [update_of_ne hne] using hs.fate c' k' hold
    · exact ⟨hagent, by simp [CallPc.outcome]⟩
  · intro c' hok
    by_cases hc : c' = c
    · exact ⟨k, (hmem c' k).mpr (.inr ⟨hc, rfl⟩)⟩
    · obtain ⟨k', hk'⟩ := hs.somewhere c' (by simpa [update_of_ne hc] using hok)
      exact ⟨k', (hmem c' k').mpr (.inl hk')⟩
  · intro c' k₁ k₂ h₁ h₂
    obtain hold₁ | ⟨hc₁, hk₁⟩ := (hmem c' k₁).mp h₁
    · obtain hold₂ | ⟨hc₂, -⟩ := (hmem c' k₂).mp h₂
      · exact hs.unique c' k₁ k₂ hold₁ hold₂
      · exact absurd (hc₂ ▸ hold₁) (hnew k₁)
    · obtain hold₂ | ⟨-, hk₂⟩ := (hmem c' k₂).mp h₂
      · exact absurd (hc₁ ▸ hold₂) (hnew k₂)
      · rw [hk₁, hk₂]
  · intro k'
    by_cases hk : k' = k
    · subst hk
      show (update s.channel k' channel k').accepted.Nodup
      rw [update_self, haccepted]
      exact List.nodup_append_comm.mp (List.nodup_cons.mpr ⟨hnew k', hs.once k'⟩)
    · simpa [update_of_ne hk] using hs.once k'
  · intro k' hexit
    have hclosed := hs.closed k' hexit
    have hk : k' ≠ k := by
      intro heq
      rw [heq] at hclosed
      rw [hclosed.2.1] at hholder
      cases hholder
    exact ⟨by simpa [update_of_ne hk] using hclosed.1, hclosed.2⟩
  · intro k'
    by_cases hk : k' = k
    · subst hk
      simpa [htaken] using hs.handed k'
    · simpa [update_of_ne hk] using hs.handed k'

theorem send_sound (h : step agent regId target s (.send c) = some t) : Sound agent regId target t := by
  obtain ⟨k, hcall, ⟨e, rfl⟩ | ⟨channel, hsend, rfl⟩⟩ := send_cases h
  · refine hs.setCall ?_ fun _ hholding => nomatch hholding
    simp [CallPc.outcome, hcall]
  · exact accept_sound hs hcall hsend

theorem drop_sound (h : step agent regId target s (.drop c) = some t) : Sound agent regId target t := by
  obtain ⟨k, outcome, hcall, rfl⟩ := drop_cases h
  have hmoved : Sound agent regId target { s with call := update s.call c (.returned outcome) } := by
    refine hs.setCall ?_ fun _ hholding => nomatch hholding
    simp [CallPc.outcome, hcall]
  refine hmoved.setHolders (k := k) (fun c' hc' => ?_) fun hexit => ?_
  · have hne : c' ≠ c := by
      intro heq
      simp [heq] at hc'
    exact (List.mem_erase_of_ne hne).mpr (hmoved.holding c' k hc').1
  · have hnone : s.holders k = [] := (hmoved.closed k hexit).2.1
    rw [hnone]
    rfl

/-! ### Runs -/

theorem take_sound (h : step agent regId target s (.take k) = some t) : Sound agent regId target t := by
  obtain ⟨c, channel, hlooping, hrecv, rfl⟩ := take_cases h
  obtain ⟨haccepted, htaken⟩ := Channel.recv_eq_some hrecv
  have hhanded : channel.taken = s.forwarded k ++ (Forwarder.handling c).inHand := by
    rw [htaken, hs.handed k, hlooping, List.append_assoc]
    rfl
  have hmoved := hs.atSession (f := .handling c) hlooping haccepted (fun hremoved => nomatch hremoved)
    (fun hexit => nomatch hexit) hhanded
  rwa [update_eq_self] at hmoved

theorem forward_sound (h : step agent regId target s (.forward k) = some t) : Sound agent regId target t := by
  obtain ⟨c, hhandling, rfl⟩ := forward_cases h
  have hhanded : (s.channel k).taken = (s.forwarded k ++ [c]) ++ (Forwarder.looping : Forwarder κ).inHand := by
    rw [hs.handed k, hhandling, List.append_assoc]
    rfl
  have hmoved := hs.atSession (f := .looping) hhandling rfl (fun hremoved => nomatch hremoved)
    (fun hexit => nomatch hexit) hhanded
  rwa [update_eq_self] at hmoved

theorem close_sound (h : step agent regId target s (.close k) = some t) : Sound agent regId target t := by
  obtain ⟨hlooping, hclosed, rfl⟩ := close_cases h
  exact hs.setForwarder hlooping (fun hremoved => nomatch hremoved) (fun _ => hclosed) rfl

theorem fail_sound (h : step agent regId target s (.fail k) = some t) : Sound agent regId target t := by
  obtain ⟨c, hhandling, rfl⟩ := fail_cases h
  exact hs.setForwarder hhandling (fun hremoved => nomatch hremoved) (fun hexit => nomatch hexit) rfl

theorem remove_sound (hregId : Injective regId)
    (h : step agent regId target s (.remove k) = some t) : Sound agent regId target t := by
  obtain ⟨e, hleaving, rfl⟩ := remove_cases h
  have hmoved : Sound agent regId target { s with forwarder := update s.forwarder k (.removed e) } :=
    hs.setForwarder hleaving (fun _ => rfl) (fun hexit => hs.closed k (by rw [hleaving]; exact hexit))
      (by cases e <;> rfl)
  exact hmoved.removeSession hregId (by simp [Forwarder.hasRemoved])

theorem finish_sound (h : step agent regId target s (.finish k) = some t) : Sound agent regId target t := by
  obtain ⟨e, hremoved, rfl⟩ := finish_cases h
  exact hs.setForwarder hremoved (fun _ => rfl) (fun hexit => hs.closed k (by rw [hremoved]; exact hexit))
    (by cases e <;> rfl)

end Steps

theorem step_sound (hregId : Injective regId) (s : State ι κ) (a : Action ι κ) (t : State ι κ)
    (hs : Sound agent regId target s) (h : step agent regId target s a = some t) : Sound agent regId target t := by
  cases a with
  | register k => exact register_sound hs h
  | look c => exact look_sound hs h
  | send c => exact send_sound hs h
  | drop c => exact drop_sound hs h
  | take k => exact take_sound hs h
  | close k => exact close_sound hs h
  | forward k => exact forward_sound hs h
  | fail k => exact fail_sound hs h
  | remove k => exact remove_sound hs hregId h
  | finish k => exact finish_sound hs h

omit [DecidableEq ι] [DecidableEq κ] in
/-- The agent's last registration is in the table, or has removed itself. -/
theorem Sound.table (hs : Sound agent regId target s) (a : Uuid) :
    (s.peers a).map (·.2) = s.latest a ∨
      s.peers a = none ∧ ∃ k, s.latest a = some k ∧ (s.forwarder k).hasRemoved = true := by
  cases hpeers : s.peers a with
  | some entry =>
    obtain ⟨r, k⟩ := entry
    exact .inl (hs.entry a r k hpeers).2.2.symm
  | none =>
    cases hlatest : s.latest a with
    | none => exact .inl rfl
    | some k => exact .inr ⟨rfl, k, rfl, hs.current a k hlatest hpeers⟩

/-- The entry that a session finds in its place when it ends, and is not its own, stays. -/
theorem Sound.remove_newer (hregId : Injective regId) (hs : Sound agent regId target s)
    (h : step agent regId target s (.remove k) = some t) (hnewer : s.latest (agent k) ≠ some k) :
    t.peers = s.peers := by
  obtain ⟨e, -, rfl⟩ := remove_cases h
  show Sessions.removeSession s.peers (agent k) (regId k) = s.peers
  rw [Sessions.removeSession]
  split
  next current j hentry =>
    refine if_neg fun heq => hnewer ?_
    obtain ⟨hreg, -, hlatest⟩ := hs.entry _ _ _ hentry
    rw [hlatest, hregId (hreg.symm.trans heq)]
  next => rfl

omit [DecidableEq ι] [DecidableEq κ] in
/-- A forwarder that left its loop without an error has passed everything on. -/
theorem Sound.forwarded_all (hs : Sound agent regId target s) (hexit : (s.forwarder k).exit = some .closed) :
    s.forwarded k = (s.channel k).accepted := by
  have hhanded := hs.handed k
  have hnone : (s.forwarder k).inHand = [] := by
    revert hexit
    cases s.forwarder k with
    | leaving e | removed e | ended e =>
      intro hexit
      cases hexit
      rfl
    | unborn | looping | handling c => exact fun hexit => nomatch hexit
  rw [hnone, List.append_nil, Channel.taken_of_queue_eq_nil (hs.closed k hexit).1] at hhanded
  exact hhanded.symm

/-- **Agent task sessions.** In every run of registrations, calls and forwarders: the table has
each agent's last registration unless that one's forwarder has removed it; a session that ends
leaves the entry of a newer one alone; an event whose call succeeded was put once into the
queue of one session of its agent; and that session's forwarder takes its events in the order
they were accepted and passes each of them on, unless it left its loop on an error. -/
theorem sessions_deliver (agent regId : ι → Uuid) (target : κ → Uuid) (hregId : Injective regId)
    (schedule : List (Action ι κ)) (hrun : run (step agent regId target) started schedule = some s) :
    (∀ a, (s.peers a).map (·.2) = s.latest a ∨
      s.peers a = none ∧ ∃ k, s.latest a = some k ∧ (s.forwarder k).hasRemoved = true) ∧
    (∀ k t, step agent regId target s (.remove k) = some t → s.latest (agent k) ≠ some k → t.peers = s.peers) ∧
    (∀ c, (s.call c).outcome = some (.ok ()) → ∃ k, agent k = target c ∧ (s.channel k).accepted.count c = 1 ∧
      ∀ k', k' ≠ k → c ∉ (s.channel k').accepted) ∧
    ∀ k, (s.channel k).accepted = (s.channel k).taken ++ (s.channel k).queue ∧
      (s.channel k).taken = s.forwarded k ++ (s.forwarder k).inHand ∧
      ((s.forwarder k).exit = some .closed → s.forwarded k = (s.channel k).accepted) := by
  have hs : Sound agent regId target s := run_preserves (step_sound hregId) started_sound hrun
  refine ⟨hs.table, fun k t h hnewer => hs.remove_newer hregId h hnewer, ?_, ?_⟩
  · intro c hok
    obtain ⟨k, hk⟩ := hs.somewhere c hok
    refine ⟨k, (hs.fate c k hk).1, List.count_eq_one_of_mem (hs.once k) hk, fun k' hne hk' => ?_⟩
    exact hne (hs.unique c k' k hk' hk)
  · exact fun k => ⟨(s.channel k).inOrder, hs.handed k, hs.forwarded_all⟩

end Machine

/-- An event that is on its way when the agent registers again. -/
private def reconnecting : List (Action Bool Unit) :=
  [.register false, .look (), .register true, .send (), .drop (), .take false, .forward false, .close false,
    .remove false, .finish false]

/-- The old session passes the event on and ends; the agent's entry is the new one. -/
theorem sessions_deliver_reconnecting :
    ∃ s : State Bool Unit,
      run (step (fun _ => 7) (fun later => BitVec.ofNat 128 later.toNat) fun _ => 7) started reconnecting = some s ∧
      (s.peers 7).map (·.2) = some true ∧ (s.call ()).outcome = some (.ok ()) ∧
      s.forwarded false = (s.channel false).accepted := by
  have hregId : Injective fun later : Bool => BitVec.ofNat 128 later.toNat := by decide +kernel
  have hends : ∃ s : State Bool Unit,
      run (step (fun _ => 7) (fun later => BitVec.ofNat 128 later.toNat) fun _ => 7) started reconnecting = some s ∧
      (s.peers 7).map (·.2) = some true ∧ (s.call ()).outcome = some (.ok ()) ∧
      (s.forwarder false).exit = some .closed := by decide +kernel
  obtain ⟨s, hrun, hpeers, hok, hexit⟩ := hends
  obtain ⟨-, -, -, hforwarders⟩ := sessions_deliver _ _ _ hregId reconnecting hrun
  exact ⟨s, hrun, hpeers, hok, (hforwarders false).2.2 hexit⟩

end Sessions

end NodeGet.Task
