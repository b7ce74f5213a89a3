import NodeGet.Task.Sessions

/-! Sessions whose subscription has been closed (`ng-task/src/rpc/mod.rs`: `register_task`,
`is_connected`, `send_event`).

A forwarder waits for events and looks at its sink only to send one. When the agent closes its
subscription while no event is on its way, the forwarder goes on waiting: the entry in the table
keeps a sender of its channel, so the channel never closes. The agent counts as connected, and
the next event is accepted. `connected_iff` says when a session at rest is in the table: as long
as it has passed on every event it accepted. -/
namespace NodeGet.Task.ClosedSink
open NodeGet.Core NodeGet.Machine Sessions Function

/-- The sessions, and which of their sinks are closed. -/
structure State (ι κ : Type) where
  sessions : Sessions.State ι κ
  closed : ι → Bool

def started {ι κ : Type} : State ι κ := ⟨Sessions.started, fun _ => false⟩

inductive Action (ι κ : Type) where
  | session (a : Sessions.Action ι κ)
  | closeSink (k : ι)

/-- `is_connected` -/
def isConnected {ι κ : Type} (s : Sessions.State ι κ) (uuid : Uuid) : Bool := (s.peers uuid).isSome

section Machine
variable {ι κ : Type} [DecidableEq ι] [DecidableEq κ] (agent regId : ι → Uuid) (target : κ → Uuid)

/-- A closed sink takes no event: the forwarder that tries to send fails. -/
def step (s : State ι κ) : Action ι κ → Option (State ι κ)
  | .closeSink k => some { s with closed := update s.closed k true }
  | .session (.forward k) =>
    if s.closed k then none
    else (Sessions.step agent regId target s.sessions (.forward k)).map fun sessions => { s with sessions }
  | .session a => (Sessions.step agent regId target s.sessions a).map fun sessions => { s with sessions }

/-- The steps of a session's forwarder. -/
def forwarderActions (k : ι) : List (Sessions.Action ι κ) :=
  [.take k, .close k, .forward k, .fail k, .remove k, .finish k]

/-- No forwarder has a step to take. -/
def Quiet (s : State ι κ) : Prop :=
  ∀ k, ∀ a ∈ forwarderActions k, step agent regId target s (.session a) = none

instance [Fintype ι] (s : State ι κ) : Decidable (Quiet agent regId target s) :=
  inferInstanceAs (Decidable (∀ k, ∀ a ∈ forwarderActions k, step agent regId target s (.session a) = none))

instance (pc : CallPc ι) : Decidable (pc = .start) :=
  match pc with
  | .start => isTrue rfl
  | .holding _ => isFalse (by simp)
  | .sent _ _ => isFalse (by simp)
  | .returned _ => isFalse (by simp)

/-- A forwarder that has begun and not yet gone to the table to remove its entry. -/
def atWork : Forwarder κ → Bool
  | .looping | .handling _ | .leaving _ => true
  | .unborn | .removed _ | .ended _ => false

/-! ### What holds of the last registration -/

structure Kept (s : Sessions.State ι κ) : Prop where
  own : ∀ a k, s.latest a = some k → agent k = a
  notClosed : ∀ a k, s.latest a = some k → (s.forwarder k).exit ≠ some .closed
  present : ∀ a r k, s.peers a = some (r, k) → atWork (s.forwarder k) = true

variable {agent regId target} {s t : Sessions.State ι κ}

omit [DecidableEq ι] [DecidableEq κ] in
theorem started_kept : Kept agent (Sessions.started : Sessions.State ι κ) where
  own a k h := by cases h
  notClosed a k h := by cases h
  present a r k h := by cases h

variable {k : ι} {a b : Sessions.Action ι κ} {c c' : κ} {x y : State ι κ}

omit [DecidableEq ι] in
/-- What is left in the table after a removal was there, and is not the removed session's. -/
theorem removeSession_eq_some {peers : Uuid → Option (Uuid × ι)} {uuid reg a r : Uuid} {j : ι}
    (h : removeSession peers uuid reg a = some (r, j)) : peers a = some (r, j) ∧ ¬ (a = uuid ∧ r = reg) := by
  cases hentry : peers uuid with
  | none =>
    simp only [removeSession, hentry] at h
    refine ⟨h, fun hboth => ?_⟩
    rw [hboth.1, hentry] at h
    cases h
  | some entry =>
    obtain ⟨current, k⟩ := entry
    simp only [removeSession, hentry] at h
    split at h
    next heq =>
      by_cases ha : a = uuid
      · rw [ha, update_self] at h
        cases h
      · rw [update_of_ne ha] at h
        exact ⟨h, fun hboth => ha hboth.1⟩
    next hne =>
      refine ⟨h, fun hboth => hne ?_⟩
      rw [hboth.1, hentry, Option.some.injEq] at h
      exact (congrArg Prod.fst h).trans hboth.2

/-- A call does not touch the table or a forwarder. -/
theorem call_frame (ha : a = .look c ∨ a = .send c ∨ a = .drop c) (h : Sessions.step agent regId target s a = some t) :
    t.peers = s.peers ∧ t.forwarder = s.forwarder ∧ t.latest = s.latest := by
  rcases ha with rfl | rfl | rfl
  · obtain ⟨-, ⟨r, k, -, rfl⟩ | ⟨-, rfl⟩⟩ := look_cases h
    · exact ⟨rfl, rfl, rfl⟩
    · exact ⟨rfl, rfl, rfl⟩
  · obtain ⟨k, -, ⟨e, rfl⟩ | ⟨channel, -, rfl⟩⟩ := send_cases h
    · exact ⟨rfl, rfl, rfl⟩
    · exact ⟨rfl, rfl, rfl⟩
  · obtain ⟨k, outcome, -, rfl⟩ := drop_cases h
    exact ⟨rfl, rfl, rfl⟩

section Kept
variable (hs : Kept agent s)
include hs

omit [DecidableEq κ] in
/-- A forwarder moves on; it is not one that has just removed its entry, and one that found its
channel closed is not of a last registration. -/
theorem Kept.setForwarder {f : Forwarder κ}
    (hclosed : f.exit = some .closed → (s.forwarder k).exit = some .closed ∨ s.latest (agent k) ≠ some k)
    (hatWork : atWork (s.forwarder k) = true → atWork f = true) :
    Kept agent { s with forwarder := update s.forwarder k f } where
  own := hs.own
  notClosed a j hlatest := by
    by_cases hj : j = k
    · subst hj
      simp only [update_self]
      intro hexit
      rcases hclosed hexit with hold | hne
      · exact hs.notClosed a j hlatest hold
      · exact hne ((hs.own a j hlatest).symm ▸ hlatest)
    · simpa only [update_of_ne hj] using hs.notClosed a j hlatest
  present a r j hentry := by
    have hold := hs.present a r j hentry
    by_cases hj : j = k
    · subst hj
      simpa only [update_self] using hatWork hold
    · simpa only [update_of_ne hj] using hold

theorem register_kept (h : Sessions.step agent regId target s (.register k) = some t) : Kept agent t := by
  obtain ⟨-, rfl⟩ := register_cases h
  have hborn : Kept agent { s with forwarder := update s.forwarder k .looping } :=
    hs.setForwarder (fun hexit => by simp [Forwarder.exit] at hexit) fun _ => rfl
  refine ⟨fun a j hlatest => ?_, fun a j hlatest => ?_, fun a r j hentry => ?_⟩
  · by_cases ha : a = agent k
    · subst ha
      obtain rfl : k = j := by simpa using hlatest
      rfl
    · exact hs.own a j (by simpa [update_of_ne ha] using hlatest)
  · by_cases ha : a = agent k
    · subst ha
      obtain rfl : k = j := by simpa using hlatest
      simp [Forwarder.exit]
    · exact hborn.notClosed a j (by simpa [update_of_ne ha] using hlatest)
  · by_cases ha : a = agent k
    · subst ha
      obtain ⟨-, rfl⟩ : regId k = r ∧ k = j := by simpa using hentry
      simp [atWork]
    · exact hborn.present a r j (by simpa [update_of_ne ha] using hentry)

theorem close_kept (hsound : Sound agent regId target s)
    (h : Sessions.step agent regId target s (.close k) = some t) : Kept agent t := by
  obtain ⟨hlooping, ⟨-, -, hgone⟩, rfl⟩ := close_cases h
  refine hs.setForwarder (fun _ => .inr fun hlatest => ?_) fun _ => rfl
  -- a last registration that has not removed itself is in the table, and so has a sender
  rcases hsound.table (agent k) with htable | ⟨-, j, hj, hremoved⟩
  · exact hgone (htable.trans hlatest)
  · rw [hlatest, Option.some.injEq] at hj
    rw [← hj, hlooping] at hremoved
    cases hremoved

theorem remove_kept (hsound : Sound agent regId target s)
    (h : Sessions.step agent regId target s (.remove k) = some t) : Kept agent t := by
  obtain ⟨e, hleaving, rfl⟩ := remove_cases h
  refine ⟨hs.own, fun a j hlatest => ?_, fun a r j hentry => ?_⟩
  · by_cases hj : j = k
    · subst hj
      have hold := hs.notClosed a j hlatest
      rw [hleaving] at hold
      simpa only [update_self, Forwarder.exit] using hold
    · simpa only [update_of_ne hj] using hs.notClosed a j hlatest
  · obtain ⟨hold, hother⟩ := removeSession_eq_some hentry
    have hj : j ≠ k := by
      intro heq
      obtain ⟨hreg, hagent, -⟩ := hsound.entry a r j hold
      rw [heq] at hreg hagent
      exact hother ⟨hagent.symm, hreg⟩
    simpa only [update_of_ne hj] using hs.present a r j hold

/-- A step of a forwarder in its loop. -/
theorem loop_kept (ha : a = .take k ∨ a = .forward k ∨ a = .fail k)
    (h : Sessions.step agent regId target s a = some t) : Kept agent t := by
  have hmove : ∀ f : Forwarder κ, f.exit ≠ some .closed → atWork f = true →
      Kept agent { s with forwarder := update s.forwarder k f } :=
    fun f hexit hatWork => hs.setForwarder (fun hclosed => absurd hclosed hexit) fun _ => hatWork
  rcases ha with rfl | rfl | rfl
  · obtain ⟨c, channel, -, -, rfl⟩ := take_cases h
    obtain ⟨hown, hnotClosed, hpresent⟩ := hmove (.handling c) (by simp [Forwarder.exit]) rfl
    exact ⟨hown, hnotClosed, hpresent⟩
  · obtain ⟨c, -, rfl⟩ := forward_cases h
    obtain ⟨hown, hnotClosed, hpresent⟩ := hmove .looping (by simp [Forwarder.exit]) rfl
    exact ⟨hown, hnotClosed, hpresent⟩
  · obtain ⟨c, -, rfl⟩ := fail_cases h
    exact hmove (.leaving (.failed c)) (by simp [Forwarder.exit]) rfl

theorem finish_kept (h : Sessions.step agent regId target s (.finish k) = some t) : Kept agent t := by
  obtain ⟨e, hremoved, rfl⟩ := finish_cases h
  refine hs.setForwarder (fun hexit => .inl ?_) fun hatWork => ?_
  · rw [hremoved]
    exact hexit
  · rw [hremoved] at hatWork
    cases hatWork

theorem call_kept (ha : a = .look c ∨ a = .send c ∨ a = .drop c) (h : Sessions.step agent regId target s a = some t) :
    Kept agent t := by
  obtain ⟨hpeers, hforwarder, hlatest⟩ := call_frame ha h
  refine ⟨?_, ?_, ?_⟩
  · rw [hlatest]
    exact hs.own
  · rw [hlatest, hforwarder]
    exact hs.notClosed
  · rw [hpeers, hforwarder]
    exact hs.present

theorem session_kept (hsound : Sound agent regId target s) (h : Sessions.step agent regId target s a = some t) :
    Kept agent t := by
  cases a with
  | register k => exact register_kept hs h
  | look c => exact call_kept hs (.inl rfl) h
  | send c => exact call_kept hs (.inr (.inl rfl)) h
  | drop c => exact call_kept hs (.inr (.inr rfl)) h
  | take k => exact loop_kept hs (.inl rfl) h
  | close k => exact close_kept hs hsound h
  | forward k => exact loop_kept hs (.inr (.inl rfl)) h
  | fail k => exact loop_kept hs (.inr (.inr rfl)) h
  | remove k => exact remove_kept hs hsound h
  | finish k => exact finish_kept hs h

end Kept

/-! ### Runs -/

/-- A step is one of the sessions, or leaves them alone. -/
theorem step_session {a : Action ι κ} (h : step agent regId target x a = some y) :
    y.sessions = x.sessions ∨
      ∃ b, a = .session b ∧ Sessions.step agent regId target x.sessions b = some y.sessions := by
  unfold step at h
  split at h
  · cases h
    exact .inl rfl
  · split at h
    · cases h
    · obtain ⟨sessions, hstep, rfl⟩ := Option.map_eq_some_iff.mp h
      exact .inr ⟨_, rfl, hstep⟩
  · obtain ⟨sessions, hstep, rfl⟩ := Option.map_eq_some_iff.mp h
    exact .inr ⟨_, rfl, hstep⟩

theorem run_sound (hregId : Injective regId) {schedule : List (Action ι κ)}
    (hrun : run (step agent regId target) started schedule = some x) :
    Sound agent regId target x.sessions ∧ Kept agent x.sessions := by
  refine run_preserves (P := fun x => Sound agent regId target x.sessions ∧ Kept agent x.sessions)
    (fun x a y hx h => ?_) ⟨started_sound, started_kept⟩ hrun
  obtain ⟨hsound, hkept⟩ := hx
  rcases step_session h with hsame | ⟨b, -, hstep⟩
  · rw [hsame]
    exact ⟨hsound, hkept⟩
  · exact ⟨Sessions.step_sound hregId _ _ _ hsound hstep, session_kept hkept hsound hstep⟩

/-! ### Sessions at rest -/

/-- A forwarder without a step to take has not begun, waits at an empty queue, or has ended. -/
theorem Quiet.forwarder (h : Quiet agent regId target x) (k : ι) :
    x.sessions.forwarder k = .unborn ∨
      x.sessions.forwarder k = .looping ∧ (x.sessions.channel k).queue = [] ∨
      ∃ e, x.sessions.forwarder k = .ended e := by
  have hnone : ∀ a ∈ forwarderActions k, step agent regId target x (.session a) = none := h k
  cases hf : x.sessions.forwarder k with
  | unborn => exact .inl rfl
  | looping =>
    refine .inr (.inl ⟨rfl, ?_⟩)
    have htake := hnone (.take k) (by simp [forwarderActions])
    simp only [step, Sessions.step, hf, Option.map_eq_none_iff] at htake
    cases hqueue : (x.sessions.channel k).queue with
    | nil => rfl
    | cons c rest =>
      obtain ⟨channel, hrecv⟩ := Channel.recv_of_queue_eq_cons hqueue
      rw [hrecv] at htake
      cases htake
  | handling c =>
    have hfail := hnone (.fail k) (by simp [forwarderActions])
    simp [step, Sessions.step, hf] at hfail
  | leaving e =>
    have hremove := hnone (.remove k) (by simp [forwarderActions])
    simp [step, Sessions.step, hf] at hremove
  | removed e =>
    have hfinish := hnone (.finish k) (by simp [forwarderActions])
    simp [step, Sessions.step, hf] at hfinish
  | ended e => exact .inr (.inr ⟨e, rfl⟩)

omit [DecidableEq ι] [DecidableEq κ] in
/-- A forwarder that left its loop on an error has not passed on everything it accepted. -/
theorem failed_not_all (hs : Sound agent regId target s) (hremoved : (s.forwarder k).hasRemoved = true)
    (hexit : (s.forwarder k).exit ≠ some .closed) : s.forwarded k ≠ (s.channel k).accepted := by
  have hhand : ∃ c, (s.forwarder k).inHand = [c] := by
    cases hf : s.forwarder k with
    | unborn | looping | handling c | leaving e =>
      rw [hf] at hremoved
      cases hremoved
    | removed e | ended e =>
      cases e with
      | closed =>
        rw [hf] at hexit
        exact absurd rfl hexit
      | failed c => exact ⟨c, rfl⟩
  obtain ⟨c, hc⟩ := hhand
  intro hall
  have horder := (s.channel k).inOrder
  rw [hs.handed k, hc, ← hall, List.append_assoc] at horder
  simp at horder

/-- An agent counts as connected, at rest, exactly when its last session has passed on every
event it accepted. -/
theorem connected_iff (hsound : Sound agent regId target x.sessions) (hkept : Kept agent x.sessions)
    (hquiet : Quiet agent regId target x) (a : Uuid) :
    isConnected x.sessions a = true ↔
      ∃ k, x.sessions.latest a = some k ∧ x.sessions.forwarded k = (x.sessions.channel k).accepted := by
  constructor
  · intro hconnected
    obtain ⟨entry, hentry⟩ := Option.isSome_iff_exists.mp hconnected
    obtain ⟨r, k⟩ := entry
    obtain ⟨-, -, hlatest⟩ := hsound.entry a r k hentry
    refine ⟨k, hlatest, ?_⟩
    have hatWork := hkept.present a r k hentry
    rcases hquiet.forwarder k with hf | ⟨hf, hqueue⟩ | ⟨e, hf⟩
    · rw [hf] at hatWork
      cases hatWork
    · have hhanded := hsound.handed k
      rw [hf, Forwarder.inHand, List.append_nil, Channel.taken_of_queue_eq_nil hqueue] at hhanded
      exact hhanded.symm
    · rw [hf] at hatWork
      cases hatWork
  · intro hlast
    obtain ⟨k, hlatest, hall⟩ := hlast
    rcases hsound.table a with htable | ⟨-, j, hj, hremoved⟩
    · rw [hlatest] at htable
      exact Option.isSome_iff_exists.mpr ((Option.map_eq_some_iff.mp htable).imp fun _ h => h.1)
    · rw [hlatest, Option.some.injEq] at hj
      subst hj
      -- it left its loop with an event in hand, which it has taken and not passed on
      exact absurd hall (failed_not_all hsound hremoved (hkept.notClosed a k hlatest))

/-! ### Calls for an agent that is not in the table -/

/-- A forwarder's step adds no entry and leaves the calls alone. -/
theorem forwarder_frame (hb : b ∈ forwarderActions k) (h : Sessions.step agent regId target s b = some t) :
    (∀ a, s.peers a = none → t.peers a = none) ∧ t.call = s.call := by
  simp only [forwarderActions, List.mem_cons, List.not_mem_nil, or_false] at hb
  rcases hb with rfl | rfl | rfl | rfl | rfl | rfl
  · obtain ⟨c, channel, -, -, rfl⟩ := take_cases h
    exact ⟨fun _ hnone => hnone, rfl⟩
  · obtain ⟨-, -, rfl⟩ := close_cases h
    exact ⟨fun _ hnone => hnone, rfl⟩
  · obtain ⟨c, -, rfl⟩ := forward_cases h
    exact ⟨fun _ hnone => hnone, rfl⟩
  · obtain ⟨c, -, rfl⟩ := fail_cases h
    exact ⟨fun _ hnone => hnone, rfl⟩
  · obtain ⟨e, -, rfl⟩ := remove_cases h
    refine ⟨fun a hnone => ?_, rfl⟩
    cases hentry : removeSession s.peers (agent k) (regId k) a with
    | none => exact hentry
    | some entry =>
      obtain ⟨hold, -⟩ := removeSession_eq_some hentry
      rw [hnone] at hold
      cases hold
  · obtain ⟨e, -, rfl⟩ := finish_cases h
    exact ⟨fun _ hnone => hnone, rfl⟩

/-- The agent has no entry, and the call has found that out or is still to look. -/
structure Absent (a : Uuid) (c : κ) (s : Sessions.State ι κ) : Prop where
  entry : s.peers a = none
  call : s.call c = .start ∨ s.call c = .returned (.error (.notConnected a))

section Absent
variable {a : Uuid} (hs : Absent a c s)
include hs

omit [DecidableEq ι] [DecidableEq κ] in
theorem Absent.not_ok : (s.call c).outcome ≠ some (.ok ()) := by
  rcases hs.call with hcall | hcall
  · simp [hcall, CallPc.outcome]
  · simp [hcall, CallPc.outcome]

omit [DecidableEq ι] in
/-- Another call moves on. -/
theorem Absent.setCall (hne : c' ≠ c) (pc : CallPc ι) :
    update s.call c' pc c = .start ∨
      update s.call c' pc c = .returned (.error (.notConnected a)) := by
  rw [update_of_ne hne.symm]
  exact hs.call

theorem look_absent (htarget : target c = a) (h : Sessions.step agent regId target s (.look c') = some t) :
    Absent a c t := by
  obtain ⟨-, ⟨r, k, hentry, rfl⟩ | ⟨-, rfl⟩⟩ := look_cases h
  · have hc : c' ≠ c := by
      intro heq
      rw [heq, htarget, hs.entry] at hentry
      cases hentry
    exact ⟨hs.entry, hs.setCall hc _⟩
  · refine ⟨hs.entry, ?_⟩
    by_cases hc : c' = c
    · rw [hc, htarget]
      exact .inr (update_self ..)
    · exact hs.setCall hc _

theorem send_absent (h : Sessions.step agent regId target s (.send c') = some t) : Absent a c t := by
  obtain ⟨k, hholding, hsent⟩ := send_cases h
  have hc : c' ≠ c := by
    intro heq
    rw [heq] at hholding
    simpa [hholding] using hs.call
  rcases hsent with ⟨e, rfl⟩ | ⟨channel, -, rfl⟩
  · exact ⟨hs.entry, hs.setCall hc _⟩
  · exact ⟨hs.entry, hs.setCall hc _⟩

theorem drop_absent (h : Sessions.step agent regId target s (.drop c') = some t) : Absent a c t := by
  obtain ⟨k, outcome, hsent, rfl⟩ := drop_cases h
  have hc : c' ≠ c := by
    intro heq
    rw [heq] at hsent
    simpa [hsent] using hs.call
  exact ⟨hs.entry, hs.setCall hc _⟩

theorem forwarder_absent (hb : b ∈ forwarderActions k) (h : Sessions.step agent regId target s b = some t) :
    Absent a c t := by
  obtain ⟨hpeers, hcall⟩ := forwarder_frame hb h
  exact ⟨hpeers a hs.entry, hcall ▸ hs.call⟩

/-- As long as the agent does not register, its calls find no session. -/
theorem session_absent (htarget : target c = a) (hother : ∀ k, b = .register k → agent k ≠ a)
    (h : Sessions.step agent regId target s b = some t) : Absent a c t := by
  cases b with
  | register k =>
    obtain ⟨-, rfl⟩ := register_cases h
    exact ⟨(update_of_ne (hother k rfl).symm ..).trans hs.entry, hs.call⟩
  | look c' => exact look_absent hs htarget h
  | send c' => exact send_absent hs h
  | drop c' => exact drop_absent hs h
  | take k | close k | forward k | fail k | remove k | finish k =>
    exact forwarder_absent (k := k) hs (by simp [forwarderActions]) h

end Absent

theorem run_absent {a : Uuid} {more : List (Action ι κ)} (htarget : target c = a) (hs : Absent a c x.sessions)
    (hother : ∀ k, .session (.register k) ∈ more → agent k ≠ a) (hrun : run (step agent regId target) x more = some y) :
    Absent a c y.sessions := by
  have hactions : ∀ b ∈ more, ∀ k, b = .session (.register k) → agent k ≠ a := by
    intro b hb k hk
    exact hother k (hk ▸ hb)
  refine run_invariant (P := fun x => Absent a c x.sessions)
    (G := fun _ b => ∀ k, b = Action.session (.register k) → agent k ≠ a) (fun x b y hx hG h => ?_) hs
    (.of_mem hactions) hrun
  rcases step_session h with hsame | ⟨b, rfl, hstep⟩
  · rw [hsame]
    exact hx
  · exact session_absent hx htarget (fun k hk => hG k (hk ▸ rfl)) hstep

/-! ### Closed subscriptions -/

/-- **Closed subscriptions.** In every run of registrations, closed sinks, calls and forwarders
that leaves no forwarder with a step to take: every agent that counts as connected has a
session whose sink is open, exactly when every last session with a closed sink has accepted an
event that it could not pass on. Such a session is gone from the table, and no call that
begins later is answered with success until the agent registers again. -/
theorem connected_while_open (agent regId : ι → Uuid) (target : κ → Uuid) (hregId : Injective regId)
    (schedule : List (Action ι κ)) {x : State ι κ}
    (hrun : run (step agent regId target) started schedule = some x) (hquiet : Quiet agent regId target x) :
    ((∀ a, isConnected x.sessions a = true → ∃ r k, x.sessions.peers a = some (r, k) ∧ x.closed k = false) ↔
      ∀ a k, x.sessions.latest a = some k → x.closed k = true →
        x.sessions.forwarded k ≠ (x.sessions.channel k).accepted) ∧
    ∀ a k, x.sessions.latest a = some k → x.closed k = true →
      x.sessions.forwarded k ≠ (x.sessions.channel k).accepted →
      ∀ more y, (∀ j, .session (.register j) ∈ more → agent j ≠ a) →
        run (step agent regId target) x more = some y →
        ∀ c, target c = a → x.sessions.call c = .start → (y.sessions.call c).outcome ≠ some (.ok ()) := by
  obtain ⟨hsound, hkept⟩ := run_sound hregId hrun
  refine ⟨⟨fun hopen a k hlatest hclosed hall => ?_, fun hheld a hconnected => ?_⟩, ?_⟩
  · obtain ⟨r, j, hentry, hj⟩ := hopen a ((connected_iff hsound hkept hquiet a).mpr ⟨k, hlatest, hall⟩)
    obtain ⟨-, -, hlast⟩ := hsound.entry a r j hentry
    rw [hlatest, Option.some.injEq] at hlast
    rw [hlast, hj] at hclosed
    cases hclosed
  · obtain ⟨entry, hentry⟩ := Option.isSome_iff_exists.mp hconnected
    obtain ⟨r, k⟩ := entry
    refine ⟨r, k, hentry, ?_⟩
    obtain ⟨j, hlatest, hall⟩ := (connected_iff hsound hkept hquiet a).mp hconnected
    obtain ⟨-, -, hlast⟩ := hsound.entry a r k hentry
    rw [hlast, Option.some.injEq] at hlatest
    by_contra hclosed
    rw [← hlatest] at hall
    exact hheld a k hlast (Bool.eq_true_of_not_eq_false hclosed) hall
  · intro a k hlatest hclosed hheld more y hother hmore c htarget hcall
    have hnone : x.sessions.peers a = none := by
      by_contra hsome
      have hconnected : isConnected x.sessions a = true := Option.isSome_iff_ne_none.mpr hsome
      obtain ⟨j, hj, hall⟩ := (connected_iff hsound hkept hquiet a).mp hconnected
      rw [hlatest, Option.some.injEq] at hj
      exact hheld (hj ▸ hall)
    exact (run_absent htarget ⟨hnone, .inl hcall⟩ hother hmore).not_ok

end Machine

/-- The agent closes its subscription while an event waits in the queue. -/
private def closedBeforeEvent : List (Action Unit Bool) :=
  [.session (.register ()), .session (.look false), .session (.send false), .closeSink (), .session (.drop false),
    .session (.take ()), .session (.fail ()), .session (.remove ()), .session (.finish ())]

/-- The forwarder finds out, and a second call is told that the agent is not connected. -/
theorem connected_while_open_failed :
    ∃ x : State Unit Bool,
      run (step (fun _ => 7) (fun _ => 1) fun _ => 7) started closedBeforeEvent = some x ∧
      isConnected x.sessions 7 = false ∧
      ∀ y, run (step (fun _ => 7) (fun _ => 1) fun _ => 7) x [.session (.look true)] = some y →
        (y.sessions.call true).outcome ≠ some (.ok ()) := by
  have hends : ∃ x : State Unit Bool,
      run (step (fun _ => 7) (fun _ => 1) fun _ => 7) started closedBeforeEvent = some x ∧
      Quiet (fun _ => 7) (fun _ => 1) (fun _ => 7) x ∧ isConnected x.sessions 7 = false ∧
      x.sessions.latest 7 = some () ∧ x.closed () = true ∧
      x.sessions.forwarded () ≠ (x.sessions.channel ()).accepted ∧ x.sessions.call true = .start := by decide +kernel
  obtain ⟨x, hrun, hquiet, hgone, hlatest, hclosed, hheld, hstart⟩ := hends
  refine ⟨x, hrun, hgone, fun y hmore => ?_⟩
  obtain ⟨-, hcalls⟩ := connected_while_open (fun _ => 7) (fun _ => 1) (fun _ => 7)
    (Function.injective_of_subsingleton _) closedBeforeEvent hrun hquiet
  exact hcalls 7 () hlatest hclosed hheld [.session (.look true)] y (by simp) hmore true rfl hstart

/-- A subscription that is closed while no event is on its way: the agent goes on counting as
connected when nothing is left to do, and an event for it is accepted. -/
theorem closed_session_connected :
    ∃ x : State Unit Unit,
      run (step (fun _ => 7) (fun _ => 1) fun _ => 7) started [.session (.register ()), .closeSink ()] = some x ∧
      Quiet (fun _ => 7) (fun _ => 1) (fun _ => 7) x ∧ x.closed () = true ∧ isConnected x.sessions 7 = true ∧
      ∃ y, run (step (fun _ => 7) (fun _ => 1) fun _ => 7) x
          [.session (.look ()), .session (.send ()), .session (.drop ())] = some y ∧
        (y.sessions.call ()).outcome = some (.ok ()) := by
  decide +kernel

end NodeGet.Task.ClosedSink
