import Mathlib.Data.Fintype.Prod
import NodeGet.Core.Uuid
import NodeGet.Machine.Run

/-! The terminal relay (`ng-terminal/src/terminal.rs`): who enters, uses and removes
the sessions.

An agent's connection enters its channels under its key, if the key is free. A user's
connection finds the entry under its key and takes the receiver out of it, if nobody
has. Each side then serves until one of its two tasks ends: its own socket is down,
or the other side is gone. At the end either side removes whatever stands under its
key. An entry is known by the agent's connection that made it. -/
namespace NodeGet.Terminal
open NodeGet.Core NodeGet.Machine Function

structure TerminalSessionKey where
  agentUuid : Uuid
  terminalId : Uuid
deriving DecidableEq

inductive Role where
  | agent
  | user
deriving DecidableEq

/-! ### State -/

/-- An entry: the connection whose channels it holds, and whether `rx_from_agent` is
still in it. -/
structure SessionSlots (ι : Type) where
  agent : ι
  rxFromAgent : Bool
deriving DecidableEq

/-- `entry` is the entry the connection made or attached to. -/
inductive Phase (ι : Type) where
  | connecting
  | rejected
  | serving (entry : ι)
  /-- A task has ended, the clean-up is to come. -/
  | left (entry : ι)
  | closed
deriving DecidableEq

namespace Phase
variable {ι : Type}

def isServing : Phase ι → Bool
  | serving _ => true
  | _ => false

/-- The entry of a connection whose clean-up is to come. -/
def entry : Phase ι → Option ι
  | serving e | left e => some e
  | connecting | rejected | closed => none

end Phase

structure State (ι : Type) where
  sessions : TerminalSessionKey → Option (SessionSlots ι)
  phase : ι → Phase ι
  /-- The socket is up. -/
  connected : ι → Bool
  /-- The user's connection that took an agent's receiver. -/
  user : ι → Option ι

def started {ι : Type} : State ι where
  sessions := fun _ => none
  phase := fun _ => .connecting
  connected := fun _ => true
  user := fun _ => none

inductive Action (ι : Type) where
  /-- The token, the permission or the agent's identifier is refused. -/
  | reject (c : ι)
  | enter (c : ι)
  | disconnect (c : ι)
  | leave (c : ι)
  | cleanUp (c : ι)
deriving DecidableEq

section Machine
variable {ι : Type} [DecidableEq ι] (role : ι → Role) (key : ι → TerminalSessionKey)

def State.goto (s : State ι) (c : ι) (phase : Phase ι) : State ι :=
  { s with phase := update s.phase c phase }

def State.setSlots (s : State ι) (k : TerminalSessionKey) (slots : Option (SessionSlots ι)) : State ι :=
  { s with sessions := update s.sessions k slots }

/-- `handle_agent`: the key is taken only when it is vacant. -/
def handleAgent (s : State ι) (c : ι) : State ι :=
  match s.sessions (key c) with
  | some _ => s.goto c .rejected
  | none => (s.setSlots (key c) (some ⟨c, true⟩)).goto c (.serving c)

/-- `handle_user`: `Got`, `AlreadyAttached` or `NotFound`. -/
def handleUser (s : State ι) (c : ι) : State ι :=
  match s.sessions (key c) with
  | some slots =>
    if slots.rxFromAgent then
      { (s.setSlots (key c) (some { slots with rxFromAgent := false })).goto c (.serving slots.agent) with
        user := update s.user slots.agent (some c) }
    else s.goto c .rejected
  | none => s.goto c .rejected

/-- The ends of an agent's channels are with a user's tasks, or still in the table. -/
def State.linked (s : State ι) (c : ι) : Bool :=
  s.sessions (key c) = some ⟨c, true⟩ || (s.user c).any fun d => (s.phase d).isServing

/-- One of the two tasks may end. -/
def State.mayLeave (s : State ι) (c entry : ι) : Bool :=
  !s.connected c || !(match role c with
    | .agent => s.linked key c
    | .user => (s.phase entry).isServing)

def step (s : State ι) : Action ι → Option (State ι)
  | .reject c =>
    match s.phase c with
    | .connecting => some (s.goto c .rejected)
    | _ => none
  | .enter c =>
    match s.phase c with
    | .connecting =>
      match role c with
      | .agent => some (handleAgent key s c)
      | .user => some (handleUser key s c)
    | _ => none
  | .disconnect c => some { s with connected := update s.connected c false }
  | .leave c =>
    match s.phase c with
    | .serving entry => if s.mayLeave role key c entry then some (s.goto c (.left entry)) else none
    | _ => none
  | .cleanUp c =>
    match s.phase c with
    | .left _ => some ((s.setSlots (key c) none).goto c .closed)
    | _ => none

/-! ### Whose entry a clean-up removes -/

/-- A clean-up finds nothing under its key, or the connection's own entry. -/
def OwnCleanUp (s : State ι) (a : Action ι) : Prop :=
  ∀ c entry slots, a = .cleanUp c → s.phase c = .left entry → s.sessions (key c) = some slots → slots.agent = entry

/-- When an agent's connection takes a vacant key, no other of that key has its
clean-up to come. -/
def KeyRetired (s : State ι) (a : Action ι) : Prop :=
  ∀ c d, a = .enter c → role c = .agent → s.sessions (key c) = none → key d = key c → (s.phase d).entry = none

instance [Fintype ι] (s : State ι) (a : Action ι) : Decidable (KeyRetired role key s a) :=
  inferInstanceAs (Decidable (∀ _ _, _))

/-- What stands under a connection's key is its own entry, until it has cleaned up. -/
def Owned (s : State ι) : Prop :=
  ∀ d entry slots, (s.phase d).entry = some entry → s.sessions (key d) = some slots → slots.agent = entry

variable {role key} {s t : State ι}

omit [DecidableEq ι] in
theorem started_owned : Owned key (started : State ι) := by
  intro d entry slots hentry
  cases hentry

/-- A connection moves on and keeps its entry or gives it up. -/
theorem Owned.goto (hs : Owned key s) {c : ι} {phase : Phase ι}
    (hphase : ∀ entry slots, phase.entry = some entry → s.sessions (key c) = some slots → slots.agent = entry) :
    Owned key (s.goto c phase) := by
  intro d entry slots hentry hslots
  by_cases hd : d = c
  · subst hd
    exact hphase entry slots (by simpa [State.goto] using hentry) hslots
  · exact hs d entry slots (by simpa [State.goto, update_of_ne hd] using hentry) hslots

omit [DecidableEq ι] in
/-- An entry is replaced: for every connection of the key whose clean-up is to come, by its own. -/
theorem Owned.setSlots (hs : Owned key s) {k : TerminalSessionKey} {slots : Option (SessionSlots ι)}
    (hslots : ∀ d entry slots', key d = k → (s.phase d).entry = some entry → slots = some slots' →
      slots'.agent = entry) :
    Owned key (s.setSlots k slots) := by
  intro d entry slots' hentry hfound
  by_cases hd : key d = k
  · exact hslots d entry slots' hd hentry (by simpa [State.setSlots, hd] using hfound)
  · exact hs d entry slots' hentry (by simpa [State.setSlots, update_of_ne hd] using hfound)

theorem handleAgent_owned (hs : Owned key s) {c : ι}
    (hretired : s.sessions (key c) = none → ∀ d, key d = key c → (s.phase d).entry = none) :
    Owned key (handleAgent key s c) := by
  rw [handleAgent]
  split
  next => exact hs.goto fun entry slots hentry => by cases hentry
  next hvacant =>
    have hentered : Owned key (s.setSlots (key c) (some ⟨c, true⟩)) := by
      refine hs.setSlots fun d entry slots hd hentry _ => ?_
      rw [hretired hvacant d hd] at hentry
      cases hentry
    refine hentered.goto fun entry slots hentry hslots => ?_
    cases hentry
    have hnew : slots = ⟨c, true⟩ := by simpa [State.setSlots] using hslots.symm
    rw [hnew]

theorem handleUser_owned (hs : Owned key s) (c : ι) : Owned key (handleUser key s c) := by
  rw [handleUser]
  split
  next slots hslots =>
    split
    · have hattached : Owned key (s.setSlots (key c) (some { slots with rxFromAgent := false })) := by
        refine hs.setSlots fun d entry slots' hd hentry hnew => ?_
        cases hnew
        exact hs d entry slots hentry (hd ▸ hslots)
      refine hattached.goto fun entry slots' hentry hnew => ?_
      cases hentry
      have hsame : slots' = { slots with rxFromAgent := false } := by simpa [State.setSlots] using hnew.symm
      rw [hsame]
    · exact hs.goto fun entry slots' hentry => by cases hentry
  next => exact hs.goto fun entry slots' hentry => by cases hentry

theorem step_owned {a : Action ι} (hs : Owned key s) (hretired : KeyRetired role key s a)
    (h : step role key s a = some t) : Owned key t := by
  cases a with
  | reject c =>
    simp only [step] at h
    split at h
    · cases h
      exact hs.goto fun entry slots hentry => by cases hentry
    · cases h
  | enter c =>
    simp only [step] at h
    split at h
    · split at h
      next hrole =>
        cases h
        exact handleAgent_owned hs fun hvacant d hd => hretired c d rfl hrole hvacant hd
      next =>
        cases h
        exact handleUser_owned hs c
    · cases h
  | disconnect c =>
    cases h
    exact hs
  | leave c =>
    simp only [step] at h
    split at h
    next entry hphase =>
      split at h
      · cases h
        refine hs.goto fun entry' slots hentry => ?_
        exact hs c entry' slots (by rw [hphase]; exact hentry)
      · cases h
    next => cases h
  | cleanUp c =>
    simp only [step] at h
    split at h
    · cases h
      have hremoved : Owned key (s.setSlots (key c) none) := hs.setSlots fun d entry slots _ _ hnone => by cases hnone
      exact hremoved.goto fun entry slots hentry => by cases hentry
    · cases h

omit [DecidableEq ι] in
theorem ownCleanUp_of_owned (hs : Owned key s) (a : Action ι) : OwnCleanUp key s a := by
  intro c entry slots _ hphase hslots
  exact hs c entry slots (by rw [hphase]; rfl) hslots

/-- **A clean-up removes its own session**, on every run in which an agent's
connection takes a key only after the connections that used it have cleaned up. -/
theorem clean_up_own_session (role : ι → Role) (key : ι → TerminalSessionKey) (actions : List (Action ι))
    (hretired : Along (step role key) (KeyRetired role key) started actions) :
    Along (step role key) (OwnCleanUp key) started actions :=
  hretired.of_invariant (fun _ _ _ hs hG h => step_owned hs hG h) (fun _ a hs _ => ownCleanUp_of_owned hs a)
    started_owned

end Machine

/-! ### One key, two agents -/

/-- Connections whose second component says that they are a user's. -/
def sampleRole (c : Bool × Bool) : Role := if c.2 then .user else .agent

def sampleKey (_ : Bool × Bool) : TerminalSessionKey := ⟨0x11, 0x22⟩

/-- An agent enters, a user attaches and goes, the agent goes, and the agent connects again. -/
def reconnected : List (Action (Bool × Bool)) :=
  [.enter (false, false), .enter (false, true), .disconnect (false, true), .leave (false, true),
    .cleanUp (false, true), .leave (false, false), .cleanUp (false, false), .enter (true, false),
    .disconnect (true, false), .leave (true, false), .cleanUp (true, false)]

theorem clean_up_own_session_reconnected :
    (run (step sampleRole sampleKey) started reconnected).isSome = true ∧
      Along (step sampleRole sampleKey) (OwnCleanUp sampleKey) started reconnected :=
  ⟨by decide +kernel, clean_up_own_session sampleRole sampleKey reconnected (by decide +kernel)⟩

/-- The agent connects again between the user's clean-up and that of its own first
connection, which then removes the new connection's entry. -/
theorem reconnected_session_removed :
    ∃ s, run (step sampleRole sampleKey) started
        [.enter (false, false), .enter (false, true), .disconnect (false, true), .leave (false, true),
          .cleanUp (false, true), .enter (true, false), .leave (false, false)] = some s ∧
      s.phase (false, false) = .left (false, false) ∧
      s.sessions (sampleKey (false, false)) = some ⟨(true, false), true⟩ ∧
      ∃ t, step sampleRole sampleKey s (.cleanUp (false, false)) = some t ∧
        t.sessions (sampleKey (true, false)) = none ∧ t.phase (true, false) = .serving (true, false) := by
  decide +kernel

end NodeGet.Terminal
