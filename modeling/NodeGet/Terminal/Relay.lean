import Mathlib.Data.List.Infix
import NodeGet.Machine.Channel
import NodeGet.Terminal.Sessions

/-! The messages of the terminal relay (`ng-terminal/src/terminal.rs`: the tasks of `handle_agent`
and `handle_user`).

An entry has two bounded channels, one to either side. A connection's first task takes messages
from its side's channel and hands them to its socket; the second reads its socket and sends into
the other channel, waiting while that is full. The two are aborted when the connection leaves,
which they notice where they wait next; here they may go on. -/
namespace NodeGet.Terminal.Relay
open NodeGet.Machine Function

/-- `TERMINAL_CHANNEL_BUFFER_SIZE` -/
def capacity : Nat := 4096

/-- Where the task is that reads the socket. -/
inductive Sending (Msg : Type) where
  | reading
  /-- A message has been read and is to be sent. -/
  | holding (msg : Msg)
  /-- The receiver was gone. -/
  | ended

structure State (ι Msg : Type) where
  base : Terminal.State ι
  /-- The entry that a connection made or attached to. -/
  entry : ι → Option ι
  /-- The channel of an entry to its side; the sender is noted with the message. -/
  channel : ι → Role → Channel (ι × Msg) capacity
  sending : ι → Sending Msg
  /-- History: what a connection's socket has yielded. -/
  received : ι → List Msg

inductive Action (ι Msg : Type) where
  | session (a : Terminal.Action ι)
  /-- The socket yields a message. -/
  | read (c : ι) (msg : Msg)
  | send (c : ι)
  /-- The receiver of the channel is gone. -/
  | fail (c : ι)
  /-- A message is taken from the channel and handed to the socket. -/
  | hand (c : ι)

section Machine
variable {ι Msg : Type} [DecidableEq ι] (role : ι → Role) (key : ι → TerminalSessionKey)

def started : State ι Msg where
  base := Terminal.started
  entry := fun _ => none
  channel := fun _ _ => .empty
  sending := fun _ => .reading
  received := fun _ => []

def other : Role → Role
  | .agent => .user
  | .user => .agent

def State.setChannel (s : State ι Msg) (e : ι) (r : Role) (channel : Channel (ι × Msg) capacity) : State ι Msg :=
  { s with channel := update s.channel e (update (s.channel e) r channel) }

def step (s : State ι Msg) : Action ι Msg → Option (State ι Msg)
  | .session a =>
    (Terminal.step role key s.base a).map fun base =>
      match a with
      | .enter c => { s with base, entry := update s.entry c (base.phase c).entry }
      | _ => { s with base }
  | .read c msg =>
    match s.entry c, s.sending c with
    | some _, .reading =>
      some { s with sending := update s.sending c (.holding msg), received := update s.received c (s.received c ++ [msg]) }
    | _, _ => none
  | .send c =>
    match s.entry c, s.sending c with
    | some e, .holding msg =>
      ((s.channel e (other (role c))).trySend (c, msg)).map fun channel =>
        { s.setChannel e (other (role c)) channel with sending := update s.sending c .reading }
    | _, _ => none
  | .fail c =>
    match s.sending c with
    | .holding _ => some { s with sending := update s.sending c .ended }
    | _ => none
  | .hand c =>
    match s.entry c with
    | some e => (s.channel e (role c)).recv.map fun taken => s.setChannel e (role c) taken.2
    | none => none

/-- What has been handed to a connection's socket, with the senders. -/
def State.handed (s : State ι Msg) (c : ι) : List (ι × Msg) :=
  match s.entry c with
  | some e => (s.channel e (role c)).taken
  | none => []

variable {role key} {s t : State ι Msg}

/-! ### Who is attached -/

section Attached
variable {base : Terminal.State ι} {entry : ι → Option ι}

variable (role key) in
/-- An entry is its agent's, and one user at most has taken its receiver. -/
structure Attached (base : Terminal.State ι) (entry : ι → Option ι) : Prop where
  entered : ∀ c, base.phase c = .connecting → entry c = none
  attached : ∀ c e, (base.phase c).entry = some e → entry c = some e
  own : ∀ c e, entry c = some e → role c = .agent → c = e
  taken : ∀ c e, entry c = some e → role c = .user → base.user e = some c ∧ role e = .agent ∧ entry e = some e
  slots : ∀ k slots, base.sessions k = some slots → k = key slots.agent ∧ role slots.agent = .agent ∧
    entry slots.agent = some slots.agent ∧ (slots.rxFromAgent = true → base.user slots.agent = none)
  users : ∀ e d, base.user e = some d → entry e = some e

variable (h : Attached role key base entry)
include h

omit [DecidableEq ι] in
/-- Each side of an entry is one connection. -/
theorem Attached.unique {c d e : ι} (hc : entry c = some e) (hd : entry d = some e)
    (hroles : role c = role d) : c = d := by
  cases hrole : role c with
  | agent => exact (h.own c e hc hrole).trans (h.own d e hd (hroles ▸ hrole)).symm
  | user =>
    have hleft := (h.taken c e hc hrole).1
    have hright := (h.taken d e hd (hroles ▸ hrole)).1
    exact Option.some.inj (hleft.symm.trans hright)

theorem Attached.goto {c : ι} {phase : Phase ι} (hphase : phase ≠ .connecting)
    (hentry : ∀ e, phase.entry = some e → entry c = some e) : Attached role key (base.goto c phase) entry := by
  refine ⟨fun d hd => ?_, fun d e hd => ?_, h.own, h.taken, h.slots, h.users⟩
  all_goals
    simp only [Terminal.State.goto] at hd
    by_cases hdc : d = c
  · subst hdc
    rw [update_self] at hd
    exact absurd hd hphase
  · exact h.entered d (update_of_ne hdc phase base.phase ▸ hd)
  · subst hdc
    rw [update_self] at hd
    exact hentry e hd
  · exact h.attached d e (update_of_ne hdc phase base.phase ▸ hd)

omit [DecidableEq ι] in
theorem Attached.cleanUp (k : TerminalSessionKey) :
    Attached role key (base.setSlots k none) entry where
  entered := h.entered
  attached := h.attached
  own := h.own
  taken := h.taken
  slots k' slots hslots := by
    by_cases hk : k' = k
    · simp [Terminal.State.setSlots, hk] at hslots
    · exact h.slots k' slots (by simpa [Terminal.State.setSlots, update_of_ne hk] using hslots)
  users := h.users

theorem Attached.agent {c : ι} (hrole : role c = .agent) (hnew : entry c = none) :
    Attached role key ((base.setSlots (key c) (some ⟨c, true⟩)).goto c (.serving c)) (update entry c (some c)) := by
  have hunused : base.user c = none := Option.eq_none_iff_forall_ne_some.mpr fun d hd => by
    simp [h.users c d hd] at hnew
  obtain ⟨hentered, hattached, hown, htaken, hslots, husers⟩ := h
  refine ⟨fun d hd => ?_, fun d e hd => ?_, fun d e hd hd' => ?_, fun d e hd hd' => ?_, fun k slots hk => ?_,
    fun e d he => ?_⟩ <;>
    simp only [Terminal.State.goto, Terminal.State.setSlots, update_apply] at * <;> grind [Phase.entry]

theorem Attached.user {c : ι} {slots : SessionSlots ι} (hrole : role c = .user)
    (hslots : base.sessions (key c) = some slots) (hfree : slots.rxFromAgent = true) :
    Attached role key
      { (base.setSlots (key c) (some { slots with rxFromAgent := false })).goto c (.serving slots.agent) with
        user := update base.user slots.agent (some c) } (update entry c (some slots.agent)) := by
  obtain ⟨hkey, hagent, hentry, hnone⟩ := h.slots _ _ hslots
  obtain ⟨hentered, hattached, hown, htaken, hslots', husers⟩ := h
  refine ⟨fun d hd => ?_, fun d e hd => ?_, fun d e hd hd' => ?_, fun d e hd hd' => ?_, fun k slots' hk => ?_,
    fun e d he => ?_⟩ <;>
    simp only [Terminal.State.goto, Terminal.State.setSlots, update_apply] at * <;> grind [Phase.entry]

end Attached

theorem session_attached (a : Terminal.Action ι) (hs : Attached role key s.base s.entry)
    (h : step role key s (.session a) = some t) :
    Attached role key t.base t.entry ∧ t.channel = s.channel ∧ t.sending = s.sending ∧ t.received = s.received ∧
      ∀ c e, s.entry c = some e → t.entry c = some e := by
  obtain ⟨base, hbase, rfl⟩ := Option.map_eq_some_iff.mp h
  cases a with
  | enter c =>
    simp only [Terminal.step] at hbase
    split at hbase
    next hconnecting =>
      have hnew := hs.entered c hconnecting
      have hkept (value : Option ι) (d e : ι) (hd : s.entry d = some e) : update s.entry c value d = some e := by
        rw [update_of_ne (fun hdc => by simp [← hdc, hd] at hnew), hd]
      have hrejected : Attached role key (s.base.goto c .rejected) (update s.entry c none) := by
        rw [← hnew, update_eq_self]
        exact hs.goto (by simp) (by simp [Phase.entry])
      split at hbase
      next hrole =>
        cases hbase
        refine ⟨?_, rfl, rfl, rfl, hkept _⟩
        simp only [handleAgent]
        split
        · simpa [Terminal.State.goto, Phase.entry] using hrejected
        · simpa [Terminal.State.goto, Phase.entry] using hs.agent hrole hnew
      next hrole =>
        cases hbase
        refine ⟨?_, rfl, rfl, rfl, hkept _⟩
        simp only [handleUser]
        split
        next slots hslots =>
          split
          next hfree => simpa [Terminal.State.goto, Phase.entry] using hs.user hrole hslots hfree
          next => simpa [Terminal.State.goto, Phase.entry] using hrejected
        next => simpa [Terminal.State.goto, Phase.entry] using hrejected
    next => cases hbase
  | reject c =>
    simp only [Terminal.step] at hbase
    split at hbase <;> cases hbase
    exact ⟨hs.goto (by simp) (by simp [Phase.entry]), rfl, rfl, rfl, fun _ _ hc => hc⟩
  | disconnect c =>
    cases hbase
    exact ⟨⟨hs.entered, hs.attached, hs.own, hs.taken, hs.slots, hs.users⟩, rfl, rfl, rfl, fun _ _ hc => hc⟩
  | leave c =>
    simp only [Terminal.step] at hbase
    split at hbase
    next e hserving =>
      split_ifs at hbase
      cases hbase
      refine ⟨hs.goto (by simp) fun e' he' => ?_, rfl, rfl, rfl, fun _ _ hc => hc⟩
      cases he'
      exact hs.attached c e (by rw [hserving]; rfl)
    next => cases hbase
  | cleanUp c =>
    simp only [Terminal.step] at hbase
    split at hbase <;> cases hbase
    exact ⟨(hs.cleanUp _).goto (by simp) (by simp [Phase.entry]), rfl, rfl, rfl, fun _ _ hc => hc⟩

/-! ### What the channels carry -/

/-- What a task has read and passed on, by where it is. -/
def Sending.Sent (sent received : List Msg) : Sending Msg → Prop
  | reading => sent = received
  | holding msg => sent ++ [msg] = received
  | ended => sent <+: received

theorem Sending.Sent.isPrefix {sending : Sending Msg} {sent received : List Msg} (h : sending.Sent sent received) :
    sent <+: received := by
  cases sending with
  | reading => exact h ▸ List.prefix_rfl
  | holding msg => exact ⟨_, h⟩
  | ended => exact h

variable (role key) in
structure Wired (s : State ι Msg) : Prop where
  attached : Attached role key s.base s.entry
  senders : ∀ e r d msg, (d, msg) ∈ (s.channel e r).accepted → r = other (role d) ∧ s.entry d = some e
  sent : ∀ d e, s.entry d = some e →
    (s.sending d).Sent ((s.channel e (other (role d))).accepted.map Prod.snd) (s.received d)
  unused : ∀ d, s.entry d = none → s.sending d = .reading ∧ s.received d = []

theorem setChannel_accepted (s : State ι Msg) (e : ι) (r : Role) (channel : Channel (ι × Msg) capacity) (e' : ι)
    (r' : Role) : ((s.setChannel e r channel).channel e' r').accepted =
      if e' = e ∧ r' = r then channel.accepted else (s.channel e' r').accepted := by
  by_cases he : e' = e
  · by_cases hr : r' = r <;> simp [State.setChannel, he, hr]
  · simp [State.setChannel, he]

theorem other_other (r : Role) : other (other r) = r := by cases r <;> rfl

theorem step_wired (s : State ι Msg) (a : Action ι Msg) (t : State ι Msg) (hs : Wired role key s)
    (h : step role key s a = some t) : Wired role key t := by
  cases a with
  | session a =>
    obtain ⟨hattached, hchannel, hsending, hreceived, hkept⟩ := session_attached a hs.attached h
    refine ⟨hattached, fun e r d msg hmem => ?_, fun d e hd => ?_, fun d hd => ?_⟩
    · rw [hchannel] at hmem
      obtain ⟨hr, hd⟩ := hs.senders e r d msg hmem
      exact ⟨hr, hkept d e hd⟩
    · rw [hchannel, hsending, hreceived]
      cases hold : s.entry d with
      | some e' =>
        cases (hkept d e' hold).symm.trans hd
        exact hs.sent d e hold
      | none =>
        -- Nobody was on this side of the entry before.
        obtain ⟨hreading, hnothing⟩ := hs.unused d hold
        have hempty : (s.channel e (other (role d))).accepted = [] := by
          refine List.eq_nil_iff_forall_not_mem.mpr fun ⟨d', msg⟩ hmem => ?_
          obtain ⟨hroles, hd'⟩ := hs.senders _ _ _ _ hmem
          have hsame : role d' = role d := by rw [← other_other (role d'), ← hroles, other_other]
          cases hattached.unique (hkept d' e hd') hd hsame
          cases hold.symm.trans hd'
        rw [hreading, hnothing, hempty]
        rfl
    · rw [hsending, hreceived]
      refine hs.unused d (Option.eq_none_iff_forall_ne_some.mpr fun e he => ?_)
      cases hd.symm.trans (hkept d e he)
  | read c msg =>
    simp only [step] at h
    split at h <;> cases h
    next e hc hreading =>
      refine ⟨hs.attached, hs.senders, fun d e' hd => ?_, fun d hd => ?_⟩
      · by_cases hdc : d = c
        · subst hdc
          have hsent := hs.sent d e' hd
          rw [hreading] at hsent
          simpa [Sending.Sent] using hsent
        · simpa [update_of_ne hdc] using hs.sent d e' hd
      · have hdc : d ≠ c := fun hdc => Option.some_ne_none e (hc.symm.trans (hdc ▸ hd))
        simpa [update_of_ne hdc] using hs.unused d hd
  | send c =>
    simp only [step] at h
    split at h
    next e msg hc hholding =>
      obtain ⟨channel, hchannel, rfl⟩ := Option.map_eq_some_iff.mp h
      have haccepted := (Channel.trySend_eq_some hchannel).1
      refine ⟨hs.attached, fun e' r d msg' hmem => ?_, fun d e' hd => ?_, fun d hd => ?_⟩
      · rw [setChannel_accepted] at hmem
        split at hmem
        next hto =>
          obtain ⟨rfl, rfl⟩ := hto
          rw [haccepted, List.mem_append, List.mem_singleton] at hmem
          obtain hmem | hmem := hmem
          · exact hs.senders _ _ d msg' hmem
          · cases hmem
            exact ⟨rfl, hc⟩
        next => exact hs.senders e' r d msg' hmem
      · have hsent := hs.sent d e' hd
        rw [setChannel_accepted]
        split
        next hto =>
          obtain ⟨rfl, hroles⟩ := hto
          have hsame : role d = role c := by rw [← other_other (role d), hroles, other_other]
          cases hs.attached.unique hd hc hsame
          rw [hholding] at hsent
          simpa [Sending.Sent, State.setChannel, haccepted] using hsent
        next hto =>
          have hdc : d ≠ c := fun hdc => hto ⟨Option.some.inj ((hdc ▸ hd).symm.trans hc), hdc ▸ rfl⟩
          simpa [State.setChannel, update_of_ne hdc] using hsent
      · have hdc : d ≠ c := fun hdc => Option.some_ne_none e (hc.symm.trans (hdc ▸ hd))
        simpa [State.setChannel, update_of_ne hdc] using hs.unused d hd
    next => cases h
  | fail c =>
    simp only [step] at h
    split at h <;> cases h
    next msg hholding =>
      refine ⟨hs.attached, hs.senders, fun d e hd => ?_, fun d hd => ?_⟩
      · by_cases hdc : d = c
        · subst hdc
          have hsent := hs.sent d e hd
          rw [hholding] at hsent
          simpa [Sending.Sent] using ⟨_, hsent⟩
        · simpa [update_of_ne hdc] using hs.sent d e hd
      · have hdc : d ≠ c := fun hdc => by simp [← hdc, (hs.unused d hd).1] at hholding
        simpa [update_of_ne hdc] using hs.unused d hd
  | hand c =>
    simp only [step] at h
    split at h
    next e hc =>
      obtain ⟨⟨msg, channel⟩, hchannel, rfl⟩ := Option.map_eq_some_iff.mp h
      have haccepted := (Channel.recv_eq_some hchannel).1
      have hsame (e' : ι) (r : Role) :
          ((s.setChannel e (role c) channel).channel e' r).accepted = (s.channel e' r).accepted := by
        rw [setChannel_accepted]
        split
        next hto => rw [haccepted, hto.1, hto.2]
        next => rfl
      refine ⟨hs.attached, fun e' r d msg' hmem => ?_, fun d e' hd => ?_, hs.unused⟩
      · exact hs.senders e' r d msg' (hsame e' r ▸ hmem)
      · have hsent := hs.sent d e' hd
        rw [← hsame] at hsent
        exact hsent
    next => cases h

theorem run_wired {actions : List (Action ι Msg)} (h : run (step role key) started actions = some s) :
    Wired role key s := by
  refine run_preserves step_wired ⟨⟨fun _ _ => rfl, ?_, ?_, ?_, ?_, ?_⟩, ?_, ?_, fun _ _ => ⟨rfl, rfl⟩⟩ h <;>
    simp [started, Terminal.started, Phase.entry, Channel.empty]

/-- In every run an entry has one user at most. What has been handed to a connection came from the
other side of its entry, whose agent is the one that made the entry, and was received there in
this order, each message once. -/
theorem relays_between_two_sides {actions : List (Action ι Msg)}
    (h : run (step role key) started actions = some s) :
    (∀ c d e, (s.base.phase c).entry = some e → (s.base.phase d).entry = some e → role c = .user → role d = .user →
      c = d) ∧
    (∀ c d msg, (d, msg) ∈ s.handed role c → ∃ e, s.entry c = some e ∧ s.entry d = some e ∧ role c = other (role d) ∧
      (role c = .agent → c = e) ∧ (role d = .agent → d = e)) ∧
    ∀ c d e, s.entry c = some e → s.entry d = some e → role c = other (role d) →
      (s.handed role c).map Prod.snd <+: s.received d := by
  obtain ⟨hattached, hsenders, hsent, -⟩ := run_wired h
  refine ⟨fun c d e hc hd hrole hrole' => ?_, fun c d msg hmem => ?_, fun c d e hc hd hroles => ?_⟩
  · exact hattached.unique (hattached.attached c e hc) (hattached.attached d e hd) (hrole.trans hrole'.symm)
  · simp only [State.handed] at hmem
    split at hmem
    next e hc =>
      have hmem' : (d, msg) ∈ (s.channel e (role c)).accepted := by
        rw [Channel.inOrder]
        exact List.mem_append_left _ hmem
      obtain ⟨hroles, hd⟩ := hsenders _ _ _ _ hmem'
      exact ⟨e, hc, hd, hroles, hattached.own c e hc, hattached.own d e hd⟩
    next => cases hmem
  · have htaken : (s.handed role c).map Prod.snd <+: (s.channel e (role c)).accepted.map Prod.snd := by
      rw [Channel.inOrder, List.map_append, State.handed, hc]
      exact List.prefix_append _ _
    rw [hroles] at htaken
    exact htaken.trans (hsent d e hd).isPrefix

/-- A user's two messages, the second still under way. -/
theorem relays_first_of_two :
    ∃ s : State Bool Nat, s.handed (if · then .user else .agent) false = [(true, 1)] ∧ s.received true = [1, 2] ∧
      (s.handed (if · then .user else .agent) false).map Prod.snd <+: s.received true := by
  obtain ⟨s, hrun, hhanded, hreceived, hagent, huser⟩ : ∃ s : State Bool Nat,
      run (step (if · then .user else .agent) fun _ => ⟨0, 0⟩) started
        [.session (.enter false), .session (.enter true), .read true 1, .send true, .read true 2, .send true,
          .hand false] = some s ∧
      s.handed (if · then .user else .agent) false = [(true, 1)] ∧ s.received true = [1, 2] ∧
      s.entry false = some false ∧ s.entry true = some false :=
    ⟨_, rfl, rfl, rfl, rfl, rfl⟩
  exact ⟨s, hhanded, hreceived, (relays_between_two_sides hrun).2.2 false true false hagent huser rfl⟩

end Machine

end NodeGet.Terminal.Relay
