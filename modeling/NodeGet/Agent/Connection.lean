import Mathlib.Algebra.Order.Ring.Int
import Mathlib.Data.List.Infix
import NodeGet.Core.Json
import NodeGet.Machine.Run

/-! The agent's connection to one server (`agent/src/rpc/multi_server.rs`: `connection_manager`,
`verify_server_uuid`).

The manager connects, asks for the server's UUID, registers for tasks where the configuration
allows them, and then forwards in both directions until something fails; every failure leads back
to connecting. The waits between the attempts are left out. What happens is kept with the newest
first, a write from the moment it is tried. -/
namespace NodeGet.Agent.Connection
open NodeGet.Core NodeGet.Machine

structure Server where
  serverUuid : String
  token : String
  allowTask : Option Bool

/-- What a manager has beside its connection. -/
structure Env where
  server : Server
  /-- `current_agent_uuid_string` -/
  agentUuid : String
  /-- `serde_json::from_str` -/
  fromStr : String → Option Json

/-- What reading the next frame comes to, within a time limit where there is one. -/
inductive Read where
  | text (text : String)
  | otherFrame
  | error (e : String)
  | closed
  | timeout
deriving DecidableEq

inductive UuidVerification where
  | ok
  | transport (reason : String)
  | mismatch (expected got : String)
deriving DecidableEq

/-- What the queue of messages to the server yields. -/
inductive Recv (Msg : Type) where
  | message (msg : Msg)
  | lagged (skipped : Nat)
  | closed

inductive Outgoing (Msg : Type) where
  | serverUuid
  | registerTask (token agentUuid : String)
  | resubscribeTask (token agentUuid : String)
  | uplink (msg : Msg)
deriving DecidableEq

inductive Happening (Msg : Type) where
  | wrote (connection : Nat) (message : Outgoing Msg)
  /-- What the wait for an answer came to. -/
  | answered (connection : Nat) (answer : Read)
  | enteredLoop (connection : Nat)
  | passedOn (connection : Nat) (value : Json)
  | reconnects (connection : Nat)

inductive Phase where
  | connecting
  | requestingUuid
  | verifyingUuid
  | registering
  | awaitingAck
  | forwarding
  | exited
deriving DecidableEq

structure State (Msg : Type) where
  /-- How many connections there have been. -/
  connection : Nat
  phase : Phase
  log : List (Happening Msg)

inductive Event (Msg : Type) where
  | connect (ok : Bool)
  | write (ok : Bool)
  | read (frame : Read)
  | uplink (received : Recv Msg) (written : Bool)
  | tick (written : Bool)

section Machine
variable {Msg : Type}

def started : State Msg := ⟨0, .connecting, []⟩

def State.goto (s : State Msg) (phase : Phase) : State Msg := { s with phase }

def State.happen (s : State Msg) (h : Happening Msg) : State Msg := { s with log := h :: s.log }

def State.wrote (s : State Msg) (message : Outgoing Msg) : State Msg := s.happen (.wrote s.connection message)

def State.answered (s : State Msg) (answer : Read) : State Msg := s.happen (.answered s.connection answer)

def State.enterLoop (s : State Msg) : State Msg := (s.happen (.enteredLoop s.connection)).goto .forwarding

def State.reconnect (s : State Msg) : State Msg := (s.happen (.reconnects s.connection)).goto .connecting

/-- A write that fails ends the connection. -/
def State.after (s : State Msg) (written : Bool) (phase : Phase) : State Msg :=
  if written then s.goto phase else s.reconnect

variable (fromStr : String → Option Json)

/-- The answer's `result`, where it is a string. -/
def resultStr (text : String) : Option String :=
  match (fromStr text).bind (Json.get? "result") with
  | some (.str uuid) => some uuid
  | _ => none

def verifyServerUuid (expected : String) : Read → UuidVerification
  | .text text =>
    match resultStr fromStr text with
    | some got => if got = expected then .ok else .mismatch expected got
    | none => .transport "response missing `result` field"
  | .otherFrame => .transport "unexpected non-text frame during uuid check"
  | .error e => .transport ("read error: " ++ e)
  | .closed => .transport "connection closed"
  | .timeout => .transport "response timeout (5s)"

def asU64 : Json → Option Nat
  | .num (.int n) => if 0 ≤ n ∧ n < 2 ^ 64 then some n.toNat else none
  | _ => none

/-- A text that answers the registration: its `id` is that of the request, and it has a `result`
and no `error`. -/
def acknowledges (text : String) : Bool :=
  match fromStr text with
  | some v => (v.get? "id").bind asU64 == some 1 && (v.get? "error").isNone && (v.get? "result").isSome
  | none => false

/-- Whether the manager goes on after the answer to its registration. -/
def registrationGoesOn : Read → Bool
  | .text text => acknowledges fromStr text
  | .otherFrame => true
  | .error _ | .closed | .timeout => false

variable (env : Env)

def step (s : State Msg) : Event Msg → Option (State Msg)
  | .connect ok =>
    match s.phase with
    | .connecting => some (if ok then { s with connection := s.connection + 1, phase := .requestingUuid } else s)
    | _ => none
  | .write ok =>
    match s.phase with
    | .requestingUuid => some ((s.wrote .serverUuid).after ok .verifyingUuid)
    | .registering => some ((s.wrote (.registerTask env.server.token env.agentUuid)).after ok .awaitingAck)
    | _ => none
  | .read frame =>
    match s.phase with
    | .verifyingUuid =>
      match verifyServerUuid env.fromStr env.server.serverUuid frame with
      | .ok =>
        some (if env.server.allowTask.getD false then (s.answered frame).goto .registering
          else (s.answered frame).enterLoop)
      | .transport _ | .mismatch _ _ => some (s.answered frame).reconnect
    | .awaitingAck =>
      some (if registrationGoesOn env.fromStr frame then (s.answered frame).enterLoop else (s.answered frame).reconnect)
    | .forwarding =>
      match frame with
      | .text text =>
        match env.fromStr text with
        | some value => some (s.happen (.passedOn s.connection value))
        | none => some s
      | .otherFrame => some s
      | .error _ | .closed => some s.reconnect
      | .timeout => none
    | _ => none
  | .uplink received written =>
    match s.phase, received with
    | .forwarding, .message msg => some ((s.wrote (.uplink msg)).after written .forwarding)
    | .forwarding, .lagged _ => some s
    | .forwarding, .closed => some (s.goto .exited)
    | _, _ => none
  | .tick written =>
    match s.phase with
    | .forwarding =>
      if env.server.allowTask.getD false then
        some ((s.wrote (.resubscribeTask env.server.token env.agentUuid)).after written .forwarding)
      else none
    | _ => none

/-- What a step can do. -/
inductive Moves (s : State Msg) : State Msg → Prop
  | connect (hphase : s.phase = .connecting) :
      Moves s { s with connection := s.connection + 1, phase := .requestingUuid }
  | idle : Moves s s
  | exit (hphase : s.phase = .forwarding) : Moves s (s.goto .exited)
  | lost (hphase : s.phase = .forwarding) : Moves s s.reconnect
  | requestUuid (ok : Bool) (hphase : s.phase = .requestingUuid) :
      Moves s ((s.wrote .serverUuid).after ok .verifyingUuid)
  | confirmed (text : String) (hphase : s.phase = .verifyingUuid)
      (htext : resultStr env.fromStr text = some env.server.serverUuid) :
      Moves s (if env.server.allowTask.getD false then (s.answered (.text text)).goto .registering
        else (s.answered (.text text)).enterLoop)
  | refused (frame : Read) (hphase : s.phase = .verifyingUuid) : Moves s (s.answered frame).reconnect
  | register (ok : Bool) (hphase : s.phase = .registering) :
      Moves s ((s.wrote (.registerTask env.server.token env.agentUuid)).after ok .awaitingAck)
  | answer (frame : Read) (hphase : s.phase = .awaitingAck) :
      Moves s (if registrationGoesOn env.fromStr frame then (s.answered frame).enterLoop else (s.answered frame).reconnect)
  | uplink (msg : Msg) (written : Bool) (hphase : s.phase = .forwarding) :
      Moves s ((s.wrote (.uplink msg)).after written .forwarding)
  | resubscribe (written : Bool) (hphase : s.phase = .forwarding) :
      Moves s ((s.wrote (.resubscribeTask env.server.token env.agentUuid)).after written .forwarding)
  | passOn (value : Json) (hphase : s.phase = .forwarding) : Moves s (s.happen (.passedOn s.connection value))

variable {env} {s t : State Msg} {log rest : List (Happening Msg)} {phase : Phase} {frame : Read}

theorem verify_ok {expected : String} (h : verifyServerUuid env.fromStr expected frame = .ok) :
    ∃ text, frame = .text text ∧ resultStr env.fromStr text = some expected := by
  cases frame with
  | text text =>
    refine ⟨text, rfl, ?_⟩
    simp only [verifyServerUuid] at h
    split at h
    · next got hgot =>
      split_ifs at h with heq
      rw [hgot, heq]
    · cases h
  | otherFrame | error | closed | timeout => cases h

theorem step_moves {event : Event Msg} (h : step env s event = some t) :
    Moves env s t := by
  cases event with
  | connect ok =>
    simp only [step] at h
    split at h <;> cases h
    cases ok with
    | true => exact .connect ‹_›
    | false => exact .idle
  | write ok =>
    simp only [step] at h
    split at h <;> cases h
    · exact .requestUuid ok ‹_›
    · exact .register ok ‹_›
  | read frame =>
    simp only [step] at h
    split at h
    · split at h <;> cases h
      · obtain ⟨text, rfl, htext⟩ := verify_ok ‹_›
        exact .confirmed text ‹_› htext
      · exact .refused frame ‹_›
      · exact .refused frame ‹_›
    · cases h
      exact .answer frame ‹_›
    · split at h
      · split at h <;> cases h
        · exact .passOn _ ‹_›
        · exact .idle
      · cases h
        exact .idle
      · cases h
        exact .lost ‹_›
      · cases h
        exact .lost ‹_›
      · cases h
    · cases h
  | uplink received written =>
    simp only [step] at h
    split at h <;> cases h
    · exact .uplink _ written ‹_›
    · exact .idle
    · exact .exit ‹_›
  | tick written =>
    simp only [step] at h
    split at h
    · split_ifs at h
      cases h
      exact .resubscribe written ‹_›
    · cases h

/-- What carries the token or data to the server of a connection, or takes a message from it. -/
def Happening.Exposes (c : Nat) : Happening Msg → Prop
  | wrote connection message => connection = c ∧ message ≠ .serverUuid
  | passedOn connection _ => connection = c
  | answered _ _ | enteredLoop _ | reconnects _ => False

variable (env) in
/-- On connection `c` the request for the UUID was answered with the configured one. -/
def Confirmed (c : Nat) (log : List (Happening Msg)) : Prop :=
  ∃ text rest, .answered c (.text text) :: .wrote c .serverUuid :: rest <:+ log ∧
    resultStr env.fromStr text = some env.server.serverUuid

/-- What holds of each happening and those before it. -/
def Throughout (Q : Happening Msg → List (Happening Msg) → Prop) (log : List (Happening Msg)) : Prop :=
  ∀ h earlier, h :: earlier <:+ log → Q h earlier

theorem Throughout.nil (Q : Happening Msg → List (Happening Msg) → Prop) : Throughout Q [] :=
  fun _ _ h => by simp at h

theorem Throughout.cons {Q : Happening Msg → List (Happening Msg) → Prop} (hlog : Throughout Q log) {h : Happening Msg}
    (hh : Q h log) : Throughout Q (h :: log) := by
  intro h' earlier hsuffix
  rcases List.suffix_cons_iff.mp hsuffix with heq | hsuffix
  · cases heq
    exact hh
  · exact hlog h' earlier hsuffix

variable (env) in
def Trusted : List (Happening Msg) → Prop :=
  Throughout fun h earlier => ∀ c, h.Exposes c → Confirmed env c earlier

theorem Confirmed.cons {c : Nat} (hlog : Confirmed env c log) (h : Happening Msg) : Confirmed env c (h :: log) := by
  obtain ⟨text, rest, hsuffix, htext⟩ := hlog
  exact ⟨text, rest, hsuffix.trans (List.suffix_cons ..), htext⟩

variable (env) in
/-- The connection that is used has been confirmed. -/
structure Sound (s : State Msg) : Prop where
  trusted : Trusted env s.log
  requested : s.phase = .verifyingUuid → ∃ rest, s.log = .wrote s.connection .serverUuid :: rest
  confirmed : s.phase = .registering ∨ s.phase = .awaitingAck ∨ s.phase = .forwarding →
    Confirmed env s.connection s.log

theorem Sound.reconnect (hs : Trusted env s.log) : Sound env s.reconnect where
  trusted := hs.cons (fun _ => False.elim)
  requested := nofun
  confirmed := by simp [State.reconnect, State.goto]

/-- The confirmed connection goes on to another phase of its use. -/
theorem Sound.use (hs : Trusted env s.log) (hconfirmed : Confirmed env s.connection s.log)
    (hphase : phase ≠ .verifyingUuid) : Sound env (s.goto phase) :=
  ⟨hs, fun h => absurd h hphase, fun _ => hconfirmed⟩

theorem Sound.wrote (hs : Sound env s) (hphase : s.phase = .registering ∨ s.phase = .forwarding)
    (message : Outgoing Msg) (ok : Bool) (hnext : phase ≠ .verifyingUuid) :
    Sound env ((s.wrote message).after ok phase) := by
  have hconfirmed := hs.confirmed (by tauto)
  have htrusted : Trusted env (s.wrote message).log := hs.trusted.cons fun c hc => by
    obtain ⟨rfl, -⟩ := hc
    exact hconfirmed
  cases ok with
  | true => exact .use htrusted (hconfirmed.cons _) hnext
  | false => exact .reconnect htrusted

theorem Sound.enterLoop (hs : Trusted env s.log)
    (hconfirmed : Confirmed env s.connection s.log) : Sound env s.enterLoop :=
  .use (hs.cons fun _ => False.elim) (hconfirmed.cons _) (by decide)

theorem step_sound (s : State Msg) (event : Event Msg) (t : State Msg) (hs : Sound env s)
    (h : step env s event = some t) : Sound env t := by
  have hanswered (frame : Read) : Trusted env (s.answered frame).log := hs.trusted.cons fun _ => False.elim
  cases step_moves h with
  | connect => exact ⟨hs.trusted, nofun, by simp⟩
  | idle => exact hs
  | exit => exact ⟨hs.trusted, nofun, by simp [State.goto]⟩
  | lost => exact .reconnect hs.trusted
  | requestUuid ok =>
    have htrusted : Trusted env (s.wrote .serverUuid).log := hs.trusted.cons fun _ hc => absurd rfl hc.2
    cases ok with
    | true => exact ⟨htrusted, fun _ => ⟨s.log, rfl⟩, by simp [State.after, State.goto]⟩
    | false => exact .reconnect htrusted
  | confirmed text hphase htext =>
    obtain ⟨rest, hrest⟩ := hs.requested hphase
    have hconfirmed : Confirmed env s.connection (s.answered (.text text)).log :=
      ⟨text, rest, by simp [State.answered, State.happen, hrest], htext⟩
    split_ifs
    · exact .use (hanswered _) hconfirmed (by decide)
    · exact .enterLoop (hanswered _) hconfirmed
  | refused frame => exact .reconnect (hanswered frame)
  | register ok hphase => exact hs.wrote (.inl hphase) _ ok (by decide)
  | answer frame hphase =>
    split_ifs
    · exact .enterLoop (hanswered _) ((hs.confirmed (by simp [hphase])).cons _)
    · exact .reconnect (hanswered frame)
  | uplink msg written hphase => exact hs.wrote (.inr hphase) _ written (by decide)
  | resubscribe written hphase => exact hs.wrote (.inr hphase) _ written (by decide)
  | passOn value hphase =>
    have hconfirmed := hs.confirmed (by simp [hphase])
    refine ⟨hs.trusted.cons fun c hc => ?_, fun hverifying => ?_, fun _ => hconfirmed.cons _⟩
    · cases hc
      exact hconfirmed
    · cases hphase.symm.trans hverifying

/-- **The token, the agent's data and what it takes as tasks** belong to connections whose server has
answered with the configured UUID, whatever is received and whichever connection it is. -/
theorem trusts_only_configured_server {events : List (Event Msg)}
    (hrun : run (step env) started events = some s) (c : Nat) (h : Happening Msg)
    (earlier : List (Happening Msg)) (hsuffix : h :: earlier <:+ s.log) (hexposes : h.Exposes c) :
    ∃ text rest, .answered c (.text text) :: .wrote c .serverUuid :: rest <:+ earlier ∧
      resultStr env.fromStr text = some env.server.serverUuid := by
  have hstarted : Sound env (started : State Msg) :=
    ⟨.nil _, nofun, by simp [started]⟩
  exact (run_preserves step_sound hstarted hrun).trusted h earlier hsuffix c hexposes

/-- A server that answers the two requests. -/
def honest : Env where
  server := ⟨"u", "token", some true⟩
  agentUuid := "agent"
  fromStr text :=
    if text = "uuid" then some (.obj [("id", .num (.int 1)), ("result", .str "u")])
    else if text = "ack" then some (.obj [("id", .num (.int 1)), ("result", .null)]) else none

theorem trusts_configured_server_honest :
    ∃ text rest, .answered 1 (.text text) :: .wrote 1 .serverUuid :: rest <:+
        [.answered 1 (.text "uuid"), (.wrote 1 .serverUuid : Happening Nat)] ∧
      resultStr honest.fromStr text = some honest.server.serverUuid := by
  obtain ⟨s, hrun, hlog⟩ : ∃ s, run (step honest) started [.connect true, .write true, .read (.text "uuid"), .write true]
        = some s ∧ s.log = [.wrote 1 (.registerTask "token" "agent"), .answered 1 (.text "uuid"),
          (.wrote 1 .serverUuid : Happening Nat)] :=
    ⟨_, rfl, rfl⟩
  exact trusts_only_configured_server hrun 1 (.wrote 1 (.registerTask "token" "agent")) _ (by rw [hlog]) ⟨rfl, nofun⟩

theorem registrationGoesOn_iff :
    registrationGoesOn env.fromStr frame = true ↔
      frame = .otherFrame ∨ ∃ text, frame = .text text ∧ acknowledges env.fromStr text = true := by
  cases frame <;> simp [registrationGoesOn]

variable (env) in
/-- The registration on connection `c` has been answered by `frame`. -/
def answeredRegistration (c : Nat) (frame : Read) (rest : List (Happening Msg)) : List (Happening Msg) :=
  .answered c frame :: .wrote c (.registerTask env.server.token env.agentUuid) :: rest

variable (env) in
/-- What an answer to the registration leads to. -/
def outcome (c : Nat) (frame : Read) : Happening Msg :=
  if registrationGoesOn env.fromStr frame then .enteredLoop c else .reconnects c

variable (env) in
/-- Answers to a registration lead to their outcome, and nothing else leads into the loop. -/
structure Follows (h : Happening Msg) (earlier : List (Happening Msg)) : Prop where
  outcome : ∀ c frame rest, earlier = answeredRegistration env c frame rest → h = outcome env c frame
  entered : ∀ c, h = .enteredLoop c →
    ∃ frame rest, earlier = answeredRegistration env c frame rest ∧ registrationGoesOn env.fromStr frame = true

variable (env) in
structure Registered (log : List (Happening Msg)) : Prop where
  follows : Throughout (Follows env) log
  settled : ∀ c frame rest, log ≠ answeredRegistration env c frame rest

variable (env) in
structure Acknowledged (s : State Msg) : Prop where
  registered : Registered env s.log
  awaiting : s.phase = .awaitingAck → ∃ rest, s.log = .wrote s.connection (.registerTask env.server.token env.agentUuid) :: rest

/-- A happening that the registration has no part in. -/
theorem Registered.cons {h : Happening Msg} (hlog : Registered env log) (hentered : ∀ c, h ≠ .enteredLoop c)
    (hsettled : ∀ c frame rest, h :: log ≠ answeredRegistration env c frame rest) :
    Registered env (h :: log) :=
  ⟨hlog.follows.cons ⟨fun c frame rest heq => absurd heq (hlog.settled c frame rest),
    fun c heq => absurd heq (hentered c)⟩, hsettled⟩

theorem Registered.answer {c : Nat} (frame : Read)
    (hlog : Registered env (.wrote c (.registerTask env.server.token env.agentUuid) :: rest)) :
    Registered env (outcome env c frame :: answeredRegistration env c frame rest) := by
  have hanswered : Throughout (Follows env) (answeredRegistration env c frame rest) :=
    hlog.follows.cons ⟨fun c frame rest heq => absurd heq (hlog.settled c frame rest), nofun⟩
  refine ⟨hanswered.cons ⟨fun c' frame' rest' heq => ?_, fun c' heq => ⟨frame, rest, ?_⟩⟩, fun c' frame' rest' heq => ?_⟩
  · cases heq
    rfl
  · unfold outcome at heq
    split_ifs at heq with hgoes
    cases heq
    exact ⟨rfl, hgoes⟩
  · unfold outcome at heq
    split_ifs at heq <;> cases heq

theorem Acknowledged.wrote (hs : Acknowledged env s) {message : Outgoing Msg} (ok : Bool)
    (hphase : phase = .awaitingAck → message = .registerTask env.server.token env.agentUuid) :
    Acknowledged env ((s.wrote message).after ok phase) := by
  have hwrote : Registered env (s.wrote message).log := hs.registered.cons nofun nofun
  cases ok with
  | true => exact ⟨hwrote, fun h => ⟨s.log, by rw [← hphase h]; rfl⟩⟩
  | false => exact ⟨hwrote.cons nofun nofun, nofun⟩

theorem step_acknowledged (hallow : env.server.allowTask = some true) (s : State Msg) (event : Event Msg) (t : State Msg)
    (hs : Sound env s ∧ Acknowledged env s)
    (h : step env s event = some t) :
    Sound env t ∧ Acknowledged env t := by
  refine ⟨step_sound s event t hs.1 h, ?_⟩
  obtain ⟨hsound, hs⟩ := hs
  -- An answer to the request for the UUID does not answer a registration.
  have hverifying (frame : Read) (hphase : s.phase = .verifyingUuid) :
      Registered env (s.answered frame).log := by
    obtain ⟨rest, hrest⟩ := hsound.requested hphase
    refine hs.registered.cons nofun fun c frame' rest' heq => ?_
    simp [hrest, answeredRegistration] at heq
  cases step_moves h with
  | connect => exact ⟨hs.registered, nofun⟩
  | idle => exact hs
  | exit => exact ⟨hs.registered, nofun⟩
  | lost => exact ⟨hs.registered.cons nofun nofun, nofun⟩
  | requestUuid ok => exact hs.wrote ok nofun
  | confirmed text hphase =>
    simp only [hallow, Option.getD_some, if_true]
    exact ⟨hverifying _ hphase, nofun⟩
  | refused frame hphase => exact ⟨(hverifying frame hphase).cons nofun nofun, nofun⟩
  | register ok => exact hs.wrote ok fun _ => rfl
  | answer frame hphase =>
    obtain ⟨rest, hrest⟩ := hs.awaiting hphase
    have hanswer := Registered.answer frame (hrest ▸ hs.registered)
    simp only [outcome, answeredRegistration, ← hrest] at hanswer
    split_ifs at hanswer ⊢
    · exact ⟨hanswer, nofun⟩
    · exact ⟨hanswer, nofun⟩
  | uplink msg written => exact hs.wrote written nofun
  | resubscribe written => exact hs.wrote written nofun
  | passOn value hphase =>
    refine ⟨hs.registered.cons nofun nofun, fun hawaiting => ?_⟩
    cases hphase.symm.trans hawaiting

/-- What follows an answer to the registration is its outcome. -/
theorem Registered.outcome_suffix (hlog : Registered env log) {c : Nat}
    (h : answeredRegistration env c frame rest <:+ log) :
    outcome env c frame :: answeredRegistration env c frame rest <:+ log := by
  obtain ⟨later, rfl⟩ := h
  rcases List.eq_nil_or_concat' later with rfl | ⟨later, next, rfl⟩
  · exact absurd rfl (hlog.settled c frame rest)
  · have hsuffix : next :: answeredRegistration env c frame rest <:+
        later ++ [next] ++ answeredRegistration env c frame rest := ⟨later, by simp⟩
    rwa [← (hlog.follows next _ hsuffix).outcome c frame rest rfl]

/-- **Only an acknowledged registration leads into the loop**, and any other answer to a reconnect,
exactly if no registration was answered by a frame that is not text. -/
theorem loop_acknowledged_iff (hallow : env.server.allowTask = some true) {events : List (Event Msg)}
    (hrun : run (step env) started events = some s) :
    ((∀ c earlier, .enteredLoop c :: earlier <:+ s.log → ∃ text rest,
          earlier = answeredRegistration env c (.text text) rest ∧ acknowledges env.fromStr text = true) ∧
        ∀ c frame rest, answeredRegistration env c frame rest <:+ s.log →
          (∀ text, frame = .text text → acknowledges env.fromStr text = false) →
          .reconnects c :: answeredRegistration env c frame rest <:+ s.log) ↔
      ∀ c rest, ¬answeredRegistration env c .otherFrame rest <:+ s.log := by
  have hstarted : Sound env (started : State Msg) ∧ Acknowledged env (started : State Msg) :=
    ⟨⟨.nil _, nofun, by simp [started]⟩, ⟨.nil _, nofun⟩, nofun⟩
  have hlog := (run_preserves (step_acknowledged hallow) hstarted hrun).2.registered
  constructor
  · intro h c rest hsuffix
    have hentered := hlog.outcome_suffix hsuffix
    have hreconnects := h.2 c .otherFrame rest hsuffix nofun
    cases (List.suffix_of_suffix_length_le hentered hreconnects (by simp)).eq_of_length (by simp)
  · intro h
    refine ⟨fun c earlier hsuffix => ?_, fun c frame rest hsuffix hno => ?_⟩
    · obtain ⟨frame, rest, rfl, hgoes⟩ := (hlog.follows _ _ hsuffix).entered c rfl
      obtain rfl | ⟨text, rfl, htext⟩ := registrationGoesOn_iff.mp hgoes
      · exact absurd ((List.suffix_cons ..).trans hsuffix) (h c rest)
      · exact ⟨text, rest, rfl, htext⟩
    · have hstops : registrationGoesOn env.fromStr frame = false := by
        refine Bool.eq_false_iff.mpr fun hgoes => ?_
        obtain rfl | ⟨text, rfl, htext⟩ := registrationGoesOn_iff.mp hgoes
        · exact h c rest hsuffix
        · simp [hno text rfl] at htext
      simpa [outcome, hstops] using hlog.outcome_suffix hsuffix

theorem loop_acknowledged_honest :
    ∃ s : State Nat, run (step honest) started
        [.connect true, .write true, .read (.text "uuid"), .write true, .read (.text "ack")] = some s ∧
      ∀ c earlier, .enteredLoop c :: earlier <:+ s.log → ∃ text rest,
        earlier = answeredRegistration honest c (.text text) rest ∧ acknowledges honest.fromStr text = true := by
  obtain ⟨s, hrun, hlog⟩ : ∃ s : State Nat, run (step honest) started
        [.connect true, .write true, .read (.text "uuid"), .write true, .read (.text "ack")] = some s ∧
      s.log = [.enteredLoop 1, .answered 1 (.text "ack"), .wrote 1 (.registerTask "token" "agent"),
        .answered 1 (.text "uuid"), .wrote 1 .serverUuid] :=
    ⟨_, rfl, rfl⟩
  refine ⟨s, hrun, ((loop_acknowledged_iff rfl hrun).mpr ?_).1⟩
  simp [hlog, answeredRegistration, List.suffix_cons_iff]

/-- A frame that is not text, such as a ping, is taken as the answer. -/
theorem loop_without_acknowledgement :
    ∃ s : State Nat, run (step honest) started
        [.connect true, .write true, .read (.text "uuid"), .write true, .read .otherFrame] = some s ∧
      s.phase = .forwarding ∧ s.log = .enteredLoop 1 :: answeredRegistration honest 1 .otherFrame
        [.answered 1 (.text "uuid"), .wrote 1 .serverUuid] :=
  ⟨_, rfl, rfl, rfl⟩

end Machine

end NodeGet.Agent.Connection
