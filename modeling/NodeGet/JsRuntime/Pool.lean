import Mathlib.Data.List.Basic
import NodeGet.Machine.Run

/-! One worker of the script runtime pool (`ng-js-runtime/src/runtime_pool.rs`).

A call sends its bytecode to the worker thread, unless the hash it reads in
`last_bytecode_hash` is that of its own bytecode: then it sends the hash alone, and
the worker uses the bytecode it received last. Reading the hash, sending and
storing the hash are three steps, and other calls may take theirs between them.

A command that leaves the bytecode out is served right if the bytecode last sent
to the worker is the caller's (`Fresh`); in every run in which that holds of each
such command, each command runs its caller's bytecode (`pooled_run_own_bytecode`).
The hash is a parameter, injective on the bytecodes of the calls. -/
namespace NodeGet.JsRuntime.Pool
open NodeGet.Machine

abbrev Bytecode := List UInt8

/-! ### State and steps -/

structure Command (ι : Type) where
  call : ι
  bytecode : Option Bytecode
  bytecodeHash : UInt64

/-- Where an `execute` call stands. -/
inductive Pc where
  | start
  | read (lastHash : UInt64)
  | sent
  | rejected
  | waiting
deriving DecidableEq

structure State (ι : Type) where
  lastBytecodeHash : UInt64
  queue : List (Command ι)
  pc : ι → Pc
  /-- The worker's copy of the last bytecode it received. -/
  cachedBytecode : Option Bytecode
  /-- The module loaded in the worker's runtime, with the hash it was loaded under. -/
  loaded : Option (UInt64 × Bytecode)
  /-- History: whose command ran, and what it ran. -/
  ran : List (ι × Bytecode)

/-- How the worker got on with a command. -/
inductive Outcome where
  | createFailed
  | loadFailed
  | ran (stateDropped : Bool)
deriving DecidableEq

inductive Action (ι : Type) where
  | read (call : ι)
  | send (call : ι)
  | store (call : ι)
  | process (outcome : Outcome)

variable {ι : Type} (hash : Bytecode → UInt64) (bytecode : ι → Bytecode) (cap : Nat)

def State.started : State ι := ⟨0, [], fun _ => .start, none, none, []⟩

def command (call : ι) (lastHash : UInt64) : Command ι :=
  ⟨call, if lastHash = hash (bytecode call) then none else some (bytecode call), hash (bytecode call)⟩

/-- What the worker holds after it took a command. -/
def Command.cached (cmd : Command ι) (cachedBytecode : Option Bytecode) : Option Bytecode :=
  cmd.bytecode.or cachedBytecode

/-- The bytecode the worker would load; without one, an empty module. -/
def Command.effective (cmd : Command ι) (cachedBytecode : Option Bytecode) : Bytecode :=
  (cmd.cached cachedBytecode).getD []

def process (s : State ι) (cmd : Command ι) (rest : List (Command ι)) : Outcome → Option (State ι)
  | .createFailed =>
    if s.loaded = none then
      some { s with queue := rest, cachedBytecode := cmd.cached s.cachedBytecode }
    else none
  | .loadFailed =>
    -- the module was evaluated, but it is not the one later commands run
    if s.loaded.map (·.1) = some cmd.bytecodeHash then none
    else
      some { s with
        queue := rest
        cachedBytecode := cmd.cached s.cachedBytecode
        ran := s.ran ++ [(cmd.call, cmd.effective s.cachedBytecode)] }
  | .ran stateDropped =>
    let loaded := (s.loaded.filter fun l => l.1 = cmd.bytecodeHash).getD
      (cmd.bytecodeHash, cmd.effective s.cachedBytecode)
    some { s with
      queue := rest
      cachedBytecode := cmd.cached s.cachedBytecode
      loaded := if stateDropped then none else some loaded
      ran := s.ran ++ [(cmd.call, loaded.2)] }

def step [DecidableEq ι] (s : State ι) : Action ι → Option (State ι)
  | .read call =>
    if s.pc call = .start then
      some { s with pc := Function.update s.pc call (.read s.lastBytecodeHash) }
    else none
  | .send call =>
    match s.pc call with
    | .read lastHash =>
      if s.queue.length < cap then
        some { s with
          queue := s.queue ++ [command hash bytecode call lastHash]
          pc := Function.update s.pc call .sent }
      else some { s with pc := Function.update s.pc call .rejected }
    | _ => none
  | .store call =>
    if s.pc call = .sent then
      some { s with
        lastBytecodeHash := hash (bytecode call)
        pc := Function.update s.pc call .waiting }
    else none
  | .process outcome =>
    match s.queue with
    | cmd :: rest => process s cmd rest outcome
    | [] => none

/-! ### Commands that are served right -/

/-- What the worker will hold once it has taken the queued commands. -/
def pendingCached (cachedBytecode : Option Bytecode) (queue : List (Command ι)) : Option Bytecode :=
  queue.foldl (fun cached cmd => cmd.cached cached) cachedBytecode

/-- A command is sent without its bytecode only if the bytecode last sent to the
worker is the caller's. -/
def Fresh (s : State ι) : Action ι → Prop
  | .send call => s.pc call = .read (hash (bytecode call)) →
      pendingCached s.cachedBytecode s.queue = some (bytecode call)
  | _ => True

/-- The command names its caller's hash, and the worker will have the caller's
bytecode when it takes the command. -/
def Served (cachedBytecode : Option Bytecode) (cmd : Command ι) : Prop :=
  cmd.bytecodeHash = hash (bytecode cmd.call) ∧ cmd.cached cachedBytecode = some (bytecode cmd.call)

def AllServed (cachedBytecode : Option Bytecode) : List (Command ι) → Prop
  | [] => True
  | cmd :: rest => Served hash bytecode cachedBytecode cmd ∧ AllServed (cmd.cached cachedBytecode) rest

structure Sound (s : State ι) : Prop where
  queued : AllServed hash bytecode s.cachedBytecode s.queue
  loaded : ∀ l, s.loaded = some l → ∃ call, l = (hash (bytecode call), bytecode call)
  ran : ∀ r ∈ s.ran, r.2 = bytecode r.1

variable {hash bytecode cap}

theorem AllServed.append {cachedBytecode : Option Bytecode} {queue : List (Command ι)} {cmd : Command ι}
    (hqueue : AllServed hash bytecode cachedBytecode queue)
    (hcmd : Served hash bytecode (pendingCached cachedBytecode queue) cmd) :
    AllServed hash bytecode cachedBytecode (queue ++ [cmd]) := by
  induction queue generalizing cachedBytecode with
  | nil => exact ⟨hcmd, trivial⟩
  | cons first rest ih => exact ⟨hqueue.1, ih hqueue.2 hcmd⟩

theorem command_served {call : ι} {lastHash : UInt64} {cachedBytecode : Option Bytecode}
    (h : lastHash = hash (bytecode call) → cachedBytecode = some (bytecode call)) :
    Served hash bytecode cachedBytecode (command hash bytecode call lastHash) := by
  refine ⟨rfl, ?_⟩
  unfold command Command.cached
  by_cases hlast : lastHash = hash (bytecode call)
  · simp [hlast, h hlast]
  · simp [hlast]

/-- A served command evaluates its caller's bytecode, be it loaded already or not. -/
theorem process_sound (hinj : ∀ a b, hash (bytecode a) = hash (bytecode b) → bytecode a = bytecode b)
    {s t : State ι} (hs : Sound hash bytecode s) {cmd : Command ι} {rest : List (Command ι)}
    (hqueue : s.queue = cmd :: rest) {outcome : Outcome} (h : process s cmd rest outcome = some t) :
    Sound hash bytecode t := by
  have hall := hs.queued
  rw [hqueue] at hall
  obtain ⟨⟨hcmdHash, hcached⟩, hrest⟩ := hall
  have heffective : cmd.effective s.cachedBytecode = bytecode cmd.call := by
    rw [Command.effective, hcached]
    rfl
  have hran : ∀ {code}, code = bytecode cmd.call → ∀ r ∈ s.ran ++ [(cmd.call, code)], r.2 = bytecode r.1 := by
    intro code hcode r hr
    rcases List.mem_append.mp hr with hr | hr
    · exact hs.ran r hr
    · rw [List.mem_singleton.mp hr]
      exact hcode
  cases outcome with
  | createFailed =>
    obtain ⟨-, h⟩ := Option.ite_none_right_eq_some.mp h
    cases h
    exact ⟨hrest, hs.loaded, hs.ran⟩
  | loadFailed =>
    obtain ⟨-, h⟩ := Option.ite_none_left_eq_some.mp h
    cases h
    exact ⟨hrest, hs.loaded, hran heffective⟩
  | ran stateDropped =>
    have hload : (s.loaded.filter fun l => l.1 = cmd.bytecodeHash).getD
        (cmd.bytecodeHash, cmd.effective s.cachedBytecode) = (hash (bytecode cmd.call), bytecode cmd.call) := by
      cases hfilter : s.loaded.filter fun l => l.1 = cmd.bytecodeHash with
      | none => rw [Option.getD_none, hcmdHash, heffective]
      | some l =>
        obtain ⟨hl, hmatch⟩ := Option.filter_eq_some_iff.mp hfilter
        obtain ⟨call, rfl⟩ := hs.loaded l hl
        have hsame : hash (bytecode call) = hash (bytecode cmd.call) := by
          rw [← hcmdHash]
          simpa using hmatch
        rw [Option.getD_some, hsame, hinj call cmd.call hsame]
    cases h
    refine ⟨hrest, ?_, hran (congrArg Prod.snd hload)⟩
    intro l hl
    obtain ⟨-, hl⟩ := Option.ite_none_left_eq_some.mp hl
    cases hl
    exact ⟨cmd.call, hload⟩

variable [DecidableEq ι]

theorem step_sound (hinj : ∀ a b, hash (bytecode a) = hash (bytecode b) → bytecode a = bytecode b)
    (s : State ι) (a : Action ι) (t : State ι) (hs : Sound hash bytecode s) (hG : Fresh hash bytecode s a)
    (h : step hash bytecode cap s a = some t) : Sound hash bytecode t := by
  cases a with
  | read call | store call =>
    obtain ⟨-, h⟩ := Option.ite_none_right_eq_some.mp h
    cases h
    exact ⟨hs.queued, hs.loaded, hs.ran⟩
  | send call =>
    rw [step] at h
    split at h
    · rename_i lastHash hpc
      split at h
      · cases h
        refine ⟨hs.queued.append (command_served fun hlast => hG ?_), hs.loaded, hs.ran⟩
        rw [hpc, hlast]
      · cases h
        exact ⟨hs.queued, hs.loaded, hs.ran⟩
    · cases h
  | process outcome =>
    rw [step] at h
    split at h
    · rename_i cmd rest hqueue
      exact process_sound hinj hs hqueue h
    · cases h

/-- **Every command runs its caller's bytecode**, in every run in which a command
leaves the bytecode out only when the worker was last sent the same one. -/
theorem pooled_run_own_bytecode (hash : Bytecode → UInt64) (bytecode : ι → Bytecode) (cap : Nat)
    (hinj : ∀ a b, hash (bytecode a) = hash (bytecode b) → bytecode a = bytecode b)
    (actions : List (Action ι)) {s : State ι}
    (hG : Along (step hash bytecode cap) (Fresh hash bytecode) .started actions)
    (hrun : run (step hash bytecode cap) .started actions = some s) : ∀ r ∈ s.ran, r.2 = bytecode r.1 := by
  have hstart : Sound hash bytecode (State.started : State ι) := by
    refine ⟨trivial, ?_, ?_⟩
    · intro l hl
      cases hl
    · intro r hr
      cases hr
  exact (run_invariant (step_sound hinj) hstart hG hrun).ran

section Example

/-- Calls 0 and 2 pass the same bytecode, call 1 another. -/
def scripts (call : Fin 3) : Bytecode := if call.val = 1 then [7] else [3]

def byteHash : Bytecode → UInt64
  | byte :: _ => byte.toUInt64
  | [] => 0

theorem scripts_hash_injective :
    ∀ a b, byteHash (scripts a) = byteHash (scripts b) → scripts a = scripts b := by
  decide

def inTurn (call : Fin 3) : List (Action (Fin 3)) := [.read call, .send call, .store call]

theorem pooled_run_own_bytecode_in_turn :
    ∃ s, run (step byteHash scripts 256) .started
        (inTurn 0 ++ inTurn 2 ++ [.process (.ran false), .process (.ran false)]) = some s ∧
      s.ran.length = 2 ∧ ∀ r ∈ s.ran, r.2 = scripts r.1 := by
  refine ⟨_, rfl, rfl, ?_⟩
  refine pooled_run_own_bytecode byteHash scripts 256 scripts_hash_injective
    (inTurn 0 ++ inTurn 2 ++ [.process (.ran false), .process (.ran false)]) ?_ rfl
  refine .cons rfl trivial (.cons rfl ?_ (.cons rfl trivial (.cons rfl trivial (.cons rfl ?_ (.cons rfl trivial
    (.cons rfl trivial (.cons rfl trivial trivial)))))))
  · intro h
    revert h
    decide
  · exact fun _ => rfl

/-- Call 1 has sent its bytecode and not yet stored its hash when call 2 reads the
hash of call 0: call 2 sends none, and the worker runs what call 1 sent. -/
theorem foreign_bytecode_runs :
    ∃ s, run (step byteHash scripts 256) .started
        (inTurn 0 ++ [.read 1, .send 1] ++ inTurn 2 ++
          [.store 1, .process (.ran false), .process (.ran false), .process (.ran false)]) = some s ∧
      (2, [7]) ∈ s.ran ∧ scripts 2 = [3] := by
  exact ⟨_, rfl, by decide, rfl⟩

end Example

end NodeGet.JsRuntime.Pool
