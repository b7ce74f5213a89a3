import Mathlib.Data.Fintype.Basic
import NodeGet.Machine.Run

/-! The background services of the server over its reloads (`server/src/subcommands/serve.rs`,
`ng-monitoring/src/{monitoring_buffer,traffic_stats}.rs`, `ng-db/src/db_registry.rs`).

Each round of `run` initialises the services, serves until a reload is asked for, and shuts
the services down again, waiting for their loops. The monitoring buffers and the traffic state
are singletons that a shutdown takes away and the next round replaces. The registry of user
databases is initialised once per process: its clean-up loop is started in the first round,
ended by the first shutdown, and never started again. -/
namespace NodeGet.Server
open NodeGet.Machine

/-! ### A singleton that is taken and replaced -/

/-- A `static Mutex<Option<_>>` with the loops that work for the instance in it, and another
one with their handles. Instances are numbered. -/
structure Singleton (ν : Type) where
  current : Option Nat
  handles : Option Nat
  /-- The instance's loops have been told to end. -/
  signalled : Nat → Bool
  /-- How many loops of a kind run for an instance. -/
  running : Nat → ν → Nat

namespace Singleton
variable {ν : Type} [DecidableEq ν]

def empty : Singleton ν := ⟨none, none, fun _ => false, fun _ _ => 0⟩

/-- A new instance in the place of the old, and its loops. -/
def init (x : Singleton ν) (n : Nat) : Singleton ν where
  current := some n
  handles := some n
  signalled := x.signalled
  running := Function.update x.running n fun kind => x.running n kind + 1

/-- Where the instance holds the senders of its loops, dropping it tells them to end. -/
def dropCurrent (x : Singleton ν) : Singleton ν :=
  { x with signalled := x.current.elim x.signalled fun old => Function.update x.signalled old true }

/-- The shutdown up to its wait: the instance is taken and its loops are told; what is
awaited are the handles. Without an instance nothing is done. -/
def take (x : Singleton ν) : Singleton ν × Option Nat :=
  match x.current with
  | none => (x, none)
  | some n => ({ x with current := none, handles := none, signalled := Function.update x.signalled n true }, x.handles)

/-- A loop that was told to ends. -/
def exit (x : Singleton ν) (n : Nat) (kind : ν) : Option (Singleton ν) :=
  if x.signalled n ∧ 0 < x.running n kind then
    some { x with running := Function.update x.running n (Function.update (x.running n) kind (x.running n kind - 1)) }
  else none

/-- No loop of the awaited instance runs. -/
def Finished (x : Singleton ν) (handles : Option Nat) : Prop := ∀ n ∈ handles, ∀ kind, x.running n kind = 0

instance [Fintype ν] (x : Singleton ν) (handles : Option Nat) : Decidable (x.Finished handles) :=
  inferInstanceAs (Decidable (∀ n ∈ handles, ∀ _, _))

/-- No instance and no loops; numbers from `n` on have not been used. -/
structure Off (x : Singleton ν) (n : Nat) : Prop where
  current : x.current = none
  unused : ∀ m, n ≤ m → x.signalled m = false
  running : ∀ m kind, x.running m kind = 0

/-- Instance `n`, not told to end, with one loop of each kind, and no other loops. -/
structure On (x : Singleton ν) (n : Nat) : Prop where
  current : x.current = some n
  handles : x.handles = some n
  unused : ∀ m, n ≤ m → x.signalled m = false
  own : ∀ kind, x.running n kind = 1
  others : ∀ m kind, m ≠ n → x.running m kind = 0

/-- The instance is gone; loops may be left of it, and of no other. -/
structure Ending (x : Singleton ν) (n : Nat) : Prop where
  current : x.current = none
  unused : ∀ m, n < m → x.signalled m = false
  others : ∀ m kind, m ≠ n → x.running m kind = 0

variable {x y : Singleton ν} {n : Nat}

omit [DecidableEq ν] in
theorem empty_off : (empty : Singleton ν).Off 0 := ⟨rfl, fun _ _ => rfl, fun _ _ => rfl⟩

omit [DecidableEq ν] in
theorem Off.init (h : x.Off n) : (x.init n).On n where
  current := rfl
  handles := rfl
  unused := h.unused
  own kind := by simp [Singleton.init, h.running]
  others m kind hm := by simp [Singleton.init, Function.update_of_ne hm, h.running]

omit [DecidableEq ν] in
theorem Off.dropCurrent (h : x.Off n) : x.dropCurrent = x := by
  obtain ⟨current, handles, signalled, running⟩ := x
  obtain rfl : current = none := h.current
  rfl

omit [DecidableEq ν] in
theorem On.take (h : x.On n) : x.take.1.Ending n ∧ x.take.2 = some n := by
  rw [Singleton.take, h.current]
  refine ⟨⟨rfl, fun m hm => ?_, h.others⟩, h.handles⟩
  show Function.update x.signalled n true m = false
  rw [Function.update_of_ne (Nat.ne_of_gt hm)]
  exact h.unused m (Nat.le_of_lt hm)

/-- A loop that has not been told goes on. -/
theorem On.no_exit (h : x.On n) (m : Nat) (kind : ν) : x.exit m kind = none := by
  rw [exit, if_neg]
  intro hexit
  by_cases hm : m = n
  · rw [hm, h.unused n (Nat.le_refl n)] at hexit
    exact absurd hexit.1 Bool.false_ne_true
  · rw [h.others m kind hm] at hexit
    exact absurd hexit.2 (Nat.lt_irrefl 0)

theorem Off.no_exit (h : x.Off n) (m : Nat) (kind : ν) : x.exit m kind = none := by
  rw [exit, if_neg]
  intro hexit
  rw [h.running m kind] at hexit
  exact absurd hexit.2 (Nat.lt_irrefl 0)

theorem Ending.exit (h : x.Ending n) {m : Nat} {kind : ν} (hexit : x.exit m kind = some y) : y.Ending n := by
  rw [Singleton.exit] at hexit
  split at hexit
  next hruns =>
    cases hexit
    have hm : m = n := by
      by_contra hne
      rw [h.others m kind hne] at hruns
      exact absurd hruns.2 (Nat.lt_irrefl 0)
    subst hm
    refine ⟨h.current, h.unused, fun k kind' hk => ?_⟩
    show Function.update x.running m _ k kind' = 0
    rw [Function.update_of_ne hk]
    exact h.others k kind' hk
  next => cases hexit

omit [DecidableEq ν] in
theorem Ending.off (h : x.Ending n) (hfinished : x.Finished (some n)) : x.Off (n + 1) where
  current := h.current
  unused m hm := h.unused m hm
  running m kind := by
    by_cases hm : m = n
    · rw [hm]
      exact hfinished n rfl kind
    · exact h.others m kind hm

end Singleton

/-! ### The registry's clean-up loop -/

/-- `DbRegistryManager`: `call_once` has been entered, the flag, whether there is a handle to
await, and how many loops run. -/
structure CleanupTask where
  once : Bool
  cancelled : Bool
  handle : Bool
  running : Nat
deriving DecidableEq

namespace CleanupTask

def init (x : CleanupTask) : CleanupTask :=
  if x.once then x else ⟨true, false, true, x.running + 1⟩

def exit (x : CleanupTask) : Option CleanupTask :=
  if x.cancelled ∧ 0 < x.running then some { x with running := x.running - 1 } else none

end CleanupTask

/-! ### Rounds -/

inductive BufferKind where
  | staticMon | dynamicMon | dynamicSummary
deriving DecidableEq

instance : Fintype BufferKind where
  elems := {.staticMon, .dynamicMon, .dynamicSummary}
  complete kind := by cases kind <;> decide

inductive Pc where
  | initBuffers
  | initTraffic
  | initRegistry
  | serving
  | closeBuffers
  | awaitBuffers (handles : Option Nat)
  | stopTraffic
  | awaitTraffic (handles : Option Nat)
  | stopRegistry
  | awaitRegistry (handle : Bool)
deriving DecidableEq

structure State where
  /-- How many reloads there have been. -/
  round : Nat
  pc : Pc
  buffers : Singleton BufferKind
  traffic : Singleton Unit
  registry : CleanupTask

def booted : State := ⟨0, .initBuffers, .empty, .empty, ⟨false, false, false, 0⟩⟩

inductive Action where
  /-- The next step of `run`; while serving, a reload is asked for. -/
  | proceed
  | exitBuffer (n : Nat) (kind : BufferKind)
  | exitTraffic (n : Nat)
  | exitCleanup

/-- One step of `run`; a wait lasts until what is awaited has ended. -/
def proceed (s : State) : Option State :=
  match s.pc with
  | .initBuffers => some { s with buffers := s.buffers.dropCurrent.init s.round, pc := .initTraffic }
  | .initTraffic => some { s with traffic := s.traffic.init s.round, pc := .initRegistry }
  | .initRegistry => some { s with registry := s.registry.init, pc := .serving }
  | .serving => some { s with pc := .closeBuffers }
  | .closeBuffers => some { s with buffers := s.buffers.take.1, pc := .awaitBuffers s.buffers.take.2 }
  | .awaitBuffers handles => if s.buffers.Finished handles then some { s with pc := .stopTraffic } else none
  | .stopTraffic => some { s with traffic := s.traffic.take.1, pc := .awaitTraffic s.traffic.take.2 }
  | .awaitTraffic handles => if s.traffic.Finished handles then some { s with pc := .stopRegistry } else none
  | .stopRegistry =>
    some { s with
      registry := { s.registry with cancelled := true, handle := false }, pc := .awaitRegistry s.registry.handle }
  | .awaitRegistry handle =>
    if handle ∧ 0 < s.registry.running then none else some { s with round := s.round + 1, pc := .initBuffers }

def step (s : State) : Action → Option State
  | .proceed => proceed s
  | .exitBuffer n kind => (s.buffers.exit n kind).map fun buffers => { s with buffers }
  | .exitTraffic n => (s.traffic.exit n ()).map fun traffic => { s with traffic }
  | .exitCleanup => s.registry.exit.map fun registry => { s with registry }

/-! ### Where each service stands -/

/-- A service before, during and after its use in a round; `ending` is the wait for its loops. -/
inductive Stage where
  | off
  | on
  | ending
  | past

def Pc.buffers : Pc → Stage
  | initBuffers => .off
  | initTraffic | initRegistry | serving | closeBuffers => .on
  | awaitBuffers _ => .ending
  | stopTraffic | awaitTraffic _ | stopRegistry | awaitRegistry _ => .past

def Pc.traffic : Pc → Stage
  | initBuffers | initTraffic => .off
  | initRegistry | serving | closeBuffers | awaitBuffers _ | stopTraffic => .on
  | awaitTraffic _ => .ending
  | stopRegistry | awaitRegistry _ => .past

/-- After the first round the registry's loop is over for good. -/
def Pc.registry (round : Nat) (pc : Pc) : Stage :=
  if round = 0 then
    match pc with
    | initBuffers | initTraffic | initRegistry => .off
    | serving | closeBuffers | awaitBuffers _ | stopTraffic | awaitTraffic _ | stopRegistry => .on
    | awaitRegistry _ => .ending
  else .past

variable {round : Nat} {x : CleanupTask}

theorem Pc.registry_of_ne (h : round ≠ 0) (pc : Pc) : pc.registry round = .past := if_neg h

namespace Stage
variable {ν : Type} [DecidableEq ν]

def Holds (round : Nat) (x : Singleton ν) : Stage → Prop
  | off => x.Off round
  | on => x.On round
  | ending => x.Ending round
  | past => x.Off (round + 1)

def HoldsCleanup (x : CleanupTask) : Stage → Prop
  | off => x = ⟨false, false, false, 0⟩
  | on => x = ⟨true, false, true, 1⟩
  | ending => x.once = true ∧ x.handle = false
  | past => x.once = true ∧ x.handle = false ∧ x.running = 0

variable {stage : Stage}

/-- A loop ends only while its end is awaited. -/
theorem Holds.exit {round m : Nat} {x y : Singleton ν} {kind : ν} (h : stage.Holds round x)
    (hexit : x.exit m kind = some y) : stage.Holds round y := by
  cases stage with
  | off =>
    rw [Singleton.Off.no_exit h] at hexit
    cases hexit
  | on =>
    rw [Singleton.On.no_exit h] at hexit
    cases hexit
  | ending => exact Singleton.Ending.exit h hexit
  | past =>
    rw [Singleton.Off.no_exit h] at hexit
    cases hexit

theorem HoldsCleanup.exit {x y : CleanupTask} (h : stage.HoldsCleanup x) (hexit : x.exit = some y) :
    stage.HoldsCleanup y := by
  rw [CleanupTask.exit] at hexit
  split at hexit
  next hruns =>
    cases hexit
    cases stage with
    | off =>
      rw [show x = _ from h] at hruns
      exact absurd hruns.1 Bool.false_ne_true
    | on =>
      rw [show x = _ from h] at hruns
      exact absurd hruns.1 Bool.false_ne_true
    | ending => exact h
    | past =>
      rw [h.2.2] at hruns
      exact absurd hruns.2 (Nat.lt_irrefl 0)
  next => cases hexit

end Stage

/-- What the main task waits for is this round's instance. -/
def Pc.Awaits (round : Nat) : Pc → Prop
  | awaitBuffers handles | awaitTraffic handles => handles = some round
  | awaitRegistry handle => round = 0 → handle = true
  | _ => True

structure Sound (s : State) : Prop where
  buffers : s.pc.buffers.Holds s.round s.buffers
  traffic : s.pc.traffic.Holds s.round s.traffic
  registry : (s.pc.registry s.round).HoldsCleanup s.registry
  awaits : s.pc.Awaits s.round

theorem booted_sound : Sound booted := ⟨Singleton.empty_off, Singleton.empty_off, rfl, trivial⟩

variable {s t : State}

/-- The registry is not touched and stands where it stood. -/
theorem registry_of_stage {pc pc' : Pc} (h : (pc.registry round).HoldsCleanup x) (hpc : pc'.registry 0 = pc.registry 0) :
    (pc'.registry round).HoldsCleanup x := by
  by_cases hround : round = 0
  · rw [hround] at h ⊢
    rwa [hpc]
  · rw [Pc.registry_of_ne hround] at h ⊢
    exact h

theorem initRegistry_holds (h : (Pc.initRegistry.registry round).HoldsCleanup x) :
    (Pc.serving.registry round).HoldsCleanup x.init := by
  by_cases hround : round = 0
  · subst hround
    rw [show x = _ from h]
    rfl
  · rw [Pc.registry_of_ne hround] at h ⊢
    rw [CleanupTask.init, if_pos h.1]
    exact h

theorem stopRegistry_holds (h : (Pc.stopRegistry.registry round).HoldsCleanup x) :
    ((Pc.awaitRegistry x.handle).registry round).HoldsCleanup { x with cancelled := true, handle := false } ∧
      (round = 0 → x.handle = true) := by
  by_cases hround : round = 0
  · subst hround
    rw [show x = _ from h]
    exact ⟨⟨rfl, rfl⟩, fun _ => rfl⟩
  · rw [Pc.registry_of_ne hround] at h ⊢
    exact ⟨⟨h.1, rfl, h.2.2⟩, fun hzero => absurd hzero hround⟩

/-- The wait for the registry's loop ends with no loop left. -/
theorem awaitRegistry_past {handle : Bool} (h : ((Pc.awaitRegistry handle).registry round).HoldsCleanup x)
    (hawaits : round = 0 → handle = true) (hdone : ¬ (handle = true ∧ 0 < x.running)) :
    (Pc.initBuffers.registry (round + 1)).HoldsCleanup x := by
  rw [Pc.registry_of_ne (Nat.succ_ne_zero round)]
  by_cases hround : round = 0
  · subst hround
    obtain ⟨honce, hhandle⟩ : x.once = true ∧ x.handle = false := h
    have hrunning : ¬ 0 < x.running := fun hpos => hdone ⟨hawaits rfl, hpos⟩
    exact ⟨honce, hhandle, Nat.eq_zero_of_not_pos hrunning⟩
  · rw [Pc.registry_of_ne hround] at h
    exact h

theorem proceed_sound (hs : Sound s) (h : proceed s = some t) : Sound t := by
  obtain ⟨round, pc, buffers, traffic, registry⟩ := s
  obtain ⟨hbuffers, htraffic, hregistry, hawaits⟩ := hs
  cases pc with
  | initBuffers =>
    cases h
    refine ⟨?_, htraffic, registry_of_stage hregistry rfl, trivial⟩
    rw [Singleton.Off.dropCurrent hbuffers]
    exact Singleton.Off.init hbuffers
  | initTraffic =>
    cases h
    exact ⟨hbuffers, Singleton.Off.init htraffic, registry_of_stage hregistry rfl, trivial⟩
  | initRegistry =>
    cases h
    exact ⟨hbuffers, htraffic, initRegistry_holds hregistry, trivial⟩
  | serving =>
    cases h
    exact ⟨hbuffers, htraffic, registry_of_stage hregistry rfl, trivial⟩
  | closeBuffers =>
    cases h
    obtain ⟨hending, hhandles⟩ := Singleton.On.take hbuffers
    exact ⟨hending, htraffic, registry_of_stage hregistry rfl, hhandles⟩
  | awaitBuffers handles =>
    simp only [proceed] at h
    split at h
    next hfinished =>
      cases h
      rw [show handles = some round from hawaits] at hfinished
      exact ⟨Singleton.Ending.off hbuffers hfinished, htraffic, registry_of_stage hregistry rfl, trivial⟩
    next => cases h
  | stopTraffic =>
    cases h
    obtain ⟨hending, hhandles⟩ := Singleton.On.take htraffic
    exact ⟨hbuffers, hending, registry_of_stage hregistry rfl, hhandles⟩
  | awaitTraffic handles =>
    simp only [proceed] at h
    split at h
    next hfinished =>
      cases h
      rw [show handles = some round from hawaits] at hfinished
      exact ⟨hbuffers, Singleton.Ending.off htraffic hfinished, registry_of_stage hregistry rfl, trivial⟩
    next => cases h
  | stopRegistry =>
    cases h
    obtain ⟨hstopped, hhandle⟩ := stopRegistry_holds hregistry
    exact ⟨hbuffers, htraffic, hstopped, hhandle⟩
  | awaitRegistry handle =>
    simp only [proceed] at h
    split at h
    next => cases h
    next hdone =>
      cases h
      exact ⟨hbuffers, htraffic, awaitRegistry_past hregistry hawaits hdone, trivial⟩

theorem step_sound {a : Action} (hs : Sound s) (h : step s a = some t) : Sound t := by
  cases a with
  | proceed => exact proceed_sound hs h
  | exitBuffer n kind =>
    obtain ⟨buffers, hexit, rfl⟩ := Option.map_eq_some_iff.mp h
    exact { hs with buffers := hs.buffers.exit hexit }
  | exitTraffic n =>
    obtain ⟨traffic, hexit, rfl⟩ := Option.map_eq_some_iff.mp h
    exact { hs with traffic := hs.traffic.exit hexit }
  | exitCleanup =>
    obtain ⟨registry, hexit, rfl⟩ := Option.map_eq_some_iff.mp h
    exact { hs with registry := hs.registry.exit hexit }

/-- An instance is in place, and exactly one loop of each kind runs for it. -/
def Singleton.Served {ν : Type} (x : Singleton ν) : Prop :=
  ∃ n, x.current = some n ∧ ∀ kind, x.running n kind = 1

/-- **The services over reloads**: whenever the server serves, one flush loop runs on the
current traffic state and one for each current monitoring buffer; the registry's clean-up
loop runs in the first round and in no other. -/
theorem services_while_serving (actions : List Action) {s : State} (hrun : run step booted actions = some s)
    (hserving : s.pc = .serving) :
    s.traffic.Served ∧ s.buffers.Served ∧ s.registry.running = if s.round = 0 then 1 else 0 := by
  have hs : Sound s := run_preserves (fun _ _ _ hs h => step_sound hs h) booted_sound hrun
  have hbuffers := hs.buffers
  have htraffic := hs.traffic
  have hregistry := hs.registry
  rw [hserving] at hbuffers htraffic hregistry
  refine ⟨⟨s.round, htraffic.current, htraffic.own⟩, ⟨s.round, hbuffers.current, hbuffers.own⟩, ?_⟩
  by_cases hround : s.round = 0
  · rw [if_pos hround]
    rw [hround] at hregistry
    rw [show s.registry = _ from hregistry]
  · rw [if_neg hround]
    rw [Pc.registry_of_ne hround] at hregistry
    exact hregistry.2.2

/-- One initialisation. -/
def initialise : List Action := [.proceed, .proceed, .proceed]

/-- A reload is asked for, and every loop ends when it is told to. -/
def shutdown : List Action :=
  [.proceed, .proceed, .exitBuffer 0 .staticMon, .exitBuffer 0 .dynamicMon, .exitBuffer 0 .dynamicSummary, .proceed,
    .proceed, .exitTraffic 0, .proceed, .proceed, .exitCleanup, .proceed]

theorem services_while_serving_first :
    ∃ s, run step booted initialise = some s ∧ s.round = 0 ∧ s.traffic.Served ∧ s.buffers.Served ∧
      s.registry.running = 1 := by
  obtain ⟨s, hrun, hserving, hround⟩ : ∃ s, run step booted initialise = some s ∧ s.pc = .serving ∧ s.round = 0 := by
    decide
  have h := services_while_serving initialise hrun hserving
  rw [if_pos hround] at h
  exact ⟨s, hrun, hround, h⟩

/-- After one reload the server serves without the clean-up loop. -/
theorem cleanup_loop_gone :
    ∃ s, run step booted (initialise ++ shutdown ++ initialise) = some s ∧ s.pc = .serving ∧ s.round = 1 ∧
      s.registry.running = 0 := by
  decide +kernel

end NodeGet.Server
