import Mathlib.Data.List.Basic
import NodeGet.Core.Text
import NodeGet.Machine.Run

/-! Nested inline calls (`ng-js-runtime/src/server_runtime.rs`, `inline_call.rs`, `ng-js-worker/src/service.rs`).

A script can have another one run and wait for its result, and so on. A run is told its depth in the global
`__nodeget_inline_depth`; the wrapper that scripts call reads the global, adds one, and refuses when that is
more than ten; the server refuses a depth of more than ten. Nothing else counts. The global belongs to the
script's own environment, as does the function behind the wrapper, which takes the depth as an argument: a
script that writes the one or calls the other starts a chain anew.

So the bound is in the hands of the scripts that run at the tenth place of a chain (`depth_bounded_iff`). It
holds if scripts do not lower the depth they were given (`depth_bounded_of_honest`). -/
namespace NodeGet.JsRuntime.InlineDepth
open NodeGet.Core NodeGet.Machine

/-! ### State and steps -/

def maxInlineDepth : UInt32 := 10

/-- A run of a script. -/
structure Run where
  /-- How many inline calls led to it, each made by the run before. -/
  level : Nat
  /-- The depth it was started with. -/
  inlineDepth : UInt32
  /-- `__nodeget_inline_depth` as `| 0` reads it; nothing for `null` and `undefined`. -/
  depthGlobal : Option Int32
  live : Bool
deriving DecidableEq

/-- What scripts do. A run is named by its place in the order in which runs were started. -/
inductive Action where
  | start (name : String)
  | assign (run : Nat) (value : Option Int32)
  | inlineCall (run : Nat) (target : String)
  | inlineCallRaw (run : Nat) (target : String) (inlineDepth : UInt32)
  | finish (run : Nat)

/-- A run as its globals are prepared. -/
def Run.begun (level : Nat) (inlineDepth : UInt32) : Run := ⟨level, inlineDepth, some inlineDepth.toInt32, true⟩

def Run.currentDepth (r : Run) : Int := (r.depthGlobal.getD 0).toInt

-- how a number becomes the `u32` that the raw function takes
variable (toU32 : Int → Option UInt32)

/-- The depth that `__nodeget_inline_call` passes on, unless it throws. -/
def Run.childDepth (r : Run) : Option UInt32 :=
  if r.currentDepth + 1 > maxInlineDepth.toNat then none else toU32 (r.currentDepth + 1)

variable (stored : List String)

/-- The target is the name of a stored script. -/
def Found (target : String) : Prop := trim target ≠ [] ∧ ∃ name ∈ stored, name.toList = trim target

instance Found.decidable (target : String) : Decidable (Found stored target) := inferInstanceAs (Decidable (_ ∧ _))

/-- `run_inline_call_and_record_result`, up to the start of the run. -/
def runInlineCall (runs : List Run) (caller : Run) (target : String) (inlineDepth : UInt32) : List Run :=
  if inlineDepth > maxInlineDepth then runs
  else if Found stored target then runs ++ [.begun (caller.level + 1) inlineDepth]
  else runs

/-- What a run that goes on does to the list of runs. -/
def whileLive (runs : List Run) (i : Nat) (act : Run → List Run) : Option (List Run) :=
  (runs[i]?).bind fun r => if r.live then some (act r) else none

def step (runs : List Run) : Action → Option (List Run)
  | .start name => if name ∈ stored then some (runs ++ [.begun 0 0]) else none
  | .assign i value => whileLive runs i fun r => runs.set i { r with depthGlobal := value }
  | .inlineCall i target =>
    whileLive runs i fun r =>
      match r.childDepth toU32 with
      | none => runs
      | some inlineDepth => runInlineCall stored runs r target inlineDepth
  | .inlineCallRaw i target inlineDepth => whileLive runs i fun r => runInlineCall stored runs r target inlineDepth
  | .finish i => whileLive runs i fun r => runs.set i { r with live := false }

/-! ### Chains -/

/-- No run is at the end of a chain of more than ten calls. -/
def Bounded (runs : List Run) : Prop := ∀ r ∈ runs, r.level ≤ maxInlineDepth.toNat

instance Bounded.decidable (runs : List Run) : Decidable (Bounded runs) :=
  inferInstanceAs (Decidable (∀ r ∈ runs, r.level ≤ maxInlineDepth.toNat))

/-- A run that is itself the last a chain may have calls stored scripts with a global of ten or more, or a
depth of more than ten. (A global below ten can still be refused: if the number after it is not taken as a
`u32`, or is negative and becomes a large one.) -/
def Refused (runs : List Run) : Action → Prop
  | .inlineCall i target => ∀ r, runs[i]? = some r → r.live → maxInlineDepth.toNat ≤ r.level → Found stored target →
      maxInlineDepth.toNat ≤ r.currentDepth ∨
        ∀ inlineDepth, toU32 (r.currentDepth + 1) = some inlineDepth → maxInlineDepth < inlineDepth
  | .inlineCallRaw i target inlineDepth => ∀ r, runs[i]? = some r → r.live →
      maxInlineDepth.toNat ≤ r.level → Found stored target → maxInlineDepth < inlineDepth
  | _ => True

variable {toU32 stored}

variable {runs after : List Run} {i : Nat} {r r' caller : Run} {target : String} {inlineDepth : UInt32}
  {action : Action}

theorem childDepth_eq_none :
    r.childDepth toU32 = none ↔ maxInlineDepth.toNat ≤ r.currentDepth ∨ toU32 (r.currentDepth + 1) = none := by
  rw [Run.childDepth]
  split
  next h => exact iff_of_true rfl (.inl (by omega))
  next h => exact (or_iff_right (by omega)).symm

theorem childDepth_eq_some : r.childDepth toU32 = some inlineDepth ↔
    r.currentDepth < maxInlineDepth.toNat ∧ toU32 (r.currentDepth + 1) = some inlineDepth := by
  rw [Run.childDepth, Option.ite_none_left_eq_some]
  exact and_congr_left fun _ => by omega

theorem whileLive_eq_some {act : Run → List Run} (h : whileLive runs i act = some after) :
    ∃ r, runs[i]? = some r ∧ r.live ∧ after = act r := by
  obtain ⟨r, hr, h⟩ := Option.bind_eq_some_iff.mp h
  obtain ⟨hlive, h⟩ := Option.ite_none_right_eq_some.mp h
  exact ⟨r, hr, hlive, (Option.some.inj h).symm⟩

/-- What a run does to itself does not change its place in a chain. -/
theorem bounded_set (hr : runs[i]? = some r) (hlevel : r'.level = r.level) :
    Bounded (runs.set i r') ↔ Bounded runs := by
  obtain ⟨hi, rfl⟩ := List.getElem?_eq_some_iff.mp hr
  have hlevels : (runs.set i r').map Run.level = runs.map Run.level := by
    rw [List.map_set, hlevel, ← List.getElem_map Run.level (h := by simpa using hi), List.set_getElem_self]
  have hforall (l : List Run) : Bounded l ↔ ∀ n ∈ l.map Run.level, n ≤ maxInlineDepth.toNat := by
    rw [List.forall_mem_map]
    rfl
  rw [hforall, hforall, hlevels]

theorem bounded_runInlineCall :
    Bounded (runInlineCall stored runs caller target inlineDepth) ↔
      Bounded runs ∧ (maxInlineDepth.toNat ≤ caller.level → Found stored target → maxInlineDepth < inlineDepth) := by
  rw [runInlineCall]
  split
  next hdepth => exact (and_iff_left fun _ _ => hdepth).symm
  next hdepth =>
    split
    next hfound =>
      have hnew : (Run.begun (caller.level + 1) inlineDepth).level ≤ maxInlineDepth.toNat ↔
          ¬maxInlineDepth.toNat ≤ caller.level := by
        rw [Nat.not_le]
        exact Iff.rfl
      rw [Bounded, List.forall_mem_append, List.forall_mem_singleton, hnew]
      exact and_congr_right fun _ => ⟨fun hlow hlevel => absurd hlevel hlow, fun h hlevel => hdepth (h hlevel hfound)⟩
    next hnot => exact (and_iff_left fun _ hfound => absurd hfound hnot).symm

/-- A step keeps the chains short if they were and whoever is at the end of the longest is refused. -/
theorem step_bounded (h : step toU32 stored runs action = some after) :
    Bounded after ↔ Bounded runs ∧ Refused toU32 stored runs action := by
  cases action with
  | start name =>
    obtain ⟨-, h⟩ := Option.ite_none_right_eq_some.mp h
    cases h
    rw [Bounded, List.forall_mem_append, List.forall_mem_singleton]
    exact and_congr_right fun _ => iff_of_true (Nat.zero_le _) trivial
  | assign i value =>
    obtain ⟨r, hr, -, rfl⟩ := whileLive_eq_some h
    refine (bounded_set hr ?_).trans (and_iff_left trivial).symm
    rfl
  | finish i =>
    obtain ⟨r, hr, -, rfl⟩ := whileLive_eq_some h
    refine (bounded_set hr ?_).trans (and_iff_left trivial).symm
    rfl
  | inlineCall i target =>
    obtain ⟨r, hr, hlive, rfl⟩ := whileLive_eq_some h
    cases hchild : r.childDepth toU32 with
    | none =>
      refine (and_iff_left fun r' hr' _ _ _ => ?_).symm
      cases hr.symm.trans hr'
      rcases childDepth_eq_none.mp hchild with hglobal | hnone
      · exact .inl hglobal
      · exact .inr fun depth hdepth => by cases hnone.symm.trans hdepth
    | some inlineDepth =>
      obtain ⟨hglobal, hdepth⟩ := childDepth_eq_some.mp hchild
      refine bounded_runInlineCall.trans (and_congr_right fun _ =>
        ⟨fun h r' hr' _ hlevel hfound => .inr fun depth' hdepth' => ?_, fun h hlevel hfound => ?_⟩)
      · cases hr.symm.trans hr'
        cases hdepth.symm.trans hdepth'
        exact h hlevel hfound
      · exact ((h r hr hlive hlevel hfound).resolve_left (by omega)) inlineDepth hdepth
  | inlineCallRaw i target inlineDepth =>
    obtain ⟨r, hr, hlive, rfl⟩ := whileLive_eq_some h
    refine bounded_runInlineCall.trans (and_congr_right fun _ => ⟨fun h r' hr' _ => ?_, fun h => h r hr hlive⟩)
    cases hr.symm.trans hr'
    exact h

/-- Chains of nested inline calls have at most ten calls exactly when every run that is the tenth of a chain
has a global of ten or more when it calls the wrapper, and passes a depth of more than ten itself. -/
theorem depth_bounded_iff (toU32 : Int → Option UInt32) (stored : List String) {schedule : List Action}
    {runs : List Run} (hrun : run (step toU32 stored) [] schedule = some runs) :
    Bounded runs ↔ Along (step toU32 stored) (Refused toU32 stored) [] schedule := by
  have hnone : Bounded [] := fun _ h => by cases h
  rw [run_iff_along (fun _ _ _ (_ : True) _ => trivial) (fun _ _ _ _ h => step_bounded h) trivial hrun]
  exact and_iff_right hnone

/-- Only numbers that a `u32` can be go through. -/
def boundedU32 (n : Int) : Option UInt32 := if 0 ≤ n ∧ n < 2 ^ 32 then some (UInt32.ofNat n.toNat) else none

/-- A script that calls itself as long as it is let: the eleventh call is refused. -/
theorem depth_bounded_recursion :
    ∃ runs, run (step boundedU32 ["w"]) [] (.start "w" :: (List.range 11).map (.inlineCall · "w")) = some runs ∧
      runs.length = 11 ∧ Bounded runs ∧
      Along (step boundedU32 ["w"]) (Refused boundedU32 ["w"]) []
        (.start "w" :: (List.range 11).map (.inlineCall · "w")) := by
  obtain ⟨runs, hrun, hlength, hbounded⟩ :
      ∃ runs, run (step boundedU32 ["w"]) [] (.start "w" :: (List.range 11).map (.inlineCall · "w")) = some runs ∧
        runs.length = 11 ∧ Bounded runs := by
    decide +kernel
  exact ⟨runs, hrun, hlength, hbounded, (depth_bounded_iff boundedU32 ["w"] hrun).mp hbounded⟩

/-- A script that sets the global to zero before it calls itself is let go on. -/
theorem reset_depth_unbounded :
    ∃ runs, run (step boundedU32 ["w"]) []
      (.start "w" :: (List.range 11).flatMap fun i => [.assign i (some 0), .inlineCall i "w"]) = some runs ∧
      ¬Bounded runs := by
  decide +kernel

/-! ### Scripts that pass the depth on -/

/-- A script does not lower the depth it was given, neither in the global nor as an argument. -/
def Honest (runs : List Run) : Action → Prop
  | .assign i value => ∀ r, runs[i]? = some r → (r.inlineDepth.toNat : Int) ≤ (value.getD 0).toInt
  | .inlineCallRaw i _ inlineDepth => ∀ r, runs[i]? = some r → r.inlineDepth < inlineDepth
  | _ => True

/-- The depth says how far down the chain the run is, and the global says no less. -/
structure Run.Told (r : Run) : Prop where
  level_le : r.level ≤ r.inlineDepth.toNat
  depth_le : r.inlineDepth ≤ maxInlineDepth
  depth_le_current : (r.inlineDepth.toNat : Int) ≤ r.currentDepth

theorem Run.told_begun {level : Nat} (hlevel : level ≤ inlineDepth.toNat) (hdepth : inlineDepth ≤ maxInlineDepth) :
    (Run.begun level inlineDepth).Told := by
  refine ⟨hlevel, hdepth, ?_⟩
  have hle : inlineDepth.toNat ≤ 10 := UInt32.le_iff_toNat_le.mp hdepth
  have hbits : (Run.begun level inlineDepth).currentDepth = inlineDepth.toBitVec.toInt := rfl
  rw [hbits, BitVec.toInt_eq_toNat_cond, UInt32.toNat_toBitVec, if_pos (by omega)]
  exact Int.le_refl _

theorem told_set (hruns : ∀ r ∈ runs, r.Told) (hr' : r'.Told) : ∀ r ∈ runs.set i r', r.Told := by
  intro r hr
  rcases List.mem_or_eq_of_mem_set hr with hr | rfl
  · exact hruns r hr
  · exact hr'

theorem told_runInlineCall (hruns : ∀ r ∈ runs, r.Told) (hdeeper : caller.level < inlineDepth.toNat) :
    ∀ r ∈ runInlineCall stored runs caller target inlineDepth, r.Told := by
  rw [runInlineCall]
  split
  next => exact hruns
  next hdepth =>
    split
    next =>
      rw [List.forall_mem_append, List.forall_mem_singleton]
      exact ⟨hruns, Run.told_begun hdeeper (UInt32.not_lt.mp hdepth)⟩
    next => exact hruns

/-- The wrapper passes on a depth that says one more. -/
theorem Run.Told.lt_childDepth (hfaithful : ∀ n depth, 0 ≤ n → toU32 n = some depth → (depth.toNat : Int) = n)
    (hr : r.Told) (h : r.childDepth toU32 = some inlineDepth) : r.level < inlineDepth.toNat := by
  obtain ⟨-, h⟩ := childDepth_eq_some.mp h
  have hcurrent := hr.depth_le_current
  have hexact := hfaithful _ _ (by omega) h
  have hlevel := hr.level_le
  omega

theorem step_told (hfaithful : ∀ n depth, 0 ≤ n → toU32 n = some depth → (depth.toNat : Int) = n)
    (hruns : ∀ r ∈ runs, r.Told) (hhonest : Honest runs action) (h : step toU32 stored runs action = some after) :
    ∀ r ∈ after, r.Told := by
  cases action with
  | start name =>
    obtain ⟨-, h⟩ := Option.ite_none_right_eq_some.mp h
    cases h
    rw [List.forall_mem_append, List.forall_mem_singleton]
    exact ⟨hruns, Run.told_begun (Nat.zero_le _) (by decide)⟩
  | assign i value =>
    obtain ⟨r, hr, -, rfl⟩ := whileLive_eq_some h
    have htold := hruns r (List.mem_of_getElem? hr)
    exact told_set hruns ⟨htold.level_le, htold.depth_le, hhonest r hr⟩
  | finish i =>
    obtain ⟨r, hr, -, rfl⟩ := whileLive_eq_some h
    have htold := hruns r (List.mem_of_getElem? hr)
    exact told_set hruns ⟨htold.level_le, htold.depth_le, htold.depth_le_current⟩
  | inlineCall i target =>
    obtain ⟨r, hr, -, rfl⟩ := whileLive_eq_some h
    cases hchild : r.childDepth toU32 with
    | none => exact hruns
    | some inlineDepth =>
      exact told_runInlineCall hruns ((hruns r (List.mem_of_getElem? hr)).lt_childDepth hfaithful hchild)
  | inlineCallRaw i target inlineDepth =>
    obtain ⟨r, hr, -, rfl⟩ := whileLive_eq_some h
    have hlevel := (hruns r (List.mem_of_getElem? hr)).level_le
    exact told_runInlineCall hruns (Nat.lt_of_le_of_lt hlevel (UInt32.lt_iff_toNat_lt.mp (hhonest r hr)))

/-- Among scripts that do not lower the depth they were given no chain has more than ten calls. -/
theorem depth_bounded_of_honest (hfaithful : ∀ n depth, 0 ≤ n → toU32 n = some depth → (depth.toNat : Int) = n)
    {schedule : List Action} (hhonest : Along (step toU32 stored) Honest [] schedule)
    (hrun : run (step toU32 stored) [] schedule = some runs) : Bounded runs := by
  have htold : ∀ r ∈ runs, r.Told :=
    run_invariant (fun _ _ _ hruns hhonest h => step_told hfaithful hruns hhonest h) (fun _ h => by cases h) hhonest hrun
  intro r hr
  exact Nat.le_trans (htold r hr).level_le (UInt32.le_iff_toNat_le.mp (htold r hr).depth_le)

/-- A script that raises the depth in its global, and one that passes on a larger one itself. -/
theorem depth_bounded_of_honest_raised :
    ∃ runs, run (step boundedU32 ["w"]) []
        [.start "w", .assign 0 (some 4), .inlineCall 0 "w", .inlineCallRaw 1 "w" 9] = some runs ∧
      runs.map Run.inlineDepth = [0, 5, 9] ∧ Bounded runs := by
  obtain ⟨runs, hrun, hdepths⟩ :
      ∃ runs, run (step boundedU32 ["w"]) []
          [.start "w", .assign 0 (some 4), .inlineCall 0 "w", .inlineCallRaw 1 "w" 9] = some runs ∧
        runs.map Run.inlineDepth = [0, 5, 9] := by
    decide +kernel
  refine ⟨runs, hrun, hdepths, depth_bounded_of_honest (fun n depth hn h => ?_) ?_ hrun⟩
  · obtain ⟨hrange, h⟩ := Option.ite_none_right_eq_some.mp h
    cases h
    rw [UInt32.toNat_ofNat']
    omega
  · refine ⟨trivial, fun first hfirst => ⟨fun r hr => ?_, fun second hsecond => ⟨trivial, fun third hthird =>
      ⟨fun r hr => ?_, fun _ _ => trivial⟩⟩⟩⟩
    · cases hfirst
      cases hr
      decide
    · cases hfirst
      cases hsecond
      cases hthird
      cases hr
      decide

end NodeGet.JsRuntime.InlineDepth
