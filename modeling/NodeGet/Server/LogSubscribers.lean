import Mathlib.Data.Finset.Card
import NodeGet.Core.Uuid
import NodeGet.Machine.Run

/-! The subscribers of the log stream and their count (`server/src/logging/mod.rs`:
`add_subscriber`, `remove_subscriber`, `on_event`).

A call replaces the map of subscribers in one step, then loads its size, then stores the size as
the count. Events look at the count first. The count that is left is the one stored last, which
need not be the one loaded last. -/
namespace NodeGet.Server.LogSubscribers
open NodeGet.Core NodeGet.Machine Function

inductive Call where
  | addSubscriber (id : Uuid)
  | removeSubscriber (id : Uuid)

inductive Pc where
  | start
  | updated
  | loaded (size : Nat)
  | finished
deriving DecidableEq

structure State (ι : Type) where
  /-- The ids of the subscribers. -/
  subscribers : Finset Uuid
  subscriberCount : Nat
  pc : ι → Pc

def started {ι : Type} : State ι := ⟨∅, 0, fun _ => .start⟩

inductive Action (ι : Type) where
  | rcu (i : ι)
  | load (i : ι)
  | store (i : ι)
deriving DecidableEq

section Machine
variable {ι : Type} [DecidableEq ι]

def Call.apply (subscribers : Finset Uuid) : Call → Finset Uuid
  | addSubscriber id => insert id subscribers
  | removeSubscriber id => subscribers.erase id

def step (calls : ι → Call) (s : State ι) : Action ι → Option (State ι)
  | .rcu i =>
    match s.pc i with
    | .start => some { s with subscribers := (calls i).apply s.subscribers, pc := update s.pc i .updated }
    | _ => none
  | .load i =>
    match s.pc i with
    | .updated => some { s with pc := update s.pc i (.loaded s.subscribers.card) }
    | _ => none
  | .store i =>
    match s.pc i with
    | .loaded size => some { s with subscriberCount := size, pc := update s.pc i .finished }
    | _ => none

/-- The subscribers whose filters an event is put to. -/
def State.onEvent (s : State ι) : Finset Uuid := if s.subscriberCount = 0 then ∅ else s.subscribers

def Action.isStore : Action ι → Bool
  | store _ => true
  | rcu _ | load _ => false

variable {calls : ι → Call} {s t : State ι} {i : ι}

/-- What a step does to the place of a call. -/
inductive Moves (s : State ι) (i : ι) : Action ι → Pc → Prop
  | stay {a : Action ι} : Moves s i a (s.pc i)
  | rcu (hpc : s.pc i = .start) : Moves s i (.rcu i) .updated
  | load (hpc : s.pc i = .updated) : Moves s i (.load i) (.loaded s.subscribers.card)
  | store {size : Nat} (hpc : s.pc i = .loaded size) : Moves s i (.store i) .finished

theorem moves_update {j : ι} {a : Action ι} {pc : Pc} (h : Moves s j a pc) (i : ι) :
    Moves s i a (update s.pc j pc i) := by
  by_cases hij : i = j
  · subst hij
    rwa [update_self]
  · rw [update_of_ne hij]
    exact .stay

theorem step_moves {a : Action ι} (h : step calls s a = some t) (i : ι) : Moves s i a (t.pc i) := by
  cases a with
  | rcu j =>
    simp only [step] at h
    split at h
    next hpc =>
      cases h
      exact moves_update (.rcu hpc) i
    next => cases h
  | load j =>
    simp only [step] at h
    split at h
    next hpc =>
      cases h
      exact moves_update (.load hpc) i
    next => cases h
  | store j =>
    simp only [step] at h
    split at h
    next hpc =>
      cases h
      exact moves_update (.store hpc) i
    next => cases h

theorem step_count {a : Action ι} (h : step calls s a = some t) (ha : a.isStore = false) :
    t.subscriberCount = s.subscriberCount := by
  cases a with
  | rcu j | load j =>
    simp only [step] at h
    split at h
    · cases h
      rfl
    · cases h
  | store j => cases ha

theorem step_store (h : step calls s (.store i) = some t) : s.pc i = .loaded t.subscriberCount := by
  simp only [step] at h
  split at h
  next hpc =>
    cases h
    exact hpc
  next => cases h

theorem step_load (h : step calls s (.load i) = some t) : t.pc i = .loaded s.subscribers.card := by
  simp only [step] at h
  split at h
  · cases h
    exact update_self ..
  · cases h

/-- A call that has loaded a size goes on to store that one. -/
theorem step_holds {size : Nat} (s : State ι) (a : Action ι) (t : State ι)
    (hs : s.pc i = .loaded size ∨ s.pc i = .finished) (h : step calls s a = some t) :
    t.pc i = .loaded size ∨ t.pc i = .finished := by
  generalize hpc : t.pc i = pc
  have hmoves := hpc ▸ step_moves h i
  cases hmoves with
  | stay => exact hs
  | rcu hstart => simp [hstart] at hs
  | load hupdated => simp [hupdated] at hs
  | store => exact .inr rfl

/-- A call stores the size that it loaded. -/
theorem stored_size {middle : List (Action ι)} {u v w : State ι} (hload : step calls u (.load i) = some v)
    (hmiddle : run (step calls) v middle = some w) (hstore : step calls w (.store i) = some t) :
    t.subscriberCount = u.subscribers.card := by
  have hstored := step_store hstore
  have hheld := run_preserves step_holds (.inl (step_load hload)) hmiddle
  rcases hheld with hheld | hheld
  · exact Pc.loaded.inj (hstored.symm.trans hheld)
  · cases hstored.symm.trans hheld

variable {actions : List (Action ι)}

/-- A call that is about to store has loaded. -/
theorem loaded_when {size : Nat} (hrun : run (step calls) started actions = some s) (hpc : s.pc i = .loaded size) :
    ∃ first rest u v, actions = first ++ .load i :: rest ∧ run (step calls) started first = some u ∧
      step calls u (.load i) = some v ∧ run (step calls) v rest = some s := by
  obtain ⟨first, a, rest, u, v, rfl, hfirst, hu, hstep, hv, hrest⟩ :=
    run_becomes (P := fun s => s.pc i = .loaded size) hrun (by simp [started]) hpc
  have hmoves := hv ▸ step_moves hstep i
  generalize hloaded : Pc.loaded size = pc at hmoves
  cases hmoves with
  | stay => exact absurd hloaded.symm hu
  | load => exact ⟨first, rest, u, v, rfl, hfirst, hstep, hrest⟩
  | rcu | store => cases hloaded

theorem finished_when (hrun : run (step calls) started actions = some s) (hpc : s.pc i = .finished) :
    .store i ∈ actions := by
  obtain ⟨first, a, rest, u, v, rfl, -, hu, hstep, hv, -⟩ :=
    run_becomes (P := fun s => s.pc i = .finished) hrun (by simp [started]) hpc
  have hmoves := hv ▸ step_moves hstep i
  generalize hfinished : Pc.finished = pc at hmoves
  cases hmoves with
  | stay => exact absurd hfinished.symm hu
  | store => simp
  | rcu | load => cases hfinished

theorem run_count (hrun : run (step calls) s actions = some t) (hnone : ∀ a ∈ actions, a.isStore = false) :
    t.subscriberCount = s.subscriberCount :=
  run_invariant (P := fun t => t.subscriberCount = s.subscriberCount) (G := fun _ a => a.isStore = false)
    (fun _ _ _ hs ha h => (step_count h ha).trans hs) rfl (Along.of_mem hnone) hrun

omit [DecidableEq ι] in
theorem exists_last_store (h : ¬∀ a ∈ actions, a.isStore = false) :
    ∃ first i rest, actions = first ++ .store i :: rest ∧ ∀ a ∈ rest, a.isStore = false := by
  induction actions with
  | nil => simp at h
  | cons a actions ih =>
    by_cases hlater : ∀ b ∈ actions, b.isStore = false
    · cases a with
      | store i => exact ⟨[], i, actions, rfl, hlater⟩
      | rcu i | load i => exact absurd (List.forall_mem_cons (p := fun a => Action.isStore a = false).mpr ⟨rfl, hlater⟩) h
    · obtain ⟨first, i, rest, rfl, hrest⟩ := ih hlater
      exact ⟨a :: first, i, rest, rfl, hrest⟩

/-- The call that stores last leaves the size it loaded. -/
theorem last_stored {first middle rest : List (Action ι)} {u : State ι}
    (hrun : run (step calls) started (first ++ .load i :: (middle ++ .store i :: rest)) = some s)
    (hrest : ∀ a ∈ rest, a.isStore = false) (hfirst : run (step calls) started first = some u) :
    s.subscriberCount = u.subscribers.card := by
  obtain ⟨v, hload, hrun⟩ := run_cons_some.mp (run_of_append hrun hfirst)
  obtain ⟨w, hmiddle, hrun⟩ := run_append_some.mp hrun
  obtain ⟨x, hstore, hrun⟩ := run_cons_some.mp hrun
  rw [run_count hrun hrest, stored_size hload hmiddle hstore]

theorem run_without_calls (hrun : run (step calls) started actions = some s) (hdone : ∀ i, s.pc i = .finished)
    (hnone : ∀ a ∈ actions, a.isStore = false) : s = started := by
  have hcalls (i : ι) : False := by
    have hstore := hnone _ (finished_when hrun (hdone i))
    cases hstore
  cases actions with
  | nil => exact (Option.some.inj hrun).symm
  | cons a actions => cases a <;> exact (hcalls ‹ι›).elim

/-- When all calls have finished, the count is the number of subscribers, and events reach them,
exactly if the call that stored last loaded the size that the map has now. -/
theorem count_exact_iff {actions : List (Action ι)} (hrun : run (step calls) started actions = some s)
    (hdone : ∀ i, s.pc i = .finished) :
    s.subscriberCount = s.subscribers.card ∧ s.onEvent = s.subscribers ↔
      ∀ first i middle rest u, actions = first ++ .load i :: (middle ++ .store i :: rest) →
        (∀ a ∈ rest, a.isStore = false) → run (step calls) started first = some u →
        u.subscribers.card = s.subscribers.card := by
  constructor
  · intro h first i middle rest u hactions hrest hfirst
    rw [← h.1]
    exact (last_stored (hactions ▸ hrun) hrest hfirst).symm
  · intro h
    have hcount : s.subscriberCount = s.subscribers.card := by
      by_cases hnone : ∀ a ∈ actions, a.isStore = false
      · rw [run_without_calls hrun hdone hnone]
        rfl
      · obtain ⟨before, i, rest, rfl, hrest⟩ := exists_last_store hnone
        obtain ⟨w, hbefore, htail⟩ := run_append_some.mp hrun
        obtain ⟨x, hstore, -⟩ := run_cons_some.mp htail
        obtain ⟨first, middle, u, v, rfl, hfirst, -, -⟩ := loaded_when hbefore (step_store hstore)
        rw [← h first i middle rest u (by simp) hrest hfirst]
        exact last_stored (by simpa using hrun) hrest hfirst
    refine ⟨hcount, ?_⟩
    by_cases hzero : s.subscriberCount = 0
    · rw [State.onEvent, if_pos hzero, Finset.card_eq_zero.mp (hcount.symm.trans hzero)]
    · rw [State.onEvent, if_neg hzero]

end Machine

/-- One subscriber is added, and removed while another is added. -/
def overlapping : Fin 3 → Call
  | 0 => .addSubscriber 1
  | 1 => .removeSubscriber 1
  | 2 => .addSubscriber 2

theorem count_exact_ordered :
    ∃ s, run (step overlapping) started
        [.rcu 0, .load 0, .store 0, .rcu 1, .rcu 2, .load 2, .store 2, .load 1, .store 1] = some s ∧
      ∀ first i middle rest u,
        [.rcu 0, .load 0, .store 0, .rcu 1, .rcu 2, .load 2, .store 2, .load 1, .store 1] =
          first ++ .load i :: (middle ++ .store i :: rest) →
        (∀ a ∈ rest, a.isStore = false) → run (step overlapping) started first = some u →
        u.subscribers.card = s.subscribers.card := by
  obtain ⟨s, hrun, hdone, hcount⟩ : ∃ s,
      run (step overlapping) started
        [.rcu 0, .load 0, .store 0, .rcu 1, .rcu 2, .load 2, .store 2, .load 1, .store 1] = some s ∧
      (∀ i, s.pc i = .finished) ∧ s.subscriberCount = s.subscribers.card ∧ s.onEvent = s.subscribers := by
    decide +kernel
  exact ⟨s, hrun, (count_exact_iff hrun hdone).mp hcount⟩

/-- The removal loads that nobody is left, and stores it after the new subscriber was counted. -/
theorem subscriber_cut_off :
    ∃ s, run (step overlapping) started
        [.rcu 0, .load 0, .store 0, .rcu 1, .load 1, .rcu 2, .load 2, .store 2, .store 1] = some s ∧
      (∀ i, s.pc i = .finished) ∧ s.subscribers = {2} ∧ s.subscriberCount = 0 ∧ s.onEvent = ∅ := by
  decide +kernel

end NodeGet.Server.LogSubscribers
