import Mathlib.Logic.Function.Basic
import Mathlib.Order.Basic

/-! Runs of a partial step function.

A concurrent component is modelled by one step function `σ → α → Option σ`: the
action says whose turn it is (and what the outside world answers), `none` says
that the action is not possible in that state. A *run* is a list of actions
applied in order, so "every interleaving" is "every list of actions".

What holds in every state a run reaches is proved by `run_invariant`. A component
that keeps its promise only on some runs states which with `Along`: every step
of the run meets a condition on the state it is taken from and on the action. -/
namespace NodeGet.Machine

variable {σ α : Type*} {step : σ → α → Option σ}

def run (step : σ → α → Option σ) (s : σ) : List α → Option σ
  | [] => some s
  | a :: rest => (step s a).bind fun s' => run step s' rest

/-- Every step of the run meets `G` in the state it is taken from. -/
def Along (step : σ → α → Option σ) (G : σ → α → Prop) (s : σ) : List α → Prop
  | [] => True
  | a :: rest => G s a ∧ ∀ s', step s a = some s' → Along step G s' rest

instance Along.decidable {G : σ → α → Prop} [∀ s a, Decidable (G s a)] :
    (s : σ) → (actions : List α) → Decidable (Along step G s actions)
  | _, [] => .isTrue trivial
  | s, a :: rest =>
    match h : step s a with
    | none => decidable_of_iff (G s a) ⟨fun hG => ⟨hG, fun _ hs => by cases h.symm.trans hs⟩, fun hG => hG.1⟩
    | some t =>
      have : Decidable (Along step G t rest) := Along.decidable t rest
      decidable_of_iff (G s a ∧ Along step G t rest)
        ⟨fun hG => ⟨hG.1, fun s' hs => Option.some.inj (h.symm.trans hs) ▸ hG.2⟩, fun hG => ⟨hG.1, hG.2 t h⟩⟩

/-- Where a given step or run leads can be computed. -/
instance decidableLeadsTo {P : σ → Prop} [DecidablePred P] : (o : Option σ) → Decidable (∃ t, o = some t ∧ P t)
  | none => .isFalse (by simp)
  | some t => decidable_of_iff (P t) (by simp)

theorem run_cons (s : σ) (a : α) (rest : List α) :
    run step s (a :: rest) = (step s a).bind fun s' => run step s' rest := rfl

variable {s s' t u : σ} {a : α} {rest first actions : List α} {P Inv : σ → Prop} {G : σ → α → Prop}

/-- A run is a first step and a run from where it leads. -/
theorem run_cons_some : run step s (a :: rest) = some s' ↔ ∃ t, step s a = some t ∧ run step t rest = some s' := by
  rw [run_cons, Option.bind_eq_some_iff]

/-- A run goes on from where another one led. -/
theorem run_append_some :
    run step s (first ++ rest) = some u ↔ ∃ t, run step s first = some t ∧ run step t rest = some u := by
  induction first generalizing s with
  | nil => simp [run]
  | cons a first ih =>
    rw [List.cons_append, run_cons, run_cons]
    cases step s a with
    | none => simp
    | some v => exact ih

theorem run_append (hfirst : run step s first = some t) (hrest : run step t rest = some u) :
    run step s (first ++ rest) = some u :=
  run_append_some.mpr ⟨t, hfirst, hrest⟩

/-- What a run does after its first part. -/
theorem run_of_append (hrun : run step s (first ++ rest) = some u) (hfirst : run step s first = some t) :
    run step t rest = some u := by
  obtain ⟨v, hv, hrest⟩ := run_append_some.mp hrun
  cases hfirst.symm.trans hv
  exact hrest

/-- What holds at the end of a run and not at its start came about by one of its steps. -/
theorem run_becomes (hrun : run step s actions = some t) (hs : ¬P s) (ht : P t) :
    ∃ first a rest u v, actions = first ++ a :: rest ∧ run step s first = some u ∧ ¬P u ∧
      step u a = some v ∧ P v ∧ run step v rest = some t := by
  induction actions generalizing s with
  | nil =>
    cases hrun
    exact absurd ht hs
  | cons a rest ih =>
    obtain ⟨v, hv, hrest⟩ := run_cons_some.mp hrun
    by_cases hP : P v
    · exact ⟨[], a, rest, s, v, rfl, rfl, hs, hv, hP, hrest⟩
    · obtain ⟨first, b, rest', u, w, rfl, hfirst, hu, hw, hPw, hrun'⟩ := ih hrest hP
      exact ⟨a :: first, b, rest', u, w, rfl, run_cons_some.mpr ⟨v, hv, hfirst⟩, hu, hw, hPw, hrun'⟩

/-- What a step adds to a property is what the whole run adds to it. -/
theorem run_iff_along (hinv : ∀ s a s', Inv s → step s a = some s' → Inv s')
    (hstep : ∀ s a s', Inv s → step s a = some s' → (P s' ↔ P s ∧ G s a)) (hs : Inv s)
    (hrun : run step s actions = some t) : P t ↔ P s ∧ Along step G s actions := by
  induction actions generalizing s with
  | nil =>
    cases hrun
    exact (and_iff_left trivial).symm
  | cons a rest ih =>
    obtain ⟨u, hu, hrest⟩ := run_cons_some.mp hrun
    have halong : Along step G s (a :: rest) ↔ G s a ∧ Along step G u rest := by
      refine and_congr_right fun _ => ⟨fun h => h u hu, fun h s' hs' => ?_⟩
      rw [hu] at hs'
      cases hs'
      exact h
    rw [ih (hinv s a u hs hu) hrest, hstep s a u hs hu, halong, and_assoc]

/-- A run of allowed steps, one step longer at its start. -/
theorem Along.cons (hstep : step s a = some t) (hG : G s a) (hrest : Along step G t rest) :
    Along step G s (a :: rest) := by
  refine ⟨hG, fun s' h => ?_⟩
  rw [hstep] at h
  cases h
  exact hrest

theorem Along.of_forall (hG : ∀ s a, G s a) (s : σ) (actions : List α) : Along step G s actions := by
  induction actions generalizing s with
  | nil => trivial
  | cons a rest ih => exact ⟨hG s a, fun s' _ => ih s'⟩

/-- A condition on the actions alone. -/
theorem Along.of_mem {P : α → Prop} (hP : ∀ a ∈ actions, P a) : Along step (fun _ a => P a) s actions := by
  induction actions generalizing s with
  | nil => trivial
  | cons a rest ih => exact ⟨hP a List.mem_cons_self, fun _ _ => ih fun b hb => hP b (List.mem_cons_of_mem _ hb)⟩

/-- A condition on the actions alone, added to one on the run. -/
theorem Along.and_forall {P : α → Prop} (hG : Along step G s actions) (hP : ∀ a ∈ actions, P a) :
    Along step (fun s a => G s a ∧ P a) s actions := by
  induction actions generalizing s with
  | nil => trivial
  | cons a rest ih =>
    refine ⟨⟨hG.1, hP a List.mem_cons_self⟩, fun s' h => ?_⟩
    exact ih (hG.2 s' h) fun b hb => hP b (List.mem_cons_of_mem _ hb)

/-- What every step that meets `G` preserves holds wherever a run of such steps leads. -/
theorem run_invariant (hstep : ∀ s a s', P s → G s a → step s a = some s' → P s') (hs : P s)
    (hG : Along step G s actions) (hrun : run step s actions = some s') : P s' := by
  induction actions generalizing s with
  | nil =>
    cases hrun
    exact hs
  | cons a rest ih =>
    obtain ⟨t, ht, hrest⟩ := run_cons_some.mp hrun
    exact ih (hstep s a t hs hG.1 ht) (hG.2 t ht) hrest

/-- What every step preserves holds wherever a run leads. -/
theorem run_preserves (hstep : ∀ s a s', P s → step s a = some s' → P s') (hs : P s)
    (hrun : run step s actions = some s') : P s' :=
  run_invariant (fun s a s' hs _ h => hstep s a s' hs h) hs (Along.of_forall (fun _ _ => trivial) s actions) hrun

/-- A measure that every allowed step lowers bounds how many such steps a run can take. -/
theorem run_length_add_le {measure : σ → Nat} (hstep : ∀ s a s', P s → G s a → step s a = some s' → P s')
    (hlower : ∀ s a s', P s → G s a → step s a = some s' → measure s' < measure s) (hs : P s)
    (hG : Along step G s actions) (hrun : run step s actions = some s') : actions.length + measure s' ≤ measure s := by
  induction actions generalizing s with
  | nil =>
    cases hrun
    exact Nat.le_of_eq (Nat.zero_add _)
  | cons a rest ih =>
    obtain ⟨t, ht, hrest⟩ := run_cons_some.mp hrun
    have hlt := hlower s a t hs hG.1 ht
    have hle := ih (hstep s a t hs hG.1 ht) (hG.2 t ht) hrest
    rw [List.length_cons]
    omega

/-- What an invariant gives of a state and a step holds of every step of a run of allowed steps. -/
theorem Along.of_invariant {H : σ → α → Prop} (hstep : ∀ s a s', P s → G s a → step s a = some s' → P s')
    (hH : ∀ s a, P s → G s a → H s a) (hs : P s) (hG : Along step G s actions) : Along step H s actions := by
  induction actions generalizing s with
  | nil => trivial
  | cons a rest ih => exact ⟨hH s a hs hG.1, fun s' h => ih (hstep s a s' hs hG.1 h) (hG.2 s' h)⟩

/-- In every state that the run passes through. -/
def Always (step : σ → α → Option σ) (P : σ → Prop) (s : σ) (actions : List α) : Prop :=
  ∀ first, first <+: actions → ∀ t, run step s first = some t → P t

theorem always_cons : Always step P s (a :: rest) ↔ P s ∧ ∀ t, step s a = some t → Always step P t rest := by
  constructor
  · intro h
    refine ⟨h [] List.nil_prefix s rfl, fun t ht first hfirst u hu => ?_⟩
    exact h (a :: first) (List.prefix_cons_inj a |>.mpr hfirst) u (run_cons_some.mpr ⟨t, ht, hu⟩)
  · intro h first hfirst u hu
    cases first with
    | nil =>
      cases hu
      exact h.1
    | cons b first =>
      obtain ⟨rfl, hbegins⟩ := List.cons_prefix_cons.mp hfirst
      obtain ⟨t, ht, hrun⟩ := run_cons_some.mp hu
      exact h.2 t ht first hbegins u hrun

/-- A property that allowed steps keep, by an invariant, and that every other step breaks at
once holds throughout a run exactly when all its steps are allowed. -/
theorem always_iff_along (hinv : ∀ s, Inv s → P s) (hstep : ∀ s a s', Inv s → G s a → step s a = some s' → Inv s')
    (hbreaks : ∀ s a, Inv s → ¬G s a → ∃ s', step s a = some s' ∧ ¬P s') (hs : Inv s) (actions : List α) :
    Always step P s actions ↔ Along step G s actions := by
  induction actions generalizing s with
  | nil =>
    refine iff_of_true (fun first hfirst t ht => ?_) trivial
    obtain rfl := List.prefix_nil.mp hfirst
    cases ht
    exact hinv s hs
  | cons a rest ih =>
    rw [always_cons]
    constructor
    · intro h
      have hG : G s a := by
        by_contra hnot
        obtain ⟨t, ht, hbroken⟩ := hbreaks s a hs hnot
        exact hbroken (h.2 t ht [] List.nil_prefix t rfl)
      exact ⟨hG, fun t ht => (ih (hstep s a t hs hG ht)).mp (h.2 t ht)⟩
    · intro h
      exact ⟨hinv s hs, fun t ht => (ih (hstep s a t hs h.1 ht)).mpr (h.2 t ht)⟩

end NodeGet.Machine
