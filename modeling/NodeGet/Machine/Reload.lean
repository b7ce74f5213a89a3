import NodeGet.Machine.Run

/-! Caches that are refilled by load-then-swap.

A *source* (a table) is changed by a set of calls. Each call commits one atomic
write and, when the write did something, reloads a cache: it reads the whole
source and then replaces the cache's slots one after the other by what the read
source says they should hold (`view`). Nothing orders the calls, so their steps
interleave freely; a schedule is the list of calls whose turn it is.

Two calls may swap in the opposite order of their loads, and then the older load
wins. `NoStaleSwap` says that this does not happen: a slot is never replaced from
a load older than the one that filled it. Under that condition the cache is
coherent once every call has finished (`run_coherent`). The ages of loads are
counted in committed writes; the counters are observers only, no step reads
them. -/
namespace NodeGet.Machine.Reload
open Function

section
universe u v

/-- How far a call has come: it has yet to write, has written, holds a loaded
source (at its age) with the slots still to replace, or has returned. -/
inductive Pc (S : Type u) (K : Type v) where
  | start
  | wrote
  | swapping (snapshot : S) (age : Nat) (rest : List K)
  | finished

end

variable {ι S K W : Type*} {V : K → Type*} [DecidableEq ι] [DecidableEq K]

structure State (ι S : Type*) {K : Type*} (V : K → Type*) where
  source : S
  slot : (k : K) → V k
  pc : ι → Pc S K
  clock : Nat
  slotAge : K → Nat

/-- What is fixed in a run: how a write changes the source (`none`: it changes
nothing and its call returns without a reload), what each slot should hold, and
the order in which a reload replaces the slots. -/
structure Design (S W : Type*) {K : Type*} (V : K → Type*) where
  commit : W → S → Option S
  view : (k : K) → S → V k
  slots : List K

variable (d : Design S W V) (op : ι → W)

/-- No call has begun and the cache is what the source says. -/
def initial (source : S) : State ι S V where
  source := source
  slot k := d.view k source
  pc _ := .start
  clock := 0
  slotAge _ := 0

/-- The next step of call `i`. -/
def step (s : State ι S V) (i : ι) : Option (State ι S V) :=
  match s.pc i with
  | .start =>
    match d.commit (op i) s.source with
    | none => some {s with pc := update s.pc i .finished}
    | some source => some {s with
        source := source
        clock := s.clock + 1
        pc := update s.pc i .wrote}
  | .wrote => some {s with pc := update s.pc i (.swapping s.source s.clock d.slots)}
  | .swapping snapshot age (k :: rest) => some {s with
      slot := update s.slot k (d.view k snapshot)
      slotAge := update s.slotAge k age
      pc := update s.pc i (.swapping snapshot age rest)}
  | .swapping _ _ [] => some {s with pc := update s.pc i .finished}
  | .finished => none

/-- The step of call `i` does not replace a slot filled from a newer load. -/
def NoStaleSwap (s : State ι S V) (i : ι) : Prop :=
  match s.pc i with
  | .swapping _ age (k :: _) => s.slotAge k ≤ age
  | _ => True

/-- Someone will still replace slot `k` by what the source now says. -/
def Pending (s : State ι S V) (k : K) (i : ι) : Prop :=
  s.pc i = .wrote ∨ ∃ snapshot rest, s.pc i = .swapping snapshot s.clock rest ∧ k ∈ rest

structure Coherent (s : State ι S V) : Prop where
  age_le : ∀ k, s.slotAge k ≤ s.clock
  current : ∀ k, s.slotAge k = s.clock → s.slot k = d.view k s.source
  snapshot : ∀ i snapshot age rest, s.pc i = .swapping snapshot age rest →
    age ≤ s.clock ∧ (age = s.clock → snapshot = s.source)
  pending : ∀ k, s.slotAge k = s.clock ∨ ∃ i, Pending s k i

omit [DecidableEq ι] [DecidableEq K] in
theorem initial_coherent (source : S) : Coherent d (initial d source : State ι S V) where
  age_le _ := Nat.le_refl 0
  current _ _ := rfl
  snapshot _ _ _ _ h := by cases h
  pending _ := .inl rfl

/-! ### What a step can do -/

inductive Step (s : State ι S V) (i : ι) : State ι S V → Prop where
  | refused (h : s.pc i = .start) (hc : d.commit (op i) s.source = none) :
      Step s i {s with pc := update s.pc i .finished}
  | write (h : s.pc i = .start) {source : S} (hc : d.commit (op i) s.source = some source) :
      Step s i {s with
        source := source
        clock := s.clock + 1
        pc := update s.pc i .wrote}
  | load (h : s.pc i = .wrote) :
      Step s i {s with pc := update s.pc i (.swapping s.source s.clock d.slots)}
  | swap {snapshot : S} {age : Nat} {k : K} {rest : List K}
      (h : s.pc i = .swapping snapshot age (k :: rest)) :
      Step s i {s with
        slot := update s.slot k (d.view k snapshot)
        slotAge := update s.slotAge k age
        pc := update s.pc i (.swapping snapshot age rest)}
  | finish {snapshot : S} {age : Nat} (h : s.pc i = .swapping snapshot age []) :
      Step s i {s with pc := update s.pc i .finished}

variable {s : State ι S V} {i : ι}

theorem step_cases {s' : State ι S V} (h : step d op s i = some s') : Step d op s i s' := by
  unfold step at h
  split at h
  next hpc =>
    split at h
    next hc => cases h; exact .refused hpc hc
    next source hc => cases h; exact .write hpc hc
  next hpc => cases h; exact .load hpc
  next snapshot age k rest hpc => cases h; exact .swap hpc
  next hpc => cases h; exact .finish hpc
  next => cases h

/-! ### Coherence is kept -/

section
omit [DecidableEq K]

variable {s : State ι S V} {i : ι}

/-- A call that is not waiting to reload can change its place unnoticed. -/
theorem Pending.of_update {k : K} {j : ι} {pc : Pc S K} (h : Pending s k j) (hij : j ≠ i) :
    Pending {s with pc := update s.pc i pc} k j := by
  simpa [Pending, update_of_ne hij] using h

theorem return_coherent (hs : Coherent d s) (hw : s.pc i ≠ .wrote)
    (hr : ∀ snapshot age k rest, s.pc i ≠ .swapping snapshot age (k :: rest)) :
    Coherent d {s with pc := update s.pc i .finished} where
  age_le := hs.age_le
  current := hs.current
  snapshot j snapshot age rest h := by
    by_cases hj : j = i
    · subst hj
      simp at h
    · exact hs.snapshot j snapshot age rest (by simpa [update_of_ne hj] using h)
  pending k := by
    obtain h | ⟨j, hj⟩ := hs.pending k
    · exact .inl h
    · refine .inr ⟨j, hj.of_update ?_⟩
      rintro rfl
      obtain h | ⟨snapshot, rest, h, hk⟩ := hj
      · exact hw h
      · cases rest with
        | nil => simp at hk
        | cons k' rest => exact hr _ _ _ _ h

theorem write_coherent (hs : Coherent d s) (source : S) :
    Coherent d {s with
      source := source
      clock := s.clock + 1
      pc := update s.pc i .wrote} where
  age_le k := Nat.le_succ_of_le (hs.age_le k)
  current k h := by
    have := hs.age_le k
    simp only at h
    omega
  snapshot j snapshot age rest h := by
    by_cases hj : j = i
    · subst hj
      simp at h
    · obtain ⟨hle, -⟩ := hs.snapshot j snapshot age rest (by simpa [update_of_ne hj] using h)
      exact ⟨Nat.le_succ_of_le hle, fun heq => by simp only at heq; omega⟩
  pending k := .inr ⟨i, .inl (update_self ..)⟩

theorem load_coherent (hs : Coherent d s) (hslots : ∀ k, k ∈ d.slots) :
    Coherent d {s with pc := update s.pc i (.swapping s.source s.clock d.slots)} where
  age_le := hs.age_le
  current := hs.current
  snapshot j snapshot age rest h := by
    by_cases hj : j = i
    · subst hj
      simp only [update_self, Pc.swapping.injEq] at h
      obtain ⟨rfl, rfl, -⟩ := h
      exact ⟨Nat.le_refl _, fun _ => rfl⟩
    · exact hs.snapshot j snapshot age rest (by simpa [update_of_ne hj] using h)
  pending k := by
    obtain h | ⟨j, hj⟩ := hs.pending k
    · exact .inl h
    · by_cases hji : j = i
      · exact .inr ⟨i, .inr ⟨s.source, d.slots, update_self .., hslots k⟩⟩
      · exact .inr ⟨j, hj.of_update hji⟩

end

/-- Replacing a slot by a load at least as new as the one it holds. -/
theorem swap_coherent (hs : Coherent d s) {snapshot : S} {age : Nat} {k : K} {rest : List K}
    (hpc : s.pc i = .swapping snapshot age (k :: rest)) (hage : s.slotAge k ≤ age) :
    Coherent d {s with
      slot := update s.slot k (d.view k snapshot)
      slotAge := update s.slotAge k age
      pc := update s.pc i (.swapping snapshot age rest)} := by
  obtain ⟨hle, hsource⟩ := hs.snapshot i _ _ _ hpc
  refine ⟨fun k' => ?_, fun k' h => ?_, fun j snapshot' age' rest' h => ?_, fun k' => ?_⟩
  · by_cases hk : k' = k
    · subst hk
      simpa using hle
    · simpa [update_of_ne hk] using hs.age_le k'
  · by_cases hk : k' = k
    · subst hk
      simp only [update_self] at h ⊢
      rw [hsource h]
    · simp only [update_of_ne hk] at h ⊢
      exact hs.current k' h
  · by_cases hj : j = i
    · subst hj
      simp only [update_self, Pc.swapping.injEq] at h
      obtain ⟨rfl, rfl, -⟩ := h
      exact ⟨hle, hsource⟩
    · exact hs.snapshot j _ _ _ (by simpa [update_of_ne hj] using h)
  · -- the call that would bring `k'` up to date may be the one that is swapping
    by_cases hk : k' = k
    · subst hk
      by_cases hnew : age = s.clock
      · exact .inl (by simpa using hnew)
      · obtain h | ⟨j, hj⟩ := hs.pending k'
        · omega
        · refine .inr ⟨j, ?_⟩
          have hji : j ≠ i := by
            rintro rfl
            obtain h | ⟨_, _, h, -⟩ := hj
            · rw [hpc] at h
              cases h
            · rw [hpc] at h
              cases h
              exact hnew rfl
          simpa [Pending, update_of_ne hji] using hj
    · obtain h | ⟨j, hj⟩ := hs.pending k'
      · exact .inl (by simpa [update_of_ne hk] using h)
      · refine .inr ⟨j, ?_⟩
        by_cases hji : j = i
        · subst hji
          obtain h | ⟨_, _, h, hmem⟩ := hj
          · rw [hpc] at h
            cases h
          · rw [hpc] at h
            cases h
            refine .inr ⟨snapshot, rest, update_self .., ?_⟩
            exact (List.mem_cons.mp hmem).resolve_left hk
        · simpa [Pending, update_of_ne hji] using hj

theorem step_coherent (hslots : ∀ k, k ∈ d.slots) (s : State ι S V) (i : ι) (s' : State ι S V)
    (hs : Coherent d s) (hG : NoStaleSwap s i) (h : step d op s i = some s') : Coherent d s' := by
  cases step_cases d op h with
  | refused hpc => exact return_coherent d hs (by simp [hpc]) (by simp [hpc])
  | write hpc => exact write_coherent d hs _
  | load hpc => exact load_coherent d hs hslots
  | swap hpc => exact swap_coherent d hs hpc (by simpa [NoStaleSwap, hpc] using hG)
  | finish hpc => exact return_coherent d hs (by simp [hpc]) (by simp [hpc])

/-- **Load-then-swap is coherent at rest**: after a run in which no slot was
replaced from a load older than the one it held, and with every call returned,
each slot holds what the source says. -/
theorem run_coherent (hslots : ∀ k, k ∈ d.slots) (source : S) (schedule : List ι)
    (hG : Along (step d op) NoStaleSwap (initial d source) schedule)
    (hrun : run (step d op) (initial d source) schedule = some s) (hdone : ∀ i, s.pc i = .finished) (k : K) :
    s.slot k = d.view k s.source := by
  have hs : Coherent d s :=
    run_invariant (step_coherent d op hslots) (initial_coherent d source) hG hrun
  obtain h | ⟨i, hi⟩ := hs.pending k
  · exact hs.current k h
  · simp [Pending, hdone i] at hi

end NodeGet.Machine.Reload
