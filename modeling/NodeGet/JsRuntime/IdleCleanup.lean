import NodeGet.JsRuntime.WorkerPool

/-! Clean-up of idle workers is safe.

What makes a removal safe is the third load of the pass. Clones are made under a lock, so none is made
while the pass holds the write lock; a count of one then says that the map owns the only handle, up to
the removal and for good (`Owned.cleared`). Nobody can send to a removed worker, so its shutdown command
is the last it gets (`Orderly`), and a thread takes its commands in the order they were sent
(`Served`). The other loads do not matter for this. -/
namespace NodeGet.JsRuntime.WorkerPool
open NodeGet.Machine Function

variable {ι ν : Type} [DecidableEq ι] [DecidableEq ν] {script : ι → ν} {cleanTime : ι → Option Int64}

/-! ### Who owns a handle -/

/-- A handle is owned by the calls that say so and, while its worker is in the map, by the map. -/
structure Owned (script : ι → ν) (s : State ι ν) : Prop where
  call_iff : ∀ i k, .call i ∈ (s.worker k).handle.owners ↔ (s.pc i).handle = some k
  pooled : ∀ name k, s.workers name = some k → script k = name ∧ .pool ∈ (s.worker k).handle.owners
  held : ∀ i k, (s.pc i).handle = some k → s.workers (script i) = some k
  fresh : ∀ k, (s.pc k).seeking → ∀ name, s.workers name ≠ some k
  cleared : ∀ name k, s.pass.clears = some name → s.workers name = some k → ∀ i, (s.pc i).handle ≠ some k
  removed : ∀ k, s.pass.shuts = some k → ∀ name, s.workers name ≠ some k

omit [DecidableEq ι] [DecidableEq ν] in
theorem Owned.started : Owned script (State.started : State ι ν) := by
  refine ⟨?_, ?_, ?_, ?_, ?_, ?_⟩
  · intro i k
    simp [State.started, Worker.unspawned, Pc.handle]
  · intro name k h
    cases h
  · intro i k h
    cases h
  · intro k _ name h
    cases h
  · intro name k h
    cases h
  · intro k h
    cases h

namespace Owned
variable {s : State ι ν}

omit [DecidableEq ι] [DecidableEq ν] in
/-- Nothing happened to the map, to its handles and to those of the calls. -/
theorem frame (hs : Owned script s) {t : State ι ν} (hworkers : t.workers = s.workers)
    (howners : ∀ k owner, owner ≠ .pass → (owner ∈ (t.worker k).handle.owners ↔ owner ∈ (s.worker k).handle.owners))
    (hpc : ∀ i, (t.pc i).handle = (s.pc i).handle) (hseeking : ∀ i, (t.pc i).seeking → (s.pc i).seeking)
    (hcleared : ∀ name k, t.pass.clears = some name → s.workers name = some k → ∀ i, (s.pc i).handle ≠ some k)
    (hshuts : ∀ k, t.pass.shuts = some k → s.pass.shuts = some k) : Owned script t := by
  refine ⟨?_, ?_, ?_, ?_, ?_, ?_⟩
  · intro i k
    rw [howners k _ (by simp), hpc]
    exact hs.call_iff i k
  · intro name k h
    rw [hworkers] at h
    rw [howners k _ (by simp)]
    exact hs.pooled name k h
  · intro i k h
    rw [hpc] at h
    rw [hworkers]
    exact hs.held i k h
  · intro k h
    rw [hworkers]
    exact hs.fresh k (hseeking k h)
  · intro name k h hk i
    rw [hworkers] at hk
    rw [hpc]
    exact hcleared name k h hk i
  · intro k h
    rw [hworkers]
    exact hs.removed k (hshuts k h)

variable {call k : ι} {pc : Pc ι} {w : Worker ι} {now : Int64} {name : ν}

omit [DecidableEq ν] in
/-- A call changes what it owns of one worker, and nobody else's handles of it. -/
theorem change (hs : Owned script s) (hcall : .call call ∈ w.handle.owners ↔ pc.handle = some k)
    (hothers : ∀ owner, owner ≠ .call call → (owner ∈ w.handle.owners ↔ owner ∈ (s.worker k).handle.owners))
    (helse : ∀ k', k' ≠ k → pc.handle ≠ some k' ∧ (s.pc call).handle ≠ some k')
    (hfound : pc.handle = some k → s.workers (script call) = some k) (hseeking : pc.seeking → (s.pc call).seeking)
    (hcleared : ∀ name, s.pass.clears = some name → pc.handle = none ∨ pc.handle = (s.pc call).handle) :
    Owned script ((s.put k w).goto call pc) := by
  have hpc (i : ι) (hi : i ≠ call) : ((s.put k w).goto call pc).pc i = s.pc i := update_of_ne hi ..
  have hpcCall : ((s.put k w).goto call pc).pc call = pc := update_self ..
  have hworker (k' : ι) (hk : k' ≠ k) : ((s.put k w).goto call pc).worker k' = s.worker k' :=
    update_of_ne hk ..
  have hworkerK : ((s.put k w).goto call pc).worker k = w := update_self ..
  refine ⟨?_, ?_, ?_, ?_, ?_, hs.removed⟩
  · intro i k'
    by_cases hi : i = call
    · subst hi
      rw [hpcCall]
      by_cases hk : k' = k
      · subst hk
        rw [hworkerK]
        exact hcall
      · rw [hworker k' hk, hs.call_iff i k']
        exact iff_of_false (helse k' hk).2 (helse k' hk).1
    · rw [hpc i hi, ← hs.call_iff i k']
      by_cases hk : k' = k
      · subst hk
        rw [hworkerK]
        exact hothers (.call i) fun heq => hi (Owner.call.inj heq)
      · rw [hworker k' hk]
  · intro name k' h
    obtain ⟨hname, howns⟩ := hs.pooled name k' h
    refine ⟨hname, ?_⟩
    by_cases hk : k' = k
    · subst hk
      rw [hworkerK]
      exact (hothers .pool (by simp)).mpr howns
    · rw [hworker k' hk]
      exact howns
  · intro i k' h
    by_cases hi : i = call
    · subst hi
      rw [hpcCall] at h
      by_cases hk : k' = k
      · subst hk
        exact hfound h
      · exact absurd h (helse k' hk).1
    · rw [hpc i hi] at h
      exact hs.held i k' h
  · intro k' h
    by_cases hk : k' = call
    · subst hk
      rw [hpcCall] at h
      exact hs.fresh k' (hseeking h)
    · rw [hpc k' hk] at h
      exact hs.fresh k' h
  · intro name k' h hk' i
    by_cases hi : i = call
    · subst hi
      rw [hpcCall]
      rcases hcleared name h with hnone | hsame
      · rw [hnone]
        exact (Option.some_ne_none k').symm
      · rw [hsame]
        exact hs.cleared name k' h hk' i
    · rw [hpc i hi]
      exact hs.cleared name k' h hk' i

omit [DecidableEq ν] in
/-- A call clones the handle that it finds in the map. -/
theorem clone (hs : Owned script s) (hseeking : (s.pc call).seeking) (hwrites : s.pass.writes = false)
    (hfound : s.workers (script call) = some k) : Owned script (s.clone call k) := by
  have hnone := Pc.handle_of_seeking hseeking
  refine hs.change ?_ ?_ ?_ (fun _ => hfound) (fun _ => hseeking) ?_
  · simp [Worker.own, Pc.handle]
  · intro owner howner
    simp [Worker.own, howner]
  · intro k' hk
    rw [hnone]
    exact ⟨fun h => hk (Option.some.inj h).symm, (Option.some_ne_none k').symm⟩
  · intro name h
    have hlocked : s.pass.writes = true := Pass.writes_of_clears h
    rw [hwrites] at hlocked
    cases hlocked

omit [DecidableEq ν] in
/-- A call drops the handle it owns, and is through. -/
theorem drop (hs : Owned script s) (hheld : (s.pc call).handle = some k) :
    Owned script ((s.put k ((s.worker k).disown (.call call))).goto call .finished) := by
  refine hs.change ?_ ?_ ?_ (fun h => by cases h) (fun h => by cases h) fun _ _ => .inl rfl
  · simp [Worker.disown, Pc.handle]
  · intro owner howner
    simp [Worker.disown, howner]
  · intro k' hk
    rw [hheld]
    exact ⟨(Option.some_ne_none k').symm, fun h => hk (Option.some.inj h).symm⟩

omit [DecidableEq ν] in
/-- A call goes on with the handle it owns. -/
theorem edit (hs : Owned script s) (hheld : (s.pc call).handle = some k) (hpc : pc.handle = some k)
    (hhandle : w.handle = (s.worker k).handle) : Owned script ((s.put k w).goto call pc) := by
  refine hs.change ?_ ?_ ?_ (fun _ => hs.held call k hheld) (fun h => ?_) fun _ _ => .inr (hpc.trans hheld.symm)
  · rw [hhandle, hs.call_iff call k, hheld, hpc]
  · intro owner _
    rw [hhandle]
  · intro k' hk
    simp [hpc, hheld, Ne.symm hk]
  · rw [Pc.handle_of_seeking h] at hpc
    cases hpc

/-- A call puts a worker that nobody knows of in the map. -/
theorem insert (hs : Owned script s) (hseeking : (s.pc call).seeking) (hwrites : s.pass.writes = false)
    (hnone : s.workers (script call) = none) : Owned script (s.insert script call now) := by
  have hunheld (i : ι) : (s.pc i).handle ≠ some call := by
    intro h
    exact hs.fresh call hseeking _ (hs.held i call h)
  refine ⟨?_, ?_, ?_, ?_, ?_, ?_⟩
  · intro i k
    have hold := hs.call_iff i k
    by_cases hk : k = call
    · subst hk
      by_cases hi : i = k
      · subst hi
        simp [State.insert, State.goto, State.put, Worker.spawned, Pc.handle]
      · simpa [State.insert, State.goto, State.put, Worker.spawned, hi] using hunheld i
    · by_cases hi : i = call
      · subst hi
        rw [Pc.handle_of_seeking hseeking] at hold
        simpa [State.insert, State.goto, State.put, Pc.handle, hk, Ne.symm hk] using hold
      · simpa [State.insert, State.goto, State.put, hi, hk] using hold
  · intro name k h
    by_cases hname : name = script call
    · subst hname
      simp only [State.insert, update_self, Option.some.injEq] at h
      subst h
      simp [State.insert, State.goto, State.put, Worker.spawned]
    · simp only [State.insert, update_of_ne hname] at h
      have hk : k ≠ call := by
        intro heq
        exact hs.fresh call hseeking name (heq ▸ h)
      simpa [State.insert, State.goto, State.put, hk] using hs.pooled name k h
  · intro i k h
    by_cases hi : i = call
    · subst hi
      simp only [State.insert, State.goto, update_self, Pc.handle, Option.some.injEq] at h
      subst h
      exact update_self ..
    · simp only [State.insert, State.goto, update_of_ne hi] at h
      have hpooled := hs.held i k h
      have hname : script i ≠ script call := by
        intro heq
        rw [heq, hnone] at hpooled
        cases hpooled
      simpa [State.insert, hname] using hpooled
  · intro k h
    have hk : k ≠ call := by
      intro heq
      subst heq
      simp [State.insert, State.goto, Pc.seeking] at h
    simp only [State.insert, State.goto, update_of_ne hk] at h
    intro name hname
    by_cases hcall : name = script call
    · subst hcall
      simp only [State.insert, update_self, Option.some.injEq] at hname
      exact hk hname.symm
    · simp only [State.insert, update_of_ne hcall] at hname
      exact hs.fresh k h name hname
  · intro name k h
    have hlocked : s.pass.writes = true := Pass.writes_of_clears h
    rw [hwrites] at hlocked
    cases hlocked
  · intro k h
    have hlocked : s.pass.writes = true := Pass.writes_of_shuts h
    rw [hwrites] at hlocked
    cases hlocked

/-- The map gives up the only handle of a worker. -/
theorem remove (hs : Owned script s) {names : List ν} (hclears : s.pass.clears = some name)
    (hfound : s.workers name = some k) :
    Owned script { s.put k { s.worker k with handle := (s.worker k).handle.handOver .pool .pass } with
      workers := update s.workers name none
      pass := .shutting now k names } := by
  refine ⟨?_, ?_, ?_, ?_, ?_, ?_⟩
  · intro i k'
    have hold := hs.call_iff i k'
    by_cases hk : k' = k
    · subst hk
      simpa [State.put] using hold
    · simpa [State.put, hk] using hold
  · intro name' k' h
    have hname : name' ≠ name := by
      intro heq
      simp [heq] at h
    simp only [update_of_ne hname] at h
    obtain ⟨hscript, howns⟩ := hs.pooled name' k' h
    have hk : k' ≠ k := by
      intro heq
      rw [heq, (hs.pooled name k hfound).1] at hscript
      exact hname hscript.symm
    exact ⟨hscript, by simpa [State.put, hk] using howns⟩
  · intro i k' h
    have hpooled := hs.held i k' h
    have hname : script i ≠ name := by
      intro heq
      rw [heq] at hpooled
      exact hs.cleared name k' hclears hpooled i h
    simpa [hname] using hpooled
  · intro k' h name' hk'
    by_cases hname : name' = name
    · simp [hname] at hk'
    · simp only [update_of_ne hname] at hk'
      exact hs.fresh k' h name' hk'
  · intro name' k' h
    cases h
  · intro k' h name' hk'
    cases h
    by_cases hname : name' = name
    · simp [hname] at hk'
    · simp only [update_of_ne hname] at hk'
      exact hname ((hs.pooled name' k hk').1.symm.trans (hs.pooled name k hfound).1)

omit [DecidableEq ι] [DecidableEq ν] in
/-- Whoever owns a handle of a worker in the map, besides the map, shows in the count. -/
theorem unheld_of_count (hs : Owned script s) (hfound : s.workers name = some k)
    (hcount : (s.worker k).handle.count ≤ 1) (i : ι) : (s.pc i).handle ≠ some k := by
  intro h
  have hpool := (hs.pooled name k hfound).2
  have hcall := (hs.call_iff i k).mpr h
  cases RefCount.owner_unique hcount hpool hcall

end Owned

variable {s t : State ι ν} {k call : ι} {w : Worker ι} {pc : Pc ι}

omit [DecidableEq ν] in
theorem owners_put (h : ∀ owner, owner ≠ .pass → (owner ∈ w.handle.owners ↔ owner ∈ (s.worker k).handle.owners))
    (k' : ι) (owner : Owner ι) (howner : owner ≠ .pass) :
    owner ∈ ((s.put k w).worker k').handle.owners ↔ owner ∈ (s.worker k').handle.owners := by
  by_cases hk : k' = k
  · subst hk
    simpa [State.put] using h owner howner
  · simp [State.put, hk]

omit [DecidableEq ν] in
theorem handle_goto (h : pc.handle = (s.pc call).handle) (i : ι) :
    ((s.goto call pc).pc i).handle = (s.pc i).handle := by
  by_cases hi : i = call
  · subst hi
    simpa [State.goto] using h
  · simp [State.goto, hi]

omit [DecidableEq ν] in
theorem seeking_goto (h : pc.seeking → (s.pc call).seeking) (i : ι) :
    ((s.goto call pc).pc i).seeking → (s.pc i).seeking := by
  by_cases hi : i = call
  · subst hi
    simpa [State.goto] using h
  · simp [State.goto, hi]

theorem CallStep.owned (hs : Owned script s) (h : CallStep script s call t) : Owned script t := by
  cases h with
  | finds hseeking hwrites hfound => exact hs.clone hseeking hwrites hfound
  | creates hseeking hwrites hnone => exact hs.insert hseeking hwrites hnone
  | moves hhandle hseeking =>
    exact hs.frame rfl (fun _ _ _ => Iff.rfl) (handle_goto hhandle) (seeking_goto hseeking) hs.cleared fun _ => id
  | edits hheld hpc hhandle => exact hs.edit hheld hpc hhandle
  | sends hheld => exact hs.edit hheld rfl rfl
  | drops hheld => exact hs.drop hheld

theorem PassStep.owned (hs : Owned script s) (h : PassStep s t) : Owned script t := by
  cases h with
  | looks hshuts hclears =>
    refine hs.frame rfl (fun _ _ _ => Iff.rfl) (fun _ => rfl) (fun _ => id) (fun name k h hfound => ?_) fun k h => ?_
    · rcases hclears name h with hbefore | hcount
      · exact hs.cleared name k hbefore hfound
      · exact hs.unheld_of_count hfound (hcount k hfound)
    · cases hshuts.symm.trans h
  | removes hclears hfound => exact hs.remove hclears hfound
  | shuts =>
    exact hs.frame rfl (owners_put fun _ _ => Iff.rfl) (fun _ => rfl) (fun _ => id) (fun _ _ h => by cases h)
      fun _ h => by cases h
  | drops =>
    refine hs.frame rfl (owners_put fun owner howner => ?_) (fun _ => rfl) (fun _ => id) (fun _ _ h => by cases h)
      fun _ h => by cases h
    simp [Worker.disown, howner]

/-! ### What is sent to a worker -/

/-- Nobody will send to the worker any more. -/
def Closed (s : State ι ν) (k : ι) : Prop := (∀ name, s.workers name ≠ some k) ∧ s.pass.shuts ≠ some k

/-- A worker is sent commands to execute and, at the very end, to shut down. -/
def Orderly (s : State ι ν) : Prop :=
  ∀ k, ∃ calls : List ι, (s.worker k).channel.accepted = calls.map .execute ∨
    (s.worker k).channel.accepted = calls.map .execute ++ [.shutdown] ∧ Closed s k

namespace Orderly
variable {s t : State ι ν}

omit [DecidableEq ι] [DecidableEq ν] in
theorem frame (hs : Orderly s) (haccepted : ∀ k, (t.worker k).channel.accepted = (s.worker k).channel.accepted)
    (hclosed : ∀ k, Closed s k → Closed t k) : Orderly t := by
  intro k
  obtain ⟨calls, h⟩ := hs k
  rw [haccepted]
  exact ⟨calls, h.imp id fun h => ⟨h.1, hclosed k h.2⟩⟩

omit [DecidableEq ι] [DecidableEq ν] in
theorem executes (hs : Orderly s) (hopen : ¬Closed s k) :
    ∃ calls : List ι, (s.worker k).channel.accepted = calls.map .execute := by
  obtain ⟨calls, h⟩ := hs k
  exact ⟨calls, h.resolve_right fun h => hopen h.2⟩

end Orderly

omit [DecidableEq ν] in
theorem accepted_put (h : w.channel.accepted = (s.worker k).channel.accepted) (k' : ι) :
    ((s.put k w).worker k').channel.accepted = (s.worker k').channel.accepted := by
  by_cases hk : k' = k
  · subst hk
    simpa [State.put] using h
  · simp [State.put, hk]

theorem CallStep.orderly (howned : Owned script s) (hs : Orderly s) (h : CallStep script s call t) : Orderly t := by
  cases h with
  | finds => exact hs.frame (accepted_put rfl) fun _ => id
  | moves => exact hs.frame (fun _ => rfl) fun _ => id
  | edits _ _ _ hchannel => exact hs.frame (accepted_put (by rw [hchannel])) fun _ => id
  | drops => exact hs.frame (accepted_put rfl) fun _ => id
  | creates hseeking =>
    intro k
    by_cases hk : k = call
    · subst hk
      refine ⟨[], .inl ?_⟩
      simp [State.insert, State.goto, State.put, Worker.spawned, Worker.unspawned, Channel.empty]
    · obtain ⟨calls, h⟩ := hs k
      have hworker : ∀ now, (s.insert script call now).worker k = s.worker k := fun _ => update_of_ne hk ..
      rw [hworker]
      refine ⟨calls, h.imp id fun h => ⟨h.1, fun name hname => ?_, h.2.2⟩⟩
      by_cases hscript : name = script call
      · subst hscript
        simp only [State.insert, update_self, Option.some.injEq] at hname
        exact hk hname.symm
      · simp only [State.insert, update_of_ne hscript] at hname
        exact h.2.1 name hname
  | @sends k channel hheld hsent =>
    intro k'
    by_cases hk : k' = k
    · subst hk
      obtain ⟨calls, hcalls⟩ := hs.executes fun hclosed => hclosed.1 _ (howned.held call k' hheld)
      refine ⟨calls ++ [call], .inl ?_⟩
      simp [State.goto, State.put, (Channel.trySend_eq_some hsent).1, hcalls]
    · have hworker : ((s.put k { s.worker k with channel }).goto call (.waiting k)).worker k' = s.worker k' :=
        update_of_ne hk ..
      rw [hworker]
      exact hs k'

theorem PassStep.orderly (howned : Owned script s) (hs : Orderly s) (h : PassStep s t) : Orderly t := by
  cases h with
  | looks hshuts => exact hs.frame (fun _ => rfl) fun k h => ⟨h.1, by rw [hshuts]; exact (Option.some_ne_none k).symm⟩
  | @removes now name k names hclears hfound =>
    refine hs.frame (accepted_put rfl) fun k' h => ⟨fun name' hname' => ?_, fun hshuts => ?_⟩
    · by_cases hname : name' = name
      · simp [hname] at hname'
      · simp only [update_of_ne hname] at hname'
        exact h.1 name' hname'
    · cases hshuts
      exact h.1 name hfound
  | @shuts now k names channel hshuts hsent =>
    intro k'
    by_cases hk : k' = k
    · subst hk
      obtain ⟨calls, hcalls⟩ := hs.executes fun hclosed => hclosed.2 hshuts
      refine ⟨calls, .inr ⟨?_, howned.removed k' hshuts, (Option.some_ne_none k').symm⟩⟩
      simp [State.put, (Channel.trySend_eq_some hsent).1, hcalls]
    · obtain ⟨calls, h⟩ := hs k'
      have hworker : (s.put k { s.worker k with channel }).worker k' = s.worker k' := update_of_ne hk ..
      exact ⟨calls, hworker ▸ h.imp id fun h => ⟨h.1, h.2.1, (Option.some_ne_none k').symm⟩⟩
  | drops => exact hs.frame (accepted_put rfl) fun k h => ⟨h.1, (Option.some_ne_none k).symm⟩

/-! ### What a thread has taken -/

section Served
variable {w w' : Worker ι}

/-- What the thread has taken is what it has executed, and the command at hand. -/
def Worker.Served (w : Worker ι) : Prop :=
  match w.thread with
  | .starting => w.channel.taken = [] ∧ w.executed = []
  | .serving => w.channel.taken = w.executed.map .execute
  | .running call => w.channel.taken = w.executed.map .execute ++ [.execute call]
  | .stopping | .stopped => w.channel.taken = w.executed.map .execute ++ [.shutdown]
  | .hostless | .ended => True

omit [DecidableEq ι] in
theorem Worker.Served.frame (hw : w.Served) (htaken : w'.channel.taken = w.channel.taken)
    (hthread : w'.thread = w.thread) (hexecuted : w'.executed = w.executed) : w'.Served := by
  unfold Worker.Served at hw ⊢
  rw [htaken, hthread, hexecuted]
  exact hw

variable {event : ThreadEvent}

theorem Worker.step_kept (h : w.step event = some w') :
    w'.handle = w.handle ∧ w'.channel.accepted = w.channel.accepted := by
  cases event <;> simp only [Worker.step] at h
  case take =>
    split at h
    case h_5 => cases h
    all_goals
      next hrecv =>
        cases h
        exact ⟨rfl, (Channel.recv_eq_some hrecv).1⟩
  case finish =>
    split at h
    next =>
      cases h
      exact ⟨rfl, rfl⟩
    next => cases h
  case crash =>
    split at h
    next =>
      cases h
      exact ⟨rfl, rfl⟩
    next => cases h
  all_goals
    obtain ⟨-, h⟩ := Option.ite_none_right_eq_some.mp h
    cases h
    exact ⟨rfl, rfl⟩

theorem Worker.Served.step (hw : w.Served) (h : w.step event = some w') : w'.Served := by
  cases event <;> simp only [Worker.step] at h
  case boot hosted =>
    obtain ⟨hthread, h⟩ := Option.ite_none_right_eq_some.mp h
    cases h
    simp only [Worker.Served, hthread] at hw
    cases hosted
    · trivial
    · simp [Worker.Served, hw]
  case take =>
    split at h
    case h_5 => cases h
    all_goals
      next hthread hrecv =>
        cases h
        simp only [Worker.Served, hthread] at hw
        simp [Worker.Served, hthread, (Channel.recv_eq_some hrecv).2, hw]
  case finish =>
    split at h
    next call hthread =>
      cases h
      simp only [Worker.Served, hthread] at hw
      simp [Worker.Served, hw]
    next => cases h
  case leave =>
    obtain ⟨hthread, h⟩ := Option.ite_none_right_eq_some.mp h
    cases h
    simp only [Worker.Served, hthread] at hw
    exact hw
  case hangUp =>
    obtain ⟨-, h⟩ := Option.ite_none_right_eq_some.mp h
    cases h
    trivial
  case crash =>
    split at h
    next =>
      cases h
      trivial
    next => cases h

end Served

omit [DecidableEq ν] in
theorem served_put (hs : ∀ k, (s.worker k).Served) (h : w.Served) (k' : ι) : ((s.put k w).worker k').Served := by
  by_cases hk : k' = k
  · subst hk
    simpa [State.put] using h
  · simpa [State.put, hk] using hs k'

theorem CallStep.served (hs : ∀ k, (s.worker k).Served) (h : CallStep script s call t) : ∀ k, (t.worker k).Served := by
  cases h with
  | finds => exact served_put hs ((hs _).frame rfl rfl rfl)
  | creates => exact served_put hs ⟨rfl, rfl⟩
  | moves => exact hs
  | edits _ _ _ hchannel hthread hexecuted => exact served_put hs ((hs _).frame (by rw [hchannel]) hthread hexecuted)
  | sends _ hsent => exact served_put hs ((hs _).frame (Channel.trySend_eq_some hsent).2 rfl rfl)
  | drops => exact served_put hs ((hs _).frame rfl rfl rfl)

omit [DecidableEq ν] in
theorem PassStep.served [DecidableEq ν] (hs : ∀ k, (s.worker k).Served) (h : PassStep s t) :
    ∀ k, (t.worker k).Served := by
  cases h with
  | looks => exact hs
  | removes => exact served_put hs ((hs _).frame rfl rfl rfl)
  | shuts _ hsent => exact served_put hs ((hs _).frame (Channel.trySend_eq_some hsent).2 rfl rfl)
  | drops => exact served_put hs ((hs _).frame rfl rfl rfl)

/-! ### Whole runs -/

structure Sound (script : ι → ν) (s : State ι ν) : Prop where
  owned : Owned script s
  orderly : Orderly s
  served : ∀ k, (s.worker k).Served

omit [DecidableEq ι] [DecidableEq ν] in
theorem Sound.started : Sound script (State.started : State ι ν) :=
  ⟨.started, fun _ => ⟨[], .inl rfl⟩, fun _ => ⟨rfl, rfl⟩⟩

theorem step_sound {action : Action ι ν} (hs : Sound script s) (h : step script cleanTime s action = some t) :
    Sound script t := by
  have hpass (h : PassStep s t) : Sound script t :=
    ⟨h.owned hs.owned, h.orderly hs.owned hs.orderly, h.served hs.served⟩
  cases action with
  | call call event =>
    have hstep := stepCall_cases h
    exact ⟨hstep.owned hs.owned, hstep.orderly hs.owned hs.orderly, hstep.served hs.served⟩
  | thread k event =>
    obtain ⟨w, hw, rfl⟩ := Option.map_eq_some_iff.mp h
    obtain ⟨hhandle, haccepted⟩ := Worker.step_kept hw
    refine ⟨?_, hs.orderly.frame (accepted_put haccepted) fun _ => id, served_put hs.served ((hs.served k).step hw)⟩
    have howners (owner : Owner ι) : owner ∈ w.handle.owners ↔ owner ∈ (s.worker k).handle.owners := by rw [hhandle]
    exact hs.owned.frame rfl (owners_put fun owner _ => howners owner) (fun _ => rfl) (fun _ => id) hs.owned.cleared
      fun _ => id
  | begin now names =>
    simp only [step] at h
    split at h
    next =>
      cases h
      exact hpass (.looks rfl fun _ h => by cases h)
    next => cases h
  | advance => exact hpass (advance_cases h)

/-- The thread has taken a shutdown command. -/
def Thread.shutDown {ι : Type} : Thread ι → Bool
  | .stopping | .stopped => true
  | _ => false

/-- A worker whose thread has taken a shutdown command has executed all the commands it was sent. -/
def ExecutedBeforeShutdown (s : State ι ν) : Prop :=
  ∀ k call, (s.worker k).thread.shutDown → .execute call ∈ (s.worker k).channel.accepted →
    call ∈ (s.worker k).executed

/-- The step takes a worker out of the map only if no call owns a handle of it. -/
def RemovesUnheld (script : ι → ν) (cleanTime : ι → Option Int64) (s : State ι ν) (action : Action ι ν) : Prop :=
  ∀ t name k, step script cleanTime s action = some t → s.workers name = some k → t.workers name ≠ some k →
    ∀ i, (s.pc i).handle ≠ some k

omit [DecidableEq ι] in
/-- The command that ends one of two lists of commands ends both. -/
theorem eq_of_shutdown {executed calls : List ι} {queue : List (Command ι)}
    (h : executed.map .execute ++ .shutdown :: queue = calls.map .execute ++ [.shutdown]) : executed = calls := by
  induction executed generalizing calls with
  | nil =>
    cases calls with
    | nil => rfl
    | cons call calls => cases h
  | cons call executed ih =>
    cases calls with
    | nil => cases h
    | cons call' calls =>
      obtain ⟨hcall, hrest⟩ := List.cons.inj h
      cases hcall
      rw [ih hrest]

omit [DecidableEq ι] [DecidableEq ν] in
theorem Sound.executedBeforeShutdown (hs : Sound script s) : ExecutedBeforeShutdown s := by
  intro k call hshutDown hmem
  have htaken : (s.worker k).channel.taken = (s.worker k).executed.map .execute ++ [.shutdown] := by
    have hserved := hs.served k
    unfold Worker.Served at hserved
    cases hthread : (s.worker k).thread <;> rw [hthread] at hshutDown hserved <;> first | exact hserved | cases hshutDown
  have hinOrder := (s.worker k).channel.inOrder
  rw [htaken, List.append_assoc, List.singleton_append] at hinOrder
  obtain ⟨calls, haccepted | ⟨haccepted, -⟩⟩ := hs.orderly k
  · -- a command to shut down is not among those to execute
    have hshutdown : Command.shutdown ∈ calls.map Command.execute := by
      rw [← haccepted, hinOrder]
      simp
    simp at hshutdown
  · rw [haccepted] at hinOrder hmem
    rw [eq_of_shutdown hinOrder.symm]
    simpa using hmem

theorem CallStep.workers {name : ν} (h : CallStep script s call t) (hfound : s.workers name = some k) :
    t.workers name = some k := by
  cases h with
  | creates _ _ hnone =>
    have hname : name ≠ script call := by
      intro heq
      rw [heq, hnone] at hfound
      cases hfound
    exact (update_of_ne hname ..).trans hfound
  | _ => exact hfound

/-- Only a pass takes workers out of the map, and only those that it has found to be the map's alone. -/
theorem Sound.removesUnheld (hs : Sound script s) (action : Action ι ν) : RemovesUnheld script cleanTime s action := by
  intro t name k h hfound hgone
  cases action with
  | call call event => exact absurd ((stepCall_cases h).workers hfound) hgone
  | thread k' event =>
    obtain ⟨w, -, rfl⟩ := Option.map_eq_some_iff.mp h
    exact absurd hfound hgone
  | begin now names =>
    simp only [step] at h
    split at h
    next =>
      cases h
      exact absurd hfound hgone
    next => cases h
  | advance =>
    cases advance_cases h with
    | @removes now name' k' names hclears _ =>
      by_cases hname : name = name'
      · subst hname
        exact hs.owned.cleared name k hclears hfound
      · exact absurd ((update_of_ne hname ..).trans hfound) hgone
    | _ => exact absurd hfound hgone

/-- However calls, threads and clean-up passes take turns, and whatever the clock says, a pass removes a
worker only when no call holds it or waits for its answer, and a worker has executed every command it
accepted when it takes a command to shut down. -/
theorem idle_cleanup_safe (script : ι → ν) (cleanTime : ι → Option Int64) (schedule : List (Action ι ν)) :
    Along (step script cleanTime) (RemovesUnheld script cleanTime) State.started schedule ∧
      Always (step script cleanTime) ExecutedBeforeShutdown State.started schedule := by
  constructor
  · exact Along.of_invariant (fun s action t hs _ h => step_sound hs h) (fun s action hs _ => hs.removesUnheld action)
      Sound.started (Along.of_forall (fun _ _ => trivial) _ _)
  · intro first _ s hrun
    have hs : Sound script s := run_preserves (fun s action t hs h => step_sound hs h) Sound.started hrun
    exact hs.executedBeforeShutdown

-- a worker that has served a call and been idle since is removed and shut down
example : ∃ s, run (step (fun _ : Bool => ()) fun _ => some 50) State.started
    ([.call true .lookup, .call true (.create true 0), .thread true (.boot true), .call true .setCleanTime,
      .call true .count, .call true .send, .thread true .take, .thread true .finish, .call true .answer,
      .call true (.stamp (some 10)), .call true .uncount, .call true .drop, .begin 100 [()]] ++
      List.replicate 17 .advance ++ [.thread true .take]) = some s ∧
    s.workers () = none ∧ (s.worker true).executed = [true] ∧ (s.worker true).thread = .stopping := by
  decide +kernel

end NodeGet.JsRuntime.WorkerPool
