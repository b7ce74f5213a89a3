import NodeGet.Task.Creation

/-! Waiters of calls that are dropped (`ng-task/src/rpc/create_task_blocking.rs`, and
`register_blocking_waiter` in `ng-task/src/rpc/mod.rs`).

Every way a blocking call returns removes its waiter. A call whose future is dropped while it
waits returns on none of them: its waiter stays until an upload notifies it, which is the one
other place where entries are removed (`step_entry`). -/
namespace NodeGet.Task.Creation
open NodeGet.Core NodeGet.Machine NodeGet.Task.Retention Function
open Blocking (TaskEventResponse)

section Machine
variable {σ ι ρ : Type} [DecidableEq σ] [DecidableEq ι] {agent regId : σ → Uuid}
  {serialize : ρ → Except String Json} {calls : ι → Call ρ}
  {table₀ : IdTable Blocking.Row Blocking.Row.id} {s t : State σ ι ρ} {i : ι}

/-- An upload hands its response to the waiter under the key. -/
def Notifies (calls : ι → Call ρ) (key : UInt64) : Action σ ι → Prop
  | .notify j => ∃ r, calls j = .upload r ∧ r.taskId = key
  | _ => False

omit [DecidableEq σ] [DecidableEq ι] in
theorem droppable_not_dropped (h : s.droppable i = true) : (s.pc i).isDropped = false := by
  rw [State.droppable] at h
  split at h
  next hpc _ => rw [hpc]; rfl
  next =>
    cases hpc : s.pc i with
    | dropped row =>
      rw [hpc] at h
      cases h
    | _ => rfl

variable {a : Action σ ι}

theorem cancel_eq (h : step agent regId serialize calls s (.cancel i) = some t) : t = s.goto i (.dropped (s.pc i).row) := by
  simp only [step] at h
  split at h
  next => exact (Option.some.inj h).symm
  next => cases h

section Step
variable (h : step agent regId serialize calls s a = some t)
include h

/-- One call moves at a time, never one that was dropped, and none is dropped but by `cancel`. -/
theorem step_pc :
    t.pc = s.pc ∨ ∃ j pc, t.pc = update s.pc j pc ∧ (s.pc j).isDropped = false ∧
      (pc.isDropped = true → a = .cancel j) := by
  have hnever {pc : Pc ρ} {j : ι} (hlive : pc.isDropped = false) (h : pc.isDropped = true) : a = .cancel j := by
    rw [hlive] at h
    cases h
  cases step_moves h with
  | session => exact .inl rfl
  | goes hpc _ _ _ _ hlive => exact .inr ⟨_, _, rfl, hpc ▸ hlive.1, hnever hlive.2⟩
  | remove hpc _ _ _ _ hlive => exact .inr ⟨_, _, rfl, hpc ▸ hlive.1, hnever hlive.2⟩
  | cancel hdroppable => exact .inr ⟨_, _, rfl, droppable_not_dropped hdroppable, fun _ => rfl⟩
  | insert hpc | prepare hpc | register hpc | rollback hpc | write _ hpc | notify _ hpc =>
    exact .inr ⟨_, _, rfl, by rw [hpc]; rfl, hnever rfl⟩

theorem step_dropped (hdropped : (s.pc i).isDropped = true) : (t.pc i).isDropped = true := by
  obtain hsame | ⟨j, pc, hmoved, hlive, -⟩ := step_pc h
  · rw [hsame, hdropped]
  · have hne : i ≠ j := by
      intro heq
      rw [← heq, hdropped] at hlive
      cases hlive
    rw [hmoved, update_of_ne hne, hdropped]

theorem cancel_of_dropped (hlive : ¬(s.pc i).isDropped = true) (hdropped : (t.pc i).isDropped = true) :
    a = .cancel i := by
  obtain hsame | ⟨j, pc, hmoved, -, hcancel⟩ := step_pc h
  · rw [hsame] at hdropped
    exact absurd hdropped hlive
  · by_cases heq : i = j
    · subst heq
      rw [hmoved, update_self] at hdropped
      exact hcancel hdropped
    · rw [hmoved, update_of_ne heq] at hdropped
      exact absurd hdropped hlive

/-- The entries change where a call enters or removes its own, and where an upload notifies. -/
theorem step_entry :
    (t.waiters.entry = s.waiters.entry ∧ ∀ key, ¬Notifies calls key a) ∨
      (∃ j row e, t.waiters.entry = update s.waiters.entry row.id.toUInt64 e ∧ (e = none ∨ e = some j) ∧
        (s.pc j).row = some row ∧ (s.pc j).isDropped = false ∧ ∀ key, ¬Notifies calls key a) ∨
      ∃ r : TaskEventResponse ρ, t.waiters.entry = update s.waiters.entry r.taskId none ∧
        ∀ key, Notifies calls key a ↔ r.taskId = key := by
  have hnever (hquiet : ∀ j, a ≠ .notify j) (key : UInt64) : ¬Notifies calls key a := by
    cases a with
    | notify j => exact absurd rfl (hquiet j)
    | _ => exact id
  cases step_moves h with
  | goes _ _ _ _ _ _ hquiet => exact .inl ⟨rfl, hnever hquiet⟩
  | @register i row _ hpc =>
    exact .inr (.inl ⟨i, row, some i, Blocking.Waiters.register_entry .., .inr rfl, by rw [hpc]; rfl, by rw [hpc]; rfl,
      hnever fun _ h => by cases h⟩)
  | @remove _ i row _ _ hpc hold _ _ _ hlive hquiet =>
    exact .inr (.inl ⟨i, row, none, Blocking.Waiters.remove_entry .., .inl rfl, hpc ▸ hold, hpc ▸ hlive.1, hnever hquiet⟩)
  | @notify i r hcall =>
    refine .inr (.inr ⟨r, Blocking.Waiters.notify_entry .., fun key => ?_⟩)
    simp [Notifies, hcall]
  | session | insert | prepare | rollback | write | cancel => exact .inl ⟨rfl, hnever fun _ h => by cases h⟩

end Step

/-- The waiter of a dropped call goes when an upload notifies it, and not before. -/
theorem step_entry_dropped (hs : Sound agent regId calls table₀ s) (h : step agent regId serialize calls s a = some t)
    (hdropped : (s.pc i).isDropped = true) (key : UInt64) :
    t.waiters.entry key = some i ↔ s.waiters.entry key = some i ∧ ¬Notifies calls key a := by
  obtain ⟨hsame, hnot⟩ | ⟨j, row, e, hmoved, he, hrow, hlive, hnot⟩ | ⟨r, hmoved, hnotifies⟩ := step_entry h
  · rw [hsame, and_iff_left (hnot key)]
  · rw [and_iff_left (hnot key), hmoved]
    by_cases hkey : key = row.id.toUInt64
    · have hne : i ≠ j := by
        intro heq
        rw [← heq, hdropped] at hlive
        cases hlive
      rw [hkey, update_self]
      refine iff_of_false ?_ fun hold => hne (hs.entry_own hrow hold)
      obtain rfl | rfl := he
      · simp
      · simpa using hne.symm
    · rw [update_of_ne hkey]
  · rw [hmoved, hnotifies]
    by_cases hkey : key = r.taskId
    · rw [hkey, update_self]
      simp
    · rw [update_of_ne hkey, and_iff_left fun heq => hkey heq.symm]

/-- Over a whole run: it is left as long as no upload notifies it. -/
theorem run_entry_dropped (hregId : Injective regId) {actions : List (Action σ ι)}
    (hs : Sound agent regId calls table₀ s) (hrun : run (step agent regId serialize calls) s actions = some t)
    (hdropped : (s.pc i).isDropped = true) (key : UInt64) :
    t.waiters.entry key = some i ↔ s.waiters.entry key = some i ∧ ∀ a ∈ actions, ¬Notifies calls key a := by
  induction actions generalizing s with
  | nil =>
    cases hrun
    simp
  | cons a rest ih =>
    obtain ⟨u, hu, hrest⟩ := run_cons_some.mp hrun
    rw [ih (step_sound hregId s a u hs hu) hrest (step_dropped hu hdropped), step_entry_dropped hs hu hdropped,
      List.forall_mem_cons, and_assoc]

omit [DecidableEq σ] [DecidableEq ι] in
/-- When no call is under way, the waiters that are left are those of dropped calls. -/
theorem Sound.dropped_of_entry (hs : Sound agent regId calls table₀ s) {key : UInt64}
    (hended : (s.pc i).underWay = false) (hentry : s.waiters.entry key = some i) : (s.pc i).isDropped = true := by
  obtain ⟨-, row, hrow, -⟩ := (hs.calls i).waiter key hentry
  revert hended hrow
  cases s.pc i with
  | dropped row => exact fun _ _ => rfl
  | sending row | waiting row | unsent row e | expired row e => exact fun hended => nomatch hended
  | _ => exact fun _ hrow => nomatch hrow

/-- **Leaked waiters.** When every call of a run has returned or was dropped, the table of
waiters is empty exactly if each call that was dropped while its waiter was entered had its
result uploaded later. -/
theorem no_leaked_waiters_iff (agent regId : σ → Uuid) (serialize : ρ → Except String Json) (calls : ι → Call ρ)
    (hregId : Injective regId) (sessions : Sessions.State σ ι)
    (hsessions : Sessions.Sound agent regId (fun i => (calls i).target) sessions)
    (hcalls : ∀ i, sessions.call i = .start) (table : IdTable Blocking.Row Blocking.Row.id)
    (schedule : List (Action σ ι))
    (hrun : run (step agent regId serialize calls) (start sessions table) schedule = some s)
    (hended : ∀ i, (s.pc i).underWay = false) :
    (∀ key, s.waiters.entry key = none) ↔
      ∀ first i rest u, schedule = first ++ .cancel i :: rest →
        run (step agent regId serialize calls) (start sessions table) first = some u →
        ∀ key, u.waiters.entry key = some i → ∃ a ∈ rest, Notifies calls key a := by
  have hstart : Sound agent regId calls table (start sessions table : State σ ι ρ) :=
    start_sound hsessions hcalls table
  constructor
  · intro hempty first i rest u hschedule hfirst key hkey
    rw [hschedule] at hrun
    obtain ⟨v, hv, hrest⟩ := run_cons_some.mp (run_of_append hrun hfirst)
    have hu : Sound agent regId calls table u := run_preserves (step_sound hregId) hstart hfirst
    have hdropped : (v.pc i).isDropped = true := by
      rw [cancel_eq hv, goto_self]
      rfl
    have hleft := run_entry_dropped hregId (step_sound hregId u _ v hu hv) hrest hdropped key
    rw [cancel_eq hv] at hleft
    by_contra hnot
    have hentry := hleft.mpr ⟨hkey, fun a ha hnotifies => hnot ⟨a, ha, hnotifies⟩⟩
    rw [hempty key] at hentry
    cases hentry
  · intro hnotified key
    cases hentry : s.waiters.entry key with
    | none => rfl
    | some i =>
      have hs : Sound agent regId calls table s := run_preserves (step_sound hregId) hstart hrun
      obtain ⟨first, a, rest, u, v, rfl, hfirst, hlive, hv, hdropped, hrest⟩ :=
        run_becomes (P := fun s => (s.pc i).isDropped = true) hrun (by simp [start, Pc.isDropped])
          (hs.dropped_of_entry (hended i) hentry)
      obtain rfl := cancel_of_dropped hv hlive hdropped
      have hu : Sound agent regId calls table u := run_preserves (step_sound hregId) hstart hfirst
      obtain ⟨hkey, hnot⟩ :=
        (run_entry_dropped hregId (step_sound hregId u _ v hu hv) hrest hdropped key).mp hentry
      rw [cancel_eq hv] at hkey
      obtain ⟨a, ha, hnotifies⟩ := hnotified first i rest u rfl hfirst key hkey
      exact absurd hnotifies (hnot a ha)

end Machine

private def agentOfTask : Unit → Uuid := fun _ => 7

/-- A blocking call that is sent, and the upload of its result. -/
private def oneTask : Bool → Call String
  | false => .createBlocking 7 .ip 1000
  | true => .upload ⟨1, 7, "secret", 5, true, none, none⟩

/-- The call is dropped while it waits. -/
private def dropping : List (Action Unit Bool) :=
  [.session (.register ()), .precheck false, .insert false 1 "secret", .enroll false, .prepare false,
    .session (.look false), .session (.send false), .session (.drop false), .sent false, .cancel false]

theorem dropped_call_leaks_waiter :
    ∃ s : State Unit Bool String,
      run (step agentOfTask agentOfTask (fun text => .ok (.str text)) oneTask)
        (start Sessions.started ⟨[], List.nodup_nil⟩) dropping = some s ∧
      (∀ i, (s.pc i).underWay = false) ∧ s.waiters.entry 1 = some false := by
  decide +kernel

/-- The agent answers after all. -/
private def answered : List (Action Unit Bool) := dropping ++ [.check true (.ok ()), .store true, .notify true]

theorem no_leaked_waiters_answered :
    ∃ s : State Unit Bool String,
      run (step agentOfTask agentOfTask (fun text => .ok (.str text)) oneTask)
        (start Sessions.started ⟨[], List.nodup_nil⟩) answered = some s ∧
      (∀ i, (s.pc i).underWay = false) ∧ ∀ key, s.waiters.entry key = none := by
  obtain ⟨s, hrun, hended⟩ : ∃ s : State Unit Bool String,
      run (step agentOfTask agentOfTask (fun text => .ok (.str text)) oneTask)
        (start Sessions.started ⟨[], List.nodup_nil⟩) answered = some s ∧
      ∀ i, (s.pc i).underWay = false := by decide +kernel
  refine ⟨s, hrun, hended, (no_leaked_waiters_iff agentOfTask agentOfTask (fun text => .ok (.str text)) oneTask
    (fun _ _ _ => rfl) Sessions.started Sessions.started_sound (fun _ => rfl) ⟨[], List.nodup_nil⟩ answered hrun
    hended).mpr ?_⟩
  intro first i rest u hschedule hfirst key hkey
  simp [answered, dropping, List.cons_eq_append_iff] at hschedule
  obtain ⟨rfl, rfl, rfl⟩ := hschedule
  refine ⟨.notify true, by simp, _, rfl, ?_⟩
  -- the waiter is entered under the id of the row, which is 1
  have hs : Sound agentOfTask agentOfTask oneTask ⟨[], List.nodup_nil⟩ u :=
    run_preserves (step_sound fun _ _ _ => rfl) (start_sound Sessions.started_sound (fun _ => rfl) _) hfirst
  obtain ⟨-, row, hrow, hid⟩ := (hs.calls false).waiter key hkey
  have hone : ∃ u' : State Unit Bool String, some u = some u' ∧ (u'.pc false).awaiting.map (·.id) = some 1 := by
    rw [← hfirst]
    decide +kernel
  obtain ⟨u', hu', hrow'⟩ := hone
  cases hu'
  have hrowId : row.id = 1 := by
    rw [hrow] at hrow'
    exact Option.some.inj hrow'
  rw [← hid, hrowId]
  rfl

end NodeGet.Task.Creation
