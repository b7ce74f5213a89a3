import Mathlib.Data.Fintype.Basic
import NodeGet.Static.Buckets

/-! Cached WebDAV handlers against changes of the buckets (`ng-static/src/router.rs`:
`get_or_create_dav_handler`, `clear_dav_handler_cache`, `static_webdav_handler`;
`ng-static/src/ops.rs`: `create_static`, `update_static`, `delete_static`).

A handler is bound to a directory when it is made and is kept under the bucket's name. A
request reads the bucket's record from the cache, has its credentials checked, and only then
looks for the handler, making one for the directory of the record it read. A change of a
bucket writes the table, loads the rows, swaps them in and, unless it creates a bucket, drops
all handlers.

A handler for a directory that is no longer its bucket's is harmless while a call that has
written the table still has its clear to come (`ClearComing`). A request that read its record
before the write and makes its handler after the clear leaves one behind for good
(`late_handler_serves_old_directory`). `Timely` says which steps do not, and runs of such
steps end with every handler where its bucket is (`handlers_follow_buckets`). -/
namespace NodeGet.Static.WebDav
open NodeGet.Core NodeGet.Machine Function

/-! ### Calls -/

inductive Call where
  | webdav (name : String)
  | create (name path : String) (isHttpRoot cors : Bool)
  | update (name newPath : String) (newIsHttpRoot newCors : Bool) (newEnable : Option Bool)
  | delete (name : String)

/-- Whether the call drops the handlers at its end. -/
def Call.clears : Call → Bool
  | .update .. | .delete .. => true
  | .webdav .. | .create .. => false

/-- What the call writes. -/
def Call.write (store : Static.State) : Call → Except NodegetError Static.State
  | .webdav _ => .ok store
  | .create name path isHttpRoot cors => createStatic store name path isHttpRoot cors
  | .update name newPath newIsHttpRoot newCors newEnable =>
    updateStatic store name newPath newIsHttpRoot newCors newEnable
  | .delete name => deleteStatic store name

inductive Pc where
  | start
  /-- A request with the record it read. -/
  | holding (record : Bucket)
  | written
  | loaded (table : BucketTable)
  | swapped
  | finished

/-- Between the write of the table and the end of the call. -/
def Pc.hasWritten : Pc → Bool
  | .written | .loaded _ | .swapped => true
  | .start | .holding _ | .finished => false

def Pc.isFinished : Pc → Bool
  | .finished => true
  | _ => false

/-- The directories that the cached handlers serve, under the names of their buckets. -/
abbrev Handlers := List (String × Loc)

def getOrCreateDavHandler (handlers : Handlers) (name : String) (dir : Loc) : Handlers :=
  match handlers.lookup name with
  | some _ => handlers
  | none => (name, dir) :: handlers

structure State (ι : Type) where
  store : Static.State
  /-- The rows that requests see. -/
  cache : BucketTable
  handlers : Handlers
  pc : ι → Pc

def start {ι : Type} (store : Static.State) : State ι where
  store := store
  cache := store.table
  handlers := []
  pc := fun _ => .start

/-- Whose turn it is, and what the step gets from outside: whether the request may pass,
whether the rows could be loaded. -/
structure Turn (ι : Type) where
  call : ι
  granted : Bool := true

section Machine
variable {ι : Type} [DecidableEq ι] (calls : ι → Call)

def State.goto (s : State ι) (i : ι) (pc : Pc) : State ι := { s with pc := update s.pc i pc }

def step (s : State ι) (t : Turn ι) : Option (State ι) :=
  match s.pc t.call, calls t.call with
  | .start, .webdav name =>
    match s.cache.find name with
    | some record =>
      if record.enable && t.granted then some (s.goto t.call (.holding record)) else some (s.goto t.call .finished)
    | none => some (s.goto t.call .finished)
  | .start, call =>
    match call.write s.store with
    | .ok store => some ({ s with store := store }.goto t.call .written)
    | .error _ => some (s.goto t.call .finished)
  | .holding record, .webdav name =>
    some ({ s with handlers := getOrCreateDavHandler s.handlers name record.dir }.goto t.call .finished)
  | .holding _, _ => none
  | .written, _ =>
    -- a reload that fails ends the call, without the clear
    if t.granted then some (s.goto t.call (.loaded s.store.table)) else some (s.goto t.call .finished)
  | .loaded table, call =>
    some ({ s with cache := table }.goto t.call (if call.clears then .swapped else .finished))
  | .swapped, _ => some ({ s with handlers := [] }.goto t.call .finished)
  | .finished, _ => none

/-! ### Coherence -/

/-- Every handler of a bucket in the table serves the bucket's directory. -/
def Coherent (s : State ι) : Prop :=
  ∀ entry ∈ s.handlers, ∀ b ∈ s.store.table.rows, b.name = entry.1 → entry.2 = b.dir

/-- The call has written the table and has yet to drop the handlers. -/
def ClearPending (s : State ι) (i : ι) : Prop := (calls i).clears = true ∧ (s.pc i).hasWritten = true

def ClearComing (s : State ι) : Prop := ∃ i, ClearPending calls s i

/-- The steps that leave no handler behind. A request makes a handler for the directory that
its bucket has by then, a bucket is created where no handler for another directory is cached
under its name, and a reload fails only while the handlers are right; or another clear is to
come. -/
def Timely (s : State ι) (t : Turn ι) : Prop :=
  match s.pc t.call, calls t.call with
  | .holding record, .webdav name =>
    ClearComing calls s ∨ s.handlers.lookup name ≠ none ∨
      ∀ b ∈ s.store.table.rows, b.name = name → record.dir = b.dir
  | .start, .create name path .. =>
    ClearComing calls s ∨ ∀ entry ∈ s.handlers, trimmed name = entry.1 → entry.2 = pathDir (trimmed path)
  | .written, call =>
    t.granted = true ∨ call.clears = false ∨ (∃ j, j ≠ t.call ∧ ClearPending calls s j) ∨ Coherent s
  | _, _ => True

instance [Fintype ι] (s : State ι) (t : Turn ι) : Decidable (Timely calls s t) := by
  unfold Timely ClearComing ClearPending Coherent
  split <;> infer_instance

variable {calls}

/-! ### Steps -/

/-- What a step does. -/
inductive Step (calls : ι → Call) (s : State ι) (t : Turn ι) : State ι → Prop
  /-- A request reads its record, or a call ends before it has changed anything. -/
  | begin (pc : Pc) (hpc : s.pc t.call = .start) : Step calls s t (s.goto t.call pc)
  | write (store : Static.State) (hpc : s.pc t.call = .start) (hwrite : (calls t.call).write s.store = .ok store) :
    Step calls s t ({ s with store := store }.goto t.call .written)
  | serve (name : String) (record : Bucket) (hpc : s.pc t.call = .holding record)
    (hcall : calls t.call = .webdav name) :
    Step calls s t ({ s with handlers := getOrCreateDavHandler s.handlers name record.dir }.goto t.call .finished)
  | load (hpc : s.pc t.call = .written) : Step calls s t (s.goto t.call (.loaded s.store.table))
  | abandon (hpc : s.pc t.call = .written) (hgranted : t.granted = false) : Step calls s t (s.goto t.call .finished)
  | swap (table : BucketTable) (hpc : s.pc t.call = .loaded table) :
    Step calls s t ({ s with cache := table }.goto t.call (if (calls t.call).clears then .swapped else .finished))
  | clear (hpc : s.pc t.call = .swapped) : Step calls s t ({ s with handlers := [] }.goto t.call .finished)

variable {s : State ι} {t : Turn ι} {i : ι} {pc : Pc} {name : String} {store : Static.State}

theorem step_cases {s' : State ι} (h : step calls s t = some s') : Step calls s t s' := by
  unfold step at h
  split at h
  next name hpc hcall =>
    split at h
    next => split at h <;> (cases h; exact .begin _ hpc)
    next => cases h; exact .begin _ hpc
  next hpc _ =>
    split at h
    next store hwrite => cases h; exact .write store hpc hwrite
    next => cases h; exact .begin _ hpc
  next record name hpc hcall => cases h; exact .serve name record hpc hcall
  next => cases h
  next hpc =>
    split at h
    next => cases h; exact .load hpc
    next hgranted => cases h; exact .abandon hpc (Bool.not_eq_true _ ▸ hgranted)
  next table hpc => cases h; exact .swap table hpc
  next hpc => cases h; exact .clear hpc
  next => cases h

theorem ClearPending.goto {j : ι} (h : ClearPending calls s j) (hpc : j = i → pc.hasWritten = true) :
    ClearPending calls (s.goto i pc) j := by
  refine ⟨h.1, ?_⟩
  show (update s.pc i pc j).hasWritten = true
  by_cases heq : j = i
  · rw [heq, update_self]
    exact hpc heq
  · rw [update_of_ne heq]
    exact h.2

/-- A clear stays to come unless it is the moving call's own. -/
theorem ClearComing.goto (h : ClearComing calls s) (hpc : ClearPending calls s i → pc.hasWritten = true) :
    ClearComing calls (s.goto i pc) := by
  obtain ⟨j, hj⟩ := h
  exact ⟨j, hj.goto fun heq => hpc (heq ▸ hj)⟩

/-- While no call has its clear to come, the handlers are right. -/
def Covered (calls : ι → Call) (s : State ι) : Prop := ClearComing calls s ∨ Coherent s

theorem Covered.goto (h : Covered calls s) (hpc : ClearPending calls s i → pc.hasWritten = true) :
    Covered calls (s.goto i pc) :=
  h.imp (fun hcoming => hcoming.goto hpc) id

omit [DecidableEq ι] in
theorem coherent_getOrCreateDavHandler {dir : Loc} (h : Coherent s)
    (hdir : s.handlers.lookup name ≠ none ∨ ∀ b ∈ s.store.table.rows, b.name = name → dir = b.dir) :
    Coherent { s with handlers := getOrCreateDavHandler s.handlers name dir } := by
  intro entry hentry
  dsimp only [getOrCreateDavHandler] at hentry
  split at hentry
  next => exact h entry hentry
  next hnone =>
    obtain rfl | hmem := List.mem_cons.mp hentry
    · exact hdir.resolve_left fun hne => hne hnone
    · exact h entry hmem

omit [DecidableEq ι] in
/-- A new row is right when no handler for another directory is cached under its name. -/
theorem coherent_createStatic {path : String} {isHttpRoot cors : Bool}
    (hcreate : createStatic s.store name path isHttpRoot cors = .ok store) (h : Coherent s)
    (hname : ∀ entry ∈ s.handlers, trimmed name = entry.1 → entry.2 = pathDir (trimmed path)) :
    Coherent { s with store := store } := by
  obtain ⟨created, hn, hp, hrows, -⟩ := createStatic_ok hcreate
  intro entry hentry b hb heq
  dsimp only at hb hentry
  rw [hrows] at hb
  obtain rfl | hmem := List.mem_cons.mp hb
  · rw [Bucket.dir, hp]
    exact hname entry hentry (hn.symm.trans heq)
  · exact h entry hentry b hmem heq

omit [DecidableEq ι] in
theorem not_clearPending_of_pc (hpc : s.pc i = pc) (hwritten : pc.hasWritten = false) : ¬ClearPending calls s i := by
  intro h
  have := h.2
  rw [hpc, hwritten] at this
  cases this

/-- A call that clears covers its own write; a creation has to find its name free. -/
theorem write_covered (h : Covered calls s) (htimely : Timely calls s t) (hpc : s.pc t.call = .start)
    (hwrite : (calls t.call).write s.store = .ok store) :
    Covered calls ({ s with store := store }.goto t.call .written) := by
  cases hcall : calls t.call with
  | webdav name =>
    rw [hcall] at hwrite
    cases hwrite
    exact h.goto fun _ => rfl
  | create name path isHttpRoot cors =>
    rw [hcall, Call.write] at hwrite
    simp only [Timely, hpc, hcall] at htimely
    refine Covered.goto ?_ fun _ => rfl
    obtain hcoming | hcoherent := h
    · exact .inl hcoming
    · exact htimely.imp id fun hname => coherent_createStatic hwrite hcoherent hname
  | update | delete =>
    refine .inl ⟨t.call, by rw [hcall]; rfl, ?_⟩
    show (update s.pc t.call Pc.written t.call).hasWritten = true
    rw [update_self]
    rfl

theorem serve_covered {record : Bucket} (h : Covered calls s) (htimely : Timely calls s t)
    (hpc : s.pc t.call = .holding record) (hcall : calls t.call = .webdav name) :
    Covered calls ({ s with handlers := getOrCreateDavHandler s.handlers name record.dir }.goto t.call .finished) := by
  simp only [Timely, hpc, hcall] at htimely
  refine Covered.goto ?_ fun hpending => absurd hpending (not_clearPending_of_pc hpc rfl)
  obtain hcoming | hcoherent := h
  · exact .inl hcoming
  · exact htimely.imp id fun hdir => coherent_getOrCreateDavHandler hcoherent hdir

/-- A call that ends without its clear leaves it to another, or nothing to clear. -/
theorem abandon_covered (h : Covered calls s) (htimely : Timely calls s t) (hpc : s.pc t.call = .written)
    (hgranted : t.granted = false) : Covered calls (s.goto t.call .finished) := by
  simp only [Timely, hpc] at htimely
  obtain hyes | hclears | hother | hcoherent := htimely
  · rw [hgranted] at hyes
    cases hyes
  · exact h.goto fun hpending => absurd (hclears.symm.trans hpending.1) Bool.false_ne_true
  · obtain ⟨j, hne, hj⟩ := hother
    exact .inl ⟨j, hj.goto fun heq => absurd heq hne⟩
  · exact .inr hcoherent

theorem step_covered (s : State ι) (t : Turn ι) (s' : State ι) (h : Covered calls s) (htimely : Timely calls s t)
    (hstep : step calls s t = some s') : Covered calls s' := by
  cases step_cases hstep with
  | begin pc hpc => exact h.goto fun hpending => absurd hpending (not_clearPending_of_pc hpc rfl)
  | write store hpc hwrite => exact write_covered h htimely hpc hwrite
  | serve name record hpc hcall => exact serve_covered h htimely hpc hcall
  | load hpc => exact h.goto fun _ => rfl
  | abandon hpc hgranted => exact abandon_covered h htimely hpc hgranted
  | swap table hpc =>
    have h' : Covered calls { s with cache := table } := h
    refine h'.goto fun hpending => ?_
    rw [hpending.1]
    rfl
  | clear hpc => exact .inr fun entry hentry => absurd hentry List.not_mem_nil

/-! ### Runs -/

/-- **Once all calls of a run of timely steps have finished, every cached handler of a bucket
in the table serves that bucket's directory.** -/
theorem handlers_follow_buckets (store : Static.State) (schedule : List (Turn ι)) {s : State ι}
    (htimely : Along (step calls) (Timely calls) (start store) schedule)
    (hrun : run (step calls) (start store) schedule = some s) (hdone : ∀ i, (s.pc i).isFinished = true)
    {name : String} {dir : Loc} (hhandler : (name, dir) ∈ s.handlers) {b : Bucket}
    (hb : s.store.table.find name = some b) : dir = b.dir := by
  have hstart : Covered calls (start store) := .inr fun entry hentry => absurd hentry List.not_mem_nil
  obtain ⟨i, hi⟩ | hcoherent := run_invariant step_covered hstart htimely hrun
  · have hwritten := hi.2
    have hfinished := hdone i
    cases hpc : s.pc i <;> simp [hpc, Pc.hasWritten, Pc.isFinished] at hwritten hfinished
  · obtain ⟨hmem, hname⟩ := BucketTable.mem_of_find hb
    exact hcoherent (name, dir) hhandler b hmem hname

end Machine

/-- One bucket, in the directory `a`. -/
private def site : Static.State where
  table := ⟨[⟨"site", "a", false, false, true, by decide +kernel, by decide +kernel⟩], by decide +kernel⟩
  disk := .empty

/-- A request for the bucket while it moves to the directory `b`. -/
private def moving : Fin 2 → Call
  | 0 => .webdav "site"
  | 1 => .update "site" "b" false false none

/-- A request that looks for its handler before the clear. -/
private def early : List (Turn (Fin 2)) := [⟨0, true⟩, ⟨1, true⟩, ⟨1, true⟩, ⟨0, true⟩, ⟨1, true⟩, ⟨1, true⟩]

/-- A request that read its record before the write and looks for its handler after the clear. -/
private def late : List (Turn (Fin 2)) := [⟨0, true⟩, ⟨1, true⟩, ⟨1, true⟩, ⟨1, true⟩, ⟨1, true⟩, ⟨0, true⟩]

theorem handlers_follow_buckets_early :
    ∃ s, run (step moving) (start site) early = some s ∧ s.store.table.rows.map (·.path) = ["b"] ∧
      ∀ dir b, ("site", dir) ∈ s.handlers → s.store.table.find "site" = some b → dir = b.dir := by
  have htimely : Along (step moving) (Timely moving) (start site) early := by decide +kernel
  have hends : ∃ s, run (step moving) (start site) early = some s ∧
      s.store.table.rows.map (·.path) = ["b"] ∧ ∀ i, (s.pc i).isFinished = true := by decide +kernel
  obtain ⟨s, hrun, hpath, hdone⟩ := hends
  exact ⟨s, hrun, hpath, fun dir b hhandler hb => handlers_follow_buckets site early htimely hrun hdone hhandler hb⟩

/-- The bucket is in `b`, its handler serves `a`, and no call is left that would drop it. -/
theorem late_handler_serves_old_directory :
    ∃ s, run (step moving) (start site) late = some s ∧ (∀ i, (s.pc i).isFinished = true) ∧
      s.store.table.rows.map (fun b => (b.name, b.dir)) = [("site", ["b".toList])] ∧
      s.handlers = [("site", ["a".toList])] := by
  decide +kernel

end NodeGet.Static.WebDav
