import NodeGet.Machine.Run
import NodeGet.Monitoring.Buffer
import NodeGet.Monitoring.Conditions

/-! Static reports and their deduplication (`ng-monitoring/src/rpc/agent/report_static.rs`,
`static_hash_cache.rs`).

A static report is skipped when its hash is the one last cached for the agent, or
when the table has a row with it; else it goes to the write buffer and its hash to
the cache. The call, the flush task and deletes take their steps independently.

What a cached hash stands for (`Owed`) is a row that is stored or queued (`Backed`).
The code keeps that promise as long as nothing it accepted is lost (`Lossless`): it
caches the hash of a report that the buffer refused, it drops a sub-batch that the
database refused, and a delete leaves the cache as it is. -/
namespace NodeGet.Monitoring.StaticReport
open NodeGet.Core NodeGet.Machine

/-! ### Hashes -/

/-- The first sixteen bytes, filled up with zeros. -/
def truncateTo16 (bytes : List UInt8) : Vector UInt8 16 := Vector.ofFn fun i => bytes.getD i 0

abbrev HashCache := Int16 → Option (Vector UInt8 16)

def HashCache.isDuplicate (cache : HashCache) (uuidId : Int16) (dataHash : List UInt8) : Bool :=
  cache uuidId == some (truncateTo16 dataHash)

def HashCache.update (cache : HashCache) (uuidId : Int16) (dataHash : List UInt8) : HashCache :=
  Function.update cache uuidId (some (truncateTo16 dataHash))

/-! ### State -/

structure StaticRecord extends Columns where
  data : StaticDataQueryField → Json
  dataHash : List UInt8

/-- A report, with the number its agent has in the registry. -/
structure Report where
  uuidId : Int16
  time : UInt64
  data : StaticDataQueryField → Json
  dataHash : List UInt8

def Report.record (report : Report) (receivedAt : Int64) : StaticRecord :=
  ⟨⟨report.uuidId, report.time.toInt64, some receivedAt⟩, report.data, report.dataHash⟩

inductive Answer where
  | buffered
  | skipped
  | failed (error : NodegetError)
deriving DecidableEq

/-- Where a call stands. -/
inductive Pc where
  | start
  | missed
  | found
  | absent
  | sent
  | answered (answer : Answer)
deriving DecidableEq

structure State (ι : Type) where
  rows : List (Row StaticRecord)
  nextId : Nat
  /-- What the flush task has received and not yet written. -/
  batch : List StaticRecord
  buffer : BufferSender StaticRecord
  /-- The buffers are set up. -/
  registered : Bool
  hashCache : HashCache
  pc : ι → Pc

inductive Action (ι : Type) where
  | check (call : ι)
  | lookup (call : ι) (error : Option String)
  | send (call : ι) (receivedAt : Int64)
  | finish (call : ι)
  | setBuffer (registered closed : Bool)
  | collect (count : Nat)
  | insert (accepted : Bool)
  | dropBatch
  | delete (conditions : List QueryCondition)

variable {ι : Type}

def State.started (rows : List (Row StaticRecord)) (nextId cap : Nat) : State ι :=
  ⟨rows, nextId, [], ⟨[], cap, 0, false⟩, true, fun _ => none, fun _ => .start⟩

/-- What is stored or on its way to the table. -/
def State.records (s : State ι) : List StaticRecord := s.rows.map (·.record) ++ s.batch ++ s.buffer.queue

/-- The unique index of the static table. -/
def indexKey (r : StaticRecord) : Int16 × List UInt8 := (r.uuidId, r.dataHash)

/-- The statement breaks the unique index, by a stored row or within itself. -/
def conflicts (rows : List (Row StaticRecord)) (subBatch : List StaticRecord) : Bool :=
  !decide (((rows.map (·.record)).map indexKey ++ subBatch.map indexKey).Nodup)

def numColumns : Nat := 8

/-- The rows of the next `INSERT`. -/
def State.subBatch (s : State ι) (backend : Backend) : List StaticRecord :=
  s.batch.take (chunkSize backend numColumns s.batch.length)

/-! ### Owed and backed hashes -/

/-- One of the records has the agent and the sixteen bytes. -/
def Backed (records : List StaticRecord) (uuidId : Int16) (hash : Vector UInt8 16) : Prop :=
  ∃ r ∈ records, r.uuidId = uuidId ∧ truncateTo16 r.dataHash = hash

theorem Backed.mono {a b : List StaticRecord} {uuidId : Int16} {hash : Vector UInt8 16} (h : Backed a uuidId hash)
    (hsub : a ⊆ b) : Backed b uuidId hash := by
  obtain ⟨r, hr, hkey⟩ := h
  exact ⟨r, hsub hr, hkey⟩

/-- A call that has found or sent its row and not yet cached its hash. -/
def Pc.Holding (pc : Pc) : Prop := pc = .found ∨ pc = .sent

/-- The hash is cached, or a call is about to cache it. -/
def Owed (report : ι → Report) (s : State ι) (uuidId : Int16) (hash : Vector UInt8 16) : Prop :=
  s.hashCache uuidId = some hash ∨
    ∃ call, (s.pc call).Holding ∧ (report call).uuidId = uuidId ∧ truncateTo16 (report call).dataHash = hash

/-- Every hash that is owed is backed. -/
def Honest (report : ι → Report) (s : State ι) : Prop := ∀ uuidId hash, Owed report s uuidId hash → Backed s.records uuidId hash

variable {report : ι → Report}

variable {s t : State ι}

/-- A hash that is backed may be cached. -/
theorem Honest.update (hs : Honest report s) {r : Report} (hr : Backed s.records r.uuidId (truncateTo16 r.dataHash)) :
    Honest report { s with hashCache := s.hashCache.update r.uuidId r.dataHash } := by
  intro uuidId hash howed
  rcases howed with hcache | hcall
  · by_cases hid : uuidId = r.uuidId
    · subst hid
      have hhash : truncateTo16 r.dataHash = hash := by simpa [HashCache.update] using hcache
      exact hhash ▸ hr
    · exact hs uuidId hash (.inl (by simpa [HashCache.update, Function.update_of_ne hid] using hcache))
  · exact hs uuidId hash (.inr hcall)

/-- Records may change as long as none is lost. -/
theorem Honest.of_subset (hs : Honest report s) (hcache : t.hashCache = s.hashCache) (hpc : t.pc = s.pc)
    (hsub : s.records ⊆ t.records) : Honest report t := by
  intro uuidId hash howed
  rw [Owed, hcache, hpc] at howed
  exact (hs uuidId hash howed).mono hsub

theorem Honest.of_records_eq (hs : Honest report s) (hcache : t.hashCache = s.hashCache) (hpc : t.pc = s.pc)
    (hrecords : t.records = s.records) : Honest report t := by
  apply hs.of_subset hcache hpc
  rw [hrecords]
  exact List.Subset.refl _

theorem Honest.backed (hs : Honest report s) {call : ι} (h : (s.pc call).Holding) :
    Backed s.records (report call).uuidId (truncateTo16 (report call).dataHash) :=
  hs _ _ (.inr ⟨call, h, rfl, rfl⟩)

theorem records_insert (s : State ι) (backend : Backend) :
    { s with
      rows := insertRows s.nextId s.rows (s.subBatch backend)
      nextId := s.nextId + (s.subBatch backend).length
      batch := s.batch.drop (s.subBatch backend).length }.records = s.records := by
  have hbatch : s.subBatch backend ++ s.batch.drop (s.subBatch backend).length = s.batch := by
    rw [State.subBatch, List.length_take_of_le (chunkSize_le ..), List.take_append_drop]
  rw [State.records, State.records, records_insertRows, List.append_assoc _ _ (List.drop ..), hbatch]

/-! ### Steps -/

section Steps
variable [DecidableEq ι] (backend : Backend) (idOf : Uuid → Option Int16) (report : ι → Report)

def State.setPc (s : State ι) (call : ι) (pc : Pc) : State ι :=
  { s with pc := Function.update s.pc call pc }

@[simp] theorem State.setPc_pc_self (s : State ι) (call : ι) (pc : Pc) : (s.setPc call pc).pc call = pc :=
  Function.update_self ..

variable {call : ι} {s : State ι} {pc : Pc}

theorem State.setPc_pc_of_ne (s : State ι) {other : ι} (pc : Pc) (h : other ≠ call) :
    (s.setPc call pc).pc other = s.pc other :=
  Function.update_of_ne h ..

def step (s : State ι) : Action ι → Option (State ι)
  | .check call =>
    if s.pc call = .start then
      some (s.setPc call
        (if s.hashCache.isDuplicate (report call).uuidId (report call).dataHash then .answered .skipped
        else .missed))
    else none
  | .lookup call error =>
    if s.pc call = .missed then
      match error with
      | some message => some (s.setPc call (.answered (.failed (.databaseError message))))
      | none =>
        let stored := s.rows.any fun row =>
          row.record.uuidId == (report call).uuidId && row.record.dataHash == (report call).dataHash
        some (s.setPc call (if stored then .found else .absent))
    else none
  | .send call receivedAt =>
    if s.pc call = .absent then
      if s.registered then
        some ({ s with buffer := s.buffer.send ((report call).record receivedAt) }.setPc call .sent)
      else some (s.setPc call (.answered (.failed (.configNotFound "MonitoringBuffers not initialized"))))
    else none
  | .finish call =>
    let hashCache := s.hashCache.update (report call).uuidId (report call).dataHash
    match s.pc call with
    | .found => some ({ s with hashCache }.setPc call (.answered .skipped))
    | .sent => some ({ s with hashCache }.setPc call (.answered .buffered))
    | _ => none
  | .setBuffer registered closed => some { s with registered, buffer := { s.buffer with closed } }
  | .collect count =>
    if s.batch = [] then
      some { s with
        batch := s.buffer.queue.take count
        buffer := { s.buffer with queue := s.buffer.queue.drop count } }
    else none
  | .insert accepted =>
    -- a statement that is refused takes all its rows with it
    let sub := s.subBatch backend
    let rest := s.batch.drop sub.length
    if accepted && !conflicts s.rows sub then
      some { s with rows := insertRows s.nextId s.rows sub, nextId := s.nextId + sub.length, batch := rest }
    else some { s with batch := rest }
  | .dropBatch => some { s with batch := [] }
  | .delete conditions =>
    match deleteRows StaticRecord.toColumns idOf conditions s.rows with
    | .error _ => some s
    | .ok rows => some { s with rows }

/-- Nothing accepted is lost: the buffer takes what is sent, the database takes
what is written, and a delete leaves a record for every hash that is owed. -/
def Lossless (s : State ι) : Action ι → Prop
  | .send _ _ => s.registered = true → s.buffer.Accepts
  | .insert accepted => accepted = true ∧ conflicts s.rows (s.subBatch backend) = false
  | .dropBatch => s.batch = []
  | .delete conditions => ∀ rows, deleteRows StaticRecord.toColumns idOf conditions s.rows = .ok rows →
      ∀ uuidId hash, Owed report s uuidId hash → Backed ({ s with rows }.records) uuidId hash
  | _ => True

variable {backend idOf report}

theorem Owed.of_setPc {uuidId : Int16} {hash : Vector UInt8 16} (h : Owed report (s.setPc call pc) uuidId hash) :
    Owed report s uuidId hash ∨
      pc.Holding ∧ (report call).uuidId = uuidId ∧ truncateTo16 (report call).dataHash = hash := by
  rcases h with h | ⟨other, hpc, hkey⟩
  · exact .inl (.inl h)
  · by_cases hother : other = call
    · subst hother
      rw [State.setPc_pc_self] at hpc
      exact .inr ⟨hpc, hkey⟩
    · rw [State.setPc_pc_of_ne _ _ hother] at hpc
      exact .inl (.inr ⟨other, hpc, hkey⟩)

/-- Moving a call keeps honesty, if what it then holds is backed. -/
theorem Honest.setPc (hs : Honest report s)
    (hpc : pc.Holding → Backed s.records (report call).uuidId (truncateTo16 (report call).dataHash)) :
    Honest report (s.setPc call pc) := by
  intro uuidId hash howed
  rcases howed.of_setPc with howed | ⟨hholding, rfl, rfl⟩
  · exact hs uuidId hash howed
  · exact hpc hholding

theorem send_honest (hs : Honest report s) (h : s.buffer.Accepts) (call : ι) (receivedAt : Int64) :
    Honest report ({ s with buffer := s.buffer.send ((report call).record receivedAt) }.setPc call .sent) := by
  set t : State ι := { s with buffer := s.buffer.send ((report call).record receivedAt) } with ht
  have hsub : s.records ⊆ t.records := fun r hr =>
    (List.mem_append.mp hr).elim (List.mem_append_left _) fun hqueued =>
      List.mem_append_right _ (s.buffer.queue_subset_send _ hqueued)
  refine Honest.setPc (hs.of_subset (t := t) rfl rfl hsub) fun _ => ?_
  · refine ⟨(report call).record receivedAt, List.mem_append_right _ ?_, rfl, rfl⟩
    rw [BufferSender.queue_send_of_accepts h]
    exact List.mem_append_right _ (List.mem_singleton_self _)

theorem lookup_honest (hs : Honest report s) (call : ι) :
    Honest report (s.setPc call
      (if s.rows.any fun row =>
          row.record.uuidId == (report call).uuidId && row.record.dataHash == (report call).dataHash
        then .found else .absent)) := by
  apply hs.setPc
  intro hholding
  split at hholding
  · rename_i hstored
    obtain ⟨row, hrow, hkey⟩ := List.any_eq_true.mp hstored
    obtain ⟨hid, hhash⟩ : row.record.uuidId = (report call).uuidId ∧ row.record.dataHash = (report call).dataHash := by
      simpa using hkey
    have hmem : row.record ∈ s.records :=
      List.mem_append_left _ (List.mem_append_left _ (List.mem_map_of_mem hrow))
    exact ⟨row.record, hmem, hid, congrArg truncateTo16 hhash⟩
  · rcases hholding with h | h <;> cases h

theorem step_honest (s : State ι) (a : Action ι) (t : State ι) (hs : Honest report s)
    (hG : Lossless backend idOf report s a) (h : step backend idOf report s a = some t) : Honest report t := by
  have not_holding : ∀ answer : Answer, ¬(Pc.answered answer).Holding := by
    rintro answer (h | h) <;> cases h
  cases a with
  | check call =>
    obtain ⟨-, h⟩ := Option.ite_none_right_eq_some.mp h
    cases h
    apply hs.setPc
    split
    · exact fun h => absurd h (not_holding _)
    · rintro (h | h) <;> cases h
  | lookup call error =>
    obtain ⟨-, h⟩ := Option.ite_none_right_eq_some.mp h
    cases error with
    | some message =>
      cases h
      exact hs.setPc fun h => absurd h (not_holding _)
    | none =>
      cases h
      exact lookup_honest hs call
  | send call receivedAt =>
    obtain ⟨-, h⟩ := Option.ite_none_right_eq_some.mp h
    split at h
    · rename_i hregistered
      cases h
      exact send_honest hs (hG hregistered) call receivedAt
    · cases h
      exact hs.setPc fun h => absurd h (not_holding _)
  | finish call =>
    rw [step] at h
    split at h
    · rename_i hpc
      cases h
      exact (hs.update (hs.backed (.inl hpc))).setPc fun h => absurd h (not_holding _)
    · rename_i hpc
      cases h
      exact (hs.update (hs.backed (.inr hpc))).setPc fun h => absurd h (not_holding _)
    · cases h
  | setBuffer registered closed =>
    cases h
    exact hs.of_records_eq rfl rfl rfl
  | collect count =>
    obtain ⟨hbatch, h⟩ := Option.ite_none_right_eq_some.mp h
    cases h
    refine hs.of_records_eq rfl rfl ?_
    rw [State.records, State.records, hbatch, List.append_nil, List.append_assoc, List.take_append_drop]
  | insert accepted =>
    rw [step, hG.1, hG.2] at h
    cases h
    exact hs.of_records_eq rfl rfl (records_insert s backend)
  | dropBatch =>
    cases h
    refine hs.of_records_eq rfl rfl ?_
    rw [State.records, State.records, show s.batch = [] from hG]
  | delete conditions =>
    rw [step] at h
    cases hrows : deleteRows StaticRecord.toColumns idOf conditions s.rows with
    | error e =>
      rw [hrows] at h
      cases h
      exact hs
    | ok rows =>
      rw [hrows] at h
      cases h
      exact fun uuidId hash howed => hG rows hrows uuidId hash howed

theorem moved_of_setPc {moved : ι} {answer : Pc} (hbefore : s.pc call ≠ answer)
    (hafter : (s.setPc moved pc).pc call = answer) : moved = call ∧ pc = answer := by
  by_cases hmoved : call = moved
  · subst hmoved
    exact ⟨rfl, by simpa using hafter⟩
  · rw [State.setPc_pc_of_ne _ _ hmoved] at hafter
    exact absurd hafter hbefore

/-- A call that answers that its report is a duplicate has the hash owed to it. -/
theorem owed_of_skipped {a : Action ι} (h : step backend idOf report s a = some t)
    (hbefore : s.pc call ≠ .answered .skipped) (hafter : t.pc call = .answered .skipped) :
    Owed report s (report call).uuidId (truncateTo16 (report call).dataHash) ∧ t.records = s.records := by
  cases a with
  | check moved =>
    obtain ⟨-, h⟩ := Option.ite_none_right_eq_some.mp h
    cases h
    obtain ⟨rfl, hpc⟩ := moved_of_setPc hbefore hafter
    split at hpc
    · rename_i hduplicate
      exact ⟨.inl (by simpa [HashCache.isDuplicate] using hduplicate), rfl⟩
    · cases hpc
  | lookup moved error =>
    obtain ⟨-, h⟩ := Option.ite_none_right_eq_some.mp h
    cases error with
    | some message =>
      cases h
      cases (moved_of_setPc hbefore hafter).2
    | none =>
      cases h
      have hpc := (moved_of_setPc hbefore hafter).2
      split at hpc <;> cases hpc
  | send moved receivedAt =>
    obtain ⟨-, h⟩ := Option.ite_none_right_eq_some.mp h
    split at h
    · cases h
      cases (moved_of_setPc (s := { s with buffer := _ }) hbefore hafter).2
    · cases h
      cases (moved_of_setPc hbefore hafter).2
  | finish moved =>
    rw [step] at h
    split at h
    · rename_i hpc
      cases h
      obtain ⟨rfl, -⟩ := moved_of_setPc (s := { s with hashCache := _ }) hbefore hafter
      exact ⟨.inr ⟨moved, .inl hpc, rfl, rfl⟩, rfl⟩
    · cases h
      cases (moved_of_setPc (s := { s with hashCache := _ }) hbefore hafter).2
    · cases h
  | setBuffer registered closed =>
    cases h
    exact absurd hafter hbefore
  | collect count =>
    obtain ⟨-, h⟩ := Option.ite_none_right_eq_some.mp h
    cases h
    exact absurd hafter hbefore
  | insert accepted =>
    rw [step] at h
    split at h <;> cases h <;> exact absurd hafter hbefore
  | dropBatch =>
    cases h
    exact absurd hafter hbefore
  | delete conditions =>
    rw [step] at h
    split at h <;> cases h <;> exact absurd hafter hbefore

end Steps

/-! ### Runs -/

variable [DecidableEq ι]

/-- **A report is skipped only for a row that is stored or queued**, in every run
that loses nothing it accepted. -/
theorem skipped_report_backed (backend : Backend) (idOf : Uuid → Option Int16) (report : ι → Report)
    (rows : List (Row StaticRecord)) (nextId cap : Nat) (actions : List (Action ι)) (call : ι) {s t : State ι}
    {a : Action ι}
    (hG : Along (step backend idOf report) (Lossless backend idOf report) (.started rows nextId cap) actions)
    (hrun : run (step backend idOf report) (.started rows nextId cap) actions = some s)
    (hstep : step backend idOf report s a = some t) (hbefore : s.pc call ≠ .answered .skipped)
    (hafter : t.pc call = .answered .skipped) :
    Backed t.records (report call).uuidId (truncateTo16 (report call).dataHash) := by
  have hstart : Honest report (.started rows nextId cap) := by
    rintro uuidId hash (hcache | ⟨other, hholding, -⟩)
    · cases hcache
    · rcases hholding with h | h <;> cases h
  have hs : Honest report s := run_invariant step_honest hstart hG hrun
  obtain ⟨howed, hrecords⟩ := owed_of_skipped hstep hbefore hafter
  rw [hrecords]
  exact hs _ _ howed

section Example

/-- Three calls with the same data of one agent, and a call of another agent. -/
def sameReport (call : Fin 4) : Report := ⟨if call = 3 then 2 else 1, 100, fun _ => .null, [0xab]⟩

def reportOnce (call : Fin 4) : List (Action (Fin 4)) :=
  [.check call, .lookup call none, .send call 5, .finish call]

theorem skipped_report_backed_queued :
    ∃ s t, run (step .sqlite (fun _ => some 1) sameReport) (.started [] 1 1) (reportOnce 0) = some s ∧
      step .sqlite (fun _ => some 1) sameReport s (.check 2) = some t ∧ t.pc 2 = .answered .skipped ∧
      Backed t.records 1 (truncateTo16 [0xab]) := by
  have hG : Along (step .sqlite (fun _ => some 1) sameReport) (Lossless .sqlite (fun _ => some 1) sameReport)
      (.started [] 1 1) (reportOnce 0) :=
    .cons rfl trivial
      (.cons rfl trivial (.cons rfl (fun _ => ⟨rfl, by decide⟩) (.cons rfl trivial trivial)))
  have hbacked := skipped_report_backed .sqlite (fun _ => some 1) sameReport [] 1 1 (reportOnce 0) 2 hG rfl
    (a := .check 2) rfl (by decide) rfl
  exact ⟨_, _, rfl, rfl, rfl, hbacked⟩

/-- After these steps the third call answers that its report is a duplicate, and no
row with its hash is stored or queued. -/
def SkippedForNothing (cap : Nat) (actions : List (Action (Fin 4))) : Prop :=
  ∃ s t, run (step .sqlite (fun _ => some 1) sameReport) (.started [] 1 cap) actions = some s ∧
    step .sqlite (fun _ => some 1) sameReport s (.check 2) = some t ∧ s.pc 2 ≠ .answered .skipped ∧
    t.pc 2 = .answered .skipped ∧ ¬Backed t.records 1 (truncateTo16 [0xab])

/-- A channel that is full, a refused write, a delete, and two reports of the same data that
arrive together and break the unique index of the table. -/
theorem duplicate_without_row :
    SkippedForNothing 1 (reportOnce 3 ++ reportOnce 0) ∧
    SkippedForNothing 1 (reportOnce 0 ++ [.collect 1, .insert false]) ∧
    SkippedForNothing 1 (reportOnce 0 ++ [.collect 1, .insert true, .delete [.uuid 7]]) ∧
    SkippedForNothing 2
      ([.check 0, .check 1, .lookup 0 none, .lookup 1 none, .send 0 5, .send 1 5, .finish 0, .finish 1] ++
        [.collect 2, .insert true]) := by
  have hnone {records : List StaticRecord} (h : ∀ r ∈ records, r.uuidId = 2) : ¬Backed records 1 (truncateTo16 [0xab]) := by
    rintro ⟨r, hr, hid, -⟩
    exact absurd ((h r hr).symm.trans hid) (by decide)
  exact ⟨⟨_, _, rfl, rfl, by decide, rfl, hnone (by decide)⟩, ⟨_, _, rfl, rfl, by decide, rfl, hnone nofun⟩,
    ⟨_, _, rfl, rfl, by decide, rfl, hnone nofun⟩, ⟨_, _, rfl, rfl, by decide, rfl, hnone nofun⟩⟩

end Example

end NodeGet.Monitoring.StaticReport
