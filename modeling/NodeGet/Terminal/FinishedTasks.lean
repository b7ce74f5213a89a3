import NodeGet.Task.Blocking
import NodeGet.Task.Event

/-! Which tasks open a terminal (`ng-terminal/src/check_agent.rs`, with the uploads of
`ng-task/src/rpc/upload_task_result.rs`).

An upload marks its row by `success`, and stores the result if it has one. The terminal looks at
the stored result alone. Each call's database statements are taken together; the update of an
upload, which decides, is one statement. -/
namespace NodeGet.Terminal.FinishedTasks
open NodeGet.Core NodeGet.Machine NodeGet.Task NodeGet.Task.Retention NodeGet.Task.Blocking

variable {ρ : Type}

structure State (ρ : Type) where
  table : IdTable Blocking.Row Blocking.Row.id
  /-- History: the uploads that were accepted. -/
  uploads : List (TaskEventResponse ρ)

def started : State ρ := ⟨⟨[], List.nodup_nil⟩, []⟩

inductive Event (ρ : Type) where
  /-- The database gives the id. -/
  | create (id : Int64) (uuid : Uuid) (token : String) (taskType : Json)
  /-- With what the row's task type and the caller's permissions say. -/
  | upload (response : TaskEventResponse ρ) (verdict : Except NodegetError Unit)

/-- The libraries that the calls use. -/
structure Env (ρ : Type) where
  serialize : ρ → Except String Json
  /-- `serde_json::from_value` -/
  fromValue : Json → Except String TaskEventType
  /-- `Uuid::parse_str` -/
  parseStr : String → Option Uuid
  parses : ∀ uuid, ∃ text, parseStr text = some uuid

variable (env : Env ρ)

def uploadTaskResult (table : IdTable Blocking.Row Blocking.Row.id) (r : TaskEventResponse ρ) (verdict : Except NodegetError Unit) :
    Except NodegetError (IdTable Blocking.Row Blocking.Row.id) := do
  checkUpload table r verdict
  storeResult env.serialize table r

def step (s : State ρ) : Event ρ → Option (State ρ)
  | .create id uuid token taskType =>
    if hnew : id ∉ s.table.rows.map (·.id) then
      some { s with table := s.table.insert (newRow id uuid token taskType) hnew }
    else none
  | .upload r verdict =>
    match uploadTaskResult env s.table r verdict with
    | .error _ => some s
    | .ok table => some ⟨table, r :: s.uploads⟩

/-- The filters of the query. -/
def isPending (taskId : UInt64) (uuid : Uuid) (taskToken : String) (row : Blocking.Row) : Bool :=
  row.id = taskId.toInt64 ∧ row.uuid = uuid ∧ row.token = taskToken ∧ row.taskEventResult.isNone

def checkAgent (table : IdTable Blocking.Row Blocking.Row.id) (agentUuid taskToken : String) (taskId : UInt64) :
    Except NodegetError Bool :=
  match env.parseStr agentUuid with
  | none => .error (.parseError "Invalid Agent UUID format")
  | some uuid =>
    match table.rows.find? (isPending taskId uuid taskToken) with
    | none => .ok false
    | some row =>
      match env.fromValue row.taskEventType with
      | .error e => .error (.serializationError ("Failed to parse task_event_type: " ++ e))
      | .ok (.webShell _) => .ok true
      | .ok _ => .error (.permissionDenied "Terminal connection is only allowed for WebShell tasks")

def IsWebShell (row : Blocking.Row) : Prop := ∃ task, env.fromValue row.taskEventType = .ok (.webShell task)

variable {env} {s t : State ρ}

theorem checkAgent_iff {table : IdTable Blocking.Row Blocking.Row.id} {agentUuid taskToken : String} {taskId : UInt64} :
    checkAgent env table agentUuid taskToken taskId = .ok true ↔
      ∃ row ∈ table.rows, row.id = taskId.toInt64 ∧ env.parseStr agentUuid = some row.uuid ∧ row.token = taskToken ∧
        row.taskEventResult = none ∧ IsWebShell env row := by
  constructor
  · intro h
    simp only [checkAgent] at h
    split at h
    · cases h
    · next uuid hparse =>
      split at h
      · cases h
      · next row hfind =>
        have hrow := List.find?_some hfind
        simp only [isPending, decide_eq_true_eq, Option.isNone_iff_eq_none] at hrow
        obtain ⟨hid, rfl, htoken, hresult⟩ := hrow
        split at h
        · cases h
        · next task htype => exact ⟨row, List.mem_of_find?_eq_some hfind, hid, hparse, htoken, hresult, task, htype⟩
        · cases h
  · intro ⟨row, hrow, hid, hparse, htoken, hresult, task, htype⟩
    -- Ids are unique, so the query finds this row.
    have hpending : isPending taskId row.uuid taskToken row = true := by simp [isPending, hid, htoken, hresult]
    obtain ⟨row', hfind⟩ := Option.isSome_iff_exists.mp (List.find?_isSome.mpr ⟨row, hrow, hpending⟩)
    have hid' := List.find?_some hfind
    simp only [isPending, decide_eq_true_eq] at hid'
    cases table.eq_of_id (List.mem_of_find?_eq_some hfind) hrow (hid'.1.trans hid.symm)
    simp only [checkAgent, hparse, hfind, htype]

/-! ### What uploads leave behind -/

structure Sound (s : State ρ) : Prop where
  known : ∀ r ∈ s.uploads, ∃ row ∈ s.table.rows, r.matches row = true
  marked : ∀ row ∈ s.table.rows, ∀ r ∈ s.uploads, r.matches row = true →
    row.success.isSome ∧ row.taskEventResult.isSome = r.taskEventResult.isSome

theorem matches_iff {r : TaskEventResponse ρ} {row : Blocking.Row} :
    r.matches row = true ↔ row.id = r.taskId.toInt64 ∧ row.uuid = r.agentUuid ∧ row.token = r.taskToken := by
  simp [TaskEventResponse.matches]

theorem isSome_serializeResult {serialize : ρ → Except String Json} {value : Option ρ} {result : Option Json}
    (h : serializeResult serialize value = .ok result) : result.isSome = value.isSome := by
  cases value with
  | none =>
    cases h
    rfl
  | some value =>
    cases hvalue : serialize value with
    | error => simp [serializeResult, hvalue, Except.map] at h
    | ok json =>
      simp only [serializeResult, hvalue, Except.map, Except.ok.injEq] at h
      rw [← h]
      rfl

theorem step_sound (s : State ρ) (event : Event ρ) (t : State ρ) (hs : Sound s) (h : step env s event = some t) :
    Sound t := by
  cases event with
  | create id uuid token taskType =>
    simp only [step] at h
    split_ifs at h with hnew
    cases h
    -- The uploads so far were for other rows.
    have hother (r : TaskEventResponse ρ) (hr : r ∈ s.uploads) : r.matches (newRow id uuid token taskType) = false := by
      refine Bool.eq_false_iff.mpr fun hmatches => hnew ?_
      obtain ⟨row, hrow, hrow'⟩ := hs.known r hr
      have hid : row.id = id := (matches_iff.mp hrow').1.trans (matches_iff.mp hmatches).1.symm
      exact hid ▸ List.mem_map_of_mem hrow
    refine ⟨fun r hr => ?_, fun row hrow r hr hmatches => ?_⟩
    · obtain ⟨row, hrow, hmatches⟩ := hs.known r hr
      exact ⟨row, List.mem_cons_of_mem _ hrow, hmatches⟩
    · rcases List.mem_cons.mp hrow with rfl | hrow
      · rw [hother r hr] at hmatches
        cases hmatches
      · exact hs.marked row hrow r hr hmatches
  | upload r verdict =>
    simp only [step] at h
    split at h
    · cases h
      exact hs
    next table hupload =>
      cases h
      obtain ⟨result, hresult, hwrite⟩ := storeResult_ok (check_ok_iff.mp hupload).2
      obtain ⟨⟨row₀, hrow₀, hmatches₀, hnone⟩, htable⟩ := writeResult_eq_some hwrite
      have hkept {r' : TaskEventResponse ρ} {row : Blocking.Row} (hrow : row ∈ s.table.rows)
          (hmatches : r'.matches row = true) : ∃ row' ∈ table.rows, r'.matches row' = true := by
        rw [htable]
        refine ⟨_, List.mem_map_of_mem hrow, ?_⟩
        split <;> exact hmatches
      refine ⟨fun r' hr' => ?_, fun row hrow r' hr' hmatches => ?_⟩
      · obtain rfl | hr' := List.mem_cons.mp hr'
        · exact hkept hrow₀ hmatches₀
        · obtain ⟨row, hrow, hmatches⟩ := hs.known r' hr'
          exact hkept hrow hmatches
      · obtain ⟨hold, hother⟩ | ⟨old, hold, -, hunmarked, rfl⟩ := mem_writeResult hwrite hrow
        · obtain rfl | hr' := List.mem_cons.mp hr'
          · -- The row of the upload had no result, so it is written.
            cases s.table.eq_of_id hold hrow₀ ((matches_iff.mp hmatches).1.trans (matches_iff.mp hmatches₀).1.symm)
            exact absurd ⟨hmatches₀, hnone⟩ hother
          · exact hs.marked row hold r' hr' hmatches
        · obtain rfl | hr' := List.mem_cons.mp hr'
          · exact ⟨rfl, isSome_serializeResult hresult⟩
          · simpa [hunmarked] using (hs.marked old hold r' hr' hmatches).1

/-- **A terminal opens only for a web-shell task without an accepted upload** exactly if every accepted
upload for such a task carried a result value. -/
theorem unfinished_terminals_iff {events : List (Event ρ)} (hrun : run (step env) started events = some s) :
    (∀ agentUuid taskToken taskId, checkAgent env s.table agentUuid taskToken taskId = .ok true →
        ∃ row ∈ s.table.rows, row.id = taskId.toInt64 ∧ env.parseStr agentUuid = some row.uuid ∧
          row.token = taskToken ∧ IsWebShell env row ∧ ∀ r ∈ s.uploads, r.matches row = false) ↔
      ∀ row ∈ s.table.rows, IsWebShell env row → ∀ r ∈ s.uploads, r.matches row = true →
        r.taskEventResult.isSome := by
  have hs : Sound s := run_preserves step_sound ⟨by simp [started], by simp [started]⟩ hrun
  constructor
  · intro h row hrow hshell r hr hmatches
    refine Option.isSome_iff_ne_none.mpr fun hnone => ?_
    obtain ⟨text, htext⟩ := env.parses row.uuid
    obtain ⟨hid, -, -⟩ := matches_iff.mp hmatches
    have hempty : row.taskEventResult = none := by simpa [hnone] using (hs.marked row hrow r hr hmatches).2
    obtain ⟨row', hrow', hid', -, -, -, huploads⟩ := h text row.token r.taskId
      (checkAgent_iff.mpr ⟨row, hrow, hid, htext, rfl, hempty, hshell⟩)
    cases s.table.eq_of_id hrow' hrow (hid'.trans hid.symm)
    exact Bool.false_ne_true ((huploads r hr).symm.trans hmatches)
  · intro h agentUuid taskToken taskId haccepted
    obtain ⟨row, hrow, hid, hparse, htoken, hempty, hshell⟩ := checkAgent_iff.mp haccepted
    refine ⟨row, hrow, hid, hparse, htoken, hshell, fun r hr => Bool.eq_false_iff.mpr fun hmatches => ?_⟩
    have hsome := h row hrow hshell r hr hmatches
    rw [← (hs.marked row hrow r hr hmatches).2, hempty] at hsome
    cases hsome

def shell : TaskEventType := .webShell ⟨"wss://host", 7⟩

/-- Values that are their own JSON, and one UUID for each text. -/
def plain : Env Json where
  serialize := .ok
  fromValue _ := .ok shell
  parseStr text := some (BitVec.ofNat 128 text.length)
  parses uuid := ⟨String.ofList (List.replicate uuid.toNat 'a'), by simp⟩

theorem unfinished_terminals_result :
    ∃ s, run (step plain) started [.create 1 5 "t" .null, .upload ⟨1, 5, "t", 9, true, none, some (.bool true)⟩ (.ok ())]
        = some s ∧ s.uploads.length = 1 ∧
      ∀ agentUuid taskToken taskId, checkAgent plain s.table agentUuid taskToken taskId = .ok true →
        ∃ row ∈ s.table.rows, row.id = taskId.toInt64 ∧ plain.parseStr agentUuid = some row.uuid ∧
          row.token = taskToken ∧ IsWebShell plain row ∧ ∀ r ∈ s.uploads, r.matches row = false := by
  obtain ⟨s, hrun, huploads⟩ : ∃ s, run (step plain) started
      [.create 1 5 "t" .null, .upload ⟨1, 5, "t", 9, true, none, some (.bool true)⟩ (.ok ())] = some s ∧
      s.uploads = [⟨1, 5, "t", 9, true, none, some (.bool true)⟩] := ⟨_, rfl, rfl⟩
  refine ⟨s, hrun, by rw [huploads]; rfl, (unfinished_terminals_iff hrun).mpr fun row _ _ r hr _ => ?_⟩
  rw [huploads, List.mem_singleton] at hr
  rw [hr]
  rfl

/-- An upload without a result value is accepted, and the terminal opens after it. -/
theorem finished_task_opens_terminal :
    ∃ s, run (step plain) started [.create 1 5 "t" .null, .upload ⟨1, 5, "t", 9, true, none, none⟩ (.ok ())] = some s ∧
      s.uploads = [⟨1, 5, "t", 9, true, none, none⟩] ∧ checkAgent plain s.table "12345" "t" 1 = .ok true :=
  ⟨_, rfl, rfl, rfl⟩

end NodeGet.Terminal.FinishedTasks
