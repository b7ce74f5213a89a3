import NodeGet.Monitoring.LastCache

/-! Which rows a token reads and removes with the monitoring queries and deletes
(`ng-monitoring/src/rpc/agent/query_static.rs`, `query_dynamic.rs`, `delete_static.rs`,
`delete_dynamic.rs`).

A request is checked for the agents its conditions name, or for everything when they name
none; the statement that selects the rows is made from the same conditions, apart from the
check. The static and the dynamic table are served by the same code with other columns and
permissions, which is a `Kind`. A row that a request selects is a row of every agent the
request names (`OfNamed`), so it lies inside what was checked (`Confined`). -/
namespace NodeGet.Monitoring
open NodeGet.Core

/-! ### What is checked -/

def requestedUuids (conditions : List QueryCondition) : List Uuid :=
  conditions.filterMap fun
    | .uuid uuid => some uuid
    | _ => none

/-- The scopes a query needs. -/
def queryScopes (conditions : List QueryCondition) : List Scope :=
  if (requestedUuids conditions).isEmpty then [.global] else (requestedUuids conditions).map .agentUuid

def pushScope (scopes : List Scope) : QueryCondition → List Scope
  | .uuid uuid => if .agentUuid uuid ∈ scopes then scopes else scopes ++ [.agentUuid uuid]
  | _ => scopes

/-- The scopes a delete needs, each once. -/
def scopesFromConditions (conditions : List QueryCondition) : List Scope :=
  let scopes := conditions.foldl pushScope []
  if scopes.isEmpty then [.global] else scopes

/-- What tells the tables apart. -/
structure Kind (φ : Type) where
  all : List φ
  columnName : φ → String
  jsonKey : φ → String
  read : φ → Permission
  delete : Permission
  readDenied : String
  deleteDenied : String

/-- Without fields a query answers the agents and times only, and any one of the reading
permissions will do. -/
def readAllowed {φ : Type} (kind : Kind φ) (grant : Grant) (now : Int) (fields : List φ)
    (conditions : List QueryCondition) : Bool :=
  if fields.isEmpty then kind.all.any fun field => checkTokenLimit grant now (queryScopes conditions) [kind.read field]
  else checkTokenLimit grant now (queryScopes conditions) (fields.map kind.read)

/-! ### What is selected -/

/-- The numbers of the agents that a query names. -/
def queryUuidIds (idOf : Uuid → Option Int16) : List QueryCondition → Except NodegetError (List Int16)
  | [] => .ok []
  | .uuid uuid :: rest =>
    match idOf uuid with
    | none => .error (.notFound ("Unknown agent UUID: " ++ Uuid.text uuid))
    | some uuidId => (queryUuidIds idOf rest).map (uuidId :: ·)
  | _ :: rest => queryUuidIds idOf rest

/-- The filters of a query; each condition on an agent takes the next number, and `none` is
the panic when there is none left. -/
def queryFilters : List QueryCondition → List Int16 → Option (List ResolvedCondition)
  | [], _ => some []
  | .uuid _ :: _, [] => none
  | .uuid _ :: rest, uuidId :: uuidIds => (queryFilters rest uuidIds).map (.uuidId uuidId :: ·)
  | .timestampFromTo start stop :: rest, uuidIds => (queryFilters rest uuidIds).map (.timestampFromTo start stop :: ·)
  | .timestampFrom start :: rest, uuidIds => (queryFilters rest uuidIds).map (.timestampFrom start :: ·)
  | .timestampTo stop :: rest, uuidIds => (queryFilters rest uuidIds).map (.timestampTo stop :: ·)
  | .storageTimeFromTo start stop :: rest, uuidIds =>
    (queryFilters rest uuidIds).map (.storageTimeFromTo start stop :: ·)
  | .storageTimeFrom start :: rest, uuidIds => (queryFilters rest uuidIds).map (.storageTimeFrom start :: ·)
  | .storageTimeTo stop :: rest, uuidIds => (queryFilters rest uuidIds).map (.storageTimeTo stop :: ·)
  | .limit _ :: rest, uuidIds => queryFilters rest uuidIds
  | .last :: rest, uuidIds => queryFilters rest uuidIds

def defaultMonitoringQueryLimit : Nat := 10000

/-- A monitoring table with its primary key. -/
structure MonitoringTable (φ : Type) where
  rows : List (Row (Record φ))
  unique : (rows.map (·.id)).Nodup

section Requests
variable {φ : Type} (kind : Kind φ) (fromStr : String → Option Json) (reg : Registry) (grant : Grant) (now : Int)

/-- The newest rows with `Last` or a limit, else the oldest. -/
def queryRows (conditions : List QueryCondition) (filters : List ResolvedCondition) (rows : List (Row (Record φ))) :
    List (Row (Record φ)) :=
  let (limitCount, isLast) := extractLimitAndLast conditions
  let selected := rows.filter fun row => filters.all (·.holds row.record.toColumns)
  let newestFirst := selected.insertionSort fun a b => b.record.timestamp ≤ a.record.timestamp
  let oldestFirst := selected.insertionSort fun a b => a.record.timestamp ≤ b.record.timestamp
  if isLast then newestFirst.take 1
  else limitCount.elim (oldestFirst.take defaultMonitoringQueryLimit) fun limit => newestFirst.take limit.toNat

def executeRow (fields : List φ) (row : Row (Record φ)) : JsonMap :=
  renameFields fromStr kind.columnName kind.jsonKey
    (translateUuid reg.uuidOf row.record (selectRow kind.columnName fields row.record)) fields

/-- A query by a token that is not the super token. -/
def query (fields : List φ) (conditions : List QueryCondition) (t : MonitoringTable φ) :
    Except NodegetError (Option (List JsonMap)) :=
  if !readAllowed kind grant now fields conditions then .error (.permissionDenied kind.readDenied)
  else (queryUuidIds reg.idOf conditions).map fun uuidIds =>
    (queryFilters conditions uuidIds).map fun filters =>
      (queryRows conditions filters t.rows).map (executeRow kind fromStr reg fields)

structure DeleteAnswer where
  deleted : Nat
  conditionCount : Nat

/-- A delete by such a token: its answer, and the rows that stay. -/
def delete (conditions : List QueryCondition) (t : MonitoringTable φ) :
    Except NodegetError (DeleteAnswer × List (Row (Record φ))) :=
  if !checkTokenLimit grant now (scopesFromConditions conditions) [kind.delete] then
    .error (.permissionDenied kind.deleteDenied)
  else (deleteRows Record.toColumns reg.idOf conditions t.rows).map fun rows =>
    (⟨t.rows.length - rows.length, conditions.length⟩, rows)

end Requests

/-! ### The two tables -/

def staticKind : Kind StaticDataQueryField where
  all := [.cpu, .system, .gpu]
  columnName
    | .cpu => "cpu_data"
    | .system => "system_data"
    | .gpu => "gpu_data"
  jsonKey
    | .cpu => "cpu"
    | .system => "system"
    | .gpu => "gpu"
  read field := .staticMonitoring (.read field)
  delete := .staticMonitoring .delete
  readDenied := "Permission Denied: Insufficient StaticMonitoring Read permissions"
  deleteDenied := "Permission Denied: Missing StaticMonitoring Delete permission for requested scope"

def dynamicKind : Kind DynamicDataQueryField where
  all := [.cpu, .ram, .load, .system, .disk, .network, .gpu]
  columnName := DynamicDataQueryField.columnName
  jsonKey := DynamicDataQueryField.jsonKey
  read field := .dynamicMonitoring (.read field)
  delete := .dynamicMonitoring .delete
  readDenied := "Permission Denied: Insufficient DynamicMonitoring Read permissions"
  deleteDenied := "Permission Denied: Missing DynamicMonitoring Delete permission for requested scope"

def queryStatic := query staticKind

def queryDynamic := query dynamicKind

def deleteStatic := delete staticKind

def deleteDynamic := delete dynamicKind

/-! ### Rows of the named agents -/

/-- The row is one of every agent the request names. -/
def OfNamed (reg : Registry) (conditions : List QueryCondition) (columns : Columns) : Prop :=
  ∀ uuid, .uuid uuid ∈ conditions → reg.idOf uuid = some columns.uuidId

section
variable {reg : Registry} {columns : Columns}

variable {conditions : List QueryCondition}

theorem OfNamed.cons (h : OfNamed reg conditions columns) {cond : QueryCondition}
    (hcond : ∀ uuid, cond = .uuid uuid → reg.idOf uuid = some columns.uuidId) :
    OfNamed reg (cond :: conditions) columns := by
  intro uuid hmem
  rcases List.mem_cons.mp hmem with heq | hrest
  · exact hcond uuid heq.symm
  · exact h uuid hrest

/-- What a delete selects. -/
theorem ofNamed_of_resolved {resolved : List ResolvedCondition}
    (h : resolveConditions reg.idOf conditions = .ok resolved) (hholds : resolved.all (·.holds columns) = true) :
    OfNamed reg conditions columns := by
  induction conditions generalizing resolved with
  | nil => exact fun _ hmem => by cases hmem
  | cons cond rest ih =>
    -- a filter in front of those of the rest
    have hcons (filter : ResolvedCondition) (h : (resolveConditions reg.idOf rest).map (filter :: ·) = .ok resolved) :
        filter.holds columns = true ∧ OfNamed reg rest columns := by
      cases hrest : resolveConditions reg.idOf rest with
      | error e =>
        rw [hrest] at h
        cases h
      | ok filters =>
        rw [hrest] at h
        cases h
        obtain ⟨hfilter, hfilters⟩ := Bool.and_eq_true_iff.mp hholds
        exact ⟨hfilter, ih hrest hfilters⟩
    cases cond with
    | uuid uuid =>
      simp only [resolveConditions] at h
      split at h
      next => cases h
      next uuidId hid =>
        obtain ⟨hfilter, hrest⟩ := hcons _ h
        refine hrest.cons fun uuid' heq => ?_
        cases heq
        rw [hid, beq_iff_eq.mp hfilter]
    | limit n => exact (ih h hholds).cons fun _ heq => by cases heq
    | last => exact (ih h hholds).cons fun _ heq => by cases heq
    | _ => exact (hcons _ h).2.cons fun _ heq => by cases heq

/-- A query finds a number for every condition on an agent, and its filters are those of a
delete with the same conditions. -/
theorem queryFilters_eq_resolved {uuidIds : List Int16} (h : queryUuidIds reg.idOf conditions = .ok uuidIds) :
    ∃ filters, queryFilters conditions uuidIds = some filters ∧ resolveConditions reg.idOf conditions = .ok filters := by
  induction conditions generalizing uuidIds with
  | nil => exact ⟨[], rfl, rfl⟩
  | cons cond rest ih =>
    have hcons (filter : ResolvedCondition) {uuidIds : List Int16} (h : queryUuidIds reg.idOf rest = .ok uuidIds) :
        ∃ filters, (queryFilters rest uuidIds).map (filter :: ·) = some filters ∧
          (resolveConditions reg.idOf rest).map (filter :: ·) = .ok filters := by
      obtain ⟨filters, hfilters, hresolved⟩ := ih h
      exact ⟨filter :: filters, by rw [hfilters, Option.map_some], by rw [hresolved, Except.map]⟩
    cases cond with
    | uuid uuid =>
      simp only [queryUuidIds, resolveConditions] at h ⊢
      cases hid : reg.idOf uuid with
      | none =>
        rw [hid] at h
        cases h
      | some uuidId =>
        cases hrest : queryUuidIds reg.idOf rest with
        | error e =>
          rw [hid, hrest] at h
          cases h
        | ok uuidIds' =>
          rw [hid, hrest] at h
          cases h
          exact hcons _ hrest
    | limit n => exact ih h
    | last => exact ih h
    | _ => exact hcons _ h

end

/-! ### Inside the grant -/

/-- One limit covers the permission, and either everything or the agent of the row. -/
def Inside (reg : Registry) (limits : List Limit) (columns : Columns) (permission : Permission) : Prop :=
  ∃ limit ∈ limits, limit.permissions.any (permissionMatches · permission) = true ∧
    (limit.scopes.any (scopeMatches · .global) = true ∨
      ∃ uuid, reg.idOf uuid = some columns.uuidId ∧ limit.scopes.any (scopeMatches · (.agentUuid uuid)) = true)

/-- The scopes speak for the agents the conditions name, or for everything. -/
structure ScopesOf (conditions : List QueryCondition) (scopes : List Scope) : Prop where
  named : ∀ uuid, .uuid uuid ∈ conditions → .agentUuid uuid ∈ scopes
  unnamed : (∀ uuid, .uuid uuid ∉ conditions) → .global ∈ scopes

variable {conditions : List QueryCondition} {uuid : Uuid}

theorem mem_requestedUuids : uuid ∈ requestedUuids conditions ↔ .uuid uuid ∈ conditions := by
  rw [requestedUuids, List.mem_filterMap]
  constructor
  · intro ⟨cond, hmem, hcond⟩
    cases cond with
    | uuid uuid' =>
      cases hcond
      exact hmem
    | _ => cases hcond
  · intro h
    exact ⟨_, h, rfl⟩

theorem queryScopes_scopesOf (conditions : List QueryCondition) : ScopesOf conditions (queryScopes conditions) := by
  rw [queryScopes]
  split
  next hempty =>
    have hnone : requestedUuids conditions = [] := List.isEmpty_iff.mp hempty
    refine ⟨fun uuid h => ?_, fun _ => List.mem_singleton.mpr rfl⟩
    rw [← mem_requestedUuids, hnone] at h
    cases h
  next hsome =>
    refine ⟨fun uuid h => List.mem_map_of_mem (mem_requestedUuids.mpr h), fun h => absurd ?_ hsome⟩
    exact List.isEmpty_iff.mpr (List.eq_nil_iff_forall_not_mem.mpr fun uuid hmem => h uuid (mem_requestedUuids.mp hmem))

theorem subset_foldl_pushScope (scopes : List Scope) (conditions : List QueryCondition) :
    scopes ⊆ conditions.foldl pushScope scopes := by
  induction conditions generalizing scopes with
  | nil => exact List.Subset.refl _
  | cons cond rest ih =>
    refine List.Subset.trans ?_ (ih _)
    cases cond with
    | uuid uuid =>
      rw [pushScope]
      split
      next => exact List.Subset.refl _
      next => exact List.subset_append_left _ _
    | _ => exact List.Subset.refl _

theorem mem_foldl_pushScope (scopes : List Scope) (h : .uuid uuid ∈ conditions) :
    .agentUuid uuid ∈ conditions.foldl pushScope scopes := by
  induction conditions generalizing scopes with
  | nil => cases h
  | cons cond rest ih =>
    rcases List.mem_cons.mp h with rfl | h
    · refine subset_foldl_pushScope _ rest ?_
      rw [pushScope]
      split
      next hmem => exact hmem
      next => exact List.mem_append_right _ (List.mem_singleton.mpr rfl)
    · exact ih _ h

theorem foldl_pushScope_of_unnamed (scopes : List Scope) (h : ∀ uuid, .uuid uuid ∉ conditions) :
    conditions.foldl pushScope scopes = scopes := by
  induction conditions with
  | nil => rfl
  | cons cond rest ih =>
    have hrest := ih fun uuid hmem => h uuid (List.mem_cons_of_mem _ hmem)
    cases cond with
    | uuid uuid => exact absurd List.mem_cons_self (h uuid)
    | _ => exact hrest

theorem scopesFromConditions_scopesOf (conditions : List QueryCondition) :
    ScopesOf conditions (scopesFromConditions conditions) := by
  rw [scopesFromConditions]
  refine ⟨fun uuid h => ?_, fun h => ?_⟩
  · have hmem := mem_foldl_pushScope [] h
    rwa [if_neg (by simpa using List.ne_nil_of_mem hmem)]
  · rw [foldl_pushScope_of_unnamed [] h]
    exact List.mem_singleton.mpr rfl

/-- A row of the named agents lies inside what was checked for them. -/
theorem inside_of_check {reg : Registry} {grant : Grant} {now : Int} {scopes : List Scope}
    {permissions : List Permission} (hscopes : ScopesOf conditions scopes)
    (hcheck : checkTokenLimit grant now scopes permissions = true) {columns : Columns}
    (hrow : OfNamed reg conditions columns) {permission : Permission} (hpermission : permission ∈ permissions) :
    Inside reg grant.tokenLimit columns permission := by
  have hcovers {scope : Scope} (hscope : scope ∈ scopes) : ∃ limit ∈ grant.tokenLimit,
      limit.scopes.any (scopeMatches · scope) = true ∧ limit.permissions.any (permissionMatches · permission) = true := by
    obtain ⟨limit, hlimit, hcover⟩ := List.any_eq_true.mp (checkTokenLimit_covers hcheck hscope hpermission)
    exact ⟨limit, hlimit, Bool.and_eq_true_iff.mp hcover⟩
  by_cases hnamed : ∃ uuid, .uuid uuid ∈ conditions
  · obtain ⟨uuid, huuid⟩ := hnamed
    obtain ⟨limit, hlimit, hscope, hperm⟩ := hcovers (hscopes.named uuid huuid)
    exact ⟨limit, hlimit, hperm, .inr ⟨uuid, hrow uuid huuid, hscope⟩⟩
  · obtain ⟨limit, hlimit, hscope, hperm⟩ := hcovers (hscopes.unnamed (not_exists.mp hnamed))
    exact ⟨limit, hlimit, hperm, .inl hscope⟩

section
variable {φ : Type} {kind : Kind φ} {fromStr : String → Option Json} {reg : Registry} {grant : Grant} {now : Int}
  {conditions : List QueryCondition}

variable {row : Row (Record φ)}

theorem queryRows_selected {filters : List ResolvedCondition} {rows : List (Row (Record φ))}
    (h : row ∈ queryRows conditions filters rows) : row ∈ rows ∧ filters.all (·.holds row.record.toColumns) = true := by
  have hsorted {le : Row (Record φ) → Row (Record φ) → Prop} [DecidableRel le] {n : Nat}
      (h : row ∈ ((rows.filter fun row => filters.all (·.holds row.record.toColumns)).insertionSort le).take n) :
      row ∈ rows ∧ filters.all (·.holds row.record.toColumns) = true :=
    List.mem_filter.mp ((List.mem_insertionSort le).mp (List.mem_of_mem_take h))
  simp only [queryRows] at h
  split at h
  next => exact hsorted h
  next =>
    cases hlimit : (extractLimitAndLast conditions).1 with
    | none =>
      rw [hlimit] at h
      exact hsorted h
    | some limit =>
      rw [hlimit] at h
      exact hsorted h

theorem deleteRows_removed {t : MonitoringTable φ} {rows' : List (Row (Record φ))}
    (h : deleteRows Record.toColumns reg.idOf conditions t.rows = .ok rows') (hrow : row ∈ t.rows) (hgone : row ∉ rows') :
    OfNamed reg conditions row.record.toColumns := by
  unfold deleteRows at h
  cases hres : resolveConditions reg.idOf conditions with
  | error e =>
    simp only [hres, Except.map] at h
    cases h
  | ok resolved =>
    refine ofNamed_of_resolved hres ?_
    simp only [hres, Except.map, Except.ok.injEq] at h
    subst h
    split at hgone
    next =>
      -- the row's id is among the selected ones, so the row is
      have hid := of_not_not fun hid => hgone (List.mem_filter.mpr ⟨hrow, decide_eq_true hid⟩)
      obtain ⟨row', hrow', heq⟩ := List.mem_map.mp hid
      obtain ⟨hmem, hholds⟩ := List.mem_filter.mp ((List.mem_insertionSort _).mp (List.mem_of_mem_take hrow'))
      rwa [List.inj_on_of_nodup_map t.unique hmem hrow heq] at hholds
    next =>
      by_contra hholds
      exact hgone (List.mem_filter.mpr ⟨hrow, by simpa using hholds⟩)

end

/-- What the requests of a kind may touch. A query without fields is checked for one
permission that lets it through. -/
structure Confined {φ : Type} (kind : Kind φ) (fromStr : String → Option Json) (reg : Registry) (grant : Grant)
    (now : Int) (conditions : List QueryCondition) (t : MonitoringTable φ) : Prop where
  query : ∀ fields answer, query kind fromStr reg grant now fields conditions t = .ok answer →
    ∃ (checked : List Permission) (selected : List (Row (Record φ))),
      (if fields = [] then ∃ field, checked = [kind.read field] else checked = fields.map kind.read) ∧
      answer = some (selected.map (executeRow kind fromStr reg fields)) ∧
      ∀ row ∈ selected, row ∈ t.rows ∧
        ∀ permission ∈ checked, Inside reg grant.tokenLimit row.record.toColumns permission
  delete : ∀ answer rows, delete kind reg grant now conditions t = .ok (answer, rows) →
    rows ⊆ t.rows ∧ ∀ row ∈ t.rows, row ∉ rows → Inside reg grant.tokenLimit row.record.toColumns kind.delete

section
variable {φ : Type} (kind : Kind φ) (fromStr : String → Option Json) (reg : Registry) (grant : Grant) (now : Int)
  (conditions : List QueryCondition) (t : MonitoringTable φ)

/-- The permissions that a query was found to have. -/
theorem readAllowed_checked {fields : List φ} (h : readAllowed kind grant now fields conditions = true) :
    ∃ checked : List Permission,
      (if fields = [] then ∃ field, checked = [kind.read field] else checked = fields.map kind.read) ∧
      checkTokenLimit grant now (queryScopes conditions) checked = true := by
  cases fields with
  | nil =>
    obtain ⟨field, _, hcheck⟩ := List.any_eq_true.mp h
    exact ⟨[kind.read field], ⟨field, rfl⟩, hcheck⟩
  | cons field rest => exact ⟨(field :: rest).map kind.read, rfl, h⟩

theorem confined : Confined kind fromStr reg grant now conditions t := by
  constructor
  · intro fields answer h
    simp only [Monitoring.query] at h
    split at h
    next => cases h
    next hallowed =>
      obtain ⟨checked, hchecked, hcheck⟩ := readAllowed_checked kind grant now conditions (by simpa using hallowed)
      cases hids : queryUuidIds reg.idOf conditions with
      | error e =>
        rw [hids] at h
        cases h
      | ok uuidIds =>
        obtain ⟨filters, hfilters, hresolved⟩ := queryFilters_eq_resolved hids
        simp only [hids, Except.map, hfilters, Option.map_some] at h
        cases h
        refine ⟨checked, queryRows conditions filters t.rows, hchecked, rfl, fun row hrow => ?_⟩
        obtain ⟨hmem, hholds⟩ := queryRows_selected hrow
        refine ⟨hmem, fun permission hpermission => ?_⟩
        exact inside_of_check (queryScopes_scopesOf conditions) hcheck (ofNamed_of_resolved hresolved hholds) hpermission
  · intro answer rows h
    simp only [Monitoring.delete] at h
    split at h
    next => cases h
    next hallowed =>
      cases hrows : deleteRows Record.toColumns reg.idOf conditions t.rows with
      | error e =>
        rw [hrows] at h
        cases h
      | ok rows' =>
        rw [hrows] at h
        cases h
        refine ⟨deleteRows_subset hrows, fun row hrow hgone => ?_⟩
        exact inside_of_check (scopesFromConditions_scopesOf conditions) (by simpa using hallowed)
          (deleteRows_removed hrows hrow hgone) (List.mem_singleton.mpr rfl)

end

/-- **Monitoring data stays inside the granted agents**: whatever a token reads or removes in
the static and the dynamic table is covered, for the agent of each row, by one limit. -/
theorem monitoring_confined (fromStr : String → Option Json) (reg : Registry) (grant : Grant) (now : Int)
    (conditions : List QueryCondition) (ts : MonitoringTable StaticDataQueryField)
    (td : MonitoringTable DynamicDataQueryField) :
    Confined staticKind fromStr reg grant now conditions ts ∧ Confined dynamicKind fromStr reg grant now conditions td :=
  ⟨confined .., confined ..⟩

end NodeGet.Monitoring
