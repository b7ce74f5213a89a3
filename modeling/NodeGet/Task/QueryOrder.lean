import NodeGet.Data.SortedHalves
import NodeGet.Task.Access

/-! The order in which `task_query` answers on the two backends (`ng-task/src/rpc/query.rs`).

Rows are ordered by time and then by id, the newest first with `Last` and `Limit` and the
oldest first by default. A task that has no result yet has no time, and `NULL` is the lowest
time on SQLite and the highest on PostgreSQL. So the backends answer alike exactly when the
selected rows all wait for a result, or all have one, or none is asked for
(`query_same_iff`). -/
namespace NodeGet.Task
open NodeGet.Core NodeGet.Data

/-! ### The two orders -/

theorem timestampLe_trans (backend : Backend) {a b c : Option Int} (hab : timestampLe backend a b = true)
    (hbc : timestampLe backend b c = true) : timestampLe backend a c = true := by
  cases backend <;> cases a <;> cases b <;> cases c <;> simp [timestampLe] at hab hbc ⊢
  all_goals omega

theorem timestampLe_total (backend : Backend) (a b : Option Int) :
    timestampLe backend a b = true ∨ timestampLe backend b a = true := by
  cases backend <;> cases a <;> cases b <;> simp [timestampLe]
  all_goals omega

theorem timestampLe_antisymm {backend : Backend} {a b : Option Int} (hab : timestampLe backend a b = true)
    (hba : timestampLe backend b a = true) : a = b := by
  cases backend <;> cases a <;> cases b <;> simp [timestampLe] at hab hba ⊢
  all_goals omega

theorem rowLe_iff (backend : Backend) (a b : Row) :
    rowLe backend a b = true ↔
      timestampLe backend a.timestamp b.timestamp = true ∧ (a.timestamp = b.timestamp → a.id ≤ b.id) := by
  unfold rowLe
  split
  next heq =>
    have hself : timestampLe backend b.timestamp b.timestamp = true := by
      simpa using timestampLe_total backend b.timestamp b.timestamp
    simp [heq, hself]
  next hne => simp [hne]

theorem rowLe_trans (backend : Backend) (a b c : Row) (hab : rowLe backend a b = true)
    (hbc : rowLe backend b c = true) : rowLe backend a c = true := by
  rw [rowLe_iff] at *
  refine ⟨timestampLe_trans backend hab.1 hbc.1, fun heq => ?_⟩
  -- equal times at both ends leave the middle no other
  have hmiddle : a.timestamp = b.timestamp := timestampLe_antisymm hab.1 (heq ▸ hbc.1)
  exact Int64.le_trans (hab.2 hmiddle) (hbc.2 (hmiddle.symm.trans heq))

theorem rowLe_total (backend : Backend) (a b : Row) : (rowLe backend a b || rowLe backend b a) = true := by
  rw [Bool.or_eq_true, rowLe_iff, rowLe_iff]
  by_cases heq : a.timestamp = b.timestamp
  · have hself := (timestampLe_total backend b.timestamp b.timestamp).elim id id
    rw [heq]
    exact (Int64.le_total a.id b.id).imp (fun h => ⟨hself, fun _ => h⟩) (fun h => ⟨hself, fun _ => h⟩)
  · exact (timestampLe_total backend a.timestamp b.timestamp).imp (fun h => ⟨h, fun he => absurd he heq⟩)
      (fun h => ⟨h, fun he => absurd he.symm heq⟩)

/-- Rows of a table have different ids, so there is one way to sort them. -/
theorem rowLe_sortsUniquely (backend : Backend) (table : Table) (selected : Row → Bool) :
    SortsUniquely (rowLe backend) (table.rows.filter selected) where
  trans := rowLe_trans backend
  total := rowLe_total backend
  antisymm a ha b hb hab hba := by
    rw [rowLe_iff] at hab hba
    have htime : a.timestamp = b.timestamp := timestampLe_antisymm hab.1 hba.1
    exact List.inj_on_of_nodup_map table.nodup (List.mem_filter.mp ha).1 (List.mem_filter.mp hb).1
      (Int64.le_antisymm (hab.2 htime) (hba.2 htime.symm))

def isPending (row : Row) : Bool := row.timestamp.isNone

theorem rowLe_sqlite_putsFirst : PutsFirst (rowLe .sqlite) isPending := by
  intro a b ha hb
  cases hta : a.timestamp <;> cases htb : b.timestamp <;> simp_all [isPending, rowLe, timestampLe]

theorem rowLe_postgres_putsFirst : PutsFirst (rowLe .postgres) fun row => !isPending row := by
  intro a b ha hb
  cases hta : a.timestamp <;> cases htb : b.timestamp <;> simp_all [isPending, rowLe, timestampLe]

theorem rowLe_agree {a b : Row} (h : isPending a = isPending b) : rowLe .sqlite a b = rowLe .postgres a b := by
  cases hta : a.timestamp <;> cases htb : b.timestamp <;> simp_all [isPending, rowLe, timestampLe]

/-! ### The answers -/

section Answers
variable {number : JsonNumber → List Char} {conditions : List TaskQueryCondition} {table : Table}

/-- Only the type filter depends on the backend. -/
theorem selects_backend (h : requestedTypes conditions = []) :
    selects number .sqlite conditions = selects number .postgres conditions := by
  funext row
  refine Bool.eq_iff_iff.mpr ?_
  rw [selects, selects, List.all_eq_true, List.all_eq_true]
  refine forall₂_congr fun condition hmem => ?_
  cases condition with
  | taskType key =>
    have hkey := mem_requestedTypes.mpr hmem
    rw [h] at hkey
    cases hkey
  | _ => rfl

/-- Among the rows that pass the conditions one waits for a result and another has one. -/
def MixesPending (number : JsonNumber → List Char) (conditions : List TaskQueryCondition) (table : Table) : Prop :=
  ∃ waiting ∈ table.rows, ∃ finished ∈ table.rows,
    (selects number .sqlite conditions waiting = true ∧ waiting.timestamp = none) ∧
      selects number .sqlite conditions finished = true ∧ finished.timestamp ≠ none

theorem not_mixesPending_iff :
    ¬MixesPending number conditions table ↔
      (∀ row ∈ table.rows.filter (selects number .sqlite conditions), isPending row = true) ∨
        ∀ row ∈ table.rows.filter (selects number .sqlite conditions), isPending row = false := by
  have hpending : ∀ row : Row, isPending row = true ↔ row.timestamp = none := fun row => Option.isNone_iff_eq_none
  simp only [MixesPending, List.mem_filter, ← Bool.not_eq_true, hpending]
  constructor
  · intro h
    by_contra hnone
    simp only [not_or, not_forall, not_not] at hnone
    obtain ⟨⟨finished, hfinished, htime⟩, waiting, hwaiting, hnull⟩ := hnone
    exact h ⟨waiting, hwaiting.1, finished, hfinished.1, ⟨hwaiting.2, hnull⟩, hfinished.2, htime⟩
  · intro h hmixed
    obtain ⟨waiting, hwaiting, finished, hfinished, ⟨hselects, hnull⟩, hselects', htime⟩ := hmixed
    rcases h with hall | hall
    · exact htime (hall finished ⟨hfinished, hselects'⟩)
    · exact hall waiting ⟨hwaiting, hselects⟩ hnull

theorem newest_same_iff (h : requestedTypes conditions = []) (n : Nat) :
    newest number .sqlite conditions table n = newest number .postgres conditions table n ↔
      n = 0 ∨ ¬MixesPending number conditions table := by
  unfold newest
  rw [← selects_backend h, not_mixesPending_iff]
  exact take_mergeSort_flip_eq_iff (rowLe_sortsUniquely .sqlite table _) (rowLe_sortsUniquely .postgres table _)
    rowLe_sqlite_putsFirst rowLe_postgres_putsFirst (fun _ _ => rowLe_agree) n

theorem oldest_same_iff (h : requestedTypes conditions = []) (n : Nat) :
    table.select (selects number .sqlite conditions) (rowLe .sqlite) n =
        table.select (selects number .postgres conditions) (rowLe .postgres) n ↔
      n = 0 ∨ ¬MixesPending number conditions table := by
  rw [← selects_backend h, not_mixesPending_iff]
  exact take_mergeSort_eq_iff (rowLe_sortsUniquely .sqlite table _) (rowLe_sortsUniquely .postgres table _)
    rowLe_sqlite_putsFirst rowLe_postgres_putsFirst (fun _ _ => rowLe_agree) n

/-- **Without a type condition both backends answer alike exactly when the request is refused,
has no room, or does not select both rows that wait for a result and rows that have one.** -/
theorem query_same_iff (number : JsonNumber → List Char) (grant : Grant) (now : Int)
    (conditions : List TaskQueryCondition) (table : Table) (htypes : requestedTypes conditions = []) :
    query number .sqlite grant now conditions table = query number .postgres grant now conditions table ↔
      (checkTokenLimit grant now (scopes conditions) (permissions .query conditions) = true →
        HasRoom conditions → ¬MixesPending number conditions table) := by
  unfold query HasRoom
  split
  next hallowed =>
    simp only [hallowed, forall_const, Except.ok.injEq]
    by_cases hlast : isLast conditions = true
    · simp [hlast, newest_same_iff htypes]
    · rw [if_neg hlast, if_neg hlast]
      cases hlimit : limitCount conditions with
      | some n =>
        show newest number .sqlite conditions table n = newest number .postgres conditions table n ↔ _
        rw [newest_same_iff htypes]
        simp [hlast, or_iff_not_imp_left]
      | none =>
        refine (oldest_same_iff htypes defaultResultQueryLimit).trans ?_
        simp [defaultResultQueryLimit]
  next hrefused => simp [hrefused]

end Answers

section Example

/-- A ping of the agent 0, with its result if it has a time. -/
private def pinged (id : Int64) (timestamp : Option Int) : Row :=
  ⟨id, 0, none, timestamp, timestamp.map fun _ => true, none, .ping "a", none⟩

/-- One ping has its result, the other waits for it. -/
private def oneWaits : Table := ⟨[pinged 1 (some 5), pinged 2 none], by decide⟩

/-- Asked for successes only, both backends give the same newest task. -/
theorem query_same_successes :
    requestedTypes [.isSuccess, .last] = [] ∧
      query (fun _ => []) .sqlite (exactGrant .query allTaskTypes) 0 [.isSuccess, .last] oneWaits =
        query (fun _ => []) .postgres (exactGrant .query allTaskTypes) 0 [.isSuccess, .last] oneWaits := by
  refine ⟨rfl, (query_same_iff _ _ _ _ _ rfl).mpr fun _ _ hmixed => ?_⟩
  obtain ⟨waiting, hwaiting, _, _, ⟨hselects, hnull⟩, _⟩ := hmixed
  have hsuccess : (waiting.success == some true) = true := holds_of_mem hselects List.mem_cons_self
  rcases List.mem_pair.mp hwaiting with rfl | rfl
  · cases hnull
  · cases hsuccess

/-- The newest task is the finished one on SQLite and the waiting one on PostgreSQL, and the
list of all tasks is turned round. -/
theorem waiting_task_moves :
    let ask (backend : Backend) (conditions : List TaskQueryCondition) :=
      (query (fun _ => []) backend (exactGrant .query allTaskTypes) 0 conditions oneWaits).map (List.map Row.id)
    (ask .sqlite [.last] = .ok [1] ∧ ask .postgres [.last] = .ok [2]) ∧
      (ask .sqlite [.limit 1] = .ok [1] ∧ ask .postgres [.limit 1] = .ok [2]) ∧
      ask .sqlite [] = .ok [2, 1] ∧ ask .postgres [] = .ok [1, 2] := by
  have hsort : ∀ (le : Row → Row → Bool) (a b : Row), [a, b].mergeSort le = if le a b then [a, b] else [b, a] := by
    intro le a b
    simp [List.mergeSort, List.cons_merge_cons]
  have hallowed : ∀ conditions ∈ [[.last], [.limit 1], []], checkTokenLimit (exactGrant .query allTaskTypes) 0
      (scopes conditions) (permissions .query conditions) = true := by decide
  have hselected : ∀ conditions ∈ [[.last], [.limit 1], []], ∀ backend, oneWaits.rows.filter
      (selects (fun _ => []) backend conditions) = [pinged 1 (some 5), pinged 2 none] := by
    intro conditions hmem backend
    simp only [List.mem_cons, List.not_mem_nil, or_false] at hmem
    rcases hmem with rfl | rfl | rfl <;> rfl
  refine ⟨⟨?_, ?_⟩, ⟨?_, ?_⟩, ?_, ?_⟩
  all_goals
    simp [query, newest, Table.Keyed.select, hallowed, hselected, hsort, isLast, limitCount, pinged, rowLe, timestampLe, Except.map,
      maxQueryLimit, defaultResultQueryLimit]

end Example

end NodeGet.Task
