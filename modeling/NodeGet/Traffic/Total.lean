import NodeGet.Traffic.Snapshot

/-! The traffic of an agent over a time range
(`ng-monitoring/src/rpc/agent/query_traffic_total.rs`).

The database groups the snapshots in the range by interface and gives the least and the
greatest of each column. What an interface carried is the difference of the greatest and
the least total, which is last minus first for totals that never decrease; an interface
with one snapshot is left out. The request adds the differences up in `u64`, with or
without overflow checks as the build profile says. Each difference fits an `i64`, so two
of them always fit the sum and three need not (`total_exact_iff`). -/
namespace NodeGet.TrafficTotal
open NodeGet.Core NodeGet.Data NodeGet.TrafficDetail

/-! ### The grouped query -/

structure InterfaceTrafficItem (Name : Type) where
  interfaceName : Name
  received : UInt64
  transmitted : UInt64
  firstSnapshotTime : Int64
  lastSnapshotTime : Int64

variable {Name : Type}

/-- A row of the grouped query. -/
structure SnapshotSummary (Name : Type) where
  interfaceName : Name
  snapshotCount : Nat
  firstSnapshotTime : Int64
  lastSnapshotTime : Int64
  minReceived : Int64
  maxReceived : Int64
  minTransmitted : Int64
  maxTransmitted : Int64

/-- The aggregates of one group; of no rows there is no minimum. -/
def summarize (name : Name) (group : List (TrafficSnapshot Name)) : Option (SnapshotSummary Name) := do
  let firstSnapshotTime ← (group.map (·.snapshotTime)).min?
  let lastSnapshotTime ← (group.map (·.snapshotTime)).max?
  let minReceived ← (group.map (·.totalReceived)).min?
  let maxReceived ← (group.map (·.totalReceived)).max?
  let minTransmitted ← (group.map (·.totalTransmitted)).min?
  let maxTransmitted ← (group.map (·.totalTransmitted)).max?
  return { interfaceName := name
           snapshotCount := group.length
           firstSnapshotTime, lastSnapshotTime, minReceived, maxReceived, minTransmitted, maxTransmitted }

def SnapshotSummary.item (row : SnapshotSummary Name) : InterfaceTrafficItem Name where
  interfaceName := row.interfaceName
  received := (saturatingSubI64 row.maxReceived row.minReceived).toUInt64
  transmitted := (saturatingSubI64 row.maxTransmitted row.minTransmitted).toUInt64
  firstSnapshotTime := row.firstSnapshotTime
  lastSnapshotTime := row.lastSnapshotTime

section
variable [LinearOrder Name]

/-- `GROUP BY interface_name ORDER BY interface_name` -/
def interfaceNames (selected : List (TrafficSnapshot Name)) : List Name :=
  (selected.map (·.interfaceName)).dedup.insertionSort fun a b => a ≤ b

def groupOf (selected : List (TrafficSnapshot Name)) (name : Name) : List (TrafficSnapshot Name) :=
  selected.filter fun s => decide (s.interfaceName = name)

def noSnapshots : NodegetError :=
  .notFound ("No interface has at least two traffic snapshots between start_time and end_time; " ++
    "make sure the traffic snapshot worker is installed and running, " ++
    "or query the snapshots with query_traffic_detail")

def queryTotal (rows : List (TrafficSnapshot Name)) (uuidId : Int16) (startTime endTime : Option Int64) :
    Except NodegetError (List (InterfaceTrafficItem Name)) :=
  let selected := rows.filter (selects uuidId startTime endTime)
  let summaries := (interfaceNames selected).filterMap fun name => summarize name (groupOf selected name)
  let items := (summaries.filter fun row => 2 ≤ row.snapshotCount).map SnapshotSummary.item
  if items.isEmpty then .error noSnapshots else .ok items

/-! ### The sums -/

/-- `u64` addition; with overflow checks it panics where it would wrap. -/
def addU64 (overflowChecks : Bool) (a b : UInt64) : Option UInt64 :=
  if overflowChecks && decide (u64Max < a.toNat + b.toNat) then none else some (a + b)

/-- `Iterator::sum` -/
def sumU64 (overflowChecks : Bool) (values : List UInt64) : Option UInt64 := values.foldlM (addU64 overflowChecks) 0

/-- The interfaces with the sums over them, unless adding panics. -/
def totals (overflowChecks : Bool) (rows : List (TrafficSnapshot Name)) (uuidId : Int16)
    (startTime endTime : Option Int64) :
    Option (Except NodegetError (List (InterfaceTrafficItem Name) × UInt64 × UInt64)) :=
  match queryTotal rows uuidId startTime endTime with
  | .error e => some (.error e)
  | .ok interfaces => do
    let received ← sumU64 overflowChecks (interfaces.map (·.received))
    let transmitted ← sumU64 overflowChecks (interfaces.map (·.transmitted))
    return .ok (interfaces, received, transmitted)

end

/-! ### What the figures should be -/

structure Figures (Name : Type) where
  interfaceName : Name
  received : Nat
  transmitted : Nat
  firstSnapshotTime : Int64
  lastSnapshotTime : Int64

def InterfaceTrafficItem.figures (item : InterfaceTrafficItem Name) : Figures Name where
  interfaceName := item.interfaceName
  received := item.received.toNat
  transmitted := item.transmitted.toNat
  firstSnapshotTime := item.firstSnapshotTime
  lastSnapshotTime := item.lastSnapshotTime

/-- The last snapshot minus the first. -/
def lastMinusFirst (name : Name) (group : List (TrafficSnapshot Name)) : Option (Figures Name) := do
  let first ← group.minOn? (·.snapshotTime.toInt)
  let last ← group.maxOn? (·.snapshotTime.toInt)
  return { interfaceName := name
           received := (last.totalReceived.toInt - first.totalReceived.toInt).toNat
           transmitted := (last.totalTransmitted.toInt - first.totalTransmitted.toInt).toNat
           firstSnapshotTime := first.snapshotTime
           lastSnapshotTime := last.snapshotTime }

/-- The sum over the interfaces, which may be any number. -/
def sumOver (value : Figures Name → Nat) : List (Figures Name) → Nat
  | [] => 0
  | f :: rest => value f + sumOver value rest

/-- The snapshot passed the checks of a write at some time. -/
def Accepted (text : Name → String) (s : TrafficSnapshot Name) : Prop :=
  ∃ now uuid, NodeGet.TrafficSnapshot.validateSnapshot now
    ⟨uuid, text s.interfaceName, s.snapshotTime, s.totalReceived, s.totalTransmitted⟩ = .ok ()

/-- The totals of an interface never decrease over time. -/
def NeverDecreases (rows : List (TrafficSnapshot Name)) : Prop :=
  ∀ a ∈ rows, ∀ b ∈ rows, a.uuidId = b.uuidId → a.interfaceName = b.interfaceName → a.snapshotTime ≤ b.snapshotTime →
    a.totalReceived ≤ b.totalReceived ∧ a.totalTransmitted ≤ b.totalTransmitted

variable {text : Name → String} {group : List (TrafficSnapshot Name)}

theorem accepted_nonneg {s : TrafficSnapshot Name} (h : Accepted text s) :
    0 ≤ s.totalReceived ∧ 0 ≤ s.totalTransmitted := by
  obtain ⟨now, uuid, h⟩ := h
  simp only [NodeGet.TrafficSnapshot.validateSnapshot] at h
  split at h
  next => cases h
  next =>
    split at h
    next => cases h
    next =>
      split at h
      next => cases h
      next hnot => exact ⟨Int64.not_lt.mp (not_or.mp hnot).1, Int64.not_lt.mp (not_or.mp hnot).2⟩

theorem toNat_difference {low high : Int64} (hlow : 0 ≤ low) (hle : low ≤ high) :
    (saturatingSubI64 high low).toUInt64.toNat = (high.toInt - low.toInt).toNat := by
  have hhigh := high.toInt_lt
  have hzero := Int64.le_iff_toInt_le.mp hlow
  have hint := Int64.le_iff_toInt_le.mp hle
  rw [Int64.toInt_zero] at hzero
  have hdiff : (saturatingSubI64 high low).toInt = high.toInt - low.toInt := by
    rw [toInt_saturatingSubI64]
    simp only [i64Min, i64Max]
    omega
  have hnonneg : 0 ≤ saturatingSubI64 high low := by
    rw [Int64.le_iff_toInt_le, hdiff, Int64.toInt_zero]
    omega
  rw [Int64.toNat_toUInt64_of_le hnonneg, ← hdiff]
  rfl

theorem min?_map_eq (value : TrafficSnapshot Name → Int64) {first : TrafficSnapshot Name} (hfirst : first ∈ group)
    (h : ∀ s ∈ group, value first ≤ value s) : (group.map value).min? = some (value first) := by
  refine List.min?_eq_some_iff.mpr ⟨List.mem_map_of_mem hfirst, fun b hb => ?_⟩
  obtain ⟨s, hs, rfl⟩ := List.mem_map.mp hb
  exact h s hs

theorem max?_map_eq (value : TrafficSnapshot Name → Int64) {last : TrafficSnapshot Name} (hlast : last ∈ group)
    (h : ∀ s ∈ group, value s ≤ value last) : (group.map value).max? = some (value last) := by
  refine List.max?_eq_some_iff.mpr ⟨List.mem_map_of_mem hlast, fun b hb => ?_⟩
  obtain ⟨s, hs, rfl⟩ := List.mem_map.mp hb
  exact h s hs

theorem exists_first (h : group ≠ []) :
    ∃ first, group.minOn? (·.snapshotTime.toInt) = some first ∧ first ∈ group ∧
      ∀ s ∈ group, first.snapshotTime ≤ s.snapshotTime := by
  obtain ⟨first, hfirst⟩ := Option.isSome_iff_exists.mp
    (List.isSome_minOn?_iff (f := fun s : TrafficSnapshot Name => s.snapshotTime.toInt).mpr h)
  refine ⟨first, hfirst, List.minOn?_mem hfirst, fun s hs => ?_⟩
  have hle := List.apply_get_minOn?_le_of_mem (f := fun s : TrafficSnapshot Name => s.snapshotTime.toInt) hs
  simp only [hfirst, Option.get_some] at hle
  exact Int64.le_iff_toInt_le.mpr hle

theorem exists_last (h : group ≠ []) :
    ∃ last, group.maxOn? (·.snapshotTime.toInt) = some last ∧ last ∈ group ∧
      ∀ s ∈ group, s.snapshotTime ≤ last.snapshotTime := by
  obtain ⟨last, hlast⟩ := Option.isSome_iff_exists.mp
    (List.isSome_maxOn?_iff (f := fun s : TrafficSnapshot Name => s.snapshotTime.toInt).mpr h)
  refine ⟨last, hlast, List.maxOn?_mem hlast, fun s hs => ?_⟩
  have hle := List.le_apply_get_maxOn?_of_mem (f := fun s : TrafficSnapshot Name => s.snapshotTime.toInt) hs
  simp only [hlast, Option.get_some] at hle
  exact Int64.le_iff_toInt_le.mpr hle

/-- Of totals that are not negative and never decrease, the greatest minus the least is the
last minus the first. -/
theorem summarize_figures (name : Name) (group : List (TrafficSnapshot Name))
    (hnonneg : ∀ s ∈ group, 0 ≤ s.totalReceived ∧ 0 ≤ s.totalTransmitted)
    (hmono : ∀ a ∈ group, ∀ b ∈ group, a.snapshotTime ≤ b.snapshotTime →
      a.totalReceived ≤ b.totalReceived ∧ a.totalTransmitted ≤ b.totalTransmitted) :
    (summarize name group).map (fun row => row.item.figures) = lastMinusFirst name group ∧
      ∀ row, summarize name group = some row → row.snapshotCount = group.length := by
  by_cases hgroup : group = []
  · subst hgroup
    exact ⟨rfl, fun row h => by cases h⟩
  · obtain ⟨first, hmin, hfirst, hearliest⟩ := exists_first hgroup
    obtain ⟨last, hmax, hlast, hlatest⟩ := exists_last hgroup
    have hrow : summarize name group = some
        { interfaceName := name, snapshotCount := group.length
          firstSnapshotTime := first.snapshotTime, lastSnapshotTime := last.snapshotTime
          minReceived := first.totalReceived, maxReceived := last.totalReceived
          minTransmitted := first.totalTransmitted, maxTransmitted := last.totalTransmitted } := by
      unfold summarize
      rw [min?_map_eq (·.snapshotTime) hfirst hearliest, max?_map_eq (·.snapshotTime) hlast hlatest,
        min?_map_eq (·.totalReceived) hfirst fun s hs => (hmono first hfirst s hs (hearliest s hs)).1,
        max?_map_eq (·.totalReceived) hlast fun s hs => (hmono s hs last hlast (hlatest s hs)).1,
        min?_map_eq (·.totalTransmitted) hfirst fun s hs => (hmono first hfirst s hs (hearliest s hs)).2,
        max?_map_eq (·.totalTransmitted) hlast fun s hs => (hmono s hs last hlast (hlatest s hs)).2]
      rfl
    have hdiff := hmono first hfirst last hlast (hearliest last hlast)
    rw [hrow, lastMinusFirst, hmin, hmax]
    refine ⟨?_, fun row h => by cases h; rfl⟩
    simp only [Option.map_some, SnapshotSummary.item, InterfaceTrafficItem.figures,
      toNat_difference (hnonneg first hfirst).1 hdiff.1, toNat_difference (hnonneg first hfirst).2 hdiff.2]
    rfl

/-! ### Sums -/

theorem addU64_of_fits (overflowChecks : Bool) {a b : UInt64} (h : a.toNat + b.toNat ≤ u64Max) :
    addU64 overflowChecks a b = some (a + b) ∧ (a + b).toNat = a.toNat + b.toNat := by
  constructor
  · rw [addU64, if_neg]
    simp [h]
  · simp only [u64Max] at h
    rw [UInt64.toNat_add, Nat.mod_eq_of_lt (by omega)]

/-- A sum that fits is exact, with and without overflow checks. -/
theorem sumU64_of_fits (overflowChecks : Bool) (value : InterfaceTrafficItem Name → UInt64)
    (figure : Figures Name → Nat) (hfigure : ∀ item, figure item.figures = (value item).toNat)
    (items : List (InterfaceTrafficItem Name)) (start : UInt64)
    (h : start.toNat + sumOver figure (items.map (·.figures)) ≤ u64Max) :
    ∃ sum, (items.map value).foldlM (addU64 overflowChecks) start = some sum ∧
      sum.toNat = start.toNat + sumOver figure (items.map (·.figures)) := by
  induction items generalizing start with
  | nil => exact ⟨start, rfl, rfl⟩
  | cons item rest ih =>
    simp only [List.map_cons, sumOver, hfigure, List.foldlM_cons] at h ⊢
    obtain ⟨hadd, htoNat⟩ := addU64_of_fits overflowChecks (a := start) (b := value item) (by omega)
    have hrest : (start + value item).toNat + sumOver figure (rest.map (·.figures)) ≤ u64Max := by omega
    obtain ⟨sum, hsum, hexact⟩ := ih _ hrest
    rw [hadd]
    exact ⟨sum, hsum, by omega⟩

/-! ### The listing -/

section
variable [LinearOrder Name]

/-- Last minus first of every interface with two snapshots or more, in the order of the names. -/
def exactFigures (rows : List (TrafficSnapshot Name)) (uuidId : Int16) (startTime endTime : Option Int64) :
    List (Figures Name) :=
  let selected := rows.filter (selects uuidId startTime endTime)
  (interfaceNames selected).filterMap fun name =>
    if 2 ≤ (groupOf selected name).length then lastMinusFirst name (groupOf selected name) else none

/-- The figures of an answer are exact: those of every interface, and both sums. -/
def Exact (rows : List (TrafficSnapshot Name)) (uuidId : Int16) (startTime endTime : Option Int64) :
    Except NodegetError (List (InterfaceTrafficItem Name) × UInt64 × UInt64) → Prop
  | .error e => e = noSnapshots ∧ exactFigures rows uuidId startTime endTime = []
  | .ok (interfaces, received, transmitted) =>
    exactFigures rows uuidId startTime endTime ≠ [] ∧
    interfaces.map (·.figures) = exactFigures rows uuidId startTime endTime ∧
    received.toNat = sumOver (·.received) (exactFigures rows uuidId startTime endTime) ∧
    transmitted.toNat = sumOver (·.transmitted) (exactFigures rows uuidId startTime endTime)

variable {text : Name → String} {rows : List (TrafficSnapshot Name)} (haccepted : ∀ s ∈ rows, Accepted text s)
  (hmono : NeverDecreases rows) (uuidId : Int16) (startTime endTime : Option Int64)
include haccepted hmono

/-- What is read off a group is exact. -/
theorem group_figures (name : Name) :
    let group := groupOf (rows.filter (selects uuidId startTime endTime)) name
    (summarize name group).map (fun row => row.item.figures) = lastMinusFirst name group ∧
      ∀ row, summarize name group = some row → row.snapshotCount = group.length := by
  intro group
  have hmem : ∀ s ∈ group, s ∈ rows ∧ s.uuidId = uuidId ∧ s.interfaceName = name := by
    intro s hs
    obtain ⟨hs, hname⟩ := List.mem_filter.mp hs
    obtain ⟨hrow, hsel⟩ := List.mem_filter.mp hs
    simp only [selects, Bool.and_eq_true, beq_iff_eq] at hsel
    exact ⟨hrow, hsel.1.1, by simpa using hname⟩
  refine summarize_figures name group (fun s hs => accepted_nonneg (haccepted s (hmem s hs).1)) ?_
  intro a ha b hb hle
  obtain ⟨harow, hauuid, haname⟩ := hmem a ha
  obtain ⟨hbrow, hbuuid, hbname⟩ := hmem b hb
  exact hmono a harow b hbrow (hauuid.trans hbuuid.symm) (haname.trans hbname.symm) hle

/-- The query lists the exact figures, or there are none. -/
theorem queryTotal_exact :
    (exactFigures rows uuidId startTime endTime = [] ∧
      queryTotal rows uuidId startTime endTime = .error noSnapshots) ∨
    ∃ items, exactFigures rows uuidId startTime endTime ≠ [] ∧
      queryTotal rows uuidId startTime endTime = .ok items ∧
      items.map (·.figures) = exactFigures rows uuidId startTime endTime := by
  set selected := rows.filter (selects uuidId startTime endTime) with hselected
  set items := (((interfaceNames selected).filterMap fun name => summarize name (groupOf selected name)).filter
    fun row => 2 ≤ row.snapshotCount).map SnapshotSummary.item with hitems
  have hfigures : items.map (·.figures) = exactFigures rows uuidId startTime endTime := by
    rw [hitems, List.map_map, List.filter_filterMap, List.map_filterMap, exactFigures]
    refine List.filterMap_congr fun name _ => ?_
    obtain ⟨hrow, hcount⟩ := group_figures haccepted hmono uuidId startTime endTime name
    rw [← hselected] at hrow hcount ⊢
    cases hsummary : summarize name (groupOf selected name) with
    | none =>
      rw [hsummary] at hrow
      simp [← hrow]
    | some row =>
      rw [hsummary] at hrow
      simp only [← hrow, ← hcount row hsummary]
      by_cases hmany : 2 ≤ row.snapshotCount
      · simp only [Option.filter_some, hmany, decide_true, if_true]
        rfl
      · simp only [Option.filter_some, hmany, decide_false, Bool.false_eq_true, if_false, Option.map_none]
  by_cases hnone : items = []
  · left
    refine ⟨by rw [← hfigures, hnone]; rfl, ?_⟩
    simp only [queryTotal, ← hselected, ← hitems, hnone]
    rfl
  · right
    refine ⟨items, ?_, ?_, hfigures⟩
    · rw [← hfigures]
      simpa using hnone
    · simp only [queryTotal, ← hselected, ← hitems]
      rw [if_neg (by simpa using hnone)]

/-- Sums that fit are exact. -/
theorem totals_exact (overflowChecks : Bool)
    (hreceived : sumOver (·.received) (exactFigures rows uuidId startTime endTime) ≤ u64Max)
    (htransmitted : sumOver (·.transmitted) (exactFigures rows uuidId startTime endTime) ≤ u64Max) :
    ∃ result, totals overflowChecks rows uuidId startTime endTime = some result ∧
      Exact rows uuidId startTime endTime result := by
  rcases queryTotal_exact haccepted hmono uuidId startTime endTime with hnone | hsome
  · obtain ⟨hempty, hquery⟩ := hnone
    exact ⟨.error noSnapshots, by rw [totals, hquery], rfl, hempty⟩
  · obtain ⟨items, hlisted, hquery, hfigures⟩ := hsome
    rw [← hfigures] at hreceived htransmitted
    have hzero : (0 : UInt64).toNat = 0 := rfl
    obtain ⟨received, hsumR, hexactR⟩ := sumU64_of_fits overflowChecks (·.received) (·.received) (fun _ => rfl)
      items 0 (by omega)
    obtain ⟨transmitted, hsumT, hexactT⟩ := sumU64_of_fits overflowChecks (·.transmitted) (·.transmitted)
      (fun _ => rfl) items 0 (by omega)
    refine ⟨.ok (items, received, transmitted), ?_, hlisted, hfigures, ?_, ?_⟩
    · rw [totals, hquery]
      simp only [sumU64, hsumR, hsumT]
      rfl
    · rw [← hfigures]
      omega
    · rw [← hfigures]
      omega

omit haccepted hmono in
/-- An exact sum is one that fits. -/
theorem fits_of_exact {result : Except NodegetError (List (InterfaceTrafficItem Name) × UInt64 × UInt64)}
    (h : Exact rows uuidId startTime endTime result) :
    sumOver (·.received) (exactFigures rows uuidId startTime endTime) ≤ u64Max ∧
      sumOver (·.transmitted) (exactFigures rows uuidId startTime endTime) ≤ u64Max := by
  cases result with
  | error e =>
    rw [h.2]
    exact ⟨Nat.zero_le _, Nat.zero_le _⟩
  | ok sums =>
    obtain ⟨-, -, hreceived, htransmitted⟩ := h
    rw [← hreceived, ← htransmitted]
    exact ⟨Nat.le_pred_of_lt sums.2.1.toNat_lt, Nat.le_pred_of_lt sums.2.2.toNat_lt⟩

end

variable [LinearOrder Name]

/-- **The traffic over a range is exact**, whatever the build profile, exactly when both sums
of last minus first over the interfaces fit `u64`. -/
theorem total_exact_iff (text : Name → String) (table : SnapshotTable Name)
    (haccepted : ∀ s ∈ table.rows, Accepted text s) (hmono : NeverDecreases table.rows) (overflowChecks : Bool)
    (uuidId : Int16) (startTime endTime : Option Int64) :
    (∃ result, totals overflowChecks table.rows uuidId startTime endTime = some result ∧
      Exact table.rows uuidId startTime endTime result) ↔
    sumOver (·.received) (exactFigures table.rows uuidId startTime endTime) ≤ u64Max ∧
      sumOver (·.transmitted) (exactFigures table.rows uuidId startTime endTime) ≤ u64Max := by
  constructor
  · intro h
    obtain ⟨result, -, hexact⟩ := h
    exact fits_of_exact uuidId startTime endTime hexact
  · intro h
    exact totals_exact haccepted hmono uuidId startTime endTime overflowChecks h.1 h.2

/-- Every interface from zero to the greatest value a snapshot may have. -/
def fullCounters : SnapshotTable String where
  rows := [⟨1, "eth0", 10, 0, 0⟩, ⟨1, "eth0", 20, 9223372036854775807, 1⟩, ⟨1, "eth1", 10, 0, 0⟩,
    ⟨1, "eth1", 20, 9223372036854775807, 1⟩, ⟨1, "eth2", 30, 0, 0⟩, ⟨1, "eth2", 40, 9223372036854775807, 1⟩]
  unique := by decide

theorem fullCounters_accepted : (∀ s ∈ fullCounters.rows, Accepted id s) ∧ NeverDecreases fullCounters.rows := by
  constructor
  · intro s hs
    simp only [fullCounters, List.mem_cons, List.not_mem_nil, or_false] at hs
    rcases hs with rfl | rfl | rfl | rfl | rfl | rfl <;> exact ⟨1000, 0, rfl⟩
  · unfold NeverDecreases
    decide

/-- Two interfaces fit the sum. -/
theorem total_exact_iff_two :
    ∃ result, totals true fullCounters.rows 1 none (some 20) = some result ∧
      Exact fullCounters.rows 1 none (some 20) result :=
  (total_exact_iff id fullCounters fullCounters_accepted.1 fullCounters_accepted.2 true 1 none (some 20)).mpr
    (by decide)

/-- Three do not: the checked sum panics and the wrapping one is less than one interface's. -/
theorem three_full_counters :
    ((∀ s ∈ fullCounters.rows, Accepted id s) ∧ NeverDecreases fullCounters.rows) ∧
    totals true fullCounters.rows 1 none none = none ∧
    (∃ interfaces transmitted, totals false fullCounters.rows 1 none none =
      some (.ok (interfaces, 9223372036854775805, transmitted))) ∧
    ∀ overflowChecks, ¬ ∃ result, totals overflowChecks fullCounters.rows 1 none none = some result ∧
      Exact fullCounters.rows 1 none none result := by
  refine ⟨fullCounters_accepted, rfl, ⟨_, _, rfl⟩, ?_⟩
  intro overflowChecks h
  obtain ⟨result, -, hexact⟩ := h
  exact absurd (fits_of_exact 1 none none hexact).1 (by decide)

end NodeGet.TrafficTotal
