import Mathlib.Data.Prod.Lex
import Mathlib.Data.String.Basic
import NodeGet.Core.Unsigned
import NodeGet.Data.Keyset
import NodeGet.Monitoring.Conditions

/-! Reading the total-traffic snapshots of an agent page by page
(`ng-monitoring/src/rpc/agent/query_traffic_detail.rs`).

A page holds the first snapshots beyond the cursor in the order of interface name
and snapshot time; one more row is fetched to see whether a further page exists. A
client follows `next_cursor` until there is none, and the table may be another one
at every request (`follow`).

Interface names are compared as the database's collation does: a linear order on an
arbitrary type of names. -/
namespace NodeGet.TrafficDetail
open NodeGet.Core NodeGet.Data

/-- `traffic_snapshot`, without its primary key. -/
structure TrafficSnapshot (Name : Type) where
  uuidId : Int16
  interfaceName : Name
  snapshotTime : Int64
  totalReceived : Int64
  totalTransmitted : Int64

/-- The table with its unique index. -/
structure SnapshotTable (Name : Type) where
  rows : List (TrafficSnapshot Name)
  unique : (rows.map fun s => (s.uuidId, s.interfaceName, s.snapshotTime)).Nodup

structure TrafficCursor (Name : Type) where
  interfaceName : Name
  snapshotTime : Int64
deriving DecidableEq

structure TrafficSnapshotItem (Name : Type) where
  interfaceName : Name
  snapshotTime : Int64
  totalReceived : UInt64
  totalTransmitted : UInt64
deriving DecidableEq

def defaultMonitoringQueryLimit : UInt64 := 10000

def resolvePageSize : Option UInt64 → Except NodegetError UInt64
  | none => .ok defaultMonitoringQueryLimit
  | some limit =>
    if limit = 0 then .error (.invalidInput "limit must be greater than 0")
    else .ok (min limit Monitoring.maxQueryLimit)

theorem resolvePageSize_bounds {limit : Option UInt64} {pageSize : UInt64}
    (h : resolvePageSize limit = .ok pageSize) : 0 < pageSize.toNat ∧ pageSize.toNat ≤ 10000 := by
  cases limit with
  | none =>
    cases h
    decide
  | some limit =>
    rw [resolvePageSize] at h
    split at h
    next => cases h
    next hlimit =>
      cases h
      have hpos : 0 < limit.toNat := by
        rw [Nat.pos_iff_ne_zero]
        intro h0
        exact hlimit (UInt64.toNat_inj.mp h0)
      have hmin : (min limit Monitoring.maxQueryLimit).toNat = min limit.toNat 10000 := by
        show (if limit ≤ Monitoring.maxQueryLimit then limit else Monitoring.maxQueryLimit).toNat = _
        have : Monitoring.maxQueryLimit.toNat = 10000 := rfl
        split
        next hle =>
          have := UInt64.le_iff_toNat_le.mp hle
          omega
        next hle =>
          have := mt UInt64.le_iff_toNat_le.mpr hle
          omega
      omega

variable {Name : Type}

def TrafficSnapshot.item (s : TrafficSnapshot Name) : TrafficSnapshotItem Name where
  interfaceName := s.interfaceName
  snapshotTime := s.snapshotTime
  totalReceived := s.totalReceived.toUInt64
  totalTransmitted := s.totalTransmitted.toUInt64

def TrafficSnapshot.cursor (s : TrafficSnapshot Name) : TrafficCursor Name := ⟨s.interfaceName, s.snapshotTime⟩

/-- The snapshots of one agent from `startTime` to `endTime`, both included. -/
def selects (uuidId : Int16) (startTime endTime : Option Int64) (s : TrafficSnapshot Name) : Bool :=
  s.uuidId == uuidId && startTime.all (· ≤ s.snapshotTime) && endTime.all (s.snapshotTime ≤ ·)

/-- `ORDER BY interface_name, snapshot_time` -/
def TrafficSnapshot.sortKey (s : TrafficSnapshot Name) : Name ×ₗ ℤ := toLex (s.interfaceName, s.snapshotTime.toInt)

def TrafficCursor.sortKey (c : TrafficCursor Name) : Name ×ₗ ℤ := toLex (c.interfaceName, c.snapshotTime.toInt)

theorem nodup_sortKeys (table : SnapshotTable Name) (uuidId : Int16) (startTime endTime : Option Int64) :
    ((table.rows.filter (selects uuidId startTime endTime)).map TrafficSnapshot.sortKey).Nodup := by
  have hpairs := List.pairwise_map.mp table.unique
  refine List.pairwise_map.mpr ((hpairs.sublist List.filter_sublist).imp_of_mem fun ha hb hab heq => ?_)
  have huuid : ∀ {s}, s ∈ table.rows.filter (selects uuidId startTime endTime) → s.uuidId = uuidId := by
    intro s hs
    have := (List.mem_filter.mp hs).2
    simp only [selects, Bool.and_eq_true, beq_iff_eq] at this
    exact this.1.1
  have hkey := Prod.mk.inj (toLex.injective heq)
  exact hab (by rw [huuid ha, huuid hb, hkey.1, Int64.toInt_inj.mp hkey.2])

variable [LinearOrder Name]

/-- The snapshot comes after the cursor: a greater name, or the same name and later. -/
def TrafficCursor.precedes (c : TrafficCursor Name) (s : TrafficSnapshot Name) : Bool :=
  decide (c.interfaceName < s.interfaceName) ||
    (decide (s.interfaceName = c.interfaceName) && decide (c.snapshotTime < s.snapshotTime))

def queryDetail (rows : List (TrafficSnapshot Name)) (uuidId : Int16) (startTime endTime : Option Int64)
    (pageSize : UInt64) (cursor : Option (TrafficCursor Name)) :
    List (TrafficSnapshotItem Name) × Option (TrafficCursor Name) :=
  let selected := (rows.filter (selects uuidId startTime endTime)).filter fun s => cursor.all (·.precedes s)
  let ordered := selected.insertionSort fun a b => a.sortKey ≤ b.sortKey
  let snapshots := ordered.take (saturatingAdd pageSize 1).toNat
  let hasMore := pageSize.toNat < snapshots.length
  let snapshots := snapshots.take pageSize.toNat
  (snapshots.map (·.item), if hasMore then snapshots.getLast?.map (·.cursor) else none)

/-- The pages a client gets by following `next_cursor`, with the table as it is at each
request, and whether it came to the end. -/
def follow (uuidId : Int16) (startTime endTime : Option Int64) (pageSize : UInt64) :
    List (SnapshotTable Name) → Option (TrafficCursor Name) → List (List (TrafficSnapshotItem Name)) × Bool
  | [], _ => ([], false)
  | table :: rest, cursor =>
    let (items, next) := queryDetail table.rows uuidId startTime endTime pageSize cursor
    match next with
    | none => ([items], true)
    | some next =>
      let (pages, done) := follow uuidId startTime endTime pageSize rest (some next)
      (items :: pages, done)

/-! ### A page in terms of what is left -/

theorem precedes_iff (c : TrafficCursor Name) (s : TrafficSnapshot Name) :
    c.precedes s = true ↔ c.sortKey < s.sortKey := by
  rw [TrafficCursor.sortKey, TrafficSnapshot.sortKey, Prod.Lex.toLex_lt_toLex, ← Int64.lt_iff_toInt_lt]
  simp only [TrafficCursor.precedes, Bool.or_eq_true, Bool.and_eq_true, decide_eq_true_eq,
    @eq_comm _ s.interfaceName c.interfaceName]

section
variable (uuidId : Int16) (startTime endTime : Option Int64)

/-- The selected snapshots that a reader at `cursor` has not seen, in order. -/
def unseen (table : SnapshotTable Name) (cursor : Option (TrafficCursor Name)) : List (TrafficSnapshot Name) :=
  Keyset.after TrafficSnapshot.sortKey (table.rows.filter (selects uuidId startTime endTime))
    (cursor.map TrafficCursor.sortKey)

theorem queryDetail_eq (table : SnapshotTable Name) {pageSize : UInt64} (hmax : pageSize.toNat ≤ 10000)
    (cursor : Option (TrafficCursor Name)) :
    queryDetail table.rows uuidId startTime endTime pageSize cursor =
      let rest := unseen uuidId startTime endTime table cursor
      let page := rest.take pageSize.toNat
      (page.map (·.item), if pageSize.toNat < rest.length then page.getLast?.map (·.cursor) else none) := by
  have hfetch : (saturatingAdd pageSize 1).toNat = pageSize.toNat + 1 := by
    rw [toNat_saturatingAdd]
    simp only [u64Max, UInt64.toNat_one]
    omega
  have hbeyond : (fun s : TrafficSnapshot Name => cursor.all (·.precedes s)) =
      Keyset.beyond TrafficSnapshot.sortKey (cursor.map TrafficCursor.sortKey) := by
    funext s
    cases cursor with
    | none => rfl
    | some c => exact Bool.eq_iff_iff.mpr ((precedes_iff c s).trans (Keyset.beyond_some _ s).symm)
  have hleft : ∀ rest : List (TrafficSnapshot Name),
      (rest.take (pageSize.toNat + 1)).take pageSize.toNat = rest.take pageSize.toNat := by
    intro rest
    rw [List.take_take, Nat.min_eq_left (Nat.le_succ _)]
  have hmore : ∀ rest : List (TrafficSnapshot Name),
      pageSize.toNat < (rest.take (pageSize.toNat + 1)).length ↔ pageSize.toNat < rest.length := by
    intro rest
    rw [List.length_take]
    omega
  simp only [queryDetail, hfetch, hbeyond, hleft, hmore]
  rfl

variable (pageSize : UInt64) (hpos : 0 < pageSize.toNat) (hmax : pageSize.toNat ≤ 10000)
include hpos hmax

/-- One request: it is the last and returns all that is left, or it returns the first
of what is left and its cursor leaves the others. -/
theorem queryDetail_cases (table : SnapshotTable Name) (cursor : Option (TrafficCursor Name)) :
    (queryDetail table.rows uuidId startTime endTime pageSize cursor =
      ((unseen uuidId startTime endTime table cursor).map (·.item), none)) ∨
    ∃ page last, page.getLast? = some last ∧
      queryDetail table.rows uuidId startTime endTime pageSize cursor =
        (page.map (·.item), some last.cursor) ∧
      unseen uuidId startTime endTime table cursor =
        page ++ unseen uuidId startTime endTime table (some last.cursor) := by
  rw [queryDetail_eq uuidId startTime endTime table hmax]
  simp only
  split
  next hmore =>
    cases hlast : ((unseen uuidId startTime endTime table cursor).take pageSize.toNat).getLast? with
    | none =>
      rw [List.getLast?_eq_none_iff, List.take_eq_nil_iff] at hlast
      rcases hlast with hzero | hnil
      · omega
      · simp [hnil] at hmore
    | some last =>
      refine .inr ⟨_, last, hlast, rfl, ?_⟩
      have hrest : unseen uuidId startTime endTime table (some last.cursor) =
          (unseen uuidId startTime endTime table cursor).drop pageSize.toNat :=
        Keyset.after_getLast (nodup_sortKeys table uuidId startTime endTime) hlast
      rw [hrest, List.take_append_drop]
  next hmore =>
    left
    rw [List.take_of_length_le (Nat.le_of_not_lt hmore)]

/-! ### Following the cursor -/

/-- On a table that stays as it is the client comes to the end and has read all that
was left. -/
theorem follow_replicate (table : SnapshotTable Name) (n : Nat) (cursor : Option (TrafficCursor Name))
    (hn : (unseen uuidId startTime endTime table cursor).length < n) :
    ∃ pages, follow uuidId startTime endTime pageSize (List.replicate n table) cursor = (pages, true) ∧
      pages.flatten = (unseen uuidId startTime endTime table cursor).map (·.item) := by
  induction n generalizing cursor with
  | zero => omega
  | succ n ih =>
    rw [List.replicate_succ, follow]
    obtain h | ⟨page, last, hlast, h, hsplit⟩ :=
      queryDetail_cases uuidId startTime endTime pageSize hpos hmax table cursor
    · rw [h]
      exact ⟨_, rfl, by simp⟩
    · -- a page that is not the last holds at least one row
      have hpage : 0 < page.length := List.length_pos_of_ne_nil fun h0 => by simp [h0] at hlast
      have hlen := congrArg List.length hsplit
      rw [List.length_append] at hlen
      obtain ⟨pages, hpages, hflat⟩ := ih (some last.cursor) (by omega)
      rw [h]
      simp only [hpages]
      exact ⟨_, rfl, by simp [hflat, hsplit]⟩

/-- What a client has read when it has followed the cursor over changing tables. -/
structure Read (tables : List (SnapshotTable Name)) (cursor : Option (TrafficCursor Name))
    (read : List (TrafficSnapshot Name)) : Prop where
  pages : (follow uuidId startTime endTime pageSize tables cursor).1.flatten = read.map (·.item)
  strict : read.Pairwise fun a b => a.sortKey < b.sortKey
  beyond : ∀ s ∈ read, Keyset.beyond TrafficSnapshot.sortKey (cursor.map TrafficCursor.sortKey) s = true
  complete : (follow uuidId startTime endTime pageSize tables cursor).2 = true →
    ∀ s, (∀ table ∈ tables, s ∈ table.rows) → selects uuidId startTime endTime s = true →
      Keyset.beyond TrafficSnapshot.sortKey (cursor.map TrafficCursor.sortKey) s = true → s ∈ read

theorem follow_read (tables : List (SnapshotTable Name)) (cursor : Option (TrafficCursor Name)) :
    ∃ read, Read uuidId startTime endTime pageSize tables cursor read := by
  induction tables generalizing cursor with
  | nil => exact ⟨[], rfl, .nil, by simp, fun h => by cases h⟩
  | cons table rest ih =>
    have hstrict : (unseen uuidId startTime endTime table cursor).Pairwise fun a b => a.sortKey < b.sortKey :=
      Keyset.after_strict (nodup_sortKeys table uuidId startTime endTime) _
    have hmem : ∀ s, s ∈ unseen uuidId startTime endTime table cursor ↔
        (s ∈ table.rows ∧ selects uuidId startTime endTime s = true) ∧
          Keyset.beyond TrafficSnapshot.sortKey (cursor.map TrafficCursor.sortKey) s = true := by
      intro s
      rw [unseen, Keyset.mem_after, List.mem_filter]
    obtain h | ⟨page, last, hlast, h, hsplit⟩ :=
      queryDetail_cases uuidId startTime endTime pageSize hpos hmax table cursor
    · refine ⟨unseen uuidId startTime endTime table cursor, ?_, hstrict, fun s hs => ((hmem s).mp hs).2, ?_⟩
      · simp [follow, h]
      · intro _ s hs hsel hbeyond
        exact (hmem s).mpr ⟨⟨hs table List.mem_cons_self, hsel⟩, hbeyond⟩
    · obtain ⟨read, hread⟩ := ih (some last.cursor)
      rw [hsplit] at hmem hstrict
      have hpages := (List.pairwise_append.mp hstrict).1
      have hafter : ∀ s ∈ read, last.sortKey < s.sortKey := by
        intro s hs
        exact (Keyset.beyond_some _ s).mp (hread.beyond s hs)
      refine ⟨page ++ read, ?_, ?_, ?_, ?_⟩
      · simp [follow, h, hread.pages]
      · refine List.pairwise_append.mpr ⟨hpages, hread.strict, ?_⟩
        exact fun a ha b hb => (Keyset.le_getLast hpages hlast ha).trans_lt (hafter b hb)
      · intro s hs
        rcases List.mem_append.mp hs with hpage | hrest
        · exact ((hmem s).mp (List.mem_append_left _ hpage)).2
        · have hlastMem := (hmem last).mp (List.mem_append_left _ (List.mem_of_getLast? hlast))
          exact Keyset.beyond_trans hlastMem.2 (hafter s hrest)
      · intro hdone s hs hsel hbeyond
        have hdone' : (follow uuidId startTime endTime pageSize rest (some last.cursor)).2 = true := by
          simpa [follow, h] using hdone
        have hcase := (hmem s).mpr ⟨⟨hs table List.mem_cons_self, hsel⟩, hbeyond⟩
        refine List.mem_append.mpr ((List.mem_append.mp hcase).imp_right fun hlater => ?_)
        rw [unseen, Keyset.mem_after] at hlater
        exact hread.complete hdone' s (fun t ht => hs t (List.mem_cons_of_mem _ ht)) hsel hlater.2

end

/-- **Paging through the snapshots of an agent** with any accepted page size. On a table
that stays as it is the client comes to the end, and the pages joined are the matching
rows in order, each once, whichever interfaces it keeps. While the table changes, no
snapshot is returned twice, and once at the end every matching row that was there at
each request was returned exactly once. -/
theorem pages_exact {limit : Option UInt64} {pageSize : UInt64}
    (hlimit : resolvePageSize limit = .ok pageSize) (uuidId : Int16) (startTime endTime : Option Int64) :
    (∀ table : SnapshotTable Name, ∃ requests pages,
      follow uuidId startTime endTime pageSize (List.replicate requests table) none = (pages, true) ∧
      ∀ keep : Name → Bool, ∃ rows : List (TrafficSnapshot Name),
        (pages.flatten.filter fun i => keep i.interfaceName) = rows.map (·.item) ∧
        rows.Perm (table.rows.filter fun s => selects uuidId startTime endTime s && keep s.interfaceName) ∧
        rows.Pairwise fun a b => a.sortKey < b.sortKey) ∧
    ∀ (tables : List (SnapshotTable Name)) (pages : List (List (TrafficSnapshotItem Name))) (done : Bool),
      follow uuidId startTime endTime pageSize tables none = (pages, done) →
      (pages.flatten.map fun i => (i.interfaceName, i.snapshotTime)).Nodup ∧
      (done = true → ∀ s : TrafficSnapshot Name, (∀ table ∈ tables, s ∈ table.rows) →
        selects uuidId startTime endTime s = true → pages.flatten.count s.item = 1) := by
  obtain ⟨hpos, hmax⟩ := resolvePageSize_bounds hlimit
  constructor
  · intro table
    obtain ⟨pages, hfollow, hflat⟩ := follow_replicate uuidId startTime endTime pageSize hpos hmax table _ none
      (Nat.lt_succ_self _)
    refine ⟨_, pages, hfollow, fun keep =>
      ⟨(unseen uuidId startTime endTime table none).filter fun s => keep s.interfaceName, ?_, ?_, ?_⟩⟩
    · rw [hflat, List.filter_map]
      rfl
    · have hperm : (unseen uuidId startTime endTime table none).Perm
          (table.rows.filter (selects uuidId startTime endTime)) := Keyset.after_none_perm
      refine (hperm.filter _).trans (.of_eq ?_)
      rw [List.filter_filter]
      exact List.filter_congr fun s _ => Bool.and_comm ..
    · exact (Keyset.after_strict (nodup_sortKeys table uuidId startTime endTime) _).sublist List.filter_sublist
  · intro tables pages done hfollow
    obtain ⟨read, hread⟩ := follow_read uuidId startTime endTime pageSize hpos hmax tables none
    have hpages := hread.pages
    have hcomplete := hread.complete
    rw [hfollow] at hpages hcomplete
    have hnodup : (pages.flatten.map fun i => (i.interfaceName, i.snapshotTime)).Nodup := by
      rw [hpages, List.map_map]
      refine List.pairwise_map.mpr (hread.strict.imp fun hab heq => ?_)
      obtain ⟨hname, htime⟩ := Prod.mk.inj heq
      exact hab.ne (congrArg toLex (Prod.ext hname (congrArg Int64.toInt htime)))
    refine ⟨hnodup, fun hdone s hs hsel => ?_⟩
    refine List.count_eq_one_of_mem (hnodup.of_map _) ?_
    rw [hpages]
    exact List.mem_map_of_mem (hcomplete hdone s hs hsel rfl)

/-- Two snapshots of one interface and one of another, of agent 1. -/
def threeSnapshots : SnapshotTable String where
  rows := [⟨1, "eth1", 15, 10, 3⟩, ⟨1, "eth0", 30, 230, 9⟩, ⟨1, "eth0", 15, 150, 7⟩]
  unique := by decide

theorem pages_exact_two_per_page :
    resolvePageSize (some 2) = .ok 2 ∧
    ∃ requests pages, follow 1 none none 2 (List.replicate requests threeSnapshots) none = (pages, true) ∧
      ∀ keep : String → Bool, ∃ rows : List (TrafficSnapshot String),
        (pages.flatten.filter fun i => keep i.interfaceName) = rows.map (·.item) ∧
        rows.Perm (threeSnapshots.rows.filter fun s => selects 1 none none s && keep s.interfaceName) ∧
        rows.Pairwise fun a b => a.sortKey < b.sortKey :=
  have hlimit : resolvePageSize (some 2) = .ok 2 := rfl
  ⟨hlimit, (pages_exact hlimit 1 none none).1 threeSnapshots⟩

end NodeGet.TrafficDetail
