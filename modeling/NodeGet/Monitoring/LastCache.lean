import Mathlib.Data.Multiset.Filter
import NodeGet.Machine.Run
import NodeGet.Monitoring.Conditions

/-! The last-value cache and the multi-last query that reads through it
(`ng-monitoring/src/monitoring_last_cache.rs`, `rpc/agent/query_dynamic_multi_last.rs`,
`rpc/agent/query_dynamic_summary_multi_last.rs`).

A report goes to the write buffer and, under the agent's identifier, to the cache,
whatever its timestamp. A query takes the cached object of an agent if there is
one and else the stored record of greatest timestamp. Deletes change the table
only.

Dynamic and summary data differ in what a record holds and in how an object is
made from it; that is a `Source`, and what the cache owes to a source is proved
once. The cache answers as the table does in every run in which reports of an
agent arrive in the order of their timestamps and no delete takes the newest
record of a cached agent (`Orderly`). -/
namespace NodeGet.Monitoring
open NodeGet.Core NodeGet.Machine

/-! ### State and steps -/

/-- The numbers agents have in the tables (`monitoring_uuid_cache.rs`). -/
structure Registry where
  idOf : Uuid → Option Int16
  uuidOf : Int16 → Option Uuid
  inverse : ∀ uuid uuidId, idOf uuid = some uuidId ↔ uuidOf uuidId = some uuid

theorem Registry.idOf_injective (reg : Registry) {a b : Uuid} {uuidId : Int16}
    (ha : reg.idOf a = some uuidId) (hb : reg.idOf b = some uuidId) : a = b := by
  have h := (reg.inverse b uuidId).mp hb
  rw [(reg.inverse a uuidId).mp ha] at h
  exact Option.some.inj h

/-- A kind of monitoring data with fields `φ` and reports `π`: what a report
stores, the object cached for it, and the answers made from either side. -/
structure Source (φ π : Type) where
  data : π → φ → Option Json
  value : Uuid → Int64 → (φ → Option Json) → JsonMap
  fromCache : List φ → JsonMap → JsonMap
  fromRow : (Int16 → Option Uuid) → List φ → Record φ → JsonMap

structure Store (φ : Type) where
  rows : List (Row (Record φ))
  nextId : Nat
  buffer : List (Record φ)
  cache : Uuid → Option JsonMap

inductive Action (π : Type) where
  | report (uuid : Uuid) (time : UInt64) (receivedAt : Int64) (payload : π)
  | flush (count : Nat)
  | delete (conditions : List QueryCondition)

variable {φ π : Type}

/-- A freshly started server: nothing queued, nothing cached. -/
def Store.started (rows : List (Row (Record φ))) (nextId : Nat) : Store φ := ⟨rows, nextId, [], fun _ => none⟩

/-- What is stored or queued. -/
def Store.records (s : Store φ) : List (Record φ) := s.rows.map (·.record) ++ s.buffer

def step (reg : Registry) (src : Source φ π) (s : Store φ) : Action π → Option (Store φ)
  | .report uuid time receivedAt payload =>
    (reg.idOf uuid).map fun uuidId =>
      let data := src.data payload
      { s with
        buffer := s.buffer ++ [⟨⟨uuidId, time.toInt64, some receivedAt⟩, data⟩]
        cache := Function.update s.cache uuid (some (src.value uuid time.toInt64 data)) }
  | .flush count =>
    some { s with
      rows := insertRows s.nextId s.rows (s.buffer.take count)
      nextId := s.nextId + (s.buffer.take count).length
      buffer := s.buffer.drop count }
  | .delete conditions =>
    match deleteRows Record.toColumns reg.idOf conditions s.rows with
    | .error _ => some s
    | .ok rows => some { s with rows }

/-! ### The query -/

/-- One record of greatest timestamp. -/
def lastRow (rows : List (Row (Record φ))) (uuidId : Int16) : Option (Record φ) :=
  ((rows.map (·.record)).filter (·.uuidId = uuidId)).maxOn? (·.timestamp.toInt)

def resolveUuids (idOf : Uuid → Option Int16) : List Uuid → Except NodegetError (List (Uuid × Int16))
  | [] => .ok []
  | uuid :: rest =>
    match idOf uuid with
    | none => .error (.notFound ("Agent UUID not found in monitoring registry: " ++ Uuid.text uuid))
    | some uuidId => (resolveUuids idOf rest).map ((uuid, uuidId) :: ·)

/-- The rows found go to the agents that missed, in order. An agent without a row
passes its place on. -/
def fillMisses : List (Option JsonMap) → List JsonMap → List (Option JsonMap)
  | [], _ => []
  | some v :: rest, found => some v :: fillMisses rest found
  | none :: rest, [] => none :: rest
  | none :: rest, v :: found => some v :: fillMisses rest found

def multiLastQuery (reg : Registry) (src : Source φ π) (s : Store φ) (uuids : List Uuid) (fields : List φ) :
    Except NodegetError (List JsonMap) :=
  (resolveUuids reg.idOf uuids.eraseDups).map fun pairs =>
    let results := pairs.map fun p => (s.cache p.1).map (src.fromCache fields)
    let misses := pairs.filter fun p => (s.cache p.1).isNone
    let missValues := misses.filterMap fun p => (lastRow s.rows p.2).map (src.fromRow reg.uuidOf fields)
    (fillMisses results missValues).filterMap id

variable {rows : List (Row (Record φ))} {uuidId : Int16} {fields : List φ} {s : Store φ}

theorem lastRow_spec {r : Record φ} (h : lastRow rows uuidId = some r) :
    r ∈ rows.map (·.record) ∧ r.uuidId = uuidId ∧
      ∀ row ∈ rows, row.record.uuidId = uuidId → row.record.timestamp ≤ r.timestamp := by
  have hmem := List.mem_filter.mp (List.maxOn?_mem h)
  refine ⟨hmem.1, by simpa using hmem.2, fun row hrow hid => ?_⟩
  have hin : row.record ∈ (rows.map (·.record)).filter (·.uuidId = uuidId) := by
    simpa using ⟨⟨row, hrow, rfl⟩, hid⟩
  have hle := List.le_apply_get_maxOn?_of_mem (f := fun x : Record φ => x.timestamp.toInt) hin
  simp only [show ((rows.map (·.record)).filter (·.uuidId = uuidId)).maxOn? (·.timestamp.toInt) = some r from h,
    Option.get_some] at hle
  exact Int64.le_iff_toInt_le.mpr hle

section Cache
variable {reg : Registry} {src : Source φ π}

/-- Every agent that is asked for, answered from the table. -/
def rowAnswers (reg : Registry) (src : Source φ π) (fields : List φ) (s : Store φ)
    (pairs : List (Uuid × Int16)) : List JsonMap :=
  pairs.filterMap fun p => (lastRow s.rows p.2).map (src.fromRow reg.uuidOf fields)

theorem resolveUuids_mem {idOf : Uuid → Option Int16} {uuids : List Uuid} {pairs : List (Uuid × Int16)}
    (h : resolveUuids idOf uuids = .ok pairs) : ∀ p ∈ pairs, idOf p.1 = some p.2 := by
  induction uuids generalizing pairs with
  | nil =>
    cases h
    simp
  | cons uuid rest ih =>
    rw [resolveUuids] at h
    cases hid : idOf uuid with
    | none =>
      rw [hid] at h
      cases h
    | some uuidId =>
      cases hrest : resolveUuids idOf rest with
      | error e =>
        rw [hid, hrest] at h
        cases h
      | ok found =>
        rw [hid, hrest] at h
        cases h
        intro p hp
        rcases List.mem_cons.mp hp with rfl | hp
        · exact hid
        · exact ih hrest p hp

/-- The cached objects answer as the table does. -/
def Served (reg : Registry) (src : Source φ π) (fields : List φ) (s : Store φ) : Prop :=
  ∀ uuid uuidId v, reg.idOf uuid = some uuidId → s.cache uuid = some v →
    some (src.fromCache fields v) = (lastRow s.rows uuidId).map (src.fromRow reg.uuidOf fields)

end Cache

/-! ### Runs -/

section Runs
variable (reg : Registry) (src : Source φ π) (servable : π → Prop)

/-- The step keeps the newest record of each agent the last one reported: a report
is newer than what is stored or queued of its agent and holds what is asked for,
and a record of a cached agent is deleted only if a newer one of it stays. -/
def Orderly (s : Store φ) : Action π → Prop
  | .report uuid time _ payload =>
    servable payload ∧ ∀ x ∈ s.records, reg.idOf uuid = some x.uuidId → x.timestamp < time.toInt64
  | .flush _ => True
  | .delete conditions =>
    ∀ rows, deleteRows Record.toColumns reg.idOf conditions s.rows = .ok rows → ∀ row ∈ s.rows, row ∉ rows →
      ∀ uuid, reg.idOf uuid = some row.record.uuidId → s.cache uuid ≠ none →
        ∃ x ∈ rows.map (·.record) ++ s.buffer,
          x.uuidId = row.record.uuidId ∧ row.record.timestamp < x.timestamp

/-- The object cached for `uuid` is that of `c`, the newest record of the agent. -/
structure Mirrors (s : Store φ) (uuid : Uuid) (v : JsonMap) (c : Record φ) : Prop where
  kept : c ∈ s.records
  agent : reg.idOf uuid = some c.uuidId
  reported : ∃ payload, servable payload ∧ c.data = src.data payload
  value : v = src.value uuid c.timestamp c.data
  newest : ∀ x ∈ s.records, x.uuidId = c.uuidId → x = c ∨ x.timestamp < c.timestamp

def Mirrored (s : Store φ) : Prop :=
  ∀ uuid v, s.cache uuid = some v → ∃ c, Mirrors reg src servable s uuid v c

variable {reg src servable}

theorem Mirrors.of_subset {t : Store φ} {uuid : Uuid} {v : JsonMap} {c : Record φ}
    (h : Mirrors reg src servable s uuid v c) (hkept : c ∈ t.records)
    (hsub : ∀ x ∈ t.records, x.uuidId = c.uuidId → x ∈ s.records) : Mirrors reg src servable t uuid v c :=
  { h with kept := hkept, newest := fun x hx hid => h.newest x (hsub x hx hid) hid }

theorem records_flush (s : Store φ) (count : Nat) :
    (insertRows s.nextId s.rows (s.buffer.take count)).map (·.record) ++ s.buffer.drop count = s.records := by
  rw [records_insertRows, List.append_assoc, List.take_append_drop]
  rfl

theorem report_mirrored (hs : Mirrored reg src servable s) {uuid : Uuid} {time : UInt64}
    {receivedAt : Int64} {payload : π} (hid : reg.idOf uuid = some uuidId)
    (hG : Orderly reg servable s (.report uuid time receivedAt payload)) :
    Mirrored reg src servable
      { s with
        buffer := s.buffer ++ [⟨⟨uuidId, time.toInt64, some receivedAt⟩, src.data payload⟩]
        cache := Function.update s.cache uuid (some (src.value uuid time.toInt64 (src.data payload))) } := by
  set r : Record φ := ⟨⟨uuidId, time.toInt64, some receivedAt⟩, src.data payload⟩ with hr
  set t : Store φ := { s with buffer := s.buffer ++ [r], cache := _ } with ht
  have hrecords : t.records = s.records ++ [r] := by simp [ht, Store.records]
  intro agent v hv
  by_cases hagent : agent = uuid
  · subst hagent
    have hv : v = src.value agent time.toInt64 (src.data payload) := by
      simpa [ht] using hv.symm
    refine ⟨r, by simp [hrecords], hid, ⟨payload, hG.1, rfl⟩, hv, fun x hx hxid => ?_⟩
    rw [hrecords, List.mem_append, List.mem_singleton] at hx
    rcases hx with hx | rfl
    · exact .inr (hG.2 x hx (hxid ▸ hid))
    · exact .inl rfl
  · have hv : s.cache agent = some v := by simpa [ht, Function.update_of_ne hagent] using hv
    obtain ⟨c, hc⟩ := hs agent v hv
    refine ⟨c, hc.of_subset (by simp [hrecords, hc.kept]) fun x hx hxid => ?_⟩
    rw [hrecords, List.mem_append, List.mem_singleton] at hx
    rcases hx with hx | rfl
    · exact hx
    · -- the new record is of another agent
      have hsame : reg.idOf agent = some uuidId := by rw [hc.agent, ← hxid]
      exact absurd (reg.idOf_injective hsame hid) hagent

theorem delete_mirrored (hs : Mirrored reg src servable s) {conditions : List QueryCondition}
    (hrows : deleteRows Record.toColumns reg.idOf conditions s.rows = .ok rows)
    (hG : Orderly reg servable s (.delete conditions : Action π)) :
    Mirrored reg src servable { s with rows } := by
  have hsub : ∀ x ∈ ({ s with rows } : Store φ).records, x ∈ s.records := by
    intro x hx
    rcases List.mem_append.mp hx with hx | hx
    · exact List.mem_append_left _ (List.map_subset _ (deleteRows_subset hrows) hx)
    · exact List.mem_append_right _ hx
  intro uuid v hv
  obtain ⟨c, hc⟩ := hs uuid v hv
  refine ⟨c, hc.of_subset ?_ fun x hx _ => hsub x hx⟩
  rcases List.mem_append.mp hc.kept with hstored | hqueued
  · obtain ⟨row, hrow, rfl⟩ := List.mem_map.mp hstored
    by_cases hstays : row ∈ rows
    · exact List.mem_append_left _ (List.mem_map_of_mem hstays)
    · obtain ⟨x, hx, hxid, hlt⟩ := hG rows hrows row hrow hstays uuid hc.agent
        (Option.ne_none_iff_exists'.mpr ⟨v, hv⟩)
      rcases hc.newest x (hsub x hx) hxid with rfl | hle
      · exact hx
      · exact (Int64.lt_irrefl (Int64.lt_trans hlt hle)).elim
  · exact List.mem_append_right _ hqueued

theorem step_mirrored (s : Store φ) (a : Action π) (t : Store φ) (hs : Mirrored reg src servable s)
    (hG : Orderly reg servable s a) (h : step reg src s a = some t) : Mirrored reg src servable t := by
  cases a with
  | report uuid time receivedAt payload =>
    obtain ⟨uuidId, hid, rfl⟩ := Option.map_eq_some_iff.mp h
    exact report_mirrored hs hid hG
  | flush count =>
    cases h
    intro uuid v hv
    obtain ⟨c, hc⟩ := hs uuid v hv
    refine ⟨c, hc.of_subset ?_ fun x hx _ => ?_⟩
    · rw [Store.records, records_flush]
      exact hc.kept
    · rwa [Store.records, records_flush] at hx
  | delete conditions =>
    rw [step] at h
    cases hrows : deleteRows Record.toColumns reg.idOf conditions s.rows with
    | error e =>
      rw [hrows] at h
      cases h
      exact hs
    | ok rows =>
      rw [hrows] at h
      cases h
      exact delete_mirrored hs hrows hG

end Runs

/-! ### What the cache owes -/

/-- Of a record that was reported with what is asked for, the cached object and the
row give the same answer. -/
structure Source.Faithful (src : Source φ π) (servable : List φ → π → Prop) : Prop where
  answer : ∀ {uuidOf : Int16 → Option Uuid} {r : Record φ} {uuid : Uuid} {payload : π} {fields : List φ},
    uuidOf r.uuidId = some uuid → servable fields payload → r.data = src.data payload →
      src.fromCache fields (src.value uuid r.timestamp r.data) = src.fromRow uuidOf fields r

variable {reg : Registry} {src : Source φ π} {servable : List φ → π → Prop}

end NodeGet.Monitoring
