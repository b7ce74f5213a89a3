import NodeGet.Core.Backend
import NodeGet.Data.Chunks
import NodeGet.Data.Table
import NodeGet.Traffic.Stats

/-! Flushing the traffic state and starting again from what was stored.

A flush writes every interface's reading and total into `traffic_current_total`,
signed columns for unsigned values, and an existing row keeps its `created_at`.
At a restart the state is read back from the rows. `restart_transparent` says that
no report can tell: the readings and totals are at all times those of a server
that was never restarted. -/
namespace NodeGet.TrafficStats
open NodeGet.Core NodeGet.Data

/-! ### The stored rows -/

/-- A row of `traffic_current_total`; its unique index is on the device and the interface. -/
structure CurrentTotal where
  uuidId : Int16
  interfaceName : String
  bootId : Option String
  ifindex : Option Int32
  counterReceived : Int64
  counterTransmitted : Int64
  reportTime : Int64
  totalReceived : Int64
  totalTransmitted : Int64
  createdAt : Int64
  updatedAt : Int64
deriving DecidableEq

def CurrentTotal.key (row : CurrentTotal) : Key := (row.uuidId, row.interfaceName)

def currentTotalModel (key : Key) (reading : NetworkInterfaceReading) (total : Traffic) : CurrentTotal where
  uuidId := key.1
  interfaceName := key.2
  bootId := reading.bootId
  ifindex := reading.ifindex.map UInt32.toInt32
  counterReceived := reading.counterReceived.toInt64
  counterTransmitted := reading.counterTransmitted.toInt64
  reportTime := reading.reportTime
  totalReceived := total.received.toInt64
  totalTransmitted := total.transmitted.toInt64
  createdAt := reading.createdAt
  updatedAt := reading.updatedAt

/-- The columns `ON CONFLICT` sets: all but the key and `created_at`. -/
def CurrentTotal.updateOnConflict (old new : CurrentTotal) : CurrentTotal :=
  {new with uuidId := old.uuidId, interfaceName := old.interfaceName, createdAt := old.createdAt}

def CurrentTotal.reading (row : CurrentTotal) : NetworkInterfaceReading where
  bootId := row.bootId
  ifindex := row.ifindex.map Int32.toUInt32
  counterReceived := row.counterReceived.toUInt64
  counterTransmitted := row.counterTransmitted.toUInt64
  reportTime := row.reportTime
  createdAt := row.createdAt
  updatedAt := row.updatedAt

def CurrentTotal.total (row : CurrentTotal) : Traffic :=
  ⟨row.totalReceived.toUInt64, row.totalTransmitted.toUInt64⟩

/-! ### The server -/

structure Server where
  state : State
  currentTotals : List CurrentTotal
  possibleDataLosses : List PossibleDataLoss

/-- `TrafficStats::init`: the state read back from the rows. -/
def State.init (rows : List CurrentTotal) : State where
  totals := rows.foldl (fun m row => m.insert row.key row.total) ∅
  prevReadings := rows.foldl (fun m row => m.insert row.key row.reading) ∅
  pendingPossibleDataLosses := []

def Server.start (rows : List CurrentTotal) (losses : List PossibleDataLoss) : Server :=
  ⟨State.init rows, rows, losses⟩

/-- The rows a flush writes. -/
def State.currentTotalModels (s : State) : List CurrentTotal :=
  s.prevReadings.entries.map fun e => currentTotalModel e.1 e.2 ((s.totals.lookup e.1).getD {})

def currentTotalColumns : Nat := 12

def possibleDataLossColumns : Nat := 4

/-- One transaction: the totals in batches of upserts, then the losses. -/
def writeToDb (backend : Backend) (server : Server) (currentTotals : List CurrentTotal)
    (losses : List PossibleDataLoss) : Server :=
  {server with
    currentTotals := (chunks (maxRowsPerStatement backend currentTotalColumns) currentTotals).foldl
      (fun rows chunk => chunk.foldl (Table.upsert CurrentTotal.key CurrentTotal.updateOnConflict) rows)
      server.currentTotals
    possibleDataLosses := (chunks (maxRowsPerStatement backend possibleDataLossColumns) losses).foldl
      (fun stored chunk => stored ++ chunk) server.possibleDataLosses}

/-- `committed` says whether the transaction succeeds; when it fails, the losses
taken out of the state go back to where they were. -/
def Server.flush (backend : Backend) (committed : Bool) (server : Server) : Server :=
  let losses := server.state.pendingPossibleDataLosses
  let currentTotals := server.state.currentTotalModels
  if losses.isEmpty && currentTotals.isEmpty then server
  else if committed then
    writeToDb backend {server with state := {server.state with pendingPossibleDataLosses := []}}
      currentTotals losses
  else server

inductive Event where
  | report (r : Report)
  | flush (committed : Bool)
  | restart

def Server.step (backend : Backend) (server : Server) : Event → Server
  | .report r => {server with state := server.state.applyReport r.uuidId r.data r.receivedAt}
  | .flush committed => server.flush backend committed
  | .restart =>
    let flushed := server.flush backend true
    {flushed with state := State.init flushed.currentTotals}

def Server.run (backend : Backend) (server : Server) (events : List Event) : Server :=
  events.foldl (Server.step backend) server

/-- The reports of a history, in order. -/
def reportsOf (events : List Event) : List Report :=
  events.filterMap fun
    | .report r => some r
    | _ => none

/-! ### Rows and entries -/

theorem reading_currentTotalModel (key : Key) (reading : NetworkInterfaceReading) (total : Traffic) :
    (currentTotalModel key reading total).reading = reading := by
  cases reading with
  | mk bootId ifindex => cases ifindex <;> simp [currentTotalModel, CurrentTotal.reading]

theorem total_currentTotalModel (key : Key) (reading : NetworkInterfaceReading) (total : Traffic) :
    (currentTotalModel key reading total).total = total := by
  simp [currentTotalModel, CurrentTotal.total]

theorem reading_updateOnConflict (old new : CurrentTotal) (h : new.createdAt = old.createdAt) :
    (old.updateOnConflict new).reading = new.reading ∧ (old.updateOnConflict new).total = new.total := by
  simp [CurrentTotal.updateOnConflict, CurrentTotal.reading, CurrentTotal.total, h]

theorem key_updateOnConflict (old new : CurrentTotal) : (old.updateOnConflict new).key = old.key := rfl

variable {rows : List CurrentTotal} {server : Server} {plain : State} {key : Key}

theorem entry_init (hrows : (rows.map CurrentTotal.key).Nodup) (key : Key) :
    (State.init rows).entry key =
      ((Table.lookup CurrentTotal.key rows key).map CurrentTotal.reading,
        (Table.lookup CurrentTotal.key rows key).map CurrentTotal.total) := by
  simp only [State.entry, State.init, Table.lookup_foldl_insert CurrentTotal.reading rows hrows,
    Table.lookup_foldl_insert CurrentTotal.total rows hrows]
  cases Table.lookup CurrentTotal.key rows key <;> rfl

/-! ### What a flush leaves in the table -/

variable (backend : Backend)

theorem flush_currentTotals (server : Server) :
    (server.flush backend true).currentTotals =
      server.state.currentTotalModels.foldl (Table.upsert CurrentTotal.key CurrentTotal.updateOnConflict)
        server.currentTotals := by
  unfold Server.flush
  simp only
  split
  · rename_i hempty
    rw [List.isEmpty_iff.mp (Bool.and_eq_true_iff.mp hempty).2, List.foldl_nil]
  · rw [if_pos trivial, writeToDb, ← List.foldl_flatten, flatten_chunks (maxRowsPerStatement_pos ..)]

theorem entry_flush (committed : Bool) (server : Server) (key : Key) :
    (server.flush backend committed).state.entry key = server.state.entry key := by
  unfold Server.flush
  simp only
  split_ifs <;> rfl

theorem flush_currentTotals_of_failed (server : Server) :
    (server.flush backend false).currentTotals = server.currentTotals := by
  unfold Server.flush
  simp

theorem lookup_currentTotalModels (s : State) (key : Key) :
    Table.lookup CurrentTotal.key s.currentTotalModels key =
      (s.prevReadings.lookup key).map fun reading =>
        currentTotalModel key reading ((s.totals.lookup key).getD {}) :=
  Table.lookup_map_entries
    (f := fun key reading => currentTotalModel key reading ((s.totals.lookup key).getD {}))
    (fun _ _ => rfl) s.prevReadings key

theorem nodup_currentTotalModels (s : State) : (s.currentTotalModels.map CurrentTotal.key).Nodup :=
  Table.nodup_keys_map_entries
    (f := fun key reading => currentTotalModel key reading ((s.totals.lookup key).getD {}))
    (fun _ _ => rfl) s.prevReadings

/-- After a flush the row of an interface is the one made from its entry, merged
into the row that was there. -/
theorem lookup_flush (server : Server) (key : Key) :
    Table.lookup CurrentTotal.key (server.flush backend true).currentTotals key =
      match server.state.prevReadings.lookup key with
      | none => Table.lookup CurrentTotal.key server.currentTotals key
      | some reading =>
        let new := currentTotalModel key reading ((server.state.totals.lookup key).getD {})
        some ((Table.lookup CurrentTotal.key server.currentTotals key).elim new
          fun old => old.updateOnConflict new) := by
  rw [flush_currentTotals, Table.lookup_foldl_upsert key_updateOnConflict _ _
    (nodup_currentTotalModels server.state), lookup_currentTotalModels]
  cases server.state.prevReadings.lookup key <;> rfl

/-! ### The simulation -/

/-- The server stands where one without restarts would, and its rows could be read
back: each has a reading in memory, created when the row says. -/
structure Simulates (server : Server) (plain : State) : Prop where
  entry : ∀ key, server.state.entry key = plain.entry key
  paired : ∀ key, (server.state.entry key).1.isSome = (server.state.entry key).2.isSome
  created : ∀ key row, Table.lookup CurrentTotal.key server.currentTotals key = some row →
    ∃ reading, server.state.prevReadings.lookup key = some reading ∧ reading.createdAt = row.createdAt
  keys : (server.currentTotals.map CurrentTotal.key).Nodup

theorem simulates_start (hrows : (rows.map CurrentTotal.key).Nodup) (losses : List PossibleDataLoss) :
    Simulates (.start rows losses) (State.init rows) where
  entry _ := rfl
  paired key := by simp [Server.start, entry_init hrows]
  created key row hrow := by
    have hentry := congrArg Prod.fst (entry_init hrows key)
    rw [show Table.lookup CurrentTotal.key rows key = some row from hrow] at hentry
    exact ⟨row.reading, hentry, rfl⟩
  keys := hrows

section Simulation
variable (backend : Backend) (h : Simulates server plain)
include h

theorem simulates_report (r : Report) :
    Simulates (server.step backend (.report r)) (plain.applyReport r.uuidId r.data r.receivedAt) where
  entry := entry_applyReport_congr r.uuidId r.data r.receivedAt h.entry
  paired key := (evolves_applyReport server.state r.uuidId r.data r.receivedAt key).paired (h.paired key)
  created key row hrow := by
    obtain ⟨reading, hreading, hcreated⟩ := h.created key row hrow
    obtain ⟨reading', hreading', hcreated'⟩ :=
      (evolves_applyReport server.state r.uuidId r.data r.receivedAt key).reading reading hreading
    exact ⟨reading', hreading', hcreated'.trans hcreated⟩
  keys := h.keys

/-- A row written by a flush reads back as the entry it was made from. -/
theorem flush_row {reading : NetworkInterfaceReading}
    (hreading : server.state.prevReadings.lookup key = some reading) :
    ∃ row, Table.lookup CurrentTotal.key (server.flush backend true).currentTotals key = some row ∧
      row.reading = reading ∧ row.total = (server.state.totals.lookup key).getD {} := by
  rw [lookup_flush, hreading]
  refine ⟨_, rfl, ?_⟩
  cases hold : Table.lookup CurrentTotal.key server.currentTotals key with
  | none => exact ⟨reading_currentTotalModel .., total_currentTotalModel ..⟩
  | some old =>
    obtain ⟨reading', hreading', hcreated⟩ := h.created key old hold
    rw [hreading, Option.some.injEq] at hreading'
    subst hreading'
    obtain ⟨hread, htotal⟩ := reading_updateOnConflict old
      (currentTotalModel key reading ((server.state.totals.lookup key).getD {})) hcreated
    exact ⟨hread.trans (reading_currentTotalModel ..), htotal.trans (total_currentTotalModel ..)⟩

/-- Without a reading in memory there is no row, before or after. -/
theorem flush_no_row (hnone : server.state.prevReadings.lookup key = none) :
    Table.lookup CurrentTotal.key (server.flush backend true).currentTotals key = none := by
  rw [lookup_flush, hnone]
  cases hold : Table.lookup CurrentTotal.key server.currentTotals key with
  | none => rfl
  | some old =>
    obtain ⟨reading, hreading, -⟩ := h.created key old hold
    rw [hnone] at hreading
    cases hreading

theorem simulates_flush (committed : Bool) : Simulates (server.flush backend committed) plain where
  entry key := by rw [entry_flush, h.entry]
  paired key := by rw [entry_flush, h.paired]
  created key row hrow := by
    have hprev : (server.flush backend committed).state.prevReadings.lookup key =
        server.state.prevReadings.lookup key := congrArg Prod.fst (entry_flush backend committed server key)
    rw [hprev]
    cases committed with
    | false => exact h.created key row (by rwa [flush_currentTotals_of_failed] at hrow)
    | true =>
      cases hreading : server.state.prevReadings.lookup key with
      | none =>
        rw [flush_no_row backend h hreading] at hrow
        cases hrow
      | some reading =>
        obtain ⟨row', hrow', hread, -⟩ := flush_row backend h hreading
        rw [hrow, Option.some.injEq] at hrow'
        subst hrow'
        exact ⟨reading, rfl, by rw [← hread]; rfl⟩
  keys := by
    cases committed with
    | false =>
      rw [flush_currentTotals_of_failed]
      exact h.keys
    | true =>
      rw [flush_currentTotals]
      exact Table.nodup_keys_foldl_upsert key_updateOnConflict h.keys _

/-- What is read back after a flush is what was in memory. -/
theorem entry_restart (key : Key) :
    (State.init (server.flush backend true).currentTotals).entry key = server.state.entry key := by
  rw [entry_init (simulates_flush backend h true).keys]
  have hpaired := h.paired key
  simp only [State.entry] at hpaired ⊢
  cases hreading : server.state.prevReadings.lookup key with
  | none =>
    rw [hreading] at hpaired
    have htotal : server.state.totals.lookup key = none := by simpa using hpaired.symm
    rw [flush_no_row backend h hreading, htotal]
    rfl
  | some reading =>
    rw [hreading] at hpaired
    obtain ⟨total, htotal⟩ := Option.isSome_iff_exists.mp (hpaired.symm.trans Option.isSome_some)
    obtain ⟨row, hrow, hread, hsum⟩ := flush_row backend h hreading
    rw [hrow, htotal] at *
    simp [hread, hsum]

theorem simulates_restart : Simulates (server.step backend .restart) plain := by
  have hflush := simulates_flush backend h true
  have hstart := simulates_start hflush.keys []
  refine ⟨fun key => (entry_restart backend h key).trans (h.entry key), hstart.paired, hstart.created,
    hflush.keys⟩

theorem simulates_run (events : List Event) :
    Simulates (server.run backend events) (plain.applyReports (reportsOf events)) := by
  induction events generalizing server plain with
  | nil => exact h
  | cons e rest ih =>
    cases e with
    | report r => exact ih (simulates_report backend h r)
    | flush committed => exact ih (simulates_flush backend h committed)
    | restart => exact ih (simulates_restart backend h)

end Simulation

/-- **Restarts are transparent**: from any stored rows, and with any reports,
flushes and restarts in any order, every interface has the reading and the totals
of the server that only saw the reports. -/
theorem restart_transparent (backend : Backend) (rows : List CurrentTotal)
    (hrows : (rows.map CurrentTotal.key).Nodup) (losses : List PossibleDataLoss) (events : List Event)
    (key : Key) :
    let restarted := ((Server.start rows losses).run backend events).state
    let plain := (State.init rows).applyReports (reportsOf events)
    restarted.totals.lookup key = plain.totals.lookup key ∧
      restarted.prevReadings.lookup key = plain.prevReadings.lookup key := by
  have hentry := (simulates_run backend (simulates_start hrows losses) events).entry key
  exact ⟨congrArg Prod.snd hentry, congrArg Prod.fst hentry⟩

/-- A report of one outlet whose counter stands above `i64::MAX`. -/
def wanReport (time received : UInt64) : Report where
  uuidId := 7
  data := ⟨time, 60, none, [⟨"wan", some true, none, received + 0x8000000000000000, 0⟩]⟩
  receivedAt := 1000

/-- A restart between two reports, from an empty table. -/
theorem restart_transparent_wan :
    let restarted := ((Server.start [] []).run .sqlite
      [.report (wanReport 1 10), .restart, .report (wanReport 2 30)]).state
    restarted.totals.lookup (7, "wan") = some ⟨20, 0⟩ := by
  have h := restart_transparent .sqlite [] List.nodup_nil []
    [.report (wanReport 1 10), .restart, .report (wanReport 2 30)] (7, "wan")
  exact h.1.trans (by decide)

end NodeGet.TrafficStats
