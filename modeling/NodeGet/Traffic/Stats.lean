import Mathlib.Data.List.AList
import NodeGet.Core.Unsigned

/-! Traffic accounting (`ng-monitoring/src/traffic_stats.rs`): how a dynamic report
changes the in-memory state.

For every device and interface the state keeps the last accepted reading and the
traffic counted so far. A report older than the last accepted one is dropped. The
counters of an interface restart at zero when the machine reboots or the interface
is recreated, and one direction may wrap on its own; what then counts is the whole
new value. The first reading of an interface counts nothing. -/
namespace NodeGet.TrafficStats
open NodeGet.Core

/-! ### What a report carries -/

structure NetworkInterface where
  interfaceName : String
  isOutlet : Option Bool
  ifindex : Option UInt32
  totalReceived : UInt64
  totalTransmitted : UInt64
deriving DecidableEq, Repr

/-- The part of a dynamic report that the accounting reads. -/
structure DynamicMonitoringData where
  time : UInt64
  uptime : UInt64
  bootId : Option String
  interfaces : List NetworkInterface
deriving DecidableEq, Repr

/-! ### The state -/

structure NetworkInterfaceReading where
  bootId : Option String
  ifindex : Option UInt32
  counterReceived : UInt64
  counterTransmitted : UInt64
  reportTime : Int64
  createdAt : Int64
  updatedAt : Int64
deriving DecidableEq

structure Traffic where
  received : UInt64 := 0
  transmitted : UInt64 := 0
deriving DecidableEq

structure PossibleDataLoss where
  uuidId : Int16
  startTime : Int64
  endTime : Int64
deriving DecidableEq

/-- A device and one of its interfaces. -/
abbrev Key := Int16 × String

structure State where
  prevReadings : AList fun _ : Key => NetworkInterfaceReading
  totals : AList fun _ : Key => Traffic
  pendingPossibleDataLosses : List PossibleDataLoss

def State.empty : State := ⟨∅, ∅, []⟩

/-! ### Resets -/

structure CounterReset where
  received : Bool
  transmitted : Bool
deriving DecidableEq

def CounterReset.none : CounterReset := ⟨false, false⟩

def CounterReset.both : CounterReset := ⟨true, true⟩

def CounterReset.any (reset : CounterReset) : Bool := reset.received || reset.transmitted

/-- Both values are known and they differ. -/
def changed {α : Type*} [DecidableEq α] : Option α → Option α → Bool
  | some prev, some current => prev != current
  | _, _ => false

def isIfindexChanged (prev current : NetworkInterfaceReading) : Bool := changed prev.ifindex current.ifindex

def isBootIdChanged (prev current : NetworkInterfaceReading) : Bool := changed prev.bootId current.bootId

def isFullReset (prev current : NetworkInterfaceReading) : Bool :=
  isBootIdChanged prev current || isIfindexChanged prev current

def detectCounterReset (prev current : NetworkInterfaceReading) : CounterReset :=
  if isFullReset prev current then .both
  else
    ⟨current.counterReceived < prev.counterReceived, current.counterTransmitted < prev.counterTransmitted⟩

def increaseForDirection (prev current : UInt64) (reset : Bool) : UInt64 :=
  if reset then current else saturatingSub current prev

def computeTrafficIncrease (prev : Option NetworkInterfaceReading) (current : NetworkInterfaceReading)
    (reset : CounterReset) : Traffic :=
  match prev with
  | none => ⟨0, 0⟩
  | some prev =>
    ⟨increaseForDirection prev.counterReceived current.counterReceived reset.received,
      increaseForDirection prev.counterTransmitted current.counterTransmitted reset.transmitted⟩

def possibleDataLossThresholdMs : Int64 := 10 * 60 * 1000

def detectPossibleDataLoss (uuidId : Int16) (prev : NetworkInterfaceReading) (resetAt : Int64) :
    Option PossibleDataLoss :=
  if resetAt - prev.updatedAt ≤ possibleDataLossThresholdMs then none
  else some ⟨uuidId, prev.updatedAt, resetAt⟩

/-! ### Applying a report -/

def currentReading (data : DynamicMonitoringData) (receivedAt : Int64) (interface : NetworkInterface)
    (prev : Option NetworkInterfaceReading) : NetworkInterfaceReading where
  bootId := data.bootId
  ifindex := interface.ifindex
  counterReceived := interface.totalReceived
  counterTransmitted := interface.totalTransmitted
  reportTime := data.time.toInt64
  createdAt := prev.elim receivedAt (·.createdAt)
  updatedAt := receivedAt

/-- One turn of the loop over the outlets; the flag says that this report has
already recorded a possible loss. -/
def applyInterface (uuidId : Int16) (data : DynamicMonitoringData) (receivedAt : Int64)
    (acc : State × Bool) (interface : NetworkInterface) : State × Bool :=
  let s := acc.1
  let key : Key := (uuidId, interface.interfaceName)
  let prev := s.prevReadings.lookup key
  if prev.any fun p => data.time.toInt64 < p.reportTime then acc
  else
    let current := currentReading data receivedAt interface prev
    let total := (s.totals.lookup key).getD {}
    let reset := prev.elim CounterReset.none fun p => detectCounterReset p current
    let increase := computeTrafficIncrease prev current reset
    -- the boot time is reckoned from the server's clock
    let bootAt := receivedAt - (saturatingMul data.uptime 1000).toInt64
    let loss :=
      if reset.any && !acc.2 then
        prev.bind fun p =>
          detectPossibleDataLoss uuidId p (if isBootIdChanged p current then bootAt else receivedAt)
      else none
    ({ prevReadings := s.prevReadings.insert key current
       totals := s.totals.insert key
        ⟨saturatingAdd total.received increase.received, saturatingAdd total.transmitted increase.transmitted⟩
       pendingPossibleDataLosses := s.pendingPossibleDataLosses ++ loss.toList },
      acc.2 || loss.isSome)

def State.applyReport (s : State) (uuidId : Int16) (data : DynamicMonitoringData) (receivedAt : Int64) :
    State :=
  if data.interfaces.any fun interface => interface.isOutlet.isNone then s
  else
    ((data.interfaces.filter fun interface => interface.isOutlet == some true).foldl
      (applyInterface uuidId data receivedAt) (s, false)).1

/-- A dynamic report as it reaches the accounting: whose it is, what it says and
when the server received it. -/
structure Report where
  uuidId : Int16
  data : DynamicMonitoringData
  receivedAt : Int64
deriving DecidableEq

def State.applyReports (s : State) (reports : List Report) : State :=
  reports.foldl (fun s r => s.applyReport r.uuidId r.data r.receivedAt) s

/-! ### One interface's entry -/

/-- What the state holds about an interface. -/
def State.entry (s : State) (key : Key) : Option NetworkInterfaceReading × Option Traffic :=
  (s.prevReadings.lookup key, s.totals.lookup key)

/-- The loop's turn for an interface, as far as its own entry is concerned. -/
def entryStep (data : DynamicMonitoringData) (receivedAt : Int64) (interface : NetworkInterface)
    (entry : Option NetworkInterfaceReading × Option Traffic) :
    Option NetworkInterfaceReading × Option Traffic :=
  if entry.1.any fun p => data.time.toInt64 < p.reportTime then entry
  else
    let current := currentReading data receivedAt interface entry.1
    let total := entry.2.getD {}
    let increase := computeTrafficIncrease entry.1 current
      (entry.1.elim CounterReset.none fun p => detectCounterReset p current)
    (some current, some
      ⟨saturatingAdd total.received increase.received, saturatingAdd total.transmitted increase.transmitted⟩)

variable (s : State) (u : Int16) (data : DynamicMonitoringData) (receivedAt : Int64)

theorem entry_applyInterface_self (acc : State × Bool) (i : NetworkInterface) :
    (applyInterface u data receivedAt acc i).1.entry (u, i.interfaceName) =
      entryStep data receivedAt i (acc.1.entry (u, i.interfaceName)) := by
  unfold applyInterface entryStep State.entry
  simp only
  split
  · rfl
  · simp only [AList.lookup_insert]

theorem entry_applyInterface_of_ne (acc : State × Bool) (i : NetworkInterface) {key : Key}
    (hne : key ≠ (u, i.interfaceName)) : (applyInterface u data receivedAt acc i).1.entry key = acc.1.entry key := by
  unfold applyInterface State.entry
  simp only
  split
  · rfl
  · simp only [AList.lookup_insert_ne hne]

/-- The interfaces the loop goes through; none when an `is_outlet` is missing. -/
def outlets (data : DynamicMonitoringData) : List NetworkInterface :=
  if data.interfaces.any fun i => i.isOutlet.isNone then []
  else data.interfaces.filter fun i => i.isOutlet == some true

theorem outlets_sublist : (outlets data).Sublist data.interfaces := by
  unfold outlets
  split
  · exact List.nil_sublist _
  · exact List.filter_sublist

theorem applyReport_eq :
    s.applyReport u data receivedAt = ((outlets data).foldl (applyInterface u data receivedAt) (s, false)).1 := by
  unfold State.applyReport outlets
  split
  · rfl
  · rfl

/-- The turns of a report's loop that name an interface. -/
def turns (u : Int16) (data : DynamicMonitoringData) (key : Key) : List NetworkInterface :=
  (outlets data).filter fun i => key = (u, i.interfaceName)

theorem entry_foldl (key : Key) (interfaces : List NetworkInterface) (acc : State × Bool) :
    (interfaces.foldl (applyInterface u data receivedAt) acc).1.entry key =
      (interfaces.filter fun i => key = (u, i.interfaceName)).foldl
        (fun e i => entryStep data receivedAt i e) (acc.1.entry key) := by
  induction interfaces generalizing acc with
  | nil => rfl
  | cons i rest ih =>
    rw [List.foldl_cons, ih]
    by_cases hkey : key = (u, i.interfaceName)
    · subst hkey
      rw [entry_applyInterface_self, List.filter_cons_of_pos (by simp), List.foldl_cons]
    · rw [entry_applyInterface_of_ne u data receivedAt acc i hkey,
        List.filter_cons_of_neg (by simpa using hkey)]

/-- A report changes an interface's entry in the turns that name it. -/
theorem entry_applyReport_turns (key : Key) :
    (s.applyReport u data receivedAt).entry key =
      (turns u data key).foldl (fun e i => entryStep data receivedAt i e) (s.entry key) := by
  rw [applyReport_eq]
  exact entry_foldl u data receivedAt key (outlets data) (s, false)

/-- With distinct names at most one turn names an interface. -/
theorem turns_of_distinct {data : DynamicMonitoringData} (hnames : (data.interfaces.map (·.interfaceName)).Nodup)
    (key : Key) : turns u data key = [] ∨ ∃ i, turns u data key = [i] := by
  have hturns : ((turns u data key).map (·.interfaceName)).Nodup :=
    hnames.sublist ((List.filter_sublist.trans (outlets_sublist data)).map _)
  have hname : ∀ i ∈ turns u data key, i.interfaceName = key.2 := by
    intro i hi
    have hkey : key = (u, i.interfaceName) := by simpa using (List.mem_filter.mp hi).2
    rw [hkey]
  rcases hlist : turns u data key with _ | ⟨i, _ | ⟨j, rest⟩⟩
  · exact .inl rfl
  · exact .inr ⟨i, rfl⟩
  · rw [hlist] at hturns hname
    have hne : i.interfaceName ≠ j.interfaceName := by
      intro heq
      simp [heq] at hturns
    exact absurd ((hname i (by simp)).trans (hname j (by simp)).symm) hne

/-- What a report does to the entries depends on the entries only. -/
theorem entry_applyReport_congr {s s' : State} (h : ∀ key, s.entry key = s'.entry key) (key : Key) :
    (s.applyReport u data receivedAt).entry key = (s'.applyReport u data receivedAt).entry key := by
  rw [entry_applyReport_turns, entry_applyReport_turns, h]

/-- How reports may change an entry: a reading is never lost and keeps its
`createdAt`, and a reading comes with a total. -/
structure Evolves (e e' : Option NetworkInterfaceReading × Option Traffic) : Prop where
  reading : ∀ p, e.1 = some p → ∃ p', e'.1 = some p' ∧ p'.createdAt = p.createdAt
  paired : e.1.isSome = e.2.isSome → e'.1.isSome = e'.2.isSome

theorem Evolves.refl (e : Option NetworkInterfaceReading × Option Traffic) : Evolves e e :=
  ⟨fun p hp => ⟨p, hp, rfl⟩, id⟩

theorem Evolves.trans {e e' e'' : Option NetworkInterfaceReading × Option Traffic} (h : Evolves e e')
    (h' : Evolves e' e'') : Evolves e e'' where
  reading p hp := by
    obtain ⟨p', hp', hcreated⟩ := h.reading p hp
    obtain ⟨p'', hp'', hcreated'⟩ := h'.reading p' hp'
    exact ⟨p'', hp'', hcreated'.trans hcreated⟩
  paired hpair := h'.paired (h.paired hpair)

theorem evolves_entryStep (i : NetworkInterface) (e : Option NetworkInterfaceReading × Option Traffic) :
    Evolves e (entryStep data receivedAt i e) := by
  unfold entryStep
  split
  · exact .refl e
  · exact ⟨fun p hp => ⟨_, rfl, by simp [currentReading, hp]⟩, fun _ => rfl⟩

theorem evolves_applyReport (key : Key) : Evolves (s.entry key) ((s.applyReport u data receivedAt).entry key) := by
  rw [entry_applyReport_turns]
  generalize s.entry key = e
  generalize turns u data key = interfaces
  induction interfaces generalizing e with
  | nil => exact .refl e
  | cons i rest ih => exact (evolves_entryStep data receivedAt i e).trans (ih _)

end NodeGet.TrafficStats
