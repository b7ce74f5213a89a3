import NodeGet.Data.Meter
import NodeGet.Traffic.Stats

/-! What the stored totals add up to.

Seen from one interface, the reports are a list of samples: what each report of
its device says about it. The samples that are not older than the last accepted
one are *accepted*, and they fall into epochs in each direction.
`stored_total_eq_epochTotal` says that the stored total of a direction is the rise
within the first epoch plus the last counter of each later one, for any order and
any mix of reports. The state follows the meter of `Data.Meter` sample by sample
(`Tracks`), saturation included. -/
namespace NodeGet.TrafficStats
open NodeGet.Core NodeGet.Data

/-! ### Directions -/

inductive Direction where
  | received
  | transmitted
deriving DecidableEq, Repr

def Traffic.get (t : Traffic) : Direction → UInt64
  | .received => t.received
  | .transmitted => t.transmitted

def NetworkInterfaceReading.counter (r : NetworkInterfaceReading) : Direction → UInt64
  | .received => r.counterReceived
  | .transmitted => r.counterTransmitted

def CounterReset.get (reset : CounterReset) : Direction → Bool
  | .received => reset.received
  | .transmitted => reset.transmitted

variable (d : Direction) (prev current : NetworkInterfaceReading)

theorem get_computeTrafficIncrease (reset : CounterReset) :
    (computeTrafficIncrease (some prev) current reset).get d =
      increaseForDirection (prev.counter d) (current.counter d) (reset.get d) := by
  cases d <;> rfl

theorem get_detectCounterReset :
    (detectCounterReset prev current).get d =
      (isFullReset prev current || decide (current.counter d < prev.counter d)) := by
  unfold detectCounterReset
  cases isFullReset prev current <;> cases d <;> rfl

/-! ### The samples of an interface -/

/-- Interface names are distinct and every interface says whether it is an outlet. -/
structure Report.WellFormed (r : Report) : Prop where
  names : (r.data.interfaces.map (·.interfaceName)).Nodup
  outlets : ∀ interface ∈ r.data.interfaces, interface.isOutlet ≠ none

/-- What a report says about one interface. -/
structure Sample where
  bootId : Option String
  ifindex : Option UInt32
  received : UInt64
  transmitted : UInt64
  time : Int64
deriving DecidableEq

def Sample.counter (x : Sample) : Direction → UInt64
  | .received => x.received
  | .transmitted => x.transmitted

def Sample.count (d : Direction) (x : Sample) : Nat := (x.counter d).toNat

def sampleOfInterface (data : DynamicMonitoringData) (interface : NetworkInterface) : Sample where
  bootId := data.bootId
  ifindex := interface.ifindex
  received := interface.totalReceived
  transmitted := interface.totalTransmitted
  time := data.time.toInt64

def outletNamed (name : String) (interface : NetworkInterface) : Bool :=
  interface.isOutlet == some true && interface.interfaceName == name

def Report.sample (key : Key) (r : Report) : Option Sample :=
  if r.uuidId = key.1 then
    (r.data.interfaces.find? (outletNamed key.2)).map (sampleOfInterface r.data)
  else none

/-- A sample is accepted unless it is older than the last accepted one. -/
def accept (samples : List Sample) (x : Sample) : List Sample :=
  if samples.getLast?.any fun last => x.time < last.time then samples else samples ++ [x]

def accepted (key : Key) (reports : List Report) : List Sample :=
  (reports.filterMap (Report.sample key)).foldl accept []

/-- A new epoch begins: the boot id or the ifindex is another one, or the counter
of the direction has fallen. -/
def breaks (d : Direction) (a b : Sample) : Bool :=
  changed a.bootId b.bootId || changed a.ifindex b.ifindex || b.counter d < a.counter d

theorem count_le_of_unbroken (a b : Sample) (h : breaks d a b = false) : a.count d ≤ b.count d := by
  simp only [breaks, Bool.or_eq_false_iff, decide_eq_false_iff_not] at h
  exact UInt64.le_iff_toNat_le.mp (UInt64.not_lt.mp h.2)

/-- The rise within the first epoch and the last counter of each later one. -/
def exactTotal (d : Direction) (key : Key) (reports : List Report) : Nat :=
  Meter.epochTotal (Sample.count d) (Meter.epochs (breaks d) (accepted key reports))

def storedTotal (d : Direction) (key : Key) (s : State) : Option Nat :=
  (s.totals.lookup key).map fun t => (t.get d).toNat

/-! ### What a report does to one interface -/

/-- The sample is that of the first turn that names the interface. -/
theorem sample_eq_head (r : Report) (hr : r.WellFormed) (key : Key) :
    r.sample key = (turns r.uuidId r.data key).head?.map (sampleOfInterface r.data) := by
  have hknown : (r.data.interfaces.any fun i => i.isOutlet.isNone) = false := by
    simpa [List.any_eq_false] using hr.outlets
  simp only [turns, outlets, hknown, Bool.false_eq_true, if_false, List.filter_filter, List.head?_filter, Report.sample]
  by_cases hu : r.uuidId = key.1
  · rw [if_pos hu]
    congr 2
    funext i
    rw [Bool.eq_iff_iff]
    simp only [outletNamed, Bool.and_eq_true, beq_iff_eq, decide_eq_true_eq, Prod.ext_iff, hu, true_and]
    exact ⟨fun h => ⟨h.2.symm, h.1⟩, fun h => ⟨h.2, h.1.symm⟩⟩
  · have hnone : (r.data.interfaces.find? fun i =>
        decide (key = (r.uuidId, i.interfaceName)) && i.isOutlet == some true) = none := by
      rw [List.find?_eq_none]
      intro i _
      simp [Prod.ext_iff, Ne.symm hu]
    rw [if_neg hu, hnone, Option.map_none]

/-- A report changes an interface's entry exactly when it has a sample of it. -/
theorem entry_applyReport (s : State) (r : Report) (hr : r.WellFormed) (key : Key) :
    (s.applyReport r.uuidId r.data r.receivedAt).entry key = s.entry key ∧ r.sample key = none ∨
      ∃ i, (s.applyReport r.uuidId r.data r.receivedAt).entry key =
          entryStep r.data r.receivedAt i (s.entry key) ∧
        r.sample key = some (sampleOfInterface r.data i) := by
  rw [entry_applyReport_turns, sample_eq_head r hr]
  obtain hturns | ⟨i, hturns⟩ := turns_of_distinct r.uuidId hr.names key
  · rw [hturns]
    exact .inl ⟨rfl, rfl⟩
  · rw [hturns]
    exact .inr ⟨i, rfl, rfl⟩

/-! ### The state follows the meter -/

def NetworkInterfaceReading.sample (r : NetworkInterfaceReading) : Sample where
  bootId := r.bootId
  ifindex := r.ifindex
  received := r.counterReceived
  transmitted := r.counterTransmitted
  time := r.reportTime

/-- An entry after the accepted samples: the last of them is the previous reading,
and the total is what their meter shows, held at `u64::MAX`. -/
structure Tracks (d : Direction) (samples : List Sample)
    (entry : Option NetworkInterfaceReading × Option Traffic) : Prop where
  prev : entry.1.map (·.sample) = samples.getLast?
  total : entry.2.map (fun t => (t.get d).toNat) =
    if samples = [] then none else some (min (Meter.meter (Sample.count d) (breaks d) samples) u64Max)

theorem get_detectCounterReset_eq_breaks :
    (detectCounterReset prev current).get d = breaks d prev.sample current.sample := by
  rw [get_detectCounterReset]
  cases d <;> rfl

theorem toNat_increase :
    ((computeTrafficIncrease (some prev) current (detectCounterReset prev current)).get d).toNat =
      Meter.increase (Sample.count d) (breaks d) prev.sample current.sample := by
  rw [get_computeTrafficIncrease, get_detectCounterReset_eq_breaks, increaseForDirection, Meter.increase]
  split <;> cases d <;> simp [Sample.count, Sample.counter, NetworkInterfaceReading.counter,
    NetworkInterfaceReading.sample]

theorem tracks_entryStep {d : Direction} {samples : List Sample}
    {entry : Option NetworkInterfaceReading × Option Traffic} (h : Tracks d samples entry)
    (data : DynamicMonitoringData) (receivedAt : Int64) (i : NetworkInterface) :
    Tracks d (accept samples (sampleOfInterface data i)) (entryStep data receivedAt i entry) := by
  obtain ⟨prev, stored⟩ := entry
  obtain ⟨hprev, htotal⟩ := h
  simp only at hprev htotal
  have hlate : (samples.getLast?.any fun last => (sampleOfInterface data i).time < last.time) =
      prev.any fun p => data.time.toInt64 < p.reportTime := by
    rw [← hprev, Option.any_map]
    rfl
  unfold accept entryStep
  simp only [hlate]
  split
  · exact ⟨hprev, htotal⟩
  · have hget : ∀ t increase : Traffic, Traffic.get ⟨saturatingAdd t.received increase.received,
        saturatingAdd t.transmitted increase.transmitted⟩ d = saturatingAdd (t.get d) (increase.get d) := by
      intro t increase
      cases d <;> rfl
    refine ⟨by simp [currentReading, NetworkInterfaceReading.sample, sampleOfInterface], ?_⟩
    simp only [Option.map_some, hget, toNat_saturatingAdd, List.append_eq_nil_iff, List.cons_ne_nil,
      and_false, if_false, Option.some.injEq, Meter.meter_concat, ← hprev]
    cases prev with
    | none =>
      have hnil : samples = [] := by simpa using hprev.symm
      subst hnil
      have hstored : stored = none := by simpa using htotal
      subst hstored
      cases d <;> simp [computeTrafficIncrease, Traffic.get, Meter.meter]
    | some p =>
      have hne : samples ≠ [] := by
        rintro rfl
        simp at hprev
      rw [if_neg hne] at htotal
      obtain ⟨t, rfl, ht⟩ := Option.map_eq_some_iff.mp htotal
      simp only [Option.getD_some, ht, Option.elim_some, toNat_increase, Option.map_some]
      have hcurrent : (currentReading data receivedAt i (some p)).sample = sampleOfInterface data i := rfl
      rw [hcurrent]
      omega

theorem tracks_applyReports {d : Direction} {key : Key} {s : State} {samples : List Sample}
    (h : Tracks d samples (s.entry key)) (reports : List Report) (hreports : ∀ r ∈ reports, r.WellFormed) :
    Tracks d ((reports.filterMap (Report.sample key)).foldl accept samples)
      ((s.applyReports reports).entry key) := by
  induction reports generalizing s samples with
  | nil => exact h
  | cons r rest ih =>
    have hrest := fun r' hr' => hreports r' (List.mem_cons_of_mem _ hr')
    obtain ⟨hentry, hsample⟩ | ⟨i, hentry, hsample⟩ :=
      entry_applyReport s r (hreports r (List.mem_cons_self ..)) key
    · rw [List.filterMap_cons_none hsample]
      exact ih (s := s.applyReport r.uuidId r.data r.receivedAt) (by rwa [hentry]) hrest
    · rw [List.filterMap_cons_some hsample, List.foldl_cons]
      refine ih (s := s.applyReport r.uuidId r.data r.receivedAt) ?_ hrest
      rw [hentry]
      exact tracks_entryStep h r.data r.receivedAt i

/-- From a state without the interface, its stored total is what the meter of the
accepted samples shows. -/
theorem storedTotal_eq_meter (key : Key) (s : State) (hnew : s.entry key = (none, none)) (reports : List Report)
    (hreports : ∀ r ∈ reports, r.WellFormed) :
    storedTotal d key (s.applyReports reports) =
      if accepted key reports = [] then none
      else some (min (Meter.meter (Sample.count d) (breaks d) (accepted key reports)) u64Max) := by
  have hstart : Tracks d [] (s.entry key) := by
    rw [hnew]
    exact ⟨rfl, rfl⟩
  exact (tracks_applyReports hstart reports hreports).total

/-- **The stored total is the exact one**: the rise within the first epoch plus the
last counter of each later epoch, as long as that fits into a `u64`. Other samples
inside an epoch, which leave it unbroken, leave the total as it is. -/
theorem stored_total_eq_epochTotal (d : Direction) (key : Key) (s : State)
    (hnew : s.entry key = (none, none)) (reports : List Report) (hreports : ∀ r ∈ reports, r.WellFormed) :
    (exactTotal d key reports ≤ u64Max →
      storedTotal d key (s.applyReports reports) =
        if accepted key reports = [] then none else some (exactTotal d key reports)) ∧
    ∀ reports' : List Report, (∀ r ∈ reports', r.WellFormed) →
      ∀ pre p mid mid' q post,
        accepted key reports = pre ++ p :: (mid ++ q :: post) →
        accepted key reports' = pre ++ p :: (mid' ++ q :: post) →
        (p :: (mid ++ [q])).IsChain (fun a b => breaks d a b = false) →
        (p :: (mid' ++ [q])).IsChain (fun a b => breaks d a b = false) →
        storedTotal d key (s.applyReports reports') = storedTotal d key (s.applyReports reports) := by
  have hmono := count_le_of_unbroken d
  constructor
  · intro hfits
    rw [storedTotal_eq_meter d key s hnew reports hreports, Meter.meter_eq_epochTotal hmono]
    change (if accepted key reports = [] then none else some (min (exactTotal d key reports) u64Max)) = _
    rw [Nat.min_eq_left hfits]
  · intro reports' hreports' pre p mid mid' q post hacc hacc' hchain hchain'
    rw [storedTotal_eq_meter d key s hnew reports hreports,
      storedTotal_eq_meter d key s hnew reports' hreports', hacc, hacc',
      Meter.meter_inside_epoch hmono pre post p q mid mid' hchain hchain']
    simp

/-- A report of one outlet, `eth0` of device 1. -/
def eth0Report (time : UInt64) (bootId : String) (received : UInt64) : Report where
  uuidId := 1
  data := ⟨time, 60, some bootId, [⟨"eth0", some true, some 2, received, 0⟩]⟩
  receivedAt := 1000

/-- Three readings of one boot and one of the next: 15 bytes and then 7. -/
theorem stored_total_after_reboot :
    storedTotal .received (1, "eth0") (State.empty.applyReports
        [eth0Report 1 "a" 10, eth0Report 2 "a" 18, eth0Report 3 "a" 25, eth0Report 4 "b" 7]) = some 22 ∧
      storedTotal .received (1, "eth0") (State.empty.applyReports
        [eth0Report 1 "a" 10, eth0Report 3 "a" 25, eth0Report 4 "b" 7]) = some 22 := by
  have hwf : ∀ time bootId received, (eth0Report time bootId received).WellFormed := fun _ _ _ =>
    ⟨by simp [eth0Report], by simp [eth0Report]⟩
  have hmain := stored_total_eq_epochTotal .received (1, "eth0") .empty rfl
    [eth0Report 1 "a" 10, eth0Report 2 "a" 18, eth0Report 3 "a" 25, eth0Report 4 "b" 7] (by simp [hwf])
  have htotal := hmain.1 (by decide)
  have hfewer := hmain.2 [eth0Report 1 "a" 10, eth0Report 3 "a" 25, eth0Report 4 "b" 7] (by simp [hwf])
    [] ⟨some "a", some 2, 10, 0, 1⟩ [⟨some "a", some 2, 18, 0, 2⟩] [] ⟨some "a", some 2, 25, 0, 3⟩
    [⟨some "b", some 2, 7, 0, 4⟩] (by decide) (by decide) (by decide) (by decide)
  exact ⟨htotal, hfewer.trans htotal⟩

end NodeGet.TrafficStats
