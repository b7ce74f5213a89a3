import NodeGet.Core.Signed
import NodeGet.Machine.Run
import NodeGet.Traffic.Restart

/-! The windows of possible loss: which ones a report records, and what flushes do
with them.

A counter that was reset between two readings lost what it counted in between. When
more than ten minutes lie between the previous reading's update and the reset, the
loop records that span, but at most once per report. So the spans a report meets
(`State.resetSpans`) and the windows it records (`State.recorded`) differ:
`recorded_eq` says that the first span found too long is the only one recorded.

A window runs from an update of the past to a moment not later than the report
that brings it to light, as long as the reported uptime, in milliseconds, fits an
`i64` (`losses_wellFormed_iff`). The agent chooses that number.

A flush takes the windows out of the state, and while its transaction is under way
reports add new ones; a failed transaction puts the old ones back in front. -/
namespace NodeGet.TrafficStats
open NodeGet.Core NodeGet.Data NodeGet.Machine

/-! ### Spans of a report's resets -/

/-- From the previous reading's update to the moment of the reset. -/
structure ResetSpan where
  start : Int64
  stop : Int64
deriving DecidableEq

/-- The time between the two exceeds the threshold. -/
def ResetSpan.TooLong (span : ResetSpan) : Prop :=
  possibleDataLossThresholdMs.toInt < span.stop.toInt - span.start.toInt

instance (span : ResetSpan) : Decidable span.TooLong := Int.decLt _ _

/-- The code's test for it; the difference is taken in `i64`. -/
def ResetSpan.detected (span : ResetSpan) : Bool := !(span.stop - span.start ≤ possibleDataLossThresholdMs)

/-- What `detect_possible_data_loss` makes of a span. -/
def ResetSpan.loss (uuidId : Int16) (span : ResetSpan) : Option PossibleDataLoss :=
  if span.stop - span.start ≤ possibleDataLossThresholdMs then none
  else some ⟨uuidId, span.start, span.stop⟩

/-- The span of a turn that accepts its interface and finds it reset. -/
def resetSpan (data : DynamicMonitoringData) (receivedAt : Int64) (interface : NetworkInterface)
    (prev : Option NetworkInterfaceReading) : Option ResetSpan :=
  prev.bind fun p =>
    let current := currentReading data receivedAt interface (some p)
    if data.time.toInt64 < p.reportTime then none
    else if (detectCounterReset p current).any then
      some ⟨p.updatedAt, if isBootIdChanged p current then receivedAt - (saturatingMul data.uptime 1000).toInt64
        else receivedAt⟩
    else none

abbrev Readings := AList fun _ : Key => NetworkInterfaceReading

/-- The readings after a turn. -/
def readingsStep (uuidId : Int16) (data : DynamicMonitoringData) (receivedAt : Int64) (readings : Readings)
    (interface : NetworkInterface) : Readings :=
  let key : Key := (uuidId, interface.interfaceName)
  let prev := readings.lookup key
  if prev.any fun p => data.time.toInt64 < p.reportTime then readings
  else readings.insert key (currentReading data receivedAt interface prev)

/-- The spans of the loop's turns, in their order. -/
def resetSpans (uuidId : Int16) (data : DynamicMonitoringData) (receivedAt : Int64) :
    Readings → List NetworkInterface → List ResetSpan
  | _, [] => []
  | readings, interface :: rest =>
    (resetSpan data receivedAt interface (readings.lookup (uuidId, interface.interfaceName))).toList ++
      resetSpans uuidId data receivedAt (readingsStep uuidId data receivedAt readings interface) rest

/-- The spans of all resets that a report brings to light. -/
def State.resetSpans (s : State) (r : Report) : List ResetSpan :=
  TrafficStats.resetSpans r.uuidId r.data r.receivedAt s.prevReadings (outlets r.data)

/-- The windows a report adds to those pending. -/
def State.recorded (s : State) (r : Report) : List PossibleDataLoss :=
  (s.applyReport r.uuidId r.data r.receivedAt).pendingPossibleDataLosses.drop s.pendingPossibleDataLosses.length

/-! ### What is recorded -/

section Loop
variable (u : Int16) (data : DynamicMonitoringData) (receivedAt : Int64)

theorem prevReadings_applyInterface (acc : State × Bool) (i : NetworkInterface) :
    (applyInterface u data receivedAt acc i).1.prevReadings =
      readingsStep u data receivedAt acc.1.prevReadings i := by
  unfold applyInterface readingsStep
  simp only
  split
  · rfl
  · rfl

theorem prevReadings_applyReport (s : State) :
    (s.applyReport u data receivedAt).prevReadings =
      (outlets data).foldl (readingsStep u data receivedAt) s.prevReadings := by
  rw [applyReport_eq]
  show _ = (outlets data).foldl _ (s, false).1.prevReadings
  generalize (s, false) = acc
  induction outlets data generalizing acc with
  | nil => rfl
  | cons i rest ih => rw [List.foldl_cons, List.foldl_cons, ih, prevReadings_applyInterface]

/-- The window a turn records. -/
def turnLoss (acc : State × Bool) (i : NetworkInterface) : Option PossibleDataLoss :=
  if acc.2 then none
  else (resetSpan data receivedAt i (acc.1.prevReadings.lookup (u, i.interfaceName))).bind (ResetSpan.loss u)

theorem losses_applyInterface (acc : State × Bool) (i : NetworkInterface) :
    (applyInterface u data receivedAt acc i).1.pendingPossibleDataLosses =
        acc.1.pendingPossibleDataLosses ++ (turnLoss u data receivedAt acc i).toList ∧
      (applyInterface u data receivedAt acc i).2 = (acc.2 || (turnLoss u data receivedAt acc i).isSome) := by
  unfold applyInterface turnLoss resetSpan
  cases hprev : acc.1.prevReadings.lookup (u, i.interfaceName) with
  | none => simp [hprev, CounterReset.none, CounterReset.any]
  | some p =>
    by_cases hlate : data.time.toInt64 < p.reportTime
    · simp [hprev, hlate]
    · cases acc.2 with
      | true => simp [hprev, hlate]
      | false =>
        by_cases hreset : (detectCounterReset p (currentReading data receivedAt i (some p))).any = true
        · simp [hprev, hlate, hreset, detectPossibleDataLoss, ResetSpan.loss]
        · simp [hprev, hlate, hreset]

theorem losses_foldl (interfaces : List NetworkInterface) (acc : State × Bool) :
    (interfaces.foldl (applyInterface u data receivedAt) acc).1.pendingPossibleDataLosses =
      acc.1.pendingPossibleDataLosses ++
        if acc.2 then []
        else ((resetSpans u data receivedAt acc.1.prevReadings interfaces).findSome? (ResetSpan.loss u)).toList := by
  induction interfaces generalizing acc with
  | nil => simp [resetSpans]
  | cons i rest ih =>
    obtain ⟨hpending, hflag⟩ := losses_applyInterface u data receivedAt acc i
    rw [List.foldl_cons, ih, hpending, hflag, prevReadings_applyInterface, resetSpans, List.append_assoc]
    congr 1
    cases hrecorded : acc.2 with
    | true => simp [turnLoss, hrecorded]
    | false =>
      cases hspan : resetSpan data receivedAt i (acc.1.prevReadings.lookup (u, i.interfaceName)) with
      | none => simp [turnLoss, hrecorded, hspan]
      | some span => cases hloss : span.loss u <;> simp [turnLoss, hrecorded, hspan, hloss]

end Loop

theorem losses_applyReport (s : State) (r : Report) :
    (s.applyReport r.uuidId r.data r.receivedAt).pendingPossibleDataLosses =
      s.pendingPossibleDataLosses ++ ((s.resetSpans r).findSome? (ResetSpan.loss r.uuidId)).toList := by
  rw [applyReport_eq, losses_foldl]
  rfl

/-- A report records the first of its spans that `detect_possible_data_loss` finds
too long, and no other. -/
theorem recorded_eq (s : State) (r : Report) :
    s.recorded r = ((s.resetSpans r).findSome? (ResetSpan.loss r.uuidId)).toList := by
  rw [State.recorded, losses_applyReport, List.drop_left]

theorem findSome_loss (u : Int16) (spans : List ResetSpan) :
    spans.findSome? (ResetSpan.loss u) =
      (spans.find? ResetSpan.detected).map fun span => ⟨u, span.start, span.stop⟩ := by
  induction spans with
  | nil => rfl
  | cons span rest ih =>
    by_cases h : span.stop - span.start ≤ possibleDataLossThresholdMs
    · rw [List.findSome?_cons, List.find?_cons_of_neg (by simp [ResetSpan.detected, h]), ResetSpan.loss, if_pos h,
        ih]
    · rw [List.findSome?_cons, List.find?_cons_of_pos (by simp [ResetSpan.detected, h]), ResetSpan.loss,
        if_neg h, Option.map_some]

/-- A window of the device that spans all of it. -/
def PossibleDataLoss.Covers (window : PossibleDataLoss) (uuidId : Int16) (span : ResetSpan) : Prop :=
  window.uuidId = uuidId ∧ window.startTime ≤ span.start ∧ span.stop ≤ window.endTime

instance (window : PossibleDataLoss) (uuidId : Int16) (span : ResetSpan) :
    Decidable (window.Covers uuidId span) := instDecidableAnd

/-- **Which losses are reported**: a report covers each of its long spans exactly
when the first span found too long reaches around all the others. -/
theorem losses_reported_iff (s : State) (r : Report) :
    (∀ span ∈ s.resetSpans r, span.TooLong → ∃ window ∈ s.recorded r, window.Covers r.uuidId span) ↔
      ∀ span ∈ s.resetSpans r, span.TooLong →
        ∃ first, (s.resetSpans r).find? ResetSpan.detected = some first ∧
          first.start ≤ span.start ∧ span.stop ≤ first.stop := by
  have hcovers : ∀ span, (∃ window ∈ s.recorded r, window.Covers r.uuidId span) ↔
      ∃ first, (s.resetSpans r).find? ResetSpan.detected = some first ∧
        first.start ≤ span.start ∧ span.stop ≤ first.stop := by
    intro span
    rw [recorded_eq, findSome_loss]
    cases (s.resetSpans r).find? ResetSpan.detected with
    | none => simp
    | some first => simp [PossibleDataLoss.Covers]
  simp only [hcovers]

/-- A report of the device at an hour of the day, with the named outlets. -/
def hourReport (hour : Nat) (uptime : UInt64) (bootId : String) (names : List String) : Report where
  uuidId := 1
  data := ⟨.ofNat (hour * 3600000), uptime, some bootId, names.map fun name => ⟨name, some true, none, 7, 7⟩⟩
  receivedAt := .ofNat (hour * 3600000)

/-- Both outlets are read at nine, `eth0` again at ten, and at noon the machine has
been up for five minutes: `eth0`'s two hours are recorded, `eth1`'s three are not. -/
theorem longer_loss_unreported :
    let s := State.empty.applyReports [hourReport 9 60 "a" ["eth0", "eth1"], hourReport 10 3660 "a" ["eth0"]]
    let r := hourReport 12 300 "b" ["eth0", "eth1"]
    ∃ span ∈ s.resetSpans r, span.TooLong ∧ ∀ window ∈ s.recorded r, ¬ window.Covers r.uuidId span := by
  decide +kernel

/-! ### Well-formed windows

The boot time is the receive time minus the uptime. The product of the uptime is
saturated as a `u64` and then read as an `i64`, so an uptime that is large enough
counts as negative and puts the boot after the report. -/

/-- The boot time before it is fitted into an `i64`. -/
def bootTime (receivedAt : Int64) (uptime : UInt64) : Int :=
  receivedAt.toInt - (saturatingMul uptime 1000).toInt64.toInt

/-- No reading was stored after the time. -/
def Readings.UpdatedBy (readings : Readings) (time : Int64) : Prop :=
  ∀ key p, readings.lookup key = some p → p.updatedAt ≤ time

/-- The window is not empty and lies before the time. -/
def PossibleDataLoss.WellFormed (window : PossibleDataLoss) (time : Int64) : Prop :=
  window.startTime < window.endTime ∧ window.endTime ≤ time

instance (window : PossibleDataLoss) (time : Int64) : Decidable (window.WellFormed time) := instDecidableAnd

variable {readings : Readings} {receivedAt : Int64} {span : ResetSpan} {s plain : State} {r : Report}
  {window : PossibleDataLoss} {uptime : UInt64} {f f' : Flushing} {stored : List PossibleDataLoss} {backend : Backend}

theorem updatedBy_readingsStep (u : Int16) (data : DynamicMonitoringData) (receivedAt : Int64)
    (h : readings.UpdatedBy receivedAt) (i : NetworkInterface) :
    (readingsStep u data receivedAt readings i).UpdatedBy receivedAt := by
  unfold readingsStep
  simp only
  split
  · exact h
  · intro key p hp
    by_cases hkey : key = (u, i.interfaceName)
    · rw [hkey, AList.lookup_insert, Option.some.injEq] at hp
      rw [← hp]
      exact Int64.le_refl _
    · rw [AList.lookup_insert_ne hkey] at hp
      exact h key p hp

/-- A span starts at the update of a reading and stops at the boot or at the report. -/
theorem resetSpan_bounds {data : DynamicMonitoringData} {i : NetworkInterface} {prev : Option NetworkInterfaceReading}
    (h : resetSpan data receivedAt i prev = some span) :
    (∃ p, prev = some p ∧ span.start = p.updatedAt) ∧
      (span.stop = receivedAt ∨ span.stop = receivedAt - (saturatingMul data.uptime 1000).toInt64) := by
  cases prev with
  | none => cases h
  | some p =>
    simp only [resetSpan, Option.bind_some] at h
    split at h
    · cases h
    · split at h
      · cases h
        refine ⟨⟨p, rfl, rfl⟩, ?_⟩
        dsimp only
        split
        · exact .inr rfl
        · exact .inl rfl
      · cases h

theorem resetSpans_bounds (u : Int16) (data : DynamicMonitoringData) (receivedAt : Int64)
    (interfaces : List NetworkInterface) (h : readings.UpdatedBy receivedAt) :
    ∀ span ∈ resetSpans u data receivedAt readings interfaces, span.start ≤ receivedAt ∧
      (span.stop = receivedAt ∨ span.stop = receivedAt - (saturatingMul data.uptime 1000).toInt64) := by
  induction interfaces generalizing readings with
  | nil =>
    intro span hspan
    cases hspan
  | cons i rest ih =>
    intro span hspan
    rw [resetSpans, List.mem_append] at hspan
    cases hspan with
    | inl hhere =>
      obtain ⟨hstart, hstop⟩ := resetSpan_bounds (Option.mem_toList.mp hhere)
      obtain ⟨p, hp, hupdated⟩ := hstart
      exact ⟨hupdated ▸ h _ p hp, hstop⟩
    | inr hlater => exact ih (updatedBy_readingsStep u data receivedAt h i) span hlater

/-- The test's difference may wrap around, but then no loss is detected. -/
theorem ordered_of_detected (h : span.detected = true) (hfits : i64Min ≤ span.stop.toInt - span.start.toInt) :
    span.start < span.stop := by
  rw [Int64.lt_iff_toInt_lt]
  by_contra hle
  have hdiff := toInt_sub_of_fits hfits (by simp only [i64Max]; omega)
  have hlong : ¬ span.stop - span.start ≤ possibleDataLossThresholdMs := by simpa [ResetSpan.detected] using h
  rw [Int64.le_iff_toInt_le, hdiff] at hlong
  have hthreshold : possibleDataLossThresholdMs.toInt = 600000 := by decide
  omega

/-- The span behind a recorded window. -/
theorem mem_recorded (h : window ∈ s.recorded r) :
    ∃ span ∈ s.resetSpans r, span.detected = true ∧ window = ⟨r.uuidId, span.start, span.stop⟩ := by
  rw [recorded_eq, findSome_loss, Option.mem_toList, Option.map_eq_some_iff] at h
  obtain ⟨span, hfind, hwindow⟩ := h
  exact ⟨span, List.mem_of_find?_eq_some hfind, List.find?_some hfind, hwindow.symm⟩

/-- The boot time of an uptime that fits: not after the report, not too long before
it, and computed as on paper. -/
theorem bootTime_of_fits (hreceived : 0 ≤ receivedAt.toInt) (hfits : (uptime.toNat * 1000 : Int) ≤ i64Max) :
    receivedAt.toInt - i64Max ≤ bootTime receivedAt uptime ∧ bootTime receivedAt uptime ≤ receivedAt.toInt ∧
      (receivedAt - (saturatingMul uptime 1000).toInt64).toInt = bootTime receivedAt uptime := by
  have hmax := receivedAt.toInt_lt
  have hcast : (saturatingMul uptime 1000).toInt64.toInt = uptime.toNat * 1000 := by
    have hthousand : (1000 : UInt64).toNat = 1000 := rfl
    have hms : ((saturatingMul uptime 1000).toNat : Int) = uptime.toNat * 1000 := by
      rw [toNat_saturatingMul, hthousand]
      simp only [i64Max, u64Max] at hfits ⊢
      omega
    rw [toInt_toInt64, hms, if_pos hfits]
  simp only [bootTime, hcast]
  refine ⟨by omega, by omega, ?_⟩
  rw [toInt_sub_of_fits, hcast] <;> rw [hcast] <;> simp only [i64Min, i64Max] at hfits ⊢ <;> omega

/-- An uptime that does not fit counts as negative. -/
theorem bootTime_of_not_fits (receivedAt : Int64) (hlarge : ¬ (uptime.toNat * 1000 : Int) ≤ i64Max) :
    receivedAt.toInt < bootTime receivedAt uptime := by
  have hthousand : (1000 : UInt64).toNat = 1000 := rfl
  have hms := toNat_saturatingMul uptime 1000
  rw [hthousand] at hms
  have hnegative := toInt_toInt64 (saturatingMul uptime 1000)
  rw [hms, if_neg (by simp only [i64Max, u64Max] at hlarge ⊢; omega)] at hnegative
  simp only [bootTime, hnegative, u64Max]
  omega

theorem recorded_wellFormed (hreceived : 0 ≤ r.receivedAt.toInt) (hs : Readings.UpdatedBy s.prevReadings r.receivedAt)
    (hfits : (r.data.uptime.toNat * 1000 : Int) ≤ i64Max) (hwindow : window ∈ s.recorded r) :
    window.WellFormed r.receivedAt := by
  obtain ⟨span, hspan, hdetected, rfl⟩ := mem_recorded hwindow
  obtain ⟨hstart, hstop⟩ := resetSpans_bounds _ _ _ _ hs span hspan
  obtain ⟨hfrom, hto, hcomputed⟩ := bootTime_of_fits hreceived hfits
  rw [Int64.le_iff_toInt_le] at hstart
  have hbetween : r.receivedAt.toInt - i64Max ≤ span.stop.toInt ∧ span.stop.toInt ≤ r.receivedAt.toInt := by
    cases hstop with
    | inl hreport =>
      rw [hreport]
      simp only [i64Max]
      omega
    | inr hboot =>
      rw [hboot, hcomputed]
      exact ⟨hfrom, hto⟩
  have hdiff : i64Min ≤ span.stop.toInt - span.start.toInt := by
    simp only [i64Min, i64Max] at hbetween ⊢
    omega
  exact ⟨ordered_of_detected hdetected hdiff, Int64.le_iff_toInt_le.mpr hbetween.2⟩

/-- One reading, of an earlier boot. -/
def State.oneReading (updatedAt : Int64) : State :=
  ⟨AList.insert (1, "wan") ⟨some "a", none, 7, 7, 0, updatedAt, updatedAt⟩ ∅, ∅, []⟩

/-- A report of that interface after the next boot. -/
def rebootReport (receivedAt : Int64) (uptime : UInt64) : Report where
  uuidId := 1
  data := ⟨0, uptime, some "b", [⟨"wan", some true, none, 7, 7⟩]⟩
  receivedAt := receivedAt

theorem updatedBy_oneReading {updatedAt time : Int64} (h : updatedAt ≤ time) :
    Readings.UpdatedBy (State.oneReading updatedAt).prevReadings time := by
  intro key p hp
  by_cases hkey : key = (1, "wan")
  · rw [hkey, State.oneReading, AList.lookup_insert, Option.some.injEq] at hp
    rwa [← hp]
  · rw [State.oneReading, AList.lookup_insert_ne hkey] at hp
    cases hp

theorem recorded_rebootReport (updatedAt receivedAt : Int64) (uptime : UInt64) :
    (State.oneReading updatedAt).recorded (rebootReport receivedAt uptime) =
      (ResetSpan.loss 1 ⟨updatedAt, receivedAt - (saturatingMul uptime 1000).toInt64⟩).toList := by
  have hspans : (State.oneReading updatedAt).resetSpans (rebootReport receivedAt uptime) =
      [⟨updatedAt, receivedAt - (saturatingMul uptime 1000).toInt64⟩] := by
    rfl
  rw [recorded_eq, hspans, List.findSome?_singleton]
  rfl

/-- **Well-formed loss windows**: at every receive time, the boot time fits an `i64`
and all windows recorded at that time end before it exactly when the uptime in
milliseconds fits an `i64`. -/
theorem losses_wellFormed_iff {receivedAt : Int64} (hreceived : 0 ≤ receivedAt.toInt) (uptime : UInt64) :
    ((i64Min ≤ bootTime receivedAt uptime ∧ bootTime receivedAt uptime ≤ i64Max) ∧
      ∀ (s : State) (r : Report), r.receivedAt = receivedAt → r.data.uptime = uptime →
        Readings.UpdatedBy s.prevReadings receivedAt → ∀ window ∈ s.recorded r, window.WellFormed receivedAt) ↔
      (uptime.toNat * 1000 : Int) ≤ i64Max := by
  constructor
  · intro h
    obtain ⟨hboot, hall⟩ := h
    by_contra hlarge
    have hafter := bootTime_of_not_fits receivedAt hlarge
    have hcomputed : (receivedAt - (saturatingMul uptime 1000).toInt64).toInt = bootTime receivedAt uptime :=
      toInt_sub_of_fits hboot.1 hboot.2
    -- an update before the report, and long enough before the boot
    have hupdated : (Int64.ofInt (min receivedAt.toInt (bootTime receivedAt uptime - 600001))).toInt =
        min receivedAt.toInt (bootTime receivedAt uptime - 600001) := by
      simp only [i64Max] at hboot
      apply Int64.toInt_ofInt_of_le <;> omega
    generalize Int64.ofInt (min receivedAt.toInt (bootTime receivedAt uptime - 600001)) = updatedAt at hupdated
    have hbefore : updatedAt ≤ receivedAt := Int64.le_iff_toInt_le.mpr (by omega)
    have hdiff : (receivedAt - (saturatingMul uptime 1000).toInt64 - updatedAt).toInt =
        bootTime receivedAt uptime - updatedAt.toInt := by
      rw [toInt_sub_of_fits, hcomputed] <;> rw [hcomputed] <;> simp only [i64Min, i64Max] at hboot ⊢ <;> omega
    have hlong : ¬ receivedAt - (saturatingMul uptime 1000).toInt64 - updatedAt ≤ possibleDataLossThresholdMs := by
      have hthreshold : possibleDataLossThresholdMs.toInt = 600000 := by decide
      rw [Int64.le_iff_toInt_le, hdiff]
      omega
    have hwindow := hall (State.oneReading updatedAt) (rebootReport receivedAt uptime) rfl rfl
      (updatedBy_oneReading hbefore) ⟨1, updatedAt, receivedAt - (saturatingMul uptime 1000).toInt64⟩ (by
        rw [recorded_rebootReport, ResetSpan.loss, if_neg hlong]
        exact List.mem_singleton_self _)
    have hend := Int64.le_iff_toInt_le.mp hwindow.2
    rw [hcomputed] at hend
    omega
  · intro hfits
    obtain ⟨hfrom, hto, -⟩ := bootTime_of_fits hreceived hfits
    have hmax := receivedAt.toInt_lt
    refine ⟨?_, ?_⟩
    · simp only [i64Min, i64Max] at hfrom ⊢
      omega
    · intro s r htime huptime hs window hwindow
      subst htime huptime
      exact recorded_wellFormed hreceived hs hfits hwindow

/-- Read at nine and up for an hour at noon: the window ends at eleven. -/
theorem losses_wellFormed_hour :
    (State.oneReading 32400000).recorded (rebootReport 43200000 3600) = [⟨1, 32400000, 39600000⟩] ∧
      PossibleDataLoss.WellFormed ⟨1, 32400000, 39600000⟩ 43200000 := by
  have hrecorded : (State.oneReading 32400000).recorded (rebootReport 43200000 3600) =
      [⟨1, 32400000, 39600000⟩] := by
    rw [recorded_rebootReport]
    decide
  have hall := ((losses_wellFormed_iff (by decide) 3600).mpr (by decide)).2 (State.oneReading 32400000)
    (rebootReport 43200000 3600) rfl rfl (updatedBy_oneReading (by decide))
  exact ⟨hrecorded, hall _ (hrecorded ▸ List.mem_singleton_self _)⟩

/-- The greatest uptime puts the boot a millisecond after the report, and the window
read at nine and reported at noon ends there. With another uptime the boot time is
beyond what an `i64` holds. -/
theorem future_loss_recorded :
    (State.empty.applyReports [hourReport 9 60 "a" ["wan"]]).recorded
        (hourReport 12 18446744073709551615 "b" ["wan"]) = [⟨1, 32400000, 43200001⟩] ∧
      i64Max < bootTime 43200000 9223372036854776 := by
  decide +kernel

/-! ### Flushes in steps -/

/-- The server and the flush that is under way, with what it has taken. -/
structure Flushing where
  server : Server
  inFlight : Option (List CurrentTotal × List PossibleDataLoss)

inductive FlushAction where
  | report (r : Report)
  | start
  | finish (committed : Bool)

/-- The reports of a history of actions, in order. -/
def FlushAction.reports (actions : List FlushAction) : List Report :=
  actions.filterMap fun
    | .report r => some r
    | _ => none

def Server.setLosses (server : Server) (losses : List PossibleDataLoss) : Server :=
  {server with state := {server.state with pendingPossibleDataLosses := losses}}

/-- A flush locks the state twice: to take the windows and copy the rows, and to put
the windows back when the transaction has failed. Only `flush_loop` flushes, so one
flush ends before the next starts. -/
def flushStep (backend : Backend) (f : Flushing) : FlushAction → Option Flushing
  | .report r => some {f with server := f.server.step backend (.report r)}
  | .start =>
    match f.inFlight with
    | some _ => none
    | none =>
      let losses := f.server.state.pendingPossibleDataLosses
      let currentTotals := f.server.state.currentTotalModels
      if losses.isEmpty && currentTotals.isEmpty then some f
      else some ⟨f.server.setLosses [], some (currentTotals, losses)⟩
  | .finish committed =>
    match f.inFlight with
    | none => none
    | some (currentTotals, losses) =>
      if committed then some ⟨writeToDb backend f.server currentTotals losses, none⟩
      else some ⟨f.server.setLosses (losses ++ f.server.state.pendingPossibleDataLosses), none⟩

theorem losses_writeToDb (backend : Backend) (server : Server) (currentTotals : List CurrentTotal)
    (losses : List PossibleDataLoss) :
    (writeToDb backend server currentTotals losses).possibleDataLosses = server.possibleDataLosses ++ losses := by
  have happend : ∀ (batches : List (List PossibleDataLoss)) (stored : List PossibleDataLoss),
      batches.foldl (fun stored chunk => stored ++ chunk) stored = stored ++ batches.flatten := by
    intro batches
    induction batches with
    | nil => simp
    | cons batch rest ih =>
      intro stored
      rw [List.foldl_cons, ih, List.flatten_cons, List.append_assoc]
  rw [writeToDb, happend, flatten_chunks (maxRowsPerStatement_pos ..)]

/-! ### No window is lost, doubled or moved -/

/-- The windows a flush under way has taken. -/
def Flushing.taken (f : Flushing) : List PossibleDataLoss := f.inFlight.elim [] (·.2)

/-- The server reads as one that never flushed, and its windows, stored, taken and
pending, are those of that one. -/
structure Keeps (stored : List PossibleDataLoss) (plain : State) (f : Flushing) : Prop where
  readings : f.server.state.prevReadings = plain.prevReadings
  windows : f.server.possibleDataLosses ++ f.taken ++ f.server.state.pendingPossibleDataLosses =
    stored ++ plain.pendingPossibleDataLosses

theorem keeps_report (h : Keeps stored plain f) (backend : Backend) (r : Report) :
    Keeps stored (plain.applyReport r.uuidId r.data r.receivedAt)
      {f with server := f.server.step backend (.report r)} := by
  have hspans : f.server.state.resetSpans r = plain.resetSpans r := by
    rw [State.resetSpans, State.resetSpans, h.readings]
  refine ⟨?_, ?_⟩
  · show (f.server.state.applyReport ..).prevReadings = _
    rw [prevReadings_applyReport, prevReadings_applyReport, h.readings]
  · show _ ++ _ ++ (f.server.state.applyReport ..).pendingPossibleDataLosses = _
    rw [losses_applyReport, losses_applyReport, hspans, ← List.append_assoc, ← List.append_assoc]
    exact congrArg (· ++ _) h.windows

theorem keeps_flushStep (h : Keeps stored plain f) {a : FlushAction} (hstep : flushStep backend f a = some f') :
    Keeps stored (plain.applyReports (FlushAction.reports [a])) f' := by
  obtain ⟨server, inFlight⟩ := f
  have hwindows := h.windows
  cases a with
  | report r =>
    cases hstep
    exact keeps_report h backend r
  | start =>
    cases inFlight with
    | some taken => cases hstep
    | none =>
      simp only [flushStep] at hstep
      split at hstep
      · cases hstep
        exact h
      · cases hstep
        show Keeps stored plain _
        refine ⟨h.readings, ?_⟩
        simpa [Flushing.taken, Server.setLosses] using hwindows
  | finish committed =>
    cases inFlight with
    | none => cases hstep
    | some taken =>
      obtain ⟨currentTotals, losses⟩ := taken
      cases committed with
      | true =>
        cases hstep
        show Keeps stored plain _
        refine ⟨h.readings, ?_⟩
        rw [losses_writeToDb]
        show server.possibleDataLosses ++ losses ++ [] ++ server.state.pendingPossibleDataLosses = _
        simpa [Flushing.taken] using hwindows
      | false =>
        cases hstep
        show Keeps stored plain _
        refine ⟨h.readings, ?_⟩
        simpa [Flushing.taken, Server.setLosses] using hwindows

theorem keeps_run (h : Keeps stored plain f) {actions : List FlushAction}
    (hrun : run (flushStep backend) f actions = some f') :
    Keeps stored (plain.applyReports (FlushAction.reports actions)) f' := by
  induction actions generalizing f plain with
  | nil =>
    cases hrun
    exact h
  | cons a rest ih =>
    obtain ⟨t, hstep, hrest⟩ := run_cons_some.mp hrun
    have hplain : plain.applyReports (FlushAction.reports (a :: rest)) =
        (plain.applyReports (FlushAction.reports [a])).applyReports (FlushAction.reports rest) := by
      cases a <;> rfl
    rw [hplain]
    exact ih (keeps_flushStep h hstep) hrest

/-- **Loss windows survive failed flushes**: whenever no flush is under way, the
stored windows followed by the pending ones are the stored ones of the beginning
followed by what the same reports leave pending on a server that never flushes. -/
theorem losses_survive_flushes (backend : Backend) (server : Server) (actions : List FlushAction) {f : Flushing}
    (hrun : run (flushStep backend) ⟨server, none⟩ actions = some f) (hidle : f.inFlight = none) :
    f.server.possibleDataLosses ++ f.server.state.pendingPossibleDataLosses =
      server.possibleDataLosses ++
        (server.state.applyReports (FlushAction.reports actions)).pendingPossibleDataLosses := by
  have hstart : Keeps server.possibleDataLosses server.state ⟨server, none⟩ := ⟨rfl, by simp [Flushing.taken]⟩
  have hwindows := (keeps_run hstart hrun).windows
  rwa [Flushing.taken, hidle, Option.elim_none, List.append_nil] at hwindows

/-- The window recorded while a flush is under way that fails is there after it. -/
theorem losses_survive_failed_flush :
    ∃ f, run (flushStep .sqlite) ⟨Server.start [] [], none⟩
        [.report (hourReport 9 60 "a" ["wan"]), .start, .report (hourReport 12 300 "b" ["wan"]), .finish false] =
          some f ∧
      f.inFlight = none ∧
      f.server.possibleDataLosses ++ f.server.state.pendingPossibleDataLosses = [⟨1, 32400000, 42900000⟩] := by
  obtain ⟨f, hrun, hidle⟩ : ∃ f, run (flushStep .sqlite) ⟨Server.start [] [], none⟩
      [.report (hourReport 9 60 "a" ["wan"]), .start, .report (hourReport 12 300 "b" ["wan"]), .finish false] =
        some f ∧ f.inFlight = none := by decide +kernel
  exact ⟨f, hrun, hidle, (losses_survive_flushes .sqlite _ _ hrun hidle).trans (by decide +kernel)⟩

end NodeGet.TrafficStats
