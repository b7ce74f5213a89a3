import NodeGet.Traffic.Stats

/-! What every history of reports leaves true of the traffic state, whatever the
reports hold: late ones, repeated ones, ones with missing fields or with an
interface named twice.

A turn of the loop over the outlets either leaves its interface's entry alone or
moves it forward (`advances_entryStep`); `entry_applyReport_turns` carries that to
a whole report. A turn made twice finds nothing to count the second time. -/
namespace NodeGet.TrafficStats
open NodeGet.Core

/-! ### Entries move forward -/

/-- On top of what `Evolves` keeps, neither the report time nor a total goes back. -/
structure Advances (e e' : Option NetworkInterfaceReading × Option Traffic) : Prop extends Evolves e e' where
  reportTime : ∀ p p', e.1 = some p → e'.1 = some p' → p.reportTime ≤ p'.reportTime
  totals : ∀ t, e.2 = some t →
    ∃ t', e'.2 = some t' ∧ t.received ≤ t'.received ∧ t.transmitted ≤ t'.transmitted

theorem Advances.refl (e : Option NetworkInterfaceReading × Option Traffic) : Advances e e where
  toEvolves := .refl e
  reportTime p p' hp hp' := by
    rw [hp, Option.some.injEq] at hp'
    rw [hp']
    exact Int64.le_refl _
  totals t ht := ⟨t, ht, UInt64.le_refl _, UInt64.le_refl _⟩

theorem Advances.trans {e e' e'' : Option NetworkInterfaceReading × Option Traffic} (h : Advances e e')
    (h' : Advances e' e'') : Advances e e'' where
  toEvolves := h.toEvolves.trans h'.toEvolves
  reportTime p p'' hp hp'' := by
    obtain ⟨p', hp', -⟩ := h.reading p hp
    exact Int64.le_trans (h.reportTime p p' hp hp') (h'.reportTime p' p'' hp' hp'')
  totals t ht := by
    obtain ⟨t', ht', hreceived, htransmitted⟩ := h.totals t ht
    obtain ⟨t'', ht'', hreceived', htransmitted'⟩ := h'.totals t' ht'
    exact ⟨t'', ht'', UInt64.le_trans hreceived hreceived', UInt64.le_trans htransmitted htransmitted'⟩

theorem advances_entryStep (data : DynamicMonitoringData) (receivedAt : Int64) (i : NetworkInterface)
    (e : Option NetworkInterfaceReading × Option Traffic) : Advances e (entryStep data receivedAt i e) := by
  refine { toEvolves := evolves_entryStep data receivedAt i e, reportTime := ?_, totals := ?_ }
  · intro p p' hp hp'
    unfold entryStep at hp'
    split at hp'
    · exact (Advances.refl e).reportTime p p' hp hp'
    · rename_i hlate
      cases hp'
      rw [hp] at hlate
      show p.reportTime ≤ data.time.toInt64
      exact Int64.not_lt.mp (by simpa using hlate)
  · intro t ht
    unfold entryStep
    split
    · exact (Advances.refl e).totals t ht
    · rw [ht]
      exact ⟨_, rfl, le_saturatingAdd .., le_saturatingAdd ..⟩

theorem advances_applyReport (s : State) (u : Int16) (data : DynamicMonitoringData) (receivedAt : Int64)
    (key : Key) : Advances (s.entry key) ((s.applyReport u data receivedAt).entry key) := by
  rw [entry_applyReport_turns]
  generalize s.entry key = e
  generalize turns u data key = interfaces
  induction interfaces generalizing e with
  | nil => exact .refl e
  | cons i rest ih => exact (advances_entryStep data receivedAt i e).trans (ih _)

variable {s : State} {u : Int16} {data : DynamicMonitoringData} {key : Key}

/-- A reading comes with a total, in every state reports lead to. -/
theorem paired_applyReports (hs : ∀ key, (s.entry key).1.isSome = (s.entry key).2.isSome) (reports : List Report)
    (key : Key) : ((s.applyReports reports).entry key).1.isSome = ((s.applyReports reports).entry key).2.isSome := by
  induction reports generalizing s with
  | nil => exact hs key
  | cons r rest ih =>
    exact ih fun key => (evolves_applyReport s r.uuidId r.data r.receivedAt key).paired (hs key)

/-! ### Which entries a report touches -/

theorem mem_of_mem_turns {i : NetworkInterface} (h : i ∈ turns u data key) :
    i ∈ data.interfaces ∧ i.isOutlet = some true ∧ key = (u, i.interfaceName) := by
  obtain ⟨houtlet, hkey⟩ := List.mem_filter.mp h
  unfold outlets at houtlet
  split at houtlet
  · cases houtlet
  · obtain ⟨hmem, houtlet⟩ := List.mem_filter.mp houtlet
    exact ⟨hmem, by simpa using houtlet, by simpa using hkey⟩

theorem listed_of_changed {receivedAt : Int64} (h : (s.applyReport u data receivedAt).entry key ≠ s.entry key) :
    key.1 = u ∧ ∃ i ∈ data.interfaces, i.isOutlet = some true ∧ i.interfaceName = key.2 := by
  rw [entry_applyReport_turns] at h
  obtain ⟨i, hi⟩ : ∃ i, i ∈ turns u data key := by
    apply List.exists_mem_of_ne_nil
    intro hnil
    rw [hnil] at h
    exact h rfl
  obtain ⟨hmem, houtlet, hkey⟩ := mem_of_mem_turns hi
  rw [hkey]
  exact ⟨rfl, i, hmem, houtlet, rfl⟩

theorem applyReport_of_unknown (s : State) (u : Int16) (receivedAt : Int64)
    (h : ∃ i ∈ data.interfaces, i.isOutlet = none) : s.applyReport u data receivedAt = s := by
  obtain ⟨i, hmem, hnone⟩ := h
  have hany : (data.interfaces.any fun i => i.isOutlet.isNone) = true :=
    List.any_eq_true.mpr ⟨i, hmem, by rw [hnone]; rfl⟩
  rw [State.applyReport, if_pos hany]

/-! ### The same report again -/

theorem changed_self {α : Type*} [DecidableEq α] (x : Option α) : changed x x = false := by
  cases x <;> simp [changed]

section Again
variable (data : DynamicMonitoringData) (receivedAt again : Int64) (i : NetworkInterface)

/-- A reading compared with one of the same report shows no reset. -/
theorem detectCounterReset_again (prev prev' : Option NetworkInterfaceReading) :
    detectCounterReset (currentReading data receivedAt i prev) (currentReading data again i prev') = .none := by
  simp [detectCounterReset, isFullReset, isBootIdChanged, isIfindexChanged, currentReading, changed_self,
    CounterReset.none]

theorem computeTrafficIncrease_again (prev prev' : Option NetworkInterfaceReading) :
    computeTrafficIncrease (some (currentReading data receivedAt i prev)) (currentReading data again i prev')
      .none = ⟨0, 0⟩ := by
  simp [computeTrafficIncrease, increaseForDirection, currentReading, CounterReset.none]

theorem entryStep_again (e : Option NetworkInterfaceReading × Option Traffic) :
    (entryStep data again i (entryStep data receivedAt i e)).2 = (entryStep data receivedAt i e).2 := by
  by_cases hlate : (e.1.any fun p => data.time.toInt64 < p.reportTime) = true
  · have hstay : ∀ at', entryStep data at' i e = e := fun at' => by rw [entryStep, if_pos hlate]
    rw [hstay, hstay]
  · have hfirst : ∃ prev total, entryStep data receivedAt i e =
        (some (currentReading data receivedAt i prev), some total) := by
      rw [entryStep, if_neg hlate]
      exact ⟨_, _, rfl⟩
    obtain ⟨prev, total, hfirst⟩ := hfirst
    have hontime : ¬ (some (currentReading data receivedAt i prev)).any
        (fun p => data.time.toInt64 < p.reportTime) = true := by simp [currentReading]
    rw [hfirst, entryStep, if_neg hontime]
    simp only [Option.elim_some, detectCounterReset_again, computeTrafficIncrease_again, Option.getD_some,
      saturatingAdd_zero]

end Again

theorem totals_again (hnames : (data.interfaces.map (·.interfaceName)).Nodup) (s : State) (u : Int16)
    (receivedAt again : Int64) (key : Key) :
    ((s.applyReport u data receivedAt).applyReport u data again).totals.lookup key =
      (s.applyReport u data receivedAt).totals.lookup key := by
  have hentry : (((s.applyReport u data receivedAt).applyReport u data again).entry key).2 =
      ((s.applyReport u data receivedAt).entry key).2 := by
    rw [entry_applyReport_turns, entry_applyReport_turns]
    obtain hturns | ⟨i, hturns⟩ := turns_of_distinct u hnames key
    · rw [hturns]
      rfl
    · rw [hturns]
      exact entryStep_again data receivedAt again i _
  exact hentry

/-! ### Every history -/

/-- **The traffic state's invariant**: after any reports of any devices the totals
and the readings are of the same interfaces, and the next report moves each of them
only forward, touches only outlets it lists of its own device, does nothing when an
`is_outlet` is missing, and counts nothing when it comes twice with distinct names. -/
theorem applyReports_invariant (reports : List Report) (r : Report) (again : Int64) :
    let s := State.empty.applyReports reports
    let s' := s.applyReport r.uuidId r.data r.receivedAt
    (∀ key, key ∈ s.totals ↔ key ∈ s.prevReadings) ∧
      (∀ key, Advances (s.entry key) (s'.entry key)) ∧
      (∀ key, s'.entry key ≠ s.entry key →
        key.1 = r.uuidId ∧ ∃ i ∈ r.data.interfaces, i.isOutlet = some true ∧ i.interfaceName = key.2) ∧
      ((∃ i ∈ r.data.interfaces, i.isOutlet = none) → s' = s) ∧
      ((r.data.interfaces.map (·.interfaceName)).Nodup → ∀ key,
        (s'.applyReport r.uuidId r.data again).totals.lookup key = s'.totals.lookup key) := by
  intro s s'
  refine ⟨fun key => ?_, advances_applyReport s r.uuidId r.data r.receivedAt, fun key => listed_of_changed,
    applyReport_of_unknown s r.uuidId r.receivedAt,
    fun hnames => totals_again hnames s r.uuidId r.receivedAt again⟩
  have hpaired : (s.prevReadings.lookup key).isSome = (s.totals.lookup key).isSome :=
    paired_applyReports (s := State.empty) (fun _ => rfl) reports key
  rw [← AList.lookup_isSome, ← AList.lookup_isSome, hpaired]

/-- A report of two interfaces; `wan` says whether the first is an outlet. -/
def twoInterfaces (time : UInt64) (wan : Option Bool) : Report where
  uuidId := 3
  data := ⟨time, 60, some "boot", [⟨"eth0", wan, none, 40, 10⟩, ⟨"eth1", some true, some 2, 5, 6⟩]⟩
  receivedAt := 500

/-- A second report changes an outlet it lists, coming again it counts nothing more,
and one that does not know its outlets does nothing. -/
theorem twoInterfaces_again :
    let s := State.empty.applyReports [twoInterfaces 1 (some true)]
    let s' := s.applyReport 3 (twoInterfaces 2 (some true)).data 500
    (∃ i ∈ (twoInterfaces 2 (some true)).data.interfaces, i.isOutlet = some true ∧ i.interfaceName = "eth1") ∧
      (∀ key, (s'.applyReport 3 (twoInterfaces 2 (some true)).data 900).totals.lookup key = s'.totals.lookup key) ∧
      s.applyReport 3 (twoInterfaces 2 none).data 500 = s := by
  have hknown := applyReports_invariant [twoInterfaces 1 (some true)] (twoInterfaces 2 (some true)) 900
  have hunknown := applyReports_invariant [twoInterfaces 1 (some true)] (twoInterfaces 2 none) 900
  exact ⟨(hknown.2.2.1 (3, "eth1") (by decide +kernel)).2, hknown.2.2.2.2 (by decide),
    hunknown.2.2.2.1 (by decide)⟩

end NodeGet.TrafficStats
