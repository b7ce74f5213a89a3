import NodeGet.Monitoring.UuidCache

/-! The soft-delete flag in the table of agents and in its cache
(`ng-monitoring/src/monitoring_uuid_cache.rs`).

A call that has written or read a flag in the table writes it to the cache in a later step,
and a reload puts the flags of an earlier load in place of the cached ones. If another call
changes the flag in between, the older flag can be the last one written, and the cache keeps
it: `get_or_insert` does not go to the table for an agent cached as active, and
`soft_delete` does not write the cache for an agent deleted already.

`Undisturbed` says that a flag is not changed while the flag it replaces is still on its way
to the cache. In such runs the cache is coherent whenever no call is in flight. -/
namespace NodeGet.Monitoring.UuidCache
open NodeGet.Core NodeGet.Machine Function

/-- The flag the table has for an agent. -/
def Table.flag (t : Table) (uuid : Uuid) : Option Bool := (t.find uuid).map (·.softDelete)

/-- The call is about to give the cached agent this flag. -/
def Pc.Writes (agent : Option Uuid) (uuid : Uuid) (softDelete : Bool) : Pc → Prop
  | .store _ softDelete' => agent = some uuid ∧ softDelete' = softDelete
  | .swap loaded => loaded.flag uuid = some softDelete
  | _ => False

section
variable {ι : Type*} (calls : ι → Call)

/-- No call is in flight. -/
def AtRest (s : State ι) : Prop := ∀ i, s.pc i = .start ∨ ∃ reply, s.pc i = .finished reply

/-- Every cached flag is the one stored. -/
def Coherent (s : State ι) : Prop :=
  ∀ uuid id softDelete, s.cache.byUuid uuid = some (id, softDelete) ∨ s.cache.byId id = some (uuid, softDelete) →
    s.table.flag uuid = some softDelete

/-- If the step turns a flag in the table, no call is about to cache the flag it had. -/
def Undisturbed (s : State ι) (turn : Turn ι) : Prop :=
  match s.pc turn.call, turn.answer with
  | .update row _ softDelete _, .ok _ =>
    s.table.flag row.uuid = some (!softDelete) → ∀ i, ¬ (s.pc i).Writes (calls i).agent row.uuid (!softDelete)
  | _, _ => True

/-- Flags on their way to the cache are the table's, and one is on its way to every entry that differs. -/
structure Tracked (s : State ι) : Prop extends Consistent calls s where
  pending : ∀ i uuid softDelete, (s.pc i).Writes (calls i).agent uuid softDelete →
    s.table.flag uuid = some softDelete
  cached : ∀ uuid id softDelete, s.cache.byUuid uuid = some (id, softDelete) →
    s.table.flag uuid = some softDelete ∨ ∃ i softDelete', (s.pc i).Writes (calls i).agent uuid softDelete'

end

/-! ### Flags after a write -/

namespace Table
variable {t : Table} {uuid : Uuid} {softDelete : Bool}

theorem flag_eq_some_iff : t.flag uuid = some softDelete ↔ ∃ row ∈ t.rows, row.uuid = uuid ∧ row.softDelete = softDelete := by
  simp only [flag, Option.map_eq_some_iff, find_eq_some_iff, and_assoc]

variable {row : Model}

theorem flag_of_mem (hrow : row ∈ t.rows) : t.flag row.uuid = some row.softDelete :=
  flag_eq_some_iff.mpr ⟨row, hrow, rfl, rfl⟩

theorem flag_insert (row : Model) (hid : ¬ ∃ r ∈ t.rows, r.id = row.id) (huuid : ¬ ∃ r ∈ t.rows, r.uuid = row.uuid)
    (uuid : Uuid) : (t.insert row hid huuid).flag uuid = if row.uuid = uuid then some row.softDelete else t.flag uuid := by
  unfold flag find insert
  rw [Data.Table.lookup_cons]
  split <;> rfl

theorem flag_setSoftDelete_self (hrow : row ∈ t.rows) (softDelete : Bool) :
    (t.setSoftDelete row.id softDelete).flag row.uuid = some softDelete :=
  flag_eq_some_iff.mpr ⟨_, List.mem_map.mpr ⟨row, hrow, if_pos rfl⟩, rfl, rfl⟩

theorem flag_setSoftDelete_of_ne (hrow : row ∈ t.rows) (softDelete : Bool) (hne : uuid ≠ row.uuid) :
    (t.setSoftDelete row.id softDelete).flag uuid = t.flag uuid := by
  have hother : ∀ r ∈ t.rows, r.uuid = uuid → r.id ≠ row.id := fun r hr huuid hid =>
    hne (by rw [← huuid, eq_of_id_eq hr hrow hid])
  refine Option.ext fun d => ?_
  rw [flag_eq_some_iff, flag_eq_some_iff]
  constructor
  · intro ⟨r', hr', huuid, hd⟩
    obtain ⟨r, hr, rfl⟩ := List.mem_map.mp hr'
    by_cases hid : r.id = row.id
    · rw [if_pos hid] at huuid
      exact absurd hid (hother r hr huuid)
    · rw [if_neg hid] at huuid hd
      exact ⟨r, hr, huuid, hd⟩
  · intro ⟨r, hr, huuid, hd⟩
    exact ⟨r, List.mem_map.mpr ⟨r, hr, if_neg (hother r hr huuid)⟩, huuid, hd⟩

end Table

variable {uuid : Uuid} {softDelete : Bool} {pc : Pc} {agent : Option Uuid}

/-- A flag in a filled cache is that of a row it was filled from. -/
theorem Cache.flag_of_ofModels {t : Table} {id : Int16} (h : (ofModels t.rows).byUuid uuid = some (id, softDelete)) :
    t.flag uuid = some softDelete := by
  suffices hfold : ∀ (models : List Model) (c : Cache),
      (models.foldl insertModel c).byUuid uuid = some (id, softDelete) →
        (∃ row ∈ models, row.uuid = uuid ∧ row.softDelete = softDelete) ∨ c.byUuid uuid = some (id, softDelete) by
    obtain hrow | hempty := hfold t.rows empty h
    · exact Table.flag_eq_some_iff.mpr hrow
    · cases hempty
  intro models
  induction models with
  | nil => exact fun c hc => .inr hc
  | cons model rest ih =>
    intro c hc
    obtain ⟨row, hrow, hflag⟩ | hc := ih _ hc
    · exact .inl ⟨row, List.mem_cons_of_mem _ hrow, hflag⟩
    · unfold insertModel at hc
      split at hc
      next => exact .inr hc
      next number _ =>
        simp only [Cache.insert, update_apply] at hc
        split at hc
        next huuid =>
          cases hc
          exact .inl ⟨model, List.mem_cons_self, huuid.symm, rfl⟩
        next => exact .inr hc

/-! ### One step -/

theorem Pc.Writes.writing (h : pc.Writes agent uuid softDelete) : pc.Writing := by
  cases pc with
  | store => trivial
  | swap => trivial
  | _ => exact h.elim

theorem Pc.Bare.not_writes (h : pc.Bare) : ¬ pc.Writes agent uuid softDelete := by
  intro hw
  cases pc with
  | store => exact h
  | swap => exact h
  | _ => exact hw

variable {ι : Type*} [DecidableEq ι] (uniqueViolation : String) (calls : ι → Call)

section
variable {agent : Option Uuid} {answer : Answer} {t t' : Table} {c c' : Cache} {pc pc' : Pc} {uuid : Uuid}
  {softDelete : Bool}

variable {id : Int16}

/-- The row that an update is about, as the table has it now. -/
theorem Pc.Fits.updated_row {row : Model} {onFailure : String}
    (h : (Pc.update row id softDelete onFailure).Fits t agent) :
    ∃ row' ∈ t.rows, row'.id = row.id ∧ row'.uuid = row.uuid ∧ agent = some row.uuid := by
  obtain ⟨hid, hagent, row', hrow', huuid, hid'⟩ := h
  exact ⟨row', hrow', Int32.toInt_inj.mp (hid'.trans hid.symm), huuid, hagent⟩

/-- A stored flag is changed only by an update to the other one. -/
theorem Step.flag_kept (h : Step agent answer t c pc t' c' pc') (hpc : pc.Fits t agent)
    (hflag : t.flag uuid = some softDelete) : t'.flag uuid = some softDelete ∨
      ∃ row id onFailure lastInsertId, pc = .update row id (!softDelete) onFailure ∧ answer = .ok lastInsertId ∧
        row.uuid = uuid := by
  cases h with
  | turn => exact .inl hflag
  | served => exact .inl hflag
  | read => exact .inl hflag
  | inserted row _ _ hnew huuid =>
    left
    obtain ⟨r, hr, hru, -⟩ := Table.flag_eq_some_iff.mp hflag
    rw [Table.flag_insert, if_neg fun heq : row.uuid = uuid => huuid ⟨r, hr, hru.trans heq.symm⟩]
    exact hflag
  | @updated row id softDelete' onFailure lastInsertId hanswer =>
    obtain ⟨row', hrow', hid, huuid, -⟩ := hpc.updated_row
    rw [← hid]
    by_cases hu : uuid = row'.uuid
    · subst hu
      rw [Table.flag_setSoftDelete_self hrow']
      by_cases hd : softDelete' = softDelete
      · exact .inl (congrArg some hd)
      · exact .inr ⟨row, id, onFailure, lastInsertId, by rw [Bool.eq_not.mpr hd], hanswer, huuid.symm⟩
    · left
      rw [Table.flag_setSoftDelete_of_ne hrow' softDelete' hu]
      exact hflag
  | stored => exact .inl hflag
  | loaded => exact .inl hflag
  | swapped => exact .inl hflag

/-- What a call is about to write after its step is what the table then says. -/
theorem Step.writes_current (h : Step agent answer t c pc t' c' pc') (hpc : pc.Fits t agent)
    (hw : pc'.Writes agent uuid softDelete) : t'.flag uuid = some softDelete := by
  cases h with
  | turn _ hbare => exact absurd hw hbare.not_writes
  | served => exact hw.elim
  | read _ hagent hrow _ hread =>
    obtain ⟨onFailure, rfl⟩ | rfl := hread
    · exact hw.elim
    · obtain ⟨hagent', rfl⟩ := hw
      cases hagent.symm.trans hagent'
      exact Table.flag_of_mem hrow
  | inserted row _ hagent hnew huuid hpc' =>
    obtain hbare | ⟨id, -, rfl⟩ := hpc'
    · exact absurd hw hbare.not_writes
    · obtain ⟨hagent', rfl⟩ := hw
      rw [Table.flag_insert, if_pos (Option.some.inj (hagent.symm.trans hagent'))]
  | updated =>
    obtain ⟨row', hrow', hid, huuid, hagent⟩ := hpc.updated_row
    obtain ⟨hagent', rfl⟩ := hw
    cases hagent.symm.trans hagent'
    rw [← hid, ← huuid, Table.flag_setSoftDelete_self hrow']
  | stored _ hpc' =>
    obtain hbare | rfl := hpc'
    · exact absurd hw hbare.not_writes
    · exact hw.elim
  | loaded => exact hw
  | swapped hbare => exact absurd hw hbare.not_writes

/-- A cached flag after a step is the table's, or the call is about to write it, or entry and
stored flag are as they were and the call had nothing to write for the agent. -/
theorem Step.cached_cases (h : Step agent answer t c pc t' c' pc') (hc : c.Agrees t) (hpc : pc.Fits t agent)
    (hpending : ∀ uuid softDelete, pc.Writes agent uuid softDelete → t.flag uuid = some softDelete)
    (hentry : c'.byUuid uuid = some (id, softDelete)) :
    t'.flag uuid = some softDelete ∨ (∃ softDelete', pc'.Writes agent uuid softDelete') ∨
      (c.byUuid uuid = some (id, softDelete) ∧ t'.flag uuid = t.flag uuid ∧
        ∀ softDelete', ¬ pc.Writes agent uuid softDelete') := by
  cases h with
  | turn hidle => exact .inr (.inr ⟨hentry, rfl, fun _ hw => hidle hw.writing⟩)
  | served hidle => exact .inr (.inr ⟨hentry, rfl, fun _ hw => hidle hw.writing⟩)
  | read hidle => exact .inr (.inr ⟨hentry, rfl, fun _ hw => hidle hw.writing⟩)
  | inserted row hidle _ hnew huuid =>
    obtain ⟨r, hr, hru, -⟩ := hc.held _ _ _ hentry
    refine .inr (.inr ⟨hentry, ?_, fun _ hw => hidle hw.writing⟩)
    rw [Table.flag_insert, if_neg fun heq : row.uuid = uuid => huuid ⟨r, hr, hru.trans heq.symm⟩]
  | updated =>
    obtain ⟨row', hrow', hid, huuid, hagent⟩ := hpc.updated_row
    by_cases hu : uuid = row'.uuid
    · exact .inr (.inl ⟨_, by rw [hagent, hu, huuid], rfl⟩)
    · refine .inr (.inr ⟨hentry, ?_, fun _ hw => hw⟩)
      rw [← hid, Table.flag_setSoftDelete_of_ne hrow' _ hu]
  | @stored uuid' id' softDelete' _ hagent =>
    simp only [Cache.insert, update_apply] at hentry
    split at hentry
    next heq =>
      cases hentry
      exact .inl (hpending uuid _ ⟨by rw [hagent, heq], rfl⟩)
    next hne =>
      refine .inr (.inr ⟨hentry, rfl, fun _ hw => hne ?_⟩)
      exact Option.some.inj (hw.1.symm.trans hagent)
  | loaded hidle => exact .inr (.inr ⟨hentry, rfl, fun _ hw => hidle hw.writing⟩)
  | swapped => exact .inl (hpending uuid _ (Cache.flag_of_ofModels hentry))

end

omit [DecidableEq ι] in
theorem initial_tracked (t : Table) : Tracked calls (.initial t) where
  toConsistent := initial_consistent calls t
  pending _ _ _ h := h.elim
  cached _ _ _ h := .inl (Cache.flag_of_ofModels h)

theorem step_tracked (s : State ι) (turn : Turn ι) (s' : State ι) (hs : Tracked calls s)
    (hG : Undisturbed calls s turn) (h : step uniqueViolation calls s turn = some s') : Tracked calls s' := by
  obtain ⟨pc', hstep, hpc⟩ := step_cases uniqueViolation calls h
  have hfits := hs.places turn.call
  refine ⟨step_consistent uniqueViolation calls hs.toConsistent h, fun i uuid d hw => ?_, fun uuid id d hentry => ?_⟩
  · rw [hpc] at hw
    by_cases hi : i = turn.call
    · subst hi
      rw [update_self] at hw
      exact hstep.writes_current hfits hw
    · rw [update_of_ne hi] at hw
      obtain hkept | ⟨row, id, onFailure, lastInsertId, hupdate, hanswer, rfl⟩ := hstep.flag_kept hfits (hs.pending i uuid d hw)
      · exact hkept
      · simp only [Undisturbed, hupdate, hanswer, Bool.not_not] at hG
        exact absurd hw (hG (hs.pending i row.uuid d hw) i)
  · obtain hflag | ⟨d', hw⟩ | ⟨hold, hsame, hnone⟩ :=
      hstep.cached_cases hs.cache hfits (hs.pending turn.call) hentry
    · exact .inl hflag
    · refine .inr ⟨turn.call, d', ?_⟩
      rw [hpc, update_self]
      exact hw
    · obtain hflag | ⟨i, d', hw⟩ := hs.cached uuid id d hold
      · exact .inl (hsame.trans hflag)
      · have hi : i ≠ turn.call := fun heq => hnone d' (heq ▸ hw)
        refine .inr ⟨i, d', ?_⟩
        rw [hpc, update_of_ne hi]
        exact hw

/-! ### Whole runs -/

omit [DecidableEq ι] in
theorem Tracked.coherent {s : State ι} (hs : Tracked calls s) (hrest : AtRest s) : Coherent s := by
  intro uuid id d hentry
  have hcached : s.cache.byUuid uuid = some (id, d) := hentry.elim (fun h => h) (hs.cache.inverse uuid id d).mpr
  obtain hflag | ⟨i, d', hw⟩ := hs.cached uuid id d hcached
  · exact hflag
  · obtain hpc | ⟨reply, hpc⟩ := hrest i <;> rw [hpc] at hw <;> exact hw.elim

/-- **Cached flags are the stored ones at rest**, in every run in which no flag is changed while
the flag it replaces is on its way to the cache. -/
theorem flags_coherent (t : Table) (schedule : List (Turn ι)) (s : State ι)
    (hG : Along (step uniqueViolation calls) (Undisturbed calls) (.initial t) schedule)
    (hrun : run (step uniqueViolation calls) (.initial t) schedule = some s) (hrest : AtRest s) : Coherent s :=
  (run_invariant (step_tracked uniqueViolation calls) (initial_tracked calls t) hG hrun).coherent calls hrest

/-- An agent's first report, and an administrator who deletes the agent. -/
def reportAndDelete : Bool → Call
  | false => .getOrInsert 1
  | true => .softDelete 1

/-- The report is over before the delete begins. -/
def inTurn : List (Turn Bool) :=
  [⟨false, .ok 0⟩, ⟨false, .ok 0⟩, ⟨false, .ok 7⟩, ⟨false, .ok 0⟩, ⟨true, .ok 0⟩, ⟨true, .ok 0⟩, ⟨true, .ok 0⟩]

/-- The delete runs from its beginning to its end when the report has inserted the agent and not yet cached it. -/
def overlapping : List (Turn Bool) :=
  [⟨false, .ok 0⟩, ⟨false, .ok 0⟩, ⟨false, .ok 7⟩, ⟨true, .ok 0⟩, ⟨true, .ok 0⟩, ⟨true, .ok 0⟩, ⟨false, .ok 0⟩]

theorem flags_coherent_in_turn :
    ∃ s, run (step "" reportAndDelete) (.initial .empty) inTurn = some s ∧
      s.cache.byUuid 1 = some (7, true) ∧ Coherent s := by
  refine ⟨_, rfl, rfl, flags_coherent "" reportAndDelete .empty inTurn _ ?_ rfl ?_⟩
  · refine .cons rfl trivial <| .cons rfl trivial <| .cons rfl trivial <| .cons rfl trivial <|
      .cons rfl trivial <| .cons rfl (fun _ i hw => ?_) <| .cons rfl trivial trivial
    cases i <;> exact hw
  · intro i
    cases i <;> exact .inr ⟨_, rfl⟩

/-- The agent ends deleted in the table and active in the cache. -/
theorem deleted_agent_cached_active :
    ∃ s, run (step "" reportAndDelete) (.initial .empty) overlapping = some s ∧
      (∀ i, ∃ reply, s.pc i = .finished reply) ∧ s.cache.byUuid 1 = some (7, false) ∧
      s.table.flag 1 = some true ∧ ¬ Coherent s := by
  refine ⟨_, rfl, fun i => ?_, rfl, rfl, fun hcoherent => ?_⟩
  · cases i <;> exact ⟨_, rfl⟩
  · cases hcoherent 1 7 false (.inl rfl)

end NodeGet.Monitoring.UuidCache
