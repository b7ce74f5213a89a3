import NodeGet.Crontab.Cache
import NodeGet.Machine.Run

/-! The crontab table and its cache under calls that run side by side
(`ng-crontab/src/server_cron.rs`, `ng-crontab/src/rpc/crontab/{create,edit,set_enable,delete}.rs`).

Every call reads the table, writes it, and then carries its write over to the cache: the row it
has written, or for a delete the name whose entries go. Nothing orders the cache steps of two
calls as their writes were, and the cache is never loaded again. So a late cache step can put
back what another call has changed or deleted since; `Timely` says which cache steps do not, and
`coherent_of_timely` that runs of such steps leave the cache as the table is. -/
namespace NodeGet.Crontab.Coherence
open NodeGet.Core NodeGet.Machine Function

/-! ### The table -/

/-- The rows, with unique ids and names, and the id that the next row gets. -/
structure Table where
  rows : List Model
  ids : (rows.map Model.id).Nodup
  names : (rows.map Model.name).Nodup
  nextId : Int
  below : ∀ row ∈ rows, row.id < nextId

/-- The columns a call sets. -/
inductive Change where
  | payload (cronExpression : String) (cronType : Json)
  | enabled (value : Bool)

def Change.apply (row : Model) : Change → Model
  | payload cronExpression cronType => { row with cronExpression, cronType }
  | enabled value => { row with enable := value }

@[simp] theorem Change.apply_id (c : Change) (row : Model) : (c.apply row).id = row.id := by cases c <;> rfl

@[simp] theorem Change.apply_name (c : Change) (row : Model) : (c.apply row).name = row.name := by cases c <;> rfl

namespace Table
variable (t : Table)

def find (name : String) : Option Model := t.rows.find? fun row => row.name = name

/-- `INSERT` of an enabled row that has not run yet; refused if the name is taken. -/
def insert (name cronExpression : String) (cronType : Json) : Option (Table × Model) :=
  if h : name ∈ t.rows.map Model.name then none
  else
    let row : Model := ⟨t.nextId, name, true, cronExpression, cronType, none⟩
    some ({
      rows := row :: t.rows
      ids := by
        refine List.nodup_cons.mpr ⟨fun hmem => ?_, t.ids⟩
        obtain ⟨other, hother, heq⟩ := List.mem_map.mp hmem
        exact absurd (t.below other hother) (by rw [heq]; exact lt_irrefl _)
      names := List.nodup_cons.mpr ⟨h, t.names⟩
      nextId := t.nextId + 1
      below := fun other hother => by
        rcases List.mem_cons.mp hother with rfl | hother
        · exact Int.lt_succ _
        · exact (t.below other hother).trans (Int.lt_succ _) }, row)

/-- `UPDATE` of one row by id, which gives the row as it then is; refused if it is gone. -/
def update (id : Int) (change : Change) : Option (Table × Model) :=
  (t.rows.find? fun row => row.id = id).map fun row =>
    ({
      rows := t.rows.map fun r => if r.id = id then change.apply r else r
      ids := by
        rw [List.map_map]
        have hsame : (Model.id ∘ fun r => if r.id = id then change.apply r else r) = Model.id := by
          funext r
          simp only [Function.comp]
          split <;> simp
        rw [hsame]
        exact t.ids
      names := by
        rw [List.map_map]
        have hsame : (Model.name ∘ fun r => if r.id = id then change.apply r else r) = Model.name := by
          funext r
          simp only [Function.comp]
          split <;> simp
        rw [hsame]
        exact t.names
      nextId := t.nextId
      below := fun other hother => by
        obtain ⟨r, hr, rfl⟩ := List.mem_map.mp hother
        have hid : (if r.id = id then change.apply r else r).id = r.id := by split <;> simp
        rw [hid]
        exact t.below r hr }, change.apply row)

/-- `DELETE` by name. -/
def delete (name : String) : Table where
  rows := t.rows.filter fun row => row.name ≠ name
  ids := t.ids.sublist (List.filter_sublist.map _)
  names := t.names.sublist (List.filter_sublist.map _)
  nextId := t.nextId
  below row hrow := t.below row (List.mem_filter.mp hrow).1

variable {t} {t' : Table} {row : Model}

variable {name : String}

theorem insert_spec {cronExpression : String} {cronType : Json}
    (h : t.insert name cronExpression cronType = some (t', row)) :
    row.id = t.nextId ∧ row.name = name ∧ t'.nextId = t.nextId + 1 ∧ t'.rows = row :: t.rows := by
  unfold insert at h
  split at h
  · cases h
  · cases h
    exact ⟨rfl, rfl, rfl, rfl⟩

theorem update_spec {id : Int} {change : Change} (h : t.update id change = some (t', row)) :
    t'.nextId = t.nextId ∧ (∃ old ∈ t.rows, old.id = id ∧ row = change.apply old) ∧
      ∀ r, r ∈ t'.rows ↔ r ∈ t.rows ∧ r.id ≠ id ∨ r = row := by
  obtain ⟨old, hold, heq⟩ := Option.map_eq_some_iff.mp h
  obtain ⟨rfl, rfl⟩ := Prod.mk.inj heq
  have hmem := List.mem_of_find?_eq_some hold
  have hid : old.id = id := by simpa using List.find?_some hold
  refine ⟨rfl, ⟨old, hmem, hid, rfl⟩, fun r => ?_⟩
  rw [List.mem_map]
  constructor
  · intro hr
    obtain ⟨r', hr', heq⟩ := hr
    split at heq
    next hr'id =>
      rw [List.inj_on_of_nodup_map t.ids hr' hmem (hr'id.trans hid.symm)] at heq
      exact .inr heq.symm
    next hr'id =>
      subst heq
      exact .inl ⟨hr', hr'id⟩
  · intro hr
    rcases hr with ⟨hr, hrid⟩ | rfl
    · exact ⟨r, hr, if_neg hrid⟩
    · exact ⟨old, hmem, if_pos hid⟩

theorem mem_delete {r : Model} : r ∈ (t.delete name).rows ↔ r ∈ t.rows ∧ r.name ≠ name := by
  simp [delete]

end Table

/-! ### Calls -/

inductive Call where
  | create (name cronExpression : String) (cronType : Json)
  | edit (name cronExpression : String) (cronType : Json)
  | setEnable (name : String) (enable : Bool)
  | delete (name : String)

def Call.name : Call → String
  | create name _ _ | edit name _ _ | setEnable name _ | delete name => name

/-- Where a call stands; the cache step is to come in `upsert` and `removeByName`. -/
inductive Pc where
  | start
  | checked
  | found (id : Int)
  | upsert (row : Model)
  | removeByName
  | finished

/-- The call has written and its cache step is to come. -/
def Pc.isPending : Pc → Bool
  | upsert _ | removeByName => true
  | start | checked | found _ | finished => false

structure State (ι τ : Type) where
  table : Table
  cache : CrontabCache τ
  pc : ι → Pc
  /-- History: the name that the row of an id was made with. -/
  named : Int → Option String

inductive Action (ι : Type) where
  | proceed (i : ι)
  /-- The name, the token, the permission or the expression is refused, or the database fails. -/
  | refuse (i : ι)

section Machine
variable {ι τ : Type} [DecidableEq ι] (parseSchedule : String → Option Schedule) (parseType : Json → Option τ)
  (calls : ι → Call)

def State.goto (s : State ι τ) (i : ι) (pc : Pc) : State ι τ := { s with pc := update s.pc i pc }

/-- The row of an id is changed, and the call is to carry it over. -/
def updateRow (s : State ι τ) (i : ι) (id : Int) (change : Change) : State ι τ :=
  match s.table.update id change with
  | some (table, row) => { s.goto i (.upsert row) with table }
  | none => s.goto i .finished

/-- The step of a call that has passed its first check. -/
def afterCheck (s : State ι τ) (i : ι) : Option (State ι τ) :=
  match calls i with
  | .create name cronExpression cronType =>
    match s.table.insert name cronExpression cronType with
    | some (table, row) =>
      some { s.goto i (.upsert row) with table, named := update s.named row.id (some row.name) }
    | none => some (s.goto i .finished)
  | .setEnable name _ =>
    match s.table.find name with
    | some row => some (s.goto i (.found row.id))
    | none => some (s.goto i .finished)
  | .delete name =>
    if (s.table.find name).isSome then some { s.goto i .removeByName with table := s.table.delete name }
    else some (s.goto i .finished)
  | .edit .. => none

def step (s : State ι τ) : Action ι → Option (State ι τ)
  | .refuse i => if (s.pc i).isPending then none else some (s.goto i .finished)
  | .proceed i =>
    match s.pc i with
    | .start =>
      match calls i, s.table.find (calls i).name with
      | .create .., none | .setEnable .., some _ | .delete _, some _ => some (s.goto i .checked)
      | .edit .., some row => some (s.goto i (.found row.id))
      | _, _ => some (s.goto i .finished)
    | .checked => afterCheck calls s i
    | .found id =>
      match calls i with
      | .edit _ cronExpression cronType => some (updateRow s i id (.payload cronExpression cronType))
      | .setEnable _ enable => some (updateRow s i id (.enabled enable))
      | .create .. | .delete _ => none
    | .upsert row =>
      some { s.goto i .finished with cache := s.cache.upsert parseSchedule parseType row }
    | .removeByName => some { s.goto i .finished with cache := s.cache.removeByName (calls i).name }
    | .finished => none

/-! ### Coherence -/

/-- What the cache holds about an id is what the table does, as far as it parses. -/
def Settled (s : State ι τ) (id : Int) : Prop :=
  ∀ entry : CachedCrontab τ, entry.model.id = id →
    (entry ∈ s.cache.byId ↔ ∃ row ∈ s.table.rows, parseOne parseSchedule parseType row = some entry)

/-- The cache holds exactly the rows of the table that parse. -/
def Coherent (s : State ι τ) : Prop :=
  ∀ entry : CachedCrontab τ,
    entry ∈ s.cache.byId ↔ ∃ row ∈ s.table.rows, parseOne parseSchedule parseType row = some entry

/-- A cache step on the id is to come: of its row, or of its name after the row is gone. -/
def Covers (s : State ι τ) (j : ι) (id : Int) : Prop :=
  match s.pc j with
  | .upsert row => row.id = id
  | .removeByName => s.named id = some (calls j).name ∧ ∀ row ∈ s.table.rows, row.id ≠ id
  | _ => False

/-- A cache step carries over what the table now holds, or another cache step on what it
leaves behind is to come. -/
def Timely (s : State ι τ) : Action ι → Prop
  | .refuse _ => True
  | .proceed i =>
    match s.pc i with
    | .upsert row => row ∈ s.table.rows ∨ ∃ j, j ≠ i ∧ Covers calls s j row.id
    | .removeByName =>
      ∀ entry ∈ s.cache.byId, entry.model.name = (calls i).name →
        (∀ row ∈ s.table.rows, row.id ≠ entry.model.id) ∨ ∃ j, j ≠ i ∧ Covers calls s j entry.model.id
    | _ => True

structure Sound (s : State ι τ) : Prop where
  below : ∀ id name, s.named id = some name → id < s.table.nextId
  rows : ∀ row ∈ s.table.rows, s.named row.id = some row.name
  pending : ∀ i row, s.pc i = .upsert row → s.named row.id = some row.name
  cached : ∀ entry ∈ s.cache.byId, s.named entry.model.id = some entry.model.name
  settled : ∀ id, Settled parseSchedule parseType s id ∨ ∃ j, Covers calls s j id

variable {parseSchedule parseType calls} {s t : State ι τ}

omit [DecidableEq ι] in
theorem Covers.isPending {j : ι} {id : Int} (h : Covers calls s j id) : (s.pc j).isPending = true := by
  unfold Covers at h
  split at h
  next hpc => rw [hpc]; rfl
  next hpc => rw [hpc]; rfl
  next => exact h.elim

/-! ### Steps before the cache step -/

variable {i : ι} {pc : Pc} {table : Table} {name : String} {row : Model}

section Steps
variable (hs : Sound parseSchedule parseType calls s)
include hs

/-- A call that has nothing to carry over moves on, with a table in which each id stands as
before or is what the call is to carry over. -/
theorem Sound.write {named : Int → Option String} (hpc : (s.pc i).isPending = false)
    (hbelow : ∀ id name, named id = some name → id < table.nextId)
    (hrows : ∀ row ∈ table.rows, named row.id = some row.name)
    (hnamed : ∀ id name, s.named id = some name → named id = some name)
    (hpending : ∀ row, pc = .upsert row → named row.id = some row.name)
    (hids : ∀ id, ((∀ row : Model, row.id = id → (row ∈ table.rows ↔ row ∈ s.table.rows)) ∧ named id = s.named id) ∨
      Covers calls { s.goto i pc with table, named } i id) :
    Sound parseSchedule parseType calls { s.goto i pc with table, named } where
  below := hbelow
  rows := hrows
  pending j row hj := by
    by_cases hji : j = i
    · subst hji
      exact hpending row (by simpa [State.goto] using hj)
    · exact hnamed _ _ (hs.pending j row (by simpa [State.goto, update_of_ne hji] using hj))
  cached entry hentry := hnamed _ _ (hs.cached entry hentry)
  settled id := by
    rcases hids id with ⟨hsame, hname⟩ | hcovers
    · rcases hs.settled id with hsettled | ⟨j, hj⟩
      · refine .inl fun entry hid => (hsettled entry hid).trans ⟨?_, ?_⟩
        · intro hparsed
          obtain ⟨row, hrow, hparse⟩ := hparsed
          exact ⟨row, (hsame row ((congrArg Model.id (parseOne_model hparse)).symm.trans hid)).mpr hrow, hparse⟩
        · intro hparsed
          obtain ⟨row, hrow, hparse⟩ := hparsed
          exact ⟨row, (hsame row ((congrArg Model.id (parseOne_model hparse)).symm.trans hid)).mp hrow, hparse⟩
      · have hji : j ≠ i := by
          intro heq
          rw [heq] at hj
          rw [hj.isPending] at hpc
          cases hpc
        refine .inr ⟨j, ?_⟩
        have hsamePc : ({ s.goto i pc with table, named } : State ι τ).pc j = s.pc j := update_of_ne hji _ _
        unfold Covers at hj ⊢
        rw [hsamePc]
        split at hj
        · exact hj
        · refine ⟨hname.trans hj.1, fun row hrow hid => ?_⟩
          exact hj.2 row ((hsame row hid).mp hrow) hid
        · exact hj
    · exact .inr ⟨i, hcovers⟩

/-- Nothing is written. -/
theorem Sound.goto (hpc : (s.pc i).isPending = false) (hnew : pc.isPending = false) :
    Sound parseSchedule parseType calls (s.goto i pc) :=
  hs.write hpc hs.below hs.rows (fun _ _ h => h) (fun row hrow => by rw [hrow] at hnew; cases hnew)
    fun _ => .inl ⟨fun _ _ => Iff.rfl, rfl⟩

theorem insert_sound {cronExpression : String} {cronType : Json} (hpc : (s.pc i).isPending = false)
    (h : s.table.insert name cronExpression cronType = some (table, row)) :
    Sound parseSchedule parseType calls
      { s.goto i (.upsert row) with table, named := update s.named row.id (some row.name) } := by
  obtain ⟨hid, -, hnext, hrows⟩ := Table.insert_spec h
  have hnew : ∀ id name, s.named id = some name → id ≠ row.id := by
    intro id name hname heq
    have hlt := hs.below id name hname
    omega
  refine hs.write hpc (fun id n hn => ?_) (fun r hr => ?_) (fun id n hn => ?_) (fun r hr => ?_) (fun id => ?_)
  · by_cases heq : id = row.id
    · omega
    · have hlt := hs.below id n (by rwa [update_of_ne heq] at hn)
      omega
  · rw [hrows] at hr
    rcases List.mem_cons.mp hr with rfl | hr
    · exact update_self ..
    · rw [update_of_ne (hnew _ _ (hs.rows r hr))]
      exact hs.rows r hr
  · rwa [update_of_ne (hnew id n hn)]
  · cases hr
    exact update_self ..
  · by_cases heq : id = row.id
    · refine .inr ?_
      simp [Covers, State.goto, heq]
    · refine .inl ⟨fun r hr => ?_, update_of_ne heq ..⟩
      rw [hrows, List.mem_cons]
      refine or_iff_right fun hrow => heq ?_
      rw [← hr, hrow]

theorem updateRow_sound (id : Int) (change : Change) (hpc : (s.pc i).isPending = false) :
    Sound parseSchedule parseType calls (updateRow s i id change) := by
  unfold updateRow
  split
  next table row h =>
    obtain ⟨hnext, ⟨old, hold, holdId, hrow⟩, hmem⟩ := Table.update_spec h
    have hrowNamed : s.named row.id = some row.name := by
      rw [hrow, Change.apply_id, Change.apply_name]
      exact hs.rows old hold
    have hrowId : row.id = id := by rw [hrow, Change.apply_id, holdId]
    refine hs.write hpc (fun id n hn => ?_) (fun r hr => ?_) (fun _ _ hn => hn) (fun r hr => ?_) (fun k => ?_)
    · rw [hnext]
      exact hs.below id n hn
    · rcases (hmem r).mp hr with ⟨hr, -⟩ | rfl
      · exact hs.rows r hr
      · exact hrowNamed
    · cases hr
      exact hrowNamed
    · by_cases heq : k = id
      · refine .inr ?_
        simp [Covers, State.goto, hrowId, heq]
      · refine .inl ⟨fun r hr => ?_, rfl⟩
        rw [hmem r]
        refine ⟨fun h => ?_, fun h => .inl ⟨h, fun hid => heq (hr.symm.trans hid)⟩⟩
        rcases h with ⟨h, -⟩ | rfl
        · exact h
        · exact absurd (hr.symm.trans hrowId) heq
  next => exact hs.goto hpc rfl

theorem delete_sound (hcall : calls i = .delete name) (hpc : (s.pc i).isPending = false) :
    Sound parseSchedule parseType calls { s.goto i .removeByName with table := s.table.delete name } := by
  refine hs.write hpc hs.below (fun r hr => hs.rows r (Table.mem_delete.mp hr).1) (fun _ _ hn => hn)
    (fun row hrow => by cases hrow) (fun id => ?_)
  by_cases hname : s.named id = some name
  · refine .inr ?_
    simp only [Covers, State.goto, update_self, hcall, Call.name]
    refine ⟨hname, fun row hrow hid => ?_⟩
    obtain ⟨hrow, hne⟩ := Table.mem_delete.mp hrow
    have hrowName := hs.rows row hrow
    rw [hid, hname, Option.some.injEq] at hrowName
    exact hne hrowName.symm
  · refine .inl ⟨fun row hid => ?_, rfl⟩
    rw [Table.mem_delete]
    refine and_iff_left_of_imp fun hrow hne => hname ?_
    rw [← hid, hs.rows row hrow, hne]

/-! ### The cache step -/

/-- The call's cache step: it leaves each id settled, or covered by another call. -/
theorem Sound.carry {cache : CrontabCache τ}
    (hcached : ∀ entry ∈ cache.byId, s.named entry.model.id = some entry.model.name)
    (hids : ∀ id, Settled parseSchedule parseType { s with cache } id ∨ ∃ j, j ≠ i ∧ Covers calls s j id) :
    Sound parseSchedule parseType calls { s.goto i .finished with cache } where
  below := hs.below
  rows := hs.rows
  pending j row hj := by
    by_cases hji : j = i
    · simp [State.goto, hji] at hj
    · exact hs.pending j row (by simpa [State.goto, update_of_ne hji] using hj)
  cached := hcached
  settled id := by
    rcases hids id with hsettled | ⟨j, hji, hj⟩
    · exact .inl hsettled
    · refine .inr ⟨j, ?_⟩
      have hsamePc : ({ s.goto i .finished with cache } : State ι τ).pc j = s.pc j := update_of_ne hji _ _
      unfold Covers at hj ⊢
      rw [hsamePc]
      exact hj

theorem upsert_sound (hpc : s.pc i = .upsert row)
    (htimely : row ∈ s.table.rows ∨ ∃ j, j ≠ i ∧ Covers calls s j row.id) :
    Sound parseSchedule parseType calls { s.goto i .finished with cache := s.cache.upsert parseSchedule parseType row } := by
  refine hs.carry (fun entry hentry => ?_) (fun id => ?_)
  · rcases (s.cache.mem_upsert parseSchedule parseType).mp hentry with hparse | ⟨hentry, -⟩
    · rw [parseOne_model hparse]
      exact hs.pending i row hpc
    · exact hs.cached entry hentry
  · by_cases hid : id = row.id
    · subst hid
      refine htimely.imp_left fun hrow entry hentry => ?_
      show entry ∈ (s.cache.upsert parseSchedule parseType row).byId ↔ _
      rw [s.cache.mem_upsert parseSchedule parseType]
      constructor
      · intro h
        rcases h with hparse | ⟨-, hne⟩
        · exact ⟨row, hrow, hparse⟩
        · exact absurd hentry hne
      · intro hparsed
        obtain ⟨r, hr, hparse⟩ := hparsed
        have hrid : r.id = row.id := (congrArg Model.id (parseOne_model hparse)).symm.trans hentry
        rw [List.inj_on_of_nodup_map s.table.ids hr hrow hrid] at hparse
        exact .inl hparse
    · have hsame : ∀ entry : CachedCrontab τ, entry.model.id = id →
          (entry ∈ (s.cache.upsert parseSchedule parseType row).byId ↔ entry ∈ s.cache.byId) := by
        intro entry hentry
        rw [s.cache.mem_upsert parseSchedule parseType]
        constructor
        · intro h
          rcases h with hparse | ⟨h, -⟩
          · exact absurd (hentry.symm.trans (congrArg Model.id (parseOne_model hparse))) hid
          · exact h
        · intro h
          exact .inr ⟨h, fun heq => hid (hentry.symm.trans heq)⟩
      rcases hs.settled id with hsettled | ⟨j, hj⟩
      · exact .inl fun entry hentry => (hsame entry hentry).trans (hsettled entry hentry)
      · refine .inr ⟨j, fun hji => ?_, hj⟩
        rw [hji] at hj
        simp only [Covers, hpc] at hj
        exact hid hj.symm

theorem removeByName_sound (hpc : s.pc i = .removeByName)
    (htimely : ∀ entry ∈ s.cache.byId, entry.model.name = (calls i).name →
      (∀ row ∈ s.table.rows, row.id ≠ entry.model.id) ∨ ∃ j, j ≠ i ∧ Covers calls s j entry.model.id) :
    Sound parseSchedule parseType calls
      { s.goto i .finished with cache := s.cache.removeByName (calls i).name } := by
  -- an id without a row is settled once no entry of its name is left
  have hgone : ∀ id, s.named id = some (calls i).name → (∀ row ∈ s.table.rows, row.id ≠ id) →
      Settled parseSchedule parseType { s with cache := s.cache.removeByName (calls i).name } id := by
    intro id hname hnone entry hentry
    refine ⟨fun hmem => ?_, fun hparsed => ?_⟩
    · obtain ⟨hmem, hne⟩ := s.cache.mem_removeByName.mp hmem
      have hcached := hs.cached entry hmem
      rw [hentry, hname, Option.some.injEq] at hcached
      exact absurd hcached.symm hne
    · obtain ⟨row, hrow, hparse⟩ := hparsed
      exact absurd ((congrArg Model.id (parseOne_model hparse)).symm.trans hentry) (hnone row hrow)
  refine hs.carry (fun entry hentry => hs.cached entry (s.cache.mem_removeByName.mp hentry).1) (fun id => ?_)
  by_cases hremoved : ∃ entry ∈ s.cache.byId, entry.model.id = id ∧ entry.model.name = (calls i).name
  · obtain ⟨entry, hmem, rfl, hname⟩ := hremoved
    refine (htimely entry hmem hname).imp_left fun hnone => hgone _ ?_ hnone
    rw [hs.cached entry hmem, hname]
  · have hsame : ∀ entry : CachedCrontab τ, entry.model.id = id →
        (entry ∈ (s.cache.removeByName (calls i).name).byId ↔ entry ∈ s.cache.byId) := by
      intro entry hentry
      rw [s.cache.mem_removeByName]
      exact and_iff_left_of_imp fun hmem hname => hremoved ⟨entry, hmem, hentry, hname⟩
    rcases hs.settled id with hsettled | ⟨j, hj⟩
    · exact .inl fun entry hentry => (hsame entry hentry).trans (hsettled entry hentry)
    · by_cases hji : j = i
      · subst hji
        simp only [Covers, hpc] at hj
        exact .inl (hgone id hj.1 hj.2)
      · exact .inr ⟨j, hji, hj⟩

theorem afterCheck_sound (hpc : (s.pc i).isPending = false) (h : afterCheck calls s i = some t) :
    Sound parseSchedule parseType calls t := by
  unfold afterCheck at h
  split at h
  next =>
    split at h
    next hinsert =>
      cases h
      exact insert_sound hs hpc hinsert
    next =>
      cases h
      exact hs.goto hpc rfl
  next =>
    split at h
    · cases h
      exact hs.goto hpc rfl
    · cases h
      exact hs.goto hpc rfl
  next hcall =>
    split at h
    · cases h
      exact delete_sound hs hcall hpc
    · cases h
      exact hs.goto hpc rfl
  next => cases h

theorem step_sound {a : Action ι} (htimely : Timely calls s a) (h : step parseSchedule parseType calls s a = some t) :
    Sound parseSchedule parseType calls t := by
  cases a with
  | refuse i =>
    simp only [step] at h
    split at h
    · cases h
    next hpc =>
      cases h
      exact hs.goto (Bool.eq_false_iff.mpr hpc) rfl
  | proceed i =>
    simp only [Timely] at htimely
    cases hpc : s.pc i with
    | start =>
      have hidle : (s.pc i).isPending = false := by rw [hpc]; rfl
      simp only [step, hpc] at h
      split at h <;> cases h <;> exact hs.goto hidle rfl
    | checked =>
      simp only [step, hpc] at h
      exact afterCheck_sound hs (by rw [hpc]; rfl) h
    | found id =>
      have hidle : (s.pc i).isPending = false := by rw [hpc]; rfl
      simp only [step, hpc] at h
      split at h
      · cases h
        exact updateRow_sound hs id _ hidle
      · cases h
        exact updateRow_sound hs id _ hidle
      · cases h
      · cases h
    | upsert row =>
      simp only [step, hpc] at h htimely
      cases h
      exact upsert_sound hs hpc htimely
    | removeByName =>
      simp only [step, hpc] at h htimely
      cases h
      exact removeByName_sound hs hpc htimely
    | finished =>
      simp only [step, hpc] at h
      cases h

end Steps

/-- The calls have not begun, and the cache is as the table is. -/
structure Fresh (parseSchedule : String → Option Schedule) (parseType : Json → Option τ) (s : State ι τ) : Prop where
  pc : ∀ i, s.pc i = .start
  coherent : Coherent parseSchedule parseType s
  named : ∀ id, s.named id = (s.table.rows.find? fun row => row.id = id).map Model.name

omit [DecidableEq ι] in
theorem Fresh.sound (h : Fresh parseSchedule parseType s) : Sound parseSchedule parseType calls s := by
  have hrows : ∀ row ∈ s.table.rows, s.named row.id = some row.name := by
    intro row hrow
    have hfound : (s.table.rows.find? fun r => r.id = row.id) = some row := by
      cases hfind : s.table.rows.find? fun r => r.id = row.id with
      | none => exact absurd (List.find?_eq_none.mp hfind row hrow) (by simp)
      | some r =>
        rw [List.inj_on_of_nodup_map s.table.ids (List.mem_of_find?_eq_some hfind) hrow
          (by simpa using List.find?_some hfind)]
    rw [h.named, hfound, Option.map_some]
  refine ⟨fun id name hname => ?_, hrows, fun i row hpc => ?_, fun entry hentry => ?_, fun id => .inl ?_⟩
  · rw [h.named] at hname
    obtain ⟨row, hrow, -⟩ := Option.map_eq_some_iff.mp hname
    have hid : row.id = id := by simpa using List.find?_some hrow
    rw [← hid]
    exact s.table.below row (List.mem_of_find?_eq_some hrow)
  · rw [h.pc i] at hpc
    cases hpc
  · obtain ⟨row, hrow, hparse⟩ := (h.coherent entry).mp hentry
    rw [parseOne_model hparse]
    exact hrows row hrow
  · exact fun entry _ => h.coherent entry

/-- **The crontab cache is coherent**, once no cache step is to come, after every run of timely
cache steps: it holds the rows that parse as they are, and of enabled entries only enabled rows. -/
theorem coherent_of_timely (parseSchedule : String → Option Schedule) (parseType : Json → Option τ)
    (calls : ι → Call) {s t : State ι τ} (hs : Fresh parseSchedule parseType s) (actions : List (Action ι))
    (htimely : Along (step parseSchedule parseType calls) (Timely calls) s actions)
    (hrun : run (step parseSchedule parseType calls) s actions = some t)
    (hdone : ∀ i, (t.pc i).isPending = false) :
    Coherent parseSchedule parseType t ∧
      ∀ entry ∈ t.cache.getEnabledEntries, entry.model ∈ t.table.rows ∧ entry.model.enable = true := by
  have ht : Sound parseSchedule parseType calls t :=
    run_invariant (fun _ _ _ hs htimely h => step_sound hs htimely h) hs.sound htimely hrun
  have hcoherent : Coherent parseSchedule parseType t := by
    intro entry
    rcases ht.settled entry.model.id with hsettled | ⟨j, hj⟩
    · exact hsettled entry rfl
    · have hpending := hj.isPending
      rw [hdone j] at hpending
      cases hpending
  refine ⟨hcoherent, fun entry hentry => ?_⟩
  obtain ⟨hmem, henabled⟩ := List.mem_filter.mp hentry
  obtain ⟨row, hrow, hparse⟩ := (hcoherent entry).mp hmem
  exact ⟨(parseOne_model hparse).symm ▸ hrow, henabled⟩

end Machine

/-! ### A job that comes back -/

def everySecond : Schedule where
  fires := Set.univ
  after t := some (t / second + 1)
  after_eq_some t s := by
    rw [Option.some.injEq]
    constructor
    · intro h
      refine ⟨trivial, ?_, fun r _ hr => ?_⟩ <;> unfold second at * <;> omega
    · intro h
      obtain ⟨-, hlt, hmin⟩ := h
      have hle := hmin (t / second + 1) trivial (by unfold second; omega)
      unfold second at *
      omega

def backupJob : Model := ⟨1, "backup", true, "* * * * * *", .null, none⟩

/-- One enabled job, in the table and in the cache. -/
def oneJob : State Bool Unit where
  table := ⟨[backupJob], List.nodup_singleton _, List.nodup_singleton _, 2, fun row hrow => by
    rw [List.mem_singleton.mp hrow]
    decide⟩
  cache := ⟨[⟨backupJob, everySecond, ()⟩], List.nodup_singleton _, fun _ => none⟩
  pc := fun _ => .start
  named := fun id => if id = 1 then some "backup" else none

/-- One call edits the job, the other deletes it. -/
def editAndDelete (deletes : Bool) : Call := if deletes then .delete "backup" else .edit "backup" "0 0 * * * *" .null

theorem oneJob_fresh : Fresh (fun _ => some everySecond) (fun _ => some ()) oneJob where
  pc _ := rfl
  coherent entry := by simp [oneJob, parseOne, eq_comm]
  named id := by
    by_cases hid : id = 1 <;> simp [oneJob, backupJob, hid, eq_comm]

/-- The row is deleted while the edit is to carry it over; the delete's cache step comes last. -/
private def deleteLast : List (Action Bool) :=
  [.proceed false, .proceed false, .proceed true, .proceed true, .proceed false, .proceed true]

theorem coherent_of_timely_overlap :
    ∃ t, run (step (fun _ => some everySecond) (fun _ => some ()) editAndDelete) oneJob deleteLast = some t ∧
      Coherent (fun _ => some everySecond) (fun _ => some ()) t := by
  have htimely : Along (step (fun _ => some everySecond) (fun _ => some ()) editAndDelete) (Timely editAndDelete) oneJob
      deleteLast := by
    refine .cons rfl trivial (.cons rfl trivial (.cons rfl trivial (.cons rfl trivial
      (.cons rfl (.inr ⟨true, nofun, rfl, nofun⟩) (.cons rfl ?_ trivial)))))
    exact fun entry _ _ => .inl nofun
  refine ⟨_, rfl, (coherent_of_timely _ _ editAndDelete oneJob_fresh _ htimely rfl fun i => ?_).1⟩
  cases i <;> rfl

/-- The edit writes the row, the delete removes row and entry, and then the edit puts its row
into the cache: the deleted job goes on firing. -/
theorem deleted_job_cached :
    Fresh (fun _ => some everySecond) (fun _ => some ()) oneJob ∧
      ∃ t, run (step (fun _ => some everySecond) (fun _ => some ()) editAndDelete) oneJob
          [.proceed false, .proceed false, .proceed true, .proceed true, .proceed true, .proceed false] = some t ∧
        (∀ i, (t.pc i).isPending = false) ∧ t.table.rows.length = 0 ∧
        t.cache.getEnabledEntries.map (fun entry => entry.model.name) = ["backup"] :=
  ⟨oneJob_fresh, by decide +kernel⟩

end NodeGet.Crontab.Coherence
