import Mathlib.Data.List.Nodup
import NodeGet.Core.Error
import NodeGet.Data.Table
import NodeGet.Monitoring.LastCache

/-! The numbers of agents (`ng-monitoring/src/monitoring_uuid_cache.rs`): the table
`monitoring_uuid` and its cache, two maps that are written together under one lock.

`get_or_insert`, `soft_delete` and `reload` take no lock between a database statement and
the write to the cache, so the steps of concurrent calls interleave: a call is a place in
its own code (`Pc`), a step of it is one statement or one access to the cache, and a run is
any list of turns. A turn says whose step it is and how the database answers; a statement
that fails changes nothing. The table numbers its rows with ids of 32 bits, the cache and
the monitoring tables have 16: a number that does not fit is refused, never wrapped around.

Rows are never deleted and keep their id, so whatever a call holds of a row stays true of
the table (`Table.Extends`), and that is all the two maps need (`Cache.Agrees`). -/
namespace NodeGet.Monitoring.UuidCache
open NodeGet.Core NodeGet.Machine Function

/-! ### Table and cache -/

/-- A row of `monitoring_uuid`. -/
structure Model where
  id : Int32
  uuid : Uuid
  softDelete : Bool

structure Table where
  rows : List Model
  ids : (rows.map (·.id)).Nodup
  uuids : (rows.map (·.uuid)).Nodup

namespace Table

def empty : Table := ⟨[], List.nodup_nil, List.nodup_nil⟩

def find (t : Table) (uuid : Uuid) : Option Model := Data.Table.lookup Model.uuid t.rows uuid

def insert (t : Table) (row : Model) (hid : ¬ ∃ r ∈ t.rows, r.id = row.id)
    (huuid : ¬ ∃ r ∈ t.rows, r.uuid = row.uuid) : Table where
  rows := row :: t.rows
  ids := List.nodup_cons.mpr ⟨fun h => hid (List.mem_map.mp h), t.ids⟩
  uuids := List.nodup_cons.mpr ⟨fun h => huuid (List.mem_map.mp h), t.uuids⟩

/-- `UPDATE monitoring_uuid SET soft_delete = … WHERE id = …` -/
def setSoftDelete (t : Table) (id : Int32) (softDelete : Bool) : Table where
  rows := t.rows.map fun r => if r.id = id then {r with softDelete} else r
  ids := by
    rw [List.map_map, List.map_congr_left fun r _ => show _ = r.id from ?_]
    · exact t.ids
    · simp only [Function.comp]
      split <;> rfl
  uuids := by
    rw [List.map_map, List.map_congr_left fun r _ => show _ = r.uuid from ?_]
    · exact t.uuids
    · simp only [Function.comp]
      split <;> rfl

/-- The table has a row for `uuid`, and `id` is its number. -/
def Holds (t : Table) (uuid : Uuid) (id : Int16) : Prop :=
  ∃ row ∈ t.rows, row.uuid = uuid ∧ row.id.toInt = id.toInt

/-- Every row is still there under its id, perhaps with another flag. -/
def Extends (t t' : Table) : Prop := ∀ row ∈ t.rows, ∃ row' ∈ t'.rows, row'.id = row.id ∧ row'.uuid = row.uuid

end Table

/-- The id as the cache has it, unless it is out of range. -/
def tryIdI16 (modelId : Int32) : Option Int16 :=
  if -32768 ≤ modelId.toInt ∧ modelId.toInt ≤ 32767 then some (Int16.ofInt modelId.toInt) else none

structure Cache where
  byUuid : Uuid → Option (Int16 × Bool)
  byId : Int16 → Option (Uuid × Bool)

namespace Cache

def empty : Cache := ⟨fun _ => none, fun _ => none⟩

def insert (c : Cache) (uuid : Uuid) (id : Int16) (softDelete : Bool) : Cache where
  byUuid := update c.byUuid uuid (some (id, softDelete))
  byId := update c.byId id (some (uuid, softDelete))

def insertModel (c : Cache) (model : Model) : Cache :=
  match tryIdI16 model.id with
  | none => c
  | some id => c.insert model.uuid id model.softDelete

/-- `build_cache`, and what `reload_from_models` puts in place of the maps. -/
def ofModels (models : List Model) : Cache := models.foldl insertModel empty

def getId (c : Cache) (uuid : Uuid) : Option Int16 := (c.byUuid uuid).map (·.1)

/-- The agent is known and not deleted. -/
def isActive (c : Cache) (uuid : Uuid) : Bool := (c.byUuid uuid).any fun entry => !entry.2

/-- The maps are inverse to each other and have the table's numbers. -/
structure Agrees (c : Cache) (t : Table) : Prop where
  inverse : ∀ uuid id softDelete, c.byUuid uuid = some (id, softDelete) ↔ c.byId id = some (uuid, softDelete)
  held : ∀ uuid id softDelete, c.byUuid uuid = some (id, softDelete) → t.Holds uuid id

end Cache

/-! ### Calls -/

inductive Call where
  | getOrInsert (uuid : Uuid)
  | softDelete (uuid : Uuid)
  | reload

def Call.agent : Call → Option Uuid
  | .getOrInsert uuid | .softDelete uuid => some uuid
  | .reload => none

inductive Reply where
  | id (result : Except NodegetError Int16)
  | deleted (result : Except NodegetError Bool)
  | reloaded (result : Except String Unit)

/-- What a call does next. `update` has read a row and writes its flag, `store` writes the
cache, `swap` has loaded the table and replaces the cache. -/
inductive Pc where
  | start
  | find
  | insert
  | requery
  | update (row : Model) (id : Int16) (softDelete : Bool) (onFailure : String)
  | store (id : Int16) (softDelete : Bool)
  | swap (loaded : Table)
  | finished (reply : Reply)

/-- How the database answers: it executes the statement, giving a row it inserts the id
`lastInsertId`, or it fails, or the server has no connection to it. -/
inductive Answer where
  | ok (lastInsertId : Int32)
  | failure (text : String)
  | unavailable

def notInitialized : String := "Database connection not initialized"

def exceedsRange (row : Model) (uuid : Uuid) : NodegetError :=
  .databaseError ("monitoring_uuid id " ++ toString row.id.toInt ++ " for " ++ Uuid.text uuid ++
    " exceeds i16 range; migrate uuid_id columns to i32 (see REVIEW H1)")

def exceedsRangeAfterInsert (uuid : Uuid) : NodegetError :=
  .databaseError ("monitoring_uuid id for " ++ Uuid.text uuid ++
    " exceeds i16 range after insert/conflict; migrate uuid_id columns to i32 (see REVIEW H1)")

/-- How `get_or_insert` goes on with a row it has read: a deleted agent comes back. -/
def resurrect (row : Model) (outOfRange : NodegetError) (onFailure : String) : Pc :=
  match tryIdI16 row.id with
  | none => .finished (.id (.error outOfRange))
  | some id => if row.softDelete then .update row id false onFailure else .store id false

section Steps
variable (uniqueViolation : String) (t : Table) (c : Cache) (answer : Answer)

def getOrInsert (uuid : Uuid) : Pc → Option (Table × Cache × Pc)
  | .start =>
    match c.byUuid uuid with
    | some (id, false) => some (t, c, .finished (.id (.ok id)))
    | _ => some (t, c, .find)
  | .find =>
    match answer with
    | .unavailable => some (t, c, .finished (.id (.error (.databaseError notInitialized))))
    | .failure e => some (t, c, .finished (.id (.error (.databaseError ("Failed to query monitoring_uuid: " ++ e)))))
    | .ok _ =>
      match t.find uuid with
      | some row => some (t, c, resurrect row (exceedsRange row uuid) "Failed to resurrect monitoring_uuid: ")
      | none => some (t, c, .insert)
  | .insert =>
    match answer with
    | .unavailable => none
    | .failure e => some (t, c, .finished (.id (.error (.databaseError ("Failed to insert monitoring_uuid: " ++ e)))))
    | .ok lastInsertId =>
      if huuid : ∃ r ∈ t.rows, r.uuid = uuid then some (t, c, .requery)
      else if hid : ∃ r ∈ t.rows, r.id = lastInsertId then none
      else some (t.insert ⟨lastInsertId, uuid, false⟩ hid huuid, c,
        match tryIdI16 lastInsertId with
        | none => .finished (.id (.error (exceedsRangeAfterInsert uuid)))
        | some id => .store id false)
  | .requery =>
    match answer with
    | .unavailable => none
    | .failure e =>
      some (t, c, .finished (.id (.error (.databaseError ("Failed to query monitoring_uuid after unique conflict: " ++ e)))))
    | .ok _ =>
      match t.find uuid with
      | some row =>
        some (t, c, resurrect row (exceedsRangeAfterInsert uuid) "Failed to resurrect monitoring_uuid after conflict: ")
      | none =>
        some (t, c, .finished (.id (.error (.databaseError
          ("monitoring_uuid insert conflicted but row not found: " ++ uniqueViolation)))))
  | .update row id softDelete onFailure =>
    match answer with
    | .unavailable => none
    | .failure e => some (t, c, .finished (.id (.error (.databaseError (onFailure ++ e)))))
    | .ok _ => some (t.setSoftDelete row.id softDelete, c, .store id softDelete)
  | .store id softDelete => some (t, c.insert uuid id softDelete, .finished (.id (.ok id)))
  | .swap _ | .finished _ => none

def softDelete (uuid : Uuid) : Pc → Option (Table × Cache × Pc)
  | .start =>
    match answer with
    | .unavailable => some (t, c, .finished (.deleted (.error (.databaseError notInitialized))))
    | .failure e =>
      some (t, c, .finished (.deleted (.error (.databaseError ("Failed to query monitoring_uuid for soft_delete: " ++ e)))))
    | .ok _ =>
      match t.find uuid with
      | none => some (t, c, .finished (.deleted (.ok false)))
      | some row =>
        -- an agent that is deleted already is not looked up in the cache
        if row.softDelete then some (t, c, .finished (.deleted (.ok true)))
        else
          match tryIdI16 row.id with
          | none => some (t, c, .finished (.deleted (.error (exceedsRange row uuid))))
          | some id => some (t, c, .update row id true "Failed to soft_delete monitoring_uuid: ")
  | .update row id softDelete onFailure =>
    match answer with
    | .unavailable => none
    | .failure e => some (t, c, .finished (.deleted (.error (.databaseError (onFailure ++ e)))))
    | .ok _ => some (t.setSoftDelete row.id softDelete, c, .store id softDelete)
  | .store id softDelete => some (t, c.insert uuid id softDelete, .finished (.deleted (.ok true)))
  | .find | .insert | .requery | .swap _ | .finished _ => none

def reload : Pc → Option (Table × Cache × Pc)
  | .start =>
    match answer with
    | .unavailable => some (t, c, .finished (.reloaded (.error (NodegetError.display (.configNotFound notInitialized)))))
    | .failure e => some (t, c, .finished (.reloaded (.error ("Failed to load from DB: " ++ e))))
    | .ok _ => some (t, c, .swap t)
  | .swap loaded => some (t, Cache.ofModels loaded.rows, .finished (.reloaded (.ok ())))
  | .find | .insert | .requery | .update .. | .store .. | .finished _ => none

def advance : Call → Pc → Option (Table × Cache × Pc)
  | .getOrInsert uuid => getOrInsert uniqueViolation t c answer uuid
  | .softDelete uuid => softDelete t c answer uuid
  | .reload => reload t c answer

end Steps

structure State (ι : Type*) where
  table : Table
  cache : Cache
  pc : ι → Pc

structure Turn (ι : Type*) where
  call : ι
  answer : Answer

variable {ι : Type*} [DecidableEq ι] (uniqueViolation : String) (calls : ι → Call)

/-- A started server: the cache is built from the table and no call has begun. -/
def State.initial (t : Table) : State ι := ⟨t, Cache.ofModels t.rows, fun _ => .start⟩

def step (s : State ι) (turn : Turn ι) : Option (State ι) :=
  (advance uniqueViolation s.table s.cache turn.answer (calls turn.call) (s.pc turn.call)).map fun (t, c, pc) =>
    ⟨t, c, update s.pc turn.call pc⟩

/-! ### What a step can do -/

/-- The call is about to write the cache. -/
def Pc.Writing : Pc → Prop
  | .store .. | .swap _ => True
  | _ => False

/-- The call holds nothing of the table. -/
def Pc.Bare : Pc → Prop
  | .find | .insert | .requery => True
  | .finished (.id (.ok _)) => False
  | .finished _ => True
  | _ => False

/-- A place a call comes to with a row it has read, keeping the row's flag or turning it. -/
def Pc.HasRead (row : Model) (id : Int16) (pc : Pc) : Prop :=
  (∃ onFailure, pc = .update row id (!row.softDelete) onFailure) ∨ pc = .store id row.softDelete

/-- What one step of a call about `agent` can do to the table, the cache and its own place. -/
inductive Step (agent : Option Uuid) (answer : Answer) (t : Table) (c : Cache) : Pc → Table → Cache → Pc → Prop where
  | turn {pc pc' : Pc} (hpc : ¬ pc.Writing) (hbare : pc'.Bare) : Step agent answer t c pc t c pc'
  | served {pc : Pc} {uuid : Uuid} {id : Int16} (hpc : ¬ pc.Writing) (hagent : agent = some uuid)
      (hhit : c.byUuid uuid = some (id, false)) : Step agent answer t c pc t c (.finished (.id (.ok id)))
  | read {pc pc' : Pc} {row : Model} {id : Int16} (hpc : ¬ pc.Writing) (hagent : agent = some row.uuid)
      (hrow : row ∈ t.rows) (hid : row.id.toInt = id.toInt) (hread : pc'.HasRead row id) : Step agent answer t c pc t c pc'
  | inserted {pc pc' : Pc} (row : Model) (hpc : ¬ pc.Writing) (hagent : agent = some row.uuid)
      (hnew : ¬ ∃ r ∈ t.rows, r.id = row.id) (huuid : ¬ ∃ r ∈ t.rows, r.uuid = row.uuid)
      (hpc' : pc'.Bare ∨ ∃ id, row.id.toInt = id.toInt ∧ pc' = .store id row.softDelete) :
      Step agent answer t c pc (t.insert row hnew huuid) c pc'
  | updated {row : Model} {id : Int16} {softDelete : Bool} {onFailure : String} {lastInsertId : Int32}
      (hanswer : answer = .ok lastInsertId) :
      Step agent answer t c (.update row id softDelete onFailure) (t.setSoftDelete row.id softDelete) c (.store id softDelete)
  | stored {uuid : Uuid} {id : Int16} {softDelete : Bool} {pc' : Pc} (hagent : agent = some uuid)
      (hpc' : pc'.Bare ∨ pc' = .finished (.id (.ok id))) :
      Step agent answer t c (.store id softDelete) t (c.insert uuid id softDelete) pc'
  | loaded {pc : Pc} (hpc : ¬ pc.Writing) : Step agent answer t c pc t c (.swap t)
  | swapped {table : Table} {pc' : Pc} (hbare : pc'.Bare) :
      Step agent answer t c (.swap table) t (Cache.ofModels table.rows) pc'

variable {id : Int16} {t : Table} {row : Model} {s s' : State ι} {turn : Turn ι}

theorem tryIdI16_eq_some_iff {modelId : Int32} : tryIdI16 modelId = some id ↔ modelId.toInt = id.toInt := by
  unfold tryIdI16
  constructor
  · intro h
    obtain ⟨⟨hlo, hhi⟩, heq⟩ := Option.ite_none_right_eq_some.mp h
    rw [← Option.some.inj heq]
    exact (Int16.toInt_ofInt_of_le hlo (by omega)).symm
  · intro h
    have hlo := id.le_toInt
    have hhi := id.toInt_lt
    rw [h, if_pos ⟨by omega, by omega⟩, Int16.ofInt_toInt]

theorem Table.find_eq_some_iff {uuid : Uuid} : t.find uuid = some row ↔ row ∈ t.rows ∧ row.uuid = uuid :=
  Data.Table.lookup_eq_some_iff t.uuids

/-- A row that `get_or_insert` has read is refused, brought back or stored as it is. -/
theorem resurrect_cases (row : Model) (outOfRange : NodegetError) (onFailure : String) :
    (resurrect row outOfRange onFailure).Bare ∨
      ∃ id, row.id.toInt = id.toInt ∧ (resurrect row outOfRange onFailure).HasRead row id := by
  unfold resurrect
  cases hid : tryIdI16 row.id with
  | none => exact .inl trivial
  | some id =>
    refine .inr ⟨id, tryIdI16_eq_some_iff.mp hid, ?_⟩
    cases hdel : row.softDelete with
    | false => exact .inr (by simp [hdel])
    | true => exact .inl ⟨onFailure, by simp [hdel]⟩

section
variable {t t' : Table} {c c' : Cache} {answer : Answer} {uuid : Uuid} {pc pc' : Pc}

theorem step_resurrect (hpc : ¬ pc.Writing) (hfind : t.find uuid = some row) (outOfRange : NodegetError)
    (onFailure : String) : Step (some uuid) answer t c pc t c (resurrect row outOfRange onFailure) := by
  obtain ⟨hrow, rfl⟩ := Table.find_eq_some_iff.mp hfind
  obtain hbare | ⟨id, hid, hread⟩ := resurrect_cases row outOfRange onFailure
  · exact .turn hpc hbare
  · exact .read hpc rfl hrow hid hread

theorem getOrInsert_step (h : getOrInsert uniqueViolation t c answer uuid pc = some (t', c', pc')) :
    Step (some uuid) answer t c pc t' c' pc' := by
  cases pc with
  | start =>
    simp only [getOrInsert] at h
    split at h
    next number hhit => cases h; exact .served id rfl hhit
    next => cases h; exact .turn id trivial
  | find =>
    simp only [getOrInsert] at h
    split at h
    next => cases h; exact .turn id trivial
    next => cases h; exact .turn id trivial
    next =>
      split at h
      next row hfind => cases h; exact step_resurrect id hfind _ _
      next => cases h; exact .turn id trivial
  | insert =>
    simp only [getOrInsert] at h
    split at h
    next => cases h
    next => cases h; exact .turn id trivial
    next lastInsertId =>
      split at h
      next => cases h; exact .turn id trivial
      next huuid =>
        split at h
        next => cases h
        next hid =>
          cases h
          refine .inserted ⟨lastInsertId, uuid, false⟩ id rfl hid huuid ?_
          split
          next => exact .inl trivial
          next id hfits => exact .inr ⟨id, tryIdI16_eq_some_iff.mp hfits, rfl⟩
  | requery =>
    simp only [getOrInsert] at h
    split at h
    next => cases h
    next => cases h; exact .turn id trivial
    next =>
      split at h
      next row hfind => cases h; exact step_resurrect id hfind _ _
      next => cases h; exact .turn id trivial
  | update row id softDelete onFailure =>
    simp only [getOrInsert] at h
    split at h
    next => cases h
    next => cases h; exact .turn (fun h => h) trivial
    next => cases h; exact .updated rfl
  | store id softDelete => cases h; exact .stored rfl (.inr rfl)
  | swap loaded => cases h
  | finished reply => cases h

theorem softDelete_step (h : softDelete t c answer uuid pc = some (t', c', pc')) :
    Step (some uuid) answer t c pc t' c' pc' := by
  cases pc with
  | start =>
    simp only [softDelete] at h
    split at h
    next => cases h; exact .turn id trivial
    next => cases h; exact .turn id trivial
    next =>
      split at h
      next => cases h; exact .turn id trivial
      next row hfind =>
        obtain ⟨hrow, rfl⟩ := Table.find_eq_some_iff.mp hfind
        split at h
        next => cases h; exact .turn id trivial
        next hdel =>
          split at h
          next => cases h; exact .turn id trivial
          next number hid =>
            cases h
            have hflag : true = !row.softDelete := by simp [hdel]
            exact .read id rfl hrow (tryIdI16_eq_some_iff.mp hid) (.inl ⟨_, by rw [← hflag]⟩)
  | update row id softDelete onFailure =>
    simp only [UuidCache.softDelete] at h
    split at h
    next => cases h
    next => cases h; exact .turn (fun h => h) trivial
    next => cases h; exact .updated rfl
  | store id softDelete => cases h; exact .stored rfl (.inl trivial)
  | find => cases h
  | insert => cases h
  | requery => cases h
  | swap loaded => cases h
  | finished reply => cases h

theorem reload_step (h : reload t c answer pc = some (t', c', pc')) : Step none answer t c pc t' c' pc' := by
  cases pc with
  | start =>
    simp only [reload] at h
    split at h
    next => cases h; exact .turn id trivial
    next => cases h; exact .turn id trivial
    next => cases h; exact .loaded id
  | swap loaded => cases h; exact .swapped trivial
  | find => cases h
  | insert => cases h
  | requery => cases h
  | update row id softDelete onFailure => cases h
  | store id softDelete => cases h
  | finished reply => cases h

theorem advance_step {call : Call} (h : advance uniqueViolation t c answer call pc = some (t', c', pc')) :
    Step call.agent answer t c pc t' c' pc' := by
  cases call with
  | getOrInsert uuid => exact getOrInsert_step uniqueViolation h
  | softDelete uuid => exact softDelete_step h
  | reload => exact reload_step h

end

/-- A step of the server is a step of the call whose turn it is. -/
theorem step_cases (h : step uniqueViolation calls s turn = some s') :
    ∃ pc', Step (calls turn.call).agent turn.answer s.table s.cache (s.pc turn.call) s'.table s'.cache pc' ∧
      s'.pc = update s.pc turn.call pc' := by
  obtain ⟨⟨t, c, pc'⟩, hadvance, rfl⟩ := Option.map_eq_some_iff.mp h
  exact ⟨pc', advance_step uniqueViolation hadvance, rfl⟩

/-! ### The table only grows -/

namespace Table
variable {t t' : Table} {uuid : Uuid} {id : Int16}

theorem Extends.refl (t : Table) : t.Extends t := fun row hrow => ⟨row, hrow, rfl, rfl⟩

theorem Extends.trans {t'' : Table} (h : t.Extends t') (h' : t'.Extends t'') : t.Extends t'' := by
  intro row hrow
  obtain ⟨row', hrow', hid, huuid⟩ := h row hrow
  obtain ⟨row'', hrow'', hid', huuid'⟩ := h' row' hrow'
  exact ⟨row'', hrow'', hid'.trans hid, huuid'.trans huuid⟩

theorem insert_extends (row : Model) (hid : ¬ ∃ r ∈ t.rows, r.id = row.id)
    (huuid : ¬ ∃ r ∈ t.rows, r.uuid = row.uuid) : t.Extends (t.insert row hid huuid) :=
  fun r hr => ⟨r, List.mem_cons_of_mem _ hr, rfl, rfl⟩

theorem setSoftDelete_extends (t : Table) (rowId : Int32) (softDelete : Bool) :
    t.Extends (t.setSoftDelete rowId softDelete) := by
  intro row hrow
  refine ⟨_, List.mem_map.mpr ⟨row, hrow, rfl⟩, ?_⟩
  split <;> exact ⟨rfl, rfl⟩

theorem Holds.mono (h : t.Holds uuid id) (hext : t.Extends t') : t'.Holds uuid id := by
  obtain ⟨row, hrow, huuid, hid⟩ := h
  obtain ⟨row', hrow', hid', huuid'⟩ := hext row hrow
  exact ⟨row', hrow', huuid'.trans huuid, by rw [hid', hid]⟩

variable {row row' : Model}

theorem eq_of_uuid_eq (hrow : row ∈ t.rows) (hrow' : row' ∈ t.rows) (h : row.uuid = row'.uuid) : row = row' :=
  List.inj_on_of_nodup_map t.uuids hrow hrow' h

theorem eq_of_id_eq (hrow : row ∈ t.rows) (hrow' : row' ∈ t.rows) (h : row.id = row'.id) : row = row' :=
  List.inj_on_of_nodup_map t.ids hrow hrow' h

/-- One number for each agent. -/
theorem Holds.id_unique {id' : Int16} (h : t.Holds uuid id) (h' : t.Holds uuid id') : id = id' := by
  obtain ⟨row, hrow, huuid, hid⟩ := h
  obtain ⟨row', hrow', huuid', hid'⟩ := h'
  obtain rfl := eq_of_uuid_eq hrow hrow' (huuid.trans huuid'.symm)
  exact Int16.toInt_inj.mp (hid.symm.trans hid')

/-- One agent for each number: this is where a number that wrapped around would break. -/
theorem Holds.uuid_unique {uuid' : Uuid} (h : t.Holds uuid id) (h' : t.Holds uuid' id) : uuid = uuid' := by
  obtain ⟨row, hrow, huuid, hid⟩ := h
  obtain ⟨row', hrow', huuid', hid'⟩ := h'
  obtain rfl := eq_of_id_eq hrow hrow' (Int32.toInt_inj.mp (hid.trans hid'.symm))
  exact huuid.symm.trans huuid'

end Table

/-! ### The maps stay inverse -/

namespace Cache
variable {c : Cache} {t t' : Table}

theorem Agrees.mono (h : c.Agrees t) (hext : t.Extends t') : c.Agrees t' :=
  ⟨h.inverse, fun uuid id softDelete hc => (h.held uuid id softDelete hc).mono hext⟩

theorem empty_agrees (t : Table) : empty.Agrees t := ⟨fun _ _ _ => by simp [empty], fun _ _ _ h => by cases h⟩

/-- With the table's number for its agent, an entry replaces the two halves of one entry or of none. -/
theorem Agrees.insert (h : c.Agrees t) {uuid : Uuid} (hheld : t.Holds uuid id) (softDelete : Bool) :
    (c.insert uuid id softDelete).Agrees t := by
  have hother : ∀ v i d, c.byUuid v = some (i, d) → (v = uuid ↔ i = id) := by
    intro v i d hv
    have hvi := h.held v i d hv
    constructor
    · intro heq
      exact (heq ▸ hvi).id_unique hheld
    · intro heq
      exact (heq ▸ hvi).uuid_unique hheld
  constructor
  · intro v i d
    simp only [Cache.insert, update_apply]
    by_cases hv : v = uuid
    · by_cases hi : i = id
      · subst hv hi
        simp only [if_true, Option.some.injEq, Prod.mk.injEq, true_and]
      · rw [if_pos hv, if_neg hi]
        constructor
        · intro he
          cases he
          exact absurd rfl hi
        · intro he
          exact absurd ((hother v i d ((h.inverse v i d).mpr he)).mp hv) hi
    · by_cases hi : i = id
      · rw [if_neg hv, if_pos hi]
        constructor
        · intro he
          exact absurd ((hother v i d he).mpr hi) hv
        · intro he
          cases he
          exact absurd rfl hv
      · rw [if_neg hv, if_neg hi]
        exact h.inverse v i d
  · intro v i d hv
    simp only [Cache.insert, update_apply] at hv
    by_cases huuid : v = uuid
    · rw [if_pos huuid] at hv
      cases hv
      exact huuid ▸ hheld
    · rw [if_neg huuid] at hv
      exact h.held v i d hv

/-- A cache filled from rows that the table still has. -/
theorem ofModels_agrees {models : List Model}
    (h : ∀ model ∈ models, ∃ row ∈ t.rows, row.id = model.id ∧ row.uuid = model.uuid) : (ofModels models).Agrees t := by
  suffices hfold : ∀ c : Cache, c.Agrees t → (models.foldl insertModel c).Agrees t from hfold empty (empty_agrees t)
  induction models with
  | nil => exact fun c hc => hc
  | cons model rest ih =>
    intro c hc
    refine ih (fun m hm => h m (List.mem_cons_of_mem _ hm)) _ ?_
    unfold insertModel
    cases hid : tryIdI16 model.id with
    | none => exact hc
    | some id =>
      obtain ⟨row, hrow, hrowId, huuid⟩ := h model List.mem_cons_self
      refine hc.insert ⟨row, hrow, huuid, ?_⟩ model.softDelete
      rw [hrowId]
      exact tryIdI16_eq_some_iff.mp hid

end Cache

/-- What a call holds of the table is true of it. -/
def Pc.Fits (t : Table) (agent : Option Uuid) : Pc → Prop
  | .update row id _ _ => row.id.toInt = id.toInt ∧ agent = some row.uuid ∧ t.Holds row.uuid id
  | .store id _ | .finished (.id (.ok id)) => ∃ uuid, agent = some uuid ∧ t.Holds uuid id
  | .swap loaded => loaded.Extends t
  | _ => True

section
variable {t t' : Table} {c c' : Cache} {agent : Option Uuid} {answer : Answer} {pc pc' : Pc}

theorem Pc.Bare.fits (h : pc.Bare) : pc.Fits t agent := by
  cases pc with
  | finished reply =>
    cases reply with
    | id result =>
      cases result with
      | error e => trivial
      | ok id => exact h.elim
    | deleted result => trivial
    | reloaded result => trivial
  | find => trivial
  | insert => trivial
  | requery => trivial
  | start => exact h.elim
  | update row id softDelete onFailure => exact h.elim
  | store id softDelete => exact h.elim
  | swap loaded => exact h.elim

theorem Pc.Fits.mono (h : pc.Fits t agent) (hext : t.Extends t') : pc.Fits t' agent := by
  unfold Pc.Fits at h ⊢
  split at h
  next => exact ⟨h.1, h.2.1, h.2.2.mono hext⟩
  next => exact ⟨h.choose, h.choose_spec.1, h.choose_spec.2.mono hext⟩
  next => exact ⟨h.choose, h.choose_spec.1, h.choose_spec.2.mono hext⟩
  next => exact h.trans hext
  next => trivial

theorem Step.extends (h : Step agent answer t c pc t' c' pc') : t.Extends t' := by
  cases h with
  | turn => exact .refl t
  | served => exact .refl t
  | read => exact .refl t
  | inserted row _ _ hnew huuid => exact Table.insert_extends _ hnew huuid
  | updated => exact t.setSoftDelete_extends _ _
  | stored => exact .refl t
  | loaded => exact .refl t
  | swapped => exact .refl t

theorem Step.agrees (h : Step agent answer t c pc t' c' pc') (hc : c.Agrees t) (hpc : pc.Fits t agent) : c'.Agrees t' := by
  cases h with
  | turn => exact hc
  | served => exact hc
  | read => exact hc
  | inserted row _ _ hnew huuid => exact hc.mono (Table.insert_extends _ hnew huuid)
  | updated => exact hc.mono (t.setSoftDelete_extends _ _)
  | stored hagent =>
    obtain ⟨uuid, huuid, hheld⟩ := hpc
    cases hagent.symm.trans huuid
    exact hc.insert hheld _
  | loaded => exact hc
  | swapped => exact Cache.ofModels_agrees hpc

theorem Step.fits (h : Step agent answer t c pc t' c' pc') (hc : c.Agrees t) (hpc : pc.Fits t agent) : pc'.Fits t' agent := by
  cases h with
  | turn _ hbare => exact hbare.fits
  | served _ hagent hhit => exact ⟨_, hagent, hc.held _ _ _ hhit⟩
  | read _ hagent hrow hid hread =>
    have hheld : t.Holds _ _ := ⟨_, hrow, rfl, hid⟩
    obtain ⟨onFailure, rfl⟩ | rfl := hread
    · exact ⟨hid, hagent, hheld⟩
    · exact ⟨_, hagent, hheld⟩
  | inserted row _ hagent hnew huuid hpc' =>
    obtain hbare | ⟨id, hid, rfl⟩ := hpc'
    · exact hbare.fits
    · exact ⟨_, hagent, _, List.mem_cons_self, rfl, hid⟩
  | updated =>
    obtain ⟨-, hagent, hheld⟩ := hpc
    exact ⟨_, hagent, hheld.mono (t.setSoftDelete_extends _ _)⟩
  | stored hagent hpc' =>
    obtain hbare | rfl := hpc'
    · exact hbare.fits
    · exact hpc
  | loaded => exact .refl t
  | swapped hbare => exact hbare.fits

end

/-- The joint invariant: the cache agrees with the table and so does what the calls hold. -/
structure Consistent (s : State ι) : Prop where
  cache : s.cache.Agrees s.table
  places : ∀ i, (s.pc i).Fits s.table (calls i).agent

omit [DecidableEq ι] in
theorem initial_consistent (t : Table) : Consistent calls (.initial t) :=
  ⟨Cache.ofModels_agrees (Table.Extends.refl t), fun _ => trivial⟩

theorem step_consistent (hs : Consistent calls s) (h : step uniqueViolation calls s turn = some s') :
    Consistent calls s' := by
  obtain ⟨pc', hstep, hpc⟩ := step_cases uniqueViolation calls h
  refine ⟨hstep.agrees hs.cache (hs.places turn.call), fun i => ?_⟩
  rw [hpc]
  by_cases hi : i = turn.call
  · subst hi
    rw [update_self]
    exact hstep.fits hs.cache (hs.places turn.call)
  · rw [update_of_ne hi]
    exact (hs.places i).mono hstep.extends

theorem run_consistent (t : Table) (schedule : List (Turn ι))
    (hrun : run (step uniqueViolation calls) (.initial t) schedule = some s) : Consistent calls s :=
  run_preserves (fun _ _ _ hs h => step_consistent uniqueViolation calls hs h) (initial_consistent calls t) hrun

/-- What the registry owes at any time. -/
structure Sound (s : State ι) : Prop where
  inverse : ∀ uuid id softDelete,
    s.cache.byUuid uuid = some (id, softDelete) ↔ s.cache.byId id = some (uuid, softDelete)
  injective : ∀ uuid uuid' id softDelete softDelete', s.cache.byUuid uuid = some (id, softDelete) →
    s.cache.byUuid uuid' = some (id, softDelete') → uuid = uuid'
  held : ∀ uuid id softDelete, s.cache.byUuid uuid = some (id, softDelete) → s.table.Holds uuid id
  handedOut : ∀ i uuid id, calls i = .getOrInsert uuid → s.pc i = .finished (.id (.ok id)) → s.table.Holds uuid id
  inRange : ∀ row ∈ s.table.rows, row.id.toInt < -32768 ∨ 32767 < row.id.toInt →
    s.cache.byUuid row.uuid = none ∧
      ∀ i id, calls i = .getOrInsert row.uuid → s.pc i ≠ .finished (.id (.ok id))

theorem Table.Holds.inRange (h : t.Holds row.uuid id) (hrow : row ∈ t.rows) :
    -32768 ≤ row.id.toInt ∧ row.id.toInt ≤ 32767 := by
  obtain ⟨row', hrow', huuid, hid⟩ := h
  obtain rfl := Table.eq_of_uuid_eq hrow' hrow huuid
  have hlo := id.le_toInt
  have hhi := id.toInt_lt
  omega

omit [DecidableEq ι] in
theorem Consistent.sound (hs : Consistent calls s) : Sound calls s := by
  have hgiven : ∀ i uuid id, calls i = .getOrInsert uuid → s.pc i = .finished (.id (.ok id)) →
      s.table.Holds uuid id := by
    intro i uuid id hcall hpc
    have hfits := hs.places i
    rw [hpc, hcall] at hfits
    obtain ⟨uuid', heq, hheld⟩ := hfits
    cases heq
    exact hheld
  refine ⟨hs.cache.inverse, fun uuid uuid' id d d' h h' => ?_, hs.cache.held, hgiven, fun row hrow hout => ⟨?_, ?_⟩⟩
  · exact (hs.cache.held _ _ _ h).uuid_unique (hs.cache.held _ _ _ h')
  · cases hcached : s.cache.byUuid row.uuid with
    | none => rfl
    | some entry =>
      have := (hs.cache.held row.uuid entry.1 entry.2 hcached).inRange hrow
      omega
  · intro i id hcall hpc
    have := (hgiven i row.uuid id hcall hpc).inRange hrow
    omega

/-- **The registry is sound in every interleaving**: at any time in any run of any number of
calls the two maps are inverse to each other, no two agents share a number, every cached
number is the table's, and a number is handed out only if it is the table's own, so none
that does not fit in 16 bits. -/
theorem registry_sound (t : Table) (schedule : List (Turn ι)) (s : State ι)
    (hrun : run (step uniqueViolation calls) (.initial t) schedule = some s) : Sound calls s :=
  (run_consistent uniqueViolation calls t schedule hrun).sound

/-- Two first reports of one agent: both miss, both insert, and the second finds the row of the first. -/
def firstReports : List (Turn Bool) :=
  [⟨false, .ok 0⟩, ⟨true, .ok 0⟩, ⟨false, .ok 0⟩, ⟨true, .ok 0⟩, ⟨false, .ok 7⟩, ⟨true, .ok 8⟩, ⟨false, .ok 0⟩,
    ⟨true, .ok 0⟩, ⟨true, .ok 0⟩]

theorem registry_sound_firstReports :
    ∃ s, run (step "" fun _ => Call.getOrInsert 1) (.initial .empty) firstReports = some s ∧
      Sound (fun _ => Call.getOrInsert 1) s ∧ s.pc false = .finished (.id (.ok 7)) ∧
      s.pc true = .finished (.id (.ok 7)) :=
  ⟨_, rfl, registry_sound "" _ .empty firstReports _ rfl, rfl, rfl⟩

end NodeGet.Monitoring.UuidCache
