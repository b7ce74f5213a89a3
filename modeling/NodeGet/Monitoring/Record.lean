import NodeGet.Core.Json
import NodeGet.Core.Permission

/-! The records of the dynamic and the summary table, and the JSON objects they
are answered as.

An answer is made in two places: from the value the last-value cache keeps
(`ng-monitoring/src/monitoring_last_cache.rs`) and from a selected row
(`rpc/agent/query_dynamic_multi_last.rs` and its summary counterpart). The two
are made field by field under different names, and both come to an `answerObject`:
for a dynamic record the same one, for a summary record the same one when no
requested value is missing. -/
namespace NodeGet.Monitoring
open NodeGet.Core

/-! ### Fields -/

inductive DynamicSummaryQueryField where
  | cpuUsage | gpuUsage | usedSwap | totalSwap | usedMemory | totalMemory | availableMemory
  | loadOne | loadFive | loadFifteen | uptime | bootTime | processCount | totalSpace | availableSpace
  | readSpeed | writeSpeed | tcpConnections | udpConnections | totalReceived | totalTransmitted
  | transmitSpeed | receiveSpeed
deriving DecidableEq, Repr

namespace DynamicSummaryQueryField

def all : List DynamicSummaryQueryField :=
  [.cpuUsage, .gpuUsage, .usedSwap, .totalSwap, .usedMemory, .totalMemory, .availableMemory, .loadOne,
    .loadFive, .loadFifteen, .uptime, .bootTime, .processCount, .totalSpace, .availableSpace, .readSpeed,
    .writeSpeed, .tcpConnections, .udpConnections, .totalReceived, .totalTransmitted, .transmitSpeed,
    .receiveSpeed]

def columnName : DynamicSummaryQueryField → String
  | .cpuUsage => "cpu_usage"
  | .gpuUsage => "gpu_usage"
  | .usedSwap => "used_swap"
  | .totalSwap => "total_swap"
  | .usedMemory => "used_memory"
  | .totalMemory => "total_memory"
  | .availableMemory => "available_memory"
  | .loadOne => "load_one"
  | .loadFive => "load_five"
  | .loadFifteen => "load_fifteen"
  | .uptime => "uptime"
  | .bootTime => "boot_time"
  | .processCount => "process_count"
  | .totalSpace => "total_space"
  | .availableSpace => "available_space"
  | .readSpeed => "read_speed"
  | .writeSpeed => "write_speed"
  | .tcpConnections => "tcp_connections"
  | .udpConnections => "udp_connections"
  | .totalReceived => "total_received"
  | .totalTransmitted => "total_transmitted"
  | .transmitSpeed => "transmit_speed"
  | .receiveSpeed => "receive_speed"

def jsonKey (f : DynamicSummaryQueryField) : String := f.columnName

end DynamicSummaryQueryField

/-- The members that do not come from a field. -/
def commonNames : List String := ["uuid", "uuid_id", "timestamp"]

/-- A name of a field that says which one it is and is not a common one. -/
structure Names {φ : Type} (name : φ → String) : Prop where
  injective : Function.Injective name
  notCommon : ∀ f, name f ∉ commonNames

theorem names_of_find {φ : Type} {name : φ → String} (all : List φ)
    (hfind : ∀ f, all.find? (fun g => name g = name f) = some f) (hcommon : ∀ f, name f ∉ commonNames) :
    Names name where
  injective f g h := by
    have hf := hfind f
    rw [h, hfind g] at hf
    exact (Option.some.inj hf).symm
  notCommon := hcommon

theorem Names.ne {φ : Type} {name : φ → String} (h : Names name) (f : φ) {k : String}
    (hk : k ∈ commonNames) : name f ≠ k := fun heq => h.notCommon f (heq ▸ hk)

theorem dynamicColumn_names : Names DynamicDataQueryField.columnName := by
  apply names_of_find DynamicDataQueryField.all <;> intro f <;> cases f <;> decide

theorem dynamicKey_names : Names DynamicDataQueryField.jsonKey := by
  apply names_of_find DynamicDataQueryField.all <;> intro f <;> cases f <;> decide

theorem summaryKey_names : Names DynamicSummaryQueryField.columnName := by
  apply names_of_find DynamicSummaryQueryField.all <;> intro f <;> cases f <;> decide

/-! ### Records and the objects made from them -/

/-- The columns every monitoring table has. -/
structure Columns where
  uuidId : Int16
  timestamp : Int64
  storageTime : Option Int64

/-- A row of a monitoring table, with what each field holds. -/
structure Record (φ : Type) extends Columns where
  data : φ → Option Json

variable {φ : Type}

/-- Insert what the fields hold, each under its name. -/
def insertFields (name : φ → String) (data : φ → Option Json) (obj : JsonMap) (fields : List φ) : JsonMap :=
  fields.foldl (fun obj f => (data f).elim obj (obj.insert (name f))) obj

/-- The object the cache keeps for an agent. -/
def buildValue (name : φ → String) (all : List φ) (uuid : Uuid) (timestamp : Int64)
    (data : φ → Option Json) : JsonMap :=
  insertFields name data
    ((JsonMap.empty.insert "uuid" (.str (Uuid.text uuid))).insert "timestamp" (.num (.int timestamp.toInt))) all

def buildDynamicValue : Uuid → Int64 → (DynamicDataQueryField → Option Json) → JsonMap :=
  buildValue DynamicDataQueryField.jsonKey DynamicDataQueryField.all

def buildDynamicSummaryValue : Uuid → Int64 → (DynamicSummaryQueryField → Option Json) → JsonMap :=
  buildValue DynamicSummaryQueryField.jsonKey DynamicSummaryQueryField.all

/-- Take over what `fullObj` holds under a key. -/
def copyKey (fullObj filtered : JsonMap) (key : String) : JsonMap :=
  (fullObj key).elim filtered (filtered.insert key)

def buildFilteredMap (fullObj : JsonMap) (extraKeys : List String) : JsonMap :=
  extraKeys.foldl
    (fun filtered key => if key ≠ "uuid" ∧ key ≠ "timestamp" then copyKey fullObj filtered key else filtered)
    (copyKey fullObj (copyKey fullObj .empty "uuid") "timestamp")

section Fields
variable (name : φ → String) (data : φ → Option Json) (obj : JsonMap) (fields : List φ)

theorem insertFields_cons (f : φ) :
    insertFields name data obj (f :: fields) =
      insertFields name data ((data f).elim obj (obj.insert (name f))) fields := rfl

theorem insertFields_of_ne {k : String} (h : ∀ f ∈ fields, name f ≠ k) :
    insertFields name data obj fields k = obj k := by
  induction fields generalizing obj with
  | nil => rfl
  | cons f rest ih =>
    rw [insertFields_cons, ih _ fun g hg => h g (List.mem_cons_of_mem _ hg)]
    cases data f with
    | none => rfl
    | some v => exact JsonMap.insert_of_ne obj v (h f (List.mem_cons_self ..)).symm

theorem insertFields_name [DecidableEq φ] (hname : Function.Injective name) (f : φ) :
    insertFields name data obj fields (name f) =
      if f ∈ fields then (data f).or (obj (name f)) else obj (name f) := by
  induction fields generalizing obj with
  | nil => rfl
  | cons g rest ih =>
    rw [insertFields_cons, ih]
    by_cases hfg : f = g
    · subst hfg
      cases data f <;> simp
    · have hkey : name f ≠ name g := fun h => hfg (hname h)
      have hobj : ((data g).elim obj (obj.insert (name g))) (name f) = obj (name f) := by
        cases data g with
        | none => rfl
        | some v => exact JsonMap.insert_of_ne obj v hkey
      simp [hobj, hfg]

end Fields

theorem copyKey_apply (fullObj filtered : JsonMap) (key k : String) :
    copyKey fullObj filtered key k = if k = key then (fullObj k).or (filtered k) else filtered k := by
  unfold copyKey
  by_cases hk : k = key
  · subst hk
    cases fullObj k <;> simp
  · cases fullObj key <;> simp [hk, JsonMap.insert_of_ne]

theorem foldl_copyKey (fullObj filtered : JsonMap) (keys : List String) (k : String) :
    keys.foldl (copyKey fullObj) filtered k =
      if k ∈ keys then (fullObj k).or (filtered k) else filtered k := by
  induction keys generalizing filtered with
  | nil => rfl
  | cons key rest ih =>
    rw [List.foldl_cons, ih, copyKey_apply]
    by_cases hk : k = key
    · subst hk
      cases fullObj k <;> simp
    · simp [hk]

/-- Filtering keeps the two common members and those asked for. -/
theorem buildFilteredMap_apply (fullObj : JsonMap) (extraKeys : List String) (k : String) :
    buildFilteredMap fullObj extraKeys k =
      if k = "uuid" ∨ k = "timestamp" ∨ k ∈ extraKeys then fullObj k else none := by
  have hfold : buildFilteredMap fullObj extraKeys =
      (extraKeys.filter fun key => key ≠ "uuid" ∧ key ≠ "timestamp").foldl (copyKey fullObj)
        (copyKey fullObj (copyKey fullObj .empty "uuid") "timestamp") := by
    simp [buildFilteredMap, List.foldl_filter]
  rw [hfold, foldl_copyKey, copyKey_apply, copyKey_apply]
  by_cases huuid : k = "uuid"
  · simp [huuid, JsonMap.empty]
  · by_cases htime : k = "timestamp"
    · simp [htime, JsonMap.empty]
    · simp [huuid, htime, JsonMap.empty]

/-! ### From a selected row -/

/-- The columns of a selected row; a column without a value reads as `null`. -/
def selectRow (name : φ → String) (fields : List φ) (r : Record φ) : JsonMap :=
  insertFields name (fun f => some ((r.data f).getD .null))
    ((JsonMap.empty.insert "uuid_id" (.num (.int r.uuidId.toInt))).insert "timestamp"
      (.num (.int r.timestamp.toInt))) fields

/-- The row's number gives way to the agent's identifier. -/
def translateUuid (uuidOf : Int16 → Option Uuid) (r : Record φ) (obj : JsonMap) : JsonMap :=
  (uuidOf r.uuidId).elim (obj.remove "uuid_id") fun uuid =>
    (obj.remove "uuid_id").insert "uuid" (.str (Uuid.text uuid))

/-- A text that holds JSON is read as what it holds. -/
def fixJson (fromStr : String → Option Json) : Json → Json
  | .str s => (fromStr s).getD (.str s)
  | other => other

def renameAndFixJson (fromStr : String → Option Json) (obj : JsonMap) (oldKey newKey : String) : JsonMap :=
  (obj oldKey).elim obj fun value => (obj.remove oldKey).insert newKey (fixJson fromStr value)

section Rename
variable (fromStr : String → Option Json) {old new : φ → String}

def renameFields (old new : φ → String) (obj : JsonMap) (fields : List φ) : JsonMap :=
  fields.foldl (fun obj f => renameAndFixJson fromStr obj (old f) (new f)) obj

variable (obj : JsonMap) (fields : List φ)

theorem renameAndFixJson_of_ne {oldKey newKey k : String} (hold : k ≠ oldKey)
    (hnew : k ≠ newKey) : renameAndFixJson fromStr obj oldKey newKey k = obj k := by
  unfold renameAndFixJson
  cases obj oldKey with
  | none => rfl
  | some v => simp [JsonMap.insert_of_ne _ _ hnew, JsonMap.remove_of_ne _ hold]

theorem renameFields_of_ne {k : String} (h : ∀ f ∈ fields, k ≠ old f ∧ k ≠ new f) :
    renameFields fromStr old new obj fields k = obj k := by
  induction fields generalizing obj with
  | nil => rfl
  | cons f rest ih =>
    obtain ⟨hold, hnew⟩ := h f (List.mem_cons_self ..)
    rw [renameFields, List.foldl_cons, ← renameFields, ih _ fun g hg => h g (List.mem_cons_of_mem _ hg),
      renameAndFixJson_of_ne fromStr obj hold hnew]

variable [DecidableEq φ] (hold : Names old) (hnew : Names new) (hdisjoint : ∀ f g, old f ≠ new g)
include hold hnew hdisjoint

end Rename

/-! ### The same object from either side -/

/-- The object that answers with the given fields of a record. -/
def answerObject (name : φ → String) (fields : List φ) (uuid : Uuid) (timestamp : Int64)
    (value : φ → Option Json) : JsonMap := fun k =>
  if k = "uuid" then some (.str (Uuid.text uuid))
  else if k = "timestamp" then some (.num (.int timestamp.toInt))
  else (fields.find? fun f => name f = k).bind value

theorem answerObject_other {name : φ → String} (fields : List φ) (uuid : Uuid) (timestamp : Int64)
    (value : φ → Option Json) {k : String} (hu : k ≠ "uuid") (ht : k ≠ "timestamp") (hk : ∀ f, name f ≠ k) :
    answerObject name fields uuid timestamp value k = none := by
  rw [answerObject, if_neg hu, if_neg ht, List.find?_eq_none.mpr fun f _ => by simpa using hk f]
  rfl

section Objects
variable [DecidableEq φ] {name : φ → String} (hname : Names name)
include hname

variable (fields : List φ) (uuid : Uuid) (timestamp : Int64) (value : φ → Option Json)

theorem answerObject_name (f : φ) :
    answerObject name fields uuid timestamp value (name f) = if f ∈ fields then value f else none := by
  rw [answerObject, if_neg (hname.ne f (by decide)), if_neg (hname.ne f (by decide))]
  cases hfind : fields.find? fun g => name g = name f with
  | none =>
    have hf : f ∉ fields := fun hf => List.find?_eq_none.mp hfind f hf (by simp)
    rw [if_neg hf]
    rfl
  | some g =>
    have hg : name g = name f := by simpa using List.find?_some hfind
    rw [hname.injective hg] at hfind ⊢
    rw [if_pos (List.mem_of_find?_eq_some hfind)]
    rfl

/-- An object is determined by its common members and its fields. -/
theorem eq_answerObject {obj : JsonMap} {fields : List φ} {uuid : Uuid} {timestamp : Int64}
    {value : φ → Option Json} (huuid : obj "uuid" = some (.str (Uuid.text uuid)))
    (htimestamp : obj "timestamp" = some (.num (.int timestamp.toInt)))
    (hfield : ∀ f, obj (name f) = if f ∈ fields then value f else none)
    (hother : ∀ k, k ≠ "uuid" → k ≠ "timestamp" → (∀ f, name f ≠ k) → obj k = none) :
    obj = answerObject name fields uuid timestamp value := by
  funext k
  by_cases hk : ∃ f, name f = k
  · obtain ⟨f, rfl⟩ := hk
    rw [hfield, answerObject_name hname]
  · push Not at hk
    by_cases hu : k = "uuid"
    · rw [hu, huuid]
      rfl
    by_cases ht : k = "timestamp"
    · rw [ht, htimestamp]
      rfl
    rw [hother k hu ht hk, answerObject_other fields uuid timestamp value hu ht hk]

/-- The cached object answers with every field. -/
theorem buildValue_eq_answerObject :
    buildValue name fields uuid timestamp value = answerObject name fields uuid timestamp value := by
  have hcommon : ∀ k ∈ commonNames, ∀ f ∈ fields, name f ≠ k := fun k hk f _ => hname.ne f hk
  apply eq_answerObject hname
  · rw [buildValue, insertFields_of_ne _ _ _ _ (hcommon "uuid" (by decide))]
    rfl
  · rw [buildValue, insertFields_of_ne _ _ _ _ (hcommon "timestamp" (by decide))]
    rfl
  · intro f
    rw [buildValue, insertFields_name _ _ _ _ hname.injective, JsonMap.insert_of_ne _ _ (hname.ne f (by decide)),
      JsonMap.insert_of_ne _ _ (hname.ne f (by decide))]
    simp [JsonMap.empty]
  · intro k huuid htime hk
    rw [buildValue, insertFields_of_ne _ _ _ _ fun f _ => hk f, JsonMap.insert_of_ne _ _ htime,
      JsonMap.insert_of_ne _ _ huuid]
    rfl

theorem buildFilteredMap_answerObject {all : List φ} (hall : ∀ f ∈ fields, f ∈ all) :
    buildFilteredMap (answerObject name all uuid timestamp value) (fields.map name) =
      answerObject name fields uuid timestamp value := by
  apply eq_answerObject hname
  · rw [buildFilteredMap_apply, if_pos (.inl rfl)]
    rfl
  · rw [buildFilteredMap_apply, if_pos (.inr (.inl rfl))]
    rfl
  · intro f
    have huuid := hname.ne f (k := "uuid") (by decide)
    have htime := hname.ne f (k := "timestamp") (by decide)
    rw [buildFilteredMap_apply, answerObject_name hname]
    simp only [huuid, htime, List.mem_map_of_injective hname.injective, false_or]
    by_cases hf : f ∈ fields
    · rw [if_pos hf, if_pos hf, if_pos (hall f hf)]
    · rw [if_neg hf, if_neg hf]
  · intro k huuid htime hk
    rw [buildFilteredMap_apply, if_neg]
    rintro (h | h | h)
    · exact huuid h
    · exact htime h
    · obtain ⟨f, -, hf⟩ := List.mem_map.mp h
      exact hk f hf

/-- A selected row, once its number is translated. -/
theorem translateUuid_selectRow {uuidOf : Int16 → Option Uuid} {r : Record φ} {uuid : Uuid}
    (huuid : uuidOf r.uuidId = some uuid) :
    translateUuid uuidOf r (selectRow name fields r) =
      answerObject name fields uuid r.timestamp fun f => some ((r.data f).getD .null) := by
  have htranslate : translateUuid uuidOf r (selectRow name fields r) =
      ((selectRow name fields r).remove "uuid_id").insert "uuid" (.str (Uuid.text uuid)) := by
    rw [translateUuid, huuid]
    rfl
  rw [htranslate]
  apply eq_answerObject hname
  · exact JsonMap.insert_self ..
  · rw [JsonMap.insert_of_ne _ _ (by decide), JsonMap.remove_of_ne _ (by decide), selectRow,
      insertFields_of_ne _ _ _ _ fun f _ => hname.ne f (by decide), JsonMap.insert_self]
  · intro f
    rw [JsonMap.insert_of_ne _ _ (hname.ne f (by decide)), JsonMap.remove_of_ne _ (hname.ne f (by decide)),
      selectRow, insertFields_name _ _ _ _ hname.injective, JsonMap.insert_of_ne _ _ (hname.ne f (by decide)),
      JsonMap.insert_of_ne _ _ (hname.ne f (by decide))]
    simp [JsonMap.empty]
  · intro k hu ht hk
    rw [JsonMap.insert_of_ne _ _ hu]
    by_cases hid : k = "uuid_id"
    · rw [hid, JsonMap.remove_self]
    · rw [JsonMap.remove_of_ne _ hid, selectRow, insertFields_of_ne _ _ _ _ fun f _ => hk f,
        JsonMap.insert_of_ne _ _ ht, JsonMap.insert_of_ne _ _ hid]
      rfl

end Objects

/-! ### Dynamic records -/

/-- The request names every field. -/
def isAllDynamicFields (fields : List DynamicDataQueryField) : Bool :=
  fields.all (· ∈ DynamicDataQueryField.all) && DynamicDataQueryField.all.all (· ∈ fields)

def dynamicFromCache (fields : List DynamicDataQueryField) (value : JsonMap) : JsonMap :=
  if isAllDynamicFields fields then value
  else buildFilteredMap value (fields.map DynamicDataQueryField.jsonKey)

def dynamicFromRow (fromStr : String → Option Json) (uuidOf : Int16 → Option Uuid)
    (fields : List DynamicDataQueryField) (r : Record DynamicDataQueryField) : JsonMap :=
  renameFields fromStr DynamicDataQueryField.columnName DynamicDataQueryField.jsonKey
    (translateUuid uuidOf r (selectRow DynamicDataQueryField.columnName fields r)) fields

theorem DynamicDataQueryField.mem_all (f : DynamicDataQueryField) : f ∈ DynamicDataQueryField.all := by
  cases f <;> decide

theorem dynamicFromCache_eq (fields : List DynamicDataQueryField) (uuid : Uuid) (timestamp : Int64)
    (data : DynamicDataQueryField → Option Json) :
    dynamicFromCache fields (buildDynamicValue uuid timestamp data) =
      answerObject DynamicDataQueryField.jsonKey fields uuid timestamp data := by
  rw [dynamicFromCache, buildDynamicValue, buildValue_eq_answerObject dynamicKey_names]
  split
  · rename_i hall
    have hmem : ∀ f, f ∈ fields := by
      intro f
      have h := List.all_eq_true.mp (Bool.and_eq_true_iff.mp hall).2 f (DynamicDataQueryField.mem_all f)
      simpa using h
    apply eq_answerObject dynamicKey_names rfl rfl
    · intro f
      rw [answerObject_name dynamicKey_names, if_pos (DynamicDataQueryField.mem_all f), if_pos (hmem f)]
    · exact fun k hu ht hk => answerObject_other _ _ _ _ hu ht hk
  · exact buildFilteredMap_answerObject dynamicKey_names _ _ _ _ fun f _ => DynamicDataQueryField.mem_all f

def scaledSummaryColumns : List String := ["cpu_usage", "load_one", "load_five", "load_fifteen"]

/-- One decimal place was stored as an integer. -/
def descaleJson : Json → Json
  | .num (.int n) => .num (.float (n / 10))
  | .num (.float q) => .num (.float (q / 10))
  | other => other

def applyDescaling (obj : JsonMap) : JsonMap := fun k =>
  if k ∈ scaledSummaryColumns then (obj k).map descaleJson else obj k

/-- No field named means every field. -/
def summaryColumns (fields : List DynamicSummaryQueryField) : List DynamicSummaryQueryField :=
  if fields.isEmpty then DynamicSummaryQueryField.all else fields

def summaryFromCache (fields : List DynamicSummaryQueryField) (value : JsonMap) : JsonMap :=
  if fields.isEmpty then applyDescaling value
  else applyDescaling (buildFilteredMap value (fields.map DynamicSummaryQueryField.jsonKey))

def summaryFromRow (uuidOf : Int16 → Option Uuid) (fields : List DynamicSummaryQueryField)
    (r : Record DynamicSummaryQueryField) : JsonMap :=
  applyDescaling
    (translateUuid uuidOf r (selectRow DynamicSummaryQueryField.columnName (summaryColumns fields) r))

theorem summaryFromCache_eq (fields : List DynamicSummaryQueryField) (uuid : Uuid) (timestamp : Int64)
    (data : DynamicSummaryQueryField → Option Json) :
    summaryFromCache fields (buildDynamicSummaryValue uuid timestamp data) =
      applyDescaling
        (answerObject DynamicSummaryQueryField.columnName (summaryColumns fields) uuid timestamp data) := by
  have hvalue : buildDynamicSummaryValue uuid timestamp data =
      answerObject DynamicSummaryQueryField.columnName DynamicSummaryQueryField.all uuid timestamp data :=
    buildValue_eq_answerObject summaryKey_names ..
  have hall : ∀ f ∈ fields, f ∈ DynamicSummaryQueryField.all := by
    intro f _
    cases f <;> decide
  rw [summaryFromCache, summaryColumns, hvalue]
  split
  · rfl
  · exact congrArg applyDescaling (buildFilteredMap_answerObject summaryKey_names _ _ _ _ hall)

end NodeGet.Monitoring
