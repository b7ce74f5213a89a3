import Mathlib.Data.String.Basic
import NodeGet.Data.Keyset
import NodeGet.Kv.Auth
import NodeGet.Kv.Store

/-! The requests of the key-value store (`ng-kv/src/rpc`) and the plain map they
stand for.

`handle` answers one request, `serve` a sequence of them; a refused request leaves
the table as it is. What an accepted request does to the table is said once
(`Accepted`). The plain map (`PlainMap`) has no marker rows and no table: existing
namespaces, each a map from keys to values. -/
namespace NodeGet.Kv
open NodeGet.Core NodeGet.Data

/-! ### Requests -/

structure NamespaceKeyItem where
  ns : String
  key : String

structure KvValueItem where
  ns : String
  key : String
  value : Json

inductive Op where
  | create (name : String)
  | setValue (ns key : String) (value : Json)
  | getValue (ns key : String)
  | deleteKey (ns key : String)
  | getAllKeys (ns : String)
  | getMultiValue (namespaceKey : List NamespaceKeyItem)
  | deleteNamespace (ns : String)

structure Request where
  credential : Credential
  now : Int
  op : Op

inductive Answer where
  | created (name : String)
  | success
  | value (value : Json)
  | keys (keys : List String)
  | items (items : List KvValueItem)

/-! ### Reading many values -/

def wildcardPrefix (keyPattern : String) : Option (List Char) :=
  if '*' ∈ keyPattern.toList then stripSuffix keyPattern '*' else none

section
variable (collate : String → String → Prop) [DecidableRel collate] (t : KvTable)

/-- The namespaces that wildcard items of the request have loaded. -/
abbrev NamespaceCache := AList fun _ : String => KvStore

def readKey (cache : NamespaceCache) (ns key : String) : Json :=
  match cache.lookup ns with
  | some store => (store.lookup key).getD .null
  | none => (getVFromKvLenient t ns key).getD .null

def loadNamespace (cache : NamespaceCache) (ns : String) : NamespaceCache :=
  match cache.lookup ns with
  | some _ => cache
  | none => (getKvStoreOptional collate t ns).elim cache fun store => cache.insert ns store

/-- One item: a key is looked up in a loaded namespace or in the table, a pattern in its
namespace, which is loaded first and skipped when it does not exist. -/
def readItem (cache : NamespaceCache) (item : NamespaceKeyItem) : NamespaceCache × List KvValueItem :=
  match wildcardPrefix item.key with
  | none => (cache, [⟨item.ns, item.key, readKey t cache item.ns item.key⟩])
  | some stem =>
    let cache := loadNamespace collate t cache item.ns
    match cache.lookup item.ns with
    | none => (cache, [])
    | some store =>
      let matchedKeys := (store.keys.filter fun key => stem.isPrefixOf key.toList).insertionSort fun a b => a ≤ b
      (cache, matchedKeys.filterMap fun key => (store.lookup key).map fun value => ⟨item.ns, key, value⟩)

def readItems (cache : NamespaceCache) : List NamespaceKeyItem → List KvValueItem
  | [] => []
  | item :: rest =>
    let (cache, block) := readItem collate t cache item
    block ++ readItems cache rest

/-- Every item must be permitted before any is read. -/
def getMultiValue (credential : Credential) (now : Int) (namespaceKey : List NamespaceKeyItem) :
    Except NodegetError (List KvValueItem) :=
  if namespaceKey.isEmpty then .error (.invalidInput "namespace_key cannot be empty")
  else do
    namespaceKey.forM fun item => checkKvReadPermissionWithPattern credential now item.ns item.key
    return readItems collate t ∅ namespaceKey

def handle (r : Request) : Except NodegetError (Answer × KvTable) :=
  match r.op with
  | .create name => do
    ensureNamespaceWritable name
    checkKvCreatePermission r.credential
    return (.created name, ← createKv t name)
  | .setValue ns key value => do
    ensureNamespaceWritable ns
    checkKvWritePermission r.credential r.now ns key
    return (.success, ← setVToKv t ns key value)
  | .getValue ns key => do
    checkKvReadPermission r.credential r.now ns key
    return (.value ((← getVFromKv t ns key).getD .null), t)
  | .deleteKey ns key => do
    ensureNamespaceWritable ns
    checkKvDeletePermission r.credential r.now ns key
    return (.success, ← deleteKeyFromKv t ns key)
  | .getAllKeys ns => do
    checkKvListKeysPermission r.credential r.now ns
    return (.keys (← getKeysFromKv collate t ns), t)
  | .getMultiValue namespaceKey => do
    return (.items (← getMultiValue collate t r.credential r.now namespaceKey), t)
  | .deleteNamespace ns => do
    ensureNamespaceWritable ns
    checkKvDeleteNamespacePermission r.credential r.now ns
    return (.success, ← deleteKv t ns)

end

/-- The accepted requests of a sequence with their answers, and the table at its end. -/
def serve (collate : String → String → Prop) [DecidableRel collate] (t : KvTable) :
    List Request → List (Op × Answer) × KvTable
  | [] => ([], t)
  | r :: rest =>
    match handle collate t r with
    | .error _ => serve collate t rest
    | .ok (answer, t') =>
      let (accepted, last) := serve collate t' rest
      ((r.op, answer) :: accepted, last)

/-! ### What an accepted request does -/

section
variable (collate : String → String → Prop) [DecidableRel collate] (t : KvTable)

inductive Accepted : Op → Answer → KvTable → Prop where
  | create {name : String} (hw : isReservedNamespace name = false) (hnew : namespaceExists t name = false) :
      Accepted (.create name) (.created name) (t.put ⟨name, namespaceMarkerKey, .null⟩)
  | setValue {ns key : String} {value : Json} (hw : isReservedNamespace ns = false)
      (hns : namespaceExists t ns = true) :
      Accepted (.setValue ns key value) .success (t.put ⟨ns, key, value⟩)
  | getValue {ns key : String} :
      Accepted (.getValue ns key) (.value ((getVFromKvLenient t ns key).getD .null)) t
  | deleteKey {ns key : String} (hw : isReservedNamespace ns = false) (hns : namespaceExists t ns = true)
      (hkey : key ≠ namespaceMarkerKey) :
      Accepted (.deleteKey ns key) .success (t.deleteWhere fun ns' key' => ns' == ns && key' == key)
  | getAllKeys {ns : String} (hns : namespaceExists t ns = true) :
      Accepted (.getAllKeys ns) (.keys ((userRows collate t ns).map (·.key))) t
  | getMultiValue {namespaceKey : List NamespaceKeyItem} :
      Accepted (.getMultiValue namespaceKey) (.items (readItems collate t ∅ namespaceKey)) t
  | deleteNamespace {ns : String} (hw : isReservedNamespace ns = false) (hns : namespaceExists t ns = true) :
      Accepted (.deleteNamespace ns) .success (t.deleteWhere fun ns' _ => ns' == ns)

variable {ns key : String} {t' : KvTable} {answer : Answer}

theorem writable_of_ok (h : ensureNamespaceWritable ns = .ok ()) : isReservedNamespace ns = false := by
  unfold ensureNamespaceWritable at h
  split at h
  next => cases h
  next hw => simpa using hw

theorem exists_of_ok {t : KvTable} (h : ensureNamespaceExists t ns = .ok ()) : namespaceExists t ns = true := by
  unfold ensureNamespaceExists at h
  split at h
  next hns => exact hns
  next => cases h

variable {collate t}

theorem createKv_ok (h : createKv t ns = .ok t') :
    namespaceExists t ns = false ∧ t' = t.put ⟨ns, namespaceMarkerKey, .null⟩ := by
  unfold createKv at h
  split at h
  next => cases h
  next hnew =>
    cases h
    exact ⟨by simpa using hnew, rfl⟩

theorem setVToKv_ok {value : Json} (h : setVToKv t ns key value = .ok t') :
    namespaceExists t ns = true ∧ t' = t.put ⟨ns, key, value⟩ := by
  obtain ⟨_, hns, h⟩ := ok_of_bind h
  cases h
  exact ⟨exists_of_ok hns, rfl⟩

theorem getVFromKv_ok {value : Option Json} (h : getVFromKv t ns key = .ok value) :
    value = getVFromKvLenient t ns key := by
  unfold getVFromKv at h
  unfold getVFromKvLenient
  split at h
  next hkey =>
    cases h
    rw [if_pos hkey]
  next hkey =>
    obtain ⟨_, _, h⟩ := ok_of_bind h
    cases h
    rw [if_neg hkey]

theorem deleteKeyFromKv_ok (h : deleteKeyFromKv t ns key = .ok t') :
    key ≠ namespaceMarkerKey ∧ namespaceExists t ns = true ∧
      t' = t.deleteWhere fun ns' key' => ns' == ns && key' == key := by
  unfold deleteKeyFromKv at h
  split at h
  next => cases h
  next hkey =>
    obtain ⟨_, hns, h⟩ := ok_of_bind h
    cases h
    exact ⟨hkey, exists_of_ok hns, rfl⟩

theorem deleteKv_ok (h : deleteKv t ns = .ok t') :
    namespaceExists t ns = true ∧ t' = t.deleteWhere fun ns' _ => ns' == ns := by
  obtain ⟨_, hns, h⟩ := ok_of_bind h
  cases h
  exact ⟨exists_of_ok hns, rfl⟩

/-- A request that writes has a namespace that may be written, and its statement succeeds. -/
theorem write_ok {check : Except NodegetError Unit} {statement : Except NodegetError KvTable} {answer' : Answer}
    (h : (do ensureNamespaceWritable ns; check; return (answer, ← statement)) = .ok (answer', t')) :
    isReservedNamespace ns = false ∧ answer' = answer ∧ statement = .ok t' := by
  obtain ⟨_, hw, h⟩ := ok_of_bind h
  obtain ⟨_, _, h⟩ := ok_of_bind h
  obtain ⟨_, hstatement, h⟩ := ok_of_bind h
  cases h
  exact ⟨writable_of_ok hw, rfl, hstatement⟩

theorem handle_accepted {r : Request} (h : handle collate t r = .ok (answer, t')) :
    Accepted collate t r.op answer t' := by
  unfold handle at h
  split at h
  next name hop =>
    obtain ⟨hw, rfl, ht⟩ := write_ok h
    obtain ⟨hnew, rfl⟩ := createKv_ok ht
    rw [hop]
    exact .create hw hnew
  next ns key value hop =>
    obtain ⟨hw, rfl, ht⟩ := write_ok h
    obtain ⟨hns, rfl⟩ := setVToKv_ok ht
    rw [hop]
    exact .setValue hw hns
  next ns key hop =>
    obtain ⟨_, _, h⟩ := ok_of_bind h
    obtain ⟨value, hread, h⟩ := ok_of_bind h
    cases h
    rw [hop, getVFromKv_ok hread]
    exact .getValue
  next ns key hop =>
    obtain ⟨hw, rfl, ht⟩ := write_ok h
    obtain ⟨hkey, hns, rfl⟩ := deleteKeyFromKv_ok ht
    rw [hop]
    exact .deleteKey hw hns hkey
  next ns hop =>
    obtain ⟨_, _, h⟩ := ok_of_bind h
    obtain ⟨keys, hkeys, h⟩ := ok_of_bind h
    cases h
    obtain ⟨_, hns, hkeys⟩ := ok_of_bind hkeys
    cases hkeys
    rw [hop]
    exact .getAllKeys (exists_of_ok hns)
  next items hop =>
    obtain ⟨values, hvalues, h⟩ := ok_of_bind h
    cases h
    unfold getMultiValue at hvalues
    split at hvalues
    next => cases hvalues
    next =>
      obtain ⟨_, _, hvalues⟩ := ok_of_bind hvalues
      cases hvalues
      rw [hop]
      exact .getMultiValue
  next ns hop =>
    obtain ⟨hw, rfl, ht⟩ := write_ok h
    obtain ⟨hns, rfl⟩ := deleteKv_ok ht
    rw [hop]
    exact .deleteNamespace hw hns

end

end NodeGet.Kv
