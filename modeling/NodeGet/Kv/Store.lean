import Mathlib.Data.List.Sort
import NodeGet.Core.Error
import NodeGet.Core.Json
import NodeGet.Data.Table

/-! The key-value table (`ng-kv/src/db.rs`).

All namespaces share one table with one row for each namespace and key. A namespace
exists while it has a row, so creating one writes a marker row under a key that no
answer shows. The statements are stated by what they do to `find`, the value stored
under a namespace and a key. -/
namespace NodeGet.Kv
open NodeGet.Core NodeGet.Data

structure Row where
  ns : String
  key : String
  value : Json

def Row.id (r : Row) : String × String := (r.ns, r.key)

def Row.overwrite (old new : Row) : Row := {old with value := new.value}

theorem Row.id_overwrite (old new : Row) : (old.overwrite new).id = old.id := rfl

/-- The table with its unique index. -/
structure KvTable where
  rows : List Row
  unique : (rows.map Row.id).Nodup

namespace KvTable

def empty : KvTable := ⟨[], List.nodup_nil⟩

def find (t : KvTable) (ns key : String) : Option Json := (Table.lookup Row.id t.rows (ns, key)).map (·.value)

/-- `INSERT … ON CONFLICT (namespace, key) DO UPDATE SET value` -/
def put (t : KvTable) (r : Row) : KvTable where
  rows := Table.upsert Row.id Row.overwrite t.rows r
  unique := Table.nodup_keys_upsert Row.id_overwrite t.unique r

def deleteWhere (t : KvTable) (p : String → String → Bool) : KvTable where
  rows := t.rows.filter fun r => !p r.ns r.key
  unique := t.unique.sublist (List.filter_sublist.map _)

end KvTable

def namespaceMarkerKey : String := "__nodeget_namespace_marker__"

def namespaceExists (t : KvTable) (ns : String) : Bool := t.rows.any (·.ns == ns)

def ensureNamespaceExists (t : KvTable) (ns : String) : Except NodegetError Unit :=
  if namespaceExists t ns then .ok () else .error (.databaseError ("Namespace '" ++ ns ++ "' not found"))

/-- A namespace that does not exist has no row the marker could conflict with. -/
def createKv (t : KvTable) (ns : String) : Except NodegetError KvTable :=
  if namespaceExists t ns then .error (.databaseError ("Namespace '" ++ ns ++ "' already exists"))
  else .ok (t.put ⟨ns, namespaceMarkerKey, .null⟩)

def getVFromKvLenient (t : KvTable) (ns key : String) : Option Json :=
  if key = namespaceMarkerKey then none else t.find ns key

def getVFromKv (t : KvTable) (ns key : String) : Except NodegetError (Option Json) :=
  if key = namespaceMarkerKey then .ok none
  else do
    ensureNamespaceExists t ns
    return t.find ns key

def setVToKv (t : KvTable) (ns key : String) (value : Json) : Except NodegetError KvTable := do
  ensureNamespaceExists t ns
  return t.put ⟨ns, key, value⟩

def deleteKeyFromKv (t : KvTable) (ns key : String) : Except NodegetError KvTable :=
  if key = namespaceMarkerKey then
    .error (.invalidInput ("Cannot delete namespace marker key '" ++ namespaceMarkerKey ++ "'"))
  else do
    ensureNamespaceExists t ns
    return t.deleteWhere fun ns' key' => ns' == ns && key' == key

def deleteKv (t : KvTable) (ns : String) : Except NodegetError KvTable := do
  ensureNamespaceExists t ns
  return t.deleteWhere fun ns' _ => ns' == ns

section
variable (collate : String → String → Prop) [DecidableRel collate]

/-- The rows of a namespace without its marker, ordered by key as the database collates. -/
def userRows (t : KvTable) (ns : String) : List Row :=
  (t.rows.filter fun r => r.ns == ns && r.key != namespaceMarkerKey).insertionSort fun a b => collate a.key b.key

def getKeysFromKv (t : KvTable) (ns : String) : Except NodegetError (List String) := do
  ensureNamespaceExists t ns
  return (userRows collate t ns).map (·.key)

/-- The contents of one namespace. -/
abbrev KvStore := AList fun _ : String => Json

def getKvStoreOptional (t : KvTable) (ns : String) : Option KvStore :=
  if namespaceExists t ns then
    some ((userRows collate t ns).foldl (fun store r => store.insert r.key r.value) ∅)
  else none

end

/-! ### What is stored after a statement -/

section
variable (t : KvTable) (ns key : String)

theorem find_eq_some_iff {value : Json} : t.find ns key = some value ↔ ⟨ns, key, value⟩ ∈ t.rows := by
  rw [KvTable.find, Option.map_eq_some_iff]
  constructor
  · intro ⟨r, hr, hv⟩
    obtain ⟨hmem, hid⟩ := (Table.lookup_eq_some_iff t.unique).mp hr
    obtain ⟨hns, hkey⟩ := Prod.mk.inj hid
    subst hns hkey hv
    exact hmem
  · intro h
    exact ⟨_, (Table.lookup_eq_some_iff t.unique).mpr ⟨h, rfl⟩, rfl⟩

theorem find_put (r : Row) :
    (t.put r).find ns key = if r.ns = ns ∧ r.key = key then some r.value else t.find ns key := by
  simp only [KvTable.find, KvTable.put]
  rw [Table.lookup_upsert Row.id_overwrite]
  by_cases h : r.id = (ns, key)
  · rw [if_pos h, if_pos (Prod.mk.inj h)]
    cases Table.lookup Row.id t.rows (ns, key) <;> rfl
  · rw [if_neg h, if_neg fun hk => h (Prod.ext hk.1 hk.2)]

theorem find_deleteWhere (p : String → String → Bool) :
    (t.deleteWhere p).find ns key = if p ns key then none else t.find ns key := by
  apply Option.ext
  intro value
  rw [find_eq_some_iff, KvTable.deleteWhere, List.mem_filter]
  split
  next h => simp [h]
  next h => simp [h, find_eq_some_iff]

theorem namespaceExists_iff : namespaceExists t ns = true ↔ ∃ key, (t.find ns key).isSome := by
  simp only [namespaceExists, List.any_eq_true, beq_iff_eq]
  constructor
  · intro ⟨r, hr, hns⟩
    subst hns
    refine ⟨r.key, Option.isSome_iff_exists.mpr ⟨r.value, ?_⟩⟩
    exact (find_eq_some_iff t r.ns r.key).mpr hr
  · intro ⟨key, hkey⟩
    obtain ⟨value, hvalue⟩ := Option.isSome_iff_exists.mp hkey
    exact ⟨_, (find_eq_some_iff t ns key).mp hvalue, rfl⟩

variable (collate : String → String → Prop) [DecidableRel collate]

theorem mem_userRows {r : Row} :
    r ∈ userRows collate t ns ↔ r.ns = ns ∧ getVFromKvLenient t ns r.key = some r.value := by
  rw [userRows, (List.perm_insertionSort ..).mem_iff, List.mem_filter, getVFromKvLenient]
  by_cases hmarker : r.key = namespaceMarkerKey
  · simp [hmarker]
  · simp only [hmarker, if_false, find_eq_some_iff, Bool.and_eq_true, beq_iff_eq, bne_iff_ne, ne_eq,
      not_false_eq_true, and_true]
    constructor
    · intro ⟨hmem, hns⟩
      subst hns
      exact ⟨rfl, hmem⟩
    · intro ⟨hns, hmem⟩
      subst hns
      exact ⟨hmem, rfl⟩

theorem nodup_userRows : ((userRows collate t ns).map (·.key)).Nodup := by
  have hperm := List.perm_insertionSort (fun a b : Row => collate a.key b.key)
    (t.rows.filter fun r => r.ns == ns && r.key != namespaceMarkerKey)
  refine (hperm.map _).nodup_iff.mpr (List.pairwise_map.mpr ?_)
  refine ((List.pairwise_map.mp t.unique).sublist List.filter_sublist).imp_of_mem fun ha hb hab heq => ?_
  have hns : ∀ {r}, r ∈ t.rows.filter (fun r => r.ns == ns && r.key != namespaceMarkerKey) → r.ns = ns := by
    intro r hr
    simpa using (Bool.and_eq_true_iff.mp (List.mem_filter.mp hr).2).1
  exact hab (Prod.ext ((hns ha).trans (hns hb).symm) heq)

/-- A loaded namespace holds what single reads return. -/
theorem lookup_getKvStoreOptional {store : KvStore} (h : getKvStoreOptional collate t ns = some store) :
    store.lookup key = getVFromKvLenient t ns key := by
  unfold getKvStoreOptional at h
  split at h
  next =>
    cases h
    have hnodup := nodup_userRows t ns collate
    rw [Table.lookup_foldl_insert (·.value) _ hnodup]
    cases hfound : Table.lookup (·.key) (userRows collate t ns) key with
    | some r =>
      obtain ⟨hmem, hkey⟩ := (Table.lookup_eq_some_iff hnodup).mp hfound
      subst hkey
      exact ((mem_userRows t ns collate).mp hmem).2.symm
    | none =>
      cases hread : getVFromKvLenient t ns key with
      | none => rfl
      | some value =>
        have hmem : ⟨ns, key, value⟩ ∈ userRows collate t ns := (mem_userRows t ns collate).mpr ⟨rfl, hread⟩
        have := (Table.lookup_eq_some_iff hnodup).mpr ⟨hmem, rfl⟩
        exact absurd (hfound.symm.trans this) (by simp)
  next => cases h

end

end NodeGet.Kv
