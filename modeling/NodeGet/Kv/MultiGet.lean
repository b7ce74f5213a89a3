import NodeGet.Kv.Refinement

/-! A multi-get is read item by item.

`getMultiValue` loads a namespace at the first pattern over it and answers later items
from what it has loaded. `itemAnswer` is what an item alone gives, read from the rows of
the table. Whatever a request has loaded, an item is answered by its block of the plain
map, and an item has only one block (`PlainBlock.unique`). -/
namespace NodeGet.Kv
open NodeGet.Core NodeGet.Data

/-- The rows a pattern matches in a namespace, its marker apart. -/
def matchedRows (t : KvTable) (ns : String) (stem : List Char) : List Row :=
  t.rows.filter fun r => r.ns == ns && r.key != namespaceMarkerKey && stem.isPrefixOf r.key.toList

/-- A key gives one entry, with what is stored under it or null; a pattern gives the rows
it matches, ordered by key. -/
def itemAnswer (t : KvTable) (item : NamespaceKeyItem) : List KvValueItem :=
  match wildcardPrefix item.key with
  | none => [⟨item.ns, item.key, (getVFromKvLenient t item.ns item.key).getD .null⟩]
  | some stem =>
    ((matchedRows t item.ns stem).insertionSort fun a b => a.key ≤ b.key).map fun r => ⟨r.ns, r.key, r.value⟩

theorem mem_matchedRows {t : KvTable} {ns : String} {stem : List Char} {r : Row} :
    r ∈ matchedRows t ns stem ↔ r.ns = ns ∧ stem <+: r.key.toList ∧ getVFromKvLenient t ns r.key = some r.value := by
  rw [matchedRows, List.mem_filter, getVFromKvLenient]
  simp only [Bool.and_eq_true, beq_iff_eq, bne_iff_ne, ne_eq, List.isPrefixOf_iff_prefix]
  by_cases hmarker : r.key = namespaceMarkerKey
  · simp [hmarker]
  · simp only [hmarker, not_false_eq_true, and_true, if_false, find_eq_some_iff]
    constructor
    · intro h
      obtain ⟨hmem, hns, hstem⟩ := h
      subst hns
      exact ⟨rfl, hstem, hmem⟩
    · intro h
      obtain ⟨hns, hstem, hmem⟩ := h
      subst hns
      exact ⟨hmem, rfl, hstem⟩

theorem nodup_matchedRows (t : KvTable) (ns : String) (stem : List Char) :
    ((matchedRows t ns stem).map (·.key)).Nodup := by
  have hids := (List.pairwise_map.mp t.unique).sublist
    (List.filter_sublist (p := fun r => r.ns == ns && r.key != namespaceMarkerKey && stem.isPrefixOf r.key.toList))
  refine List.pairwise_map.mpr (hids.imp_of_mem ?_)
  intro a b ha hb hne hkey
  exact hne (Prod.ext ((mem_matchedRows.mp ha).1.trans (mem_matchedRows.mp hb).1.symm) hkey)

/-! ### Blocks -/

theorem PlainBlock.unique {m : PlainMap} {item : NamespaceKeyItem} {block block' : List KvValueItem}
    (h : PlainBlock m item block) (h' : PlainBlock m item block') : block = block' :=
  Keyset.eq_of_strict h.ordered h'.ordered fun e => (h.mem_iff e).trans (h'.mem_iff e).symm

theorem itemAnswer_block (t : KvTable) (item : NamespaceKeyItem) : PlainBlock t.plain item (itemAnswer t item) := by
  unfold itemAnswer
  split
  next hkey =>
    refine ⟨List.pairwise_singleton .., fun e => ?_⟩
    simp only [PlainEntry, hkey, plain_bind, List.mem_singleton]
  next stem hstem =>
    refine ⟨List.pairwise_map.mpr (Keyset.sort_strict (nodup_matchedRows t item.ns stem)), fun e => ?_⟩
    simp only [PlainEntry, hstem, plain_bind, List.mem_map, (List.perm_insertionSort ..).mem_iff, mem_matchedRows]
    constructor
    · intro h
      obtain ⟨r, hr, he⟩ := h
      subst he
      exact hr
    · intro h
      exact ⟨⟨e.ns, e.key, e.value⟩, h, rfl⟩

/-- The marker is no entry of a pattern, and asked for as a key it has no value. -/
theorem marker_entry {t : KvTable} {item : NamespaceKeyItem} {e : KvValueItem} (he : e ∈ itemAnswer t item)
    (hmarker : e.key = namespaceMarkerKey) : wildcardPrefix item.key = none ∧ e.value = .null := by
  have hentry := ((itemAnswer_block t item).mem_iff e).mp he
  have hhidden : getVFromKvLenient t item.ns e.key = none := by rw [getVFromKvLenient, if_pos hmarker]
  cases hstem : wildcardPrefix item.key with
  | none =>
    simp only [PlainEntry, hstem, plain_bind] at hentry
    subst hentry
    exact ⟨rfl, by rw [hhidden]; rfl⟩
  | some stem =>
    simp only [PlainEntry, hstem, plain_bind, hhidden] at hentry
    cases hentry.2.2

section
variable (collate : String → String → Prop) [DecidableRel collate] {t : KvTable} {credential : Credential}
  {now : Int} {items : List NamespaceKeyItem} {entries : List KvValueItem}

/-- What has been loaded does not show in the answer. -/
theorem readItems_eq {cache : NamespaceCache} (hcache : Loaded t cache) (items : List NamespaceKeyItem) :
    readItems collate t cache items = (items.map (itemAnswer t)).flatten := by
  induction items generalizing cache with
  | nil => rfl
  | cons item rest ih =>
    obtain ⟨hloaded, hblock⟩ := readItem_block collate hcache item
    show (readItem collate t cache item).2 ++ readItems collate t (readItem collate t cache item).1 rest = _
    rw [ih hloaded, hblock.unique (itemAnswer_block t item), List.map_cons, List.flatten_cons]

theorem getMultiValue_ok_iff :
    getMultiValue collate t credential now items = .ok entries ↔
      items ≠ [] ∧
      items.forM (fun item => checkKvReadPermissionWithPattern credential now item.ns item.key) = .ok () ∧
      (items.map (itemAnswer t)).flatten = entries := by
  have hempty : Loaded t ∅ := fun ns store hlookup => by cases hlookup
  unfold getMultiValue
  by_cases hitems : items = []
  · simp [hitems]
  · rw [if_neg (by simpa using hitems), check_ok_iff, readItems_eq collate hempty]
    simp only [pure, Except.pure, Except.ok.injEq, ne_eq, hitems, not_false_eq_true, true_and]

/-- **A multi-get is the concatenation of single gets**: an accepted request answers with what
each of its items gives alone, in the order of the request, and shows no marker. -/
theorem getMultiValue_itemwise (h : getMultiValue collate t credential now items = .ok entries) :
    entries = (items.map (itemAnswer t)).flatten ∧
    ∀ item ∈ items, getMultiValue collate t credential now [item] = .ok (itemAnswer t item) ∧
      ∀ e ∈ itemAnswer t item, e.key = namespaceMarkerKey → wildcardPrefix item.key = none ∧ e.value = .null := by
  obtain ⟨-, hchecks, hentries⟩ := (getMultiValue_ok_iff collate).mp h
  refine ⟨hentries.symm, ?_⟩
  intro item hitem
  have hcheck : [item].forM (fun item => checkKvReadPermissionWithPattern credential now item.ns item.key) = .ok () :=
    check_ok_iff.mpr ⟨forM_ok hchecks hitem, rfl⟩
  refine ⟨(getMultiValue_ok_iff collate).mpr ⟨List.cons_ne_nil _ _, hcheck, ?_⟩, fun e he => marker_entry he⟩
  rw [List.map_singleton, List.flatten_singleton]

end

/-- Two namespaces; the first stores two keys. -/
def zones : KvTable where
  rows := [⟨"zone", namespaceMarkerKey, .bool false⟩, ⟨"zone", "b2", .null⟩, ⟨"zone", "b1", .bool true⟩,
    ⟨"spare", namespaceMarkerKey, .null⟩]
  unique := by decide

/-- A key before its namespace is loaded, every key of it, the key again, the marker, and a
pattern over a namespace that does not exist. -/
def zoneItems : List NamespaceKeyItem :=
  [⟨"zone", "b1"⟩, ⟨"zone", "*"⟩, ⟨"zone", "b1"⟩, ⟨"zone", namespaceMarkerKey⟩, ⟨"none", "b*"⟩]

def zoneEntries : List KvValueItem :=
  [⟨"zone", "b1", .bool true⟩, ⟨"zone", "b1", .bool true⟩, ⟨"zone", "b2", .null⟩, ⟨"zone", "b1", .bool true⟩,
    ⟨"zone", namespaceMarkerKey, .null⟩]

theorem getMultiValue_itemwise_zones :
    getMultiValue (fun a b => a ≤ b) zones (.ok .superToken) 0 zoneItems = .ok zoneEntries ∧
    zoneEntries = (zoneItems.map (itemAnswer zones)).flatten :=
  have h : getMultiValue (fun a b => a ≤ b) zones (.ok .superToken) 0 zoneItems = .ok zoneEntries := rfl
  ⟨h, (getMultiValue_itemwise (fun a b => a ≤ b) h).1⟩

end NodeGet.Kv
