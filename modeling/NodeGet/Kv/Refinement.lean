import NodeGet.Kv.Rpc

/-! The key-value store refines a plain map.

The map of a table shows its namespaces without their marker rows (`KvTable.plain`).
While every namespace has its marker (`Marked`, which every accepted request keeps),
an accepted request is the same step of the plain map, with one exception: a
`set_value` of the marker key is accepted and its value never shown. -/
namespace NodeGet.Kv
open NodeGet.Core NodeGet.Data Function

/-! ### The plain map -/

/-- The existing namespaces, each with what it stores. -/
abbrev PlainMap := String → Option (String → Option Json)

/-- What a multi-get answers for one item: a key with its value or null, a pattern with
every stored key it matches. -/
def PlainEntry (m : PlainMap) (item : NamespaceKeyItem) (e : KvValueItem) : Prop :=
  match wildcardPrefix item.key with
  | none => e = ⟨item.ns, item.key, ((m item.ns).bind (· item.key)).getD .null⟩
  | some stem => e.ns = item.ns ∧ stem <+: e.key.toList ∧ (m item.ns).bind (· e.key) = some e.value

/-- All entries for an item, in key order. -/
structure PlainBlock (m : PlainMap) (item : NamespaceKeyItem) (block : List KvValueItem) : Prop where
  ordered : block.Pairwise fun a b => a.key < b.key
  mem_iff : ∀ e, e ∈ block ↔ PlainEntry m item e

inductive PlainStep (m : PlainMap) : Op → Answer → PlainMap → Prop where
  | create {name : String} (hnew : m name = none) :
      PlainStep m (.create name) (.created name) (update m name (some fun _ => none))
  | setValue {ns : String} {values : String → Option Json} (hns : m ns = some values) (key : String)
      (value : Json) :
      PlainStep m (.setValue ns key value) .success
        (update m ns (some (update values key (some value))))
  | getValue (ns key : String) :
      PlainStep m (.getValue ns key) (.value (((m ns).bind (· key)).getD .null)) m
  | deleteKey {ns : String} {values : String → Option Json} (hns : m ns = some values) (key : String) :
      PlainStep m (.deleteKey ns key) .success (update m ns (some (update values key none)))
  | getAllKeys {ns : String} {values : String → Option Json} (hns : m ns = some values) {keys : List String}
      (hnodup : keys.Nodup) (hkeys : ∀ key, key ∈ keys ↔ (values key).isSome = true) :
      PlainStep m (.getAllKeys ns) (.keys keys) m
  | getMultiValue {namespaceKey : List NamespaceKeyItem} {blocks : List (List KvValueItem)}
      (hblocks : List.Forall₂ (PlainBlock m) namespaceKey blocks) :
      PlainStep m (.getMultiValue namespaceKey) (.items blocks.flatten) m
  | deleteNamespace {ns : String} {values : String → Option Json} (hns : m ns = some values) :
      PlainStep m (.deleteNamespace ns) .success (update m ns none)

inductive PlainRun : PlainMap → List (Op × Answer) → PlainMap → Prop where
  | nil (m : PlainMap) : PlainRun m [] m
  | cons {m m' last : PlainMap} {op : Op} {answer : Answer} {rest : List (Op × Answer)}
      (hstep : PlainStep m op answer m') (hrest : PlainRun m' rest last) :
      PlainRun m ((op, answer) :: rest) last

def KvTable.plain (t : KvTable) : PlainMap := fun ns =>
  if namespaceExists t ns then some (getVFromKvLenient t ns) else none

/-- Every namespace that exists has its marker row. -/
def Marked (t : KvTable) : Prop :=
  ∀ ns, namespaceExists t ns = true → (t.find ns namespaceMarkerKey).isSome = true

/-! ### The map of a table -/

section
variable {t t' : KvTable} {ns : String}

theorem plain_of_exists (h : namespaceExists t ns = true) : t.plain ns = some (getVFromKvLenient t ns) :=
  if_pos h

theorem plain_of_not_exists (h : namespaceExists t ns = false) : t.plain ns = none := by
  simp [KvTable.plain, h]

theorem find_of_not_exists (h : namespaceExists t ns = false) (key : String) : t.find ns key = none := by
  rw [← Option.not_isSome_iff_eq_none]
  intro hkey
  rw [(namespaceExists_iff t ns).mpr ⟨key, hkey⟩] at h
  cases h

theorem plain_bind (key : String) : (t.plain ns).bind (· key) = getVFromKvLenient t ns key := by
  cases h : namespaceExists t ns with
  | true => simp [plain_of_exists h]
  | false => simp [plain_of_not_exists h, getVFromKvLenient, find_of_not_exists h]

/-- The map shows a namespace by what is stored in it. -/
theorem plain_congr (h : ∀ key, t'.find ns key = t.find ns key) : t'.plain ns = t.plain ns := by
  have hexists : namespaceExists t' ns = namespaceExists t ns := by
    rw [Bool.eq_iff_iff, namespaceExists_iff, namespaceExists_iff]
    simp only [h]
  have hread : getVFromKvLenient t' ns = getVFromKvLenient t ns := by
    funext key
    simp only [getVFromKvLenient, h]
  rw [KvTable.plain, KvTable.plain, hexists, hread]

/-- A step that touches one namespace updates the map there. -/
theorem plain_update (h : ∀ ns', ns' ≠ ns → ∀ key, t'.find ns' key = t.find ns' key) :
    t'.plain = update t.plain ns (t'.plain ns) := by
  funext ns'
  by_cases hns : ns' = ns
  · subst hns
    rw [update_self]
  · rw [update_of_ne hns, plain_congr (h ns' hns)]

variable {key : String}

theorem exists_of_find {value : Json} (h : t.find ns key = some value) : namespaceExists t ns = true :=
  (namespaceExists_iff t ns).mpr ⟨key, by simp [h]⟩

theorem plain_put (r : Row) : (t.put r).plain r.ns = some fun key =>
    if key = namespaceMarkerKey then none else if key = r.key then some r.value else t.find r.ns key := by
  rw [plain_of_exists (exists_of_find (by rw [find_put, if_pos ⟨rfl, rfl⟩]))]
  congr 1
  funext key
  simp only [getVFromKvLenient, find_put, true_and, eq_comm]

theorem plain_create (h : namespaceExists t ns = false) :
    (t.put ⟨ns, namespaceMarkerKey, .null⟩).plain ns = some fun _ => none := by
  rw [plain_put]
  congr 1
  funext key
  simp only [find_of_not_exists h]
  split <;> rfl

theorem plain_set (hkey : key ≠ namespaceMarkerKey) (value : Json) :
    (t.put ⟨ns, key, value⟩).plain ns = some (update (getVFromKvLenient t ns) key (some value)) := by
  rw [plain_put]
  congr 1
  funext key'
  by_cases h : key' = key
  · subst h
    rw [update_self, if_neg hkey, if_pos rfl]
  · simp only [update_of_ne h, h, if_false, getVFromKvLenient]

/-- The value set under the marker key is not shown. -/
theorem plain_set_marker (value : Json) (h : namespaceExists t ns = true) :
    (t.put ⟨ns, namespaceMarkerKey, value⟩).plain ns = t.plain ns := by
  rw [plain_put, plain_of_exists h]
  congr 1
  funext key
  simp only [getVFromKvLenient]
  split <;> rfl

theorem plain_deleteKey (hkey : key ≠ namespaceMarkerKey) (hmarker : (t.find ns namespaceMarkerKey).isSome = true) :
    (t.deleteWhere fun ns' key' => ns' == ns && key' == key).plain ns =
      some (update (getVFromKvLenient t ns) key none) := by
  have hexists : namespaceExists (t.deleteWhere fun ns' key' => ns' == ns && key' == key) ns = true := by
    refine (namespaceExists_iff _ ns).mpr ⟨namespaceMarkerKey, ?_⟩
    rwa [find_deleteWhere, if_neg (by simpa using Ne.symm hkey)]
  rw [plain_of_exists hexists]
  congr 1
  funext key'
  by_cases h : key' = key
  · subst h
    simp [getVFromKvLenient, find_deleteWhere]
  · simp [getVFromKvLenient, find_deleteWhere, h]

theorem plain_deleteNamespace : (t.deleteWhere fun ns' _ => ns' == ns).plain ns = none := by
  apply plain_of_not_exists
  rw [Bool.eq_false_iff]
  intro hexists
  obtain ⟨key, hkey⟩ := (namespaceExists_iff _ ns).mp hexists
  simp [find_deleteWhere] at hkey

end

/-! ### Multi-get -/

section
variable (collate : String → String → Prop) [DecidableRel collate] {t : KvTable}

/-- What the request has loaded is what the table holds. -/
def Loaded (t : KvTable) (cache : NamespaceCache) : Prop :=
  ∀ ns store, cache.lookup ns = some store → ∀ key, store.lookup key = getVFromKvLenient t ns key

variable {cache : NamespaceCache}

theorem readKey_loaded (hcache : Loaded t cache) (ns key : String) :
    readKey t cache ns key = (getVFromKvLenient t ns key).getD .null := by
  unfold readKey
  split
  next store hstore => rw [hcache ns store hstore]
  next => rfl

theorem loadNamespace_loaded (hcache : Loaded t cache) (ns : String) : Loaded t (loadNamespace collate t cache ns) := by
  intro ns' store' hlookup key
  unfold loadNamespace at hlookup
  split at hlookup
  next => exact hcache ns' store' hlookup key
  next =>
    cases hload : getKvStoreOptional collate t ns with
    | none => exact hcache ns' store' (by simpa [hload] using hlookup) key
    | some store =>
      rw [hload, Option.elim_some] at hlookup
      by_cases hns : ns' = ns
      · subst hns
        rw [AList.lookup_insert] at hlookup
        cases hlookup
        exact lookup_getKvStoreOptional t ns' key collate hload
      · rw [AList.lookup_insert_ne hns] at hlookup
        exact hcache ns' store' hlookup key

theorem not_exists_of_loadNamespace {ns : String} (h : (loadNamespace collate t cache ns).lookup ns = none) :
    namespaceExists t ns = false := by
  unfold loadNamespace at h
  split at h
  next hstore => simp [hstore] at h
  next =>
    cases hns : namespaceExists t ns with
    | false => rfl
    | true => simp [getKvStoreOptional, hns] at h

theorem matched_block (item : NamespaceKeyItem) {stem : List Char} (hstem : wildcardPrefix item.key = some stem)
    {store : KvStore} (hstore : ∀ key, store.lookup key = getVFromKvLenient t item.ns key) :
    PlainBlock t.plain item
      (((store.keys.filter fun key => stem.isPrefixOf key.toList).insertionSort fun a b => a ≤ b).filterMap
        fun key => (store.lookup key).map fun value => ⟨item.ns, key, value⟩) := by
  constructor
  · have hnodup : ((store.keys.filter fun key => stem.isPrefixOf key.toList).map id).Nodup := by
      rw [List.map_id]
      exact store.keys_nodup.sublist List.filter_sublist
    refine List.Pairwise.filterMap _ (fun a b hab e he e' he' => ?_) (Keyset.sort_strict hnodup)
    obtain ⟨_, _, rfl⟩ := Option.map_eq_some_iff.mp he
    obtain ⟨_, _, rfl⟩ := Option.map_eq_some_iff.mp he'
    exact hab
  · intro e
    simp only [PlainEntry, hstem]
    rw [plain_bind, ← hstore, List.mem_filterMap]
    constructor
    · intro ⟨key, hkey, he⟩
      obtain ⟨value, hvalue, rfl⟩ := Option.map_eq_some_iff.mp he
      rw [(List.perm_insertionSort ..).mem_iff, List.mem_filter] at hkey
      exact ⟨rfl, List.isPrefixOf_iff_prefix.mp hkey.2, hvalue⟩
    · intro ⟨hns, hbegins, hvalue⟩
      refine ⟨e.key, ?_, by rw [hvalue, ← hns]; rfl⟩
      rw [(List.perm_insertionSort ..).mem_iff, List.mem_filter, ← AList.mem_keys, ← AList.lookup_isSome, hvalue]
      exact ⟨rfl, List.isPrefixOf_iff_prefix.mpr hbegins⟩

theorem readItem_block (hcache : Loaded t cache) (item : NamespaceKeyItem) :
    Loaded t (readItem collate t cache item).1 ∧ PlainBlock t.plain item (readItem collate t cache item).2 := by
  unfold readItem
  split
  next hnone =>
    refine ⟨hcache, List.pairwise_singleton .., fun e => ?_⟩
    simp only [PlainEntry, hnone, plain_bind, readKey_loaded hcache, List.mem_singleton]
  next stem hstem =>
    have hloaded := loadNamespace_loaded collate hcache item.ns
    cases hstore : (loadNamespace collate t cache item.ns).lookup item.ns with
    | none =>
      simp only [hstore]
      refine ⟨hloaded, .nil, fun e => ?_⟩
      simp [PlainEntry, hstem, plain_of_not_exists (not_exists_of_loadNamespace collate hstore)]
    | some store =>
      simp only [hstore]
      exact ⟨hloaded, matched_block item hstem (hloaded item.ns store hstore)⟩

theorem readItems_blocks (hcache : Loaded t cache) (items : List NamespaceKeyItem) :
    ∃ blocks, List.Forall₂ (PlainBlock t.plain) items blocks ∧ readItems collate t cache items = blocks.flatten := by
  induction items generalizing cache with
  | nil => exact ⟨[], .nil, rfl⟩
  | cons item rest ih =>
    obtain ⟨hloaded, hblock⟩ := readItem_block collate hcache item
    obtain ⟨blocks, hblocks, hflat⟩ := ih hloaded
    refine ⟨_, .cons hblock hblocks, ?_⟩
    show (readItem collate t cache item).2 ++ readItems collate t (readItem collate t cache item).1 rest = _
    rw [hflat, List.flatten_cons]

end

/-! ### One request -/

/-- The namespace an operation writes. -/
def Op.writes : Op → Option String
  | .create name => some name
  | .setValue ns _ _ | .deleteKey ns _ | .deleteNamespace ns => some ns
  | .getValue _ _ | .getAllKeys _ | .getMultiValue _ => none

/-- The one accepted operation that the plain map does not follow. -/
def Op.setsMarker : Op → Bool
  | .setValue _ key _ => key == namespaceMarkerKey
  | _ => false

section
variable {collate : String → String → Prop} [DecidableRel collate] {t t' : KvTable} {op : Op} {answer : Answer}

variable {ns : String}

variable (h : Accepted collate t op answer t')
include h

theorem accepted_frame (hns : op.writes ≠ some ns) (key : String) : t'.find ns key = t.find ns key := by
  cases h with
  | create _ _ | setValue _ _ => rw [find_put, if_neg fun hk => hns (congrArg some hk.1)]
  | deleteKey _ _ _ | deleteNamespace _ _ =>
    rw [find_deleteWhere, if_neg]
    intro hk
    simp only [Bool.and_eq_true, beq_iff_eq] at hk
    first | exact hns (congrArg some hk.1.symm) | exact hns (congrArg some hk.symm)
  | getValue | getAllKeys _ | getMultiValue => rfl

theorem accepted_writable (hns : op.writes = some ns) : isReservedNamespace ns = false := by
  cases h with
  | create hw _ | setValue hw _ | deleteKey hw _ _ | deleteNamespace hw _ =>
    cases hns
    exact hw
  | getValue | getAllKeys _ | getMultiValue => cases hns

theorem accepted_marked (ht : Marked t) : Marked t' := by
  intro ns hns
  by_cases hw : op.writes = some ns
  · cases h with
    | create _ _ =>
      cases hw
      simp [find_put]
    | setValue _ hold =>
      cases hw
      rw [find_put]
      split
      next => rfl
      next => exact ht ns hold
    | deleteKey _ hold hkey =>
      cases hw
      rw [find_deleteWhere, if_neg (by simpa using Ne.symm hkey)]
      exact ht ns hold
    | deleteNamespace _ _ =>
      cases hw
      obtain ⟨key, hkey⟩ := (namespaceExists_iff _ ns).mp hns
      simp [find_deleteWhere] at hkey
    | getValue | getAllKeys _ | getMultiValue => cases hw
  · obtain ⟨key, hkey⟩ := (namespaceExists_iff t' ns).mp hns
    rw [accepted_frame h hw] at hkey ⊢
    exact ht ns ((namespaceExists_iff t ns).mpr ⟨key, hkey⟩)

/-- An accepted write changes the plain map in its namespace only. -/
theorem accepted_update (hns : op.writes = some ns) : t'.plain = update t.plain ns (t'.plain ns) := by
  refine plain_update fun ns' hne key => accepted_frame h ?_ key
  rw [hns]
  exact fun heq => hne (Option.some.inj heq).symm

theorem accepted_plain (ht : Marked t) (hop : op.setsMarker = false) : PlainStep t.plain op answer t'.plain := by
  have hupdate : ∀ {ns}, op.writes = some ns → t'.plain = update t.plain ns (t'.plain ns) :=
    accepted_update h
  cases h with
  | create hw hnew =>
    rw [hupdate rfl, plain_create hnew]
    exact .create (plain_of_not_exists hnew)
  | setValue hw hns =>
    rw [hupdate rfl, plain_set (by simpa [Op.setsMarker] using hop)]
    exact .setValue (plain_of_exists hns) _ _
  | getValue =>
    rw [← plain_bind]
    exact .getValue _ _
  | deleteKey hw hns hkey =>
    rw [hupdate rfl, plain_deleteKey hkey (ht _ hns)]
    exact .deleteKey (plain_of_exists hns) _
  | getAllKeys hns =>
    refine .getAllKeys (plain_of_exists hns) (nodup_userRows ..) fun key => ?_
    simp only [List.mem_map, mem_userRows, Option.isSome_iff_exists]
    constructor
    · intro h
      obtain ⟨r, hr, hkey⟩ := h
      exact ⟨r.value, hkey ▸ hr.2⟩
    · intro h
      obtain ⟨value, hvalue⟩ := h
      exact ⟨⟨_, key, value⟩, ⟨rfl, hvalue⟩, rfl⟩
  | getMultiValue =>
    have hempty : Loaded t ∅ := fun ns store hlookup => by cases hlookup
    obtain ⟨blocks, hblocks, hflat⟩ := readItems_blocks collate hempty _
    rw [hflat]
    exact .getMultiValue hblocks
  | deleteNamespace hw hns =>
    rw [hupdate rfl, plain_deleteNamespace]
    exact .deleteNamespace (plain_of_exists hns)

/-- A value set under the marker key would be in the plain map and is not. -/
theorem accepted_marker (hop : op.setsMarker = true) : ¬ PlainStep t.plain op answer t'.plain := by
  intro hstep
  cases h with
  | setValue hw hns =>
    rename_i ns key value
    have hkey : key = namespaceMarkerKey := by simpa [Op.setsMarker] using hop
    subst hkey
    generalize hm : (t.put ⟨ns, namespaceMarkerKey, value⟩).plain = m at hstep
    cases hstep
    have := congrFun hm ns
    rw [plain_set_marker value hns, update_self, plain_of_exists hns] at this
    have := congrFun (Option.some.inj this) namespaceMarkerKey
    simp [getVFromKvLenient] at this
  | create _ _ | getValue | deleteKey _ _ _ | getAllKeys _ | getMultiValue | deleteNamespace _ _ => cases hop

end

/-! ### All requests -/

section
variable (collate : String → String → Prop) [DecidableRel collate]

variable {t : KvTable}

theorem serve_plain (ht : Marked t) (requests : List Request) (hop : ∀ r ∈ requests, r.op.setsMarker = false) :
    PlainRun t.plain (serve collate t requests).1 (serve collate t requests).2.plain := by
  induction requests generalizing t with
  | nil => exact .nil _
  | cons r rest ih =>
    obtain ⟨hr, hrest⟩ := List.forall_mem_cons.mp hop
    rw [serve]
    split
    next => exact ih ht hrest
    next answer t' hhandle =>
      have haccepted := handle_accepted hhandle
      exact .cons (accepted_plain haccepted ht hr) (ih (accepted_marked haccepted ht) hrest)

theorem serve_reserved (requests : List Request) {ns : String} (hns : isReservedNamespace ns = true) (key : String) :
    (serve collate t requests).2.find ns key = t.find ns key := by
  induction requests generalizing t with
  | nil => rfl
  | cons r rest ih =>
    rw [serve]
    split
    next => exact ih
    next answer t' hhandle =>
      have haccepted := handle_accepted hhandle
      refine ih.trans (accepted_frame haccepted (fun hw => ?_) key)
      rw [accepted_writable haccepted hw] at hns
      cases hns

/-- **The store answers as a plain map**, from any table whose namespaces have their
markers. An accepted request is a step of the plain map exactly when it does not set the
marker key, so every sequence of requests without such a set is answered as by the plain
map. An accepted request leaves every namespace it does not write as it was, and no
sequence of requests changes a reserved one. -/
theorem answers_as_plain_map {t : KvTable} (ht : Marked t) :
    (∀ r answer t', handle collate t r = .ok (answer, t') →
      (PlainStep t.plain r.op answer t'.plain ↔ r.op.setsMarker = false)) ∧
    (∀ requests, (∀ r ∈ requests, r.op.setsMarker = false) →
      PlainRun t.plain (serve collate t requests).1 (serve collate t requests).2.plain) ∧
    (∀ r answer t', handle collate t r = .ok (answer, t') →
      ∀ ns, r.op.writes ≠ some ns → ∀ key, t'.find ns key = t.find ns key) ∧
    ∀ requests ns, isReservedNamespace ns = true →
      ∀ key, (serve collate t requests).2.find ns key = t.find ns key := by
  refine ⟨fun r answer t' h => ⟨fun hstep => ?_, accepted_plain (handle_accepted h) ht⟩,
    serve_plain collate ht, fun r answer t' h ns hns => accepted_frame (handle_accepted h) hns,
    fun requests ns hns => serve_reserved collate requests hns⟩
  rw [Bool.eq_false_iff]
  exact fun hop => accepted_marker (handle_accepted h) hop hstep

end

theorem answers_as_plain_map_of_empty :
    Marked .empty ∧
    PlainRun KvTable.empty.plain
      (serve (fun a b => a ≤ b) .empty
        [⟨.ok .superToken, 0, .create "a"⟩, ⟨.ok .superToken, 0, .setValue "a" "k" (.bool true)⟩,
          ⟨.ok .superToken, 0, .getValue "a" "k"⟩]).1
      (serve (fun a b => a ≤ b) .empty
        [⟨.ok .superToken, 0, .create "a"⟩, ⟨.ok .superToken, 0, .setValue "a" "k" (.bool true)⟩,
          ⟨.ok .superToken, 0, .getValue "a" "k"⟩]).2.plain := by
  have ht : Marked .empty := fun ns hns => by cases hns
  refine ⟨ht, (answers_as_plain_map (fun a b => a ≤ b) ht).2.1 _ fun r hr => ?_⟩
  simp only [List.mem_cons, List.not_mem_nil, or_false] at hr
  rcases hr with rfl | rfl | rfl <;> decide

/-- The value set under the marker key is accepted and then answered as null. -/
theorem marker_value_lost :
    (serve (fun a b => a ≤ b) .empty
      [⟨.ok .superToken, 0, .create "a"⟩, ⟨.ok .superToken, 0, .setValue "a" namespaceMarkerKey (.bool true)⟩,
        ⟨.ok .superToken, 0, .getValue "a" namespaceMarkerKey⟩]).1 =
      [(.create "a", .created "a"), (.setValue "a" namespaceMarkerKey (.bool true), .success),
        (.getValue "a" namespaceMarkerKey, .value .null)] ∧
    ∀ last, ¬ PlainRun KvTable.empty.plain
      [(.create "a", .created "a"), (.setValue "a" namespaceMarkerKey (.bool true), .success),
        (.getValue "a" namespaceMarkerKey, .value .null)] last := by
  refine ⟨by rfl, fun last hrun => ?_⟩
  cases hrun with
  | cons hcreate hrun =>
    cases hrun with
    | cons hset hrun =>
      cases hrun with
      | cons hget _ =>
        cases hset
        generalize hanswer : Answer.value .null = answer at hget
        cases hget
        simp at hanswer

end NodeGet.Kv
