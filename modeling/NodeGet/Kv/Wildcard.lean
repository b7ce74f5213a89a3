import NodeGet.Kv.Refinement

/-! Reading by pattern and reading by key.

A multi-get checks a pattern once and then returns every key it matches. Granted
patterns are compared with the requested one as texts, so `meta**` covers the request
`meta*` without covering a single key that begins with `meta`. A stored key that
contains `*` is returned by a pattern and refused by the check for a single key. Apart
from these two, whoever may read a pattern may read each key it matches
(`patternReads_iff`). -/
namespace NodeGet.Kv
open NodeGet.Core NodeGet.Data

/-! ### Patterns -/

variable {granted : Permission} {key pattern ns : String} {stem : List Char} {limits : List Limit}

theorem permissionMatches_read :
    permissionMatches granted (.kv (.read key)) = true ↔
      ∃ pattern, granted = .kv (.read pattern) ∧ wildcardMatchesPattern key pattern = true := by
  constructor
  · intro h
    rcases Bool.or_eq_true_iff.mp h with heq | hmatch
    · exact ⟨key, by simpa using heq, wildcardMatchesPattern_self key⟩
    · split at hmatch <;> simp_all
  · intro ⟨pattern, hgranted, hmatch⟩
    subst hgranted
    exact Bool.or_eq_true_iff.mpr (.inr hmatch)

/-- What covers the pattern `stem*`, other than the same with one more star, covers every
key that begins with the stem. -/
theorem covers_key_of_covers_pattern (hstem : pattern.toList = stem ++ ['*'])
    (hcovers : permissionMatches granted (.kv (.read pattern)) = true) (hother : granted ≠ .kv (.read (pattern ++ "*")))
    (hkey : stem <+: key.toList) : permissionMatches granted (.kv (.read key)) = true := by
  obtain ⟨text, rfl, hmatch⟩ := permissionMatches_read.mp hcovers
  have htext : text ≠ pattern ++ "*" := fun heq => hother (heq ▸ rfl)
  exact permissionMatches_read.mpr ⟨text, rfl, wildcardMatchesPattern_of_matches_pattern hstem hmatch htext hkey⟩

/-! ### What a multi-get returns -/

theorem mem_flatten_blocks {m : PlainMap} {items : List NamespaceKeyItem} {blocks : List (List KvValueItem)}
    (h : List.Forall₂ (PlainBlock m) items blocks) (e : KvValueItem) :
    e ∈ blocks.flatten ↔ ∃ item ∈ items, PlainEntry m item e := by
  induction h with
  | nil => simp
  | cons hblock _ ih => simp [hblock.mem_iff, ih]

theorem mem_readItems (collate : String → String → Prop) [DecidableRel collate] (t : KvTable)
    (items : List NamespaceKeyItem) (e : KvValueItem) :
    e ∈ readItems collate t ∅ items ↔ ∃ item ∈ items, PlainEntry t.plain item e := by
  have hempty : Loaded t ∅ := fun ns store hlookup => by cases hlookup
  obtain ⟨blocks, hblocks, hflat⟩ := readItems_blocks collate hempty items
  rw [hflat, mem_flatten_blocks hblocks]

/-! ### The checks -/

theorem checkKvPermission_token {grant : Grant} {now : Int} {permissions : List KvPermission} {refusal : String} :
    checkKvPermission (.ok (.token grant)) now ns permissions refusal = .ok () ↔
      resolveTokenForKvCheck now (.token grant) = .token grant.tokenLimit ∧
      ∃ p ∈ permissions, checkLimitsCover grant.tokenLimit (.kvNamespace ns) (.kv p) = true := by
  have hstate : resolveTokenForKvCheck now (.token grant) = .denied ∨
      resolveTokenForKvCheck now (.token grant) = .token grant.tokenLimit := by
    rw [resolveTokenForKvCheck]
    split
    · exact .inl rfl
    · split
      · exact .inl rfl
      · exact .inr rfl
  rcases hstate with hdenied | htoken
  · simp [checkKvPermission, Except.bind, hdenied]
  · simp only [checkKvPermission, Except.bind, htoken, true_and]
    split
    next hany => simpa using hany
    next hany => simpa using hany

section
variable {grant : Grant} {now : Int} {ns key : String}

theorem checkKvReadPermission_token :
    checkKvReadPermission (.ok (.token grant)) now ns key = .ok () ↔
      validateNamespace ns = .ok () ∧ '*' ∉ key.toList ∧
      resolveTokenForKvCheck now (.token grant) = .token grant.tokenLimit ∧
      (checkLimitsCover grant.tokenLimit (.kvNamespace ns) (.kv (.read "*")) = true ∨
        checkLimitsCover grant.tokenLimit (.kvNamespace ns) (.kv (.read key)) = true) := by
  have hkey : validateKey key = .ok () ↔ '*' ∉ key.toList := by
    rw [validateKey]
    split <;> simp_all
  rw [checkKvReadPermission, check_ok_iff, check_ok_iff, checkKvPermission_token, hkey]
  simp

theorem checkKvReadPermissionWithPattern_token :
    checkKvReadPermissionWithPattern (.ok (.token grant)) now ns key = .ok () ↔
      validateNamespace ns = .ok () ∧ validateKeyPattern key = .ok () ∧
      resolveTokenForKvCheck now (.token grant) = .token grant.tokenLimit ∧
      (checkLimitsCover grant.tokenLimit (.kvNamespace ns) (.kv (.read "*")) = true ∨
        checkLimitsCover grant.tokenLimit (.kvNamespace ns) (.kv (.read key)) = true) := by
  rw [checkKvReadPermissionWithPattern, check_ok_iff, check_ok_iff, checkKvPermission_token]
  simp

end

theorem no_star_of_key (h : validateKeyPattern pattern = .ok ()) (hkey : wildcardPrefix pattern = none) :
    '*' ∉ pattern.toList := by
  intro hstar
  rw [wildcardPrefix, if_pos hstar, stripSuffix] at hkey
  unfold validateKeyPattern at h
  split at h
  next => cases h
  next =>
    split at h
    next => cases h
    next hlast =>
      rw [if_pos (not_not.mp (not_or.mp hlast).2)] at hkey
      cases hkey

theorem stem_of_pattern (h : wildcardPrefix pattern = some stem) : pattern.toList = stem ++ ['*'] := by
  unfold wildcardPrefix at h
  split at h
  next => exact stripSuffix_eq_some_iff.mp h
  next => cases h

/-! ### Patterns that reach further than keys -/

/-- The namespace's keys are all granted, or some granted pattern other than the requested
one with one more star covers the requested one. -/
def coversOtherwise (limits : List Limit) (ns pattern : String) : Bool :=
  limits.any fun limit => limit.scopes.any (scopeMatches · (.kvNamespace ns)) &&
    limit.permissions.any fun granted => permissionMatches granted (.kv (.read "*")) ||
      (permissionMatches granted (.kv (.read pattern)) && granted != .kv (.read (pattern ++ "*")))

theorem covers_of_coversOtherwise (hstem : pattern.toList = stem ++ ['*'])
    (h : coversOtherwise limits ns pattern = true) (hkey : stem <+: key.toList) :
    checkLimitsCover limits (.kvNamespace ns) (.kv (.read "*")) = true ∨
      checkLimitsCover limits (.kvNamespace ns) (.kv (.read key)) = true := by
  obtain ⟨limit, hlimit, h⟩ := List.any_eq_true.mp h
  obtain ⟨hscope, hgranted⟩ := Bool.and_eq_true_iff.mp h
  obtain ⟨granted, hmem, hcovers⟩ := List.any_eq_true.mp hgranted
  have hlift : ∀ required, permissionMatches granted required = true →
      checkLimitsCover limits (.kvNamespace ns) required = true := by
    intro required hmatch
    refine List.any_eq_true.mpr ⟨limit, hlimit, Bool.and_eq_true_iff.mpr ⟨hscope, ?_⟩⟩
    exact List.any_eq_true.mpr ⟨granted, hmem, hmatch⟩
  rcases Bool.or_eq_true_iff.mp hcovers with hall | hpattern
  · exact .inl (hlift _ hall)
  · obtain ⟨hmatch, hother⟩ := Bool.and_eq_true_iff.mp hpattern
    exact .inr (hlift _ (covers_key_of_covers_pattern hstem hmatch (by simpa using hother) hkey))

theorem coversOtherwise_of_all (pattern : String)
    (h : checkLimitsCover limits (.kvNamespace ns) (.kv (.read "*")) = true) :
    coversOtherwise limits ns pattern = true := by
  obtain ⟨limit, hlimit, h⟩ := List.any_eq_true.mp h
  obtain ⟨hscope, hgranted⟩ := Bool.and_eq_true_iff.mp h
  obtain ⟨granted, hmem, hcovers⟩ := List.any_eq_true.mp hgranted
  refine List.any_eq_true.mpr ⟨limit, hlimit, Bool.and_eq_true_iff.mpr ⟨hscope, ?_⟩⟩
  exact List.any_eq_true.mpr ⟨granted, hmem, Bool.or_eq_true_iff.mpr (.inl hcovers)⟩

/-- The stored keys that a pattern of the request matches contain no star, and each is
granted on its own where only the pattern with one more star covers the pattern. -/
def NoPatternGap (t : KvTable) (limits : List Limit) (items : List NamespaceKeyItem) : Prop :=
  ∀ item ∈ items, ∀ stem, wildcardPrefix item.key = some stem →
    ∀ key value, getVFromKvLenient t item.ns key = some value → stem <+: key.toList →
      '*' ∉ key.toList ∧ (coversOtherwise limits item.ns item.key = true ∨
        checkLimitsCover limits (.kvNamespace item.ns) (.kv (.read key)) = true)

/-- **Reading by pattern is no stronger than reading by key**, exactly when there is no gap:
each entry that an accepted multi-get of a token returns may be read on its own by the same
token at the same time. -/
theorem patternReads_iff (collate : String → String → Prop) [DecidableRel collate] {t : KvTable} {grant : Grant}
    {now : Int} {items : List NamespaceKeyItem} {entries : List KvValueItem}
    (h : getMultiValue collate t (.ok (.token grant)) now items = .ok entries) :
    (∀ e ∈ entries, checkKvReadPermission (.ok (.token grant)) now e.ns e.key = .ok ()) ↔
      NoPatternGap t grant.tokenLimit items := by
  unfold getMultiValue at h
  split at h
  next => cases h
  next =>
    obtain ⟨hchecks, hread⟩ := check_ok_iff.mp h
    cases hread
    constructor
    · intro hall item hitem stem hstem key value hvalue hbegins
      have hentry : ⟨item.ns, key, value⟩ ∈ readItems collate t ∅ items := by
        refine (mem_readItems collate t items _).mpr ⟨item, hitem, ?_⟩
        simpa only [PlainEntry, hstem, plain_bind, true_and] using ⟨hbegins, hvalue⟩
      obtain ⟨-, hstar, -, hcovers⟩ := checkKvReadPermission_token.mp (hall _ hentry)
      exact ⟨hstar, hcovers.imp_left (coversOtherwise_of_all item.key)⟩
    · intro hgap e he
      obtain ⟨item, hitem, hentry⟩ := (mem_readItems collate t items e).mp he
      obtain ⟨hns, hpattern, htoken, hcovers⟩ :=
        checkKvReadPermissionWithPattern_token.mp (forM_ok hchecks hitem)
      cases hstem : wildcardPrefix item.key with
      | none =>
        simp only [PlainEntry, hstem] at hentry
        subst hentry
        exact checkKvReadPermission_token.mpr ⟨hns, no_star_of_key hpattern hstem, htoken, hcovers⟩
      | some stem =>
        simp only [PlainEntry, hstem, plain_bind] at hentry
        obtain ⟨hens, hbegins, hvalue⟩ := hentry
        obtain ⟨hstar, hgranted⟩ := hgap item hitem stem hstem e.key e.value hvalue hbegins
        rw [hens]
        refine checkKvReadPermission_token.mpr ⟨hns, hstar, htoken, ?_⟩
        rcases hgranted with hother | hown
        · exact covers_of_coversOtherwise (stem_of_pattern hstem) hother hbegins
        · exact .inr hown

/-- A namespace with one key. -/
def oneKey : KvTable where
  rows := [⟨"cfg", namespaceMarkerKey, .null⟩, ⟨"cfg", "meta_a", .bool true⟩]
  unique := by decide

/-- A token without a time window that grants one pattern on that namespace. -/
def granting (pattern : String) : Grant := ⟨none, none, [⟨[.kvNamespace "cfg"], [.kv (.read pattern)]⟩]⟩

theorem patternReads_iff_one_star :
    getMultiValue (fun a b => a ≤ b) oneKey (.ok (.token (granting "meta*"))) 0 [⟨"cfg", "meta*"⟩] =
      .ok [⟨"cfg", "meta_a", .bool true⟩] ∧
    ((∀ e ∈ [(⟨"cfg", "meta_a", .bool true⟩ : KvValueItem)],
      checkKvReadPermission (.ok (.token (granting "meta*"))) 0 e.ns e.key = .ok ()) ↔
      NoPatternGap oneKey (granting "meta*").tokenLimit [⟨"cfg", "meta*"⟩]) :=
  have h : getMultiValue (fun a b => a ≤ b) oneKey (.ok (.token (granting "meta*"))) 0 [⟨"cfg", "meta*"⟩] =
      .ok [⟨"cfg", "meta_a", .bool true⟩] := rfl
  ⟨h, patternReads_iff (fun a b => a ≤ b) h⟩

/-- With two stars granted, the pattern with one star returns a key that may not be read. -/
theorem two_stars_read_by_pattern_only :
    getMultiValue (fun a b => a ≤ b) oneKey (.ok (.token (granting "meta**"))) 0 [⟨"cfg", "meta*"⟩] =
      .ok [⟨"cfg", "meta_a", .bool true⟩] ∧
    checkKvReadPermission (.ok (.token (granting "meta**"))) 0 "cfg" "meta_a" =
      .error (.permissionDenied "No read permission for key 'meta_a' in namespace 'cfg'") :=
  ⟨rfl, rfl⟩

end NodeGet.Kv
