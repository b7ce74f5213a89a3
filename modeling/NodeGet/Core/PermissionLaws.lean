import Mathlib.Data.List.Perm.Basic
import Mathlib.Data.List.Forall2
import NodeGet.Core.Permission

/-! The laws of `check_token_limit` (`ng-token/src/get.rs`) for a token that is not the super
token.

The loops come down to one sentence: the token is in force, and for every scope and every
permission of the request there is a limit that covers the pair (`checkTokenLimit_iff`). A
list of limits matters only by what its limits contain, so what is added to it takes no
grant away and its order does not count (`Wider`). -/
namespace NodeGet.Core

/-- One limit grants the permission on the scope. -/
def Limit.Covers (limit : Limit) (scope : Scope) (permission : Permission) : Prop :=
  (∃ s ∈ limit.scopes, scopeMatches s scope = true) ∧ ∃ p ∈ limit.permissions, permissionMatches p permission = true

def Grant.InForce (grant : Grant) (now : Int) : Prop :=
  (∀ start, grant.timestampFrom = some start → start ≤ now) ∧ ∀ stop, grant.timestampTo = some stop → now ≤ stop

theorem checkLimitsCover_iff (limits : List Limit) (scope : Scope) (permission : Permission) :
    checkLimitsCover limits scope permission = true ↔ ∃ limit ∈ limits, limit.Covers scope permission := by
  simp [checkLimitsCover, Limit.Covers]

theorem checkTokenLimit_iff (grant : Grant) (now : Int) (scopes : List Scope) (permissions : List Permission) :
    checkTokenLimit grant now scopes permissions = true ↔
      grant.InForce now ∧ ∀ scope ∈ scopes, ∀ permission ∈ permissions,
        ∃ limit ∈ grant.tokenLimit, limit.Covers scope permission := by
  have hstart : (!grant.timestampFrom.any (now < ·)) = true ↔
      ∀ start, grant.timestampFrom = some start → start ≤ now := by
    cases grant.timestampFrom <;> simp
  have hstop : (!grant.timestampTo.any (· < now)) = true ↔ ∀ stop, grant.timestampTo = some stop → now ≤ stop := by
    cases grant.timestampTo <;> simp
  rw [checkTokenLimit, Bool.and_eq_true, Bool.and_eq_true, hstart, hstop]
  simp only [List.all_eq_true, checkLimitsCover_iff, Grant.InForce]

/-! ### More limits, and the same limits in another order -/

/-- Each limit is contained in one of the others. -/
def Wider (limits wider : List Limit) : Prop :=
  ∀ limit ∈ limits, ∃ w ∈ wider, limit.scopes ⊆ w.scopes ∧ limit.permissions ⊆ w.permissions

theorem Limit.Covers.mono {limit wider : Limit} {scope : Scope} {permission : Permission}
    (hscopes : limit.scopes ⊆ wider.scopes) (hpermissions : limit.permissions ⊆ wider.permissions)
    (h : limit.Covers scope permission) : wider.Covers scope permission := by
  obtain ⟨⟨s, hs, hscope⟩, p, hp, hpermission⟩ := h
  exact ⟨⟨s, hscopes hs, hscope⟩, p, hpermissions hp, hpermission⟩

theorem Wider.refl (limits : List Limit) : Wider limits limits := fun limit hmem =>
  ⟨limit, hmem, List.Subset.refl _, List.Subset.refl _⟩

/-- Wider limits grant what was granted, on fewer scopes and permissions too. -/
theorem Wider.grants {grant : Grant} {wider : List Limit} (h : Wider grant.tokenLimit wider) {now : Int}
    {scopes scopes' : List Scope} {permissions permissions' : List Permission} (hscopes : scopes' ⊆ scopes)
    (hpermissions : permissions' ⊆ permissions) (hgranted : checkTokenLimit grant now scopes permissions = true) :
    checkTokenLimit { grant with tokenLimit := wider } now scopes' permissions' = true := by
  rw [checkTokenLimit_iff] at hgranted ⊢
  refine ⟨hgranted.1, fun scope hscope permission hpermission => ?_⟩
  obtain ⟨limit, hlimit, hcovers⟩ := hgranted.2 scope (hscopes hscope) permission (hpermissions hpermission)
  obtain ⟨w, hw, hs, hp⟩ := h limit hlimit
  exact ⟨w, hw, hcovers.mono hs hp⟩

/-- One addition: a limit to the list, or a scope or a permission to one of its limits. -/
inductive Extends : List Limit → List Limit → Prop
  | limit (before : List Limit) (added : Limit) (after : List Limit) :
    Extends (before ++ after) (before ++ added :: after)
  | scope (before : List Limit) (first : List Scope) (added : Scope) (last : List Scope)
    (permissions : List Permission) (after : List Limit) :
    Extends (before ++ ⟨first ++ last, permissions⟩ :: after) (before ++ ⟨first ++ added :: last, permissions⟩ :: after)
  | permission (before : List Limit) (scopes : List Scope) (first : List Permission) (added : Permission)
    (last : List Permission) (after : List Limit) :
    Extends (before ++ ⟨scopes, first ++ last⟩ :: after) (before ++ ⟨scopes, first ++ added :: last⟩ :: after)

/-- A limit replaced by a wider one. -/
theorem Wider.replace (before : List Limit) {limit wider : Limit} (hscopes : limit.scopes ⊆ wider.scopes)
    (hpermissions : limit.permissions ⊆ wider.permissions) (after : List Limit) :
    Wider (before ++ limit :: after) (before ++ wider :: after) := by
  intro l hl
  simp only [List.mem_append, List.mem_cons] at hl ⊢
  rcases hl with hl | rfl | hl
  · exact ⟨l, .inl hl, List.Subset.refl _, List.Subset.refl _⟩
  · exact ⟨wider, .inr (.inl rfl), hscopes, hpermissions⟩
  · exact ⟨l, .inr (.inr hl), List.Subset.refl _, List.Subset.refl _⟩

variable {limits limits' : List Limit}

theorem Extends.wider (h : Extends limits limits') : Wider limits limits' := by
  have hadded : ∀ {α : Type} (first : List α) (added : α) (last : List α), first ++ last ⊆ first ++ added :: last := by
    intro α first added last
    exact (List.sublist_cons_self added last).append_left first |>.subset
  cases h with
  | limit before added after =>
    intro l hl
    exact ⟨l, hadded before added after hl, List.Subset.refl _, List.Subset.refl _⟩
  | scope before first added last permissions after =>
    apply Wider.replace before
    · exact hadded first added last
    · exact List.Subset.refl permissions
  | permission before scopes first added last after =>
    apply Wider.replace before
    · exact List.Subset.refl scopes
    · exact hadded first added last

/-- The same limits in another order, each with its scopes and permissions in another order. -/
def Reordered (limits limits' : List Limit) : Prop :=
  ∃ moved, limits.Perm moved ∧
    List.Forall₂ (fun a b => a.scopes.Perm b.scopes ∧ a.permissions.Perm b.permissions) moved limits'

theorem Wider.of_forall₂
    (h : List.Forall₂ (fun a b => a.scopes ⊆ b.scopes ∧ a.permissions ⊆ b.permissions) limits limits') :
    Wider limits limits' := by
  induction h with
  | nil => exact Wider.refl []
  | cons hfirst _ ih =>
    intro limit hlimit
    rcases List.mem_cons.mp hlimit with rfl | hlimit
    · exact ⟨_, List.mem_cons_self, hfirst⟩
    · obtain ⟨w, hw, hinside⟩ := ih limit hlimit
      exact ⟨w, List.mem_cons_of_mem _ hw, hinside⟩

theorem Reordered.wider (h : Reordered limits limits') :
    Wider limits limits' ∧ Wider limits' limits := by
  obtain ⟨moved, hperm, hinside⟩ := h
  constructor
  · intro limit hlimit
    exact Wider.of_forall₂ (hinside.imp fun _ _ hsame => ⟨hsame.1.subset, hsame.2.subset⟩) limit
      (hperm.mem_iff.mp hlimit)
  · intro limit hlimit
    obtain ⟨w, hw, hcontains⟩ := Wider.of_forall₂
      (hinside.flip.imp fun _ _ hsame => ⟨hsame.1.symm.subset, hsame.2.symm.subset⟩) limit hlimit
    exact ⟨w, hperm.mem_iff.mpr hw, hcontains⟩

/-- The order of the limits, of what is in them and of the request does not count. -/
theorem Reordered.answers {grant : Grant} (h : Reordered grant.tokenLimit limits) (now : Int)
    {scopes scopes' : List Scope} (hscopes : scopes.Perm scopes') {permissions permissions' : List Permission}
    (hpermissions : permissions.Perm permissions') :
    checkTokenLimit { grant with tokenLimit := limits } now scopes' permissions' =
      checkTokenLimit grant now scopes permissions := by
  refine Bool.eq_iff_iff.mpr ⟨fun hgranted => ?_, fun hgranted => ?_⟩
  · have hback : Wider { grant with tokenLimit := limits }.tokenLimit grant.tokenLimit := h.wider.2
    exact hback.grants hscopes.subset hpermissions.subset hgranted
  · exact h.wider.1.grants hscopes.symm.subset hpermissions.symm.subset hgranted

/-! ### Requests put together -/

theorem checkTokenLimit_append_scopes (grant : Grant) (now : Int) (scopes scopes' : List Scope)
    (permissions : List Permission) :
    checkTokenLimit grant now (scopes ++ scopes') permissions = true ↔
      checkTokenLimit grant now scopes permissions = true ∧ checkTokenLimit grant now scopes' permissions = true := by
  simp only [checkTokenLimit_iff, List.forall_mem_append]
  exact and_and_left

theorem checkTokenLimit_append_permissions (grant : Grant) (now : Int) (scopes : List Scope)
    (permissions permissions' : List Permission) :
    checkTokenLimit grant now scopes (permissions ++ permissions') = true ↔
      checkTokenLimit grant now scopes permissions = true ∧ checkTokenLimit grant now scopes permissions' = true := by
  simp only [checkTokenLimit_iff, List.forall_mem_append, forall₂_and]
  exact and_and_left

/-- **A grant is a covering limit for every pair while the token is in force; additions take
nothing away, order does not count, and a request is its four parts.** -/
theorem cover_laws (grant : Grant) (now : Int) (scopes : List Scope) (permissions : List Permission) :
    (checkTokenLimit grant now scopes permissions = true ↔
        grant.InForce now ∧ ∀ scope ∈ scopes, ∀ permission ∈ permissions,
          ∃ limit ∈ grant.tokenLimit, limit.Covers scope permission) ∧
      (∀ limits, Extends grant.tokenLimit limits → checkTokenLimit grant now scopes permissions = true →
        checkTokenLimit { grant with tokenLimit := limits } now scopes permissions = true) ∧
      (∀ limits scopes' permissions', Reordered grant.tokenLimit limits → scopes.Perm scopes' →
        permissions.Perm permissions' →
          checkTokenLimit { grant with tokenLimit := limits } now scopes' permissions' =
            checkTokenLimit grant now scopes permissions) ∧
      ∀ scopes' permissions',
        checkTokenLimit grant now (scopes ++ scopes') (permissions ++ permissions') = true ↔
          (checkTokenLimit grant now scopes permissions = true ∧ checkTokenLimit grant now scopes permissions' = true) ∧
            checkTokenLimit grant now scopes' permissions = true ∧
              checkTokenLimit grant now scopes' permissions' = true := by
  refine ⟨checkTokenLimit_iff grant now scopes permissions, ?_, ?_, ?_⟩
  · intro limits hextends hgranted
    exact hextends.wider.grants (List.Subset.refl _) (List.Subset.refl _) hgranted
  · intro limits scopes' permissions' hreordered hscopes hpermissions
    exact hreordered.answers now hscopes hpermissions
  · intro scopes' permissions'
    rw [checkTokenLimit_append_scopes, checkTokenLimit_append_permissions, checkTokenLimit_append_permissions]

end NodeGet.Core
