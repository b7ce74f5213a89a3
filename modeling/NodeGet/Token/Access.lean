import Mathlib.Data.List.Pairwise
import NodeGet.Token.Mutation

/-! Recognising a credential (`ng-token/src/get.rs`, `check_super_token` of
`super_token.rs`).

There are two ways. `authenticate` compares with the super token first and answers at
once when its key or username is the one presented. `get_token` looks the credential up
in the two indexes, where the super token is filed like any other, and
`check_super_token` is asked separately. Over the cache of a table whose ids, keys and
usernames are unique each of the three says exactly which row accepts the credential
(`authenticate_iff`, `getToken_iff`, `checkSuperToken_iff`), so the two ways agree. -/
namespace NodeGet.Token
open NodeGet.Core

/-- `Token` of `data_structure.rs`: what a caller gets to see of a row. -/
structure TokenInfo where
  version : Int
  tokenKey : String
  timestampFrom : Option Int
  timestampTo : Option Int
  tokenLimit : List Limit
  username : Option String

def CachedToken.token (cached : CachedToken) : TokenInfo where
  version := cached.model.version
  tokenKey := cached.model.tokenKey
  timestampFrom := cached.model.timeStampFrom
  timestampTo := cached.model.timeStampTo
  tokenLimit := cached.parsedLimits
  username := cached.model.username

variable (env : Env)

def getToken (inner : TokenCacheInner) : TokenOrAuth → Except NodegetError TokenInfo
  | .token key secret =>
    match inner.byKey key with
    | none => .error (.permissionDenied authFailedMessage)
    | some entry =>
      if env.hashToBytes secret ≠ entry.tokenHashBytes then .error (.permissionDenied authFailedMessage)
      else .ok entry.token
  | .auth username password =>
    match inner.byUsername username with
    | none => .error (.permissionDenied authFailedMessage)
    | some entry =>
      match entry.passwordHashBytes with
      | none => .error (.permissionDenied authFailedMessage)
      | some stored =>
        if env.hashToBytes password ≠ stored then .error (.permissionDenied authFailedMessage)
        else .ok entry.token

def checkSuperToken (superToken : Option CachedToken) (tokenOrAuth : TokenOrAuth) : Except NodegetError Bool :=
  match superToken with
  | none => .error (.notFound "Super Token record (ID 1) not found in cache")
  | some superEntry =>
    match tokenOrAuth with
    | .token key secret =>
      if key ≠ superEntry.model.tokenKey then .ok false
      else .ok (env.hashToBytes secret == superEntry.tokenHashBytes)
    | .auth username password =>
      if superEntry.model.username ≠ some username then .ok false
      else
        match superEntry.passwordHashBytes with
        | none => .ok false
        | some stored => .ok (env.hashToBytes password == stored)

/-! ### Tables with unique columns -/

/-- The primary key and the unique columns of the `token` table. -/
structure Unique (rows : List Model) : Prop where
  ids : (rows.map (·.id)).Nodup
  keys : (rows.map (·.tokenKey)).Nodup
  usernames : (rows.filterMap (·.username)).Nodup

/-- The credential names the row, whatever its secret or password. -/
def Names (m : Model) : TokenOrAuth → Prop
  | .token key _ => m.tokenKey = key
  | .auth username _ => m.username = some username

variable {env}

variable {m : Model} {cred : TokenOrAuth} {rows : List Model}

theorem Accepts.names (h : Accepts env m cred) : Names m cred := by
  cases cred <;> exact h.1

theorem eq_of_username (h : (rows.filterMap (·.username)).Nodup) {m' : Model} (hm : m ∈ rows) (hm' : m' ∈ rows)
    {username : String} (hu : m.username = some username) (hu' : m'.username = some username) : m = m' := by
  by_contra hne
  have hpairs := List.pairwise_filterMap.mp h
  have hsymm : Std.Symm fun a b : Model =>
      ∀ u, a.username = some u → ∀ v, b.username = some v → u ≠ v :=
    ⟨fun _ _ hab u hu v hv heq => hab v hv u hu heq.symm⟩
  exact hpairs.forall hm hm' hne username hu username hu' rfl

namespace Unique
variable {rows : List Model} (h : Unique rows)
include h

variable {m m' : Model}

theorem eq_of_id (hm : m ∈ rows) (hm' : m' ∈ rows) (hid : m.id = m'.id) : m = m' :=
  List.inj_on_of_nodup_map h.ids hm hm' hid

theorem eq_of_names (hm : m ∈ rows) (hm' : m' ∈ rows) (hn : Names m cred) (hn' : Names m' cred) : m = m' := by
  cases cred with
  | token key secret => exact List.inj_on_of_nodup_map h.keys hm hm' (hn.trans hn'.symm)
  | auth username password => exact eq_of_username h.usernames hm hm' hn hn'

end Unique

/-! ### Every row is filed -/

/-- Every row has an entry under its own columns. -/
structure Files (rows : List Model) (maps : Maps) : Prop where
  byKey : ∀ m ∈ rows, ∃ entry, maps.inner.byKey m.tokenKey = some entry
  byUsername : ∀ m ∈ rows, ∀ username, m.username = some username →
    ∃ entry, maps.inner.byUsername username = some entry
  superToken : ∀ m ∈ rows, m.id = 1 → ∃ entry, maps.superToken = some entry

theorem isSome_update {index : String → Option CachedToken} {name key : String} {entry : CachedToken}
    (h : key = name ∨ ∃ e, index key = some e) : ∃ e, Function.update index name (some entry) key = some e := by
  by_cases hkey : key = name
  · exact ⟨entry, by rw [hkey, Function.update_self]⟩
  · obtain ⟨e, he⟩ := h.resolve_left hkey
    exact ⟨e, by rw [Function.update_of_ne hkey, he]⟩

theorem insert_files {maps : Maps} (h : Files rows maps) (m : Model) :
    Files (rows ++ [m]) (maps.insert (cachedToken env m)) where
  byKey r hr := by
    apply isSome_update
    rcases List.mem_append.mp hr with hold | hnew
    · exact .inr (h.byKey r hold)
    · exact .inl (by rw [List.mem_singleton.mp hnew]; rfl)
  byUsername r hr username huser := by
    have hcases : m.username = some username ∨ ∃ e, maps.inner.byUsername username = some e := by
      rcases List.mem_append.mp hr with hold | hnew
      · exact .inr (h.byUsername r hold username huser)
      · exact .inl (List.mem_singleton.mp hnew ▸ huser)
    simp only [Maps.insert, TokenCacheInner.insert]
    cases hown : (cachedToken env m).model.username with
    | none => exact hcases.resolve_left fun hm => by cases hown.symm.trans hm
    | some name => exact isSome_update (hcases.imp_left fun hm => Option.some.inj (hm.symm.trans hown))
  superToken r hr hid := by
    simp only [Maps.insert]
    split
    next => exact ⟨_, rfl⟩
    next hne =>
      rcases List.mem_append.mp hr with hold | hnew
      · exact h.superToken r hold hid
      · exact absurd (List.mem_singleton.mp hnew ▸ hid) hne

theorem buildMaps_files (env : Env) (rows : List Model) : Files rows (buildMaps env rows) := by
  induction rows using List.reverseRecOn with
  | nil => constructor <;> simp
  | append_singleton rows m ih =>
    rw [buildMaps_append]
    exact insert_files ih m

/-! ### Which row is found -/

section
variable {rows : List Model} (hunique : Unique rows)
include hunique

variable {m : Model}

theorem byKey_eq (hm : m ∈ rows) : (buildMaps env rows).inner.byKey m.tokenKey = some (cachedToken env m) := by
  obtain ⟨entry, hentry⟩ := (buildMaps_files env rows).byKey m hm
  obtain ⟨m', hm', hkey, rfl⟩ := (buildMaps_fromRows env rows).byKey _ _ hentry
  rw [hentry, List.inj_on_of_nodup_map hunique.keys hm' hm hkey]

theorem byUsername_eq (hm : m ∈ rows) {username : String} (huser : m.username = some username) :
    (buildMaps env rows).inner.byUsername username = some (cachedToken env m) := by
  obtain ⟨entry, hentry⟩ := (buildMaps_files env rows).byUsername m hm username huser
  obtain ⟨m', hm', huser', rfl⟩ := (buildMaps_fromRows env rows).byUsername _ _ hentry
  rw [hentry, eq_of_username hunique.usernames hm' hm huser' huser]

theorem superToken_eq {root : Model} (hroot : root ∈ rows) (hid : root.id = 1) :
    (buildMaps env rows).superToken = some (cachedToken env root) := by
  obtain ⟨entry, hentry⟩ := (buildMaps_files env rows).superToken root hroot hid
  obtain ⟨m, hm, hid', rfl⟩ := (buildMaps_fromRows env rows).superToken _ hentry
  rw [hentry, hunique.eq_of_id hm hroot (hid'.trans hid.symm)]

/-- `get_token` succeeds on the credentials of a row, with that row's token. -/
theorem getToken_iff {token : TokenInfo} :
    getToken env (buildMaps env rows).inner cred = .ok token ↔
      ∃ m ∈ rows, Accepts env m cred ∧ (cachedToken env m).token = token := by
  constructor
  · intro h
    unfold getToken at h
    split at h
    next key secret =>
      split at h
      next => cases h
      next entry hentry =>
        obtain ⟨m, hm, hkey, rfl⟩ := (buildMaps_fromRows env rows).byKey _ _ hentry
        split at h
        next => cases h
        next hhash =>
          cases h
          exact ⟨m, hm, ⟨hkey, (not_not.mp hhash).symm⟩, rfl⟩
    next username password =>
      split at h
      next => cases h
      next entry hentry =>
        obtain ⟨m, hm, huser, rfl⟩ := (buildMaps_fromRows env rows).byUsername _ _ hentry
        split at h
        next => cases h
        next stored hstored =>
          split at h
          next => cases h
          next hhash =>
            cases h
            exact ⟨m, hm, ⟨huser, by rw [hstored, not_not.mp hhash]⟩, rfl⟩
  · intro h
    obtain ⟨m, hm, haccepts, rfl⟩ := h
    cases cred with
    | token key secret =>
      obtain ⟨rfl, hhash⟩ := haccepts
      simp only [getToken, byKey_eq hunique hm]
      rw [if_neg (not_not.mpr hhash.symm)]
    | auth username password =>
      obtain ⟨huser, hhash⟩ := haccepts
      simp [getToken, byUsername_eq hunique hm huser, hhash]

end

/-- The super-token check compares with the entry it is given. -/
theorem checkSuperToken_entry (env : Env) (m : Model) (cred : TokenOrAuth) :
    ∃ isSuper, checkSuperToken env (some (cachedToken env m)) cred = .ok isSuper ∧
      (isSuper = true ↔ Accepts env m cred) := by
  cases cred with
  | token key secret =>
    simp only [checkSuperToken, Accepts]
    by_cases hkey : key = m.tokenKey
    · refine ⟨_, if_neg (not_not.mpr hkey), ?_⟩
      rw [beq_iff_eq]
      exact ⟨fun h => ⟨hkey.symm, h.symm⟩, fun h => h.2.symm⟩
    · exact ⟨false, if_pos hkey, by simp [Ne.symm hkey]⟩
  | auth username password =>
    simp only [checkSuperToken, Accepts]
    by_cases huser : (cachedToken env m).model.username = some username
    · rw [if_neg (not_not.mpr huser)]
      cases hstored : (cachedToken env m).passwordHashBytes with
      | none => exact ⟨false, rfl, by simp⟩
      | some stored =>
        refine ⟨_, rfl, ?_⟩
        rw [beq_iff_eq, Option.some.injEq]
        exact ⟨fun h => ⟨huser, h.symm⟩, fun h => h.2.symm⟩
    · exact ⟨false, if_pos huser, fun h => absurd h Bool.false_ne_true, fun h => absurd h.1 huser⟩

/-- The digest a credential is compared with, and what of it is hashed. -/
def CachedToken.stored (cached : CachedToken) : TokenOrAuth → Option Digest
  | .token _ _ => some cached.tokenHashBytes
  | .auth _ _ => cached.passwordHashBytes

def TokenOrAuth.presented : TokenOrAuth → String
  | .token _ secret => secret
  | .auth _ password => password

theorem accepts_iff :
    Accepts env m cred ↔ Names m cred ∧ (cachedToken env m).stored cred = some (env.hashToBytes cred.presented) := by
  cases cred with
  | token key secret => exact and_congr_right fun _ => Option.some_inj.symm
  | auth username password => exact Iff.rfl

theorem error_iff_not_ok {α : Type} {x : Except NodegetError α} : (∃ e, x = .error e) ↔ ¬ ∃ a, x = .ok a := by
  cases x <;> simp

section
variable {rows : List Model} (hunique : Unique rows) {root : Model} (hroot : root ∈ rows) (hid : root.id = 1)
include hunique hroot hid

variable {cred : TokenOrAuth} {isSuper : Bool} {m : Model}

/-- `check_super_token` tells the credentials of the row of id 1 from all others. -/
theorem checkSuperToken_iff :
    checkSuperToken env (buildMaps env rows).superToken cred = .ok isSuper ↔
      (isSuper = true ↔ Accepts env root cred) := by
  rw [superToken_eq hunique hroot hid]
  obtain ⟨answer, hanswer, haccepts⟩ := checkSuperToken_entry env root cred
  rw [hanswer, Except.ok.injEq, ← haccepts, Bool.eq_iff_iff]
  exact iff_comm

/-- Of the rows that accept a credential, the one of id 1 is the one the super token's is. -/
theorem accepts_root_iff (hm : m ∈ rows) (haccepts : Accepts env m cred) : m.id = 1 ↔ Accepts env root cred := by
  constructor
  · intro h
    rwa [← hunique.eq_of_id hm hroot (h.trans hid.symm)]
  · intro hsuper
    rw [hunique.eq_of_names hm hroot haccepts.names hsuper.names, hid]

/-- The row a credential names is the one it is compared with, the super token first or not. -/
theorem authenticate_of_names (hm : m ∈ rows) (hnames : Names m cred) :
    authenticate env (buildMaps env rows) cred =
      verify env (cachedToken env m) ((cachedToken env m).stored cred) cred.presented (decide (m.id = 1)) := by
  have hother : m ≠ root → decide (m.id = 1) = false := by
    intro hne
    exact decide_eq_false fun h => hne (hunique.eq_of_id hm hroot (h.trans hid.symm))
  rw [authenticate, superToken_eq hunique hroot hid]
  cases cred with
  | token key secret =>
    obtain rfl : m.tokenKey = key := hnames
    dsimp only
    by_cases hkey : m.tokenKey = (cachedToken env root).model.tokenKey
    · rw [if_pos hkey, List.inj_on_of_nodup_map hunique.keys hm hroot hkey, decide_eq_true hid]
      rfl
    · rw [if_neg hkey, byKey_eq hunique hm, hother fun h => hkey (h ▸ rfl)]
      rfl
  | auth username password =>
    dsimp only
    by_cases huser : (cachedToken env root).model.username = some username
    · rw [if_pos huser, eq_of_username hunique.usernames hm hroot hnames huser, decide_eq_true hid]
      rfl
    · rw [if_neg huser, byUsername_eq hunique hm hnames, hother fun h => huser (h ▸ hnames)]
      rfl

/-- `authenticate` succeeds on the credentials of a row, with that row's entry, and says
whether it is the row of id 1. -/
theorem authenticate_iff {entry : CachedToken} :
    authenticate env (buildMaps env rows) cred = .ok (entry, isSuper) ↔
      ∃ m ∈ rows, Accepts env m cred ∧ cachedToken env m = entry ∧ isSuper = decide (m.id = 1) := by
  constructor
  · intro h
    obtain ⟨m, hm, hentry, haccepts, -⟩ := authenticate_sound env h
    rw [authenticate_of_names hunique hroot hid hm haccepts.names] at h
    exact ⟨m, hm, haccepts, hentry, (verify_ok env h).2.2⟩
  · intro h
    obtain ⟨m, hm, haccepts, rfl, rfl⟩ := h
    rw [authenticate_of_names hunique hroot hid hm haccepts.names, verify, if_pos (accepts_iff.mp haccepts).2]

/-- **The two ways of recognising a credential agree** over the cache of a table with unique
keys and usernames: `authenticate` returns a row's entry and whether it is the super token
exactly when `get_token` returns that row's token and `check_super_token` says the same; if
it fails, so does `get_token`; and it answers "super" exactly to the credentials of the row
of id 1. -/
theorem authenticate_agrees (cred : TokenOrAuth) :
    let maps := buildMaps env rows
    (∀ m ∈ rows, ∀ isSuper, authenticate env maps cred = .ok (cachedToken env m, isSuper) ↔
      getToken env maps.inner cred = .ok (cachedToken env m).token ∧
        checkSuperToken env maps.superToken cred = .ok isSuper) ∧
      (∀ entry isSuper, authenticate env maps cred = .ok (entry, isSuper) →
        ∃ m ∈ rows, entry = cachedToken env m) ∧
      ((∃ e, authenticate env maps cred = .error e) ↔ ∃ e, getToken env maps.inner cred = .error e) ∧
      ((∃ entry, authenticate env maps cred = .ok (entry, true)) ↔ Accepts env root cred) := by
  intro maps
  refine ⟨?_, ?_, ?_, ?_⟩
  · intro m hm isSuper
    rw [authenticate_iff hunique hroot hid, getToken_iff hunique, checkSuperToken_iff hunique hroot hid]
    constructor
    · intro h
      obtain ⟨m', hm', haccepts, heq, rfl⟩ := h
      obtain rfl : m' = m := congrArg CachedToken.model heq
      refine ⟨⟨m', hm, haccepts, rfl⟩, ?_⟩
      rw [decide_eq_true_iff]
      exact accepts_root_iff hunique hroot hid hm haccepts
    · intro ⟨h, hsuper⟩
      obtain ⟨m', hm', haccepts, heq⟩ := h
      obtain rfl : m' = m := List.inj_on_of_nodup_map hunique.keys hm' hm (congrArg TokenInfo.tokenKey heq)
      refine ⟨m', hm, haccepts, rfl, ?_⟩
      rw [Bool.eq_iff_iff, hsuper, decide_eq_true_iff]
      exact (accepts_root_iff hunique hroot hid hm haccepts).symm
  · intro entry isSuper h
    obtain ⟨m, hm, -, rfl, -⟩ := (authenticate_iff hunique hroot hid).mp h
    exact ⟨m, hm, rfl⟩
  · rw [error_iff_not_ok, error_iff_not_ok, not_iff_not]
    constructor
    · intro ⟨result, h⟩
      obtain ⟨m, hm, haccepts, -⟩ := (authenticate_iff hunique hroot hid).mp h
      exact ⟨_, (getToken_iff hunique).mpr ⟨m, hm, haccepts, rfl⟩⟩
    · intro ⟨token, h⟩
      obtain ⟨m, hm, haccepts, -⟩ := (getToken_iff hunique).mp h
      exact ⟨_, (authenticate_iff hunique hroot hid).mpr ⟨m, hm, haccepts, rfl, rfl⟩⟩
  · constructor
    · intro ⟨entry, h⟩
      obtain ⟨m, hm, haccepts, -, hsuper⟩ := (authenticate_iff hunique hroot hid).mp h
      exact (accepts_root_iff hunique hroot hid hm haccepts).mp (of_decide_eq_true hsuper.symm)
    · intro haccepts
      exact ⟨_, (authenticate_iff hunique hroot hid).mpr
        ⟨root, hroot, haccepts, rfl, (decide_eq_true hid).symm⟩⟩

end

theorem sampleRows_unique : Unique sampleRows := ⟨by decide, by decide, by decide⟩

theorem authenticate_agrees_sample :
    (∃ entry, authenticate sampleEnv (buildMaps sampleEnv sampleRows) (.token "rootkey" "rootsecret") =
      .ok (entry, true)) ∧
    ((∃ e, authenticate sampleEnv (buildMaps sampleEnv sampleRows) (.token "rootkey" "wrong") = .error e) ↔
      ∃ e, getToken sampleEnv (buildMaps sampleEnv sampleRows).inner (.token "rootkey" "wrong") = .error e) :=
  ⟨⟨_, rfl⟩, (authenticate_agrees sampleRows_unique List.mem_cons_self rfl (.token "rootkey" "wrong")).2.2.1⟩

end NodeGet.Token
