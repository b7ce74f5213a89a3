import NodeGet.Machine.Run
import NodeGet.Token.Access

/-! A permission check while the super token is replaced (`check_token_limit` of
`ng-token/src/get.rs` against `reload_from_models` of `cache.rs`).

The check reads the super-token slot and, if the credential is not the super token's,
then the indexes. The reload replaces the indexes first and the slot second. Between the
two replacements the new super token is in the indexes but not in the slot, so it is
taken for an ordinary token and judged by its own limits; what keeps it from being granted
less than everything is that the server writes the row of id 1 without limits. -/
namespace NodeGet.Token
open NodeGet.Core NodeGet.Machine

/-! ### The check and its two reads -/

/-- How a check ends: recognised as the super token, judged by a token's limits, or failed. -/
inductive Decision where
  | superToken
  | token (allowed : Bool)
  | failed (e : NodegetError)

def Decision.result : Decision → Except NodegetError Bool
  | .superToken => .ok true
  | .token allowed => .ok allowed
  | .failed e => .error e

structure CheckRequest where
  tokenOrAuth : TokenOrAuth
  scopes : List Scope
  permissions : List Permission
  now : Except NodegetError Int

variable (env : Env)

/-- The first read: the slot. `none` when the credential is not the super token's. -/
def checkSuperSlot (superToken : Option CachedToken) (req : CheckRequest) : Option Decision :=
  match checkSuperToken env superToken req.tokenOrAuth with
  | .error e => some (.failed (.permissionDenied e.display))
  | .ok true => some .superToken
  | .ok false => none

/-- The second read: the indexes. -/
def checkLimits (inner : TokenCacheInner) (req : CheckRequest) : Decision :=
  match getToken env inner req.tokenOrAuth with
  | .error e => .failed e
  | .ok token =>
    match req.now with
    | .error e => .failed e
    | .ok now => .token (Core.checkTokenLimit ⟨token.timestampFrom, token.timestampTo, token.tokenLimit⟩ now
        req.scopes req.permissions)

inductive CheckPc where
  | start
  | notSuper
  | done (decision : Decision)

/-- The cache, the replacements a reload has still to make, and a check on its way. -/
structure Window where
  inner : TokenCacheInner
  superToken : Option CachedToken
  swaps : List Slot
  check : CheckPc

inductive Turn where
  | reload
  | check

/-- One replacement of the reload that puts `new` in place, or one read of the check. -/
def windowStep (new : Maps) (req : CheckRequest) (w : Window) : Turn → Option Window
  | .reload =>
    match w.swaps with
    | [] => none
    | .inner :: rest => some {w with inner := new.inner, swaps := rest}
    | .superToken :: rest => some {w with superToken := new.superToken, swaps := rest}
  | .check =>
    match w.check with
    | .start => some {w with check := (checkSuperSlot env w.superToken req).elim .notSuper .done}
    | .notSuper => some {w with check := .done (checkLimits env w.inner req)}
    | .done _ => none

/-- The reload has loaded the new table, and nothing has been replaced or read. -/
def openWindow (old : Maps) : Window where
  inner := old.inner
  superToken := old.superToken
  swaps := (reloadDesign env).slots
  check := .start

/-! ### What a decision can be -/

variable {env}

/-- A token is granted something only by its own row, and only by a limit. -/
theorem checkLimits_granted {rows : List Model} (hunique : Unique rows) {req : CheckRequest}
    (hscopes : req.scopes ≠ []) (hpermissions : req.permissions ≠ [])
    (h : (checkLimits env (buildMaps env rows).inner req).result = .ok true) :
    ∃ m ∈ rows, Accepts env m req.tokenOrAuth ∧ (cachedToken env m).parsedLimits ≠ [] := by
  unfold checkLimits at h
  split at h
  next => cases h
  next token htoken =>
    obtain ⟨m, hm, haccepts, rfl⟩ := (getToken_iff hunique).mp htoken
    split at h
    next => cases h
    next now _ =>
      refine ⟨m, hm, haccepts, fun hnone => ?_⟩
      obtain ⟨scope, hscope⟩ := List.exists_mem_of_ne_nil _ hscopes
      obtain ⟨permission, hpermission⟩ := List.exists_mem_of_ne_nil _ hpermissions
      have hcover := checkTokenLimit_covers (Except.ok.inj h) hscope hpermission
      simp only [CachedToken.token, hnone, checkLimitsCover, List.any_nil] at hcover
      cases hcover

theorem checkLimits_ne_super (inner : TokenCacheInner) (req : CheckRequest) :
    checkLimits env inner req ≠ .superToken := by
  unfold checkLimits
  split
  next => nofun
  next => split <;> nofun

/-- The first read ends the check on the super token's credentials only. -/
theorem checkSuperSlot_cases (m : Model) (req : CheckRequest) :
    (Accepts env m req.tokenOrAuth ∧ checkSuperSlot env (some (cachedToken env m)) req = some .superToken) ∨
      (¬ Accepts env m req.tokenOrAuth ∧ checkSuperSlot env (some (cachedToken env m)) req = none) := by
  obtain ⟨isSuper, hcheck, haccepts⟩ := checkSuperToken_entry env m req.tokenOrAuth
  cases isSuper with
  | true => exact .inl ⟨haccepts.mp rfl, by rw [checkSuperSlot, hcheck]⟩
  | false => exact .inr ⟨fun h => (nomatch haccepts.mpr h), by rw [checkSuperSlot, hcheck]⟩

/-! ### Every interleaving -/

/-- Two tables that differ in the row of id 1 only. -/
structure Rolled (old new : List Model) (oldRoot newRoot : Model) : Prop where
  oldUnique : Unique old
  newUnique : Unique new
  oldRoot_mem : oldRoot ∈ old
  newRoot_mem : newRoot ∈ new
  oldRoot_id : oldRoot.id = 1
  newRoot_id : newRoot.id = 1
  others : ∀ m : Model, m.id ≠ 1 → (m ∈ old ↔ m ∈ new)

namespace Rolled
variable {old new : List Model} {oldRoot newRoot : Model} (h : Rolled old new oldRoot newRoot)
include h

theorem symm : Rolled new old newRoot oldRoot where
  oldUnique := h.newUnique
  newUnique := h.oldUnique
  oldRoot_mem := h.newRoot_mem
  newRoot_mem := h.oldRoot_mem
  oldRoot_id := h.newRoot_id
  newRoot_id := h.oldRoot_id
  others m hm := (h.others m hm).symm

/-- A credential that names the super token of one table names no other row of either. -/
theorem eq_root_of_names {cred : TokenOrAuth} (hroot : Names oldRoot cred) {m : Model} (hm : m ∈ new)
    (hnames : Names m cred) : m = newRoot := by
  by_cases hid : m.id = 1
  · exact h.newUnique.eq_of_id hm h.newRoot_mem (hid.trans h.newRoot_id.symm)
  · have heq := h.oldUnique.eq_of_names ((h.others m hid).mpr hm) h.oldRoot_mem hnames hroot
    exact absurd (heq ▸ h.oldRoot_id) hid

end Rolled

/-- A decision that confuses no privilege: the credentials of a super token are granted
everything or nothing, and nothing else is granted as super. -/
structure Decision.Clear (env : Env) (oldRoot newRoot : Model) (cred : TokenOrAuth) (d : Decision) : Prop where
  old : Accepts env oldRoot cred → d = .superToken ∨ d.result ≠ .ok true
  new : Accepts env newRoot cred → d = .superToken ∨ d.result ≠ .ok true
  super : d = .superToken → Accepts env oldRoot cred ∨ Accepts env newRoot cred

section
variable {old new : List Model} {oldRoot newRoot : Model} (h : Rolled old new oldRoot newRoot)
  {req : CheckRequest} (hscopes : req.scopes ≠ []) (hpermissions : req.permissions ≠ [])
include h hscopes hpermissions

/-- The indexes are of the old table, read after a slot of the old table. -/
theorem clear_of_old_inner (hslot : ¬ Accepts env oldRoot req.tokenOrAuth) :
    (checkLimits env (buildMaps env old).inner req).Clear env oldRoot newRoot req.tokenOrAuth where
  old haccepts := absurd haccepts hslot
  new haccepts := by
    refine .inr fun hgranted => ?_
    obtain ⟨m, hm, hmaccepts, -⟩ := checkLimits_granted h.oldUnique hscopes hpermissions hgranted
    exact hslot (h.symm.eq_root_of_names haccepts.names hm hmaccepts.names ▸ hmaccepts)
  super hsuper := absurd hsuper (checkLimits_ne_super _ _)

/-- The indexes are of the new table. The slot was read before or after its replacement. -/
theorem clear_of_new_inner (hlimits : (cachedToken env newRoot).parsedLimits = [])
    (hslot : ¬ Accepts env oldRoot req.tokenOrAuth ∨ ¬ Accepts env newRoot req.tokenOrAuth) :
    (checkLimits env (buildMaps env new).inner req).Clear env oldRoot newRoot req.tokenOrAuth where
  old haccepts := by
    refine .inr fun hgranted => ?_
    obtain ⟨m, hm, hmaccepts, -⟩ := checkLimits_granted h.newUnique hscopes hpermissions hgranted
    have hroot := h.eq_root_of_names haccepts.names hm hmaccepts.names
    exact hslot.elim (fun hno => hno haccepts) fun hno => hno (hroot ▸ hmaccepts)
  new haccepts := by
    -- The row found is the new super token itself, which has no limit to be granted by.
    refine .inr fun hgranted => ?_
    obtain ⟨m, hm, hmaccepts, hsome⟩ := checkLimits_granted h.newUnique hscopes hpermissions hgranted
    have hroot := h.newUnique.eq_of_names hm h.newRoot_mem hmaccepts.names haccepts.names
    exact hsome (hroot ▸ hlimits)
  super hsuper := absurd hsuper (checkLimits_ne_super _ _)

/-- What holds of the window at any time: the indexes are replaced before the slot, and a
check that has passed the slot was not the super token of the table the slot was of. -/
structure WindowInv (env : Env) (old new : List Model) (oldRoot newRoot : Model) (cred : TokenOrAuth)
    (w : Window) : Prop where
  stage : (w.swaps = [.inner, .superToken] ∧ w.inner = (buildMaps env old).inner ∧
      w.superToken = (buildMaps env old).superToken) ∨
    (w.swaps = [.superToken] ∧ w.inner = (buildMaps env new).inner ∧
      w.superToken = (buildMaps env old).superToken) ∨
    (w.swaps = [] ∧ w.inner = (buildMaps env new).inner ∧ w.superToken = (buildMaps env new).superToken)
  notSuper : w.check = .notSuper → ¬ Accepts env oldRoot cred ∨
    (¬ Accepts env newRoot cred ∧ w.inner = (buildMaps env new).inner)
  done : ∀ d, w.check = .done d → d.Clear env oldRoot newRoot cred

omit hscopes hpermissions in
/-- The slot holds the super token of the old table, or of the new one once the indexes are
those of the new table. -/
theorem slot_root {w : Window} (hinv : WindowInv env old new oldRoot newRoot req.tokenOrAuth w) :
    ∃ root, (root = oldRoot ∨ root = newRoot ∧ w.inner = (buildMaps env new).inner) ∧
      w.superToken = some (cachedToken env root) := by
  have hold : (buildMaps env old).superToken = some (cachedToken env oldRoot) :=
    superToken_eq h.oldUnique h.oldRoot_mem h.oldRoot_id
  rcases hinv.stage with ⟨-, -, hslot⟩ | ⟨-, -, hslot⟩ | ⟨-, hinner, hslot⟩
  · exact ⟨oldRoot, .inl rfl, hslot.trans hold⟩
  · exact ⟨oldRoot, .inl rfl, hslot.trans hold⟩
  · exact ⟨newRoot, .inr ⟨rfl, hinner⟩, hslot.trans (superToken_eq h.newUnique h.newRoot_mem h.newRoot_id)⟩

theorem windowStep_inv (hlimits : (cachedToken env newRoot).parsedLimits = []) {w w' : Window} {turn : Turn}
    (hinv : WindowInv env old new oldRoot newRoot req.tokenOrAuth w)
    (hstep : windowStep env (buildMaps env new) req w turn = some w') :
    WindowInv env old new oldRoot newRoot req.tokenOrAuth w' := by
  obtain ⟨hstage, hnot, hdone⟩ := hinv
  cases turn with
  | reload =>
    rcases hstage with ⟨hswaps, -, hslot⟩ | ⟨hswaps, hinner, -⟩ | ⟨hswaps, -, -⟩
    · simp only [windowStep, hswaps, Option.some.injEq] at hstep
      subst hstep
      exact ⟨.inr (.inl ⟨rfl, rfl, hslot⟩), fun hpc => (hnot hpc).imp_right fun h => ⟨h.1, rfl⟩, hdone⟩
    · simp only [windowStep, hswaps, Option.some.injEq] at hstep
      subst hstep
      exact ⟨.inr (.inr ⟨rfl, hinner, rfl⟩), hnot, hdone⟩
    · simp [windowStep, hswaps] at hstep
  | check =>
    cases hpc : w.check with
    | start =>
      simp only [windowStep, hpc, Option.some.injEq] at hstep
      subst hstep
      obtain ⟨root, hroot, hslot⟩ := slot_root h ⟨hstage, hnot, hdone⟩
      rcases checkSuperSlot_cases root req with ⟨haccepts, hcheck⟩ | ⟨hother, hcheck⟩
      · rw [hslot, hcheck]
        refine ⟨hslot ▸ hstage, nofun, fun d hd => ?_⟩
        cases hd
        refine ⟨fun _ => .inl rfl, fun _ => .inl rfl, fun _ => ?_⟩
        obtain rfl | ⟨rfl, -⟩ := hroot
        · exact .inl haccepts
        · exact .inr haccepts
      · rw [hslot, hcheck]
        refine ⟨hslot ▸ hstage, fun _ => ?_, nofun⟩
        obtain rfl | ⟨rfl, hinner⟩ := hroot
        · exact .inl hother
        · exact .inr ⟨hother, hinner⟩
    | notSuper =>
      simp only [windowStep, hpc, Option.some.injEq] at hstep
      subst hstep
      refine ⟨hstage, nofun, fun d hd => ?_⟩
      cases hd
      have hnew : w.inner = (buildMaps env new).inner →
          (checkLimits env w.inner req).Clear env oldRoot newRoot req.tokenOrAuth := by
        intro hinner
        rw [hinner]
        exact clear_of_new_inner h hscopes hpermissions hlimits ((hnot hpc).imp_right fun h => h.1)
      rcases hstage with ⟨-, hinner, -⟩ | ⟨-, hinner, -⟩ | ⟨-, hinner, -⟩
      · rcases hnot hpc with hold | ⟨-, hinner'⟩
        · rw [hinner]
          exact clear_of_old_inner h hscopes hpermissions hold
        · exact hnew hinner'
      · exact hnew hinner
      · exact hnew hinner
    | done d => simp [windowStep, hpc] at hstep

/-- **No privilege is confused while the super token is replaced**, if the new row of id 1
has no limits: however the two replacements of a reload and the two reads of a check are
interleaved, the credentials of the old and of the new super token are granted everything
or rejected, and no other credential is treated as the super token's. -/
theorem roll_window_clear (hlimits : (cachedToken env newRoot).parsedLimits = []) (schedule : List Turn)
    (w : Window)
    (hrun : run (windowStep env (buildMaps env new) req) (openWindow env (buildMaps env old)) schedule = some w)
    (d : Decision) (hdone : w.check = .done d) : d.Clear env oldRoot newRoot req.tokenOrAuth := by
  have hinit : WindowInv env old new oldRoot newRoot req.tokenOrAuth (openWindow env (buildMaps env old)) :=
    ⟨.inl ⟨rfl, rfl, rfl⟩, nofun, nofun⟩
  exact (run_preserves (fun _ _ _ hinv hstep => windowStep_inv h hscopes hpermissions hlimits hinv hstep)
    hinit hrun).done d hdone

end

/-! ### Inside the window -/

/-- The super token after `sampleRows` was rolled. -/
def rolledRoot : Model := sampleRow 1 "newrootkey" "newsecret" (some "root")

def rolledRows : List Model := [sampleRow 2 "alice" "secret" none, rolledRoot]

theorem sample_rolled : Rolled sampleRows rolledRows (sampleRow 1 "rootkey" "rootsecret" (some "root")) rolledRoot where
  oldUnique := sampleRows_unique
  newUnique := ⟨by decide, by decide, by decide⟩
  oldRoot_mem := List.mem_cons_self
  newRoot_mem := List.mem_cons_of_mem _ List.mem_cons_self
  oldRoot_id := rfl
  newRoot_id := rfl
  others m hm := by
    simp only [sampleRows, rolledRows, List.mem_cons, List.not_mem_nil, or_false]
    constructor
    · intro h
      exact .inl (h.resolve_left fun hroot => hm (hroot ▸ rfl))
    · intro h
      exact .inr (h.resolve_right fun hroot => hm (hroot ▸ rfl))

def newRootRequest : CheckRequest where
  tokenOrAuth := .token "newrootkey" "newsecret"
  scopes := [.global]
  permissions := [.nodeGet .listAllAgentUuid]
  now := .ok 0

/-- The indexes are replaced, both reads are made, and only then the slot is replaced. -/
def insideWindow : List Turn := [.reload, .check, .check, .reload]

theorem roll_window_clear_inside :
    ∃ w, run (windowStep sampleEnv (buildMaps sampleEnv rolledRows) newRootRequest)
        (openWindow sampleEnv (buildMaps sampleEnv sampleRows)) insideWindow = some w ∧
      w.check = .done (.token false) ∧
      (Decision.token false).Clear sampleEnv (sampleRow 1 "rootkey" "rootsecret" (some "root")) rolledRoot
        newRootRequest.tokenOrAuth :=
  ⟨_, rfl, rfl, roll_window_clear sample_rolled (by decide) (by decide) rfl insideWindow _ rfl _ rfl⟩

/-- The text of a limit that grants one permission everywhere, and a server that reads it. -/
def listLimit : Json :=
  .arr [.obj [("permissions", .arr [.obj [("node_get", .str "list_all_agent_uuid")]]),
    ("scopes", .arr [.str "global"])]]

def limitedEnv : Env where
  hashToBytes := sampleEnv.hashToBytes
  limitsFromValue
    | .arr [] => .ok []
    | _ => .ok [⟨[.global], [.nodeGet .listAllAgentUuid]⟩]
  permissionFromValue := sampleEnv.permissionFromValue
  uniqueViolation := sampleEnv.uniqueViolation

def limitedRoot (key secret : String) : Model := {sampleRow 1 key secret (some "root") with tokenLimit := listLimit}

/-- With limits on the row of id 1, the new super token is granted a request as an ordinary
token: neither as super nor rejected. -/
theorem limited_root_granted_by_limits :
    Rolled [limitedRoot "rootkey" "rootsecret"] [limitedRoot "newrootkey" "newsecret"]
        (limitedRoot "rootkey" "rootsecret") (limitedRoot "newrootkey" "newsecret") ∧
      Accepts limitedEnv (limitedRoot "newrootkey" "newsecret") newRootRequest.tokenOrAuth ∧
      ∃ w, run (windowStep limitedEnv (buildMaps limitedEnv [limitedRoot "newrootkey" "newsecret"]) newRootRequest)
          (openWindow limitedEnv (buildMaps limitedEnv [limitedRoot "rootkey" "rootsecret"])) insideWindow =
          some w ∧
        w.check = .done (.token true) := by
  refine ⟨?_, ⟨rfl, by decide⟩, _, rfl, rfl⟩
  refine ⟨⟨by decide, by decide, by decide⟩, ⟨by decide, by decide, by decide⟩, List.mem_singleton_self _,
    List.mem_singleton_self _, rfl, rfl, fun m hm => ?_⟩
  constructor
  · intro h
    exact absurd (List.mem_singleton.mp h ▸ rfl) hm
  · intro h
    exact absurd (List.mem_singleton.mp h ▸ rfl) hm

end NodeGet.Token
