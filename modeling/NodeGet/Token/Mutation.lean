import NodeGet.Machine.Reload
import NodeGet.Token.Cache

/-! The operations that change the `token` table (`ng-token/src/rpc`,
`generate_token.rs`, `super_token.rs`) and the reload each makes after it.

Each operation commits one write. When the write changed the table it calls
`TokenCache::reload`, which loads the whole table, replaces the two indexes
under one lock and then the super-token slot under another. No lock spans the
load and the two replacements, so the operations are a `Machine.Reload` design
with two slots and are interleaved by it. -/
namespace NodeGet.Token
open NodeGet.Core NodeGet.Machine

/-! ### The writes -/

inductive TokenOp where
  /-- `id` is what the database assigns, `tokenKey` and `tokenSecret` are the generated ones. -/
  | create (id : Int) (tokenKey tokenSecret : String) (timestampFrom timestampTo : Option Int)
      (tokenLimit : Json) (username password : Option String)
  | edit (targetToken : String) (limit : Json)
  | delete (targetToken : String)
  | changePassword (targetToken newPassword : String)
  | rollTokenSecret (targetToken newSecret : String)
  | rollSuperToken (tokenKey tokenSecret rawPassword : String)

/-- The separators of `fromFullToken`. -/
def hasSeparator (s : String) : Bool := s.toList.contains ':' || s.toList.contains '|'

def extractTargetIdentifier (identifier : String) : String :=
  match splitOnce identifier ':' with
  | some (key, _) => key
  | none =>
    match splitOnce identifier '|' with
    | some (username, _) => username
    | none => identifier

def findByKeyOrUsername (rows : List Model) (keyOrName : String) : Option Model :=
  (rows.find? fun m => m.tokenKey == keyOrName) <|> rows.find? fun m => m.username == some keyOrName

def findTargetToken (rows : List Model) (identifier : String) : Except NodegetError Model :=
  let extracted := extractTargetIdentifier identifier
  match findByKeyOrUsername rows identifier <|> findByKeyOrUsername rows extracted with
  | some model => .ok model
  | none => .error (.notFound ("Target token not found by key/username: " ++ extracted))

/-- The primary key and the two unique indexes. -/
def clashes (a b : Model) : Bool :=
  a.id == b.id || a.tokenKey == b.tokenKey || (a.username.isSome && a.username == b.username)

def updateById (rows : List Model) (id : Int) (f : Model → Model) : List Model :=
  rows.map fun m => if m.id = id then f m else m

variable (env : Env)

/-- Insert a row; `context` is what the caller puts before the database's text. -/
def insertRow (context : String) (row : Model) (rows : List Model) : Except NodegetError (List Model) :=
  if rows.any (clashes row) then .error (.databaseError (context ++ env.uniqueViolation))
  else .ok (rows ++ [row])

def generateAndStoreToken (id : Int) (tokenKey tokenSecret : String)
    (timestampFrom timestampTo : Option Int) (tokenLimit : Json) (username password : Option String)
    (rows : List Model) : Except NodegetError (List Model) :=
  if username.isSome ≠ password.isSome then
    .error (.parseError "Username and Password must be both provided or both absent")
  else if username.any hasSeparator then
    .error (.invalidInput "Username cannot contain ':' or '|' characters")
  else if password.any hasSeparator then
    .error (.invalidInput "Password cannot contain ':' or '|' characters")
  else
    insertRow env "Database insert error: " {
      id := id
      version := 1
      tokenKey := tokenKey
      tokenHash := hashString env tokenSecret
      timeStampFrom := timestampFrom
      timeStampTo := timestampTo
      tokenLimit := tokenLimit
      username := username
      passwordHash := password.map (hashString env)} rows

def edit (targetToken : String) (limit : Json) (rows : List Model) : Except NodegetError (List Model) :=
  match findByKeyOrUsername rows targetToken with
  | none => .error (.notFound
      ("Token not found by key/username: " ++ extractTargetIdentifier targetToken))
  | some model =>
    if model.id = 1 then .error (.permissionDenied "SuperToken cannot be edited")
    else .ok (updateById rows model.id fun m => {m with tokenLimit := limit})

/-- The rows left by `DELETE … WHERE id <> 1 AND` the filter. -/
def deleteMany (filter : Model → Bool) (rows : List Model) : List Model :=
  rows.filter fun m => m.id == 1 || !filter m

/-- Delete by key, and when that removes nothing by username. -/
def delete (targetToken : String) (rows : List Model) : Except NodegetError (List Model) :=
  if isBlank targetToken then .error (.invalidInput "target_token cannot be empty")
  else
    match rows.find? fun m => m.id == 1 with
    | none => .error (.notFound "Super Token record (ID 1) not found in database")
    | some superRecord =>
      if targetToken = superRecord.tokenKey ∨ superRecord.username = some targetToken then
        .error (.permissionDenied "SuperToken cannot be deleted")
      else
        let byKey := deleteMany (fun m => m.tokenKey == targetToken) rows
        let byUsername := deleteMany (fun m => m.username == some targetToken) rows
        if byKey.length < rows.length then .ok byKey
        else if byUsername.length < rows.length then .ok byUsername
        else .error (.notFound
          ("Token not found by key/username: " ++ extractTargetIdentifier targetToken))

def changePassword (targetToken newPassword : String) (rows : List Model) :
    Except NodegetError (List Model) :=
  if newPassword.isEmpty then .error (.invalidInput "New password cannot be empty")
  else if newPassword.utf8ByteSize < 6 then
    .error (.invalidInput "New password must be at least 6 characters long")
  else if hasSeparator newPassword then
    .error (.invalidInput "Password cannot contain ':' or '|' characters")
  else do
    let target ← findTargetToken rows targetToken
    .ok (updateById rows target.id fun m => {m with passwordHash := some (hashString env newPassword)})

def rollTokenSecret (targetToken newSecret : String) (rows : List Model) :
    Except NodegetError (List Model) := do
  let target ← findTargetToken rows targetToken
  .ok (updateById rows target.id fun m => {m with tokenHash := hashString env newSecret})

/-- One transaction: the row of id 1 is replaced, or nothing changes. -/
def rollSuperToken (tokenKey tokenSecret rawPassword : String) (rows : List Model) :
    Except NodegetError (List Model) :=
  insertRow env "Transaction failed: " {
    id := 1
    version := 1
    tokenKey := tokenKey
    tokenHash := hashString env tokenSecret
    timeStampFrom := none
    timeStampTo := none
    tokenLimit := .arr []
    username := some "root"
    passwordHash := some (hashString env rawPassword)} (rows.filter fun m => m.id != 1)

def write : TokenOp → List Model → Except NodegetError (List Model)
  | .create id tokenKey tokenSecret timestampFrom timestampTo tokenLimit username password =>
    generateAndStoreToken env id tokenKey tokenSecret timestampFrom timestampTo tokenLimit username password
  | .edit targetToken limit => edit targetToken limit
  | .delete targetToken => delete targetToken
  | .changePassword targetToken newPassword => changePassword env targetToken newPassword
  | .rollTokenSecret targetToken newSecret => rollTokenSecret env targetToken newSecret
  | .rollSuperToken tokenKey tokenSecret rawPassword => rollSuperToken env tokenKey tokenSecret rawPassword

/-! ### Write, load, replace the indexes, replace the super token -/

/-- What is replaced as one: the indexes under the cache's lock, and the super
token under a lock of its own. -/
inductive Slot where
  | inner
  | superToken
deriving DecidableEq, Repr

def Slot.Content : Slot → Type
  | .inner => TokenCacheInner
  | .superToken => Option CachedToken

def reloadDesign : Reload.Design (List Model) TokenOp Slot.Content where
  commit op rows := (write env op rows).toOption
  view
    | .inner, rows => (buildMaps env rows).inner
    | .superToken, rows => (buildMaps env rows).superToken
  slots := [.inner, .superToken]

variable {ι : Type*} [DecidableEq ι]

/-- The cache as a reader finds it. -/
def cacheOf (s : Reload.State ι (List Model) Slot.Content) : Maps where
  inner := s.slot .inner
  superToken := s.slot .superToken

/-- **The token cache is coherent at rest**: when in a run no reload replaced a
slot from a load older than the one that filled it, then once every operation has
finished the cache is the one built from the final table, and whoever
authenticates presents the credentials of one of its rows. -/
theorem finished_cache_coherent (ops : ι → TokenOp) (rows : List Model) (schedule : List ι)
    (s : Reload.State ι (List Model) Slot.Content)
    (hG : Along (Reload.step (reloadDesign env) ops) Reload.NoStaleSwap
      (Reload.initial (reloadDesign env) rows) schedule)
    (hrun : run (Reload.step (reloadDesign env) ops) (Reload.initial (reloadDesign env) rows)
      schedule = some s)
    (hdone : ∀ i, s.pc i = .finished) :
    cacheOf s = buildMaps env s.source ∧
      ∀ cred entry isSuper, authenticate env (cacheOf s) cred = .ok (entry, isSuper) →
        ∃ m ∈ s.source, cachedToken env m = entry ∧ Accepts env m cred ∧ (isSuper = true → m.id = 1) := by
  have hslots : ∀ k, k ∈ (reloadDesign env).slots := by
    intro k
    cases k <;> simp [reloadDesign]
  have hslot := Reload.run_coherent (reloadDesign env) ops hslots rows schedule hG hrun hdone
  have hcache : cacheOf s = buildMaps env s.source := by
    simp only [cacheOf, hslot]
    rfl
  refine ⟨hcache, fun cred entry isSuper h => ?_⟩
  rw [hcache] at h
  exact authenticate_sound env h

/-! ### An older load that swaps last -/

/-- A stand-in for what the server takes from elsewhere. -/
def sampleEnv : Env where
  hashToBytes s := Vector.replicate 32 (UInt8.ofNat s.length)
  limitsFromValue _ := .ok []
  permissionFromValue _ := .error "unknown variant"
  uniqueViolation := "UNIQUE constraint failed"

def sampleRow (id : Int) (key secret : String) (username : Option String) : Model where
  id := id
  version := 1
  tokenKey := key
  tokenHash := hashString sampleEnv secret
  timeStampFrom := none
  timeStampTo := none
  tokenLimit := .arr []
  username := username
  passwordHash := none

def sampleRows : List Model :=
  [sampleRow 1 "rootkey" "rootsecret" (some "root"), sampleRow 2 "alice" "secret" none]

/-- One call edits the limits of a token, the other deletes it. -/
def editAndDelete : Bool → TokenOp
  | true => .edit "alice" (.arr [.null])
  | false => .delete "alice"

/-- One after the other, the calls leave a coherent cache. -/
theorem finished_cache_coherent_sequential :
    ∃ s, run (Reload.step (reloadDesign sampleEnv) editAndDelete)
        (Reload.initial (reloadDesign sampleEnv) sampleRows) (List.replicate 5 true ++ List.replicate 5 false) =
        some s ∧
      cacheOf s = buildMaps sampleEnv s.source := by
  have hle : Nat.le 0 1 ∧ Nat.le 1 2 := ⟨Nat.le_succ 0, Nat.le_succ 1⟩
  refine ⟨_, rfl, (finished_cache_coherent sampleEnv editAndDelete sampleRows
    (List.replicate 5 true ++ List.replicate 5 false) _ ?_ rfl ?_).1⟩
  · exact .cons rfl trivial <| .cons rfl trivial <| .cons rfl hle.1 <| .cons rfl hle.1 <|
      .cons rfl trivial <| .cons rfl trivial <| .cons rfl trivial <| .cons rfl hle.2 <|
      .cons rfl hle.2 <| .cons rfl trivial trivial
  · intro i
    cases i <;> rfl

/-- The edit loads the table, the delete runs from its write to its end, and then
the edit puts what it had loaded into the cache. -/
def editLoadsFirst : List Bool := [true, true, false, false, false, false, false, true, true, true]

/-- The deleted token authenticates after both calls have finished. -/
theorem deleted_token_authenticates :
    ∃ s, run (Reload.step (reloadDesign sampleEnv) editAndDelete)
        (Reload.initial (reloadDesign sampleEnv) sampleRows) editLoadsFirst = some s ∧
      (∀ i, s.pc i = .finished) ∧
      s.source.map (·.tokenKey) = ["rootkey"] ∧
      ((buildMaps sampleEnv s.source).inner.byKey "alice").isSome = false ∧
      ((cacheOf s).inner.byKey "alice").isSome = true ∧
      ∃ entry, authenticate sampleEnv (cacheOf s) (.token "alice" "secret") = .ok (entry, false) := by
  refine ⟨_, rfl, ?_, rfl, rfl, rfl, _, rfl⟩
  intro i
  cases i <;> rfl

end NodeGet.Token
