import Mathlib.Data.Set.Function
import NodeGet.Machine.Run
import NodeGet.Token.Access

/-! The life of credentials (`ng-token/src/rpc`, `generate_token.rs`, `token_auth.rs`).

A history is a list of requests that change the token table, one after the other, each
successful and followed by its reload. Beside the table it keeps what the table does not:
the secrets and passwords that were handed out, and the credentials that were in force
once and are not any more. The invariant (`Sound`) says that every row carries the digests
of what was handed out for it, and that no text handed out can be read as another
credential; with that, whoever presents what is in force for a token is recognised as that
token, and what is out of force is refused.

Secrets are generated and never come twice, so a `key:secret` that is out of force stays
so. A password is chosen by the caller: a `username|password` that is out of force is
refused until somebody makes it the credential of a token again. -/
namespace NodeGet.Token
open NodeGet.Core NodeGet.Machine Function

/-! ### What is handed out -/

/-- The text a client sends. -/
def fullToken : TokenOrAuth → String
  | .token key secret => key ++ ":" ++ secret
  | .auth username password => username ++ "|" ++ password

/-- What the owner of a token knows of it. -/
structure Credentials where
  tokenKey : String
  secret : String
  username : Option String
  password : Option String

/-- The credentials in force: the key with the secret and, if there is a username, that
with the password. -/
def Credentials.current (c : Credentials) : List TokenOrAuth :=
  .token c.tokenKey c.secret ::
    match c.username, c.password with
    | some username, some password => [.auth username password]
    | _, _ => []

structure History where
  rows : List Model
  /-- What was handed out for the row of an id. -/
  issued : Int → Credentials
  /-- The secrets generated so far. -/
  secrets : List String
  /-- What was in force and was superseded, or deleted with its token. -/
  retired : List TokenOrAuth

def inForce (rows : List Model) (issued : Int → Credentials) : List TokenOrAuth :=
  rows.flatMap fun m => (issued m.id).current

/-- What is handed out after the request. -/
def History.issuedAfter (h : History) : TokenOp → Int → Credentials
  | .create id tokenKey tokenSecret _ _ _ username password =>
    update h.issued id ⟨tokenKey, tokenSecret, username, password⟩
  | .edit _ _ | .delete _ => h.issued
  | .changePassword targetToken newPassword =>
    match findTargetToken h.rows targetToken with
    | .ok m => update h.issued m.id {h.issued m.id with password := some newPassword}
    | .error _ => h.issued
  | .rollTokenSecret targetToken newSecret =>
    match findTargetToken h.rows targetToken with
    | .ok m => update h.issued m.id {h.issued m.id with secret := newSecret}
    | .error _ => h.issued
  | .rollSuperToken tokenKey tokenSecret rawPassword =>
    update h.issued 1 ⟨tokenKey, tokenSecret, some "root", some rawPassword⟩

/-- The secrets a request generates. -/
def TokenOp.newSecrets : TokenOp → List String
  | .create _ _ tokenSecret _ _ _ _ _ => [tokenSecret]
  | .rollTokenSecret _ newSecret => [newSecret]
  | .rollSuperToken _ tokenSecret _ => [tokenSecret]
  | .edit _ _ | .delete _ | .changePassword _ _ => []

/-- Everything a request hashes. -/
def TokenOp.hashed : TokenOp → List String
  | .create _ _ tokenSecret _ _ _ _ password => tokenSecret :: password.toList
  | .changePassword _ newPassword => [newPassword]
  | .rollTokenSecret _ newSecret => [newSecret]
  | .rollSuperToken _ tokenSecret rawPassword => [tokenSecret, rawPassword]
  | .edit _ _ | .delete _ => []

def History.record (h : History) (rows : List Model) (issued : Int → Credentials) (secrets : List String) :
    History where
  rows := rows
  issued := issued
  secrets := secrets ++ h.secrets
  retired := h.retired ++ (inForce h.rows h.issued).filter fun c => c ∉ inForce rows issued

/-- `generate_random_string` -/
def IsGenerated (s : String) : Prop := ∀ c ∈ s.toList, c.isAlphanum = true

instance (s : String) : Decidable (IsGenerated s) := List.decidableBAll _ _

/-- What a request generates has never been generated before. -/
def Fresh (h : History) : TokenOp → Prop
  | .create _ tokenKey tokenSecret _ _ _ _ _ => IsGenerated tokenKey ∧ tokenSecret ∉ h.secrets
  | .rollTokenSecret _ newSecret => newSecret ∉ h.secrets
  | .rollSuperToken tokenKey tokenSecret rawPassword =>
    IsGenerated tokenKey ∧ IsGenerated rawPassword ∧ tokenSecret ∉ h.secrets
  | .edit _ _ | .delete _ | .changePassword _ _ => True

variable (env : Env)

/-- A request that succeeds. -/
def historyStep (h : History) (op : TokenOp) : Option History :=
  match write env op h.rows with
  | .error _ => none
  | .ok rows => some (h.record rows (h.issuedAfter op) op.newSecrets)

/-- The row `insert_new_super_token` writes. -/
def superTokenModel (tokenKey tokenSecret rawPassword : String) : Model where
  id := 1
  version := 1
  tokenKey := tokenKey
  tokenHash := hashString env tokenSecret
  timeStampFrom := none
  timeStampTo := none
  tokenLimit := .arr []
  username := some "root"
  passwordHash := some (hashString env rawPassword)

/-- A server that was started for the first time. -/
def firstStart (tokenKey tokenSecret rawPassword : String) : History where
  rows := [superTokenModel env tokenKey tokenSecret rawPassword]
  issued _ := ⟨tokenKey, tokenSecret, some "root", some rawPassword⟩
  secrets := [tokenSecret]
  retired := []

/-- Authentication of a text against the cache of the table. -/
def login (rows : List Model) (text : String) : Except NodegetError (CachedToken × Bool) :=
  match fromFullToken text with
  | .error e => .error (.parseError e)
  | .ok cred => authenticate env (buildMaps env rows) cred

/-! ### What a request does to the table -/

variable {env}

inductive Effect (env : Env) (rows : List Model) : TokenOp → List Model → Prop where
  | create {id : Int} {tokenKey tokenSecret : String} {timestampFrom timestampTo : Option Int}
      {tokenLimit : Json} {username password : Option String} {row : Model}
      (hrow : row.id = id ∧ row.tokenKey = tokenKey ∧ row.tokenHash = hashString env tokenSecret ∧
        row.username = username ∧ row.passwordHash = password.map (hashString env))
      (huser : username.any hasSeparator = false) (hpass : password.any hasSeparator = false)
      (hclash : rows.any (clashes row) = false) :
      Effect env rows (.create id tokenKey tokenSecret timestampFrom timestampTo tokenLimit username password)
        (rows ++ [row])
  | edit {targetToken : String} {limit : Json} {m : Model} (hm : m.id ≠ 1) :
      Effect env rows (.edit targetToken limit) (updateById rows m.id fun r => {r with tokenLimit := limit})
  | delete {targetToken : String} (filter : Model → Bool) :
      Effect env rows (.delete targetToken) (deleteMany filter rows)
  | changePassword {targetToken newPassword : String} {m : Model} (hpass : hasSeparator newPassword = false)
      (hm : findTargetToken rows targetToken = .ok m) :
      Effect env rows (.changePassword targetToken newPassword)
        (updateById rows m.id fun r => {r with passwordHash := some (hashString env newPassword)})
  | rollTokenSecret {targetToken newSecret : String} {m : Model} (hm : findTargetToken rows targetToken = .ok m) :
      Effect env rows (.rollTokenSecret targetToken newSecret)
        (updateById rows m.id fun r => {r with tokenHash := hashString env newSecret})
  | rollSuperToken {tokenKey tokenSecret rawPassword : String}
      (hclash : (rows.filter fun m => m.id != 1).any
        (clashes (superTokenModel env tokenKey tokenSecret rawPassword)) = false) :
      Effect env rows (.rollSuperToken tokenKey tokenSecret rawPassword)
        ((rows.filter fun m => m.id != 1) ++ [superTokenModel env tokenKey tokenSecret rawPassword])

variable {row : Model} {rows rows' : List Model} {op : TokenOp} {c : Credentials} {cred : TokenOrAuth}
  {issued : Int → Credentials} {P : Model → Credentials → Prop} {s tokenKey tokenSecret rawPassword : String}
  {hashed : Set String}

theorem insertRow_ok {context : String} (h : insertRow env context row rows = .ok rows') :
    rows.any (clashes row) = false ∧ rows' = rows ++ [row] := by
  rw [insertRow] at h
  split at h
  next => cases h
  next hclash =>
    cases h
    exact ⟨Bool.not_eq_true _ ▸ hclash, rfl⟩

theorem write_effect (h : write env op rows = .ok rows') : Effect env rows op rows' := by
  cases op with
  | create id tokenKey tokenSecret timestampFrom timestampTo tokenLimit username password =>
    rw [write, generateAndStoreToken] at h
    split_ifs at h with hboth huser hpass
    obtain ⟨hclash, rfl⟩ := insertRow_ok h
    exact .create ⟨rfl, rfl, rfl, rfl, rfl⟩ (Bool.not_eq_true _ ▸ huser) (Bool.not_eq_true _ ▸ hpass) hclash
  | edit targetToken limit =>
    rw [write, edit] at h
    split at h
    next => cases h
    next m _ =>
      split_ifs at h with hm
      cases h
      exact .edit hm
  | delete targetToken =>
    rw [write, delete] at h
    split_ifs at h
    split at h
    next => cases h
    next =>
      dsimp only at h
      split_ifs at h
      · cases h
        exact .delete _
      · cases h
        exact .delete _
  | changePassword targetToken newPassword =>
    rw [write, changePassword] at h
    split_ifs at h with _ _ hpass
    obtain ⟨m, hm, hrows⟩ := ok_of_bind h
    cases hrows
    exact .changePassword (Bool.not_eq_true _ ▸ hpass) hm
  | rollTokenSecret targetToken newSecret =>
    rw [write, rollTokenSecret] at h
    obtain ⟨m, hm, hrows⟩ := ok_of_bind h
    cases hrows
    exact .rollTokenSecret hm
  | rollSuperToken tokenKey tokenSecret rawPassword =>
    obtain ⟨hclash, rfl⟩ := insertRow_ok h
    exact .rollSuperToken hclash

/-! ### Keys and usernames stay unique -/

namespace Unique
variable {rows : List Model} (h : Unique rows)
include h

theorem sublist (hsub : rows'.Sublist rows) : Unique rows' where
  ids := h.ids.sublist (hsub.map _)
  keys := h.keys.sublist (hsub.map _)
  usernames := h.usernames.sublist (hsub.filterMap _)

/-- A row that clashes with none is added. -/
theorem append (hclash : rows.any (clashes row) = false) : Unique (rows ++ [row]) := by
  have hfree : ∀ m ∈ rows, row.id ≠ m.id ∧ row.tokenKey ≠ m.tokenKey ∧
      (row.username.isSome = true → row.username ≠ m.username) := by
    intro m hm
    have := List.any_eq_false.mp hclash m hm
    simpa [clashes, and_assoc] using this
  have hcolumn : ∀ {α : Type} (g : Model → α), (rows.map g).Nodup → (∀ m ∈ rows, g row ≠ g m) →
      ((rows ++ [row]).map g).Nodup := by
    intro α g hnodup hne
    rw [List.map_append]
    refine List.nodup_append.mpr ⟨hnodup, List.nodup_singleton _, fun a ha b hb heq => ?_⟩
    obtain ⟨m, hm, rfl⟩ := List.mem_map.mp ha
    exact hne m hm ((heq.trans (List.mem_singleton.mp hb)).symm)
  refine ⟨hcolumn _ h.ids fun m hm => (hfree m hm).1, hcolumn _ h.keys fun m hm => (hfree m hm).2.1, ?_⟩
  · cases huser : row.username with
    | none => simpa [List.filterMap_append, huser] using h.usernames
    | some username =>
      rw [List.filterMap_append, List.filterMap_cons_some huser, List.filterMap_nil]
      refine List.nodup_append.mpr ⟨h.usernames, List.nodup_singleton _, ?_⟩
      intro name hname other hother heq
      rw [List.mem_singleton.mp hother] at heq
      obtain ⟨m, hm, hmname⟩ := List.mem_filterMap.mp hname
      exact (hfree m hm).2.2 (by rw [huser]; rfl) (by rw [huser, hmname, heq])

/-- Rows are changed in other columns. -/
theorem updateById {id : Int} {f : Model → Model}
    (hf : ∀ m, (f m).id = m.id ∧ (f m).tokenKey = m.tokenKey ∧ (f m).username = m.username) :
    Unique (updateById rows id f) := by
  have hcolumn : ∀ {α : Type} (g : Model → α), (∀ m, g (f m) = g m) →
      (g ∘ fun m => if m.id = id then f m else m) = g := by
    intro α g hg
    funext m
    show g (if m.id = id then f m else m) = g m
    split
    · exact hg m
    · rfl
  refine ⟨?_, ?_, ?_⟩
  · rw [Token.updateById, List.map_map, hcolumn _ fun m => (hf m).1]
    exact h.ids
  · rw [Token.updateById, List.map_map, hcolumn _ fun m => (hf m).2.1]
    exact h.keys
  · rw [Token.updateById, List.filterMap_map, hcolumn _ fun m => (hf m).2.2]
    exact h.usernames

end Unique

/-! ### What is handed out is what the table has -/

/-- The row has the digests of what was handed out for it, and nothing in that can be taken
for a separator. The secret is one that was generated, and what was hashed is among `hashed`. -/
structure Holds (env : Env) (hashed : Set String) (secrets : List String) (m : Model) (c : Credentials) : Prop where
  key : m.tokenKey = c.tokenKey
  hash : m.tokenHash = hashString env c.secret
  username : m.username = c.username
  passwordHash : m.passwordHash = c.password.map (hashString env)
  key_clean : ':' ∉ c.tokenKey.toList
  username_clean : c.username.any hasSeparator = false
  password_clean : c.password.any hasSeparator = false
  secret_hashed : c.secret ∈ hashed
  password_hashed : ∀ password, c.password = some password → password ∈ hashed
  secret_generated : c.secret ∈ secrets

theorem hexToBytes_hashString (s : String) : hexToBytes (hashString env s) = some (env.hashToBytes s) :=
  hexToBytes_hexEncode _

theorem mem_current :
    cred ∈ c.current ↔ cred = .token c.tokenKey c.secret ∨
      ∃ username password, c.username = some username ∧ c.password = some password ∧
        cred = .auth username password := by
  rw [Credentials.current, List.mem_cons]
  cases c.username <;> cases c.password <;> simp

namespace Holds
variable {hashed : Set String} {secrets : List String} {m : Model} {c : Credentials}
  (h : Holds env hashed secrets m c)
include h

theorem tokenHashBytes : (cachedToken env m).tokenHashBytes = env.hashToBytes c.secret := by
  simp only [cachedToken, h.hash, hexToBytes_hashString, Option.getD_some]

theorem passwordHashBytes : (cachedToken env m).passwordHashBytes = c.password.map env.hashToBytes := by
  simp only [cachedToken, h.passwordHash]
  cases c.password with
  | none => rfl
  | some password => exact hexToBytes_hashString password

variable {cred : TokenOrAuth}

/-- Of the credentials that could have been handed out, the row accepts those in force. -/
theorem accepts_iff (hinj : Set.InjOn env.hashToBytes hashed) (hcred : cred.presented ∈ hashed) :
    Accepts env m cred ↔ cred ∈ c.current := by
  rw [mem_current]
  cases cred with
  | token key secret =>
    simp only [Accepts, h.tokenHashBytes, h.key, TokenOrAuth.token.injEq, reduceCtorEq, and_false, exists_false,
      or_false]
    refine and_congr eq_comm ?_
    exact ⟨fun heq => (hinj h.secret_hashed hcred heq).symm, fun heq => by rw [heq]⟩
  | auth username password =>
    simp only [Accepts, h.passwordHashBytes, h.username, TokenOrAuth.auth.injEq, reduceCtorEq, false_or]
    constructor
    · intro haccepts
      obtain ⟨huser, hpass⟩ := haccepts
      obtain ⟨stored, hstored, heq⟩ := Option.map_eq_some_iff.mp hpass
      obtain rfl : stored = password := hinj (h.password_hashed stored hstored) hcred heq
      exact ⟨username, stored, huser, hstored, rfl, rfl⟩
    · intro hcurrent
      obtain ⟨_, _, huser, hpass, rfl, rfl⟩ := hcurrent
      exact ⟨huser, by rw [hpass]; rfl⟩

theorem presented_hashed (hcred : cred ∈ c.current) : cred.presented ∈ hashed := by
  obtain rfl | ⟨username, password, -, hpass, rfl⟩ := mem_current.mp hcred
  · exact h.secret_hashed
  · exact h.password_hashed password hpass

/-- What is in force is read back from its text. -/
theorem parses (hcred : cred ∈ c.current) : fromFullToken (fullToken cred) = .ok cred := by
  obtain rfl | ⟨username, password, huser, hpass, rfl⟩ := mem_current.mp hcred
  · simp only [fromFullToken, fullToken, splitOnce, String.toList_append]
    rw [show ":".toList = [':'] from rfl, List.append_assoc, List.singleton_append,
      splitOnceList_append h.key_clean]
    simp
  · have hu := h.username_clean
    have hp := h.password_clean
    rw [huser, Option.any_some, hasSeparator, Bool.or_eq_false_iff] at hu
    rw [hpass, Option.any_some, hasSeparator, Bool.or_eq_false_iff] at hp
    simp only [List.contains_eq_mem, decide_eq_false_iff_not] at hu hp
    have hcolon : ':' ∉ (username ++ "|" ++ password).toList := by
      simp [String.toList_append, hu.1, hp.1]
    simp only [fromFullToken, fullToken, splitOnce, splitOnceList_eq_none hcolon, Option.map_none]
    rw [String.toList_append, String.toList_append, show "|".toList = ['|'] from rfl, List.append_assoc,
      List.singleton_append, splitOnceList_append hu.2]
    simp

omit h in
theorem mono (h : Holds env hashed secrets m c) {secrets' : List String} (hsub : secrets ⊆ secrets') :
    Holds env hashed secrets' m c :=
  {h with secret_generated := hsub h.secret_generated}

theorem withLimit (limit : Json) : Holds env hashed secrets {m with tokenLimit := limit} c := {h with}

theorem withPassword {newPassword : String} (hclean : hasSeparator newPassword = false)
    (hhashed : newPassword ∈ hashed) :
    Holds env hashed secrets {m with passwordHash := some (hashString env newPassword)}
      {c with password := some newPassword} :=
  {h with
    passwordHash := rfl
    password_clean := hclean
    password_hashed := fun _ hp => Option.some.inj hp ▸ hhashed}

theorem withSecret {newSecret : String} (hhashed : newSecret ∈ hashed) (hgenerated : newSecret ∈ secrets) :
    Holds env hashed secrets {m with tokenHash := hashString env newSecret} {c with secret := newSecret} :=
  {h with
    hash := rfl
    secret_hashed := hhashed
    secret_generated := hgenerated}

end Holds

/-! ### The invariant -/

structure Sound (env : Env) (hashed : Set String) (h : History) : Prop where
  unique : Unique h.rows
  root : ∃ root ∈ h.rows, root.id = 1 ∧ root.tokenLimit = .arr []
  holds : ∀ m ∈ h.rows, Holds env hashed h.secrets m (h.issued m.id)
  retired_text : ∀ c ∈ h.retired, c.presented ∈ hashed ∧ fromFullToken (fullToken c) = .ok c
  retired_token : ∀ key secret, .token key secret ∈ h.retired →
    secret ∈ h.secrets ∧ .token key secret ∉ inForce h.rows h.issued

theorem mem_inForce : cred ∈ inForce rows issued ↔ ∃ m ∈ rows, cred ∈ (issued m.id).current := List.mem_flatMap

theorem token_mem_inForce {m : Model} (hm : m ∈ rows) :
    .token (issued m.id).tokenKey (issued m.id).secret ∈ inForce rows issued :=
  mem_inForce.mpr ⟨m, hm, List.mem_cons_self⟩

theorem exists_of_token_mem {key secret : String} (h : .token key secret ∈ inForce rows issued) :
    ∃ m ∈ rows, (issued m.id).tokenKey = key ∧ (issued m.id).secret = secret := by
  obtain ⟨m, hm, hcurrent⟩ := mem_inForce.mp h
  obtain heq | ⟨_, _, -, -, heq⟩ := mem_current.mp hcurrent
  · cases heq
    exact ⟨m, hm, rfl, rfl⟩
  · cases heq

/-- Rows and what is handed out for them, after a row was added. -/
theorem forall_append (hclash : rows.any (clashes row) = false) (hself : P row c)
    (hothers : ∀ m ∈ rows, P m (issued m.id)) : ∀ m ∈ rows ++ [row], P m (update issued row.id c m.id) := by
  intro m hm
  rcases List.mem_append.mp hm with hold | hnew
  · have hfree := List.any_eq_false.mp hclash m hold
    simp only [clashes, Bool.or_eq_true, beq_iff_eq, not_or] at hfree
    rw [update_of_ne (Ne.symm hfree.1.1)]
    exact hothers m hold
  · rw [List.mem_singleton.mp hnew, update_self]
    exact hself

/-- Rows and what is handed out for them, after the row of one id was changed. -/
theorem forall_updateById {id : Int} {f : Model → Model} (hf : ∀ m, (f m).id = m.id)
    (hself : ∀ m ∈ rows, m.id = id → P (f m) c) (hothers : ∀ m ∈ rows, P m (issued m.id)) :
    ∀ m ∈ updateById rows id f, P m (update issued id c m.id) := by
  intro m hm
  obtain ⟨r, hr, rfl⟩ := List.mem_map.mp hm
  split
  next heq =>
    rw [hf r, heq, update_self]
    exact hself r hr heq
  next hne =>
    rw [update_of_ne hne]
    exact hothers r hr

section
variable {hashed : Set String} {h : History} (hsound : Sound env hashed h)
include hsound

variable {rows : List Model} {secrets : List String} {c : Credentials}

/-- A request keeps the invariant if its rows hold what is handed out and the only keys and
secrets it brings into force have a fresh secret. -/
theorem record_sound (hunique : Unique rows) (hroot : ∃ root ∈ rows, root.id = 1 ∧ root.tokenLimit = .arr [])
    (hholds : ∀ m ∈ rows, Holds env hashed (secrets ++ h.secrets) m (issued m.id))
    (hnew : ∀ m ∈ rows, .token (issued m.id).tokenKey (issued m.id).secret ∈ inForce h.rows h.issued ∨ (issued m.id).secret ∉ h.secrets) :
    Sound env hashed (h.record rows issued secrets) where
  unique := hunique
  root := hroot
  holds := hholds
  retired_text c hc := by
    rcases List.mem_append.mp hc with hold | hretires
    · exact hsound.retired_text c hold
    · obtain ⟨m, hm, hcurrent⟩ := mem_inForce.mp (List.mem_filter.mp hretires).1
      exact ⟨(hsound.holds m hm).presented_hashed hcurrent, (hsound.holds m hm).parses hcurrent⟩
  retired_token key secret hc := by
    rcases List.mem_append.mp hc with hold | hretires
    · obtain ⟨hsecret, hout⟩ := hsound.retired_token key secret hold
      refine ⟨List.mem_append_right _ hsecret, fun hin => ?_⟩
      obtain ⟨m, hm, rfl, rfl⟩ := exists_of_token_mem hin
      exact (hnew m hm).elim hout fun hfresh => hfresh hsecret
    · obtain ⟨hin, hout⟩ := List.mem_filter.mp hretires
      obtain ⟨m, hm, rfl, rfl⟩ := exists_of_token_mem hin
      exact ⟨List.mem_append_right _ (hsound.holds m hm).secret_generated, of_decide_eq_true hout⟩

/-- A row is added, others may be gone. -/
theorem append_sound (hsub : rows.Sublist h.rows) (hclash : rows.any (clashes row) = false)
    (hroot : ∃ root ∈ rows ++ [row], root.id = 1 ∧ root.tokenLimit = .arr [])
    (hholds : Holds env hashed (secrets ++ h.secrets) row c) (hfresh : c.secret ∉ h.secrets) :
    Sound env hashed (h.record (rows ++ [row]) (update h.issued row.id c) secrets) := by
  refine record_sound hsound ((hsound.unique.sublist hsub).append hclash) hroot ?_ ?_
  · exact forall_append (P := Holds env hashed (secrets ++ h.secrets)) hclash hholds fun m hm =>
      (hsound.holds m (hsub.subset hm)).mono (List.subset_append_right ..)
  · exact forall_append
      (P := fun _ c => .token c.tokenKey c.secret ∈ inForce h.rows h.issued ∨ c.secret ∉ h.secrets)
      hclash (.inr hfresh) fun m hm => .inl (token_mem_inForce (hsub.subset hm))

/-- The row of one id is changed, in none of its unique columns. -/
theorem update_sound {id : Int} {f : Model → Model}
    (hf : ∀ m, (f m).id = m.id ∧ (f m).tokenKey = m.tokenKey ∧ (f m).username = m.username)
    (hlimit : ∀ m, id = 1 → (f m).tokenLimit = m.tokenLimit)
    (hholds : ∀ m ∈ h.rows, m.id = id → Holds env hashed (secrets ++ h.secrets) (f m) c)
    (hnew : (∃ m ∈ h.rows, m.id = id) → .token c.tokenKey c.secret ∈ inForce h.rows h.issued ∨ c.secret ∉ h.secrets) :
    Sound env hashed (h.record (updateById h.rows id f) (update h.issued id c) secrets) := by
  refine record_sound hsound (hsound.unique.updateById hf) ?_ ?_ ?_
  · obtain ⟨root, hroot, hid, hnone⟩ := hsound.root
    refine ⟨_, List.mem_map_of_mem hroot, ?_⟩
    split
    next heq => exact ⟨(hf root).1.trans hid, (hlimit root (heq.symm.trans hid)).trans hnone⟩
    next => exact ⟨hid, hnone⟩
  · exact forall_updateById (P := Holds env hashed (secrets ++ h.secrets)) (fun m => (hf m).1) hholds fun m hm =>
      (hsound.holds m hm).mono (List.subset_append_right ..)
  · exact forall_updateById
      (P := fun _ c => .token c.tokenKey c.secret ∈ inForce h.rows h.issued ∨ c.secret ∉ h.secrets)
      (fun m => (hf m).1) (fun m hm heq => hnew ⟨m, hm, heq⟩) fun m hm => .inl (token_mem_inForce hm)

end

theorem IsGenerated.not_mem (h : IsGenerated s) {c : Char} (hc : c.isAlphanum = false) : c ∉ s.toList := by
  intro hmem
  rw [h c hmem] at hc
  cases hc

theorem IsGenerated.hasSeparator (h : IsGenerated s) : hasSeparator s = false := by
  simp [Token.hasSeparator, h.not_mem (show ':'.isAlphanum = false by decide),
    h.not_mem (show '|'.isAlphanum = false by decide)]

theorem holds_superTokenModel {secrets : List String} (hkey : IsGenerated tokenKey)
    (hpassword : IsGenerated rawPassword) (hhashed : ∀ s ∈ [tokenSecret, rawPassword], s ∈ hashed)
    (hgenerated : tokenSecret ∈ secrets) :
    Holds env hashed secrets (superTokenModel env tokenKey tokenSecret rawPassword)
      ⟨tokenKey, tokenSecret, some "root", some rawPassword⟩ where
  key := rfl
  hash := rfl
  username := rfl
  passwordHash := rfl
  key_clean := hkey.not_mem (by decide)
  username_clean := show hasSeparator "root" = false by decide
  password_clean := hpassword.hasSeparator
  secret_hashed := hhashed _ List.mem_cons_self
  password_hashed _ hp := Option.some.inj hp ▸ hhashed _ (List.mem_cons_of_mem _ List.mem_cons_self)
  secret_generated := hgenerated

/-- A fresh request keeps the invariant. -/
theorem historyStep_sound {h h' : History} (hsound : Sound env hashed h) (hfresh : Fresh h op)
    (hhashed : ∀ s ∈ op.hashed, s ∈ hashed) (hstep : historyStep env h op = some h') : Sound env hashed h' := by
  rw [historyStep] at hstep
  split at hstep
  next => cases hstep
  next rows hwrite =>
    cases hstep
    cases write_effect hwrite with
    | @create id tokenKey tokenSecret _ _ _ username password row hrow huser hpass hclash =>
      obtain ⟨rfl, hkey, hhash, hname, hpassword⟩ := hrow
      obtain ⟨root, hroot, hrootId⟩ := hsound.root
      refine append_sound hsound (List.Sublist.refl _) hclash ⟨root, List.mem_append_left _ hroot, hrootId⟩ ?_ hfresh.2
      exact {
        key := hkey
        hash := hhash
        username := hname
        passwordHash := hpassword
        key_clean := hfresh.1.not_mem (by decide)
        username_clean := huser
        password_clean := hpass
        secret_hashed := hhashed _ List.mem_cons_self
        password_hashed := fun p hp => hhashed p (List.mem_cons_of_mem _ (Option.mem_toList.mpr hp))
        secret_generated := List.mem_append_left _ List.mem_cons_self }
    | @edit targetToken limit m hm =>
      rw [show h.issuedAfter _ = update h.issued m.id (h.issued m.id) from (update_eq_self ..).symm]
      refine update_sound hsound ?_ ?_ ?_ ?_
      · exact fun r => ⟨rfl, rfl, rfl⟩
      · exact fun r hid => absurd hid hm
      · exact fun r hr heq => (heq ▸ hsound.holds r hr).withLimit limit
      · exact fun ⟨r, hr, heq⟩ => .inl (heq ▸ token_mem_inForce hr)
    | @delete targetToken filter =>
      have hsub : (deleteMany filter h.rows).Sublist h.rows := List.filter_sublist
      obtain ⟨root, hroot, hid, hnone⟩ := hsound.root
      refine record_sound hsound (hsound.unique.sublist hsub) ⟨root, ?_, hid, hnone⟩ ?_ ?_
      · exact List.mem_filter.mpr ⟨hroot, by rw [hid]; rfl⟩
      · exact fun m hm => hsound.holds m (hsub.subset hm)
      · exact fun m hm => .inl (token_mem_inForce (hsub.subset hm))
    | @changePassword targetToken newPassword m hpass hm =>
      rw [show h.issuedAfter _ = update h.issued m.id {h.issued m.id with password := some newPassword} by
        simp only [History.issuedAfter, hm]]
      refine update_sound hsound ?_ ?_ ?_ ?_
      · exact fun r => ⟨rfl, rfl, rfl⟩
      · exact fun r _ => rfl
      · exact fun r hr heq => (heq ▸ hsound.holds r hr).withPassword hpass (hhashed _ List.mem_cons_self)
      · exact fun ⟨r, hr, heq⟩ => .inl (heq ▸ token_mem_inForce hr)
    | @rollTokenSecret targetToken newSecret m hm =>
      rw [show h.issuedAfter _ = update h.issued m.id {h.issued m.id with secret := newSecret} by
        simp only [History.issuedAfter, hm]]
      refine update_sound hsound ?_ ?_ ?_ ?_
      · exact fun r => ⟨rfl, rfl, rfl⟩
      · exact fun r _ => rfl
      · intro r hr heq
        have hholds : Holds env hashed ([newSecret] ++ h.secrets) r (h.issued m.id) :=
          (heq ▸ hsound.holds r hr).mono (List.subset_append_right ..)
        exact hholds.withSecret (hhashed _ List.mem_cons_self) List.mem_cons_self
      · exact fun _ => .inr hfresh
    | @rollSuperToken tokenKey tokenSecret rawPassword hclash =>
      refine append_sound hsound List.filter_sublist hclash ⟨_, List.mem_append_right _ List.mem_cons_self, rfl, rfl⟩
        ?_ hfresh.2.2
      exact holds_superTokenModel hfresh.1 hfresh.2.1 hhashed List.mem_cons_self

theorem firstStart_sound (hkey : IsGenerated tokenKey) (hpassword : IsGenerated rawPassword)
    (hhashed : ∀ s ∈ [tokenSecret, rawPassword], s ∈ hashed) :
    Sound env hashed (firstStart env tokenKey tokenSecret rawPassword) where
  unique := ⟨List.nodup_singleton _, List.nodup_singleton _, List.nodup_singleton _⟩
  root := ⟨_, List.mem_cons_self, rfl, rfl⟩
  holds m hm := by
    rw [List.mem_singleton.mp hm]
    exact holds_superTokenModel hkey hpassword hhashed List.mem_cons_self
  retired_text _ hc := nomatch hc
  retired_token _ _ hc := nomatch hc

/-! ### Who is recognised -/

section
variable {hashed : Set String} (hinj : Set.InjOn env.hashToBytes hashed) {h : History}
  (hsound : Sound env hashed h)
include hinj hsound

variable {cred : TokenOrAuth}

/-- Of what was ever handed out, exactly what is in force is recognised, as its own token. -/
theorem login_ok_iff (hcred : cred.presented ∈ hashed) (hparses : fromFullToken (fullToken cred) = .ok cred)
    {entry : CachedToken} {isSuper : Bool} :
    login env h.rows (fullToken cred) = .ok (entry, isSuper) ↔
      ∃ m ∈ h.rows, cred ∈ (h.issued m.id).current ∧ cachedToken env m = entry ∧ isSuper = decide (m.id = 1) := by
  obtain ⟨root, hroot, hid, -⟩ := hsound.root
  rw [login, hparses, authenticate_iff hsound.unique hroot hid]
  refine exists_congr fun m => and_congr_right fun hm => ?_
  rw [(hsound.holds m hm).accepts_iff hinj hcred]

theorem login_current {m : Model} (hm : m ∈ h.rows) (hcred : cred ∈ (h.issued m.id).current) :
    login env h.rows (fullToken cred) = .ok (cachedToken env m, decide (m.id = 1)) := by
  have hholds := hsound.holds m hm
  exact (login_ok_iff hinj hsound (hholds.presented_hashed hcred) (hholds.parses hcred)).mpr
    ⟨m, hm, hcred, rfl, rfl⟩

theorem login_retired (hretired : cred ∈ h.retired) (hout : cred ∉ inForce h.rows h.issued) :
    ∃ e, login env h.rows (fullToken cred) = .error e := by
  rw [error_iff_not_ok]
  intro ⟨⟨entry, isSuper⟩, hok⟩
  obtain ⟨hhashed, hparses⟩ := hsound.retired_text cred hretired
  obtain ⟨m, hm, hcurrent, -⟩ := (login_ok_iff hinj hsound hhashed hparses).mp hok
  exact hout (mem_inForce.mpr ⟨m, hm, hcurrent⟩)

end

/-- Edit and delete leave the row of id 1 alone. -/
theorem root_kept (hwrite : write env op rows = .ok rows')
    (hop : (∃ targetToken limit, op = .edit targetToken limit) ∨ ∃ targetToken, op = .delete targetToken) {root : Model}
    (hroot : root ∈ rows) (hid : root.id = 1) : root ∈ rows' := by
  cases write_effect hwrite with
  | @edit _ _ m hm => exact List.mem_map.mpr ⟨root, hroot, if_neg fun heq : root.id = m.id => hm (heq ▸ hid)⟩
  | @delete _ filter => exact List.mem_filter.mpr ⟨hroot, by rw [hid]; rfl⟩
  | create | changePassword | rollTokenSecret | rollSuperToken => simp at hop

/-- **The life of credentials**: let the digest have no collision among the secrets and
passwords of a history, and let what the server generates be fresh. After any requests
that each succeed, every text made from what is in force for a token is recognised as that
token; a `key:secret` that was superseded or deleted is refused; so is such a
`username|password`, unless it is in force again; and the super token is there without
limits, untouched by edit and delete. -/
theorem credentials_life_cycle (hashed : Set String) (hinj : Set.InjOn env.hashToBytes hashed)
    (tokenKey tokenSecret rawPassword : String) (hkey : IsGenerated tokenKey) (hpassword : IsGenerated rawPassword)
    (hfirst : ∀ s ∈ [tokenSecret, rawPassword], s ∈ hashed) (ops : List TokenOp)
    (hhashed : ∀ op ∈ ops, ∀ s ∈ op.hashed, s ∈ hashed)
    (hfresh : Along (historyStep env) Fresh (firstStart env tokenKey tokenSecret rawPassword) ops) (h : History)
    (hrun : run (historyStep env) (firstStart env tokenKey tokenSecret rawPassword) ops = some h) :
    (∀ m ∈ h.rows, ∀ cred ∈ (h.issued m.id).current,
      login env h.rows (fullToken cred) = .ok (cachedToken env m, decide (m.id = 1))) ∧
    (∀ key secret, .token key secret ∈ h.retired → ∃ e, login env h.rows (key ++ ":" ++ secret) = .error e) ∧
    (∀ username password, .auth username password ∈ h.retired →
      .auth username password ∉ inForce h.rows h.issued →
        ∃ e, login env h.rows (username ++ "|" ++ password) = .error e) ∧
    (∃ root ∈ h.rows, root.id = 1 ∧ root.tokenLimit = .arr []) ∧
    ∀ op rows, ((∃ targetToken limit, op = .edit targetToken limit) ∨ ∃ targetToken, op = .delete targetToken) →
      write env op h.rows = .ok rows → ∀ root ∈ h.rows, root.id = 1 → root ∈ rows := by
  have hsound : Sound env hashed h :=
    run_invariant (fun _ _ _ hs hG hstep => historyStep_sound hs hG.1 hG.2 hstep)
      (firstStart_sound hkey hpassword hfirst) (hfresh.and_forall hhashed) hrun
  refine ⟨?_, ?_, ?_, hsound.root, ?_⟩
  · intro m hm cred hcred
    exact login_current hinj hsound hm hcred
  · intro key secret hretired
    have hrefused := login_retired hinj hsound hretired (hsound.retired_token key secret hretired).2
    rwa [fullToken] at hrefused
  · intro username password hretired hout
    have hrefused := login_retired hinj hsound hretired hout
    rwa [fullToken] at hrefused
  · intro op rows hop hwrite root hroot hid
    exact root_kept hwrite hop hroot hid

/-- A token is created, its password changed and its secret rolled. -/
def rolledToken : List TokenOp :=
  [.create 2 "K2" "ab" none none (.arr []) (some "bob") (some "abc"), .changePassword "bob" "secret",
    .rollTokenSecret "K2:ab" "abcdefg"]

theorem credentials_life_cycle_rolled :
    ∃ h, run (historyStep sampleEnv) (firstStart sampleEnv "K1" "s" "pass") rolledToken = some h ∧
      h.retired = [.auth "bob" "abc", .token "K2" "ab"] ∧
      (∀ m ∈ h.rows, ∀ cred ∈ (h.issued m.id).current,
        login sampleEnv h.rows (fullToken cred) = .ok (cachedToken sampleEnv m, decide (m.id = 1))) ∧
      ∀ key secret, .token key secret ∈ h.retired →
        ∃ e, login sampleEnv h.rows (key ++ ":" ++ secret) = .error e := by
  have hinj : Set.InjOn sampleEnv.hashToBytes {s | s ∈ ["s", "pass", "ab", "abc", "secret", "abcdefg"]} := by
    have hlist : ∀ x ∈ ["s", "pass", "ab", "abc", "secret", "abcdefg"],
        ∀ y ∈ ["s", "pass", "ab", "abc", "secret", "abcdefg"],
          sampleEnv.hashToBytes x = sampleEnv.hashToBytes y → x = y := by decide +kernel
    exact fun x hx y hy => hlist x hx y hy
  have hfresh : Along (historyStep sampleEnv) Fresh (firstStart sampleEnv "K1" "s" "pass") rolledToken :=
    .cons rfl ⟨by decide, by decide⟩ <| .cons rfl trivial <|
      .cons rfl (show "abcdefg" ∉ ["ab", "s"] by decide) trivial
  obtain ⟨h, hrun, hretired⟩ := Option.map_eq_some_iff.mp
    (show (run (historyStep sampleEnv) (firstStart sampleEnv "K1" "s" "pass") rolledToken).map History.retired =
      some [.auth "bob" "abc", .token "K2" "ab"] by decide +kernel)
  have hlife := credentials_life_cycle _ hinj "K1" "s" "pass" (by decide)
    (by decide) (by decide) rolledToken (by decide) hfresh h hrun
  exact ⟨h, hrun, hretired, hlife.1, hlife.2.1⟩

end NodeGet.Token
