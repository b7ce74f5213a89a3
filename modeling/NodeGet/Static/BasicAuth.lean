import NodeGet.Static.Serve
import NodeGet.Token.Lifecycle

/-! HTTP Basic credentials of a WebDAV request (`ng-static/src/router.rs`:
`static_webdav_handler`; `ng-core/src/permission/token_auth.rs`: `from_full_token`;
`ng-token/src/cache.rs`: `authenticate`).

The header is decoded to `username:password` and put together again with a colon, which the
parser of credentials reads as a key and a secret. The second attempt, with `|` for a username
and a password, is never made: the first one cannot fail. So a key with its secret is
recognised, and a username with its password is looked up among the keys (`basic_auth_iff`). -/
namespace NodeGet.Static.BasicAuth
open NodeGet.Core NodeGet.Machine NodeGet.Token NodeGet.Static.Serve

/-- The header of the request is Basic with this username and password. -/
def Carries (host : Host) (req : Request) (username password : String) : Prop :=
  ∃ encoded, req.authorization = some ("Basic " ++ encoded) ∧
    host.base64Text encoded = some (username ++ ":" ++ password)

/-- The handler takes the request for one of that token's owner. -/
def AuthenticatedAs (env : Env) (rows : List Model) (host : Host) (req : Request) (m : Model) : Prop :=
  ∃ cred isSuper, webdavCredentials host req = some cred ∧
    authenticate env (buildMaps env rows) cred = .ok (cachedToken env m, isSuper)

variable {host : Host} {req : Request} {username password : String}

theorem splitOnce_colon (h : ':' ∉ username.toList) (password : String) :
    splitOnce (username ++ ":" ++ password) ':' = some (username, password) := by
  rw [splitOnce, String.toList_append, String.toList_append, show ":".toList = [':'] from rfl, List.append_assoc,
    List.singleton_append, splitOnceList_append h]
  simp

/-- A name without a colon is taken for a key, the password for its secret. -/
theorem webdavCredentials_of_carries (h : Carries host req username password) (hcolon : ':' ∉ username.toList) :
    webdavCredentials host req = some (.token username password) := by
  obtain ⟨encoded, hheader, htext⟩ := h
  have hbasic : "Basic ".toList.isPrefixOf ("Basic " ++ encoded).toList = true := by
    rw [String.toList_append, List.isPrefixOf_iff_prefix]
    exact List.prefix_append _ _
  have hrest : String.ofList (("Basic " ++ encoded).toList.drop "Basic ".toList.length) = encoded := by
    rw [String.toList_append, List.drop_left, String.ofList_toList]
  have hsplit := splitOnce_colon hcolon password
  simp only [webdavCredentials, hheader, Option.bind_eq_bind, Option.bind_some, hbasic, if_true, hrest, htext, hsplit,
    Option.getD_some, fromFullToken]
  rfl

/-- The handler recognises the owner of the row whose key is the name that was sent. -/
theorem authenticatedAs_iff {env : Env} {rows : List Model} (hunique : Unique rows) {root : Model} (hroot : root ∈ rows)
    (hid : root.id = 1) (hreq : Carries host req username password) (hcolon : ':' ∉ username.toList) {m : Model}
    (hm : m ∈ rows) : AuthenticatedAs env rows host req m ↔ Accepts env m (.token username password) := by
  unfold AuthenticatedAs
  rw [webdavCredentials_of_carries hreq hcolon]
  constructor
  · intro h
    obtain ⟨cred, isSuper, hcred, hauth⟩ := h
    cases hcred
    obtain ⟨m', -, haccepts, hentry, -⟩ := (authenticate_iff hunique hroot hid).mp hauth
    obtain rfl : m' = m := congrArg CachedToken.model hentry
    exact haccepts
  · intro haccepts
    exact ⟨_, _, rfl, (authenticate_iff hunique hroot hid).mpr ⟨m, hm, haccepts, rfl, rfl⟩⟩

/-- **Of a token with a username and a password, both requests are recognised, the one with its
username and password and the one with its key and secret, exactly when the username is the key
and the password has the secret's digest.** The table is any that the token requests lead to. -/
theorem basic_auth_iff (env : Env) (tokenKey tokenSecret rawPassword : String) (hkey : IsGenerated tokenKey)
    (hpassword : IsGenerated rawPassword) (ops : List TokenOp)
    (hfresh : Along (historyStep env) Fresh (firstStart env tokenKey tokenSecret rawPassword) ops) (h : History)
    (hrun : run (historyStep env) (firstStart env tokenKey tokenSecret rawPassword) ops = some h) (m : Model)
    (hm : m ∈ h.rows) (username password : String) (hcurrent : .auth username password ∈ (h.issued m.id).current)
    (host : Host) (byName byKey : Request) (hname : Carries host byName username password)
    (hkeyed : Carries host byKey (h.issued m.id).tokenKey (h.issued m.id).secret) :
    (AuthenticatedAs env h.rows host byName m ∧ AuthenticatedAs env h.rows host byKey m) ↔
      (h.issued m.id).tokenKey = username ∧ env.hashToBytes (h.issued m.id).secret = env.hashToBytes password := by
  have hsound : Sound env Set.univ h :=
    run_invariant (fun _ _ _ hs hG hstep => historyStep_sound hs hG (fun _ _ => trivial) hstep)
      (firstStart_sound hkey hpassword fun _ _ => trivial) hfresh hrun
  obtain ⟨root, hroot, hid, -⟩ := hsound.root
  have hholds := hsound.holds m hm
  have huser : (h.issued m.id).username = some username := by
    obtain hother | ⟨_, _, huser, -, heq⟩ := mem_current.mp hcurrent
    · cases hother
    · cases heq
      exact huser
  have hclean : ':' ∉ username.toList := by
    have hseparators := hholds.username_clean
    rw [huser, Option.any_some, hasSeparator, Bool.or_eq_false_iff] at hseparators
    simpa using hseparators.1
  rw [authenticatedAs_iff hsound.unique hroot hid hname hclean hm,
    authenticatedAs_iff hsound.unique hroot hid hkeyed hholds.key_clean hm]
  simp only [Accepts, hholds.key, hholds.tokenHashBytes, and_true]

section Example

/-- A host whose base64 is the text itself. -/
private def plainHost : Host := { Host.bare with base64Text := some }

private def basic (text : String) : Request :=
  ⟨.get, "/nodeget/static-webdav/home/", none, none, none, some ("Basic " ++ text)⟩

/-- A token that is created with a username and a password. -/
private def created (username password : String) : TokenOp :=
  .create 2 "K2" "ab" none none (.arr []) (some username) (some password)

/-- Its owner chose the key as username and the secret as password, which is what it takes. -/
theorem basic_auth_own_key :
    ∃ h, run (historyStep sampleEnv) (firstStart sampleEnv "K1" "s" "pass") [created "K2" "ab"] = some h ∧
      ∃ m ∈ h.rows, m.id = 2 ∧ AuthenticatedAs sampleEnv h.rows plainHost (basic "K2:ab") m := by
  have hfresh : Along (historyStep sampleEnv) Fresh (firstStart sampleEnv "K1" "s" "pass") [created "K2" "ab"] :=
    .cons rfl ⟨by decide, by decide⟩ trivial
  refine ⟨_, rfl, _, List.mem_cons_of_mem _ List.mem_cons_self, rfl, ?_⟩
  exact ((basic_auth_iff sampleEnv "K1" "s" "pass" (by decide) (by decide) _ hfresh _ rfl _
    (List.mem_cons_of_mem _ List.mem_cons_self) "K2" "ab" (List.mem_cons_of_mem _ List.mem_cons_self) plainHost
    (basic "K2:ab") (basic "K2:ab") ⟨"K2:ab", rfl, rfl⟩ ⟨"K2:ab", rfl, rfl⟩).mpr ⟨rfl, rfl⟩).1

/-- With any other the username is looked for among the keys, and the request is refused; the
token's own text with a bar is not. -/
theorem basic_auth_refused :
    ∃ h, run (historyStep sampleEnv) (firstStart sampleEnv "K1" "s" "pass") [created "bob" "abc"] = some h ∧
      (∃ m ∈ h.rows, .auth "bob" "abc" ∈ (h.issued m.id).current ∧
        (login sampleEnv h.rows "bob|abc").map (fun result => result.1.model.id) = .ok m.id) ∧
      webdavCredentials plainHost (basic "bob:abc") = some (.token "bob" "abc") ∧
      ∀ m ∈ h.rows, ¬AuthenticatedAs sampleEnv h.rows plainHost (basic "bob:abc") m := by
  refine ⟨_, rfl, ⟨_, List.mem_cons_of_mem _ List.mem_cons_self, List.mem_cons_of_mem _ List.mem_cons_self, rfl⟩,
    by decide +kernel, fun m _ h => ?_⟩
  obtain ⟨cred, isSuper, hcred, hauth⟩ := h
  have htoken : webdavCredentials plainHost (basic "bob:abc") = some (.token "bob" "abc") := by decide +kernel
  rw [htoken] at hcred
  cases hcred
  cases hauth

end Example

end NodeGet.Static.BasicAuth
