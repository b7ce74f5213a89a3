import NodeGet.Core.Error
import NodeGet.Core.Permission

/-! Who may do what with the key-value store (`ng-kv/src/auth.rs`,
`ng-kv/src/reserved.rs`).

Every check first looks at the names of the request, then at the token. The super
token may do everything; another token must be in force, and its limits must cover
one of the permissions asked for: the one for all keys of the namespace, or the one
for the key itself. Namespaces whose name begins with two underscores belong to the
server and are never written by a request. -/
namespace NodeGet.Kv
open NodeGet.Core

/-! ### Names -/

def validateNamespace (ns : String) : Except NodegetError Unit :=
  if ns.toList = [] then .error (.invalidInput "Namespace cannot be empty")
  else if '*' ∈ ns.toList then .error (.invalidInput "Namespace cannot contain '*' character")
  else .ok ()

def validateKey (key : String) : Except NodegetError Unit :=
  if '*' ∈ key.toList then .error (.invalidInput "Key cannot contain '*' character") else .ok ()

/-- A key, or a key pattern: one `*`, at the end. -/
def validateKeyPattern (key : String) : Except NodegetError Unit :=
  if key.toList = [] then .error (.invalidInput "Key cannot be empty")
  else if '*' ∉ key.toList then .ok ()
  else if key.toList.count '*' ≠ 1 ∨ key.toList.getLast? ≠ some '*' then
    .error (.invalidInput "Wildcard key must contain exactly one '*' and it must be at the end")
  else .ok ()

def reservedNamespacePrefix : List Char := ['_', '_']

def isReservedNamespace (ns : String) : Bool := List.isPrefixOf reservedNamespacePrefix ns.toList

def ensureNamespaceWritable (ns : String) : Except NodegetError Unit :=
  if isReservedNamespace ns then
    .error (.permissionDenied ("namespace `" ++ ns ++
      "` is reserved for server-internal use and cannot be written via RPC"))
  else .ok ()

/-! ### Tokens -/

/-- The owner of a token that was recognised. -/
inductive Caller where
  | superToken
  | token (grant : Grant)

inductive KvTokenState where
  | granted
  | denied
  | token (limits : List Limit)

def resolveTokenForKvCheck (now : Int) : Caller → KvTokenState
  | .superToken => .granted
  | .token grant =>
    if grant.timestampFrom.any (now < ·) then .denied
    else if grant.timestampTo.any (· < now) then .denied
    else .token grant.tokenLimit

/-- A request's token: its owner, or why it was not recognised. -/
abbrev Credential := Except NodegetError Caller

/-- What the checks have in common once the names are accepted: one of `permissions` is
covered on the namespace. -/
def checkKvPermission (credential : Credential) (now : Int) (ns : String) (permissions : List KvPermission)
    (refusal : String) : Except NodegetError Unit :=
  credential.bind fun caller =>
    match resolveTokenForKvCheck now caller with
    | .granted => .ok ()
    | .denied => .error (.permissionDenied refusal)
    | .token limits =>
      if permissions.any fun p => checkLimitsCover limits (.kvNamespace ns) (.kv p) then .ok ()
      else .error (.permissionDenied refusal)

def checkKvReadPermission (credential : Credential) (now : Int) (ns key : String) : Except NodegetError Unit := do
  validateNamespace ns
  validateKey key
  checkKvPermission credential now ns [.read "*", .read key]
    ("No read permission for key '" ++ key ++ "' in namespace '" ++ ns ++ "'")

def checkKvReadPermissionWithPattern (credential : Credential) (now : Int) (ns keyPattern : String) :
    Except NodegetError Unit := do
  validateNamespace ns
  validateKeyPattern keyPattern
  checkKvPermission credential now ns [.read "*", .read keyPattern]
    ("No read permission for key '" ++ keyPattern ++ "' in namespace '" ++ ns ++ "'")

def checkKvWritePermission (credential : Credential) (now : Int) (ns key : String) : Except NodegetError Unit := do
  validateNamespace ns
  validateKey key
  checkKvPermission credential now ns [.write "*", .write key]
    ("No write permission for key '" ++ key ++ "' in namespace '" ++ ns ++ "'")

def checkKvDeletePermission (credential : Credential) (now : Int) (ns key : String) : Except NodegetError Unit := do
  validateNamespace ns
  validateKey key
  checkKvPermission credential now ns [.delete "*", .delete key]
    ("No delete permission for key '" ++ key ++ "' in namespace '" ++ ns ++ "'")

def checkKvDeleteNamespacePermission (credential : Credential) (now : Int) (ns : String) :
    Except NodegetError Unit := do
  validateNamespace ns
  checkKvPermission credential now ns [.delete "*"] ("No permission to delete namespace '" ++ ns ++ "'")

def checkKvListKeysPermission (credential : Credential) (now : Int) (ns : String) : Except NodegetError Unit := do
  validateNamespace ns
  checkKvPermission credential now ns [.listAllKeys] ("No permission to list keys in namespace '" ++ ns ++ "'")

/-- Only the super token creates namespaces, at any time. -/
def checkKvCreatePermission (credential : Credential) : Except NodegetError Unit :=
  credential.bind fun caller =>
    match caller with
    | .superToken => .ok ()
    | .token _ => .error (.permissionDenied "Only SuperToken can create KV namespace")

end NodeGet.Kv
