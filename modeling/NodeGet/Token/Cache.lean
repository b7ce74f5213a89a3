import Mathlib.Data.List.Induction
import NodeGet.Core.Error
import NodeGet.Core.Json
import NodeGet.Core.Permission

/-! The token cache (`ng-token/src/cache.rs`): the whole `token` table in memory,
indexed by key and by username, with the row of id 1, the super token, in a slot
of its own. Authentication reads the cache only, never the table.

What the server takes from elsewhere is a parameter: the salted SHA-256 digest,
what `serde_json` reads a `Vec<Limit>` or a `Permission` from, and the database's
text for a violated unique constraint. -/
namespace NodeGet.Token
open NodeGet.Core Function

abbrev Digest := Vector UInt8 32

structure Env where
  hashToBytes : String → Digest
  limitsFromValue : Json → Except String (List Limit)
  permissionFromValue : Json → Except String Permission
  uniqueViolation : String

/-- A row of the `token` table. -/
structure Model where
  id : Int
  version : Int
  tokenKey : String
  tokenHash : String
  timeStampFrom : Option Int
  timeStampTo : Option Int
  tokenLimit : Json
  username : Option String
  passwordHash : Option String

inductive TokenOrAuth where
  | token (key secret : String)
  | auth (username password : String)
deriving DecidableEq, Repr

/-- `key:secret`, or else `username|password`. -/
def fromFullToken (fullToken : String) : Except String TokenOrAuth :=
  match splitOnce fullToken ':' with
  | some (key, secret) => .ok (.token key secret)
  | none =>
    match splitOnce fullToken '|' with
    | some (username, password) => .ok (.auth username password)
    | none => .error "Invalid token format: must be 'key:secret' or 'username|password'"

/-! ### Digests as text -/

def hexNibble (c : Char) : Option UInt8 :=
  let n := c.toNat
  if 48 ≤ n ∧ n ≤ 57 then some (UInt8.ofNat (n - 48))
  else if 97 ≤ n ∧ n ≤ 102 then some (UInt8.ofNat (n - 97 + 10))
  else if 65 ≤ n ∧ n ≤ 70 then some (UInt8.ofNat (n - 65 + 10))
  else none

def hexPairs : List Char → Option (List UInt8)
  | hi :: lo :: rest => do
    let h ← hexNibble hi
    let l ← hexNibble lo
    let bytes ← hexPairs rest
    some ((h <<< 4 ||| l) :: bytes)
  | [_] => none
  | [] => some []

/-- A digest from its 64 hexadecimal digits. The source counts and walks the bytes
of the text. Only ASCII passes `hexNibble`, so a text that is accepted has as many
bytes as characters, and one that holds another character is refused either way. -/
def hexToBytes (hexStr : String) : Option Digest :=
  if hexStr.length ≠ 64 then none
  else (hexPairs hexStr.toList).bind fun bytes =>
    if h : bytes.length = 32 then some ⟨bytes.toArray, by simpa using h⟩ else none

def hexDigit (n : UInt8) : Char :=
  Char.ofNat (if n < 10 then 48 + n.toNat else 87 + n.toNat)

/-- `hex::encode` -/
def hexEncode (bytes : List UInt8) : String :=
  String.ofList (bytes.flatMap fun (b : UInt8) => [hexDigit (b >>> 4), hexDigit (b &&& 15)])

theorem hexNibble_hexDigit (n : UInt8) (h : n.toNat < 16) : hexNibble (hexDigit n) = some n := by
  have all : ∀ i : Fin 16, hexNibble (hexDigit (UInt8.ofNat i)) = some (UInt8.ofNat i) := by decide
  simpa only [UInt8.ofNat_toNat] using all ⟨n.toNat, h⟩

theorem byte_nibbles (b : UInt8) : ((b >>> 4) <<< 4 ||| (b &&& 15)) = b := by
  apply UInt8.toBitVec_inj.mp
  revert b
  suffices h : ∀ b : BitVec 8, (b >>> 4) <<< 4 ||| (b &&& 15) = b from fun b => h b.toBitVec
  decide

theorem hexNibble_low (b : UInt8) : hexNibble (hexDigit (b &&& 15)) = some (b &&& 15) := by
  apply hexNibble_hexDigit
  rw [UInt8.toNat_and]
  exact lt_of_le_of_lt Nat.and_le_right (by decide)

theorem hexNibble_high (b : UInt8) : hexNibble (hexDigit (b >>> 4)) = some (b >>> 4) := by
  apply hexNibble_hexDigit
  have hb := b.toNat_lt
  have hshift : (b >>> 4).toNat = b.toNat / 16 := by
    rw [UInt8.toNat_shiftRight, Nat.shiftRight_eq_div_pow]
    rfl
  omega

theorem hexPairs_hexEncode (bytes : List UInt8) : hexPairs (hexEncode bytes).toList = some bytes := by
  simp only [hexEncode, String.toList_ofList]
  induction bytes with
  | nil => rfl
  | cons b rest ih =>
    simp only [List.flatMap_cons, List.cons_append, List.nil_append, hexPairs, hexNibble_high,
      hexNibble_low, ih, Option.bind_eq_bind, Option.bind_some, byte_nibbles]

/-- Decoding is the inverse of encoding. -/
theorem hexToBytes_hexEncode (digest : Digest) : hexToBytes (hexEncode digest.toList) = some digest := by
  have hlen : (hexEncode digest.toList).length = 64 := by
    simp [hexEncode, List.length_flatMap]
  have harray : digest.toList.toArray = digest.toArray := Array.toArray_toList
  simp [hexToBytes, hlen, hexPairs_hexEncode, harray]

variable (env : Env)

def hashString (needHash : String) : String := hexEncode (env.hashToBytes needHash).toList

/-! ### Limits -/

/-- Drop, from each limit of the list, the permissions this version cannot read. -/
def dropUnknownPermissions : Json → Json
  | .arr limits => .arr (limits.map (Json.modifyMember "permissions" fun
      | .arr perms => .arr (perms.filter fun p => (env.permissionFromValue p).isOk)
      | other => other))
  | other => other

def parseTokenLimitWithCompat (tokenLimit : Json) : Except NodegetError (List Limit) :=
  match env.limitsFromValue tokenLimit with
  | .ok limits => .ok limits
  | .error originalErr =>
    match env.limitsFromValue (dropUnknownPermissions env tokenLimit) with
    | .ok limits => .ok limits
    | .error e => .error (.serializationError
        ("Failed to parse token permissions: " ++ e ++ "; original error: " ++ originalErr))

/-! ### The cache -/

structure CachedToken where
  model : Model
  parsedLimits : List Limit
  tokenHashBytes : Digest
  passwordHashBytes : Option Digest

/-- A row with its limits parsed and its digests decoded; what cannot be read
becomes no limit, the zero digest and no password. -/
def cachedToken (model : Model) : CachedToken where
  model := model
  parsedLimits := (parseTokenLimitWithCompat env model.tokenLimit).toOption.getD []
  tokenHashBytes := (hexToBytes model.tokenHash).getD (Vector.replicate 32 0)
  passwordHashBytes := model.passwordHash.bind hexToBytes

/-- The two indexes, replaced together under one lock. -/
structure TokenCacheInner where
  byKey : String → Option CachedToken
  byUsername : String → Option CachedToken

def TokenCacheInner.insert (inner : TokenCacheInner) (cached : CachedToken) : TokenCacheInner where
  byKey := update inner.byKey cached.model.tokenKey (some cached)
  byUsername := match cached.model.username with
    | some uname => update inner.byUsername uname (some cached)
    | none => inner.byUsername

structure Maps where
  inner : TokenCacheInner
  superToken : Option CachedToken

def Maps.insert (maps : Maps) (cached : CachedToken) : Maps where
  inner := maps.inner.insert cached
  superToken := if cached.model.id = 1 then some cached else maps.superToken

def buildMaps (allTokens : List Model) : Maps :=
  allTokens.foldl (fun maps model => maps.insert (cachedToken env model))
    ⟨⟨fun _ => none, fun _ => none⟩, none⟩

def authFailedMessage : String := "Invalid credentials"

/-- The check both indexes and the super token share: the entry is returned when
the digest of what was presented is the stored one. -/
def verify (entry : CachedToken) (stored : Option Digest) (presented : String) (isSuper : Bool) :
    Except NodegetError (CachedToken × Bool) :=
  if stored = some (env.hashToBytes presented) then .ok (entry, isSuper)
  else .error (.permissionDenied authFailedMessage)

def authenticate (maps : Maps) (tokenOrAuth : TokenOrAuth) : Except NodegetError (CachedToken × Bool) :=
  match maps.superToken with
  | none => .error (.notFound "Super Token record (ID 1) not found in cache")
  | some superEntry =>
    match tokenOrAuth with
    | .token key secret =>
      if key = superEntry.model.tokenKey then
        verify env superEntry (some superEntry.tokenHashBytes) secret true
      else
        match maps.inner.byKey key with
        | some cached => verify env cached (some cached.tokenHashBytes) secret false
        | none => .error (.permissionDenied authFailedMessage)
    | .auth username password =>
      if superEntry.model.username = some username then
        verify env superEntry superEntry.passwordHashBytes password true
      else
        match maps.inner.byUsername username with
        | some cached => verify env cached cached.passwordHashBytes password false
        | none => .error (.permissionDenied authFailedMessage)

/-! ### Entries come from rows -/

/-- Every entry of the maps is that of a row, filed under the row's own columns. -/
structure FromRows (rows : List Model) (maps : Maps) : Prop where
  byKey : ∀ key entry, maps.inner.byKey key = some entry →
    ∃ m ∈ rows, m.tokenKey = key ∧ cachedToken env m = entry
  byUsername : ∀ username entry, maps.inner.byUsername username = some entry →
    ∃ m ∈ rows, m.username = some username ∧ cachedToken env m = entry
  superToken : ∀ entry, maps.superToken = some entry → ∃ m ∈ rows, m.id = 1 ∧ cachedToken env m = entry

/-- Filing an entry keeps the other entries' rows and adds its own. -/
theorem update_fromRows {rows : List Model} {P : String → Model → Prop}
    {index : String → Option CachedToken} {name : String} {m : Model} (hm : P name m)
    (h : ∀ key entry, index key = some entry → ∃ r ∈ rows, P key r ∧ cachedToken env r = entry)
    (key : String) (entry : CachedToken)
    (hkey : update index name (some (cachedToken env m)) key = some entry) :
    ∃ r ∈ rows ++ [m], P key r ∧ cachedToken env r = entry := by
  by_cases hname : key = name
  · subst hname
    rw [update_self, Option.some.injEq] at hkey
    exact ⟨m, by simp, hm, hkey⟩
  · rw [update_of_ne hname] at hkey
    obtain ⟨r, hr, hrest⟩ := h key entry hkey
    exact ⟨r, List.mem_append_left _ hr, hrest⟩

theorem insert_fromRows {rows : List Model} {maps : Maps} (h : FromRows env rows maps) (m : Model) :
    FromRows env (rows ++ [m]) (maps.insert (cachedToken env m)) where
  byKey := update_fromRows env (P := fun key r => r.tokenKey = key) rfl h.byKey
  byUsername username entry hentry := by
    cases huser : m.username with
    | none =>
      obtain ⟨r, hr, hrest⟩ := h.byUsername username entry
        (by simpa [Maps.insert, TokenCacheInner.insert, cachedToken, huser] using hentry)
      exact ⟨r, List.mem_append_left _ hr, hrest⟩
    | some name =>
      refine update_fromRows env (P := fun user r => r.username = some user) huser h.byUsername
        username entry ?_
      simpa [Maps.insert, TokenCacheInner.insert, cachedToken, huser] using hentry
  superToken entry hentry := by
    by_cases hid : m.id = 1
    · exact ⟨m, by simp, hid, by simpa [Maps.insert, cachedToken, hid] using hentry⟩
    · obtain ⟨r, hr, hrest⟩ := h.superToken entry (by simpa [Maps.insert, cachedToken, hid] using hentry)
      exact ⟨r, List.mem_append_left _ hr, hrest⟩

theorem buildMaps_append (rows : List Model) (m : Model) :
    buildMaps env (rows ++ [m]) = (buildMaps env rows).insert (cachedToken env m) := by
  simp [buildMaps]

theorem buildMaps_fromRows (rows : List Model) : FromRows env rows (buildMaps env rows) := by
  induction rows using List.reverseRecOn with
  | nil => constructor <;> simp [buildMaps]
  | append_singleton rows m ih =>
    rw [buildMaps_append]
    exact insert_fromRows env ih m

/-- The credential is the row's own: its key and secret, or its username and password. -/
def Accepts (m : Model) : TokenOrAuth → Prop
  | .token key secret =>
    m.tokenKey = key ∧ (cachedToken env m).tokenHashBytes = env.hashToBytes secret
  | .auth username password =>
    m.username = some username ∧ (cachedToken env m).passwordHashBytes = some (env.hashToBytes password)

theorem verify_ok {entry e : CachedToken} {stored : Option Digest} {presented : String} {isSuper b : Bool}
    (h : verify env entry stored presented isSuper = .ok (e, b)) :
    stored = some (env.hashToBytes presented) ∧ e = entry ∧ b = isSuper := by
  unfold verify at h
  split at h
  next hs =>
    cases h
    exact ⟨hs, rfl, rfl⟩
  next => cases h

/-- Over maps built from a table, only a row's own credentials are accepted, and
as super only those of the row of id 1. -/
theorem authenticate_sound {rows : List Model} {cred : TokenOrAuth} {entry : CachedToken} {isSuper : Bool}
    (h : authenticate env (buildMaps env rows) cred = .ok (entry, isSuper)) :
    ∃ m ∈ rows, cachedToken env m = entry ∧ Accepts env m cred ∧ (isSuper = true → m.id = 1) := by
  have hmaps := buildMaps_fromRows env rows
  unfold authenticate at h
  split at h
  next => cases h
  next superEntry hsuper =>
    obtain ⟨root, hroot, hid, rfl⟩ := hmaps.superToken superEntry hsuper
    cases cred with
    | token key secret =>
      simp only at h
      split_ifs at h with hkey
      · obtain ⟨hhash, rfl, rfl⟩ := verify_ok env h
        exact ⟨root, hroot, rfl, ⟨hkey.symm, Option.some.inj hhash⟩, fun _ => hid⟩
      · split at h
        next cached hcached =>
          obtain ⟨m, hm, hk, rfl⟩ := hmaps.byKey key cached hcached
          obtain ⟨hhash, rfl, rfl⟩ := verify_ok env h
          exact ⟨m, hm, rfl, ⟨hk, Option.some.inj hhash⟩, nofun⟩
        next => cases h
    | auth username password =>
      simp only at h
      split_ifs at h with huser
      · obtain ⟨hhash, rfl, rfl⟩ := verify_ok env h
        exact ⟨root, hroot, rfl, ⟨huser, hhash⟩, fun _ => hid⟩
      · split at h
        next cached hcached =>
          obtain ⟨m, hm, hu, rfl⟩ := hmaps.byUsername username cached hcached
          obtain ⟨hhash, rfl, rfl⟩ := verify_ok env h
          exact ⟨m, hm, rfl, ⟨hu, hhash⟩, nofun⟩
        next => cases h

end NodeGet.Token
