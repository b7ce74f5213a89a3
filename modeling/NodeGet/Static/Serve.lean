import NodeGet.Static.Buckets
import NodeGet.Token.Cache

/-! How an HTTP request reaches a bucket (`server/src/subcommands/serve.rs`: `run`,
`handle_rpc_root`, `serve_static_file`; `ng-static/src/router.rs`: `router`,
`serve_static_file`, `static_webdav_handler`; `ng-static/src/cache.rs`: `get_http_root`).

Five routes look up a bucket on their own: the root, the two static routes, WebDAV and the
fallback. Each response records the file whose content or metadata it carries and the record
through which that file was found (`Response.shown`). Four of the routes look at `enable`
before they serve anything (`handleRpcRoot_shown`, `staticRoute_shown`, `webdav_shown`); the
fallback does not, and serves the root bucket also when it is disabled
(`fallback_serves_disabled_root`). That is the only way to a disabled bucket
(`disabled_not_shown_iff`).

JSON-RPC, scripts, terminals and the WebDAV library are parameters. Files read by JSON-RPC
methods are not behind `enable`: switching a bucket off is documented as leaving them alone. -/
namespace NodeGet.Static.Serve
open NodeGet.Core NodeGet.Data NodeGet.Data.UnixPath NodeGet.Token

/-! ### Requests and responses -/

inductive Method where
  | get | head | options
  | other (name : String)
deriving DecidableEq

/-- A request, with the headers that are looked at; a value that is no text counts as missing. -/
structure Request where
  method : Method
  path : String
  upgrade : Option String := none
  connection : Option String := none
  ifNoneMatch : Option String := none
  authorization : Option String := none

inductive Body where
  | empty
  | text (message : String)
  | bytes (data : List UInt8)
deriving DecidableEq

structure Reply where
  status : Nat
  headers : List (String × String)
  body : Body
deriving DecidableEq

/-- The file that a response tells of, and the record that led to it. -/
structure Shown where
  record : Bucket
  file : List Char

structure Response extends Reply where
  shown : Option Shown

/-- A reply that tells of no file. -/
def plain (reply : Reply) : Response := ⟨reply, none⟩

structure Metadata where
  /-- Seconds since the epoch, 0 where the time is unknown or earlier. -/
  modified : Nat
  len : Nat

structure IoFault where
  isNotFound : Bool
  text : String

/-- What the routes take from elsewhere. -/
structure Host where
  staticPath : String
  landingHtml : String
  metadata : List Char → Except IoFault Metadata
  read : List Char → Option (List UInt8)
  /-- A path parameter's text; `none` where its bytes are no text. -/
  percentDecode : String → Option String
  /-- The reply to such a parameter. -/
  rejected : Reply
  /-- The text behind base64. -/
  base64Text : String → Option String
  /-- The permission checker, where there is one; an error counts as a refusal. -/
  checker : Option (TokenOrAuth → List Scope → List Permission → Bool)
  /-- A WebDAV handler for a directory: its reply and the file it tells of. -/
  dav : List Char → Request → Reply × Option (List Char)
  rpc : Request → Reply
  worker : Request → Reply
  terminal : Request → Reply

def isWebsocketUpgrade (req : Request) : Bool :=
  let lower (text : List Char) := text.map Char.toLower
  req.upgrade.any (fun value => lower value.toList = "websocket".toList) &&
    req.connection.any fun value =>
      (value.toList.splitOn ',').any fun segment => lower (trim (String.ofList segment)) = "upgrade".toList

/-! ### Serving a file -/

def extension (file : List Char) : Option (List Char) :=
  match (components file).getLast? with
  | some (.normal name) =>
    match splitOnceList '.' name.reverse with
    | some (tail, stem) => if stem = [] then none else some tail.reverse
    | none => none
  | _ => none

def guessMimeType (file : List Char) : String :=
  match (extension file).map String.ofList with
  | some "html" | some "htm" => "text/html; charset=utf-8"
  | some "css" => "text/css; charset=utf-8"
  | some "js" => "application/javascript; charset=utf-8"
  | some "json" => "application/json; charset=utf-8"
  | some "png" => "image/png"
  | some "jpg" | some "jpeg" => "image/jpeg"
  | some "gif" => "image/gif"
  | some "svg" => "image/svg+xml"
  | some "ico" => "image/x-icon"
  | some "woff2" => "font/woff2"
  | some "woff" => "font/woff"
  | some "ttf" => "font/ttf"
  | some "txt" => "text/plain; charset=utf-8"
  | some "xml" => "application/xml; charset=utf-8"
  | some "wasm" => "application/wasm"
  | _ => "application/octet-stream"

def buildEtag (m : Metadata) : String := "\"" ++ toString m.modified ++ "-" ++ toString m.len ++ "\""

/-- `*`, or one of the tags, weak or not. -/
def ifNoneMatchIsMatch (ifNoneMatch : Option String) (etag : String) : Bool :=
  ifNoneMatch.any fun header =>
    trim header = ['*'] || (header.toList.splitOn ',').any fun part =>
      let tag := trim (String.ofList part)
      (if ['W', '/'].isPrefixOf tag then tag.drop 2 else tag) = etag.toList

/-- What the two crates do differently when they serve a file. -/
structure Serving where
  limit : Option Nat
  nosniff : Bool
  contentLength : Bool

def textPlain : String × String := ("content-type", "text/plain; charset=utf-8")
def nosniffHeader : String × String := ("x-content-type-options", "nosniff")

def Serving.nosniffHeaders (o : Serving) : List (String × String) := if o.nosniff then [nosniffHeader] else []

def corsHeaders (cors : Bool) : List (String × String) :=
  if cors then [("access-control-allow-origin", "*")] else []

def Serving.staticError (o : Serving) (status : Nat) (message : String) (cors : Bool) : Reply :=
  ⟨status, textPlain :: o.nosniffHeaders ++ corsHeaders cors, .text message⟩

def requestedFile (path : String) : String :=
  if path = "" ∨ path = "/" then "index.html" else String.ofList (path.toList.dropWhile (· == '/'))

/-- The file for a path, with its metadata: what is resolved, or the index below it where that
does not exist. A failure is a status and a message. -/
def locate (host : Host) (model : Bucket) (path : String) : Except (Nat × String) (List Char × Metadata) :=
  match resolveSafeFilePath host.staticPath model.path (requestedFile path) with
  | .error e => .error (400, e.display)
  | .ok resolved =>
    match host.metadata resolved with
    | .ok m => .ok (resolved, m)
    | .error fault =>
      if fault.isNotFound then
        let index := push resolved "index.html".toList
        match host.metadata index with
        | .ok m => .ok (index, m)
        | .error _ => .error (404, "File not found")
      else .error (500, "Failed to stat file: " ++ fault.text)

def tooLarge (len limit : Nat) : String :=
  "File too large (" ++ toString len ++ " bytes, max " ++ toString limit ++ "); use WebDAV for large files"

def Serving.serve (o : Serving) (host : Host) (model : Bucket) (path : String) (method : Method)
    (ifNoneMatch : Option String) : Response :=
  if method ≠ .get ∧ method ≠ .head then
    plain ⟨405, ("allow", "GET, HEAD, OPTIONS") :: corsHeaders model.cors, .text "Method not allowed"⟩
  else
    match locate host model path with
    | .error (status, message) => plain (o.staticError status message model.cors)
    | .ok (file, m) =>
      match o.limit.filter (· < m.len) with
      -- the size of the file is in the message
      | some limit => ⟨o.staticError 413 (tooLarge m.len limit) model.cors, some ⟨model, file⟩⟩
      | none =>
        let etag := buildEtag m
        if ifNoneMatchIsMatch ifNoneMatch etag then
          ⟨⟨304, ("etag", etag) :: o.nosniffHeaders ++ corsHeaders model.cors, .empty⟩, some ⟨model, file⟩⟩
        else
          match host.read file with
          | none => plain (o.staticError 404 "File not found" model.cors)
          | some data =>
            let length := if o.contentLength then [("content-length", toString data.length)] else []
            let headers := ("content-type", guessMimeType file) :: ("etag", etag) :: length ++ o.nosniffHeaders
            let body := if method = .head then .empty else .bytes data
            ⟨⟨200, headers ++ corsHeaders model.cors, body⟩, some ⟨model, file⟩⟩

/-- `MAX_STATIC_FILE_SIZE` -/
def maxStaticFileSize : Nat := 8 * 1024 * 1024

/-- `serve_static_file` of `ng-static`. -/
def routerServing : Serving := ⟨some maxStaticFileSize, true, true⟩

/-- `serve_static_file` of the server, which serves files of any size. -/
def serverServing : Serving := ⟨none, false, false⟩

/-! ### Routes -/

def getHttpRoot (t : BucketTable) : Option Bucket := (t.rows.find? (·.isHttpRoot)).bind fun b => t.find b.name

section Routes
variable (host : Host) (cache : Option BucketTable) (req : Request)

def handleRpcRoot : Response :=
  if isWebsocketUpgrade req then plain (host.rpc req)
  else if req.method = .get then
    match (cache.bind getHttpRoot).filter (·.enable) with
    | some model => serverServing.serve host model req.path req.method req.ifNoneMatch
    | none => plain ⟨200, [("content-type", "text/html; charset=utf-8")], .text host.landingHtml⟩
  else plain (host.rpc req)

/-- The root bucket takes what no other route does, whether it is enabled or not. -/
def fallback : Response :=
  if isWebsocketUpgrade req then plain (host.rpc req)
  else
    match cache.bind getHttpRoot with
    | some model => serverServing.serve host model req.path req.method req.ifNoneMatch
    | none => plain (host.rpc req)

def httpError (status : Nat) (message : String) : Reply := ⟨status, [textPlain, nosniffHeader], .text message⟩

def preflight : Reply where
  status := 204
  headers := [("access-control-allow-origin", "*"), ("access-control-allow-methods", "GET, HEAD, OPTIONS"),
    ("access-control-allow-headers", "*")]
  body := .empty

/-- The two static routes. -/
def staticRoute (name filePath : String) : Response :=
  match cache with
  | none => plain (httpError 500 "StaticCache not initialized")
  | some t =>
    match t.find name with
    | none => plain (httpError 404 "Static not found")
    | some model =>
      if model.enable then
        if req.method = .options ∧ model.cors = true then plain preflight
        else routerServing.serve host model filePath req.method req.ifNoneMatch
      else plain (httpError 404 "Static not found")

def webdavAuthRequired : Reply where
  status := 401
  headers := [("www-authenticate", "Basic realm=\"NodeGet Static WebDAV\""), nosniffHeader]
  body := .text "Authentication required"

/-- The bucket's name in the path, which begins with the route's own part. -/
def webdavName (path : String) : String :=
  let route := "/nodeget/static-webdav/".toList
  let relative := if route.isPrefixOf path.toList then path.toList.drop route.length
    else path.toList.dropWhile (· == '/')
  let name := ((splitOnceList '/' relative).map (·.1)).getD relative
  String.ofList (name.reverse.dropWhile (· == '/')).reverse

/-- The caller's credentials, as a token or else as a username and a password. -/
def webdavCredentials : Option TokenOrAuth := do
  let header ← req.authorization
  let basic := "Basic ".toList
  if basic.isPrefixOf header.toList then
    let credentials ← host.base64Text (String.ofList (header.toList.drop basic.length))
    let (username, password) := (splitOnce credentials ':').getD (credentials, "")
    (fromFullToken (username ++ ":" ++ password)).toOption <|> (fromFullToken (username ++ "|" ++ password)).toOption
  else none

def webdavPermissions : List Permission := [.staticBucketFile .read, .staticBucketFile .write,
  .staticBucketFile .delete, .staticBucketFile .list]

/-- `handlers` are the directories of the handlers that are cached. -/
def staticWebdavHandler (handlers : String → Option (List Char)) : Response :=
  let name := webdavName req.path
  if name = "" then plain (httpError 404 "Missing bucket name in WebDAV URL")
  else
    match cache with
    | none => plain (httpError 500 "StaticCache not initialized")
    | some t =>
      match (t.find name).filter (·.enable) with
      | none => plain (httpError 404 "Static bucket not found")
      | some model =>
        match webdavCredentials host req with
        | none => plain webdavAuthRequired
        | some credentials =>
          match host.checker with
          | none => plain (httpError 500 "PermissionChecker not initialized")
          | some allows =>
            if allows credentials [.staticBucket name] webdavPermissions then
              let diskPath := push host.staticPath.toList model.path.toList
              let answer := host.dav ((handlers name).getD diskPath) req
              ⟨answer.1, answer.2.map fun file => ⟨model, file⟩⟩
            else plain (httpError 403 "Forbidden: insufficient StaticBucketFile permissions")

inductive Route where
  | root
  | bucket (name : String)
  | bucketFile (name path : String)
  | webdav
  | worker
  | terminal
  | fallback
deriving DecidableEq

/-- A parameter takes one piece that is not empty, a final wildcard what is left, if anything. -/
def route (path : String) : Route :=
  match (path.toList.splitOn '/').map String.ofList with
  | ["", ""] | ["", "nodeget", "rpc"] => .root
  | ["", "terminal"] => .terminal
  | "" :: "nodeget" :: "static-webdav" :: rest => if rest = [] ∨ rest = [""] then .fallback else .webdav
  | "" :: "worker-route" :: name :: _ | "" :: "nodeget" :: "worker-route" :: name :: _ =>
    if name = "" then .fallback else .worker
  | "" :: "nodeget" :: "static" :: name :: rest =>
    if name = "" ∨ rest = [""] then .fallback
    else if rest = [] then .bucket name
    else .bucketFile name ("/".intercalate rest)
  | _ => .fallback

def respond (handlers : String → Option (List Char)) : Response :=
  match route req.path with
  | .root => handleRpcRoot host cache req
  | .bucket name =>
    match host.percentDecode name with
    | some name => staticRoute host cache req name "/"
    | none => plain host.rejected
  | .bucketFile name path =>
    match host.percentDecode name, host.percentDecode path with
    | some name, some path => staticRoute host cache req name (if path = "" then "/" else path)
    | _, _ => plain host.rejected
  | .webdav => staticWebdavHandler host cache req handlers
  | .worker => plain (host.worker req)
  | .terminal => plain (host.terminal req)
  | .fallback => fallback host cache req

end Routes

/-! ### What a response shows -/

variable {host : Host} {cache : Option BucketTable} {req : Request} {shown : Shown}

/-- Serving a file shows it through the record that was given. -/
theorem serve_shown {o : Serving} {model : Bucket} {path : String} {method : Method} {ifNoneMatch : Option String}
    (h : (o.serve host model path method ifNoneMatch).shown = some shown) : shown.record = model := by
  unfold Serving.serve at h
  split at h
  next => cases h
  next =>
    split at h
    next => cases h
    next =>
      split at h
      next => cases h; rfl
      next =>
        dsimp only at h
        split at h
        next => cases h; rfl
        next =>
          split at h
          next => cases h
          next => cases h; rfl

/-- What the server shows of a bucket: a file that is found, by its tag or by its content. -/
def Shows (host : Host) (model : Bucket) (req : Request) : Prop :=
  (req.method = .get ∨ req.method = .head) ∧ ∃ file m, locate host model req.path = .ok (file, m) ∧
    (ifNoneMatchIsMatch req.ifNoneMatch (buildEtag m) = true ∨ (host.read file).isSome = true)

theorem serverServing_shown_iff {model : Bucket} :
    (∃ shown, (serverServing.serve host model req.path req.method req.ifNoneMatch).shown = some shown) ↔
      Shows host model req := by
  have hmethod : (req.method ≠ .get ∧ req.method ≠ .head) ↔ ¬(req.method = .get ∨ req.method = .head) := not_or.symm
  simp only [Serving.serve, Shows]
  by_cases hm : req.method = .get ∨ req.method = .head
  · rw [if_neg (hmethod.not_left.mpr hm)]
    cases hlocate : locate host model req.path with
    | error failure => simp [plain]
    | ok found =>
      obtain ⟨file, m⟩ := found
      simp only [serverServing, Option.filter_none]
      by_cases htag : ifNoneMatchIsMatch req.ifNoneMatch (buildEtag m) = true
      · simp [htag, hm]
      · cases hread : host.read file <;> simp [htag, hm, hread, plain]
  · rw [if_pos (hmethod.mpr hm)]
    simp [plain, hm]

theorem handleRpcRoot_shown (h : (handleRpcRoot host cache req).shown = some shown) : shown.record.enable = true := by
  unfold handleRpcRoot at h
  split at h
  next => cases h
  next =>
    split at h
    next =>
      split at h
      next model hmodel =>
        rw [serve_shown h]
        exact (Option.filter_eq_some_iff.mp hmodel).2
      next => cases h
    next => cases h

theorem staticRoute_shown {name filePath : String} (h : (staticRoute host cache req name filePath).shown = some shown) :
    shown.record.enable = true := by
  unfold staticRoute at h
  split at h
  next => cases h
  next =>
    split at h
    next => cases h
    next model _ =>
      split at h
      next henable =>
        split at h
        next => cases h
        next =>
          rw [serve_shown h]
          exact henable
      next => cases h

theorem webdav_shown {handlers : String → Option (List Char)}
    (h : (staticWebdavHandler host cache req handlers).shown = some shown) : shown.record.enable = true := by
  unfold staticWebdavHandler at h
  dsimp only at h
  split at h
  next => cases h
  next =>
    split at h
    next => cases h
    next =>
      split at h
      next => cases h
      next model hmodel =>
        split at h
        next => cases h
        next =>
          split at h
          next => cases h
          next =>
            split at h
            next =>
              obtain ⟨file, -, rfl⟩ := Option.map_eq_some_iff.mp h
              exact (Option.filter_eq_some_iff.mp hmodel).2
            next => cases h

/-- A request that the fallback answers from a disabled root bucket. -/
def ReachesDisabledRoot (host : Host) (cache : Option BucketTable) (req : Request) : Prop :=
  route req.path = .fallback ∧ isWebsocketUpgrade req = false ∧
    ∃ model, cache.bind getHttpRoot = some model ∧ model.enable = false ∧ Shows host model req

theorem fallback_shown_iff :
    (∃ shown, (fallback host cache req).shown = some shown ∧ shown.record.enable = false) ↔
      isWebsocketUpgrade req = false ∧
        ∃ model, cache.bind getHttpRoot = some model ∧ model.enable = false ∧ Shows host model req := by
  unfold fallback
  split
  next hupgrade => simp [hupgrade, plain]
  next hupgrade =>
    cases hroot : cache.bind getHttpRoot with
    | none => simp [plain]
    | some model =>
      simp only [hupgrade, Option.some.injEq, exists_eq_left', true_and]
      rw [← serverServing_shown_iff]
      constructor
      · intro ⟨shown, hshown, henable⟩
        exact ⟨serve_shown hshown ▸ henable, shown, hshown⟩
      · intro ⟨henable, shown, hshown⟩
        exact ⟨shown, hshown, (serve_shown hshown).symm ▸ henable⟩

/-- Every other route looks at `enable`. -/
theorem respond_shown {handlers : String → Option (List Char)} (hroute : route req.path ≠ .fallback)
    (h : (respond host cache req handlers).shown = some shown) : shown.record.enable = true := by
  unfold respond at h
  split at h
  next => exact handleRpcRoot_shown h
  next =>
    split at h
    next => exact staticRoute_shown h
    next => cases h
  next =>
    split at h
    next => exact staticRoute_shown h
    next => cases h
  next => exact webdav_shown h
  next => cases h
  next => cases h
  next hfallback => exact absurd hfallback hroute

/-- **The files that a response tells of were found through enabled buckets, except where the
fallback serves a disabled root bucket.** -/
theorem disabled_not_shown_iff (host : Host) (cache : Option BucketTable) (handlers : String → Option (List Char))
    (req : Request) :
    (∀ shown, (respond host cache req handlers).shown = some shown → shown.record.enable = true) ↔
      ¬ReachesDisabledRoot host cache req := by
  by_cases hroute : route req.path = .fallback
  · have hrespond : respond host cache req handlers = fallback host cache req := by
      unfold respond
      rw [hroute]
    rw [hrespond, ReachesDisabledRoot, ← fallback_shown_iff]
    simp [hroute]
  · simp only [ReachesDisabledRoot, hroute, false_and, not_false_eq_true, iff_true]
    exact fun shown h => respond_shown hroute h

/-- A root bucket that is switched off. -/
private def switchedOff : BucketTable :=
  ⟨[⟨"home", "home", true, false, false, by decide +kernel, by decide +kernel⟩], by decide +kernel⟩

/-- A host without files, credentials or other services. -/
def Host.bare : Host where
  staticPath := "/data"
  landingHtml := "NodeGet"
  metadata _ := .error ⟨true, "No such file"⟩
  read _ := none
  percentDecode := some
  rejected := ⟨400, [], .empty⟩
  base64Text _ := none
  checker := none
  dav _ _ := (⟨404, [], .empty⟩, none)
  rpc _ := ⟨405, [], .empty⟩
  worker _ := ⟨404, [], .empty⟩
  terminal _ := ⟨400, [], .empty⟩

/-- A host with one file in that bucket. -/
private def oneFile : Host :=
  { Host.bare with
    metadata := fun file => if file = "/data/home/secret.txt".toList then .ok ⟨0, 1⟩ else .error ⟨true, "No such file"⟩
    read := fun file => if file = "/data/home/secret.txt".toList then some [115] else none }

/-- The root page and the bucket's own route hide the bucket, the fallback hands out its file. -/
theorem fallback_serves_disabled_root :
    let ask (path : String) := respond oneFile (some switchedOff) ⟨.get, path, none, none, none, none⟩ fun _ => none
    (ask "/secret.txt").body = .bytes [115] ∧
      (ask "/secret.txt").shown.map (fun shown => (shown.record.name, shown.record.enable)) = some ("home", false) ∧
      (ask "/").body = .text "NodeGet" ∧ (ask "/nodeget/static/home/secret.txt").status = 404 := by
  decide +kernel

end NodeGet.Static.Serve
