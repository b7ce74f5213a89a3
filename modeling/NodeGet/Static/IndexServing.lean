import NodeGet.Data.FileTree
import NodeGet.Static.Serve

/-! Directories behind the static routes (`ng-static/src/router.rs`: `serve_static_file`).

The handler falls back to `index.html` where the metadata of the requested path cannot be
found. A directory has metadata, so the fallback is not taken for one, and reading the
directory fails; below a path that does not exist there is no index either. So the fallback
never finds a file (`locate_missing`), and a directory is answered with 404 whatever it
contains (`answered_iff`). -/
namespace NodeGet.Static.IndexServing
open NodeGet.Core NodeGet.Data NodeGet.Data.UnixPath NodeGet.Static.Serve

/-! ### The files of a bucket -/

/-- The tree below a bucket's directory, and what the system says besides: times, lengths of
directories, and to which locations it takes no path (a zero byte, a name that is too long). -/
structure Disk where
  tree : FileTree (List Char) (List UInt8)
  modified : Loc → Nat
  directoryLen : Loc → Nat
  refused : Loc → Option String
  refused_missing : ∀ loc, refused loc ≠ none → tree.entry loc = none

def indexName : List Char := "index.html".toList

namespace Disk
variable (disk : Disk) (loc : Loc)

def metadataOf : Entry (List UInt8) → Metadata
  | .file data => ⟨disk.modified loc, data.length⟩
  | .dir => ⟨disk.modified loc, disk.directoryLen loc⟩

def fault : IoFault :=
  match disk.refused loc with
  | some text => ⟨false, text⟩
  | none => ⟨decide (disk.tree.missing loc = .notFound), (disk.tree.missing loc).text⟩

def metadata : Except IoFault Metadata :=
  match disk.tree.entry loc with
  | some e => .ok (disk.metadataOf loc e)
  | none => .error (disk.fault loc)

def read : Option (List UInt8) :=
  match disk.tree.entry loc with
  | some (.file data) => some data
  | _ => none

/-- What is at a location to be returned: a file, or the index of a directory. -/
def content : Option (List UInt8) :=
  match disk.tree.entry loc with
  | some (.file data) => some data
  | some .dir => disk.read (loc ++ [indexName])
  | none => none

end Disk

def baseOf (host : Host) (model : Bucket) : List Char := push host.staticPath.toList model.path.toList

/-- A host with these files in the directory of a bucket. -/
def Disk.host (disk : Disk) (host : Host) (model : Bucket) : Host where
  __ := host
  metadata path :=
    if startsWith path (baseOf host model) then disk.metadata (location (baseOf host model) path) else host.metadata path
  read path :=
    if startsWith path (baseOf host model) then disk.read (location (baseOf host model) path) else host.read path

/-! ### What is located -/

variable {p base : List Char} {content : Option (List UInt8)} {method : Method} {reply : Reply}

theorem startsWith_resolved {host : Host} {model : Bucket} {filePath : String}
    (h : resolveSafeFilePath host.staticPath model.path filePath = .ok p) :
    startsWith p (baseOf host model) = true := by
  obtain ⟨-, h⟩ := check_ok_iff.mp h
  obtain ⟨resolved, -, h⟩ := ok_of_bind h
  split at h
  next hstarts =>
    cases h
    exact hstarts
  next => cases h

theorem isName_indexName : IsName indexName := ⟨by decide, by decide, by decide, by decide⟩

theorem startsWith_index (h : startsWith p base = true) : startsWith (push p indexName) base = true := by
  rw [startsWith_iff] at h ⊢
  rw [components_push_name isName_indexName]
  exact h.trans (List.prefix_append _ _)

theorem location_index (h : startsWith p base = true) :
    location base (push p indexName) = location base p ++ [indexName] := by
  have hle := (startsWith_iff.mp h).length_le
  rw [location, components_push_name isName_indexName, List.drop_append_of_le_length hle, names_append]
  rfl

section Located
variable (disk : Disk) {host : Host} {model : Bucket} {path : String} {resolved : List Char}
variable (hresolved : resolveSafeFilePath host.staticPath model.path (requestedFile path) = .ok resolved)
include hresolved

theorem host_metadata_resolved :
    (disk.host host model).metadata resolved = disk.metadata (location (baseOf host model) resolved) :=
  if_pos (startsWith_resolved hresolved)

theorem host_metadata_index :
    (disk.host host model).metadata (push resolved indexName) =
      disk.metadata (location (baseOf host model) resolved ++ [indexName]) := by
  rw [← location_index (startsWith_resolved hresolved)]
  exact if_pos (startsWith_index (startsWith_resolved hresolved))

theorem host_read_resolved :
    (disk.host host model).read resolved = disk.read (location (baseOf host model) resolved) :=
  if_pos (startsWith_resolved hresolved)

/-- What exists is located itself, a directory too. -/
theorem locate_present {e : Entry (List UInt8)}
    (he : disk.tree.entry (location (baseOf host model) resolved) = some e) :
    locate (disk.host host model) model path =
      .ok (resolved, disk.metadataOf (location (baseOf host model) resolved) e) := by
  have hmetadata := host_metadata_resolved disk hresolved
  rw [Disk.metadata, he] at hmetadata
  rw [locate, show (disk.host host model).staticPath = host.staticPath from rfl, hresolved]
  simp only [hmetadata]

/-- Below what does not exist there is no index, so the fallback finds nothing. -/
theorem locate_missing (hnone : disk.tree.entry (location (baseOf host model) resolved) = none) :
    locate (disk.host host model) model path =
      .error (if (disk.fault (location (baseOf host model) resolved)).isNotFound then (404, "File not found")
        else (500, "Failed to stat file: " ++ (disk.fault (location (baseOf host model) resolved)).text)) := by
  have hmetadata := host_metadata_resolved disk hresolved
  have hindex := host_metadata_index disk hresolved
  have hbelow : disk.tree.entry (location (baseOf host model) resolved ++ [indexName]) = none := by
    by_contra hsome
    rw [disk.tree.parents _ _ hsome] at hnone
    cases hnone
  rw [Disk.metadata, hnone] at hmetadata
  rw [Disk.metadata, hbelow] at hindex
  rw [locate, show (disk.host host model).staticPath = host.staticPath from rfl, hresolved]
  simp only [hmetadata]
  split
  next =>
    rw [show "index.html".toList = indexName from rfl, hindex]
  next => rfl

end Located

/-! ### What is answered -/

/-- The reply returns that content, a HEAD request without the body, or is not-found. -/
def Answers (content : Option (List UInt8)) (method : Method) (reply : Reply) : Prop :=
  match content with
  | some data => reply.status = 200 ∧ reply.body = if method = .head then .empty else .bytes data
  | none => reply.status = 404

/-- The request reads, its tags do not match, what it names is not too large and is no
directory with an index; what it names in vain lies below directories only. -/
def Disk.Deliverable (disk : Disk) (loc : Loc) (method : Method) (ifNoneMatch : Option String) : Prop :=
  (method = .get ∨ method = .head) ∧
    match disk.tree.entry loc with
    | some e =>
      (disk.metadataOf loc e).len ≤ maxStaticFileSize ∧
        ifNoneMatchIsMatch ifNoneMatch (buildEtag (disk.metadataOf loc e)) = false ∧
        (e = .dir → disk.tree.isFile (loc ++ [indexName]) = false)
    | none => disk.refused loc = none ∧ disk.tree.missing loc = .notFound

theorem Disk.read_eq_none_iff (disk : Disk) (loc : Loc) :
    disk.read loc = none ↔ disk.tree.isFile loc = false := by
  rw [Disk.read, FileTree.isFile]
  cases disk.tree.entry loc with
  | none => simp
  | some e => cases e <;> simp

theorem Disk.fault_isNotFound_iff (disk : Disk) (loc : Loc) :
    (disk.fault loc).isNotFound = true ↔ disk.refused loc = none ∧ disk.tree.missing loc = .notFound := by
  rw [Disk.fault]
  split
  next text htext => simp [htext]
  next hnone => simp [hnone]

section Serve
variable {host : Host} {model : Bucket} {path : String} {method : Method} {ifNoneMatch : Option String}

theorem serve_otherMethod (h : ¬(method = .get ∨ method = .head)) :
    (routerServing.serve host model path method ifNoneMatch).status = 405 := by
  rw [Serving.serve, if_pos (not_or.mp h)]
  rfl

variable (hmethod : method = .get ∨ method = .head)
include hmethod

theorem serve_unlocated {status : Nat} {message : String} (h : locate host model path = .error (status, message)) :
    (routerServing.serve host model path method ifNoneMatch).status = status := by
  rw [Serving.serve, if_neg (not_and_or.mpr (hmethod.imp not_not_intro not_not_intro)), h]
  rfl

variable {file : List Char} {m : Metadata} (hlocate : locate host model path = .ok (file, m))
include hlocate

theorem serve_large (h : maxStaticFileSize < m.len) :
    (routerServing.serve host model path method ifNoneMatch).status = 413 := by
  rw [Serving.serve, if_neg (not_and_or.mpr (hmethod.imp not_not_intro not_not_intro)), hlocate]
  simp only [routerServing, Option.filter_some, decide_eq_true h, if_true, Serving.staticError]

variable (hsmall : m.len ≤ maxStaticFileSize)
include hsmall

theorem serve_unchanged (h : ifNoneMatchIsMatch ifNoneMatch (buildEtag m) = true) :
    (routerServing.serve host model path method ifNoneMatch).status = 304 := by
  rw [Serving.serve, if_neg (not_and_or.mpr (hmethod.imp not_not_intro not_not_intro)), hlocate]
  simp [routerServing, Option.filter_some, Nat.not_lt.mpr hsmall, h]

variable (hchanged : ifNoneMatchIsMatch ifNoneMatch (buildEtag m) = false)
include hchanged

theorem serve_unread (h : host.read file = none) :
    (routerServing.serve host model path method ifNoneMatch).status = 404 := by
  rw [Serving.serve, if_neg (not_and_or.mpr (hmethod.imp not_not_intro not_not_intro)), hlocate]
  simp [routerServing, Option.filter_some, Nat.not_lt.mpr hsmall, hchanged, h, plain, Serving.staticError]

theorem serve_read {data : List UInt8} (h : host.read file = some data) :
    (routerServing.serve host model path method ifNoneMatch).status = 200 ∧
      (routerServing.serve host model path method ifNoneMatch).body =
        if method = .head then .empty else .bytes data := by
  rw [Serving.serve, if_neg (not_and_or.mpr (hmethod.imp not_not_intro not_not_intro)), hlocate]
  simp [routerServing, Option.filter_some, Nat.not_lt.mpr hsmall, hchanged, h]

end Serve

theorem Answers.status (h : Answers content method reply) : reply.status = 200 ∨ reply.status = 404 := by
  cases content with
  | some data => exact .inl h.1
  | none => exact .inr h

theorem answers_notFound_iff (h : reply.status = 404) : Answers content method reply ↔ content = none := by
  cases content with
  | some data => simp [Answers, h]
  | none => simp [Answers, h]

/-- **Directory index serving**: a request for an accepted path is answered as the files say
exactly when they are `Deliverable`. -/
theorem answered_iff (disk : Disk) (host : Host) (model : Bucket) (path : String) (method : Method)
    (ifNoneMatch : Option String) (resolved : List Char)
    (hresolved : resolveSafeFilePath host.staticPath model.path (requestedFile path) = .ok resolved) :
    Answers (disk.content (location (baseOf host model) resolved)) method
        (routerServing.serve (disk.host host model) model path method ifNoneMatch).toReply ↔
      disk.Deliverable (location (baseOf host model) resolved) method ifNoneMatch := by
  by_cases hmethod : method = .get ∨ method = .head
  case neg =>
    refine iff_of_false (fun h => ?_) fun h => hmethod h.1
    have hstatus := h.status
    rw [serve_otherMethod hmethod] at hstatus
    simp at hstatus
  rw [Disk.Deliverable, and_iff_right hmethod]
  cases hentry : disk.tree.entry (location (baseOf host model) resolved) with
  | none =>
    have hlocate := locate_missing disk hresolved hentry
    have hcontent : disk.content (location (baseOf host model) resolved) = none := by
      rw [Disk.content, hentry]
    rw [hcontent, ← Disk.fault_isNotFound_iff]
    split at hlocate
    next hfound => exact iff_of_true (serve_unlocated hmethod hlocate) hfound
    next hfound =>
      refine iff_of_false (fun h => ?_) hfound
      rw [Answers, serve_unlocated hmethod hlocate] at h
      cases h
  | some e =>
    have hlocate := locate_present disk hresolved hentry
    have hread := host_read_resolved disk hresolved
    rcases Nat.lt_or_ge maxStaticFileSize (disk.metadataOf (location (baseOf host model) resolved) e).len with
      hlarge | hsmall
    · refine iff_of_false (fun h => ?_) fun h => Nat.not_lt.mpr h.1 hlarge
      have hstatus := h.status
      rw [serve_large hmethod hlocate hlarge] at hstatus
      simp at hstatus
    by_cases hmatch : ifNoneMatchIsMatch ifNoneMatch
        (buildEtag (disk.metadataOf (location (baseOf host model) resolved) e)) = true
    · refine iff_of_false (fun h => ?_) fun h => by simp [hmatch] at h
      have hstatus := h.status
      rw [serve_unchanged hmethod hlocate hsmall hmatch] at hstatus
      simp at hstatus
    rw [Bool.not_eq_true] at hmatch
    simp only [hsmall, hmatch, true_and]
    cases e with
    | file data =>
      rw [Disk.read, hentry] at hread
      rw [Disk.content, hentry]
      exact iff_of_true (serve_read hmethod hlocate hsmall hmatch hread) fun h => by cases h
    | dir =>
      -- a directory has metadata, so it is read itself, in vain
      rw [Disk.read, hentry] at hread
      rw [answers_notFound_iff (serve_unread hmethod hlocate hsmall hmatch hread), Disk.content, hentry]
      simp only [true_imp_iff]
      exact disk.read_eq_none_iff _

private def docs : Bucket := ⟨"docs", "docs", false, true, true, by decide +kernel, by decide +kernel⟩

private def docsHost : Host := { Host.bare with staticPath := "static" }

/-- A directory with an index and nothing else. -/
private def manual : Disk where
  tree := FileTree.single ["manual".toList, indexName] [104, 105]
  modified _ := 0
  directoryLen _ := 4096
  refused _ := none
  refused_missing _ h := absurd rfl h

theorem answered_index_file :
    Answers (some [104, 105]) .get
      (routerServing.serve (manual.host docsHost docs) docs "manual/index.html" .get none).toReply := by
  have hentry : manual.tree.entry (location (baseOf docsHost docs) "static/docs/manual/index.html".toList) =
      some (.file [104, 105]) := by decide +kernel
  have hdeliverable : manual.Deliverable (location (baseOf docsHost docs) "static/docs/manual/index.html".toList)
      .get none := by
    rw [Disk.Deliverable, hentry]
    exact ⟨.inl rfl, by decide, rfl, fun h => by cases h⟩
  have hanswers := (answered_iff manual docsHost docs "manual/index.html" .get none
    "static/docs/manual/index.html".toList (by decide +kernel)).mpr hdeliverable
  rw [Disk.content, hentry] at hanswers
  exact hanswers

/-- With or without a slash at its end, the path of the directory is answered with 404. -/
theorem directory_index_not_served :
    resolveSafeFilePath "static" "docs" (requestedFile "manual") = .ok "static/docs/manual".toList ∧
      resolveSafeFilePath "static" "docs" (requestedFile "manual/") = .ok "static/docs/manual".toList ∧
      manual.content (location (baseOf docsHost docs) "static/docs/manual".toList) = some [104, 105] ∧
      (routerServing.serve (manual.host docsHost docs) docs "manual" .get none).status = 404 ∧
      (routerServing.serve (manual.host docsHost docs) docs "manual/" .get none).status = 404 := by
  decide +kernel

end NodeGet.Static.IndexServing
