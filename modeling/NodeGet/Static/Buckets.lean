import Mathlib.Data.List.Nodup
import NodeGet.Core.Text
import NodeGet.Data.FileTree
import NodeGet.Machine.Run
import NodeGet.Static.Path

/-! Buckets of static files and the tree below the base directory
(`ng-static/src/ops.rs`: `create_static`, `update_static`, `delete_static`, `upload_file`,
`rename_file`).

A bucket is a row with a name and the path of its directory. Names are unique, paths are
not: nothing keeps a bucket from lying in the directory of another, or from sharing it. A
call that names a bucket removes and overwrites files in that bucket's directory only
(`step_keeps`), so the files of another bucket are safe exactly when the two directories
are apart (`Apart`). -/
namespace NodeGet.Static
open NodeGet.Core NodeGet.Data NodeGet.Data.UnixPath NodeGet.Machine

/-! ### State -/

structure Bucket where
  name : String
  path : String
  isHttpRoot : Bool
  cors : Bool
  enable : Bool
  validName : validateName name = .ok ()
  validPath : validateSubPath path = .ok ()

/-- The table; the cache that the file operations read is reloaded after every change of it. -/
structure BucketTable where
  rows : List Bucket
  unique : (rows.map (·.name)).Nodup

namespace BucketTable

def find (t : BucketTable) (name : String) : Option Bucket := t.rows.find? (·.name == name)

def insert (t : BucketTable) (b : Bucket) (hnew : ∀ b' ∈ t.rows, b'.name ≠ b.name) : BucketTable where
  rows := b :: t.rows
  unique := by
    refine List.nodup_cons.mpr ⟨fun hmem => ?_, t.unique⟩
    obtain ⟨b', hb', heq⟩ := List.mem_map.mp hmem
    exact hnew b' hb' heq

/-- The row with the name of `b` becomes `b`. -/
def update (t : BucketTable) (b : Bucket) : BucketTable where
  rows := t.rows.map fun b' => if b'.name = b.name then b else b'
  unique := by
    have hnames : (t.rows.map fun b' => if b'.name = b.name then b else b').map (·.name) = t.rows.map (·.name) := by
      rw [List.map_map]
      refine List.map_congr_left fun b' _ => ?_
      show (if _ then b else b').name = b'.name
      split
      next heq => exact heq.symm
      next => rfl
    rw [hnames]
    exact t.unique

def erase (t : BucketTable) (name : String) : BucketTable where
  rows := t.rows.filter (·.name != name)
  unique := t.unique.sublist (List.filter_sublist.map _)

theorem mem_of_find {t : BucketTable} {name : String} {b : Bucket} (h : t.find name = some b) :
    b ∈ t.rows ∧ b.name = name :=
  ⟨List.mem_of_find?_eq_some h, by simpa using List.find?_some h⟩

end BucketTable

abbrev Disk := FileTree (List Char) (List UInt8)

structure State where
  table : BucketTable
  disk : Disk

inductive Op where
  | create (name path : String) (isHttpRoot cors : Bool)
  | update (name newPath : String) (newIsHttpRoot newCors : Bool) (newEnable : Option Bool)
  | delete (name : String)
  | upload (name filePath : String) (body : Option (List UInt8)) (base64 : Option String)
  | rename (name source target : String)

def pathDir (path : String) : Loc := names (components path.toList)

def Bucket.dir (b : Bucket) : Loc := pathDir b.path

def trimmed (text : String) : String := String.ofList (trim text)

/-- The bucket a call names. -/
def Op.target : Op → String
  | .create name .. | .update name .. | .delete name => trimmed name
  | .upload name .. | .rename name .. => name

/-! ### Calls -/

def staticNotFound (name : String) : NodegetError := .notFound ("Static '" ++ name ++ "' not found")

/-- A directory that cannot be created is only warned about. -/
def makeDir (disk : Disk) (dir : Loc) : Disk := (disk.createDirAll dir).toOption.getD disk

def createStatic (s : State) (name path : String) (isHttpRoot cors : Bool) : Except NodegetError State :=
  match hname : validateName (trimmed name) with
  | .error e => .error e
  | .ok () =>
    match hpath : validateSubPath (trimmed path) with
    | .error e => .error e
    | .ok () =>
      if hnew : ∃ b ∈ s.table.rows, b.name = trimmed name then
        .error (.databaseError ("Static '" ++ trimmed name ++ "' already exists"))
      else if isHttpRoot && s.table.rows.any (·.isHttpRoot) then
        .error (.invalidInput "Another static already has is_http_root enabled")
      else
        let b : Bucket := ⟨trimmed name, trimmed path, isHttpRoot, cors, true, hname, hpath⟩
        .ok ⟨s.table.insert b fun b' hb' heq => hnew ⟨b', hb', heq⟩, makeDir s.disk b.dir⟩

/-- The files of the old directory stay there. -/
def updateStatic (s : State) (name newPath : String) (newIsHttpRoot newCors : Bool) (newEnable : Option Bool) :
    Except NodegetError State :=
  match hname : validateName (trimmed name) with
  | .error e => .error e
  | .ok () =>
    match hpath : validateSubPath (trimmed newPath) with
    | .error e => .error e
    | .ok () =>
      match s.table.find (trimmed name) with
      | none => .error (staticNotFound (trimmed name))
      | some model =>
        if newIsHttpRoot && !model.isHttpRoot && s.table.rows.any fun b => b.isHttpRoot && b.name != model.name then
          .error (.invalidInput "Another static already has is_http_root enabled")
        else
          let enable := newEnable.getD model.enable
          let b : Bucket := ⟨trimmed name, trimmed newPath, newIsHttpRoot, newCors, enable, hname, hpath⟩
          .ok ⟨s.table.update b, makeDir s.disk b.dir⟩

/-- The row goes first; a directory that cannot be removed is only warned about. -/
def deleteStatic (s : State) (name : String) : Except NodegetError State := do
  validateName (trimmed name)
  match s.table.find (trimmed name) with
  | none => .error (staticNotFound (trimmed name))
  | some model => .ok ⟨s.table.erase (trimmed name), (s.disk.removeDirAll model.dir).toOption.getD s.disk⟩

section
variable (staticPath : String) (decode : String → Except String (List UInt8))

/-- The bucket that a file operation works in. -/
def openBucket (s : State) (name : String) : Except NodegetError Bucket := do
  validateName name
  match s.table.find name with
  | none => .error (staticNotFound name)
  | some model => .ok model

/-- What an upload writes, and where. -/
def uploadTarget (s : State) (name filePath : String) (body : Option (List UInt8)) (base64 : Option String) :
    Except NodegetError (List UInt8 × List Char) :=
  match body, base64 with
  | some _, some _ => .error (.invalidInput "Cannot provide both body and base64")
  | none, none => .error (.invalidInput "Must provide either body or base64")
  | some data, none => do
    let model ← openBucket s name
    return (data, ← resolveSafeFilePath staticPath model.path filePath)
  | none, some text => do
    let model ← openBucket s name
    let data ← (decode text).mapError fun e => .invalidInput ("Invalid base64: " ++ e)
    return (data, ← resolveSafeFilePath staticPath model.path filePath)

/-- The directory above the file is made first, and stays when the file cannot be written. -/
def uploadFile (s : State) (name filePath : String) (body : Option (List UInt8)) (base64 : Option String) :
    Except NodegetError Unit × State :=
  match uploadTarget staticPath decode s name filePath body base64 with
  | .error e => (.error e, s)
  | .ok (data, resolved) =>
    let loc := location staticPath.toList resolved
    let disk := makeDir s.disk loc.dropLast
    match disk.writeFile loc data with
    | .error e => (.error (.ioError ("Failed to write file: " ++ e.text)), ⟨s.table, disk⟩)
    | .ok disk => (.ok (), ⟨s.table, disk⟩)

def renameTargets (s : State) (name source target : String) : Except NodegetError (List Char × List Char) := do
  let model ← openBucket s name
  return (← resolveSafeFilePath staticPath model.path source, ← resolveSafeFilePath staticPath model.path target)

def renameFile (s : State) (name source target : String) : Except NodegetError Unit × State :=
  match renameTargets staticPath s name source target with
  | .error e => (.error e, s)
  | .ok (fromResolved, toResolved) =>
    -- paths are equal when their components are
    if components fromResolved = components toResolved then (.ok (), s)
    else
      let disk := makeDir s.disk (location staticPath.toList toResolved).dropLast
      match disk.rename (location staticPath.toList fromResolved) (location staticPath.toList toResolved) with
      | .error .notFound => (.error (.notFound ("Source file not found: " ++ source)), ⟨s.table, disk⟩)
      | .error e => (.error (.ioError ("Failed to rename file: " ++ e.text)), ⟨s.table, disk⟩)
      | .ok disk => (.ok (), ⟨s.table, disk⟩)

/-- A refused call changes nothing. -/
def settle (s : State) : Except NodegetError State → Except NodegetError Unit × State
  | .error e => (.error e, s)
  | .ok s' => (.ok (), s')

def call (s : State) : Op → Except NodegetError Unit × State
  | .create name path isHttpRoot cors => settle s (createStatic s name path isHttpRoot cors)
  | .update name newPath newIsHttpRoot newCors newEnable =>
    settle s (updateStatic s name newPath newIsHttpRoot newCors newEnable)
  | .delete name => settle s (deleteStatic s name)
  | .upload name filePath body base64 => uploadFile staticPath decode s name filePath body base64
  | .rename name source target => renameFile staticPath s name source target

def step (s : State) (op : Op) : Option State := some (call staticPath decode s op).2

end

/-! ### What a call touches -/

theorem names_bucketComponents (staticPath subPath : String) :
    names (bucketComponents staticPath subPath) = pathDir subPath := by
  rw [bucketComponents]
  split
  next => rfl
  next =>
    rw [pathDir, names, List.filterMap_filter]
    refine List.filterMap_congr fun c _ => ?_
    cases c <;> rfl

/-- What is resolved in a bucket lies in the bucket's directory. -/
theorem dir_prefix_location {staticPath subPath filePath : String} {p : List Char}
    (h : resolveSafeFilePath staticPath subPath filePath = .ok p) : pathDir subPath <+: location staticPath.toList p := by
  obtain ⟨rest, hcomponents, _⟩ := resolved_components h
  refine ⟨names rest, ?_⟩
  rw [location, hcomponents, List.append_assoc, List.drop_left, names_append, names_bucketComponents]

theorem makeDir_keeps (P : Loc → Prop) (disk : Disk) (dir : Loc) : FileTree.KeepsFiles P disk (makeDir disk dir) := by
  rw [makeDir]
  cases h : disk.createDirAll dir with
  | error e => exact .refl P disk
  | ok disk' => exact FileTree.createDirAll_keeps h P

section
variable {staticPath : String} {decode : String → Except String (List UInt8)} {s : State} {P : Loc → Prop}

variable {name filePath source target : String} {body : Option (List UInt8)} {base64 : Option String} {p : List Char}
  {s' : State}

theorem mem_of_openBucket {model : Bucket} (h : openBucket s name = .ok model) :
    model ∈ s.table.rows ∧ model.name = name := by
  obtain ⟨_, h⟩ := check_ok_iff.mp h
  cases hfind : s.table.find name with
  | none =>
    rw [hfind] at h
    cases h
  | some b =>
    rw [hfind] at h
    cases h
    exact BucketTable.mem_of_find hfind

/-- An upload writes in the directory of its bucket. -/
theorem uploadTarget_below {data : List UInt8}
    (h : uploadTarget staticPath decode s name filePath body base64 = .ok (data, p)) :
    ∃ model ∈ s.table.rows, model.name = name ∧ model.dir <+: location staticPath.toList p := by
  have hbelow {model : Bucket} (hopen : openBucket s name = .ok model)
      (hres : resolveSafeFilePath staticPath model.path filePath = .ok p) :
      ∃ model ∈ s.table.rows, model.name = name ∧ model.dir <+: location staticPath.toList p := by
    obtain ⟨hmem, hname⟩ := mem_of_openBucket hopen
    exact ⟨model, hmem, hname, dir_prefix_location hres⟩
  cases body with
  | some bytes =>
    cases base64 with
    | some text => cases h
    | none =>
      obtain ⟨model, hopen, h⟩ := ok_of_bind h
      obtain ⟨p', hres, h⟩ := ok_of_bind h
      cases h
      exact hbelow hopen hres
  | none =>
    cases base64 with
    | none => cases h
    | some text =>
      obtain ⟨model, hopen, h⟩ := ok_of_bind h
      obtain ⟨bytes, _, h⟩ := ok_of_bind h
      obtain ⟨p', hres, h⟩ := ok_of_bind h
      cases h
      exact hbelow hopen hres

theorem renameTargets_below {q : List Char} (h : renameTargets staticPath s name source target = .ok (p, q)) :
    ∃ model ∈ s.table.rows, model.name = name ∧ model.dir <+: location staticPath.toList p ∧
      model.dir <+: location staticPath.toList q := by
  obtain ⟨model, hopen, h⟩ := ok_of_bind h
  obtain ⟨p', hp, h⟩ := ok_of_bind h
  obtain ⟨q', hq, h⟩ := ok_of_bind h
  cases h
  obtain ⟨hmem, hname⟩ := mem_of_openBucket hopen
  exact ⟨model, hmem, hname, dir_prefix_location hp, dir_prefix_location hq⟩

theorem createStatic_ok {name path : String} {isHttpRoot cors : Bool}
    (h : createStatic s name path isHttpRoot cors = .ok s') :
    ∃ b : Bucket, b.name = trimmed name ∧ b.path = trimmed path ∧ s'.table.rows = b :: s.table.rows ∧
      s'.disk = makeDir s.disk b.dir := by
  unfold createStatic at h
  split at h
  next => cases h
  next hname =>
    split at h
    next => cases h
    next hpath =>
      split at h
      next => cases h
      next =>
        split at h
        next => cases h
        next =>
          cases h
          exact ⟨⟨trimmed name, trimmed path, isHttpRoot, cors, true, hname, hpath⟩, rfl, rfl, rfl, by dsimp only⟩

theorem updateStatic_ok {newPath : String} {newIsHttpRoot newCors : Bool} {newEnable : Option Bool}
    (h : updateStatic s name newPath newIsHttpRoot newCors newEnable = .ok s') :
    ∃ b : Bucket, b.name = trimmed name ∧ b.path = trimmed newPath ∧ s'.table = s.table.update b ∧
      s'.disk = makeDir s.disk b.dir := by
  unfold updateStatic at h
  split at h
  next => cases h
  next hname =>
    split at h
    next => cases h
    next hpath =>
      split at h
      next => cases h
      next model _ =>
        split at h
        next => cases h
        next =>
          cases h
          exact ⟨⟨trimmed name, trimmed newPath, newIsHttpRoot, newCors, newEnable.getD model.enable, hname, hpath⟩,
            rfl, rfl, rfl, by dsimp only⟩

theorem deleteStatic_ok (h : deleteStatic s name = .ok s') :
    ∃ model ∈ s.table.rows, model.name = trimmed name ∧ s'.table = s.table.erase (trimmed name) ∧
      s'.disk = (s.disk.removeDirAll model.dir).toOption.getD s.disk := by
  obtain ⟨_, h⟩ := check_ok_iff.mp h
  cases hfind : s.table.find (trimmed name) with
  | none =>
    rw [hfind] at h
    cases h
  | some model =>
    rw [hfind] at h
    cases h
    obtain ⟨hmem, hname⟩ := BucketTable.mem_of_find hfind
    exact ⟨model, hmem, hname, rfl, rfl⟩

/-- What holds of the state before a call and of the state after it is granted holds after
every call. -/
theorem settle_of {Q : State → Prop} {r : Except NodegetError State} (hs : Q s) (hr : ∀ s', r = .ok s' → Q s') :
    Q (settle s r).2 := by
  cases r with
  | error e => exact hs
  | ok s' => exact hr s' rfl

theorem uploadFile_keeps (hP : ∀ model ∈ s.table.rows, model.name = name → ∀ l, P l → ¬ model.dir <+: l) :
    FileTree.KeepsFiles P s.disk (uploadFile staticPath decode s name filePath body base64).2.disk := by
  simp only [uploadFile]
  split
  next => exact .refl P _
  next data resolved htarget =>
    obtain ⟨model, hmem, hname, hbelow⟩ := uploadTarget_below htarget
    have hmake := makeDir_keeps P s.disk (location staticPath.toList resolved).dropLast
    split
    next => dsimp only; exact hmake
    next disk hwrite =>
      exact hmake.trans (FileTree.writeFile_keeps hwrite fun hloc => hP model hmem hname _ hloc hbelow)

theorem renameFile_keeps (hP : ∀ model ∈ s.table.rows, model.name = name → ∀ l, P l → ¬ model.dir <+: l) :
    FileTree.KeepsFiles P s.disk (renameFile staticPath s name source target).2.disk := by
  simp only [renameFile]
  split
  next => exact .refl P _
  next p q htargets =>
    obtain ⟨model, hmem, hname, hp, hq⟩ := renameTargets_below htargets
    have hmake := makeDir_keeps P s.disk (location staticPath.toList q).dropLast
    split
    next => exact .refl P _
    next =>
      split
      next => dsimp only; exact hmake
      next => dsimp only; exact hmake
      next disk hrename =>
        refine hmake.trans (FileTree.rename_keeps hrename fun l hl => ?_)
        exact ⟨fun h => hP model hmem hname l hl (hp.trans h), fun h => hP model hmem hname l hl (hq.trans h)⟩

/-- **The frame of a call**: files outside the directory of the bucket it names stay. -/
theorem step_keeps (op : Op) (hP : ∀ model ∈ s.table.rows, model.name = op.target → ∀ l, P l → ¬ model.dir <+: l) :
    FileTree.KeepsFiles P s.disk (call staticPath decode s op).2.disk := by
  cases op with
  | create name path isHttpRoot cors =>
    rw [call]
    refine settle_of (Q := fun s' => FileTree.KeepsFiles P s.disk s'.disk) (.refl P _) fun s' h => ?_
    obtain ⟨b, _, _, _, hdisk⟩ := createStatic_ok h
    rw [hdisk]
    exact makeDir_keeps P s.disk b.dir
  | update name newPath newIsHttpRoot newCors newEnable =>
    rw [call]
    refine settle_of (Q := fun s' => FileTree.KeepsFiles P s.disk s'.disk) (.refl P _) fun s' h => ?_
    obtain ⟨b, _, _, _, hdisk⟩ := updateStatic_ok h
    rw [hdisk]
    exact makeDir_keeps P s.disk b.dir
  | delete name =>
    rw [call]
    refine settle_of (Q := fun s' => FileTree.KeepsFiles P s.disk s'.disk) (.refl P _) fun s' h => ?_
    obtain ⟨model, hmem, hname, _, hdisk⟩ := deleteStatic_ok h
    rw [hdisk]
    cases hremove : s.disk.removeDirAll model.dir with
    | error e => exact .refl P _
    | ok disk => exact FileTree.removeDirAll_keeps hremove (hP model hmem hname)
  | upload name filePath body base64 => exact uploadFile_keeps hP
  | rename name source target => exact renameFile_keeps hP

end

/-! ### Directories that are apart -/

/-- Neither directory is or contains the other. -/
def Apart (a b : Loc) : Prop := ¬ a <+: b ∧ ¬ b <+: a

variable {a b : Loc}

theorem Apart.symm (h : Apart a b) : Apart b a := ⟨h.2, h.1⟩

/-- Two directories with a common location are not apart. -/
theorem Apart.not_common {l : Loc} (h : Apart a b) (ha : a <+: l) : ¬ b <+: l := by
  intro hb
  rcases List.prefix_or_prefix_of_prefix ha hb with hab | hba
  · exact h.1 hab
  · exact h.2 hba

/-- The call removes and overwrites no file in the directory of another bucket. -/
def Isolated (staticPath : String) (decode : String → Except String (List UInt8)) (s : State) (op : Op) : Prop :=
  ∀ b ∈ s.table.rows, b.name ≠ op.target →
    FileTree.KeepsFiles (fun l => b.dir <+: l) s.disk (call staticPath decode s op).2.disk

def AllApart (t : BucketTable) : Prop := ∀ a ∈ t.rows, ∀ b ∈ t.rows, a.name ≠ b.name → Apart a.dir b.dir

/-- A new path is apart from the directories of the other buckets. -/
def Separate (s : State) (op : Op) : Prop :=
  match op with
  | .create _ path _ _ | .update _ path _ _ _ =>
    ∀ b ∈ s.table.rows, b.name ≠ op.target → Apart (pathDir (trimmed path)) b.dir
  | _ => True

section
variable {staticPath : String} {decode : String → Except String (List UInt8)} {s : State}

variable {op : Op} {t : BucketTable} {new : Bucket}

theorem isolated_of_apart
    (h : ∀ a ∈ s.table.rows, ∀ b ∈ s.table.rows, a.name = op.target → b.name ≠ op.target → Apart a.dir b.dir) :
    Isolated staticPath decode s op := by
  intro b hb hother
  exact step_keeps op fun model hmem hname l hl hbelow => (h model hmem b hb hname hother).not_common hbelow hl

theorem AllApart.cons {t' : BucketTable} (hs : AllApart t) (hrows : t'.rows = new :: t.rows)
    (hnew : ∀ b ∈ t.rows, b.name ≠ new.name → Apart new.dir b.dir) : AllApart t' := by
  intro a ha b hb hne
  rw [hrows] at ha hb
  rcases List.mem_cons.mp ha with rfl | haOld
  · rcases List.mem_cons.mp hb with rfl | hbOld
    · exact absurd rfl hne
    · exact hnew b hbOld hne.symm
  · rcases List.mem_cons.mp hb with rfl | hbOld
    · exact (hnew a haOld hne).symm
    · exact hs a haOld b hbOld hne

theorem AllApart.update (hs : AllApart t) (hnew : ∀ b ∈ t.rows, b.name ≠ new.name → Apart new.dir b.dir) :
    AllApart (t.update new) := by
  intro a ha b hb hne
  obtain ⟨a', ha', rfl⟩ := List.mem_map.mp ha
  obtain ⟨b', hb', rfl⟩ := List.mem_map.mp hb
  by_cases haNew : a'.name = new.name
  · rw [if_pos haNew] at hne ⊢
    by_cases hbNew : b'.name = new.name
    · rw [if_pos hbNew] at hne
      exact absurd rfl hne
    · rw [if_neg hbNew]
      exact hnew b' hb' hbNew
  · rw [if_neg haNew] at hne ⊢
    by_cases hbNew : b'.name = new.name
    · rw [if_pos hbNew]
      exact (hnew a' ha' haNew).symm
    · rw [if_neg hbNew] at hne ⊢
      exact hs a' ha' b' hb' hne

theorem uploadFile_table (name filePath : String) (body : Option (List UInt8)) (base64 : Option String) :
    (uploadFile staticPath decode s name filePath body base64).2.table = s.table := by
  simp only [uploadFile]
  split
  next => rfl
  next => split <;> rfl

theorem renameFile_table (name source target : String) :
    (renameFile staticPath s name source target).2.table = s.table := by
  simp only [renameFile]
  split
  next => rfl
  next =>
    split
    next => rfl
    next => split <;> rfl

theorem step_allApart (hs : AllApart s.table) (hop : Separate s op) :
    AllApart (call staticPath decode s op).2.table := by
  cases op with
  | create name path isHttpRoot cors =>
    rw [call]
    refine settle_of (Q := fun s' => AllApart s'.table) hs fun s' h => ?_
    obtain ⟨new, hname, hpath, hrows, _⟩ := createStatic_ok h
    refine hs.cons hrows fun b hb hne => ?_
    rw [Bucket.dir, hpath]
    exact hop b hb fun heq => hne (heq.trans hname.symm)
  | update name newPath newIsHttpRoot newCors newEnable =>
    rw [call]
    refine settle_of (Q := fun s' => AllApart s'.table) hs fun s' h => ?_
    obtain ⟨new, hname, hpath, htable, _⟩ := updateStatic_ok h
    rw [htable]
    refine hs.update fun b hb hne => ?_
    rw [Bucket.dir, hpath]
    exact hop b hb fun heq => hne (heq.trans hname.symm)
  | delete name =>
    rw [call]
    refine settle_of (Q := fun s' => AllApart s'.table) hs fun s' h => ?_
    obtain ⟨_, _, _, htable, _⟩ := deleteStatic_ok h
    intro a ha b hb
    rw [htable] at ha hb
    exact hs a (List.mem_of_mem_filter ha) b (List.mem_of_mem_filter hb)
  | upload name filePath body base64 => rwa [call, uploadFile_table]
  | rename name source target => rwa [call, renameFile_table]

end

/-! ### Directories that are not apart -/

theorem isWhitespace_of_isNameChar {c : Char} (h : isNameChar c = true) : isWhitespace c = false := by
  have hrange : 45 ≤ c.toNat ∧ c.toNat ≤ 122 := by
    simp only [isNameChar, Bool.or_eq_true, Bool.and_eq_true, decide_eq_true_eq, beq_iff_eq, Char.le_def,
      UInt32.le_iff_toNat_le] at h
    rcases h with ((((h | h) | h) | rfl) | rfl) | rfl
    · exact ⟨Nat.le_trans (by decide) h.1, h.2⟩
    · exact ⟨Nat.le_trans (by decide) h.1, Nat.le_trans h.2 (by decide)⟩
    · exact ⟨Nat.le_trans (by decide) h.1, Nat.le_trans h.2 (by decide)⟩
    · decide
    · decide
    · decide
  refine Bool.eq_false_iff.mpr fun hspace => ?_
  simp only [isWhitespace, Bool.or_eq_true, Bool.and_eq_true, decide_eq_true_eq, beq_iff_eq] at hspace
  omega

theorem dropWhile_of_all_not {α : Type} {p : α → Bool} {l : List α} (h : ∀ a ∈ l, p a = false) : l.dropWhile p = l := by
  cases l with
  | nil => rfl
  | cons a rest => rw [List.dropWhile_cons_of_neg (by simp [h a List.mem_cons_self])]

theorem trimmed_of_validName {name : String} (h : validateName name = .ok ()) : trimmed name = name := by
  have hchars : ∀ c ∈ name.toList, isWhitespace c = false := by
    simp only [validateName] at h
    split at h
    next => cases h
    next =>
      split at h
      next => cases h
      next =>
        split at h
        next => cases h
        next hall =>
          have hall : name.toList.all isNameChar = true := by simpa using hall
          exact fun c hc => isWhitespace_of_isNameChar (List.all_eq_true.mp hall c hc)
  rw [trimmed, trim, dropWhile_of_all_not hchars, dropWhile_of_all_not (by simpa using hchars), List.reverse_reverse,
    String.ofList_toList]

section
variable {staticPath : String} {decode : String → Except String (List UInt8)} {t : BucketTable} {a b : Bucket}

/-- Deleting a bucket removes whatever lies below its directory. -/
theorem delete_removes {s : State} (ha : a ∈ s.table.rows) (hdir : s.disk.entry a.dir = some .dir) {l : Loc}
    (hl : a.dir <+: l) : (call staticPath decode s (.delete a.name)).2.disk.entry l = none := by
  have hfind : s.table.find a.name = some a := by
    cases hfind : s.table.find a.name with
    | none => simpa using List.find?_eq_none.mp hfind a ha
    | some a' =>
      obtain ⟨hmem, hname⟩ := BucketTable.mem_of_find hfind
      rw [List.inj_on_of_nodup_map s.table.unique hmem ha hname]
  have hcall : deleteStatic s a.name =
      .ok ⟨s.table.erase a.name, (s.disk.removeDirAll a.dir).toOption.getD s.disk⟩ := by
    rw [deleteStatic, trimmed_of_validName a.validName, check_ok_iff]
    exact ⟨a.validName, by rw [hfind]⟩
  rw [call, hcall, FileTree.removeDirAll, if_pos hdir]
  exact if_pos hl

/-- Two buckets whose directories are not apart share a place, and a file there is lost
when one of them is deleted. -/
theorem not_isolated (ha : a ∈ t.rows) (hb : b ∈ t.rows) (hne : b.name ≠ a.name) (h : ¬ Apart a.dir b.dir) :
    ∃ disk, ¬ Isolated staticPath decode ⟨t, disk⟩ (.delete a.name) := by
  obtain ⟨dir, hadir, hbdir⟩ : ∃ dir, a.dir <+: dir ∧ b.dir <+: dir := by
    by_cases hab : a.dir <+: b.dir
    · exact ⟨b.dir, hab, List.prefix_rfl⟩
    · exact ⟨a.dir, List.prefix_rfl, not_not.mp fun hba => h ⟨hab, hba⟩⟩
  let loc := dir ++ [['f']]
  have hloc : dir <+: loc := List.prefix_append _ _
  refine ⟨FileTree.single loc [], fun hisolated => ?_⟩
  have hkept := hisolated b hb (by rwa [Op.target, trimmed_of_validName a.validName]) loc (hbdir.trans hloc) [] (if_pos rfl)
  have hdir : (FileTree.single loc ([] : List UInt8)).entry a.dir = some .dir := by
    have hne : a.dir ≠ loc := by
      intro heq
      have hlen := hadir.length_le
      rw [heq, List.length_append, List.length_singleton] at hlen
      omega
    exact (if_neg hne).trans (if_pos (hadir.trans hloc))
  rw [delete_removes ha hdir (hadir.trans hloc)] at hkept
  cases hkept

end

/-- **Bucket isolation.** Calls that name a bucket keep the files of all others, whatever is on
disk, exactly when its directory is apart from theirs. In a run in which every new path is
apart from the other buckets, every call does. -/
theorem isolation_iff_apart (staticPath : String) (decode : String → Except String (List UInt8)) :
    (∀ (t : BucketTable), ∀ a ∈ t.rows,
      ((∀ disk op, op.target = a.name → Isolated staticPath decode ⟨t, disk⟩ op) ↔
        ∀ b ∈ t.rows, b.name ≠ a.name → Apart a.dir b.dir)) ∧
    (∀ s ops s', AllApart s.table → Along (step staticPath decode) Separate s ops →
      run (step staticPath decode) s ops = some s' → ∀ op, Isolated staticPath decode s' op) := by
  refine ⟨fun t a ha => ⟨fun h b hb hne => ?_, fun h disk op hop => ?_⟩, fun s ops s' hs hops hrun op => ?_⟩
  · by_contra hapart
    obtain ⟨disk, hlost⟩ := not_isolated ha hb hne hapart
    exact hlost (h disk _ (trimmed_of_validName a.validName))
  · refine isolated_of_apart fun a' ha' b hb hname hother => ?_
    rw [List.inj_on_of_nodup_map t.unique ha' ha (hname.trans hop)]
    exact h b hb fun heq => hother (heq.trans hop.symm)
  · have hapart : AllApart s'.table := by
      refine run_invariant (P := fun s => AllApart s.table) (fun s op s' hs hop hstep => ?_) hs hops hrun
      cases hstep
      exact step_allApart hs hop
    exact isolated_of_apart fun a ha b hb hname hother => hapart a ha b hb fun heq => hother (heq.symm.trans hname)

/-- One bucket in the directory of another, with a file. -/
def nestedBuckets : List Op :=
  [.create "a" "x" false false, .create "b" "x/y" false false, .upload "b" "f" (some [1]) none]

def nestedFile : Loc := ["x".toList, "y".toList, "f".toList]

/-- Deleting the outer bucket removes the file of the inner one. -/
theorem nested_file_lost :
    ((run (step "./static/" fun _ => .error "") ⟨⟨[], List.nodup_nil⟩, .empty⟩ nestedBuckets).map
        fun s => s.disk.entry nestedFile) = some (some (.file [1])) ∧
      ((run (step "./static/" fun _ => .error "") ⟨⟨[], List.nodup_nil⟩, .empty⟩
        (nestedBuckets ++ [.delete "a"])).map fun s => (s.table.rows.map (·.name), s.disk.entry nestedFile)) =
          some (["b"], none) := by
  decide +kernel

end NodeGet.Static
