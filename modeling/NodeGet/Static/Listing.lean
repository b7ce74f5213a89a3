import Mathlib.Data.String.Basic
import NodeGet.Core.Signed
import NodeGet.Data.LinkTree
import NodeGet.Static.Serve

/-! The files of a bucket (`ng-static/src/ops.rs`: `collect_files`).

The directories wait in a queue; each is read, its subdirectories join the queue and its files
are listed. Links are looked at without following them, so the traversal stays in the directory
that the bucket's path leads to, and it ends (`collectLoop_eq_worklist`). It lists the regular
files there whose names are text, each once (`collectFiles_exact`). A file with a name that is
no UTF-8 is left out (`unreadable_name_not_listed`). -/
namespace NodeGet.Static.Listing
open NodeGet.Core NodeGet.Data NodeGet.Static.Serve

/-! ### Names and paths -/

/-- A name in a directory: bytes, with no slash and no zero, and not one of the dots. -/
structure FileName where
  bytes : ByteArray
  isComponent : 47 ∉ bytes.data.toList ∧ 0 ∉ bytes.data.toList ∧ bytes.data.toList ∉ [[], [46], [46, 46]]

theorem FileName.bytes_inj {a b : FileName} (h : a.bytes = b.bytes) : a = b := by
  obtain ⟨bytes, ha⟩ := a
  cases h
  rfl

instance FileName.decidableEq : DecidableEq FileName := fun a b =>
  decidable_of_iff (a.bytes.data.toList = b.bytes.data.toList)
    ⟨fun h => FileName.bytes_inj (ByteArray.ext (Array.toList_inj.mp h)), fun h => by rw [h]⟩

def FileName.toStr (name : FileName) : Option String := String.fromUTF8? name.bytes

variable {name : FileName} {s : String} {texts : List String} {a b loc : List FileName} {t : DiskTree}

theorem FileName.toStr_eq_some (h : name.toStr = some s) : s.toByteArray = name.bytes := by
  rw [toStr, String.fromUTF8?] at h
  split at h
  next =>
    cases h
    rfl
  next => cases h

theorem FileName.toStr_inj {a b : FileName} (ha : a.toStr = some s) (hb : b.toStr = some s) : a = b :=
  FileName.bytes_inj ((toStr_eq_some ha).symm.trans (toStr_eq_some hb))

theorem FileName.slash_notMem (h : name.toStr = some s) : '/' ∉ s.toList := by
  intro hslash
  have hbyte : 47 ∈ s.toList.flatMap String.utf8EncodeChar := List.mem_flatMap.mpr ⟨'/', hslash, by decide⟩
  have hbytes : s.toList.flatMap String.utf8EncodeChar = name.bytes.data.toList := by
    rw [← toStr_eq_some h, ← String.utf8Encode_toList]
    simp [List.utf8Encode]
  rw [hbytes] at hbyte
  exact name.isComponent.1 hbyte

/-- A path of the program. -/
abbrev Path := List (Step FileName)

/-- The texts of the components, where all are names and text. -/
def parts : Path → Option (List String)
  | [] => some []
  | .up :: _ => none
  | .down name :: rest => do
    let first ← name.toStr
    let others ← parts rest
    pure (first :: others)

/-- The path of a location below another. -/
def below (base : Path) (loc : List FileName) : Path := base ++ loc.map .down

theorem below_concat (base : Path) (loc : List FileName) (name : FileName) :
    below base (loc ++ [name]) = below base loc ++ [.down name] := by
  rw [below, below, List.map_append, List.append_assoc]
  rfl

def textsOf (loc : List FileName) : Option (List String) := parts (loc.map .down)

theorem textsOf_cons {rest : List FileName} :
    textsOf (name :: rest) = some texts ↔
      ∃ first others, name.toStr = some first ∧ textsOf rest = some others ∧ texts = first :: others := by
  rw [textsOf, textsOf, List.map_cons, parts]
  cases name.toStr with
  | none => simp
  | some first =>
    cases parts (rest.map .down) with
    | none => simp
    | some others => simp [eq_comm]

theorem textsOf_inj (ha : textsOf a = some texts) (hb : textsOf b = some texts) : a = b := by
  induction a generalizing b texts with
  | nil =>
    cases ha
    cases b with
    | nil => rfl
    | cons name b =>
      obtain ⟨first, others, -, -, htexts⟩ := textsOf_cons.mp hb
      cases htexts
  | cons name a ih =>
    obtain ⟨first, others, hname, hothers, rfl⟩ := textsOf_cons.mp ha
    cases b with
    | nil => cases hb
    | cons name' b =>
      obtain ⟨first', others', hname', hothers', htexts⟩ := textsOf_cons.mp hb
      cases htexts
      rw [FileName.toStr_inj hname hname', ih hothers hothers']

theorem slash_notMem_textsOf (h : textsOf loc = some texts) : ∀ text ∈ texts, '/' ∉ text.toList := by
  induction loc generalizing texts with
  | nil =>
    cases h
    exact fun _ h => by cases h
  | cons name loc ih =>
    obtain ⟨first, others, hname, hothers, rfl⟩ := textsOf_cons.mp h
    intro text htext
    rcases List.mem_cons.mp htext with rfl | htext
    · exact FileName.slash_notMem hname
    · exact ih hothers text htext

/-- The relative path tells the texts. -/
theorem splitOn_path (h : textsOf loc = some texts) (hne : texts ≠ []) :
    ("/".intercalate texts).toList.splitOn '/' = texts.map String.toList := by
  rw [String.toList_intercalate]
  refine List.splitOn_intercalate '/' (fun l hl => ?_) (by simpa using hne)
  obtain ⟨text, htext, rfl⟩ := List.mem_map.mp hl
  exact slash_notMem_textsOf h text htext

/-! ### The traversal -/

structure Stat where
  len : Nat
  /-- Milliseconds since the epoch, where the time is known. -/
  modified : Option Int

inductive FileType where
  | file | dir | symlink | other
deriving DecidableEq

structure EntryMetadata where
  fileType : FileType
  stat : Stat

/-- What the traversal asks of the system. -/
structure FileSystem where
  metadata : Path → Except IoFault EntryMetadata
  readDir : Path → Except IoFault (List (Except String FileName))
  symlinkMetadata : Path → Except IoFault EntryMetadata
  display : Path → String

structure FileInfo where
  path : String
  size : Nat
  mtime : Int
deriving DecidableEq

/-- A time that is unknown, before the epoch or out of range is 0. -/
def mtimeOf : Option Int → Int
  | some ms => if 0 ≤ ms ∧ ms ≤ i64Max then ms else 0
  | none => 0

def fileInfo (rel : Path) (stat : Stat) : Option FileInfo :=
  match parts rel with
  | some texts => if texts = [] then none else some ⟨"/".intercalate texts, stat.len, mtimeOf stat.modified⟩
  | none => none

/-- `strip_prefix` -/
def relative (base path : Path) : Option Path :=
  if base <+: path then some (path.drop base.length) else none

section Traversal
variable (fs : FileSystem) (base : Path)

/-- Goes over what a directory contains. -/
def visitEntries (dir : Path) :
    List (Except String FileName) → List Path → List FileInfo → Except NodegetError (List Path × List FileInfo)
  | [], queue, out => .ok (queue, out)
  | .error e :: _, _, _ => .error (.ioError ("Failed to read dir entry in " ++ fs.display dir ++ ": " ++ e))
  | .ok name :: rest, queue, out =>
    let path := dir ++ [.down name]
    match fs.symlinkMetadata path with
    | .error _ => visitEntries dir rest queue out
    | .ok m =>
      match m.fileType with
      | .dir => visitEntries dir rest (queue ++ [path]) out
      | .file =>
        let info := (relative base path).bind fun rel => fileInfo rel m.stat
        visitEntries dir rest queue (out ++ info.toList)
      | .symlink | .other => visitEntries dir rest queue out

/-- The loop, for so many turns; `none` when that is not enough. -/
def collectLoop : Nat → List Path → List FileInfo → Option (Except NodegetError (List FileInfo))
  | 0, _, _ => none
  | _ + 1, [], out => some (.ok out)
  | fuel + 1, dir :: queue, out =>
    match fs.readDir dir with
    | .error fault =>
      -- the directory was removed in the meantime
      if fault.isNotFound then collectLoop fuel queue out
      else some (.error (.ioError ("Failed to read dir " ++ fs.display dir ++ ": " ++ fault.text)))
    | .ok entries =>
      match visitEntries fs base dir entries queue out with
      | .error e => some (.error e)
      | .ok (queue, out) => collectLoop fuel queue out

def sortByPath (files : List FileInfo) : List FileInfo := files.mergeSort fun a b => decide (a.path ≤ b.path)

def collectFiles (fuel : Nat) : Option (Except NodegetError (List FileInfo)) :=
  match fs.metadata base with
  | .ok m =>
    if m.fileType = .dir then (collectLoop fs base fuel [base] []).map (·.map sortByPath) else some (.ok [])
  | .error fault =>
    if fault.isNotFound then some (.ok [])
    else some (.error (.ioError ("Failed to stat static dir: " ++ fault.text)))

end Traversal

/-! ### On a tree -/

/-- As many links as the system follows in a path. -/
def maxLinks : Nat := 40

def faultOf (e : PathError) : IoFault := ⟨e = .notFound, e.text⟩

/-- Of a directory and a link only the type is looked at. -/
def metadataOf : Inode FileName Stat → EntryMetadata
  | .file stat => ⟨.file, stat⟩
  | .dir => ⟨.dir, ⟨0, none⟩⟩
  | .link _ _ => ⟨.symlink, ⟨0, none⟩⟩
  | .other => ⟨.other, ⟨0, none⟩⟩

abbrev DiskTree := LinkTree FileName Stat

/-- What is at a location. -/
def lookAt (t : DiskTree) (loc : List FileName) : Except IoFault EntryMetadata :=
  match t.entry loc with
  | some e => .ok (metadataOf e)
  | none => .error (faultOf .notFound)

/-- The system calls on a tree, with paths from its root. A path is followed through links, its
last name only where the call follows it. -/
def systemOf (t : DiskTree) (display : Path → String) : FileSystem where
  metadata path :=
    match t.resolve maxLinks path with
    | .ok loc => lookAt t loc
    | .error e => .error (faultOf e)
  readDir path :=
    match t.resolve maxLinks path with
    | .ok loc => if t.isDir loc then .ok ((t.names loc).map .ok) else .error (faultOf .notDirectory)
    | .error e => .error (faultOf e)
  symlinkMetadata path :=
    match path.getLast? with
    | some (.down name) =>
      match t.resolve maxLinks path.dropLast with
      | .ok loc => if t.isDir loc then lookAt t (loc ++ [name]) else .error (faultOf .notDirectory)
      | .error e => .error (faultOf e)
    | _ =>
      match t.resolve maxLinks path with
      | .ok loc => lookAt t loc
      | .error e => .error (faultOf e)
  display := display

/-- The line of the listing for a location. -/
def line (t : DiskTree) (loc : List FileName) : Option FileInfo :=
  match t.entry loc with
  | some (.file stat) => fileInfo (loc.map .down) stat
  | _ => none

section Tree
variable {t : DiskTree} (display : Path → String) {base : Path} {dir : List FileName}
variable (hbase : t.resolve maxLinks base = .ok dir)
include hbase

variable {loc : List FileName}

theorem readDir_below (hloc : (t.subtree dir).entry loc = some .dir) :
    (systemOf t display).readDir (below base loc) = .ok (((t.subtree dir).names loc).map .ok) := by
  have hresolve := t.resolve_append hbase hloc
  have hdir : t.isDir (dir ++ loc) = true := t.isDir_iff.mpr hloc
  simp only [systemOf, below, hresolve, hdir, if_true]
  rfl

theorem symlinkMetadata_below {e : Inode FileName Stat} (hname : (t.subtree dir).entry (loc ++ [name]) = some e) :
    (systemOf t display).symlinkMetadata (below base loc ++ [.down name]) = .ok (metadataOf e) := by
  have hloc : (t.subtree dir).entry loc = some .dir := (t.subtree dir).parents loc name (by simp [hname])
  have hentry : t.entry (dir ++ loc ++ [name]) = some e := by
    rw [List.append_assoc]
    exact hname
  have hresolve := t.resolve_append hbase hloc
  have hdir : t.isDir (dir ++ loc) = true := t.isDir_iff.mpr hloc
  simp only [systemOf, below, List.getLast?_concat, List.dropLast_concat, hresolve, hdir, if_true, lookAt, hentry]

theorem visitEntries_below (loc : List FileName) (names : List FileName)
    (hnames : ∀ name ∈ names, (t.subtree dir).entry (loc ++ [name]) ≠ none) (queue : List Path)
    (out : List FileInfo) :
    visitEntries (systemOf t display) base (below base loc) (names.map .ok) queue out =
      .ok (queue ++ ((names.map fun name => loc ++ [name]).filter (t.subtree dir).isDir).map (below base),
        out ++ (names.map fun name => loc ++ [name]).filterMap (line (t.subtree dir))) := by
  induction names generalizing queue out with
  | nil => simp [visitEntries]
  | cons name names ih =>
    have ih := ih fun name h => hnames name (List.mem_cons_of_mem _ h)
    obtain ⟨e, he⟩ := Option.ne_none_iff_exists'.mp (hnames name List.mem_cons_self)
    have hmetadata := symlinkMetadata_below display hbase he
    rw [← below_concat] at hmetadata
    have hrelative : relative base (below base (loc ++ [name])) = some ((loc ++ [name]).map .down) := by
      rw [relative, below, if_pos (List.prefix_append _ _), List.drop_left]
    simp only [List.map_cons, visitEntries, ← below_concat, hmetadata, List.filter_cons, List.filterMap_cons]
    cases e with
    | file stat =>
      have hline : line (t.subtree dir) (loc ++ [name]) = fileInfo ((loc ++ [name]).map .down) stat := by
        rw [line, he]
      simp only [metadataOf, hrelative, Option.bind_some, ih, hline, LinkTree.isDir, he]
      cases fileInfo ((loc ++ [name]).map .down) stat with
      | none => simp
      | some info => simp
    | dir => simp [metadataOf, ih, line, LinkTree.isDir, he]
    | link fromRoot target => simp [metadataOf, ih, line, LinkTree.isDir, he]
    | other => simp [metadataOf, ih, line, LinkTree.isDir, he]

/-- On a tree the loop is a queue of directories, each of which emits its files. -/
theorem collectLoop_eq_worklist (fuel : Nat) (queue : List (List FileName))
    (hqueue : ∀ loc ∈ queue, (t.subtree dir).entry loc = some .dir) (out : List FileInfo) :
    collectLoop (systemOf t display) base fuel (queue.map (below base)) out =
      (worklist (t.subtree dir).subdirs (fun loc => ((t.subtree dir).entries loc).filterMap (line (t.subtree dir)))
        fuel queue out).map .ok := by
  induction fuel generalizing queue out with
  | zero => rfl
  | succ fuel ih =>
    cases queue with
    | nil => rfl
    | cons loc queue =>
      have hread := readDir_below display hbase (hqueue loc List.mem_cons_self)
      have hvisit := visitEntries_below display hbase loc ((t.subtree dir).names loc)
        (fun name hname => ((t.subtree dir).mem_names loc name).mp hname) (queue.map (below base)) out
      have hnext : ∀ l ∈ queue ++ (t.subtree dir).subdirs loc, (t.subtree dir).entry l = some .dir := by
        intro l hl
        rcases List.mem_append.mp hl with hl | hl
        · exact hqueue l (List.mem_cons_of_mem _ hl)
        · obtain ⟨name, -, hdir⟩ := (t.subtree dir).mem_subdirs.mp hl
          exact hdir
      rw [List.map_cons, collectLoop, hread]
      simp only [hvisit]
      rw [worklist, ← ih _ hnext, List.map_append]
      rfl

end Tree

/-! ### The listing -/

theorem line_eq_some {info : FileInfo} :
    line t loc = some info ↔ ∃ stat texts, t.entry loc = some (.file stat) ∧ textsOf loc = some texts ∧ texts ≠ [] ∧
      info = ⟨"/".intercalate texts, stat.len, mtimeOf stat.modified⟩ := by
  rw [line]
  constructor
  · intro h
    split at h
    next stat hentry =>
      rw [fileInfo] at h
      split at h
      next texts htexts =>
        obtain ⟨hne, hinfo⟩ := Option.ite_none_left_eq_some.mp h
        exact ⟨stat, texts, hentry, htexts, hne, (Option.some.inj hinfo).symm⟩
      next => cases h
    next => cases h
  · intro h
    obtain ⟨stat, texts, hentry, htexts, hne, rfl⟩ := h
    rw [hentry]
    rw [textsOf] at htexts
    show fileInfo (loc.map .down) stat = _
    rw [fileInfo, htexts]
    exact if_neg hne

/-- Two locations do not have lines with one path. -/
theorem line_path_inj {path : String} (ha : (line t a).map (·.path) = some path)
    (hb : (line t b).map (·.path) = some path) : a = b := by
  obtain ⟨infoA, hlineA, hpathA⟩ := Option.map_eq_some_iff.mp ha
  obtain ⟨infoB, hlineB, hpathB⟩ := Option.map_eq_some_iff.mp hb
  obtain ⟨statA, textsA, -, hpartsA, hneA, rfl⟩ := line_eq_some.mp hlineA
  obtain ⟨statB, textsB, -, hpartsB, hneB, rfl⟩ := line_eq_some.mp hlineB
  have hjoin : "/".intercalate textsB = "/".intercalate textsA := hpathB.trans hpathA.symm
  have hsplit : textsB.map String.toList = textsA.map String.toList := by
    rw [← splitOn_path hpartsA hneA, ← splitOn_path hpartsB hneB, hjoin]
  obtain rfl : textsB = textsA := List.map_injective_iff.mpr (fun _ _ => String.toList_injective) hsplit
  exact textsOf_inj hpartsA hpartsB

theorem nodup_lines (t : DiskTree) : ((t.allEntries.filterMap (line t)).map (·.path)).Nodup := by
  rw [List.map_filterMap]
  exact t.nodup_allEntries.filterMap fun a b path ha hb => line_path_inj ha hb

theorem pairwise_sortByPath {files : List FileInfo} (h : (files.map (·.path)).Nodup) :
    (sortByPath files).Pairwise fun a b => a.path < b.path := by
  have htrans : ∀ a b c : FileInfo,
      decide (a.path ≤ b.path) = true → decide (b.path ≤ c.path) = true → decide (a.path ≤ c.path) = true :=
    fun a b c hab hbc => decide_eq_true (le_trans (of_decide_eq_true hab) (of_decide_eq_true hbc))
  have htotal : ∀ a b : FileInfo, (decide (a.path ≤ b.path) || decide (b.path ≤ a.path)) = true :=
    fun a b => by simpa using le_total a.path b.path
  have hsorted := List.pairwise_mergeSort htrans htotal files
  have hdistinct : (sortByPath files).Pairwise fun a b => a.path ≠ b.path :=
    List.pairwise_map.mp (((List.mergeSort_perm files _).map _).nodup_iff.mpr h)
  exact hsorted.imp₂ (fun a b hle hne => lt_of_le_of_ne (of_decide_eq_true hle) hne) hdistinct

/-- The files of a directory: those whose names below it are all text, in order, each once. -/
structure Lists (t : DiskTree) (dir : List FileName) (files : List FileInfo) : Prop where
  sorted : files.Pairwise fun a b => a.path < b.path
  mem_iff : ∀ info, info ∈ files ↔ ∃ loc stat texts, t.entry (dir ++ loc) = some (.file stat) ∧
    textsOf loc = some texts ∧ info = ⟨"/".intercalate texts, stat.len, mtimeOf stat.modified⟩

/-- What a bucket's path leads to is listed where it is a directory; there is nothing to list
where it is missing or something else; a path that cannot be walked is an error. -/
def Describes (t : DiskTree) (base : Path) (result : Except NodegetError (List FileInfo)) : Prop :=
  match t.resolve maxLinks base with
  | .ok dir => if t.isDir dir then ∃ files, result = .ok files ∧ Lists t dir files else result = .ok []
  | .error .notFound => result = .ok []
  | .error e => result = .error (.ioError ("Failed to stat static dir: " ++ e.text))

theorem collectFiles_dir (t : DiskTree) (display : Path → String) {base : Path} {dir : List FileName}
    (hbase : t.resolve maxLinks base = .ok dir) (hdir : t.entry dir = some .dir) :
    ∃ fuel files, (∀ more, collectFiles (systemOf t display) base (fuel + more) = some (.ok files)) ∧
      Lists t dir files := by
  have hroot : (t.subtree dir).entry [] = some .dir := by
    show t.entry (dir ++ []) = _
    rw [List.append_nil, hdir]
  obtain ⟨out, hout, hperm⟩ := (t.subtree dir).ranked.worklist_perm
    (fun loc => ((t.subtree dir).entries loc).filterMap (line (t.subtree dir))) [[]] []
  simp only [List.flatMap_cons, List.flatMap_nil, List.append_nil, List.nil_append] at hout hperm
  have hlines : out.Perm ((t.subtree dir).allEntries.filterMap (line (t.subtree dir))) := by
    rw [LinkTree.allEntries, List.filterMap_flatMap]
    exact hperm
  refine ⟨((t.subtree dir).ranked.below []).length + 1, sortByPath out, fun more => ?_, ?_, fun info => ?_⟩
  · have hmetadata : (systemOf t display).metadata base = .ok ⟨.dir, ⟨0, none⟩⟩ := by
      simp only [systemOf, hbase, lookAt, hdir]
      rfl
    have hloop := collectLoop_eq_worklist display hbase (((t.subtree dir).ranked.below []).length + 1 + more) [[]]
      (fun loc hloc => by rw [List.mem_singleton.mp hloc]; exact hroot) []
    rw [List.map_singleton, below, List.map_nil, List.append_nil, hout _ (by omega)] at hloop
    rw [collectFiles, hmetadata]
    simp only [if_true, hloop]
    rfl
  · exact pairwise_sortByPath ((hlines.map _).nodup_iff.mpr (nodup_lines _))
  · rw [sortByPath, List.mem_mergeSort, hlines.mem_iff, List.mem_filterMap]
    constructor
    · intro h
      obtain ⟨loc, -, hline⟩ := h
      obtain ⟨stat, texts, hentry, htexts, -, hinfo⟩ := line_eq_some.mp hline
      exact ⟨loc, stat, texts, hentry, htexts, hinfo⟩
    · intro h
      obtain ⟨loc, stat, texts, hentry, htexts, hinfo⟩ := h
      replace hentry : (t.subtree dir).entry loc = some (.file stat) := hentry
      have hloc : loc ≠ [] := by
        intro hnil
        rw [hnil, hroot] at hentry
        cases hentry
      have hne : texts ≠ [] := by
        intro hnil
        rw [hnil] at htexts
        exact hloc (textsOf_inj htexts rfl)
      exact ⟨loc, (t.subtree dir).mem_allEntries.mpr ⟨hloc, by simp [hentry]⟩,
        line_eq_some.mpr ⟨stat, texts, hentry, htexts, hne, hinfo⟩⟩

/-- **Bucket listing**: the traversal ends, and lists what the path leads to. -/
theorem collectFiles_exact (t : DiskTree) (display : Path → String) (base : Path) :
    ∃ fuel result, (∀ more, collectFiles (systemOf t display) base (fuel + more) = some result) ∧
      Describes t base result := by
  cases hbase : t.resolve maxLinks base with
  | error e =>
    have hmetadata : (systemOf t display).metadata base = .error (faultOf e) := by
      simp only [systemOf, hbase]
    cases e with
    | notFound =>
      refine ⟨0, .ok [], fun more => ?_, by rw [Describes, hbase]⟩
      rw [collectFiles, hmetadata]
      rfl
    | notDirectory =>
      refine ⟨0, _, fun more => ?_, by rw [Describes, hbase]⟩
      rw [collectFiles, hmetadata]
      rfl
    | tooManyLinks =>
      refine ⟨0, _, fun more => ?_, by rw [Describes, hbase]⟩
      rw [collectFiles, hmetadata]
      rfl
  | ok dir =>
    by_cases hdir : t.isDir dir = true
    · obtain ⟨fuel, files, hfiles, hlists⟩ := collectFiles_dir t display hbase (t.isDir_iff.mp hdir)
      refine ⟨fuel, .ok files, hfiles, ?_⟩
      rw [Describes, hbase]
      simp only [hdir, if_true]
      exact ⟨files, rfl, hlists⟩
    · refine ⟨0, .ok [], fun more => ?_, ?_⟩
      · rw [collectFiles]
        simp only [systemOf, hbase, lookAt]
        cases hentry : t.entry dir with
        | none => rfl
        | some e =>
          cases e with
          | dir => exact absurd (t.isDir_iff.mpr hentry) hdir
          | file stat => rfl
          | link target => rfl
          | other => rfl
      · rw [Describes, hbase]
        show if t.isDir dir then _ else _
        rw [if_neg hdir]

private def site : FileName := ⟨⟨#[115]⟩, by decide⟩

/-- A name that is no UTF-8. -/
private def unreadable : FileName := ⟨⟨#[255]⟩, by decide⟩

/-- A regular file in the bucket's own directory, with such a name, is not listed. -/
theorem unreadable_name_not_listed :
    let t : DiskTree := LinkTree.single [site, unreadable] (.file ⟨1, none⟩)
    t.entry [site] = some .dir ∧ t.entry [site, unreadable] = some (.file ⟨1, none⟩) ∧
      ∀ more, collectFiles (systemOf t fun _ => "") [.down site] (more + 2) = some (.ok []) := by
  intro t
  refine ⟨rfl, rfl, fun more => ?_⟩
  have hfiles : collectFiles (systemOf t fun _ => "") [.down site] (more + 2) = some (.ok (sortByPath [])) := rfl
  rw [hfiles, sortByPath, List.mergeSort_nil]

end NodeGet.Static.Listing
