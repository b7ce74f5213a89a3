import Mathlib.Data.List.Infix

/-! A tree of files and directories, and what the file operations do to it.

A location is the list of names that leads to it. Operations fail as on Linux; one that
fails changes nothing. For each there is a frame lemma: which files it may remove or
overwrite. -/
namespace NodeGet.Data

inductive Entry (δ : Type) where
  | file (data : δ)
  | dir
deriving DecidableEq

/-- The entries of a tree, some list of locations that has them all, and that whatever
exists lies in directories. -/
structure FileTree (ν δ : Type) where
  entry : List ν → Option (Entry δ)
  listed : List (List ν)
  complete : ∀ loc, entry loc ≠ none → loc ∈ listed
  parents : ∀ loc name, entry (loc ++ [name]) ≠ none → entry loc = some .dir

inductive IoError where
  | notFound | notDirectory | isDirectory | directoryNotEmpty | invalidInput
deriving DecidableEq

def IoError.text : IoError → String
  | notFound => "No such file or directory (os error 2)"
  | notDirectory => "Not a directory (os error 20)"
  | isDirectory => "Is a directory (os error 21)"
  | invalidInput => "Invalid argument (os error 22)"
  | directoryNotEmpty => "Directory not empty (os error 39)"

namespace FileTree

variable {ν δ : Type}

def isFile (t : FileTree ν δ) (loc : List ν) : Bool :=
  match t.entry loc with
  | some (.file _) => true
  | _ => false

/-- How a location that does not exist is reported. -/
def missing (t : FileTree ν δ) (loc : List ν) : IoError :=
  if loc.inits.any t.isFile then .notDirectory else .notFound

/-- There is a directory to put it in. -/
def Placeable (t : FileTree ν δ) (loc : List ν) : Prop := loc ≠ [] ∧ t.entry loc.dropLast = some .dir

theorem Placeable.above {t : FileTree ν δ} {loc : List ν} (h : t.Placeable loc) {l : List ν} {name : ν}
    (heq : l ++ [name] = loc) : t.entry l = some .dir := by
  rw [← h.2, ← heq, List.dropLast_concat]

/-- The files at the locations that meet `P` are as they were. -/
def KeepsFiles (P : List ν → Prop) (t t' : FileTree ν δ) : Prop :=
  ∀ loc, P loc → ∀ data, t.entry loc = some (.file data) → t'.entry loc = some (.file data)

variable {t t' t'' : FileTree ν δ} {P : List ν → Prop} {loc : List ν}

theorem KeepsFiles.refl (P : List ν → Prop) (t : FileTree ν δ) : KeepsFiles P t t := fun _ _ _ h => h

theorem KeepsFiles.trans (h : KeepsFiles P t t') (h' : KeepsFiles P t' t'') : KeepsFiles P t t'' :=
  fun loc hloc data hfile => h' loc hloc data (h loc hloc data hfile)

variable [DecidableEq ν]

/-- Nothing, not even the root. -/
def empty : FileTree ν δ := ⟨fun _ => none, [], fun _ h => absurd rfl h, fun _ _ h => absurd rfl h⟩

/-- One file in its directories. -/
def single (loc : List ν) (data : δ) : FileTree ν δ where
  entry l := if l = loc then some (.file data) else if l <+: loc then some .dir else none
  listed := loc.inits
  complete := by
    intro l hl
    rw [List.mem_inits]
    split at hl
    next heq => exact heq ▸ List.prefix_rfl
    next =>
      split at hl
      next hbegins => exact hbegins
      next => exact absurd rfl hl
  parents := by
    intro l name hl
    have hbelow : l ++ [name] <+: loc := by
      split at hl
      next heq => exact heq ▸ List.prefix_rfl
      next =>
        split at hl
        next hbegins => exact hbegins
        next => exact absurd rfl hl
    have hne : l ≠ loc := by
      intro heq
      have hlen := hbelow.length_le
      rw [heq, List.length_append, List.length_singleton] at hlen
      omega
    rw [if_neg hne, if_pos ((List.prefix_append l [name]).trans hbelow)]

/-! ### Creating directories -/

/-- `create_dir_all` -/
def createDirAll (t : FileTree ν δ) (loc : List ν) : Except IoError (FileTree ν δ) :=
  if hfile : ∃ l ∈ loc.inits, t.isFile l = true then .error .notDirectory
  else .ok {
    entry := fun l => if l <+: loc ∧ t.entry l = none then some .dir else t.entry l
    listed := loc.inits ++ t.listed
    complete := by
      intro l hl
      split at hl
      next hnew => exact List.mem_append_left _ ((List.mem_inits _ _).mpr hnew.1)
      next => exact List.mem_append_right _ (t.complete l hl)
    parents := by
      intro l name hl
      split at hl
      next hnew =>
        have hbegins : l <+: loc := (List.prefix_append l [name]).trans hnew.1
        cases hentry : t.entry l with
        | none => exact if_pos ⟨hbegins, rfl⟩
        | some e =>
          rw [if_neg (by simp)]
          cases e with
          | dir => rfl
          | file data => exact absurd ⟨l, (List.mem_inits _ _).mpr hbegins, by simp [isFile, hentry]⟩ hfile
      next =>
        have hdir := t.parents l name hl
        rw [if_neg (by simp [hdir])]
        exact hdir }

theorem createDirAll_keeps (h : t.createDirAll loc = .ok t') (P : List ν → Prop) : KeepsFiles P t t' := by
  rw [createDirAll] at h
  split at h
  next => cases h
  next =>
    cases h
    intro l _ data hfile
    show (if _ then _ else t.entry l) = _
    rw [if_neg (by simp [hfile]), hfile]

/-! ### Files -/

variable [DecidableEq δ]

instance (t : FileTree ν δ) (loc : List ν) : Decidable (t.Placeable loc) :=
  inferInstanceAs (Decidable (_ ∧ _))

/-- Creates a file, or overwrites one. -/
def writeFile (t : FileTree ν δ) (loc : List ν) (data : δ) : Except IoError (FileTree ν δ) :=
  if hdir : t.entry loc = some .dir then .error .isDirectory
  else if hplace : t.Placeable loc then .ok {
    entry := fun l => if l = loc then some (.file data) else t.entry l
    listed := loc :: t.listed
    complete := by
      intro l hl
      split at hl
      next heq => exact heq ▸ List.mem_cons_self
      next => exact List.mem_cons_of_mem _ (t.complete l hl)
    parents := by
      intro l name hl
      split at hl
      next heq =>
        rw [if_neg fun h => by simp [h] at heq]
        exact hplace.above heq
      next =>
        have habove := t.parents l name hl
        rw [if_neg fun h : l = loc => hdir (h ▸ habove)]
        exact habove }
  else .error (t.missing loc)

/-- `remove_dir_all` -/
def removeDirAll (t : FileTree ν δ) (loc : List ν) : Except IoError (FileTree ν δ) :=
  if t.entry loc = some .dir then .ok {
    entry := fun l => if loc <+: l then none else t.entry l
    listed := t.listed
    complete := by
      intro l hl
      split at hl
      next => exact absurd rfl hl
      next => exact t.complete l hl
    parents := by
      intro l name hl
      split at hl
      next => exact absurd rfl hl
      next hout =>
        rw [if_neg fun h => hout (h.trans (List.prefix_append l [name]))]
        exact t.parents l name hl }
  else .error (t.missing loc)

/-- Everything at and below `source` is moved to `target`, and what was there is gone. -/
def move (t : FileTree ν δ) (source target : List ν) (hplace : t.Placeable target) (hout : ¬ source <+: target) :
    FileTree ν δ where
  entry l :=
    if target <+: l then t.entry (source ++ l.drop target.length)
    else if source <+: l then none
    else t.entry l
  listed := t.listed.map (fun l => target ++ l.drop source.length) ++ t.listed
  complete := by
    intro l hl
    split at hl
    next hbelow =>
      obtain ⟨rest, rfl⟩ := hbelow
      rw [List.drop_left] at hl
      exact List.mem_append_left _ (List.mem_map.mpr ⟨_, t.complete _ hl, by rw [List.drop_left]⟩)
    next =>
      split at hl
      next => exact absurd rfl hl
      next => exact List.mem_append_right _ (t.complete l hl)
  parents := by
    intro l name hl
    by_cases hbelow : target <+: l
    · -- inside what was moved
      obtain ⟨rest, rfl⟩ := hbelow
      rw [if_pos ((List.prefix_append target rest).trans (List.prefix_append _ _)), List.append_assoc, List.drop_left,
        ← List.append_assoc] at hl
      rw [if_pos (List.prefix_append target rest), List.drop_left]
      exact t.parents _ _ hl
    · rw [if_neg hbelow]
      by_cases htarget : target = l ++ [name]
      · -- the directory that holds the target stays where it is
        rw [if_neg fun h => hout (htarget ▸ h.trans (List.prefix_append l [name]))]
        exact hplace.above htarget.symm
      · have hstays : ¬ target <+: l ++ [name] := fun h => (List.prefix_concat_iff.mp h).elim htarget hbelow
        rw [if_neg hstays] at hl
        split at hl
        next => exact absurd rfl hl
        next hsource =>
          rw [if_neg fun h => hsource (h.trans (List.prefix_append l [name]))]
          exact t.parents l name hl

/-- What does not let an entry take the place of what is at the target. -/
def replaceError (t : FileTree ν δ) (e : Entry δ) (target : List ν) : Option IoError :=
  match t.entry target, e with
  | none, _ => none
  | some (.file _), .file _ => none
  | some (.file _), .dir => some .notDirectory
  | some .dir, .file _ => some .isDirectory
  | some .dir, .dir =>
    if t.listed.any fun l => target <+: l ∧ l ≠ target ∧ t.entry l ≠ none then some .directoryNotEmpty else none

/-- A file takes the place of a file, a directory that of an empty directory. -/
def rename (t : FileTree ν δ) (source target : List ν) : Except IoError (FileTree ν δ) :=
  match t.entry source with
  | none => .error (t.missing source)
  | some e =>
    if hplace : t.Placeable target then
      if hinside : source <+: target then .error .invalidInput
      else (t.replaceError e target).elim (.ok (t.move source target hplace hinside)) .error
    else .error (t.missing target)

/-! ### What the operations leave -/

theorem writeFile_keeps {data : δ} (h : t.writeFile loc data = .ok t') (hP : ¬ P loc) : KeepsFiles P t t' := by
  rw [writeFile] at h
  split at h
  next => cases h
  next =>
    split at h
    next =>
      cases h
      intro l hl data hfile
      show (if _ then _ else t.entry l) = _
      rw [if_neg fun h : l = loc => hP (h ▸ hl), hfile]
    next => cases h

theorem removeDirAll_keeps (h : t.removeDirAll loc = .ok t') (hP : ∀ l, P l → ¬ loc <+: l) : KeepsFiles P t t' := by
  rw [removeDirAll] at h
  split at h
  next =>
    cases h
    intro l hl data hfile
    show (if _ then _ else t.entry l) = _
    rw [if_neg (hP l hl), hfile]
  next => cases h

theorem rename_keeps {source target : List ν} (h : t.rename source target = .ok t')
    (hP : ∀ l, P l → ¬ source <+: l ∧ ¬ target <+: l) : KeepsFiles P t t' := by
  simp only [rename] at h
  split at h
  next => cases h
  next =>
    split at h
    next =>
      split at h
      next => cases h
      next =>
        cases herror : t.replaceError _ target with
        | some e =>
          rw [herror] at h
          cases h
        | none =>
          rw [herror] at h
          cases h
          intro l hl data hfile
          show (if _ then _ else if _ then _ else t.entry l) = _
          rw [if_neg (hP l hl).2, if_neg (hP l hl).1, hfile]
    next => cases h

end FileTree

end NodeGet.Data
