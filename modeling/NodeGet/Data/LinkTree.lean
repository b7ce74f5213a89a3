import Mathlib.Data.List.Nodup
import NodeGet.Data.Worklist

/-! A finite tree of files, directories and symbolic links, and how paths lead through it.

A path is walked from the root, and a link met on the way is replaced by its target, a limited
number of times. Below the directory that a path leads to, what is reached without another link
is what lies there in the tree (`resolve_append`). -/
namespace NodeGet.Data

/-- A component of a path. -/
inductive Step (ν : Type) where
  | up
  | down (name : ν)
deriving DecidableEq

/-- What a location holds. The target of a link is a path from the root or from where the link is. -/
inductive Inode (ν μ : Type) where
  | file (metadata : μ)
  | dir
  | link (fromRoot : Bool) (target : List (Step ν))
  | other

/-- The names in a directory come in the order in which it is read. With a bound on the depth
there are finitely many locations. -/
structure LinkTree (ν μ : Type) where
  entry : List ν → Option (Inode ν μ)
  names : List ν → List ν
  nodup : ∀ loc, (names loc).Nodup
  mem_names : ∀ loc name, name ∈ names loc ↔ entry (loc ++ [name]) ≠ none
  parents : ∀ loc name, entry (loc ++ [name]) ≠ none → entry loc = some .dir
  depth : Nat
  bounded : ∀ loc, entry loc ≠ none → loc.length ≤ depth

inductive PathError where
  | notFound | notDirectory | tooManyLinks
deriving DecidableEq

def PathError.text : PathError → String
  | notFound => "No such file or directory (os error 2)"
  | notDirectory => "Not a directory (os error 20)"
  | tooManyLinks => "Too many levels of symbolic links (os error 40)"

namespace LinkTree
variable {ν μ : Type} (t : LinkTree ν μ)

def isDir (loc : List ν) : Bool :=
  match t.entry loc with
  | some .dir => true
  | _ => false

variable {loc rest l start : List ν} {path : List (Step ν)} {links : Nat}

theorem isDir_iff : t.isDir loc = true ↔ t.entry loc = some .dir := by
  unfold isDir
  split
  next h => simp [h]
  next h => simpa using h

/-- Whatever exists lies in directories. -/
theorem dir_of_append (hrest : rest ≠ []) (h : t.entry (loc ++ rest) ≠ none) : t.entry loc = some .dir := by
  induction rest generalizing loc with
  | nil => exact absurd rfl hrest
  | cons name rest ih =>
    cases rest with
    | nil => exact t.parents loc name h
    | cons next rest =>
      have hnext : t.entry ((loc ++ [name]) ++ next :: rest) ≠ none := by rwa [List.append_assoc, List.singleton_append]
      refine t.parents loc name ?_
      rw [ih (List.cons_ne_nil _ _) hnext]
      simp

theorem dir_above (h : t.entry (loc ++ rest) = some .dir) : t.entry loc = some .dir := by
  cases rest with
  | nil => rwa [List.append_nil] at h
  | cons name rest =>
    refine t.dir_of_append (List.cons_ne_nil name rest) ?_
    rw [h]
    simp

/-- The tree below a location. -/
def subtree (loc : List ν) : LinkTree ν μ where
  entry l := t.entry (loc ++ l)
  names l := t.names (loc ++ l)
  nodup l := t.nodup _
  mem_names l name := by rw [t.mem_names, List.append_assoc]
  parents l name h := by
    rw [← List.append_assoc] at h
    exact t.parents _ name h
  depth := t.depth
  bounded l h := by
    have hle := t.bounded _ h
    rw [List.length_append] at hle
    omega

theorem single_present [DecidableEq ν] {inode : Inode ν μ} :
    (if l = loc then some inode else if l <+: loc then some .dir else none) ≠ none ↔ l <+: loc := by
  split
  next h => simp [h]
  next =>
    split
    next h => simp [h]
    next h => simp [h]

/-- One entry in its directories. -/
def single [DecidableEq ν] (loc : List ν) (inode : Inode ν μ) : LinkTree ν μ where
  entry l := if l = loc then some inode else if l <+: loc then some .dir else none
  names l := if l <+: loc then (loc.drop l.length).take 1 else []
  nodup l := by
    split
    next =>
      cases loc.drop l.length with
      | nil => simp
      | cons name rest => simp
    next => simp
  mem_names l name := by
    rw [single_present]
    split
    next h =>
      obtain ⟨rest, rfl⟩ := h
      rw [List.drop_left, List.prefix_append_right_inj]
      cases rest with
      | nil => simp
      | cons first rest => simp
    next h => exact iff_of_false List.not_mem_nil fun hname => h ((List.prefix_append l [name]).trans hname)
  parents l name h := by
    have hname := single_present.mp h
    have hlen := hname.length_le
    rw [List.length_append, List.length_singleton] at hlen
    rw [if_neg fun heq : l = loc => by rw [heq] at hlen; omega, if_pos ((List.prefix_append l [name]).trans hname)]
  depth := loc.length
  bounded _ h := (single_present.mp h).length_le

/-! ### Everything below -/

/-- The locations in a directory. -/
def entries (loc : List ν) : List (List ν) := (t.names loc).map fun name => loc ++ [name]

def subdirs (loc : List ν) : List (List ν) := (t.entries loc).filter t.isDir

theorem mem_entries : l ∈ t.entries loc ↔ ∃ name, l = loc ++ [name] ∧ t.entry l ≠ none := by
  rw [entries, List.mem_map]
  constructor
  · intro h
    obtain ⟨name, hname, rfl⟩ := h
    exact ⟨name, rfl, (t.mem_names ..).mp hname⟩
  · intro h
    obtain ⟨name, rfl, hentry⟩ := h
    exact ⟨name, (t.mem_names ..).mpr hentry, rfl⟩

theorem mem_subdirs : l ∈ t.subdirs loc ↔ ∃ name, l = loc ++ [name] ∧ t.entry l = some .dir := by
  rw [subdirs, List.mem_filter, mem_entries, isDir_iff]
  constructor
  · intro h
    obtain ⟨⟨name, hl, -⟩, hdir⟩ := h
    exact ⟨name, hl, hdir⟩
  · intro h
    obtain ⟨name, hl, hdir⟩ := h
    exact ⟨⟨name, hl, by simp [hdir]⟩, hdir⟩

theorem nodup_entries (loc : List ν) : (t.entries loc).Nodup :=
  List.Nodup.map (fun a b h => by simpa using h) (t.nodup loc)

/-- Directories in directories come to an end. -/
def ranked : Ranked t.subdirs where
  rank loc := t.depth + 1 - loc.length
  lt loc l hl := by
    obtain ⟨name, rfl, hdir⟩ := t.mem_subdirs.mp hl
    have hle := t.bounded _ (by simp [hdir] : t.entry (loc ++ [name]) ≠ none)
    rw [List.length_append, List.length_singleton] at hle ⊢
    omega

theorem isPrefix_of_mem_below (h : l ∈ t.ranked.below loc) : loc <+: l := by
  induction loc using t.ranked.induction with
  | h loc ih =>
    rw [Ranked.below_eq, List.mem_cons, List.mem_flatMap] at h
    rcases h with rfl | ⟨child, hchild, hl⟩
    · exact List.prefix_rfl
    · obtain ⟨name, rfl, -⟩ := t.mem_subdirs.mp hchild
      exact (List.prefix_append loc [name]).trans (ih _ hchild hl)

theorem append_mem_below (h : t.entry (loc ++ rest) = some .dir) : loc ++ rest ∈ t.ranked.below loc := by
  induction rest generalizing loc with
  | nil =>
    rw [List.append_nil, Ranked.below_eq]
    exact List.mem_cons_self
  | cons name rest ih =>
    have hstep : loc ++ name :: rest = (loc ++ [name]) ++ rest := by rw [List.append_assoc, List.singleton_append]
    rw [hstep] at h ⊢
    rw [t.ranked.below_eq loc]
    exact List.mem_cons_of_mem _ (List.mem_flatMap.mpr ⟨_, t.mem_subdirs.mpr ⟨name, rfl, t.dir_above h⟩, ih h⟩)

theorem nodup_below (loc : List ν) : (t.ranked.below loc).Nodup := by
  induction loc using t.ranked.induction with
  | h loc ih =>
    rw [Ranked.below_eq, List.nodup_cons, List.nodup_flatMap]
    refine ⟨fun hloc => ?_, ih, ?_⟩
    · obtain ⟨child, hchild, hloc⟩ := List.mem_flatMap.mp hloc
      obtain ⟨name, rfl, -⟩ := t.mem_subdirs.mp hchild
      have hlen := (t.isPrefix_of_mem_below hloc).length_le
      rw [List.length_append, List.length_singleton] at hlen
      omega
    · -- what is below two directories begins with both, and they are of one length
      refine ((t.nodup_entries loc).filter _).imp_of_mem fun {a b} ha hb hne l hla hlb => hne ?_
      obtain ⟨first, rfl, -⟩ := t.mem_subdirs.mp ha
      obtain ⟨second, rfl, -⟩ := t.mem_subdirs.mp hb
      have hbegins := List.prefix_of_prefix_length_le (t.isPrefix_of_mem_below hla) (t.isPrefix_of_mem_below hlb)
        (by simp)
      exact hbegins.eq_of_length (by simp)

/-- Everything below the root, once. -/
def allEntries : List (List ν) := (t.ranked.below []).flatMap t.entries

theorem nodup_allEntries : t.allEntries.Nodup := by
  refine List.nodup_flatMap.mpr ⟨fun loc _ => t.nodup_entries loc, (t.nodup_below []).imp fun {a b} hne l ha hb => hne ?_⟩
  obtain ⟨first, rfl, -⟩ := t.mem_entries.mp ha
  obtain ⟨second, heq, -⟩ := t.mem_entries.mp hb
  exact (List.append_inj' heq rfl).1

theorem mem_allEntries : l ∈ t.allEntries ↔ l ≠ [] ∧ t.entry l ≠ none := by
  rw [allEntries, List.mem_flatMap]
  constructor
  · intro h
    obtain ⟨loc, -, hl⟩ := h
    obtain ⟨name, rfl, hentry⟩ := t.mem_entries.mp hl
    exact ⟨by simp, hentry⟩
  · intro h
    obtain ⟨hne, hentry⟩ := h
    obtain ⟨loc, name, rfl⟩ := List.eq_nil_or_concat l |>.resolve_left hne
    rw [List.concat_eq_append] at hentry ⊢
    exact ⟨loc, t.append_mem_below (t.parents loc name hentry), t.mem_entries.mpr ⟨name, rfl, hentry⟩⟩

/-! ### Paths -/

/-- Walks to the end of the path, or to a link: then the path goes on with its target, from the
root or from there. -/
def advance : List ν → List (Step ν) → Except PathError (List ν × Option (List (Step ν)))
  | loc, [] => .ok (loc, none)
  | loc, .up :: rest => if t.isDir loc then advance loc.dropLast rest else .error .notDirectory
  | loc, .down name :: rest =>
    match t.entry (loc ++ [name]) with
    | some (.link fromRoot target) => .ok (if fromRoot then [] else loc, some (target ++ rest))
    | some _ => advance (loc ++ [name]) rest
    | none => .error (if t.isDir loc then .notFound else .notDirectory)

/-- Where a path leads from a location, when at most so many links are followed. -/
def resolveFrom : Nat → List ν → List (Step ν) → Except PathError (List ν)
  | 0, start, path =>
    match t.advance start path with
    | .error e => .error e
    | .ok (loc, none) => .ok loc
    | .ok (_, some _) => .error .tooManyLinks
  | links + 1, start, path =>
    match t.advance start path with
    | .error e => .error e
    | .ok (loc, none) => .ok loc
    | .ok (loc, some rest) => resolveFrom links loc rest

def resolve (links : Nat) (path : List (Step ν)) : Except PathError (List ν) := t.resolveFrom links [] path

theorem advance_append_end (rest : List (Step ν)) (h : t.advance start path = .ok (loc, none)) :
    t.advance start (path ++ rest) = t.advance loc rest := by
  induction path generalizing start with
  | nil =>
    cases h
    rfl
  | cons step path ih =>
    cases step with
    | up =>
      rw [advance] at h
      rw [List.cons_append, advance]
      split at h
      next hdir =>
        rw [if_pos hdir]
        exact ih h
      next => cases h
    | down name =>
      rw [advance] at h
      rw [List.cons_append, advance]
      split at h
      next => cases h
      next => exact ih h
      next => cases h

theorem advance_append_link {target : List (Step ν)} (rest : List (Step ν))
    (h : t.advance start path = .ok (loc, some target)) :
    t.advance start (path ++ rest) = .ok (loc, some (target ++ rest)) := by
  induction path generalizing start with
  | nil => cases h
  | cons step path ih =>
    cases step with
    | up =>
      rw [advance] at h
      rw [List.cons_append, advance]
      split at h
      next hdir =>
        rw [if_pos hdir]
        exact ih h
      next => cases h
    | down name =>
      rw [advance] at h
      rw [List.cons_append, advance]
      split at h
      next =>
        cases h
        rw [List.append_assoc]
      next => exact ih h
      next => cases h

theorem advance_dir (h : t.entry (loc ++ rest) = some .dir) :
    t.advance loc (rest.map .down) = .ok (loc ++ rest, none) := by
  induction rest generalizing loc with
  | nil => rw [List.map_nil, advance, List.append_nil]
  | cons name rest ih =>
    have hstep : loc ++ name :: rest = (loc ++ [name]) ++ rest := by rw [List.append_assoc, List.singleton_append]
    rw [hstep] at h ⊢
    rw [List.map_cons, advance, t.dir_above h]
    exact ih h

theorem resolveFrom_append (hpath : t.resolveFrom links start path = .ok loc)
    (hrest : t.entry (loc ++ rest) = some .dir) :
    t.resolveFrom links start (path ++ rest.map .down) = .ok (loc ++ rest) := by
  induction links generalizing start path with
  | zero =>
    rw [resolveFrom] at hpath ⊢
    split at hpath
    next => cases hpath
    next hend =>
      cases hpath
      rw [t.advance_append_end _ hend, t.advance_dir hrest]
    next => cases hpath
  | succ links ih =>
    rw [resolveFrom] at hpath ⊢
    split at hpath
    next => cases hpath
    next hend =>
      cases hpath
      rw [t.advance_append_end _ hend, t.advance_dir hrest]
    next hlink =>
      rw [t.advance_append_link _ hlink]
      exact ih hpath

/-- Below what a path leads to, directories are reached without another link. -/
theorem resolve_append (hpath : t.resolve links path = .ok loc) (hrest : t.entry (loc ++ rest) = some .dir) :
    t.resolve links (path ++ rest.map .down) = .ok (loc ++ rest) :=
  t.resolveFrom_append hpath hrest

end LinkTree

end NodeGet.Data
