import Mathlib.Data.List.Infix

/-! Path texts and their components, as on Unix.

A path is a text. Its components are what lies between its slashes, without empty
pieces and without the piece `.` except in front; a leading slash is a component of its
own. Texts are put together by `push` and cut by `pop`; what both do to the components
is stated here, so that code which mixes them can be followed on components alone. -/
namespace NodeGet.Data.UnixPath

inductive Component where
  | rootDir
  | curDir
  | parentDir
  | normal (name : List Char)
deriving DecidableEq

def Component.isNormal : Component → Bool
  | .normal _ => true
  | _ => false

/-- The component a piece between slashes stands for, after the front. -/
def piece (text : List Char) : Option Component :=
  if text = [] ∨ text = ['.'] then none
  else if text = ['.', '.'] then some .parentDir
  else some (.normal text)

def body (path : List Char) : List Component := (path.splitOn '/').filterMap piece

def front (path : List Char) : List Component :=
  if path.head? = some '/' then [.rootDir]
  else if (path.splitOn '/').head? = some ['.'] then [.curDir]
  else []

def components (path : List Char) : List Component := front path ++ body path

/-- A text that begins with a slash replaces the path; another is put behind it, with a
slash between them where there is none. -/
def push (path text : List Char) : List Char :=
  if text.head? = some '/' then text
  else if path = [] ∨ path.getLast? = some '/' then path ++ text
  else path ++ '/' :: text

/-- The path without its last component: the shortest beginning of the text that has the
other components. The root and the empty path have no parent. -/
def parent (path : List Char) : Option (List Char) :=
  match (components path).getLast? with
  | none | some .rootDir => none
  | some _ => path.inits.find? fun q => components q = (components path).dropLast

/-- `starts_with` -/
def startsWith (path base : List Char) : Bool := (components base).isPrefixOf (components path)

/-! ### Pieces -/

variable {path text name : List Char}

theorem body_append (path text : List Char) : body (path ++ '/' :: text) = body path ++ body text := by
  rw [body, List.splitOn_append_cons_self, List.filterMap_append]
  rfl

theorem slash_notMem_of_mem_splitOn (h : text ∈ path.splitOn '/') : '/' ∉ text := by
  induction path generalizing text with
  | nil =>
    rw [List.splitOn_nil, List.mem_singleton] at h
    simp [h]
  | cons c rest ih =>
    rw [List.splitOn_cons_eq_if_modifyHead] at h
    split at h
    next =>
      rcases List.mem_cons.mp h with rfl | h
      · exact List.not_mem_nil
      · exact ih h
    next hc =>
      cases hrest : rest.splitOn '/' with
      | nil => exact absurd hrest (List.splitOn_ne_nil _ _)
      | cons first others =>
        rw [hrest, List.modifyHead_cons] at h
        rw [hrest] at ih
        rcases List.mem_cons.mp h with rfl | h
        · intro hmem
          rcases List.mem_cons.mp hmem with heq | hmem
          · exact hc (beq_iff_eq.mpr heq.symm)
          · exact ih List.mem_cons_self hmem
        · exact ih (List.mem_cons_of_mem _ h)

/-- A text that is a single normal component. -/
structure IsName (name : List Char) : Prop where
  noSlash : '/' ∉ name
  nonempty : name ≠ []
  notCurDir : name ≠ ['.']
  notParentDir : name ≠ ['.', '.']

theorem IsName.body_eq (h : IsName name) : body name = [.normal name] := by
  simp [body, List.splitOn_eq_singleton h.noSlash, piece, h.nonempty, h.notCurDir, h.notParentDir]

theorem IsName.head (h : IsName name) : name.head? ≠ some '/' := fun hhead => h.noSlash (List.mem_of_mem_head? hhead)

theorem IsName.components_eq (h : IsName name) : components name = [.normal name] := by
  simp [components, front, h.head, List.splitOn_eq_singleton h.noSlash, h.notCurDir, h.body_eq]

/-- After the front there are names and `..`. -/
theorem mem_body {c : Component} (h : c ∈ body path) : c = .parentDir ∨ ∃ name, c = .normal name ∧ IsName name := by
  obtain ⟨text, htext, hpiece⟩ := List.mem_filterMap.mp h
  rw [piece] at hpiece
  split at hpiece
  next => cases hpiece
  next hempty =>
    rw [not_or] at hempty
    split at hpiece
    next => exact .inl (Option.some.inj hpiece).symm
    next hparent =>
      exact .inr ⟨text, (Option.some.inj hpiece).symm, slash_notMem_of_mem_splitOn htext, hempty.1, hempty.2, hparent⟩

theorem isName_of_mem_components (h : .normal name ∈ components path) : IsName name := by
  rcases List.mem_append.mp h with hfront | hbody
  · rw [front] at hfront
    split at hfront
    next => cases List.mem_singleton.mp hfront
    next =>
      split at hfront
      next => cases List.mem_singleton.mp hfront
      next => cases hfront
  · obtain h | ⟨name', h, hname⟩ := mem_body hbody
    · cases h
    · cases h
      exact hname

/-- What stands behind the front of a relative path. -/
theorem filter_components (h : path.head? ≠ some '/') : (components path).filter (· ≠ .curDir) = body path := by
  have hbody : (body path).filter (· ≠ .curDir) = body path := by
    refine List.filter_eq_self.mpr fun c hc => ?_
    obtain rfl | ⟨name, rfl, _⟩ := mem_body hc
    · rfl
    · rfl
  rw [components, List.filter_append, hbody, front, if_neg h]
  split
  next => rfl
  next => rfl

/-! ### Putting texts together -/

theorem front_append (path text : List Char) :
    front (path ++ '/' :: text) = if path = [] then [.rootDir] else front path := by
  cases path with
  | nil => rfl
  | cons c rest =>
    have hpieces : ((c :: rest).splitOn '/' ++ text.splitOn '/').head? = ((c :: rest).splitOn '/').head? :=
      List.head?_append_of_ne_nil _ (List.splitOn_ne_nil _ _)
    rw [front, List.splitOn_append_cons_self, hpieces]
    rfl

theorem components_push (hpath : path ≠ []) (htext : text.head? ≠ some '/') :
    components (push path text) = components path ++ body text := by
  rw [push, if_neg htext]
  split
  next hlast =>
    obtain ⟨rest, rfl⟩ := List.getLast?_eq_some_iff.mp (hlast.resolve_left hpath)
    rw [List.append_assoc, List.singleton_append, components, components, front_append, front_append, body_append,
      body_append, show body [] = [] from rfl, List.append_nil, List.append_assoc]
  next =>
    rw [components, front_append, if_neg hpath, body_append, components, List.append_assoc]

theorem push_nil (text : List Char) : push [] text = text := by
  rw [push]
  split
  next => rfl
  next => rfl

theorem components_push_name (h : IsName name) : components (push path name) = components path ++ [.normal name] := by
  by_cases hpath : path = []
  · rw [hpath, push_nil, h.components_eq]
    rfl
  · rw [components_push hpath h.head, h.body_eq]

/-! ### Cutting and comparing -/

theorem components_parent {q : List Char} (h : parent path = some q) : components q = (components path).dropLast := by
  rw [parent] at h
  split at h
  next => cases h
  next => cases h
  next => simpa using List.find?_some h

theorem body_of_noSlash (h : '/' ∉ text) : body text = (piece text).toList := by
  rw [body, List.splitOn_eq_singleton h]
  cases hpiece : piece text with
  | none => simp [hpiece]
  | some c => simp [hpiece]

/-- A text without a slash is at most one component. -/
theorem components_of_noSlash (h : '/' ∉ text) (htext : text ≠ []) : ∃ c, components text = [c] := by
  have hhead : text.head? ≠ some '/' := fun hhead => h (List.mem_of_mem_head? hhead)
  rw [components, front, if_neg hhead, List.splitOn_eq_singleton h, body_of_noSlash h, piece]
  by_cases hdot : text = ['.']
  · exact ⟨.curDir, by simp [hdot]⟩
  · by_cases hdots : text = ['.', '.']
    · exact ⟨.parentDir, by simp [hdots]⟩
    · exact ⟨.normal text, by simp [hdot, hdots, htext]⟩

theorem exists_lastSlash (h : '/' ∈ path) : ∃ rest text, path = rest ++ '/' :: text ∧ '/' ∉ text := by
  obtain ⟨text, rest, hrev, hno⟩ := List.eq_append_cons_of_mem (List.mem_reverse.mpr h)
  refine ⟨rest.reverse, text.reverse, ?_, by simpa using hno⟩
  rw [← List.reverse_reverse path, hrev]
  simp

/-- Whatever has components has a beginning with all but the last of them. -/
theorem exists_dropLast (path : List Char) (h : components path ≠ []) :
    ∃ q, q <+: path ∧ components q = (components path).dropLast := by
  by_cases hslash : '/' ∈ path
  · obtain ⟨rest, text, rfl, hno⟩ := exists_lastSlash hslash
    have hsplit : components (rest ++ '/' :: text) = components (rest ++ ['/']) ++ (piece text).toList := by
      rw [components, components, front_append, front_append, body_append, body_append, body_of_noSlash hno,
        show body [] = [] from rfl, List.append_nil, List.append_assoc]
    cases hpiece : piece text with
    | some c =>
      refine ⟨rest ++ ['/'], ⟨text, by simp⟩, ?_⟩
      rw [hsplit, hpiece, Option.toList_some, List.dropLast_concat]
    | none =>
      -- a last piece that is no component: cut what is before it
      rw [hpiece, Option.toList_none, List.append_nil] at hsplit
      by_cases hrest : rest = []
      · subst hrest
        exact ⟨[], List.nil_prefix, by rw [hsplit]; rfl⟩
      · have hsame : components (rest ++ ['/']) = components rest := by
          rw [components, front_append, if_neg hrest, body_append, show body [] = [] from rfl, List.append_nil,
            components]
        rw [hsplit, hsame] at h ⊢
        obtain ⟨q, hq, hcomponents⟩ := exists_dropLast rest h
        exact ⟨q, hq.trans (List.prefix_append _ _), hcomponents⟩
  · have hpath : path ≠ [] := fun hnil => h (by rw [hnil]; rfl)
    obtain ⟨c, hc⟩ := components_of_noSlash hslash hpath
    exact ⟨[], List.nil_prefix, by rw [hc]; rfl⟩
termination_by path.length

/-- Only the empty path and the root have no parent. -/
theorem parent_isSome (h : components path ≠ []) (hroot : (components path).getLast? ≠ some .rootDir) :
    (parent path).isSome = true := by
  obtain ⟨q, hq, hcomponents⟩ := exists_dropLast path h
  rw [parent]
  split
  next hlast => exact absurd (List.getLast?_eq_none_iff.mp hlast) h
  next hlast => exact absurd hlast hroot
  next =>
    rw [List.find?_isSome]
    exact ⟨q, (List.mem_inits _ _).mpr hq, by simpa using hcomponents⟩

theorem startsWith_iff {base : List Char} : startsWith path base = true ↔ components base <+: components path :=
  List.isPrefixOf_iff_prefix

end NodeGet.Data.UnixPath
