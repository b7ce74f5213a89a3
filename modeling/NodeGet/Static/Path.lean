import NodeGet.Core.Error
import NodeGet.Data.UnixPath

/-! Paths of static files (`ng-static/src/ops.rs`: `validate_name`, `validate_sub_path`,
`resolve_safe_file_path`), on Unix, where no path has a drive.

The resolver walks over the components of the requested path and pushes and pops texts.
What it does to the components of its path is a walk on a stack of components (`walk`,
`resolveComponents_eq`). A walk that ends with the bucket's components in front ends with
them and names (`walk_confined`). -/
namespace NodeGet.Static
open NodeGet.Core NodeGet.Data NodeGet.Data.UnixPath

/-- Where something lies below a directory. -/
abbrev Loc := List (List Char)

/-- The names among components. -/
def names (cs : List Component) : Loc :=
  cs.filterMap fun
    | .normal name => some name
    | _ => none

theorem names_append (a b : List Component) : names (a ++ b) = names a ++ names b := List.filterMap_append ..

/-- Where a path below `base` leads. -/
def location (base path : List Char) : Loc := names ((components path).drop (components base).length)

/-! ### Names -/

def isNameChar (c : Char) : Bool :=
  ('a' ≤ c && c ≤ 'z') || ('A' ≤ c && c ≤ 'Z') || ('0' ≤ c && c ≤ '9') || c == '_' || c == '-' || c == '.'

def validateName (name : String) : Except NodegetError Unit :=
  if name.toList = [] then .error (.invalidInput "name cannot be empty")
  else if 128 < name.utf8ByteSize then .error (.invalidInput "name too long (max 128 chars)")
  else if !name.toList.all isNameChar then
    .error (.invalidInput "name contains invalid characters (only [A-Za-z0-9_.-] are allowed)")
  else if name.toList.all (· == '.') then .error (.invalidInput "name cannot be '.' or '..'")
  else .ok ()

def validateComponents : List Component → Bool → Except NodegetError Unit
  | [], hasComponent => if hasComponent then .ok () else .error (.invalidInput "path has no valid component")
  | .normal segment :: rest, _ => do
    validateName (String.ofList segment)
    validateComponents rest true
  | .curDir :: rest, hasComponent => validateComponents rest hasComponent
  | .parentDir :: _, _ => .error (.invalidInput "path cannot contain '..'")
  | .rootDir :: _, _ => .error (.invalidInput "path cannot be absolute (leading '/')")

def validateSubPath (path : String) : Except NodegetError Unit :=
  if path.toList = [] then .error (.invalidInput "path cannot be empty")
  else if 512 < path.utf8ByteSize then .error (.invalidInput "path too long (max 512 chars)")
  else if '\\' ∈ path.toList then .error (.invalidInput "path cannot contain backslash")
  else validateComponents (components path.toList) false

/-! ### Resolving -/

def resolveComponents : List Char → List Component → Except NodegetError (List Char)
  | resolved, [] => .ok resolved
  | resolved, .normal name :: rest => resolveComponents (push resolved name) rest
  | resolved, .rootDir :: rest => resolveComponents resolved rest
  | resolved, .curDir :: rest => resolveComponents resolved rest
  | resolved, .parentDir :: rest =>
    match parent resolved with
    | none => .error (.invalidInput "Invalid path: path traversal detected")
    | some shorter => resolveComponents shorter rest

def resolveSafeFilePath (staticPath subPath filePath : String) : Except NodegetError (List Char) := do
  validateSubPath subPath
  let base := push staticPath.toList subPath.toList
  let resolved ← resolveComponents base (components filePath.toList)
  if startsWith resolved base then .ok resolved
  else .error (.invalidInput "Invalid path: path traversal detected")

/-! ### The walk over components -/

def walk : List Component → List Component → Option (List Component)
  | stack, [] => some stack
  | stack, .normal name :: rest => walk (stack ++ [.normal name]) rest
  | stack, .rootDir :: rest => walk stack rest
  | stack, .curDir :: rest => walk stack rest
  | stack, .parentDir :: rest => if stack = [] ∨ stack.getLast? = some .rootDir then none else walk stack.dropLast rest

theorem parent_eq_none_iff {path : List Char} :
    parent path = none ↔ components path = [] ∨ (components path).getLast? = some .rootDir := by
  constructor
  · intro h
    by_contra hsome
    rw [not_or] at hsome
    simpa [h] using parent_isSome hsome.1 hsome.2
  · intro h
    rw [parent]
    rcases h with h | h
    · rw [h]
      rfl
    · rw [h]

variable {cs start stack : List Component} {staticPath subPath filePath : String}

/-- The components of what is resolved are those of the walk. -/
theorem resolveComponents_eq (resolved : List Char) (hcs : ∀ name, .normal name ∈ cs → IsName name) :
    (resolveComponents resolved cs).toOption.map components = walk (components resolved) cs := by
  induction cs generalizing resolved with
  | nil => rfl
  | cons c rest ih =>
    have ih := fun resolved => ih resolved fun name h => hcs name (List.mem_cons_of_mem _ h)
    cases c with
    | normal name =>
      rw [walk, ← components_push_name (hcs name List.mem_cons_self)]
      exact ih _
    | rootDir => exact ih _
    | curDir => exact ih _
    | parentDir =>
      simp only [resolveComponents, walk]
      cases hparent : parent resolved with
      | none =>
        rw [if_pos (parent_eq_none_iff.mp hparent)]
        rfl
      | some shorter =>
        rw [if_neg fun h => by simp [parent_eq_none_iff.mpr h] at hparent, ← components_parent hparent]
        exact ih _

/-- A beginning of `start` with names behind it. -/
def NamesOn (start stack : List Component) : Prop :=
  ∃ kept names, kept <+: start ∧ stack = kept ++ names ∧ ∀ c ∈ names, c.isNormal = true

theorem NamesOn.dropLast (h : NamesOn start stack) : NamesOn start stack.dropLast := by
  obtain ⟨kept, names, hkept, rfl, hnames⟩ := h
  rcases List.eq_nil_or_concat names with rfl | ⟨names, last, rfl⟩
  · rw [List.append_nil]
    exact ⟨kept.dropLast, [], (List.dropLast_prefix kept).trans hkept, by simp, hnames⟩
  · rw [List.concat_eq_append] at hnames ⊢
    refine ⟨kept, names, hkept, ?_, fun c hc => hnames c (List.mem_append_left _ hc)⟩
    rw [← List.append_assoc, List.dropLast_concat]

theorem walk_namesOn {stack' : List Component} (hstack : NamesOn start stack) (h : walk stack cs = some stack') :
    NamesOn start stack' := by
  induction cs generalizing stack with
  | nil =>
    cases h
    exact hstack
  | cons c cs ih =>
    cases c with
    | normal name =>
      obtain ⟨kept, names, hkept, rfl, hnames⟩ := hstack
      rw [walk, List.append_assoc] at h
      refine ih ⟨kept, names ++ [.normal name], hkept, rfl, fun c hc => ?_⟩ h
      rcases List.mem_append.mp hc with hc | hc
      · exact hnames c hc
      · rw [List.mem_singleton.mp hc]
        rfl
    | rootDir => exact ih hstack h
    | curDir => exact ih hstack h
    | parentDir =>
      simp only [walk] at h
      split at h
      next => cases h
      next => exact ih hstack.dropLast h

/-- A walk that ends with where it started in front has only added names. -/
theorem walk_confined (h : walk start cs = some stack) (hstart : start <+: stack) :
    ∃ names, stack = start ++ names ∧ ∀ c ∈ names, c.isNormal = true := by
  have hself : NamesOn start start := ⟨start, [], List.prefix_rfl, (List.append_nil _).symm, fun _ h => by cases h⟩
  obtain ⟨kept, names, ⟨mid, rfl⟩, rfl, hnames⟩ := walk_namesOn hself h
  obtain ⟨tail, htail⟩ := hstart
  rw [List.append_assoc] at htail
  obtain rfl := List.append_cancel_left htail
  exact ⟨tail, (List.append_assoc ..).symm, fun c hc => hnames c (List.mem_append_right _ hc)⟩

theorem walk_names (h : ∀ c ∈ cs, c.isNormal = true) : walk stack cs = some (stack ++ cs) := by
  induction cs generalizing stack with
  | nil => rw [walk, List.append_nil]
  | cons c cs ih =>
    cases c with
    | normal name =>
      rw [walk, ih fun c hc => h c (List.mem_cons_of_mem _ hc), List.append_assoc, List.singleton_append]
    | _ => cases h _ List.mem_cons_self

/-! ### Confinement -/

/-- A bucket's path is made of names, with `.` among them. -/
theorem validateComponents_ok {hasComponent : Bool} (h : validateComponents cs hasComponent = .ok ()) :
    ∀ c ∈ cs, c.isNormal = true ∨ c = .curDir := by
  induction cs generalizing hasComponent with
  | nil => exact fun _ hc => by cases hc
  | cons c rest ih =>
    intro c' hc'
    cases c with
    | normal segment =>
      rcases List.mem_cons.mp hc' with rfl | hc'
      · exact .inl rfl
      · exact ih (check_ok_iff.mp h).2 c' hc'
    | curDir =>
      rcases List.mem_cons.mp hc' with rfl | hc'
      · exact .inr rfl
      · exact ih h c' hc'
    | parentDir => cases h
    | rootDir => cases h

theorem validateSubPath_ok {path : String} (h : validateSubPath path = .ok ()) :
    ∀ c ∈ components path.toList, c.isNormal = true ∨ c = .curDir := by
  simp only [validateSubPath] at h
  split at h
  next => cases h
  next =>
    split at h
    next => cases h
    next =>
      split at h
      next => cases h
      next => exact validateComponents_ok h

/-- The components a bucket's path adds to the base directory: all that are not `.`, or
all, when there is no base directory. -/
def bucketComponents (staticPath subPath : String) : List Component :=
  if staticPath.toList = [] then components subPath.toList
  else (components subPath.toList).filter (· ≠ .curDir)

theorem components_base (h : validateSubPath subPath = .ok ()) :
    components (push staticPath.toList subPath.toList) =
      components staticPath.toList ++ bucketComponents staticPath subPath := by
  have hrelative : subPath.toList.head? ≠ some '/' := by
    intro hhead
    have hroot : .rootDir ∈ components subPath.toList := by
      rw [components, front, if_pos hhead]
      exact List.mem_cons_self
    simpa [Component.isNormal] using validateSubPath_ok h _ hroot
  rw [bucketComponents]
  split
  next hempty =>
    rw [hempty, push_nil]
    rfl
  next hne =>
    rw [components_push hne hrelative, filter_components hrelative]

theorem resolved_components {p : List Char} (h : resolveSafeFilePath staticPath subPath filePath = .ok p) :
    ∃ names, components p = components staticPath.toList ++ bucketComponents staticPath subPath ++ names ∧
      ∀ c ∈ names, c.isNormal = true := by
  obtain ⟨hvalid, h⟩ := check_ok_iff.mp h
  obtain ⟨resolved, hresolved, h⟩ := ok_of_bind h
  have hwalk := resolveComponents_eq (push staticPath.toList subPath.toList)
    fun _ h => isName_of_mem_components (h : _ ∈ components filePath.toList)
  rw [hresolved] at hwalk
  split at h
  next hstarts =>
    cases h
    rw [← components_base hvalid]
    exact walk_confined hwalk.symm (startsWith_iff.mp hstarts)
  next => cases h

theorem resolve_names (hvalid : validateSubPath subPath = .ok ())
    (hfile : ∀ c ∈ components filePath.toList, c.isNormal = true) :
    ∃ p, resolveSafeFilePath staticPath subPath filePath = .ok p ∧
      components p = components staticPath.toList ++ bucketComponents staticPath subPath ++
        components filePath.toList := by
  have hwalk := resolveComponents_eq (push staticPath.toList subPath.toList)
    fun _ h => isName_of_mem_components (h : _ ∈ components filePath.toList)
  rw [walk_names hfile] at hwalk
  cases hres : resolveComponents (push staticPath.toList subPath.toList) (components filePath.toList) with
  | error e =>
    rw [hres] at hwalk
    cases hwalk
  | ok p =>
    rw [hres] at hwalk
    have hcomponents : components p = _ := Option.some.inj hwalk
    have hstarts : startsWith p (push staticPath.toList subPath.toList) = true :=
      startsWith_iff.mpr ⟨_, hcomponents.symm⟩
    refine ⟨p, check_ok_iff.mpr ⟨hvalid, ?_⟩, by rw [hcomponents, components_base hvalid]⟩
    simp only [hres, hstarts, if_true, bind, Except.bind]

/-- **Static path confinement**: what is resolved is the base directory, the bucket's
components and names; and every path of names is resolved in a valid bucket. -/
theorem resolve_confined (staticPath subPath filePath : String) :
    (∀ p, resolveSafeFilePath staticPath subPath filePath = .ok p →
      ∃ names, components p = components staticPath.toList ++ bucketComponents staticPath subPath ++ names ∧
        ∀ c ∈ names, c.isNormal = true) ∧
    (validateSubPath subPath = .ok () → (∀ c ∈ components filePath.toList, c.isNormal = true) →
      ∃ p, resolveSafeFilePath staticPath subPath filePath = .ok p ∧
        components p = components staticPath.toList ++ bucketComponents staticPath subPath ++
          components filePath.toList) :=
  ⟨fun _ => resolved_components, resolve_names⟩

end NodeGet.Static
