import Mathlib.Data.List.TakeWhile
import NodeGet.Core.Backend
import NodeGet.Data.Like
import NodeGet.Task.Event

/-! The conditions of a task query or delete and the rows they select
(`ng-task/src/rpc/query.rs`, `delete.rs`).

All conditions are filters that a row must pass, but for a limit and `Last`. The
type of a task is looked up in the stored value: PostgreSQL tests for a key of the
JSON value (`typeHolds_postgres`), on SQLite the text of the value is searched for
the quoted name and a colon (`typeHolds_sqlite`). -/
namespace NodeGet.Task
open NodeGet.Core NodeGet.Data

inductive TaskQueryCondition where
  | taskId (id : UInt64)
  | uuid (uuid : Uuid)
  | timestampFromTo (start stop : Int)
  | timestampFrom (start : Int)
  | timestampTo (stop : Int)
  | isSuccess
  | isFailure
  | isRunning
  | taskType (key : String)
  | cronSource (source : String)
  | limit (n : UInt64)
  | last
deriving DecidableEq

/-- A row of the table `task`, with the columns a query returns. -/
structure Row where
  id : Int64
  uuid : Uuid
  cronSource : Option String
  timestamp : Option Int
  success : Option Bool
  errorMessage : Option String
  taskEventType : TaskEventType
  taskEventResult : Option Json

/-! ### The type filter -/

/-- `str::replace` of a character by itself behind a backslash. -/
def backslash (c : Char) (text : List Char) : List Char := text.flatMap fun d => if d = c then ['\\', c] else [d]

def escapeLikePattern (pattern : List Char) : List Char := backslash '_' (backslash '%' (backslash '\\' pattern))

/-- SQLite reads both sides of `LIKE` up to the first NUL. -/
def cString (text : List Char) : List Char := text.takeWhile (· ≠ Char.ofNat 0)

/-- `LIKE` takes the letters of ASCII without their case. -/
def sameLetter (c d : Char) : Bool := c.toLower == d.toLower

def sqliteLike (pattern text : List Char) : Bool :=
  (Like.parse '\\' (cString pattern)).any fun items => Like.matchItems sameLetter items (cString text)

/-- The operator `?` of `jsonb`: a key of an object, an item of an array, or the string itself. -/
def jsonbExists (key : String) : Json → Bool
  | .obj members => members.any fun member => member.1 == key
  | .arr items => items.any fun
    | .str s => s == key
    | _ => false
  | .str s => s == key
  | _ => false

def typePattern (key : String) : List Char := '%' :: '"' :: escapeLikePattern key.toList ++ ['"', ':', '%']

section Filter
variable (number : JsonNumber → List Char) (backend : Backend)

def typeHolds (key : String) (event : TaskEventType) : Bool :=
  match backend with
  | .postgres => jsonbExists key event.toJson
  | .sqlite => sqliteLike (typePattern key) (event.toJson.text number)

def TaskQueryCondition.holds (row : Row) : TaskQueryCondition → Bool
  | taskId id => row.id == id.toInt64
  | uuid agent => row.uuid == agent
  | timestampFromTo start stop => row.timestamp.any fun t => start ≤ t && t ≤ stop
  | timestampFrom start => row.timestamp.any (start ≤ ·)
  | timestampTo stop => row.timestamp.any (· ≤ stop)
  | isSuccess => row.success == some true
  | isFailure => row.success == some false
  | isRunning => row.success == none
  | taskType key => typeHolds number backend key row.taskEventType
  | cronSource source => row.cronSource == some source
  | limit _ | last => true

def selects (conditions : List TaskQueryCondition) (row : Row) : Bool :=
  conditions.all (TaskQueryCondition.holds number backend row)

end Filter

/-- On PostgreSQL a type selects the tasks of that name and no others. -/
theorem typeHolds_postgres (number : JsonNumber → List Char) (key : String) (event : TaskEventType) :
    typeHolds number .postgres key event = true ↔ key = event.taskName := by
  show jsonbExists key event.toJson = true ↔ _
  unfold TaskEventType.toJson
  rw [@eq_comm _ key]
  cases event.parameters? with
  | none => simp [jsonbExists]
  | some parameters => simp [jsonbExists]

/-! ### What the `LIKE` pattern finds -/

theorem escapeLikePattern_cons (c : Char) (key : List Char) :
    escapeLikePattern (c :: key) = escapeLikePattern [c] ++ escapeLikePattern key := by
  simp [escapeLikePattern, backslash]

/-- The three replacements put a backslash before each special character, once. -/
theorem escapeLikePattern_singleton (c : Char) :
    escapeLikePattern [c] = if c = '\\' ∨ c = '%' ∨ c = '_' then ['\\', c] else [c] := by
  by_cases h₁ : c = '\\'
  · subst h₁
    rfl
  by_cases h₂ : c = '%'
  · subst h₂
    rfl
  by_cases h₃ : c = '_'
  · subst h₃
    rfl
  simp [escapeLikePattern, backslash, h₁, h₂, h₃]

/-- An escaped text is read back as its characters. -/
theorem parse_escapeLikePattern (key rest : List Char) :
    Like.parse '\\' (escapeLikePattern key ++ rest) = (Like.parse '\\' rest).map (key.map .lit ++ ·) := by
  induction key with
  | nil =>
    show Like.parse '\\' rest = _
    cases Like.parse '\\' rest <;> rfl
  | cons c key ih =>
    rw [escapeLikePattern_cons, escapeLikePattern_singleton, List.append_assoc]
    have hmap : ((Like.parse '\\' rest).map (key.map .lit ++ ·)).map (.lit c :: ·) =
        (Like.parse '\\' rest).map ((c :: key).map .lit ++ ·) := by
      cases Like.parse '\\' rest <;> rfl
    split
    · show Like.parse '\\' ('\\' :: c :: (escapeLikePattern key ++ rest)) = _
      rw [Like.parse_escaped, ih, hmap]
    · rename_i hplain
      rw [not_or, not_or] at hplain
      show Like.parse '\\' (c :: (escapeLikePattern key ++ rest)) = _
      rw [Like.parse_plain _ hplain.1 hplain.2.1 hplain.2.2, ih, hmap]

theorem parse_typePattern (key : String) :
    Like.parse '\\' (typePattern key) = some (.any :: (('"' :: key.toList ++ ['"', ':']).map .lit ++ [.any])) := by
  have htail : Like.parse '\\' ['"', ':', '%'] = some [.lit '"', .lit ':', .any] := by decide
  show Like.parse '\\' ('%' :: '"' :: (escapeLikePattern key.toList ++ ['"', ':', '%'])) = _
  rw [Like.parse_any _ (by decide), Like.parse_plain _ (by decide) (by decide) (by decide),
    parse_escapeLikePattern, htail]
  simp

theorem mem_escapeLikePattern {c : Char} {key : List Char} (h : c ∈ escapeLikePattern key) : c = '\\' ∨ c ∈ key := by
  induction key with
  | nil => exact absurd h List.not_mem_nil
  | cons d key ih =>
    rw [escapeLikePattern_cons, List.mem_append, escapeLikePattern_singleton] at h
    rcases h with hd | hkey
    · split at hd
      · rcases List.mem_pair.mp hd with rfl | rfl
        · exact .inl rfl
        · exact .inr List.mem_cons_self
      · exact .inr (List.mem_singleton.mp hd ▸ List.mem_cons_self)
    · exact (ih hkey).imp id (List.mem_cons_of_mem d)

/-- **On SQLite a type selects every task whose stored text has the quoted key and a colon
somewhere**, up to the case of its letters. -/
theorem typeHolds_sqlite (number : JsonNumber → List Char) {key : String} (hkey : Char.ofNat 0 ∉ key.toList)
    (event : TaskEventType) :
    typeHolds number .sqlite key event = true ↔
      ∃ found, found <:+: cString (event.toJson.text number) ∧
        List.Forall₂ (fun c d => sameLetter c d = true) ('"' :: key.toList ++ ['"', ':']) found := by
  have hpattern : cString (typePattern key) = typePattern key := by
    refine List.takeWhile_eq_self_iff.mpr fun c hc => ?_
    have hne : c ≠ Char.ofNat 0 := by
      rintro rfl
      unfold typePattern at hc
      simp only [List.cons_append, List.mem_cons, List.mem_append] at hc
      rcases hc with hc | hc | hc | hc
      · exact absurd hc (by decide)
      · exact absurd hc (by decide)
      · rcases mem_escapeLikePattern hc with hc | hc
        · exact absurd hc (by decide)
        · exact hkey hc
      · exact absurd hc (by decide)
    exact decide_eq_true hne
  show sqliteLike (typePattern key) (event.toJson.text number) = true ↔ _
  unfold sqliteLike
  rw [hpattern, parse_typePattern]
  exact Like.matchItems_infix_iff ('"' :: key.toList ++ ['"', ':']) (cString (event.toJson.text number))

end NodeGet.Task
