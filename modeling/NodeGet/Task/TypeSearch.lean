import NodeGet.Core.JsonKeys
import NodeGet.Task.Access

/-! What the type condition of a task query finds (`ng-task/src/rpc/query.rs`).

PostgreSQL looks for a key of the stored value and finds the tasks of that type. SQLite
looks for the quoted name with a colon in the text of the value, which stands there at the
end of a member's name (`typeHolds_sqlite_iff`). A task without parameters is stored as a
string and is not found; an HTTP request is found under `ip`, which is one of its
parameters, and under the names of its headers (`type_exact_iff`). -/
namespace NodeGet.Task
open NodeGet.Core

/-! ### Letters without their case -/

def lower (text : List Char) : List Char := text.map Char.toLower

theorem forall₂_sameLetter_iff (a b : List Char) :
    List.Forall₂ (fun c d => sameLetter c d = true) a b ↔ lower a = lower b := by
  induction a generalizing b with
  | nil => cases b <;> simp [lower]
  | cons c a ih =>
    cases b with
    | nil => simp [lower]
    | cons d b =>
      rw [List.forall₂_cons, ih]
      simp [lower, sameLetter]

/-- A character below the small letters is what only itself becomes, or a capital letter. -/
theorem eq_of_toLower {c d : Char} (hc : c.toNat < 97) (h : d.toLower = c) : d = c := by
  unfold Char.toLower at h
  split at h
  next hupper =>
    have hvalue := congrArg Char.toNat h
    have hlow : 65 ≤ d.toNat := hupper.1
    have hhigh : d.toNat ≤ 90 := hupper.2
    have hsum : (d.toNat + 32) % 4294967296 = c.toNat := hvalue
    omega
  next => exact h

/-- The name is the word, or ends in a quote and the word, up to the case of its letters. -/
def NamedLike (word : String) (name : String) : Prop := lower ('"' :: word.toList) <:+ lower ('"' :: name.toList)

instance decidableNamedLike (word name : String) : Decidable (NamedLike word name) :=
  inferInstanceAs (Decidable (_ <:+ _))

theorem namedLike_iff (word name : String) :
    NamedLike word name ↔ ∃ tail, lower tail = lower word.toList ∧ EndsName tail name := by
  unfold NamedLike EndsName lower
  rw [List.suffix_map_iff]
  constructor
  · intro h
    obtain ⟨found, hfound, heq⟩ := h
    obtain ⟨c, tail, rfl, hc, htail⟩ := List.map_eq_cons_iff.mp heq.symm
    obtain rfl : c = '"' := eq_of_toLower (by decide) hc
    exact ⟨tail, htail, hfound⟩
  · intro h
    obtain ⟨tail, htail, hends⟩ := h
    exact ⟨_, hends, by rw [List.map_cons, List.map_cons, htail]⟩

variable {word : List Char} {key name : String}

theorem lower_quotedKey {tail : List Char} (h : lower tail = lower word) :
    lower (quotedKey tail) = lower (quotedKey word) := by
  unfold lower at h
  simp [quotedKey, lower, h]

theorem quotedKey_of_lower {found : List Char} (h : lower found = lower (quotedKey word)) :
    ∃ tail, lower tail = lower word ∧ found = quotedKey tail := by
  have hquoted : lower (quotedKey word) = '"' :: (lower word ++ ['"', ':']) := by
    simp only [quotedKey, lower, List.map_cons, List.map_append, List.map_nil, List.cons_append]
    rfl
  rw [hquoted] at h
  obtain ⟨c, rest, rfl, hc, hrest⟩ := List.map_eq_cons_iff.mp h
  obtain ⟨tail, last, rfl, htail, hlast⟩ := List.map_eq_append_iff.mp hrest
  obtain ⟨d, last, rfl, hd, hlast⟩ := List.map_eq_cons_iff.mp hlast
  obtain ⟨e, last, rfl, he, hlast⟩ := List.map_eq_cons_iff.mp hlast
  obtain rfl := List.map_eq_nil_iff.mp hlast
  obtain rfl : c = '"' := eq_of_toLower (by decide) hc
  obtain rfl : d = '"' := eq_of_toLower (by decide) hd
  obtain rfl : e = ':' := eq_of_toLower (by decide) he
  exact ⟨tail, htail, rfl⟩

/-! ### The text of a task -/

/-- No task has a number among its parameters. -/
theorem text_toJson (number : JsonNumber → List Char) (event : TaskEventType) :
    event.toJson.text number = event.toJson.text fun _ => [] := by
  have hoption : ∀ value, (TaskEventType.optionJson value).text number =
      (TaskEventType.optionJson value).text fun _ => [] := by
    intro value
    cases value <;> rfl
  cases event <;>
    simp [TaskEventType.toJson, TaskEventType.parameters?, Json.text, Json.memberTexts, Json.itemTexts_eq,
      Json.memberTexts_eq, Json.memberText, Function.comp_def, hoption]

theorem cString_toJson (event : TaskEventType) :
    cString (event.toJson.text fun _ => []) = event.toJson.text fun _ => [] := by
  refine List.takeWhile_eq_self_iff.mpr fun c hc => decide_eq_true ?_
  intro heq
  subst heq
  exact control_notMem_text (by decide) (fun _ => List.not_mem_nil) event.toJson hc

/-- The names of the members of the stored value. -/
theorem keys_toJson (event : TaskEventType) :
    event.toJson.keys = event.parameters?.elim [] fun parameters => event.taskName :: parameters.keys := by
  unfold TaskEventType.toJson
  cases event.parameters? with
  | none => rfl
  | some parameters => simp [Json.keys, Json.memberKeys]

/-- A word that differs from a known name in the case of its letters. -/
theorem plainWord_of_lower (hkey : key ∈ allTaskTypes) (h : lower word = lower key.toList) : PlainWord word := by
  have hnames : ∀ key ∈ allTaskTypes, key.toList ≠ [] ∧ ((lower key.toList).all fun c =>
      decide (c ∉ lower (escapedChars ++ [',', ':', ']', Char.ofNat 125]))) = true := by decide +kernel
  obtain ⟨hne, hclean⟩ := hnames key hkey
  have hword : ∀ c ∈ word, c ∉ escapedChars ++ [',', ':', ']', Char.ofNat 125] := by
    intro c hc hmem
    have hlower : c.toLower ∈ lower key.toList := h ▸ List.mem_map_of_mem hc
    exact forall_mem_of_all hclean _ hlower (List.mem_map_of_mem hmem)
  refine ⟨?_, fun c hc hmem => hword c hc (List.mem_append_left _ hmem),
    fun c hc hmem => hword c hc (List.mem_append_right _ hmem)⟩
  intro hnil
  rw [hnil] at h
  exact hne (List.map_eq_nil_iff.mp h.symm)

/-- On SQLite a known name finds the tasks with a member whose name is like it. -/
theorem typeHolds_sqlite_keys (number : JsonNumber → List Char) (hkey : key ∈ allTaskTypes) (event : TaskEventType) :
    typeHolds number .sqlite key event = true ↔ ∃ name ∈ event.toJson.keys, NamedLike key name := by
  have hnul : ∀ key ∈ allTaskTypes, Char.ofNat 0 ∉ key.toList := by decide
  rw [typeHolds_sqlite number (hnul key hkey), text_toJson, cString_toJson]
  simp only [forall₂_sameLetter_iff, namedLike_iff]
  constructor
  · intro h
    obtain ⟨found, hfound, heq⟩ := h
    obtain ⟨tail, htail, rfl⟩ := quotedKey_of_lower heq.symm
    obtain ⟨name, hname, hends⟩ :=
      (quotedKey_infix_text_iff (fun _ => List.not_mem_nil) (plainWord_of_lower hkey htail) _).mp hfound
    exact ⟨name, hname, tail, htail, hends⟩
  · intro h
    obtain ⟨name, hname, tail, htail, hends⟩ := h
    refine ⟨quotedKey tail, ?_, (lower_quotedKey htail).symm⟩
    exact (quotedKey_infix_text_iff (fun _ => List.not_mem_nil) (plainWord_of_lower hkey htail) _).mpr
      ⟨name, hname, hends⟩

/-! ### Which tasks are found -/

/-- The names of parameters that no task has as its name. -/
def parameterNames : List String :=
  ["terminal_id", "url", "args", "cmd", "body", "body_base64", "headers", "method", "dns_server", "domain",
    "record_types"]

theorem namedLike_fixed (hkey : key ∈ allTaskTypes) (hname : name ∈ allTaskTypes ++ parameterNames) :
    NamedLike key name ↔ key = name := by
  have hall : ∀ key ∈ allTaskTypes, ∀ name ∈ allTaskTypes ++ parameterNames, NamedLike key name ↔ key = name := by
    decide +kernel
  exact hall key hkey name hname

theorem not_namedLike_parameter (hkey : key ∈ allTaskTypes) (hname : name ∈ parameterNames) : ¬NamedLike key name := by
  have hother : ∀ key ∈ allTaskTypes, key ∉ parameterNames := by decide
  rw [namedLike_fixed hkey (List.mem_append_right _ hname)]
  intro heq
  exact hother key hkey (heq ▸ hname)

/-- An HTTP request is found under another name: `ip` is a parameter of every one, and each
header is a member with the header's name. -/
def HttpRequestTask.Mentions (task : HttpRequestTask) (key : String) : Prop :=
  key = "ip" ∨ ∃ header ∈ task.headers.entries, NamedLike key header.1

instance decidableMentions (task : HttpRequestTask) (key : String) : Decidable (task.Mentions key) :=
  inferInstanceAs (Decidable (_ ∨ _))

/-- The members inside the parameters: those of a fixed name, and what an HTTP request adds. -/
theorem mem_parameterKeys {event : TaskEventType} {parameters : Json} (h : event.parameters? = some parameters)
    (name : String) (hname : name ∉ parameterNames) :
    name ∈ parameters.keys ↔
      ∃ task, event = .httpRequest task ∧ (name = "ip" ∨ ∃ header ∈ task.headers.entries, header.1 = name) := by
  have hoption : ∀ value, (TaskEventType.optionJson value).keys = [] := by
    intro value
    cases value <;> rfl
  have hheaders : ∀ entries : List (String × String),
      Json.memberKeys (entries.map fun header => (header.1, Json.str header.2)) = entries.map (·.1) := by
    intro entries
    induction entries with
    | nil => rfl
    | cons header rest ih => simp [Json.memberKeys, Json.keys, ih]
  have hstrings : ∀ strings : List String, Json.itemKeys (strings.map Json.str) = [] := by
    intro strings
    simp [Json.itemKeys_eq, Json.keys]
  have htypes : ∀ types : List DnsRecordType, Json.itemKeys (types.map fun r => Json.str r.name) = [] := by
    intro types
    simp [Json.itemKeys_eq, Json.keys]
  simp only [parameterNames, List.mem_cons, List.not_mem_nil, or_false, not_or] at hname
  cases event with
  | httpRequest task =>
    cases h
    simp [Json.keys, Json.memberKeys, hoption, hheaders, hname, or_comm]
  | _ =>
    cases h <;> simp [Json.keys, Json.memberKeys, hoption, hstrings, htypes, hname]

/-- **On SQLite a known name finds the tasks of that name that have parameters, and the HTTP
requests that mention it.** -/
theorem typeHolds_sqlite_iff (number : JsonNumber → List Char) (hkey : key ∈ allTaskTypes) (event : TaskEventType) :
    typeHolds number .sqlite key event = true ↔
      (event.taskName = key ∧ event.parameters?.isSome = true) ∨
        ∃ task, event = .httpRequest task ∧ task.Mentions key := by
  rw [typeHolds_sqlite_keys number hkey, keys_toJson]
  cases hparameters : event.parameters? with
  | none =>
    have hother : ∀ task, event ≠ .httpRequest task := by
      intro task heq
      rw [heq] at hparameters
      cases hparameters
    simp [hother]
  | some parameters =>
    have hown : NamedLike key event.taskName ↔ event.taskName = key := by
      rw [namedLike_fixed hkey (List.mem_append_left _ (taskName_mem event)), eq_comm]
    have hip : NamedLike key "ip" ↔ key = "ip" := namedLike_fixed hkey (by decide)
    have hinside : (∃ name ∈ parameters.keys, NamedLike key name) ↔
        ∃ task, event = .httpRequest task ∧ task.Mentions key := by
      constructor
      · intro h
        obtain ⟨name, hmem, hlike⟩ := h
        have hname : name ∉ parameterNames := fun hname => not_namedLike_parameter hkey hname hlike
        obtain ⟨task, hevent, hcases⟩ := (mem_parameterKeys hparameters name hname).mp hmem
        refine ⟨task, hevent, ?_⟩
        rcases hcases with rfl | ⟨header, hheader, rfl⟩
        · exact .inl (hip.mp hlike)
        · exact .inr ⟨header, hheader, hlike⟩
      · intro h
        obtain ⟨task, hevent, hmentions⟩ := h
        rcases hmentions with hkey' | ⟨header, hheader, hlike⟩
        · exact ⟨"ip", (mem_parameterKeys hparameters "ip" (by decide)).mpr ⟨task, hevent, .inl rfl⟩, hip.mpr hkey'⟩
        · refine ⟨header.1, (mem_parameterKeys hparameters header.1 ?_).mpr ⟨task, hevent, .inr ⟨header, hheader, rfl⟩⟩,
            hlike⟩
          exact fun hname => not_namedLike_parameter hkey hname hlike
    simp [hown, hinside]

/-- On SQLite the task is found under its own name and under no other: it has parameters if it
is looked for, and is no HTTP request that mentions the name of another task. -/
def FoundRightly (key : String) (event : TaskEventType) : Prop :=
  (event.taskName = key → event.parameters?.isSome = true) ∧
    ∀ task, event = .httpRequest task → task.Mentions key → key = "http_request"

theorem typeHolds_sqlite_exact_iff (number : JsonNumber → List Char) (hkey : key ∈ allTaskTypes)
    (event : TaskEventType) :
    (typeHolds number .sqlite key event = true ↔ event.taskName = key) ↔ FoundRightly key event := by
  rw [typeHolds_sqlite_iff number hkey, FoundRightly]
  have hname : ∀ task, event = .httpRequest task → event.taskName = "http_request" := by
    intro task heq
    rw [heq]
    rfl
  constructor
  · intro h
    constructor
    · intro hown
      rcases h.mpr hown with hfound | ⟨task, hevent, -⟩
      · exact hfound.2
      · rw [hevent]
        rfl
    · intro task hevent hmentions
      rw [← h.mp (.inr ⟨task, hevent, hmentions⟩), hname task hevent]
  · intro h
    obtain ⟨hparameters, hothers⟩ := h
    constructor
    · intro hfound
      rcases hfound with hfound | ⟨task, hevent, hmentions⟩
      · exact hfound.1
      · rw [hname task hevent, hothers task hevent hmentions]
    · intro hown
      exact .inl ⟨hown, hparameters hown⟩

/-- **A type condition with a known name selects exactly the tasks of that name on PostgreSQL,
and on SQLite exactly when every task of the table is found rightly.** -/
theorem type_exact_iff (number : JsonNumber → List Char) (backend : Backend) (key : String)
    (hkey : key ∈ allTaskTypes) (table : Table) :
    (∀ row ∈ table.rows, selects number backend [.taskType key] row = true ↔ row.taskEventType.taskName = key) ↔
      (backend = .sqlite → ∀ row ∈ table.rows, FoundRightly key row.taskEventType) := by
  have hselects : ∀ row, selects number backend [.taskType key] row = typeHolds number backend key row.taskEventType := by
    intro row
    simp [selects, TaskQueryCondition.holds]
  simp only [hselects]
  cases backend with
  | sqlite =>
    simp only [forall_const]
    exact forall₂_congr fun row _ => typeHolds_sqlite_exact_iff number hkey row.taskEventType
  | postgres =>
    refine iff_of_true (fun row _ => ?_) fun h => by cases h
    rw [typeHolds_postgres, eq_comm]

section Example

/-- The agent 0 is given a task. -/
private def givenTask (id : Int64) (event : TaskEventType) : Row := ⟨id, 0, none, none, none, none, event, none⟩

/-- A ping and a DNS lookup. -/
private def pingAndDns : Table :=
  ⟨[givenTask 1 (.ping "ping"), givenTask 2 (.dns ⟨"ping", [], none⟩)], by decide⟩

/-- The name is found in the one and not in the texts of the other. -/
theorem type_exact_ping :
    "ping" ∈ allTaskTypes ∧ ∀ row ∈ pingAndDns.rows,
      (selects (fun _ => []) .sqlite [.taskType "ping"] row = true ↔ row.taskEventType.taskName = "ping") := by
  refine ⟨by decide, (type_exact_iff _ .sqlite "ping" (by decide) pingAndDns).mpr fun _ row hrow => ?_⟩
  rcases List.mem_pair.mp hrow with rfl | rfl
  · exact ⟨fun _ => rfl, fun task hevent => by cases hevent⟩
  · exact ⟨fun _ => rfl, fun task hevent => by cases hevent⟩

/-- A request without headers. -/
private def plainRequest : HttpRequestTask := ⟨"http://a/", "GET", ⟨[], List.Pairwise.nil⟩, none, none, none⟩

/-- On SQLite the type `ip` finds every HTTP request and no `ip` task. -/
theorem ip_finds_http_request :
    "ip" ∈ allTaskTypes ∧
      (selects (fun _ => []) .sqlite [.taskType "ip"] (givenTask 1 .ip) = false ∧
        selects (fun _ => []) .sqlite [.taskType "ip"] (givenTask 2 (.httpRequest plainRequest)) = true) ∧
      selects (fun _ => []) .postgres [.taskType "ip"] (givenTask 1 .ip) = true ∧
        selects (fun _ => []) .postgres [.taskType "ip"] (givenTask 2 (.httpRequest plainRequest)) = false := by
  decide +kernel

end Example

end NodeGet.Task
