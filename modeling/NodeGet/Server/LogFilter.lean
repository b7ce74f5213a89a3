import Mathlib.Data.List.MinMax
import Mathlib.Data.List.Sort
import NodeGet.Core.Text

/-! The filter of a subscriber to the log stream (`server/src/logging/mod.rs`:
`expand_virtual_targets`, `StreamFilter::parse`, `StreamFilter::is_enabled`).

The text is split into directives twice, first to write out the targets that `db` stands for and
then to read the levels. The targets are sorted by their length, so that the first one that is the
start of an event's target is the longest. -/
namespace NodeGet.Server.LogFilter
open NodeGet.Core

inductive LevelFilter where
  | off | error | warn | info | debug | trace
deriving DecidableEq

def LevelFilter.rank : LevelFilter → Nat
  | off => 0
  | error => 1
  | warn => 2
  | info => 3
  | debug => 4
  | trace => 5

inductive Level where
  | error | warn | info | debug | trace
deriving DecidableEq

def Level.filter : Level → LevelFilter
  | error => .error
  | warn => .warn
  | info => .info
  | debug => .debug
  | trace => .trace

def levelNames : List (List Char × LevelFilter) :=
  [("off".toList, .off), ("error".toList, .error), ("warn".toList, .warn), ("info".toList, .info),
    ("debug".toList, .debug), ("trace".toList, .trace)]

/-- The names are in lower case, and no other character than their own letters is lowered to one of theirs. -/
def parseLevelFilter (s : List Char) : Option LevelFilter := levelNames.lookup (s.map Char.toLower)

/-- What is between the commas, trimmed; empty parts are passed over. -/
def pieces (filter : List Char) : List (List Char) :=
  ((filter.splitOn ',').map fun directive => trim (String.ofList directive)).filter (· ≠ [])

def databaseTargets : List (List Char) :=
  ["db".toList, "sea_orm".toList, "sea_orm_migration".toList, "sqlx".toList]

def expandDirective (directive : List Char) : List (List Char) :=
  if "db=".toList.isPrefixOf directive then
    let level := directive.drop 3
    databaseTargets.map fun target => target ++ '=' :: level
  else if directive = "db".toList then databaseTargets
  else [directive]

def expandVirtualTargets (filter : List Char) : List Char := [','].intercalate ((pieces filter).flatMap expandDirective)

/-- A target and the level of its events. -/
abbrev Rule := List Char × LevelFilter

structure StreamFilter where
  defaultLevel : LevelFilter
  targets : List Rule

def readDirective (read : LevelFilter × List Rule) (directive : List Char) : LevelFilter × List Rule :=
  match splitOnceList '=' directive with
  | some (target, levelStr) =>
    match parseLevelFilter (trim (String.ofList levelStr)) with
    | some level => (read.1, read.2 ++ [(trim (String.ofList target), level)])
    | none => read
  | none =>
    match parseLevelFilter directive with
    | some level => (level, read.2)
    | none => read

/-- Sorted by length in bytes, longest first; equals keep their order. -/
def sortByLength (targets : List Rule) : List Rule := targets.insertionSort fun a b => utf8Len b.1 ≤ utf8Len a.1

def StreamFilter.parse (filter : List Char) : StreamFilter :=
  let (defaultLevel, targets) := (pieces filter).foldl readDirective (.off, [])
  ⟨defaultLevel, sortByLength targets⟩

def StreamFilter.isEnabled (f : StreamFilter) (target : List Char) (level : Level) : Bool :=
  match f.targets.find? fun rule => rule.1 <+: target with
  | some rule => level.filter.rank ≤ rule.2.rank
  | none => level.filter.rank ≤ f.defaultLevel.rank

/-! ### Directives and what they mean -/

inductive Directive where
  | level (name : List Char)
  | target (name : List Char)
  | targetLevel (name levelName : List Char)

def Directive.text : Directive → List Char
  | level name => name
  | target name => name
  | targetLevel name levelName => name ++ '=' :: levelName

/-- Without what separates directives and their parts. -/
structure Plain (name : List Char) : Prop where
  nonempty : name ≠ []
  noEquals : '=' ∉ name
  noComma : ',' ∉ name
  noSpace : ∀ c ∈ name, isWhitespace c = false

def Directive.WellFormed : Directive → Prop
  | level name => (parseLevelFilter name).isSome
  | target name => Plain name ∧ parseLevelFilter name = none
  | targetLevel name levelName => Plain name ∧ (parseLevelFilter levelName).isSome

def filterText (ds : List Directive) : List Char := [','].intercalate (ds.map Directive.text)

/-- The targets that a name stands for. -/
def targetsOf (name : List Char) : List (List Char) := if name = "db".toList then databaseTargets else [name]

def levelOf (name : List Char) : LevelFilter := (parseLevelFilter name).getD .off

/-- The targets that are given with a level. -/
def Directive.leveled : Directive → List Rule
  | level _ | target _ => []
  | targetLevel name levelName => (targetsOf name).map fun t => (t, levelOf levelName)

/-- All targets; one that stands alone has all levels. -/
def Directive.rules : Directive → List Rule
  | level _ => []
  | target name => (targetsOf name).map fun t => (t, .trace)
  | targetLevel name levelName => (targetsOf name).map fun t => (t, levelOf levelName)

def Directive.bareLevel : Directive → Option LevelFilter
  | level name => some (levelOf name)
  | target _ | targetLevel _ _ => none

/-- The last level that stands alone. -/
def defaultLevel (ds : List Directive) : LevelFilter := ds.foldl (fun l d => d.bareLevel.getD l) .off

/-- The rule, if the event's target starts with its target and that is no shorter than the other one's. -/
def better (e : List Char) (rule : Rule) : Option Rule → Option Rule
  | none => if rule.1 <+: e then some rule else none
  | some best => if rule.1 <+: e ∧ utf8Len best.1 ≤ utf8Len rule.1 then some rule else some best

/-- The first of the rules whose target is longest among those that the event's target starts with. -/
def decisive (e : List Char) (rules : List Rule) : Option Rule := rules.foldr (better e) none

def levelFor (rules : List Rule) (l : LevelFilter) (e : List Char) : LevelFilter := ((decisive e rules).map (·.2)).getD l

/-- The environment filter's level for a target: the longest target decides, and the last of equal ones. -/
def envLevel (ds : List Directive) (e : List Char) : LevelFilter :=
  levelFor (ds.flatMap Directive.rules).reverse (defaultLevel ds) e

/-! ### Reading the text -/

section Text
variable {name text : List Char}

/-- What a part of the text has to be to be read back. -/
structure Clean (text : List Char) : Prop where
  nonempty : text ≠ []
  noComma : ',' ∉ text
  noSpace : ∀ c ∈ text, isWhitespace c = false

theorem trim_plain (h : ∀ c ∈ text, isWhitespace c = false) : trim (String.ofList text) = text := by
  have hkeep (l : List Char) (hl : ∀ c ∈ l, isWhitespace c = false) : l.dropWhile isWhitespace = l := by
    cases l with
    | nil => rfl
    | cons c l => rw [List.dropWhile_cons, hl c List.mem_cons_self, if_neg Bool.false_ne_true]
  rw [trim, String.toList_ofList, hkeep text h, hkeep _ (by simpa using h), List.reverse_reverse]

theorem pieces_intercalate {texts : List (List Char)}
    (h : ∀ text ∈ texts, Clean text) :
    pieces ([','].intercalate texts) = texts := by
  rcases texts.eq_nil_or_concat with rfl | hne
  · decide +kernel
  · have hne : texts ≠ [] := by
      obtain ⟨init, last, rfl⟩ := hne
      simp
    rw [pieces, List.splitOn_intercalate ',' (fun text htext => (h text htext).noComma) hne]
    have htrim : texts.map (fun directive => trim (String.ofList directive)) = texts := by
      conv_rhs => rw [← List.map_id texts]
      exact List.map_congr_left fun text htext => trim_plain (h text htext).noSpace
    rw [htrim, List.filter_eq_self.mpr fun text htext => by simpa using (h text htext).nonempty]

theorem letter_of_toLower {c : Char} (h : 97 ≤ c.toLower.toNat ∧ c.toLower.toNat ≤ 122) :
    65 ≤ c.toNat ∧ c.toNat ≤ 90 ∨ 97 ≤ c.toNat ∧ c.toNat ≤ 122 := by
  unfold Char.toLower at h
  split at h
  · next hupper => exact .inl ⟨hupper.1, hupper.2⟩
  · exact .inr h

/-- A level's name has nothing but letters. -/
theorem plain_of_level (h : (parseLevelFilter name).isSome) : Plain name := by
  obtain ⟨l, hl⟩ := Option.isSome_iff_exists.mp h
  obtain ⟨before, after, hnames, -⟩ := List.lookup_eq_some_iff.mp hl
  have hword : ∀ rule ∈ levelNames, rule.1 ≠ [] ∧ ∀ c ∈ rule.1, 97 ≤ c.toNat ∧ c.toNat ≤ 122 := by
    simp [levelNames]
  obtain ⟨hne, hletters⟩ := hword (name.map Char.toLower, l) (by rw [hnames]; simp)
  have hletter (c : Char) (hc : c ∈ name) := letter_of_toLower (hletters c.toLower (List.mem_map_of_mem hc))
  refine ⟨by simpa using hne, fun hc => ?_, fun hc => ?_, fun c hc => ?_⟩
  · exact absurd (hletter '=' hc) (by decide)
  · exact absurd (hletter ',' hc) (by decide)
  · have hrange := hletter c hc
    simp only [isWhitespace, Bool.or_eq_false_iff, Bool.and_eq_false_iff, decide_eq_false_iff_not, beq_eq_false_iff_ne]
    omega

theorem Plain.clean (h : Plain name) : Clean name := ⟨h.nonempty, h.noComma, h.noSpace⟩

theorem Plain.clean_append (h : Plain name) (htext : Clean text) : Clean (name ++ '=' :: text) where
  nonempty := by simp
  noComma := by simp [h.noComma, htext.noComma]
  noSpace c hc := by
    rcases List.mem_append.mp hc with hc | hc
    · exact h.noSpace c hc
    · rcases List.mem_cons.mp hc with rfl | hc
      · rfl
      · exact htext.noSpace c hc

theorem plain_database : ∀ t ∈ databaseTargets, Plain t ∧ parseLevelFilter t = none := by
  have h : ∀ t ∈ databaseTargets, t ≠ [] ∧ '=' ∉ t ∧ ',' ∉ t ∧ (∀ c ∈ t, isWhitespace c = false) ∧
      parseLevelFilter t = none := by
    simp [databaseTargets, isWhitespace, parseLevelFilter, levelNames, List.lookup_cons]
  intro t ht
  obtain ⟨hne, hequals, hcomma, hspace, hlevel⟩ := h t ht
  exact ⟨⟨hne, hequals, hcomma, hspace⟩, hlevel⟩

theorem plain_targetsOf (h : Plain name) : ∀ t ∈ targetsOf name, Plain t := by
  intro t ht
  unfold targetsOf at ht
  split_ifs at ht
  · exact (plain_database t ht).1
  · rw [List.mem_singleton.mp ht]
    exact h

theorem expand_plain (h : Plain name) : expandDirective name = targetsOf name := by
  have hprefix : "db=".toList.isPrefixOf name = false := by
    refine Bool.eq_false_iff.mpr fun hname => h.noEquals ?_
    obtain ⟨rest, rfl⟩ := List.isPrefixOf_iff_prefix.mp hname
    simp
  rw [expandDirective, hprefix, if_neg Bool.false_ne_true, targetsOf]

theorem expand_targetLevel (h : Plain name) (levelName : List Char) :
    expandDirective (name ++ '=' :: levelName) = (targetsOf name).map fun t => t ++ '=' :: levelName := by
  have hsplit := splitOnceList_append h.noEquals levelName
  by_cases hname : name = "db".toList
  · rw [hname]
    rfl
  · have hprefix : "db=".toList.isPrefixOf (name ++ '=' :: levelName) = false := by
      refine Bool.eq_false_iff.mpr fun htext => hname ?_
      obtain ⟨rest, hrest⟩ := List.isPrefixOf_iff_prefix.mp htext
      have hdb : splitOnceList '=' ("db=".toList ++ rest) = some ("db".toList, rest) := rfl
      rw [hrest, hsplit] at hdb
      exact congrArg Prod.fst (Option.some.inj hdb)
    have hequals : name ++ '=' :: levelName ≠ "db".toList := by
      intro heq
      rw [heq] at hsplit
      cases hsplit
    rw [expandDirective, hprefix, if_neg Bool.false_ne_true, if_neg hequals, targetsOf, if_neg hname, List.map_singleton]

theorem read_targetLevel (read : LevelFilter × List Rule) (h : Plain name) {levelName : List Char}
    (hlevel : (parseLevelFilter levelName).isSome) :
    readDirective read (name ++ '=' :: levelName) = (read.1, read.2 ++ [(name, levelOf levelName)]) := by
  obtain ⟨l, hl⟩ := Option.isSome_iff_exists.mp hlevel
  have htrim := trim_plain (plain_of_level hlevel).noSpace
  simp only [readDirective, splitOnceList_append h.noEquals, htrim, trim_plain h.noSpace, hl, levelOf, Option.getD_some]

theorem read_plain (read : LevelFilter × List Rule) (h : Plain name) :
    readDirective read name = ((parseLevelFilter name).getD read.1, read.2) := by
  rw [readDirective, splitOnceList_eq_none h.noEquals]
  cases parseLevelFilter name <;> rfl

/-- What the parts of a directive are read as. -/
theorem read_directive (read : LevelFilter × List Rule) {d : Directive} (hd : d.WellFormed) :
    (expandDirective d.text).foldl readDirective read = (d.bareLevel.getD read.1, read.2 ++ d.leveled) := by
  cases d with
  | level name =>
    obtain ⟨l, hl⟩ := Option.isSome_iff_exists.mp hd
    have hname : name ≠ "db".toList := fun heq => by
      rw [heq] at hl
      cases hl
    rw [Directive.text, expand_plain (plain_of_level hd), targetsOf, if_neg hname, List.foldl_cons, List.foldl_nil,
      read_plain read (plain_of_level hd), hl]
    simp [Directive.bareLevel, Directive.leveled, levelOf, hl]
  | target name =>
    have hnone : ∀ t ∈ targetsOf name, Plain t ∧ parseLevelFilter t = none := by
      intro t ht
      unfold targetsOf at ht
      split_ifs at ht
      · exact plain_database t ht
      · rw [List.mem_singleton.mp ht]
        exact hd
    rw [Directive.text, expand_plain hd.1]
    simp only [Directive.bareLevel, Directive.leveled, Option.getD_none, List.append_nil]
    generalize targetsOf name = ts at hnone
    induction ts with
    | nil => rfl
    | cons t ts ih =>
      obtain ⟨⟨ht, hlevel⟩, hts⟩ := List.forall_mem_cons.mp hnone
      rw [List.foldl_cons, read_plain read ht, hlevel]
      exact ih hts
  | targetLevel name levelName =>
    have hplain := plain_targetsOf hd.1
    rw [Directive.text, expand_targetLevel hd.1]
    simp only [Directive.bareLevel, Directive.leveled, Option.getD_none]
    generalize targetsOf name = ts at hplain
    induction ts generalizing read with
    | nil => simp
    | cons t ts ih =>
      obtain ⟨ht, hts⟩ := List.forall_mem_cons.mp hplain
      rw [List.map_cons, List.foldl_cons, read_targetLevel read ht hd.2, ih _ hts]
      simp

theorem read_directives (read : LevelFilter × List Rule) {ds : List Directive} (hds : ∀ d ∈ ds, d.WellFormed) :
    ((ds.map Directive.text).flatMap expandDirective).foldl readDirective read =
      (ds.foldl (fun l d => d.bareLevel.getD l) read.1, read.2 ++ ds.flatMap Directive.leveled) := by
  induction ds generalizing read with
  | nil => simp
  | cons d ds ih =>
    obtain ⟨hd, hds⟩ := List.forall_mem_cons.mp hds
    rw [List.map_cons, List.flatMap_cons, List.foldl_append, read_directive read hd, ih _ hds]
    simp

theorem text_clean {d : Directive} (hd : d.WellFormed) : Clean d.text := by
  cases d with
  | level name => exact (plain_of_level hd).clean
  | target name => exact hd.1.clean
  | targetLevel name levelName => exact hd.1.clean_append (plain_of_level hd.2).clean

theorem expand_clean {d : Directive} (hd : d.WellFormed) : ∀ part ∈ expandDirective d.text, Clean part := by
  intro part hpart
  cases d with
  | level name =>
    rw [Directive.text, expand_plain (plain_of_level hd)] at hpart
    exact (plain_targetsOf (plain_of_level hd) part hpart).clean
  | target name =>
    rw [Directive.text, expand_plain hd.1] at hpart
    exact (plain_targetsOf hd.1 part hpart).clean
  | targetLevel name levelName =>
    rw [Directive.text, expand_targetLevel hd.1] at hpart
    obtain ⟨t, ht, rfl⟩ := List.mem_map.mp hpart
    exact (plain_targetsOf hd.1 t ht).clean_append (plain_of_level hd.2).clean

theorem parse_filterText {ds : List Directive} (hds : ∀ d ∈ ds, d.WellFormed) :
    StreamFilter.parse (expandVirtualTargets (filterText ds)) =
      ⟨defaultLevel ds, sortByLength (ds.flatMap Directive.leveled)⟩ := by
  have htexts : pieces (filterText ds) = ds.map Directive.text :=
    pieces_intercalate (List.forall_mem_map.mpr fun d hd => text_clean (hds d hd))
  have hparts : pieces (expandVirtualTargets (filterText ds)) = (ds.map Directive.text).flatMap expandDirective := by
    rw [expandVirtualTargets, htexts]
    refine pieces_intercalate fun part hpart => ?_
    obtain ⟨text, htext, hpart⟩ := List.mem_flatMap.mp hpart
    obtain ⟨d, hd, rfl⟩ := List.mem_map.mp htext
    exact expand_clean (hds d hd) part hpart
  simp only [StreamFilter.parse, hparts, read_directives _ hds, List.nil_append, defaultLevel]

end Text

/-! ### The longest target -/

section Longest
variable {e : List Char} {rules : List Rule}

theorem sorted_sortByLength (rules : List Rule) :
    (sortByLength rules).Pairwise fun a b => utf8Len b.1 ≤ utf8Len a.1 :=
  haveI : Std.Total fun a b : Rule => utf8Len b.1 ≤ utf8Len a.1 := ⟨fun _ _ => le_total ..⟩
  haveI : IsTrans Rule fun a b => utf8Len b.1 ≤ utf8Len a.1 := ⟨fun _ _ _ hab hbc => hbc.trans hab⟩
  List.pairwise_insertionSort ..

/-- In a sorted list, the first that fits is the longest. -/
theorem find_orderedInsert (rule : Rule) (hsorted : rules.Pairwise fun a b => utf8Len b.1 ≤ utf8Len a.1) :
    ((rules.orderedInsert (fun a b => utf8Len b.1 ≤ utf8Len a.1) rule).find? fun r => r.1 <+: e) =
      better e rule (rules.find? fun r => r.1 <+: e) := by
  induction rules with
  | nil => simp [List.find?, better]
  | cons first rest ih =>
    obtain ⟨hfirst, hrest⟩ := List.pairwise_cons.mp hsorted
    rw [List.orderedInsert_cons]
    split_ifs with hle
    · rw [List.find?_cons]
      cases hfound : (first :: rest).find? fun r => r.1 <+: e with
      | none => by_cases hfit : rule.1 <+: e <;> simp [better, hfit]
      | some best =>
        have hbest : utf8Len best.1 ≤ utf8Len rule.1 := by
          rcases List.mem_cons.mp (List.mem_of_find?_eq_some hfound) with rfl | hmem
          · exact hle
          · exact (hfirst best hmem).trans hle
        by_cases hfit : rule.1 <+: e <;> simp [better, hfit, hbest]
    · rw [List.find?_cons, List.find?_cons, ih hrest]
      by_cases hfit : first.1 <+: e <;> simp [better, hfit, hle]

theorem find_sortByLength (rules : List Rule) (e : List Char) :
    ((sortByLength rules).find? fun rule => rule.1 <+: e) = decisive e rules := by
  induction rules with
  | nil => rfl
  | cons rule rules ih =>
    rw [decisive, List.foldr_cons, ← decisive, ← ih]
    exact find_orderedInsert rule (sorted_sortByLength rules)

theorem decisive_congr {e' : List Char} (h : ∀ rule ∈ rules, rule.1 <+: e ↔ rule.1 <+: e') :
    decisive e rules = decisive e' rules := by
  induction rules with
  | nil => rfl
  | cons rule rules ih =>
    obtain ⟨hrule, hrules⟩ := List.forall_mem_cons.mp h
    have hih := ih hrules
    simp only [decisive, List.foldr_cons] at hih ⊢
    rw [hih]
    cases rules.foldr (better e') none <;> simp only [better, hrule]

theorem decisive_none (h : ∀ rule ∈ rules, ¬rule.1 <+: e) : decisive e rules = none := by
  induction rules with
  | nil => rfl
  | cons rule rules ih =>
    obtain ⟨hrule, hrules⟩ := List.forall_mem_cons.mp h
    rw [decisive, List.foldr_cons, ← decisive, ih hrules, better, if_neg hrule]

theorem exists_longest (rules : List Rule) (e : List Char) :
    (∀ rule ∈ rules, ¬rule.1 <+: e) ∨
      ∃ best ∈ rules, best.1 <+: e ∧ ∀ rule ∈ rules, rule.1 <+: e → utf8Len rule.1 ≤ utf8Len best.1 := by
  by_cases hnone : rules.filter (fun r => r.1 <+: e) = []
  · exact .inl fun rule hrule hfit => List.filter_eq_nil_iff.mp hnone rule hrule (by simpa using hfit)
  · obtain ⟨best, hbest⟩ := Option.ne_none_iff_exists'.mp (mt (List.argmax_eq_none (f := fun r => utf8Len r.1)).mp hnone)
    obtain ⟨hmem, hfit⟩ := List.mem_filter.mp (List.argmax_mem hbest)
    refine .inr ⟨best, hmem, by simpa using hfit, fun rule hrule hstarts => ?_⟩
    exact List.le_of_mem_argmax (f := fun r : Rule => utf8Len r.1) (List.mem_filter.mpr ⟨hrule, by simpa using hstarts⟩) hbest

theorem prefix_of_utf8Len_le {a b : List Char} (ha : a <+: e) (hb : b <+: e) (hle : utf8Len a ≤ utf8Len b) : a <+: b := by
  rcases List.prefix_or_prefix_of_prefix ha hb with h | ⟨rest, rfl⟩
  · exact h
  · cases rest with
    | nil => simp
    | cons c rest =>
      have hpos := c.utf8Size_pos
      simp only [utf8Len_append, utf8Len_cons] at hle
      omega

/-- The level of any event is that of a target among the rules. -/
theorem exists_target (rules : List Rule) (e : List Char) :
    (∀ rule ∈ rules, ¬rule.1 <+: e) ∨ ∃ best ∈ rules, ∀ rule ∈ rules, rule.1 <+: e ↔ rule.1 <+: best.1 := by
  refine (exists_longest rules e).imp_right fun ⟨best, hbest, hfit, hlongest⟩ => ⟨best, hbest, fun rule hrule => ?_⟩
  exact ⟨fun h => prefix_of_utf8Len_le h hfit (hlongest rule hrule h), fun h => h.trans hfit⟩

end Longest

theorem leveled_subset (ds : List Directive) : ds.flatMap Directive.leveled ⊆ ds.flatMap Directive.rules := by
  intro rule hrule
  obtain ⟨d, hd, hrule⟩ := List.mem_flatMap.mp hrule
  refine List.mem_flatMap.mpr ⟨d, hd, ?_⟩
  cases d with
  | level | target => cases hrule
  | targetLevel => exact hrule

theorem rank_eq {l l' : LevelFilter} (h : ∀ v : Level, v.filter.rank ≤ l.rank ↔ v.filter.rank ≤ l'.rank) : l = l' := by
  have herror := h .error
  have hwarn := h .warn
  have hinfo := h .info
  have hdebug := h .debug
  have htrace := h .trace
  cases l <;> cases l' <;> simp_all [LevelFilter.rank, Level.filter]

theorem isEnabled_iff {ds : List Directive} (hds : ∀ d ∈ ds, d.WellFormed) (e : List Char) (v : Level) :
    (StreamFilter.parse (expandVirtualTargets (filterText ds))).isEnabled e v = true ↔
      v.filter.rank ≤ (levelFor (ds.flatMap Directive.leveled) (defaultLevel ds) e).rank := by
  rw [parse_filterText hds]
  simp only [StreamFilter.isEnabled, find_sortByLength, levelFor]
  cases decisive e (ds.flatMap Directive.leveled) <;> simp

/-- **The filter follows the rules of the environment filter** exactly if it does for the targets that the
directives name: the first of the longest ones that have a level, or else the default, is then what the last
directive for the target says. -/
theorem filter_follows_env_iff {ds : List Directive} (hds : ∀ d ∈ ds, d.WellFormed) :
    (∀ e v, (StreamFilter.parse (expandVirtualTargets (filterText ds))).isEnabled e v = true ↔
        v.filter.rank ≤ (envLevel ds e).rank) ↔
      ∀ rule ∈ ds.flatMap Directive.rules,
        levelFor (ds.flatMap Directive.leveled) (defaultLevel ds) rule.1 = envLevel ds rule.1 := by
  simp only [isEnabled_iff hds]
  constructor
  · intro h rule _
    exact rank_eq (h rule.1)
  · intro h e v
    rcases exists_target (ds.flatMap Directive.rules) e with hnone | ⟨best, hbest, hsame⟩
    · rw [envLevel, levelFor, levelFor, decisive_none fun rule hrule => hnone rule (leveled_subset ds hrule),
        decisive_none fun rule hrule => hnone rule (List.mem_reverse.mp hrule)]
    · have hlevel := h best hbest
      rw [envLevel, levelFor, levelFor] at hlevel ⊢
      rw [decisive_congr fun rule hrule => hsame rule (leveled_subset ds hrule),
        decisive_congr fun rule hrule => hsame rule (List.mem_reverse.mp hrule), hlevel]

theorem filter_follows_env_db :
    (∀ d ∈ [.level "warn".toList, .targetLevel "db".toList "info".toList], Directive.WellFormed d) ∧
    ∀ e v, (StreamFilter.parse (expandVirtualTargets (filterText
        [.level "warn".toList, .targetLevel "db".toList "info".toList]))).isEnabled e v = true ↔
      v.filter.rank ≤ (envLevel [.level "warn".toList, .targetLevel "db".toList "info".toList] e).rank := by
  have hds : ∀ d ∈ [.level "warn".toList, .targetLevel "db".toList "info".toList], Directive.WellFormed d := by
    intro d hd
    simp only [List.mem_cons, List.not_mem_nil, or_false] at hd
    obtain rfl | rfl := hd
    · exact (by decide +kernel : (parseLevelFilter "warn".toList).isSome)
    · exact ⟨(plain_database _ (by decide)).1, by decide +kernel⟩
  exact ⟨hds, (filter_follows_env_iff hds).mpr (by decide +kernel)⟩

/-- Of two levels for one target the first counts, and a target that stands alone is passed over. -/
theorem filter_departs_from_env :
    filterText [.targetLevel "a".toList "info".toList, .targetLevel "a".toList "debug".toList] = "a=info,a=debug".toList ∧
      (StreamFilter.parse (expandVirtualTargets "a=info,a=debug".toList)).isEnabled "a".toList .debug = false ∧
      envLevel [.targetLevel "a".toList "info".toList, .targetLevel "a".toList "debug".toList] "a".toList = .debug ∧
      (StreamFilter.parse (expandVirtualTargets "a".toList)).isEnabled "a".toList .error = false ∧
      envLevel [.target "a".toList] "a".toList = .trace := by
  decide +kernel

end NodeGet.Server.LogFilter
