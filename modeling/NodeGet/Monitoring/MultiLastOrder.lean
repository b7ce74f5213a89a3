import NodeGet.Monitoring.MultiLast

/-! The order of a multi-last answer.

The query leaves a place for each agent it is asked for, fills the places of the cached
ones, and gives the rows the database found to the places left, one after another. An
agent without a row has a place all the same, which the next row takes. The records of an
answer are therefore always the right ones (`fillMisses_perm`) but they stand in the order
of the request exactly when no cached agent comes between one without a record and one
whose record is stored only (`multi_last_order_iff`). -/
namespace NodeGet.Monitoring
open NodeGet.Core NodeGet.Machine

variable {φ π : Type}

/-! ### The answer in order -/

/-- Where an agent's last record is found. -/
inductive LastSource where
  | cached
  | stored
  | absent
  deriving DecidableEq

def Store.lastSource (s : Store φ) (p : Uuid × Int16) : LastSource :=
  if (s.cache p.1).isSome then .cached else if (lastRow s.rows p.2).isSome then .stored else .absent

section
variable (reg : Registry) (src : Source φ π) (fields : List φ) (s : Store φ)

/-- An agent's record: its cached object, or else its stored record of greatest timestamp. -/
def agentAnswer (p : Uuid × Int16) : Option JsonMap :=
  match s.cache p.1 with
  | some v => some (src.fromCache fields v)
  | none => (lastRow s.rows p.2).map (src.fromRow reg.uuidOf fields)

/-- The rows found for the agents that are not cached. -/
def missRows (pairs : List (Uuid × Int16)) : List JsonMap :=
  rowAnswers reg src fields s (pairs.filter fun p => (s.cache p.1).isNone)

/-- What the query answers with when some of the rows found are still to be placed. -/
def placeRows (pairs : List (Uuid × Int16)) (found : List JsonMap) : List JsonMap :=
  (fillMisses (pairs.map fun p => (s.cache p.1).map (src.fromCache fields)) found).filterMap id

theorem fillMisses_nil (results : List (Option JsonMap)) : fillMisses results [] = results := by
  induction results with
  | nil => rfl
  | cons result rest ih =>
    cases result with
    | some v => rw [fillMisses, ih]
    | none => rfl

variable {s} {p : Uuid × Int16}

/-- A cached agent keeps its place. -/
theorem cached_step (h : s.lastSource p = .cached) :
    ∃ v, agentAnswer reg src fields s p = some v ∧ ∀ rest,
      missRows reg src fields s (p :: rest) = missRows reg src fields s rest ∧
      ∀ found, placeRows src fields s (p :: rest) found = v :: placeRows src fields s rest found := by
  obtain ⟨v, hcache⟩ : ∃ v, s.cache p.1 = some v := by
    unfold Store.lastSource at h
    split at h
    next hsome => exact Option.isSome_iff_exists.mp hsome
    next => split at h <;> cases h
  refine ⟨src.fromCache fields v, by simp [agentAnswer, hcache], fun rest => ⟨?_, fun found => ?_⟩⟩
  · simp [missRows, hcache]
  · simp [placeRows, hcache, fillMisses]

/-- The place of an agent that is not cached takes the next row. -/
theorem miss_step (h : s.lastSource p ≠ .cached) (rest : List (Uuid × Int16)) (found : List JsonMap) :
    placeRows src fields s (p :: rest) found = found.take 1 ++ placeRows src fields s rest (found.drop 1) := by
  have hcache : s.cache p.1 = none := by
    cases hcache : s.cache p.1 with
    | none => rfl
    | some v => simp [Store.lastSource, hcache] at h
  cases found with
  | nil => simp [placeRows, hcache, fillMisses_nil]
  | cons v found => simp [placeRows, hcache, fillMisses]

theorem stored_rows (h : s.lastSource p = .stored) :
    ∃ v, agentAnswer reg src fields s p = some v ∧ ∀ rest,
      missRows reg src fields s (p :: rest) = v :: missRows reg src fields s rest := by
  unfold Store.lastSource at h
  split at h
  next => cases h
  next hmiss =>
    have hcache : s.cache p.1 = none := by simpa using hmiss
    split at h
    next hrow =>
      obtain ⟨r, hr⟩ := Option.isSome_iff_exists.mp hrow
      refine ⟨src.fromRow reg.uuidOf fields r, by simp [agentAnswer, hcache, hr], fun rest => ?_⟩
      simp [missRows, rowAnswers, hcache, hr]
    next => cases h

theorem absent_rows (h : s.lastSource p = .absent) :
    agentAnswer reg src fields s p = none ∧ ∀ rest,
      missRows reg src fields s (p :: rest) = missRows reg src fields s rest := by
  unfold Store.lastSource at h
  split at h
  next => cases h
  next hmiss =>
    have hcache : s.cache p.1 = none := by simpa using hmiss
    split at h
    next => cases h
    next hrow =>
      have hnone : lastRow s.rows p.2 = none := by simpa using hrow
      exact ⟨by simp [agentAnswer, hcache, hnone], fun rest => by simp [missRows, rowAnswers, hcache, hnone]⟩

/-! ### When rows are placed in order -/

variable {pairs : List (Uuid × Int16)}

theorem mem_of_missRows {v : JsonMap} (h : v ∈ missRows reg src fields s pairs) :
    .stored ∈ pairs.map s.lastSource ∧ v ∈ pairs.filterMap (agentAnswer reg src fields s) := by
  induction pairs with
  | nil => cases h
  | cons p rest ih =>
    rw [List.map_cons]
    cases hsource : s.lastSource p with
    | cached =>
      obtain ⟨w, hanswer, hstep⟩ := cached_step reg src fields hsource
      rw [(hstep rest).1] at h
      rw [List.filterMap_cons_some hanswer]
      exact ⟨List.mem_cons_of_mem _ (ih h).1, List.mem_cons_of_mem _ (ih h).2⟩
    | stored =>
      obtain ⟨w, hanswer, hrows⟩ := stored_rows reg src fields hsource
      rw [List.filterMap_cons_some hanswer]
      refine ⟨List.mem_cons_self .., ?_⟩
      rw [hrows] at h
      rcases List.mem_cons.mp h with heq | hrest
      · exact heq ▸ List.mem_cons_self ..
      · exact List.mem_cons_of_mem _ (ih hrest).2
    | absent =>
      obtain ⟨hanswer, hrows⟩ := absent_rows reg src fields hsource
      rw [hrows] at h
      rw [List.filterMap_cons_none hanswer]
      exact ⟨List.mem_cons_of_mem _ (ih h).1, (ih h).2⟩

theorem not_overtaken {sources : List LastSource} (h : .stored ∉ sources) :
    ¬ [.cached, .stored].Sublist sources := fun hsub => h (hsub.subset (by simp))

/-- Without rows to place, every record is a cached one. -/
theorem placeRows_none (h : missRows reg src fields s pairs = []) :
    placeRows src fields s pairs [] = pairs.filterMap (agentAnswer reg src fields s) ∧
      .stored ∉ pairs.map s.lastSource := by
  induction pairs with
  | nil => exact ⟨rfl, List.not_mem_nil⟩
  | cons p rest ih =>
    rw [List.map_cons]
    cases hsource : s.lastSource p with
    | cached =>
      obtain ⟨w, hanswer, hstep⟩ := cached_step reg src fields hsource
      obtain ⟨heq, hstored⟩ := ih ((hstep rest).1 ▸ h)
      rw [List.filterMap_cons_some hanswer, (hstep rest).2, heq]
      exact ⟨rfl, by simpa using hstored⟩
    | stored =>
      obtain ⟨w, -, hrows⟩ := stored_rows reg src fields hsource
      rw [hrows] at h
      cases h
    | absent =>
      obtain ⟨hanswer, hrows⟩ := absent_rows reg src fields hsource
      obtain ⟨heq, hstored⟩ := ih (hrows rest ▸ h)
      rw [List.filterMap_cons_none hanswer, miss_step src fields (by simp [hsource]), List.take_nil,
        List.drop_nil, heq]
      exact ⟨rfl, by simpa using hstored⟩

/-- Once a row has been placed ahead of its agent, the order is kept exactly when no cached
agent comes before one whose record is stored. -/
theorem placed_eq_iff {placed rest : List JsonMap} (hdistinct : (pairs.filterMap (agentAnswer reg src fields s)).Nodup)
    (hplaced : placed ≠ []) (hrows : missRows reg src fields s pairs = placed ++ rest) :
    placed ++ placeRows src fields s pairs rest = pairs.filterMap (agentAnswer reg src fields s) ↔
      ¬ [.cached, .stored].Sublist (pairs.map s.lastSource) := by
  induction pairs generalizing placed rest with
  | nil => exact absurd (List.append_eq_nil_iff.mp hrows.symm).1 hplaced
  | cons p agents ih =>
    rw [List.map_cons]
    cases hsource : s.lastSource p with
    | cached =>
      -- the row in front stands where the cached record should
      obtain ⟨w, hanswer, hstep⟩ := cached_step reg src fields hsource
      obtain ⟨v, placed, rfl⟩ := List.exists_cons_of_ne_nil hplaced
      rw [(hstep agents).1] at hrows
      have hv : v ∈ missRows reg src fields s agents := by
        rw [hrows]
        exact List.mem_cons_self ..
      obtain ⟨hstored, hmem⟩ := mem_of_missRows reg src fields hv
      rw [List.filterMap_cons_some hanswer] at hdistinct ⊢
      have hne : v ≠ w := fun heq => (List.nodup_cons.mp hdistinct).1 (heq ▸ hmem)
      simp [hne, hstored]
    | stored =>
      obtain ⟨w, hanswer, hfirst⟩ := stored_rows reg src fields hsource
      obtain ⟨v, placed, rfl⟩ := List.exists_cons_of_ne_nil hplaced
      rw [hfirst, List.cons_append] at hrows
      obtain ⟨hvw, htail⟩ := List.cons.inj hrows
      subst hvw
      rw [← List.take_append_drop 1 rest, ← List.append_assoc] at htail
      rw [List.filterMap_cons_some hanswer] at hdistinct ⊢
      rw [miss_step src fields (by simp [hsource]), List.cons_append, ← List.append_assoc, List.cons.injEq,
        List.sublist_cons_iff]
      by_cases hnext : placed ++ rest.take 1 = []
      · -- that was the last row
        have hrest : rest = [] := (List.take_eq_nil_iff.mp (List.append_eq_nil_iff.mp hnext).2).resolve_left (by simp)
        rw [hnext, hrest] at htail ⊢
        obtain ⟨heq, hstored⟩ := placeRows_none reg src fields htail
        simp [heq, not_overtaken hstored]
      · rw [ih (List.nodup_cons.mp hdistinct).2 hnext htail]
        simp
    | absent =>
      obtain ⟨hanswer, hsame⟩ := absent_rows reg src fields hsource
      rw [hsame, ← List.take_append_drop 1 rest, ← List.append_assoc] at hrows
      rw [List.filterMap_cons_none hanswer] at hdistinct ⊢
      rw [miss_step src fields (by simp [hsource]), ← List.append_assoc, ih hdistinct (by simp [hplaced]) hrows,
        List.sublist_cons_iff]
      simp

/-- Rows take the places of their agents exactly when no cached agent comes between one
without a record and one whose record is stored. -/
theorem placeRows_eq_iff (hdistinct : (pairs.filterMap (agentAnswer reg src fields s)).Nodup) :
    placeRows src fields s pairs (missRows reg src fields s pairs) =
        pairs.filterMap (agentAnswer reg src fields s) ↔
      ¬ [.absent, .cached, .stored].Sublist (pairs.map s.lastSource) := by
  induction pairs with
  | nil => simp [placeRows, missRows, rowAnswers, fillMisses]
  | cons p agents ih =>
    rw [List.map_cons]
    cases hsource : s.lastSource p with
    | cached =>
      obtain ⟨w, hanswer, hstep⟩ := cached_step reg src fields hsource
      rw [List.filterMap_cons_some hanswer] at hdistinct ⊢
      rw [(hstep agents).1, (hstep agents).2, List.cons.injEq, ih (List.nodup_cons.mp hdistinct).2,
        List.sublist_cons_iff]
      simp
    | stored =>
      obtain ⟨w, hanswer, hfirst⟩ := stored_rows reg src fields hsource
      rw [List.filterMap_cons_some hanswer] at hdistinct ⊢
      rw [hfirst, miss_step src fields (by simp [hsource])]
      simp [ih (List.nodup_cons.mp hdistinct).2, List.sublist_cons_iff]
    | absent =>
      obtain ⟨hanswer, hsame⟩ := absent_rows reg src fields hsource
      rw [List.filterMap_cons_none hanswer] at hdistinct ⊢
      rw [hsame, miss_step src fields (by simp [hsource]), List.sublist_cons_iff]
      have hless : [.absent, .cached, .stored].Sublist (agents.map s.lastSource) →
          [.cached, .stored].Sublist (agents.map s.lastSource) := fun h => (List.sublist_cons_self ..).trans h
      by_cases hrows : missRows reg src fields s agents = []
      · obtain ⟨heq, hstored⟩ := placeRows_none reg src fields hrows
        simp [hrows, heq, not_overtaken hstored, mt hless (not_overtaken hstored)]
      · -- the place of this agent takes the first row
        rw [placed_eq_iff reg src fields hdistinct (by simpa using hrows) (List.take_append_drop 1 _).symm]
        constructor
        · intro hno h
          rcases h with h | h
          · exact hno (hless h)
          · obtain ⟨rest, hrest, h⟩ := h
            cases hrest
            exact hno h
        · intro hno h
          exact hno (.inr ⟨_, rfl, h⟩)

end

/-! ### Objects name their agents -/

/-- Both kinds of object hold the identifier of the agent they are about. -/
structure Source.Labelled (src : Source φ π) : Prop where
  fromCache : ∀ fields uuid timestamp data,
    src.fromCache fields (src.value uuid timestamp data) "uuid" = some (.str (Uuid.text uuid))
  fromRow : ∀ {uuidOf : Int16 → Option Uuid} {r : Record φ} {uuid : Uuid} (fields : List φ),
    uuidOf r.uuidId = some uuid → src.fromRow uuidOf fields r "uuid" = some (.str (Uuid.text uuid))

theorem dynamicSource_labelled (fromStr : String → Option Json) : (dynamicSource fromStr).Labelled where
  fromCache fields uuid timestamp data := congrFun (dynamicFromCache_eq fields uuid timestamp data) "uuid"
  fromRow {uuidOf r uuid} fields huuid := by
    show renameFields fromStr _ _ _ fields "uuid" = _
    rw [translateUuid_selectRow dynamicColumn_names _ huuid, renameFields_of_ne fromStr _ _ fun f _ =>
      ⟨(dynamicColumn_names.ne f (by decide)).symm, (dynamicKey_names.ne f (by decide)).symm⟩]
    rfl

theorem summarySource_labelled : summarySource.Labelled where
  fromCache fields uuid timestamp data :=
    (congrFun (summaryFromCache_eq fields uuid timestamp data) "uuid").trans (by rfl)
  fromRow {uuidOf r uuid} fields huuid := by
    show summaryFromRow uuidOf fields r "uuid" = _
    rw [summaryFromRow, translateUuid_selectRow summaryKey_names _ huuid]
    rfl

/-- What is cached for an agent is the object of a record of its own. -/
def CachesOwn (src : Source φ π) (s : Store φ) : Prop :=
  ∀ uuid v, s.cache uuid = some v → ∃ timestamp data, v = src.value uuid timestamp data

section
variable {reg : Registry} {src : Source φ π}

theorem step_cachesOwn (s : Store φ) (a : Action π) (t : Store φ) (hs : CachesOwn src s)
    (h : step reg src s a = some t) : CachesOwn src t := by
  cases a with
  | report uuid time receivedAt payload =>
    obtain ⟨uuidId, -, rfl⟩ := Option.map_eq_some_iff.mp h
    intro agent v hv
    by_cases hagent : agent = uuid
    · subst hagent
      exact ⟨_, _, by simpa using hv.symm⟩
    · exact hs agent v (by simpa [Function.update_of_ne hagent] using hv)
  | flush count =>
    cases h
    exact hs
  | delete conditions =>
    rw [step] at h
    split at h <;> cases h <;> exact hs

variable {s : Store φ}

theorem run_cachesOwn {rows : List (Row (Record φ))} {nextId : Nat} {actions : List (Action π)}
    (hrun : run (step reg src) (.started rows nextId) actions = some s) : CachesOwn src s := by
  have hstart : CachesOwn src (.started rows nextId) := by
    intro uuid v hv
    cases hv
  exact run_preserves step_cachesOwn hstart hrun

/-- An agent's record says whose it is. -/
theorem agentAnswer_uuid (hsrc : src.Labelled) (hs : CachesOwn src s) {fields : List φ} {p : Uuid × Int16}
    (hid : reg.idOf p.1 = some p.2) {v : JsonMap} (hv : agentAnswer reg src fields s p = some v) :
    v "uuid" = some (.str (Uuid.text p.1)) := by
  unfold agentAnswer at hv
  split at hv
  next object hcache =>
    cases hv
    obtain ⟨timestamp, data, rfl⟩ := hs p.1 object hcache
    exact hsrc.fromCache fields p.1 timestamp data
  next =>
    obtain ⟨r, hr, rfl⟩ := Option.map_eq_some_iff.mp hv
    have hrid := (lastRow_spec hr).2.1
    exact hsrc.fromRow fields (hrid ▸ (reg.inverse p.1 p.2).mp hid)

theorem nodup_answers (hsrc : src.Labelled) (hs : CachesOwn src s) (fields : List φ) {pairs : List (Uuid × Int16)}
    (hpairs : ∀ p ∈ pairs, reg.idOf p.1 = some p.2) (hnodup : (pairs.map Prod.fst).Nodup) :
    (pairs.filterMap (agentAnswer reg src fields s)).Nodup := by
  refine List.Pairwise.filterMap _ ?_ (List.Pairwise.and_mem.mp (List.pairwise_map.mp hnodup))
  intro p q hpq v hv w hw heq
  obtain ⟨hp, hq, hne⟩ := hpq
  have hvUuid := agentAnswer_uuid hsrc hs (hpairs p hp) hv
  have hwUuid := agentAnswer_uuid hsrc hs (hpairs q hq) hw
  rw [heq, hwUuid] at hvUuid
  exact hne (Uuid.text_injective (Json.str.inj (Option.some.inj hvUuid)).symm)

end

/-! ### The query -/

/-- The agents of a request, each once, with their numbers. -/
def requested (reg : Registry) (uuids : List Uuid) : List (Uuid × Int16) :=
  uuids.eraseDups.filterMap fun uuid => (reg.idOf uuid).map (uuid, ·)

/-- The answer is, in the order of the request, the record of each agent that has one, and
no record twice. -/
def AnsweredInOrder (reg : Registry) (src : Source φ π) (s : Store φ) (uuids : List Uuid) (fields : List φ) : Prop :=
  ∃ answers, multiLastQuery reg src s uuids fields = .ok answers ∧ answers.Nodup ∧
    answers = (requested reg uuids).filterMap (agentAnswer reg src fields s)

theorem nodup_eraseDups (uuids : List Uuid) : uuids.eraseDups.Nodup := by
  induction hn : uuids.length using Nat.strong_induction_on generalizing uuids with
  | _ n ih =>
    cases uuids with
    | nil => exact List.nodup_nil
    | cons uuid rest =>
      rw [List.eraseDups_cons, List.nodup_cons]
      have hlength : (rest.filter fun other => !other == uuid).length < n := by
        rw [← hn]
        exact Nat.lt_succ_of_le (List.length_filter_le ..)
      exact ⟨by simp [List.mem_eraseDups], ih _ hlength _ rfl⟩

section
variable {reg : Registry} {src : Source φ π}

variable {uuids : List Uuid}

theorem resolveUuids_registered (h : ∀ uuid ∈ uuids, (reg.idOf uuid).isSome = true) :
    resolveUuids reg.idOf uuids = .ok (uuids.filterMap fun uuid => (reg.idOf uuid).map (uuid, ·)) := by
  induction uuids with
  | nil => rfl
  | cons uuid rest ih =>
    obtain ⟨uuidId, hid⟩ := Option.isSome_iff_exists.mp (h uuid (List.mem_cons_self ..))
    have hrest := ih fun other hother => h other (List.mem_cons_of_mem _ hother)
    rw [resolveUuids, hid, hrest]
    simp [hid, Except.map]

theorem answeredInOrder_iff (hsrc : src.Labelled) {s : Store φ} (hs : CachesOwn src s)
    (hregistered : ∀ uuid ∈ uuids, (reg.idOf uuid).isSome = true) (fields : List φ) :
    AnsweredInOrder reg src s uuids fields ↔
      ¬ [.absent, .cached, .stored].Sublist ((requested reg uuids).map s.lastSource) := by
  have hresolve : resolveUuids reg.idOf uuids.eraseDups = .ok (requested reg uuids) :=
    resolveUuids_registered fun uuid huuid => hregistered uuid (List.mem_eraseDups.mp huuid)
  have hquery : multiLastQuery reg src s uuids fields =
      .ok (placeRows src fields s (requested reg uuids) (missRows reg src fields s (requested reg uuids))) := by
    rw [multiLastQuery, hresolve]
    rfl
  have honce : ((requested reg uuids).map Prod.fst).Nodup := by
    refine List.pairwise_map.mpr (List.Pairwise.filterMap _ ?_ (nodup_eraseDups uuids))
    intro a b hab p hp q hq
    obtain ⟨_, -, rfl⟩ := Option.map_eq_some_iff.mp hp
    obtain ⟨_, -, rfl⟩ := Option.map_eq_some_iff.mp hq
    exact hab
  have hdistinct := nodup_answers hsrc hs fields (resolveUuids_mem hresolve) honce
  rw [← placeRows_eq_iff reg src fields hdistinct]
  constructor
  · intro h
    obtain ⟨answers, hanswers, -, heq⟩ := h
    rw [hquery] at hanswers
    rw [Except.ok.inj hanswers, heq]
  · intro h
    exact ⟨_, hquery, h ▸ hdistinct, h⟩

end

/-- **The order of a multi-last answer**: after any run, a query for registered agents is
answered in the order of the request exactly when no cached agent of the request comes
between one without a record and one whose record is stored only. -/
theorem multi_last_order_iff (reg : Registry) (fromStr : String → Option Json) (uuids : List Uuid)
    (hregistered : ∀ uuid ∈ uuids, (reg.idOf uuid).isSome = true) :
    (∀ (rows : List (Row (Record DynamicDataQueryField))) (nextId : Nat) (actions : List (Action DynamicReport))
        (s : Store DynamicDataQueryField) (fields : List DynamicDataQueryField),
      run (step reg (dynamicSource fromStr)) (.started rows nextId) actions = some s →
        (AnsweredInOrder reg (dynamicSource fromStr) s uuids fields ↔
          ¬ [.absent, .cached, .stored].Sublist ((requested reg uuids).map s.lastSource))) ∧
    (∀ (rows : List (Row (Record DynamicSummaryQueryField))) (nextId : Nat) (actions : List (Action SummaryReport))
        (s : Store DynamicSummaryQueryField) (fields : List DynamicSummaryQueryField),
      run (step reg summarySource) (.started rows nextId) actions = some s →
        (AnsweredInOrder reg summarySource s uuids fields ↔
          ¬ [.absent, .cached, .stored].Sublist ((requested reg uuids).map s.lastSource))) := by
  constructor
  · intro rows nextId actions s fields hrun
    exact answeredInOrder_iff (dynamicSource_labelled fromStr) (run_cachesOwn hrun) hregistered fields
  · intro rows nextId actions s fields hrun
    exact answeredInOrder_iff summarySource_labelled (run_cachesOwn hrun) hregistered fields

/-- Three agents, numbered as they are named. -/
def threeAgents : Registry where
  idOf uuid := if uuid = 1 then some 1 else if uuid = 2 then some 2 else if uuid = 3 then some 3 else none
  uuidOf uuidId := if uuidId = 1 then some 1 else if uuidId = 2 then some 2 else if uuidId = 3 then some 3 else none
  inverse uuid uuidId := by grind

/-- A record of the third agent, written before the server started. -/
def thirdRow : Row (Record DynamicDataQueryField) := ⟨1, ⟨⟨3, 5, some 6⟩, fun _ => some (.arr [])⟩⟩

/-- With the agent without a record at the end, the answer is in order. -/
theorem multi_last_order_iff_absent_last :
    ∃ s, run (step threeAgents (dynamicSource fun _ => none)) (.started [thirdRow] 2) [.report 2 7 8 idleReport] =
        some s ∧
      (requested threeAgents [2, 3, 2, 1]).map s.lastSource = [.cached, .stored, .absent] ∧
      AnsweredInOrder threeAgents (dynamicSource fun _ => none) s [2, 3, 2, 1] [.cpu] := by
  have hregistered : ∀ uuid ∈ [2, 3, 2, 1], (threeAgents.idOf uuid).isSome = true := by simp [threeAgents]
  have hboth := multi_last_order_iff threeAgents (fun _ => none) [2, 3, 2, 1] hregistered
  refine ⟨_, rfl, rfl, (hboth.1 [thirdRow] 2 [.report 2 7 8 idleReport] _ [.cpu] rfl).mpr ?_⟩
  decide

/-- With it in front, the row of the third agent takes its place. -/
theorem last_answers_out_of_order :
    ∃ s, run (step threeAgents (dynamicSource fun _ => none)) (.started [thirdRow] 2) [.report 2 7 8 idleReport] =
        some s ∧
      (∀ uuid ∈ [1, 2, 3], (threeAgents.idOf uuid).isSome = true) ∧
      (multiLastQuery threeAgents (dynamicSource fun _ => none) s [1, 2, 3] [.cpu]).map (·.map (· "uuid")) =
        .ok [some (.str "00000000-0000-0000-0000-000000000003"), some (.str "00000000-0000-0000-0000-000000000002")] ∧
      ¬ AnsweredInOrder threeAgents (dynamicSource fun _ => none) s [1, 2, 3] [.cpu] := by
  refine ⟨_, rfl, by simp [threeAgents], rfl, ?_⟩
  intro h
  obtain ⟨answers, hanswers, -, heq⟩ := h
  have hactual : Except.ok _ = Except.ok _ := congrArg (Except.map (List.map fun v => v "uuid")) hanswers
  have hexpected := congrArg (List.map fun v => v "uuid") heq
  rw [← Except.ok.inj hactual] at hexpected
  have hfirst : "00000000-0000-0000-0000-000000000003" = "00000000-0000-0000-0000-000000000002" :=
    Json.str.inj (Option.some.inj (List.cons.inj hexpected).1)
  exact absurd hfirst (by decide)

end NodeGet.Monitoring
