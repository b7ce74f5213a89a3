import NodeGet.Kv.Store
import NodeGet.Machine.Run

/-! The calls that write to the key-value table, statement by statement
(`ng-kv/src/db.rs`: `create_kv`, `set_v_to_kv`, `delete_key_from_kv`, `delete_kv`).

Every call is two statements: it looks whether the namespace has a row, and then it writes.
Between the two any other statement may run. A `set_v_to_kv` whose namespace is deleted in
between still writes its row, and a namespace is there again that nobody created and that
has no marker (`set_revives_namespace`). That is the only way: a namespace has rows only
while it is created, throughout a run, exactly when no call writes a value after its
namespace was deleted under it (`no_resurrection_iff`).

A state remembers what the property is about and the server does not: whether a namespace was
last created or deleted, and which calls were overtaken by a deletion. -/
namespace NodeGet.Kv.Interleaving
open NodeGet.Core NodeGet.Machine

inductive Request where
  | createKv (ns : String)
  | setVToKv (ns key : String) (value : Json)
  | deleteKeyFromKv (ns key : String)
  | deleteKv (ns : String)

/-- A call that is between its two statements. -/
inductive Pending where
  | create (ns : String)
  /-- `overtaken` says that the namespace was deleted since the call looked for it, and not
  created again. -/
  | set (ns key : String) (value : Json) (overtaken : Bool)
  | deleteKey (ns key : String) (notMarker : key ≠ namespaceMarkerKey)
  | delete (ns : String)

structure State where
  table : KvTable
  /-- The last of its creations and deletions was a creation. -/
  created : String → Bool
  calls : Nat → Option Pending

inductive Action where
  /-- A call's first statement. -/
  | look (call : Nat) (request : Request)
  /-- Its second. -/
  | write (call : Nat)
  /-- The second statement fails, or the call is dropped before it. -/
  | fail (call : Nat)

/-- The call goes on to its second statement, or is refused. -/
def checked (t : KvTable) : Request → Option Pending
  | .createKv ns => if namespaceExists t ns then none else some (.create ns)
  | .setVToKv ns key value => if namespaceExists t ns then some (.set ns key value false) else none
  | .deleteKeyFromKv ns key =>
    if hkey : key = namespaceMarkerKey then none
    else if namespaceExists t ns then some (.deleteKey ns key hkey) else none
  | .deleteKv ns => if namespaceExists t ns then some (.delete ns) else none

/-- What a creation or a deletion of `ns` means for a call. -/
def Pending.mark (ns : String) (overtaken : Bool) : Pending → Pending
  | set ns' key value before => set ns' key value (if ns' = ns then overtaken else before)
  | other => other

def State.markCreated (s : State) (ns : String) (created : Bool) : State :=
  { s with
    created := Function.update s.created ns created
    calls := fun call => (s.calls call).map (Pending.mark ns !created) }

/-- The second statement. The insert of a marker fails if there is one. -/
def execute (s : State) : Pending → State
  | .create ns =>
    if (s.table.find ns namespaceMarkerKey).isSome then s
    else { s with table := s.table.put ⟨ns, namespaceMarkerKey, .null⟩ }.markCreated ns true
  | .set ns key value _ => { s with table := s.table.put ⟨ns, key, value⟩ }
  | .deleteKey ns key _ => { s with table := s.table.deleteWhere fun ns' key' => ns' == ns && key' == key }
  | .delete ns => { s with table := s.table.deleteWhere fun ns' _ => ns' == ns }.markCreated ns false

def State.finish (s : State) (call : Nat) : State := { s with calls := Function.update s.calls call none }

def step (s : State) : Action → Option State
  | .look call request =>
    if (s.calls call).isSome then none
    else some { s with calls := Function.update s.calls call (checked s.table request) }
  | .write call => (s.calls call).map fun pending => execute (s.finish call) pending
  | .fail call => (s.calls call).map fun _ => s.finish call

/-- A table in which every namespace that has rows has its marker. -/
structure MarkedTable where
  table : KvTable
  marked : ∀ ns key, (table.find ns key).isSome = true → (table.find ns namespaceMarkerKey).isSome = true

/-- No call is under way; a namespace with a marker was created. -/
def initial (m : MarkedTable) : State where
  table := m.table
  created ns := (m.table.find ns namespaceMarkerKey).isSome
  calls _ := none

/-- Rows are rows of a namespace that is created, and that has its marker. -/
def NoResurrection (s : State) : Prop :=
  ∀ ns key, (s.table.find ns key).isSome = true →
    s.created ns = true ∧ (s.table.find ns namespaceMarkerKey).isSome = true

/-- No value is written for a namespace that was deleted since the call looked for it. -/
def InTime (s : State) : Action → Prop
  | .write call => ∀ ns key value, s.calls call ≠ some (.set ns key value true)
  | _ => True

/-! ### The invariant -/

structure Inv (s : State) : Prop where
  created_iff : ∀ ns, s.created ns = true ↔ (s.table.find ns namespaceMarkerKey).isSome = true
  created_of_row : ∀ ns key, (s.table.find ns key).isSome = true → s.created ns = true
  pending : ∀ call ns key value overtaken, s.calls call = some (.set ns key value overtaken) →
    s.created ns = !overtaken

variable {s : State} {ns key : String} {value : Json} {overtaken : Bool} {a : Action}

theorem Inv.noResurrection (h : Inv s) : NoResurrection s := by
  intro ns key hrow
  have hcreated := h.created_of_row ns key hrow
  exact ⟨hcreated, (h.created_iff ns).mp hcreated⟩

theorem inv_initial (m : MarkedTable) : Inv (initial m) where
  created_iff _ := Iff.rfl
  created_of_row ns key h := m.marked ns key h
  pending _ _ _ _ _ h := by cases h

/-- A call that is not there any more. -/
theorem Inv.finish (h : Inv s) (call : Nat) : Inv (s.finish call) where
  created_iff := h.created_iff
  created_of_row := h.created_of_row
  pending c ns key value overtaken hc := by
    replace hc : Function.update s.calls call none c = some (.set ns key value overtaken) := hc
    by_cases hcall : c = call
    · rw [hcall, Function.update_self] at hc
      cases hc
    · rw [Function.update_of_ne hcall] at hc
      exact h.pending c ns key value overtaken hc

/-- A creation or a deletion is noted in all calls that wait to set a value. -/
theorem pending_markCreated {created : Bool}
    (h : ∀ call ns key value overtaken, s.calls call = some (.set ns key value overtaken) → s.created ns = !overtaken)
    {call : Nat} {ns' : String} (hcall : (s.markCreated ns created).calls call = some (.set ns' key value overtaken)) :
    (s.markCreated ns created).created ns' = !overtaken := by
  obtain ⟨pending, hpending, hmark⟩ := Option.map_eq_some_iff.mp hcall
  cases pending with
  | set ns₀ key₀ value₀ before =>
    cases hmark
    show Function.update s.created ns created ns' = _
    by_cases hns : ns' = ns
    · rw [hns, Function.update_self, if_pos rfl, Bool.not_not]
    · rw [Function.update_of_ne hns, if_neg hns]
      exact h call ns' key value before hpending
  | create ns₀ => cases hmark
  | deleteKey ns₀ key₀ hkey => cases hmark
  | delete ns₀ => cases hmark

theorem Inv.created_row (h : Inv s) (hcreated : s.created ns = true) :
    Inv { s with table := s.table.put ⟨ns, key, value⟩ } where
  created_iff ns' := by
    rw [h.created_iff, find_put]
    split
    next hrow =>
      obtain ⟨rfl, -⟩ := hrow
      exact iff_of_true ((h.created_iff _).mp hcreated) rfl
    next => rfl
  created_of_row ns' key' hrow := by
    rw [find_put] at hrow
    split at hrow
    next heq => exact heq.1 ▸ hcreated
    next => exact h.created_of_row ns' key' hrow
  pending := h.pending

theorem Inv.create (h : Inv s) (ns : String) :
    Inv ({ s with table := s.table.put ⟨ns, namespaceMarkerKey, .null⟩ }.markCreated ns true) where
  created_iff ns' := by
    show Function.update s.created ns true ns' = true ↔ _
    by_cases hns : ns' = ns
    · subst hns
      simp [State.markCreated, find_put]
    · rw [Function.update_of_ne hns, h.created_iff]
      simp [State.markCreated, find_put, Ne.symm hns]
  created_of_row ns' key hrow := by
    show Function.update s.created ns true ns' = true
    by_cases hns : ns' = ns
    · rw [hns, Function.update_self]
    · rw [Function.update_of_ne hns]
      refine h.created_of_row ns' key ?_
      simpa [State.markCreated, find_put, Ne.symm hns] using hrow
  pending _ _ _ _ _ hcall := pending_markCreated h.pending hcall

theorem Inv.delete (h : Inv s) (ns : String) :
    Inv ({ s with table := s.table.deleteWhere fun ns' _ => ns' == ns }.markCreated ns false) where
  created_iff ns' := by
    show Function.update s.created ns false ns' = true ↔ _
    by_cases hns : ns' = ns
    · subst hns
      simp [State.markCreated, find_deleteWhere]
    · rw [Function.update_of_ne hns, h.created_iff]
      simp [State.markCreated, find_deleteWhere, hns]
  created_of_row ns' key hrow := by
    show Function.update s.created ns false ns' = true
    by_cases hns : ns' = ns
    · simp [State.markCreated, find_deleteWhere, hns] at hrow
    · rw [Function.update_of_ne hns]
      refine h.created_of_row ns' key ?_
      simpa [State.markCreated, find_deleteWhere, hns] using hrow
  pending _ _ _ _ _ hcall := pending_markCreated h.pending hcall

theorem Inv.deleteKey (h : Inv s) (hkey : key ≠ namespaceMarkerKey) :
    Inv { s with table := s.table.deleteWhere fun ns' key' => ns' == ns && key' == key } where
  created_iff ns' := by
    rw [h.created_iff, find_deleteWhere]
    simp [Ne.symm hkey]
  created_of_row ns' key' hrow := by
    rw [find_deleteWhere] at hrow
    split at hrow
    next => cases hrow
    next => exact h.created_of_row ns' key' hrow
  pending := h.pending

theorem Inv.execute (h : Inv s) {pending : Pending}
    (htime : ∀ ns key value overtaken, pending = .set ns key value overtaken → s.created ns = true) :
    Inv (execute s pending) := by
  cases pending with
  | create ns =>
    show Inv (if _ then s else _)
    split
    next => exact h
    next => exact h.create ns
  | set ns key value overtaken => exact h.created_row (htime ns key value overtaken rfl)
  | deleteKey ns key hkey => exact h.deleteKey hkey
  | delete ns => exact h.delete ns

/-- A call that will set a value has found its namespace, just now. -/
theorem checked_set {t : KvTable} {request : Request} (h : checked t request = some (.set ns key value overtaken)) :
    namespaceExists t ns = true ∧ overtaken = false := by
  cases request with
  | setVToKv ns' key' value' =>
    obtain ⟨hexists, heq⟩ := Option.ite_none_right_eq_some.mp h
    cases heq
    exact ⟨hexists, rfl⟩
  | createKv ns' =>
    obtain ⟨-, heq⟩ := Option.ite_none_left_eq_some.mp h
    cases heq
  | deleteKeyFromKv ns' key' =>
    simp only [checked] at h
    split at h
    next => cases h
    next =>
      obtain ⟨-, heq⟩ := Option.ite_none_right_eq_some.mp h
      cases heq
  | deleteKv ns' =>
    obtain ⟨-, heq⟩ := Option.ite_none_right_eq_some.mp h
    cases heq

theorem Inv.look (h : Inv s) (call : Nat) (request : Request) :
    Inv { s with calls := Function.update s.calls call (checked s.table request) } where
  created_iff := h.created_iff
  created_of_row := h.created_of_row
  pending c ns key value overtaken hc := by
    replace hc : Function.update s.calls call (checked s.table request) c = some (.set ns key value overtaken) := hc
    by_cases hcall : c = call
    · rw [hcall, Function.update_self] at hc
      obtain ⟨hexists, rfl⟩ := checked_set hc
      obtain ⟨key', hrow⟩ := (namespaceExists_iff s.table ns).mp hexists
      exact h.created_of_row ns key' hrow
    · rw [Function.update_of_ne hcall] at hc
      exact h.pending c ns key value overtaken hc

theorem Inv.step {s' : State} (h : Inv s) (htime : InTime s a) (hstep : step s a = some s') : Inv s' := by
  cases a with
  | look call request =>
    simp only [Interleaving.step] at hstep
    split at hstep
    next => cases hstep
    next =>
      cases hstep
      exact h.look call request
  | write call =>
    obtain ⟨pending, hpending, rfl⟩ := Option.map_eq_some_iff.mp hstep
    refine (h.finish call).execute fun ns key value overtaken heq => ?_
    subst heq
    cases overtaken with
    | true => exact absurd hpending (htime ns key value)
    | false => exact h.pending call ns key value false hpending
  | fail call =>
    obtain ⟨pending, -, rfl⟩ := Option.map_eq_some_iff.mp hstep
    exact h.finish call

/-- A value written late is a row of a namespace that is not created. -/
theorem Inv.late (h : Inv s) (hlate : ¬InTime s a) : ∃ s', Interleaving.step s a = some s' ∧ ¬NoResurrection s' := by
  cases a with
  | look call request => exact absurd trivial hlate
  | fail call => exact absurd trivial hlate
  | write call =>
    simp only [InTime, not_forall, not_not] at hlate
    obtain ⟨ns, key, value, hpending⟩ := hlate
    refine ⟨_, by rw [Interleaving.step, hpending]; rfl, fun hno => ?_⟩
    have hrow : ((s.table.put ⟨ns, key, value⟩).find ns key).isSome = true := by simp [find_put]
    have hcreated : s.created ns = true := (hno ns key hrow).1
    rw [h.pending call ns key value true hpending] at hcreated
    cases hcreated

/-- **Throughout a run every row belongs to a namespace that is created and marked, exactly when
no value is written for a namespace that was deleted after the call found it.** -/
theorem no_resurrection_iff (m : MarkedTable) (actions : List Action) :
    Always step NoResurrection (initial m) actions ↔ Along step InTime (initial m) actions :=
  always_iff_along (fun _ => Inv.noResurrection) (fun _ _ _ h htime hstep => h.step htime hstep)
    (fun _ _ h hlate => h.late hlate) (inv_initial m) actions

/-- The namespace is deleted between the two statements of a call that sets a value, which
leaves the value alone in it. -/
theorem set_revives_namespace :
    ∃ s, run step (initial ⟨.empty, fun _ _ h => by cases h⟩)
        [.look 0 (.createKv "a"), .write 0, .look 1 (.setVToKv "a" "k" .null), .look 2 (.deleteKv "a"), .write 2,
          .write 1] = some s ∧
      (s.table.find "a" "k").isSome = true ∧ s.created "a" = false ∧
        (s.table.find "a" namespaceMarkerKey).isSome = false := by
  decide +kernel

end NodeGet.Kv.Interleaving
