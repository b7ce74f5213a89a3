import NodeGet.Db.Operation

/-! The expiry of user databases (`ng-db/src/db_registry.rs`: `cleanup_expired`,
`get_conn`), next to the calls of `Db/Operation.lean`.

Every minute a pass copies the last use of each open connection, then reads the whole
registry, then decides on each name, and then goes through those it found expired and
removes them with `remove_conn`, the very steps of a delete. Nothing is looked at again
after the decision: what happens to a database in between is not seen. So the pass
spares a database in use only on runs where nothing happens to it in between
(`Undisturbed`). -/
namespace NodeGet.Db.Expiry
open NodeGet.Core NodeGet.Machine Function

/-! ### State -/

/-- Who takes steps on the stores: a call, or a pass removing a database. -/
abbrev Party (ι : Type) := ι ⊕ (Nat × String)

/-- What a pass does to a database is what a delete does from `remove_conn` on. -/
def opOf {ι : Type} (op : ι → Op) : Party ι → Op := Sum.elim op fun p => .delete p.2

/-- A name to remove; the pass keeps only the name, the rest is why. -/
structure Doomed where
  name : String
  lastUsed : Nat
  maxLifetimeMs : Int
deriving DecidableEq

inductive Cleaner where
  | idle
  | sampled (candidates : String → Option Nat)
  | deciding (entries : String → Option (Option Int)) (candidates : String → Option Nat) (toRemove : List Doomed)
  | removing (toRemove : List Doomed)
  /-- `remove_conn` is under way. -/
  | awaiting (current : Doomed) (toRemove : List Doomed)

namespace Cleaner

/-- The uses that the pass has copied and not decided on. -/
def candidates : Cleaner → String → Option Nat
  | sampled candidates | deciding _ candidates _ => candidates
  | idle | removing _ | awaiting _ _ => fun _ => none

/-- The names found expired and not yet removed. -/
def doomed : Cleaner → List Doomed
  | idle | sampled _ => []
  | deciding _ _ toRemove | removing toRemove => toRemove
  | awaiting current toRemove => current :: toRemove

end Cleaner

structure State (ι κ : Type) where
  db : Db.State (Party ι) κ
  /-- The column `max_lifetime_ms`, by the row's key. -/
  maxLifetimeMs : Nat → Option Int
  /-- `last_used_ms` of the connection in the pool. -/
  lastUsedMs : String → Nat
  now : Nat
  pass : Nat
  cleaner : Cleaner
  /-- History: when a database was last created or obtained. -/
  touched : String → Option Nat

/-- The lifetime that the registry holds for a name. -/
def State.stored {ι κ : Type} (s : State ι κ) (name : String) : Option Int :=
  (s.db.registry.idOf name).bind s.maxLifetimeMs

inductive Action (ι : Type) where
  | call (i : ι)
  | getConn (name : String)
  | tick (ms : Nat)
  | sample
  | readRegistry
  | decide (name : String)
  | decided
  | next
  | remove

section Machine
variable {ι κ : Type} [DecidableEq ι] (op : ι → Op) (lifetime : ι → Option Int) (fresh : κ)

/-- `now.saturating_sub(last_used) as i64 >= lifetime` -/
def isExpired (now lastUsed : Nat) (maxLifetimeMs : Int) : Bool :=
  maxLifetimeMs ≤ (UInt64.ofNat (now - lastUsed)).toInt64.toInt

def State.touch (s : State ι κ) (name : String) : State ι κ :=
  { s with touched := update s.touched name (some s.now) }

/-- What a call's step does besides `Db.step`: `create_conn` stores the lifetime it is
given, if any, and enters the connection as used now. -/
def afterCall (s : State ι κ) (i : ι) (db : Db.State (Party ι) κ) : State ι κ :=
  match s.db.pc (.inl i) with
  | .createRow (some id) =>
    { s with db, maxLifetimeMs :=
        if (s.db.registry.nameOf id).isSome ∧ (lifetime i).isSome then update s.maxLifetimeMs id (lifetime i)
        else s.maxLifetimeMs }
  | .createRow none =>
    if (s.db.registry.idOf (op i).target).isSome then { s with db }
    else
      { s.touch (op i).target with
        db, maxLifetimeMs := update s.maxLifetimeMs s.db.registry.nextId (lifetime i) }
  | .createPool =>
    { s.touch (op i).target with db, lastUsedMs := update s.lastUsedMs (op i).target s.now }
  | _ => { s with db }

/-- `lifetime i` is the lifetime that call `i` hands to `create_conn`. The pass goes
through its candidates in the order of a hash map, which is any order; a candidate
that is not decided on is not removed. -/
def step (s : State ι κ) : Action ι → Option (State ι κ)
  | .call i => (Db.step (opOf op) fresh s.db (.inl i)).map (afterCall op lifetime s i)
  | .getConn name =>
    some (if s.db.pool name then { s.touch name with lastUsedMs := update s.lastUsedMs name s.now } else s)
  | .tick ms => some { s with now := s.now + ms }
  | .sample =>
    match s.cleaner with
    | .idle =>
      some { s with cleaner := .sampled fun name => if s.db.pool name then some (s.lastUsedMs name) else none }
    | _ => none
  | .readRegistry =>
    match s.cleaner with
    | .sampled candidates =>
      some { s with
        cleaner := .deciding (fun name => (s.db.registry.idOf name).map s.maxLifetimeMs) candidates [] }
    | _ => none
  | .decide name =>
    match s.cleaner with
    | .deciding entries candidates toRemove =>
      (candidates name).map fun lastUsed =>
        let doomed := match entries name with
          | some (some lifetimeMs) =>
            if isExpired s.now lastUsed lifetimeMs then [⟨name, lastUsed, lifetimeMs⟩] else []
          | _ => []
        { s with cleaner := .deciding entries (update candidates name none) (toRemove ++ doomed) }
    | _ => none
  | .decided =>
    match s.cleaner with
    | .deciding _ _ toRemove => some { s with cleaner := .removing toRemove }
    | _ => none
  | .next =>
    match s.cleaner with
    | .removing [] => some { s with cleaner := .idle, pass := s.pass + 1 }
    | .removing (d :: rest) =>
      some { s with db := s.db.goto (.inr (s.pass, d.name)) .removePool, cleaner := .awaiting d rest }
    | _ => none
  | .remove =>
    match s.cleaner with
    | .awaiting d rest =>
      match Db.step (opOf op) fresh s.db (.inr (s.pass, d.name)) with
      | some db => some { s with db }
      | none => some { s with cleaner := .removing rest }
    | _ => none

/-! ### What a pass takes away -/

/-- The database that loses its connection, its row or a file in the pass's next step, and
which name it is removed for. What the pass finds of the files after the row is gone is a
database's only if the name is registered or in the pool again. -/
def State.taking (s : State ι κ) : Option (Doomed × String) :=
  match s.cleaner with
  | .awaiting d _ =>
    match s.db.pc (.inr (s.pass, d.name)) with
    | .removePool => if s.db.pool d.name then some (d, d.name) else none
    | .removeRow (some id) => (s.db.registry.nameOf id).map fun name => (d, name)
    | .removeFile ext =>
      if (s.db.files ext d.name).isSome ∧ ((s.db.registry.idOf d.name).isSome ∨ s.db.pool d.name) then some (d, d.name)
      else none
    | _ => none
  | _ => none

/-- A database the pass takes away has a stored lifetime, and was neither created nor
obtained within that time. -/
def SparesInUse (s : State ι κ) (a : Action ι) : Prop :=
  ∀ p ∈ s.taking, a = .remove →
    ∃ lifetimeMs, s.stored p.2 = some lifetimeMs ∧ ∀ t ∈ s.touched p.2, t + lifetimeMs ≤ s.now

/-- A database the pass takes away has the lifetime that the pass has read, and was
neither created nor obtained after the use that the pass has seen. -/
def Undisturbed (s : State ι κ) (a : Action ι) : Prop :=
  ∀ p ∈ s.taking, a = .remove → s.stored p.2 = some p.1.maxLifetimeMs ∧ ∀ t ∈ s.touched p.2, t ≤ p.1.lastUsed

/-! ### What a pass has decided stays true -/

/-- Uses are not in the future, and what was found expired has been unused for its
lifetime since the use the pass has seen. -/
structure Sound (s : State ι κ) : Prop where
  used : ∀ name, s.lastUsedMs name ≤ s.now
  candidates : ∀ name, ∀ lastUsed ∈ s.cleaner.candidates name, lastUsed ≤ s.now
  doomed : ∀ d ∈ s.cleaner.doomed, d.lastUsed + d.maxLifetimeMs ≤ s.now

variable {op lifetime fresh} {s t : State ι κ}

theorem elapsed_le (n : Nat) : (UInt64.ofNat n).toInt64.toInt ≤ n := by
  have hbits : (UInt64.ofNat n).toInt64.toInt = (BitVec.ofNat 64 n).toInt := rfl
  rw [hbits, BitVec.toInt_eq_toNat_cond, BitVec.toNat_ofNat]
  split <;> omega

theorem le_of_isExpired {now lastUsed : Nat} {lifetimeMs : Int} (hused : lastUsed ≤ now)
    (h : isExpired now lastUsed lifetimeMs = true) : lastUsed + lifetimeMs ≤ now := by
  have hlifetime : lifetimeMs ≤ (UInt64.ofNat (now - lastUsed)).toInt64.toInt := by simpa [isExpired] using h
  have helapsed := elapsed_le (now - lastUsed)
  omega

omit [DecidableEq ι] in
/-- A call and a use leave the pass alone, and a use they enter is of now. -/
theorem Sound.frame (hs : Sound s) (hnow : t.now = s.now) (hcleaner : t.cleaner = s.cleaner)
    (hused : ∀ name, t.lastUsedMs name = s.lastUsedMs name ∨ t.lastUsedMs name = s.now) : Sound t where
  used name := by
    rw [hnow]
    rcases hused name with h | h
    · rw [h]
      exact hs.used name
    · exact Nat.le_of_eq h
  candidates := by
    rw [hnow, hcleaner]
    exact hs.candidates
  doomed := by
    rw [hnow, hcleaner]
    exact hs.doomed

omit [DecidableEq ι] in
/-- The pass goes on with what it has, or with less. -/
theorem Sound.advance (hs : Sound s) (hnow : t.now = s.now) (hused : t.lastUsedMs = s.lastUsedMs)
    (hcandidates : ∀ name, ∀ lastUsed ∈ t.cleaner.candidates name, lastUsed ∈ s.cleaner.candidates name)
    (hdoomed : ∀ d ∈ t.cleaner.doomed, d ∈ s.cleaner.doomed) : Sound t where
  used := by
    rw [hnow, hused]
    exact hs.used
  candidates name lastUsed h := by
    rw [hnow]
    exact hs.candidates name lastUsed (hcandidates name lastUsed h)
  doomed d h := by
    rw [hnow]
    exact hs.doomed d (hdoomed d h)

theorem update_now (used : String → Nat) (now : Nat) (name n : String) :
    update used name now n = used n ∨ update used name now n = now := by
  by_cases hn : n = name
  · rw [hn, update_self]
    exact .inr rfl
  · rw [update_of_ne hn]
    exact .inl rfl

omit [DecidableEq ι] in
theorem afterCall_sound (hs : Sound s) (i : ι) (db : Db.State (Party ι) κ) :
    Sound (afterCall op lifetime s i db) := by
  unfold afterCall
  split
  · exact hs.frame rfl rfl fun _ => .inl rfl
  · split
    · exact hs.frame rfl rfl fun _ => .inl rfl
    · exact hs.frame rfl rfl fun _ => .inl rfl
  · exact hs.frame rfl rfl (update_now s.lastUsedMs s.now _)
  · exact hs.frame rfl rfl fun _ => .inl rfl

theorem decide_sound {name : String} (hs : Sound s) (h : step op lifetime fresh s (.decide name) = some t) :
    Sound t := by
  simp only [step] at h
  split at h
  next entries candidates toRemove hcleaner =>
    obtain ⟨lastUsed, hcandidate, rfl⟩ := Option.map_eq_some_iff.mp h
    have hcandidates := hs.candidates
    have hdoomed := hs.doomed
    rw [hcleaner] at hcandidates hdoomed
    refine ⟨hs.used, fun n used hused => ?_, fun d hd => ?_⟩
    · by_cases hn : n = name
      · rw [hn] at hused
        simp [Cleaner.candidates] at hused
      · exact hcandidates n used (by simpa [Cleaner.candidates, update_of_ne hn] using hused)
    · rcases List.mem_append.mp hd with hd | hd
      · exact hdoomed d hd
      · split at hd
        next lifetimeMs _ =>
          split at hd
          next hexpired =>
            obtain rfl := List.mem_singleton.mp hd
            exact le_of_isExpired (hcandidates name lastUsed hcandidate) hexpired
          next => cases hd
        next => cases hd
  next => cases h

theorem step_sound {a : Action ι} (hs : Sound s) (h : step op lifetime fresh s a = some t) : Sound t := by
  cases a with
  | call i =>
    obtain ⟨db, -, rfl⟩ := Option.map_eq_some_iff.mp h
    exact afterCall_sound hs i db
  | getConn name =>
    cases h
    split
    · exact hs.frame rfl rfl (update_now s.lastUsedMs s.now name)
    · exact hs
  | tick ms =>
    cases h
    refine ⟨fun name => ?_, fun name lastUsed hused => ?_, fun d hd => ?_⟩
    · exact Nat.le_add_right_of_le (hs.used name)
    · exact Nat.le_add_right_of_le (hs.candidates name lastUsed hused)
    · have hdoomed := hs.doomed d hd
      simp only
      omega
  | sample =>
    simp only [step] at h
    split at h
    · cases h
      refine ⟨hs.used, fun name lastUsed hused => ?_, fun d hd => by cases hd⟩
      simp only [Cleaner.candidates] at hused
      split at hused
      · cases hused
        exact hs.used name
      · cases hused
    · cases h
  | readRegistry =>
    simp only [step] at h
    split at h
    next hcleaner =>
      cases h
      exact hs.advance rfl rfl (by simp [hcleaner, Cleaner.candidates]) (by simp [Cleaner.doomed])
    next => cases h
  | decide name => exact decide_sound hs h
  | decided =>
    simp only [step] at h
    split at h
    next hcleaner =>
      cases h
      exact hs.advance rfl rfl (by simp [Cleaner.candidates]) (by simp [hcleaner, Cleaner.doomed])
    next => cases h
  | next =>
    simp only [step] at h
    split at h
    next =>
      cases h
      exact hs.advance rfl rfl (by simp [Cleaner.candidates]) (by simp [Cleaner.doomed])
    next hcleaner =>
      cases h
      exact hs.advance rfl rfl (by simp [Cleaner.candidates]) (by simp [hcleaner, Cleaner.doomed])
    next => cases h
  | remove =>
    simp only [step] at h
    split at h
    next hcleaner =>
      split at h
      · cases h
        exact hs.advance rfl rfl (fun _ _ hused => hused) (fun _ hd => hd)
      · cases h
        refine hs.advance rfl rfl (by simp [Cleaner.candidates]) ?_
        rw [hcleaner]
        exact fun d hd => List.mem_cons_of_mem _ hd
    next => cases h

omit [DecidableEq ι] in
theorem taking_doomed {p : Doomed × String} (h : p ∈ s.taking) : p.1 ∈ s.cleaner.doomed := by
  unfold State.taking at h
  split at h
  next d rest hcleaner =>
    have hcurrent : d ∈ s.cleaner.doomed := by
      rw [hcleaner]
      exact List.mem_cons_self
    split at h
    · split at h
      · cases h
        exact hcurrent
      · cases h
    · obtain ⟨name, -, rfl⟩ := Option.map_eq_some_iff.mp h
      exact hcurrent
    · split at h
      · cases h
        exact hcurrent
      · cases h
    · cases h
  next => cases h

omit [DecidableEq ι] in
theorem sparesInUse_of_undisturbed (hs : Sound s) {a : Action ι} (h : Undisturbed s a) : SparesInUse s a := by
  intro p hp ha
  obtain ⟨hstored, huntouched⟩ := h p hp ha
  refine ⟨p.1.maxLifetimeMs, hstored, fun t ht => ?_⟩
  have hlast := huntouched t ht
  have hexpired := hs.doomed p.1 (taking_doomed hp)
  omega

/-- **Expiry spares databases in use**, on every run in which what a pass takes away has
since the pass looked at it not been created, obtained or given another lifetime. -/
theorem expiry_spares_in_use (op : ι → Op) (lifetime : ι → Option Int) (fresh : κ) {s : State ι κ}
    (hidle : s.cleaner = .idle) (hused : ∀ name, s.lastUsedMs name ≤ s.now) (actions : List (Action ι))
    (h : Along (step op lifetime fresh) Undisturbed s actions) :
    Along (step op lifetime fresh) SparesInUse s actions := by
  have hs : Sound s := ⟨hused, by simp [hidle, Cleaner.candidates], by simp [hidle, Cleaner.doomed]⟩
  exact h.of_invariant (fun _ _ _ hs _ h => step_sound hs h) (fun _ _ hs h => sparesInUse_of_undisturbed hs h) hs

end Machine

/-! ### A use after the decision -/

/-- The registry of one database, with key 0. -/
def sampleRegistry : Registry where
  idOf name := if name = "logs" then some 0 else none
  nameOf id := if id = 0 then some "logs" else none
  nextId := 1
  inverse name id := by
    by_cases hname : name = "logs" <;> by_cases hid : id = 0 <;> simp [hname, hid, eq_comm]
  below id name h := by
    by_cases hid : id = 0
    · omega
    · simp [hid] at h

/-- `logs` lives for a second, and has not been used for two. -/
def unusedLogs : State Unit Unit where
  db :=
    { registry := sampleRegistry
      files := fun ext name => if ext = .db ∧ name = "logs" then some () else none
      pool := fun name => name == "logs"
      lock := none
      pc := fun _ => .start }
  maxLifetimeMs := fun id => if id = 0 then some 1000 else none
  lastUsedMs := fun _ => 5000
  now := 7000
  pass := 0
  cleaner := .idle
  touched := fun _ => some 5000

/-- A pass up to the removal of `logs`. -/
def passOverLogs : List (Action Unit) := [.sample, .readRegistry, .decide "logs", .decided, .next]

instance {ι κ : Type} [DecidableEq ι] (s : State ι κ) (a : Action ι) : Decidable (Undisturbed s a) :=
  match a with
  | .remove =>
    decidable_of_iff (∀ p ∈ s.taking, s.stored p.2 = some p.1.maxLifetimeMs ∧ ∀ t ∈ s.touched p.2, t ≤ p.1.lastUsed)
      ⟨fun h p hp _ => h p hp, fun h p hp => h p hp rfl⟩
  | .call _ | .getConn _ | .tick _ | .sample | .readRegistry | .decide _ | .decided | .next =>
    .isTrue fun _ _ ha => by cases ha

theorem expiry_spares_in_use_unused :
    (∃ s, run (step (fun _ => .create "logs") (fun _ => none) ()) unusedLogs
        (passOverLogs ++ List.replicate 6 .remove) = some s ∧ s.db.files .db "logs" = none) ∧
      Along (step (fun _ => .create "logs") (fun _ => none) ()) SparesInUse unusedLogs
        (passOverLogs ++ List.replicate 6 .remove) :=
  ⟨by decide +kernel,
    expiry_spares_in_use _ _ _ rfl (fun _ => Nat.le_of_ble_eq_true rfl) _ (by decide +kernel)⟩

/-- `logs` is obtained after the pass has decided, and loses its connection at the very
same moment. -/
theorem used_database_removed :
    ∃ s, run (step (fun _ => .create "logs") (fun _ => none) ()) unusedLogs (passOverLogs ++ [.getConn "logs"]) =
        some s ∧
      s.stored "logs" = some 1000 ∧ s.touched "logs" = some s.now ∧ s.db.pool "logs" = true ∧
      ∃ t, step (fun _ => .create "logs") (fun _ => none) () s .remove = some t ∧ t.db.pool "logs" = false := by
  decide +kernel

end NodeGet.Db.Expiry
