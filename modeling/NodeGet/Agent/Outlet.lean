import NodeGet.Monitoring.Summary

/-! Which interfaces carry the traffic of the host (`agent/src/monitoring/outlet_interface.rs`:
`OutletCache::identify_outlet` and its rules).

An unknown interface has the cache filled anew from all interfaces there are. An interface that is
known keeps its answer, so that the answers are those for the interfaces that were read last. -/
namespace NodeGet.Agent.Outlet
open NodeGet.Monitoring.Summary Function

structure InterfaceFacts where
  name : String
  ifindex : Option UInt32
  isVirtual : Bool
deriving DecidableEq

abbrev Key := String × Option UInt32

def InterfaceFacts.key (i : InterfaceFacts) : Key := (i.name, i.ifindex)

/-- `identified_interfaces` -/
abbrev OutletCache := Key → Option Bool

def selectByKernel (facts : List InterfaceFacts) : List Key := (facts.filter fun i => !i.isVirtual).map (·.key)

def isContainerName (name : String) : Bool := "eth".toList.isPrefixOf name.toList || name == "venet0"

def selectByContainer (facts : List InterfaceFacts) : List Key :=
  (facts.filter fun i => isContainerName i.name).map (·.key)

def isOutletByName (name : String) : Bool := !isVirtualInterface name

def insertAll (value : Bool) (cache : OutletCache) (keys : List Key) : OutletCache :=
  keys.foldl (fun cache key => update cache key (some value)) cache

def identifyOutlet (facts : List InterfaceFacts) (cache : OutletCache) (key : Key) : Bool × OutletCache :=
  match cache key with
  | some isOutlet => (isOutlet, cache)
  | none =>
    if facts.isEmpty then
      let isOutlet := isOutletByName key.1
      (isOutlet, update (fun _ => none) key (some isOutlet))
    else
      let selected := if (selectByKernel facts).isEmpty then selectByContainer facts else selectByKernel facts
      let cache := insertAll true (insertAll false (fun _ => none) (facts.map (·.key))) selected
      ((cache key).getD false, cache)

/-- A round asks for every interface that there is. -/
structure Round where
  interfaces : List InterfaceFacts
  queries : List Key
  covers : ∀ key, key ∈ queries ↔ key ∈ interfaces.map (·.key)

def askAll (facts : List InterfaceFacts) : OutletCache → List Key → List (Key × Bool) × OutletCache
  | cache, [] => ([], cache)
  | cache, key :: rest =>
    let (isOutlet, cache) := identifyOutlet facts cache key
    let (answers, cache) := askAll facts cache rest
    ((key, isOutlet) :: answers, cache)

def play (cache : OutletCache) (rounds : List Round) : OutletCache :=
  rounds.foldl (fun cache r => (askAll r.interfaces cache r.queries).2) cache

/-! ### The rules -/

/-- The interfaces that are not virtual, or else those with a container's names. -/
def IsOutlet (facts : List InterfaceFacts) (key : Key) : Prop :=
  if ∃ i ∈ facts, i.isVirtual = false then ∃ i ∈ facts, i.isVirtual = false ∧ i.key = key
  else ∃ i ∈ facts, isContainerName i.name = true ∧ i.key = key

instance decidableIsOutlet (facts : List InterfaceFacts) (key : Key) : Decidable (IsOutlet facts key) := by
  unfold IsOutlet
  infer_instance

/-- All of the interfaces were among those that were read. -/
def Known (read interfaces : List InterfaceFacts) : Prop := ∀ i ∈ interfaces, i.key ∈ read.map (·.key)

instance decidableKnown (read interfaces : List InterfaceFacts) : Decidable (Known read interfaces) := by
  unfold Known
  infer_instance

/-- The interfaces that the cache was last filled from. -/
def lastRead (rounds : List Round) : List InterfaceFacts :=
  rounds.foldl (fun read r => if Known read r.interfaces then read else r.interfaces) []

/-- What the cache holds when it is filled from `read`. -/
def filled (read : List InterfaceFacts) : OutletCache :=
  fun key => if key ∈ read.map (·.key) then some (decide (IsOutlet read key)) else none

variable {facts read : List InterfaceFacts} {key : Key} {queries : List Key}

theorem insertAll_apply (value : Bool) (cache : OutletCache) (keys : List Key) (key : Key) :
    insertAll value cache keys key = if key ∈ keys then some value else cache key := by
  induction keys generalizing cache with
  | nil => rfl
  | cons k keys ih =>
    have hstep : insertAll value cache (k :: keys) = insertAll value (update cache k (some value)) keys := rfl
    rw [hstep, ih]
    by_cases hk : key = k <;> by_cases hmem : key ∈ keys <;> simp [hk, hmem]

theorem mem_selected :
    key ∈ (if (selectByKernel facts).isEmpty then selectByContainer facts else selectByKernel facts) ↔
      IsOutlet facts key := by
  unfold IsOutlet
  by_cases hkernel : ∃ i ∈ facts, i.isVirtual = false
  · have hselected : (selectByKernel facts).isEmpty = false := by simpa [selectByKernel] using hkernel
    rw [hselected, if_pos hkernel]
    simp [selectByKernel, and_assoc]
  · have hselected : (selectByKernel facts).isEmpty = true := by simpa [selectByKernel] using hkernel
    rw [hselected, if_neg hkernel]
    simp [selectByContainer, and_assoc]

theorem IsOutlet.known (h : IsOutlet facts key) : key ∈ facts.map (·.key) := by
  unfold IsOutlet at h
  split_ifs at h <;> obtain ⟨i, hi, -, rfl⟩ := h <;> exact List.mem_map_of_mem hi

theorem identify_known (h : key ∈ read.map (·.key)) :
    identifyOutlet facts (filled read) key = (decide (IsOutlet read key), filled read) := by
  simp only [identifyOutlet, filled, if_pos h]

theorem identify_unknown (h : key ∉ read.map (·.key)) (hfacts : key ∈ facts.map (·.key)) :
    identifyOutlet facts (filled read) key = (decide (IsOutlet facts key), filled facts) := by
  have hnonempty : facts.isEmpty = false := by
    cases facts with
    | nil => cases hfacts
    | cons => rfl
  have hfilled : insertAll true (insertAll false (fun _ => none) (facts.map (·.key)))
      (if (selectByKernel facts).isEmpty then selectByContainer facts else selectByKernel facts) = filled facts := by
    funext key
    rw [insertAll_apply, insertAll_apply, filled]
    by_cases houtlet : IsOutlet facts key
    · rw [if_pos (mem_selected.mpr houtlet), if_pos houtlet.known, decide_eq_true houtlet]
    · rw [if_neg (mt mem_selected.mp houtlet), decide_eq_false houtlet]
  have hmiss : filled read key = none := if_neg h
  simp only [identifyOutlet, hmiss, hnonempty, Bool.false_eq_true, if_false, hfilled]
  rw [filled, if_pos hfacts, Option.getD_some]

theorem askAll_known (h : ∀ key ∈ queries, key ∈ read.map (·.key)) :
    askAll facts (filled read) queries = (queries.map fun key => (key, decide (IsOutlet read key)), filled read) := by
  induction queries with
  | nil => rfl
  | cons key queries ih =>
    obtain ⟨hkey, hrest⟩ := List.forall_mem_cons.mp h
    simp only [askAll, identify_known hkey, ih hrest, List.map_cons]

theorem askAll_cache (hqueries : ∀ key ∈ queries, key ∈ facts.map (·.key)) :
    (askAll facts (filled read) queries).2 =
      filled (if ∀ key ∈ queries, key ∈ read.map (·.key) then read else facts) := by
  induction queries with
  | nil => simp [askAll]
  | cons key queries ih =>
    obtain ⟨hkey, hrest⟩ := List.forall_mem_cons.mp hqueries
    by_cases hknown : key ∈ read.map (·.key)
    · simp only [askAll, identify_known hknown, ih hrest, List.forall_mem_cons, hknown, true_and]
    · simp only [askAll, identify_unknown hknown hkey, askAll_known hrest, List.forall_mem_cons, hknown,
        false_and, if_false]

theorem Round.known_iff (r : Round) : (∀ key ∈ r.queries, key ∈ read.map (·.key)) ↔ Known read r.interfaces := by
  simp only [r.covers, List.forall_mem_map, Known]

theorem lastRead_concat (rounds : List Round) (r : Round) :
    lastRead (rounds ++ [r]) = if Known (lastRead rounds) r.interfaces then lastRead rounds else r.interfaces := by
  rw [lastRead, List.foldl_append]
  rfl

/-- The cache is what the interfaces that were read last fill it with. -/
theorem play_filled (rounds : List Round) : play (fun _ => none) rounds = filled (lastRead rounds) := by
  induction rounds using List.reverseRecOn with
  | nil => rfl
  | append_singleton rounds r ih =>
    have hqueries (key) (hkey : key ∈ r.queries) := (r.covers key).mp hkey
    have hcache : (askAll _ (filled (lastRead rounds)) _).2 = _ := askAll_cache hqueries
    simp only [r.known_iff, ← ih, ← lastRead_concat] at hcache
    simpa only [play, List.foldl_append, List.foldl_cons, List.foldl_nil] using hcache

theorem lastRead_same {rounds prior : List Round} (h : ∀ r ∈ prior, Known (lastRead rounds) r.interfaces) :
    lastRead (rounds ++ prior) = lastRead rounds := by
  induction prior using List.reverseRecOn with
  | nil => rw [List.append_nil]
  | append_singleton prior r ih =>
    have hprior := ih fun q hq => h q (by simp [hq])
    rw [← List.append_assoc, lastRead_concat, hprior, if_pos (h r (by simp))]

theorem isOutlet_congr (h : ∀ i, i ∈ facts ↔ i ∈ read) : IsOutlet facts key ↔ IsOutlet read key := by
  simp only [IsOutlet, h]

/-- **From the second round after the last change on, the answers are right** exactly if an interface
was new since the interfaces were last read, or the rules for those give the same. -/
theorem answers_right_iff (before : List Round) (first : Round) (prior : List Round) (r : Round)
    (hsame : ∀ q ∈ prior ++ [r], ∀ i, i ∈ q.interfaces ↔ i ∈ first.interfaces) :
    (∀ answer ∈ (askAll r.interfaces (play (fun _ => none) (before ++ first :: prior)) r.queries).1,
        (answer.2 = true ↔ IsOutlet r.interfaces answer.1)) ↔
      (Known (lastRead before) first.interfaces →
        ∀ i ∈ first.interfaces, IsOutlet (lastRead before) i.key ↔ IsOutlet first.interfaces i.key) := by
  have hknown : Known (lastRead (before ++ [first])) first.interfaces := by
    rw [lastRead_concat]
    split_ifs with h
    · exact h
    · exact fun i hi => List.mem_map_of_mem hi
  have hlater (q : Round) (hq : q ∈ prior ++ [r]) : Known (lastRead (before ++ [first])) q.interfaces :=
    fun i hi => hknown i ((hsame q hq i).mp hi)
  have hlast : lastRead (before ++ first :: prior) = lastRead (before ++ [first]) := by
    rw [List.append_cons]
    exact lastRead_same fun q hq => hlater q (by simp [hq])
  have hr := hsame r (by simp)
  rw [play_filled, hlast, askAll_known (r.known_iff.mpr (hlater r (by simp)))]
  simp only [List.forall_mem_map, decide_eq_true_eq, isOutlet_congr hr, r.covers, lastRead_concat]
  constructor
  · intro h hbefore i hi
    simpa only [if_pos hbefore] using h i ((hr i).mpr hi)
  · intro h i hi
    split_ifs with hbefore
    · exact h hbefore i ((hr i).mp hi)
    · rfl

/-- The given interfaces, asked for in order. -/
def inOrder (interfaces : List InterfaceFacts) : Round := ⟨interfaces, interfaces.map (·.key), fun _ => Iff.rfl⟩

theorem answers_right_added :
    ¬Known (lastRead [inOrder [⟨"eth0", some 3, true⟩]]) [⟨"eth0", some 3, true⟩, ⟨"enp1s0", some 2, false⟩] ∧
    ∀ answer ∈ (askAll [⟨"eth0", some 3, true⟩, ⟨"enp1s0", some 2, false⟩]
        (play (fun _ => none) [inOrder [⟨"eth0", some 3, true⟩],
          inOrder [⟨"eth0", some 3, true⟩, ⟨"enp1s0", some 2, false⟩]]) [("eth0", some 3), ("enp1s0", some 2)]).1,
      (answer.2 = true ↔ IsOutlet [⟨"eth0", some 3, true⟩, ⟨"enp1s0", some 2, false⟩] answer.1) := by
  have hnew : ¬Known (lastRead [inOrder [⟨"eth0", some 3, true⟩]])
      [⟨"eth0", some 3, true⟩, ⟨"enp1s0", some 2, false⟩] := by decide +kernel
  refine ⟨hnew, (answers_right_iff [inOrder [⟨"eth0", some 3, true⟩]]
    (inOrder [⟨"eth0", some 3, true⟩, ⟨"enp1s0", some 2, false⟩]) []
    (inOrder [⟨"eth0", some 3, true⟩, ⟨"enp1s0", some 2, false⟩]) (by simp)).mpr fun h => ?_⟩
  exact absurd h hnew

/-- The physical interface is removed, and the container's one keeps the answer it had beside it. -/
theorem removed_interface_stale :
    (askAll [⟨"eth0", some 3, true⟩]
        (play (fun _ => none) [inOrder [⟨"enp1s0", some 2, false⟩, ⟨"eth0", some 3, true⟩],
          inOrder [⟨"eth0", some 3, true⟩]]) [("eth0", some 3)]).1 = [(("eth0", some 3), false)] ∧
      IsOutlet [⟨"eth0", some 3, true⟩] ("eth0", some 3) := by
  decide +kernel

end NodeGet.Agent.Outlet
