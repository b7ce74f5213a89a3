import NodeGet.Monitoring.StaticReport

/-! How fresh the stored static data is: the reports of one agent, one after the other
(`ng-monitoring/src/rpc/agent/report_static.rs`).

The table holds every content of an agent once, at the time it was first reported: a
report whose hash the table has is skipped, whatever was reported in between. So when an
agent goes back to an earlier content, the newest row is not what it reported last
(`returning_content_is_skipped`).

If no content comes back (`Stream.once`), every report either repeats the one before it or
brings a content of its own, and then the newest row is what was reported last
(`newest_row_is_last_report`): the calls are in order, but the flush task takes its steps
at any time. -/
namespace NodeGet.Monitoring.StaticReport
open NodeGet.Core NodeGet.Machine

/-- The reports of one agent. Their times do not decrease, the hash tells contents apart,
and a content is not reported again after a different one. -/
structure Stream (agent : Int16) (report : ℕ → Report) : Prop where
  agent : ∀ i, (report i).uuidId = agent
  times : ∀ i j, i ≤ j → (report i).time.toInt64 ≤ (report j).time.toInt64
  hash : ∀ i j, truncateTo16 (report i).dataHash = truncateTo16 (report j).dataHash ↔
    (report i).data = (report j).data
  once : ∀ i j k, i < j → j < k → (report i).data = (report k).data → (report j).data = (report k).data

/-- The calls are made one after the other and nothing fails: not the lookup, not the send,
not a statement of the flush task. Nothing is deleted. -/
def Orderly (s : State ℕ) : Action ℕ → Prop
  | .check call => ∀ earlier < call, ∃ answer, s.pc earlier = .answered answer
  | .lookup _ error => error = none
  | .send _ _ => s.registered = true ∧ s.buffer.Accepts
  | .insert accepted => accepted = true
  | .dropBatch | .delete _ => False
  | .finish _ | .setBuffer _ _ | .collect _ => True

/-! ### What was taken in -/

/-- The record made from a report. -/
structure StaticRecord.Of (r : StaticRecord) (report : Report) : Prop where
  uuidId : r.uuidId = report.uuidId
  timestamp : r.timestamp = report.time.toInt64
  data : r.data = report.data
  dataHash : r.dataHash = report.dataHash

/-- The records of an agent, in the order they were taken in. -/
def own (agent : Int16) (records : List StaticRecord) : List StaticRecord :=
  records.filter fun r => r.uuidId = agent

/-- The newest of the records has the data of the report. -/
def NewestIs (agent : Int16) (records : List StaticRecord) (report : Report) : Prop :=
  ∃ before newest, own agent records = before ++ [newest] ∧ newest.data = report.data ∧
    newest.timestamp ≤ report.time.toInt64 ∧ ∀ r ∈ before, r.timestamp ≤ newest.timestamp

/-- The records after the first `m` reports were dealt with. -/
structure Log (agent : Int16) (report : ℕ → Report) (records : List StaticRecord) (m : ℕ) : Prop where
  keys : (records.map indexKey).Nodup
  old : ∀ r ∈ records, r.uuidId = agent → ∃ j < m, r.Of (report j)
  newest : ∀ j, m = j + 1 → NewestIs agent records (report j)

/-- No earlier report has the content of this one. -/
def NewContent (report : ℕ → Report) (k : ℕ) : Prop := ∀ j < k, (report j).data ≠ (report k).data

section
variable {agent : Int16} {report : ℕ → Report} (hstream : Stream agent report)
include hstream

/-- What differs from the report before differs from all before. -/
theorem newContent_of_hash_ne {k : ℕ}
    (h : ∀ j, k = j + 1 → truncateTo16 (report j).dataHash ≠ truncateTo16 (report k).dataHash) :
    NewContent report k := by
  intro j hj heq
  obtain ⟨before, rfl⟩ := Nat.exists_eq_succ_of_ne_zero (Nat.ne_of_gt (Nat.lt_of_le_of_lt (Nat.zero_le j) hj))
  refine h before rfl ((hstream.hash before _).mpr ?_)
  rcases Nat.lt_or_eq_of_le (Nat.le_of_lt_succ hj) with hlt | rfl
  · exact hstream.once j before _ hlt (Nat.lt_succ_self _) heq
  · exact heq

namespace Log
variable {records : List StaticRecord} {m : ℕ}

/-- A new content has a hash that no record of the agent has. -/
theorem hash_ne (h : Log agent report records m) (hnew : NewContent report m) {r : StaticRecord}
    (hr : r ∈ records) (hid : r.uuidId = agent) : r.dataHash ≠ (report m).dataHash := by
  intro heq
  obtain ⟨j, hj, hof⟩ := h.old r hr hid
  apply hnew j hj
  rw [← hstream.hash, ← hof.dataHash, heq]

/-- A new content is taken in. -/
theorem append (h : Log agent report records m) (hnew : NewContent report m) {r : StaticRecord}
    (hr : r.Of (report m)) : Log agent report (records ++ [r]) (m + 1) where
  keys := by
    rw [List.map_append]
    refine List.nodup_append.mpr ⟨h.keys, List.nodup_singleton _, fun key hkey other hother heq => ?_⟩
    obtain ⟨old, hold, rfl⟩ := List.mem_map.mp hkey
    obtain ⟨hid, hhash⟩ := Prod.mk.inj (heq.trans (List.mem_singleton.mp hother))
    exact h.hash_ne hstream hnew hold (hid.trans (hr.uuidId.trans (hstream.agent m))) (hhash.trans hr.dataHash)
  old x hx hid := by
    rcases List.mem_append.mp hx with hold | hlast
    · obtain ⟨j, hj, hof⟩ := h.old x hold hid
      exact ⟨j, Nat.lt_succ_of_lt hj, hof⟩
    · exact ⟨m, Nat.lt_succ_self m, List.mem_singleton.mp hlast ▸ hr⟩
  newest j hj := by
    obtain rfl : m = j := Nat.succ.inj hj
    refine ⟨own agent records, r, ?_, hr.data, hr.timestamp ▸ Int64.le_refl _, ?_⟩
    · rw [own, List.filter_append, List.filter_cons_of_pos (by simpa using hr.uuidId.trans (hstream.agent m))]
      rfl
    · intro x hx
      obtain ⟨hmem, hid⟩ := List.mem_filter.mp hx
      obtain ⟨i, hi, hof⟩ := h.old x hmem (of_decide_eq_true hid)
      rw [hof.timestamp, hr.timestamp]
      exact hstream.times i m (Nat.le_of_lt hi)

/-- The report has the content of the one before it. -/
theorem repeated (h : Log agent report records (m + 1)) (hsame : (report m).data = (report (m + 1)).data) :
    Log agent report records (m + 1 + 1) where
  keys := h.keys
  old r hr hid := by
    obtain ⟨j, hj, hof⟩ := h.old r hr hid
    exact ⟨j, Nat.lt_succ_of_lt hj, hof⟩
  newest j hj := by
    obtain rfl : m + 1 = j := Nat.succ.inj hj
    obtain ⟨before, newest, hown, hdata, htime, hbefore⟩ := h.newest m rfl
    exact ⟨before, newest, hown, hdata.trans hsame,
      Int64.le_trans htime (hstream.times m (m + 1) (Nat.le_succ m)), hbefore⟩

end Log

end

/-! ### Call by call -/

/-- `k` calls have answered, the next one may be on its way, and `m` reports are dealt with. -/
structure UpTo (agent : Int16) (report : ℕ → Report) (s : State ℕ) (k m : ℕ) : Prop where
  answered : ∀ j < k, ∃ answer, s.pc j = .answered answer
  waiting : ∀ j, k < j → s.pc j = .start
  active : (m = k ∧ (s.pc k = .start ∨ ((s.pc k = .missed ∨ s.pc k = .absent) ∧ NewContent report k))) ∨
    (m = k + 1 ∧ s.pc k = .sent)
  cache_first : k = 0 → s.hashCache agent = none
  cache : ∀ j, k = j + 1 → s.hashCache agent = some (truncateTo16 (report j).dataHash)
  log : Log agent report s.records m

namespace UpTo
variable {agent : Int16} {report : ℕ → Report} {s : State ℕ} {k m : ℕ} (h : UpTo agent report s k m)
include h

theorem not_answered (answer : Answer) : s.pc k ≠ .answered answer := by
  intro hpc
  rcases h.active with ⟨-, hpc' | ⟨hpc' | hpc', -⟩⟩ | ⟨-, hpc'⟩ <;> cases hpc.symm.trans hpc'

/-- The call that is on its way is the first that has not answered. -/
theorem eq_of_busy {call : ℕ} {pc : Pc} (hpc : s.pc call = pc) (hstart : pc ≠ .start)
    (hanswer : ∀ answer, pc ≠ .answered answer) : call = k := by
  rcases Nat.lt_trichotomy call k with hlt | heq | hgt
  · obtain ⟨answer, hanswered⟩ := h.answered call hlt
    exact absurd (hpc.symm.trans hanswered) (hanswer answer)
  · exact heq
  · exact absurd (hpc.symm.trans (h.waiting call hgt)) hstart

theorem eq_of_starts {call : ℕ} (hstart : s.pc call = .start)
    (hearlier : ∀ earlier < call, ∃ answer, s.pc earlier = .answered answer) : call = k := by
  rcases Nat.lt_trichotomy call k with hlt | heq | hgt
  · obtain ⟨answer, hpc⟩ := h.answered call hlt
    cases hstart.symm.trans hpc
  · exact heq
  · obtain ⟨answer, hpc⟩ := hearlier k hgt
    exact absurd hpc (h.not_answered answer)

/-- A call that got past its check and has not sent brings a new content. -/
theorem newContent {pc : Pc} (hpc : s.pc k = pc) (hstart : pc ≠ .start) (hsent : pc ≠ .sent) :
    m = k ∧ NewContent report k := by
  rcases h.active with ⟨hm, hpc' | ⟨-, hnew⟩⟩ | ⟨-, hpc'⟩
  · exact absurd (hpc.symm.trans hpc') hstart
  · exact ⟨hm, hnew⟩
  · exact absurd (hpc.symm.trans hpc') hsent

/-- Only the call on its way moves. -/
theorem waiting_setPc (pc : Pc) : ∀ j, k < j → (s.setPc k pc).pc j = .start := by
  intro j hj
  rw [State.setPc_pc_of_ne _ _ (Nat.ne_of_gt hj)]
  exact h.waiting j hj

theorem answered_setPc (pc : Pc) : ∀ j < k, ∃ answer, (s.setPc k pc).pc j = .answered answer := by
  intro j hj
  rw [State.setPc_pc_of_ne _ _ (Nat.ne_of_lt hj)]
  exact h.answered j hj

/-- A step that leaves the calls, the hash cache and the records alone. -/
theorem of_records_eq {t : State ℕ} (hcache : t.hashCache = s.hashCache) (hpc : t.pc = s.pc)
    (hrecords : t.records = s.records) : UpTo agent report t k m := by
  obtain ⟨hanswered, hwaiting, hactive, hfirst, hhash, hlog⟩ := h
  exact ⟨hpc ▸ hanswered, hpc ▸ hwaiting, hpc ▸ hactive, hcache ▸ hfirst, hcache ▸ hhash, hrecords ▸ hlog⟩

/-- The call on its way answers, its report dealt with and its hash cached. -/
theorem next {t : State ℕ} (answer : Answer) (hpc : t.pc = (s.setPc k (.answered answer)).pc)
    (hcache : t.hashCache agent = some (truncateTo16 (report k).dataHash))
    (hlog : Log agent report t.records (k + 1)) : UpTo agent report t (k + 1) (k + 1) where
  answered j hj := by
    rw [hpc]
    rcases Nat.lt_or_eq_of_le (Nat.le_of_lt_succ hj) with hlt | rfl
    · exact h.answered_setPc _ j hlt
    · exact ⟨answer, State.setPc_pc_self ..⟩
  waiting j hj := by
    rw [hpc]
    exact h.waiting_setPc _ j (Nat.lt_of_succ_lt hj)
  active := by
    refine .inl ⟨rfl, .inl ?_⟩
    rw [hpc]
    exact h.waiting_setPc _ (k + 1) (Nat.lt_succ_self k)
  cache_first hk := nomatch hk
  cache j hj := by
    rw [hcache, Nat.succ.inj hj]
  log := hlog

variable (hstream : Stream agent report)
include hstream

/-- The hash is compared with the one of the report before. -/
theorem check (hstart : s.pc k = .start) :
    ∃ k' m', UpTo agent report (s.setPc k
      (if s.hashCache.isDuplicate (report k).uuidId (report k).dataHash then .answered .skipped else .missed)) k' m' := by
  have hm : m = k := by
    rcases h.active with ⟨hm, -⟩ | ⟨-, hpc⟩
    · exact hm
    · cases hstart.symm.trans hpc
  subst hm
  split
  next hduplicate =>
    have hcached : s.hashCache agent = some (truncateTo16 (report m).dataHash) := by
      simpa [HashCache.isDuplicate, hstream.agent] using hduplicate
    cases m with
    | zero => cases (h.cache_first rfl).symm.trans hcached
    | succ before =>
      have hsame : truncateTo16 (report before).dataHash = truncateTo16 (report (before + 1)).dataHash :=
        Option.some.inj ((h.cache before rfl).symm.trans hcached)
      exact ⟨_, _, h.next .skipped rfl hcached (h.log.repeated hstream ((hstream.hash _ _).mp hsame))⟩
  next hmissed =>
    have hnew : NewContent report m := by
      refine newContent_of_hash_ne hstream fun j hj heq => hmissed ?_
      simp only [HashCache.isDuplicate, hstream.agent, h.cache j hj, heq, beq_self_eq_true]
    refine ⟨m, m, h.answered_setPc _, h.waiting_setPc _, .inl ⟨rfl, .inr ⟨.inl ?_, hnew⟩⟩, h.cache_first, h.cache, h.log⟩
    exact State.setPc_pc_self ..

/-- The content is new, so the table does not have its hash. -/
theorem lookup (hmissed : s.pc k = .missed) :
    UpTo agent report (s.setPc k
      (if s.rows.any fun row => row.record.uuidId == (report k).uuidId && row.record.dataHash == (report k).dataHash
        then .found else .absent)) k k := by
  obtain ⟨rfl, hnew⟩ := h.newContent hmissed (by simp) (by simp)
  rw [if_neg]
  · refine ⟨h.answered_setPc _, h.waiting_setPc _, .inl ⟨rfl, .inr ⟨.inr ?_, hnew⟩⟩, h.cache_first, h.cache, h.log⟩
    exact State.setPc_pc_self ..
  · intro hstored
    obtain ⟨row, hrow, hkey⟩ := List.any_eq_true.mp hstored
    rw [Bool.and_eq_true, beq_iff_eq, beq_iff_eq, hstream.agent] at hkey
    have hmem : row.record ∈ s.records :=
      List.mem_append_left _ (List.mem_append_left _ (List.mem_map_of_mem hrow))
    exact h.log.hash_ne hstream hnew hmem hkey.1 hkey.2

theorem send (habsent : s.pc k = .absent) (haccepts : s.buffer.Accepts) (receivedAt : Int64) :
    UpTo agent report ({ s with buffer := s.buffer.send ((report k).record receivedAt) }.setPc k .sent) k (k + 1) := by
  obtain ⟨rfl, hnew⟩ := h.newContent habsent (by simp) (by simp)
  refine ⟨h.answered_setPc _, h.waiting_setPc _, .inr ⟨rfl, State.setPc_pc_self ..⟩, h.cache_first, h.cache, ?_⟩
  have hrecords : ({ s with buffer := s.buffer.send ((report m).record receivedAt) }.setPc m .sent).records =
      s.records ++ [(report m).record receivedAt] := by
    simp only [State.records, State.setPc, BufferSender.queue_send_of_accepts haccepts, List.append_assoc]
  rw [hrecords]
  exact h.log.append hstream hnew ⟨rfl, rfl, rfl, rfl⟩

omit hstream in
/-- No two records have one index key, so no statement is refused for that. -/
theorem conflicts_eq_false (backend : Backend) : conflicts s.rows (s.subBatch backend) = false := by
  have hsub : (s.rows.map (·.record) ++ s.subBatch backend).Sublist s.records := by
    rw [State.records, List.append_assoc]
    exact (List.Sublist.refl _).append ((List.take_sublist ..).trans (List.sublist_append_left ..))
  have hnodup := h.log.keys.sublist (hsub.map indexKey)
  rw [List.map_append] at hnodup
  rw [conflicts, decide_eq_true hnodup]
  rfl

end UpTo

section
variable (backend : Backend) (idOf : Uuid → Option Int16) {agent : Int16} {report : ℕ → Report}
  (hstream : Stream agent report)
include hstream

/-- Every orderly step keeps the records to what was reported. -/
theorem step_upTo {s t : State ℕ} {a : Action ℕ} {k m : ℕ} (h : UpTo agent report s k m) (hG : Orderly s a)
    (hstep : step backend idOf report s a = some t) : ∃ k' m', UpTo agent report t k' m' := by
  cases a with
  | check call =>
    obtain ⟨hstart, heq⟩ := Option.ite_none_right_eq_some.mp hstep
    obtain rfl := h.eq_of_starts hstart hG
    cases heq
    exact h.check hstream hstart
  | lookup call error =>
    obtain ⟨hmissed, heq⟩ := Option.ite_none_right_eq_some.mp hstep
    obtain rfl := h.eq_of_busy hmissed (by simp) (by simp)
    cases (show error = none from hG)
    cases heq
    exact ⟨_, _, h.lookup hstream hmissed⟩
  | send call receivedAt =>
    obtain ⟨habsent, heq⟩ := Option.ite_none_right_eq_some.mp hstep
    obtain rfl := h.eq_of_busy habsent (by simp) (by simp)
    rw [if_pos hG.1] at heq
    cases heq
    exact ⟨_, _, h.send hstream habsent hG.2 receivedAt⟩
  | finish call =>
    rw [step] at hstep
    split at hstep
    next hfound =>
      -- A report on its way was not found in the table.
      obtain rfl := h.eq_of_busy hfound (by simp) (by simp)
      rcases h.active with ⟨-, hpc | ⟨hpc | hpc, -⟩⟩ | ⟨-, hpc⟩ <;> cases hfound.symm.trans hpc
    next hsent =>
      obtain rfl := h.eq_of_busy hsent (by simp) (by simp)
      cases hstep
      obtain ⟨-, hpc | ⟨hpc | hpc, -⟩⟩ | ⟨rfl, -⟩ := h.active
      · cases hsent.symm.trans hpc
      · cases hsent.symm.trans hpc
      · cases hsent.symm.trans hpc
      · refine ⟨_, _, h.next .buffered rfl ?_ h.log⟩
        rw [← hstream.agent call]
        exact Function.update_self ..
    next => cases hstep
  | setBuffer registered closed =>
    cases hstep
    exact ⟨k, m, h.of_records_eq rfl rfl rfl⟩
  | collect count =>
    obtain ⟨hbatch, heq⟩ := Option.ite_none_right_eq_some.mp hstep
    cases heq
    refine ⟨k, m, h.of_records_eq rfl rfl ?_⟩
    rw [State.records, State.records, hbatch, List.append_nil, List.append_assoc, List.take_append_drop]
  | insert accepted =>
    rw [step, show accepted = true from hG, h.conflicts_eq_false backend] at hstep
    cases hstep
    exact ⟨k, m, h.of_records_eq rfl rfl (records_insert s backend)⟩
  | dropBatch => exact absurd hG id
  | delete conditions => exact absurd hG id

/-- **The newest stored row is what was reported last**: let the reports of an agent come
one after the other, no content again after a different one, and let nothing fail. Once
`n + 1` calls have answered and the buffer is flushed, the row of the agent that was stored
last has the greatest timestamp and the data of the last report. -/
theorem newest_row_is_last_report (rows : List (Row StaticRecord)) (nextId cap : Nat)
    (hkeys : ((rows.map (·.record)).map indexKey).Nodup) (hnone : ∀ row ∈ rows, row.record.uuidId ≠ agent)
    (actions : List (Action ℕ))
    (hG : Along (step backend idOf report) Orderly (.started rows nextId cap) actions) (s : State ℕ)
    (hrun : run (step backend idOf report) (.started rows nextId cap) actions = some s) (n : ℕ)
    (hanswered : ∀ call ≤ n, ∃ answer, s.pc call = .answered answer) (hlast : s.pc (n + 1) = .start)
    (hflushed : s.batch = [] ∧ s.buffer.queue = []) :
    NewestIs agent (s.rows.map (·.record)) (report n) := by
  have hstart : UpTo agent report (.started rows nextId cap) 0 0 := by
    refine ⟨nofun, fun _ _ => rfl, .inl ⟨rfl, .inl rfl⟩, fun _ => rfl, nofun, ?_⟩
    have hrecords : (State.started rows nextId cap : State ℕ).records = rows.map (·.record) := by
      simp [State.records, State.started]
    rw [hrecords]
    refine ⟨hkeys, fun r hr hid => ?_, nofun⟩
    obtain ⟨row, hrow, rfl⟩ := List.mem_map.mp hr
    exact absurd hid (hnone row hrow)
  have hstep : ∀ s a t, (∃ k m, UpTo agent report s k m) → Orderly s a →
      step backend idOf report s a = some t → ∃ k m, UpTo agent report t k m := by
    intro s a t hs hG hstep
    obtain ⟨k, m, h⟩ := hs
    exact step_upTo backend idOf hstream h hG hstep
  obtain ⟨k, m, h⟩ := run_invariant hstep ⟨0, 0, hstart⟩ hG hrun
  have hk : k = n + 1 := by
    refine (h.eq_of_starts hlast fun call hcall => ?_).symm
    exact hanswered call (Nat.le_of_lt_succ hcall)
  have hm : m = n + 1 := by
    rcases h.active with ⟨hm, -⟩ | ⟨-, hpc⟩
    · exact hm.trans hk
    · cases hlast.symm.trans (hk ▸ hpc)
  have hnewest := h.log.newest n hm
  rwa [State.records, hflushed.1, hflushed.2, List.append_nil, List.append_nil] at hnewest

end

section Example

instance (pc : Pc) : Decidable (∃ answer, pc = .answered answer) :=
  match pc with
  | .answered answer => .isTrue ⟨answer, rfl⟩
  | .start | .missed | .found | .absent | .sent => .isFalse fun ⟨_, h⟩ => by cases h

instance (s : State ℕ) (a : Action ℕ) : Decidable (Orderly s a) :=
  match a with
  | .check call => inferInstanceAs (Decidable (∀ earlier < call, ∃ answer, s.pc earlier = .answered answer))
  | .lookup _ error => inferInstanceAs (Decidable (error = none))
  | .send _ _ => inferInstanceAs (Decidable (s.registered = true ∧ s.buffer.Accepts))
  | .insert accepted => inferInstanceAs (Decidable (accepted = true))
  | .dropBatch | .delete _ => .isFalse id
  | .finish _ | .setBuffer _ _ | .collect _ => .isTrue trivial

def contentA (time : UInt64) : Report := ⟨1, time, fun _ => .null, [0xaa]⟩

def contentB (time : UInt64) : Report := ⟨1, time, fun _ => .bool true, [0xbb]⟩

def isNull : Json → Bool
  | .null => true
  | _ => false

/-- The times of an agent's records and whether each has the first content. -/
def summary (records : List StaticRecord) : List (Int64 × Bool) :=
  (own 1 records).map fun r => (r.timestamp, isNull (r.data .cpu))

theorem NewestIs.summary {records : List StaticRecord} {report : Report} (h : NewestIs 1 records report) :
    ∃ before time, summary records = before ++ [(time, isNull (report.data .cpu))] := by
  obtain ⟨before, newest, hown, hdata, -⟩ := h
  refine ⟨before.map fun r => (r.timestamp, isNull (r.data .cpu)), newest.timestamp, ?_⟩
  rw [StaticReport.summary, hown, List.map_append, ← hdata]
  rfl

/-- A report that is stored and flushed, and one that is skipped for a stored hash. -/
def reportAndFlush (call : ℕ) : List (Action ℕ) :=
  [.check call, .lookup call none, .send call 5, .finish call, .collect 1, .insert true]

def reportSkipped (call : ℕ) : List (Action ℕ) := [.check call, .lookup call none, .finish call]

/-- The first report has another content than all later ones. -/
def changing (i : ℕ) : Report := if i = 0 then contentA 1 else contentB 2

theorem changing_stream : Stream 1 changing where
  agent i := by
    rw [changing]
    split <;> rfl
  times i j hij := by
    rcases Nat.eq_zero_or_pos j with rfl | hj
    · rw [Nat.le_zero.mp hij]
      exact Int64.le_refl _
    · rw [changing, changing, if_neg (Nat.ne_of_gt hj)]
      split <;> decide
  hash i j := by
    have hne : (contentA 1).data ≠ (contentB 2).data := fun h => by cases congrFun h .cpu
    have hhash : truncateTo16 (contentA 1).dataHash ≠ truncateTo16 (contentB 2).dataHash := by decide
    simp only [changing]
    split <;> split
    · simp
    · exact iff_of_false hhash hne
    · exact iff_of_false hhash.symm hne.symm
    · simp
  once i j k hij hjk _ := by
    rw [changing, changing, if_neg (by omega), if_neg (by omega)]

theorem newest_row_is_last_report_changing :
    ∃ s, run (step .sqlite (fun _ => some 1) changing) (.started [] 1 1) (reportAndFlush 0 ++ reportAndFlush 1) =
        some s ∧ NewestIs 1 (s.rows.map (·.record)) (changing 1) := by
  have hG : Along (step .sqlite (fun _ => some 1) changing) Orderly (.started [] 1 1)
      (reportAndFlush 0 ++ reportAndFlush 1) := by decide +kernel
  obtain ⟨s, hrun, hseen⟩ := Option.map_eq_some_iff.mp
    (show (run (step .sqlite (fun _ => some 1) changing) (.started [] 1 1) (reportAndFlush 0 ++ reportAndFlush 1)).map
      (fun s => ([s.pc 0, s.pc 1, s.pc 2], s.batch.length, s.buffer.queue.length)) =
      some ([.answered .buffered, .answered .buffered, .start], 0, 0) by decide +kernel)
  simp only [Prod.mk.injEq, List.cons.injEq, List.length_eq_zero_iff] at hseen
  obtain ⟨⟨hpc0, hpc1, hpc2, -⟩, hflushed⟩ := hseen
  refine ⟨s, hrun, newest_row_is_last_report .sqlite (fun _ => some 1) changing_stream [] 1 1 List.nodup_nil nofun _ hG s
    hrun 1 (fun call hcall => ?_) hpc2 hflushed⟩
  rcases Nat.le_one_iff_eq_zero_or_eq_one.mp hcall with rfl | rfl
  · exact ⟨_, hpc0⟩
  · exact ⟨_, hpc1⟩

/-- The second report has another content, the third the content of the first. -/
def returning (i : ℕ) : Report := if i = 0 then contentA 1 else if i = 1 then contentB 2 else contentA 3

/-- The newest row has the second content, and the last report the first one. -/
theorem returning_content_is_skipped :
    ∃ s, Along (step .sqlite (fun _ => some 1) returning) Orderly (.started [] 1 1)
        (reportAndFlush 0 ++ reportAndFlush 1 ++ reportSkipped 2) ∧
      run (step .sqlite (fun _ => some 1) returning) (.started [] 1 1)
        (reportAndFlush 0 ++ reportAndFlush 1 ++ reportSkipped 2) = some s ∧
      s.pc 2 = .answered .skipped ∧ s.pc 3 = .start ∧ s.batch = [] ∧ s.buffer.queue = [] ∧
      summary (s.rows.map (·.record)) = [(1, true), (2, false)] ∧
      ¬ NewestIs 1 (s.rows.map (·.record)) (returning 2) := by
  obtain ⟨s, hrun, hseen⟩ := Option.map_eq_some_iff.mp
    (show (run (step .sqlite (fun _ => some 1) returning) (.started [] 1 1)
        (reportAndFlush 0 ++ reportAndFlush 1 ++ reportSkipped 2)).map
      (fun s => ([s.pc 2, s.pc 3], [s.batch.length, s.buffer.queue.length], summary (s.rows.map (·.record)))) =
      some ([.answered .skipped, .start], [0, 0], [(1, true), (2, false)]) by decide +kernel)
  simp only [Prod.mk.injEq, List.cons.injEq, List.length_eq_zero_iff] at hseen
  obtain ⟨⟨hpc, hnext, -⟩, ⟨hbatch, hqueue, -⟩, hsummary⟩ := hseen
  refine ⟨s, by decide +kernel, hrun, hpc, hnext, hbatch, hqueue, hsummary, fun hnewest => ?_⟩
  obtain ⟨before, time, heq⟩ := hnewest.summary
  have hlast := congrArg List.getLast? (hsummary.symm.trans heq)
  rw [List.getLast?_append, List.getLast?_singleton] at hlast
  cases hlast

end Example

end NodeGet.Monitoring.StaticReport
