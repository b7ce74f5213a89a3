import NodeGet.Core.Backend

/-! The write buffer in front of a monitoring table
(`ng-monitoring/src/monitoring_buffer.rs`): a bounded channel that refuses without
telling its caller, and a flush task that writes what it collected in sub-batches. -/
namespace NodeGet.Monitoring
open NodeGet.Core

/-- The sending half, with what was sent and not yet received. -/
structure BufferSender (α : Type) where
  queue : List α
  cap : Nat
  dropped : UInt64
  closed : Bool

variable {α : Type}

/-- A closed buffer ignores the item, a full one counts it as dropped. -/
def BufferSender.send (b : BufferSender α) (item : α) : BufferSender α :=
  if b.closed then b
  else if b.queue.length < b.cap then { b with queue := b.queue ++ [item] }
  else { b with dropped := b.dropped + 1 }

/-- The buffer takes the next item. -/
def BufferSender.Accepts (b : BufferSender α) : Prop := b.closed = false ∧ b.queue.length < b.cap

instance (b : BufferSender α) : Decidable b.Accepts := inferInstanceAs (Decidable (_ ∧ _))

theorem BufferSender.queue_send_of_accepts {b : BufferSender α} (h : b.Accepts) (item : α) :
    (b.send item).queue = b.queue ++ [item] := by
  simp [send, h.1, h.2]

theorem BufferSender.queue_send_of_refuses {b : BufferSender α} (h : ¬ b.Accepts) (item : α) :
    (b.send item).queue = b.queue := by
  unfold send
  split
  · rfl
  · next hopen =>
    split
    · next hroom => exact absurd ⟨Bool.eq_false_iff.mpr hopen, hroom⟩ h
    · rfl

theorem BufferSender.queue_subset_send (b : BufferSender α) (item : α) : b.queue ⊆ (b.send item).queue := by
  unfold send
  split
  · exact List.Subset.refl _
  · split
    · exact List.subset_append_left ..
    · exact List.Subset.refl _

@[simp] theorem BufferSender.closed_send (b : BufferSender α) (item : α) : (b.send item).closed = b.closed := by
  unfold send
  split
  · rfl
  · split <;> rfl

/-- The rows of one `INSERT`: as many as SQLite's parameter limit allows, or all. -/
def chunkSize (backend : Backend) (numColumns total : Nat) : Nat :=
  match backend with
  | .sqlite => min (backend.maxVariables / max numColumns 1) total
  | .postgres => total

theorem chunkSize_le (backend : Backend) (numColumns total : Nat) :
    chunkSize backend numColumns total ≤ total := by
  cases backend
  · exact Nat.min_le_right ..
  · exact Nat.le_refl _

end NodeGet.Monitoring
