import Mathlib.Data.List.Basic

/-! The error type every crate reports through (`ng-core/src/error.rs`): its
variants, the text shown to a client and the number in the `error_id` field of
an RPC answer. -/
namespace NodeGet.Core

inductive NodegetError where
  | parseError (message : String)
  | invalidInput (message : String)
  | permissionDenied (message : String)
  | databaseError (message : String)
  | agentConnectionError (message : String)
  | agentOffline (message : String)
  | notFound (message : String)
  | uuidNotFound (message : String)
  | configNotFound (message : String)
  | serializationError (message : String)
  | ioError (message : String)
  | other (message : String)
deriving DecidableEq, Repr

namespace NodegetError

/-- The `Display` text. An offline agent's message is passed on as it is. -/
def display : NodegetError → String
  | parseError m => "Parse error: " ++ m
  | invalidInput m => "Invalid input: " ++ m
  | permissionDenied m => "Permission denied: " ++ m
  | databaseError m => "Database error: " ++ m
  | agentConnectionError m => "Unable to connect agent: " ++ m
  | agentOffline m => m
  | notFound m => "Not found in database: " ++ m
  | uuidNotFound m => "UUID not found: " ++ m
  | configNotFound m => "Config not found: " ++ m
  | serializationError m => "Serialization error: " ++ m
  | ioError m => "IO error: " ++ m
  | other m => "Other error: " ++ m

end NodegetError

/-- A computation that succeeds got an answer from its first part. -/
theorem ok_of_bind {α β : Type} {x : Except NodegetError α} {f : α → Except NodegetError β} {b : β}
    (h : (x >>= f) = .ok b) : ∃ a, x = .ok a ∧ f a = .ok b := by
  cases x with
  | error e => cases h
  | ok a => exact ⟨a, rfl, h⟩

/-- A check followed by a computation succeeds when both do. -/
theorem check_ok_iff {β : Type} {x : Except NodegetError Unit} {y : Except NodegetError β} {b : β} :
    (x >>= fun _ => y) = .ok b ↔ x = .ok () ∧ y = .ok b := by
  constructor
  · intro h
    obtain ⟨_, hx, hy⟩ := ok_of_bind h
    exact ⟨hx, hy⟩
  · intro ⟨hx, hy⟩
    rw [hx]
    exact hy

/-- Checks made one after another succeed when each does. -/
theorem forM_ok {α : Type} {f : α → Except NodegetError Unit} {xs : List α} (h : xs.forM f = .ok ()) {x : α}
    (hx : x ∈ xs) : f x = .ok () := by
  induction xs with
  | nil => cases hx
  | cons y rest ih =>
    obtain ⟨_, hy, hrest⟩ := ok_of_bind (show (f y >>= fun _ => rest.forM f) = .ok () from h)
    rcases List.mem_cons.mp hx with rfl | hmem
    · exact hy
    · exact ih hrest hmem

end NodeGet.Core
