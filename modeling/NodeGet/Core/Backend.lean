import Mathlib.Order.Basic

/-! The two databases the server runs on. -/
namespace NodeGet.Core

inductive Backend where
  | sqlite
  | postgres
deriving DecidableEq, Repr

/-- The most parameters one statement may bind. -/
def Backend.maxVariables : Backend → Nat
  | .sqlite => 999
  | .postgres => 65535

/-- How many rows of so many columns one `INSERT` may carry; at least one. -/
def maxRowsPerStatement (backend : Backend) (columns : Nat) : Nat :=
  max (backend.maxVariables / max columns 1) 1

theorem maxRowsPerStatement_pos (backend : Backend) (columns : Nat) :
    0 < maxRowsPerStatement backend columns :=
  Nat.le_max_right ..

end NodeGet.Core
