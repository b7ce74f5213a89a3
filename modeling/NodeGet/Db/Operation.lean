import NodeGet.Db.Registry
import NodeGet.Machine.Run

/-! `db.create`, `db.update` (rename) and `db.delete` as they run side by side
(`ng-db/src/rpc/db/{create,update,delete}.rs`, `ng-db/src/db_registry.rs`).

Each call is a sequence of single steps on three stores: the registry table, the
files of a database (`.db`, `-wal`, `-shm`) and the pool of open connections. A
create and a rename check the registry first and take the operation lock after
that; a delete takes no lock at all. Renaming and deleting go through
`remove_conn`, renaming and creating through `create_conn`. -/
namespace NodeGet.Db
open NodeGet.Core Function

inductive Op where
  | create (name : String)
  | update (name newName : String)
  | delete (name : String)
deriving DecidableEq

/-- The database the call is about. -/
def Op.name : Op → String
  | .create name | .update name _ | .delete name => name

/-- The database the call leaves behind. -/
def Op.target : Op → String
  | .create name | .delete name => name
  | .update _ newName => newName

/-- The files of a database, in the order they are worked on. -/
inductive Ext where
  | db
  | wal
  | shm
deriving DecidableEq

def Ext.next : Ext → Option Ext
  | .db => some .wal
  | .wal => some .shm
  | .shm => none

/-- The step a call takes next. -/
inductive Pc where
  | start
  | readNew (id : Nat)
  | wantLock (id : Option Nat)
  | rename (id : Nat) (ext : Ext)
  | updateRow (id : Nat)
  | rollback (ext : Ext)
  | removePool
  | removeRead
  | removeRow (id : Option Nat)
  | removeFile (ext : Ext)
  | connect
  | createRead
  | createRow (id : Option Nat)
  | createPool
  | finished (ok : Bool)
deriving DecidableEq

/-- The registry table, the files with contents `κ` and the connection pool. -/
structure Stores (κ : Type) where
  registry : Registry
  files : Ext → String → Option κ
  pool : String → Bool

/-- The stores, the operation lock and where each call stands. -/
structure State (ι κ : Type) extends Stores κ where
  lock : Option ι
  pc : ι → Pc

variable {ι κ : Type} [DecidableEq ι]

def State.goto (s : State ι κ) (i : ι) (pc : Pc) : State ι κ := { s with pc := update s.pc i pc }

/-- The call ends and gives the lock back. -/
def State.release (s : State ι κ) (i : ι) (ok : Bool) : State ι κ := { s.goto i (.finished ok) with lock := none }

def setFile (files : Ext → String → Option κ) (ext : Ext) (name : String) (content : Option κ) :
    Ext → String → Option κ :=
  update files ext (update (files ext) name content)

/-- `rename`, which replaces what the target holds; a missing file is left alone. -/
def renameFile (files : Ext → String → Option κ) (ext : Ext) (old new : String) : Ext → String → Option κ :=
  (files ext old).elim files fun content => setFile (setFile files ext old none) ext new (some content)

def validNames : Op → Bool
  | .create name | .delete name => (validateDbName name).isOk
  | .update name newName => (validateDbName name).isOk && (validateDbName newName).isOk

section Step
variable (op : ι → Op) (fresh : κ)

/-- The existence check a call begins with. -/
def check (s : State ι κ) (i : ι) : State ι κ :=
  if validNames (op i) then
    match op i, s.registry.idOf (op i).name with
    | .create _, none => s.goto i (.wantLock none)
    | .update _ _, some id => s.goto i (.readNew id)
    | .delete _, some _ => s.goto i .removePool
    | _, _ => s.goto i (.finished false)
  else s.goto i (.finished false)

def step (s : State ι κ) (i : ι) : Option (State ι κ) :=
  match s.pc i with
  | .start => some (check op s i)
  | .readNew id =>
    some (s.goto i (if (s.registry.idOf (op i).target).isSome then .finished false else .wantLock (some id)))
  | .wantLock id =>
    if s.lock.isSome then none
    else some { s.goto i (id.elim .connect fun id => .rename id .db) with lock := some i }
  | .rename id ext =>
    -- the side files follow only a file that was there
    if ext = .db ∧ s.files .db (op i).name = none then some (s.goto i (.updateRow id))
    else
      some { s.goto i (ext.next.elim (.updateRow id) (.rename id)) with
        files := renameFile s.files ext (op i).name (op i).target }
  | .updateRow id =>
    some ((s.registry.rename id (op i).target).elim (s.goto i (.rollback .db)) fun registry =>
      { s.goto i .removePool with registry })
  | .rollback ext =>
    if ext = .db ∧ s.files .db (op i).target = none then some (s.release i false)
    else
      let files := renameFile s.files ext (op i).target (op i).name
      some (ext.next.elim { s.release i false with files } fun next => { s.goto i (.rollback next) with files })
  | .removePool => some { s.goto i .removeRead with pool := update s.pool (op i).name false }
  | .removeRead => some (s.goto i (.removeRow (s.registry.idOf (op i).name)))
  | .removeRow id =>
    some { s.goto i (.removeFile .db) with registry := id.elim s.registry s.registry.delete }
  | .removeFile ext =>
    let done := match op i with
      | .update _ _ => Pc.connect
      | _ => .finished true
    some { s.goto i (ext.next.elim done .removeFile) with files := setFile s.files ext (op i).name none }
  | .connect =>
    some { s.goto i .createRead with
      files := setFile s.files .db (op i).target (some ((s.files .db (op i).target).getD fresh)) }
  | .createRead => some (s.goto i (.createRow (s.registry.idOf (op i).target)))
  | .createRow (some id) =>
    -- a row that is gone fails `create`; `update` has done its work and only warns
    if (s.registry.nameOf id).isSome then some (s.goto i .createPool)
    else some (s.release i (op i matches .update _ _))
  | .createRow none =>
    some ((s.registry.insert (op i).target).elim (s.release i (op i matches .update _ _)) fun registry =>
      { s.goto i .createPool with registry })
  | .createPool => some { s.release i true with pool := update s.pool (op i).target true }
  | .finished _ => none

end Step

end NodeGet.Db
