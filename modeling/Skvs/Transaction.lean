import Skvs.Schema
import Skvs.Error

/-!
# The transaction manager

Writes go to the live tables at once; a transaction adds a journal of how to undo each of them.
-/

namespace Skvs

inductive UndoOp where
  /-- The row was newly inserted; undo deletes it. -/
  | insert (table : String) (rowid : RowId)
  /-- The row was deleted; undo puts it back. -/
  | delete (table : String) (rowid : RowId) (row : Row)
  /-- The row was changed in place; undo restores the version from before. -/
  | update (table : String) (rowid : RowId) (oldRow : Row)
  deriving DecidableEq

structure TxnEntry where
  dbId : UInt32
  journal : List UndoOp
  deriving DecidableEq

structure TxnManager where
  nextId : UInt32
  active : IndexMap UInt32 TxnEntry
  deriving DecidableEq

namespace TxnManager

def new : TxnManager := ⟨1, ∅⟩

/-- Start a transaction: its id, and the manager with an empty journal for it. The counter wraps. -/
def begin (m : TxnManager) (dbId : UInt32) : UInt32 × TxnManager :=
  (m.nextId, ⟨m.nextId + 1, m.active.insert m.nextId ⟨dbId, []⟩⟩)

def record (m : TxnManager) (txId : UInt32) (op : UndoOp) : TxnManager :=
  { m with active := m.active.modify txId fun e => { e with journal := e.journal ++ [op] } }

/-- Take a transaction off the active ones. -/
def take (m : TxnManager) (txId : UInt32) : Except SkvsError (TxnEntry × TxnManager) :=
  match m.active.get txId with
  | some entry => .ok (entry, { m with active := m.active.erase txId })
  | none => .error (.transaction s!"No active transaction {txId}")

/-- Finish a transaction: its journal is dropped, since every write in it is already live. -/
def commit (m : TxnManager) (txId : UInt32) : Except SkvsError TxnManager :=
  (m.take txId).map Prod.snd

def isActive (m : TxnManager) (txId : UInt32) : Bool := m.active.contains txId

end TxnManager

end Skvs
