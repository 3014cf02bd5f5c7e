import Skvs.Dml

/-!
# Undoing a transaction
-/

namespace Skvs

variable [Externals]

/-- Undo one journal entry, keeping the secondary and the full-text indexes in sync. -/
def undoOp (dbId : UInt32) (state : KvsState) (op : UndoOp) : KvsState :=
  match op with
  | .insert table rowid =>
    match state.rowAt dbId table rowid with
    | none => state
    | some row =>
      let state := state.modifyStore dbId table (setRow none rowid)
      let state := updateIndexes state dbId table row rowid .delete
      syncFtsIndex state dbId table rowid (some row) true
  | .delete table rowid row =>
    match state.getTableStore dbId table with
    | none => state
    | some _ =>
      let state := state.modifyStore dbId table (setRow (some row) rowid)
      let state := updateIndexes state dbId table row rowid .insert
      syncFtsIndex state dbId table rowid (some row) false
  | .update table rowid oldRow =>
    match state.getTableStore dbId table with
    | none => state
    | some store =>
      let current := store.get rowid
      let state := state.modifyStore dbId table (setRow (some oldRow) rowid)
      let state := updateIndexes state dbId table oldRow rowid (.update (current.getD ∅))
      match current with
      | some current => syncFtsIndexChange state dbId table rowid (some current) (some oldRow)
      | none => state

/-- Replay a journal in reverse. -/
def undoAll (state : KvsState) (dbId : UInt32) (ops : List UndoOp) : KvsState :=
  ops.reverse.foldl (undoOp dbId) state

def KvsState.begin (s : KvsState) (dbId : UInt32) : KvsState :=
  { s with txns := (s.txns.begin dbId).2 }

/-- Start a transaction and return its id. -/
def begin (dbId : UInt32) : Db UInt32 := do
  let txId ← Prog.read fun w => w.kvs.txns.nextId
  onState fun s => s.begin dbId
  return txId

def KvsState.commit (s : KvsState) (txId : UInt32) : Except SkvsError KvsState :=
  (s.txns.commit txId).map fun txns => { s with txns }

def KvsState.rollback (s : KvsState) (txId : UInt32) : Except SkvsError KvsState :=
  (s.txns.take txId).map fun (entry, txns) => undoAll { s with txns } entry.dbId entry.journal

/-- Run a fallible change of the state; a failing one changes nothing. -/
def tryOnState (f : KvsState → Except SkvsError KvsState) : Db Unit := do
  let state ← Prog.read World.kvs
  let state' ← Prog.ofExcept ((f state).mapError Fail.err)
  onState fun _ => state'

def commit (txId : UInt32) : Db Unit := tryOnState fun s => s.commit txId

def rollback (txId : UInt32) : Db Unit := tryOnState fun s => s.rollback txId

end Skvs
