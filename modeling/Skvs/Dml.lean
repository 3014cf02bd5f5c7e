import Skvs.Constraint
import Skvs.Lib.Program

/-!
# INSERT, UPDATE and DELETE

The statements run over the engine's state together with a record of the row writes made so far.
The record is a ghost: no definition reads it. The triggers a statement fires are an argument, so
that the recursion through trigger bodies is tied in `executeSingleStatement` only.
-/

namespace Skvs

/-- One write to a stored row: by which transaction, where, the row before and after it, and the
copy of the row that the statement had collected (none for an INSERT). -/
structure Write where
  txId : Option UInt32
  dbId : UInt32
  table : String
  rowid : RowId
  before : Option Row
  copy : Option Row
  after : Option Row
  deriving DecidableEq

structure World where
  kvs : KvsState
  writes : List Write
  deriving DecidableEq

abbrev Db := Prog Fail World

/-- Change the state of the engine. -/
def onState (f : KvsState → KvsState) : Db Unit :=
  Prog.modify fun w => { w with kvs := f w.kvs }

def raise {α : Type} (e : SkvsError) : Db α := Prog.fail (.err e)

def orRaise {α : Type} (o : Option α) (e : SkvsError) : Db α :=
  match o with
  | some a => pure a
  | none => raise e

def check (r : Except SkvsError Unit) : Db Unit := Prog.ofExcept (r.mapError Fail.err)

/-- What fires the triggers of a table around a row change. -/
abbrev Fire := String → TriggerEvent → TriggerTiming → Option Row → Option Row → Db Unit

/-- `get_next_rowid`. -/
def nextRowid (dbId : UInt32) (table : String) : Db RowId := do
  let rowid ← Prog.read fun w => w.kvs.rowidCounter dbId table
  onState fun s => (s.getNextRowid dbId table).2
  return rowid

def setRow (after : Option Row) (rowid : RowId) (store : Store) : Store :=
  match after with
  | some row => store.insert rowid row
  | none => store.erase rowid

/-- `store.insert` and `store.remove`. The source holds on to the store that it fetched before the BEFORE
triggers; here the store is the one under that name at the time of the write, which is another one if
a trigger body has renamed, dropped or made the table anew in between. -/
def writeRow (txId : Option UInt32) (dbId : UInt32) (table : String) (rowid : RowId)
    (copy after : Option Row) : Db Unit :=
  Prog.modify fun w =>
    let before := w.kvs.rowAt dbId table rowid
    { kvs := w.kvs.modifyStore dbId table (setRow after rowid)
      writes := w.writes ++ [⟨txId, dbId, table, rowid, before, copy, after⟩] }

def KvsState.record (s : KvsState) (txId : Option UInt32) (op : UndoOp) : KvsState :=
  match txId with
  | some id => { s with txns := s.txns.record id op }
  | none => s

def journal (txId : Option UInt32) (op : UndoOp) : Db Unit := onState fun s => s.record txId op

section

variable [Externals]

/-- Keep the full-text index of a table in sync with a row written or deleted. -/
def syncFtsIndex (state : KvsState) (dbId : UInt32) (table : String) (rowid : RowId)
    (row : Option Row) (isDelete : Bool) : KvsState :=
  match state.getFtsTable dbId table with
  | none => state
  | some fts =>
    match row.bind fun r => r.get fts.contentColumn with
    | some (.text content) =>
      state.modifyFts dbId table fun index =>
        if isDelete then index.removeDocument rowid content else index.addDocument rowid content
    | _ => state

/-- Move a row's full-text entry from the old contents to the new. -/
def syncFtsIndexChange (state : KvsState) (dbId : UInt32) (table : String) (rowid : RowId)
    (oldRow newRow : Option Row) : KvsState :=
  let state :=
    if oldRow.isSome then syncFtsIndex state dbId table rowid oldRow true else state
  if newRow.isSome then syncFtsIndex state dbId table rowid newRow false else state

/-! ### INSERT -/

/-- The row of one VALUES tuple; expressions beyond the column list are ignored. -/
def valuesRow (params : List Value) : List String → List Expr → Row → StateM Nat Row
  | col :: cols, e :: es, row => do
    let val ← eval .noRow params e
    valuesRow params cols es (row.insert col val)
  | _, _, row => pure row

def selectedRow (colNames : List String) (srcRow : Row) : Row :=
  (colNames.zip srcRow.values).foldl (fun row cv => row.insert cv.1 cv.2) ∅

/-- The rows an INSERT is asked to store; parameters are read from the start for each tuple. -/
def candidateRows (state : KvsState) (fuel : Nat) (dbId : UInt32) (schema : TableSchema)
    (columns : List Ident) (source : Option Query) (params : List Value) :
    Except Fail (List Row) := do
  let colNames := if columns.isEmpty then schema.columns.keys else columns.map Ident.value
  let rows ← match source with
    | none => .ok []
    | some source =>
      match source.body with
      | .values rows => .ok (rows.map fun valueRow => (valuesRow params colNames valueRow ∅ 0).1)
      | .select _ => do
        let inner ← executeSelect state dbId fuel source params
        .ok (inner.rows.map (selectedRow colNames))
      | .other => .error (.err (.unsupported "Unsupported INSERT source"))
  return if rows.isEmpty then [∅] else rows

/-- The value of a column that was not supplied. An integer primary key takes the rowid. -/
def defaultValue (colDef : ColumnDef) (rowid : RowId) : Value :=
  if colDef.primaryKey && colDef.dataType = .integer then .integer rowid.toInt64
  else colDef.default.getD .null

def withDefaults (schema : TableSchema) (rowid : RowId) (row : Row) : Row :=
  schema.columns.entries.foldl (fun row e => row.insertIfNew e.1 (defaultValue e.2 rowid)) row

variable (fire : Fire) (dbId : UInt32) (table : String) (schema : TableSchema)
  (txId : Option UInt32)

/-- Validate, store, journal and index one row, between its BEFORE and its AFTER triggers. -/
def insertRow (affected : UInt64) (row : Row) : Db UInt64 := do
  let rowid ← nextRowid dbId table
  let row := withDefaults schema rowid row
  let state ← Prog.read World.kvs
  check (validateConstraints state dbId schema row rowid)
  fire table .insert .before none (some row)
  writeRow txId dbId table rowid none (some row)
  journal txId (.insert table rowid)
  onState fun s => updateIndexes s dbId table row rowid .insert
  onState fun s => syncFtsIndex s dbId table rowid (some row) false
  fire table .insert .after none (some row)
  return affected + 1

end

variable [Externals]

def executeInsert (fire : Fire) (fuel : Nat) (dbId : UInt32) (table : String)
    (columns : List Ident) (source : Option Query) (params : List Value) (txId : Option UInt32) :
    Db QueryResult := do
  let state ← Prog.read World.kvs
  let schema ← orRaise (state.getSchema dbId table) (tableNotFound table)
  let _ ← orRaise (state.getTableStore dbId table) (.schema s!"Store for {table} not found")
  let rows ← Prog.ofExcept (candidateRows state fuel dbId schema columns source params)
  let affected ← rows.foldlM (insertRow fire dbId table schema txId) 0
  return .affected affected

/-! ### UPDATE -/

/-- The rows of a table on which the WHERE clause holds, as they are before the statement. -/
def matchingRows (state : KvsState) (dbId : UInt32) (store : Store) (selection : Option Expr)
    (params : List Value) (paramIdx : Nat) : List (RowId × Row) :=
  (hashOrder store.entries).filter fun entry =>
    match selection with
    | some whereExpr => whereHolds state dbId entry.2 params whereExpr paramIdx
    | none => true

def setParamCount (assignments : List Assignment) : Nat :=
  (assignments.map fun assignment => countPlaceholders assignment.value).sum

def assignedColumn (assignment : Assignment) : String :=
  (assignment.id.getLast?.map Ident.value).getD ""

/-- Every SET expression sees the row as it was before the statement. -/
def applyAssignments (params : List Value) (oldRow : Row) : List Assignment → Row → StateM Nat Row
  | [], newRow => pure newRow
  | assignment :: assignments, newRow => do
    let newVal ← eval (.withRow oldRow) params assignment.value
    applyAssignments params oldRow assignments (newRow.insert (assignedColumn assignment) newVal)

/-- The row an UPDATE puts in place of `oldRow`. -/
def updatedRow (assignments : List Assignment) (params : List Value) (oldRow : Row) : Row :=
  (applyAssignments params oldRow assignments oldRow 0).1

def updateRow (fire : Fire) (dbId : UInt32) (table : String) (schema : TableSchema)
    (txId : Option UInt32) (assignments : List Assignment) (params : List Value)
    (affected : UInt64) (entry : RowId × Row) : Db UInt64 := do
  let (rowid, oldRow) := entry
  let newRow := updatedRow assignments params oldRow
  let state ← Prog.read World.kvs
  check (validateConstraints state dbId schema newRow rowid)
  fire table .update .before (some oldRow) (some newRow)
  writeRow txId dbId table rowid (some oldRow) (some newRow)
  journal txId (.update table rowid oldRow)
  onState fun s => updateIndexes s dbId table newRow rowid (.update oldRow)
  onState fun s => syncFtsIndexChange s dbId table rowid (some oldRow) (some newRow)
  fire table .update .after (some oldRow) (some newRow)
  return affected + 1

def TableFactor.name : TableFactor → String
  | .table name _ => name
  | .other text => text

def executeUpdate (fire : Fire) (dbId : UInt32) (relation : TableFactor)
    (assignments : List Assignment) (selection : Option Expr) (params : List Value)
    (txId : Option UInt32) : Db QueryResult := do
  let table := relation.name
  let state ← Prog.read World.kvs
  let store ← orRaise (state.getTableStore dbId table) (tableNotFound table)
  let schema ← orRaise (state.getSchema dbId table) (.schema s!"Schema for {table} not found")
  -- WHERE reads its parameters after those of the SET list
  let rowsToUpdate := matchingRows state dbId store selection params (setParamCount assignments)
  let affected ← rowsToUpdate.foldlM
    (updateRow fire dbId table schema txId assignments params) 0
  return .affected affected

/-! ### DELETE -/

def deleteRow (fire : Fire) (dbId : UInt32) (table : String) (txId : Option UInt32)
    (affected : UInt64) (entry : RowId × Row) : Db UInt64 := do
  let (rowid, row) := entry
  fire table .delete .before (some row) none
  writeRow txId dbId table rowid (some row) none
  journal txId (.delete table rowid row)
  onState fun s => updateIndexes s dbId table row rowid .delete
  onState fun s => syncFtsIndex s dbId table rowid (some row) true
  fire table .delete .after (some row) none
  return affected + 1

/-- The table a DELETE is about: the first one named before FROM, or else in it. -/
def deleteTarget (tables : List String) (from_ : List TableWithJoins) : Option String :=
  match tables, from_ with
  | t :: _, _ => some t
  | [], f :: _ => some f.relation.name
  | [], [] => none

def executeDelete (fire : Fire) (dbId : UInt32) (tables : List String)
    (from_ : List TableWithJoins) (selection : Option Expr) (params : List Value)
    (txId : Option UInt32) : Db QueryResult := do
  let table ← orRaise (deleteTarget tables from_)
    (.unsupported "DELETE without a target table")
  let state ← Prog.read World.kvs
  let store ← orRaise (state.getTableStore dbId table) (tableNotFound table)
  let rowsToDelete := matchingRows state dbId store selection params 0
  let affected ← rowsToDelete.foldlM (deleteRow fire dbId table txId) 0
  return .affected affected

end Skvs
