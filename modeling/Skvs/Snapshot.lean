import Skvs.Index
import Skvs.Raw
import Skvs.Ddl
import Mathlib.Logic.Function.Basic

/-!
# Snapshots

Every tick of the writer task saves each database in up to four files, one after the other. A file
is written under a temporary name and renamed into place. A restart loads the files into a new
state and makes from the rows what is not saved: the rowid counters, the secondary indexes and the
full-text indexes.
-/

namespace Skvs

/-- What a server holds in memory, with its overflow files. -/
structure Server where
  kvs : KvsState
  raw : RawState

inductive SnapshotFile where
  | tables
  | raw
  | views
  | triggers
  deriving DecidableEq

/-- What is read back from a file is what was encoded into it. -/
abbrev SnapshotFile.Dump : SnapshotFile → Type
  | .tables => List (String × Option TableSchema × List (RowId × Row))
  | .raw => List (String × List (Bytes × Bytes))
  | .views => List (String × String)
  | .triggers => List (String × List TriggerDef)

/-- The directories of the databases: the snapshot files in place and the temporary ones. -/
structure Disk where
  file : UInt32 → (f : SnapshotFile) → Option f.Dump
  temp : UInt32 → (f : SnapshotFile) → Option f.Dump

inductive DiskStep where
  | write (dbId : UInt32) (f : SnapshotFile) (dump : f.Dump)
  | rename (dbId : UInt32) (f : SnapshotFile)

namespace Disk

def empty : Disk := ⟨fun _ _ => none, fun _ _ => none⟩

def put (files : UInt32 → (f : SnapshotFile) → Option f.Dump) (dbId : UInt32) (f : SnapshotFile)
    (dump : Option f.Dump) : UInt32 → (f : SnapshotFile) → Option f.Dump :=
  Function.update files dbId (Function.update (files dbId) f dump)

def step (d : Disk) : DiskStep → Disk
  | .write dbId f dump => { d with temp := put d.temp dbId f (some dump) }
  | .rename dbId f =>
    match d.temp dbId f with
    | some dump => ⟨put d.file dbId f (some dump), put d.temp dbId f none⟩
    | none => d

def run (d : Disk) (steps : List DiskStep) : Disk := steps.foldl step d

end Disk

/-! ### Saving -/

def writeSnapshotFile (dbId : UInt32) (f : SnapshotFile) (dump : f.Dump) : List DiskStep :=
  [.write dbId f dump, .rename dbId f]

namespace Server

variable [Externals] (s : Server) (dbId : UInt32)

def tablesDump (tables : IndexMap String Store) : SnapshotFile.Dump .tables :=
  (hashOrder tables.entries).map fun t =>
    (t.1, s.kvs.getSchema dbId t.1, hashOrder t.2.entries)

/-- What is saved of a database: nothing of the overflow files, and no index. -/
def dump : (f : SnapshotFile) → Option f.Dump
  | .tables => (s.kvs.dbs.get dbId).map (s.tablesDump dbId)
  | .raw => (s.raw.rawStores.get dbId).map fun rawTables =>
      (hashOrder rawTables.entries).map fun t => (t.1, hashOrder t.2.entries)
  | .views => (s.kvs.views.get dbId).map fun views => hashOrder views.entries
  | .triggers => (s.kvs.triggers.get dbId).map fun triggers => hashOrder triggers.entries

def saveFile (f : SnapshotFile) : List DiskStep :=
  match s.dump dbId f with
  | some dump => writeSnapshotFile dbId f dump
  | none => []

def saveDb : List DiskStep :=
  s.saveFile dbId .tables ++ s.saveFile dbId .raw ++ s.saveFile dbId .views ++
    s.saveFile dbId .triggers

def saveSqlSnapshot : List DiskStep := (hashOrder s.kvs.dbs.keys).flatMap s.saveDb

end Server

/-! ### Loading -/

namespace KvsState

variable (s : KvsState) (dbId : UInt32) (table : String)

/-- The counter never moves backwards. -/
def setMinNextRowid (minNext : UInt64) : KvsState :=
  let gens := (s.rowidGenerators.getD dbId ∅).insert table (max (s.rowidCounter dbId table) minNext)
  { s with rowidGenerators := s.rowidGenerators.insert dbId gens }

/-- The store of a table, made if it is missing. -/
def ensureStore : KvsState :=
  { s with dbs := s.dbs.modify dbId fun db => db.insertIfNew table ∅ }

def maxRowid (rows : List (RowId × Row)) : UInt64 := rows.foldl (fun m r => max m r.1) 0

variable [Externals]

def rebuildIndexes : KvsState :=
  match s.getSchema dbId table with
  | some schema => schema.indices.foldl (fun s idx => rebuildIndex s dbId table idx) s
  | none => s

/-- One table: its schema, its rows, its rowid counter, and its indexes made anew. -/
def restoreTable (t : String × Option TableSchema × List (RowId × Row)) : KvsState :=
  let s :=
    match t.2.1 with
    | some schema => s.setSchema dbId t.1 schema
    | none => s
  let s := s.ensureStore dbId t.1
  let s := s.modifyStore dbId t.1 fun store => t.2.2.foldl (fun store r => store.insert r.1 r.2) store
  let s := s.setMinNextRowid dbId t.1 (maxRowid t.2.2 + 1)
  s.rebuildIndexes dbId t.1

/-- The full-text indexes to make: a table and its text column each. -/
def ftsToRebuild (dump : SnapshotFile.Dump .tables) : List (String × String) :=
  dump.filterMap fun t => (t.2.1.bind TableSchema.fts5ContentColumn).map fun col => (t.1, col)

def rebuildFts (t : String × String) : KvsState :=
  let s := s.registerFtsTable dbId t.1 (.new t.1 t.2)
  match s.getTableStore dbId t.1 with
  | none => s
  | some store =>
    s.modifyFts dbId t.1 fun index =>
      (hashOrder store.entries).foldl (fun index e =>
        match e.2.get t.2 with
        | some (.text content) => index.addDocument e.1 content
        | _ => index) index

def restoreTables (dump : SnapshotFile.Dump .tables) : KvsState :=
  dump.foldl (fun s t => s.restoreTable dbId t) { s with schemas := s.schemas.insertIfNew dbId ∅ }

def restoreViews (dump : SnapshotFile.Dump .views) : KvsState :=
  dump.foldl (fun s v => s.addView dbId v.1 v.2) { s with views := s.views.insertIfNew dbId ∅ }

def setTriggers (t : String × List TriggerDef) : KvsState :=
  { s with triggers := s.triggers.insert dbId ((s.triggers.getD dbId ∅).insert t.1 t.2) }

def restoreTriggers (dump : SnapshotFile.Dump .triggers) : KvsState :=
  dump.foldl (fun s t => s.setTriggers dbId t)
    { s with triggers := s.triggers.insertIfNew dbId ∅ }

end KvsState

namespace RawState

variable (s : RawState) (dbId : UInt32)

def restoreRawTable (t : String × List (Bytes × Bytes)) : RawState :=
  (s.ensureTable dbId t.1).modifyTable dbId t.1 fun table =>
    t.2.foldl (fun table e => table.insert e.1 e.2) table

def restoreRaw (dump : SnapshotFile.Dump .raw) : RawState :=
  dump.foldl (fun s t => s.restoreRawTable dbId t)
    { s with rawStores := s.rawStores.insertIfNew dbId ∅ }

end RawState

namespace Server

/-- A server at its start, before anything is loaded; overflow files are as they were left. -/
def fresh (databases : List UInt32) (maxEntriesPerTable : Nat) (overflowDir : String)
    (workingDir : Path.Resolved) (files : IndexMap Path.Resolved Bytes) : Server where
  kvs := .new databases
  raw := { RawState.new databases maxEntriesPerTable overflowDir workingDir with files }

variable [Externals] (disk : Disk) (s : Server)

/-- A database without a file of tables is left empty, whatever other files it has. -/
def loadDb (dbId : UInt32) : Server :=
  match disk.file dbId .tables with
  | none => s
  | some dump =>
    let kvs := s.kvs.restoreTables dbId dump
    let raw := (disk.file dbId .raw).elim s.raw (s.raw.restoreRaw dbId)
    let kvs := (disk.file dbId .views).elim kvs (kvs.restoreViews dbId)
    let kvs := (disk.file dbId .triggers).elim kvs (kvs.restoreTriggers dbId)
    { kvs := (KvsState.ftsToRebuild dump).foldl (fun kvs t => kvs.rebuildFts dbId t) kvs
      raw }

def loadSqlSnapshot : Server := (hashOrder s.kvs.dbs.keys).foldl (loadDb disk) s

end Server

/-! ### Files that do not decode -/

inductive FileState (f : SnapshotFile) where
  | missing
  | damaged
  | intact (dump : f.Dump)

/-- What a file decodes to. -/
def FileState.decoded {f : SnapshotFile} : FileState f → Option f.Dump
  | .intact dump => some dump
  | _ => none

/-- The directories of the databases, with files of every state. -/
structure SnapshotDir where
  file : UInt32 → (f : SnapshotFile) → FileState f
  temp : UInt32 → (f : SnapshotFile) → Option f.Dump

namespace SnapshotDir

def putFile (d : SnapshotDir) (dbId : UInt32) (f : SnapshotFile) (file : FileState f) : SnapshotDir :=
  { d with file := Function.update d.file dbId (Function.update (d.file dbId) f file) }

/-- The rename to `tables.bin.bak`, which nothing reads. -/
def quarantine (d : SnapshotDir) (dbId : UInt32) : SnapshotDir := d.putFile dbId .tables .missing

def step (d : SnapshotDir) : DiskStep → SnapshotDir
  | .write dbId f dump => { d with temp := Disk.put d.temp dbId f (some dump) }
  | .rename dbId f =>
    match d.temp dbId f with
    | some dump => { d.putFile dbId f (.intact dump) with temp := Disk.put d.temp dbId f none }
    | none => d

def run (d : SnapshotDir) (steps : List DiskStep) : SnapshotDir := steps.foldl step d

variable [Externals]

/-- One database: a file of tables that does not decode ends its turn, another one is passed over. -/
def loadDb (x : Server × SnapshotDir) (dbId : UInt32) : Server × SnapshotDir :=
  let (s, d) := x
  match d.file dbId .tables with
  | .missing => (s, d)
  | .damaged => (s, d.quarantine dbId)
  | .intact dump =>
    let kvs := s.kvs.restoreTables dbId dump
    let raw := match d.file dbId .raw with
      | .intact dump => s.raw.restoreRaw dbId dump
      | _ => s.raw
    let kvs := match d.file dbId .views with
      | .intact dump => kvs.restoreViews dbId dump
      | _ => kvs
    let kvs := match d.file dbId .triggers with
      | .intact dump => kvs.restoreTriggers dbId dump
      | _ => kvs
    let kvs := (KvsState.ftsToRebuild dump).foldl (fun kvs t => kvs.rebuildFts dbId t) kvs
    (⟨kvs, raw⟩, d)

def loadSqlSnapshot (d : SnapshotDir) (s : Server) : Server × SnapshotDir :=
  (hashOrder s.kvs.dbs.keys).foldl loadDb (s, d)

end SnapshotDir

end Skvs
