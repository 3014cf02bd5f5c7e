import Skvs.Lib.IndexMap
import Skvs.Lib.Path

/-!
# Raw key-value tables

A table that has grown past a limit spills entries to files, one per key. Files are found by their
resolved path.
-/

namespace Skvs

abbrev Bytes := List UInt8

abbrev RawTable := IndexMap Bytes Bytes

structure RawState where
  rawStores : IndexMap UInt32 (IndexMap String RawTable)
  /-- The files under the overflow directory and wherever else a table name leads. -/
  files : IndexMap Path.Resolved Bytes
  /-- 0 for no limit. -/
  maxEntriesPerTable : Nat
  overflowDir : String
  /-- Where a relative overflow directory starts. -/
  workingDir : Path.Resolved
  deriving DecidableEq

/-- What the surroundings decide in one call: the order in which a map is iterated, and which
overflow files cannot be written. -/
structure Surroundings where
  order : List Bytes → List Bytes
  order_perm : ∀ keys, (order keys).Perm keys
  writeFails : Bytes → Bool

def hexName (key : Bytes) : List Char :=
  key.flatMap fun b => [Nat.digitChar (b.toNat / 16), Nat.digitChar (b.toNat % 16)]

namespace RawState

def new (databases : List UInt32) (maxEntriesPerTable : Nat) (overflowDir : String)
    (workingDir : Path.Resolved) : RawState where
  rawStores := .ofList (databases.map fun id => (id, ∅))
  files := ∅
  maxEntriesPerTable := maxEntriesPerTable
  overflowDir := overflowDir
  workingDir := workingDir

variable (s : RawState) (dbId : UInt32) (table : String)

def overflowPath (key : Bytes) : Path.Resolved :=
  Path.resolve s.workingDir
    (Path.join (Path.join (Path.join s.overflowDir.toList (toString dbId).toList) table.toList)
      (hexName key))

def rawTable : Option RawTable := (s.rawStores.get dbId).bind fun db => db.get table

/-- The table, made if it is missing. -/
def ensureTable : RawState :=
  { s with rawStores :=
    s.rawStores.insert dbId ((s.rawStores.getD dbId ∅).insertIfNew table ∅) }

def modifyTable (f : RawTable → RawTable) : RawState :=
  { s with rawStores := s.rawStores.modify dbId fun db => db.modify table f }

def writeOverflowFile (key value : Bytes) : RawState :=
  { s with files := s.files.insert (s.overflowPath dbId table key) value }

def removeOverflowFile (key : Bytes) : RawState :=
  { s with files := s.files.erase (s.overflowPath dbId table key) }

/-- Spill one entry. A write that fails leaves no file, and the entry stays in memory. -/
def spill (writeFails : Bytes → Bool) (s : RawState) (key : Bytes) : RawState :=
  match (s.rawTable dbId table).bind fun t => t.get key with
  | none => s
  | some value =>
    let s := s.modifyTable dbId table fun t => t.erase key
    if writeFails key then
      (s.removeOverflowFile dbId table key).modifyTable dbId table fun t => t.insert key value
    else s.writeOverflowFile dbId table key value

/-- The keys that a table over the limit gives up. -/
def toEvict (order : List Bytes → List Bytes) : List Bytes :=
  let keys := ((s.rawTable dbId table).getD ∅).keys
  (order keys).take (keys.length - s.maxEntriesPerTable)

def evictToDisk (env : Surroundings) : RawState :=
  (s.toEvict dbId table env.order).foldl (spill dbId table env.writeFails) s

/-- A value that was spilled before is fresh again. -/
def insertRaw (key value : Bytes) : RawState :=
  ((s.ensureTable dbId table).removeOverflowFile dbId table key).modifyTable dbId table
    fun t => t.insert key value

def rawLen : Nat := ((s.rawTable dbId table).getD ∅).keys.length

def putRaw (key value : Bytes) (env : Surroundings) : RawState :=
  let s := s.insertRaw dbId table key value
  let len := s.rawLen dbId table
  if 0 < s.maxEntriesPerTable ∧ s.maxEntriesPerTable < len then s.evictToDisk dbId table env else s

/-- Memory first, then the overflow file. -/
def getRaw (key : Bytes) : Option Bytes :=
  ((s.rawTable dbId table).bind fun t => t.get key).or
    (s.files.get (s.overflowPath dbId table key))

def removeRaw (key : Bytes) : RawState :=
  (s.modifyTable dbId table fun t => t.erase key).removeOverflowFile dbId table key

end RawState

end Skvs
