import Skvs.Fts
import Skvs.Transaction
import Skvs.Lib.BTreeMap

/-!
# The state of the engine
-/

namespace Skvs

/-- The rows of one table. -/
abbrev Store := IndexMap RowId Row

/-- One secondary index: from an indexed value to the rows that have it, in the order of
`Value.compare`. -/
abbrev IndexStore := BTreeMap Value (List RowId)

/-- Every map is keyed by the database first. An index is keyed by its table and its own name. -/
structure KvsState where
  dbs : IndexMap UInt32 (IndexMap String Store)
  schemas : IndexMap UInt32 (IndexMap String TableSchema)
  rowidGenerators : IndexMap UInt32 (IndexMap String UInt64)
  indexes : IndexMap UInt32 (IndexMap (String × String) IndexStore)
  triggers : IndexMap UInt32 (IndexMap String (List TriggerDef))
  views : IndexMap UInt32 (IndexMap String String)
  ftsTables : IndexMap UInt32 (IndexMap String FtsVirtualTable)
  txns : TxnManager
  deriving DecidableEq

namespace KvsState

def new (databases : List UInt32) : KvsState where
  dbs := .ofList (databases.map fun id => (id, ∅))
  schemas := .ofList (databases.map fun id => (id, ∅))
  rowidGenerators := .ofList (databases.map fun id => (id, ∅))
  indexes := .ofList (databases.map fun id => (id, ∅))
  triggers := .ofList (databases.map fun id => (id, ∅))
  views := .ofList (databases.map fun id => (id, ∅))
  ftsTables := .ofList (databases.map fun id => (id, ∅))
  txns := .new

variable (s : KvsState) (dbId : UInt32) (table : String)

def getTableStore : Option Store := (s.dbs.get dbId).bind fun db => db.get table

def getSchema : Option TableSchema := (s.schemas.get dbId).bind fun db => db.get table

/-- The counter of a table, which starts at 1. -/
def rowidCounter : UInt64 := (s.rowidGenerators.getD dbId ∅).getD table 1

/-- Draw the next rowid: the counter before the step, and the state with the counter moved on. -/
def getNextRowid : RowId × KvsState :=
  let rowid := s.rowidCounter dbId table
  let gens := (s.rowidGenerators.getD dbId ∅).insert table (rowid + 1)
  (rowid, { s with rowidGenerators := s.rowidGenerators.insert dbId gens })

/-- An index that was never written is empty. -/
def indexStore (indexName : String) : IndexStore :=
  (s.indexes.getD dbId ∅).getD (table, indexName) ∅

def modifyIndexStore (indexName : String) (f : IndexStore → IndexStore) : KvsState :=
  let store := f (s.indexStore dbId table indexName)
  let dbIndexes := (s.indexes.getD dbId ∅).insert (table, indexName) store
  { s with indexes := s.indexes.insert dbId dbIndexes }

def dropIndexStore (indexName : String) : KvsState :=
  { s with indexes := s.indexes.modify dbId fun db => db.erase (table, indexName) }

def modifyStore (f : Store → Store) : KvsState :=
  { s with dbs := s.dbs.modify dbId fun db => db.modify table f }

def addTrigger (trigger : TriggerDef) : KvsState :=
  let map := s.triggers.getD dbId ∅
  { s with triggers := s.triggers.insert dbId (map.insert table (map.getD table [] ++ [trigger])) }

def getTriggers : List TriggerDef :=
  ((s.triggers.get dbId).bind fun map => map.get table).getD []

def addView (name query : String) : KvsState :=
  { s with views := s.views.insert dbId ((s.views.getD dbId ∅).insert name query) }

def removeView (name : String) : Except SkvsError KvsState :=
  match s.views.get dbId with
  | some map => .ok { s with views := s.views.insert dbId (map.erase name) }
  | none => .error (.schema s!"View {name} not found")

def getViewDefinition (name : String) : Option String :=
  (s.views.get dbId).bind fun map => map.get name

def registerFtsTable (name : String) (fts : FtsVirtualTable) : KvsState :=
  { s with ftsTables := s.ftsTables.insert dbId ((s.ftsTables.getD dbId ∅).insert name fts) }

def getFtsTable (name : String) : Option FtsVirtualTable :=
  (s.ftsTables.get dbId).bind fun map => map.get name

def modifyFts (f : FtsIndex → FtsIndex) : KvsState :=
  { s with ftsTables := s.ftsTables.modify dbId fun map =>
      map.modify table fun fts => { fts with index := f fts.index } }

/-- The row a table holds under a rowid. -/
def rowAt (rowid : RowId) : Option Row := (s.getTableStore dbId table).bind fun m => m.get rowid

end KvsState

end Skvs
