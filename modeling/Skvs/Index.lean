import Skvs.State

/-!
# Secondary indexes
-/

namespace Skvs

/-- What happened to a row. -/
inductive IndexOp where
  | insert
  | delete
  | update (oldRow : Row)
  deriving DecidableEq

/-- A value as a key of an index, whose map is ordered by `cmp`. -/
structure IndexKey where
  value : Value

/-- `==` on the keys is derived from the values. -/
def IndexKey.partialEq (a b : IndexKey) : Bool := a.value.partialEq b.value

def IndexKey.cmp (a b : IndexKey) : Ordering := a.value.compare b.value

/-- The hash-join key of a value: its text, tagged with its type. -/
def valueToKeyString : Value → String
  | .null => "n:"
  | .integer i => s!"i:{i}"
  | .real f => "f:" ++ f.display
  | .text s => s!"t:{s}"
  | .blob b => "b:" ++ Text.hexEncode b

/-- Only the first column of an index counts. -/
def indexValue (idx : IndexDef) (row : Row) : Option Value :=
  idx.columns.head?.bind fun col => row.get col

/-- Add a rowid to the bucket of a value, once. -/
def addId (v : Value) (rowid : RowId) (store : IndexStore) : IndexStore :=
  store.upsert Value.compare v [] fun ids => if rowid ∈ ids then ids else ids ++ [rowid]

/-- Take a rowid out of the bucket of a value, and the bucket out of the map once it is empty. -/
def removeId (v : Value) (rowid : RowId) (store : IndexStore) : IndexStore :=
  match store.get Value.compare v with
  | none => store
  | some ids =>
    let left := ids.filter fun r => r ≠ rowid
    if left = [] then store.remove Value.compare v
    else store.upsert Value.compare v [] fun _ => left

section

variable (state : KvsState) (dbId : UInt32) (table : String)

def addToIndex (idx : IndexDef) (row : Row) (rowid : RowId) : KvsState :=
  match indexValue idx row with
  | some val => state.modifyIndexStore dbId table idx.name (addId val rowid)
  | none => state

def removeFromIndex (idx : IndexDef) (row : Row) (rowid : RowId) : KvsState :=
  match indexValue idx row with
  | some val => state.modifyIndexStore dbId table idx.name (removeId val rowid)
  | none => state

/-- Keep all secondary indexes of a table in sync with a row change; this never fails. -/
def updateIndexes (row : Row) (rowid : RowId) (op : IndexOp) : KvsState :=
  match state.getSchema dbId table with
  | none => state
  | some schema =>
    match op with
    | .insert => schema.indices.foldl (fun s idx => addToIndex s dbId table idx row rowid) state
    | .delete => schema.indices.foldl (fun s idx => removeFromIndex s dbId table idx row rowid) state
    | .update oldRow =>
      schema.indices.foldl (fun s idx =>
        addToIndex (removeFromIndex s dbId table idx oldRow rowid) dbId table idx row rowid) state

/-- Equality point lookup against a named index. -/
def lookupIndex (indexName : String) (value : Value) : List RowId :=
  ((state.indexStore dbId table indexName).get Value.compare value).getD []

/-- Range lookup against a named index; bounds that cross are a panic of the ordered map. -/
def rangeLookup (indexName : String) (lower upper : Bound Value) : Except Fail (List RowId) :=
  if BTreeMap.rangeOk Value.compare lower upper then
    .ok (((state.indexStore dbId table indexName).range Value.compare lower upper).flatMap Prod.snd)
  else .error .panic

variable [Externals]

/-- Rebuild an index from the live rows of its table. -/
def rebuildIndex (idx : IndexDef) : KvsState :=
  match state.getTableStore dbId table with
  | none => state
  | some rows =>
    state.modifyIndexStore dbId table idx.name fun _ =>
      (hashOrder rows.entries).foldl (fun store entry =>
        match indexValue idx entry.2 with
        | some val => store.upsert Value.compare val [] fun ids => ids ++ [entry.1]
        | none => store) ∅

end

end Skvs
