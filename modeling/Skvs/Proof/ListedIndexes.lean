import Skvs.Proof.FastPath
import Skvs.Proof.References

/-!
# Index entries that no schema lists

Indexes are looked up and changed through the list of the schema of their table. Entries that are kept
under another name are never read, and two states that differ in them do the same.
-/

namespace Skvs

/-- The states differ in nothing but their transactions and the entries of indexes that no schema
lists. -/
structure SameListed (s s' : KvsState) : Prop where
  frame : ∃ indexes txns, s' = { s with indexes, txns }
  listed : ∀ dbId table schema, s.getSchema dbId table = some schema → ∀ idx ∈ schema.indices,
    s'.indexStore dbId table idx.name = s.indexStore dbId table idx.name

theorem SameListed.of_txns (s : KvsState) (txns : TxnManager) : SameListed s { s with txns } :=
  ⟨⟨_, _, rfl⟩, fun _ _ _ _ _ _ => rfl⟩

variable [Externals] {s s' : KvsState} {dbId : UInt32} {table : String}

/-! ### What is read -/

section Reads

variable (h : SameListed s s')
include h

omit [Externals] in
theorem SameListed.getSchema (dbId : UInt32) (table : String) :
    s'.getSchema dbId table = s.getSchema dbId table := by
  obtain ⟨_, _, rfl⟩ := h.frame
  rfl

omit [Externals] in
theorem SameListed.getTableStore (dbId : UInt32) (table : String) :
    s'.getTableStore dbId table = s.getTableStore dbId table := by
  obtain ⟨_, _, rfl⟩ := h.frame
  rfl

omit [Externals] in
theorem SameListed.row (k : Key) : s'.row k = s.row k := by
  obtain ⟨_, _, rfl⟩ := h.frame
  rfl

omit [Externals] in
theorem SameListed.hasStore (dbId : UInt32) (table : String) :
    s'.hasStore dbId table = s.hasStore dbId table := by
  obtain ⟨_, _, rfl⟩ := h.frame
  rfl

theorem SameListed.rowsForSimpleWhere (selection : Option Expr) (params : List Value) :
    Skvs.rowsForSimpleWhere s' dbId table selection params =
      Skvs.rowsForSimpleWhere s dbId table selection params := by
  have hscan : scanRows s' dbId table = scanRows s dbId table := by
    rw [scanRows, scanRows, h.getTableStore]
  have hfetch : ∀ ids, rowsFromIds s' dbId table ids = rowsFromIds s dbId table ids := by
    intro ids
    rw [rowsFromIds, rowsFromIds, h.getTableStore]
  cases selection with
  | none => exact hscan
  | some e =>
      have hpath : fastPath s' dbId table e params = fastPath s dbId table e params := by
        simp only [fastPath, h.getSchema]
      rw [rowsForSimpleWhere_eq, rowsForSimpleWhere_eq, hpath, hscan]
      cases hfast : fastPath s dbId table e params with
      | none => rfl
      | some found =>
          obtain ⟨idx, lookup⟩ := found
          obtain ⟨_, _, _, schema, hschema, hidx⟩ := fastPath_cases _ _ _ _ _ hfast
          simp only [hfetch, h.listed dbId table schema hschema idx hidx]

theorem SameListed.whereHolds (row : Row) (params : List Value) (e : Expr) (paramIdx : Nat) :
    Skvs.whereHolds s' dbId row params e paramIdx = Skvs.whereHolds s dbId row params e paramIdx := by
  have hfts : s'.ftsTables = s.ftsTables := by
    obtain ⟨_, _, rfl⟩ := h.frame
    rfl
  rw [Skvs.whereHolds, Skvs.whereHolds, evaluateWhereCtx_congr hfts]

theorem SameListed.executeJoins (from_ : List TableWithJoins) (params : List Value) :
    Skvs.executeJoins s' dbId from_ params = Skvs.executeJoins s dbId from_ params := by
  have hcond : ∀ combined c, joinConditionMatches s' dbId combined c params =
      joinConditionMatches s dbId combined c params := by
    intro combined c
    simp only [joinConditionMatches, h.whereHolds]
  have hjoin : ∀ isFirst name1 result join,
      executeJoin s' dbId isFirst name1 result join params =
        executeJoin s dbId isFirst name1 result join params := by
    intro isFirst name1 result join
    simp only [executeJoin, hcond, h.getTableStore, h.getSchema]
  simp only [Skvs.executeJoins, hjoin, h.getTableStore]

theorem SameListed.executeSelect (fuel : Nat) (query : Query) (params : List Value) :
    Skvs.executeSelect s' dbId fuel query params = Skvs.executeSelect s dbId fuel query params := by
  have hfinish : ∀ query select rows, finishSelect s' dbId query select params rows =
      finishSelect s dbId query select params rows := by
    intro query select rows
    simp only [finishSelect, h.whereHolds]
  have hview : ∀ name, s'.getViewDefinition dbId name = s.getViewDefinition dbId name := by
    obtain ⟨_, _, rfl⟩ := h.frame
    exact fun _ => rfl
  induction fuel generalizing query with
  | zero => rfl
  | succ fuel ih =>
      simp only [Skvs.executeSelect, hfinish, ih, h.executeJoins, hview, h.rowsForSimpleWhere,
        h.getSchema]

theorem SameListed.matchingRows (store : Store) (selection : Option Expr) (params : List Value)
    (paramIdx : Nat) : Skvs.matchingRows s' dbId store selection params paramIdx =
      Skvs.matchingRows s dbId store selection params paramIdx := by
  simp only [Skvs.matchingRows, h.whereHolds]

theorem SameListed.candidateRows (fuel : Nat) (schema : TableSchema) (columns : List Ident)
    (source : Option Query) (params : List Value) :
    Skvs.candidateRows s' fuel dbId schema columns source params =
      Skvs.candidateRows s fuel dbId schema columns source params := by
  simp only [Skvs.candidateRows, h.executeSelect]

variable {schema : TableSchema} (hschema : s.getSchema dbId schema.name = some schema)
include hschema

omit [Externals] in
theorem SameListed.valueExistsElsewhere (columns : List String) (values : List Value)
    (rowid : RowId) : Skvs.valueExistsElsewhere s' dbId schema columns values rowid =
      Skvs.valueExistsElsewhere s dbId schema columns values rowid := by
  have hlookup : ∀ col idx, findIndex schema col = some idx → ∀ v,
      lookupIndex s' dbId schema.name idx.name v = lookupIndex s dbId schema.name idx.name v := by
    intro col idx hfind v
    rw [lookupIndex, lookupIndex,
      h.listed dbId schema.name schema hschema idx (List.mem_of_find?_eq_some hfind)]
  unfold Skvs.valueExistsElsewhere
  rw [h.getTableStore]
  cases s.getTableStore dbId schema.name with
  | none => rfl
  | some store =>
      rcases columns with _ | ⟨col, _ | ⟨_, _⟩⟩
      · rfl
      · rcases values with _ | ⟨v, values⟩
        · rfl
        · cases hfind : findIndex schema col with
          | none => simp only [hfind]
          | some idx => simp only [hfind, hlookup col idx hfind]
      · rfl

theorem SameListed.validateConstraints (row : Row) (rowid : RowId) :
    Skvs.validateConstraints s' dbId schema row rowid =
      Skvs.validateConstraints s dbId schema row rowid := by
  simp only [Skvs.validateConstraints, checkColumnUnique, checkUniqueGroup, checkForeignKey,
    h.valueExistsElsewhere hschema, h.getTableStore]

end Reads

/-! ### What is changed -/

section Changes

variable (h : SameListed s s')
include h

omit [Externals] in
theorem SameListed.withTxns (txns txns' : TxnManager) :
    SameListed { s with txns } { s' with txns := txns' } := by
  obtain ⟨indexes, _, rfl⟩ := h.frame
  exact ⟨⟨indexes, txns', rfl⟩, h.listed⟩

omit [Externals] in
theorem SameListed.record (txId txId' : Option UInt32) (op : UndoOp) :
    SameListed (s.record txId op) (s'.record txId' op) := by
  obtain ⟨txns, hrec⟩ := record_frame s txId op
  obtain ⟨txns', hrec'⟩ := record_frame s' txId' op
  rw [hrec, hrec']
  exact h.withTxns txns txns'

omit [Externals] in
theorem SameListed.getNextRowid (dbId : UInt32) (table : String) :
    SameListed (s.getNextRowid dbId table).2 (s'.getNextRowid dbId table).2 := by
  obtain ⟨indexes, txns, rfl⟩ := h.frame
  exact ⟨⟨indexes, txns, rfl⟩, h.listed⟩

omit [Externals] in
theorem SameListed.modifyStore (dbId : UInt32) (table : String) (f : Store → Store) :
    SameListed (s.modifyStore dbId table f) (s'.modifyStore dbId table f) := by
  obtain ⟨indexes, txns, rfl⟩ := h.frame
  exact ⟨⟨indexes, txns, rfl⟩, h.listed⟩

omit [Externals] in
theorem SameListed.indexStep (idx : IndexDef) (rowid : RowId) (copy after : Option Row) :
    SameListed (Skvs.indexStep dbId table rowid copy after s idx)
      (Skvs.indexStep dbId table rowid copy after s' idx) where
  frame := by
    obtain ⟨_, txns, rfl⟩ := h.frame
    obtain ⟨_, hs⟩ := indexStep_frame s dbId table rowid copy after idx
    obtain ⟨_, hs'⟩ := indexStep_frame { s with indexes := _, txns } dbId table rowid copy after idx
    rw [hs, hs']
    exact ⟨_, txns, rfl⟩
  listed db t schema' hschema' idx' hidx' := by
    have hget : (Skvs.indexStep dbId table rowid copy after s idx).getSchema db t =
        s.getSchema db t := by
      obtain ⟨_, hs⟩ := indexStep_frame s dbId table rowid copy after idx
      rw [hs]
      rfl
    rw [indexStore_indexStep, indexStore_indexStep,
      h.listed db t schema' (hget ▸ hschema') idx' hidx']

omit [Externals] in
theorem SameListed.indexChange (rowid : RowId) (copy after : Option Row) :
    SameListed (Skvs.indexChange s dbId table rowid copy after)
      (Skvs.indexChange s' dbId table rowid copy after) := by
  rw [Skvs.indexChange, Skvs.indexChange, h.getSchema]
  cases hschema : s.getSchema dbId table with
  | none => exact h
  | some schema =>
      simp only
      generalize schema.indices = indices
      induction indices generalizing s s' with
      | nil => exact h
      | cons idx indices ih =>
          refine ih (h.indexStep idx rowid copy after) ?_
          obtain ⟨_, hs⟩ := indexStep_frame s dbId table rowid copy after idx
          rw [hs]
          exact hschema

theorem SameListed.syncFtsIndex (rowid : RowId) (row : Option Row) (isDelete : Bool) :
    SameListed (Skvs.syncFtsIndex s dbId table rowid row isDelete)
      (Skvs.syncFtsIndex s' dbId table rowid row isDelete) := by
  obtain ⟨indexes, txns, rfl⟩ := h.frame
  have hsync : Skvs.syncFtsIndex { s with indexes, txns } dbId table rowid row isDelete =
      { Skvs.syncFtsIndex s dbId table rowid row isDelete with indexes, txns } := by
    have hget : ({ s with indexes, txns } : KvsState).getFtsTable dbId table =
        s.getFtsTable dbId table := rfl
    unfold Skvs.syncFtsIndex
    rw [hget]
    split
    · rfl
    · split <;> rfl
  obtain ⟨ftsTables, hframe⟩ := syncFtsIndex_frame s dbId table rowid row isDelete
  rw [hsync, hframe]
  exact ⟨⟨indexes, txns, rfl⟩, h.listed⟩

theorem SameListed.syncFtsIndexChange (rowid : RowId) (copy after : Option Row) :
    SameListed (Skvs.syncFtsIndexChange s dbId table rowid copy after)
      (Skvs.syncFtsIndexChange s' dbId table rowid copy after) := by
  have hold : SameListed (Skvs.syncFtsIndex s dbId table rowid copy true)
      (Skvs.syncFtsIndex s' dbId table rowid copy true) := h.syncFtsIndex rowid copy true
  cases copy with
  | none =>
      cases after with
      | none => exact h
      | some row => exact h.syncFtsIndex rowid (some row) false
  | some old =>
      cases after with
      | none => exact hold
      | some row => exact hold.syncFtsIndex rowid (some row) false

omit [Externals] in
theorem SameListed.setIndexed (k : Key) (copy after : Option Row) :
    SameListed (Skvs.setIndexed s k copy after) (Skvs.setIndexed s' k copy after) :=
  (h.modifyStore k.dbId k.table (setRow after k.rowid)).indexChange k.rowid copy after

theorem SameListed.setSynced (k : Key) (copy after : Option Row) :
    SameListed (Skvs.setSynced s k copy after) (Skvs.setSynced s' k copy after) :=
  (h.setIndexed k copy after).syncFtsIndexChange k.rowid copy after

theorem SameListed.undoOp (op : UndoOp) :
    SameListed (Skvs.undoOp dbId s op) (Skvs.undoOp dbId s' op) := by
  cases hstore : s.hasStore dbId (op.key dbId).table with
  | false =>
      rw [undoOp_of_no_store dbId s op hstore,
        undoOp_of_no_store dbId s' op ((h.hasStore _ _).trans hstore)]
      exact h
  | true =>
      have hstore' := (h.hasStore dbId (op.key dbId).table).trans hstore
      cases op with
      | insert table rowid =>
          cases hrow : s.row ⟨dbId, table, rowid⟩ with
          | none =>
              rw [undoOp_insert_of_none dbId s table rowid hrow,
                undoOp_insert_of_none dbId s' table rowid ((h.row _).trans hrow)]
              exact h
          | some row =>
              rw [undoOp_insert dbId s table rowid hrow,
                undoOp_insert dbId s' table rowid ((h.row _).trans hrow)]
              exact h.setSynced ..
      | delete table rowid row =>
          rw [undoOp_delete dbId s table rowid row hstore,
            undoOp_delete dbId s' table rowid row hstore']
          exact h.setSynced ..
      | update table rowid oldRow =>
          cases hrow : s.row ⟨dbId, table, rowid⟩ with
          | none =>
              rw [undoOp_update_of_none dbId s table rowid oldRow hstore hrow,
                undoOp_update_of_none dbId s' table rowid oldRow hstore' ((h.row _).trans hrow)]
              exact h.setIndexed ..
          | some row =>
              rw [undoOp_update dbId s table rowid oldRow hrow,
                undoOp_update dbId s' table rowid oldRow ((h.row _).trans hrow)]
              exact h.setSynced ..

theorem SameListed.undoAll (ops : List UndoOp) :
    SameListed (Skvs.undoAll s dbId ops) (Skvs.undoAll s' dbId ops) := by
  rw [Skvs.undoAll, Skvs.undoAll]
  generalize ops.reverse = l
  induction l generalizing s s' with
  | nil => exact h
  | cons op l ih => exact ih (h.undoOp op)

end Changes

end Skvs
