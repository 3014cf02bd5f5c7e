import Skvs.Lib.Simulation
import Skvs.Proof.FastPath
import Skvs.Proof.Kept

/-!
# One database of two servers

Every map of the engine is keyed by the database first, and a statement on a database reads and
changes what is kept under its id. Two states with the same database stay so when the same is done to
it in both, and when anything is done to another database in either.
-/

namespace Skvs

open Prog

/-- Under the id of the database the two states keep the same. -/
structure SameDatabase (dbId : UInt32) (s s' : KvsState) : Prop where
  dbs : s'.dbs.get dbId = s.dbs.get dbId
  schemas : s'.schemas.get dbId = s.schemas.get dbId
  rowidGenerators : s'.rowidGenerators.get dbId = s.rowidGenerators.get dbId
  indexes : s'.indexes.get dbId = s.indexes.get dbId
  triggers : s'.triggers.get dbId = s.triggers.get dbId
  views : s'.views.get dbId = s.views.get dbId
  ftsTables : s'.ftsTables.get dbId = s.ftsTables.get dbId

namespace SameDatabase

variable {dbId : UInt32} {s s' s'' : KvsState}

theorem refl (dbId : UInt32) (s : KvsState) : SameDatabase dbId s s :=
  ⟨rfl, rfl, rfl, rfl, rfl, rfl, rfl⟩

theorem symm (h : SameDatabase dbId s s') : SameDatabase dbId s' s :=
  ⟨h.dbs.symm, h.schemas.symm, h.rowidGenerators.symm, h.indexes.symm, h.triggers.symm, h.views.symm,
    h.ftsTables.symm⟩

theorem trans (h : SameDatabase dbId s s') (h' : SameDatabase dbId s' s'') :
    SameDatabase dbId s s'' :=
  ⟨h'.dbs.trans h.dbs, h'.schemas.trans h.schemas, h'.rowidGenerators.trans h.rowidGenerators,
    h'.indexes.trans h.indexes, h'.triggers.trans h.triggers, h'.views.trans h.views,
    h'.ftsTables.trans h.ftsTables⟩

/-- The transactions of a server belong to no database. -/
theorem withTxns (h : SameDatabase dbId s s') (txns txns' : TxnManager) :
    SameDatabase dbId { s with txns } { s' with txns := txns' } :=
  ⟨h.dbs, h.schemas, h.rowidGenerators, h.indexes, h.triggers, h.views, h.ftsTables⟩

/-! ### What is read -/

section Reads

variable (h : SameDatabase dbId s s')
include h

theorem getTableStore (table : String) : s'.getTableStore dbId table = s.getTableStore dbId table := by
  rw [KvsState.getTableStore, KvsState.getTableStore, h.dbs]

theorem getSchema (table : String) : s'.getSchema dbId table = s.getSchema dbId table := by
  rw [KvsState.getSchema, KvsState.getSchema, h.schemas]

theorem hasStore (table : String) : s'.hasStore dbId table = s.hasStore dbId table := by
  rw [KvsState.hasStore, KvsState.hasStore, h.getTableStore]

theorem row {k : Key} (hk : k.dbId = dbId) : s'.row k = s.row k := by
  subst hk
  rw [KvsState.row, KvsState.row, KvsState.rowAt, KvsState.rowAt, h.getTableStore]

theorem rowidCounter (table : String) : s'.rowidCounter dbId table = s.rowidCounter dbId table := by
  simp only [KvsState.rowidCounter, IndexMap.getD, h.rowidGenerators]

theorem indexStore (table indexName : String) :
    s'.indexStore dbId table indexName = s.indexStore dbId table indexName := by
  simp only [KvsState.indexStore, IndexMap.getD, h.indexes]

theorem getTriggers (table : String) : s'.getTriggers dbId table = s.getTriggers dbId table := by
  rw [KvsState.getTriggers, KvsState.getTriggers, h.triggers]

theorem getViewDefinition (name : String) :
    s'.getViewDefinition dbId name = s.getViewDefinition dbId name := by
  rw [KvsState.getViewDefinition, KvsState.getViewDefinition, h.views]

theorem getFtsTable (name : String) : s'.getFtsTable dbId name = s.getFtsTable dbId name := by
  rw [KvsState.getFtsTable, KvsState.getFtsTable, h.ftsTables]

variable [Externals]

theorem evaluateWhereCtx (row : Row) (params : List Value) (e : Expr) :
    Skvs.evaluateWhereCtx s' dbId row params e = Skvs.evaluateWhereCtx s dbId row params e := by
  have hmatch : ∀ args, ftsMatch s' dbId row args = ftsMatch s dbId row args := by
    intro args
    simp only [ftsMatch, h.getFtsTable]
  induction e using evaluateWhereCtx.induct with
  | case1 left right ihl ihr => simp only [Skvs.evaluateWhereCtx, ihl, ihr]
  | case2 left right ihl ihr => simp only [Skvs.evaluateWhereCtx, ihl, ihr]
  | case3 inner ih => simp only [Skvs.evaluateWhereCtx, ih]
  | case4 inner ih => simp only [Skvs.evaluateWhereCtx, ih]
  | case5 name args distinct clausePlaceholders hcond =>
      simp only [Skvs.evaluateWhereCtx, hmatch]
  | case6 name args distinct clausePlaceholders hcond =>
      simp only [Skvs.evaluateWhereCtx, hmatch]
  | case7 e hand hor hnot hnested hfun =>
      rw [Skvs.evaluateWhereCtx, Skvs.evaluateWhereCtx] <;> assumption

theorem whereHolds (row : Row) (params : List Value) (e : Expr) (paramIdx : Nat) :
    Skvs.whereHolds s' dbId row params e paramIdx = Skvs.whereHolds s dbId row params e paramIdx := by
  rw [Skvs.whereHolds, Skvs.whereHolds, h.evaluateWhereCtx]

theorem matchingRows (store : Store) (selection : Option Expr) (params : List Value)
    (paramIdx : Nat) : Skvs.matchingRows s' dbId store selection params paramIdx =
      Skvs.matchingRows s dbId store selection params paramIdx := by
  simp only [Skvs.matchingRows, h.whereHolds]

theorem rowsForSimpleWhere (table : String) (selection : Option Expr) (params : List Value) :
    Skvs.rowsForSimpleWhere s' dbId table selection params =
      Skvs.rowsForSimpleWhere s dbId table selection params := by
  simp only [Skvs.rowsForSimpleWhere, scanRows, rowsFromIds, lookupIndex, rangeLookup, h.getTableStore,
    h.getSchema, h.indexStore]

theorem executeJoins (from_ : List TableWithJoins) (params : List Value) :
    Skvs.executeJoins s' dbId from_ params = Skvs.executeJoins s dbId from_ params := by
  have hcond : ∀ combined c, joinConditionMatches s' dbId combined c params =
      joinConditionMatches s dbId combined c params := by
    intro combined c
    simp only [joinConditionMatches, h.whereHolds]
  have hjoin : ∀ isFirst name1 result join,
      executeJoin s' dbId isFirst name1 result join params =
        executeJoin s dbId isFirst name1 result join params := by
    intro isFirst name1 result join
    simp only [executeJoin, hcond, h.getTableStore, h.getSchema]
  simp only [Skvs.executeJoins, hjoin, h.getTableStore]

theorem executeSelect (fuel : Nat) (query : Query) (params : List Value) :
    Skvs.executeSelect s' dbId fuel query params = Skvs.executeSelect s dbId fuel query params := by
  have hfinish : ∀ query select rows, finishSelect s' dbId query select params rows =
      finishSelect s dbId query select params rows := by
    intro query select rows
    simp only [finishSelect, h.whereHolds]
  induction fuel generalizing query with
  | zero => rfl
  | succ fuel ih =>
      simp only [Skvs.executeSelect, hfinish, ih, h.executeJoins, h.getViewDefinition,
        h.rowsForSimpleWhere, h.getSchema]

theorem candidateRows (fuel : Nat) (schema : TableSchema) (columns : List Ident)
    (source : Option Query) (params : List Value) :
    Skvs.candidateRows s' fuel dbId schema columns source params =
      Skvs.candidateRows s fuel dbId schema columns source params := by
  simp only [Skvs.candidateRows, h.executeSelect]

theorem validateConstraints (schema : TableSchema) (row : Row) (rowid : RowId) :
    Skvs.validateConstraints s' dbId schema row rowid =
      Skvs.validateConstraints s dbId schema row rowid := by
  have hexists : ∀ columns values, valueExistsElsewhere s' dbId schema columns values rowid =
      valueExistsElsewhere s dbId schema columns values rowid := by
    intro columns values
    simp only [valueExistsElsewhere, lookupIndex, h.getTableStore, h.indexStore]
  simp only [Skvs.validateConstraints, checkColumnUnique, checkUniqueGroup, checkForeignKey, hexists,
    h.getTableStore]

theorem conditionHolds (trigger : TriggerDef) (oldRow newRow : Option Row) :
    Skvs.conditionHolds s' dbId trigger oldRow newRow =
      Skvs.conditionHolds s dbId trigger oldRow newRow := by
  simp only [Skvs.conditionHolds, h.whereHolds]

end Reads

/-! ### The same done to both -/

section Both

variable (h : SameDatabase dbId s s') (table : String)
include h

theorem getNextRowid :
    SameDatabase dbId (s.getNextRowid dbId table).2 (s'.getNextRowid dbId table).2 := by
  refine ⟨h.dbs, h.schemas, ?_, h.indexes, h.triggers, h.views, h.ftsTables⟩
  simp only [KvsState.getNextRowid, IndexMap.get_insert_self, IndexMap.getD, h.rowidGenerators,
    h.rowidCounter]

theorem modifyIndexStore (indexName : String) (f : IndexStore → IndexStore) :
    SameDatabase dbId (s.modifyIndexStore dbId table indexName f)
      (s'.modifyIndexStore dbId table indexName f) := by
  refine ⟨h.dbs, h.schemas, h.rowidGenerators, ?_, h.triggers, h.views, h.ftsTables⟩
  simp only [KvsState.modifyIndexStore, IndexMap.get_insert_self, IndexMap.getD, h.indexes,
    h.indexStore]

theorem dropIndexStore (indexName : String) :
    SameDatabase dbId (s.dropIndexStore dbId table indexName)
      (s'.dropIndexStore dbId table indexName) := by
  refine ⟨h.dbs, h.schemas, h.rowidGenerators, ?_, h.triggers, h.views, h.ftsTables⟩
  simp only [KvsState.dropIndexStore, IndexMap.get_modify, h.indexes]

theorem modifyStore (f : Store → Store) :
    SameDatabase dbId (s.modifyStore dbId table f) (s'.modifyStore dbId table f) := by
  refine ⟨?_, h.schemas, h.rowidGenerators, h.indexes, h.triggers, h.views, h.ftsTables⟩
  simp only [KvsState.modifyStore, IndexMap.get_modify, h.dbs]

theorem addTrigger (trigger : TriggerDef) :
    SameDatabase dbId (s.addTrigger dbId table trigger) (s'.addTrigger dbId table trigger) := by
  refine ⟨h.dbs, h.schemas, h.rowidGenerators, h.indexes, ?_, h.views, h.ftsTables⟩
  simp only [KvsState.addTrigger, IndexMap.get_insert_self, IndexMap.getD, h.triggers]

theorem addView (name query : String) :
    SameDatabase dbId (s.addView dbId name query) (s'.addView dbId name query) := by
  refine ⟨h.dbs, h.schemas, h.rowidGenerators, h.indexes, h.triggers, ?_, h.ftsTables⟩
  simp only [KvsState.addView, IndexMap.get_insert_self, IndexMap.getD, h.views]

theorem removeView (name : String) :
    Except.Rel Eq (SameDatabase dbId) (s.removeView dbId name) (s'.removeView dbId name) := by
  rw [KvsState.removeView, KvsState.removeView, h.views]
  cases s.views.get dbId with
  | none => exact .error rfl
  | some map =>
      refine .ok ⟨h.dbs, h.schemas, h.rowidGenerators, h.indexes, h.triggers, ?_, h.ftsTables⟩
      exact (IndexMap.get_insert_self ..).trans (IndexMap.get_insert_self ..).symm

theorem registerFtsTable (name : String) (fts : FtsVirtualTable) :
    SameDatabase dbId (s.registerFtsTable dbId name fts) (s'.registerFtsTable dbId name fts) := by
  refine ⟨h.dbs, h.schemas, h.rowidGenerators, h.indexes, h.triggers, h.views, ?_⟩
  simp only [KvsState.registerFtsTable, IndexMap.get_insert_self, IndexMap.getD, h.ftsTables]

theorem modifyFts (f : FtsIndex → FtsIndex) :
    SameDatabase dbId (s.modifyFts dbId table f) (s'.modifyFts dbId table f) := by
  refine ⟨h.dbs, h.schemas, h.rowidGenerators, h.indexes, h.triggers, h.views, ?_⟩
  simp only [KvsState.modifyFts, IndexMap.get_modify, h.ftsTables]

theorem ensureSchemas :
    SameDatabase dbId { s with schemas := s.schemas.insertIfNew dbId ∅ }
      { s' with schemas := s'.schemas.insertIfNew dbId ∅ } := by
  refine ⟨h.dbs, ?_, h.rowidGenerators, h.indexes, h.triggers, h.views, h.ftsTables⟩
  simp only [IndexMap.get_insertIfNew, IndexMap.getD, h.schemas]

theorem setSchema (schema : TableSchema) :
    SameDatabase dbId (s.setSchema dbId table schema) (s'.setSchema dbId table schema) := by
  refine ⟨h.dbs, ?_, h.rowidGenerators, h.indexes, h.triggers, h.views, h.ftsTables⟩
  simp only [KvsState.setSchema, IndexMap.get_insert_self, IndexMap.getD, h.schemas]

theorem freshTable : SameDatabase dbId (s.freshTable dbId table) (s'.freshTable dbId table) := by
  refine ⟨?_, h.schemas, ?_, h.indexes, h.triggers, h.views, h.ftsTables⟩ <;>
    simp only [KvsState.freshTable, IndexMap.get_insert_self, IndexMap.getD, h.dbs, h.rowidGenerators]

theorem removeTable : SameDatabase dbId (s.removeTable dbId table) (s'.removeTable dbId table) := by
  refine ⟨?_, ?_, ?_, h.indexes, ?_, ?_, ?_⟩ <;>
    simp only [KvsState.removeTable, IndexMap.get_modify, h.dbs, h.schemas, h.rowidGenerators,
      h.triggers, h.views, h.ftsTables]

theorem renameTable (newName : String) :
    SameDatabase dbId (s.renameTable dbId table newName) (s'.renameTable dbId table newName) := by
  refine ⟨?_, ?_, ?_, h.indexes, h.triggers, h.views, h.ftsTables⟩ <;>
    simp only [KvsState.renameTable, KvsState.renameIn, IndexMap.get_modify, h.dbs, h.schemas,
      h.rowidGenerators]

theorem rebuildIndex [Externals] (idx : IndexDef) :
    SameDatabase dbId (Skvs.rebuildIndex s dbId table idx) (Skvs.rebuildIndex s' dbId table idx) := by
  rw [Skvs.rebuildIndex, Skvs.rebuildIndex, h.getTableStore]
  cases s.getTableStore dbId table with
  | none => exact h
  | some rows => exact h.modifyIndexStore table idx.name _

theorem addToIndex (idx : IndexDef) (row : Row) (rowid : RowId) :
    SameDatabase dbId (Skvs.addToIndex s dbId table idx row rowid)
      (Skvs.addToIndex s' dbId table idx row rowid) := by
  rw [Skvs.addToIndex, Skvs.addToIndex]
  cases indexValue idx row with
  | none => exact h
  | some val => exact h.modifyIndexStore table idx.name _

theorem removeFromIndex (idx : IndexDef) (row : Row) (rowid : RowId) :
    SameDatabase dbId (Skvs.removeFromIndex s dbId table idx row rowid)
      (Skvs.removeFromIndex s' dbId table idx row rowid) := by
  rw [Skvs.removeFromIndex, Skvs.removeFromIndex]
  cases indexValue idx row with
  | none => exact h
  | some val => exact h.modifyIndexStore table idx.name _

theorem indexStep (rowid : RowId) (copy after : Option Row) (idx : IndexDef) :
    SameDatabase dbId (Skvs.indexStep dbId table rowid copy after s idx)
      (Skvs.indexStep dbId table rowid copy after s' idx) := by
  cases copy with
  | none =>
      cases after with
      | none => exact h
      | some row => exact h.addToIndex table idx row rowid
  | some old =>
      have hold := h.removeFromIndex table idx old rowid
      cases after with
      | none => exact hold
      | some row => exact hold.addToIndex table idx row rowid

theorem indexChange (rowid : RowId) (copy after : Option Row) :
    SameDatabase dbId (Skvs.indexChange s dbId table rowid copy after)
      (Skvs.indexChange s' dbId table rowid copy after) := by
  rw [Skvs.indexChange, Skvs.indexChange, h.getSchema]
  cases s.getSchema dbId table with
  | none => exact h
  | some schema =>
      simp only
      generalize schema.indices = indices
      induction indices generalizing s s' with
      | nil => exact h
      | cons idx indices ih => exact ih (h.indexStep table rowid copy after idx)

theorem syncFtsIndex [Externals] (rowid : RowId) (row : Option Row) (isDelete : Bool) :
    SameDatabase dbId (Skvs.syncFtsIndex s dbId table rowid row isDelete)
      (Skvs.syncFtsIndex s' dbId table rowid row isDelete) := by
  rw [Skvs.syncFtsIndex, Skvs.syncFtsIndex, h.getFtsTable]
  split
  · exact h
  · split
    · exact h.modifyFts table _
    · exact h

theorem syncFtsIndexChange [Externals] (rowid : RowId) (copy after : Option Row) :
    SameDatabase dbId (Skvs.syncFtsIndexChange s dbId table rowid copy after)
      (Skvs.syncFtsIndexChange s' dbId table rowid copy after) := by
  have hold := h.syncFtsIndex table rowid copy true
  cases copy with
  | none =>
      cases after with
      | none => exact h
      | some row => exact h.syncFtsIndex table rowid (some row) false
  | some old =>
      cases after with
      | none => exact hold
      | some row => exact hold.syncFtsIndex table rowid (some row) false

omit table in
theorem setIndexed {k : Key} (hk : k.dbId = dbId) (copy after : Option Row) :
    SameDatabase dbId (Skvs.setIndexed s k copy after) (Skvs.setIndexed s' k copy after) := by
  subst hk
  exact (h.modifyStore k.table (setRow after k.rowid)).indexChange k.table k.rowid copy after

omit table in
theorem setSynced [Externals] {k : Key} (hk : k.dbId = dbId) (copy after : Option Row) :
    SameDatabase dbId (Skvs.setSynced s k copy after) (Skvs.setSynced s' k copy after) := by
  have hset := h.setIndexed hk copy after
  subst hk
  exact hset.syncFtsIndexChange k.table k.rowid copy after

omit table in
theorem undoOp [Externals] (op : UndoOp) :
    SameDatabase dbId (Skvs.undoOp dbId s op) (Skvs.undoOp dbId s' op) := by
  cases hstore : s.hasStore dbId (op.key dbId).table with
  | false =>
      rw [undoOp_of_no_store dbId s op hstore,
        undoOp_of_no_store dbId s' op ((h.hasStore _).trans hstore)]
      exact h
  | true =>
      have hstore' := (h.hasStore (op.key dbId).table).trans hstore
      cases op with
      | insert table rowid =>
          cases hrow : s.row ⟨dbId, table, rowid⟩ with
          | none =>
              rw [undoOp_insert_of_none dbId s table rowid hrow,
                undoOp_insert_of_none dbId s' table rowid ((h.row rfl).trans hrow)]
              exact h
          | some row =>
              rw [undoOp_insert dbId s table rowid hrow,
                undoOp_insert dbId s' table rowid ((h.row rfl).trans hrow)]
              exact h.setSynced rfl _ _
      | delete table rowid row =>
          rw [undoOp_delete dbId s table rowid row hstore,
            undoOp_delete dbId s' table rowid row hstore']
          exact h.setSynced rfl _ _
      | update table rowid oldRow =>
          cases hrow : s.row ⟨dbId, table, rowid⟩ with
          | none =>
              rw [undoOp_update_of_none dbId s table rowid oldRow hstore hrow,
                undoOp_update_of_none dbId s' table rowid oldRow hstore' ((h.row rfl).trans hrow)]
              exact h.setIndexed rfl _ _
          | some row =>
              rw [undoOp_update dbId s table rowid oldRow hrow,
                undoOp_update dbId s' table rowid oldRow ((h.row rfl).trans hrow)]
              exact h.setSynced rfl _ _

omit table in
theorem undoAll [Externals] (ops : List UndoOp) :
    SameDatabase dbId (Skvs.undoAll s dbId ops) (Skvs.undoAll s' dbId ops) := by
  rw [Skvs.undoAll, Skvs.undoAll]
  generalize ops.reverse = l
  induction l generalizing s s' with
  | nil => exact h
  | cons op l ih => exact ih (h.undoOp op)

end Both

/-! ### Changes of another database -/

section Other

variable {other : UInt32} (hne : dbId ≠ other) (s : KvsState) (table : String)
include hne

theorem get_modify_other {ν : Type} (m : IndexMap UInt32 ν) (f : ν → ν) :
    (m.modify other f).get dbId = m.get dbId := by
  rw [IndexMap.get_modify, if_neg hne]

theorem get_insert_other {ν : Type} (m : IndexMap UInt32 ν) (v : ν) :
    (m.insert other v).get dbId = m.get dbId := by
  rw [IndexMap.get_insert, if_neg hne]

theorem getNextRowid_other : SameDatabase dbId s (s.getNextRowid other table).2 :=
  ⟨rfl, rfl, get_insert_other hne _ _, rfl, rfl, rfl, rfl⟩

theorem modifyIndexStore_other (indexName : String) (f : IndexStore → IndexStore) :
    SameDatabase dbId s (s.modifyIndexStore other table indexName f) :=
  ⟨rfl, rfl, rfl, get_insert_other hne _ _, rfl, rfl, rfl⟩

theorem modifyStore_other (f : Store → Store) : SameDatabase dbId s (s.modifyStore other table f) :=
  ⟨get_modify_other hne _ _, rfl, rfl, rfl, rfl, rfl, rfl⟩

theorem addTrigger_other (trigger : TriggerDef) :
    SameDatabase dbId s (s.addTrigger other table trigger) :=
  ⟨rfl, rfl, rfl, rfl, get_insert_other hne _ _, rfl, rfl⟩

theorem modifyFts_other (f : FtsIndex → FtsIndex) :
    SameDatabase dbId s (s.modifyFts other table f) :=
  ⟨rfl, rfl, rfl, rfl, rfl, rfl, get_modify_other hne _ _⟩

theorem rebuildIndex_other [Externals] (idx : IndexDef) :
    SameDatabase dbId s (Skvs.rebuildIndex s other table idx) := by
  rw [Skvs.rebuildIndex]
  cases s.getTableStore other table with
  | none => exact .refl dbId s
  | some rows => exact modifyIndexStore_other hne s table idx.name _

theorem maintenance_other [Externals] {s s' : KvsState} (h : Maintenance other s s') :
    SameDatabase dbId s s' := by
  have hinsert {ν : Type} (m : IndexMap UInt32 ν) (v : ν) := get_insert_other hne m v
  have hmodify {ν : Type} (m : IndexMap UInt32 ν) (f : ν → ν) := get_modify_other hne m f
  cases h with
  | ensureSchemas =>
      refine ⟨rfl, ?_, rfl, rfl, rfl, rfl, rfl⟩
      rw [IndexMap.get_insertIfNew, if_neg hne]
  | setSchema => exact ⟨rfl, hinsert .., rfl, rfl, rfl, rfl, rfl⟩
  | freshTable => exact ⟨hinsert .., rfl, hinsert .., rfl, rfl, rfl, rfl⟩
  | removeTable =>
      exact ⟨hmodify .., hmodify .., hmodify .., rfl, hmodify .., hmodify .., hmodify ..⟩
  | renameTable => exact ⟨hmodify .., hmodify .., hmodify .., rfl, rfl, rfl, rfl⟩
  | rewriteRows table f => exact modifyStore_other hne s table _
  | rebuildIndex table idx => exact rebuildIndex_other hne s table idx
  | dropIndexStore => exact ⟨rfl, rfl, rfl, hmodify .., rfl, rfl, rfl⟩
  | registerFtsTable => exact ⟨rfl, rfl, rfl, rfl, rfl, rfl, hinsert ..⟩
  | addView => exact ⟨rfl, rfl, rfl, rfl, rfl, hinsert .., rfl⟩
  | removeView s₁ name hremove =>
      simp only [KvsState.removeView] at hremove
      cases hviews : s.views.get other with
      | none =>
          rw [hviews] at hremove
          cases hremove
      | some map =>
          rw [hviews] at hremove
          cases hremove
          exact ⟨rfl, rfl, rfl, rfl, rfl, hinsert .., rfl⟩

theorem indexStep_other (rowid : RowId) (copy after : Option Row) (idx : IndexDef) :
    SameDatabase dbId s (Skvs.indexStep other table rowid copy after s idx) := by
  have hadd : ∀ (s : KvsState) (row : Row),
      SameDatabase dbId s (Skvs.addToIndex s other table idx row rowid) := by
    intro s row
    rw [Skvs.addToIndex]
    cases indexValue idx row with
    | none => exact .refl dbId s
    | some val => exact modifyIndexStore_other hne s table idx.name _
  have hremove : ∀ old, SameDatabase dbId s (Skvs.removeFromIndex s other table idx old rowid) := by
    intro old
    rw [Skvs.removeFromIndex]
    cases indexValue idx old with
    | none => exact .refl dbId s
    | some val => exact modifyIndexStore_other hne s table idx.name _
  cases copy with
  | none =>
      cases after with
      | none => exact .refl dbId s
      | some row => exact hadd s row
  | some old =>
      cases after with
      | none => exact hremove old
      | some row => exact (hremove old).trans (hadd _ row)

theorem indexChange_other (rowid : RowId) (copy after : Option Row) :
    SameDatabase dbId s (Skvs.indexChange s other table rowid copy after) := by
  rw [Skvs.indexChange]
  cases s.getSchema other table with
  | none => exact .refl dbId s
  | some schema =>
      simp only
      generalize schema.indices = indices
      induction indices generalizing s with
      | nil => exact .refl dbId s
      | cons idx indices ih =>
          exact (indexStep_other hne s table rowid copy after idx).trans (ih _)

theorem syncFtsIndex_other [Externals] (rowid : RowId) (row : Option Row) (isDelete : Bool) :
    SameDatabase dbId s (Skvs.syncFtsIndex s other table rowid row isDelete) := by
  rw [Skvs.syncFtsIndex]
  split
  · exact .refl dbId s
  · split
    · exact modifyFts_other hne s table _
    · exact .refl dbId s

omit table in
theorem setIndexed_other {k : Key} (hk : k.dbId = other) (copy after : Option Row) :
    SameDatabase dbId s (Skvs.setIndexed s k copy after) := by
  subst hk
  exact (modifyStore_other hne s k.table _).trans (indexChange_other hne _ k.table k.rowid copy after)

omit table in
theorem setSynced_other [Externals] {k : Key} (hk : k.dbId = other) (copy after : Option Row) :
    SameDatabase dbId s (Skvs.setSynced s k copy after) := by
  have hset := setIndexed_other hne s hk copy after
  subst hk
  have hsync : ∀ s copy after, SameDatabase dbId s
      (Skvs.syncFtsIndexChange s k.dbId k.table k.rowid copy after) := by
    intro s copy after
    have hold := syncFtsIndex_other hne s k.table k.rowid copy true
    cases copy with
    | none =>
        cases after with
        | none => exact .refl dbId s
        | some row => exact syncFtsIndex_other hne s k.table k.rowid (some row) false
    | some old =>
        cases after with
        | none => exact hold
        | some row => exact hold.trans (syncFtsIndex_other hne _ k.table k.rowid (some row) false)
  exact hset.trans (hsync _ copy after)

omit table in
theorem undoOp_other [Externals] (op : UndoOp) : SameDatabase dbId s (Skvs.undoOp other s op) := by
  rcases undoOp_eq other s op with hop | ⟨copy, after, hop⟩ | ⟨after, hop⟩
  · rw [hop]
    exact .refl dbId s
  · rw [hop]
    exact setSynced_other hne s (op.key_dbId other) copy after
  · rw [hop]
    exact setIndexed_other hne s (op.key_dbId other) none after

omit table in
theorem undoAll_other [Externals] (ops : List UndoOp) :
    SameDatabase dbId s (Skvs.undoAll s other ops) := by
  rw [Skvs.undoAll]
  generalize ops.reverse = l
  induction l generalizing s with
  | nil => exact .refl dbId s
  | cons op l ih => exact (undoOp_other hne s op).trans (ih _)

end Other

end SameDatabase

end Skvs
