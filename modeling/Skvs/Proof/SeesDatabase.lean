import Skvs.Proof.SameDatabase
import Skvs.Proof.TxnIds

/-!
# What a statement sees

A statement reads its database and changes it, and keeps a journal for its transaction. From states
with the same database it has the same outcome and leaves the same database, whatever else the
states hold, and whichever transaction it runs under.
-/

namespace Skvs

open Prog

/-- Related states have the same database, and what statements do to a whole database in both states
keeps them related. -/
structure SeesDatabase (dbId : UInt32) (R : World → World → Prop) : Prop where
  same : ∀ w w', R w w' → SameDatabase dbId w.kvs w'.kvs
  change : ∀ w w' s s', R w w' → SameDatabase dbId s s' → s.txns = w.kvs.txns →
    s'.txns = w'.kvs.txns → R { w with kvs := s } { w' with kvs := s' }

/-- The same row change, under one transaction in the first state and under another in the second,
keeps them related as well. -/
structure SeesRows [Externals] (dbId : UInt32) (txId txId' : Option UInt32)
    (R : World → World → Prop) : Prop extends SeesDatabase dbId R where
  store : ∀ w w' k copy after, R w w' → k.dbId = dbId →
    R (w.store txId k copy after) (w'.store txId' k copy after)

section

variable [Externals] {dbId : UInt32} {R : World → World → Prop}

omit [Externals] in
theorem SeesDatabase.onState {f : KvsState → KvsState} (hR : SeesDatabase dbId R)
    (hsame : ∀ s s', SameDatabase dbId s s' → SameDatabase dbId (f s) (f s'))
    (htxns : ∀ s, (f s).txns = s.txns) : Uniform R (onState f) :=
  together_modify fun w w' h =>
    hR.change w w' _ _ h (hsame _ _ (hR.same w w' h)) (htxns _) (htxns _)

omit [Externals] in
theorem uniform_orRaise {α : Type} (o : Option α) (e : SkvsError) :
    Uniform R (orRaise o e) := by
  cases o with
  | none => exact together_fail _
  | some a => exact together_pure a

/-! ### INSERT, UPDATE, DELETE -/

section Rows

variable {txId txId' : Option UInt32} (hR : SeesRows dbId txId txId' R) {fire fire' : Fire}
  (hfire : ∀ table event timing oldRow newRow,
    Together R (fire table event timing oldRow newRow) (fire' table event timing oldRow newRow))
include hR hfire

theorem storeBetween_together (table : String) (rowid : RowId) (copy after : Option Row)
    (event : TriggerEvent) (oldRow newRow : Option Row) (affected : UInt64) :
    Together R
      (do
        fire table event .before oldRow newRow
        store txId ⟨dbId, table, rowid⟩ copy after
        fire table event .after oldRow newRow
        return affected)
      (do
        fire' table event .before oldRow newRow
        store txId' ⟨dbId, table, rowid⟩ copy after
        fire' table event .after oldRow newRow
        return affected) :=
  (hfire table event .before oldRow newRow).bind fun _ =>
    (together_modify fun w w' h => hR.store w w' _ copy after h rfl).bind fun _ =>
      (hfire table event .after oldRow newRow).bind fun _ => together_pure _

theorem checkedStore_together (table : String) (schema : TableSchema) (row : Row) (rowid : RowId)
    (copy : Option Row) (event : TriggerEvent) (oldRow newRow : Option Row) (affected : UInt64) :
    Together R
      (do
        let state ← Prog.read World.kvs
        check (validateConstraints state dbId schema row rowid)
        fire table event .before oldRow newRow
        store txId ⟨dbId, table, rowid⟩ copy (some row)
        fire table event .after oldRow newRow
        return affected)
      (do
        let state ← Prog.read World.kvs
        check (validateConstraints state dbId schema row rowid)
        fire' table event .before oldRow newRow
        store txId' ⟨dbId, table, rowid⟩ copy (some row)
        fire' table event .after oldRow newRow
        return affected) := by
  refine together_read_bind (fun w w' h => ?_) fun state => (together_ofExcept _).bind fun _ =>
    storeBetween_together hR hfire table rowid copy (some row) event oldRow newRow affected
  simp only [(hR.same w w' h).validateConstraints]

theorem executeInsert_together (fuel : Nat) (table : String) (columns : List Ident)
    (source : Option Query) (params : List Value) :
    Together R (executeInsert fire fuel dbId table columns source params txId)
      (executeInsert fire' fuel dbId table columns source params txId') := by
  refine together_read_bind (fun w w' h => ?_) fun state => (uniform_orRaise _ _).bind fun schema =>
    (uniform_orRaise _ _).bind fun _ => (together_ofExcept _).bind fun rows =>
      (together_foldlM (fun affected row => ?_) rows 0).bind fun _ => together_pure _
  · have hsame := hR.same w w' h
    simp only [hsame.getSchema, hsame.getTableStore, hsame.candidateRows]
  · have hdraw : Uniform R (nextRowid dbId table) := fun w w' h =>
      ⟨.ok ((hR.same w w' h).rowidCounter table).symm,
        hR.change w w' _ _ h ((hR.same w w' h).getNextRowid table) rfl rfl⟩
    rw [insertRow_eq, insertRow_eq]
    exact hdraw.bind fun rowid => checkedStore_together hR hfire table schema _ rowid none _ _ _ _

theorem executeUpdate_together (relation : TableFactor) (assignments : List Assignment)
    (selection : Option Expr) (params : List Value) :
    Together R (executeUpdate fire dbId relation assignments selection params txId)
      (executeUpdate fire' dbId relation assignments selection params txId') := by
  refine together_read_bind (fun w w' h => ?_) fun state => (uniform_orRaise _ _).bind fun store =>
    (uniform_orRaise _ _).bind fun schema =>
      (together_foldlM (fun affected entry => ?_) _ 0).bind fun _ => together_pure _
  · have hsame := hR.same w w' h
    simp only [hsame.getSchema, hsame.getTableStore, hsame.matchingRows]
  · rw [updateRow_eq, updateRow_eq]
    exact checkedStore_together hR hfire _ schema _ entry.1 (some entry.2) _ _ _ _

theorem executeDelete_together (tables : List String) (from_ : List TableWithJoins)
    (selection : Option Expr) (params : List Value) :
    Together R (executeDelete fire dbId tables from_ selection params txId)
      (executeDelete fire' dbId tables from_ selection params txId') := by
  refine (uniform_orRaise _ _).bind fun table => together_read_bind (fun w w' h => ?_) fun state =>
    (uniform_orRaise _ _).bind fun store =>
      (together_foldlM (fun affected entry => ?_) _ 0).bind fun _ => together_pure _
  · have hsame := hR.same w w' h
    simp only [hsame.getTableStore, hsame.matchingRows]
  · rw [deleteRow_eq, deleteRow_eq]
    exact storeBetween_together hR hfire table entry.1 (some entry.2) none _ _ _ _

end Rows

theorem fireTriggers_together (hR : SeesDatabase dbId R) {run run' : Statement → Db QueryResult}
    (hrun : ∀ stmt, Together R (run stmt) (run' stmt)) (table : String) (event : TriggerEvent)
    (timing : TriggerTiming) (oldRow newRow : Option Row) :
    Together R (fireTriggers run dbId table event timing oldRow newRow)
      (fireTriggers run' dbId table event timing oldRow newRow) := by
  refine (together_read fun w w' h => (hR.same w w' h).getTriggers table).bind fun triggers =>
    together_forM (fun trigger => ?_) _
  refine together_read_bind (fun w w' h => ?_) fun state => (together_ofExcept _).bind fun holds =>
    together_ite ((together_ofExcept _).bind fun stmts =>
      together_forM (fun stmt => (hrun stmt).bind fun _ => together_pure _) stmts) (together_pure _)
  simp only [(hR.same w w' h).conditionHolds]

/-! ### CREATE, ALTER, DROP -/

section Catalogue

variable (hR : SeesDatabase dbId R)
include hR

omit [Externals] in
theorem ensureSchemas_uniform : Uniform R (ensureSchemas dbId) :=
  hR.onState (fun _ _ h => h.ensureSchemas) fun _ => rfl

omit [Externals] in
theorem uniform_setSchema (table : String) (schema : TableSchema) :
    Uniform R (onState fun s => s.setSchema dbId table schema) :=
  hR.onState (fun _ _ h => h.setSchema table schema) fun _ => rfl

omit [Externals] in
theorem uniform_newTable (table : String) (schema : TableSchema) :
    Uniform R
      (onState fun s => (s.setSchema dbId table schema).freshTable dbId table) :=
  hR.onState (fun _ _ h => (h.setSchema table schema).freshTable table) fun _ => rfl

theorem createTable_uniform (name : String) (columns : List SqlColumnDef)
    (constraints : List TableConstraint) (ifNotExists : Bool) :
    Uniform R (createTable dbId name columns constraints ifNotExists) := by
  have htable : Uniform R (onState fun s =>
      (s.setSchema dbId name (buildSchema name columns constraints)).freshTable dbId name) :=
    uniform_newTable hR name (buildSchema name columns constraints)
  have hcreate := htable.bind fun _ => together_pure QueryResult.empty
  refine (ensureSchemas_uniform hR).bind fun _ => together_read_bind (fun w w' h => ?_) fun state =>
    together_ite (together_ite (together_pure _) ((together_fail _).bind fun _ => hcreate)) hcreate
  simp only [(hR.same w w' h).getSchema]

theorem createVirtualTable_uniform (name : String) (ifNotExists : Bool) (moduleName : Ident)
    (moduleArgs : List Ident) :
    Uniform R (createVirtualTable dbId name ifNotExists moduleName moduleArgs) := by
  have hcreate : ∀ schema fts, Uniform R (do
      onState fun s => (s.setSchema dbId name schema).freshTable dbId name
      onState fun s => s.registerFtsTable dbId name fts
      return QueryResult.empty) := fun schema fts =>
    (uniform_newTable hR name schema).bind fun _ =>
      (hR.onState (fun _ _ h => h.registerFtsTable name fts) fun _ => rfl).bind fun _ =>
        together_pure _
  refine together_ite ((together_fail _).bind fun _ => ?_) ?_
  all_goals
    refine (ensureSchemas_uniform hR).bind fun _ =>
      together_read_bind (fun w w' h => ?_) fun state =>
        together_ite (together_ite (together_pure _) ((together_fail _).bind fun _ => hcreate _ _))
          (hcreate _ _)
    simp only [(hR.same w w' h).getSchema]

omit [Externals] in
theorem dropTable_uniform (names : List String) (ifExists : Bool) :
    Uniform R (dropTable dbId names ifExists) := by
  refine (together_forM (fun table => ?_) names).bind fun _ => together_pure _
  have hremove : Uniform R (onState fun s => s.removeTable dbId table) :=
    hR.onState (fun _ _ h => h.removeTable table) fun _ => rfl
  refine (ensureSchemas_uniform hR).bind fun _ => together_read_bind (fun w w' h => ?_) fun state =>
    together_ite ((together_fail _).bind fun _ => hremove) hremove
  simp only [(hR.same w w' h).getSchema]

theorem alterOperation_uniform (table : String) (op : AlterTableOperation) :
    Uniform R (alterOperation dbId table op) := by
  have hset : ∀ (f : RowId → Row → Row) (schema : TableSchema),
      Uniform R (do
        onState fun s => s.modifyStore dbId table fun store => store.mapValues f
        onState fun s => s.setSchema dbId table schema
        return table) := fun f schema =>
    (hR.onState (fun _ _ h => h.modifyStore table _) fun _ => rfl).bind fun _ =>
      (uniform_setSchema hR table schema).bind fun _ => together_pure _
  refine together_read_bind (fun w w' h => ?_) fun state => ?_
  · simp only [(hR.same w w' h).getSchema]
  · generalize state.getSchema dbId table = current
    cases op with
    | addColumn columnDef =>
        cases current
        all_goals refine Together.bind ?_ fun schema =>
          together_ite ((together_fail _).bind fun _ => hset _ _) (hset _ _)
        · exact together_fail _
        · exact together_pure _
    | dropColumn columnName colIfExists =>
        cases current
        all_goals refine Together.bind ?_ fun schema =>
          together_ite ((together_fail _).bind fun _ => hset _ _) (hset _ _)
        · exact together_fail _
        · exact together_pure _
    | renameColumn oldColumnName newColumnName =>
        cases current
        all_goals refine Together.bind ?_ fun schema => (uniform_orRaise _ _).bind fun colDef =>
          together_ite ((together_fail _).bind fun _ => hset _ _) (hset _ _)
        · exact together_fail _
        · exact together_pure _
    | renameTable newTable =>
        exact (hR.onState (fun _ _ h => h.renameTable table newTable) fun _ => rfl).bind
          fun _ => together_pure _
    | other text => exact together_fail _

theorem alterTable_uniform (name : String) (ifExists : Bool)
    (operations : List AlterTableOperation) :
    Uniform R (alterTable dbId name ifExists operations) := by
  have hall : Uniform R (do
      let _ ← operations.foldlM (alterOperation dbId) name
      return QueryResult.empty) :=
    (together_foldlM (alterOperation_uniform hR) operations name).bind fun _ => together_pure _
  refine together_read_bind (fun w w' h => ?_) fun state =>
    (uniform_orRaise _ _).bind fun schemas =>
      together_ite (together_ite (together_pure _) ((together_fail _).bind fun _ => hall)) hall
  simp only [(hR.same w w' h).schemas]

theorem createIndex_uniform (name : Option String) (table : String) (columns : List OrderByExpr)
    (unique ifNotExists : Bool) :
    Uniform R (createIndex dbId name table columns unique ifNotExists) := by
  have hbuild : ∀ (schema : TableSchema) (idx : IndexDef), Uniform R (do
      onState fun s => s.setSchema dbId table { schema with indices := schema.indices ++ [idx] }
      onState fun s => rebuildIndex s dbId table idx
      return QueryResult.empty) := fun schema idx =>
    (uniform_setSchema hR table _).bind fun _ =>
      (hR.onState (fun _ _ h => h.rebuildIndex table idx)
        fun s => (Maintenance.rebuildIndex s table idx).txns).bind fun _ =>
          together_pure _
  refine together_read_bind (fun w w' h => ?_) fun state =>
    (uniform_orRaise _ _).bind fun schemas => (uniform_orRaise _ _).bind fun schema =>
      together_ite (together_ite (together_pure _) ((together_fail _).bind fun _ => hbuild _ _))
        (hbuild _ _)
  simp only [(hR.same w w' h).schemas]

theorem dropIndex_uniform (names : List String) (ifExists : Bool) :
    Uniform R (dropIndex dbId names ifExists) := by
  refine together_read_bind (fun w w' h => ?_) fun state => (uniform_orRaise _ _).bind fun _ =>
    (together_forM (fun indexName => ?_) names).bind fun _ => together_pure _
  · simp only [(hR.same w w' h).schemas]
  · refine together_read_bind (fun w w' h => ?_) fun state => ?_
    · simp only [IndexMap.getD, (hR.same w w' h).schemas]
    · simp only
      cases (hashOrder (state.schemas.getD dbId ∅).entries).find? fun e =>
          e.2.indices.any fun i => i.name = indexName with
      | none => exact together_ite (together_fail _) (together_pure _)
      | some e =>
          exact (uniform_setSchema hR e.1 _).bind fun _ =>
            hR.onState (fun _ _ h => h.dropIndexStore e.1 indexName) fun _ => rfl

theorem createView_uniform (name : String) (query : Query) :
    Uniform R (createView dbId name query) := by
  refine (together_ofExcept _).bind fun stmts => ?_
  split
  · exact (hR.onState (fun _ _ h => h.addView name _) fun _ => rfl).bind fun _ => together_pure _
  · exact together_fail _
  · exact together_fail _

theorem dropView_uniform (names : List String) (ifExists : Bool) :
    Uniform R (dropView dbId names ifExists) := by
  refine (together_forM (fun name => ?_) names).bind fun _ => together_pure _
  intro w w' h
  have hremove := (hR.same w w' h).removeView name
  rw [Simulates, exec_bind_ok (exec_read World.kvs w), exec_bind_ok (exec_read World.kvs w')]
  generalize hx : w.kvs.removeView dbId name = x at hremove ⊢
  generalize hx' : w'.kvs.removeView dbId name = x' at hremove ⊢
  cases hremove with
  | error he =>
      subst he
      exact together_ite (together_fail _) (together_pure _) w w' h
  | ok hs =>
      exact ⟨.ok rfl, hR.change w w' _ _ h hs (Maintenance.removeView _ _ name hx).txns
        (Maintenance.removeView _ _ name hx').txns⟩

end Catalogue

/-! ### Any statement -/

/-- By induction on the fuel, as triggers run through the same function. -/
theorem executeSingleStatement_together {txId txId' : Option UInt32}
    (hR : SeesRows dbId txId txId' R) (fuel : Nat) (stmt : Statement) (params : List Value) :
    Together R (executeSingleStatement fuel dbId stmt params txId)
      (executeSingleStatement fuel dbId stmt params txId') := by
  have hdb := hR.toSeesDatabase
  induction fuel generalizing stmt params with
  | zero => exact together_fail _
  | succ fuel ih =>
      have hfire := fireTriggers_together hdb fun stmt => ih stmt []
      cases stmt with
      | query query =>
          refine together_read_bind (fun w w' h => ?_) fun _ => together_ofExcept _
          simp only [(hR.same w w' h).executeSelect]
      | insert table columns source =>
          exact executeInsert_together hR hfire fuel table columns source params
      | update table assignments selection =>
          exact executeUpdate_together hR hfire table.relation assignments selection params
      | delete tables from_ selection =>
          exact executeDelete_together hR hfire tables from_ selection params
      | createTable name columns constraints ifNotExists =>
          exact createTable_uniform hdb name columns constraints ifNotExists
      | alterTable name ifExists operations => exact alterTable_uniform hdb name ifExists operations
      | createIndex name table columns unique ifNotExists =>
          exact createIndex_uniform hdb name table columns unique ifNotExists
      | createView name query => exact createView_uniform hdb name query
      | createVirtualTable name ifNotExists moduleName moduleArgs =>
          exact createVirtualTable_uniform hdb name ifNotExists moduleName moduleArgs
      | drop object names ifExists =>
          cases object with
          | table => exact dropTable_uniform hdb names ifExists
          | index => exact dropIndex_uniform hdb names ifExists
          | view => exact dropView_uniform hdb names ifExists
          | other debug => exact together_fail _
      | startTransaction | commit | rollback | other debug => exact together_fail _

theorem createTrigger_uniform (hR : SeesDatabase dbId R) (sql : String) :
    Uniform R (createTrigger dbId sql) :=
  (together_ofExcept _).bind fun trigger =>
    (hR.onState (fun _ _ h => h.addTrigger trigger.table trigger) fun _ => rfl).bind fun _ =>
      together_pure _

end

end Skvs
