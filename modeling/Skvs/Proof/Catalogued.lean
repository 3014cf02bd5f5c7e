import Skvs.Proof.DatabaseIsolation
import Skvs.Proof.DdlFrame

/-!
# The catalogue of every reachable state

The schemas and the rows of tables are kept in different maps. Each statement that makes, moves or
drops a table changes both, so that a table has a schema exactly if it has rows to look through, be
they none. Schemas stay well formed in themselves whatever CREATE, ALTER and DROP do to them.
-/

namespace Skvs

open Prog

/-! ### Schemas -/

/-- Columns are listed under their own names, and those of a primary key take no NULL. -/
def ColumnsNamed (columns : IndexMap String ColumnDef) : Prop :=
  ∀ c colDef, columns.get c = some colDef →
    colDef.name = c ∧ (colDef.primaryKey = true → colDef.notNull = true)

/-- The columns are named, and no two indexes have the same name. -/
structure TableSchema.WellFormed (schema : TableSchema) : Prop where
  columns : ColumnsNamed schema.columns
  indexes : (schema.indices.map IndexDef.name).Nodup

namespace ColumnsNamed

variable {columns : IndexMap String ColumnDef} (h : ColumnsNamed columns)
include h

theorem insert {colDef : ColumnDef} (hprimary : colDef.primaryKey = true → colDef.notNull = true) :
    ColumnsNamed (columns.insert colDef.name colDef) := by
  intro c found hfound
  rw [IndexMap.get_insert] at hfound
  split_ifs at hfound with hc
  · rw [← Option.some.inj hfound]
    exact ⟨hc.symm, hprimary⟩
  · exact h c found hfound

theorem erase (col : String) : ColumnsNamed (columns.erase col) := by
  intro c found hfound
  rw [IndexMap.get_erase] at hfound
  split_ifs at hfound
  exact h c found hfound

theorem insertAt (i : Nat) {col : String} {colDef : ColumnDef} (hname : colDef.name = col)
    (hprimary : colDef.primaryKey = true → colDef.notNull = true) :
    ColumnsNamed (columns.insertAt i col colDef) := by
  intro c found hfound
  rw [IndexMap.get_insertAt] at hfound
  split_ifs at hfound with hc
  · rw [← Option.some.inj hfound]
    exact ⟨hname.trans hc.symm, hprimary⟩
  · exact h c found hfound

theorem modify (col : String) {f : ColumnDef → ColumnDef} (hname : ∀ d, (f d).name = d.name)
    (hprimary : ∀ d, (d.primaryKey = true → d.notNull = true) →
      (f d).primaryKey = true → (f d).notNull = true) : ColumnsNamed (columns.modify col f) := by
  intro c found hfound
  rw [IndexMap.get_modify] at hfound
  split_ifs at hfound
  · obtain ⟨old, hold, rfl⟩ := Option.map_eq_some_iff.mp hfound
    obtain ⟨holdName, holdPrimary⟩ := h c old hold
    exact ⟨(hname old).trans holdName, hprimary old holdPrimary⟩
  · exact h c found hfound

end ColumnsNamed

/-- Both kinds of table-level keys go through the columns that they name. -/
theorem ColumnsNamed.addKey {schema : TableSchema} (h : ColumnsNamed schema.columns)
    (cols : List String) (isPrimary : Bool) :
    ColumnsNamed (Skvs.addKey schema cols isPrimary).columns := by
  unfold Skvs.addKey
  generalize schema.columns = columns at h
  dsimp only
  induction cols generalizing columns with
  | nil => exact h
  | cons col cols ih =>
      refine ih _ (h.modify col (fun d => ?_) fun d hd => ?_)
      all_goals cases isPrimary
      · rfl
      · rfl
      · exact hd
      · exact fun _ => rfl

section

variable [Externals]

theorem parseColumnDef_primary (col : SqlColumnDef) :
    (parseColumnDef col).primaryKey = true → (parseColumnDef col).notNull = true := by
  unfold parseColumnDef
  have hfold : ∀ (options : List ColumnOption) (d : ColumnDef),
      (d.primaryKey = true → d.notNull = true) →
        (options.foldl parseColumnOption d).primaryKey = true →
          (options.foldl parseColumnOption d).notNull = true := by
    intro options
    induction options with
    | nil => exact fun d hd => hd
    | cons option options ih =>
        refine fun d hd => ih _ ?_
        cases option with
        | notNull => exact fun _ => rfl
        | unique isPrimary =>
            cases isPrimary with
            | true => exact fun _ => rfl
            | false => exact hd
        | dialectSpecific tokens =>
            rw [parseColumnOption]
            split_ifs
            · exact hd
            · exact hd
        | default | check | other => exact hd
  exact hfold col.options _ fun hfalse => absurd hfalse Bool.false_ne_true

theorem TableSchema.WellFormed.addConstraint {schema : TableSchema} (h : schema.WellFormed)
    (constraint : TableConstraint) : (Skvs.addConstraint schema constraint).WellFormed := by
  cases constraint with
  | unique cols isPrimary => exact ⟨h.columns.addKey _ isPrimary, h.indexes⟩
  | foreignKey | check | other => exact ⟨h.columns, h.indexes⟩

theorem buildSchema_wellFormed (name : String) (columns : List SqlColumnDef)
    (constraints : List TableConstraint) : (buildSchema name columns constraints).WellFormed := by
  have hempty : (emptySchema name).WellFormed :=
    ⟨fun c colDef hget => (by cases hget), List.nodup_nil⟩
  have hcolumns : (columns.foldl addColumn (emptySchema name)).WellFormed :=
    List.foldlRecOn columns addColumn hempty fun schema h col _ =>
      ⟨h.columns.insert (parseColumnDef_primary col), h.indexes⟩
  exact List.foldlRecOn constraints addConstraint hcolumns fun schema h constraint _ =>
    h.addConstraint constraint

theorem TableSchema.WellFormed.editSchema {schema : TableSchema} (h : schema.WellFormed)
    (op : AlterTableOperation) : (op.editSchema schema).WellFormed := by
  refine ⟨?_, by rw [(op.editSchema_rules schema).2.1]; exact h.indexes⟩
  cases op with
  | addColumn columnDef => exact h.columns.insert (parseColumnDef_primary columnDef)
  | dropColumn columnName ifExists => exact h.columns.erase columnName.value
  | renameColumn old new =>
      rw [AlterTableOperation.editSchema]
      cases hget : schema.columns.get old.value with
      | none => exact h.columns
      | some colDef => exact (h.columns.erase old.value).insertAt _ rfl (h.columns _ _ hget).2
  | renameTable | other => exact h.columns

end

/-! ### States -/

/-- A table has a schema exactly if it has a store, and the schema is well formed. -/
structure TableData.Catalogued (d : TableData) : Prop where
  both : d.schema.isSome = d.entry.store.isSome
  schema : ∀ schema, d.schema = some schema → schema.WellFormed

def KvsState.Catalogued (s : KvsState) : Prop :=
  ∀ dbId table, (s.tableData dbId table).Catalogued

namespace TableData.Catalogued

theorem none : TableData.none.Catalogued := ⟨rfl, fun schema hnone => by cases hnone⟩

theorem replacing {d old : TableData} (h : d.Catalogued) (hold : old.Catalogued) :
    (d.replacing old).Catalogued where
  both := by rw [TableData.replacing, Option.isSome_or, Option.isSome_or, h.both, hold.both]
  schema schema hschema := (Option.or_eq_some_iff.mp hschema).elim (h.schema schema)
    fun hright => hold.schema schema hright.2

theorem edit [Externals] {d : TableData} (h : d.Catalogued) (op : AlterTableOperation) :
    (d.edit op).Catalogued where
  both := by rw [TableData.edit, Option.isSome_map, Option.isSome_map, h.both]
  schema schema hschema := by
    obtain ⟨old, hold, rfl⟩ := Option.map_eq_some_iff.mp hschema
    exact (h.schema old hold).editSchema op

end TableData.Catalogued

namespace KvsState.Catalogued

variable {s s' : KvsState} (h : s.Catalogued)
include h

theorem hasStore {dbId : UInt32} {table : String} {schema : TableSchema}
    (hschema : s.getSchema dbId table = some schema) : s.hasStore dbId table = true := by
  have hboth := (h dbId table).both
  rw [KvsState.tableData, hschema] at hboth
  exact hboth.symm

theorem congr (hschemas : ∀ dbId table, s'.getSchema dbId table = s.getSchema dbId table)
    (hstores : ∀ dbId table, s'.hasStore dbId table = s.hasStore dbId table) : s'.Catalogued := by
  intro dbId table
  refine ⟨?_, fun schema hschema => (h dbId table).schema schema ((hschemas ..).symm.trans hschema)⟩
  exact ((congrArg Option.isSome (hschemas dbId table)).trans (h dbId table).both).trans
    (hstores dbId table).symm

theorem setSchema {dbId : UInt32} {table : String} {schema : TableSchema}
    (hstore : s.hasStore dbId table = true) (hschema : schema.WellFormed) :
    (s.setSchema dbId table schema).Catalogued := by
  intro dbId' table'
  rw [tableData_setSchema]
  split_ifs
  · exact ⟨hstore.symm, fun schema' heq => Option.some.inj heq ▸ hschema⟩
  · exact h dbId' table'

theorem newTable {schema : TableSchema} (hschema : schema.WellFormed) (dbId : UInt32)
    (table : String) : ((s.setSchema dbId table schema).freshTable dbId table).Catalogued := by
  intro dbId' table'
  have hset := tableData_setSchema s dbId dbId' table table' schema
  have hfresh : ((s.setSchema dbId table schema).freshTable dbId table).tableData dbId' table' =
      ⟨((s.setSchema dbId table schema).tableData dbId' table').schema,
        ((s.setSchema dbId table schema).freshTable dbId table).tableEntry dbId' table'⟩ := rfl
  rw [hfresh, tableEntry_freshTable]
  split_ifs at hset ⊢
  · rw [hset]
    exact ⟨rfl, fun schema' heq => Option.some.inj heq ▸ hschema⟩
  · have hentry : (s.setSchema dbId table schema).tableEntry dbId' table' =
        ((s.setSchema dbId table schema).tableData dbId' table').entry := rfl
    rw [hentry, hset]
    exact h dbId' table'

theorem removeTable (dbId : UInt32) (table : String) : (s.removeTable dbId table).Catalogued := by
  intro dbId' table'
  have hschema := lookup_eraseIn dbId dbId' table table' s.schemas
  have hdata : (s.removeTable dbId table).tableData dbId' table' =
      ⟨((s.removeTable dbId table).schemas.get dbId').bind fun db => db.get table',
        (s.removeTable dbId table).tableEntry dbId' table'⟩ := rfl
  rw [hdata, tableEntry_removeTable]
  change TableData.Catalogued ⟨((s.schemas.modify dbId fun db => db.erase table).get dbId').bind
    fun db => db.get table', _⟩
  rw [hschema]
  split_ifs
  · exact .none
  · exact h dbId' table'

theorem renameTable (dbId : UInt32) (table newName : String) :
    (s.renameTable dbId table newName).Catalogued := by
  intro dbId' table'
  rw [tableData_renameTable]
  split_ifs
  · exact (h dbId table).replacing (h dbId newName)
  · exact .none
  · exact h dbId' table'

theorem editTable [Externals] {dbId : UInt32} {table : String} {schema : TableSchema}
    (hschema : s.getSchema dbId table = some schema) (op : AlterTableOperation) :
    (Skvs.editTable s dbId table schema op).Catalogued := by
  intro dbId' table'
  rw [tableData_editTable hschema]
  split_ifs
  · exact (h dbId table).edit op
  · exact h dbId' table'

theorem sets {k : Key} {copy after : Option Row} (hsets : Sets s k copy after s') :
    s'.Catalogued := by
  refine h.congr (fun dbId table => ?_) hsets.hasStore
  rw [KvsState.getSchema, hsets.schemas, KvsState.getSchema]

end KvsState.Catalogued

/-! ### Statements -/

/-- The invariant of the worlds. -/
def World.Catalogued (w : World) : Prop := w.kvs.Catalogued

section

variable [Externals] {dbId : UInt32}

omit [Externals] in
theorem ensureSchemas_catalogued : Keeps World.Catalogued (ensureSchemas dbId) :=
  keeps_modify fun w hw => hw.congr (sameContents_ensured w.kvs dbId).schema fun _ _ => rfl

omit [Externals] in
theorem newTable_catalogued (dbId : UInt32) (name : String) {schema : TableSchema}
    (hschema : schema.WellFormed) :
    Keeps World.Catalogued
      (onState fun s => (s.setSchema dbId name schema).freshTable dbId name) :=
  keeps_modify fun _ hw => hw.newTable hschema dbId name

theorem createTable_catalogued (name : String) (columns : List SqlColumnDef)
    (constraints : List TableConstraint) (ifNotExists : Bool) :
    Keeps World.Catalogued (createTable dbId name columns constraints ifNotExists) := by
  have htable := newTable_catalogued dbId name
    (buildSchema_wellFormed name columns constraints)
  have hcreate := htable.bind fun _ => keeps_pure QueryResult.empty
  exact ensureSchemas_catalogued.bind fun _ => (keeps_read _).bind fun state =>
    keeps_ite (keeps_ite (keeps_pure _) ((keeps_raise _).bind fun _ => hcreate)) hcreate

omit [Externals] in
theorem virtualSchema_wellFormed (name : String) (moduleArgs : List Ident) :
    (virtualSchema name moduleArgs).WellFormed := by
  refine ⟨fun c colDef hget => ?_, List.nodup_nil⟩
  obtain ⟨col, -, heq⟩ := List.mem_map.mp (IndexMap.mem_of_get_ofList _ hget)
  obtain ⟨rfl, rfl⟩ := Prod.mk.inj heq
  exact ⟨rfl, fun hfalse => absurd hfalse Bool.false_ne_true⟩

theorem createVirtualTable_catalogued (name : String) (ifNotExists : Bool) (moduleName : Ident)
    (moduleArgs : List Ident) :
    Keeps World.Catalogued (createVirtualTable dbId name ifNotExists moduleName moduleArgs) := by
  have hregister : ∀ fts, Keeps World.Catalogued
      (onState fun s => s.registerFtsTable dbId name fts) := fun fts =>
    keeps_modify fun _ hw => hw.congr (fun _ _ => rfl) fun _ _ => rfl
  have hcreate := fun fts => (newTable_catalogued dbId name
    (virtualSchema_wellFormed name moduleArgs)).bind fun _ => (hregister fts).bind fun _ =>
      keeps_pure QueryResult.empty
  refine keeps_ite ((keeps_raise _).bind fun _ => ?_) ?_
  all_goals
    exact ensureSchemas_catalogued.bind fun _ => (keeps_read _).bind fun state =>
      keeps_ite (keeps_ite (keeps_pure _) ((keeps_raise _).bind fun _ => hcreate _)) (hcreate _)

omit [Externals] in
theorem dropTable_catalogued (names : List String) (ifExists : Bool) :
    Keeps World.Catalogued (dropTable dbId names ifExists) := by
  refine (keeps_forM (fun table => ?_) names).bind fun _ => keeps_pure _
  have hremove : Keeps World.Catalogued (onState fun s => s.removeTable dbId table) :=
    keeps_modify fun _ hw => hw.removeTable dbId table
  exact ensureSchemas_catalogued.bind fun _ => (keeps_read _).bind fun state =>
    keeps_ite ((keeps_raise _).bind fun _ => hremove) hremove

theorem alterOperation_catalogued (table : String) (op : AlterTableOperation) :
    Keeps World.Catalogued (alterOperation dbId table op) := by
  intro w hw
  cases hop : op.onColumn with
  | true =>
      obtain ⟨e, herr⟩ | ⟨w', schema, hok, hschema, -, hkvs⟩ := alterOperation_cases hop table w
      · rw [herr]
        exact hw
      · rw [hok, World.Catalogued, hkvs]
        exact hw.editTable hschema op
  | false =>
      cases op with
      | renameTable newTable => exact hw.renameTable dbId table newTable
      | other text => exact hw
      | addColumn | dropColumn | renameColumn => cases hop

theorem alterTable_catalogued (name : String) (ifExists : Bool)
    (operations : List AlterTableOperation) :
    Keeps World.Catalogued (alterTable dbId name ifExists operations) := by
  have hall : Keeps World.Catalogued (do
      let _ ← operations.foldlM (alterOperation dbId) name
      return QueryResult.empty) :=
    (keeps_foldlM alterOperation_catalogued operations name).bind fun _ => keeps_pure _
  exact (keeps_read _).bind fun state => (keeps_orRaise _ _).bind fun schemas =>
    keeps_ite (keeps_ite (keeps_pure _) ((keeps_raise _).bind fun _ => hall)) hall

omit [Externals] in
/-- A schema that gets other indexes under distinct names. -/
theorem KvsState.Catalogued.setIndexes {s : KvsState} (h : s.Catalogued) {table : String}
    {schema : TableSchema} (hschema : s.getSchema dbId table = some schema)
    {indices : List IndexDef} (hnodup : (indices.map IndexDef.name).Nodup) :
    (s.setSchema dbId table { schema with indices }).Catalogued :=
  h.setSchema (h.hasStore hschema) ⟨((h dbId table).schema schema hschema).columns, hnodup⟩

theorem createIndex_catalogued (name : Option String) (table : String)
    (columns : List OrderByExpr) (unique ifNotExists : Bool) :
    Keeps World.Catalogued (createIndex dbId name table columns unique ifNotExists) := by
  intro w hw
  obtain hsame | ⟨schema, idx, hschema, hnew, hmade⟩ :=
    @createIndex_cases _ dbId name table columns unique ifNotExists w
  · rw [hsame]
    exact hw
  · rw [hmade]
    obtain ⟨indexes, hframe⟩ := rebuildIndex_frame dbId (w.kvs.setSchema dbId table
      { schema with indices := schema.indices ++ [idx] }) table idx
    have hnodup : ((schema.indices ++ [idx]).map IndexDef.name).Nodup := by
      rw [List.map_append, List.map_singleton]
      rw [← List.concat_eq_append]
      exact ((hw dbId table).schema schema hschema).indexes.concat hnew
    rw [World.Catalogued, hframe]
    exact (hw.setIndexes hschema hnodup).congr (fun _ _ => rfl) fun _ _ => rfl

theorem dropIndex_catalogued (names : List String) (ifExists : Bool) :
    Keeps World.Catalogued (dropIndex dbId names ifExists) := by
  refine (keeps_read _).bind fun state => (keeps_orRaise _ _).bind fun _ =>
    (keeps_forM (fun indexName => ?_) names).bind fun _ => keeps_pure _
  intro w hw
  rw [exec_bind_ok (exec_read World.kvs w)]
  cases hfound : (hashOrder (w.kvs.schemas.getD dbId ∅).entries).find? fun e =>
      e.2.indices.any fun i => i.name = indexName with
  | none =>
      simp only [hfound]
      exact keeps_ite (keeps_raise _) (keeps_pure _) w hw
  | some e =>
      simp only [hfound]
      have hmem : e ∈ (w.kvs.schemas.getD dbId ∅).entries :=
        (hashOrder_perm _).subset (List.mem_of_find?_eq_some hfound)
      have hschema : w.kvs.getSchema dbId e.1 = some e.2 := by
        rw [KvsState.getSchema, ← getD_get]
        exact (IndexMap.mem_entries_iff_get ..).mp hmem
      have hnodup : ((e.2.indices.filter fun i => i.name ≠ indexName).map IndexDef.name).Nodup :=
        ((hw dbId e.1).schema e.2 hschema).indexes.sublist (List.filter_sublist.map _)
      exact (hw.setIndexes hschema hnodup).congr (fun _ _ => rfl) fun _ _ => rfl

omit [Externals] in
theorem KvsState.Catalogued.sameTables {s s' : KvsState} (h : s.Catalogued)
    (hschemas : s'.schemas = s.schemas) (hdbs : s'.dbs = s.dbs) : s'.Catalogued := by
  refine h.congr (fun dbId table => ?_) fun dbId table => ?_
  · rw [KvsState.getSchema, hschemas, KvsState.getSchema]
  · rw [KvsState.hasStore, KvsState.getTableStore, hdbs, KvsState.hasStore, KvsState.getTableStore]

theorem createView_catalogued (name : String) (query : Query) :
    Keeps World.Catalogued (createView dbId name query) := by
  refine (keeps_ofExcept _).bind fun stmts => ?_
  have hadd : ∀ sql, Keeps World.Catalogued (onState fun s => s.addView dbId name sql) := fun sql =>
    keeps_modify fun _ hw => hw.sameTables rfl rfl
  split
  · exact (hadd _).bind fun _ => keeps_pure _
  · exact keeps_raise _
  · exact keeps_raise _

omit [Externals] in
theorem dropView_catalogued (names : List String) (ifExists : Bool) :
    Keeps World.Catalogued (dropView dbId names ifExists) := by
  refine (keeps_forM (fun name => ?_) names).bind fun _ => keeps_pure _
  intro w hw
  rw [exec_bind_ok (exec_read World.kvs w)]
  cases hremove : w.kvs.removeView dbId name with
  | error e => exact keeps_ite (keeps_raise e) (keeps_pure _) w hw
  | ok state' =>
      rw [KvsState.removeView] at hremove
      cases hviews : w.kvs.views.get dbId with
      | none =>
          rw [hviews] at hremove
          cases hremove
      | some map =>
          rw [hviews] at hremove
          obtain rfl := Except.ok.inj hremove
          exact hw.sameTables rfl rfl

theorem executeSingleStatement_catalogued (fuel : Nat) (stmt : Statement) (params : List Value)
    (txId : Option UInt32) :
    Keeps World.Catalogued (executeSingleStatement fuel dbId stmt params txId) := by
  have hrows : ∀ table, KeptAt dbId table txId World.Catalogued := by
    refine fun table => ⟨fun w rowid copy after hw => ?_, fun w hw => hw.sameTables rfl rfl⟩
    have hrecorded : ∀ op, (w.kvs.record txId op).Catalogued := by
      intro op
      cases txId with
      | none => exact hw
      | some id => exact hw.sameTables rfl rfl
    exact (hrecorded _).sets (store_sets w txId _ copy after)
  refine executeSingleStatement_keeps_of hrows (fun stmt hstmt fuel params => ?_) fuel stmt params
  cases stmt with
  | createTable name columns constraints ifNotExists =>
      exact createTable_catalogued name columns constraints ifNotExists
  | alterTable name ifExists operations => exact alterTable_catalogued name ifExists operations
  | createIndex name table columns unique ifNotExists =>
      exact createIndex_catalogued name table columns unique ifNotExists
  | createView name query => exact createView_catalogued name query
  | createVirtualTable name ifNotExists moduleName moduleArgs =>
      exact createVirtualTable_catalogued name ifNotExists moduleName moduleArgs
  | drop object names ifExists =>
      cases object with
      | table => exact dropTable_catalogued names ifExists
      | index => exact dropIndex_catalogued names ifExists
      | view => exact dropView_catalogued names ifExists
      | other debug => exact keeps_raise _
  | _ => exact absurd hstmt Bool.false_ne_true

/-! ### Requests -/

omit [Externals] in
theorem World.Catalogued.commit {w : World} (h : w.Catalogued) (txId : UInt32) :
    (w.commit txId).Catalogued := by
  obtain ⟨_, hframe⟩ := commit_frame w txId
  rw [hframe]
  exact h.sameTables rfl rfl

theorem World.Catalogued.rollback {w : World} (h : w.Catalogued) (txId : UInt32) :
    (w.rollback txId).Catalogued := by
  rw [rollback_eq]
  split
  · exact undoAll_keeps _ _ (P := KvsState.Catalogued) (h.sameTables rfl rfl)
      fun _ _ _ _ _ hs hsets => hs.sets hsets
  · exact h

theorem Call.run_catalogued (c : Call) {w : World} (h : w.Catalogued) :
    (c.run dbId w).Catalogued := by
  refine c.run_kept_of executeSingleStatement_catalogued
    (fun _ txId hw => ⟨hw.commit txId, hw.rollback txId⟩) ?_
  split_ifs
  · exact h.sameTables rfl rfl
  · exact h

/-- What calls keep, requests keep, but for the one statement that is no call. -/
theorem serve_keeps {I : World → Prop} (hcall : ∀ (c : Call) {w : World}, I w → I (c.run dbId w))
    (htrigger : ∀ (w : World) table trigger, I w →
      I { w with kvs := w.kvs.addTrigger dbId table trigger })
    (base64Decode : String → Option (List UInt8)) (fuel : Nat) (r : Request) :
    Keeps I (r.serve base64Decode fuel dbId) := by
  intro w hw
  cases r with
  | query sql params txId =>
      have hcreate : Keeps I (createTrigger dbId sql) :=
        (keeps_ofExcept _).bind fun trigger =>
          (keeps_modify fun w hw => htrigger w _ trigger hw).bind fun _ => keeps_pure _
      rw [Request.serve, exec_bind_pure_snd, query, exec_bind_pure_snd]
      refine keeps_ite hcreate ((keeps_ofExcept _).bind fun stmts => ?_) w hw
      rcases stmts with _ | ⟨stmt, _ | ⟨next, rest⟩⟩
      · exact keeps_raise _
      · exact fun w hw => hcall ⟨stmt, _, txId, fuel⟩ hw
      · exact keeps_raise _
  | beginTransaction => exact hcall ⟨.startTransaction, [], none, fuel⟩ hw
  | commitTransaction txId =>
      have hcommit := hcall ⟨.commit, [], some txId, fuel⟩ hw
      change I (exec (Skvs.commit txId >>= fun _ => pure QueryResult.empty) w).2 at hcommit
      rw [exec_bind_pure_snd] at hcommit
      rw [Request.serve, exec_bind_pure_snd]
      exact hcommit
  | rollbackTransaction txId =>
      have hrollback := hcall ⟨.rollback, [], some txId, fuel⟩ hw
      change I (exec (Skvs.rollback txId >>= fun _ => pure QueryResult.empty) w).2 at hrollback
      rw [exec_bind_pure_snd] at hrollback
      rw [Request.serve, exec_bind_pure_snd]
      exact hrollback

/-- **The catalogue stays whole.** Whatever requests a new server gets, for whatever databases, in
the end a name has a schema exactly if it has a store, and every schema is well formed. -/
theorem catalogue_along_run (base64Decode : String → Option (List UInt8)) (fuel : Nat)
    (databases : List UInt32) (requests : List (UInt32 × Request)) :
    (serveAll base64Decode fuel requests ⟨.new databases, []⟩).kvs.Catalogued := by
  have hnew : (KvsState.new databases).Catalogued := by
    intro dbId table
    simp only [KvsState.tableData, KvsState.getSchema, KvsState.tableEntry, KvsState.getTableStore,
      KvsState.new, IndexMap.get_ofList_map_const]
    split_ifs
    · exact ⟨rfl, fun schema hschema => by cases hschema⟩
    · exact ⟨rfl, fun schema hschema => by cases hschema⟩
  exact List.foldlRecOn requests _ (motive := World.Catalogued) hnew fun w hw r _ =>
    serve_keeps Call.run_catalogued (fun _ _ _ hw => hw.sameTables rfl rfl) base64Decode fuel
      r.2 w hw

end

end Skvs
