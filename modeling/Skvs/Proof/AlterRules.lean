import Skvs.Proof.RenameColumn

/-!
# Which rules ALTER TABLE keeps

ADD, DROP and RENAME COLUMN rewrite the rows and the list of columns, and no rule. A rule that does not
name the column is kept. One that does must hold of the rows as the statement leaves them.
-/

namespace Skvs

open Prog

/-- Every row of the table passes its checks, its own rowid excluded. -/
def RowsValid [Externals] (s : KvsState) (dbId : UInt32) (table : String) (schema : TableSchema) :
    Prop :=
  ∀ rowid row, s.row ⟨dbId, table, rowid⟩ = some row →
    validateConstraints s dbId schema row rowid = .ok ()

/-- A name in an expression may be looked up under the name of the column. -/
def ColumnRef.reads (c : String) : ColumnRef → Prop
  | .bare id => id.value = c
  | .dotted parts => spelled parts = c ∨ ∃ p ∈ parts.getLast?, p.value = c

/-- Rows that agree in every column that a name reads give it the same value. -/
theorem ColumnRef.lookup_congr {r : ColumnRef} {row row' : Row}
    (h : ∀ c, r.reads c → row'.get c = row.get c) :
    r.lookup (.withRow row') = r.lookup (.withRow row) := by
  have hcolumn : ∀ c, r.reads c → lookupColumn (.withRow row') c = lookupColumn (.withRow row) c := by
    intro c hc
    simp only [lookupColumn, EvalCtx.withRow, Option.bind_some, h c hc]
  cases r with
  | bare id => exact hcolumn id.value rfl
  | dotted parts =>
      refine lookupCompound_congr (h _ (.inl rfl)) ?_
      cases hlast : parts.getLast? with
      | none => rfl
      | some p => exact congrArg some (hcolumn p.value (.inr ⟨p, hlast, rfl⟩))

section

variable [Externals]

/-- The CHECK reads the column. -/
def checkReads (checkSql c : String) : Prop :=
  ∃ e, checkedExpr checkSql = some e ∧ ∃ r ∈ e.references, r.reads c

theorem evalCheck_congr {row row' : Row} {checkSql : String}
    (h : ∀ c, checkReads checkSql c → row'.get c = row.get c) :
    evalCheck row' checkSql = evalCheck row checkSql := by
  rw [evalCheck_eq, evalCheck_eq]
  cases he : checkedExpr checkSql with
  | none => rfl
  | some e =>
      have hlookups : SameLookups id (.withRow row) (.withRow row') e.references := fun r hr =>
        ColumnRef.lookup_congr fun c hc => h c ⟨e, he, r, hr, hc⟩
      have heval := eval_rename [] e hlookups
      rw [Expr.rename_id] at heval
      rw [Option.elim_some, Option.elim_some, evalFrom, evalFrom, heval]

end

/-! ### What an operation does -/

namespace AlterTableOperation

/-- ADD, DROP and RENAME COLUMN. -/
def onColumn : AlterTableOperation → Bool
  | .addColumn _ | .dropColumn .. | .renameColumn .. => true
  | _ => false

/-- The column that every row loses. -/
def lost : AlterTableOperation → Option String
  | .dropColumn columnName _ => some columnName.value
  | .renameColumn old new => if old.value = new.value then none else some old.value
  | _ => none

variable [Externals]

/-- The column that rows are given. -/
def given : AlterTableOperation → Option String
  | .addColumn columnDef => some (parseColumnDef columnDef).name
  | .renameColumn _ new => some new.value
  | _ => none

/-- What the schema says of the column that rows are given. -/
def givenDef (schema : TableSchema) : AlterTableOperation → Option ColumnDef
  | .addColumn columnDef => some (parseColumnDef columnDef)
  | .renameColumn old new =>
    (schema.columns.get old.value).map fun colDef => { colDef with name := new.value }
  | _ => none

/-- The rewriting of one row. -/
def editRow (op : AlterTableOperation) (row : Row) : Row :=
  match op with
  | .renameColumn old new => renameInRow old.value new.value row
  | op => op.alterRow row

/-- The schema afterwards. -/
def editSchema (schema : TableSchema) : AlterTableOperation → TableSchema
  | .addColumn columnDef =>
    let colDef := parseColumnDef columnDef
    { schema with columns := schema.columns.insert colDef.name colDef }
  | .dropColumn columnName _ =>
    { schema with
      columns := schema.columns.erase columnName.value
      rowidColumn :=
        if schema.rowidColumn = some columnName.value then none else schema.rowidColumn }
  | .renameColumn old new =>
    match schema.columns.get old.value with
    | some colDef => renameInSchema old.value new.value colDef schema
    | none => schema
  | _ => schema

variable {op : AlterTableOperation} {schema : TableSchema} {row : Row} {c : String}

/-- The other columns of a row stay as they are. -/
theorem get_editRow (hlost : op.lost ≠ some c) (hgiven : op.given ≠ some c) :
    (op.editRow row).get c = row.get c := by
  cases op with
  | addColumn columnDef =>
      rw [editRow, alterRow, IndexMap.get_insert, if_neg fun heq => hgiven (congrArg some heq.symm)]
      simp
  | dropColumn columnName ifExists =>
      rw [editRow, alterRow, IndexMap.get_erase, if_neg fun heq => hlost (congrArg some heq.symm)]
      simp
  | renameColumn old new =>
      rw [editRow, renameInRow]
      cases hold : row.get old.value with
      | none => rfl
      | some v =>
          have hnew : c ≠ new.value := fun heq => hgiven (congrArg some heq.symm)
          have hne : c ≠ old.value := by
            rintro rfl
            rw [lost, if_neg hnew] at hlost
            exact hlost rfl
          simp only [IndexMap.get_insert, if_neg hnew, IndexMap.get_erase, if_neg hne]
  | renameTable | other => rfl

theorem get_editRow_lost (hlost : op.lost = some c) : (op.editRow row).get c = none := by
  cases op with
  | dropColumn columnName ifExists =>
      obtain rfl := Option.some.inj hlost
      rw [editRow, alterRow, IndexMap.get_erase, if_pos rfl]
      simp
  | renameColumn old new =>
      rw [lost] at hlost
      split_ifs at hlost with hne
      obtain rfl := Option.some.inj hlost
      rw [editRow, renameInRow]
      cases hold : row.get old.value with
      | none => exact hold
      | some v => simp only [IndexMap.get_insert, if_neg hne, IndexMap.get_erase, if_true]
  | addColumn | renameTable | other => cases hlost

/-- The schema can take the operation. -/
def Applies (schema : TableSchema) : AlterTableOperation → Prop
  | .renameColumn old _ => (schema.columns.get old.value).isSome = true
  | _ => True

theorem get_editSchema_given (h : op.Applies schema) (hgiven : op.given = some c) :
    (op.editSchema schema).columns.get c = op.givenDef schema := by
  cases op with
  | addColumn columnDef =>
      obtain rfl := Option.some.inj hgiven
      exact IndexMap.get_insert_self ..
  | renameColumn old new =>
      obtain rfl := Option.some.inj hgiven
      obtain ⟨colDef, hget⟩ := Option.isSome_iff_exists.mp h
      simp only [editSchema, givenDef, hget, renameInSchema, IndexMap.get_insertAt, if_true,
        Option.map_some]
  | dropColumn | renameTable | other => cases hgiven

theorem get_editSchema_lost (hlost : op.lost = some c) :
    (op.editSchema schema).columns.get c = none := by
  cases op with
  | dropColumn columnName ifExists =>
      obtain rfl := Option.some.inj hlost
      rw [editSchema, IndexMap.get_erase, if_pos rfl]
  | renameColumn old new =>
      rw [lost] at hlost
      split_ifs at hlost with hne
      obtain rfl := Option.some.inj hlost
      rw [editSchema]
      cases hget : schema.columns.get old.value with
      | none => exact hget
      | some colDef =>
          simp only [renameInSchema, IndexMap.get_insertAt, if_neg hne, IndexMap.get_erase, if_true]
  | addColumn | renameTable | other => cases hlost

theorem get_editSchema (hlost : op.lost ≠ some c) (hgiven : op.given ≠ some c) :
    (op.editSchema schema).columns.get c = schema.columns.get c := by
  cases op with
  | addColumn columnDef =>
      simp only [editSchema, IndexMap.get_insert]
      exact if_neg fun heq => hgiven (congrArg some heq.symm)
  | dropColumn columnName ifExists =>
      simp only [editSchema, IndexMap.get_erase]
      exact if_neg fun heq => hlost (congrArg some heq.symm)
  | renameColumn old new =>
      rw [editSchema]
      cases schema.columns.get old.value with
      | none => rfl
      | some colDef =>
          have hnew : c ≠ new.value := fun heq => hgiven (congrArg some heq.symm)
          have hne : c ≠ old.value := by
            rintro rfl
            rw [lost, if_neg hnew] at hlost
            exact hlost rfl
          simp only [renameInSchema, IndexMap.get_insertAt, if_neg hnew, IndexMap.get_erase, if_neg hne]
  | renameTable | other => rfl

theorem given_of_givenDef {colDef : ColumnDef} (h : op.givenDef schema = some colDef) :
    ∃ c, op.given = some c := by
  cases op with
  | addColumn columnDef => exact ⟨_, rfl⟩
  | renameColumn old new => exact ⟨_, rfl⟩
  | dropColumn | renameTable | other => exact nomatch h

/-- Only the list of columns changes, and the rowid column. -/
theorem editSchema_rules (op : AlterTableOperation) (schema : TableSchema) :
    (op.editSchema schema).name = schema.name ∧ (op.editSchema schema).indices = schema.indices ∧
      (op.editSchema schema).uniqueGroups = schema.uniqueGroups ∧
      (op.editSchema schema).foreignKeys = schema.foreignKeys ∧
      (op.editSchema schema).tableChecks = schema.tableChecks := by
  cases op with
  | renameColumn old new =>
      rw [editSchema]
      cases schema.columns.get old.value <;> exact ⟨rfl, rfl, rfl, rfl, rfl⟩
  | addColumn | dropColumn | renameTable | other => exact ⟨rfl, rfl, rfl, rfl, rfl⟩

end AlterTableOperation

/-- The state after the operation. -/
def editTable [Externals] (s : KvsState) (dbId : UInt32) (table : String) (schema : TableSchema)
    (op : AlterTableOperation) : KvsState :=
  (s.modifyStore dbId table fun store => store.mapValues fun _ row => op.editRow row).setSchema dbId
    table (op.editSchema schema)

theorem exec_alterOperation [Externals] {dbId : UInt32} {table table' : String} {w w' : World}
    {schema : TableSchema} {op : AlterTableOperation} (hop : op.onColumn = true)
    (hschema : w.kvs.getSchema dbId table = some schema)
    (h : exec (alterOperation dbId table op) w = (.ok table', w')) :
    op.Applies schema ∧ w'.kvs = editTable w.kvs dbId table schema op := by
  cases op with
  | renameColumn old new =>
      obtain ⟨colDef, hget, hw'⟩ := exec_renameColumn hschema h
      refine ⟨Option.isSome_iff_exists.mpr ⟨colDef, hget⟩, ?_⟩
      rw [hw', editTable, AlterTableOperation.editSchema, hget]
      rfl
  | addColumn | dropColumn =>
      rw [alterOperation, exec_bind, exec_read] at h
      simp only [hschema, pure_bind] at h
      split at h
      · cases (Prod.mk.inj h).1
      · obtain ⟨-, rfl⟩ := Prod.mk.inj h
        exact ⟨trivial, rfl⟩
  | renameTable | other => cases hop

/-! ### The rules of a row, with the other rows read as an edit leaves them -/

/-- The index that a combination of columns is looked up in. -/
def indexFor (schema : TableSchema) : List String → Option IndexDef
  | [col] => findIndex schema col
  | _ => none

section

variable (s : KvsState) (dbId : UInt32) (schema : TableSchema) (edit : Row → Row)

/-- Another row of the table that the schema names has the values. Where a single column has an index,
its entries say so, and they know nothing of the edit. -/
def KeyTaken (columns : List String) (values : List Value) (rowid : RowId) : Prop :=
  s.hasStore dbId schema.name = true ∧
    match indexFor schema columns with
    | some idx =>
      ∃ id ∈ lookupIndex s dbId schema.name idx.name (values.headD .null), id ≠ rowid
    | none => ∃ id row, s.row ⟨dbId, schema.name, id⟩ = some row ∧ id ≠ rowid ∧
        ∀ cv ∈ columns.zip values, Row.holds (edit row) cv.1 cv.2 = true

/-- The value of a UNIQUE column is no other row's. -/
def ColumnFree (c : String) (row : Row) (rowid : RowId) : Prop :=
  ∀ val, row.get c = some val → val.isNull = false → ¬KeyTaken s dbId schema edit [c] [val] rowid

/-- A PRIMARY KEY has no NULL, and the values of a key without NULL are no other row's. -/
def GroupFree (group : UniqueGroup) (row : Row) (rowid : RowId) : Prop :=
  (group.isPrimary = true → (groupValues group row).any Value.isNull = false) ∧
    ((groupValues group row).any Value.isNull = false →
      ¬KeyTaken s dbId schema edit group.columns (groupValues group row) rowid)

/-- A value under a foreign key is some referenced row's. -/
def ReferenceFound (fk : ForeignKeyDef) (row : Row) : Prop :=
  fk.column.isEmpty = false → ∀ val, row.get fk.column = some val → val.isNull = false →
    s.hasStore dbId fk.refTable = true →
      ∃ id other, s.row ⟨dbId, fk.refTable, id⟩ = some other ∧
        Row.holds (edit other) fk.refColumn val = true

/-- What a row has to meet, rule by rule. -/
structure RowPasses [Externals] (row : Row) (rowid : RowId) : Prop where
  notNull : ∀ c colDef, schema.columns.get c = some colDef → colDef.notNull = true →
    ((row.get c).getD .null).isNull = false
  column : ∀ c colDef, schema.columns.get c = some colDef →
    (colDef.unique || colDef.primaryKey) = true → ColumnFree s dbId schema id c row rowid
  group : ∀ group ∈ schema.uniqueGroups, GroupFree s dbId schema id group row rowid
  reference : ∀ fk ∈ schema.foreignKeys, ReferenceFound s dbId id fk row
  columnCheck : ∀ c colDef, schema.columns.get c = some colDef →
    ∀ checkSql, colDef.checkExpr = some checkSql → evalCheck row checkSql = true
  tableCheck : ∀ checkSql ∈ schema.tableChecks, evalCheck row checkSql = true

variable {s dbId schema edit}

theorem valueExistsElsewhere_iff {columns : List String} {values : List Value} {rowid : RowId}
    (hlen : values.length = columns.length) :
    valueExistsElsewhere s dbId schema columns values rowid = true ↔
      KeyTaken s dbId schema id columns values rowid := by
  rw [KeyTaken, KvsState.hasStore]
  cases hstore : s.getTableStore dbId schema.name with
  | none => simp [valueExistsElsewhere_none hstore]
  | some store =>
      have hscan : (∀ col, columns = [col] → findIndex schema col = none) →
          (valueExistsElsewhere s dbId schema columns values rowid = true ↔
            ∃ id row, s.row ⟨dbId, schema.name, id⟩ = some row ∧ id ≠ rowid ∧
              ∀ cv ∈ columns.zip values, Row.holds row cv.1 cv.2 = true) := by
        intro hnone
        rw [valueExistsElsewhere_scan hstore hnone]
        simp only [AgreesElsewhere, Prod.exists, mem_store_iff hstore]
      rw [Option.isSome_some, eq_self_iff_true, true_and]
      rcases columns with _ | ⟨col, _ | ⟨next, columns⟩⟩
      · exact hscan fun c hc => by cases hc
      · obtain ⟨v, rfl⟩ := List.length_eq_one_iff.mp hlen
        simp only [indexFor]
        cases hindex : findIndex schema col with
        | none => exact hscan fun c hc => List.head_eq_of_cons_eq hc ▸ hindex
        | some idx => exact valueExistsElsewhere_lookup hstore hindex
      · exact hscan fun c hc => by cases hc

theorem length_groupValues (group : UniqueGroup) (row : Row) :
    (groupValues group row).length = group.columns.length := List.length_map ..

theorem checkForeignKey_iff {fk : ForeignKeyDef} {row : Row} :
    checkForeignKey s dbId schema row fk = .ok () ↔ ReferenceFound s dbId id fk row := by
  rw [checkForeignKey_ok_iff, ReferenceFound]
  refine imp_congr_right fun _ => forall_congr' fun val => ?_
  cases hstore : s.getTableStore dbId fk.refTable with
  | none =>
      have hnone : s.hasStore dbId fk.refTable = false := by rw [KvsState.hasStore, hstore]; rfl
      constructor
      · intro _ _ _ h
        exact absurd (hnone.symm.trans h) Bool.false_ne_true
      · intro _ _ _ h
        cases h
  | some refStore =>
      have hfound : (∃ entry ∈ refStore.entries, Row.holds entry.2 fk.refColumn val = true) ↔
          ∃ id other, s.row ⟨dbId, fk.refTable, id⟩ = some other ∧
            Row.holds other fk.refColumn val = true := by
        simp only [Prod.exists, mem_store_iff hstore]
      have hsome : s.hasStore dbId fk.refTable = true := by rw [KvsState.hasStore, hstore]; rfl
      constructor
      · intro h hget hnull _
        exact hfound.mp (h refStore hget rfl hnull)
      · intro h refStore' hget heq hnull
        obtain rfl := Option.some.inj heq
        exact hfound.mpr (h hget hnull hsome)

theorem validateConstraints_iff [Externals] {row : Row} {rowid : RowId} :
    validateConstraints s dbId schema row rowid = .ok () ↔ RowPasses s dbId schema row rowid := by
  have hcolumn : ∀ (P : String → ColumnDef → Prop), (∀ e ∈ schema.columns.entries, P e.1 e.2) ↔
      ∀ c colDef, schema.columns.get c = some colDef → P c colDef := by
    intro P
    simp only [Prod.forall, IndexMap.mem_entries_iff_get]
  have hunique : ∀ c colDef, checkColumnUnique s dbId schema row rowid c colDef = .ok () ↔
      ((colDef.unique || colDef.primaryKey) = true → ColumnFree s dbId schema id c row rowid) := by
    intro c colDef
    rw [checkColumnUnique_ok_iff]
    refine imp_congr_right fun _ => forall₃_congr fun val _ _ => ?_
    rw [← valueExistsElsewhere_iff rfl, Bool.not_eq_true]
  have hgroup : ∀ group, checkUniqueGroup s dbId schema row rowid group = .ok () ↔
      GroupFree s dbId schema id group row rowid := by
    intro group
    rw [checkUniqueGroup_ok_iff, GroupFree]
    refine and_congr_right fun _ => imp_congr_right fun _ => ?_
    rw [← valueExistsElsewhere_iff (length_groupValues group row), Bool.not_eq_true]
  have hcheck : ∀ c colDef, checkColumnCheck schema row c colDef = .ok () ↔
      ∀ checkSql, colDef.checkExpr = some checkSql → evalCheck row checkSql = true := by
    intro c colDef
    rw [checkColumnCheck]
    cases colDef.checkExpr with
    | none => simp
    | some checkSql => cases hval : evalCheck row checkSql <;> simp [hval]
  have htable : ∀ checkSql, checkTableCheck schema row checkSql = .ok () ↔
      evalCheck row checkSql = true := by
    intro checkSql
    rw [checkTableCheck]
    cases evalCheck row checkSql <;> simp
  rw [validateConstraints_eq, Except.bind_eq_ok_iff, Except.bind_eq_ok_iff, Except.bind_eq_ok_iff,
    checkNotNulls_ok_iff, checkUniqueness_ok_iff, checkForeignKeys, Except.forM_eq_ok_iff, checkChecks,
    Except.bind_eq_ok_iff, Except.forM_eq_ok_iff, Except.forM_eq_ok_iff]
  simp only [hunique, hgroup, checkForeignKey_iff, hcheck, htable]
  rw [hcolumn fun c colDef => colDef.notNull = true → ((row.get c).getD .null).isNull = false,
    hcolumn fun c colDef => (colDef.unique || colDef.primaryKey) = true →
      ColumnFree s dbId schema id c row rowid,
    hcolumn fun c colDef => ∀ checkSql, colDef.checkExpr = some checkSql →
      evalCheck row checkSql = true]
  constructor
  · rintro ⟨hn, ⟨hu, hg⟩, hf, hc, ht⟩
    exact ⟨hn, hu, hg, hf, hc, ht⟩
  · rintro ⟨hn, hu, hg, hf, hc, ht⟩
    exact ⟨hn, ⟨hu, hg⟩, hf, hc, ht⟩

/-! An edit that leaves a column alone is not noticed there. -/

theorem holds_congr {row row' : Row} {c : String} (h : row'.get c = row.get c) (v : Value) :
    Row.holds row' c v = Row.holds row c v := by
  rw [Row.holds, Row.holds, h]

theorem keyTaken_congr {columns : List String} {values : List Value} {rowid : RowId}
    (h : ∀ c ∈ columns, ∀ row, (edit row).get c = row.get c) :
    KeyTaken s dbId schema edit columns values rowid ↔
      KeyTaken s dbId schema id columns values rowid := by
  have hrow : ∀ row : Row, (∀ cv ∈ columns.zip values, Row.holds (edit row) cv.1 cv.2 = true) ↔
      ∀ cv ∈ columns.zip values, Row.holds row cv.1 cv.2 = true := by
    intro row
    refine forall₂_congr fun cv hcv => ?_
    rw [holds_congr (h cv.1 (List.of_mem_zip hcv).1 row)]
  simp only [KeyTaken, hrow, id]

theorem columnFree_congr {c : String} {row row' : Row} {rowid : RowId}
    (h : ∀ row, (edit row).get c = row.get c) (hrow : row'.get c = row.get c) :
    ColumnFree s dbId schema edit c row' rowid ↔ ColumnFree s dbId schema id c row rowid := by
  rw [ColumnFree, ColumnFree, hrow]
  refine forall₃_congr fun val _ _ => not_congr (keyTaken_congr fun c' hc' => ?_)
  rw [List.mem_singleton.mp hc']
  exact h

theorem groupFree_congr {group : UniqueGroup} {row row' : Row} {rowid : RowId}
    (h : ∀ c ∈ group.columns, ∀ row, (edit row).get c = row.get c)
    (hrow : ∀ c ∈ group.columns, row'.get c = row.get c) :
    GroupFree s dbId schema edit group row' rowid ↔ GroupFree s dbId schema id group row rowid := by
  have hvals : groupValues group row' = groupValues group row :=
    List.map_congr_left fun c hc => by rw [hrow c hc]
  rw [GroupFree, GroupFree, hvals]
  exact and_congr_right fun _ => imp_congr_right fun _ => not_congr (keyTaken_congr h)

theorem referenceFound_congr {fk : ForeignKeyDef} {row row' : Row}
    (h : ∀ row, (edit row).get fk.refColumn = row.get fk.refColumn)
    (hrow : row'.get fk.column = row.get fk.column) :
    ReferenceFound s dbId edit fk row' ↔ ReferenceFound s dbId id fk row := by
  simp only [ReferenceFound, hrow, holds_congr (h _), id]

end

/-! ### The rules after an operation -/

section

variable [Externals] {s : KvsState} {dbId : UInt32} {table : String} {schema : TableSchema}
  {op : AlterTableOperation} {rowid : RowId} {row : Row}

/-- A row of the table `x`, after an operation on `table`. -/
def AlterTableOperation.editedRow (op : AlterTableOperation) (table x : String) (row : Row) : Row :=
  if x = table then op.editRow row else row

theorem AlterTableOperation.get_editedRow {c : String} (hlost : op.lost ≠ some c)
    (hgiven : op.given ≠ some c) (x : String) (row : Row) :
    (op.editedRow table x row).get c = row.get c := by
  rw [editedRow]
  split_ifs
  · exact get_editRow hlost hgiven
  · rfl

theorem row_editTable (x : String) (rowid : RowId) :
    (editTable s dbId table schema op).row ⟨dbId, x, rowid⟩ =
      (s.row ⟨dbId, x, rowid⟩).map (op.editedRow table x) := by
  have hstore : (editTable s dbId table schema op).getTableStore dbId x =
      (s.modifyStore dbId table fun store => store.mapValues fun _ row => op.editRow row).getTableStore
        dbId x := rfl
  rw [KvsState.row, KvsState.rowAt, hstore, getTableStore_modifyStore, KvsState.row, KvsState.rowAt]
  by_cases hx : x = table
  · rw [if_pos ⟨rfl, hx⟩]
    cases s.getTableStore dbId x with
    | none => rfl
    | some store =>
        simp only [Option.map_some, Option.bind_some, IndexMap.get_mapValues]
        refine congrFun (congrArg Option.map (funext fun row => ?_)) _
        rw [AlterTableOperation.editedRow, if_pos hx]
  · rw [if_neg fun h => hx h.2]
    have hid : op.editedRow table x = id := funext fun row => if_neg hx
    rw [hid, Option.map_id, id]

theorem keyTaken_editTable {columns : List String} {values : List Value} :
    KeyTaken (editTable s dbId table schema op) dbId (op.editSchema schema) id columns values rowid ↔
      KeyTaken s dbId schema (op.editedRow table schema.name) columns values rowid := by
  obtain ⟨hname, hindices, -⟩ := op.editSchema_rules schema
  have hindex : indexFor (op.editSchema schema) columns = indexFor schema columns := by
    rcases columns with _ | ⟨col, _ | ⟨next, columns⟩⟩
    · rfl
    · rw [indexFor, indexFor, findIndex, findIndex, hindices]
    · rfl
  have hstore : (editTable s dbId table schema op).hasStore dbId schema.name =
      s.hasStore dbId schema.name := hasStore_modifyStore ..
  rw [KeyTaken, KeyTaken, hname, hindex, hstore]
  refine and_congr_right fun _ => ?_
  cases indexFor schema columns with
  | some idx => rfl
  | none =>
      simp only [row_editTable, Option.map_eq_some_iff, id]
      constructor
      · rintro ⟨i, _, ⟨row, hrow, rfl⟩, h⟩
        exact ⟨i, row, hrow, h⟩
      · rintro ⟨i, row, hrow, h⟩
        exact ⟨i, _, ⟨row, hrow, rfl⟩, h⟩

theorem referenceFound_editTable {fk : ForeignKeyDef} :
    ReferenceFound (editTable s dbId table schema op) dbId id fk row ↔
      ReferenceFound s dbId (op.editedRow table fk.refTable) fk row := by
  have hstore : (editTable s dbId table schema op).hasStore dbId fk.refTable =
      s.hasStore dbId fk.refTable := hasStore_modifyStore ..
  simp only [ReferenceFound, hstore, row_editTable, Option.map_eq_some_iff, id]
  refine imp_congr_right fun _ => forall₃_congr fun val _ _ => imp_congr_right fun _ => ?_
  constructor
  · rintro ⟨i, _, ⟨row, hrow, rfl⟩, h⟩
    exact ⟨i, row, hrow, h⟩
  · rintro ⟨i, row, hrow, h⟩
    exact ⟨i, _, ⟨row, hrow, rfl⟩, h⟩

/-- A CHECK that the table still has afterwards. -/
def AlterTableOperation.KeepsCheck (op : AlterTableOperation) (schema : TableSchema)
    (checkSql : String) : Prop :=
  checkSql ∈ schema.tableChecks ∨
    (∃ colDef, op.givenDef schema = some colDef ∧ colDef.checkExpr = some checkSql) ∨
    ∃ c colDef, schema.columns.get c = some colDef ∧ op.lost ≠ some c ∧ op.given ≠ some c ∧
      colDef.checkExpr = some checkSql

/-- The rules that name the column lost or given hold of the row as it is rewritten. -/
structure RulesKept (s : KvsState) (dbId : UInt32) (table : String) (schema : TableSchema)
    (op : AlterTableOperation) (rowid : RowId) (row : Row) : Prop where
  /-- A NOT NULL column is added with a default. -/
  notNull : ∀ columnDef, op = .addColumn columnDef → (parseColumnDef columnDef).notNull = true →
    ((parseColumnDef columnDef).default.getD .null).isNull = false
  columnKey : ∀ c colDef, op.given = some c → op.givenDef schema = some colDef →
    (colDef.unique || colDef.primaryKey) = true →
      ColumnFree s dbId schema (op.editedRow table schema.name) c (op.editRow row) rowid
  /-- No PRIMARY KEY group names the column lost. -/
  lostKey : ∀ group ∈ schema.uniqueGroups, ∀ c ∈ group.columns, op.lost = some c →
    group.isPrimary = false
  givenKey : ∀ group ∈ schema.uniqueGroups, (∀ c ∈ group.columns, op.lost ≠ some c) →
    ∀ c ∈ group.columns, op.given = some c →
      GroupFree s dbId schema (op.editedRow table schema.name) group (op.editRow row) rowid
  /-- What refers to the column lost, in the table itself, is NULL. -/
  lostReference : ∀ fk ∈ schema.foreignKeys, fk.refTable = table → op.lost = some fk.refColumn →
    fk.column.isEmpty = false → (((op.editRow row).get fk.column).getD .null).isNull = true
  givenReference : ∀ fk ∈ schema.foreignKeys, op.lost ≠ some fk.column →
    op.given = some fk.column ∨ fk.refTable = table ∧ op.given = some fk.refColumn →
      ReferenceFound s dbId (op.editedRow table fk.refTable) fk (op.editRow row)
  addedCheck : ∀ columnDef, op = .addColumn columnDef →
    ∀ checkSql, (parseColumnDef columnDef).checkExpr = some checkSql →
      evalCheck (op.editRow row) checkSql = true
  check : ∀ checkSql, op.KeepsCheck schema checkSql →
    ∀ c, op.lost = some c ∨ op.given = some c → checkReads checkSql c →
      evalCheck (op.editRow row) checkSql = true

theorem columnFree_editTable {c : String} :
    ColumnFree (editTable s dbId table schema op) dbId (op.editSchema schema) id c row rowid ↔
      ColumnFree s dbId schema (op.editedRow table schema.name) c row rowid :=
  forall₃_congr fun _ _ _ => not_congr keyTaken_editTable

theorem groupFree_editTable {group : UniqueGroup} :
    GroupFree (editTable s dbId table schema op) dbId (op.editSchema schema) id group row rowid ↔
      GroupFree s dbId schema (op.editedRow table schema.name) group row rowid :=
  and_congr_right fun _ => imp_congr_right fun _ => not_congr keyTaken_editTable

/-- A column lost is NULL in every key. -/
theorem groupValues_lost {group : UniqueGroup} {c : String} (hc : c ∈ group.columns)
    (hlost : op.lost = some c) : (groupValues group (op.editRow row)).any Value.isNull = true := by
  refine List.any_eq_true.mpr ⟨.null, List.mem_map.mpr ⟨c, hc, ?_⟩, rfl⟩
  rw [AlterTableOperation.get_editRow_lost hlost]
  rfl

theorem get_editRow_added {columnDef : SqlColumnDef} :
    ((AlterTableOperation.addColumn columnDef).editRow row).get (parseColumnDef columnDef).name =
      some ((parseColumnDef columnDef).default.getD .null) := by
  have hedit : (AlterTableOperation.addColumn columnDef).editRow row =
      row.insert (parseColumnDef columnDef).name ((parseColumnDef columnDef).default.getD .null) := rfl
  rw [hedit, IndexMap.get_insert_self]

theorem get_editRow_renamed {old new : Ident} {v : Value} (hold : row.get old.value = some v) :
    ((AlterTableOperation.renameColumn old new).editRow row).get new.value = some v := by
  rw [AlterTableOperation.editRow, renameInRow, hold]
  exact IndexMap.get_insert_self ..

theorem RulesKept.of_passes (happ : op.Applies schema)
    (hrow : s.row ⟨dbId, table, rowid⟩ = some row)
    (h : RowPasses (editTable s dbId table schema op) dbId (op.editSchema schema) (op.editRow row)
      rowid) : RulesKept s dbId table schema op rowid row := by
  obtain ⟨hname, hindices, hgroups, hfks, hchecks⟩ := op.editSchema_rules schema
  constructor
  · rintro columnDef rfl hnotNull
    have hkept := h.notNull _ _ (AlterTableOperation.get_editSchema_given happ rfl) hnotNull
    rwa [get_editRow_added, Option.getD_some] at hkept
  · intro c colDef hgiven hdef hunique
    refine columnFree_editTable.mp (h.column c colDef ?_ hunique)
    rw [AlterTableOperation.get_editSchema_given happ hgiven, hdef]
  · intro group hgroup c hc hlost
    have hfree := (h.group group (hgroups ▸ hgroup)).1
    rw [groupValues_lost hc hlost] at hfree
    refine Bool.eq_false_iff.mpr fun hprimary => ?_
    cases hfree hprimary
  · intro group hgroup _ c hc hgiven
    exact groupFree_editTable.mp (h.group group (hgroups ▸ hgroup))
  · intro fk hfk htable hlost hcolumn
    cases hget : (op.editRow row).get fk.column with
    | none => rfl
    | some val =>
        by_contra hnull
        have hstore : (editTable s dbId table schema op).hasStore dbId fk.refTable = true := by
          rw [htable]
          refine (hasStore_modifyStore ..).trans ?_
          rw [KvsState.row, KvsState.rowAt] at hrow
          rw [KvsState.hasStore]
          cases hstore : s.getTableStore dbId table with
          | none =>
              rw [hstore] at hrow
              cases hrow
          | some store => rfl
        obtain ⟨id, other, hother, hholds⟩ := referenceFound_editTable.mp
          (h.reference fk (hfks ▸ hfk)) hcolumn val hget (Bool.not_eq_true _ ▸ hnull)
          ((hasStore_modifyStore ..).symm.trans hstore)
        rw [Row.holds, AlterTableOperation.editedRow, if_pos htable,
          AlterTableOperation.get_editRow_lost hlost] at hholds
        cases hholds
  · intro fk hfk _ _
    exact referenceFound_editTable.mp (h.reference fk (hfks ▸ hfk))
  · rintro columnDef rfl checkSql hcheck
    exact h.columnCheck _ _ (AlterTableOperation.get_editSchema_given happ rfl) checkSql hcheck
  · rintro checkSql (htable | ⟨colDef, hdef, hcheck⟩ | ⟨c', colDef, hget, hlost, hgiven, hcheck⟩) c hc
      hreads
    · exact h.tableCheck checkSql (hchecks ▸ htable)
    · obtain ⟨c', hgiven⟩ := AlterTableOperation.given_of_givenDef hdef
      refine h.columnCheck c' colDef ?_ checkSql hcheck
      rw [AlterTableOperation.get_editSchema_given happ hgiven, hdef]
    · refine h.columnCheck c' colDef ?_ checkSql hcheck
      rw [AlterTableOperation.get_editSchema hlost hgiven, hget]

/-- A column of the schema afterwards is the one given, or was there and is not lost. -/
theorem column_cases {c : String} {colDef : ColumnDef} (happ : op.Applies schema)
    (h : (op.editSchema schema).columns.get c = some colDef) :
    (op.given = some c ∧ op.givenDef schema = some colDef) ∨
      (op.lost ≠ some c ∧ op.given ≠ some c ∧ schema.columns.get c = some colDef) := by
  by_cases hgiven : op.given = some c
  · rw [AlterTableOperation.get_editSchema_given happ hgiven] at h
    exact Or.inl ⟨hgiven, h⟩
  · by_cases hlost : op.lost = some c
    · rw [AlterTableOperation.get_editSchema_lost hlost] at h
      exact nomatch h
    · rw [AlterTableOperation.get_editSchema hlost hgiven] at h
      exact Or.inr ⟨hlost, hgiven, h⟩

theorem notNull_given {c : String} {colDef : ColumnDef} (h : RowPasses s dbId schema row rowid)
    (hkept : RulesKept s dbId table schema op rowid row) (hgiven : op.given = some c)
    (hdef : op.givenDef schema = some colDef) (hnotNull : colDef.notNull = true) :
    (((op.editRow row).get c).getD .null).isNull = false := by
  cases op with
  | addColumn columnDef =>
      obtain rfl := Option.some.inj hgiven
      obtain rfl := Option.some.inj hdef
      rw [get_editRow_added]
      exact hkept.notNull columnDef rfl hnotNull
  | renameColumn old new =>
      obtain rfl := Option.some.inj hgiven
      obtain ⟨colDef', hget, rfl⟩ := Option.map_eq_some_iff.mp hdef
      have hbefore := h.notNull old.value colDef' hget hnotNull
      cases hold : row.get old.value with
      | none =>
          rw [hold] at hbefore
          exact nomatch hbefore
      | some v =>
          rw [hold] at hbefore
          rw [get_editRow_renamed hold]
          exact hbefore
  | dropColumn | renameTable | other => exact nomatch hgiven

theorem reference_kept {fk : ForeignKeyDef} (h : RowPasses s dbId schema row rowid)
    (hkept : RulesKept s dbId table schema op rowid row) (hfk : fk ∈ schema.foreignKeys) :
    ReferenceFound s dbId (op.editedRow table fk.refTable) fk (op.editRow row) := by
  by_cases hlost : op.lost = some fk.column
  · intro _ val hget
    rw [AlterTableOperation.get_editRow_lost hlost] at hget
    exact nomatch hget
  · by_cases hgiven : op.given = some fk.column ∨ fk.refTable = table ∧ op.given = some fk.refColumn
    · exact hkept.givenReference fk hfk hlost hgiven
    · rw [not_or, not_and] at hgiven
      by_cases hself : fk.refTable = table ∧ op.lost = some fk.refColumn
      · intro hcolumn val hget hnull
        have hnone := hkept.lostReference fk hfk hself.1 hself.2 hcolumn
        rw [hget, Option.getD_some, hnull] at hnone
        exact nomatch hnone
      · refine (referenceFound_congr (fun row' => ?_)
          (AlterTableOperation.get_editRow hlost hgiven.1)).mpr (h.reference fk hfk)
        by_cases htable : fk.refTable = table
        · exact AlterTableOperation.get_editedRow (fun heq => hself ⟨htable, heq⟩) (hgiven.2 htable) ..
        · rw [AlterTableOperation.editedRow, if_neg htable]

theorem check_kept {checkSql : String} (hbefore : evalCheck row checkSql = true)
    (hkept : RulesKept s dbId table schema op rowid row) (hhas : op.KeepsCheck schema checkSql) :
    evalCheck (op.editRow row) checkSql = true := by
  by_cases hreads : ∃ c, (op.lost = some c ∨ op.given = some c) ∧ checkReads checkSql c
  · obtain ⟨c, hc, hread⟩ := hreads
    exact hkept.check checkSql hhas c hc hread
  · rw [← hbefore]
    refine evalCheck_congr fun c hread => ?_
    have hc : ¬(op.lost = some c ∨ op.given = some c) := fun hc => hreads ⟨c, hc, hread⟩
    rw [not_or] at hc
    exact AlterTableOperation.get_editRow hc.1 hc.2

theorem givenCheck_kept {colDef : ColumnDef} {checkSql : String}
    (h : RowPasses s dbId schema row rowid) (hkept : RulesKept s dbId table schema op rowid row)
    (hdef : op.givenDef schema = some colDef) (hcheck : colDef.checkExpr = some checkSql) :
    evalCheck (op.editRow row) checkSql = true := by
  cases op with
  | addColumn columnDef =>
      obtain rfl := Option.some.inj hdef
      exact hkept.addedCheck columnDef rfl checkSql hcheck
  | renameColumn old new =>
      have hhas := hdef
      obtain ⟨colDef', hget, rfl⟩ := Option.map_eq_some_iff.mp hdef
      exact check_kept (h.columnCheck old.value colDef' hget checkSql hcheck) hkept
        (Or.inr (Or.inl ⟨_, hhas, hcheck⟩))
  | dropColumn | renameTable | other => exact nomatch hdef

theorem RulesKept.passes (happ : op.Applies schema) (h : RowPasses s dbId schema row rowid)
    (hkept : RulesKept s dbId table schema op rowid row) :
    RowPasses (editTable s dbId table schema op) dbId (op.editSchema schema) (op.editRow row)
      rowid := by
  obtain ⟨hname, hindices, hgroups, hfks, hchecks⟩ := op.editSchema_rules schema
  constructor
  · intro c colDef hget hnotNull
    rcases column_cases happ hget with ⟨hgiven, hdef⟩ | ⟨hlost, hgiven, hget⟩
    · exact notNull_given h hkept hgiven hdef hnotNull
    · rw [AlterTableOperation.get_editRow hlost hgiven]
      exact h.notNull c colDef hget hnotNull
  · intro c colDef hget hunique
    refine columnFree_editTable.mpr ?_
    rcases column_cases happ hget with ⟨hgiven, hdef⟩ | ⟨hlost, hgiven, hget⟩
    · exact hkept.columnKey c colDef hgiven hdef hunique
    · exact (columnFree_congr (AlterTableOperation.get_editedRow hlost hgiven schema.name)
        (AlterTableOperation.get_editRow hlost hgiven)).mpr (h.column c colDef hget hunique)
  · intro group hgroup
    rw [hgroups] at hgroup
    refine groupFree_editTable.mpr ?_
    by_cases hlost : ∃ c ∈ group.columns, op.lost = some c
    · obtain ⟨c, hc, hlost⟩ := hlost
      rw [GroupFree, groupValues_lost hc hlost, hkept.lostKey group hgroup c hc hlost]
      exact ⟨nofun, nofun⟩
    · have hlost' : ∀ c ∈ group.columns, op.lost ≠ some c := fun c hc heq => hlost ⟨c, hc, heq⟩
      by_cases hgiven : ∃ c ∈ group.columns, op.given = some c
      · obtain ⟨c, hc, hgiven⟩ := hgiven
        exact hkept.givenKey group hgroup hlost' c hc hgiven
      · have hgiven' : ∀ c ∈ group.columns, op.given ≠ some c := fun c hc heq => hgiven ⟨c, hc, heq⟩
        exact (groupFree_congr
          (fun c hc => AlterTableOperation.get_editedRow (hlost' c hc) (hgiven' c hc) schema.name)
          fun c hc => AlterTableOperation.get_editRow (hlost' c hc) (hgiven' c hc)).mpr
          (h.group group hgroup)
  · intro fk hfk
    exact referenceFound_editTable.mpr (reference_kept h hkept (hfks ▸ hfk))
  · intro c colDef hget checkSql hcheck
    rcases column_cases happ hget with ⟨hgiven, hdef⟩ | ⟨hlost, hgiven, hget⟩
    · exact givenCheck_kept h hkept hdef hcheck
    · exact check_kept (h.columnCheck c colDef hget checkSql hcheck) hkept
        (Or.inr (Or.inr ⟨c, colDef, hget, hlost, hgiven, hcheck⟩))
  · intro checkSql hcheck
    rw [hchecks] at hcheck
    exact check_kept (h.tableCheck checkSql hcheck) hkept (Or.inl hcheck)

/-- Where all rows pass their checks, they pass them after ADD, DROP or RENAME COLUMN if and only if
the rules that name the column hold of the rewritten rows. -/
theorem alter_rows_valid_iff {w w' : World} {fuel : Nat} {ifExists : Bool} {params : List Value}
    {txId : Option UInt32} {r : QueryResult} (hop : op.onColumn = true)
    (hschema : w.kvs.getSchema dbId table = some schema)
    (hvalid : RowsValid w.kvs dbId table schema)
    (h : exec (executeStatement fuel dbId (.alterTable table ifExists [op]) params txId) w =
      (.ok r, w')) :
    (∃ schema', w'.kvs.getSchema dbId table = some schema' ∧ RowsValid w'.kvs dbId table schema') ↔
      ∀ rowid row, w.kvs.row ⟨dbId, table, rowid⟩ = some row →
        RulesKept w.kvs dbId table schema op rowid row := by
  obtain ⟨table', hrun⟩ := exec_singleAlter hschema (exec_alterTable h)
  obtain ⟨happ, hw'⟩ := exec_alterOperation hop hschema hrun
  have hschema' : w'.kvs.getSchema dbId table = some (op.editSchema schema) := by
    rw [hw', editTable, getSchema_setSchema, if_pos rfl]
  have hrow : ∀ rowid, w'.kvs.row ⟨dbId, table, rowid⟩ =
      (w.kvs.row ⟨dbId, table, rowid⟩).map op.editRow := by
    intro rowid
    rw [hw', row_editTable]
    exact congrFun (congrArg Option.map (funext fun row => if_pos rfl)) _
  have hpasses : ∀ rowid row, w.kvs.row ⟨dbId, table, rowid⟩ = some row →
      RowPasses w.kvs dbId schema row rowid :=
    fun rowid row hget => validateConstraints_iff.mp (hvalid rowid row hget)
  constructor
  · rintro ⟨schema'', hget, hvalid'⟩ rowid row hbefore
    obtain rfl := Option.some.inj (hschema'.symm.trans hget)
    have hafter := validateConstraints_iff.mp
      (hvalid' rowid (op.editRow row) (by rw [hrow, hbefore, Option.map_some]))
    rw [hw'] at hafter
    exact .of_passes happ hbefore hafter
  · intro hkept
    refine ⟨_, hschema', fun rowid row' hget => ?_⟩
    rw [hrow] at hget
    obtain ⟨row, hbefore, rfl⟩ := Option.map_eq_some_iff.mp hget
    rw [validateConstraints_iff, hw']
    exact (hkept rowid row hbefore).passes happ (hpasses rowid row hbefore)

end

/-! ### Samples -/

namespace Sample

/-- `CREATE TABLE t (a INT)` with the row 1. -/
def plainOne : World :=
  letI := Externals.ofTexts [] []
  ⟨after [call (create []) none, call (insert [.number "1"]) none], []⟩

def plainSchema : TableSchema :=
  letI := Externals.ofTexts [] []
  buildSchema "t" [⟨name "a", .int, []⟩] []

def plainStore : Store := .ofList [(1, row 1)]

theorem plainOne_table : plainOne.kvs.getSchema 0 "t" = some plainSchema ∧
    plainOne.kvs.getTableStore 0 "t" = some plainStore := by
  decide

/-- `ALTER TABLE t ADD COLUMN b INT NOT NULL`, with further options. -/
def addNotNull (options : List ColumnOption) : AlterTableOperation :=
  .addColumn ⟨name "b", .int, .notNull :: options⟩

def afterAdding (options : List ColumnOption) : Except Fail QueryResult × World :=
  letI := Externals.ofTexts [] []
  exec (executeStatement 1 0 (.alterTable "t" false [addNotNull options]) [] none) plainOne

end Sample

theorem rowsValid_of_entries [Externals] {s : KvsState} {dbId : UInt32} {table : String}
    {schema : TableSchema} {store : Store} (hstore : s.getTableStore dbId table = some store)
    (h : (store.entries.all fun e =>
      (validateConstraints s dbId schema e.2 e.1).toBool) = true) :
    RowsValid s dbId table schema := by
  intro rowid row hrow
  have hok := List.all_eq_true.mp h _ ((mem_store_iff hstore).mpr hrow)
  cases hval : validateConstraints s dbId schema row rowid with
  | error e =>
      simp only [hval] at hok
      exact nomatch hok
  | ok u => rfl

/-- A NOT NULL column added without a default is NULL in every row. -/
theorem rows_invalid_after_add :
    letI := Externals.ofTexts [] []
    let out := Sample.afterAdding []
    RowsValid Sample.plainOne.kvs 0 "t" Sample.plainSchema ∧
      Sample.plainOne.kvs.getSchema 0 "t" = some Sample.plainSchema ∧
      out.1.toOption.isSome = true ∧
      ∀ schema, out.2.kvs.getSchema 0 "t" = some schema →
        ¬RowsValid out.2.kvs 0 "t" schema := by
  let _ := Externals.ofTexts [] []
  intro out
  obtain ⟨hschema, hstore⟩ := Sample.plainOne_table
  refine ⟨rowsValid_of_entries hstore (by decide), hschema, by decide, ?_⟩
  intro schema hget hvalid
  have hbad : ∃ row, out.2.kvs.row ⟨0, "t", 1⟩ = some row ∧ ∃ schema,
      out.2.kvs.getSchema 0 "t" = some schema ∧
        (validateConstraints out.2.kvs 0 schema row 1).toBool = false := by
    refine ⟨(Sample.row 1).insert "b" .null, by decide,
      ((Sample.addNotNull []).editSchema Sample.plainSchema), by decide, by decide⟩
  obtain ⟨row, hrow, schema', hget', hfails⟩ := hbad
  obtain rfl := Option.some.inj (hget.symm.trans hget')
  rw [hvalid 1 row hrow] at hfails
  exact nomatch hfails

/-- With a default it is not. -/
theorem rows_valid_after_add_default :
    letI := Externals.ofTexts [] []
    let out := Sample.afterAdding [.default (.value (.number "5"))]
    out.1.toOption.isSome = true ∧
      ∃ schema, out.2.kvs.getSchema 0 "t" = some schema ∧ RowsValid out.2.kvs 0 "t" schema := by
  let _ := Externals.ofTexts [] []
  intro out
  obtain ⟨hschema, hstore⟩ := Sample.plainOne_table
  have hok : out.1.toOption.isSome = true := by decide
  rcases hout : out with ⟨e | r, w'⟩
  · rw [hout] at hok
    exact nomatch hok
  · rw [hout] at hok
    refine ⟨hok, (alter_rows_valid_iff rfl hschema (rowsValid_of_entries hstore (by decide))
      hout).mpr fun rowid row hrow => ?_⟩
    obtain ⟨hgroups, hfks, hchecks, hcolumns⟩ : Sample.plainSchema.uniqueGroups = [] ∧
        Sample.plainSchema.foreignKeys = [] ∧ Sample.plainSchema.tableChecks = [] ∧
        Sample.plainSchema.columns.entries.all (fun e => e.2.checkExpr.isNone) = true := by
      decide
    let columnDef : SqlColumnDef :=
      ⟨Sample.name "b", .int, [.notNull, .default (.value (.number "5"))]⟩
    obtain ⟨hdefault, hunique, hcheck⟩ :
        ((parseColumnDef columnDef).default.getD .null).isNull = false ∧
          ((parseColumnDef columnDef).unique || (parseColumnDef columnDef).primaryKey) = false ∧
          (parseColumnDef columnDef).checkExpr = none := by
      decide
    constructor
    · intro columnDef' heq _
      obtain rfl := AlterTableOperation.addColumn.inj heq
      exact hdefault
    · intro c colDef _ hdef hkey
      obtain rfl := Option.some.inj hdef
      exact nomatch hunique.symm.trans hkey
    · exact fun _ _ _ _ hlost => nomatch hlost
    · exact fun group hgroup => nomatch hgroups ▸ hgroup
    · exact fun _ _ _ hlost => nomatch hlost
    · exact fun fk hfk => nomatch hfks ▸ hfk
    · intro columnDef' heq checkSql hsql
      obtain rfl := AlterTableOperation.addColumn.inj heq
      exact nomatch hcheck.symm.trans hsql
    · rintro checkSql (htable | ⟨colDef, hdef, hsql⟩ | ⟨c, colDef, hget, -, -, hsql⟩)
      · exact nomatch hchecks ▸ htable
      · obtain rfl := Option.some.inj hdef
        exact nomatch hcheck.symm.trans hsql
      · have hnone := List.all_eq_true.mp hcolumns _ ((IndexMap.mem_entries_iff_get ..).mpr hget)
        rw [hsql] at hnone
        exact nomatch hnone

end Skvs
