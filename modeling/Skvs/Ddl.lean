import Skvs.Dml
import Skvs.Lib.Text

/-!
# CREATE, ALTER and DROP

A statement that fails keeps what it had changed before the failure.
-/

namespace Skvs

namespace KvsState

variable (s : KvsState) (dbId : UInt32) (table : String)

def setSchema (schema : TableSchema) : KvsState :=
  { s with schemas := s.schemas.insert dbId ((s.schemas.getD dbId ∅).insert table schema) }

/-- Start a table with no rows and its rowid counter at 1. -/
def freshTable : KvsState :=
  let gens := (s.rowidGenerators.getD dbId ∅).insert table 1
  { s with
    dbs := s.dbs.insert dbId ((s.dbs.getD dbId ∅).insert table ∅)
    rowidGenerators := s.rowidGenerators.insert dbId gens }

/-- Take a dropped table out of every map; its index stores stay. -/
def removeTable : KvsState :=
  { s with
    dbs := s.dbs.modify dbId fun db => db.erase table
    schemas := s.schemas.modify dbId fun db => db.erase table
    rowidGenerators := s.rowidGenerators.modify dbId fun db => db.erase table
    triggers := s.triggers.modify dbId fun db => db.erase table
    ftsTables := s.ftsTables.modify dbId fun db => db.erase table
    views := s.views.modify dbId fun db => db.erase table }

/-- Move an entry of a map of maps to another name. -/
def renameIn {ν : Type} (m : IndexMap UInt32 (IndexMap String ν)) (newName : String) :
    IndexMap UInt32 (IndexMap String ν) :=
  m.modify dbId fun db =>
    match db.get table with
    | some v => (db.erase table).insert newName v
    | none => db

def renameTable (newName : String) : KvsState :=
  { s with
    schemas := renameIn dbId table s.schemas newName
    dbs := renameIn dbId table s.dbs newName
    rowidGenerators := renameIn dbId table s.rowidGenerators newName }

end KvsState

variable [Externals]

/-! ### CREATE TABLE -/

def parseDataType : SqlDataType → DataType
  | .int | .integer => .integer
  | .float | .double => .real
  | .text | .string | .varchar => .text
  | .blob | .other => .blob

def parseColumnOption (colDef : ColumnDef) : ColumnOption → ColumnDef
  | .notNull => { colDef with notNull := true }
  | .unique isPrimary =>
    if isPrimary then { colDef with unique := true, primaryKey := true, notNull := true }
    else { colDef with unique := true }
  | .default expr => { colDef with default := some (evalFrom .noRow [] expr 0) }
  | .check expr => { colDef with checkExpr := some (exprToString expr) }
  | .dialectSpecific tokens =>
    let joined := (toUppercase (" ".intercalate tokens)).toList
    if Text.contains "AUTOINCREMENT".toList joined || Text.contains "AUTO_INCREMENT".toList joined
    then { colDef with autoIncrement := true }
    else colDef
  | .other => colDef

def parseColumnDef (col : SqlColumnDef) : ColumnDef :=
  col.options.foldl parseColumnOption
    { name := col.name.text, dataType := parseDataType col.dataType, primaryKey := false,
      autoIncrement := false, notNull := false, default := none, unique := false,
      checkExpr := none }

def parseFkAction : Option ReferentialAction → FkAction
  | some .cascade => .cascade
  | some .setNull => .setNull
  | some .restrict => .restrict
  | some .setDefault => .setDefault
  | _ => .noAction

def addColumn (schema : TableSchema) (col : SqlColumnDef) : TableSchema :=
  let colDef := parseColumnDef col
  { schema with
    columns := schema.columns.insert colDef.name colDef
    rowidColumn :=
      if colDef.primaryKey then schema.rowidColumn.or (some colDef.name) else schema.rowidColumn }

/-- Flag each column of a table-level key; the key itself becomes a group. -/
def addKey (schema : TableSchema) (cols : List String) (isPrimary : Bool) : TableSchema :=
  let flag (colDef : ColumnDef) : ColumnDef :=
    if isPrimary then { colDef with primaryKey := true, notNull := true }
    else { colDef with unique := true }
  { schema with
    columns := cols.foldl (fun columns c => columns.modify c flag) schema.columns
    rowidColumn := if isPrimary then schema.rowidColumn.or cols.head? else schema.rowidColumn
    uniqueGroups := schema.uniqueGroups ++ [⟨cols, isPrimary⟩] }

def addConstraint (schema : TableSchema) : TableConstraint → TableSchema
  | .unique cols isPrimary => addKey schema (cols.map Ident.value) isPrimary
  | .foreignKey fkColumns foreignTable referredColumns onDelete onUpdate =>
    let fk : ForeignKeyDef :=
      { column := (fkColumns.head?.map Ident.text).getD ""
        refTable := foreignTable
        refColumn := (referredColumns.head?.map Ident.text).getD ""
        onDelete := parseFkAction onDelete
        onUpdate := parseFkAction onUpdate }
    { schema with foreignKeys := schema.foreignKeys ++ [fk] }
  | .check expr => { schema with tableChecks := schema.tableChecks ++ [exprToString expr] }
  | .other => schema

def emptySchema (name : String) : TableSchema :=
  { name, columns := ∅, rowidColumn := none, foreignKeys := [], indices := [], triggers := [],
    uniqueGroups := [], tableChecks := [], fts5ContentColumn := none }

/-- The schema a CREATE TABLE declares. -/
def buildSchema (name : String) (columns : List SqlColumnDef) (constraints : List TableConstraint) :
    TableSchema :=
  constraints.foldl addConstraint (columns.foldl addColumn (emptySchema name))

/-- Make sure that the database has a map of schemas. -/
def ensureSchemas (dbId : UInt32) : Db Unit :=
  onState fun s => { s with schemas := s.schemas.insertIfNew dbId ∅ }

def tableExists (name : String) : SkvsError := .schema s!"Table {name} already exists"

def createTable (dbId : UInt32) (name : String) (columns : List SqlColumnDef)
    (constraints : List TableConstraint) (ifNotExists : Bool) : Db QueryResult := do
  ensureSchemas dbId
  let state ← Prog.read World.kvs
  if (state.getSchema dbId name).isSome then
    if ifNotExists then return .empty
    raise (tableExists name)
  onState fun s => (s.setSchema dbId name (buildSchema name columns constraints)).freshTable dbId name
  return .empty

/-! ### DROP TABLE, ALTER TABLE -/

def dropTable (dbId : UInt32) (names : List String) (ifExists : Bool) : Db QueryResult := do
  forM names fun table => do
    ensureSchemas dbId
    let state ← Prog.read World.kvs
    if (state.getSchema dbId table).isNone && !ifExists then
      raise (tableNotFound table)
    onState fun s => s.removeTable dbId table
  return .empty

def columnNotFound (col : String) : SkvsError := .schema s!"Column {col} not found"

/-- One operation of ALTER TABLE on the table of the current name; the name afterwards. -/
def alterOperation (dbId : UInt32) (table : String) (op : AlterTableOperation) : Db String := do
  let state ← Prog.read World.kvs
  match op with
  | .addColumn columnDef =>
    let colDef := parseColumnDef columnDef
    let schema ← match state.getSchema dbId table with
      | some schema => pure schema
      | none => Prog.fail .panic
    if schema.columns.contains colDef.name then
      raise (.schema s!"Column {colDef.name} already exists")
    onState fun s => s.modifyStore dbId table fun store =>
      store.mapValues fun _ row => row.insert colDef.name (colDef.default.getD .null)
    onState fun s =>
      s.setSchema dbId table { schema with columns := schema.columns.insert colDef.name colDef }
    return table
  | .dropColumn columnName colIfExists =>
    let col := columnName.value
    let schema ← match state.getSchema dbId table with
      | some schema => pure schema
      | none => Prog.fail .panic
    if !schema.columns.contains col && !colIfExists then
      raise (columnNotFound col)
    onState fun s => s.modifyStore dbId table fun store =>
      store.mapValues fun _ row => row.erase col
    onState fun s => s.setSchema dbId table { schema with
      columns := schema.columns.erase col
      rowidColumn := if schema.rowidColumn = some col then none else schema.rowidColumn }
    return table
  | .renameColumn oldColumnName newColumnName =>
    let old := oldColumnName.value
    let new := newColumnName.value
    let schema ← match state.getSchema dbId table with
      | some schema => pure schema
      | none => Prog.fail .panic
    let colDef ← orRaise (schema.columns.get old) (columnNotFound old)
    let rest := schema.columns.erase old
    let idx := min (schema.columns.keys.idxOf old) rest.keys.length
    -- moving a key to the end of the order it is itself part of is out of bounds
    if (rest.erase new).keys.length < idx then Prog.fail .panic
    onState fun s => s.modifyStore dbId table fun store =>
      store.mapValues fun _ row =>
        match row.get old with
        | some v => (row.erase old).insert new v
        | none => row
    onState fun s => s.setSchema dbId table { schema with
      columns := rest.insertAt idx new { colDef with name := new }
      rowidColumn := if schema.rowidColumn = some old then some new else schema.rowidColumn }
    return table
  | .renameTable newTable =>
    onState fun s => s.renameTable dbId table newTable
    return newTable
  | .other text => raise (.unsupported s!"ALTER TABLE operation not supported: {text}")

def databaseNotFound (dbId : UInt32) : SkvsError := .schema s!"Database {dbId} not found"

def alterTable (dbId : UInt32) (name : String) (ifExists : Bool)
    (operations : List AlterTableOperation) : Db QueryResult := do
  let state ← Prog.read World.kvs
  let schemas ← orRaise (state.schemas.get dbId) (databaseNotFound dbId)
  if !schemas.contains name then
    if ifExists then return .empty
    raise (tableNotFound name)
  let _ ← operations.foldlM (alterOperation dbId) name
  return .empty

/-! ### Indexes and views -/

def createIndex (dbId : UInt32) (name : Option String) (table : String)
    (columns : List OrderByExpr) (unique ifNotExists : Bool) : Db QueryResult := do
  let state ← Prog.read World.kvs
  let schemas ← orRaise (state.schemas.get dbId) (databaseNotFound dbId)
  let schema ← orRaise (schemas.get table) (tableNotFound table)
  let indexName := name.getD s!"idx_{table}_{columns.length}"
  if schema.indices.any fun i => i.name = indexName then
    if ifNotExists then return .empty
    raise (.schema s!"Index {indexName} already exists")
  let newIndex : IndexDef :=
    { name := indexName, columns := columns.map fun c => exprToString c.expr, unique,
      partialWhere := none, isExpression := false }
  onState fun s => s.setSchema dbId table { schema with indices := schema.indices ++ [newIndex] }
  onState fun s => rebuildIndex s dbId table newIndex
  return .empty

def dropIndex (dbId : UInt32) (names : List String) (ifExists : Bool) : Db QueryResult := do
  let state ← Prog.read World.kvs
  let _ ← orRaise (state.schemas.get dbId) (databaseNotFound dbId)
  forM names fun indexName => do
    let state ← Prog.read World.kvs
    let entries := hashOrder (state.schemas.getD dbId ∅).entries
    match entries.find? fun e => e.2.indices.any fun i => i.name = indexName with
    | some (table, schema) =>
      onState fun s => s.setSchema dbId table
        { schema with indices := schema.indices.filter fun i => i.name ≠ indexName }
      onState fun s => s.dropIndexStore dbId table indexName
    | none => if !ifExists then raise (.schema s!"Index {indexName} not found")
  return .empty

/-- The stored text of a view must read back as one SELECT. -/
def createView (dbId : UInt32) (name : String) (query : Query) : Db QueryResult := do
  let sql := queryToString query
  match ← Prog.ofExcept (parseStatements sql) with
  | [.query _] =>
    onState fun s => s.addView dbId name sql
    return .empty
  | [_] => raise (.unsupported "View must be a SELECT query")
  | _ => raise (.unsupported "View definition must be a single SELECT")

def dropView (dbId : UInt32) (names : List String) (ifExists : Bool) : Db QueryResult := do
  forM names fun name => do
    let state ← Prog.read World.kvs
    match state.removeView dbId name with
    | .ok state' => onState fun _ => state'
    | .error e => if !ifExists then raise e
  return .empty

/-- Only fts5 is supported: a plain table with a full-text index over its first column. -/
def createVirtualTable (dbId : UInt32) (name : String) (ifNotExists : Bool) (moduleName : Ident)
    (moduleArgs : List Ident) : Db QueryResult := do
  let module_ := toLowercase moduleName.text
  if module_ ≠ "fts5" then
    raise (.unsupported s!"Virtual table module '{module_}' not supported (only fts5)")
  ensureSchemas dbId
  let state ← Prog.read World.kvs
  if (state.getSchema dbId name).isSome then
    if ifNotExists then return .empty
    raise (tableExists name)
  let colNames := moduleArgs.map Ident.value
  let contentColumn := colNames.head?.getD "content"
  let textColumn (colName : String) : ColumnDef :=
    { name := colName, dataType := .text, primaryKey := false, autoIncrement := false,
      notNull := false, default := none, unique := false, checkExpr := none }
  let schema := { emptySchema name with
    columns := .ofList (colNames.map fun c => (c, textColumn c))
    fts5ContentColumn := some contentColumn }
  onState fun s => (s.setSchema dbId name schema).freshTable dbId name
  onState fun s => s.registerFtsTable dbId name (.new name contentColumn)
  return .empty

end Skvs
