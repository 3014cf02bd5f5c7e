import Skvs.Select

/-!
# Constraints
-/

namespace Skvs

/-- Whether a row holds the value `v` in column `c`. -/
def Row.holds (row : Row) (c : String) (v : Value) : Bool :=
  match row.get c with
  | some w => w.partialEq v
  | none => false

section

variable (state : KvsState) (dbId : UInt32)

/-- Whether some row other than `excludeRowid` has this combination of values. A single column with
an index is looked up there; otherwise the rows are scanned. -/
def valueExistsElsewhere (schema : TableSchema) (columns : List String) (values : List Value)
    (excludeRowid : RowId) : Bool :=
  match state.getTableStore dbId schema.name with
  | none => false
  | some store =>
    let scan := store.entries.any fun entry =>
      entry.1 ≠ excludeRowid && (columns.zip values).all fun cv => Row.holds entry.2 cv.1 cv.2
    match columns, values with
    | [col], v :: _ =>
      match findIndex schema col with
      | some idx =>
        (lookupIndex state dbId schema.name idx.name v).any fun id => id ≠ excludeRowid
      | none => scan
    | _, _ => scan

def checkNotNull (row : Row) (colName : String) (colDef : ColumnDef) : Except SkvsError Unit :=
  if colDef.notNull && ((row.get colName).getD .null).isNull then
    .error (.constraintViolation s!"{colName} cannot be NULL")
  else .ok ()

def keyKind (isPrimary : Bool) : String := if isPrimary then "PRIMARY KEY" else "UNIQUE"

/-- Column-level UNIQUE and PRIMARY KEY; a NULL collides with nothing. -/
def checkColumnUnique (schema : TableSchema) (row : Row) (rowid : RowId) (colName : String)
    (colDef : ColumnDef) : Except SkvsError Unit :=
  if colDef.unique || colDef.primaryKey then
    match row.get colName with
    | some val =>
      if !val.isNull && valueExistsElsewhere state dbId schema [colName] [val] rowid then
        .error (.constraintViolation
          s!"{keyKind colDef.primaryKey} constraint failed: {schema.name}.{colName}")
      else .ok ()
    | none => .ok ()
  else .ok ()

def groupValues (group : UniqueGroup) (row : Row) : List Value :=
  group.columns.map fun c => (row.get c).getD .null

def groupError (schema : TableSchema) (group : UniqueGroup) (isPrimary : Bool) : SkvsError :=
  let cols := ", ".intercalate group.columns
  .constraintViolation s!"{keyKind isPrimary} constraint failed: {schema.name}({cols})"

/-- Table-level UNIQUE and PRIMARY KEY. -/
def checkUniqueGroup (schema : TableSchema) (row : Row) (rowid : RowId) (group : UniqueGroup) :
    Except SkvsError Unit :=
  let vals := groupValues group row
  if group.isPrimary && vals.any Value.isNull then .error (groupError schema group true)
  else if vals.any Value.isNull then .ok ()
  else if valueExistsElsewhere state dbId schema group.columns vals rowid then
    .error (groupError schema group group.isPrimary)
  else .ok ()

/-- The referenced row must exist, unless the column is NULL or the referenced table is missing. -/
def checkForeignKey (schema : TableSchema) (row : Row) (fk : ForeignKeyDef) :
    Except SkvsError Unit :=
  if fk.column.isEmpty then .ok ()
  else
    match row.get fk.column, state.getTableStore dbId fk.refTable with
    | some val, some refStore =>
      if val.isNull then .ok ()
      else if refStore.entries.any fun entry => Row.holds entry.2 fk.refColumn val then .ok ()
      else
        .error (.constraintViolation ("FOREIGN KEY constraint failed: " ++
          s!"{schema.name}.{fk.column} -> {fk.refTable}.{fk.refColumn}"))
    | _, _ => .ok ()

variable [Externals]

/-- A stored CHECK text is parsed again; one that cannot be read back does not block writes. -/
def evalCheck (row : Row) (checkSql : String) : Bool :=
  match parseSql s!"SELECT {checkSql}" with
  | .error _ => true
  | .ok stmts =>
    match stmts.head? with
    | some (.query q) =>
      match q.body with
      | .select sel =>
        match sel.projection.head? with
        | some (.unnamedExpr e) => truthy (evalFrom (.withRow row) [] e 0)
        | _ => true
      | _ => true
    | _ => true

def checkColumnCheck (schema : TableSchema) (row : Row) (colName : String) (colDef : ColumnDef) :
    Except SkvsError Unit :=
  match colDef.checkExpr with
  | some checkSql =>
    if evalCheck row checkSql then .ok ()
    else
      .error (.constraintViolation s!"CHECK constraint failed: {schema.name}.{colName} ({checkSql})")
  | none => .ok ()

def checkTableCheck (schema : TableSchema) (row : Row) (checkSql : String) : Except SkvsError Unit :=
  if evalCheck row checkSql then .ok ()
  else .error (.constraintViolation s!"CHECK constraint failed: {schema.name} ({checkSql})")

/-- Check a candidate row against every constraint of its table, in this order. Its own rowid is
excluded from the uniqueness checks. -/
def validateConstraints (schema : TableSchema) (row : Row) (rowid : RowId) :
    Except SkvsError Unit := do
  schema.columns.entries.forM fun (colName, colDef) => checkNotNull row colName colDef
  schema.columns.entries.forM fun (colName, colDef) =>
    checkColumnUnique state dbId schema row rowid colName colDef
  schema.uniqueGroups.forM fun group => checkUniqueGroup state dbId schema row rowid group
  schema.foreignKeys.forM fun fk => checkForeignKey state dbId schema row fk
  schema.columns.entries.forM fun (colName, colDef) => checkColumnCheck schema row colName colDef
  schema.tableChecks.forM fun checkSql => checkTableCheck schema row checkSql

end

end Skvs
