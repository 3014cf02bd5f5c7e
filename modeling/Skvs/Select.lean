import Skvs.Expr
import Skvs.Index
import Mathlib.Data.List.Dedup

/-!
# SELECT

Selecting changes no table; the recursion through views is bounded by fuel.
-/

namespace Skvs

structure QueryResult where
  columns : List String
  rows : List Row
  affectedRows : Option UInt64
  txId : Option UInt32
  deriving DecidableEq

namespace QueryResult

def empty : QueryResult := ⟨[], [], none, none⟩

def affected (n : UInt64) : QueryResult := ⟨[], [], some n, none⟩

def ofRows (rows : List Row) (columns : List String) : QueryResult := ⟨columns, rows, none, none⟩

def began (txId : UInt32) : QueryResult := ⟨[], [], none, some txId⟩

end QueryResult

variable [Externals]

/-! ### WHERE -/

section Where

variable (state : KvsState) (dbId : UInt32) (row : Row) (params : List Value)

/-- `fts_match(table, 'words')` looks the row up by its internal rowid field. -/
def ftsMatch (args : List FunctionArg) : Bool :=
  let tableName : Option String := match args.head? with
    | some (.unnamed (.expr (.identifier id))) => some id.value
    | some (.unnamed (.expr (.value (.singleQuotedString s)))) => some s
    | _ => none
  let queryText : Option String := match args.tail.head? with
    | some (.unnamed (.expr (.value (.singleQuotedString s)))) => some s
    | _ => none
  match tableName, queryText with
  | some tableName, some queryText =>
    match state.getFtsTable dbId tableName, row.get "_rowid_" with
    | some fts, some (.integer id) => id.toUInt64 ∈ fts.index.search queryText
    | _, _ => false
  | _, _ => false

/-- WHERE recurses through AND, OR, NOT and parentheses itself, short-circuiting both AND and OR;
every other shape goes to `eval`. -/
def evaluateWhereCtx : Expr → StateM Nat Bool
  | .binaryOp left .and right => do
    if ← evaluateWhereCtx left then evaluateWhereCtx right else return false
  | .binaryOp left .or right => do
    if ← evaluateWhereCtx left then return true else evaluateWhereCtx right
  | .unaryOp .not inner => do return !(← evaluateWhereCtx inner)
  | .nested inner => evaluateWhereCtx inner
  | .function name args distinct clausePlaceholders =>
    if toLowercase name = "fts_match" ∧ args.length = 2 then pure (ftsMatch state dbId row args)
    else do
      return truthy (← eval (.withRow row) params (.function name args distinct clausePlaceholders))
  | e => do return truthy (← eval (.withRow row) params e)

/-- Whether a WHERE clause, read from parameter `paramIdx` on, holds on the row. -/
def whereHolds (e : Expr) (paramIdx : Nat) : Bool :=
  (evaluateWhereCtx state dbId row params e paramIdx).1

end Where

/-! ### The index fast path -/

def Expr.isColumnRef : Expr → Bool
  | .identifier _ | .compoundIdentifier _ => true
  | _ => false

/-- The column and the other operand of a comparison between a bare column and anything that is not
a column; the flag says that the column stands on the right. -/
def columnAndOther (left right : Expr) : Option (String × Expr × Bool) :=
  match left, right with
  | .identifier id, other =>
    if other.isColumnRef then none else some (id.value, other, false)
  | other, .identifier id =>
    if other.isColumnRef then none else some (id.value, other, true)
  | _, _ => none

def flipComparison : BinaryOperator → BinaryOperator
  | .lt => .gt
  | .ltEq => .gtEq
  | .gt => .lt
  | .gtEq => .ltEq
  | op => op

/-- A WHERE clause that is one range comparison on a column. -/
def simpleRange (expr : Expr) (params : List Value) : Option (String × Bound Value × Bound Value) :=
  match expr with
  | .binaryOp left op right =>
    match columnAndOther left right with
    | none => none
    | some (col, other, flipped) =>
      let val := evalFrom .noRow params other 0
      match if flipped then flipComparison op else op with
      | .gt => some (col, .excluded val, .unbounded)
      | .gtEq => some (col, .included val, .unbounded)
      | .lt => some (col, .unbounded, .excluded val)
      | .ltEq => some (col, .unbounded, .included val)
      | _ => none
  | .between inner false low high =>
    match inner with
    | .identifier id =>
      let lo := evalFrom .noRow params low 0
      let hi := evalFrom .noRow params high 0
      some (id.value, .included lo, .included hi)
    | _ => none
  | _ => none

/-- A WHERE clause that is one equality on a column. -/
def simpleEquality (expr : Expr) (params : List Value) : Option (String × Value) :=
  match expr with
  | .binaryOp left .eq right =>
    match columnAndOther left right with
    | none => none
    | some (col, other, _) => some (col, evalFrom .noRow params other 0)
  | _ => none

section

variable (state : KvsState) (dbId : UInt32) (table : String)

/-- Tag a row with the rowid it is stored under. -/
def tagRow (rowid : RowId) (row : Row) : Row := row.insert "_rowid_" (.integer rowid.toInt64)

def tableNotFound : SkvsError := .schema s!"Table {table} not found"

def rowsFromIds (ids : List RowId) : Except Fail (List Row) :=
  match state.getTableStore dbId table with
  | none => .error (.err (tableNotFound table))
  | some store => .ok (ids.filterMap fun rowid => (store.get rowid).map (tagRow rowid))

def scanRows : Except Fail (List Row) :=
  match state.getTableStore dbId table with
  | none => .error (.err (tableNotFound table))
  | some store => .ok ((hashOrder store.entries).map fun entry => tagRow entry.1 entry.2)

/-- The single-column index on a column that lookups use. -/
def findIndex (schema : TableSchema) (col : String) : Option IndexDef :=
  schema.indices.find? fun i => i.columns = [col]

/-- The candidate rows of a single-table query: those an index selects, or all. -/
def rowsForSimpleWhere (selection : Option Expr) (params : List Value) : Except Fail (List Row) :=
  let indexOn (col : String) : Option IndexDef :=
    (state.getSchema dbId table).bind fun schema => findIndex schema col
  match selection with
  | none => scanRows state dbId table
  | some whereExpr =>
    let byEquality := (simpleEquality whereExpr params).bind fun (col, val) =>
      (indexOn col).map fun idx => (idx, val)
    let byRange := (simpleRange whereExpr params).bind fun (col, lower, upper) =>
      (indexOn col).map fun idx => (idx, lower, upper)
    match byEquality, byRange with
    | some (idx, val), _ => rowsFromIds state dbId table (lookupIndex state dbId table idx.name val)
    | none, some (idx, lower, upper) => do
      rowsFromIds state dbId table (← rangeLookup state dbId table idx.name lower upper)
    | none, none => scanRows state dbId table

end

/-! ### Projection -/

def isGrouped : GroupByExpr → Bool
  | .expressions exprs => !exprs.isEmpty
  | .all => false

def projectedName (e : Expr) : String :=
  match e with
  | .identifier id => id.value
  | .compoundIdentifier parts =>
    match parts.getLast? with
    | some p => p.value
    | none => exprToString e
  | _ => exprToString e

def SelectItem.isWildcard : SelectItem → Bool
  | .wildcard => true
  | _ => false

def insertAll (target row : Row) : Row := row.entries.foldl (fun r e => r.insert e.1 e.2) target

def projectItem (params : List Value) (row newRow : Row) : SelectItem → Row
  | .wildcard | .qualifiedWildcard => insertAll newRow row
  | .unnamedExpr e => newRow.insert (projectedName e) (evalFrom (.withRow row) params e 0)
  | .exprWithAlias e alias_ => newRow.insert alias_.text (evalFrom (.withRow row) params e 0)

/-- Apply the SELECT list to each row; a bare `*` passes the rows through. -/
def applyProjection (rows : List Row) (projection : List SelectItem) (params : List Value) :
    List Row :=
  if projection.isEmpty || projection.all SelectItem.isWildcard then rows
  else rows.map fun row => projection.foldl (projectItem params row) ∅

def isPureOrMixedWildcard (projection : List SelectItem) : Bool :=
  projection.isEmpty || projection.any fun
    | .wildcard | .qualifiedWildcard => true
    | _ => false

def getProjectionColumns (projection : List SelectItem) : List String :=
  if projection.isEmpty then ["*"]
  else projection.map fun
    | .unnamedExpr e => projectedName e
    | .exprWithAlias _ alias_ => alias_.text
    | .qualifiedWildcard => "*"
    | .wildcard => "*"

/-! ### Joins -/

def parseTableFactor : TableFactor → String × Option String
  | .table name alias_ => (name, alias_)
  | .other text => (text, none)

def qualifiedName (tableOrAlias col : String) : String := s!"{tableOrAlias}.{col}"

/-- Merge a row under its qualified names, and under each bare name not yet claimed. -/
def insertRowQualified (combined : Row) (tableOrAlias : String) (row : Row) : Row :=
  row.entries.foldl (fun r e =>
    (r.insert (qualifiedName tableOrAlias e.1) e.2).insertIfNew e.1 e.2) combined

def tableRefName (table : String) (alias_ : Option String) : String := alias_.getD table

/-- A row of the right-hand table with every value NULL. -/
def nullPadded (tableOrAlias : String) (schema2 : Option TableSchema) (sample : Option Row) : Row :=
  let cols := match schema2 with
    | some s => s.columns.keys
    | none => (sample.map IndexMap.keys).getD []
  cols.foldl (fun r col =>
    (r.insert (qualifiedName tableOrAlias col) .null).insertIfNew col .null) ∅

section Joins

variable (state : KvsState) (dbId : UInt32)

def joinConditionMatches (combined : Row) (constraint : JoinConstraint) (params : List Value) :
    Bool :=
  match constraint with
  | .on expr => whereHolds state dbId combined params expr 0
  | .using cols => cols.all fun c => (combined.get c.value).isSome
  | .natural | .none => true

/-- An ON condition that equates a column of each of the two tables, as (left, right) columns. -/
def extractEquiJoin (constraint : JoinConstraint) (name1 name2 : String) :
    Option (String × String) :=
  let side : Expr → Option (Bool × String)
    | .compoundIdentifier [table, col] =>
      if table.value = name1 then some (true, col.value)
      else if table.value = name2 then some (false, col.value)
      else none
    | _ => none
  match constraint with
  | .on (.binaryOp left .eq right) =>
    match side left, side right with
    | some (true, c1), some (false, c2) => some (c1, c2)
    | some (false, c2), some (true, c1) => some (c1, c2)
    | _, _ => none
  | _ => none

def hashByColumn (rows2 : List Row) (col2 : String) : IndexMap String (List Row) :=
  rows2.foldl (fun map r =>
    match r.get col2 with
    | some v =>
      let key := valueToKeyString v
      map.insert key (map.getD key [] ++ [r])
    | none => map) ∅

/-- The right-hand rows the hash join pairs with a left-hand row. -/
def hashMatches (byVal : IndexMap String (List Row)) (q1 : String) (row1 : Row) : List Row :=
  ((row1.get q1).bind fun v1 => byVal.get (valueToKeyString v1)).getD []

/-- The partners of a left row, or the row padded with NULLs where it has none. -/
def padded (row1 : Row) (partners : List Row) (padding : Row) : List Row :=
  if partners.isEmpty then [insertAll row1 padding] else partners

/-- One join of the chain: the rows so far, joined with the rows of the next table. -/
def executeJoin (isFirst : Bool) (name1 : String) (result : List Row) (join : Join)
    (params : List Value) : Except Fail (List Row) := do
  let (table2, alias2) := parseTableFactor join.relation
  let name2 := tableRefName table2 alias2
  let store2 ← match state.getTableStore dbId table2 with
    | some store2 => .ok store2
    | none => .error (.err (tableNotFound table2))
  let schema2 := state.getSchema dbId table2
  let rows2 := (hashOrder store2.entries).map Prod.snd
  -- the hash join is used on the first hop of the chain only
  let equi (c : JoinConstraint) := if isFirst then extractEquiJoin c name1 name2 else none
  let combine (row1 row2 : Row) := insertRowQualified row1 name2 row2
  let matching (c : JoinConstraint) (row1 : Row) := (rows2.map (combine row1)).filter fun combined =>
    joinConditionMatches state dbId combined c params
  let leftPadding := nullPadded name2 schema2 rows2.head?
  let leftCols := (result.head?.map IndexMap.keys).getD []
  let rightPadded (row2 : Row) :=
    insertRowQualified (leftCols.foldl (fun r k => r.insert k .null) ∅) name2 row2
  match join.joinOperator with
  | .inner c =>
    match equi c with
    | some (col1, col2) =>
      let byVal := hashByColumn rows2 col2
      return result.flatMap fun row1 =>
        (hashMatches byVal (qualifiedName name1 col1) row1).map (combine row1)
    | none => return result.flatMap (matching c)
  | .leftOuter c =>
    match equi c with
    | some (col1, col2) =>
      let byVal := hashByColumn rows2 col2
      return result.flatMap fun row1 =>
        padded row1 ((hashMatches byVal (qualifiedName name1 col1) row1).map (combine row1))
          leftPadding
    | none => return result.flatMap fun row1 => padded row1 (matching c row1) leftPadding
  | .rightOuter c =>
    return rows2.flatMap fun row2 =>
      let partners := (result.map fun row1 => combine row1 row2).filter fun combined =>
        joinConditionMatches state dbId combined c params
      if partners.isEmpty then [rightPadded row2] else partners
  | .fullOuter c =>
    let matched (row2 : Row) := result.any fun row1 =>
      joinConditionMatches state dbId (combine row1 row2) c params
    return (result.flatMap fun row1 => padded row1 (matching c row1) leftPadding) ++
      (rows2.filter fun row2 => !matched row2).map rightPadded
  | .crossJoin => return result.flatMap fun row1 => rows2.map (combine row1)
  | .other debug => .error (.err (.unsupported s!"JOIN type not supported: {debug}"))

/-- Only the first item of the FROM list and its joins take part. -/
def executeJoins (from_ : List TableWithJoins) (params : List Value) : Except Fail (List Row) := do
  match from_ with
  | [] => return []
  | first :: _ =>
    let (table1, alias1) := parseTableFactor first.relation
    let name1 := tableRefName table1 alias1
    let store1 ← match state.getTableStore dbId table1 with
      | some store1 => .ok store1
      | none => .error (.err (tableNotFound table1))
    let result := (hashOrder store1.entries).map fun e => insertRowQualified ∅ name1 e.2
    (first.joins.zipIdx).foldlM (fun result (join, joinIdx) =>
      executeJoin state dbId (joinIdx = 0) name1 result join params) result

end Joins

/-! ### GROUP BY, ORDER BY, LIMIT -/

/-- The debug form of a value. -/
def debugValue : Value → String
  | .null => "Null"
  | .integer i => s!"Integer({i})"
  | .real f => "Real(" ++ f.debug ++ ")"
  | .text s => "Text(" ++ debugStr s ++ ")"
  | .blob b => "Blob([" ++ ", ".intercalate (b.map fun x => toString x.toNat) ++ "])"

def numeric (val : Option Value) : Option F64 := val.bind toF64

def sumF64 (vals : List F64) : F64 := vals.foldl F64.add (.fin 0)

/-- The last of the greatest values. -/
def maxBy : List Value → Option Value
  | [] => none
  | v :: vs => some (vs.foldl (fun x y => if x.compare y == .gt then x else y) v)

/-- The first of the least values. -/
def minBy : List Value → Option Value
  | [] => none
  | v :: vs => some (vs.foldl (fun x y => if x.compare y == .gt then y else x) v)

/-- The column an aggregate is applied to, where its argument is one. -/
def aggregateColumn (args : List FunctionArg) : Option String :=
  match args.head? with
  | some (.unnamed (.expr (.identifier id))) => some id.value
  | some (.unnamed (.expr (.compoundIdentifier parts))) => parts.getLast?.map Ident.value
  | _ => none

def isStarArg (args : List FunctionArg) : Bool :=
  match args.head? with
  | some (.unnamed .wildcard) => true
  | _ => false

def countColumn (col : String) (isDistinct : Bool) (rows : List Row) : Value :=
  let vals := (rows.filterMap fun r => r.get col).filter fun v => !v.isNull
  let n := if isDistinct then (vals.map debugValue).dedup.length else vals.length
  .integer (.ofNat n)

def evaluateAggregate (e : Expr) (rows : List Row) : Value :=
  match e with
  | .function name args isDistinct _ =>
    match toLowercase name, aggregateColumn args with
    | "count", arg =>
      if isStarArg args || args.isEmpty then .integer (.ofNat rows.length)
      else
        match arg with
        | some col => countColumn col isDistinct rows
        | none => .integer (.ofNat rows.length)
    | "sum", some col =>
      let sum := sumF64 (rows.filterMap fun r => numeric (r.get col))
      if sum.fract.isZero then .integer (f64AsI64 sum) else .real sum
    | "avg", some col =>
      let vals := rows.filterMap fun r => numeric (r.get col)
      if vals.isEmpty then .null else .real ((sumF64 vals).div (F64.ofInt vals.length))
    | "max", some col => (maxBy (rows.filterMap fun r => r.get col)).getD .null
    | "min", some col => (minBy (rows.filterMap fun r => r.get col)).getD .null
    | _, _ => .null
  | .identifier id => (rows.head?.bind fun r => r.get id.value).getD .null
  | _ => .null

def groupKey (exprs : List Expr) (row : Row) : String :=
  "\x01".intercalate (exprs.map fun e => debugValue (evalFrom (.withRow row) [] e 0))

/-- The output column of a projected item in a grouped query. -/
def groupItem (groupRows : List Row) (row : Row) : SelectItem → Row
  | .unnamedExpr e =>
    let name := match e with
      | .identifier id => id.value
      | _ => exprToString e
    row.insert name (evaluateAggregate e groupRows)
  | .exprWithAlias e alias_ => row.insert alias_.text (evaluateAggregate e groupRows)
  | _ => row

/-- One row for each group, in the order in which the groups first appear. -/
def applyGroupBy (rows : List Row) (groupBy : GroupByExpr) (projection : List SelectItem) :
    List Row :=
  match groupBy with
  | .all => rows
  | .expressions exprs =>
    if exprs.isEmpty then rows
    else
      let groups : IndexMap String (List Row) := rows.foldl (fun groups row =>
        let key := groupKey exprs row
        groups.insert key (groups.getD key [] ++ [row])) ∅
      groups.values.map fun groupRows => projection.foldl (groupItem groupRows) ∅

def orderKey (order : OrderByExpr) (row : Row) : Value := evalFrom (.withRow row) [] order.expr 0

def orderCompare (order : OrderByExpr) (a b : Row) : Ordering :=
  let cmp := (orderKey order a).compare (orderKey order b)
  if order.asc.getD true then cmp else cmp.swap

/-- Stable sorts, from the last key to the first. -/
def applyOrderBy (rows : List Row) (orderBy : List OrderByExpr) : List Row :=
  orderBy.reverse.foldl (fun rows order =>
    rows.mergeSort fun a b => orderCompare order a b != .gt) rows

def exprToUsize : Expr → Option Nat
  | .value (.number s) => Text.parseUsize s.toList
  | _ => none

def applyLimit (rows : List Row) (limitExpr : Expr) (offset : Option Expr) : List Row :=
  let limit := (exprToUsize limitExpr).getD rows.length
  let offsetVal := (offset.bind exprToUsize).getD 0
  (rows.drop offsetVal).take limit

/-! ### The statement -/

def distinctKey (row : Row) : String :=
  "".intercalate (row.entries.map fun e => s!"{e.1}:{debugValue e.2}")

/-- Keep the first row of each distinct key. -/
def retainDistinct : List String → List Row → List Row
  | _, [] => []
  | seen, row :: rows =>
    if distinctKey row ∈ seen then retainDistinct seen rows
    else row :: retainDistinct (distinctKey row :: seen) rows

section

variable (state : KvsState) (dbId : UInt32)

/-- What follows once the candidate rows are there. -/
def finishSelect (query : Query) (select : Select) (params : List Value) (rows : List Row) :
    List Row :=
  let rows := match select.selection with
    | some whereExpr => rows.filter fun row => whereHolds state dbId row params whereExpr 0
    | none => rows
  let rows := applyGroupBy rows select.groupBy select.projection
  let rows := if query.orderBy.isEmpty then rows else applyOrderBy rows query.orderBy
  let rows := match query.limit with
    | some limitExpr => applyLimit rows limitExpr query.offset
    | none => rows
  if isGrouped select.groupBy then rows else applyProjection rows select.projection params

def selectColumns (select : Select) (schemaForWildcard : Option TableSchema) (rows : List Row) :
    List String :=
  if isPureOrMixedWildcard select.projection then
    match rows.head?, schemaForWildcard with
    | some first, _ => first.keys
    | none, some schema => schema.columns.keys
    | none, none => ["*"]
  else getProjectionColumns select.projection

def parseStatements (sql : String) : Except Fail (List Statement) :=
  match parseSql sql with
  | .ok stmts => .ok stmts
  | .error e => .error (.err (.sqlParse e))

def executeSelect : Nat → Query → List Value → Except Fail QueryResult
  | 0, _, _ => .error .outOfFuel
  | fuel + 1, query, params => do
    let select ← match query.body with
      | .select select => .ok select
      | _ => .error (.err (.unsupported "Only simple SELECT statements are supported"))
    let (rows, schemaForWildcard) ← match select.from_ with
      | [] => .ok ([], none)
      | [⟨relation, []⟩] =>
        let table := (parseTableFactor relation).1
        match state.getViewDefinition dbId table with
        | some viewSql => do
          let inner ← match (← parseStatements viewSql).head? with
            | some (.query viewQuery) => executeSelect fuel viewQuery params
            | _ => .error (.err (.view "View definition must be a SELECT"))
          .ok (finishSelect state dbId query select params inner.rows, none)
        | none => do
          let rows ← rowsForSimpleWhere state dbId table select.selection params
          .ok (finishSelect state dbId query select params rows, state.getSchema dbId table)
      | from_ => do
        let rows ← executeJoins state dbId from_ params
        .ok (finishSelect state dbId query select params rows, none)
    let rows := if select.distinct then retainDistinct [] rows else rows
    -- the internal rowid field never leaves the engine
    let rows := rows.map fun row => row.erase "_rowid_"
    return .ofRows rows (selectColumns select schemaForWildcard rows)

end

end Skvs
