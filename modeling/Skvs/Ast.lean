import Mathlib.Data.List.Basic

/-!
# The parsed statements

The part of the parser's syntax trees that the engine looks at. A name the engine only ever prints
is kept as its printed form, and every variant the engine does not tell apart is `other`, with the
text its error messages or column names show. The `?` placeholders in the parts of an expression that
the engine never looks at are kept as their number.
-/

namespace Skvs

/-- An identifier: its value without quotes, and the text it prints as. -/
structure Ident where
  value : String
  text : String
  deriving DecidableEq

inductive SqlValue where
  | number (n : String)
  | singleQuotedString (s : String)
  | doubleQuotedString (s : String)
  | null
  | boolean (b : Bool)
  | placeholder (s : String)
  | other
  deriving DecidableEq

inductive UnaryOperator where
  | minus
  | plus
  | not
  | other
  deriving DecidableEq

inductive BinaryOperator where
  | plus
  | minus
  | multiply
  | divide
  | modulo
  | stringConcat
  | gt
  | lt
  | gtEq
  | ltEq
  | eq
  | notEq
  | and
  | or
  | other
  deriving DecidableEq

mutual

inductive Expr where
  | identifier (id : Ident)
  | compoundIdentifier (parts : List Ident)
  | value (v : SqlValue)
  | nested (inner : Expr)
  | unaryOp (op : UnaryOperator) (expr : Expr)
  | binaryOp (left : Expr) (op : BinaryOperator) (right : Expr)
  | isNull (inner : Expr)
  | isNotNull (inner : Expr)
  | between (expr : Expr) (negated : Bool) (low high : Expr)
  | inList (expr : Expr) (list : List Expr) (negated : Bool)
  | like (negated : Bool) (expr pattern : Expr)
  | iLike (negated : Bool) (expr pattern : Expr)
  | case (operand : Option Expr) (conditions results : List Expr) (elseResult : Option Expr)
  | function (name : String) (args : List FunctionArg) (distinct : Bool) (clausePlaceholders : Nat)
  | other (text : String) (placeholders : Nat)

inductive FunctionArg where
  | unnamed (arg : FunctionArgExpr)
  | named (name : Ident) (arg : FunctionArgExpr)

inductive FunctionArgExpr where
  | expr (e : Expr)
  | qualifiedWildcard
  | wildcard

end

instance : Inhabited Expr := ⟨.other "" 0⟩

inductive SelectItem where
  | unnamedExpr (e : Expr)
  | exprWithAlias (e : Expr) (alias_ : Ident)
  | qualifiedWildcard
  | wildcard

inductive TableFactor where
  | table (name : String) (alias_ : Option String)
  | other (text : String)

inductive JoinConstraint where
  | on (e : Expr)
  | using (cols : List Ident)
  | natural
  | none

inductive JoinOperator where
  | inner (c : JoinConstraint)
  | leftOuter (c : JoinConstraint)
  | rightOuter (c : JoinConstraint)
  | fullOuter (c : JoinConstraint)
  | crossJoin
  | other (debug : String)

structure Join where
  relation : TableFactor
  joinOperator : JoinOperator

structure TableWithJoins where
  relation : TableFactor
  joins : List Join

inductive GroupByExpr where
  | all
  | expressions (exprs : List Expr)

structure Select where
  distinct : Bool
  projection : List SelectItem
  from_ : List TableWithJoins
  selection : Option Expr
  groupBy : GroupByExpr

inductive SetExpr where
  | select (s : Select)
  | values (rows : List (List Expr))
  | other

structure OrderByExpr where
  expr : Expr
  asc : Option Bool

structure Query where
  body : SetExpr
  orderBy : List OrderByExpr
  limit : Option Expr
  offset : Option Expr

structure Assignment where
  id : List Ident
  value : Expr

/-- The column types the engine recognises. -/
inductive SqlDataType where
  | int
  | integer
  | float
  | double
  | text
  | string
  | varchar
  | blob
  | other

inductive ColumnOption where
  | notNull
  | unique (isPrimary : Bool)
  | default (e : Expr)
  | check (e : Expr)
  | dialectSpecific (tokens : List String)
  | other

structure SqlColumnDef where
  name : Ident
  dataType : SqlDataType
  options : List ColumnOption

inductive ReferentialAction where
  | restrict
  | cascade
  | setNull
  | noAction
  | setDefault

inductive TableConstraint where
  | unique (columns : List Ident) (isPrimary : Bool)
  | foreignKey (columns : List Ident) (foreignTable : String) (referredColumns : List Ident)
      (onDelete onUpdate : Option ReferentialAction)
  | check (e : Expr)
  | other

inductive AlterTableOperation where
  | addColumn (columnDef : SqlColumnDef)
  | dropColumn (columnName : Ident) (ifExists : Bool)
  | renameColumn (oldColumnName newColumnName : Ident)
  | renameTable (tableName : String)
  | other (text : String)

inductive ObjectType where
  | table
  | index
  | view
  | other (debug : String)

inductive Statement where
  | query (q : Query)
  | insert (tableName : String) (columns : List Ident) (source : Option Query)
  | update (table : TableWithJoins) (assignments : List Assignment) (selection : Option Expr)
  | delete (tables : List String) (from_ : List TableWithJoins) (selection : Option Expr)
  | createTable (name : String) (columns : List SqlColumnDef) (constraints : List TableConstraint)
      (ifNotExists : Bool)
  | alterTable (name : String) (ifExists : Bool) (operations : List AlterTableOperation)
  | createIndex (name : Option String) (tableName : String) (columns : List OrderByExpr)
      (unique ifNotExists : Bool)
  | createView (name : String) (query : Query)
  | createVirtualTable (name : String) (ifNotExists : Bool) (moduleName : Ident)
      (moduleArgs : List Ident)
  | drop (objectType : ObjectType) (names : List String) (ifExists : Bool)
  | startTransaction
  | commit
  | rollback
  | other (debug : String)

/-- The statements a trigger body is meant to hold: INSERT, UPDATE, DELETE and SELECT. -/
def Statement.isPlain : Statement → Bool
  | .query _ | .insert .. | .update .. | .delete .. => true
  | _ => false

/-- The statements that write rows. -/
def Statement.isWrite : Statement → Bool
  | .insert .. | .update .. | .delete .. => true
  | _ => false

end Skvs
