import Skvs.Lib.IndexMap
import Skvs.Lib.Float64
import Mathlib.Data.Fintype.Defs

/-!
# Values, rows and schemas
-/

namespace Skvs

abbrev RowId := UInt64

inductive DataType where
  | null
  | integer
  | real
  | text
  | blob
  deriving DecidableEq

inductive Value where
  | null
  | integer (i : Int64)
  | real (f : F64)
  | text (s : String)
  | blob (b : List UInt8)
  deriving DecidableEq

namespace Value

instance : Inhabited Value := ⟨.null⟩

def isNull (v : Value) : Bool := v matches .null

def isReal (v : Value) : Bool := v matches .real _

/-- `==` on values: the derived comparison, in which REALs compare as doubles do. -/
def partialEq (a b : Value) : Bool :=
  match a, b with
  | .real f, .real g => f.ieeeEq g
  | a, b => a = b

def typeRank : Value → Nat
  | .null => 0
  | .integer _ | .real _ => 1
  | .text _ => 2
  | .blob _ => 3

/-- Ordering used by WHERE, ORDER BY, BETWEEN and the index keys. -/
def compare (a b : Value) : Ordering :=
  match a, b with
  | .null, .null => .eq
  | .null, _ => .lt
  | _, .null => .gt
  | .integer i, .integer j => Ord.compare i j
  | .real f, .real g => (F64.partialCmp f g).getD .eq
  | .integer i, .real g => (F64.partialCmp (F64.ofInt i.toInt) g).getD .eq
  | .real f, .integer j => (F64.partialCmp f (F64.ofInt j.toInt)).getD .eq
  | .text s, .text t => Ord.compare s t
  | .blob b, .blob c => Ord.compare b c
  | a, b => Ord.compare a.typeRank b.typeRank

end Value

abbrev Row := IndexMap String Value

structure ColumnDef where
  name : String
  dataType : DataType
  primaryKey : Bool
  autoIncrement : Bool
  notNull : Bool
  default : Option Value
  unique : Bool
  checkExpr : Option String
  deriving DecidableEq

/-- A table-level UNIQUE or PRIMARY KEY constraint. -/
structure UniqueGroup where
  columns : List String
  isPrimary : Bool
  deriving DecidableEq

inductive FkAction where
  | noAction
  | restrict
  | cascade
  | setNull
  | setDefault
  deriving DecidableEq

structure ForeignKeyDef where
  column : String
  refTable : String
  refColumn : String
  onDelete : FkAction
  onUpdate : FkAction
  deriving DecidableEq

structure IndexDef where
  name : String
  columns : List String
  unique : Bool
  partialWhere : Option String
  isExpression : Bool
  deriving DecidableEq

inductive TriggerTiming where
  | before
  | after
  | insteadOf
  deriving DecidableEq

inductive TriggerEvent where
  | insert
  | update
  | delete
  deriving DecidableEq

structure TriggerDef where
  name : String
  timing : TriggerTiming
  event : TriggerEvent
  table : String
  forEachRow : Bool
  condition : Option String
  body : String
  deriving DecidableEq

structure TableSchema where
  name : String
  columns : IndexMap String ColumnDef
  rowidColumn : Option String
  foreignKeys : List ForeignKeyDef
  indices : List IndexDef
  triggers : List TriggerDef
  uniqueGroups : List UniqueGroup
  tableChecks : List String
  fts5ContentColumn : Option String
  deriving DecidableEq

end Skvs
