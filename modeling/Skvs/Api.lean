import Skvs.Engine
import Skvs.Json

/-!
# The interface of the engine

What the addon exports for SQL: queries, whose parameters and rows are JSON, and transactions. A
request names a database, but COMMIT and ROLLBACK go by the id of the transaction alone.
-/

namespace Skvs

section Json

variable [Externals]

/-- The value of an object whose only field is `__blob__`. -/
def blobTag : List (String × JsonValue) → Option JsonValue
  | [(key, tagged)] => if key = "__blob__" then some tagged else none
  | _ => none

/-- A parameter as it comes in. A tagged object holds a blob in base64. -/
def Value.fromJson (base64Decode : String → Option (List UInt8)) : JsonValue → Option Value
  | .null => some .null
  | .bool b => some (.integer (if b then 1 else 0))
  | .number n =>
    match n.asI64 with
    | some i => some (.integer i)
    | none => some (.real n.asF64)
  | .string s => some (.text s)
  | .array items => some (.blob (utf8 (jsonToString (.array items))))
  | .object fields =>
    match blobTag fields with
    | some (.string b64) => (base64Decode b64).map .blob
    | some _ => none
    | none => some (.blob (utf8 (jsonToString (.object fields))))

/-- A cell as it goes out. -/
def Value.toJson : Value → JsonValue
  | .null => .null
  | .integer i => .number (.ofI64 i)
  | .real f =>
    match JsonNumber.fromF64 f with
    | some n => .number n
    | none => .null
  | .text s => .string s
  | .blob b => .string (base64Encode b)

def rowToJson (row : Row) : JsonValue :=
  .object (row.entries.foldl (fun map e => insertField e.1 e.2.toJson map) [])

end Json

structure QueryResponse where
  columns : List String
  rows : List JsonValue
  affectedRows : Option UInt64
  txId : Option UInt32

inductive Request where
  | query (sql : String) (params : List JsonValue) (txId : Option UInt32)
  | beginTransaction
  | commitTransaction (txId : UInt32)
  | rollbackTransaction (txId : UInt32)

inductive Reply where
  | response (r : QueryResponse)
  | txId (id : UInt32)
  | done

section

variable [Externals] (base64Decode : String → Option (List UInt8)) (fuel : Nat) (dbId : UInt32)

/-- A parameter that cannot be read is NULL. -/
def query (sql : String) (params : List JsonValue) (txId : Option UInt32) : Db QueryResponse := do
  let params := params.map fun v => (Value.fromJson base64Decode v).getD .null
  let result ← execute fuel dbId sql params txId
  return { columns := result.columns, rows := result.rows.map rowToJson
           affectedRows := result.affectedRows, txId := result.txId }

def Request.serve : Request → Db Reply
  | .query sql params txId => do return .response (← Skvs.query base64Decode fuel dbId sql params txId)
  | .beginTransaction => do return .txId (← begin dbId)
  | .commitTransaction txId => do
    commit txId
    return .done
  | .rollbackTransaction txId => do
    rollback txId
    return .done

end

end Skvs
