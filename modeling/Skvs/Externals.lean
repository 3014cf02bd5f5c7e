import Skvs.Ast
import Skvs.Schema
import Mathlib.Data.List.Perm.Basic

/-!
# What the engine takes from outside the repository

The SQL parser and printer, Unicode case mapping, the JSON reader and writer, base64, and the order
in which a hash map is iterated. Of the last only this is known: it visits every entry once.
-/

namespace Skvs

/-- A JSON number as the reader classifies it. -/
inductive JsonNumber where
  | posInt (n : UInt64)
  | negInt (i : Int64)
  | float (f : F64)
  deriving DecidableEq

inductive JsonValue where
  | null
  | bool (b : Bool)
  | number (n : JsonNumber)
  | string (s : String)
  | array (items : List JsonValue)
  | object (fields : List (String × JsonValue))

class Externals where
  /-- The statements of a text, or the parser's message. -/
  parseSql : String → Except String (List Statement)
  parseExpr : String → Except String Expr
  exprToString : Expr → String
  queryToString : Query → String
  toUppercase : String → String
  toLowercase : String → String
  /-- The debug form of a string: quoted and escaped. -/
  debugStr : String → String
  jsonFromStr : String → Except String JsonValue
  jsonFromSlice : List UInt8 → Option JsonValue
  jsonToString : JsonValue → String
  base64Encode : List UInt8 → String
  /-- The order in which a hash map yields its entries: one function of the list of entries for all
  maps, where in the source it depends also on the seed that each map draws for itself. -/
  hashOrder : {α : Type} → List α → List α
  hashOrder_perm : ∀ {α : Type} (l : List α), (hashOrder l).Perm l

export Externals (parseSql parseExpr exprToString queryToString toUppercase toLowercase debugStr
  jsonFromStr jsonFromSlice jsonToString base64Encode hashOrder hashOrder_perm)

/-- Surroundings that can read the given texts only, with ASCII case mapping, no JSON, and hash maps
that keep their insertion order. -/
@[reducible]
def Externals.ofTexts (sql : List (String × List Statement)) (exprs : List (String × Expr)) :
    Externals where
  parseSql text := (sql.lookup text).elim (.error "unknown text") .ok
  parseExpr text := (exprs.lookup text).elim (.error "unknown text") .ok
  exprToString
    | .identifier id => id.text
    | .other text _ => text
    | _ => ""
  queryToString _ := ""
  toUppercase s := String.ofList (s.toList.map Char.toUpper)
  toLowercase s := String.ofList (s.toList.map Char.toLower)
  debugStr s := s!"\"{s}\""
  jsonFromStr _ := .error "unknown text"
  jsonFromSlice _ := none
  jsonToString _ := ""
  base64Encode _ := ""
  hashOrder l := l
  hashOrder_perm l := .refl l

end Skvs
