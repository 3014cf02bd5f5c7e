import Skvs.Externals
import Skvs.Error
import Skvs.Lib.Text

/-!
# The JSON functions
-/

namespace Skvs

namespace JsonNumber

def asI64 : JsonNumber → Option Int64
  | .posInt n => if n.toNat < 2 ^ 63 then some n.toInt64 else none
  | .negInt i => some i
  | .float _ => none

def asF64 : JsonNumber → F64
  | .posInt n => F64.ofInt n.toNat
  | .negInt i => F64.ofInt i.toInt
  | .float f => f

def ofI64 (i : Int64) : JsonNumber := if i < 0 then .negInt i else .posInt i.toUInt64

/-- A finite double as a number; NaN and the infinities have none. -/
def fromF64 (f : F64) : Option JsonNumber := f.toRat?.map fun _ => .float f

end JsonNumber

variable [Externals]

def utf8 (s : String) : List UInt8 := s.toUTF8.data.toList

def jsonValueToSkvs : JsonValue → Value
  | .null => .null
  | .bool b => .integer (if b then 1 else 0)
  | .number n =>
    match n.asI64 with
    | some i => .integer i
    | none => .real n.asF64
  | .string s => .text s
  | .array items => .blob (utf8 (jsonToString (.array items)))
  | .object fields => .blob (utf8 (jsonToString (.object fields)))

def skvsValueToJson : Value → JsonValue
  | .null => .null
  | .integer i => .number (.ofI64 i)
  | .real f =>
    match JsonNumber.fromF64 f with
    | some n => .number n
    | none => .null
  | .text s => .string s
  | .blob b =>
    match jsonFromSlice b with
    | some json => json
    | none => .string (base64Encode b)

/-- Insert a field into an object, whose fields are kept in key order. -/
def insertField (k : String) (v : JsonValue) : List (String × JsonValue) → List (String × JsonValue)
  | [] => [(k, v)]
  | e :: es =>
    match compare k e.1 with
    | .lt => (k, v) :: e :: es
    | .eq => (k, v) :: es
    | .gt => e :: insertField k v es

def parseJson (jsonStr : String) : Except SkvsError JsonValue :=
  match jsonFromStr jsonStr with
  | .ok v => .ok v
  | .error e => .error (.json s!"Invalid JSON: {e}")

/-- A path segment written `[n]`. -/
def isIndexPart (part : List Char) : Bool :=
  part.head? == some '[' && part.getLast? == some ']'

def parseIndexPart (part : List Char) : Except SkvsError Nat :=
  match Text.parseUsize (part.drop 1).dropLast with
  | some n => .ok n
  | none => .error (.json "Invalid array index")

/-- Follow a path; `none` where a segment leads nowhere. -/
def jsonFollow : List (List Char) → JsonValue → Except SkvsError (Option JsonValue)
  | [], current => .ok (some current)
  | part :: parts, current =>
    if isIndexPart part then do
      let idx ← parseIndexPart part
      match current with
      | .array items =>
        match items[idx]? with
        | some item => jsonFollow parts item
        | none => .ok none
      | _ => .ok none
    else
      match current with
      | .object fields =>
        match fields.lookup (String.ofList part) with
        | some v => jsonFollow parts v
        | none => .ok none
      | _ => .ok none

/-- Extract a value from a JSON string using a JSON path. -/
def jsonExtract (jsonStr path : String) : Except SkvsError Value := do
  let val ← parseJson jsonStr
  let path := (Text.stripPrefix ['$'] path.toList).getD path.toList
  let path := (Text.stripPrefix ['.'] path).getD path
  if path.isEmpty then
    return jsonValueToSkvs val
  match ← jsonFollow (Text.split '.' path) val with
  | some found => return jsonValueToSkvs found
  | none => return .null

def jsonArray (values : List Value) : Except SkvsError String :=
  .ok (jsonToString (.array (values.map skvsValueToJson)))

def jsonObject (keys : List String) (values : List Value) : Except SkvsError String :=
  if keys.length ≠ values.length then .error (.json "Keys and values length mismatch")
  else
    .ok (jsonToString (.object
      ((keys.zip values).foldl (fun obj kv => insertField kv.1 (skvsValueToJson kv.2) obj) [])))

/-- Rewrite the target of a path. A missing object on the way is created empty; the last segment
overwrites. -/
def jsonSetAt (newValue : JsonValue) : List (List Char) → JsonValue → Except SkvsError JsonValue
  | [], _ => .error (.json "Empty path")
  | [last], current =>
    if isIndexPart last then do
      let idx ← parseIndexPart last
      match current with
      | .array items =>
        if idx < items.length then return .array (items.set idx newValue)
        else throw (.json "Array index out of bounds")
      | _ => throw (.json "Target is not an array")
    else
      match current with
      | .object fields => .ok (.object (insertField (String.ofList last) newValue fields))
      | _ => .error (.json "Target is not an object")
  | part :: parts, current =>
    if isIndexPart part then do
      let idx ← parseIndexPart part
      match current with
      | .array items =>
        match items[idx]? with
        | some item => return .array (items.set idx (← jsonSetAt newValue parts item))
        | none => throw (.json "Array index out of bounds")
      | _ => throw (.json "Path not an array")
    else
      match current with
      | .object fields => do
        let key := String.ofList part
        let child ← jsonSetAt newValue parts ((fields.lookup key).getD (.object []))
        return .object (insertField key child fields)
      | _ => .error (.json "Path not an object")

def jsonSet (jsonStr path : String) (newValue : Value) : Except SkvsError String := do
  let val ← parseJson jsonStr
  let val ← jsonSetAt (skvsValueToJson newValue) (Text.split '.' path.toList) val
  return jsonToString val

end Skvs
