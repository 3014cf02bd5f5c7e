import Skvs.Json

/-!
# The scalar expression evaluator

`eval` reads its `?` placeholders off the parameter list through an index that it advances as it
goes. Integer negation, absolute value and remainder wrap, as in a build without overflow checks.
-/

namespace Skvs

/-- What an expression may need to resolve itself: the current row, if there is one. -/
structure EvalCtx where
  row : Option Row

def EvalCtx.withRow (row : Row) : EvalCtx := ⟨some row⟩

def EvalCtx.noRow : EvalCtx := ⟨none⟩

/-- SQLite-style truthiness: NULL and zero-ish values are false. -/
def truthy : Value → Bool
  | .null => false
  | .integer i => i ≠ 0
  | .real f => !f.isZero
  | .text s => !s.isEmpty
  | .blob b => !b.isEmpty

def boolVal (b : Bool) : Value := .integer (if b then 1 else 0)

theorem truthy_boolVal (b : Bool) : truthy (boolVal b) = b := by cases b <;> rfl

/-! ### Counting placeholders -/

mutual

/-- How many `?` placeholders an expression holds. -/
def countPlaceholders : Expr → Nat
  | .value (.placeholder _) => 1
  | .value _ => 0
  | .identifier _ | .compoundIdentifier _ => 0
  | .unaryOp _ expr => countPlaceholders expr
  | .nested inner => countPlaceholders inner
  | .binaryOp left _ right => countPlaceholders left + countPlaceholders right
  | .isNull inner | .isNotNull inner => countPlaceholders inner
  | .between expr _ low high =>
    countPlaceholders expr + countPlaceholders low + countPlaceholders high
  | .inList expr list _ => countPlaceholders expr + (countEach list).sum
  | .like _ expr pattern | .iLike _ expr pattern =>
    countPlaceholders expr + countPlaceholders pattern
  | .case operand conditions results elseResult =>
    countOption operand + (countEach conditions).sum + (countEach results).sum
      + countOption elseResult
  | .function _ args _ _ => (countArgs args).sum
  | .other _ _ => 0

def countEach : List Expr → List Nat
  | [] => []
  | e :: es => countPlaceholders e :: countEach es

def countOption : Option Expr → Nat
  | none => 0
  | some e => countPlaceholders e

def countArgs : List FunctionArg → List Nat
  | [] => []
  | arg :: args => countArg arg :: countArgs args

def countArg : FunctionArg → Nat
  | .unnamed arg => countArgExpr arg
  | .named _ arg => countArgExpr arg

def countArgExpr : FunctionArgExpr → Nat
  | .expr e => countPlaceholders e
  | .qualifiedWildcard => 0
  | .wildcard => 0

end

/-! ### Values -/

def lookupColumn (ctx : EvalCtx) (name : String) : Value :=
  (ctx.row.bind fun r => r.get name).getD .null

/-- A qualified name is looked up as it is written first, then by its last part. -/
def lookupCompound (ctx : EvalCtx) (parts : List Ident) : Value :=
  let full := ".".intercalate (parts.map Ident.value)
  match ctx.row.bind fun r => r.get full with
  | some val => val
  | none =>
    match parts.getLast? with
    | some p => lookupColumn ctx p.value
    | none => .null

def parseNumber (n : String) : Value :=
  match Text.parseI64 n with
  | some i => .integer i
  | none =>
    match F64.parse n with
    | some f => .real f
    | none => .null

def likeMatchChars (text : List Char) : List Char → Bool
  | [] => text.isEmpty
  | c :: pattern =>
    if c = '%' then text.tails.any fun rest => likeMatchChars rest pattern
    else
      match text with
      | [] => false
      | t :: rest => (c = '_' || t = c) && likeMatchChars rest pattern

def toF64 : Value → Option F64
  | .integer i => some (.ofInt i.toInt)
  | .real f => some f
  | _ => none

def toDisplayString : Value → String
  | .null => ""
  | .integer i => toString i
  | .real f => f.display
  | .text s => s
  | .blob b => s!"x'{Text.hexEncode b}'"

def i64MaxAsF64 : F64 := .ofInt Int64.maxValue.toInt

def f64AsI64 (f : F64) : Int64 :=
  .ofInt (f.toIntSat Int64.minValue.toInt Int64.maxValue.toInt)

def numericResult (f : F64) (preferInt : Bool) : Value :=
  if preferInt && f.fract.isZero && F64.partialCmp f.abs i64MaxAsF64 == some .lt then
    .integer (f64AsI64 f)
  else .real f

def arithmetic (l : Value) (op : BinaryOperator) (r : Value) : Value :=
  match toF64 l, toF64 r with
  | some lf, some rf =>
    let bothInt := l matches .integer _ && r matches .integer _
    match op with
    | .plus => numericResult (lf.add rf) bothInt
    | .minus => numericResult (lf.sub rf) bothInt
    | .multiply => numericResult (lf.mul rf) bothInt
    | .divide => if rf.isZero then .null else numericResult (lf.div rf) false
    | .modulo =>
      if rf.isZero then .null
      else
        match l, r with
        | .integer li, .integer ri => .integer (li % ri)
        | _, _ => .real (lf.rem rf)
    | _ => .null
  | _, _ => .null

def applyUnary (op : UnaryOperator) (inner : Value) : Value :=
  match op with
  | .minus =>
    match inner with
    | .integer i => .integer (-i)
    | .real f => .real f.neg
    | other => other
  | .plus => inner
  | .not => boolVal (!truthy inner)
  | .other => inner

/-- The binary operators other than AND and OR, on the values of both sides. -/
def applyBinary (op : BinaryOperator) (l r : Value) : Value :=
  match op with
  | .eq => boolVal (l.partialEq r)
  | .notEq => boolVal (!l.partialEq r)
  | .gt => boolVal (l.compare r == .gt)
  | .lt => boolVal (l.compare r == .lt)
  | .gtEq => boolVal (l.compare r != .lt)
  | .ltEq => boolVal (l.compare r != .gt)
  | .stringConcat => .text (toDisplayString l ++ toDisplayString r)
  | .plus | .minus | .multiply | .divide | .modulo => arithmetic l op r
  | .and | .or | .other => .null

def applyBetween (negated : Bool) (v lo hi : Value) : Value :=
  boolVal ((v.compare lo != .lt && v.compare hi != .gt) != negated)

section Functions

variable [Externals]

def sqlLikeMatch (text pattern : String) (caseInsensitiveHint : Bool) : Bool :=
  if caseInsensitiveHint then
    likeMatchChars (toLowercase text).toList (toLowercase pattern).toList
  else likeMatchChars text.toList pattern.toList

def applyLike (caseInsensitiveHint negated : Bool) (v p : Value) : Value :=
  let matched := match v, p with
    | .text s, .text pat => sqlLikeMatch s pat caseInsensitiveHint
    | _, _ => false
  boolVal (matched != negated)

def evalLiteral (v : SqlValue) (params : List Value) : StateM Nat Value :=
  match v with
  | .number n => pure (parseNumber n)
  | .singleQuotedString s | .doubleQuotedString s => pure (.text s)
  | .null => pure .null
  | .boolean b => pure (boolVal b)
  | .placeholder _ => fun paramIdx => (params.getD paramIdx .null, paramIdx + 1)
  | .other => pure .null

def pairUp : List Value → List (Value × Value)
  | k :: v :: rest => (k, v) :: pairUp rest
  | _ => []

def substr (chars : List Char) (args : List Value) : Value :=
  let n : Int := chars.length
  let arg (i : Nat) : Option Value := args[i]?
  let start : Int := match arg 1 with
    | some (.integer i) => i.toInt
    | _ => 1
  -- 1-based; negative counts from the end
  let startIdx : Nat := ((if 0 < start then start - 1 else max (n + start) 0) : Int).toNat
  let len : Nat := match arg 2 with
    | some (.integer i) => (max i.toInt 0).toNat
    | _ => chars.length - startIdx
  .text (String.ofList ((chars.drop startIdx).take len))

/-- A scalar function on its argument values; `name` is in lower case. -/
def applyFunction (name : String) (args : List Value) : Value :=
  let arg (i : Nat) : Option Value := args[i]?
  let first := arg 0
  let mapText (f : List Char → List Char) : Value := match first with
    | some (.text s) => .text (String.ofList (f s.toList))
    | other => other.getD .null
  match name with
  | "json_extract" =>
    match first with
    | some (.text jsonStr) =>
      let path := match arg 1 with
        | some (.text s) => s
        | _ => "$"
      (jsonExtract jsonStr path).toOption.getD .null
    | _ => .null
  | "json_array" => ((jsonArray args).toOption.map Value.text).getD .null
  | "json_object" =>
    let keys := (pairUp args).map fun kv => match kv.1 with
      | .text s => s
      | other => toDisplayString other
    ((jsonObject keys ((pairUp args).map Prod.snd)).toOption.map Value.text).getD .null
  | "json_set" =>
    match first, arg 1 with
    | some (.text jsonStr), some (.text path) =>
      ((jsonSet jsonStr path (args.getD 2 .null)).toOption.map Value.text).getD .null
    | _, _ => .null
  | "upper" => match first with
    | some (.text s) => .text (toUppercase s)
    | other => other.getD .null
  | "lower" => match first with
    | some (.text s) => .text (toLowercase s)
    | other => other.getD .null
  | "length" | "len" => match first with
    | some (.text s) => .integer (.ofNat s.toList.length)
    | some (.blob b) => .integer (.ofNat b.length)
    | _ => .null
  | "abs" => match first with
    | some (.integer i) => .integer i.abs
    | some (.real f) => .real f.abs
    | _ => .null
  | "round" =>
    let places : Int := match arg 1 with
      | some (.integer i) => i.toInt32.toInt
      | _ => 0
    match toF64 (first.getD .null) with
    | some f =>
      let mult := F64.powi (.fin 10) places
      .real ((f.mul mult).roundInt.div mult)
    | none => .null
  | "coalesce" => (args.find? fun v => !v.isNull).getD .null
  | "ifnull" =>
    let a := first.getD .null
    if a.isNull then args.getD 1 .null else a
  | "nullif" =>
    let a := first.getD .null
    if a.partialEq (args.getD 1 .null) then .null else a
  | "trim" => mapText Text.trim
  | "ltrim" => mapText Text.trimStart
  | "rtrim" => mapText Text.trimEnd
  | "substr" | "substring" => match first with
    | some (.text s) => substr s.toList args
    | _ => .null
  | "replace" => match first, arg 1, arg 2 with
    | some (.text s), some (.text pat), some (.text rep) => .text (Text.replace s pat rep)
    | _, _, _ => .null
  | "typeof" => .text (match first with
    | some .null | none => "null"
    | some (.integer _) => "integer"
    | some (.real _) => "real"
    | some (.text _) => "text"
    | some (.blob _) => "blob")
  | "hex" => match first with
    | some (.blob b) => .text (Text.hexEncode b)
    | some (.text s) => .text (Text.hexEncode (utf8 s))
    | _ => .null
  | _ => .null

end Functions

/-! ### Control flow

The loops below take the evaluations of the sub-expressions, so that `eval` recurses structurally. -/

abbrev Eval := StateM Nat Value

/-- Whether some item of an IN list equals `v`; the items after the first hit are not evaluated. -/
def anyEqual (v : Value) : List Eval → StateM Nat Bool
  | [] => pure false
  | item :: items => do
    if (← item).partialEq v then return true
    anyEqual v items

/-- Whether a CASE branch applies. The operand is evaluated afresh for every branch. -/
def caseMatches (operand : Option Eval) (cond : Eval) : StateM Nat Bool := do
  match operand with
  | some op =>
    let opv ← op
    let cv ← cond
    return opv.partialEq cv
  | none => return truthy (← cond)

def caseBranches (operand : Option Eval) (elseResult : Eval) : List Eval → List Eval → Eval
  | cond :: conds, res :: results => do
    if ← caseMatches operand cond then res
    else caseBranches operand elseResult conds results
  | _, _ => elseResult

def collect : List Eval → StateM Nat (List Value)
  | [] => pure []
  | item :: items => do
    let v ← item
    let vs ← collect items
    return v :: vs

/-- AND skips its right side when the left is false; OR evaluates both sides always. -/
def evalBinaryOp (left : Eval) (op : BinaryOperator) (right : Eval) : Eval :=
  match op with
  | .and => do
    let l ← left
    if !truthy l then return boolVal false
    let r ← right
    return boolVal (truthy r)
  | .or => do
    let l ← left
    let r ← right
    if truthy l then return boolVal true
    return boolVal (truthy r)
  | op => do
    let l ← left
    let r ← right
    return applyBinary op l r

section Eval

variable [Externals] (ctx : EvalCtx) (params : List Value)

mutual

def eval : Expr → Eval
  | .identifier id => pure (lookupColumn ctx id.value)
  | .compoundIdentifier parts => pure (lookupCompound ctx parts)
  | .value v => evalLiteral v params
  | .nested inner => eval inner
  | .unaryOp op expr => do
    let inner ← eval expr
    return applyUnary op inner
  | .binaryOp left op right => evalBinaryOp (eval left) op (eval right)
  | .isNull inner => do
    let v ← eval inner
    return boolVal v.isNull
  | .isNotNull inner => do
    let v ← eval inner
    return boolVal !v.isNull
  | .between expr negated low high => do
    let v ← eval expr
    let lo ← eval low
    let hi ← eval high
    return applyBetween negated v lo hi
  | .inList expr list negated => do
    let v ← eval expr
    let found ← anyEqual v (evalEach list)
    return boolVal (found != negated)
  | .like negated expr pattern => do
    let v ← eval expr
    let p ← eval pattern
    return applyLike false negated v p
  | .iLike negated expr pattern => do
    let v ← eval expr
    let p ← eval pattern
    return applyLike true negated v p
  | .case operand conditions results elseResult =>
    caseBranches (evalOption operand) ((evalOption elseResult).getD (pure .null))
      (evalEach conditions) (evalEach results)
  | .function name args _ _ => do
    let vs ← collect (evalArgs args)
    return applyFunction (toLowercase name) vs
  | .other _ _ => pure .null

def evalEach : List Expr → List Eval
  | [] => []
  | e :: es => eval e :: evalEach es

def evalOption : Option Expr → Option Eval
  | none => none
  | some e => some (eval e)

def evalArgs : List FunctionArg → List Eval
  | [] => []
  | arg :: args => evalArg arg :: evalArgs args

def evalArg : FunctionArg → Eval
  | .unnamed arg => evalArgExpr arg
  | .named _ arg => evalArgExpr arg

def evalArgExpr : FunctionArgExpr → Eval
  | .expr e => eval e
  | .qualifiedWildcard => pure .null
  | .wildcard => pure .null

end

end Eval

/-- The value of an expression whose parameters are read from the start of the list. -/
def evalFrom [Externals] (ctx : EvalCtx) (params : List Value) (e : Expr) (paramIdx : Nat) : Value :=
  (eval ctx params e paramIdx).1

end Skvs
