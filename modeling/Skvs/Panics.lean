import Skvs.Expr
import Skvs.Lib.Announced

/-!
# Where the evaluator may panic

Some operations of the evaluator are not defined on all operands. Here each of them is announced,
with its operands, before `eval` takes its value, so that a run can panic on it.
-/

namespace Skvs

/-- An operation that panics on some operands. -/
inductive PartialOp where
  | neg (i : Int64)
  | abs (i : Int64)
  | rem (i j : Int64)
  /-- `xs[start..stop]`, of `len` elements. -/
  | slice (start stop len : Nat)
  /-- `s[start..stop]`, whose ends are counted in bytes. -/
  | strSlice (s : List Char) (start stop : Nat)
  | index (idx len : Nat)
  | unwrap (isSome : Bool)
  deriving DecidableEq

/-- Negation and absolute value panic only in a build that checks for overflow. -/
def PartialOp.panics (overflowChecks : Bool) : PartialOp → Bool
  | .neg i | .abs i => overflowChecks && i == Int64.minValue
  | .rem i j => j == 0 || (i == Int64.minValue && j == -1)
  | .slice start stop len => stop < start || len < stop
  | .strSlice s start stop => (Text.slice s start stop).isNone
  | .index idx len => len ≤ idx
  | .unwrap isSome => !isSome

/-! ### The operations of each function -/

def unaryOps (op : UnaryOperator) (inner : Value) : List PartialOp :=
  match op, inner with
  | .minus, .integer i => [.neg i]
  | _, _ => []

/-- Remainder tests its right side as a double. -/
def binaryOps (op : BinaryOperator) (l r : Value) : List PartialOp :=
  match op, l, r with
  | .modulo, .integer li, .integer ri => if (F64.ofInt ri.toInt).isZero then [] else [.rem li ri]
  | _, _, _ => []

def substrOps (chars : List Char) (args : List Value) : List PartialOp :=
  let n := chars.length
  let arg (i : Nat) : Option Value := args[i]?
  let start : Int := match arg 1 with
    | some (.integer i) => i.toInt
    | _ => 1
  let startIdx : Nat := ((if 0 < start then start - 1 else max ((n : Int) + start) 0) : Int).toNat
  let len : Nat := match arg 2 with
    | some (.integer i) => (max i.toInt 0).toNat
    | _ => n - startIdx
  let stop := min (startIdx + len) n
  if n ≤ startIdx then [] else [.slice startIdx stop n]

/-- `part[1..part.len() - 1]`. -/
def indexPartSlice (part : List Char) : PartialOp := .strSlice part 1 (Text.byteLength part - 1)

def jsonFollowOps : List (List Char) → JsonValue → List PartialOp
  | [], _ => []
  | part :: parts, current =>
    if isIndexPart part then
      indexPartSlice part ::
        match parseIndexPart part, current with
        | .ok idx, .array items =>
          match items[idx]? with
          | some item => .index idx items.length :: jsonFollowOps parts item
          | none => []
        | _, _ => []
    else
      match current with
      | .object fields =>
        match fields.lookup (String.ofList part) with
        | some v => jsonFollowOps parts v
        | none => []
      | _ => []

def jsonSetAtOps : List (List Char) → JsonValue → List PartialOp
  | [], _ => []
  | [last], current =>
    if isIndexPart last then
      indexPartSlice last ::
        match parseIndexPart last, current with
        | .ok idx, .array items => if idx < items.length then [.index idx items.length] else []
        | _, _ => []
    else []
  | part :: parts, current =>
    if isIndexPart part then
      indexPartSlice part ::
        match parseIndexPart part, current with
        | .ok idx, .array items =>
          match items[idx]? with
          | some item => .index idx items.length :: jsonSetAtOps parts item
          | none => []
        | _, _ => []
    else
      match current with
      | .object fields =>
        let key := String.ofList part
        let fields :=
          if (fields.lookup key).isSome then fields else insertField key (.object []) fields
        .unwrap (fields.lookup key).isSome ::
          jsonSetAtOps parts ((fields.lookup key).getD (.object []))
      | _ => []

section Functions

variable [Externals]

def jsonExtractOps (jsonStr path : String) : List PartialOp :=
  match parseJson jsonStr with
  | .error _ => []
  | .ok val =>
    let path := (Text.stripPrefix ['$'] path.toList).getD path.toList
    let path := (Text.stripPrefix ['.'] path).getD path
    if path.isEmpty then [] else jsonFollowOps (Text.split '.' path) val

/-- The parts before the last one are a slice as well. -/
def jsonSetOps (jsonStr path : String) : List PartialOp :=
  match parseJson jsonStr with
  | .error _ => []
  | .ok val =>
    let parts := Text.split '.' path.toList
    .slice 0 (parts.length - 1) parts.length :: jsonSetAtOps parts val

def functionOps (name : String) (args : List Value) : List PartialOp :=
  let arg (i : Nat) : Option Value := args[i]?
  match name with
  | "json_extract" =>
    match arg 0 with
    | some (.text jsonStr) =>
      let path := match arg 1 with
        | some (.text s) => s
        | _ => "$"
      jsonExtractOps jsonStr path
    | _ => []
  | "json_set" =>
    match arg 0, arg 1 with
    | some (.text jsonStr), some (.text path) => jsonSetOps jsonStr path
    | _, _ => []
  | "abs" => match arg 0 with
    | some (.integer i) => [.abs i]
    | _ => []
  | "substr" | "substring" => match arg 0 with
    | some (.text s) => substrOps s.toList args
    | _ => []
  | _ => []

end Functions

/-! ### The evaluator

The definitions below are `eval` and its loops in a monad `m` that takes note of the operations. -/

section Evaluator

variable {m : Type → Type} [Monad m] (perform : List PartialOp → m Unit)

abbrev EvalIn (m : Type → Type) := StateT Nat m Value

def announce (ops : List PartialOp) : StateT Nat m Unit := StateT.lift (perform ops)

def anyEqualIn (v : Value) : List (EvalIn m) → StateT Nat m Bool
  | [] => pure false
  | item :: items => do
    if (← item).partialEq v then return true
    anyEqualIn v items

def caseMatchesIn (operand : Option (EvalIn m)) (cond : EvalIn m) : StateT Nat m Bool := do
  match operand with
  | some op =>
    let opv ← op
    let cv ← cond
    return opv.partialEq cv
  | none => return truthy (← cond)

def caseBranchesIn (operand : Option (EvalIn m)) (elseResult : EvalIn m) :
    List (EvalIn m) → List (EvalIn m) → EvalIn m
  | cond :: conds, res :: results => do
    if ← caseMatchesIn operand cond then res
    else caseBranchesIn operand elseResult conds results
  | _, _ => elseResult

def collectIn : List (EvalIn m) → StateT Nat m (List Value)
  | [] => pure []
  | item :: items => do
    let v ← item
    let vs ← collectIn items
    return v :: vs

def evalBinaryOpIn (left : EvalIn m) (op : BinaryOperator) (right : EvalIn m) : EvalIn m :=
  match op with
  | .and => do
    let l ← left
    if !truthy l then return boolVal false
    let r ← right
    return boolVal (truthy r)
  | .or => do
    let l ← left
    let r ← right
    if truthy l then return boolVal true
    return boolVal (truthy r)
  | op => do
    let l ← left
    let r ← right
    announce perform (binaryOps op l r)
    return applyBinary op l r

variable [Externals] (ctx : EvalCtx) (params : List Value)

mutual

def evalIn : Expr → EvalIn m
  | .identifier id => pure (lookupColumn ctx id.value)
  | .compoundIdentifier parts => pure (lookupCompound ctx parts)
  | .value v => fun paramIdx => pure (evalLiteral v params paramIdx)
  | .nested inner => evalIn inner
  | .unaryOp op expr => do
    let inner ← evalIn expr
    announce perform (unaryOps op inner)
    return applyUnary op inner
  | .binaryOp left op right => evalBinaryOpIn perform (evalIn left) op (evalIn right)
  | .isNull inner => do
    let v ← evalIn inner
    return boolVal v.isNull
  | .isNotNull inner => do
    let v ← evalIn inner
    return boolVal !v.isNull
  | .between expr negated low high => do
    let v ← evalIn expr
    let lo ← evalIn low
    let hi ← evalIn high
    return applyBetween negated v lo hi
  | .inList expr list negated => do
    let v ← evalIn expr
    let found ← anyEqualIn v (evalEachIn list)
    return boolVal (found != negated)
  | .like negated expr pattern => do
    let v ← evalIn expr
    let p ← evalIn pattern
    return applyLike false negated v p
  | .iLike negated expr pattern => do
    let v ← evalIn expr
    let p ← evalIn pattern
    return applyLike true negated v p
  | .case operand conditions results elseResult =>
    caseBranchesIn (evalOptionIn operand) ((evalOptionIn elseResult).getD (pure .null))
      (evalEachIn conditions) (evalEachIn results)
  | .function name args _ _ => do
    let vs ← collectIn (evalArgsIn args)
    announce perform (functionOps (toLowercase name) vs)
    return applyFunction (toLowercase name) vs
  | .other _ _ => pure .null

def evalEachIn : List Expr → List (EvalIn m)
  | [] => []
  | e :: es => evalIn e :: evalEachIn es

def evalOptionIn : Option Expr → Option (EvalIn m)
  | none => none
  | some e => some (evalIn e)

def evalArgsIn : List FunctionArg → List (EvalIn m)
  | [] => []
  | arg :: args => evalArgIn arg :: evalArgsIn args

def evalArgIn : FunctionArg → EvalIn m
  | .unnamed arg => evalArgExprIn arg
  | .named _ arg => evalArgExprIn arg

def evalArgExprIn : FunctionArgExpr → EvalIn m
  | .expr e => evalIn e
  | .qualifiedWildcard => pure .null
  | .wildcard => pure .null

end

/-- The run of a build with or without overflow checks: it panics at the first operation that does. -/
def evalOrPanic (overflowChecks : Bool) (e : Expr) (paramIdx : Nat) : Except Fail (Value × Nat) :=
  evalIn (Announced.attempt (PartialOp.panics overflowChecks) Fail.panic) ctx params e paramIdx

/-- The operations that the evaluation of an expression comes to, with their operands. -/
def operations (e : Expr) (paramIdx : Nat) : List PartialOp :=
  (evalIn Announced.record ctx params e paramIdx []).2

end Evaluator

end Skvs
