import Skvs.Proof.Placeholders

/-!
# Literals in place of placeholders

Replacing the placeholders of an expression by literals, in the order of the text, gives an expression
that evaluates to what the positional reading of the parameters says. An expression that evaluates
all its placeholders, one after the other, has that value whenever it reads the right parameters.
-/

namespace Skvs

/-! ### Substitution -/

section Bind

variable (sub : Nat → SqlValue)

/-- The branches of a CASE: each condition stands before its result. -/
def bindBranches : List (StateM Nat Expr) → List (StateM Nat Expr) →
    StateM Nat (List Expr × List Expr)
  | cond :: conds, res :: results => do
    let cond ← cond
    let res ← res
    let (conds, results) ← bindBranches conds results
    return (cond :: conds, res :: results)
  | _, _ => pure ([], [])

mutual

/-- Replace the placeholders of an expression by literals; the state is the number of the next
placeholder of the text. -/
def bindExpr : Expr → StateM Nat Expr
  | .identifier id => pure (.identifier id)
  | .compoundIdentifier parts => pure (.compoundIdentifier parts)
  | .value (.placeholder _) => fun k => (.value (sub k), k + 1)
  | .value v => pure (.value v)
  | .nested inner => do return .nested (← bindExpr inner)
  | .unaryOp op expr => do return .unaryOp op (← bindExpr expr)
  | .binaryOp left op right => do return .binaryOp (← bindExpr left) op (← bindExpr right)
  | .isNull inner => do return .isNull (← bindExpr inner)
  | .isNotNull inner => do return .isNotNull (← bindExpr inner)
  | .between expr negated low high => do
    return .between (← bindExpr expr) negated (← bindExpr low) (← bindExpr high)
  | .inList expr list negated => do
    return .inList (← bindExpr expr) (← (bindEach list).mapM id) negated
  | .like negated expr pattern => do return .like negated (← bindExpr expr) (← bindExpr pattern)
  | .iLike negated expr pattern => do return .iLike negated (← bindExpr expr) (← bindExpr pattern)
  | .case operand conditions results elseResult => do
    let operand ← bindOption operand
    let (conditions, results) ← bindBranches (bindEach conditions) (bindEach results)
    return .case operand conditions results (← bindOption elseResult)
  | .function name args distinct clausePlaceholders => do
    let args ← bindArgs args
    fun k => (.function name args distinct 0, k + clausePlaceholders)
  | .other text placeholders => fun k => (.other text 0, k + placeholders)

def bindEach : List Expr → List (StateM Nat Expr)
  | [] => []
  | e :: es => bindExpr e :: bindEach es

def bindOption : Option Expr → StateM Nat (Option Expr)
  | none => pure none
  | some e => do return some (← bindExpr e)

def bindArgs : List FunctionArg → StateM Nat (List FunctionArg)
  | [] => pure []
  | arg :: args => do return (← bindArg arg) :: (← bindArgs args)

def bindArg : FunctionArg → StateM Nat FunctionArg
  | .unnamed arg => do return .unnamed (← bindArgExpr arg)
  | .named name arg => do return .named name (← bindArgExpr arg)

def bindArgExpr : FunctionArgExpr → StateM Nat FunctionArgExpr
  | .expr e => do return .expr (← bindExpr e)
  | .qualifiedWildcard => pure .qualifiedWildcard
  | .wildcard => pure .wildcard

end

end Bind

/-! ### The expressions looked at -/

section BuiltFrom

variable (operators : BinaryOperator → Bool) (functions : String → Bool)

mutual

/-- Whether an expression is made of columns, literals, placeholders and comparisons, with these
binary operators and these functions; it has no CASE and no IN. -/
def Expr.builtFrom : Expr → Bool
  | .identifier _ | .compoundIdentifier _ | .value _ => true
  | .nested inner | .unaryOp _ inner | .isNull inner | .isNotNull inner => inner.builtFrom
  | .binaryOp left op right => operators op && left.builtFrom && right.builtFrom
  | .between expr _ low high => expr.builtFrom && low.builtFrom && high.builtFrom
  | .like _ expr pattern | .iLike _ expr pattern => expr.builtFrom && pattern.builtFrom
  | .function name args _ clausePlaceholders =>
    functions name && clausePlaceholders == 0 && argsBuiltFrom args
  | .inList .. | .case .. | .other .. => false

def argsBuiltFrom : List FunctionArg → Bool
  | [] => true
  | arg :: args => argBuiltFrom arg && argsBuiltFrom args

def argBuiltFrom : FunctionArg → Bool
  | .unnamed arg => argExprBuiltFrom arg
  | .named _ arg => argExprBuiltFrom arg

def argExprBuiltFrom : FunctionArgExpr → Bool
  | .expr e => e.builtFrom
  | .qualifiedWildcard => true
  | .wildcard => true

end

end BuiltFrom

/-- The operators that evaluate both sides always. -/
def BinaryOperator.isStrict : BinaryOperator → Bool
  | .and | .or => false
  | _ => true

/-! ### The binary operators -/

/-- A binary operator on the values of both sides. -/
def operatorValue (op : BinaryOperator) (l r : Value) : Value :=
  match op with
  | .and => boolVal (truthy l && truthy r)
  | .or => boolVal (truthy l || truthy r)
  | op => applyBinary op l r

theorem evalBinaryOp_and (left right : Eval) (i : Nat) :
    evalBinaryOp left .and right i = if truthy (left i).1 then
      (boolVal (truthy (right (left i).2).1), (right (left i).2).2)
    else (boolVal false, (left i).2) := by
  change (if !truthy (left i).1 then pure (boolVal false) else (do
    let r ← right
    return boolVal (truthy r)) : Eval) (left i).2 = _
  cases truthy (left i).1 <;> rfl

theorem evalBinaryOp_or (left right : Eval) (i : Nat) :
    evalBinaryOp left .or right i =
      (boolVal (truthy (left i).1 || truthy (right (left i).2).1), (right (left i).2).2) := by
  change (if truthy (left i).1 then pure (boolVal true)
    else pure (boolVal (truthy (right (left i).2).1)) : Eval) (right (left i).2).2 = _
  cases truthy (left i).1 <;> rfl

theorem evalBinaryOp_strict {op : BinaryOperator} (h : op.isStrict) (left right : Eval) (i : Nat) :
    evalBinaryOp left op right i =
      (operatorValue op (left i).1 (right (left i).2).1, (right (left i).2).2) := by
  cases op
  case and | or => exact nomatch h
  all_goals rfl

/-- Evaluations that read no parameter. -/
theorem evalBinaryOp_steady {left right : Eval} {l r : Value} (hl : ∀ i, left i = (l, i))
    (hr : ∀ i, right i = (r, i)) (op : BinaryOperator) (i : Nat) :
    evalBinaryOp left op right i = (operatorValue op l r, i) := by
  cases op
  case and =>
    rw [evalBinaryOp_and, hl, hr, operatorValue]
    cases truthy l <;> rfl
  case or => rw [evalBinaryOp_or, hl, hr, operatorValue]
  all_goals
    rw [evalBinaryOp_strict rfl, hl, hr]

/-! ### Positional values -/

section Positional

variable [Externals] (ctx : EvalCtx) (params : List Value) {operators : BinaryOperator → Bool}
  {functions : String → Bool}

mutual

/-- Such an expression has no placeholder where nothing looks. -/
theorem hidden_reading {e : Expr} (h : e.builtFrom operators functions) :
    (reading ctx params e).hidden = 0 := by
  match e with
  | .identifier _ | .compoundIdentifier _ => rfl
  | .value v => cases v <;> rfl
  | .nested inner | .unaryOp _ inner | .isNull inner | .isNotNull inner =>
    exact hidden_reading (e := inner) h
  | .binaryOp left op right =>
    simp only [Expr.builtFrom, Bool.and_eq_true] at h
    have hl := hidden_reading h.1.2
    have hr := hidden_reading h.2
    cases op <;> simp only [reading, Reading.and, Reading.map₂, hl, hr]
  | .between expr _ low high =>
    simp only [Expr.builtFrom, Bool.and_eq_true] at h
    simp only [reading, Reading.map₃, hidden_reading h.1.1, hidden_reading h.1.2,
      hidden_reading h.2]
  | .like _ expr pattern | .iLike _ expr pattern =>
    simp only [Expr.builtFrom, Bool.and_eq_true] at h
    simp only [reading, Reading.map₂, hidden_reading h.1, hidden_reading h.2]
  | .function _ args _ clausePlaceholders =>
    simp only [Expr.builtFrom, Bool.and_eq_true, beq_iff_eq] at h
    simp only [reading, Reading.apply, hidden_readingArgs h.2, h.1.2]

theorem hidden_readingArgs {args : List FunctionArg} (h : argsBuiltFrom operators functions args) :
    Reading.hiddenAll (readingArgs ctx params args) = 0 := by
  match args with
  | [] => rfl
  | arg :: args =>
    simp only [argsBuiltFrom, Bool.and_eq_true] at h
    rw [readingArgs, Reading.hiddenAll_cons, hidden_readingArg h.1, hidden_readingArgs h.2]

theorem hidden_readingArg {arg : FunctionArg} (h : argBuiltFrom operators functions arg) :
    (readingArg ctx params arg).hidden = 0 := by
  match arg with
  | .unnamed arg | .named _ arg =>
    exact hidden_readingArgExpr (show argExprBuiltFrom operators functions arg from h)

theorem hidden_readingArgExpr {arg : FunctionArgExpr}
    (h : argExprBuiltFrom operators functions arg) :
    (readingArgExpr ctx params arg).hidden = 0 := by
  match arg with
  | .expr e => exact hidden_reading (e := e) h
  | .qualifiedWildcard | .wildcard => rfl

end

theorem text_reading {e : Expr} (h : e.builtFrom operators functions) :
    (reading ctx params e).text = countPlaceholders e := by
  rw [Reading.text, hidden_reading ctx params h, (reading_spec ctx params e).2, Nat.add_zero]

theorem text_readingArg {arg : FunctionArg} (h : argBuiltFrom operators functions arg) :
    (readingArg ctx params arg).text = countArg arg := by
  rw [Reading.text, hidden_readingArg ctx params h, (readingArg_spec ctx params arg).2,
    Nat.add_zero]

theorem positionalEval_binaryOp {left : Expr} (h : left.builtFrom operators functions)
    (op : BinaryOperator) (right : Expr) (k : Nat) :
    positionalEval ctx params (.binaryOp left op right) k =
      operatorValue op (positionalEval ctx params left k)
        (positionalEval ctx params right (k + countPlaceholders left)) := by
  rw [← text_reading ctx params h]
  cases op <;> rfl

/-! ### The parameters that are read -/

/-- The `n` parameters from `i` on have the values of those from `k` on. -/
def SameParams (i k n : Nat) : Prop :=
  ∀ j < n, params.getD (i + j) .null = params.getD (k + j) .null

variable {params}

omit [Externals] in
theorem SameParams.split {i k n m : Nat} (h : SameParams params i k (n + m)) :
    SameParams params i k n ∧ SameParams params (i + n) (k + n) m := by
  refine ⟨fun j hj => h j (by omega), fun j hj => ?_⟩
  rw [Nat.add_assoc, Nat.add_assoc]
  exact h (n + j) (by omega)

mutual

/-- An expression that evaluates all its placeholders in turn has its positional value where the
parameters read are the right ones. -/
theorem eval_of_sameParams {e : Expr} (h : e.builtFrom BinaryOperator.isStrict functions)
    {i k : Nat} (hsame : SameParams params i k (countPlaceholders e)) :
    eval ctx params e i = (positionalEval ctx params e k, i + countPlaceholders e) := by
  match e with
  | .identifier _ | .compoundIdentifier _ => rfl
  | .value (.placeholder _) => exact Prod.ext (hsame 0 Nat.one_pos) rfl
  | .value (.number _) | .value (.singleQuotedString _) | .value (.doubleQuotedString _)
  | .value .null | .value (.boolean _) | .value .other => rfl
  | .nested inner => exact eval_of_sameParams (e := inner) h hsame
  | .unaryOp _ inner | .isNull inner | .isNotNull inner =>
    have hinner := eval_of_sameParams (e := inner) h hsame
    simp only [eval, bind, StateT.bind, hinner]
    rfl
  | .binaryOp left op right =>
    simp only [Expr.builtFrom, Bool.and_eq_true] at h
    obtain ⟨hl, hr⟩ := hsame.split
    have hleft := eval_of_sameParams h.1.2 hl
    have hright := eval_of_sameParams h.2 hr
    rw [eval, evalBinaryOp_strict h.1.1, hleft, hright, positionalEval_binaryOp ctx params h.1.2,
      countPlaceholders, Nat.add_assoc]
  | .between expr _ low high =>
    simp only [Expr.builtFrom, Bool.and_eq_true] at h
    obtain ⟨hel, hh⟩ := hsame.split
    obtain ⟨he, hl⟩ := hel.split
    have hexpr := eval_of_sameParams h.1.1 he
    have hlow := eval_of_sameParams h.1.2 hl
    have hhigh := eval_of_sameParams h.2 hh
    rw [← Nat.add_assoc, ← Nat.add_assoc] at hhigh
    simp only [eval, bind, StateT.bind, hexpr, hlow, hhigh]
    simp only [positionalEval, reading, Reading.map₃, text_reading ctx params h.1.1,
      text_reading ctx params h.1.2, countPlaceholders, Nat.add_assoc]
    rfl
  | .like _ expr pattern | .iLike _ expr pattern =>
    simp only [Expr.builtFrom, Bool.and_eq_true] at h
    obtain ⟨he, hp⟩ := hsame.split
    have hexpr := eval_of_sameParams h.1 he
    have hpattern := eval_of_sameParams h.2 hp
    simp only [eval, bind, StateT.bind, hexpr, hpattern]
    simp only [positionalEval, reading, Reading.map₂, text_reading ctx params h.1,
      countPlaceholders, Nat.add_assoc]
    rfl
  | .function name args _ _ =>
    simp only [Expr.builtFrom, Bool.and_eq_true] at h
    have hargs := evalArgs_of_sameParams h.2 hsame
    simp only [eval, bind, StateT.bind, hargs]
    rfl

theorem evalArgs_of_sameParams {args : List FunctionArg}
    (h : argsBuiltFrom BinaryOperator.isStrict functions args) {i k : Nat}
    (hsame : SameParams params i k (countArgs args).sum) :
    collect (evalArgs ctx params args) i =
      (Reading.posEach (readingArgs ctx params args) k, i + (countArgs args).sum) := by
  match args with
  | [] => rfl
  | arg :: args =>
    simp only [argsBuiltFrom, Bool.and_eq_true] at h
    rw [countArgs, List.sum_cons] at hsame
    obtain ⟨harg, hargs⟩ := hsame.split
    have hfirst := evalArg_of_sameParams h.1 harg
    have hrest := evalArgs_of_sameParams h.2 hargs
    simp only [evalArgs, collect, bind, StateT.bind, hfirst, hrest]
    rw [readingArgs, Reading.posEach, text_readingArg ctx params h.1, countArgs, List.sum_cons,
      ← Nat.add_assoc]
    rfl

theorem evalArg_of_sameParams {arg : FunctionArg}
    (h : argBuiltFrom BinaryOperator.isStrict functions arg) {i k : Nat}
    (hsame : SameParams params i k (countArg arg)) :
    evalArg ctx params arg i = ((readingArg ctx params arg).pos k, i + countArg arg) := by
  match arg with
  | .unnamed arg | .named _ arg =>
    exact evalArgExpr_of_sameParams
      (show argExprBuiltFrom BinaryOperator.isStrict functions arg from h) hsame

theorem evalArgExpr_of_sameParams {arg : FunctionArgExpr}
    (h : argExprBuiltFrom BinaryOperator.isStrict functions arg) {i k : Nat}
    (hsame : SameParams params i k (countArgExpr arg)) :
    evalArgExpr ctx params arg i =
      ((readingArgExpr ctx params arg).pos k, i + countArgExpr arg) := by
  match arg with
  | .expr e => exact eval_of_sameParams (e := e) h hsame
  | .qualifiedWildcard | .wildcard => rfl

end

/-! ### The literals that are put in -/

/-- A literal that evaluates to `v`. -/
def IsLiteralOf (s : SqlValue) (v : Value) : Prop := ∀ params, evalLiteral s params = pure v

variable (params) in
/-- The `n` literals from the `k`-th on are those of the parameters. -/
def Literals (sub : Nat → SqlValue) (k n : Nat) : Prop :=
  ∀ j < n, IsLiteralOf (sub (k + j)) (params.getD (k + j) .null)

variable {sub : Nat → SqlValue}

omit [Externals] in
theorem Literals.split {k n m : Nat} (h : Literals params sub k (n + m)) :
    Literals params sub k n ∧ Literals params sub (k + n) m := by
  refine ⟨fun j hj => h j (by omega), fun j hj => ?_⟩
  rw [Nat.add_assoc]
  exact h (n + j) (by omega)

mutual

/-- With its placeholders replaced, an expression evaluates to its positional value, whatever the
parameters. -/
theorem eval_bindExpr {e : Expr} (h : e.builtFrom operators functions) {k : Nat}
    (hsub : Literals params sub k (countPlaceholders e)) :
    ∃ e', bindExpr sub e k = (e', k + countPlaceholders e) ∧
      ∀ params' i, eval ctx params' e' i = (positionalEval ctx params e k, i) := by
  match e with
  | .identifier _ | .compoundIdentifier _ => exact ⟨_, rfl, fun _ _ => rfl⟩
  | .value (.placeholder _) =>
    exact ⟨_, rfl, fun params' i => congrFun (hsub 0 Nat.one_pos params') i⟩
  | .value (.number _) | .value (.singleQuotedString _) | .value (.doubleQuotedString _)
  | .value .null | .value (.boolean _) | .value .other => exact ⟨_, rfl, fun _ _ => rfl⟩
  | .nested inner =>
    obtain ⟨inner', hbind, heval⟩ := eval_bindExpr (e := inner) h hsub
    refine ⟨.nested inner', ?_, heval⟩
    simp only [bindExpr, bind, StateT.bind, hbind]
    rfl
  | .unaryOp op inner =>
    obtain ⟨inner', hbind, heval⟩ := eval_bindExpr (e := inner) h hsub
    refine ⟨.unaryOp op inner', ?_, fun params' i => ?_⟩
    · simp only [bindExpr, bind, StateT.bind, hbind]
      rfl
    · simp only [eval, bind, StateT.bind, heval]
      rfl
  | .isNull inner =>
    obtain ⟨inner', hbind, heval⟩ := eval_bindExpr (e := inner) h hsub
    refine ⟨.isNull inner', ?_, fun params' i => ?_⟩
    · simp only [bindExpr, bind, StateT.bind, hbind]
      rfl
    · simp only [eval, bind, StateT.bind, heval]
      rfl
  | .isNotNull inner =>
    obtain ⟨inner', hbind, heval⟩ := eval_bindExpr (e := inner) h hsub
    refine ⟨.isNotNull inner', ?_, fun params' i => ?_⟩
    · simp only [bindExpr, bind, StateT.bind, hbind]
      rfl
    · simp only [eval, bind, StateT.bind, heval]
      rfl
  | .binaryOp left op right =>
    simp only [Expr.builtFrom, Bool.and_eq_true] at h
    obtain ⟨hl, hr⟩ := hsub.split
    obtain ⟨left', hleft, hevall⟩ := eval_bindExpr h.1.2 hl
    obtain ⟨right', hright, hevalr⟩ := eval_bindExpr h.2 hr
    refine ⟨.binaryOp left' op right', ?_, fun params' i => ?_⟩
    · simp only [bindExpr, bind, StateT.bind, hleft, hright, countPlaceholders, ← Nat.add_assoc]
      rfl
    · rw [positionalEval_binaryOp ctx params h.1.2, eval,
        evalBinaryOp_steady (hevall params') (hevalr params')]
  | .between expr negated low high =>
    simp only [Expr.builtFrom, Bool.and_eq_true] at h
    obtain ⟨hel, hh⟩ := hsub.split
    obtain ⟨he, hl⟩ := hel.split
    obtain ⟨expr', hexpr, hevale⟩ := eval_bindExpr h.1.1 he
    obtain ⟨low', hlow, hevall⟩ := eval_bindExpr h.1.2 hl
    obtain ⟨high', hhigh, hevalh⟩ := eval_bindExpr h.2 hh
    rw [← Nat.add_assoc] at hhigh
    refine ⟨.between expr' negated low' high', ?_, fun params' i => ?_⟩
    · simp only [bindExpr, bind, StateT.bind, hexpr, hlow, hhigh, countPlaceholders,
        ← Nat.add_assoc]
      rfl
    · simp only [eval, bind, StateT.bind, hevale, hevall, hevalh]
      simp only [positionalEval, reading, Reading.map₃, text_reading ctx params h.1.1,
        text_reading ctx params h.1.2, ← Nat.add_assoc]
      rfl
  | .like negated expr pattern =>
    simp only [Expr.builtFrom, Bool.and_eq_true] at h
    obtain ⟨he, hp⟩ := hsub.split
    obtain ⟨expr', hexpr, hevale⟩ := eval_bindExpr h.1 he
    obtain ⟨pattern', hpattern, hevalp⟩ := eval_bindExpr h.2 hp
    refine ⟨.like negated expr' pattern', ?_, fun params' i => ?_⟩
    · simp only [bindExpr, bind, StateT.bind, hexpr, hpattern, countPlaceholders, ← Nat.add_assoc]
      rfl
    · simp only [eval, bind, StateT.bind, hevale, hevalp]
      simp only [positionalEval, reading, Reading.map₂, text_reading ctx params h.1]
      rfl
  | .iLike negated expr pattern =>
    simp only [Expr.builtFrom, Bool.and_eq_true] at h
    obtain ⟨he, hp⟩ := hsub.split
    obtain ⟨expr', hexpr, hevale⟩ := eval_bindExpr h.1 he
    obtain ⟨pattern', hpattern, hevalp⟩ := eval_bindExpr h.2 hp
    refine ⟨.iLike negated expr' pattern', ?_, fun params' i => ?_⟩
    · simp only [bindExpr, bind, StateT.bind, hexpr, hpattern, countPlaceholders, ← Nat.add_assoc]
      rfl
    · simp only [eval, bind, StateT.bind, hevale, hevalp]
      simp only [positionalEval, reading, Reading.map₂, text_reading ctx params h.1]
      rfl
  | .function name args distinct clausePlaceholders =>
    simp only [Expr.builtFrom, Bool.and_eq_true, beq_iff_eq] at h
    obtain ⟨args', hbind, heval⟩ := collect_bindArgs h.2 hsub
    refine ⟨.function name args' distinct 0, ?_, fun params' i => ?_⟩
    · simp only [bindExpr, bind, StateT.bind, hbind, h.1.2]
      rfl
    · simp only [eval, bind, StateT.bind, heval]
      rfl

theorem collect_bindArgs {args : List FunctionArg} (h : argsBuiltFrom operators functions args)
    {k : Nat} (hsub : Literals params sub k (countArgs args).sum) :
    ∃ args', bindArgs sub args k = (args', k + (countArgs args).sum) ∧
      ∀ params' i, collect (evalArgs ctx params' args') i =
        (Reading.posEach (readingArgs ctx params args) k, i) := by
  match args with
  | [] => exact ⟨_, rfl, fun _ _ => rfl⟩
  | arg :: args =>
    simp only [argsBuiltFrom, Bool.and_eq_true] at h
    rw [countArgs, List.sum_cons] at hsub
    obtain ⟨harg, hargs⟩ := hsub.split
    obtain ⟨arg', hfirst, hevalf⟩ := eval_bindArg h.1 harg
    obtain ⟨args', hrest, hevalr⟩ := collect_bindArgs h.2 hargs
    refine ⟨arg' :: args', ?_, fun params' i => ?_⟩
    · simp only [bindArgs, bind, StateT.bind, hfirst, hrest, countArgs, List.sum_cons,
        ← Nat.add_assoc]
      rfl
    · rw [readingArgs, Reading.posEach, text_readingArg ctx params h.1]
      simp only [evalArgs, collect, bind, StateT.bind, hevalf, hevalr]
      rfl

theorem eval_bindArg {arg : FunctionArg} (h : argBuiltFrom operators functions arg) {k : Nat}
    (hsub : Literals params sub k (countArg arg)) :
    ∃ arg', bindArg sub arg k = (arg', k + countArg arg) ∧
      ∀ params' i, evalArg ctx params' arg' i = ((readingArg ctx params arg).pos k, i) := by
  match arg with
  | .unnamed arg =>
    have harg : argExprBuiltFrom operators functions arg := h
    obtain ⟨arg', hbind, heval⟩ := eval_bindArgExpr harg hsub
    refine ⟨.unnamed arg', ?_, heval⟩
    simp only [bindArg, bind, StateT.bind, hbind]
    rfl
  | .named name arg =>
    have harg : argExprBuiltFrom operators functions arg := h
    obtain ⟨arg', hbind, heval⟩ := eval_bindArgExpr harg hsub
    refine ⟨.named name arg', ?_, heval⟩
    simp only [bindArg, bind, StateT.bind, hbind]
    rfl

theorem eval_bindArgExpr {arg : FunctionArgExpr} (h : argExprBuiltFrom operators functions arg)
    {k : Nat} (hsub : Literals params sub k (countArgExpr arg)) :
    ∃ arg', bindArgExpr sub arg k = (arg', k + countArgExpr arg) ∧
      ∀ params' i, evalArgExpr ctx params' arg' i =
        ((readingArgExpr ctx params arg).pos k, i) := by
  match arg with
  | .expr e =>
    obtain ⟨e', hbind, heval⟩ := eval_bindExpr (e := e) h hsub
    refine ⟨.expr e', ?_, heval⟩
    simp only [bindArgExpr, bind, StateT.bind, hbind]
    rfl
  | .qualifiedWildcard | .wildcard => exact ⟨_, rfl, fun _ _ => rfl⟩

end

end Positional

/-- Number literals. -/
def numberLiterals (texts : List String) (k : Nat) : SqlValue := .number (texts.getD k "")

theorem literals_numbers (texts : List String) :
    Literals (texts.map parseNumber) (numberLiterals texts) 0 texts.length := by
  intro j hj params
  simp only [Nat.zero_add, numberLiterals, List.getD_eq_getElem?_getD, List.getElem?_map,
    List.getElem?_eq_getElem hj]
  rfl

end Skvs
