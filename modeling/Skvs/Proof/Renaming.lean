import Skvs.Proof.ClauseBinding

/-!
# Other names for the columns of an expression

An expression looks at the row through the names in it, and at nothing else.
-/

namespace Skvs

/-- A name as it stands in an expression: on its own, or qualified. -/
inductive ColumnRef where
  | bare (id : Ident)
  | dotted (parts : List Ident)

namespace ColumnRef

def toExpr : ColumnRef → Expr
  | .bare id => .identifier id
  | .dotted parts => .compoundIdentifier parts

/-- What a name stands for. -/
def lookup (ctx : EvalCtx) : ColumnRef → Value
  | .bare id => lookupColumn ctx id.value
  | .dotted parts => lookupCompound ctx parts

theorem eval_toExpr [Externals] (ctx : EvalCtx) (params : List Value) (r : ColumnRef) :
    eval ctx params r.toExpr = pure (r.lookup ctx) := by
  cases r <;> rw [toExpr, eval, lookup]

end ColumnRef

mutual

/-- The names in an expression that are evaluated. -/
def Expr.references : Expr → List ColumnRef
  | .identifier id => [.bare id]
  | .compoundIdentifier parts => [.dotted parts]
  | .value _ => []
  | .nested inner | .unaryOp _ inner | .isNull inner | .isNotNull inner => inner.references
  | .binaryOp left _ right => left.references ++ right.references
  | .between expr _ low high => expr.references ++ (low.references ++ high.references)
  | .inList expr list _ => expr.references ++ referencesEach list
  | .like _ expr pattern | .iLike _ expr pattern => expr.references ++ pattern.references
  | .case operand conditions results elseResult =>
    referencesOption operand ++ (referencesEach conditions ++
      (referencesEach results ++ referencesOption elseResult))
  | .function _ args _ _ => referencesArgs args
  | .other _ _ => []

def referencesEach : List Expr → List ColumnRef
  | [] => []
  | e :: es => e.references ++ referencesEach es

def referencesOption : Option Expr → List ColumnRef
  | none => []
  | some e => e.references

def referencesArgs : List FunctionArg → List ColumnRef
  | [] => []
  | arg :: args => referencesArg arg ++ referencesArgs args

def referencesArg : FunctionArg → List ColumnRef
  | .unnamed arg => referencesArgExpr arg
  | .named _ arg => referencesArgExpr arg

def referencesArgExpr : FunctionArgExpr → List ColumnRef
  | .expr e => e.references
  | .qualifiedWildcard => []
  | .wildcard => []

end

section Rename

variable (f : ColumnRef → ColumnRef)

mutual

/-- Put other names in the place of those of an expression. -/
def Expr.rename : Expr → Expr
  | .identifier id => (f (.bare id)).toExpr
  | .compoundIdentifier parts => (f (.dotted parts)).toExpr
  | .value v => .value v
  | .nested inner => .nested inner.rename
  | .unaryOp op expr => .unaryOp op expr.rename
  | .binaryOp left op right => .binaryOp left.rename op right.rename
  | .isNull inner => .isNull inner.rename
  | .isNotNull inner => .isNotNull inner.rename
  | .between expr negated low high => .between expr.rename negated low.rename high.rename
  | .inList expr list negated => .inList expr.rename (renameEach list) negated
  | .like negated expr pattern => .like negated expr.rename pattern.rename
  | .iLike negated expr pattern => .iLike negated expr.rename pattern.rename
  | .case operand conditions results elseResult =>
    .case (renameOption operand) (renameEach conditions) (renameEach results)
      (renameOption elseResult)
  | .function name args distinct clausePlaceholders =>
    .function name (renameArgs args) distinct clausePlaceholders
  | .other text placeholders => .other text placeholders

def renameEach : List Expr → List Expr
  | [] => []
  | e :: es => e.rename :: renameEach es

def renameOption : Option Expr → Option Expr
  | none => none
  | some e => some e.rename

def renameArgs : List FunctionArg → List FunctionArg
  | [] => []
  | arg :: args => renameArg arg :: renameArgs args

def renameArg : FunctionArg → FunctionArg
  | .unnamed arg => .unnamed (renameArgExpr arg)
  | .named name arg => .named name (renameArgExpr arg)

def renameArgExpr : FunctionArgExpr → FunctionArgExpr
  | .expr e => .expr e.rename
  | .qualifiedWildcard => .qualifiedWildcard
  | .wildcard => .wildcard

end

end Rename

mutual

theorem Expr.rename_id (e : Expr) : e.rename id = e := by
  match e with
  | .identifier _ | .compoundIdentifier _ | .value _ | .other _ _ => rfl
  | .nested inner | .unaryOp _ inner | .isNull inner | .isNotNull inner =>
    rw [Expr.rename, Expr.rename_id inner]
  | .binaryOp left _ right => rw [Expr.rename, Expr.rename_id left, Expr.rename_id right]
  | .between expr _ low high =>
    rw [Expr.rename, Expr.rename_id expr, Expr.rename_id low, Expr.rename_id high]
  | .inList expr list _ => rw [Expr.rename, Expr.rename_id expr, renameEach_id list]
  | .like _ expr pattern | .iLike _ expr pattern =>
    rw [Expr.rename, Expr.rename_id expr, Expr.rename_id pattern]
  | .case operand conditions results elseResult =>
    rw [Expr.rename, renameOption_id operand, renameEach_id conditions, renameEach_id results,
      renameOption_id elseResult]
  | .function _ args _ _ => rw [Expr.rename, renameArgs_id args]

theorem renameEach_id (es : List Expr) : renameEach id es = es := by
  match es with
  | [] => rfl
  | e :: es => rw [renameEach, Expr.rename_id e, renameEach_id es]

theorem renameOption_id (e : Option Expr) : renameOption id e = e := by
  match e with
  | none => rfl
  | some e => rw [renameOption, Expr.rename_id e]

theorem renameArgs_id (args : List FunctionArg) : renameArgs id args = args := by
  match args with
  | [] => rfl
  | arg :: args => rw [renameArgs, renameArg_id arg, renameArgs_id args]

theorem renameArg_id (arg : FunctionArg) : renameArg id arg = arg := by
  match arg with
  | .unnamed arg | .named _ arg => rw [renameArg, renameArgExpr_id arg]

theorem renameArgExpr_id (arg : FunctionArgExpr) : renameArgExpr id arg = arg := by
  match arg with
  | .expr e => rw [renameArgExpr, Expr.rename_id e]
  | .qualifiedWildcard | .wildcard => rfl

end

/-! Renaming keeps the shape of an expression. -/

section Shape

variable {f : ColumnRef → ColumnRef} {e : Expr}

theorem ColumnRef.toExpr_cases (r : ColumnRef) :
    (∃ id, r.toExpr = .identifier id) ∨ ∃ parts, r.toExpr = .compoundIdentifier parts := by
  cases r with
  | bare id => exact Or.inl ⟨id, rfl⟩
  | dotted parts => exact Or.inr ⟨parts, rfl⟩

theorem Expr.rename_eq_binaryOp {l r : Expr} {op : BinaryOperator} (h : e.rename f = .binaryOp l op r) :
    ∃ l' r', e = .binaryOp l' op r' := by
  cases e with
  | binaryOp l' op' r' =>
      obtain ⟨-, rfl, -⟩ := Expr.binaryOp.inj h
      exact ⟨l', r', rfl⟩
  | identifier | compoundIdentifier =>
      rw [Expr.rename] at h
      rcases ColumnRef.toExpr_cases _ with ⟨_, hr⟩ | ⟨_, hr⟩ <;> exact nomatch hr.symm.trans h
  | _ => exact nomatch h

theorem Expr.rename_eq_unaryOp {inner : Expr} {op : UnaryOperator} (h : e.rename f = .unaryOp op inner) :
    ∃ inner', e = .unaryOp op inner' := by
  cases e with
  | unaryOp op' inner' =>
      obtain ⟨rfl, -⟩ := Expr.unaryOp.inj h
      exact ⟨inner', rfl⟩
  | identifier | compoundIdentifier =>
      rw [Expr.rename] at h
      rcases ColumnRef.toExpr_cases _ with ⟨_, hr⟩ | ⟨_, hr⟩ <;> exact nomatch hr.symm.trans h
  | _ => exact nomatch h

theorem Expr.rename_eq_nested {inner : Expr} (h : e.rename f = .nested inner) :
    ∃ inner', e = .nested inner' := by
  cases e with
  | nested inner' => exact ⟨inner', rfl⟩
  | identifier | compoundIdentifier =>
      rw [Expr.rename] at h
      rcases ColumnRef.toExpr_cases _ with ⟨_, hr⟩ | ⟨_, hr⟩ <;> exact nomatch hr.symm.trans h
  | _ => exact nomatch h

theorem Expr.rename_eq_function {name : String} {args : List FunctionArg} {distinct : Bool}
    {clausePlaceholders : Nat} (h : e.rename f = .function name args distinct clausePlaceholders) :
    ∃ args', e = .function name args' distinct clausePlaceholders := by
  cases e with
  | function name' args' distinct' clausePlaceholders' =>
      obtain ⟨rfl, -, rfl, rfl⟩ := Expr.function.inj h
      exact ⟨args', rfl⟩
  | identifier | compoundIdentifier =>
      rw [Expr.rename] at h
      rcases ColumnRef.toExpr_cases _ with ⟨_, hr⟩ | ⟨_, hr⟩ <;> exact nomatch hr.symm.trans h
  | _ => exact nomatch h

end Shape

/-! ### Evaluation -/

section Eval

variable [Externals] {ctx ctx' : EvalCtx} {f : ColumnRef → ColumnRef} (params : List Value)

/-- The new names stand in `ctx'` for what the old ones stand for in `ctx`. -/
def SameLookups (f : ColumnRef → ColumnRef) (ctx ctx' : EvalCtx) (refs : List ColumnRef) : Prop :=
  ∀ r ∈ refs, (f r).lookup ctx' = r.lookup ctx

omit [Externals] in
theorem sameLookups_append {refs refs' : List ColumnRef} :
    SameLookups f ctx ctx' (refs ++ refs') ↔
      SameLookups f ctx ctx' refs ∧ SameLookups f ctx ctx' refs' := List.forall_mem_append

mutual

theorem eval_rename (e : Expr) (h : SameLookups f ctx ctx' e.references) :
    eval ctx' params (e.rename f) = eval ctx params e := by
  match e with
  | .identifier id =>
    rw [Expr.rename, ColumnRef.eval_toExpr, h (.bare id) List.mem_cons_self, eval]
    rfl
  | .compoundIdentifier parts =>
    rw [Expr.rename, ColumnRef.eval_toExpr, h (.dotted parts) List.mem_cons_self, eval]
    rfl
  | .value v => simp only [Expr.rename, eval]
  | .nested inner | .unaryOp _ inner | .isNull inner | .isNotNull inner =>
    simp only [Expr.rename, eval, eval_rename inner h]
  | .binaryOp left _ right =>
    obtain ⟨hl, hr⟩ := sameLookups_append.mp h
    simp only [Expr.rename, eval, eval_rename left hl, eval_rename right hr]
  | .between expr _ low high =>
    obtain ⟨he, h⟩ := sameLookups_append.mp h
    obtain ⟨hl, hh⟩ := sameLookups_append.mp h
    simp only [Expr.rename, eval, eval_rename expr he, eval_rename low hl, eval_rename high hh]
  | .inList expr list _ =>
    obtain ⟨he, hl⟩ := sameLookups_append.mp h
    simp only [Expr.rename, eval, eval_rename expr he, evalEach_rename list hl]
  | .like _ expr pattern | .iLike _ expr pattern =>
    obtain ⟨he, hp⟩ := sameLookups_append.mp h
    simp only [Expr.rename, eval, eval_rename expr he, eval_rename pattern hp]
  | .case operand conditions results elseResult =>
    obtain ⟨ho, h⟩ := sameLookups_append.mp h
    obtain ⟨hc, h⟩ := sameLookups_append.mp h
    obtain ⟨hr, he⟩ := sameLookups_append.mp h
    simp only [Expr.rename, eval, evalOption_rename operand ho, evalEach_rename conditions hc,
      evalEach_rename results hr, evalOption_rename elseResult he]
  | .function _ args _ _ => simp only [Expr.rename, eval, evalArgs_rename args h]
  | .other _ _ => simp only [Expr.rename, eval]

theorem evalEach_rename (es : List Expr) (h : SameLookups f ctx ctx' (referencesEach es)) :
    evalEach ctx' params (renameEach f es) = evalEach ctx params es := by
  match es with
  | [] => rfl
  | e :: es =>
    obtain ⟨he, hes⟩ := sameLookups_append.mp h
    simp only [renameEach, evalEach, eval_rename e he, evalEach_rename es hes]

theorem evalOption_rename (e : Option Expr) (h : SameLookups f ctx ctx' (referencesOption e)) :
    evalOption ctx' params (renameOption f e) = evalOption ctx params e := by
  match e with
  | none => rfl
  | some e => simp only [renameOption, evalOption, eval_rename e h]

theorem evalArgs_rename (args : List FunctionArg)
    (h : SameLookups f ctx ctx' (referencesArgs args)) :
    evalArgs ctx' params (renameArgs f args) = evalArgs ctx params args := by
  match args with
  | [] => rfl
  | arg :: args =>
    obtain ⟨ha, has⟩ := sameLookups_append.mp h
    simp only [renameArgs, evalArgs, evalArg_rename arg ha, evalArgs_rename args has]

theorem evalArg_rename (arg : FunctionArg) (h : SameLookups f ctx ctx' (referencesArg arg)) :
    evalArg ctx' params (renameArg f arg) = evalArg ctx params arg := by
  match arg with
  | .unnamed arg | .named _ arg => simp only [renameArg, evalArg, evalArgExpr_rename arg h]

theorem evalArgExpr_rename (arg : FunctionArgExpr)
    (h : SameLookups f ctx ctx' (referencesArgExpr arg)) :
    evalArgExpr ctx' params (renameArgExpr f arg) = evalArgExpr ctx params arg := by
  match arg with
  | .expr e => simp only [renameArgExpr, evalArgExpr, eval_rename e h]
  | .qualifiedWildcard => rfl
  | .wildcard => rfl

end

end Eval

/-! ### Placeholders -/

section Placeholders

variable (f : ColumnRef → ColumnRef)

mutual

theorem countPlaceholders_rename (e : Expr) :
    countPlaceholders (e.rename f) = countPlaceholders e := by
  match e with
  | .identifier id =>
    rw [Expr.rename]
    cases f (.bare id) <;> rfl
  | .compoundIdentifier parts =>
    rw [Expr.rename]
    cases f (.dotted parts) <;> rfl
  | .value v => rw [Expr.rename]
  | .nested inner | .unaryOp _ inner | .isNull inner | .isNotNull inner =>
    simp only [Expr.rename, countPlaceholders, countPlaceholders_rename inner]
  | .binaryOp left _ right =>
    simp only [Expr.rename, countPlaceholders, countPlaceholders_rename left,
      countPlaceholders_rename right]
  | .between expr _ low high =>
    simp only [Expr.rename, countPlaceholders, countPlaceholders_rename expr,
      countPlaceholders_rename low, countPlaceholders_rename high]
  | .inList expr list _ =>
    simp only [Expr.rename, countPlaceholders, countPlaceholders_rename expr, countEach_rename list]
  | .like _ expr pattern | .iLike _ expr pattern =>
    simp only [Expr.rename, countPlaceholders, countPlaceholders_rename expr,
      countPlaceholders_rename pattern]
  | .case operand conditions results elseResult =>
    simp only [Expr.rename, countPlaceholders, countOption_rename operand,
      countEach_rename conditions, countEach_rename results, countOption_rename elseResult]
  | .function _ args _ _ => simp only [Expr.rename, countPlaceholders, countArgs_rename args]
  | .other _ _ => rw [Expr.rename]

theorem countEach_rename (es : List Expr) : countEach (renameEach f es) = countEach es := by
  match es with
  | [] => rfl
  | e :: es => simp only [renameEach, countEach, countPlaceholders_rename e, countEach_rename es]

theorem countOption_rename (e : Option Expr) : countOption (renameOption f e) = countOption e := by
  match e with
  | none => rfl
  | some e => simp only [renameOption, countOption, countPlaceholders_rename e]

theorem countArgs_rename (args : List FunctionArg) :
    countArgs (renameArgs f args) = countArgs args := by
  match args with
  | [] => rfl
  | arg :: args => simp only [renameArgs, countArgs, countArg_rename arg, countArgs_rename args]

theorem countArg_rename (arg : FunctionArg) : countArg (renameArg f arg) = countArg arg := by
  match arg with
  | .unnamed arg | .named _ arg => simp only [renameArg, countArg, countArgExpr_rename arg]

theorem countArgExpr_rename (arg : FunctionArgExpr) :
    countArgExpr (renameArgExpr f arg) = countArgExpr arg := by
  match arg with
  | .expr e => simp only [renameArgExpr, countArgExpr, countPlaceholders_rename e]
  | .qualifiedWildcard => rfl
  | .wildcard => rfl

end

end Placeholders

/-! ### WHERE -/

section Where

variable [Externals]

/-- What the `fts_match` calls of a WHERE clause take for the name of a table. -/
def Expr.matchedTables : Expr → List (Option FunctionArg)
  | .binaryOp left .and right | .binaryOp left .or right => left.matchedTables ++ right.matchedTables
  | .unaryOp .not inner | .nested inner => inner.matchedTables
  | .function name args _ _ =>
    if toLowercase name = "fts_match" ∧ args.length = 2 then [args.head?] else []
  | _ => []

variable {f : ColumnRef → ColumnRef}

omit [Externals] in
theorem head_renameArgs (args : List FunctionArg) :
    (renameArgs f args).head? = args.head?.map (renameArg f) := by
  cases args <;> rfl

omit [Externals] in
theorem tail_renameArgs (args : List FunctionArg) :
    (renameArgs f args).tail = renameArgs f args.tail := by
  cases args <;> rfl

omit [Externals] in
theorem length_renameArgs (args : List FunctionArg) : (renameArgs f args).length = args.length := by
  induction args with
  | nil => rfl
  | cons arg args ih => rw [renameArgs, List.length_cons, List.length_cons, ih]

omit [Externals] in
theorem ftsWords_rename (arg : Option FunctionArg) :
    ftsWords (arg.map (renameArg f)) = ftsWords arg := by
  match arg with
  | none => rfl
  | some (.named _ arg) => rfl
  | some (.unnamed .wildcard) => rfl
  | some (.unnamed .qualifiedWildcard) => rfl
  | some (.unnamed (.expr e)) =>
    cases e with
    | identifier id =>
        simp only [Option.map_some, renameArg, renameArgExpr, Expr.rename]
        cases f (.bare id) <;> rfl
    | compoundIdentifier parts =>
        simp only [Option.map_some, renameArg, renameArgExpr, Expr.rename]
        cases f (.dotted parts) <;> rfl
    | _ => rfl

omit [Externals] in
theorem ftsTable_rename (hdotted : ∀ parts, ∃ parts', f (.dotted parts) = .dotted parts')
    (arg : Option FunctionArg)
    (htable : ∀ id, arg = some (.unnamed (.expr (.identifier id))) → f (.bare id) = .bare id) :
    ftsTable (arg.map (renameArg f)) = ftsTable arg := by
  match arg with
  | none => rfl
  | some (.named _ arg) => rfl
  | some (.unnamed .wildcard) => rfl
  | some (.unnamed .qualifiedWildcard) => rfl
  | some (.unnamed (.expr e)) =>
    cases e with
    | identifier id =>
        simp only [Option.map_some, renameArg, renameArgExpr, Expr.rename, htable id rfl]
        rfl
    | compoundIdentifier parts =>
        obtain ⟨parts', hparts⟩ := hdotted parts
        simp only [Option.map_some, renameArg, renameArgExpr, Expr.rename, hparts]
        rfl
    | _ => rfl

variable {s s' : KvsState} {dbId : UInt32} {row row' : Row}
  (hfts : s'.ftsTables = s.ftsTables)
  (hdotted : ∀ parts, ∃ parts', f (.dotted parts) = .dotted parts')
include hfts hdotted

theorem ftsMatch_rename (hrowid : row'.get "_rowid_" = row.get "_rowid_") (args : List FunctionArg)
    (htable : ∀ id, args.head? = some (.unnamed (.expr (.identifier id))) → f (.bare id) = .bare id) :
    ftsMatch s' dbId row' (renameArgs f args) = ftsMatch s dbId row args := by
  rw [ftsMatch_eq, ftsMatch_eq, tail_renameArgs, head_renameArgs, head_renameArgs, ftsWords_rename,
    ftsTable_rename hdotted _ htable, hrowid]
  simp only [KvsState.getFtsTable, hfts]

/-- A WHERE clause with other names holds where the clause holds, if the names stand for the same
values. -/
theorem evaluateWhereCtx_rename (params : List Value) (e : Expr)
    (hlookups : SameLookups f (.withRow row) (.withRow row') e.references)
    (hmatched : ∀ arg ∈ e.matchedTables, row'.get "_rowid_" = row.get "_rowid_" ∧
      ∀ id, arg = some (.unnamed (.expr (.identifier id))) → f (.bare id) = .bare id) :
    evaluateWhereCtx s' dbId row' params (e.rename f) = evaluateWhereCtx s dbId row params e := by
  induction e using evaluateWhereCtx.induct with
  | case1 left right ihl ihr =>
      obtain ⟨hl, hr⟩ := sameLookups_append.mp hlookups
      rw [Expr.matchedTables, List.forall_mem_append] at hmatched
      simp only [Expr.rename, evaluateWhereCtx, ihl hl hmatched.1, ihr hr hmatched.2]
  | case2 left right ihl ihr =>
      obtain ⟨hl, hr⟩ := sameLookups_append.mp hlookups
      rw [Expr.matchedTables, List.forall_mem_append] at hmatched
      simp only [Expr.rename, evaluateWhereCtx, ihl hl hmatched.1, ihr hr hmatched.2]
  | case3 inner ih =>
      simp only [Expr.rename, evaluateWhereCtx, ih hlookups hmatched]
  | case4 inner ih =>
      simp only [Expr.rename, evaluateWhereCtx, ih hlookups hmatched]
  | case5 name args distinct clausePlaceholders hcond =>
      rw [Expr.matchedTables, if_pos hcond, List.forall_mem_singleton] at hmatched
      simp only [Expr.rename, evaluateWhereCtx, length_renameArgs, if_pos hcond,
        ftsMatch_rename hfts hdotted hmatched.1 args hmatched.2]
  | case6 name args distinct clausePlaceholders hcond =>
      have heval := eval_rename params _ hlookups
      rw [Expr.rename] at heval
      simp only [Expr.rename, evaluateWhereCtx, length_renameArgs, if_neg hcond, heval]
  | case7 e hand hor hnot hnested hfun =>
      rw [evaluateWhereCtx, evaluateWhereCtx, eval_rename params e hlookups]
      · assumption
      · assumption
      · assumption
      · assumption
      · assumption
      · intro left right heq
        obtain ⟨left', right', rfl⟩ := Expr.rename_eq_binaryOp heq
        exact hand left' right' rfl
      · intro left right heq
        obtain ⟨left', right', rfl⟩ := Expr.rename_eq_binaryOp heq
        exact hor left' right' rfl
      · intro inner heq
        obtain ⟨inner', rfl⟩ := Expr.rename_eq_unaryOp heq
        exact hnot inner' rfl
      · intro inner heq
        obtain ⟨inner', rfl⟩ := Expr.rename_eq_nested heq
        exact hnested inner' rfl
      · intro name args distinct clausePlaceholders heq
        obtain ⟨args', rfl⟩ := Expr.rename_eq_function heq
        exact hfun name args' distinct clausePlaceholders rfl

end Where

end Skvs
