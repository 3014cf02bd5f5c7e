import Skvs.Proof.FastPath
import Skvs.Proof.Substitution

/-!
# Clauses with literals in place of placeholders

What the index lookups, the WHERE evaluator and the full-text search make of an expression is what
they make of it with literals for its placeholders, where the parameters at the start of the list are
those at its own place.
-/

namespace Skvs

variable [Externals]

/-- An expression that begins at the `o`-th placeholder of the text and evaluates all its
placeholders. -/
structure Placed (params : List Value) (sub : Nat → SqlValue) (o : Nat) (e : Expr) : Prop where
  shape : e.builtFrom BinaryOperator.isStrict fun _ => true
  literals : Literals params sub o (countPlaceholders e)

/-- It finds the same parameters at the start of the list as at its own place. -/
structure Binds (params : List Value) (sub : Nat → SqlValue) (o : Nat) (e : Expr) : Prop
    extends Placed params sub o e where
  start : SameParams params 0 o (countPlaceholders e)

section Expressions

variable {params : List Value} {sub : Nat → SqlValue} {o : Nat} {e : Expr}

theorem Placed.next (h : Placed params sub o e) : (bindExpr sub e o).2 = o + countPlaceholders e := by
  obtain ⟨e', hbind, -⟩ := eval_bindExpr .noRow h.shape h.literals
  rw [hbind]

theorem Binds.value (h : Binds params sub o e) (ctx : EvalCtx) :
    evalFrom ctx params (bindExpr sub e o).1 0 = evalFrom ctx params e 0 := by
  obtain ⟨e', hbind, heval⟩ := eval_bindExpr ctx h.shape h.literals
  rw [evalFrom, evalFrom, hbind, heval, eval_of_sameParams ctx h.shape h.start]

omit [Externals] in
theorem isColumnRef_bindExpr (sub : Nat → SqlValue) (e : Expr) (o : Nat) :
    (bindExpr sub e o).1.isColumnRef = e.isColumnRef := by
  match e with
  | .value v => cases v <;> rfl
  | .identifier _ | .compoundIdentifier _ | .nested _ | .unaryOp .. | .binaryOp .. | .isNull _
  | .isNotNull _ | .between .. | .inList .. | .like .. | .iLike .. | .case .. | .function ..
  | .other .. => rfl

omit [Externals] in
theorem bindExpr_columnRef (sub : Nat → SqlValue) {e : Expr} (h : e.isColumnRef) (o : Nat) :
    bindExpr sub e o = (e, o) ∧ countPlaceholders e = 0 := by
  match e, h with
  | .identifier _, _ | .compoundIdentifier _, _ => exact ⟨rfl, rfl⟩

omit [Externals] in
theorem columnRef_cases {e : Expr} (h : e.isColumnRef) :
    (∃ id, e = .identifier id) ∨ ∃ parts, e = .compoundIdentifier parts := by
  match e, h with
  | .identifier id, _ => exact .inl ⟨id, rfl⟩
  | .compoundIdentifier parts, _ => exact .inr ⟨parts, rfl⟩

omit [Externals] in
theorem columnAndOther_eq_none {left right : Expr} (hl : left.isColumnRef = false)
    (hr : right.isColumnRef = false) : columnAndOther left right = none := by
  unfold columnAndOther
  split
  · exact nomatch hl
  · exact nomatch hr
  · rfl

omit [Externals] in
theorem columnAndOther_compound {parts : List Ident} {other : Expr}
    (h : other.isColumnRef = false) :
    columnAndOther (.compoundIdentifier parts) other = none ∧
      columnAndOther other (.compoundIdentifier parts) = none := by
  constructor
  · unfold columnAndOther
    split
    · next heq => exact nomatch heq
    · exact nomatch h
    · rfl
  · unfold columnAndOther
    split
    · exact nomatch h
    · next heq => exact nomatch heq
    · rfl

omit [Externals] in
theorem columnAndOther_identifier (id : Ident) {other : Expr} (h : other.isColumnRef = false) :
    columnAndOther other (.identifier id) = some (id.value, other, true) := by
  unfold columnAndOther
  split
  · exact nomatch h
  · next heq =>
      cases heq
      exact if_neg (by rw [h]; exact Bool.false_ne_true)
  · next hne => exact absurd rfl (hne _)

omit [Externals] in
/-- What stands beside the column begins where the comparison does. -/
theorem columnAndOther_bindExpr (sub : Nat → SqlValue) (left right : Expr) (o : Nat) :
    columnAndOther (bindExpr sub left o).1
        (bindExpr sub right (o + countPlaceholders left)).1 =
      (columnAndOther left right).map fun c => (c.1, (bindExpr sub c.2.1 o).1, c.2.2) := by
  have hsame := isColumnRef_bindExpr sub
  cases hl : left.isColumnRef <;> cases hr : right.isColumnRef
  · rw [columnAndOther_eq_none hl hr, columnAndOther_eq_none ((hsame left o).trans hl)
      ((hsame right _).trans hr), Option.map_none]
  · rw [(bindExpr_columnRef sub hr _).1]
    obtain ⟨id, rfl⟩ | ⟨parts, rfl⟩ := columnRef_cases hr
    · rw [columnAndOther_identifier id hl,
        columnAndOther_identifier id ((hsame left o).trans hl), Option.map_some]
    · rw [(columnAndOther_compound hl).2,
        (columnAndOther_compound ((hsame left o).trans hl)).2, Option.map_none]
  · obtain ⟨hbind, hcount⟩ := bindExpr_columnRef sub hl o
    rw [hbind, hcount, Nat.add_zero]
    obtain ⟨id, rfl⟩ | ⟨parts, rfl⟩ := columnRef_cases hl
    · simp [columnAndOther, hsame, hr]
    · rw [(columnAndOther_compound hr).1,
        (columnAndOther_compound ((hsame right o).trans hr)).1, Option.map_none]
  · obtain ⟨hbind, hcount⟩ := bindExpr_columnRef sub hl o
    rw [hbind, hcount, Nat.add_zero, (bindExpr_columnRef sub hr o).1]
    obtain ⟨id, rfl⟩ | ⟨parts, rfl⟩ := columnRef_cases hl <;>
      obtain ⟨id', rfl⟩ | ⟨parts', rfl⟩ := columnRef_cases hr <;> rfl

omit [Externals] in
theorem Binds.other {left right : Expr} {op : BinaryOperator}
    (h : Binds params sub o (.binaryOp left op right)) {c : String × Expr × Bool}
    (hc : columnAndOther left right = some c) : Binds params sub o c.2.1 := by
  have hshape := h.shape
  simp only [Expr.builtFrom, Bool.and_eq_true] at hshape
  obtain ⟨hliterals, hliterals'⟩ := h.literals.split
  obtain ⟨hstart, hstart'⟩ := h.start.split
  obtain ⟨col, other, flipped⟩ := c
  obtain ⟨id, -, ⟨-, rfl, rfl⟩ | ⟨-, rfl, rfl⟩⟩ := columnAndOther_cases hc
  · exact ⟨⟨hshape.2, hliterals'⟩, hstart'⟩
  · exact ⟨⟨hshape.1.2, hliterals⟩, hstart⟩

theorem bindExpr_binaryOp {left right : Expr} {op : BinaryOperator}
    (h : Placed params sub o (.binaryOp left op right)) :
    (bindExpr sub (.binaryOp left op right) o).1 = .binaryOp (bindExpr sub left o).1 op
      (bindExpr sub right (o + countPlaceholders left)).1 := by
  have hshape := h.shape
  simp only [Expr.builtFrom, Bool.and_eq_true] at hshape
  have hleft : Placed params sub o left := ⟨hshape.1.2, h.literals.split.1⟩
  rw [← hleft.next]
  rfl

theorem simpleEquality_bindExpr (h : Binds params sub o e) :
    simpleEquality (bindExpr sub e o).1 params = simpleEquality e params := by
  match e with
  | .value v => cases v <;> rfl
  | .binaryOp left op right =>
    rw [bindExpr_binaryOp h.toPlaced]
    cases op
    case eq =>
      simp only [simpleEquality, columnAndOther_bindExpr]
      cases hc : columnAndOther left right with
      | none => rfl
      | some c => simp only [Option.map_some, (h.other hc).value]
    all_goals rfl
  | .identifier _ | .compoundIdentifier _ | .nested _ | .unaryOp .. | .isNull _ | .isNotNull _
  | .between .. | .inList .. | .like .. | .iLike .. | .case .. | .function .. | .other .. => rfl

theorem simpleRange_between_eq_none {inner : Expr} (h : inner.isColumnRef = false)
    (negated : Bool) (low high : Expr) :
    simpleRange (.between inner negated low high) params = none := by
  unfold simpleRange
  split
  · next heq => exact nomatch heq
  · next heq =>
      cases heq
      split
      · exact nomatch h
      · rfl
  · rfl

theorem simpleRange_between_bindExpr {id : Ident} {low high : Expr}
    (h : Binds params sub o (.between (.identifier id) false low high))
    (hupper : SameParams params 0 (o + countPlaceholders low) (countPlaceholders high)) :
    simpleRange (bindExpr sub (.between (.identifier id) false low high) o).1 params =
      simpleRange (.between (.identifier id) false low high) params := by
  have hcount : countPlaceholders (.between (.identifier id) false low high) =
      countPlaceholders low + countPlaceholders high := by
    rw [countPlaceholders, countPlaceholders, Nat.zero_add]
  have hshape := h.shape
  have hliterals := h.literals
  have hstart := h.start
  simp only [Expr.builtFrom, Bool.true_and, Bool.and_eq_true] at hshape
  rw [hcount] at hliterals hstart
  have hlow : Binds params sub o low := ⟨⟨hshape.1, hliterals.split.1⟩, hstart.split.1⟩
  have hhigh : Binds params sub (o + countPlaceholders low) high :=
    ⟨⟨hshape.2, hliterals.split.2⟩, hupper⟩
  have hbind : (bindExpr sub (.between (.identifier id) false low high) o).1 =
      .between (.identifier id) false (bindExpr sub low o).1
        (bindExpr sub high (o + countPlaceholders low)).1 := by
    rw [← hlow.next]
    rfl
  rw [hbind]
  simp only [simpleRange, hlow.value, hhigh.value]

theorem simpleRange_bindExpr (h : Binds params sub o e)
    (hupper : ∀ inner low high, e = .between inner false low high →
      SameParams params 0 (o + countPlaceholders low) (countPlaceholders high)) :
    simpleRange (bindExpr sub e o).1 params = simpleRange e params := by
  match e with
  | .value v => cases v <;> rfl
  | .binaryOp left op right =>
    rw [bindExpr_binaryOp h.toPlaced]
    simp only [simpleRange, columnAndOther_bindExpr]
    cases hc : columnAndOther left right with
    | none => rfl
    | some c => simp only [Option.map_some, (h.other hc).value]
  | .between inner negated low high =>
    cases hinner : inner.isColumnRef with
    | false =>
        exact (simpleRange_between_eq_none ((isColumnRef_bindExpr sub inner o).trans hinner) ..).trans
          (simpleRange_between_eq_none hinner ..).symm
    | true =>
        obtain ⟨id, rfl⟩ | ⟨parts, rfl⟩ := columnRef_cases hinner
        · cases negated with
          | false => exact simpleRange_between_bindExpr h (hupper _ low high rfl)
          | true => rfl
        · cases negated <;> rfl
  | .identifier _ | .compoundIdentifier _ | .nested _ | .unaryOp .. | .isNull _ | .isNotNull _
  | .inList .. | .like .. | .iLike .. | .case .. | .function .. | .other .. => rfl

/-- The column of a comparison is the same whatever it is compared with. -/
theorem comparedColumn_bindExpr (h : Placed params sub o e) :
    comparedColumn (bindExpr sub e o).1 = comparedColumn e := by
  match e with
  | .value v => cases v <;> rfl
  | .binaryOp left op right =>
    rw [bindExpr_binaryOp h]
    simp only [comparedColumn, columnAndOther_bindExpr, Option.map_map]
    rfl
  | .between inner negated low high =>
    match inner with
    | .value v => cases v <;> rfl
    | .identifier _ => cases negated <;> rfl
    | .compoundIdentifier _ | .nested _ | .unaryOp .. | .binaryOp .. | .isNull _ | .isNotNull _
    | .between .. | .inList .. | .like .. | .iLike .. | .case .. | .function .. | .other .. => rfl
  | .identifier _ | .compoundIdentifier _ | .nested _ | .unaryOp .. | .isNull _ | .isNotNull _
  | .inList .. | .like .. | .iLike .. | .case .. | .function .. | .other .. => rfl

/-- A comparison on an index column, which is looked up before any row is seen, finds its parameters
at the start of the list; the upper bound of a BETWEEN begins there as well. -/
def LookupAgrees (state : KvsState) (dbId : UInt32) (table : String) (params : List Value) (o : Nat)
    (e : Expr) : Prop :=
  ∀ col, comparedColumn e = some col → (indexOn state dbId table col).isSome →
    SameParams params 0 o (countPlaceholders e) ∧ ∀ inner low high,
      e = .between inner false low high →
        SameParams params 0 (o + countPlaceholders low) (countPlaceholders high)

theorem rowsForSimpleWhere_bindExpr {state : KvsState} {dbId : UInt32} {table : String}
    (h : Placed params sub o e) (hlookup : LookupAgrees state dbId table params o e) :
    rowsForSimpleWhere state dbId table (some (bindExpr sub e o).1) params =
      rowsForSimpleWhere state dbId table (some e) params := by
  have hcolumn := comparedColumn_bindExpr h
  have hpath : fastPath state dbId table (bindExpr sub e o).1 params =
      fastPath state dbId table e params := by
    rw [fastPath_eq, fastPath_eq]
    cases hasked : askedLookup e params with
    | none =>
        rw [← askedLookup_fst _ params, ← askedLookup_fst e params, hasked, Option.map_none,
          Option.map_eq_none_iff] at hcolumn
        rw [hcolumn]
    | some asked =>
        have hcompared : comparedColumn e = some asked.1 := by
          rw [← askedLookup_fst e params, hasked, Option.map_some]
        cases hindex : indexOn state dbId table asked.1 with
        | some idx =>
            obtain ⟨hstart, hupper⟩ := hlookup asked.1 hcompared (Option.isSome_of_mem hindex)
            have hbinds : Binds params sub o e := ⟨h, hstart⟩
            have hsame : askedLookup (bindExpr sub e o).1 params = askedLookup e params := by
              rw [askedLookup, askedLookup, simpleEquality_bindExpr hbinds,
                simpleRange_bindExpr hbinds hupper]
            rw [hsame, hasked]
        | none =>
            rw [hcompared, ← askedLookup_fst _ params] at hcolumn
            obtain ⟨asked', hasked', hfst⟩ := Option.map_eq_some_iff.mp hcolumn
            rw [hasked', Option.bind_some, Option.bind_some, hfst, hindex]
            rfl
  rw [rowsForSimpleWhere_eq, rowsForSimpleWhere_eq, hpath]

end Expressions

/-! ### WHERE and ON -/

/-- The table that the first argument of `fts_match` names. -/
def ftsTable (arg : Option FunctionArg) : Option String :=
  match arg with
  | some (.unnamed (.expr (.identifier id))) => some id.value
  | some (.unnamed (.expr (.value (.singleQuotedString s)))) => some s
  | _ => none

/-- The words that the second argument of `fts_match` asks for. -/
def ftsWords (arg : Option FunctionArg) : Option String :=
  match arg with
  | some (.unnamed (.expr (.value (.singleQuotedString s)))) => some s
  | _ => none

def FunctionArg.isPlaceholder : FunctionArg → Bool
  | .unnamed (.expr (.value (.placeholder _))) => true
  | _ => false

/-- Where WHERE looks a row up in a full-text table, neither argument is a placeholder. -/
def Expr.searchesLiterals : Expr → Bool
  | .unaryOp .not inner => inner.searchesLiterals
  | .nested inner => inner.searchesLiterals
  | .function name args _ _ =>
    !(toLowercase name = "fts_match" ∧ args.length = 2) || args.all fun arg => !arg.isPlaceholder
  | _ => true

section Where

variable {state : KvsState} {dbId : UInt32} {row : Row} {params : List Value}
  {sub : Nat → SqlValue}

theorem ftsMatch_eq (args : List FunctionArg) :
    ftsMatch state dbId row args =
      match ftsTable args.head?, ftsWords args.tail.head? with
      | some tableName, some queryText =>
        match state.getFtsTable dbId tableName, row.get "_rowid_" with
        | some fts, some (.integer id) => id.toUInt64 ∈ fts.index.search queryText
        | _, _ => false
      | _, _ => false := rfl

omit [Externals] in
theorem fts_bindArg {arg : FunctionArg} (h : arg.isPlaceholder = false) (o : Nat) :
    ftsTable (some (bindArg sub arg o).1) = ftsTable (some arg) ∧
      ftsWords (some (bindArg sub arg o).1) = ftsWords (some arg) := by
  match arg with
  | .named _ _ | .unnamed .qualifiedWildcard | .unnamed .wildcard => exact ⟨rfl, rfl⟩
  | .unnamed (.expr (.value v)) => cases v <;> first | exact ⟨rfl, rfl⟩ | exact nomatch h
  | .unnamed (.expr (.identifier _)) | .unnamed (.expr (.compoundIdentifier _))
  | .unnamed (.expr (.nested _)) | .unnamed (.expr (.unaryOp ..))
  | .unnamed (.expr (.binaryOp ..)) | .unnamed (.expr (.isNull _))
  | .unnamed (.expr (.isNotNull _)) | .unnamed (.expr (.between ..))
  | .unnamed (.expr (.inList ..)) | .unnamed (.expr (.like ..)) | .unnamed (.expr (.iLike ..))
  | .unnamed (.expr (.case ..)) | .unnamed (.expr (.function ..))
  | .unnamed (.expr (.other ..)) => exact ⟨rfl, rfl⟩

omit [Externals] in
theorem length_bindArgs (sub : Nat → SqlValue) (args : List FunctionArg) (o : Nat) :
    (bindArgs sub args o).1.length = args.length := by
  induction args generalizing o with
  | nil => rfl
  | cons arg args ih => exact congrArg Nat.succ (ih _)

theorem ftsMatch_bindArgs {args : List FunctionArg} (h : args.length = 2)
    (hargs : args.all fun arg => !arg.isPlaceholder) (o : Nat) :
    ftsMatch state dbId row (bindArgs sub args o).1 = ftsMatch state dbId row args := by
  match args, h with
  | [first, second], _ =>
    simp only [List.all_cons, List.all_nil, Bool.and_true, Bool.and_eq_true,
      Bool.not_eq_true'] at hargs
    have htable : ftsTable (bindArgs sub [first, second] o).1.head? = ftsTable (some first) :=
      (fts_bindArg hargs.1 o).1
    have hwords : ftsWords (bindArgs sub [first, second] o).1.tail.head? =
        ftsWords (some second) := (fts_bindArg hargs.2 _).2
    rw [ftsMatch_eq, ftsMatch_eq, htable, hwords]
    rfl

/-- By structural recursion through NOT and parentheses, down to what the scalar evaluator or the
full-text search answers. -/
theorem evaluateWhereCtx_bindExpr {e : Expr}
    (hshape : e.builtFrom BinaryOperator.isStrict fun _ => true) {i o : Nat}
    (hliterals : Literals params sub o (countPlaceholders e))
    (hsame : SameParams params i o (countPlaceholders e)) (hfts : e.searchesLiterals) (j : Nat) :
    (evaluateWhereCtx state dbId row params (bindExpr sub e o).1 j).1 =
      (evaluateWhereCtx state dbId row params e i).1 := by
  have hscalar : (evaluateWhereCtx state dbId row params (bindExpr sub e o).1 j).1 =
        truthy (eval (.withRow row) params (bindExpr sub e o).1 j).1 →
      (evaluateWhereCtx state dbId row params e i).1 =
        truthy (eval (.withRow row) params e i).1 →
      (evaluateWhereCtx state dbId row params (bindExpr sub e o).1 j).1 =
        (evaluateWhereCtx state dbId row params e i).1 := by
    intro hbound hplain
    obtain ⟨e', hbind, heval⟩ := eval_bindExpr (.withRow row) hshape hliterals
    rw [hbound, hplain, hbind, heval, eval_of_sameParams (.withRow row) hshape hsame]
  match e with
  | .value v => cases v <;> exact hscalar rfl rfl
  | .identifier _ | .compoundIdentifier _ | .isNull _ | .isNotNull _ | .between .. | .like ..
  | .iLike .. => exact hscalar rfl rfl
  | .nested inner =>
    exact evaluateWhereCtx_bindExpr (e := inner) hshape hliterals hsame hfts j
  | .unaryOp op inner =>
    cases op
    case not =>
      exact congrArg Bool.not
        (evaluateWhereCtx_bindExpr (e := inner) hshape hliterals hsame hfts j)
    all_goals exact hscalar rfl rfl
  | .binaryOp left op right =>
    simp only [Expr.builtFrom, Bool.and_eq_true] at hshape
    cases op
    case and | or => exact nomatch hshape.1.1
    all_goals exact hscalar rfl rfl
  | .function name args distinct clausePlaceholders =>
    by_cases hsearch : toLowercase name = "fts_match" ∧ args.length = 2
    · have hsearch' := hsearch
      rw [← length_bindArgs sub args o] at hsearch'
      simp only [Expr.searchesLiterals, hsearch, and_self, decide_true, Bool.not_true,
        Bool.false_or] at hfts
      change (evaluateWhereCtx state dbId row params (.function name (bindArgs sub args o).1
        distinct 0) j).1 = _
      rw [evaluateWhereCtx, evaluateWhereCtx, if_pos hsearch, if_pos hsearch']
      exact ftsMatch_bindArgs hsearch.2 hfts o
    · have hsearch' := hsearch
      rw [← length_bindArgs sub args o] at hsearch'
      refine hscalar ?_ ?_
      · change (evaluateWhereCtx state dbId row params (.function name (bindArgs sub args o).1
          distinct 0) j).1 = truthy (eval (.withRow row) params (.function name
            (bindArgs sub args o).1 distinct 0) j).1
        rw [evaluateWhereCtx, if_neg hsearch']
        rfl
      · rw [evaluateWhereCtx, if_neg hsearch]
        rfl

variable (state dbId) in
theorem whereHolds_bindExpr {o : Nat} {e : Expr} (h : Binds params sub o e)
    (hfts : e.searchesLiterals) (row : Row) :
    whereHolds state dbId row params (bindExpr sub e o).1 0 =
      whereHolds state dbId row params e 0 :=
  evaluateWhereCtx_bindExpr h.shape h.literals h.start hfts 0

end Where

end Skvs
