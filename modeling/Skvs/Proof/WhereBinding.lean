import Skvs.Proof.Substitution
import Skvs.Select

/-!
# The placeholders of a WHERE clause

WHERE skips the right side of an AND whose left is false and of an OR whose left is true; below a
comparison only AND skips. The index does not move over what is skipped, so a placeholder further on
reads the parameter of an earlier one.
-/

namespace Skvs

/-- The expressions of columns, literals, placeholders, comparisons and all operators, without
functions. -/
def Expr.isOperators (e : Expr) : Bool := e.builtFrom (fun _ => true) fun _ => false

variable [Externals]

section Skipped

variable (ctx : EvalCtx) (params : List Value)

/-- How many placeholders are skipped by an evaluation whose operands have their positional values,
the first placeholder of the text being the `k`-th. What WHERE itself recurses through is `atTop`. -/
def skipped (atTop : Bool) : Expr → Nat → Nat
  | .binaryOp left op right, k =>
    match op with
    | .and => skipped atTop left k + if truthy (positionalEval ctx params left k) then
        skipped atTop right (k + countPlaceholders left) else countPlaceholders right
    | .or => skipped atTop left k + if atTop && truthy (positionalEval ctx params left k) then
        countPlaceholders right else skipped atTop right (k + countPlaceholders left)
    | _ => skipped false left k + skipped false right (k + countPlaceholders left)
  | .unaryOp op inner, k =>
    match op with
    | .not => skipped atTop inner k
    | _ => skipped false inner k
  | .nested inner, k => skipped atTop inner k
  | .isNull inner, k | .isNotNull inner, k => skipped false inner k
  | .like _ expr pattern, k | .iLike _ expr pattern, k =>
    skipped false expr k + skipped false pattern (k + countPlaceholders expr)
  | .between expr _ low high, k =>
    skipped false expr k + skipped false low (k + countPlaceholders expr) +
      skipped false high (k + countPlaceholders expr + countPlaceholders low)
  | _, _ => 0

/-- With `d` placeholders skipped before the expression, each placeholder that is evaluated reads a
parameter with the value of its own. -/
def OwnParameters (atTop : Bool) : Expr → Nat → Nat → Prop
  | .value (.placeholder _), k, d => params.getD (k - d) .null = params.getD k .null
  | .binaryOp left op right, k, d =>
    match op with
    | .and => OwnParameters atTop left k d ∧ (truthy (positionalEval ctx params left k) →
        OwnParameters atTop right (k + countPlaceholders left)
          (d + skipped ctx params atTop left k))
    | .or => OwnParameters atTop left k d ∧
        ((atTop && truthy (positionalEval ctx params left k)) = false →
          OwnParameters atTop right (k + countPlaceholders left)
            (d + skipped ctx params atTop left k))
    | _ => OwnParameters false left k d ∧ OwnParameters false right (k + countPlaceholders left)
        (d + skipped ctx params false left k)
  | .unaryOp op inner, k, d =>
    match op with
    | .not => OwnParameters atTop inner k d
    | _ => OwnParameters false inner k d
  | .nested inner, k, d => OwnParameters atTop inner k d
  | .isNull inner, k, d | .isNotNull inner, k, d => OwnParameters false inner k d
  | .like _ expr pattern, k, d | .iLike _ expr pattern, k, d =>
    OwnParameters false expr k d ∧ OwnParameters false pattern (k + countPlaceholders expr)
      (d + skipped ctx params false expr k)
  | .between expr _ low high, k, d =>
    OwnParameters false expr k d ∧ OwnParameters false low (k + countPlaceholders expr)
      (d + skipped ctx params false expr k) ∧
      OwnParameters false high (k + countPlaceholders expr + countPlaceholders low)
        (d + skipped ctx params false expr k +
          skipped ctx params false low (k + countPlaceholders expr))
  | _, _, _ => True

variable {ctx params}

/-- Below a comparison: by structural recursion, the index falling behind the text by what is
skipped. -/
theorem eval_ownParameters {e : Expr} (h : e.isOperators) {i k d : Nat} (hik : i + d = k)
    (hown : OwnParameters ctx params false e k d) :
    ∃ j, eval ctx params e i = (positionalEval ctx params e k, j) ∧
      j + (d + skipped ctx params false e k) = k + countPlaceholders e := by
  match e with
  | .identifier _ | .compoundIdentifier _ => exact ⟨i, rfl, hik⟩
  | .value (.placeholder _) =>
    refine ⟨i + 1, Prod.ext ?_ rfl, ?_⟩
    · rw [show i = k - d by omega]
      exact hown
    · simp only [skipped, countPlaceholders]
      omega
  | .value (.number _) | .value (.singleQuotedString _) | .value (.doubleQuotedString _)
  | .value .null | .value (.boolean _) | .value .other => exact ⟨i, rfl, hik⟩
  | .nested inner => exact eval_ownParameters (e := inner) h hik hown
  | .unaryOp op inner =>
    obtain ⟨j, heval, hj⟩ := eval_ownParameters (e := inner) h hik (by cases op <;> exact hown)
    refine ⟨j, ?_, by cases op <;> exact hj⟩
    simp only [eval, bind, StateT.bind, heval]
    rfl
  | .isNull inner | .isNotNull inner =>
    obtain ⟨j, heval, hj⟩ := eval_ownParameters (e := inner) h hik hown
    refine ⟨j, ?_, hj⟩
    simp only [eval, bind, StateT.bind, heval]
    rfl
  | .binaryOp left op right =>
    simp only [Expr.isOperators, Expr.builtFrom, Bool.true_and, Bool.and_eq_true] at h
    rw [eval, positionalEval_binaryOp ctx params h.1, countPlaceholders]
    cases op
    case and =>
      obtain ⟨hleft, hright⟩ := hown
      obtain ⟨j₁, heval₁, hj₁⟩ := eval_ownParameters h.1 hik hleft
      rw [evalBinaryOp_and, heval₁]
      simp only [skipped, operatorValue]
      cases hl : truthy (positionalEval ctx params left k) with
      | true =>
          obtain ⟨j₂, heval₂, hj₂⟩ := eval_ownParameters h.2 hj₁ (hright hl)
          exact ⟨j₂, by rw [if_pos rfl, heval₂, Bool.true_and], by rw [if_pos rfl]; omega⟩
      | false =>
          exact ⟨j₁, by rw [if_neg Bool.false_ne_true, Bool.false_and],
            by rw [if_neg Bool.false_ne_true]; omega⟩
    case or =>
      obtain ⟨hleft, hright⟩ := hown
      obtain ⟨j₁, heval₁, hj₁⟩ := eval_ownParameters h.1 hik hleft
      obtain ⟨j₂, heval₂, hj₂⟩ := eval_ownParameters h.2 hj₁ (hright (Bool.false_and _))
      rw [evalBinaryOp_or, heval₁, heval₂]
      refine ⟨j₂, rfl, ?_⟩
      simp only [skipped, Bool.false_and, Bool.false_eq_true, if_false]
      omega
    all_goals
      obtain ⟨hleft, hright⟩ := hown
      obtain ⟨j₁, heval₁, hj₁⟩ := eval_ownParameters h.1 hik hleft
      obtain ⟨j₂, heval₂, hj₂⟩ := eval_ownParameters h.2 hj₁ hright
      rw [evalBinaryOp_strict rfl, heval₁, heval₂]
      refine ⟨j₂, rfl, ?_⟩
      simp only [skipped]
      omega
  | .between expr _ low high =>
    simp only [Expr.isOperators, Expr.builtFrom, Bool.and_eq_true] at h
    obtain ⟨hexpr, hlow, hhigh⟩ := hown
    obtain ⟨j₁, heval₁, hj₁⟩ := eval_ownParameters h.1.1 hik hexpr
    obtain ⟨j₂, heval₂, hj₂⟩ := eval_ownParameters h.1.2 hj₁ hlow
    obtain ⟨j₃, heval₃, hj₃⟩ := eval_ownParameters h.2 hj₂ hhigh
    refine ⟨j₃, ?_, ?_⟩
    · simp only [eval, bind, StateT.bind, heval₁, heval₂, heval₃]
      simp only [positionalEval, reading, Reading.map₃, text_reading ctx params h.1.1,
        text_reading ctx params h.1.2]
      rfl
    · simp only [skipped, countPlaceholders]
      omega
  | .like _ expr pattern | .iLike _ expr pattern =>
    simp only [Expr.isOperators, Expr.builtFrom, Bool.and_eq_true] at h
    obtain ⟨hexpr, hpattern⟩ := hown
    obtain ⟨j₁, heval₁, hj₁⟩ := eval_ownParameters h.1 hik hexpr
    obtain ⟨j₂, heval₂, hj₂⟩ := eval_ownParameters h.2 hj₁ hpattern
    refine ⟨j₂, ?_, ?_⟩
    · simp only [eval, bind, StateT.bind, heval₁, heval₂]
      simp only [positionalEval, reading, Reading.map₂, text_reading ctx params h.1]
      rfl
    · simp only [skipped, countPlaceholders]
      omega

end Skipped

section Where

variable {state : KvsState} {dbId : UInt32} {row : Row} {params : List Value}

theorem evaluateWhereCtx_and (left right : Expr) (i : Nat) :
    evaluateWhereCtx state dbId row params (.binaryOp left .and right) i =
      let l := evaluateWhereCtx state dbId row params left i
      if l.1 then evaluateWhereCtx state dbId row params right l.2 else (false, l.2) := by
  change (if (evaluateWhereCtx state dbId row params left i).1 then
    evaluateWhereCtx state dbId row params right else pure false : StateM Nat Bool)
      (evaluateWhereCtx state dbId row params left i).2 = _
  simp only
  split_ifs <;> rfl

theorem evaluateWhereCtx_or (left right : Expr) (i : Nat) :
    evaluateWhereCtx state dbId row params (.binaryOp left .or right) i =
      let l := evaluateWhereCtx state dbId row params left i
      if l.1 then (true, l.2) else evaluateWhereCtx state dbId row params right l.2 := by
  change (if (evaluateWhereCtx state dbId row params left i).1 then pure true else
    evaluateWhereCtx state dbId row params right : StateM Nat Bool)
      (evaluateWhereCtx state dbId row params left i).2 = _
  simp only
  split_ifs <;> rfl

/-- The WHERE evaluator by structural recursion; what it hands on to the scalar evaluator is
`eval_ownParameters`. -/
theorem evaluateWhereCtx_ownParameters {e : Expr} (h : e.isOperators) {i k d : Nat}
    (hik : i + d = k) (hown : OwnParameters (.withRow row) params true e k d) :
    ∃ j, evaluateWhereCtx state dbId row params e i =
        (truthy (positionalEval (.withRow row) params e k), j) ∧
      j + (d + skipped (.withRow row) params true e k) = k + countPlaceholders e := by
  have hscalar : OwnParameters (.withRow row) params false e k d →
      skipped (.withRow row) params true e k = skipped (.withRow row) params false e k →
      (evaluateWhereCtx state dbId row params e i = (truthy (eval (.withRow row) params e i).1,
        (eval (.withRow row) params e i).2)) →
      ∃ j, evaluateWhereCtx state dbId row params e i =
          (truthy (positionalEval (.withRow row) params e k), j) ∧
        j + (d + skipped (.withRow row) params true e k) = k + countPlaceholders e := by
    intro hown hskip hwhere
    obtain ⟨j, heval, hj⟩ := eval_ownParameters h hik hown
    exact ⟨j, by rw [hwhere, heval], by rwa [hskip]⟩
  match e with
  | .identifier _ | .compoundIdentifier _ | .isNull _ | .isNotNull _ | .between .. | .like ..
  | .iLike .. => exact hscalar hown rfl rfl
  | .value v => cases v <;> exact hscalar hown rfl rfl
  | .nested inner => exact evaluateWhereCtx_ownParameters (e := inner) h hik hown
  | .unaryOp op inner =>
    cases op
    case not =>
      obtain ⟨j, hwhere, hj⟩ := evaluateWhereCtx_ownParameters (e := inner) h hik hown
      refine ⟨j, ?_, hj⟩
      simp only [evaluateWhereCtx, bind, StateT.bind, hwhere]
      exact Prod.ext (truthy_boolVal _).symm rfl
    all_goals exact hscalar hown rfl rfl
  | .binaryOp left op right =>
    simp only [Expr.isOperators, Expr.builtFrom, Bool.true_and, Bool.and_eq_true] at h
    cases op
    case and =>
      obtain ⟨hleft, hright⟩ := hown
      obtain ⟨j₁, hwhere₁, hj₁⟩ := evaluateWhereCtx_ownParameters h.1 hik hleft
      rw [evaluateWhereCtx_and, hwhere₁, positionalEval_binaryOp (.withRow row) params h.1,
        operatorValue, truthy_boolVal]
      simp only [skipped, countPlaceholders]
      cases hl : truthy (positionalEval (.withRow row) params left k) with
      | true =>
          obtain ⟨j₂, hwhere₂, hj₂⟩ := evaluateWhereCtx_ownParameters h.2 hj₁ (hright hl)
          exact ⟨j₂, by rw [if_pos rfl, hwhere₂, Bool.true_and], by rw [if_pos rfl]; omega⟩
      | false =>
          exact ⟨j₁, by rw [if_neg Bool.false_ne_true, Bool.false_and],
            by rw [if_neg Bool.false_ne_true]; omega⟩
    case or =>
      obtain ⟨hleft, hright⟩ := hown
      obtain ⟨j₁, hwhere₁, hj₁⟩ := evaluateWhereCtx_ownParameters h.1 hik hleft
      rw [evaluateWhereCtx_or, hwhere₁, positionalEval_binaryOp (.withRow row) params h.1,
        operatorValue, truthy_boolVal]
      simp only [skipped, countPlaceholders, Bool.true_and] at hright ⊢
      cases hl : truthy (positionalEval (.withRow row) params left k) with
      | true =>
          exact ⟨j₁, by rw [if_pos rfl, Bool.true_or], by rw [if_pos rfl]; omega⟩
      | false =>
          obtain ⟨j₂, hwhere₂, hj₂⟩ := evaluateWhereCtx_ownParameters h.2 hj₁ (hright hl)
          exact ⟨j₂, by rw [if_neg Bool.false_ne_true, hwhere₂, Bool.false_or],
            by rw [if_neg Bool.false_ne_true]; omega⟩
    all_goals exact hscalar hown rfl rfl

/-- Where each placeholder that is evaluated reads a parameter with the value of its own, WHERE holds
exactly when the expression with its placeholders taken in the order of the text is true, and so when
the expression with literals in their place is. -/
theorem where_agrees_of_own_parameters {e : Expr} (h : e.isOperators)
    (hown : OwnParameters (.withRow row) params true e 0 0) :
    (evaluateWhereCtx state dbId row params e 0).1 =
        truthy (positionalEval (.withRow row) params e 0) ∧
      ∀ sub, Literals params sub 0 (countPlaceholders e) → ∀ params',
        (evaluateWhereCtx state dbId row params e 0).1 =
          truthy (eval (.withRow row) params' (bindExpr sub e 0).1 0).1 := by
  obtain ⟨j, hwhere, -⟩ : ∃ j, evaluateWhereCtx state dbId row params e 0 =
      (truthy (positionalEval (.withRow row) params e 0), j) ∧ _ :=
    evaluateWhereCtx_ownParameters h (Nat.add_zero 0) hown
  refine ⟨congrArg Prod.fst hwhere, fun sub hsub params' => ?_⟩
  obtain ⟨e', hbind, heval⟩ := eval_bindExpr (.withRow row) h hsub
  rw [hwhere, hbind, heval]

end Where

omit [Externals] in
/-- `(? AND ?) OR ?` with 0, 0 and 1 skips its second placeholder and reads its parameter for the
third; `(0 AND 0) OR 1` is true. -/
theorem skipped_placeholder_misread :
    letI := Externals.ofTexts [] []
    let e := Expr.binaryOp (.nested (.binaryOp questionMark .and questionMark)) .or questionMark
    let params := [.integer 0, .integer 0, .integer 1]
    let sub := numberLiterals ["0", "0", "1"]
    Literals params sub 0 (countPlaceholders e) ∧
      (evaluateWhereCtx (.new [0]) 0 ∅ params e 0).1 ≠
        truthy (evalFrom (.withRow ∅) params (bindExpr sub e 0).1 0) := by
  let _ := Externals.ofTexts [] []
  intro e params sub
  have hparams : params = ["0", "0", "1"].map parseNumber := by decide
  refine ⟨?_, by decide⟩
  rw [hparams]
  exact literals_numbers ["0", "0", "1"]

omit [Externals] in
/-- `a = ? AND b = ?` on a row with `a = 1` and `b = 2`. -/
theorem where_agrees_on_conjunction :
    letI := Externals.ofTexts [] []
    let e := Expr.binaryOp (.binaryOp (.identifier (column "a")) .eq questionMark) .and
      (.binaryOp (.identifier (column "b")) .eq questionMark)
    let row : Row := (IndexMap.insert ∅ "a" (.integer 1)).insert "b" (.integer 2)
    let params := [.integer 1, .integer 2]
    (evaluateWhereCtx (.new [0]) 0 row params e 0).1 =
        truthy (positionalEval (.withRow row) params e 0) ∧
      ∀ sub, Literals params sub 0 (countPlaceholders e) → ∀ params',
        (evaluateWhereCtx (.new [0]) 0 row params e 0).1 =
          truthy (eval (.withRow row) params' (bindExpr sub e 0).1 0).1 :=
  let _ := Externals.ofTexts [] []
  where_agrees_of_own_parameters rfl ⟨⟨trivial, rfl⟩, fun _ => ⟨trivial, rfl⟩⟩

end Skvs
