import Skvs.Panics
import Skvs.Proof.JsonPaths
import Skvs.Lib.FloatOrder
import Skvs.Lib.TextSearch

/-!
# Which evaluations panic

Slices, indices and divisors are guarded by what the code tests before it uses them. Overflow is not:
an evaluation panics exactly if it comes to a remainder, a negation or an absolute value of `i64::MIN`
that does.
-/

namespace Skvs

/-- What the code makes sure of before an operation. -/
def PartialOp.Guarded : PartialOp → Prop
  | .neg _ | .abs _ => True
  | .rem _ j => j ≠ 0
  | .slice start stop len => start ≤ stop ∧ stop ≤ len
  | .strSlice s start stop => (Text.slice s start stop).isSome
  | .index idx len => idx < len
  | .unwrap isSome => isSome = true

/-- The result does not fit. -/
def PartialOp.overflows (overflowChecks : Bool) : PartialOp → Bool
  | .neg i | .abs i => overflowChecks && i == Int64.minValue
  | .rem i j => i == Int64.minValue && j == -1
  | _ => false

theorem PartialOp.Guarded.panics_eq {overflowChecks : Bool} {op : PartialOp} (h : op.Guarded) :
    op.panics overflowChecks = op.overflows overflowChecks := by
  cases op with
  | neg i => rfl
  | abs i => rfl
  | rem i j => rw [panics, overflows, beq_eq_false_iff_ne.mpr h, Bool.false_or]
  | slice start stop len =>
      obtain ⟨hstart, hstop⟩ := h
      simp [panics, overflows, hstart, hstop]
  | strSlice s start stop =>
      rw [Guarded] at h
      simpa [panics, overflows] using h
  | index idx len =>
      rw [Guarded] at h
      simpa [panics, overflows] using h
  | unwrap isSome =>
      rw [Guarded] at h
      simpa [panics, overflows] using h

theorem any_panics_eq_false_iff {overflowChecks : Bool} {ops : List PartialOp}
    (hops : ∀ op ∈ ops, op.Guarded) :
    ops.any (PartialOp.panics overflowChecks) = false ↔ .rem Int64.minValue (-1) ∉ ops ∧
      (overflowChecks = true → .neg Int64.minValue ∉ ops ∧ .abs Int64.minValue ∉ ops) := by
  rw [List.any_eq_false]
  constructor
  · intro h
    refine ⟨fun hmem => h _ hmem rfl, ?_⟩
    rintro rfl
    exact ⟨fun hmem => h _ hmem rfl, fun hmem => h _ hmem rfl⟩
  · rintro ⟨hrem, hchecked⟩ op hop hpanics
    rw [(hops op hop).panics_eq] at hpanics
    cases op <;> simp only [PartialOp.overflows, Bool.and_eq_true, beq_iff_eq, Bool.false_eq_true]
      at hpanics
    case neg =>
      obtain ⟨hchecks, rfl⟩ := hpanics
      exact (hchecked hchecks).1 hop
    case abs =>
      obtain ⟨hchecks, rfl⟩ := hpanics
      exact (hchecked hchecks).2 hop
    case rem =>
      obtain ⟨rfl, rfl⟩ := hpanics
      exact hrem hop

/-! ### What is guarded -/

theorem guarded_unaryOps (op : UnaryOperator) (inner : Value) :
    ∀ o ∈ unaryOps op inner, o.Guarded := by
  unfold unaryOps
  split
  · exact List.forall_mem_singleton.mpr trivial
  · exact List.forall_mem_nil _

theorem guarded_binaryOps (op : BinaryOperator) (l r : Value) :
    ∀ o ∈ binaryOps op l r, o.Guarded := by
  unfold binaryOps
  split
  · split_ifs with hzero
    · exact List.forall_mem_nil _
    · refine List.forall_mem_singleton.mpr ?_
      rintro rfl
      exact hzero rfl
  · exact List.forall_mem_nil _

theorem guarded_substrOps (chars : List Char) (args : List Value) :
    ∀ o ∈ substrOps chars args, o.Guarded := by
  have hslice : ∀ start len n : Nat,
      ∀ o ∈ (if n ≤ start then [] else [PartialOp.slice start (min (start + len) n) n]),
        o.Guarded := by
    intro start len n
    split_ifs with h
    · exact List.forall_mem_nil _
    · refine List.forall_mem_singleton.mpr ⟨?_, min_le_right _ _⟩
      exact le_min (Nat.le_add_right _ _) (not_le.mp h).le
  exact hslice _ _ _

/-- A part in brackets has at least the two of them. -/
theorem guarded_indexPartSlice {part : List Char} (h : isIndexPart part = true) :
    (indexPartSlice part).Guarded := by
  rw [isIndexPart, Bool.and_eq_true, beq_iff_eq, beq_iff_eq] at h
  obtain ⟨rest, rfl⟩ := List.head?_eq_some_iff.mp h.1
  have hlast : (rest ++ []).getLast? = some ']' := by
    cases rest with
    | nil => exact nomatch h.2
    | cons c cs => simpa using h.2
  rw [List.append_nil] at hlast
  obtain ⟨mid, rfl⟩ := List.getLast?_eq_some_iff.mp hlast
  have hslice := Text.slice_append ['['] mid [']']
  have hlen : Text.byteLength (['['] ++ mid ++ [']']) - 1 = Text.byteLength (['['] ++ mid) := by
    rw [Text.byteLength_append]
    rfl
  rw [indexPartSlice, PartialOp.Guarded]
  change (Text.slice (['['] ++ mid ++ [']']) (Text.byteLength ['['])
    (Text.byteLength (['['] ++ mid ++ [']']) - 1)).isSome = true
  rw [hlen, hslice]
  rfl

theorem guarded_jsonFollowOps (parts : List (List Char)) (current : JsonValue) :
    ∀ o ∈ jsonFollowOps parts current, o.Guarded := by
  induction parts generalizing current with
  | nil => exact List.forall_mem_nil _
  | cons part parts ih =>
      unfold jsonFollowOps
      split
      case isTrue hpart =>
        refine List.forall_mem_cons.mpr ⟨guarded_indexPartSlice hpart, ?_⟩
        split
        · split
          · next hitem =>
              exact List.forall_mem_cons.mpr ⟨(List.getElem?_eq_some_iff.mp hitem).1, ih _⟩
          · exact List.forall_mem_nil _
        · exact List.forall_mem_nil _
      case isFalse =>
        split
        · split
          · exact ih _
          · exact List.forall_mem_nil _
        · exact List.forall_mem_nil _

/-- A missing field is inserted before it is looked up. -/
theorem isSome_lookup_inserted (key : String) (fields : List (String × JsonValue)) :
    ((if (fields.lookup key).isSome then fields
      else insertField key (.object []) fields).lookup key).isSome = true := by
  split
  · next h => exact h
  · rw [lookup_insertField, if_pos rfl]
    rfl

theorem guarded_jsonSetAtOps (parts : List (List Char)) (current : JsonValue) :
    ∀ o ∈ jsonSetAtOps parts current, o.Guarded := by
  fun_induction jsonSetAtOps parts current with
  | case1 | case3 | case6 => exact List.forall_mem_nil _
  | case2 last current hlast =>
      refine List.forall_mem_cons.mpr ⟨guarded_indexPartSlice hlast, ?_⟩
      split
      · split_ifs with hidx
        · exact List.forall_mem_singleton.mpr hidx
        · exact List.forall_mem_nil _
      · exact List.forall_mem_nil _
  | case4 part parts current hparts hpart ih =>
      refine List.forall_mem_cons.mpr ⟨guarded_indexPartSlice hpart, ?_⟩
      split
      · split
        · next hitem =>
            exact List.forall_mem_cons.mpr ⟨(List.getElem?_eq_some_iff.mp hitem).1, ih _⟩
        · exact List.forall_mem_nil _
      · exact List.forall_mem_nil _
  | case5 part parts hparts hpart fields key fields' ih =>
      exact List.forall_mem_cons.mpr ⟨isSome_lookup_inserted key fields, ih⟩

section Functions

variable [Externals]

theorem guarded_jsonExtractOps (jsonStr path : String) :
    ∀ o ∈ jsonExtractOps jsonStr path, o.Guarded := by
  unfold jsonExtractOps
  split
  · exact List.forall_mem_nil _
  · dsimp only
    split
    · exact List.forall_mem_nil _
    · exact guarded_jsonFollowOps _ _

theorem guarded_jsonSetOps (jsonStr path : String) : ∀ o ∈ jsonSetOps jsonStr path, o.Guarded := by
  unfold jsonSetOps
  split
  · exact List.forall_mem_nil _
  · exact List.forall_mem_cons.mpr ⟨⟨Nat.zero_le _, Nat.sub_le _ _⟩, guarded_jsonSetAtOps _ _⟩

theorem guarded_functionOps (name : String) (args : List Value) :
    ∀ o ∈ functionOps name args, o.Guarded := by
  unfold functionOps
  dsimp only
  split
  · split
    · exact guarded_jsonExtractOps _ _
    · exact List.forall_mem_nil _
  · split
    · exact guarded_jsonSetOps _ _
    · exact List.forall_mem_nil _
  · split
    · exact List.forall_mem_singleton.mpr trivial
    · exact List.forall_mem_nil _
  · split
    · exact guarded_substrOps _ _
    · exact List.forall_mem_nil _
  · split
    · exact guarded_substrOps _ _
    · exact List.forall_mem_nil _
  · exact List.forall_mem_nil _

end Functions

/-! ### Both runs follow the evaluator -/

/-- A run that may panic and one that writes the operations down, along an evaluation. -/
abbrev RunsAlong {α : Type} (overflowChecks : Bool) (x : StateT Nat (Except Fail) α)
    (g : StateT Nat (StateM (List PartialOp)) α) (p : StateM Nat α) : Prop :=
  Announced.Follows (PartialOp.panics overflowChecks) Fail.panic PartialOp.Guarded x g p

inductive EachRunsAlong (overflowChecks : Bool) :
    List (EvalIn (Except Fail)) → List (EvalIn (StateM (List PartialOp))) → List Eval → Prop
  | nil : EachRunsAlong overflowChecks [] [] []
  | cons {x g p xs gs ps} : RunsAlong overflowChecks x g p → EachRunsAlong overflowChecks xs gs ps →
    EachRunsAlong overflowChecks (x :: xs) (g :: gs) (p :: ps)

inductive OptionRunsAlong (overflowChecks : Bool) :
    Option (EvalIn (Except Fail)) → Option (EvalIn (StateM (List PartialOp))) → Option Eval → Prop
  | none : OptionRunsAlong overflowChecks none none none
  | some {x g p} : RunsAlong overflowChecks x g p →
    OptionRunsAlong overflowChecks (some x) (some g) (some p)

section Loops

open Announced (Follows)

variable {overflowChecks : Bool}

theorem EachRunsAlong.anyEqual {xs gs ps} (h : EachRunsAlong overflowChecks xs gs ps) (v : Value) :
    RunsAlong overflowChecks (anyEqualIn v xs) (anyEqualIn v gs) (anyEqual v ps) := by
  induction h with
  | nil => exact .of_pure false
  | cons hitem _ ih =>
      refine hitem.bind fun r => ?_
      exact .ite (.of_pure true) ih

theorem EachRunsAlong.collect {xs gs ps} (h : EachRunsAlong overflowChecks xs gs ps) :
    RunsAlong overflowChecks (collectIn xs) (collectIn gs) (collect ps) := by
  induction h with
  | nil => exact .of_pure []
  | cons hitem _ ih => exact hitem.bind fun v => ih.bind fun vs => .of_pure (v :: vs)

theorem OptionRunsAlong.caseMatches {ox og op} (hoperand : OptionRunsAlong overflowChecks ox og op)
    {x g p} (hcond : RunsAlong overflowChecks x g p) :
    RunsAlong overflowChecks (caseMatchesIn ox x) (caseMatchesIn og g) (caseMatches op p) := by
  cases hoperand with
  | none => exact hcond.bind fun v => .of_pure (truthy v)
  | some h => exact h.bind fun opv => hcond.bind fun cv => .of_pure (opv.partialEq cv)

theorem OptionRunsAlong.getD {ox og op} (h : OptionRunsAlong overflowChecks ox og op) :
    RunsAlong overflowChecks (ox.getD (pure .null)) (og.getD (pure .null)) (op.getD (pure .null)) := by
  cases h with
  | none => exact .of_pure _
  | some h => exact h

theorem OptionRunsAlong.caseBranches {ox og op} (hoperand : OptionRunsAlong overflowChecks ox og op)
    {ex eg ep} (helse : RunsAlong overflowChecks ex eg ep) {cx cg cp rx rg rp}
    (hconds : EachRunsAlong overflowChecks cx cg cp) (hresults : EachRunsAlong overflowChecks rx rg rp) :
    RunsAlong overflowChecks (caseBranchesIn ox ex cx rx) (caseBranchesIn og eg cg rg)
      (caseBranches op ep cp rp) := by
  induction hconds generalizing rx rg rp with
  | nil => exact helse
  | cons hcond _ ih =>
      cases hresults with
      | nil => exact helse
      | cons hres hrest =>
          refine (hoperand.caseMatches hcond).bind fun b => ?_
          exact .ite hres (ih hrest)

theorem runsAlong_evalBinaryOp (op : BinaryOperator) {lx lg lp rx rg rp}
    (hleft : RunsAlong overflowChecks lx lg lp) (hright : RunsAlong overflowChecks rx rg rp) :
    RunsAlong overflowChecks
      (evalBinaryOpIn (Announced.attempt (PartialOp.panics overflowChecks) Fail.panic) lx op rx)
      (evalBinaryOpIn Announced.record lg op rg) (evalBinaryOp lp op rp) := by
  have hother : RunsAlong overflowChecks
      (do
        let l ← lx
        let r ← rx
        announce (Announced.attempt (PartialOp.panics overflowChecks) Fail.panic) (binaryOps op l r)
        return applyBinary op l r)
      (do
        let l ← lg
        let r ← rg
        announce Announced.record (binaryOps op l r)
        return applyBinary op l r)
      (do
        let l ← lp
        let r ← rp
        return applyBinary op l r) := by
    refine hleft.bind fun l => hright.bind fun r => ?_
    exact (Follows.announce (guarded_binaryOps op l r)).bind fun _ => .of_pure _
  cases op
  case and =>
    refine hleft.bind fun l => ?_
    exact .ite (.of_pure _) (hright.bind fun r => .of_pure _)
  case or =>
    refine hleft.bind fun l => hright.bind fun r => ?_
    exact .ite (.of_pure _) (.of_pure _)
  all_goals exact hother

end Loops

section Evaluator

open Announced (Follows)

variable [Externals] (overflowChecks : Bool) (ctx : EvalCtx) (params : List Value)

/-- The run that may panic. -/
abbrev mayPanic : List PartialOp → Except Fail Unit :=
  Announced.attempt (PartialOp.panics overflowChecks) Fail.panic

mutual

/-- Both runs follow `eval`, and what it announces is guarded. -/
theorem runsAlong_eval (e : Expr) :
    RunsAlong overflowChecks (evalIn (mayPanic overflowChecks) ctx params e)
      (evalIn Announced.record ctx params e) (eval ctx params e) := by
  cases e with
  | identifier id => exact .of_pure _
  | compoundIdentifier parts => exact .of_pure _
  | value v => exact Follows.of_state (evalLiteral v params)
  | other text placeholders => exact .of_pure _
  | nested e => exact runsAlong_eval e
  | unaryOp op e =>
      refine (runsAlong_eval e).bind fun v => ?_
      exact (Follows.announce (guarded_unaryOps op v)).bind fun _ => .of_pure _
  | isNull e => exact (runsAlong_eval e).bind fun v => .of_pure _
  | isNotNull e => exact (runsAlong_eval e).bind fun v => .of_pure _
  | binaryOp left op right =>
      exact runsAlong_evalBinaryOp op (runsAlong_eval left) (runsAlong_eval right)
  | between e negated low high =>
      refine (runsAlong_eval e).bind fun v => ?_
      exact (runsAlong_eval low).bind fun lo => (runsAlong_eval high).bind fun hi => .of_pure _
  | inList e list negated =>
      refine (runsAlong_eval e).bind fun v => ?_
      exact ((runsAlong_evalEach list).anyEqual v).bind fun found => .of_pure _
  | like negated e pattern =>
      exact (runsAlong_eval e).bind fun v => (runsAlong_eval pattern).bind fun p => .of_pure _
  | iLike negated e pattern =>
      exact (runsAlong_eval e).bind fun v => (runsAlong_eval pattern).bind fun p => .of_pure _
  | case operand conditions results elseResult =>
      exact (runsAlong_evalOption operand).caseBranches (runsAlong_evalOption elseResult).getD
        (runsAlong_evalEach conditions) (runsAlong_evalEach results)
  | function name args distinct clausePlaceholders =>
      refine (runsAlong_evalArgs args).collect.bind fun vs => ?_
      exact (Follows.announce (guarded_functionOps (toLowercase name) vs)).bind fun _ => .of_pure _

theorem runsAlong_evalEach (es : List Expr) :
    EachRunsAlong overflowChecks (evalEachIn (mayPanic overflowChecks) ctx params es)
      (evalEachIn Announced.record ctx params es) (evalEach ctx params es) := by
  cases es with
  | nil => exact .nil
  | cons e es => exact .cons (runsAlong_eval e) (runsAlong_evalEach es)

theorem runsAlong_evalOption (o : Option Expr) :
    OptionRunsAlong overflowChecks (evalOptionIn (mayPanic overflowChecks) ctx params o)
      (evalOptionIn Announced.record ctx params o) (evalOption ctx params o) := by
  cases o with
  | none => exact .none
  | some e => exact .some (runsAlong_eval e)

theorem runsAlong_evalArgs (args : List FunctionArg) :
    EachRunsAlong overflowChecks (evalArgsIn (mayPanic overflowChecks) ctx params args)
      (evalArgsIn Announced.record ctx params args) (evalArgs ctx params args) := by
  cases args with
  | nil => exact .nil
  | cons arg args => exact .cons (runsAlong_evalArg arg) (runsAlong_evalArgs args)

theorem runsAlong_evalArg (arg : FunctionArg) :
    RunsAlong overflowChecks (evalArgIn (mayPanic overflowChecks) ctx params arg)
      (evalArgIn Announced.record ctx params arg) (evalArg ctx params arg) := by
  cases arg with
  | unnamed arg => exact runsAlong_evalArgExpr arg
  | named name arg => exact runsAlong_evalArgExpr arg

theorem runsAlong_evalArgExpr (arg : FunctionArgExpr) :
    RunsAlong overflowChecks (evalArgExprIn (mayPanic overflowChecks) ctx params arg)
      (evalArgExprIn Announced.record ctx params arg) (evalArgExpr ctx params arg) := by
  cases arg with
  | expr e => exact runsAlong_eval e
  | qualifiedWildcard => exact .of_pure _
  | wildcard => exact .of_pure _

end

end Evaluator

/-- **Panics of the evaluator.** Slices and indices are always in bounds and no remainder is taken by
zero. The evaluation panics exactly if it comes to the remainder of `i64::MIN` by -1 or, where the build
checks for overflow, to the negation or the absolute value of `i64::MIN`. -/
theorem eval_panics_iff [Externals] (overflowChecks : Bool) (ctx : EvalCtx) (params : List Value)
    (e : Expr) (paramIdx : Nat) :
    let ops := operations ctx params e paramIdx
    let outcome := evalOrPanic ctx params overflowChecks e paramIdx
    (∀ op ∈ ops, op.Guarded) ∧
      (outcome = .error .panic ∨ outcome = .ok (eval ctx params e paramIdx)) ∧
      (outcome ≠ .error .panic ↔ .rem Int64.minValue (-1) ∉ ops ∧
        (overflowChecks = true → .neg Int64.minValue ∉ ops ∧ .abs Int64.minValue ∉ ops)) := by
  intro ops outcome
  obtain ⟨ops', hruns⟩ := runsAlong_eval overflowChecks ctx params e paramIdx
  obtain rfl : ops = ops' := congrArg Prod.snd (hruns.recorded [])
  have houtcome : outcome = if ops.any (PartialOp.panics overflowChecks) then .error .panic
      else .ok (eval ctx params e paramIdx) := hruns.outcome
  refine ⟨hruns.allowed, ?_, ?_⟩
  · rw [houtcome]
    exact ite_eq_or_eq _ _ _
  · rw [← any_panics_eq_false_iff hruns.allowed, houtcome]
    cases ops.any (PartialOp.panics overflowChecks) <;> simp

/-! ### Where it fails -/

theorem evalOrPanic_modulo [Externals] {overflowChecks : Bool} {ctx : EvalCtx} {params : List Value}
    {left right : Expr} {i j k : Nat} {l r : Value}
    (hleft : evalOrPanic ctx params overflowChecks left i = .ok (l, j))
    (hright : evalOrPanic ctx params overflowChecks right j = .ok (r, k))
    (hpanics : (binaryOps .modulo l r).any (PartialOp.panics overflowChecks) = true) :
    evalOrPanic ctx params overflowChecks (.binaryOp left .modulo right) i = .error .panic := by
  have hmay : mayPanic overflowChecks (binaryOps .modulo l r) = .error .panic := by
    rw [mayPanic, Announced.attempt, hpanics]
    rfl
  change (evalOrPanic ctx params overflowChecks left i >>= fun a =>
    evalOrPanic ctx params overflowChecks right a.2 >>= fun b =>
      StateT.lift (mayPanic overflowChecks (binaryOps .modulo a.1 b.1)) b.2 >>= fun c =>
        Except.ok (applyBinary .modulo a.1 b.1, c.2)) = _
  rw [hleft]
  change (evalOrPanic ctx params overflowChecks right j >>= _) = _
  rw [hright]
  change ((mayPanic overflowChecks (binaryOps .modulo l r) >>= _) >>= _) = _
  rw [hmay]
  rfl

/-- `? % ?` with `i64::MIN` and -1 panics in every build, and `-?` with `i64::MIN` where overflow is
checked. -/
theorem min_rem_panics :
    letI := Externals.ofTexts [] []
    let placeholder : Expr := .value (.placeholder "?")
    let params := [.integer Int64.minValue, .integer (-1)]
    (∀ overflowChecks, evalOrPanic .noRow params overflowChecks
      (.binaryOp placeholder .modulo placeholder) 0 = .error .panic) ∧
      evalOrPanic .noRow params true (.unaryOp .minus placeholder) 0 = .error .panic := by
  let _ := Externals.ofTexts [] []
  intro placeholder params
  have hone : (F64.ofInt (-1 : Int64).toInt).isZero = false := by
    rw [F64.ofInt_eq_nearestInt (by decide)]
    decide
  have hops : binaryOps .modulo (.integer Int64.minValue) (.integer (-1)) =
      [.rem Int64.minValue (-1)] := by
    rw [binaryOps, hone]
    rfl
  refine ⟨fun overflowChecks => ?_, rfl⟩
  have hleft : evalOrPanic .noRow params overflowChecks placeholder 0 =
      .ok (.integer Int64.minValue, 1) := rfl
  have hright : evalOrPanic .noRow params overflowChecks placeholder 1 =
      .ok (.integer (-1), 2) := rfl
  refine evalOrPanic_modulo hleft hright ?_
  rw [hops]
  rfl

end Skvs
