import Skvs.Proof.GroupedValues

/-!
# Aggregates without GROUP BY

Without GROUP BY the SELECT list goes through `eval`, row by row, and `eval` knows no aggregate
function: every call of one is NULL, once for each row.
-/

namespace Skvs

section

variable [Externals]

/-- Aggregate calls only, at least one of them. -/
def AggregatesOnly (projection : List SelectItem) : Prop :=
  projection ≠ [] ∧ ∀ item ∈ projection, ∃ name e, groupedColumn item = some (name, e) ∧
    e.isAggregate = true

/-- The aggregate is NULL over this row alone: it has no column to work on, or no value there that
counts. -/
def Expr.nullOn (row : Row) : Expr → Bool
  | .function name args _ _ =>
    match toLowercase name, aggregateColumn args with
    | "count", _ => false
    | "sum", some _ => false
    | "avg", some col => (numeric (row.get col)).isNone
    | "max", some col => ((row.get col).getD .null).isNull
    | "min", some col => ((row.get col).getD .null).isNull
    | _, _ => true
  | _ => true

theorem evaluateAggregate_eq_null_iff {e : Expr} (he : e.isAggregate = true) (row : Row) :
    evaluateAggregate e [row] = .null ↔ e.nullOn row = true := by
  cases e with
  | function name args isDistinct =>
      simp only [Expr.isAggregate, aggregateNames, List.mem_cons, List.not_mem_nil, or_false,
        decide_eq_true_iff] at he
      rcases he with hname | hname | hname | hname | hname <;>
        simp only [evaluateAggregate, Expr.nullOn, hname]
      · cases aggregateColumn args with
        | none => simp
        | some col =>
            simp only [countColumn]
            split_ifs <;> simp
      · cases aggregateColumn args with
        | none => simp
        | some col =>
            simp only
            split_ifs <;> simp
      · cases aggregateColumn args with
        | none => simp
        | some col => cases hval : numeric (row.get col) <;> simp [hval]
      all_goals
        cases aggregateColumn args with
        | none => simp
        | some col =>
            cases hval : row.get col with
            | none => simp [hval, maxBy, minBy, Value.isNull]
            | some v => cases v <;> simp [hval, maxBy, minBy, Value.isNull]
  | _ => cases he

/-- As a scalar expression an aggregate call is NULL. -/
theorem evalFrom_of_isAggregate {e : Expr} (he : e.isAggregate = true) (ctx : EvalCtx)
    (params : List Value) (paramIdx : Nat) : evalFrom ctx params e paramIdx = .null := by
  cases e with
  | function name args isDistinct =>
      simp only [Expr.isAggregate, aggregateNames, List.mem_cons, List.not_mem_nil, or_false,
        decide_eq_true_iff] at he
      have hnull : ∀ vs, applyFunction (toLowercase name) vs = .null := by
        intro vs
        rcases he with hname | hname | hname | hname | hname <;> rw [hname] <;> rfl
      rw [evalFrom, eval]
      exact hnull _
  | _ => cases he

/-- The row that aggregates make without GROUP BY. -/
def nullRow (projection : List SelectItem) : Row :=
  ((projection.filterMap groupedColumn).map fun c => (c.1, Value.null)).foldl
    (fun r c => r.insert c.1 c.2) ∅

theorem projected_eq_nullRow {projection : List SelectItem} (h : AggregatesOnly projection)
    (params : List Value) (row : Row) :
    projection.foldl (projectItem params row) ∅ = nullRow projection := by
  obtain ⟨-, hitems⟩ := h
  rw [nullRow, List.foldl_map]
  generalize (∅ : Row) = start
  induction projection generalizing start with
  | nil => rfl
  | cons item items ih =>
      rw [List.forall_mem_cons] at hitems
      obtain ⟨⟨name, e, hcolumn, he⟩, hrest⟩ := hitems
      rw [List.foldl_cons, List.filterMap_cons_some hcolumn, List.foldl_cons, ih hrest]
      refine congrArg (fun r => List.foldl _ r _) ?_
      have hnull := evalFrom_of_isAggregate he (.withRow row) params 0
      cases item with
      | unnamedExpr e' =>
          cases e' with
          | function =>
              obtain ⟨rfl, rfl⟩ := Prod.mk.inj (Option.some.inj hcolumn)
              rw [projectItem, hnull]
              rfl
          | _ =>
              obtain ⟨-, rfl⟩ := Prod.mk.inj (Option.some.inj hcolumn)
              exact nomatch he
      | exprWithAlias e' alias_ =>
          obtain ⟨rfl, rfl⟩ := Prod.mk.inj (Option.some.inj hcolumn)
          rw [projectItem, hnull]
      | qualifiedWildcard | wildcard => exact nomatch hcolumn

theorem get_nullRow (projection : List SelectItem) (name : String) :
    (nullRow projection).get name = (shownUnder projection name).map fun _ => .null := by
  rw [nullRow, IndexMap.get_foldl_insert, ← List.map_reverse,
    IndexMap.lookup_map _ fun _ _ => Value.null, IndexMap.get_empty, Option.or_none, shownUnder]

theorem keys_nullRow (projection : List SelectItem) (groupRows : List Row) :
    (nullRow projection).keys = (groupRow projection groupRows).keys := by
  rw [nullRow, groupRow_eq]
  refine IndexMap.keys_foldl_insert_congr ?_ rfl
  rw [List.map_map, List.map_map]
  rfl

/-- Rows with one key are one group. -/
theorem groupsOf_eq_singleton {exprs : List Expr} {rows : List Row} (hne : rows ≠ [])
    (hone : ∀ row ∈ rows, ∀ row' ∈ rows, groupKey exprs row = groupKey exprs row') :
    groupsOf exprs rows = [rows] := by
  obtain ⟨first, rest, rfl⟩ := List.exists_cons_of_ne_nil hne
  have hfirst : ∀ row ∈ first :: rest, groupKey exprs row = groupKey exprs first := fun row hrow =>
    hone row hrow first List.mem_cons_self
  have hothers : (rest.map (groupKey exprs)).filter (fun k => !(k == groupKey exprs first)) = [] := by
    rw [List.filter_eq_nil_iff]
    intro k hk
    obtain ⟨row, hrow, rfl⟩ := List.mem_map.mp hk
    simp [hfirst row (List.mem_cons_of_mem _ hrow)]
  have hall : (first :: rest).filter (fun row => some (groupKey exprs row) =
      some (groupKey exprs first)) = first :: rest :=
    List.filter_eq_self.mpr fun row hrow => decide_eq_true (congrArg some (hfirst row hrow))
  rw [groupsOf, IndexMap.values_buckets, List.filterMap_eq_map', List.map_cons, List.eraseDups_cons,
    hothers, List.eraseDups_nil, List.map_singleton, hall]

variable (state : KvsState) (dbId : UInt32) (params : List Value)

/-- `SELECT projection FROM from WHERE selection`, with GROUP BY. -/
def groupedQuery (projection : List SelectItem) (from_ : List TableWithJoins)
    (selection : Option Expr) (exprs : List Expr) : Query :=
  ⟨.select ⟨false, projection, from_, selection, .expressions exprs⟩, [], none, none⟩

variable {projection : List SelectItem} {from_ : List TableWithJoins} {selection : Option Expr}
  {fuel : Nat} {rows : List Row}

/-- One row of NULLs for each row that matches. -/
theorem ungrouped_rows (h : AggregatesOnly projection)
    (hrows : ∀ exprs, fromRows state dbId params fuel
      ⟨false, projection, from_, selection, .expressions exprs⟩ = .ok rows) :
    (executeSelect state dbId (fuel + 1) (groupedQuery projection from_ selection []) params).map
        QueryResult.rows =
      .ok ((whereRows state dbId params selection rows).map fun _ =>
        (nullRow projection).erase "_rowid_") := by
  have hall : (projection.isEmpty || projection.all SelectItem.isWildcard) = false := by
    obtain ⟨hne, hitems⟩ := h
    obtain ⟨item, items, rfl⟩ := List.exists_cons_of_ne_nil hne
    obtain ⟨name, e, hcolumn, -⟩ := hitems item List.mem_cons_self
    cases item with
    | unnamedExpr | exprWithAlias => rfl
    | qualifiedWildcard | wildcard => exact nomatch hcolumn
  have hselect := executeSelect_rows state dbId params
    (show (groupedQuery projection from_ selection []).body = .select _ from rfl) fuel
  rw [hrows] at hselect
  refine hselect.trans (congrArg Except.ok ?_)
  have hplain : ∀ rows, applyGroupBy rows (.expressions []) projection = rows := fun _ => rfl
  simp only [Bool.false_eq_true, if_false, finishSelect_eq, hplain, isGrouped, List.isEmpty_nil,
    Bool.not_true, applyProjection, hall]
  rw [List.map_map]
  exact List.map_congr_left fun row _ => by
    rw [Function.comp_apply, projected_eq_nullRow h]

/-- One row for the group that all matching rows are in. -/
theorem grouped_row {exprs : List Expr} (hexprs : exprs ≠ [])
    (hrows : ∀ exprs, fromRows state dbId params fuel
      ⟨false, projection, from_, selection, .expressions exprs⟩ = .ok rows)
    (hmatch : whereRows state dbId params selection rows ≠ [])
    (hone : ∀ row ∈ whereRows state dbId params selection rows,
      ∀ row' ∈ whereRows state dbId params selection rows, groupKey exprs row = groupKey exprs row') :
    (executeSelect state dbId (fuel + 1) (groupedQuery projection from_ selection exprs) params).map
        QueryResult.rows =
      .ok [(groupRow projection (whereRows state dbId params selection rows)).erase "_rowid_"] := by
  have hselect := executeSelect_rows state dbId params
    (show (groupedQuery projection from_ selection exprs).body = .select _ from rfl) fuel
  rw [hrows] at hselect
  refine hselect.trans (congrArg Except.ok ?_)
  have hgrouped : isGrouped (.expressions exprs) = true := by simpa [isGrouped] using hexprs
  simp only [Bool.false_eq_true, if_false, finishSelect_eq, hgrouped, if_true,
    applyGroupBy_eq hexprs, groupsOf_eq_singleton hmatch hone]
  rfl

/-- The two SELECTs return the same single row just when one row matches and all aggregates are NULL
on it. -/
theorem ungrouped_aggregates_iff (h : AggregatesOnly projection) {exprs : List Expr}
    (hexprs : exprs ≠ [])
    (hrows : fromRows state dbId params fuel
      ⟨false, projection, from_, selection, .expressions []⟩ = .ok rows)
    (hmatch : whereRows state dbId params selection rows ≠ [])
    (hone : ∀ row ∈ whereRows state dbId params selection rows,
      ∀ row' ∈ whereRows state dbId params selection rows, groupKey exprs row = groupKey exprs row') :
    (∃ row,
      (executeSelect state dbId (fuel + 1) (groupedQuery projection from_ selection []) params).map
        QueryResult.rows = .ok [row] ∧
      (executeSelect state dbId (fuel + 1) (groupedQuery projection from_ selection exprs) params).map
        QueryResult.rows = .ok [row]) ↔
    ∃ row, whereRows state dbId params selection rows = [row] ∧
      ∀ name e, name ≠ "_rowid_" → shownUnder projection name = some e → e.nullOn row = true := by
  have hrows : ∀ exprs, fromRows state dbId params fuel
      ⟨false, projection, from_, selection, .expressions exprs⟩ = .ok rows := fun _ => hrows
  rw [ungrouped_rows state dbId params h hrows,
    grouped_row state dbId params hexprs hrows hmatch hone]
  have haggregate : ∀ name e, shownUnder projection name = some e → e.isAggregate = true := by
    intro name e hshown
    obtain ⟨item, hitem, hcolumn⟩ := mem_of_shownUnder hshown
    obtain ⟨name', e', hcolumn', he⟩ := h.2 item hitem
    rw [hcolumn'] at hcolumn
    obtain ⟨-, rfl⟩ := Prod.mk.inj (Option.some.inj hcolumn)
    exact he
  have hget : ∀ (r : Row) k, (r.erase "_rowid_").get k = if k = "_rowid_" then none else r.get k :=
    fun r k => IndexMap.get_erase ..
  have hequal : ∀ row, (nullRow projection).erase "_rowid_" =
      (groupRow projection [row]).erase "_rowid_" ↔ ∀ name e, name ≠ "_rowid_" →
        shownUnder projection name = some e → e.nullOn row = true := by
    intro row
    constructor
    · intro heq name e hname hshown
      have hfield := congrArg (fun r => r.get name) heq
      simp only [hget, if_neg hname, get_nullRow, get_groupRow, hshown, Option.map_some,
        Option.some.injEq] at hfield
      exact (evaluateAggregate_eq_null_iff (haggregate name e hshown) row).mp hfield.symm
    · intro hnull
      refine IndexMap.ext_keys_get ?_ fun name => ?_
      · rw [IndexMap.keys_erase, IndexMap.keys_erase, keys_nullRow projection [row]]
      · rw [hget, hget, get_nullRow, get_groupRow]
        split_ifs with hname
        · rfl
        · cases hshown : shownUnder projection name with
          | none => rfl
          | some e =>
              exact congrArg some ((evaluateAggregate_eq_null_iff (haggregate name e hshown) row).mpr
                (hnull name e hname hshown)).symm
  constructor
  · rintro ⟨row, hplain, hgrouped⟩
    obtain ⟨only, hmatching, hrow⟩ := List.map_eq_singleton_iff.mp (Except.ok.inj hplain)
    refine ⟨only, hmatching, (hequal only).mp ?_⟩
    rw [hrow, ← hmatching]
    exact (List.singleton_inj.mp (Except.ok.inj hgrouped)).symm
  · rintro ⟨row, hmatching, hnull⟩
    rw [hmatching]
    exact ⟨_, rfl, congrArg (fun r => Except.ok [r]) ((hequal row).mpr hnull).symm⟩

end

namespace Sample

/-- `SELECT function(a) AS x`. -/
def aggregateOfA (function : String) : List SelectItem :=
  [.exprWithAlias (.function function [.unnamed (.expr (.identifier (name "a")))] false 0) (name "x")]

/-- A table with the given values. -/
def filledWith (values : List SqlValue) : KvsState :=
  letI := Externals.ofTexts [] []
  after [call (create []) none, call (insert values) none]

end Sample

theorem ungrouped_max_of_null :
    letI := Externals.ofTexts [] []
    let query := groupedQuery (Sample.aggregateOfA "max") [⟨.table "t" none, []⟩] none
    ∃ row, (executeSelect (Sample.filledWith [.null]) 0 1 (query []) []).map QueryResult.rows =
        .ok [row] ∧
      (executeSelect (Sample.filledWith [.null]) 0 1 (query [.identifier (Sample.name "a")]) []).map
        QueryResult.rows = .ok [row] := by
  let _ := Externals.ofTexts [] []
  intro query
  have haggregates : AggregatesOnly (Sample.aggregateOfA "max") :=
    ⟨List.cons_ne_nil _ _, List.forall_mem_singleton.mpr ⟨_, _, rfl, by decide⟩⟩
  have hrows : fromRows (Sample.filledWith [.null]) 0 [] 0
      ⟨false, Sample.aggregateOfA "max", [⟨.table "t" none, []⟩], none, .expressions []⟩ =
        .ok [.ofList [("a", .null), ("_rowid_", .integer 1)]] := by
    change rowsForSimpleWhere (Sample.filledWith [.null]) 0 "t" none [] = _
    decide
  refine (ungrouped_aggregates_iff (Sample.filledWith [.null]) 0 [] haggregates (List.cons_ne_nil _ _)
    hrows (List.cons_ne_nil _ _) fun row hrow row' hrow' => by
      rw [List.mem_singleton.mp hrow, List.mem_singleton.mp hrow']).mpr ⟨_, rfl, ?_⟩
  intro name e _ hshown
  obtain ⟨item, hitem, hcolumn⟩ := mem_of_shownUnder hshown
  rw [List.mem_singleton.mp hitem] at hcolumn
  obtain ⟨-, rfl⟩ := Prod.mk.inj (Option.some.inj hcolumn)
  decide

/-- `SELECT COUNT(a) AS x FROM t` returns two rows with NULL where t holds 1 twice, and 2 with
`GROUP BY a`. -/
theorem ungrouped_count_of_two :
    letI := Externals.ofTexts [] []
    let query := groupedQuery (Sample.aggregateOfA "count") [⟨.table "t" none, []⟩] none
    let twice := Sample.filledWith [.number "1", .number "1"]
    (executeSelect twice 0 1 (query []) []).map QueryResult.rows =
      .ok [.ofList [("x", .null)], .ofList [("x", .null)]] ∧
    (executeSelect twice 0 1 (query [.identifier (Sample.name "a")]) []).map QueryResult.rows =
      .ok [.ofList [("x", .integer 2)]] := by
  decide

end Skvs
