import Skvs.Select

/-!
# The rows of a SELECT

The rows that a SELECT starts from, those that its WHERE clause lets through, and what the clauses
behind it can do with the rows made of them.
-/

namespace Skvs

variable [Externals] (state : KvsState) (dbId : UInt32) (params : List Value)

/-- The rows that a SELECT starts from: those of its view, its table or its joins. -/
def fromRows (fuel : Nat) (select : Select) : Except Fail (List Row) :=
  match select.from_ with
  | [] => .ok []
  | [⟨relation, []⟩] =>
    match state.getViewDefinition dbId (parseTableFactor relation).1 with
    | some viewSql => do
      let inner ← match (← parseStatements viewSql).head? with
        | some (.query viewQuery) => executeSelect state dbId fuel viewQuery params
        | _ => .error (.err (.view "View definition must be a SELECT"))
      .ok inner.rows
    | none => rowsForSimpleWhere state dbId (parseTableFactor relation).1 select.selection params
  | from_ => executeJoins state dbId from_ params

def whereRows (selection : Option Expr) (rows : List Row) : List Row :=
  match selection with
  | some whereExpr => rows.filter fun row => whereHolds state dbId row params whereExpr 0
  | none => rows

/-- What ORDER BY and LIMIT make of the rows. -/
def orderedRows (query : Query) (rows : List Row) : List Row :=
  let ordered := if query.orderBy.isEmpty then rows else applyOrderBy rows query.orderBy
  match query.limit with
  | some limitExpr => applyLimit ordered limitExpr query.offset
  | none => ordered

theorem finishSelect_eq (query : Query) (select : Select) (rows : List Row) :
    finishSelect state dbId query select params rows =
      let grouped := applyGroupBy (whereRows state dbId params select.selection rows) select.groupBy
        select.projection
      if isGrouped select.groupBy then orderedRows query grouped
      else applyProjection (orderedRows query grouped) select.projection params :=
  rfl

/-! ### What ORDER BY, LIMIT and DISTINCT keep -/

theorem applyOrderBy_perm (rows : List Row) (orderBy : List OrderByExpr) :
    (applyOrderBy rows orderBy).Perm rows := by
  rw [applyOrderBy]
  induction orderBy.reverse generalizing rows with
  | nil => exact .refl rows
  | cons order orders ih =>
      rw [List.foldl_cons]
      exact (ih _).trans (List.mergeSort_perm rows _)

theorem orderedRows_subset (query : Query) (rows : List Row) : orderedRows query rows ⊆ rows := by
  have hordered : (if query.orderBy.isEmpty then rows else applyOrderBy rows query.orderBy) ⊆ rows := by
    split_ifs
    · exact List.Subset.refl rows
    · exact (applyOrderBy_perm rows query.orderBy).subset
  rw [orderedRows]
  cases query.limit with
  | none => exact hordered
  | some limitExpr =>
      exact List.Subset.trans (List.take_subset ..) (List.Subset.trans (List.drop_subset ..) hordered)

theorem retainDistinct_sublist (seen : List String) (rows : List Row) :
    (retainDistinct seen rows).Sublist rows := by
  induction rows generalizing seen with
  | nil => exact .refl []
  | cons row rows ih =>
      rw [retainDistinct]
      split_ifs
      · exact (ih seen).cons row
      · exact (ih _).cons_cons row

theorem finishSelect_nil (query : Query) (select : Select) :
    finishSelect state dbId query select params [] = [] := by
  have hwhere : whereRows state dbId params select.selection [] = [] := by
    cases select.selection <;> rfl
  have hgroup : applyGroupBy [] select.groupBy select.projection = [] := by
    cases select.groupBy with
    | all => rfl
    | expressions exprs => cases exprs <;> rfl
  have hordered : orderedRows query [] = [] := List.subset_nil.mp (orderedRows_subset query [])
  have hprojection : applyProjection [] select.projection params = [] := by
    rw [applyProjection]
    split_ifs <;> rfl
  simp only [finishSelect_eq, hwhere, hgroup, hordered, hprojection, ite_self]

/-! ### The statement -/

/-- The rows of a SELECT before DISTINCT, and the schema for the columns of `*`. -/
def finishedRows (state : KvsState) (dbId : UInt32) (fuel : Nat) (query : Query) (select : Select)
    (params : List Value) : Except Fail (List Row × Option TableSchema) :=
  match select.from_ with
  | [] => .ok ([], none)
  | [⟨relation, []⟩] =>
    match state.getViewDefinition dbId (parseTableFactor relation).1 with
    | some viewSql => do
      let inner ← match (← parseStatements viewSql).head? with
        | some (.query viewQuery) => executeSelect state dbId fuel viewQuery params
        | _ => .error (.err (.view "View definition must be a SELECT"))
      .ok (finishSelect state dbId query select params inner.rows, none)
    | none => do
      let rows ← rowsForSimpleWhere state dbId (parseTableFactor relation).1 select.selection params
      .ok (finishSelect state dbId query select params rows,
        state.getSchema dbId (parseTableFactor relation).1)
  | from_ => do
    let rows ← executeJoins state dbId from_ params
    .ok (finishSelect state dbId query select params rows, none)

/-- The schema that names the columns of `*` where there is no row. -/
def wildcardSchema (state : KvsState) (dbId : UInt32) (select : Select) : Option TableSchema :=
  match select.from_ with
  | [⟨relation, []⟩] =>
    match state.getViewDefinition dbId (parseTableFactor relation).1 with
    | some _ => none
    | none => state.getSchema dbId (parseTableFactor relation).1
  | _ => none

theorem finishedRows_eq (state : KvsState) (dbId : UInt32) (fuel : Nat) (query : Query)
    (select : Select) (params : List Value) :
    finishedRows state dbId fuel query select params =
      (fromRows state dbId params fuel select).map fun rows =>
        (finishSelect state dbId query select params rows, wildcardSchema state dbId select) := by
  simp only [finishedRows, fromRows, wildcardSchema]
  rcases select.from_ with _ | ⟨⟨relation, _ | ⟨join, joins⟩⟩, _ | ⟨next, rest⟩⟩
  case nil => exact congrArg (fun rows => Except.ok (rows, none)) (finishSelect_nil ..).symm
  case cons.nil.nil =>
    simp only
    cases state.getViewDefinition dbId (parseTableFactor relation).1 with
    | none =>
        cases rowsForSimpleWhere state dbId (parseTableFactor relation).1 select.selection params <;>
          rfl
    | some viewSql =>
        cases hstmts : parseStatements viewSql with
        | error => simp only [hstmts]; rfl
        | ok stmts =>
            simp only [hstmts, bind, Except.bind]
            cases stmts.head? with
            | none => rfl
            | some stmt =>
                cases stmt with
                | query viewQuery =>
                    simp only
                    cases executeSelect state dbId fuel viewQuery params <;> rfl
                | _ => rfl
  all_goals
    simp only
    cases executeJoins state dbId _ params <;> rfl

variable {state dbId params} in
theorem executeSelect_succ {query : Query} {select : Select} (hbody : query.body = .select select)
    (fuel : Nat) :
    executeSelect state dbId (fuel + 1) query params = (do
      let (rows, schemaForWildcard) ← finishedRows state dbId fuel query select params
      let rows := if select.distinct then retainDistinct [] rows else rows
      let rows := rows.map fun row => row.erase "_rowid_"
      return .ofRows rows (selectColumns select schemaForWildcard rows)) := by
  have hok : ∀ {α β : Type} (a : α) (f : α → Except Fail β), (Except.ok a >>= f) = f a :=
    fun _ _ => rfl
  have herror : ∀ {α β : Type} (e : Fail) (f : α → Except Fail β), (Except.error e >>= f) = .error e :=
    fun _ _ => rfl
  simp only [executeSelect, hbody, hok, herror, finishedRows]
  rcases select.from_ with _ | ⟨⟨relation, _ | ⟨join, joins⟩⟩, _ | ⟨next, rest⟩⟩
  case nil => rfl
  case cons.nil.nil =>
    simp only
    cases state.getViewDefinition dbId (parseTableFactor relation).1 with
    | none => simp only [bind_assoc, hok]
    | some viewSql =>
        simp only [bind_assoc]
        refine bind_congr fun stmts => ?_
        rcases stmts.head? with _ | stmt
        · rfl
        · cases stmt with
          | query viewQuery => simp only [bind_assoc, hok]
          | _ => rfl
  all_goals simp only [bind_assoc, hok]

/-- The rows of a SELECT. -/
theorem executeSelect_rows {query : Query} {select : Select} (hbody : query.body = .select select)
    (fuel : Nat) :
    (executeSelect state dbId (fuel + 1) query params).map QueryResult.rows =
      (fromRows state dbId params fuel select).map fun rows =>
        (if select.distinct then retainDistinct [] (finishSelect state dbId query select params rows)
          else finishSelect state dbId query select params rows).map fun row =>
            row.erase "_rowid_" := by
  rw [executeSelect_succ hbody, finishedRows_eq]
  cases fromRows state dbId params fuel select <;> rfl

/-- A row of a grouped SELECT is a row that GROUP BY made, less its internal rowid field. -/
theorem mem_grouped_select {query : Query} {select : Select} (hbody : query.body = .select select)
    (hgrouped : isGrouped select.groupBy = true) {fuel : Nat} {rows : List Row}
    (hrows : fromRows state dbId params fuel select = .ok rows) {result : QueryResult}
    (hresult : executeSelect state dbId (fuel + 1) query params = .ok result) {row : Row}
    (hmem : row ∈ result.rows) :
    ∃ grouped ∈ applyGroupBy (whereRows state dbId params select.selection rows) select.groupBy
      select.projection, row = grouped.erase "_rowid_" := by
  have hexecute := executeSelect_rows state dbId params hbody fuel
  rw [hresult, hrows] at hexecute
  rw [Except.ok.inj hexecute] at hmem
  obtain ⟨grouped, hgroup, rfl⟩ := List.mem_map.mp hmem
  have hfinish : grouped ∈ finishSelect state dbId query select params rows := by
    split_ifs at hgroup
    · exact (retainDistinct_sublist [] _).subset hgroup
    · exact hgroup
  simp only [finishSelect_eq, hgrouped, if_true] at hfinish
  exact ⟨grouped, orderedRows_subset query _ hfinish, rfl⟩

omit [Externals] in
def Sample.selectQuery (select : Select) : Query := ⟨.select select, [], none, none⟩

end Skvs
